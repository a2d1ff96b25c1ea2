import Clarmor.Check.Strategies
import Clarmor.Library.Arrays

/-!
# Putting the results of the regions together

`format_result_buff` writes one result for each buffer into the array that it still
reads the results of the two regions from.  A slot is written over only when its own
turn comes, and the results that the turn needs are at or behind it.

The index of a result is computed in 32 bits.  From buffer `2 ^ 31` on it wraps, and
then the results that are read have been written over before.
-/

namespace Clarmor

open Word Loop Arrays

/-- The result of an object from those of its regions. -/
def merged (half1 half2 : Nat) : Nat :=
  let half2 := if half2 < INT_MAX then half2 + POISON_FILL_LENGTH else half2
  if half1 < half2 then half1 else half2

/-- One turn of the loop of `format_result_buff` in the array of the results. -/
def formatResultAt (i : Nat) (firstChange : List Nat) : Option (List Nat) :=
  firstChange[u32 (POISON_REGIONS * i)]?.bind fun half1 =>
    firstChange[u32 (POISON_REGIONS * i + 1)]?.bind fun half2 =>
      (if half2 < INT_MAX then int32 (half2 + POISON_FILL_LENGTH) else some half2).bind
        fun half2 => put firstChange i (if half1 < half2 then half1 else half2)

/-- `format_result_buff` in the array of the results. -/
def formatResultArray (numBuff : Nat) (firstChange : List Nat) : Option (List Nat) :=
  loop numBuff formatResultAt firstChange

/-- A result of a region: `INT_MAX` or an offset in it. -/
def IsRegionResult (change : Nat) : Prop := change = INT_MAX ∨ change < POISON_FILL_LENGTH

/-- The result that a buffer should get: the least of the first one of its results and
of the second one, which counts from the second region on. -/
def leastChange (firstChange : List Nat) (i : Nat) : Nat :=
  let half1 := firstChange.getD (2 * i) INT_MAX
  let half2 := firstChange.getD (2 * i + 1) INT_MAX
  min half1 (if half2 = INT_MAX then INT_MAX else half2 + POISON_FILL_LENGTH)

/-- All buffers get their results, in an array of the same length. -/
def MergesResults (numBuff : Nat) (firstChange : List Nat) : Prop :=
  ∃ results, formatResultArray numBuff firstChange = some results ∧
    results.length = firstChange.length ∧
      ∀ i < numBuff, results[i]? = some (leastChange firstChange i)

/-! ## The turns -/

variable {numBuff i j : Nat} {f : Nat → Nat}

theorem formatResult_formatResultBuff (n : Nat) (f : Nat → Nat) :
    formatResult (formatResultBuff n f) n = formatResultBuff (n + 1) f := by
  rw [formatResultBuff, formatResultBuff, List.range_succ, List.foldl_append]
  rfl

theorem formatResultBuff_succ (n : Nat) (f : Nat → Nat) :
    formatResultBuff (n + 1) f = Function.update (formatResultBuff n f) n
      (merged (formatResultBuff n f (u32 (2 * n))) (formatResultBuff n f (u32 (2 * n + 1)))) := by
  rw [← formatResult_formatResultBuff]
  rfl

/-- The slots of later buffers are not yet written over. -/
theorem formatResultBuff_of_le (le : numBuff ≤ i) : formatResultBuff numBuff f i = f i := by
  induction numBuff with
  | zero => rfl
  | succ n ih =>
      rw [formatResultBuff_succ, Function.update_of_ne (by omega), ih (by omega)]

/-- A slot keeps what its turn wrote. -/
theorem formatResultBuff_of_lt (iLt : i < numBuff) : formatResultBuff numBuff f i =
    merged (formatResultBuff i f (u32 (2 * i))) (formatResultBuff i f (u32 (2 * i + 1))) := by
  induction numBuff with
  | zero => contradiction
  | succ n ih =>
      rw [formatResultBuff_succ]
      rcases Nat.lt_succ_iff_lt_or_eq.mp iLt with earlier | rfl
      · rw [Function.update_of_ne (by omega), ih earlier]
      · rw [Function.update_self]

theorem formatResultBuff_mid (jLt : j < i) (iLe : i ≤ numBuff) :
    formatResultBuff i f j = formatResultBuff numBuff f j := by
  rw [formatResultBuff_of_lt jLt, formatResultBuff_of_lt (lt_of_lt_of_le jLt iLe)]

/-- As long as the index does not wrap, the results of the regions are still there. -/
theorem formatResultBuff_early (iLt : i < numBuff) (early : i < 2147483648) :
    formatResultBuff numBuff f i = merged (f (2 * i)) (f (2 * i + 1)) := by
  rw [formatResultBuff_of_lt iLt, u32_of_lt (by omega), u32_of_lt (by omega),
    formatResultBuff_of_le (by omega), formatResultBuff_of_le (by omega)]

/-- When it has wrapped, the results of two earlier buffers are merged. -/
theorem formatResultBuff_late (iLt : i < numBuff) (late : 2147483648 ≤ i)
    (inside : numBuff < 4294967296) : formatResultBuff numBuff f i =
      merged (formatResultBuff numBuff f (2 * i - 4294967296))
        (formatResultBuff numBuff f (2 * i + 1 - 4294967296)) := by
  have first : u32 (2 * i) = 2 * i - 4294967296 := by
    unfold u32
    omega
  have second : u32 (2 * i + 1) = 2 * i + 1 - 4294967296 := by
    unfold u32
    omega
  have front := @formatResultBuff_mid numBuff i (2 * i - 4294967296) f (by omega) (by omega)
  have back := @formatResultBuff_mid numBuff i (2 * i + 1 - 4294967296) f (by omega) (by omega)
  rw [formatResultBuff_of_lt iLt, first, second, front, back]

/-! ## The array -/

/-- The first cells of a function. -/
def firstCells (len : Nat) (f : Nat → Nat) : List Nat := (List.range len).map f

variable {len : Nat}

theorem firstCells_getElem? {c : Nat} (cLt : c < len) : (firstCells len f)[c]? = some (f c) := by
  rw [firstCells, List.getElem?_map, List.getElem?_range cLt, Option.map_some]

theorem firstCells_set (len c v : Nat) (f : Nat → Nat) :
    (firstCells len f).set c v = firstCells len (Function.update f c v) := by
  apply List.ext_getElem?
  intro k
  rw [List.getElem?_set]
  by_cases here : c = k
  · subst here
    by_cases inside : c < len
    · simp [firstCells, inside]
    · simp [firstCells, inside]
  · rw [if_neg here]
    by_cases inside : k < len
    · rw [firstCells_getElem? inside, firstCells_getElem? inside,
        Function.update_of_ne (Ne.symm here)]
    · simp [firstCells, inside]

theorem firstCells_getD (firstChange : List Nat) :
    firstCells firstChange.length (fun c => firstChange.getD c INT_MAX) = firstChange := by
  apply List.ext_getElem?
  intro c
  by_cases inside : c < firstChange.length
  · rw [firstCells_getElem? inside, List.getD_eq_getElem?_getD, List.getElem?_eq_getElem inside]
    rfl
  · simp [firstCells, inside]

/-- The sum of a turn is an `int`. -/
def SumFits (f : Nat → Nat) (i : Nat) : Prop :=
  f (u32 (2 * i + 1)) < INT_MAX → f (u32 (2 * i + 1)) + POISON_FILL_LENGTH ≤ INT_MAX

instance (f : Nat → Nat) (i : Nat) : Decidable (SumFits f i) :=
  inferInstanceAs (Decidable (_ → _))

/-- A turn in the array. -/
theorem formatResultAt_eq (inside : 2 * i + 1 < len) :
    formatResultAt i (firstCells len f) =
      if SumFits f i then some (firstCells len (formatResult f i)) else none := by
  have front : u32 (2 * i) < len := lt_of_le_of_lt (u32_le _) (by omega)
  have back : u32 (2 * i + 1) < len := lt_of_le_of_lt (u32_le _) inside
  have room : i < (firstCells len f).length := by
    rw [firstCells, List.length_map, List.length_range]
    omega
  rw [formatResultAt, POISON_REGIONS, firstCells_getElem? front, firstCells_getElem? back,
    Option.bind_some, Option.bind_some]
  by_cases some : f (u32 (2 * i + 1)) < INT_MAX
  · rw [if_pos some]
    by_cases fits : f (u32 (2 * i + 1)) + POISON_FILL_LENGTH ≤ INT_MAX
    · have sum : SumFits f i := fun _ => fits
      rw [if_pos sum, int32_of_lt (Nat.lt_succ_of_le fits), Option.bind_some,
        put_of_lt room, firstCells_set, formatResult, POISON_REGIONS, if_pos some]
    · have sum : ¬ SumFits f i := fun all => fits (all some)
      rw [if_neg sum, int32_of_le (Nat.lt_of_not_le fits)]
      rfl
  · have sum : SumFits f i := fun below => absurd below some
    rw [if_neg some, if_pos sum, Option.bind_some, put_of_lt room, firstCells_set, formatResult,
      POISON_REGIONS, if_neg some]

/-- Without a sum that is too large, the array gets the results. -/
theorem formatResultArray_eq (inside : 2 * numBuff ≤ len)
    (fits : ∀ i < numBuff, SumFits (formatResultBuff i f) i) :
    formatResultArray numBuff (firstCells len f) =
      some (firstCells len (formatResultBuff numBuff f)) := by
  obtain ⟨results, ran, rfl⟩ := loop_total formatResultAt
    (fun i results => results = firstCells len (formatResultBuff i f)) (n := numBuff) rfl
    (by
      rintro i iLt results rfl
      refine ⟨_, (formatResultAt_eq (by omega)).trans (if_pos (fits i iLt)), ?_⟩
      rw [formatResult_formatResultBuff])
  exact ran

/-- A run of the loop leaves the results in the array. -/
theorem eq_of_formatResultArray {results : List Nat} (inside : 2 * numBuff ≤ len)
    (ran : formatResultArray numBuff (firstCells len f) = some results) :
    results = firstCells len (formatResultBuff numBuff f) := by
  refine loop_invariant (fun i results => results = firstCells len (formatResultBuff i f))
    ran rfl ?_
  rintro i iLt results results' rfl turn
  rw [formatResultAt_eq (by omega)] at turn
  split_ifs at turn
  rw [← Option.some.inj turn, formatResult_formatResultBuff]

/-! ## The results of the buffers -/

variable {firstChange : List Nat}

theorem merged_eq_min {half1 half2 : Nat} (le : half2 ≤ INT_MAX) :
    merged half1 half2 =
      min half1 (if half2 = INT_MAX then INT_MAX else half2 + POISON_FILL_LENGTH) := by
  rw [merged]
  split_ifs <;> omega

theorem IsRegionResult.le {change : Nat} (result : IsRegionResult change) : change ≤ INT_MAX := by
  rcases result with rfl | small
  · exact le_rfl
  · exact (Nat.le_of_lt small).trans (by decide)

theorem isRegionResult_getD (valid : ∀ change ∈ firstChange, IsRegionResult change) (c : Nat) :
    IsRegionResult (firstChange.getD c INT_MAX) := by
  rw [List.getD_eq_getElem?_getD]
  cases here : firstChange[c]? with
  | none => exact Or.inl rfl
  | some change => exact valid change (List.mem_of_getElem? here)

theorem leastChange_eq (valid : ∀ change ∈ firstChange, IsRegionResult change) (i : Nat) :
    leastChange firstChange i =
      merged (firstChange.getD (2 * i) INT_MAX) (firstChange.getD (2 * i + 1) INT_MAX) :=
  (merged_eq_min (isRegionResult_getD valid _).le).symm

/-- The result of a buffer is `INT_MAX` or an offset in its two regions. -/
theorem leastChange_cases (valid : ∀ change ∈ firstChange, IsRegionResult change) (i : Nat) :
    leastChange firstChange i = INT_MAX ∨
      leastChange firstChange i < POISON_REGIONS * POISON_FILL_LENGTH := by
  have two : POISON_REGIONS * POISON_FILL_LENGTH = POISON_FILL_LENGTH + POISON_FILL_LENGTH := rfl
  rw [leastChange, two]
  rcases isRegionResult_getD valid (2 * i + 1) with top | small
  · rw [top, if_pos rfl]
    rcases isRegionResult_getD valid (2 * i) with top | small
    · exact Or.inl (by rw [top, min_self])
    · exact Or.inr (lt_of_le_of_lt (min_le_left _ _) (small.trans (by decide)))
  · have some : firstChange.getD (2 * i + 1) INT_MAX ≠ INT_MAX :=
      ne_of_lt (small.trans (by decide))
    rw [if_neg some]
    exact Or.inr (lt_of_le_of_lt (min_le_right _ _) (Nat.add_lt_add_right small _))

/-- The turns in which the index has wrapped merge what they should. -/
def WrapsAgree (numBuff : Nat) (firstChange : List Nat) : Prop :=
  ∀ i < numBuff, 2147483648 ≤ i → leastChange firstChange i =
    merged (leastChange firstChange (2 * i - 4294967296))
      (leastChange firstChange (2 * i + 1 - 4294967296))

/-- All buffers get their results exactly when the wrapped turns agree. -/
theorem formatResultBuff_eq_leastChange_iff (inside : numBuff < 4294967296)
    (valid : ∀ change ∈ firstChange, IsRegionResult change) :
    (∀ i < numBuff, formatResultBuff numBuff (fun c => firstChange.getD c INT_MAX) i =
      leastChange firstChange i) ↔ WrapsAgree numBuff firstChange := by
  constructor
  · intro right i iLt late
    rw [← right i iLt, formatResultBuff_late iLt late inside, right _ (by omega),
      right _ (by omega)]
  · intro agree i
    induction i using Nat.strong_induction_on with
    | _ i ih =>
        intro iLt
        by_cases early : i < 2147483648
        · rw [formatResultBuff_early iLt early, leastChange_eq valid]
        · rw [formatResultBuff_late iLt (not_lt.mp early) inside, ih _ (by omega) (by omega),
            ih _ (by omega) (by omega), agree i iLt (not_lt.mp early)]

/-- Then no sum is too large. -/
theorem sumFits_of_wrapsAgree (inside : numBuff < 4294967296)
    (valid : ∀ change ∈ firstChange, IsRegionResult change)
    (agree : WrapsAgree numBuff firstChange) (iLt : i < numBuff) :
    SumFits (formatResultBuff i fun c => firstChange.getD c INT_MAX) i := by
  have right := (formatResultBuff_eq_leastChange_iff inside valid).mpr agree
  have range : ∀ c, formatResultBuff i (fun c => firstChange.getD c INT_MAX) c = INT_MAX ∨
      formatResultBuff i (fun c => firstChange.getD c INT_MAX) c <
        POISON_REGIONS * POISON_FILL_LENGTH := by
    intro c
    by_cases before : c < i
    · rw [formatResultBuff_mid before (Nat.le_of_lt iLt), right c (before.trans iLt)]
      exact leastChange_cases valid c
    · rw [formatResultBuff_of_le (not_lt.mp before)]
      rcases isRegionResult_getD valid c with top | small
      · exact Or.inl top
      · exact Or.inr (small.trans (by decide))
  intro below
  rcases range (u32 (2 * i + 1)) with top | small
  · exact absurd below (by rw [top]; exact lt_irrefl _)
  · simp only [POISON_REGIONS, POISON_FILL_LENGTH, INT_MAX] at *
    omega

theorem wrapsAgree_of_mergesResults (length : firstChange.length = 2 * numBuff)
    (inside : numBuff < 4294967296) (valid : ∀ change ∈ firstChange, IsRegionResult change)
    (merges : MergesResults numBuff firstChange) : WrapsAgree numBuff firstChange := by
  obtain ⟨results, ran, -, right⟩ := merges
  rw [← firstCells_getD firstChange] at ran
  have slots := eq_of_formatResultArray (le_of_eq length.symm) ran
  refine (formatResultBuff_eq_leastChange_iff inside valid).mp fun i iLt => ?_
  have slot := right i iLt
  rw [slots, firstCells_getElem? (by omega)] at slot
  exact Option.some.inj slot

theorem mergesResults_of_wrapsAgree (length : firstChange.length = 2 * numBuff)
    (inside : numBuff < 4294967296) (valid : ∀ change ∈ firstChange, IsRegionResult change)
    (agree : WrapsAgree numBuff firstChange) : MergesResults numBuff firstChange := by
  have ran := formatResultArray_eq (le_of_eq length.symm) fun i iLt =>
    sumFits_of_wrapsAgree inside valid agree iLt
  rw [firstCells_getD] at ran
  refine ⟨_, ran, ?_, fun i iLt => ?_⟩
  · rw [firstCells, List.length_map, List.length_range]
  · rw [firstCells_getElem? (by omega),
      (formatResultBuff_eq_leastChange_iff inside valid).mpr agree i iLt]

/-- `format_result_buff` puts the results of all buffers together exactly when the turns
whose index wraps, from buffer `2 ^ 31` on, merge what they should. -/
theorem mergesResults_iff (length : firstChange.length = 2 * numBuff)
    (inside : numBuff < 4294967296) (valid : ∀ change ∈ firstChange, IsRegionResult change) :
    MergesResults numBuff firstChange ↔ WrapsAgree numBuff firstChange :=
  ⟨wrapsAgree_of_mergesResults length inside valid,
    mergesResults_of_wrapsAgree length inside valid⟩

/-- Two buffers, of which the second has a change in both regions. -/
theorem mergesResults_iff_two :
    MergesResults 2 [INT_MAX, 5, 7, 3] ↔ WrapsAgree 2 [INT_MAX, 5, 7, 3] := by
  refine mergesResults_iff rfl (by decide) fun change mem => ?_
  simp only [List.mem_cons, List.not_mem_nil, or_false] at mem
  rcases mem with rfl | rfl | rfl | rfl
  · exact Or.inl rfl
  all_goals exact Or.inr (by decide)

example : formatResultArray 2 [INT_MAX, 5, 7, 3] = some [4101, 7, 7, 3] := by decide

/-- A change in the first region of the first buffer, and no other one. -/
def firstChanged (numBuff : Nat) : List Nat := 0 :: List.replicate (2 * numBuff - 1) INT_MAX

theorem firstChanged_valid (numBuff : Nat) :
    ∀ change ∈ firstChanged numBuff, IsRegionResult change := by
  intro change mem
  rcases List.mem_cons.mp mem with rfl | later
  · exact Or.inr (by decide)
  · exact Or.inl (List.eq_of_mem_replicate later)

theorem firstChanged_length (pos : 0 < numBuff) :
    (firstChanged numBuff).length = 2 * numBuff := by
  rw [firstChanged, List.length_cons, List.length_replicate]
  omega

theorem firstChanged_getD (c : Nat) :
    (firstChanged numBuff).getD (c + 1) INT_MAX = INT_MAX := by
  rw [firstChanged, List.getD_cons_succ, List.getD_eq_getElem?_getD, List.getElem?_replicate]
  split_ifs <;> rfl

theorem leastChange_firstChanged (i : Nat) :
    leastChange (firstChanged numBuff) i = if i = 0 then 0 else INT_MAX := by
  rw [leastChange, firstChanged_getD]
  cases i with
  | zero => rfl
  | succ i =>
      rw [Nat.mul_succ, firstChanged_getD]
      rfl

/-- Buffer `2 ^ 31` gets the change of the first one. -/
theorem not_wrapsAgree_firstChanged (many : 2147483648 < numBuff) :
    ¬ WrapsAgree numBuff (firstChanged numBuff) := by
  intro agree
  have turn := agree 2147483648 many le_rfl
  simp only [leastChange_firstChanged] at turn
  contradiction

/-- It does so for all results of a number of buffers exactly when no index wraps. -/
theorem mergesResults_always_iff (inside : numBuff < 4294967296) :
    (∀ firstChange : List Nat, firstChange.length = 2 * numBuff →
      (∀ change ∈ firstChange, IsRegionResult change) → MergesResults numBuff firstChange) ↔
        numBuff ≤ 2147483648 := by
  constructor
  · intro always
    by_contra many
    have length : (firstChanged numBuff).length = 2 * numBuff := firstChanged_length (by omega)
    have valid := firstChanged_valid numBuff
    exact not_wrapsAgree_firstChanged (not_le.mp many)
      (wrapsAgree_of_mergesResults length inside valid (always _ length valid))
  · intro few firstChange length valid
    exact mergesResults_of_wrapsAgree length inside valid fun i iLt late => by omega

/-- With `2 ^ 31 + 1` buffers the last one gets the change of the first one. -/
theorem not_mergesResults : ∃ firstChange : List Nat,
    firstChange.length = 2 * 2147483649 ∧ (∀ change ∈ firstChange, IsRegionResult change) ∧
      ¬ MergesResults 2147483649 firstChange := by
  have length : (firstChanged 2147483649).length = 2 * 2147483649 := firstChanged_length (by decide)
  have valid := firstChanged_valid 2147483649
  exact ⟨_, length, valid, fun merges => not_wrapsAgree_firstChanged (by decide)
    (wrapsAgree_of_mergesResults length (by decide) valid merges)⟩

end Clarmor
