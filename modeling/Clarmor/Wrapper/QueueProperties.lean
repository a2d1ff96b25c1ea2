import Clarmor.Library.Arrays
import Clarmor.Library.Loop
import Clarmor.Wrapper.CommandQueues

/-!
# The properties of a command queue in memory

An application passes the properties of a queue as an array with a zero behind the
last pair.  `add_profiling` goes through it twice, to find its length and to copy it,
and `clCreateCommandQueueWithProperties` looks for the flags of the queue in the first
four cells.

On arrays whose lengths fit into an `int`, `add_profiling` is the function on lists
that the cache of command queues is described with.
-/

namespace Clarmor

open Word Loop Arrays

/-- The queue properties of a list. -/
def isQueueProperties (p : Nat × Nat) : Bool := p.1 = CL_QUEUE_PROPERTIES

/-- The array of a property list. -/
def propertyArray (ps : QueueProperties) : List Nat := terminated 0 ps

/-- `properties[i] != 0`. -/
def atProperty (properties : List Nat) (i : Nat) : Option Bool := properties[i]?.map (· ≠ 0)

/-- The variables of the first loop of `add_profiling`. -/
structure ProfilingScan where
  i : Nat
  foundQueueProperties : Bool
  /-- `-1` is `none`. -/
  addProfilingHere : Option Nat

/-- One turn of it.  As `i` is even, `i + 1` is an `int` when `i` is. -/
def scanProperty (properties : List Nat) (s : ProfilingScan) : Option ProfilingScan :=
  properties[s.i]?.bind fun key =>
    (if key = CL_QUEUE_PROPERTIES then
      properties[s.i + 1]?.map fun value =>
        { s with
          foundQueueProperties := true
          addProfilingHere :=
            if value &&& CL_QUEUE_PROFILING_ENABLE = 0 then some (s.i + 1)
            else s.addProfilingHere }
    else some s).bind fun s => (int32 (s.i + 2)).map fun i => { s with i := i }

/-- One turn of the second loop, on the index and on the new array. -/
def copyProperty (properties : List Nat) (s : Nat × List Nat) : Option (Nat × List Nat) :=
  properties[s.1]?.bind fun key =>
    (put s.2 s.1 key).bind fun fakeProp =>
      properties[s.1 + 1]?.bind fun value =>
        (put fakeProp (s.1 + 1) value).bind fun fakeProp =>
          (int32 (s.1 + 2)).map fun i => (i, fakeProp)

/-- The first loop. -/
def scanProperties (properties : List Nat) : Option ProfilingScan :=
  loopWhile (properties.length + 1) (fun s => atProperty properties s.i) (scanProperty properties)
    ⟨0, false, none⟩

/-- The second loop, into an array of zeros. -/
def copyProperties (properties : List Nat) (size : Nat) : Option (Nat × List Nat) :=
  loopWhile (properties.length + 1) (fun s => atProperty properties s.1) (copyProperty properties)
    (0, List.replicate size 0)

/-- `add_profiling` on arrays. -/
def addProfilingArray : Option (List Nat) → Option (List Nat)
  | some properties =>
      (scanProperties properties).bind fun s =>
        (int32 (if s.foundQueueProperties then s.i + 1 else s.i + 3)).bind fun size =>
          (copyProperties properties size).bind fun (i, fakeProp) =>
            if s.foundQueueProperties then
              match s.addProfilingHere with
              | some here =>
                  properties[here]?.bind fun value =>
                    put fakeProp here (value ||| CL_QUEUE_PROFILING_ENABLE)
              | none => some fakeProp
            else
              (put fakeProp i CL_QUEUE_PROPERTIES).bind fun fakeProp =>
                put fakeProp (i + 1) CL_QUEUE_PROFILING_ENABLE
  -- all three cells are written
  | none => some [CL_QUEUE_PROPERTIES, CL_QUEUE_PROFILING_ENABLE, 0]

/-- The array that `clCreateCommandQueueWithProperties` passes on. -/
def updatedProp (checkerTime : Bool) (properties : Option (List Nat)) :
    Option (Option (List Nat)) :=
  if checkerTime then (addProfilingArray properties).map some else some properties

/-- The flags that it looks at after the call. -/
def queueFlags : Option (List Nat) → Option Nat
  | some updatedProp =>
      updatedProp[0]?.bind fun key =>
        if key = CL_QUEUE_PROPERTIES then updatedProp[1]?.map u32
        else
          updatedProp[2]?.bind fun key =>
            if key = CL_QUEUE_PROPERTIES then updatedProp[3]?.map u32 else some 0
  | none => some 0

/-! ## What they are for -/

/-- A property list: its keys are not zero, and no key is used twice. -/
structure IsPropertyList (ps : QueueProperties) : Prop where
  nonzero : ∀ p ∈ ps, p.1 ≠ 0
  distinct : (ps.map Prod.fst).Nodup

/-- The queue properties with profiling; all other properties stay. -/
def profiled (p : Nat × Nat) : Nat × Nat :=
  if isQueueProperties p then (p.1, p.2 ||| CL_QUEUE_PROFILING_ENABLE) else p

/-- A list with profiling: the same pairs in the same order, with profiling in the
queue properties, or behind them one more pair. -/
def withProfiling (properties : Option QueueProperties) : QueueProperties :=
  let ps := properties.getD []
  if ps.any isQueueProperties then ps.map profiled
  else ps ++ [(CL_QUEUE_PROPERTIES, CL_QUEUE_PROFILING_ENABLE)]

/-- The queue properties are the pair at a place. -/
def QueuePropertiesAt (ps : QueueProperties) (j v : Nat) : Prop :=
  ps[j]? = some (CL_QUEUE_PROPERTIES, v)

/-- The value of the queue properties, `0` without them. -/
def queuePropertiesValue (ps : QueueProperties) : Nat :=
  ((ps.find? isQueueProperties).map Prod.snd).getD 0

/-- `add_profiling` makes the array of the list with profiling, and reads and writes
inside the arrays. -/
def KeepsProperties (properties : Option QueueProperties) : Prop :=
  addProfilingArray (properties.map propertyArray) = some (propertyArray (withProfiling properties))

/-- The number of cells of the new array is an `int`. -/
def CountFits (ps : QueueProperties) : Prop :=
  2 * ps.length + (if ps.any isQueueProperties then 1 else 3) ≤ INT_MAX

instance (ps : QueueProperties) : Decidable (CountFits ps) :=
  inferInstanceAs (Decidable (_ ≤ _))

/-- The flags are the value in the list that is passed on, and are read inside its
array. -/
def ReadsFlags (checkerTime : Bool) (properties : Option QueueProperties) : Prop :=
  let passed := if checkerTime then some (withProfiling properties) else properties
  updatedProp checkerTime (properties.map propertyArray) = some (passed.map propertyArray) ∧
    queueFlags (passed.map propertyArray) = some (queuePropertiesValue (passed.getD []))

/-- The queue properties are where the wrapper looks for them, and their value has
32 bits. -/
def FlagsInReach (checkerTime : Bool) (ps : QueueProperties) : Prop :=
  if checkerTime then
    CountFits ps ∧ (∀ j v, QueuePropertiesAt ps j v → j < 2 ∧ v < 4294967296) ∧
      (ps.any isQueueProperties = false → ps.length < 2)
  else
    ps ≠ [] ∧ ∀ j v, QueuePropertiesAt ps j v → if j < 2 then v < 4294967296 else v = 0

variable {ps : QueueProperties} {p : Nat × Nat} {i j n size : Nat}

/-! ## The first loop -/

theorem atProperty_key (nonzero : ∀ p ∈ ps, p.1 ≠ 0) (isPair : ps[i]? = some p) :
    atProperty (propertyArray ps) (2 * i) = some true := by
  have key := nonzero p (List.mem_of_getElem? isPair)
  rw [atProperty, propertyArray, terminated_key isPair, Option.map_some]
  exact congrArg some (decide_eq_true key)

theorem atProperty_end (ps : QueueProperties) :
    atProperty (propertyArray ps) (2 * ps.length) = some false := by
  rw [atProperty, propertyArray, terminated_end]
  rfl

/-- The last of the first `n` pairs in which profiling is missing. -/
def lastLacking (ps : QueueProperties) : Nat → Option Nat
  | 0 => none
  | n + 1 => if ps[n]?.any lacksProfiling then some n else lastLacking ps n

/-- The variables of the first loop after `n` turns. -/
def scanned (ps : QueueProperties) (n : Nat) : ProfilingScan :=
  ⟨2 * n, (ps.take n).any isQueueProperties, (lastLacking ps n).map fun j => 2 * j + 1⟩

theorem scanProperty_scanned (isPair : ps[i]? = some p) :
    scanProperty (propertyArray ps) (scanned ps i) =
      (int32 (2 * i + 2)).map fun _ => scanned ps (i + 1) := by
  have found : (ps.take (i + 1)).any isQueueProperties =
      ((ps.take i).any isQueueProperties || isQueueProperties p) := by
    rw [List.take_add_one, isPair, List.any_append]
    simp
  have next : ∀ h, int32 (2 * i + 2) = some h → h = 2 * (i + 1) := by
    intro h fits
    rw [int32] at fits
    split_ifs at fits
    exact (Option.some.inj fits).symm
  simp only [scanProperty, scanned, propertyArray, terminated_key isPair, Option.bind_some,
    found, lastLacking, isPair, Option.any_some]
  by_cases key : p.1 = CL_QUEUE_PROPERTIES
  · rw [if_pos key, terminated_value isPair]
    simp only [Option.map_some, Option.bind_some, isQueueProperties, key, decide_true, Bool.or_true,
      lacksProfiling, Bool.true_and, decide_eq_true_eq]
    refine Option.map_congr fun h fits => ?_
    rw [next h fits]
    split_ifs <;> rfl
  · rw [if_neg key]
    simp only [Option.bind_some, isQueueProperties, key, decide_false, Bool.or_false,
      lacksProfiling, Bool.false_and, Bool.false_eq_true, if_false]
    refine Option.map_congr fun h fits => ?_
    rw [next h fits]

theorem scanProperties_eq (nonzero : ∀ p ∈ ps, p.1 ≠ 0) :
    scanProperties (propertyArray ps) =
      if 2 * ps.length ≤ INT_MAX then some (scanned ps ps.length) else none := by
  have turn : ∀ i < ps.length, 2 * i + 2 < 2147483648 →
      atProperty (propertyArray ps) (scanned ps i).i = some true ∧
        scanProperty (propertyArray ps) (scanned ps i) = some (scanned ps (i + 1)) := by
    intro i iLt small
    have isPair := List.getElem?_eq_getElem iLt
    refine ⟨atProperty_key nonzero isPair, ?_⟩
    rw [scanProperty_scanned isPair, int32_of_lt small]
    rfl
  have length := length_terminated 0 ps
  rw [scanProperties]
  split_ifs with small
  · refine loopWhile_eq_some (scanned ps) ?_ (fun i iLt => turn i iLt ?_) (atProperty_end ps)
    · rw [propertyArray, length]
      omega
    · simp only [INT_MAX] at small
      omega
  · -- the turn in which `i += 2` leaves the range of `int`
    simp only [INT_MAX] at small
    have isPair : ps[1073741823]? = some ps[1073741823] := List.getElem?_eq_getElem (by omega)
    refine loopWhile_eq_none (scanned ps) (n := 1073741823)
      (fun i iLt => turn i (by omega) (by omega)) (atProperty_key nonzero isPair) ?_
    rw [scanProperty_scanned isPair, int32_of_le (by omega)]
    rfl

/-! ## The second loop -/

/-- The variables of the second loop after `n` turns. -/
def copied (ps : QueueProperties) (size n : Nat) : Nat × List Nat :=
  (2 * n, (cells ps).take (2 * n) ++ List.replicate (size - 2 * n) 0)

theorem copyProperty_copied (isPair : ps[i]? = some p) (room : 2 * i + 2 ≤ size)
    (small : 2 * i + 2 < 2147483648) :
    copyProperty (propertyArray ps) (copied ps size i) = some (copied ps size (i + 1)) := by
  have first := @put_next _ (cells ps) (2 * i) size 0 p.1 (cells_key isPair) (by omega)
  have second := @put_next _ (cells ps) (2 * i + 1) size 0 p.2 (cells_value isPair) (by omega)
  simp only [copyProperty, copied, propertyArray, terminated_key isPair, terminated_value isPair,
    Option.bind_some, first, second, int32_of_lt small]
  rfl

theorem copyProperties_eq (nonzero : ∀ p ∈ ps, p.1 ≠ 0) (small : 2 * ps.length ≤ INT_MAX)
    (room : 2 * ps.length ≤ size) :
    copyProperties (propertyArray ps) size =
      some (2 * ps.length, cells ps ++ List.replicate (size - 2 * ps.length) 0) := by
  have whole : copied ps size ps.length =
      (2 * ps.length, cells ps ++ List.replicate (size - 2 * ps.length) 0) := by
    rw [copied, List.take_of_length_le (le_of_eq (length_cells ps))]
  rw [← whole]
  refine loopWhile_eq_some (copied ps size) ?_ (fun i iLt => ?_) (atProperty_end ps)
  · rw [propertyArray, length_terminated]
    omega
  · have isPair := List.getElem?_eq_getElem iLt
    simp only [INT_MAX] at small
    exact ⟨atProperty_key nonzero isPair, copyProperty_copied isPair (by omega) (by omega)⟩

/-! ## The property that gets profiling -/

theorem lastLacking_eq_none (none : lastLacking ps n = none) :
    ∀ k < n, ps[k]?.any lacksProfiling = false := by
  induction n with
  | zero => exact fun k kLt => absurd kLt (Nat.not_lt_zero k)
  | succ n ih =>
      rw [lastLacking] at none
      split_ifs at none with lacks
      intro k kLt
      rcases Nat.lt_succ_iff_lt_or_eq.mp kLt with earlier | rfl
      · exact ih none k earlier
      · exact eq_false_of_ne_true lacks

theorem lastLacking_eq_some (last : lastLacking ps n = some j) :
    ps[j]?.any lacksProfiling = true ∧ ∀ k, j < k → k < n → ps[k]?.any lacksProfiling = false := by
  induction n with
  | zero => contradiction
  | succ n ih =>
      rw [lastLacking] at last
      split_ifs at last with lacks
      · obtain rfl := Option.some.inj last
        exact ⟨lacks, fun k kLt kLe => by omega⟩
      · obtain ⟨here, after⟩ := ih last
        refine ⟨here, fun k kLt kLe => ?_⟩
        rcases Nat.lt_succ_iff_lt_or_eq.mp kLe with earlier | rfl
        · exact after k kLt earlier
        · exact eq_false_of_ne_true lacks

theorem any_eq_false_of_getElem? {f : Nat × Nat → Bool} (none : ∀ k : Nat, ps[k]?.any f = false) :
    ps.any f = false := by
  rw [List.any_eq_false]
  intro p mem
  obtain ⟨k, isPair⟩ := List.mem_iff_getElem?.mp mem
  have clean := none k
  rw [isPair, Option.any_some] at clean
  exact Bool.eq_false_iff.mp clean

/-- Where nothing lacks profiling, nothing changes. -/
theorem addProfilingHere_of_none (none : ps.any lacksProfiling = false) :
    addProfilingHere ps = ps := by
  induction ps with
  | nil => rfl
  | cons p rest ih =>
      obtain ⟨here, later⟩ := Bool.or_eq_false_iff.mp none
      rw [addProfilingHere, later, here]
      rfl

/-- Profiling goes to the last property that lacks it. -/
theorem addProfilingHere_of_last (isPair : ps[j]? = some p) (lacks : lacksProfiling p = true)
    (last : ∀ k, j < k → ps[k]?.any lacksProfiling = false) :
    addProfilingHere ps = ps.set j (p.1, p.2 ||| CL_QUEUE_PROFILING_ENABLE) := by
  induction ps generalizing j with
  | nil => contradiction
  | cons q rest ih =>
      rw [addProfilingHere]
      cases j with
      | zero =>
          obtain rfl : q = p := by simpa using isPair
          have later : rest.any lacksProfiling = false :=
            any_eq_false_of_getElem? fun k => last (k + 1) (Nat.succ_pos k)
          rw [later, if_neg Bool.false_ne_true, if_pos lacks]
          rfl
      | succ j =>
          have later : rest.any lacksProfiling = true :=
            List.any_eq_true.mpr ⟨p, List.mem_of_getElem? isPair, lacks⟩
          rw [if_pos later, ih isPair fun k kLt => last (k + 1) (Nat.succ_lt_succ kLt)]
          rfl

/-- What the last assignment of `add_profiling` does to the array of a list. -/
theorem addProfilingHere_array (ps : QueueProperties) :
    (match (scanned ps ps.length).addProfilingHere with
      | some here =>
          (propertyArray ps)[here]?.bind fun value =>
            put (propertyArray ps) here (value ||| CL_QUEUE_PROFILING_ENABLE)
      | none => some (propertyArray ps)) = some (propertyArray (addProfilingHere ps)) := by
  have beyond : ∀ k : Nat, ps.length ≤ k → ps[k]?.any lacksProfiling = false := by
    intro k kLe
    rw [List.getElem?_eq_none kLe]
    rfl
  rw [scanned]
  dsimp only
  cases last : lastLacking ps ps.length with
  | none =>
      have clean : ps.any lacksProfiling = false := any_eq_false_of_getElem? fun k =>
        (lt_or_ge k ps.length).elim (lastLacking_eq_none last k) (beyond k)
      rw [addProfilingHere_of_none clean]
      rfl
  | some j =>
      obtain ⟨lacks, after⟩ := lastLacking_eq_some last
      obtain ⟨p, isPair, lacks⟩ : ∃ p, ps[j]? = some p ∧ lacksProfiling p = true := by
        cases isPair : ps[j]? with
        | none => simp [isPair] at lacks
        | some p => exact ⟨p, rfl, by simpa [isPair] using lacks⟩
      have inside := index_lt isPair
      have here := addProfilingHere_of_last isPair lacks fun k kLt =>
        (lt_or_ge k ps.length).elim (after k kLt) (beyond k)
      rw [here, propertyArray, propertyArray, ← terminated_set isPair]
      dsimp only [Option.map_some]
      rw [terminated_value isPair, Option.bind_some,
        put_of_lt (by rw [length_terminated]; omega)]

/-! ## `add_profiling` -/

theorem found_scanned (ps : QueueProperties) :
    (scanned ps ps.length).foundQueueProperties = ps.any isQueueProperties := by
  rw [scanned, List.take_length]

/-- `add_profiling` on arrays is `add_profiling` on lists. -/
theorem addProfilingArray_of_fits (nonzero : ∀ p ∈ ps, p.1 ≠ 0) (fits : CountFits ps) :
    addProfilingArray (some (propertyArray ps)) =
      some (propertyArray (addProfiling (some ps))) := by
  have asks : (ps.any fun p => decide (p.1 = CL_QUEUE_PROPERTIES)) = ps.any isQueueProperties := rfl
  have last : (scanned ps ps.length).i = 2 * ps.length := rfl
  have small : 2 * ps.length ≤ INT_MAX := (Nat.le_add_right _ _).trans fits
  rw [addProfilingArray, scanProperties_eq nonzero, if_pos small, Option.bind_some,
    found_scanned, last, addProfiling, asks]
  rw [CountFits, INT_MAX] at fits
  cases present : ps.any isQueueProperties with
  | true =>
      rw [present, if_pos rfl] at fits
      have whole : cells ps ++ List.replicate (2 * ps.length + 1 - 2 * ps.length) 0 =
          propertyArray ps := by
        rw [Nat.add_sub_cancel_left]
        rfl
      simp only [if_true]
      rw [int32_of_lt (by omega), Option.bind_some,
        copyProperties_eq nonzero small (Nat.le_add_right _ 1), Option.bind_some, whole]
      exact addProfilingHere_array ps
  | false =>
      rw [present, if_neg Bool.false_ne_true] at fits
      simp only [Bool.false_eq_true, if_false]
      rw [int32_of_lt (by omega), Option.bind_some,
        copyProperties_eq nonzero small (Nat.le_add_right _ 3), Option.bind_some,
        Nat.add_sub_cancel_left]
      exact put_pair 0 ps (CL_QUEUE_PROPERTIES, CL_QUEUE_PROFILING_ENABLE)

/-- It fails in the first loop, or when it computes the size of the new array. -/
theorem addProfilingArray_of_long (nonzero : ∀ p ∈ ps, p.1 ≠ 0) (long : ¬ CountFits ps) :
    addProfilingArray (some (propertyArray ps)) = none := by
  have last : (scanned ps ps.length).i = 2 * ps.length := rfl
  rw [addProfilingArray, scanProperties_eq nonzero]
  split_ifs with small
  · have size : (if ps.any isQueueProperties then 2 * ps.length + 1 else 2 * ps.length + 3) =
        2 * ps.length + if ps.any isQueueProperties then 1 else 3 :=
      (apply_ite (2 * ps.length + ·) _ 1 3).symm
    rw [Option.bind_some, found_scanned, last, size, int32_of_le (Nat.lt_of_not_le long)]
    rfl
  · rfl

/-- `add_profiling` works as long as the number of the cells is an `int`. -/
theorem addProfilingArray_eq (nonzero : ∀ p ∈ ps, p.1 ≠ 0) :
    addProfilingArray (some (propertyArray ps)) =
      if CountFits ps then some (propertyArray (addProfiling (some ps))) else none := by
  split_ifs with fits
  · exact addProfilingArray_of_fits nonzero fits
  · exact addProfilingArray_of_long nonzero fits

/-! ## The list with profiling -/

theorem testBit_profiling (k : Nat) : CL_QUEUE_PROFILING_ENABLE.testBit k = decide (1 = k) := by
  rw [show CL_QUEUE_PROFILING_ENABLE = 2 ^ 1 by decide, Nat.testBit_two_pow]

theorem or_profiling_of_asked {v : Nat} (asked : v &&& CL_QUEUE_PROFILING_ENABLE ≠ 0) :
    v ||| CL_QUEUE_PROFILING_ENABLE = v := by
  have bit : v.testBit 1 = true := by
    by_contra clear
    refine asked (Nat.eq_of_testBit_eq fun k => ?_)
    rw [Nat.testBit_and, testBit_profiling, Nat.zero_testBit]
    by_cases here : 1 = k
    · rw [← here, eq_false_of_ne_true clear]
      rfl
    · rw [decide_eq_false here, Bool.and_false]
  refine Nat.eq_of_testBit_eq fun k => ?_
  rw [Nat.testBit_or, testBit_profiling]
  by_cases here : 1 = k
  · rw [← here, bit]
    rfl
  · rw [decide_eq_false here, Bool.or_false]

theorem profiled_key (p : Nat × Nat) : (profiled p).1 = p.1 := by
  rw [profiled]
  split_ifs <;> rfl

theorem profiled_of_not_lacking (asked : lacksProfiling p = false) : profiled p = p := by
  rw [profiled]
  split_ifs with key
  · rw [lacksProfiling, show decide (p.1 = CL_QUEUE_PROPERTIES) = true from key, Bool.true_and,
      decide_eq_false_iff_not] at asked
    rw [or_profiling_of_asked asked]
  · rfl

theorem isQueueProperties_of_lacks (lacks : lacksProfiling p = true) :
    isQueueProperties p = true :=
  (Bool.and_eq_true_iff.mp lacks).1

theorem map_profiled_of_none (none : ps.any lacksProfiling = false) : ps.map profiled = ps := by
  refine (List.map_congr_left fun p mem => profiled_of_not_lacking ?_).trans (List.map_id' ps)
  exact eq_false_of_ne_true (List.any_eq_false.mp none p mem)

/-- Where no key is used twice, only one property can lack profiling. -/
theorem addProfilingHere_eq_map (distinct : (ps.map Prod.fst).Nodup) :
    addProfilingHere ps = ps.map profiled := by
  induction ps with
  | nil => rfl
  | cons p rest ih =>
      obtain ⟨apart, distinct⟩ := List.nodup_cons.mp distinct
      rw [addProfilingHere, List.map_cons]
      split_ifs with later lacks
      · obtain ⟨q, mem, lacks⟩ := List.any_eq_true.mp later
        have key : q.1 = CL_QUEUE_PROPERTIES := of_decide_eq_true (isQueueProperties_of_lacks lacks)
        have other : isQueueProperties p = false := decide_eq_false fun same =>
          apart (List.mem_map.mpr ⟨q, mem, key.trans same.symm⟩)
        rw [ih distinct, profiled, other]
        rfl
      · rw [profiled, if_pos (isQueueProperties_of_lacks lacks),
          map_profiled_of_none (eq_false_of_ne_true later)]
      · rw [profiled_of_not_lacking (eq_false_of_ne_true lacks),
          map_profiled_of_none (eq_false_of_ne_true later)]

theorem addProfiling_eq_withProfiling (list : IsPropertyList ps) :
    addProfiling (some ps) = withProfiling (some ps) := by
  have asks : (ps.any fun p => decide (p.1 = CL_QUEUE_PROPERTIES)) = ps.any isQueueProperties := rfl
  rw [addProfiling, withProfiling, asks, addProfilingHere_eq_map list.distinct]
  rfl

theorem addProfilingArray_list (list : IsPropertyList ps) :
    addProfilingArray (some (propertyArray ps)) =
      if CountFits ps then some (propertyArray (withProfiling (some ps))) else none := by
  rw [addProfilingArray_eq list.nonzero, addProfiling_eq_withProfiling list]

/-- `add_profiling` keeps the properties exactly when the number of cells of the new
array is an `int`. -/
theorem keepsProperties_iff {properties : Option QueueProperties}
    (list : ∀ ps ∈ properties, IsPropertyList ps) :
    KeepsProperties properties ↔ ∀ ps ∈ properties, CountFits ps := by
  cases properties with
  | none => exact iff_of_true rfl fun ps mem => absurd mem (Option.not_mem_none ps)
  | some ps =>
      rw [KeepsProperties, Option.map_some, addProfilingArray_list (list ps rfl)]
      split_ifs with fits
      · refine iff_of_true rfl fun ps' mem => ?_
        obtain rfl := Option.some.inj mem
        exact fits
      · exact iff_of_false not_false fun all => fits (all ps rfl)

/-- A size, queue properties without a value, and a priority. -/
def sizedQueue : QueueProperties := [(0x1094, 16), (CL_QUEUE_PROPERTIES, 0), (0x1096, 1)]

theorem isPropertyList_sizedQueue : IsPropertyList sizedQueue := ⟨by decide, by decide⟩

theorem keepsProperties_iff_sizedQueue :
    KeepsProperties (some sizedQueue) ↔ ∀ ps ∈ some sizedQueue, CountFits ps := by
  refine keepsProperties_iff fun ps mem => ?_
  obtain rfl := Option.some.inj mem
  exact isPropertyList_sizedQueue

/-- The zero in the middle is a value. -/
example : addProfilingArray (some [0x1094, 16, 0x1093, 0, 0x1096, 1, 0]) =
    some [0x1094, 16, 0x1093, 2, 0x1096, 1, 0] := by decide

/-- Properties without queue properties. -/
def manyProperties (n : Nat) : QueueProperties := (List.range n).map fun i => (i + 0x2000, 0)

theorem length_manyProperties (n : Nat) : (manyProperties n).length = n := by
  rw [manyProperties, List.length_map, List.length_range]

theorem isPropertyList_manyProperties (n : Nat) : IsPropertyList (manyProperties n) := by
  constructor
  · intro p mem
    obtain ⟨i, -, rfl⟩ := List.mem_map.mp mem
    exact Nat.succ_ne_zero _
  · rw [manyProperties, List.map_map]
    exact List.nodup_range.map fun i j same => Nat.add_right_cancel same

/-- With `2 ^ 30 - 1` pairs the number of the cells is no `int`. -/
theorem not_keepsProperties : ∃ ps : QueueProperties, IsPropertyList ps ∧
    ps.length = 1073741823 ∧ ¬ KeepsProperties (some ps) := by
  obtain ⟨n, isN⟩ : ∃ n, n = 1073741823 := ⟨_, rfl⟩
  have list := isPropertyList_manyProperties n
  refine ⟨manyProperties n, list, (length_manyProperties n).trans isN, fun keeps => ?_⟩
  rw [KeepsProperties, Option.map_some, addProfilingArray_list list, if_neg] at keeps
  · contradiction
  · rw [CountFits, length_manyProperties, INT_MAX]
    split_ifs with present
    · obtain ⟨p, mem, key⟩ := List.any_eq_true.mp present
      obtain ⟨i, -, rfl⟩ := List.mem_map.mp mem
      have key : i + 0x2000 = 0x1093 := of_decide_eq_true key
      omega
    · omega

/-! ## The flags after the call -/

variable {v : Nat}

/-- The flags are looked for as in the list, which must not be empty. -/
theorem queueFlags_array (ps : QueueProperties) :
    queueFlags (some (propertyArray ps)) = if ps = [] then none else some (firstFlags ps) := by
  rcases ps with _ | ⟨⟨key, value⟩, _ | ⟨⟨key', value'⟩, rest⟩⟩
  · rfl
  · change (if key = CL_QUEUE_PROPERTIES then some (u32 value) else some 0) = _
    rw [if_neg (List.cons_ne_nil _ _), firstFlags]
    split_ifs <;> rfl
  · change (if key = CL_QUEUE_PROPERTIES then some (u32 value) else
      if key' = CL_QUEUE_PROPERTIES then some (u32 value') else some 0) = _
    rw [if_neg (List.cons_ne_nil _ _), firstFlags]
    split_ifs <;> rfl

/-- The queue properties stand in one place of a property list. -/
theorem QueuePropertiesAt.unique {k w : Nat} (distinct : (ps.map Prod.fst).Nodup)
    (place : QueuePropertiesAt ps j v) (other : QueuePropertiesAt ps k w) : k = j ∧ w = v := by
  have keys : ∀ {i x : Nat}, QueuePropertiesAt ps i x →
      (ps.map Prod.fst)[i]? = some CL_QUEUE_PROPERTIES := by
    intro i x isPair
    rw [List.getElem?_map, isPair]
    rfl
  obtain ⟨kLt, -⟩ := List.getElem?_eq_some_iff.mp (keys other)
  obtain rfl : k = j :=
    (List.getElem?_inj kLt distinct).mp ((keys other).trans (keys place).symm)
  exact ⟨rfl, congrArg Prod.snd (Option.some.inj (other.symm.trans place))⟩

theorem exists_place (present : ps.any isQueueProperties = true) :
    ∃ j v, QueuePropertiesAt ps j v := by
  obtain ⟨⟨key, v⟩, mem, isKey⟩ := List.any_eq_true.mp present
  obtain rfl : key = CL_QUEUE_PROPERTIES := of_decide_eq_true isKey
  obtain ⟨j, place⟩ := List.mem_iff_getElem?.mp mem
  exact ⟨j, v, place⟩

theorem QueuePropertiesAt.present (place : QueuePropertiesAt ps j v) :
    ps.any isQueueProperties = true :=
  List.any_eq_true.mpr ⟨_, List.mem_of_getElem? place, decide_eq_true rfl⟩

theorem value_of_place (distinct : (ps.map Prod.fst).Nodup) (place : QueuePropertiesAt ps j v) :
    queuePropertiesValue ps = v := by
  rw [queuePropertiesValue]
  cases found : ps.find? isQueueProperties with
  | none =>
      have missed := List.find?_eq_none.mp found _ (List.mem_of_getElem? place)
      exact absurd (decide_eq_true rfl) missed
  | some q =>
      obtain ⟨k, isPair⟩ := List.mem_iff_getElem?.mp (List.mem_of_find?_eq_some found)
      have key : q.1 = CL_QUEUE_PROPERTIES := of_decide_eq_true (List.find?_some found :)
      have other : QueuePropertiesAt ps k q.2 := by rw [QueuePropertiesAt, isPair, ← key]
      exact (place.unique distinct other).2

theorem firstFlags_of_place (distinct : (ps.map Prod.fst).Nodup)
    (place : QueuePropertiesAt ps j v) : firstFlags ps = if j < 2 then u32 v else 0 := by
  have elsewhere : ∀ (k key w : Nat), ps[k]? = some (key, w) → k ≠ j →
      key ≠ CL_QUEUE_PROPERTIES := by
    rintro k key w isPair differ rfl
    exact differ (place.unique distinct isPair).1
  rcases ps with _ | ⟨⟨key, w⟩, rest⟩
  · contradiction
  cases j with
  | zero =>
      obtain ⟨rfl, rfl⟩ : key = CL_QUEUE_PROPERTIES ∧ w = v := by
        simpa [QueuePropertiesAt] using place
      rfl
  | succ j =>
      rcases rest with _ | ⟨⟨key', w'⟩, rest⟩
      · contradiction
      rw [firstFlags, if_neg (elsewhere 0 key w rfl (by omega))]
      cases j with
      | zero =>
          obtain ⟨rfl, rfl⟩ : key' = CL_QUEUE_PROPERTIES ∧ w' = v := by
            simpa [QueuePropertiesAt] using place
          rfl
      | succ j =>
          rw [if_neg (elsewhere 1 key' w' rfl (by omega)), if_neg (by omega)]

/-- The flags are the value when it has 32 bits and stands in the first or in the second
pair, or when it is zero. -/
theorem firstFlags_eq_value_iff (distinct : (ps.map Prod.fst).Nodup)
    (place : QueuePropertiesAt ps j v) :
    firstFlags ps = queuePropertiesValue ps ↔ if j < 2 then v < 4294967296 else v = 0 := by
  rw [firstFlags_of_place distinct place, value_of_place distinct place]
  split_ifs
  · exact u32_eq_self_iff
  · exact eq_comm

theorem firstFlags_of_absent (absent : ps.any isQueueProperties = false) :
    firstFlags ps = queuePropertiesValue ps := by
  have other : ∀ key w, (key, w) ∈ ps → key ≠ CL_QUEUE_PROPERTIES := fun key w mem isKey =>
    List.any_eq_false.mp absent (key, w) mem (decide_eq_true isKey)
  have none : ps.find? isQueueProperties = none :=
    List.find?_eq_none.mpr fun p mem => List.any_eq_false.mp absent p mem
  rw [queuePropertiesValue, none]
  rcases ps with _ | ⟨⟨key, w⟩, _ | ⟨⟨key', w'⟩, rest⟩⟩
  · rfl
  · exact if_neg (other key w List.mem_cons_self)
  · rw [firstFlags, if_neg (other key w List.mem_cons_self)]
    exact if_neg (other key' w' (List.mem_cons_of_mem _ List.mem_cons_self))

/-! ## The flags of a list with profiling -/

theorem withProfiling_distinct (distinct : (ps.map Prod.fst).Nodup) :
    ((withProfiling (some ps)).map Prod.fst).Nodup := by
  rw [withProfiling, Option.getD_some]
  split_ifs with present
  · rw [List.map_map, show Prod.fst ∘ profiled = Prod.fst from funext profiled_key]
    exact distinct
  · rw [List.map_append]
    refine List.nodup_append.mpr ⟨distinct, List.nodup_singleton _, ?_⟩
    rintro key isKey _ last rfl
    obtain ⟨p, mem, rfl⟩ := List.mem_map.mp isKey
    exact present (List.any_eq_true.mpr ⟨p, mem, decide_eq_true (List.mem_singleton.mp last)⟩)

theorem QueuePropertiesAt.withProfiling (place : QueuePropertiesAt ps j v) :
    QueuePropertiesAt (withProfiling (some ps)) j (v ||| CL_QUEUE_PROFILING_ENABLE) := by
  rw [QueuePropertiesAt, Clarmor.withProfiling, Option.getD_some, if_pos place.present,
    List.getElem?_map, place]
  rfl

theorem withProfiling_place (absent : ps.any isQueueProperties = false) :
    QueuePropertiesAt (withProfiling (some ps)) ps.length CL_QUEUE_PROFILING_ENABLE := by
  rw [QueuePropertiesAt, withProfiling, Option.getD_some, absent, if_neg Bool.false_ne_true,
    List.getElem?_concat_length]

theorem withProfiling_ne_nil (properties : Option QueueProperties) :
    withProfiling properties ≠ [] := by
  rw [withProfiling]
  split_ifs with present
  · rintro empty
    rw [List.map_eq_nil_iff.mp empty] at present
    contradiction
  · exact List.append_ne_nil_of_right_ne_nil _ (List.cons_ne_nil _ _)

/-- Profiling is a flag, so the value is not zero, and it has 32 bits when the value
without it has. -/
theorem or_profiling_reach_iff :
    (if j < 2 then v ||| CL_QUEUE_PROFILING_ENABLE < 4294967296
      else v ||| CL_QUEUE_PROFILING_ENABLE = 0) ↔ j < 2 ∧ v < 4294967296 := by
  split_ifs with first
  · have bits : v ||| CL_QUEUE_PROFILING_ENABLE < 2 ^ 32 ↔ v < 2 ^ 32 :=
      ⟨fun small => lt_of_le_of_lt Nat.left_le_or small,
        fun small => Nat.or_lt_two_pow small (by decide)⟩
    exact bits.trans (and_iff_right first).symm
  · have flag : CL_QUEUE_PROFILING_ENABLE ≤ v ||| CL_QUEUE_PROFILING_ENABLE := Nat.right_le_or
    refine iff_of_false (fun zero => ?_) fun inside => first inside.1
    rw [zero] at flag
    contradiction

/-- The flags of the list with profiling. -/
theorem withProfiling_flags_iff (distinct : (ps.map Prod.fst).Nodup) :
    firstFlags (withProfiling (some ps)) = queuePropertiesValue (withProfiling (some ps)) ↔
      (∀ j v, QueuePropertiesAt ps j v → j < 2 ∧ v < 4294967296) ∧
        (ps.any isQueueProperties = false → ps.length < 2) := by
  have distinct' := withProfiling_distinct distinct
  cases present : ps.any isQueueProperties with
  | true =>
      obtain ⟨j, v, place⟩ := exists_place present
      rw [firstFlags_eq_value_iff distinct' place.withProfiling, or_profiling_reach_iff]
      constructor
      · intro inside
        refine ⟨fun k w other => ?_, fun absent => absurd absent.symm Bool.false_ne_true⟩
        obtain ⟨rfl, rfl⟩ := place.unique distinct other
        exact inside
      · exact fun inside => inside.1 j v place
  | false =>
      rw [firstFlags_eq_value_iff distinct' (withProfiling_place present)]
      have nowhere : ∀ j v, ¬ QueuePropertiesAt ps j v := fun j v place => by
        rw [place.present] at present
        contradiction
      constructor
      · intro inside
        refine ⟨fun j v place => absurd place (nowhere j v), fun _ => ?_⟩
        by_contra late
        rw [if_neg late] at inside
        contradiction
      · rintro ⟨-, inside⟩
        rw [if_pos (inside rfl)]
        decide

/-- The flags of a list without profiling. -/
theorem flags_iff (distinct : (ps.map Prod.fst).Nodup) :
    firstFlags ps = queuePropertiesValue ps ↔
      ∀ j v, QueuePropertiesAt ps j v → if j < 2 then v < 4294967296 else v = 0 := by
  cases present : ps.any isQueueProperties with
  | true =>
      obtain ⟨j, v, place⟩ := exists_place present
      rw [firstFlags_eq_value_iff distinct place]
      constructor
      · intro inside k w other
        obtain ⟨rfl, rfl⟩ := place.unique distinct other
        exact inside
      · exact fun inside => inside j v place
  | false =>
      refine iff_of_true (firstFlags_of_absent present) fun j v place => ?_
      rw [place.present] at present
      contradiction

/-- The wrapper reads the flags of a queue exactly when the application passes no list,
or one with the queue properties in reach. -/
theorem readsFlags_iff (checkerTime : Bool) {properties : Option QueueProperties}
    (list : ∀ ps ∈ properties, IsPropertyList ps) :
    ReadsFlags checkerTime properties ↔ ∀ ps ∈ properties, FlagsInReach checkerTime ps := by
  cases properties with
  | none =>
      refine iff_of_true ?_ fun ps mem => absurd mem (Option.not_mem_none ps)
      cases checkerTime <;> exact ⟨rfl, rfl⟩
  | some ps =>
      have single : (∀ ps' ∈ some ps, FlagsInReach checkerTime ps') ↔
          FlagsInReach checkerTime ps := by simp
      rw [single]
      have isList := list ps rfl
      cases checkerTime with
      | false =>
          simp only [ReadsFlags, updatedProp, FlagsInReach, Bool.false_eq_true, if_false,
            Option.map_some, true_and, Option.getD_some, queueFlags_array]
          split_ifs with empty
          · exact iff_of_false not_false fun inside => inside.1 empty
          · rw [Option.some.injEq, flags_iff isList.distinct, and_iff_right empty]
      | true =>
          simp only [ReadsFlags, updatedProp, FlagsInReach, if_true, Option.map_some,
            addProfilingArray_list isList, Option.getD_some, queueFlags_array,
            if_neg (withProfiling_ne_nil (some ps)), Option.some.injEq,
            withProfiling_flags_iff isList.distinct]
          split_ifs with fits
          · simp [fits]
          · simp [fits]

/-- The queue properties behind a size, with profiling. -/
theorem readsFlags_iff_sizedQueue :
    ReadsFlags true (some sizedQueue) ↔ ∀ ps ∈ some sizedQueue, FlagsInReach true ps := by
  refine readsFlags_iff true fun ps mem => ?_
  obtain rfl := Option.some.inj mem
  exact isPropertyList_sizedQueue

/-- Queue properties on the device, behind a size and a priority. -/
def lateQueue : QueueProperties := [(0x1094, 16), (0x1096, 1), (CL_QUEUE_PROPERTIES, 5)]

/-- The flags of a late pair are not seen, and of an empty list a cell is read behind
its terminator. -/
theorem not_readsFlags :
    (IsPropertyList lateQueue ∧ queueFlags (some (propertyArray lateQueue)) = some 0 ∧
      queuePropertiesValue lateQueue = 5 ∧ ¬ ReadsFlags false (some lateQueue)) ∧
    IsPropertyList [] ∧ queueFlags (some (propertyArray [])) = none ∧
      ¬ ReadsFlags false (some []) :=
  ⟨⟨⟨by decide, by decide⟩, rfl, rfl, fun read => absurd read.2 (by decide)⟩,
    ⟨by decide, by decide⟩, rfl, fun read => absurd read.2 (by decide)⟩

end Clarmor
