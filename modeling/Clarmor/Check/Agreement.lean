import Clarmor.Check.MergedResults

/-!
# When the four ways agree

The check of single buffers runs every region of every object by itself and puts the
halves together.  With it the four ways agree in any order, and where they do not
agree one of them fails or reads what another part of the same check has mended.
-/

namespace Clarmor

open Word Store Reduce Items

variable {objects : List CheckedObject} {m : DeviceMemory} {inp : CheckInput}

/-! ## The check of single buffers -/

theorem partsLaunches_getElem? {isSvm : Bool} {i n : Nat} (nLt : n < 2) :
    (partsLaunches isSvm objects)[2 * i + n]? = objects[i]?.map fun o =>
      ⟨isSvm, u32 (2 * i + n), o, if n = 0 then 0 else canaryOffset o.size⟩ := by
  have two : ∀ x : CheckedObject × Nat,
      [(⟨isSvm, u32 (POISON_REGIONS * x.2), x.1, 0⟩ : PartsLaunch),
        ⟨isSvm, u32 (POISON_REGIONS * x.2 + 1), x.1, canaryOffset x.1.size⟩].length = 2 :=
    fun _ => rfl
  rw [partsLaunches, getElem?_flatMap two nLt, List.getElem?_zipIdx]
  cases objects[i]? with
  | none => rfl
  | some o =>
      rw [Nat.zero_add]
      rcases Nat.lt_succ_iff_lt_or_eq.mp nLt with zero | rfl
      · obtain rfl := Nat.lt_one_iff.mp zero
        rfl
      · rfl

theorem partsLaunches_length (isSvm : Bool) (objects : List CheckedObject) :
    (partsLaunches isSvm objects).length = 2 * objects.length := by
  rw [partsLaunches, List.length_flatMap]
  simp [Nat.mul_comm]

theorem launches_length (inp : CheckInput) : inp.launches.length = 2 * inp.objects.length := by
  rw [CheckInput.launches, List.length_append, partsLaunches_length, partsLaunches_length,
    inp.length_objects]
  omega

/-- The cell of the result of a launch, by the number of the launch. -/
def launchCell (inp : CheckInput) (j : Nat) : Bool × Nat :=
  if j < 2 * inp.buffers.length then (false, j) else (true, j - 2 * inp.buffers.length)

/-- The launches go through the regions of the objects. -/
theorem launches_getElem? (few : Few inp) {o : CheckedObject} {j : Nat}
    (isObject : inp.objects[j / 2]? = some o) :
    inp.launches[j]? = some ⟨(launchCell inp j).1, (launchCell inp j).2, o,
      if j % 2 = 0 then 0 else canaryOffset o.size⟩ := by
  have bound := few.buffers
  have bound' := few.svms
  obtain ⟨iLt, -⟩ := List.getElem?_eq_some_iff.mp isObject
  rw [inp.length_objects] at iLt
  have nLt : j % 2 < 2 := Nat.mod_lt j (by decide)
  rw [CheckInput.launches, launchCell]
  rcases lt_or_ge j (2 * inp.buffers.length) with isBuffer | isSvm
  · rw [if_pos isBuffer]
    have own : inp.buffers[j / 2]? = some o := by
      rw [← isObject, CheckInput.objects, List.getElem?_append_left (by omega)]
    have found := @partsLaunches_getElem? inp.buffers false (j / 2) (j % 2) nLt
    rw [Nat.div_add_mod, own, u32_of_lt (by omega)] at found
    rw [List.getElem?_append_left (by rw [partsLaunches_length]; omega), found]
    rfl
  · rw [if_neg (not_lt.mpr isSvm)]
    have own : inp.svms[j / 2 - inp.buffers.length]? = some o := by
      rw [← isObject, CheckInput.objects, List.getElem?_append_right (by omega)]
    have found := @partsLaunches_getElem? inp.svms true (j / 2 - inp.buffers.length) (j % 2) nLt
    rw [show 2 * (j / 2 - inp.buffers.length) + j % 2 = j - 2 * inp.buffers.length by omega, own,
      u32_of_lt (by omega)] at found
    rw [List.getElem?_append_right (by rw [partsLaunches_length]; omega), partsLaunches_length,
      found]
    rfl

theorem launchCell_inj {j j' : Nat} (same : launchCell inp j = launchCell inp j') : j = j' := by
  rw [launchCell, launchCell] at same
  split_ifs at same with isBuffer isBuffer' isBuffer'
  · exact (Prod.mk.inj same).2
  · exact absurd (Prod.mk.inj same).1 Bool.false_ne_true
  · exact absurd (Prod.mk.inj same).1.symm Bool.false_ne_true
  · have second := (Prod.mk.inj same).2
    omega

theorem partsGrid_total (inp : CheckInput) (size : Nat) :
    (partsGrid size inp.launches).total = 2048 * inp.objects.length := by
  change poisonWordLen * inp.launches.length = _
  rw [launches_length, poisonWordLen]
  omega

theorem partsGrid_uniform {size : Nat} (divides : size ∣ 1024) :
    (partsGrid size inp.launches).Uniform := by
  constructor
  · rw [partsGrid_total]
    exact divides.trans (Nat.dvd_mul_right_of_dvd (by decide) _)
  · intro t u group
    have launch : t / poisonWordLen = u / poisonWordLen := div_eq_of_group divides group
    have inside : ∀ t, t % poisonWordLen < poisonWordLen := fun t => Nat.mod_lt t (by decide)
    constructor
    · exact decide_eq_decide.mpr (iff_of_true (inside t) (inside u))
    · simp only [partsGrid, launch]

theorem partsGrid_items (few : Few inp) {size j : Nat} (jLt : j < 2 * inp.objects.length)
    (t : Nat) : (t < (partsGrid size inp.launches).total ∧
      (partsGrid size inp.launches).part t = true ∧
      (partsGrid size inp.launches).cell t = launchCell inp j) ↔
      ∃ w < 1024, t = 1024 * j + w := by
  have cell : ∀ t < 2048 * inp.objects.length,
      (partsGrid size inp.launches).cell t = launchCell inp (t / 1024) := by
    intro t tLt
    have found := launches_getElem? few (List.getElem?_eq_getElem
      (show t / 1024 / 2 < inp.objects.length by omega))
    change ((inp.launches[t / poisonWordLen]?).map fun l => (l.isSvm, l.buffID)).getD _ = _
    rw [show t / poisonWordLen = t / 1024 from rfl, found]
    rfl
  rw [partsGrid_total]
  constructor
  · rintro ⟨tLt, -, here⟩
    rw [cell t tLt] at here
    have launch := launchCell_inj here
    exact ⟨t % 1024, Nat.mod_lt t (by decide), by omega⟩
  · rintro ⟨w, wLt, rfl⟩
    refine ⟨by omega, decide_eq_true (Nat.mod_lt _ (by decide)), ?_⟩
    rw [cell _ (by omega), show (1024 * j + w) / 1024 = j by omega]

/-- What an item of them finds. -/
def partChange (objects : List CheckedObject) (m : DeviceMemory) (t : Nat) : Nat :=
  ((objects[t / 2048]?).map fun o =>
    firstByte (4 * (t % 1024)) fun q => m (o.cell (4 * (t % 2048) + q)) ≠ POISON_FILL).getD INT_MAX

theorem partChange_of_some {o : CheckedObject} {t : Nat} (isObject : objects[t / 2048]? = some o) :
    partChange objects m t = firstByte (4 * (t % 1024)) fun q =>
      m (o.cell (4 * (t % 2048) + q)) ≠ POISON_FILL := by
  rw [partChange, isObject]
  rfl

/-- The item of a word of a region. -/
theorem partsItem_eq (few : Few inp) {o : CheckedObject} {t : Nat}
    (isObject : inp.objects[t / 2048]? = some o) :
    partsItem inp.launches t = locateDiffParts poisonFill_32b
      (if t / 1024 % 2 = 0 then 0 else canaryOffset o.size) o.store o.base (t % 1024) := by
  have launch := @launches_getElem? inp few o (t / 1024) (by
    rwa [Nat.div_div_eq_div_mul])
  funext m
  rw [partsItem, show t / poisonWordLen = t / 1024 from rfl, launch]
  rfl

theorem partsItem_finds (few : Few inp) {o : CheckedObject} {t : Nat}
    (isObject : inp.objects[t / 2048]? = some o) (aligned : o.base % 4 = 0) :
    Finds (partsItem inp.launches t) (o.cell (4 * (t % 2048))).1 (o.cell (4 * (t % 2048))).2
      (4 * (t % 1024)) := by
  have finds := @locateDiffParts_finds (if t / 1024 % 2 = 0 then 0 else canaryOffset o.size)
    o.store o.base (t % 1024) (fun _ => aligned) (by simp only [INT_MAX]; omega)
  have region := @canaryCell_region o.size (t % 2048) (Nat.mod_lt t (by decide))
  have place : o.base + (if t / 1024 % 2 = 0 then 0 else canaryOffset o.size) + 4 * (t % 1024) =
      o.base + canaryCell o.size (4 * (t % 2048)) := by
    rw [← region, show t % 2048 % 1024 = t % 1024 by omega, ← Nat.add_assoc]
    congr 2
    split_ifs with front
    · rw [show t % 2048 / 1024 = 0 by omega, canaryCell_front (by decide)]
    · rw [show t % 2048 / 1024 = 1 by omega, canaryCell_back (by decide), Nat.mul_one,
        POISON_FILL_LENGTH, Nat.sub_self, Nat.add_zero]
  rw [place] at finds
  rw [partsItem_eq few isObject]
  exact finds

/-! ## Putting the halves together -/

theorem merged_firstChange (image : Nat → UInt8) :
    merged (firstChange 4096 image) (firstChange 4096 fun k => image (4096 + k)) =
      firstChange 8192 image := by
  have top : (8192 : Nat) ≤ INT_MAX := by decide
  have topBack := @firstChange_le_top 4096 (fun k => image (4096 + k)) (by decide)
  have back : ∀ x < INT_MAX,
      (if firstChange 4096 (fun k => image (4096 + k)) < INT_MAX then
        firstChange 4096 (fun k => image (4096 + k)) + POISON_FILL_LENGTH
      else firstChange 4096 (fun k => image (4096 + k))) ≤ x ↔
        ∃ k < 4096, image (4096 + k) ≠ POISON_FILL ∧ 4096 + k ≤ x := by
    intro x below
    have bounds := fun x (below : x < INT_MAX) =>
      @firstChange_le_iff 4096 x (fun k => image (4096 + k)) below
    generalize firstChange 4096 (fun k => image (4096 + k)) = half2 at bounds topBack
    split_ifs with found
    · rw [POISON_FILL_LENGTH]
      constructor
      · intro le
        obtain ⟨k, kLt, bad, kLe⟩ := (bounds half2 found).mp (le_refl _)
        exact ⟨k, kLt, bad, by omega⟩
      · rintro ⟨k, kLt, bad, kLe⟩
        have le := (bounds k (by omega)).mpr ⟨k, kLt, bad, le_refl k⟩
        omega
    · constructor
      · intro le
        omega
      · rintro ⟨k, kLt, bad, kLe⟩
        have le := (bounds k (by omega)).mpr ⟨k, kLt, bad, le_refl k⟩
        omega
  have isMin : ∀ half1 half2 : Nat, (if half1 < half2 then half1 else half2) = min half1 half2 := by
    intro half1 half2
    split_ifs <;> omega
  rw [merged, isMin]
  refine eq_firstChange top (min_le_of_left_le (firstChange_le_top (by decide))) fun x below => ?_
  rw [min_le_iff, back x below, firstChange_le_iff below]
  constructor
  · rintro (⟨k, kLt, bad, kLe⟩ | ⟨k, kLt, bad, kLe⟩)
    · exact ⟨k, by omega, bad, kLe⟩
    · exact ⟨4096 + k, by omega, bad, kLe⟩
  · rintro ⟨k, kLt, bad, kLe⟩
    rcases lt_or_ge k 4096 with front | behind
    · exact Or.inl ⟨k, front, bad, kLe⟩
    · refine Or.inr ⟨k - 4096, by omega, ?_, by omega⟩
      rwa [Nat.add_sub_cancel' behind]

/-- What is reported of an object comes from the results of its two launches. -/
theorem reports_eq (few : Few inp) (first : Bool × Nat → Nat) :
    ((List.range inp.buffers.length).map fun i => reported
        (formatResultBuff inp.buffers.length (fun c => first (false, c)) i)) ++
      ((List.range inp.svms.length).map fun i => reported
        (formatResultBuff inp.svms.length (fun c => first (true, c)) i)) =
      (List.range inp.objects.length).map fun i =>
        reported
          (merged (first (launchCell inp (2 * i))) (first (launchCell inp (2 * i + 1)))) := by
  rw [inp.length_objects, List.range_add, List.map_append, List.map_map]
  congr 1
  · refine List.map_congr_left fun i mem => ?_
    have iLt := List.mem_range.mp mem
    have few := few.buffers
    rw [formatResultBuff_early iLt (by omega), launchCell, launchCell, if_pos (by omega),
      if_pos (by omega)]
  · refine List.map_congr_left fun i mem => ?_
    have iLt := List.mem_range.mp mem
    have few := few.svms
    rw [formatResultBuff_early iLt (by omega), Function.comp_apply, launchCell, launchCell,
      if_neg (by omega), if_neg (by omega),
      show 2 * (inp.buffers.length + i) - 2 * inp.buffers.length = 2 * i by omega,
      show 2 * (inp.buffers.length + i) + 1 - 2 * inp.buffers.length = 2 * i + 1 by omega]

/-- The check of single buffers reports the first changes when every item finds that of
its word. -/
theorem reports_of_halves (few : Few inp) {size : Nat} {first : Bool × Nat → Nat}
    (gathers : Gathers (partsGrid size inp.launches) INT_MAX (partChange inp.objects m) first) :
    ((List.range inp.buffers.length).map fun i => reported
        (formatResultBuff inp.buffers.length (fun c => first (false, c)) i)) ++
      ((List.range inp.svms.length).map fun i => reported
        (formatResultBuff inp.svms.length (fun c => first (true, c)) i)) = inp.changes m := by
  have half : ∀ i o, inp.objects[i]? = some o → ∀ n < 2, first (launchCell inp (2 * i + n)) =
      firstChange 4096 fun k => m (o.cell (4096 * n + k)) := by
    intro i o isObject n nLt
    obtain ⟨iLt, -⟩ := List.getElem?_eq_some_iff.mp isObject
    refine @eq_firstChange_of_gathers _ _ _ _ _ _ 1024 _ _ gathers (by decide)
      (partsGrid_items few (by omega)) fun w wLt => ?_
    rw [partChange_of_some (o := o)]
    · rw [show (1024 * (2 * i + n) + w) % 1024 = w by omega,
        show (1024 * (2 * i + n) + w) % 2048 = 1024 * n + w by omega]
      refine firstByte_congr fun q _ => ?_
      rw [show 4 * (1024 * n + w) + q = 4096 * n + (4 * w + q) by omega]
    · rw [show (1024 * (2 * i + n) + w) / 2048 = i by omega, isObject]
  have object : ∀ i o, inp.objects[i]? = some o →
      reported (merged (first (launchCell inp (2 * i))) (first (launchCell inp (2 * i + 1)))) =
        (List.range (POISON_REGIONS * POISON_FILL_LENGTH)).find? fun k =>
          m (o.cell k) ≠ POISON_FILL := by
    intro i o isObject
    have front := half i o isObject 0 (by decide)
    have back := half i o isObject 1 (by decide)
    simp only [Nat.mul_zero, Nat.zero_add, Nat.add_zero, Nat.mul_one] at front back
    rw [front, back, merged_firstChange fun k => m (o.cell k), reported_firstChange (by decide)]
    rfl
  rw [reports_eq few, CheckInput.changes]
  apply List.ext_getElem (by simp)
  intro i iLt _
  rw [List.length_map, List.length_range] at iLt
  rw [List.getElem_map, List.getElem_map, List.getElem_range]
  exact object i _ (List.getElem?_eq_getElem iLt)

/-- The start of every allocation is aligned. -/
theorem base_aligned (words : ∀ o ∈ inp.svms, o.base % 4 = 0 ∧ o.size % 4 = 0) :
    ∀ o ∈ inp.objects, o.base % 4 = 0 := by
  intro o mem
  rcases List.mem_append.mp mem with mem | mem
  · exact inp.aligned o mem
  · exact (words o mem).1

/-- The check of single buffers, in any order. -/
theorem verifyClBufferSingle_eq {size : Nat} (checkable : Checkable inp) (divides : size ∣ 1024)
    (m : DeviceMemory) (s : Schedule (Bool × Nat) Nat) :
    verifyClBufferSingle size s inp m = some (inp.changes m) := by
  have few : Few inp := ⟨checkable.fewBuffers, checkable.fewSvms⟩
  have finds : ∀ t < (partsGrid size inp.launches).total, ∃ o, inp.objects[t / 2048]? = some o ∧
      Finds (partsItem inp.launches t) (o.cell (4 * (t % 2048))).1 (o.cell (4 * (t % 2048))).2
        (4 * (t % 1024)) := by
    intro t tLt
    rw [partsGrid_total] at tLt
    have iLt : t / 2048 < inp.objects.length := by omega
    have isObject := List.getElem?_eq_getElem iLt
    exact ⟨_, isObject, partsItem_finds few isObject
      (base_aligned checkable.words _ (List.getElem_mem iLt))⟩
  obtain ⟨first, m', launched, gathers⟩ := @launch_of_disjoint _ _ _ _ _ _
    (partsGrid size inp.launches) s INT_MAX (partsItem inp.launches) m (partChange inp.objects m)
    (fun t a => ∃ o, inp.objects[t / 2048]? = some o ∧ InWord (o.cell (4 * (t % 2048))) a)
    (partsGrid_uniform divides)
    (fun t tLt => by
      obtain ⟨o, isObject, finds⟩ := finds t tLt
      exact finds.isLocal.mono fun a touched => ⟨o, isObject, touched⟩)
    (fun t tLt u uLt differ a touched touched' => by
      obtain ⟨o, isObject, touched⟩ := touched
      obtain ⟨o', isObject', touched'⟩ := touched'
      exact words_apart checkable.between isObject isObject' differ touched touched')
    (fun t tLt => by
      obtain ⟨o, isObject, finds⟩ := finds t tLt
      rw [finds, partChange_of_some isObject]
      refine ⟨_, congrArg some (Prod.ext (firstByte_congr fun q qLt => ?_) rfl)⟩
      rw [cell_word qLt])
  rw [verifyClBufferSingle, launched, Option.map_some]
  exact congrArg some (reports_of_halves few gathers)

/-! ## Where the strategies differ -/

/-- With many objects the copies have no room. -/
theorem few_of_copied {size : Nat} {m : DeviceMemory} {s : Schedule Nat Nat}
    {reports : List (Option Nat)} (ran : verifyClBufferCopy false size s inp m = some reports) :
    Few inp := by
  by_contra many
  have none : ¬ inp.buffers.length + inp.svms.length = 0 := by
    intro none
    exact many ⟨by omega, by omega⟩
  simp only [verifyClBufferCopy, none, if_false, Bool.false_eq_true] at ran
  obtain ⟨clmemCopies, clmem, ran⟩ := Option.bind_eq_some_iff.mp ran
  obtain ⟨svmCopies, svm, -⟩ := Option.bind_eq_some_iff.mp ran
  refine many ⟨?_, ?_⟩ <;> by_contra many
  · rw [copyCanaries_eq_none (not_lt.mp many)] at clmem
    contradiction
  · rw [copyCanaries_eq_none (not_lt.mp many)] at svm
    contradiction

/-- An item of the pointer check at a pointer that is not aligned fails. -/
theorem verifyClBufferCopy_eq_none (few : Few inp) {size i n : Nat} {o : CheckedObject}
    (own : inp.svms[i]? = some o) (nLt : n < 2)
    (odd : (o.base + canaryCell o.size (4096 * n)) % 4 ≠ 0) (m : DeviceMemory)
    (s : Schedule Nat Nat) : verifyClBufferCopy true size s inp m = none := by
  obtain ⟨iLt, -⟩ := List.getElem?_eq_some_iff.mp own
  have someObject : ¬ inp.buffers.length + inp.svms.length = 0 := by omega
  obtain ⟨clmemCopies, copied, -⟩ := copyCanaries_spec few.buffers m
  have tLt : 2048 * (inp.buffers.length + i) + 1024 * n < (copyGrid true size inp).total := by
    rw [copyGrid_total few, inp.length_objects]
    omega
  have fails : ∀ m', copyItem true inp clmemCopies (Block.replicate 0 0)
      (2048 * (inp.buffers.length + i) + 1024 * n) m' = none := by
    intro m'
    rw [@copyItem_svm inp clmemCopies (Block.replicate 0 0) size _ o few tLt (by omega) (by
        rwa [show (2048 * (inp.buffers.length + i) + 1024 * n) / 2048 - inp.buffers.length = i by
          omega]),
      show (2048 * (inp.buffers.length + i) + 1024 * n) % 2048 / 1024 = n by omega,
      show (2048 * (inp.buffers.length + i) + 1024 * n) % 1024 = 0 by omega, compareAndMend,
      loadWord, if_neg (by rwa [Nat.mul_zero, Nat.add_zero])]
    rfl
  simp only [verifyClBufferCopy, someObject, if_false, if_true, copied, Option.bind_some]
  rw [launch_eq_none tLt fails]
  rfl

theorem words_of_pointers (few : Few inp) {size : Nat}
    (ran : ∀ m s, verifyClBufferCopy true size s inp m = some (inp.changes m)) :
    ∀ o ∈ inp.svms, o.base % 4 = 0 ∧ o.size % 4 = 0 := by
  intro o mem
  obtain ⟨i, own⟩ := List.mem_iff_getElem?.mp mem
  have aligned : ∀ n < 2, (o.base + canaryCell o.size (4096 * n)) % 4 = 0 := by
    intro n nLt
    by_contra odd
    have report := ran (fun _ => POISON_FILL) (Schedule.inOrder Nat Nat)
    rw [verifyClBufferCopy_eq_none few own nLt odd] at report
    contradiction
  have front := aligned 0 (by decide)
  have back := aligned 1 (by decide)
  rw [canaryCell_front (by decide)] at front
  rw [canaryCell_back (by decide), Nat.mul_one, POISON_FILL_LENGTH, Nat.sub_self, Nat.add_zero]
    at back
  have offset : canaryOffset o.size % 4 = o.size % 4 := by
    rw [canaryOffset, u32_mod_four, POISON_FILL_LENGTH, Nat.add_mod, u32_mod_four]
    omega
  omega

/-- Canary bytes everywhere but in one cell. -/
def oneByte (a : Nat × Nat) : DeviceMemory := Function.update (fun _ => POISON_FILL) a 0

/-- A word with the one byte, first of all words. -/
theorem partsItem_oneByte (few : Few inp) {o : CheckedObject} {i : Nat}
    (isObject : inp.objects[i]? = some o) (aligned : o.base % 4 = 0) :
    partsItem inp.launches (2048 * i + 1024) (oneByte (o.cell 4096)) =
      some (0, fun _ => POISON_FILL) := by
  have finds := @partsItem_finds inp few o (2048 * i + 1024)
    (by rwa [show (2048 * i + 1024) / 2048 = i by omega]) aligned
  rw [show (2048 * i + 1024) % 2048 = 1024 by omega,
    show (2048 * i + 1024) % 1024 = 0 by omega] at finds
  have bad : oneByte (o.cell 4096) ((o.cell 4096).1, (o.cell 4096).2 + 0) ≠ POISON_FILL := by
    rw [Nat.add_zero, oneByte, Function.update_self]
    decide
  rw [finds]
  refine congrArg some (Prod.ext ?_ ?_)
  · exact Nat.le_zero.mp ((firstByte_le_iff (by decide)).mpr
      ⟨0, by decide, decide_eq_true bad, le_refl 0⟩)
  · funext a
    change mendedBytes _ _ _ _ a = POISON_FILL
    rw [mendedBytes]
    split_ifs with inWord
    · rfl
    · refine Function.update_of_ne (fun here => inWord ?_) _ _
      rw [here]
      exact ⟨rfl, le_refl _, Nat.lt_add_of_pos_right (by decide)⟩

theorem partsItem_clean (few : Few inp) {o : CheckedObject} {t : Nat}
    (isObject : inp.objects[t / 2048]? = some o) (aligned : o.base % 4 = 0) :
    partsItem inp.launches t (fun _ => POISON_FILL) = some (INT_MAX, fun _ => POISON_FILL) := by
  rw [partsItem_finds few isObject aligned, mendedBytes_of_clean fun _ _ => rfl,
    firstByte_eq_top fun q _ => decide_eq_false (not_not.mpr rfl)]

/-- When the item of the first word of the second region of an object runs first, only
that region shows the byte. -/
theorem report_oneByte (few : Few inp) (bases : ∀ o ∈ inp.objects, o.base % 4 = 0) {size i : Nat}
    (divides : size ∣ 1024) {o : CheckedObject} (isObject : inp.objects[i]? = some o) :
    ∃ reports, verifyClBufferSingle size (Schedule.itemFirst _ _ (2048 * i + 1024)) inp
      (oneByte (o.cell 4096)) = some reports ∧ reports[i]? = some (some 4096) := by
  obtain ⟨iLt, -⟩ := List.getElem?_eq_some_iff.mp isObject
  have total := partsGrid_total inp size
  have first := partsItem_oneByte few isObject (bases o (List.mem_of_getElem? isObject))
  generalize isFirst : 2048 * i + 1024 = t₀ at first ⊢
  have among : t₀ ∈ List.range (partsGrid size inp.launches).total := by
    rw [List.mem_range, total]
    omega
  have order : (Schedule.itemFirst (Bool × Nat) Nat t₀).items
      (List.range (partsGrid size inp.launches).total) =
        t₀ :: (List.range (partsGrid size inp.launches).total).erase t₀ := if_pos among
  have later : ∀ t ∈ (List.range (partsGrid size inp.launches).total).erase t₀,
      partsItem inp.launches t (fun _ => POISON_FILL) = some (INT_MAX, fun _ => POISON_FILL) := by
    intro t mem
    have tLt := List.mem_range.mp (List.mem_of_mem_erase mem)
    rw [total] at tLt
    have isObject' := List.getElem?_eq_getElem (show t / 2048 < inp.objects.length by omega)
    exact partsItem_clean few isObject' (bases _ (List.mem_of_getElem? isObject'))
  have ran : run (partsItem inp.launches) ((Schedule.itemFirst (Bool × Nat) Nat t₀).items
      (List.range (partsGrid size inp.launches).total)) (oneByte (o.cell 4096)) =
        some (((Schedule.itemFirst (Bool × Nat) Nat t₀).items
          (List.range (partsGrid size inp.launches).total)).map
            fun t => (t, if t = t₀ then 0 else INT_MAX), fun _ => POISON_FILL) := by
    have others : ((List.range (partsGrid size inp.launches).total).erase t₀).map
        (fun t => (t, if t = t₀ then 0 else INT_MAX)) =
          ((List.range (partsGrid size inp.launches).total).erase t₀).map
            fun t => (t, INT_MAX) := by
      refine List.map_congr_left fun t mem => ?_
      rw [if_neg (List.nodup_range.mem_erase_iff.mp mem).1]
    rw [order, run, first, Option.bind_some, run_of_fixed later, List.map_cons, if_pos rfl, others]
    rfl
  obtain ⟨cells, launched, gathers⟩ := launch_of_run (partsGrid_uniform divides) ran
  have back : cells (launchCell inp (2 * i + 1)) = 0 := by
    refine Nat.le_zero.mp ((gathers.le_iff _ 0 (show 0 < INT_MAX by decide)).mpr ⟨t₀, ?_⟩)
    obtain ⟨tLt, takes, here⟩ := (@partsGrid_items inp few size (2 * i + 1) (by omega) t₀).mpr
      ⟨0, by decide, by omega⟩
    exact ⟨tLt, takes, here, by rw [if_pos rfl]⟩
  have front : cells (launchCell inp (2 * i)) = INT_MAX := by
    by_contra other
    have below := lt_of_le_of_ne (gathers.le_top (launchCell inp (2 * i))) other
    obtain ⟨t, tLt, takes, here, le⟩ := (gathers.le_iff _ _ below).mp (le_refl _)
    obtain ⟨w, wLt, rfl⟩ := (@partsGrid_items inp few size (2 * i) (by omega) t).mp
      ⟨tLt, takes, here⟩
    rw [if_neg (by omega)] at le
    exact absurd le (not_le.mpr below)
  refine ⟨(List.range inp.objects.length).map fun i => reported
    (merged (cells (launchCell inp (2 * i))) (cells (launchCell inp (2 * i + 1)))), ?_, ?_⟩
  · rw [verifyClBufferSingle, launched, Option.map_some]
    exact congrArg some (reports_eq few cells)
  · rw [List.getElem?_map, List.getElem?_range iLt, Option.map_some, front, back]
    rfl

/-- When the second region begins inside the first, its items may mend a byte before
the items of the first region see it. -/
theorem between_of_parts (few : Few inp) (bases : ∀ o ∈ inp.objects, o.base % 4 = 0) {size : Nat}
    (divides : size ∣ 1024)
    (ran : ∀ m s, verifyClBufferSingle size s inp m = some (inp.changes m)) :
    ∀ o ∈ inp.objects, POISON_FILL_LENGTH ≤ canaryOffset o.size := by
  intro o mem
  by_contra overlaps
  have inside := not_le.mp overlaps
  obtain ⟨i, isObject⟩ := List.mem_iff_getElem?.mp mem
  obtain ⟨reports, report, found⟩ := report_oneByte few bases divides isObject
  rw [ran] at report
  obtain rfl := Option.some.inj report
  rw [CheckInput.changes, List.getElem?_map, isObject, Option.map_some, Option.some.injEq,
    find?_range_iff] at found
  obtain ⟨-, -, before⟩ := found
  -- The byte lies in the first region as well.
  refine before (canaryOffset o.size) inside ?_
  have sameCell : o.cell (canaryOffset o.size) = o.cell 4096 := by
    rw [CheckedObject.cell, CheckedObject.cell, canaryCell_front inside,
      canaryCell_back (by decide), POISON_FILL_LENGTH, Nat.sub_self, Nat.add_zero]
  rw [sameCell, oneByte, Function.update_self]
  decide

/-- The four strategies agree exactly for few objects, pointers to whole words and
regions that do not overlap. -/
theorem strategies_agree_iff {copied pointers parts : Nat} (copiedDivides : copied ∣ 2048)
    (pointersDivides : pointers ∣ 2048) (partsDivides : parts ∣ 1024) :
    StrategiesAgree inp copied pointers parts ↔ Checkable inp := by
  constructor
  · intro agree
    have few := few_of_copied (agree.copied (fun _ => POISON_FILL) (Schedule.inOrder Nat Nat))
    have words := words_of_pointers few agree.pointers
    exact ⟨few.buffers, few.svms, words,
      between_of_parts few (base_aligned words) partsDivides agree.parts⟩
  · intro checkable
    refine ⟨fun m => ?_, verifyClBufferCopy_copied ⟨checkable.fewBuffers, checkable.fewSvms⟩
      copiedDivides, verifyClBufferCopy_pointers checkable pointersDivides,
      verifyClBufferSingle_eq checkable partsDivides⟩
    exact List.map_congr_left fun o _ => cpuParseCanary_eq_find (by decide)

/-- A buffer of three bytes and an SVM region of eight. -/
def bufferAndRegion : CheckInput where
  buffers := [⟨2, 0, 3⟩]
  svms := [⟨SHARED, 4096, 8⟩]
  apart := by
    simp only [List.cons_append, List.nil_append, List.pairwise_cons, List.mem_singleton,
      List.not_mem_nil, List.Pairwise.nil, and_true, forall_eq, false_implies, implies_true]
    rintro a ⟨store, -⟩ ⟨store', -⟩
    rw [store] at store'
    exact absurd store' (by decide)
  aligned := by decide
  ownMemory := by decide
  shared := by decide

theorem strategies_agree_iff_each :
    StrategiesAgree bufferAndRegion 256 256 256 ↔ Checkable bufferAndRegion :=
  strategies_agree_iff (by decide) (by decide) (by decide)

/-- An SVM region of five bytes. -/
def oddRegion : CheckInput where
  buffers := []
  svms := [⟨SHARED, 4096, 5⟩]
  apart := List.pairwise_singleton _ _
  aligned := by decide
  ownMemory := by decide
  shared := by decide

/-- Its second canary is not at a word. -/
theorem not_strategiesAgree : ¬ StrategiesAgree oddRegion 256 256 256 := by
  intro agree
  have few : Few oddRegion := ⟨by decide, by decide⟩
  have words := words_of_pointers few agree.pointers ⟨SHARED, 4096, 5⟩ List.mem_cons_self
  exact absurd words.2 (by decide)

end Clarmor
