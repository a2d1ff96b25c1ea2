import Clarmor.Check.CopyProtocol

/-!
# What the commands of the copying check touch

Every command has a footprint: the cells that it writes, and those on which this
depends.  Commands that touch the same cells are ordered by their events.
-/

namespace Clarmor

open Word Store Reduce Items Queues

namespace CopyCheck

variable {C : CopyCheck}

/-! ## What the commands do -/

/-- Commands that move bytes on the device. -/
theorem footprint_of_moves {f : CheckMemory → CheckMemory} {K : Set Nat} {src dst : Nat → Nat × Nat}
    (moves : ∀ m : CheckMemory, (∀ k ∈ K, f m (.device (dst k)) = m (.device (src k))) ∧
      ∀ c, (∀ k ∈ K, c ≠ .device (dst k)) → f m c = m c) :
    Footprint f {c | ∃ k ∈ K, c = .device (src k)} {c | ∃ k ∈ K, c = .device (dst k)} where
  keeps := by
    intro m c outside
    exact (moves m).2 c fun k mem same => outside ⟨k, mem, same⟩
  determined := by
    rintro m m' same c ⟨k, mem, rfl⟩
    rw [(moves m).1 k mem, (moves m').1 k mem]
    exact same _ ⟨k, mem, rfl⟩

/-- The copies of the two regions, without the wrapping arithmetic. -/
theorem copyClMemRegions_getD {i region size : Nat} (few : i < 524288) (regionLt : region < 2) :
    (copyClMemRegions i { size := size }).getD region ⟨0, 0, 0⟩ =
      ⟨if region = 0 then 0 else canaryOffset size, 8192 * i + 4096 * region, 4096⟩ := by
  have index : u32 (i * POISON_REGIONS) = 2 * i := by
    rw [u32_of_lt (by simp only [POISON_REGIONS]; omega), POISON_REGIONS, Nat.mul_comm]
  have front : u32 (2 * i * POISON_FILL_LENGTH) = 8192 * i := by
    rw [u32_of_lt (by simp only [POISON_FILL_LENGTH]; omega), POISON_FILL_LENGTH]
    omega
  have back : u32 (u32 (2 * i + 1) * POISON_FILL_LENGTH) = 8192 * i + 4096 := by
    rw [u32_u32_mul, u32_of_lt (by simp only [POISON_FILL_LENGTH]; omega), POISON_FILL_LENGTH]
    omega
  rw [copyClMemRegions, index, front, back]
  interval_cases region <;> rfl

/-- A byte of a region of an object. -/
theorem cell_of_region {o : CheckedObject} {k region : Nat} (regionLt : region < 2)
    (inside : k / 4096 = region) : o.cell k =
      (o.store,
        o.base + ((if region = 0 then 0 else canaryOffset o.size) + (k - 4096 * region))) := by
  rw [CheckedObject.cell]
  interval_cases region
  · rw [canaryCell_front (by simp only [POISON_FILL_LENGTH]; omega)]
    simp
  · rw [canaryCell_back (by simp only [POISON_FILL_LENGTH]; omega)]
    simp [POISON_FILL_LENGTH]

theorem copyCommand_moves {copies : Nat × Nat} {index i region : Nat} {o : CheckedObject}
    (isObject : C.inp.objects[index]? = some o) (few : i < 524288) (regionLt : region < 2)
    (m : CheckMemory) :
    (∀ k, k / 4096 = region → (C.copyCommand copies index i region).body m
        (.device (copies.1, copies.2 + (8192 * i + k))) = m (.device (o.cell k))) ∧
      ∀ c, (∀ k, k / 4096 = region → c ≠ .device (copies.1, copies.2 + (8192 * i + k))) →
        (C.copyCommand copies index i region).body m c = m c := by
  have body : (C.copyCommand copies index i region).body m = copyRegion copies o
      ⟨if region = 0 then 0 else canaryOffset o.size, 8192 * i + 4096 * region, 4096⟩ m := by
    dsimp only [copyCommand, onObject]
    rw [isObject, Option.elim_some, copyClMemRegions_getD few regionLt]
  rw [body]
  constructor
  · intro k inside
    rw [copyRegion, if_pos ⟨rfl, by dsimp only; omega, by dsimp only; omega⟩,
      cell_of_region regionLt inside]
    dsimp only
    rw [show copies.2 + (8192 * i + k) - (copies.2 + (8192 * i + 4096 * region)) =
      k - 4096 * region by omega]
  · intro c outside
    cases c with
    | device a =>
        rw [copyRegion, if_neg]
        rintro ⟨store, lower, upper⟩
        dsimp only at lower upper
        refine outside (a.2 - (copies.2 + 8192 * i)) (by omega) ?_
        rw [show copies.2 + (8192 * i + (a.2 - (copies.2 + 8192 * i))) = a.2 by omega, ← store]
    | pointers j => rfl
    | result j => rfl
    | firstChange j => rfl

/-- The copy of a region, of either kind. -/
theorem copyOf_moves (few : Few C.inp) {index region : Nat} {o : CheckedObject}
    (isObject : C.inp.objects[index]? = some o) (regionLt : region < 2) (m : CheckMemory) :
    (∀ k, k / 4096 = region →
        (C.copyOf index region).body m (.device (C.copyCell index k)) = m (.device (o.cell k))) ∧
      ∀ c, (∀ k, k / 4096 = region → c ≠ .device (C.copyCell index k)) →
        (C.copyOf index region).body m c = m c := by
  obtain ⟨indexLt, -⟩ := List.getElem?_eq_some_iff.mp isObject
  have total : C.inp.objects.length = C.numClMem + C.inp.svms.length := C.inp.length_objects
  have fewBuffers : C.numClMem < 524288 := few.buffers
  have fewSvms := few.svms
  rcases lt_or_ge index C.numClMem with isBuffer | isSvm
  · have place : C.copyCell index = fun k => (SCRATCH, 0 + (8192 * index + k)) := by
      funext k
      rw [copyCell, if_pos isBuffer, Nat.zero_add]
    rw [place, copyOf_buffer isBuffer]
    exact @copyCommand_moves C (SCRATCH, 0) index index region o isObject (by omega) regionLt m
  · obtain ⟨i, rfl⟩ := Nat.exists_eq_add_of_le isSvm
    have place : C.copyCell (C.numClMem + i) =
        fun k => (SHARED, C.svmCopies + (8192 * i + k)) := by
      funext k
      rw [copyCell, if_neg (Nat.not_lt.mpr isSvm), Nat.add_sub_cancel_left]
    rw [place, copyOf_svm]
    exact @copyCommand_moves C (SHARED, C.svmCopies) (C.numClMem + i) i region o isObject
      (by omega) regionLt m

/-- A repair writes canary bytes into a region. -/
theorem mendCommand_writes {index region : Nat} {o : CheckedObject}
    (isObject : C.inp.objects[index]? = some o) (regionLt : region < 2) (m : CheckMemory) :
    (∀ k, k / 4096 = 1 - region →
        (C.mendCommand index region).body m (.device (o.cell k)) = POISON_FILL) ∧
      ∀ c, (∀ k, k / 4096 = 1 - region → c ≠ .device (o.cell k)) →
        (C.mendCommand index region).body m c = m c := by
  have fills : (mendRegions o.size).getD region (0, 0) =
      (if 1 - region = 0 then 0 else canaryOffset o.size, 4096) := by
    interval_cases region <;> rfl
  have body : (C.mendCommand index region).body m =
      mendRegion o (if 1 - region = 0 then 0 else canaryOffset o.size, 4096) m := by
    dsimp only [mendCommand, onObject]
    rw [isObject, Option.elim_some, fills]
  have otherLt : 1 - region < 2 := by omega
  rw [body]
  constructor
  · intro k inside
    rw [cell_of_region otherLt inside, mendRegion]
    exact if_pos ⟨rfl, by dsimp only; omega, by dsimp only; omega⟩
  · intro c outside
    cases c with
    | device a =>
        rw [mendRegion, if_neg]
        rintro ⟨store, lower, upper⟩
        dsimp only at lower upper
        set first := if 1 - region = 0 then 0 else canaryOffset o.size with isFirst
        have inside : (4096 * (1 - region) + (a.2 - (o.base + first))) / 4096 = 1 - region := by
          omega
        refine outside _ inside ?_
        rw [cell_of_region otherLt inside, ← isFirst, ← store,
          show o.base + (first + (4096 * (1 - region) + (a.2 - (o.base + first)) -
            4096 * (1 - region))) = a.2 by omega]
    | pointers j => rfl
    | result j => rfl
    | firstChange j => rfl

/-! ## The kernel that compares -/

/-- What an item of the kernel finds. -/
def itemChange (C : CopyCheck) (m : CheckMemory) (t : Nat) : Nat :=
  if t / 2048 < C.totalBuffs then
    firstByte (4 * (t % 2048)) fun q =>
      m.onDevice (C.examinedCell (t / 2048) (4 * (t % 2048) + q)) ≠ POISON_FILL
  else INT_MAX

theorem examinedCell_buffer {index k : Nat} (isBuffer : index < C.numClMem) :
    C.examinedCell index k = (SCRATCH, 8192 * index + k) := by
  rw [examinedCell, if_pos (isBuffer.trans_le numClMem_le_copied), copyCell, if_pos isBuffer]

theorem examinedCell_svm {index k : Nat} (native : C.copySvmPtrs = false)
    (isSvm : C.numClMem ≤ index) (indexLt : index < C.totalBuffs) :
    C.examinedCell index k = (SHARED, C.svmCopies + (8192 * (index - C.numClMem) + k)) := by
  rw [examinedCell, copied, native, if_neg Bool.false_ne_true, if_pos indexLt, copyCell,
    if_neg (Nat.not_lt.mpr isSvm)]

theorem examinedCell_pointer {index k : Nat} {o : CheckedObject} (pointers : C.copySvmPtrs = true)
    (isSvm : C.numClMem ≤ index) (isObject : C.inp.objects[index]? = some o) :
    C.examinedCell index k = o.cell k := by
  rw [examinedCell, copied, if_pos pointers, if_neg (Nat.not_lt.mpr isSvm), isObject]
  rfl

theorem compareCopied_at {image : Nat → UInt8} {i w : Nat} (few : i < 524288) (wLt : w < 2048) :
    compareCopied poisonFill_32b w (2048 * i + w) image =
      firstByte (4 * w) fun q => image (8192 * i + (4 * w + q)) ≠ POISON_FILL := by
  rw [compareCopied_eq (by omega)]
  refine firstByte_congr fun q qLt => ?_
  rw [show 4 * (2048 * i + w) + q = 8192 * i + (4 * w + q) by omega]

/-- Without pointers the check compares copies only. -/
theorem copyGrid_native (native : C.copySvmPtrs = false ∨ C.inp.svms = []) :
    copyGrid C.copySvmPtrs C.size C.inp = copyGrid false C.size C.inp := by
  rcases native with native | none
  · rw [native]
  · simp [copyGrid, none]

theorem copyItem_of_native (native : C.copySvmPtrs = false ∨ C.inp.svms = [])
    (clmemCopies svmCopies : Block UInt8) :
    copyItem C.copySvmPtrs C.inp clmemCopies svmCopies =
      copyItem false C.inp clmemCopies svmCopies := by
  rcases native with native | none
  · rw [native]
  · funext t m
    simp only [copyItem, none, if_true]

/-- An item that compares copies. -/
theorem copyItem_native (few : Few C.inp) (native : C.copySvmPtrs = false ∨ C.inp.svms = [])
    (m : CheckMemory) {t : Nat}
    (tLt : t < (copyGrid false C.size C.inp).total) (m' : DeviceMemory) :
    copyItem false C.inp ⟨8192 * C.inp.buffers.length, fun a => m (.device (SCRATCH, a))⟩
      ⟨8192 * C.inp.svms.length, fun a => m (.device (SHARED, C.svmCopies + a))⟩ t m' =
        some (C.itemChange m t, m') := by
  have small := u32_of_lt (copyGrid_small few tLt)
  have lenInWords : POISON_REGIONS * poisonWordLen = 2048 := rfl
  have fewBuffers := few.buffers
  have fewSvms := few.svms
  have total : C.totalBuffs = C.inp.buffers.length + C.inp.svms.length := totalBuffs_eq
  have total' : C.inp.objects.length = C.totalBuffs := rfl
  have wLt : t % 2048 < 2048 := Nat.mod_lt t (by decide)
  have buffer : t < 2048 * C.inp.buffers.length → C.itemChange m t =
      compareCopied poisonFill_32b (t % 2048) t fun a => m.onDevice (SCRATCH, a) := by
    intro isBuffer
    have inside : t / 2048 < C.numClMem := by
      change t / 2048 < C.inp.buffers.length
      omega
    have word := @compareCopied_at (fun a => m.onDevice (SCRATCH, a)) (t / 2048) (t % 2048)
      (by omega) wLt
    rw [Nat.div_add_mod] at word
    have place : C.examinedCell (t / 2048) = fun k => (SCRATCH, 8192 * (t / 2048) + k) :=
      funext fun k => examinedCell_buffer inside
    rw [itemChange, if_pos (by omega), place, word]
  rw [copyItem, svmEnd_eq few, buffEnd_eq few, small, lenInWords]
  simp only [Bool.false_eq_true, if_false]
  split_ifs with idle noSvm
  · rw [itemChange, if_neg (by omega)]
  · have isBuffer : t < 2048 * C.inp.buffers.length := by
      rw [noSvm, List.length_nil] at total
      omega
    rw [findCorruptionNoSVM, if_pos isBuffer, buffer isBuffer]
    rfl
  · rw [findCorruption]
    split_ifs with isBuffer
    · rw [buffer isBuffer]
      rfl
    · have inside : t / 2048 < C.totalBuffs := by omega
      have isSvm : C.numClMem ≤ t / 2048 := by
        change C.inp.buffers.length ≤ t / 2048
        omega
      have isSvm' : C.inp.buffers.length ≤ t / 2048 := isSvm
      have word := @compareCopied_at (fun a => m.onDevice (SHARED, C.svmCopies + a))
        (t / 2048 - C.inp.buffers.length) (t % 2048) (by omega) wLt
      rw [show 2048 * (t / 2048 - C.inp.buffers.length) + t % 2048 =
        t - 2048 * C.inp.buffers.length by omega] at word
      have native' : C.copySvmPtrs = false := native.resolve_right noSvm
      have place : C.examinedCell (t / 2048) = fun k =>
          (SHARED, C.svmCopies + (8192 * (t / 2048 - C.inp.buffers.length) + k)) :=
        funext fun k => examinedCell_svm native' isSvm inside
      rw [itemChange, if_pos inside, place]
      exact congrArg (fun change => some (change, m')) word

/-- The bytes of a word that the kernel looks at follow one another. -/
theorem examinedCell_word {index w q : Nat} {o : CheckedObject} (pointers : C.copySvmPtrs = true)
    (isObject : C.inp.objects[index]? = some o) (qLt : q < 4) :
    C.examinedCell index (4 * w + q) =
      ((C.examinedCell index (4 * w)).1, (C.examinedCell index (4 * w)).2 + q) := by
  rcases lt_or_ge index C.numClMem with isBuffer | isSvm
  · rw [examinedCell_buffer isBuffer, examinedCell_buffer isBuffer, Nat.add_assoc]
  · rw [examinedCell_pointer pointers isSvm isObject, examinedCell_pointer pointers isSvm isObject,
      cell_word qLt]

theorem pointerPlace_eq {o : CheckedObject} {t : Nat} (pointers : C.copySvmPtrs = true)
    (isObject : C.inp.objects[t / 2048]? = some o) :
    pointerPlace C.inp o t = C.examinedCell (t / 2048) (4 * (t % 2048)) := by
  rcases lt_or_ge t (2048 * C.inp.buffers.length) with isBuffer | isSvm
  · have inside : t / 2048 < C.numClMem := by
      change t / 2048 < C.inp.buffers.length
      omega
    rw [pointerPlace_buffer isBuffer, examinedCell_buffer inside,
      show 8192 * (t / 2048) + 4 * (t % 2048) = 4 * t by omega]
  · have inside : C.numClMem ≤ t / 2048 := by
      change C.inp.buffers.length ≤ t / 2048
      omega
    rw [(pointerPlace_svm isObject isSvm).1, examinedCell_pointer pointers inside isObject]

/-- What the kernel leaves. -/
structure CheckEffect (C : CopyCheck) (m m' : CheckMemory) : Prop where
  result : ∀ i, m' (.result i) =
    runAtomics (atomicsOf (copyGrid C.copySvmPtrs C.size C.inp) C.schedule INT_MAX (C.itemChange m))
      (fun i => m (.result i)) i
  mended : C.copySvmPtrs = true → C.inp.svms ≠ [] → ∀ index < C.totalBuffs, ∀ k < 8192,
    m' (.device (C.examinedCell index k)) = POISON_FILL
  kept : ∀ a, (C.copySvmPtrs = false ∨ C.inp.svms = [] ∨
      ∀ index < C.totalBuffs, ∀ k < 8192, a ≠ C.examinedCell index k) →
    m' (.device a) = m (.device a)
  pointers : ∀ j, m' (.pointers j) = m (.pointers j)
  firstChange : ∀ i, m' (.firstChange i) = m (.firstChange i)

theorem checkKernel_native (few : Few C.inp) (native : C.copySvmPtrs = false ∨ C.inp.svms = [])
    (m : CheckMemory) :
    C.CheckEffect m (checkKernel C.copySvmPtrs C.size C.schedule C.inp C.svmCopies m) := by
  have table : ¬ (C.copySvmPtrs = true ∧ ¬ TableWritten C.inp.svms m) := by
    rintro ⟨pointers, unwritten⟩
    rcases native with native | none
    · exact Bool.false_ne_true (native.symm.trans pointers)
    · exact unwritten fun j jLt => by simp [none] at jLt
  have ran := @run_of_fixed _ _ _ _
    (copyItem false C.inp ⟨8192 * C.inp.buffers.length, fun a => m (.device (SCRATCH, a))⟩
      ⟨8192 * C.inp.svms.length, fun a => m (.device (SHARED, C.svmCopies + a))⟩)
    (C.schedule.items (List.range (copyGrid false C.size C.inp).total)) (C.itemChange m) m.onDevice
    fun t mem => copyItem_native few native m
      (List.mem_range.mp ((C.schedule.items_perm _).mem_iff.mp mem)) _
  have launched := @launchFrom_of_run _ _ _ _ _ _ (copyGrid false C.size C.inp) C.schedule INT_MAX
    _ _ _ _ (fun i => m (.result i)) ran
  rw [checkKernel, if_neg table, copyGrid_native native, copyItem_of_native native, launched]
  refine ⟨fun i => ?_, fun pointers some => ?_, fun a _ => rfl, fun j => rfl, fun i => rfl⟩
  · rw [copyGrid_native native]
    rfl
  · simp [pointers, some] at native

/-- The words that the items of the pointer check reach. -/
def Touches (C : CopyCheck) (t : Nat) (a : Nat × Nat) : Prop :=
  ∃ o, C.inp.objects[t / 2048]? = some o ∧ InWord (pointerPlace C.inp o t) a

/-- An item of the pointer check. -/
theorem copyItem_writes (few : Few C.inp)
    (words : ∀ o ∈ C.inp.svms, o.base % 4 = 0 ∧ o.size % 4 = 0) (some' : C.inp.svms ≠ [])
    {clmemCopies svmCopies : Block UInt8} {t : Nat}
    (tLt : t < (copyGrid true C.size C.inp).total) :
    Items.Local (copyItem true C.inp clmemCopies svmCopies t) (C.Touches t) ∧
      ∀ m r m', copyItem true C.inp clmemCopies svmCopies t m = some (r, m') →
        (∀ a, C.Touches t a → m' a = POISON_FILL) ∧ ∀ a, ¬ C.Touches t a → m' a = m a := by
  cases isObject : C.inp.objects[t / 2048]? with
  | none =>
      have idle : ∀ m, copyItem true C.inp clmemCopies svmCopies t m = some (INT_MAX, m) := by
        intro m
        have after : 2048 * C.inp.objects.length ≤ t := by
          have beyond := List.getElem?_eq_none_iff.mp isObject
          omega
        rw [copyItem, svmEnd_eq few, u32_of_lt (copyGrid_small few tLt), if_pos after]
      refine ⟨local_of_fixed idle, fun m r m' ran => ?_⟩
      rw [idle] at ran
      obtain ⟨-, rfl⟩ := Prod.mk.inj (Option.some.inj ran)
      refine ⟨fun a touched => ?_, fun a _ => rfl⟩
      obtain ⟨o, isObject', -⟩ := touched
      rw [isObject] at isObject'
      contradiction
  | some o =>
      have finds := @copyItem_finds C.inp clmemCopies svmCopies C.size t o few words some' tLt
        isObject
      refine ⟨finds.isLocal.mono fun a inside => ⟨o, isObject, inside⟩, fun m r m' ran => ?_⟩
      rw [finds] at ran
      obtain ⟨-, rfl⟩ := Prod.mk.inj (Option.some.inj ran)
      constructor
      · rintro a ⟨o', isObject', inside⟩
        obtain rfl := Option.some.inj (isObject.symm.trans isObject')
        exact if_pos inside
      · intro a outside
        exact if_neg fun inside => outside ⟨o, isObject, inside⟩

/-- The touched cells are those that the kernel looks at. -/
theorem touches_iff {a : Nat × Nat} {t : Nat} (pointers : C.copySvmPtrs = true)
    (inside : t / 2048 < C.totalBuffs) :
    C.Touches t a ↔ ∃ q < 4, a = C.examinedCell (t / 2048) (4 * (t % 2048) + q) := by
  have isObject : C.inp.objects[t / 2048]? = some C.inp.objects[t / 2048] :=
    List.getElem?_eq_getElem inside
  constructor
  · rintro ⟨o, isObject', store, lower, upper⟩
    rw [pointerPlace_eq pointers isObject'] at store lower upper
    refine ⟨a.2 - (C.examinedCell (t / 2048) (4 * (t % 2048))).2, by omega, ?_⟩
    rw [examinedCell_word pointers isObject' (by omega), Nat.add_sub_cancel' lower, ← store]
  · rintro ⟨q, qLt, rfl⟩
    refine ⟨_, isObject, ?_⟩
    rw [pointerPlace_eq pointers isObject, examinedCell_word pointers isObject qLt]
    exact ⟨rfl, Nat.le_add_right _ _, Nat.add_lt_add_left qLt _⟩

/-- What an item of the pointer check finds in any memory. -/
theorem copyItem_change (few : Few C.inp)
    (words : ∀ o ∈ C.inp.svms, o.base % 4 = 0 ∧ o.size % 4 = 0) (some' : C.inp.svms ≠ [])
    (pointers : C.copySvmPtrs = true) {clmemCopies svmCopies : Block UInt8} {m : CheckMemory}
    {t : Nat} (tLt : t < (copyGrid true C.size C.inp).total) :
    ∃ m', copyItem true C.inp clmemCopies svmCopies t m.onDevice =
      some (C.itemChange m t, m') := by
  cases isObject : C.inp.objects[t / 2048]? with
  | none =>
      have beyond : C.totalBuffs ≤ t / 2048 := List.getElem?_eq_none_iff.mp isObject
      have after : 2048 * C.totalBuffs ≤ t := by omega
      rw [copyItem, svmEnd_eq few, u32_of_lt (copyGrid_small few tLt), itemChange,
        if_neg (Nat.not_lt.mpr beyond)]
      exact ⟨_, if_pos after⟩
  | some o =>
      obtain ⟨inside, -⟩ := List.getElem?_eq_some_iff.mp isObject
      rw [copyItem_finds few words some' tLt isObject, itemChange, if_pos (by exact inside)]
      refine ⟨_, congrArg some (Prod.ext (firstByte_congr fun q qLt => ?_) rfl)⟩
      rw [pointerPlace_eq pointers isObject, examinedCell_word pointers isObject qLt]

theorem checkKernel_pointers (undisturbed : C.Undisturbed) (pointers : C.copySvmPtrs = true)
    (some' : C.inp.svms ≠ []) {m : CheckMemory} (table : TableWritten C.inp.svms m) :
    C.CheckEffect m (checkKernel C.copySvmPtrs C.size C.schedule C.inp C.svmCopies m) := by
  have few := undisturbed.few
  have words := undisturbed.words pointers
  set item := copyItem true C.inp ⟨8192 * C.inp.buffers.length, fun a => m (.device (SCRATCH, a))⟩
    ⟨8192 * C.inp.svms.length, fun a => m (.device (SHARED, C.svmCopies + a))⟩ with isItem
  set order := C.schedule.items (List.range (copyGrid true C.size C.inp).total) with isOrder
  have below : ∀ t ∈ order, t < (copyGrid true C.size C.inp).total := fun t mem =>
    List.mem_range.mp ((C.schedule.items_perm _).mem_iff.mp mem)
  have writes := fun t mem => @copyItem_writes C few words some'
    ⟨8192 * C.inp.buffers.length, fun a => m (.device (SCRATCH, a))⟩
    ⟨8192 * C.inp.svms.length, fun a => m (.device (SHARED, C.svmCopies + a))⟩ t (below t mem)
  obtain ⟨m', ran⟩ := @run_of_disjoint _ _ _ _ item C.Touches order (C.itemChange m) m.onDevice
    (fun t mem => (writes t mem).1)
    (fun t _ u _ differ a touched touched' => by
      obtain ⟨o, isObject, inside⟩ := touched
      obtain ⟨o', isObject', inside'⟩ := touched'
      exact pointerPlaces_apart undisturbed.between isObject isObject' differ inside inside')
    ((C.schedule.items_perm _).nodup_iff.mpr List.nodup_range)
    (fun t mem => copyItem_change few words some' pointers (below t mem))
  have launched := @launchFrom_of_run _ _ _ _ _ _ (copyGrid true C.size C.inp) C.schedule INT_MAX
    _ _ _ _ (fun i => m (.result i)) ran
  have memory := run_writes (fun t mem => (writes t mem).2) ran
  rw [checkKernel, if_neg (by simp [table]), pointers, ← isItem, launched]
  refine ⟨fun i => ?_, fun _ _ index indexLt k kLt => ?_, fun a outside => ?_, fun j => rfl,
    fun i => rfl⟩
  · rw [pointers]
    rfl
  · have isIndex : (2048 * index + k / 4) / 2048 = index := by omega
    have isWord : (2048 * index + k / 4) % 2048 = k / 4 := by omega
    refine (memory (C.examinedCell index k)).1 ⟨2048 * index + k / 4, ?_, ?_⟩
    · refine (C.schedule.items_perm _).mem_iff.mpr (List.mem_range.mpr ?_)
      rw [copyGrid_total few]
      change 2048 * index + k / 4 < 4096 * C.totalBuffs
      omega
    · rw [touches_iff pointers (by rw [isIndex]; exact indexLt), isIndex, isWord]
      exact ⟨k % 4, Nat.mod_lt k (by decide), by rw [Nat.div_add_mod]⟩
  · refine (memory a).2 fun t mem touched => ?_
    have inside : t / 2048 < C.totalBuffs := by
      obtain ⟨o, isObject, -⟩ := touched
      exact (List.getElem?_eq_some_iff.mp isObject).1
    obtain ⟨q, qLt, same⟩ := (touches_iff pointers inside).mp touched
    rcases outside with native | none | apart
    · exact Bool.false_ne_true (native.symm.trans pointers)
    · exact some' none
    · exact apart _ inside _ (by omega) same

/-! ## Footprints -/

/-- What the kernel leaves when its pointers are valid or not needed. -/
theorem checkKernel_effect (undisturbed : C.Undisturbed) {m : CheckMemory}
    (valid : (C.copySvmPtrs = false ∨ C.inp.svms = []) ∨ TableWritten C.inp.svms m) :
    C.CheckEffect m (checkKernel C.copySvmPtrs C.size C.schedule C.inp C.svmCopies m) := by
  by_cases native : C.copySvmPtrs = false ∨ C.inp.svms = []
  · exact checkKernel_native undisturbed.few native m
  · rw [not_or, Bool.not_eq_false] at native
    exact checkKernel_pointers undisturbed native.1 native.2
      (valid.resolve_left fun other => other.elim (by simp [native.1]) native.2)

theorem checkKernel_invalid {m : CheckMemory}
    (invalid : ¬ ((C.copySvmPtrs = false ∨ C.inp.svms = []) ∨ TableWritten C.inp.svms m)) :
    checkKernel C.copySvmPtrs C.size C.schedule C.inp C.svmCopies m = m := by
  rw [not_or, not_or, Bool.not_eq_false] at invalid
  exact if_pos ⟨invalid.1.1, invalid.2⟩

theorem itemChange_congr {m m' : CheckMemory} (same : AgreeOn C.examinedCells m m') (t : Nat) :
    C.itemChange m t = C.itemChange m' t := by
  rw [itemChange, itemChange]
  split_ifs with inside
  · refine firstByte_congr fun q qLt => ?_
    have agree : m.onDevice (C.examinedCell (t / 2048) (4 * (t % 2048) + q)) =
        m'.onDevice (C.examinedCell (t / 2048) (4 * (t % 2048) + q)) :=
      same _ ⟨t / 2048, inside, 4 * (t % 2048) + q, by omega, rfl⟩
    rw [agree]
  · rfl

theorem checkCommand_footprint (undisturbed : C.Undisturbed) :
    Footprint C.checkCommand.body (C.reads .check) (C.writes .check) where
  keeps := by
    intro m c outside
    change checkKernel C.copySvmPtrs C.size C.schedule C.inp C.svmCopies m c = m c
    by_cases valid : (C.copySvmPtrs = false ∨ C.inp.svms = []) ∨ TableWritten C.inp.svms m
    · have effect := checkKernel_effect undisturbed valid
      cases c with
      | device a =>
          refine effect.kept a ?_
          by_contra reached
          rw [not_or, not_or, Bool.not_eq_false] at reached
          obtain ⟨pointers, some', reached⟩ := reached
          push Not at reached
          obtain ⟨index, indexLt, k, kLt, same⟩ := reached
          exact outside (Or.inr ⟨pointers, some', index, indexLt, k, kLt, congrArg _ same⟩)
      | pointers j => exact effect.pointers j
      | result i => exact absurd (Or.inl ⟨i, rfl⟩) outside
      | firstChange i => exact effect.firstChange i
    · rw [checkKernel_invalid valid]
  determined := by
    intro m m' same c written
    have examined : AgreeOn C.examinedCells m m' := fun a mem => same a (Or.inl (Or.inl mem))
    have results : ∀ i, m (.result i) = m' (.result i) := fun i =>
      same _ (Or.inl (Or.inr ⟨i, rfl⟩))
    have table : TableWritten C.inp.svms m ↔ TableWritten C.inp.svms m' := by
      have pointers : ∀ j, m (.pointers j) = m' (.pointers j) := fun j => same _ (Or.inr ⟨j, rfl⟩)
      simp only [TableWritten, pointers]
    change checkKernel C.copySvmPtrs C.size C.schedule C.inp C.svmCopies m c =
      checkKernel C.copySvmPtrs C.size C.schedule C.inp C.svmCopies m' c
    by_cases valid : (C.copySvmPtrs = false ∨ C.inp.svms = []) ∨ TableWritten C.inp.svms m
    · have effect := checkKernel_effect undisturbed valid
      have effect' := checkKernel_effect undisturbed (valid.imp id table.mp)
      rcases written with ⟨i, rfl⟩ | ⟨pointers, some', index, indexLt, k, kLt, rfl⟩
      · rw [effect.result, effect'.result, funext (itemChange_congr examined)]
        exact runAtomics_congr (results i)
      · exact (effect.mended pointers some' index indexLt k kLt).trans
          (effect'.mended pointers some' index indexLt k kLt).symm
    · have valid' := fun other => valid (Or.imp id table.mpr other)
      rw [checkKernel_invalid valid, checkKernel_invalid valid']
      rcases written with ⟨i, rfl⟩ | ⟨-, -, mem⟩
      · exact results i
      · exact examined c mem

theorem canaryCells_eq {index region : Nat} {o : CheckedObject}
    (isObject : C.inp.objects[index]? = some o) : C.canaryCells index region =
      {c | ∃ k ∈ {k | k / 4096 = region}, c = .device (o.cell k)} := by
  ext c
  constructor
  · rintro ⟨o', isObject', k, inside, rfl⟩
    obtain rfl := Option.some.inj (isObject.symm.trans isObject')
    exact ⟨k, inside, rfl⟩
  · rintro ⟨k, inside, rfl⟩
    exact ⟨o, isObject, k, inside, rfl⟩

theorem isObject_of_copied {index : Nat} (indexLt : index < C.copied) :
    ∃ o, C.inp.objects[index]? = some o :=
  ⟨_, List.getElem?_eq_getElem (indexLt.trans_le copied_le_totalBuffs)⟩

theorem copyOf_tag {index region : Nat} : (C.copyOf index region).tag = .copy index region := by
  rw [copyOf]
  split_ifs <;> rfl

/-- A marker changes nothing. -/
theorem footprint_id (reads : Set CheckCell) :
    Footprint (id : CheckMemory → CheckMemory) reads ∅ :=
  ⟨fun _ _ _ => rfl, fun _ _ _ _ mem => absurd mem (Set.notMem_empty _)⟩

theorem Issued.footprint (undisturbed : C.Undisturbed) {c : Command CheckTag CheckMemory}
    (issued : C.Issued c) : Footprint c.body (C.reads c.tag) (C.writes c.tag) := by
  cases issued with
  | @copy index region indexLt regionLt =>
      obtain ⟨o, isObject⟩ := isObject_of_copied indexLt
      rw [copyOf_tag, reads, writes, canaryCells_eq isObject]
      exact footprint_of_moves fun m => copyOf_moves undisturbed.few isObject regionLt m
  | @mend index region _ indexLt regionLt =>
      obtain ⟨o, isObject⟩ := isObject_of_copied indexLt
      change Footprint _ ∅ (C.canaryCells index (1 - region))
      rw [canaryCells_eq isObject]
      constructor
      · intro m c outside
        refine (mendCommand_writes isObject regionLt m).2 c fun k inside same => ?_
        exact outside ⟨k, inside, same⟩
      · rintro m m' - c ⟨k, inside, rfl⟩
        rw [(mendCommand_writes isObject regionLt m).1 k inside,
          (mendCommand_writes isObject regionLt m').1 k inside]
  | copyFinish _ => exact footprint_id _
  | mendFinish _ _ => exact footprint_id _
  | mendMarker _ => exact footprint_id _
  | finish _ => exact footprint_id _
  | pointers _ _ =>
      constructor
      · intro m c outside
        cases c with
        | pointers j => exact if_neg fun jLt => outside ⟨j, jLt, rfl⟩
        | _ => rfl
      · rintro m m' - c ⟨j, jLt, rfl⟩
        exact (if_pos jLt).trans (if_pos jLt).symm
  | fill =>
      constructor
      · intro m c outside
        cases c with
        | result i => exact if_neg fun iLt => outside ⟨i, iLt, rfl⟩
        | _ => rfl
      · rintro m m' - c ⟨i, iLt, rfl⟩
        exact (if_pos iLt).trans (if_pos iLt).symm
  | check => exact checkCommand_footprint undisturbed
  | read =>
      constructor
      · intro m c outside
        cases c with
        | firstChange i => exact if_neg fun iLt => outside ⟨i, iLt, rfl⟩
        | _ => rfl
      · rintro m m' same c ⟨i, iLt, rfl⟩
        exact (if_pos iLt).trans ((same _ ⟨i, iLt, rfl⟩).trans (if_pos iLt).symm)

/-! ## Commands that touch the same cells -/

theorem copyCell_inj {i j k k' : Nat} (kLt : k < 8192) (kLt' : k' < 8192)
    (same : C.copyCell i k = C.copyCell j k') : i = j ∧ k = k' := by
  have stores : SCRATCH ≠ SHARED := by decide
  rw [copyCell, copyCell] at same
  split_ifs at same with isBuffer isBuffer'
  · have place := (Prod.mk.inj same).2
    omega
  · exact absurd (Prod.mk.inj same).1 stores
  · exact absurd (Prod.mk.inj same).1.symm stores
  · have place := (Prod.mk.inj same).2
    omega

/-- The copies lie outside the objects. -/
theorem copyCell_outside {index k k' : Nat} {o : CheckedObject} (mem : o ∈ C.inp.objects)
    (indexLt : index < C.copied) (kLt : k < 8192) (kLt' : k' < 8192) :
    C.copyCell index k ≠ o.cell k' := by
  have stores : SCRATCH ≠ SHARED := by decide
  have total := indexLt.trans_le copied_le_totalBuffs
  rw [totalBuffs_eq] at total
  intro same
  rw [copyCell] at same
  split_ifs at same with isBuffer
  · have store : o.store = SCRATCH := (Prod.mk.inj same).1.symm
    rcases List.mem_append.mp mem with mem | mem
    · exact C.inp.ownMemory o mem store
    · exact stores (store.symm.trans (C.inp.shared o mem))
  · refine C.fresh o mem (8192 * (index - C.numClMem) + k) (by omega) ?_
    rw [same]
    exact ⟨rfl, Nat.le_add_right _ _, Nat.add_lt_add_left (canaryCell_lt kLt') _⟩

theorem mem_canaryCells_device {index region : Nat} {c : CheckCell}
    (mem : c ∈ C.canaryCells index region) (regionLt : region < 2) :
    ∃ o, C.inp.objects[index]? = some o ∧
      ∃ k < 8192, k / 4096 = region ∧ c = .device (o.cell k) := by
  obtain ⟨o, isObject, k, inside, rfl⟩ := mem
  exact ⟨o, isObject, k, by omega, inside, rfl⟩

theorem disjoint_copy_canary {index j region region' : Nat} (indexLt : index < C.copied)
    (regionLt : region < 2) (regionLt' : region' < 2) :
    Disjoint (C.copyCells index region) (C.canaryCells j region') := by
  rw [Set.disjoint_left]
  rintro c ⟨k, inside, rfl⟩ mem
  obtain ⟨o, isObject, k', kLt', -, same⟩ := mem_canaryCells_device mem regionLt'
  exact copyCell_outside (List.mem_of_getElem? isObject) indexLt (by omega) kLt'
    (CheckCell.device.inj same)

theorem disjoint_canaries (undisturbed : C.Undisturbed) {i j region region' : Nat}
    (regionLt : region < 2) (regionLt' : region' < 2) (differ : i = j → region ≠ region') :
    Disjoint (C.canaryCells i region) (C.canaryCells j region') := by
  rw [Set.disjoint_left]
  intro c mem mem'
  obtain ⟨o, isObject, k, kLt, inside, rfl⟩ := mem_canaryCells_device mem regionLt
  obtain ⟨o', isObject', k', kLt', inside', same⟩ := mem_canaryCells_device mem' regionLt'
  obtain ⟨sameIndex, sameByte⟩ := cell_inj undisturbed.between isObject isObject' kLt kLt'
    (CheckCell.device.inj same)
  exact differ sameIndex (by rw [← inside, ← inside', sameByte])

theorem disjoint_copies {i j region region' : Nat} (regionLt : region < 2) (regionLt' : region' < 2)
    (differ : i = j → region ≠ region') :
    Disjoint (C.copyCells i region) (C.copyCells j region') := by
  rw [Set.disjoint_left]
  rintro c ⟨k, inside, rfl⟩ ⟨k', inside', same⟩
  obtain ⟨sameIndex, sameByte⟩ := copyCell_inj (by omega) (by omega) (CheckCell.device.inj same)
  exact differ sameIndex (by rw [← inside, ← inside', sameByte])

theorem not_copied {index : Nat} (indexGe : ¬ index < C.copied) (indexLt : index < C.totalBuffs) :
    C.copySvmPtrs = true ∧ C.numClMem ≤ index := by
  rw [copied] at indexGe
  split_ifs at indexGe with pointers
  · exact ⟨pointers, Nat.not_lt.mp indexGe⟩
  · exact absurd indexLt indexGe

/-- The kernel looks at no canary that is repaired by a command of its own. -/
theorem disjoint_examined_canary (undisturbed : C.Undisturbed) {j region : Nat}
    (jLt : j < C.copied) (regionLt : region < 2) :
    Disjoint C.examinedCells (C.canaryCells j region) := by
  rw [Set.disjoint_left]
  rintro c ⟨index, indexLt, k, kLt, rfl⟩ mem
  obtain ⟨o, isObject, k', kLt', -, same⟩ := mem_canaryCells_device mem regionLt
  have same := CheckCell.device.inj same
  by_cases isCopy : index < C.copied
  · rw [examinedCell, if_pos isCopy] at same
    exact copyCell_outside (List.mem_of_getElem? isObject) isCopy kLt kLt' same
  · obtain ⟨pointers, isSvm⟩ := not_copied isCopy indexLt
    obtain ⟨o', isObject'⟩ : ∃ o', C.inp.objects[index]? = some o' :=
      ⟨_, List.getElem?_eq_getElem indexLt⟩
    rw [examinedCell_pointer pointers isSvm isObject'] at same
    obtain ⟨rfl, -⟩ := cell_inj undisturbed.between isObject' isObject kLt kLt' same
    exact isCopy jLt

/-- What a cell is for. -/
def kind : CheckCell → Nat
  | .device _ => 0
  | .pointers _ => 1
  | .result _ => 2
  | .firstChange _ => 3

theorem disjoint_of_kind {s t : Set CheckCell} {i : Nat} (inside : ∀ c ∈ s, kind c = i)
    (outside : ∀ c ∈ t, kind c ≠ i) : Disjoint s t :=
  Set.disjoint_left.mpr fun c mem mem' => outside c mem' (inside c mem)

/-- Cells of the device. -/
theorem kind_canary {index region : Nat} {c : CheckCell} (mem : c ∈ C.canaryCells index region) :
    kind c = 0 := by
  obtain ⟨o, -, k, -, rfl⟩ := mem
  rfl

theorem kind_copies {index region : Nat} {c : CheckCell} (mem : c ∈ C.copyCells index region) :
    kind c = 0 := by
  obtain ⟨k, -, rfl⟩ := mem
  rfl

/-- Two commands of the check that touch different cells. -/
theorem commute_of_disjoint (undisturbed : C.Undisturbed) {c d : Command CheckTag CheckMemory}
    (issued : C.Issued c) (issued' : C.Issued d)
    (writesApart : Disjoint (C.writes c.tag) (C.writes d.tag))
    (readsApart : Disjoint (C.reads c.tag) (C.writes d.tag))
    (readsApart' : Disjoint (C.reads d.tag) (C.writes c.tag)) :
    Commute Command.body (AgreeOn C.cells) c d := by
  intro m
  rw [(issued.footprint undisturbed).commute (issued'.footprint undisturbed) writesApart readsApart
    readsApart']
  exact (agreeOn_equivalence C.cells).refl _

/-- A command before another one in the order of the checks either commutes with it or
is one that it needs. -/
def Before (C : CopyCheck) (c d : Command CheckTag CheckMemory) : Prop :=
  Commute Command.body (AgreeOn C.cells) c d ∨
    Relation.TransGen (Needs C.inOrder (C.pending ++ enqueues C.verifyOps)) d.tag c.tag

theorem needs_of_wait (any : C.totalBuffs ≠ 0) {d : Command CheckTag CheckMemory} {t : CheckTag}
    (issued : C.Issued d) (wait : t ∈ d.waits) :
    Needs C.inOrder (C.pending ++ enqueues C.verifyOps) d.tag t := by
  refine ⟨d, List.mem_append_right _ ?_, rfl, Or.inl wait⟩
  rw [enqueues_verifyOps any]
  exact mem_commands_iff.mpr issued

theorem mem_initEvts_copy {index region : Nat} (indexLt : index < C.copied)
    (regionLt : region < 2) :
    .copy index region ∈ C.initEvts := by
  refine List.mem_append_left _ (List.mem_append_left _ ?_)
  refine List.mem_flatMap.mpr ⟨index, List.mem_range.mpr indexLt, ?_⟩
  interval_cases region <;> simp

/-- The kernel of the check waits for the copies, the pointers and the fill. -/
theorem after_check (any : C.totalBuffs ≠ 0) {t : CheckTag} (mem : t ∈ C.initEvts) :
    Needs C.inOrder (C.pending ++ enqueues C.verifyOps) .check t :=
  needs_of_wait any .check mem

/-- The read waits for the kernel of the check. -/
theorem after_read (any : C.totalBuffs ≠ 0) :
    Relation.TransGen (Needs C.inOrder (C.pending ++ enqueues C.verifyOps)) .read .check := by
  have waits : ∀ t, (if C.errorEnv then CheckTag.check else .finish) = t →
      Needs C.inOrder (C.pending ++ enqueues C.verifyOps) .read t := fun t same =>
    needs_of_wait any .read (List.mem_singleton.mpr same.symm)
  cases kept : C.errorEnv with
  | true =>
      refine .single (waits _ ?_)
      rw [kept, if_pos rfl]
  | false =>
      refine .tail (.single (waits .finish ?_)) (needs_of_wait any (.finish kept) (by simp))
      rw [kept, if_neg Bool.false_ne_true]

theorem after_mend (any : C.totalBuffs ≠ 0) {index region region' : Nat}
    (mends : C.errorEnv = false) (indexLt : index < C.copied) (regionLt : region < 2)
    (regionLt' : region' < 2) :
    Relation.TransGen (Needs C.inOrder (C.pending ++ enqueues C.verifyOps)) (.mend index region)
      (.copy index region') := by
  have first : Needs C.inOrder (C.pending ++ enqueues C.verifyOps) (.mend index region)
      (.copyFinish index) :=
    needs_of_wait any (.mend mends indexLt regionLt) (by simp [mendCommand])
  refine .tail (.single first) (needs_of_wait any (.copyFinish indexLt) ?_)
  interval_cases region' <;> simp

end CopyCheck

end Clarmor
