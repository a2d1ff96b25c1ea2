import Clarmor.Check.DeviceKernels

/-!
# Four ways to check buffers and SVM regions

The host goes through an image of the canaries.  On the device they are copied and
the copies are compared, the canaries of SVM regions are compared through pointers,
or each of the two regions of every object is compared where it lies and the two
results are put together.

The items of a launch and their atomic operations run in any order, and so do the
launches of one check.
-/

namespace Clarmor

open Word Store Reduce Items

/-- An object with canaries: its memory, the start of its allocation and the size
that the application asked for. -/
structure CheckedObject where
  store : Nat
  base : Nat
  size : Nat
deriving DecidableEq, Repr

/-- The memory of the copies of a check. -/
def SCRATCH : Nat := 0

/-- The memory that pointers point to. -/
def SHARED : Nat := 1

namespace CheckedObject

/-- The place of a byte of the image of the two regions. -/
def cell (o : CheckedObject) (k : Nat) : Nat × Nat := (o.store, o.base + canaryCell o.size k)

/-- The cells of the allocation. -/
def Allocates (o : CheckedObject) (a : Nat × Nat) : Prop :=
  a.1 = o.store ∧ o.base ≤ a.2 ∧ a.2 < o.base + (o.size + POISON_REGIONS * POISON_FILL_LENGTH)

end CheckedObject

/-- The objects of a check. -/
structure CheckInput where
  buffers : List CheckedObject
  svms : List CheckedObject
  apart : (buffers ++ svms).Pairwise fun o o' => ∀ a, o.Allocates a → ¬ o'.Allocates a
  aligned : ∀ o ∈ buffers, o.base % 4 = 0
  ownMemory : ∀ o ∈ buffers, o.store ≠ SCRATCH
  shared : ∀ o ∈ svms, o.store = SHARED

namespace CheckInput

/-- The objects in the order of the results. -/
def objects (inp : CheckInput) : List CheckedObject := inp.buffers ++ inp.svms

/-- The offset of the first byte of each object that is not a canary byte. -/
def changes (inp : CheckInput) (m : DeviceMemory) : List (Option Nat) :=
  inp.objects.map fun o =>
    (List.range (POISON_REGIONS * POISON_FILL_LENGTH)).find? fun k => m (o.cell k) ≠ POISON_FILL

/-- The check of the host. -/
def onHost (inp : CheckInput) (m : DeviceMemory) : List (Option Nat) :=
  inp.objects.map fun o =>
    cpuParseCanary (POISON_REGIONS * POISON_FILL_LENGTH) fun k => m (o.cell k)

end CheckInput

/-! ## Copies and pointers -/

/-- One turn of the loop of `create_clmem_copies`, and of that of
`create_svm_copies`. -/
def copyCanary (objects : List CheckedObject) (m : DeviceMemory) (i : Nat)
    (copies : Block UInt8) : Option (Block UInt8) :=
  objects[i]?.bind fun o =>
    (copyClMemRegions i { size := o.size }).foldlM (fun copies c =>
      copies.blit c.dst (fun a => m (o.store, o.base + a)) c.src c.len) copies

/-- The object with the copies.  What was in it before does not matter. -/
def copyCanaries (objects : List CheckedObject) (m : DeviceMemory) : Option (Block UInt8) :=
  Loop.loop objects.length (copyCanary objects m)
    (Block.replicate (u32 (POISON_FILL_LENGTH * POISON_REGIONS * objects.length)) 0)

/-- The pointers of `create_svm_ptr_copies`. -/
def createSvmPtrCopies (svms : List CheckedObject) : List Nat :=
  svms.flatMap fun o => [o.base, o.base + canaryOffset o.size]

/-- The memories with the copies in theirs. -/
def withCopies (m : DeviceMemory) (copies : Block UInt8) : DeviceMemory := fun a =>
  if a.1 = SCRATCH then copies.get a.2 else m a

/-! ## The copying check -/

/-- The items of `perform_cl_buffer_checks` of the copying check. -/
def copyGrid (copySvmPtrs : Bool) (size : Nat) (inp : CheckInput) : Grid Nat :=
  let totalBuffs := u32 (inp.buffers.length + inp.svms.length)
  let lenInWords := POISON_REGIONS * poisonWordLen
  let buffEnd := u32 (inp.buffers.length * lenInWords)
  let svmEnd := u32 (buffEnd + u32 (inp.svms.length * lenInWords))
  { size := size
    total := POISON_REGIONS * poisonWordLen * u32 (POISON_REGIONS * totalBuffs)
    part := fun t => u32 t < svmEnd
    sends := fun t => !(copySvmPtrs && !inp.svms.isEmpty) && u32 t == sub32 svmEnd 1
    cell := fun t => u32 t / lenInWords }

/-- What an item of it does. -/
def copyItem (copySvmPtrs : Bool) (inp : CheckInput) (clmemCopies svmCopies : Block UInt8)
    (t : Nat) : Item (Nat × Nat) UInt8 Nat := fun m =>
  let lenInWords := POISON_REGIONS * poisonWordLen
  let buffEnd := u32 (inp.buffers.length * lenInWords)
  let svmEnd := u32 (buffEnd + u32 (inp.svms.length * lenInWords))
  if u32 t ≥ svmEnd then some (INT_MAX, m)
  else if inp.svms = [] then
    some (findCorruptionNoSVM lenInWords buffEnd poisonFill_32b clmemCopies.get (u32 t), m)
  else if copySvmPtrs then
    locateDiffSVMPtr lenInWords buffEnd poisonFill_32b SCRATCH SHARED
      (fun j => (createSvmPtrCopies inp.svms).getD j NULL) (u32 t) m
  else
    some (findCorruption lenInWords buffEnd poisonFill_32b clmemCopies.get svmCopies.get (u32 t),
      m)

/-- `verify_cl_buffer_copy`: what is reported of each object. -/
def verifyClBufferCopy (copySvmPtrs : Bool) (size : Nat) (s : Schedule Nat Nat) (inp : CheckInput)
    (m : DeviceMemory) : Option (List (Option Nat)) :=
  if inp.buffers.length + inp.svms.length = 0 then some []
  else
    (copyCanaries inp.buffers m).bind fun clmemCopies =>
      (if copySvmPtrs then some (Block.replicate 0 0) else copyCanaries inp.svms m).bind
        fun svmCopies =>
          (launch (copyGrid copySvmPtrs size inp) s INT_MAX
            (copyItem copySvmPtrs inp clmemCopies svmCopies) (withCopies m clmemCopies)).map
            fun after =>
              (List.range (inp.buffers.length + inp.svms.length)).map fun i =>
                reported (after.1 i)

/-! ## The check of single buffers -/

/-- One launch of `locateDiffParts`, and the array of its result. -/
structure PartsLaunch where
  isSvm : Bool
  buffID : Nat
  object : CheckedObject
  offset : Nat

/-- The launches of `perform_cl_buffer_checks` of the check of single buffers. -/
def partsLaunches (isSvm : Bool) (objects : List CheckedObject) : List PartsLaunch :=
  objects.zipIdx.flatMap fun (o, i) =>
    [⟨isSvm, u32 (POISON_REGIONS * i), o, 0⟩,
      ⟨isSvm, u32 (POISON_REGIONS * i + 1), o, canaryOffset o.size⟩]

/-- All launches of a check. -/
def CheckInput.launches (inp : CheckInput) : List PartsLaunch :=
  partsLaunches false inp.buffers ++ partsLaunches true inp.svms

/-- Their items, one launch after the other in the numbering. -/
def partsGrid (size : Nat) (launches : List PartsLaunch) : Grid (Bool × Nat) where
  size := size
  total := poisonWordLen * launches.length
  part := fun t => t % poisonWordLen < poisonWordLen
  sends := fun t => t % poisonWordLen == poisonWordLen - 1
  cell := fun t =>
    (launches[t / poisonWordLen]?.map fun l => (l.isSvm, l.buffID)).getD (false, 0)

/-- What an item of them does. -/
def partsItem (launches : List PartsLaunch) (t : Nat) : Item (Nat × Nat) UInt8 Nat := fun m =>
  launches[t / poisonWordLen]?.bind fun l =>
    locateDiffParts poisonFill_32b l.offset l.object.store l.object.base (t % poisonWordLen) m

/-- One turn of the loop of `format_result_buff`. -/
def formatResult (firstChange : Nat → Nat) (i : Nat) : Nat → Nat :=
  let half1 := firstChange (u32 (POISON_REGIONS * i))
  let half2 := firstChange (u32 (POISON_REGIONS * i + 1))
  let half2 := if half2 < INT_MAX then half2 + POISON_FILL_LENGTH else half2
  Function.update firstChange i (if half1 < half2 then half1 else half2)

/-- `format_result_buff`, in place. -/
def formatResultBuff (numBuff : Nat) (firstChange : Nat → Nat) : Nat → Nat :=
  (List.range numBuff).foldl formatResult firstChange

/-- `verify_cl_buffer_single` on the buffers and on the SVM regions. -/
def verifyClBufferSingle (size : Nat) (s : Schedule (Bool × Nat) Nat) (inp : CheckInput)
    (m : DeviceMemory) : Option (List (Option Nat)) :=
  (launch (partsGrid size inp.launches) s INT_MAX (partsItem inp.launches) m).map fun after =>
    let results := fun isSvm numBuff =>
      (List.range numBuff).map fun i =>
        reported (formatResultBuff numBuff (fun c => after.1 (isSvm, c)) i)
    results false inp.buffers.length ++ results true inp.svms.length

/-! ## Agreement -/

/-- All strategies report the first changed byte of every object, on every memory and
in every order.  The three numbers are the sizes of the groups. -/
structure StrategiesAgree (inp : CheckInput) (copied pointers parts : Nat) : Prop where
  host : ∀ m, inp.onHost m = inp.changes m
  copied : ∀ m s, verifyClBufferCopy false copied s inp m = some (inp.changes m)
  pointers : ∀ m s, verifyClBufferCopy true pointers s inp m = some (inp.changes m)
  parts : ∀ m s, verifyClBufferSingle parts s inp m = some (inp.changes m)

/-- Few objects, pointers to whole words, and regions that do not overlap. -/
structure Checkable (inp : CheckInput) : Prop where
  fewBuffers : inp.buffers.length < 524288
  fewSvms : inp.svms.length < 524288
  words : ∀ o ∈ inp.svms, o.base % 4 = 0 ∧ o.size % 4 = 0
  between : ∀ o ∈ inp.objects, POISON_FILL_LENGTH ≤ canaryOffset o.size

/-! ## The first changed byte -/

theorem cpuParseCanary_eq_find {len : Nat} {image : Nat → UInt8} (small : len < 4294967296) :
    cpuParseCanary len image = (List.range len).find? fun k => image k ≠ POISON_FILL := by
  apply Option.ext
  intro badByte
  rw [cpuParseCanary_eq_some_iff small, find?_range_iff]
  simp only [not_not, ne_eq]

theorem reported_firstChange {len : Nat} {image : Nat → UInt8} (small : len ≤ INT_MAX) :
    reported (firstChange len image) =
      (List.range len).find? fun k => image k ≠ POISON_FILL := by
  rw [firstChange, reported]
  cases found : (List.range len).find? fun k => image k ≠ POISON_FILL with
  | none => exact if_neg (lt_irrefl _)
  | some k =>
      obtain ⟨kLt, -, -⟩ := find?_range_iff.mp found
      exact if_pos (lt_of_lt_of_le kLt small)

theorem firstChange_le_top {len : Nat} {image : Nat → UInt8} (small : len ≤ INT_MAX) :
    firstChange len image ≤ INT_MAX := by
  rw [firstChange]
  cases found : (List.range len).find? fun k => image k ≠ POISON_FILL with
  | none => exact le_refl _
  | some k =>
      obtain ⟨kLt, -, -⟩ := find?_range_iff.mp found
      exact le_of_lt (lt_of_lt_of_le kLt small)

/-- The report of a least change. -/
theorem reported_eq_min? {value : Nat} {changes : List Nat} (small : ∀ y ∈ changes, y < INT_MAX)
    (le : value ≤ INT_MAX) (bounds : ∀ x < INT_MAX, value ≤ x ↔ ∃ y ∈ changes, y ≤ x) :
    reported value = changes.min? := by
  have above : ∀ y ∈ changes, value ≤ y := fun y mem =>
    (bounds y (small y mem)).mpr ⟨y, mem, le_rfl⟩
  rw [reported]
  split_ifs with below
  · obtain ⟨y, mem, yLe⟩ := (bounds value below).mp le_rfl
    obtain rfl : y = value := le_antisymm yLe (above y mem)
    exact (List.min?_eq_some_iff.mpr ⟨mem, above⟩).symm
  · have none : changes = [] := by
      refine List.eq_nil_iff_forall_not_mem.mpr fun y mem => below ?_
      exact lt_of_le_of_lt (above y mem) (small y mem)
    rw [none]
    rfl

/-- A value up to `INT_MAX` is known from the bounds above it. -/
theorem eq_firstChange {len value : Nat} {image : Nat → UInt8} (small : len ≤ INT_MAX)
    (le : value ≤ INT_MAX)
    (bounds : ∀ x < INT_MAX, value ≤ x ↔ ∃ k < len, image k ≠ POISON_FILL ∧ k ≤ x) :
    value = firstChange len image := by
  apply eq_of_forall_ge_iff
  intro x
  by_cases below : x < INT_MAX
  · rw [bounds x below, firstChange_le_iff below]
  · exact iff_of_true (le.trans (not_lt.mp below))
      ((firstChange_le_top small).trans (not_lt.mp below))

/-- The words of an image, each with its first changed byte. -/
theorem exists_firstByte_le_iff {words x : Nat} {image : Nat → UInt8} (below : x < INT_MAX) :
    (∃ w < words, firstByte (4 * w) (fun q => image (4 * w + q) ≠ POISON_FILL) ≤ x) ↔
      ∃ k < 4 * words, image k ≠ POISON_FILL ∧ k ≤ x := by
  constructor
  · rintro ⟨w, wLt, le⟩
    obtain ⟨q, qLt, bad, le⟩ := (firstByte_le_iff below).mp le
    exact ⟨4 * w + q, by omega, of_decide_eq_true bad, le⟩
  · rintro ⟨k, kLt, bad, le⟩
    have here : 4 * (k / 4) + k % 4 = k := Nat.div_add_mod k 4
    refine ⟨k / 4, by omega, (firstByte_le_iff below).mpr ⟨k % 4, Nat.mod_lt k (by decide), ?_, ?_⟩⟩
    · rw [here]
      exact decide_eq_true bad
    · rwa [here]

/-! ## The cells of the regions -/

theorem canaryCell_front {size k : Nat} (front : k < POISON_FILL_LENGTH) : canaryCell size k = k :=
  if_pos front

theorem canaryCell_back {size k : Nat} (back : POISON_FILL_LENGTH ≤ k) :
    canaryCell size k = canaryOffset size + (k - POISON_FILL_LENGTH) :=
  if_neg (not_lt.mpr back)

theorem canaryCell_lt {size k : Nat} (kLt : k < POISON_REGIONS * POISON_FILL_LENGTH) :
    canaryCell size k < size + POISON_REGIONS * POISON_FILL_LENGTH := by
  have below := canaryOffset_le size
  rcases lt_or_ge k POISON_FILL_LENGTH with front | back
  · rw [canaryCell_front front]
    omega
  · rw [canaryCell_back back]
    simp only [POISON_REGIONS, POISON_FILL_LENGTH] at *
    omega

theorem canaryCell_inj {size k k' : Nat} (between : POISON_FILL_LENGTH ≤ canaryOffset size)
    (same : canaryCell size k = canaryCell size k') : k = k' := by
  rcases lt_or_ge k POISON_FILL_LENGTH with front | back <;>
    rcases lt_or_ge k' POISON_FILL_LENGTH with front' | back'
  · rwa [canaryCell_front front, canaryCell_front front'] at same
  · rw [canaryCell_front front, canaryCell_back back'] at same
    omega
  · rw [canaryCell_back back, canaryCell_front front'] at same
    omega
  · rw [canaryCell_back back, canaryCell_back back'] at same
    omega

/-- A word lies in one of the regions. -/
theorem canaryCell_word {size w q : Nat} (qLt : q < 4) :
    canaryCell size (4 * w + q) = canaryCell size (4 * w) + q := by
  rcases lt_or_ge (4 * w) POISON_FILL_LENGTH with front | back
  · rw [canaryCell_front front, canaryCell_front (by simp only [POISON_FILL_LENGTH] at *; omega)]
  · rw [canaryCell_back back, canaryCell_back (by omega)]
    omega

/-! ## The copies -/

variable {objects : List CheckedObject} {m : DeviceMemory}

/-- The images of the first objects are in the copies. -/
structure HoldsCopies (objects : List CheckedObject) (m : DeviceMemory) (i : Nat)
    (copies : Block UInt8) : Prop where
  len : copies.len = 8192 * objects.length
  image : ∀ j < i, ∀ o, objects[j]? = some o → ∀ k < POISON_REGIONS * POISON_FILL_LENGTH,
    copies.get (8192 * j + k) = m (o.cell k)

theorem copyCanary_spec {i : Nat} {copies : Block UInt8} (few : objects.length < 524288)
    (iLt : i < objects.length) (holds : HoldsCopies objects m i copies) :
    ∃ copies', copyCanary objects m i copies = some copies' ∧
      HoldsCopies objects m (i + 1) copies' := by
  obtain ⟨o, isObject⟩ : ∃ o, objects[i]? = some o := ⟨_, List.getElem?_eq_getElem iLt⟩
  have len := holds.len
  obtain ⟨copies', copied, len', bytes⟩ := @Block.blit_blit _ copies (8192 * i)
    POISON_FILL_LENGTH 0 (canaryOffset o.size) (fun a => m (o.store, o.base + a))
    (fun a => m (o.store, o.base + a)) (by simp only [POISON_FILL_LENGTH]; omega)
  have index : u32 (i * POISON_REGIONS) = 2 * i := by
    rw [u32_of_lt (by simp only [POISON_REGIONS]; omega), POISON_REGIONS, Nat.mul_comm]
  have front : u32 (2 * i * POISON_FILL_LENGTH) = 8192 * i := by
    rw [u32_of_lt (by simp only [POISON_FILL_LENGTH]; omega), POISON_FILL_LENGTH]
    omega
  have back : u32 (u32 (2 * i + 1) * POISON_FILL_LENGTH) = 8192 * i + POISON_FILL_LENGTH := by
    rw [u32_u32_mul, u32_of_lt (by simp only [POISON_FILL_LENGTH]; omega), POISON_FILL_LENGTH]
    omega
  have turn : copyCanary objects m i copies = some copies' := by
    rw [← copied]
    simp only [copyCanary, isObject, Option.bind_some, copyClMemRegions, index, front, back,
      List.foldlM_cons, List.foldlM_nil, Option.bind_eq_bind]
    exact Option.bind_congr fun b _ => Option.bind_fun_some _
  refine ⟨copies', turn, len'.trans len, fun j jLt o' isObject' k kLt => ?_⟩
  have inside : k < 8192 := kLt
  rw [bytes]
  rcases Nat.lt_succ_iff_lt_or_eq.mp jLt with earlier | rfl
  · rw [if_neg (by omega), if_neg (by omega)]
    exact holds.image j earlier o' isObject' k kLt
  · obtain rfl := Option.some.inj (isObject.symm.trans isObject')
    rw [CheckedObject.cell, POISON_FILL_LENGTH]
    rcases lt_or_ge k 4096 with front | back
    · rw [if_pos ⟨by omega, by omega⟩, canaryCell_front front,
        show 0 + (8192 * j + k - 8192 * j) = k by omega]
    · rw [if_neg (by omega), if_pos ⟨by omega, by omega⟩, canaryCell_back back,
        show 8192 * j + k - (8192 * j + 4096) = k - POISON_FILL_LENGTH by
          simp only [POISON_FILL_LENGTH]; omega]

/-- Few objects have all their images copied. -/
theorem copyCanaries_spec (few : objects.length < 524288) (m : DeviceMemory) :
    ∃ copies, copyCanaries objects m = some copies ∧
      HoldsCopies objects m objects.length copies := by
  apply Loop.loop_total _ (HoldsCopies objects m)
  · refine ⟨?_, by simp⟩
    rw [Block.replicate_len, canariesLen_eq, Nat.mod_eq_of_lt few]
  · intro i iLt copies holds
    exact copyCanary_spec few iLt holds

/-- A turn keeps the length of the copies and writes inside them. -/
theorem copyCanary_inside {i : Nat} {copies copies' : Block UInt8}
    (copied : copyCanary objects m i copies = some copies') :
    copies'.len = copies.len ∧
      u32 (u32 (i * POISON_REGIONS) * POISON_FILL_LENGTH) + POISON_FILL_LENGTH ≤ copies.len := by
  rw [copyCanary] at copied
  obtain ⟨o, -, copied⟩ := Option.bind_eq_some_iff.mp copied
  simp only [copyClMemRegions, List.foldlM_cons, List.foldlM_nil, Option.bind_eq_bind] at copied
  obtain ⟨copies₁, first, copied⟩ := Option.bind_eq_some_iff.mp copied
  obtain ⟨copies₂, second, copied⟩ := Option.bind_eq_some_iff.mp copied
  obtain rfl := Option.some.inj copied
  obtain ⟨inside, rfl⟩ := Block.blit_eq_some first
  obtain ⟨-, rfl⟩ := Block.blit_eq_some second
  exact ⟨rfl, inside⟩

/-- With more of them a copy goes past the end. -/
theorem copyCanaries_eq_none (many : 524288 ≤ objects.length) : copyCanaries objects m = none := by
  have below : objects.length % 524288 < 524288 := Nat.mod_lt _ (by decide)
  apply Loop.loop_eq_none (fun _ copies => copies.len = 8192 * (objects.length % 524288))
    (lt_of_lt_of_le below many)
  · rw [Block.replicate_len, canariesLen_eq]
  · intro j _ copies copies' len copied
    rw [(copyCanary_inside copied).1, len]
  · intro copies len
    cases copied : copyCanary objects m (objects.length % 524288) copies with
    | none => rfl
    | some copies' =>
        have inside := (copyCanary_inside copied).2
        rw [u32_u32_mul, u32_of_lt (by simp only [POISON_REGIONS, POISON_FILL_LENGTH]; omega)]
          at inside
        simp only [POISON_REGIONS, POISON_FILL_LENGTH] at inside
        omega

/-! ## The items of an object -/

variable {inp : CheckInput}

theorem CheckInput.length_objects (inp : CheckInput) :
    inp.objects.length = inp.buffers.length + inp.svms.length :=
  List.length_append

/-- What an item finds, when the items go through the words of the images one after
the other. -/
def wordChange (objects : List CheckedObject) (m : DeviceMemory) (t : Nat) : Nat :=
  ((objects[t / 2048]?).map fun o =>
    firstByte (4 * (t % 2048)) fun q => m (o.cell (4 * (t % 2048) + q)) ≠ POISON_FILL).getD INT_MAX

theorem wordChange_of_some {o : CheckedObject} {t : Nat} (isObject : objects[t / 2048]? = some o) :
    wordChange objects m t = firstByte (4 * (t % 2048)) fun q =>
      m (o.cell (4 * (t % 2048) + q)) ≠ POISON_FILL := by
  rw [wordChange, isObject]
  rfl

theorem wordChange_of_none {t : Nat} (after : 2048 * objects.length ≤ t) :
    wordChange objects m t = INT_MAX := by
  rw [wordChange, List.getElem?_eq_none (by omega)]
  rfl

/-- A cell whose items go through an image holds the first change in it. -/
theorem eq_firstChange_of_gathers {κ : Type} [DecidableEq κ] {grid : Grid κ} {res : Nat → Nat}
    {first : κ → Nat} {c : κ} {words j : Nat} {image : Nat → UInt8}
    (gathers : Gathers grid INT_MAX res first) (small : 4 * words ≤ INT_MAX)
    (items : ∀ t, (t < grid.total ∧ grid.part t = true ∧ grid.cell t = c) ↔
      ∃ w < words, t = words * j + w)
    (found : ∀ w < words, res (words * j + w) =
      firstByte (4 * w) fun q => image (4 * w + q) ≠ POISON_FILL) :
    first c = firstChange (4 * words) image := by
  refine eq_firstChange small (gathers.le_top c) fun x below => ?_
  rw [gathers.le_iff c x below, ← exists_firstByte_le_iff below]
  constructor
  · rintro ⟨t, tLt, takes, here, le⟩
    obtain ⟨w, wLt, rfl⟩ := (items t).mp ⟨tLt, takes, here⟩
    exact ⟨w, wLt, found w wLt ▸ le⟩
  · rintro ⟨w, wLt, le⟩
    obtain ⟨tLt, takes, here⟩ := (items (words * j + w)).mpr ⟨w, wLt, rfl⟩
    exact ⟨_, tLt, takes, here, (found w wLt).symm ▸ le⟩

/-! ## The copying check -/

/-- Few objects, whatever their sizes. -/
structure Few (inp : CheckInput) : Prop where
  buffers : inp.buffers.length < 524288
  svms : inp.svms.length < 524288

theorem buffEnd_eq (few : Few inp) :
    u32 (inp.buffers.length * (POISON_REGIONS * poisonWordLen)) = 2048 * inp.buffers.length := by
  have bound := few.buffers
  rw [u32_of_lt] <;> simp only [POISON_REGIONS, poisonWordLen] <;> omega

theorem svmEnd_eq (few : Few inp) :
    u32 (u32 (inp.buffers.length * (POISON_REGIONS * poisonWordLen)) +
      u32 (inp.svms.length * (POISON_REGIONS * poisonWordLen))) = 2048 * inp.objects.length := by
  have bound := few.buffers
  have bound' := few.svms
  rw [u32_u32_add, u32_add_u32, inp.length_objects, u32_of_lt] <;>
    simp only [POISON_REGIONS, poisonWordLen] <;> omega

theorem copyGrid_total (few : Few inp) {copySvmPtrs : Bool} {size : Nat} :
    (copyGrid copySvmPtrs size inp).total = 4096 * inp.objects.length := by
  have bound := few.buffers
  have bound' := few.svms
  simp only [copyGrid, u32_mul_u32, POISON_REGIONS, poisonWordLen]
  rw [u32_of_lt (by omega), inp.length_objects]
  omega

/-- Groups lie inside the words of one object. -/
theorem div_eq_of_group {size words t u : Nat} (divides : size ∣ words)
    (group : t / size = u / size) : t / words = u / words := by
  obtain ⟨groups, rfl⟩ := divides
  rw [← Nat.div_div_eq_div_mul, group, Nat.div_div_eq_div_mul]

theorem copyGrid_uniform (few : Few inp) {copySvmPtrs : Bool} {size : Nat} (divides : size ∣ 2048) :
    (copyGrid copySvmPtrs size inp).Uniform := by
  constructor
  · rw [copyGrid_total few]
    exact divides.trans (Nat.dvd_mul_right_of_dvd (by decide) _)
  · intro t u group
    have words : u32 t / 2048 = u32 u / 2048 := by
      have whole : t / 2048 = u / 2048 := div_eq_of_group divides group
      rw [u32, u32, show 4294967296 = 2048 * 2097152 by decide, Nat.mod_mul_right_div_self, whole,
        ← Nat.mod_mul_right_div_self]
    have part : u32 t < 2048 * inp.objects.length ↔ u32 u < 2048 * inp.objects.length := by
      rw [Nat.mul_comm, ← Nat.div_lt_iff_lt_mul (by decide), words,
        Nat.div_lt_iff_lt_mul (by decide)]
    constructor
    · rw [← svmEnd_eq few] at part
      exact decide_eq_decide.mpr part
    · exact words

theorem copyGrid_small (few : Few inp) {copySvmPtrs : Bool} {size t : Nat}
    (tLt : t < (copyGrid copySvmPtrs size inp).total) : t < 4294967296 := by
  have bound := few.buffers
  have bound' := few.svms
  rw [copyGrid_total few, inp.length_objects] at tLt
  omega

theorem copyGrid_items (few : Few inp) {copySvmPtrs : Bool} {size i : Nat}
    (iLt : i < inp.objects.length) (t : Nat) :
    (t < (copyGrid copySvmPtrs size inp).total ∧ (copyGrid copySvmPtrs size inp).part t = true ∧
      (copyGrid copySvmPtrs size inp).cell t = i) ↔ ∃ w < 2048, t = 2048 * i + w := by
  have lenInWords : POISON_REGIONS * poisonWordLen = 2048 := rfl
  constructor
  · rintro ⟨tLt, -, here⟩
    have here : u32 t / (POISON_REGIONS * poisonWordLen) = i := here
    rw [u32_of_lt (copyGrid_small few tLt), lenInWords] at here
    exact ⟨t % 2048, Nat.mod_lt t (by decide), by omega⟩
  · rintro ⟨w, wLt, rfl⟩
    have tLt : 2048 * i + w < (copyGrid copySvmPtrs size inp).total := by
      rw [copyGrid_total few]
      omega
    have small := u32_of_lt (copyGrid_small few tLt)
    refine ⟨tLt, decide_eq_true ?_, ?_⟩
    · rw [svmEnd_eq few, small]
      omega
    · change u32 (2048 * i + w) / (POISON_REGIONS * poisonWordLen) = i
      rw [small, lenInWords]
      omega

/-- The copying check reports the first changes when every item finds that of its
word. -/
theorem reports_of_gathers (few : Few inp) {copySvmPtrs : Bool} {size : Nat} {first : Nat → Nat}
    (gathers : Gathers (copyGrid copySvmPtrs size inp) INT_MAX (wordChange inp.objects m) first) :
    ((List.range (inp.buffers.length + inp.svms.length)).map fun i => reported (first i)) =
      inp.changes m := by
  rw [← inp.length_objects]
  apply List.ext_getElem
  · rw [List.length_map, List.length_range, CheckInput.changes, List.length_map]
  · intro i iLt _
    rw [List.length_map, List.length_range] at iLt
    have isObject := List.getElem?_eq_getElem iLt
    have change : first i = firstChange (4 * 2048) fun k => m (inp.objects[i].cell k) := by
      refine eq_firstChange_of_gathers gathers (by decide) (copyGrid_items few iLt)
        fun w wLt => ?_
      rw [wordChange_of_some (o := inp.objects[i])]
      · rw [Nat.mul_add_mod, Nat.mod_eq_of_lt wLt]
      · rw [Nat.mul_add_div (by decide), Nat.div_eq_of_lt wLt, Nat.add_zero, isObject]
    rw [List.getElem_map, List.getElem_range, change, reported_firstChange (by decide)]
    simp only [CheckInput.changes, List.getElem_map]
    rfl

theorem compareCopied_word {copies : Block UInt8} {o : CheckedObject} {i w : Nat}
    (holds : HoldsCopies objects m objects.length copies) (few : objects.length < 524288)
    (isObject : objects[i]? = some o) (wLt : w < 2048) :
    compareCopied poisonFill_32b w (2048 * i + w) copies.get =
      firstByte (4 * w) fun q => m (o.cell (4 * w + q)) ≠ POISON_FILL := by
  obtain ⟨iLt, -⟩ := List.getElem?_eq_some_iff.mp isObject
  rw [compareCopied_eq (by omega)]
  refine firstByte_congr fun q qLt => ?_
  have image := holds.image i iLt o isObject (4 * w + q)
    (by simp only [POISON_REGIONS, POISON_FILL_LENGTH]; omega)
  rw [show 4 * (2048 * i + w) + q = 8192 * i + (4 * w + q) by omega, image]

/-- The object of an item, in its own list. -/
theorem object_of_item {t : Nat} (inside : t < 2048 * inp.objects.length) :
    ∃ o, inp.objects[t / 2048]? = some o ∧
      (t < 2048 * inp.buffers.length ∧ inp.buffers[t / 2048]? = some o ∨
        2048 * inp.buffers.length ≤ t ∧
          inp.svms[t / 2048 - inp.buffers.length]? = some o) := by
  have iLt : t / 2048 < inp.objects.length := by omega
  refine ⟨_, List.getElem?_eq_getElem iLt, ?_⟩
  rw [← List.getElem?_eq_getElem iLt]
  rcases lt_or_ge t (2048 * inp.buffers.length) with isBuffer | isSvm
  · refine Or.inl ⟨isBuffer, ?_⟩
    exact (List.getElem?_append_left (by omega)).symm
  · refine Or.inr ⟨isSvm, ?_⟩
    exact (List.getElem?_append_right (by omega)).symm

theorem copyItem_copied {clmemCopies svmCopies : Block UInt8} {size t : Nat} (few : Few inp)
    (clmem : HoldsCopies inp.buffers m inp.buffers.length clmemCopies)
    (svm : HoldsCopies inp.svms m inp.svms.length svmCopies)
    (tLt : t < (copyGrid false size inp).total) (m' : DeviceMemory) :
    copyItem false inp clmemCopies svmCopies t m' = some (wordChange inp.objects m t, m') := by
  have small := u32_of_lt (copyGrid_small few tLt)
  have lenInWords : POISON_REGIONS * poisonWordLen = 2048 := rfl
  rw [copyItem, svmEnd_eq few, buffEnd_eq few, small, lenInWords]
  simp only [Bool.false_eq_true, if_false]
  split_ifs with idle noSvm
  · rw [wordChange_of_none idle]
  · obtain ⟨o, isObject, ⟨isBuffer, own⟩ | ⟨-, own⟩⟩ := object_of_item (not_le.mp idle)
    · have word := compareCopied_word clmem few.buffers own (Nat.mod_lt t (by decide))
      rw [Nat.div_add_mod] at word
      rw [findCorruptionNoSVM, if_pos isBuffer, word, wordChange_of_some isObject]
    · rw [noSvm] at own
      contradiction
  · obtain ⟨o, isObject, ⟨isBuffer, own⟩ | ⟨isSvm, own⟩⟩ := object_of_item (not_le.mp idle)
    · have word := compareCopied_word clmem few.buffers own (Nat.mod_lt t (by decide))
      rw [Nat.div_add_mod] at word
      rw [findCorruption, if_pos isBuffer, word, wordChange_of_some isObject]
    · have word := compareCopied_word svm few.svms own (Nat.mod_lt t (by decide))
      rw [show 2048 * (t / 2048 - inp.buffers.length) + t % 2048 =
        t - 2048 * inp.buffers.length by omega] at word
      rw [findCorruption, if_neg (not_lt.mpr isSvm), word, wordChange_of_some isObject]

/-- The copying check, in any order. -/
theorem verifyClBufferCopy_copied {size : Nat} (few : Few inp) (divides : size ∣ 2048)
    (m : DeviceMemory) (s : Schedule Nat Nat) :
    verifyClBufferCopy false size s inp m = some (inp.changes m) := by
  simp only [verifyClBufferCopy, Bool.false_eq_true, if_false]
  split_ifs with none
  · rw [← inp.length_objects, List.length_eq_zero_iff] at none
    rw [CheckInput.changes, none]
    rfl
  obtain ⟨clmemCopies, copied, clmem⟩ := copyCanaries_spec few.buffers m
  obtain ⟨svmCopies, copied', svm⟩ := copyCanaries_spec few.svms m
  have items := fun t tLt => @copyItem_copied m inp clmemCopies svmCopies size t few clmem svm tLt
  obtain ⟨first, m', launched, gathers⟩ := @launch_of_disjoint _ _ _ _ _ _
    (copyGrid false size inp) s INT_MAX (copyItem false inp clmemCopies svmCopies)
    (withCopies m clmemCopies) (wordChange inp.objects m) (fun _ _ => False)
    (copyGrid_uniform few divides) (fun t tLt => local_of_fixed (items t tLt))
    (fun _ _ _ _ _ _ touched => touched.elim) fun t tLt => ⟨_, items t tLt _⟩
  rw [copied, Option.bind_some, copied', Option.bind_some, launched, Option.map_some,
    reports_of_gathers few gathers]

/-! ## The check through pointers -/

/-- The entries that lists of one length give. -/
theorem getElem?_flatMap {α β : Type} {f : α → List β} {d : Nat} (len : ∀ x, (f x).length = d)
    {l : List α} {i r : Nat} (rLt : r < d) :
    (l.flatMap f)[d * i + r]? = l[i]?.bind fun x => (f x)[r]? := by
  induction l generalizing i with
  | nil => simp
  | cons x rest ih =>
      rw [List.flatMap_cons]
      cases i with
      | zero =>
          rw [Nat.mul_zero, Nat.zero_add, List.getElem?_append_left (by rwa [len])]
          rfl
      | succ i =>
          rw [List.getElem?_append_right (by rw [len, Nat.mul_succ]; omega), len,
            show d * (i + 1) + r - d = d * i + r by rw [Nat.mul_succ]; omega, ih]
          rfl

/-- The pointers to the regions of an object. -/
theorem createSvmPtrCopies_getD {svms : List CheckedObject} {o : CheckedObject} {i n : Nat}
    (isObject : svms[i]? = some o) (nLt : n < 2) :
    (createSvmPtrCopies svms).getD (2 * i + n) NULL =
      o.base + canaryCell o.size (4096 * n) := by
  have pointers : ∀ o : CheckedObject, [o.base, o.base + canaryOffset o.size].length = 2 :=
    fun _ => rfl
  rw [createSvmPtrCopies, List.getD_eq_getElem?_getD, getElem?_flatMap pointers nLt, isObject]
  rcases Nat.lt_succ_iff_lt_or_eq.mp nLt with zero | rfl
  · obtain rfl := Nat.lt_one_iff.mp zero
    rw [canaryCell_front (by decide), Nat.mul_zero, Nat.add_zero]
    rfl
  · rw [canaryCell_back (by decide), Nat.mul_one, POISON_FILL_LENGTH, Nat.sub_self, Nat.add_zero]
    rfl

theorem cell_word {o : CheckedObject} {w q : Nat} (qLt : q < 4) :
    o.cell (4 * w + q) = ((o.cell (4 * w)).1, (o.cell (4 * w)).2 + q) := by
  rw [CheckedObject.cell, CheckedObject.cell, canaryCell_word qLt, Nat.add_assoc]

/-- The words of one region follow one another. -/
theorem canaryCell_region {size w : Nat} (wLt : w < 2048) :
    canaryCell size (4096 * (w / 1024)) + 4 * (w % 1024) = canaryCell size (4 * w) := by
  rcases lt_or_ge w 1024 with front | back
  · rw [Nat.div_eq_of_lt front, Nat.mod_eq_of_lt front, canaryCell_front (by decide),
      canaryCell_front (by simp only [POISON_FILL_LENGTH]; omega)]
    omega
  · rw [show w / 1024 = 1 by omega, canaryCell_back (by decide),
      canaryCell_back (by simp only [POISON_FILL_LENGTH]; omega), POISON_FILL_LENGTH]
    omega

/-- The place of the word of an item of the pointer check. -/
def pointerPlace (inp : CheckInput) (o : CheckedObject) (t : Nat) : Nat × Nat :=
  if t < 2048 * inp.buffers.length then (SCRATCH, 4 * t) else o.cell (4 * (t % 2048))

/-- The items of an object of the pointer check take part. -/
theorem copyItem_eq {clmemCopies svmCopies : Block UInt8} {size t : Nat} (few : Few inp)
    (anySvm : inp.svms ≠ []) (tLt : t < (copyGrid true size inp).total)
    (inside : t < 2048 * inp.objects.length) : copyItem true inp clmemCopies svmCopies t =
      locateDiffSVMPtr 2048 (2048 * inp.buffers.length) poisonFill_32b SCRATCH SHARED
        (fun j => (createSvmPtrCopies inp.svms).getD j NULL) t := by
  have small := u32_of_lt (copyGrid_small few tLt)
  have lenInWords : POISON_REGIONS * poisonWordLen = 2048 := rfl
  funext m
  rw [copyItem, svmEnd_eq few, buffEnd_eq few, small, lenInWords, if_neg (not_le.mpr inside),
    if_neg anySvm, if_pos rfl]

/-- An item of an SVM region compares at the start of one of its regions. -/
theorem copyItem_svm {clmemCopies svmCopies : Block UInt8} {size t : Nat} {o : CheckedObject}
    (few : Few inp) (tLt : t < (copyGrid true size inp).total)
    (isSvm : 2048 * inp.buffers.length ≤ t)
    (own : inp.svms[t / 2048 - inp.buffers.length]? = some o) :
    copyItem true inp clmemCopies svmCopies t = compareAndMend poisonFill_32b (t % 2048)
      (t % 1024) SHARED (o.base + canaryCell o.size (4096 * (t % 2048 / 1024))) := by
  have anySvm : inp.svms ≠ [] := List.ne_nil_of_mem (List.mem_of_getElem? own)
  obtain ⟨iLt, -⟩ := List.getElem?_eq_some_iff.mp own
  have index : (t - 2048 * inp.buffers.length) / (2048 / POISON_REGIONS) =
      2 * (t / 2048 - inp.buffers.length) + t % 2048 / 1024 := by
    simp only [POISON_REGIONS]
    omega
  have pointer := createSvmPtrCopies_getD own (n := t % 2048 / 1024) (by omega)
  funext m
  rw [copyItem_eq few anySvm tLt (by rw [inp.length_objects]; omega), locateDiffSVMPtr,
    if_neg (not_lt.mpr isSvm), index, pointer]
  rfl

theorem copyItem_finds {clmemCopies svmCopies : Block UInt8} {size t : Nat} {o : CheckedObject}
    (few : Few inp) (words : ∀ o ∈ inp.svms, o.base % 4 = 0 ∧ o.size % 4 = 0)
    (anySvm : inp.svms ≠ []) (tLt : t < (copyGrid true size inp).total)
    (isObject : inp.objects[t / 2048]? = some o) :
    Finds (copyItem true inp clmemCopies svmCopies t) (pointerPlace inp o t).1
      (pointerPlace inp o t).2 (4 * (t % 2048)) := by
  obtain ⟨iLt, -⟩ := List.getElem?_eq_some_iff.mp isObject
  have inside : t < 2048 * inp.objects.length := by omega
  obtain ⟨o', isObject', ⟨isBuffer, -⟩ | ⟨isSvm, own⟩⟩ := object_of_item inside
  · have place : pointerPlace inp o t = (SCRATCH, 4 * t) := if_pos isBuffer
    have bound := few.buffers
    intro m
    rw [copyItem_eq few anySvm tLt inside, place, locateDiffSVMPtr, if_pos isBuffer]
    have finds := @compareAndMend_finds (t % 2048) t SCRATCH 0 rfl (by omega) m
    rwa [Nat.zero_add] at finds
  · obtain rfl := Option.some.inj (isObject.symm.trans isObject')
    have place : pointerPlace inp o t = o.cell (4 * (t % 2048)) := if_neg (not_lt.mpr isSvm)
    have mem := List.mem_of_getElem? own
    obtain ⟨base, size⟩ := words o mem
    have aligned : (o.base + canaryCell o.size (4096 * (t % 2048 / 1024))) % 4 = 0 := by
      rcases lt_or_ge (t % 2048) 1024 with front | back
      · rw [Nat.div_eq_of_lt front, canaryCell_front (by decide)]
        omega
      · rw [show t % 2048 / 1024 = 1 by omega, canaryCell_back (by decide), Nat.mul_one,
          POISON_FILL_LENGTH, Nat.sub_self]
        have offset : canaryOffset o.size % 4 = 0 := by
          rw [canaryOffset, u32_mod_four, POISON_FILL_LENGTH, Nat.add_mod, u32_mod_four, size]
        omega
    intro m
    rw [copyItem_svm few tLt isSvm own, place]
    have finds := @compareAndMend_finds (t % 2048) (t % 1024) SHARED _ aligned (by omega) m
    have region := @canaryCell_region o.size (t % 2048) (Nat.mod_lt t (by decide))
    rw [show t % 2048 % 1024 = t % 1024 by omega] at region
    rw [Nat.add_assoc, region] at finds
    rw [finds, CheckedObject.cell, inp.shared o mem]

/-- Different bytes of the images lie in different cells. -/
theorem cell_inj (between : ∀ o ∈ inp.objects, POISON_FILL_LENGTH ≤ canaryOffset o.size)
    {o o' : CheckedObject} {i j k k' : Nat} (isObject : inp.objects[i]? = some o)
    (isObject' : inp.objects[j]? = some o') (kLt : k < POISON_REGIONS * POISON_FILL_LENGTH)
    (kLt' : k' < POISON_REGIONS * POISON_FILL_LENGTH) (same : o.cell k = o'.cell k') :
    i = j ∧ k = k' := by
  have allocates : ∀ (o : CheckedObject) (k : Nat), k < POISON_REGIONS * POISON_FILL_LENGTH →
      o.Allocates (o.cell k) := fun o k kLt =>
    ⟨rfl, Nat.le_add_right _ _, Nat.add_lt_add_left (canaryCell_lt kLt) _⟩
  have apart := List.pairwise_iff_getElem.mp inp.apart
  obtain ⟨iLt, rfl⟩ := List.getElem?_eq_some_iff.mp isObject
  obtain ⟨jLt, rfl⟩ := List.getElem?_eq_some_iff.mp isObject'
  rcases lt_trichotomy i j with less | rfl | greater
  · exact absurd (same ▸ allocates _ k' kLt') (apart i j iLt jLt less _ (allocates _ k kLt))
  · have mem := List.getElem_mem iLt
    exact ⟨rfl, canaryCell_inj (between _ mem) (Nat.add_left_cancel (Prod.mk.inj same).2)⟩
  · exact absurd (same ▸ allocates _ k kLt) (apart j i jLt iLt greater _ (allocates _ k' kLt'))

theorem inWord_iff {o : CheckedObject} {w : Nat} {a : Nat × Nat} :
    InWord (o.cell (4 * w)) a ↔ ∃ q < 4, a = o.cell (4 * w + q) := by
  constructor
  · rintro ⟨store, lower, upper⟩
    refine ⟨a.2 - (o.cell (4 * w)).2, by omega, ?_⟩
    rw [cell_word (by omega), Nat.add_sub_cancel' lower, ← store]
  · rintro ⟨q, qLt, rfl⟩
    rw [cell_word qLt]
    exact ⟨rfl, Nat.le_add_right _ _, Nat.add_lt_add_left qLt _⟩

/-- Different items have different words of the images. -/
theorem words_apart (between : ∀ o ∈ inp.objects, POISON_FILL_LENGTH ≤ canaryOffset o.size)
    {o o' : CheckedObject} {t u : Nat} (isObject : inp.objects[t / 2048]? = some o)
    (isObject' : inp.objects[u / 2048]? = some o') (differ : t ≠ u) {a : Nat × Nat}
    (touched : InWord (o.cell (4 * (t % 2048))) a) :
    ¬ InWord (o'.cell (4 * (u % 2048))) a := by
  intro touched'
  obtain ⟨q, qLt, rfl⟩ := inWord_iff.mp touched
  obtain ⟨q', qLt', same⟩ := inWord_iff.mp touched'
  obtain ⟨sameObject, sameByte⟩ := cell_inj between isObject isObject'
    (by simp only [POISON_REGIONS, POISON_FILL_LENGTH]; omega)
    (by simp only [POISON_REGIONS, POISON_FILL_LENGTH]; omega) same
  omega

/-- Without SVM regions there is one check. -/
theorem verifyClBufferCopy_of_nil {size : Nat} (noSvm : inp.svms = []) (m : DeviceMemory)
    (s : Schedule Nat Nat) :
    verifyClBufferCopy true size s inp m = verifyClBufferCopy false size s inp m := by
  have grid : copyGrid true size inp = copyGrid false size inp := by
    simp [copyGrid, noSvm]
  have item : ∀ clmemCopies svmCopies, copyItem true inp clmemCopies svmCopies =
      copyItem false inp clmemCopies svmCopies := by
    intro clmemCopies svmCopies
    funext t m
    simp only [copyItem, noSvm, if_true]
  have copies : copyCanaries inp.svms m = some (Block.replicate 0 0) := by
    rw [noSvm]
    rfl
  simp only [verifyClBufferCopy, grid, item, copies, if_true, Bool.false_eq_true, if_false]

/-- What an item of the pointer check finds. -/
theorem copyItem_pointers {clmemCopies svmCopies : Block UInt8} {size t : Nat} {o : CheckedObject}
    (few : Few inp) (words : ∀ o ∈ inp.svms, o.base % 4 = 0 ∧ o.size % 4 = 0)
    (anySvm : inp.svms ≠ []) (clmem : HoldsCopies inp.buffers m inp.buffers.length clmemCopies)
    (tLt : t < (copyGrid true size inp).total) (isObject : inp.objects[t / 2048]? = some o) :
    ∃ m', copyItem true inp clmemCopies svmCopies t (withCopies m clmemCopies) =
      some (wordChange inp.objects m t, m') := by
  rw [copyItem_finds few words anySvm tLt isObject, wordChange_of_some isObject]
  refine ⟨_, congrArg some (Prod.ext (firstByte_congr fun q qLt => ?_) rfl)⟩
  obtain ⟨iLt, -⟩ := List.getElem?_eq_some_iff.mp isObject
  obtain ⟨o', isObject', ⟨isBuffer, own⟩ | ⟨isSvm, own⟩⟩ :=
    @object_of_item inp t (by omega)
  · obtain rfl := Option.some.inj (isObject.symm.trans isObject')
    have image := clmem.image (t / 2048) (by omega) o own (4 * (t % 2048) + q)
      (by simp only [POISON_REGIONS, POISON_FILL_LENGTH]; omega)
    rw [← image, pointerPlace, if_pos isBuffer, withCopies, if_pos rfl,
      show 8192 * (t / 2048) + (4 * (t % 2048) + q) = 4 * t + q by omega]
  · obtain rfl := Option.some.inj (isObject.symm.trans isObject')
    have shared := inp.shared o (List.mem_of_getElem? own)
    have outside : ¬ (o.cell (4 * (t % 2048))).1 = SCRATCH := by
      change ¬ o.store = SCRATCH
      rw [shared]
      decide
    rw [pointerPlace, if_neg (not_lt.mpr isSvm), withCopies, if_neg outside, cell_word qLt]

theorem pointerPlace_buffer {o : CheckedObject} {t : Nat}
    (isBuffer : t < 2048 * inp.buffers.length) : pointerPlace inp o t = (SCRATCH, 4 * t) :=
  if_pos isBuffer

/-- The words of SVM regions are not among the copies. -/
theorem pointerPlace_svm {o : CheckedObject} {t : Nat} (isObject : inp.objects[t / 2048]? = some o)
    (isSvm : 2048 * inp.buffers.length ≤ t) :
    pointerPlace inp o t = o.cell (4 * (t % 2048)) ∧ (pointerPlace inp o t).1 = SHARED := by
  obtain ⟨iLt, -⟩ := List.getElem?_eq_some_iff.mp isObject
  have place : pointerPlace inp o t = o.cell (4 * (t % 2048)) := if_neg (not_lt.mpr isSvm)
  obtain ⟨o', isObject', ⟨isBuffer, -⟩ | ⟨-, own⟩⟩ := @object_of_item inp t (by omega)
  · omega
  · obtain rfl := Option.some.inj (isObject.symm.trans isObject')
    exact ⟨place, by rw [place]; exact inp.shared o (List.mem_of_getElem? own)⟩

theorem pointerPlaces_apart (between : ∀ o ∈ inp.objects, POISON_FILL_LENGTH ≤ canaryOffset o.size)
    {o o' : CheckedObject} {t u : Nat} (isObject : inp.objects[t / 2048]? = some o)
    (isObject' : inp.objects[u / 2048]? = some o') (differ : t ≠ u) {a : Nat × Nat}
    (touched : InWord (pointerPlace inp o t) a) : ¬ InWord (pointerPlace inp o' u) a := by
  have stores : SCRATCH ≠ SHARED := by decide
  intro touched'
  rcases lt_or_ge t (2048 * inp.buffers.length) with isBuffer | isSvm <;>
    rcases lt_or_ge u (2048 * inp.buffers.length) with isBuffer' | isSvm'
  · rw [pointerPlace_buffer isBuffer] at touched
    rw [pointerPlace_buffer isBuffer'] at touched'
    obtain ⟨-, lower, upper⟩ := touched
    obtain ⟨-, lower', upper'⟩ := touched'
    dsimp only at lower upper lower' upper'
    omega
  · rw [pointerPlace_buffer isBuffer] at touched
    obtain ⟨-, shared⟩ := pointerPlace_svm isObject' isSvm'
    exact stores (touched.1.symm.trans (touched'.1.trans shared))
  · rw [pointerPlace_buffer isBuffer'] at touched'
    obtain ⟨-, shared⟩ := pointerPlace_svm isObject isSvm
    exact stores (touched'.1.symm.trans (touched.1.trans shared))
  · rw [(pointerPlace_svm isObject isSvm).1] at touched
    rw [(pointerPlace_svm isObject' isSvm').1] at touched'
    exact words_apart between isObject isObject' differ touched touched'

/-- The pointer check, in any order. -/
theorem verifyClBufferCopy_pointers {size : Nat} (checkable : Checkable inp) (divides : size ∣ 2048)
    (m : DeviceMemory) (s : Schedule Nat Nat) :
    verifyClBufferCopy true size s inp m = some (inp.changes m) := by
  have few : Few inp := ⟨checkable.fewBuffers, checkable.fewSvms⟩
  by_cases noSvm : inp.svms = []
  · rw [verifyClBufferCopy_of_nil noSvm]
    exact verifyClBufferCopy_copied few divides m s
  have someObject : ¬ inp.buffers.length + inp.svms.length = 0 := by
    have pos := List.length_pos_iff.mpr noSvm
    omega
  obtain ⟨clmemCopies, copied, clmem⟩ := copyCanaries_spec few.buffers m
  have idle : ∀ t < (copyGrid true size inp).total, inp.objects[t / 2048]? = none →
      ∀ m', copyItem true inp clmemCopies (Block.replicate 0 0) t m' =
        some (wordChange inp.objects m t, m') := by
    intro t tLt none m'
    have after : 2048 * inp.objects.length ≤ t := by
      have beyond := List.getElem?_eq_none_iff.mp none
      omega
    rw [wordChange_of_none after, copyItem, svmEnd_eq few, u32_of_lt (copyGrid_small few tLt),
      if_pos after]
  obtain ⟨first, m', launched, gathers⟩ := @launch_of_disjoint _ _ _ _ _ _
    (copyGrid true size inp) s INT_MAX (copyItem true inp clmemCopies (Block.replicate 0 0))
    (withCopies m clmemCopies) (wordChange inp.objects m)
    (fun t a => ∃ o, inp.objects[t / 2048]? = some o ∧ InWord (pointerPlace inp o t) a)
    (copyGrid_uniform few divides)
    (fun t tLt => by
      cases isObject : inp.objects[t / 2048]? with
      | none => exact local_of_fixed (idle t tLt isObject)
      | some o =>
          have finds := @copyItem_finds inp clmemCopies (Block.replicate 0 0) size t o few
            checkable.words noSvm tLt isObject
          exact finds.isLocal.mono fun a touched => ⟨o, rfl, touched⟩)
    (fun t tLt u uLt differ a touched touched' => by
      obtain ⟨o, isObject, touched⟩ := touched
      obtain ⟨o', isObject', touched'⟩ := touched'
      exact pointerPlaces_apart checkable.between isObject isObject' differ touched touched')
    (fun t tLt => by
      cases isObject : inp.objects[t / 2048]? with
      | none => exact ⟨_, idle t tLt isObject _⟩
      | some o => exact copyItem_pointers few checkable.words noSvm clmem tLt isObject)
  simp only [verifyClBufferCopy, someObject, if_false, copied, Option.bind_some, if_true, launched,
    Option.map_some, reports_of_gathers few gathers]

end Clarmor
