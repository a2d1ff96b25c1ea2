import Clarmor.Check.ImageKernel
import Clarmor.Image.CanaryBytes
import Clarmor.Library.Races

/-!
# The commands of the checks of images

Both strategies copy the canaries of every image to flat arrays, repair the image and
let a kernel look at the copies.  One puts all copies behind each other for one launch.
The other one has a copy and a launch for each image, all with the same results.

The repair ends with a marker that waits for everything on its queue.
-/

namespace Clarmor

open Word Store Reduce Items Queues

/-- Names for the commands of a check and for those that were enqueued before. -/
inductive ImageTag where
  | pending (n : Nat)
  | fill
  | copy (i slot : Nat)
  | copyFinish (i : Nat)
  | mend (i n : Nat)
  | mendFinish (i : Nat)
  | check (i : Nat)
  | mendMarker
  | finish
  | read
deriving DecidableEq, Repr

/-- The cells of a check: the pixels of the images, the copies of the canaries, and the
results on the device and on the host. -/
inductive ImageCell where
  | texel (a : Nat × Point × Nat)
  | copied (a : Nat × Nat)
  | result (i : Nat)
  | firstChange (i : Nat)
deriving DecidableEq, Repr

@[reducible]
def ImageCell.Value : ImageCell → Type
  | .texel _ | .copied _ => UInt8
  | .result _ | .firstChange _ => Nat

abbrev ImageMemory := (c : ImageCell) → c.Value

/-- The pixels of the images. -/
def ImageMemory.texels (m : ImageMemory) (a : Nat × Point × Nat) : UInt8 := m (.texel a)

/-! ## What the commands do -/

/-- `cl_image_to_buffer_copy` of a box of pixels. -/
def copyTexels (o : CheckedImage) (buffer : Nat) (t : Transfer) (m : ImageMemory) : ImageMemory
  | .texel a => m (.texel a)
  | .copied a =>
      if a.1 = buffer ∧ t.segment ≤ a.2 ∧ a.2 < t.segment + t.box.volume * o.pixel then
        m.texels (o.store, t.box.point ((a.2 - t.segment) / o.pixel), (a.2 - t.segment) % o.pixel)
      else m (.copied a)
  | .result i => m (.result i)
  | .firstChange i => m (.firstChange i)

/-- A write of the repair, from an array with something behind it. -/
def writeTexels (o : CheckedImage) (w : RepairWrite) (behind : Nat → UInt8) (m : ImageMemory) :
    ImageMemory
  | .texel a =>
      if a.1 = o.store ∧ w.box.Mem a.2.1 ∧ a.2.2 < o.pixel then
        if w.box.index a.2.1 * o.pixel + a.2.2 < w.source then POISON_FILL
        else behind (w.box.index a.2.1 * o.pixel + a.2.2)
      else m (.texel a)
  | .copied a => m (.copied a)
  | .result i => m (.result i)
  | .firstChange i => m (.firstChange i)

/-- The atomic operations of `findCorruption` of `image_copy_canary_src` on a buffer. -/
def imageAtomics (s : Schedule Nat Nat) (lens : List Nat) (B : Nat → UInt8) : List (Nat × Nat) :=
  s.atomics ((s.items (List.range (totalCanaryLen lens))).filterMap
    (findCorruptionImage POISON_FILL (findCanaryEnds lens) B))

/-- A launch of it. -/
def checkImages (s : Schedule Nat Nat) (lens : List Nat) (buffer : Nat) (m : ImageMemory) :
    ImageMemory
  | .texel a => m (.texel a)
  | .copied a => m (.copied a)
  | .result i =>
      runAtomics (imageAtomics s lens fun a => m (.copied (buffer, a))) (fun j => m (.result j)) i
  | .firstChange i => m (.firstChange i)

/-- `clEnqueueFillBuffer` of the results. -/
def fillImageResults (numImages : Nat) (m : ImageMemory) : ImageMemory
  | .texel a => m (.texel a)
  | .copied a => m (.copied a)
  | .result i => if i < numImages then INT_MAX else m (.result i)
  | .firstChange i => m (.firstChange i)

/-- `clEnqueueReadBuffer` of the results. -/
def readImageResults (numImages : Nat) (m : ImageMemory) : ImageMemory
  | .texel a => m (.texel a)
  | .copied a => m (.copied a)
  | .result i => m (.result i)
  | .firstChange i => if i < numImages then m (.result i) else m (.firstChange i)

/-! ## The commands -/

/-- A check of the images of a kernel while commands are pending.  The kernel's event is
that of a pending command. -/
structure ImageCheck where
  images : List CheckedImage
  /-- `GPU_MODE_SINGLE_BUFFER`. -/
  single : Bool
  schedule : Nat → Schedule Nat Nat
  queue : Nat
  /-- `getCommandQueueForContext` for the context of each image. -/
  fillQueue : Nat → Nat
  inOrder : Nat → Bool
  /-- `get_error_envvar`: the canaries are left as they are. -/
  errorEnv : Bool
  /-- `STATS_CHECKER_TIME` is set. -/
  checkerTime : Bool
  /-- `is_nvidia_platform`: the host waits for the results. -/
  nvidia : Bool
  /-- What lies behind the arrays that the repair writes from. -/
  behind : Nat → UInt8
  pending : List (Command ImageTag ImageMemory)
  evt : ImageTag
  isPending : ∀ c ∈ pending, ∃ n, c.tag = .pending n
  distinct : (pending.map Command.tag).Nodup
  orderly : Orderly pending
  launched : evt ∈ pending.map Command.tag

namespace ImageCheck

variable (C : ImageCheck)

def numImages : Nat := C.images.length

/-- The lengths of the canaries. -/
def lens : List Nat := C.images.map CheckedImage.canaryLen

/-- The buffer of the copies of an image. -/
def buffer (i : Nat) : Nat := if C.single then i else 0

/-- The place of the copies of an image in it. -/
def offset (i : Nat) : Nat := if C.single then 0 else copyOffset (findCanaryEnds C.lens) i

/-- What a loop over the images makes. -/
def perImage {α : Type} (f : Nat → CheckedImage → List α) : List α :=
  (List.range C.numImages).flatMap fun i => C.images[i]?.elim [] (f i)

/-- `create_result_buffer`. -/
def fillCommand : Command ImageTag ImageMemory :=
  ⟨.fill, C.queue, [], fillImageResults C.numImages⟩

/-- A transfer of `copy_image_canaries`. -/
def copyCommand (i : Nat) (o : CheckedImage) (w : SlotWrite) : Command ImageTag ImageMemory :=
  ⟨.copy i w.slot, C.queue, [C.evt],
    match w.event with
    | .transfer t => copyTexels o (C.buffer i) t
    | .userEvent => id⟩

/-- Its marker, with the whole array of events. -/
def copyFinishCommand (i : Nat) (o : CheckedImage) : Command ImageTag ImageMemory :=
  ⟨.copyFinish i, C.queue, (List.range (copyImageEvents .machine o.dims)).map (.copy i), id⟩

/-- The transfers of an image. -/
def copyTransfers (i : Nat) (o : CheckedImage) : List (Command ImageTag ImageMemory) :=
  (copyImageCanaries .machine o.memObj (C.offset i)).map (C.copyCommand i o)

/-- `copy_image_canaries`. -/
def copyImage (i : Nat) (o : CheckedImage) : List (Command ImageTag ImageMemory) :=
  C.copyTransfers i o ++ [C.copyFinishCommand i o]

/-- A write of `poisonFillImageCanaries`. -/
def mendCommand (i : Nat) (o : CheckedImage) (n : Nat) (w : RepairWrite) :
    Command ImageTag ImageMemory :=
  ⟨.mend i n, C.fillQueue i, [.copyFinish i], writeTexels o w C.behind⟩

def mendWrites (i : Nat) (o : CheckedImage) : List (Command ImageTag ImageMemory) :=
  (repairWrites o.dims).mapIdx (C.mendCommand i o)

/-- What a marker without a wait list waits for. -/
def onQueue (queue : Nat) (before : List (Command ImageTag ImageMemory)) : List ImageTag :=
  (before.filter fun c => c.queue = queue).map Command.tag

/-- `mend_this_canary`, after some commands. -/
def mendThisCanary (i : Nat) (o : CheckedImage) (before : List (Command ImageTag ImageMemory)) :
    List (Command ImageTag ImageMemory) :=
  if C.errorEnv then []
  else
    C.mendWrites i o ++
      [⟨.mendFinish i, C.fillQueue i, onQueue (C.fillQueue i) (before ++ C.mendWrites i o), id⟩]

/-- The launch for an image. -/
def checkOne (i : Nat) (o : CheckedImage) : Command ImageTag ImageMemory :=
  ⟨.check i, C.queue, [.fill, if C.errorEnv then .copyFinish i else .mendFinish i],
    checkImages (C.schedule i) [o.canaryLen] (C.buffer i)⟩

/-- The launch for all images. -/
def checkAll : Command ImageTag ImageMemory :=
  ⟨.check 0, C.queue, (List.range C.numImages).map .copyFinish ++ [.fill],
    checkImages (C.schedule 0) C.lens 0⟩

/-- The commands for an image, after some commands. -/
def imageCommands (i : Nat) (o : CheckedImage) (before : List (Command ImageTag ImageMemory)) :
    List (Command ImageTag ImageMemory) :=
  C.copyImage i o ++ C.mendThisCanary i o (before ++ C.copyImage i o) ++
    if C.single then [C.checkOne i o] else []

/-- The commands before those for an image. -/
def known : Nat → List (Command ImageTag ImageMemory)
  | 0 => C.pending ++ if C.single then [C.fillCommand] else []
  | i + 1 => known i ++ C.images[i]?.elim [] fun o => C.imageCommands i o (known i)

/-- The marker for the repairs. -/
def mendMarker : Command ImageTag ImageMemory :=
  ⟨.mendMarker, C.queue, if C.errorEnv then [] else (List.range C.numImages).map .mendFinish, id⟩

/-- The marker for the repairs and the launch. -/
def finishCommand : Command ImageTag ImageMemory :=
  ⟨.finish, C.queue, [.mendMarker, .check 0], id⟩

/-- `get_change_buffer`. -/
def readCommand : Command ImageTag ImageMemory :=
  ⟨.read, C.queue, if C.single then (List.range C.numImages).map .check else [.finish],
    readImageResults C.numImages⟩

/-- What follows the commands for the images in `verify_cl_images_copy`. -/
def afterImages : List (HostOp ImageTag ImageMemory) :=
  if C.single then []
  else
    .enqueue C.fillCommand :: .enqueue C.checkAll ::
      (if C.checkerTime then [.finish C.queue] else []) ++
        [.enqueue C.mendMarker, .enqueue C.finishCommand]

/-- `verify_cl_images_single` and `verify_cl_images_copy`. -/
def verifyClImages : List (HostOp ImageTag ImageMemory) :=
  if C.images = [] then []
  else
    (if C.single then [.enqueue C.fillCommand] else []) ++
      C.perImage (fun i o => (C.imageCommands i o (C.known i)).map .enqueue ++
        if C.single && C.checkerTime then [.finish C.queue] else []) ++
      C.afterImages ++
      .enqueue C.readCommand :: if C.nvidia then [.waitFor [.read]] else []

/-- The script of a check with its pending commands. -/
abbrev script : List (Command ImageTag ImageMemory) := C.pending ++ enqueues C.verifyClImages

/-- Different images whose canaries fit, and pending commands that do not know the copies
and the results; those that the kernel does not wait for leave canaries alone. -/
structure Undisturbed : Prop where
  fits : ∀ o ∈ C.images, o.Fits
  few : C.single = false → C.lens.sum < 2147483648
  apart : (C.images.map CheckedImage.store).Nodup
  unaware : ∀ c ∈ C.pending, ∀ m, (∀ a, c.body m (.copied a) = m (.copied a)) ∧
    ∀ i, c.body m (.result i) = m (.result i) ∧ c.body m (.firstChange i) = m (.firstChange i)
  alone : ∀ c ∈ C.pending, c.tag ≠ C.evt →
    ¬ Relation.TransGen (Needs C.inOrder C.pending) C.evt c.tag →
      ∀ m, ∀ o ∈ C.images, ∀ p, IsCanaryPixel o.desc p → ∀ b < o.pixel,
        c.body m (.texel (o.store, p, b)) = m (.texel (o.store, p, b))

/-! ## The commands one by one -/

/-- The marker behind the repair of an image. -/
def mendFinishCommand (i : Nat) (o : CheckedImage) : Command ImageTag ImageMemory :=
  ⟨.mendFinish i, C.fillQueue i,
    onQueue (C.fillQueue i) (C.known i ++ C.copyImage i o ++ C.mendWrites i o), id⟩

/-- The launches. -/
def checkCommands : List (Command ImageTag ImageMemory) :=
  if C.single then C.perImage fun i o => [C.checkOne i o] else [C.checkAll]

/-- The commands, by their names. -/
inductive Issued : Command ImageTag ImageMemory → Prop
  | fill : Issued C.fillCommand
  | copy {i : Nat} {o : CheckedImage} {w : SlotWrite} : C.images[i]? = some o →
      w ∈ copyImageCanaries .machine o.memObj (C.offset i) → Issued (C.copyCommand i o w)
  | copyFinish {i : Nat} {o : CheckedImage} : C.images[i]? = some o →
      Issued (C.copyFinishCommand i o)
  | mend {i n : Nat} {o : CheckedImage} {w : RepairWrite} : C.errorEnv = false →
      C.images[i]? = some o → (repairWrites o.dims)[n]? = some w → Issued (C.mendCommand i o n w)
  | mendFinish {i : Nat} {o : CheckedImage} : C.errorEnv = false → C.images[i]? = some o →
      Issued (C.mendFinishCommand i o)
  | checkOne {i : Nat} {o : CheckedImage} : C.single = true → C.images[i]? = some o →
      Issued (C.checkOne i o)
  | checkAll : C.single = false → Issued C.checkAll
  | mendMarker : C.single = false → Issued C.mendMarker
  | finish : C.single = false → Issued C.finishCommand
  | read : Issued C.readCommand

variable {C}

theorem mem_perImage_iff {α : Type} {f : Nat → CheckedImage → List α} {x : α} :
    x ∈ C.perImage f ↔ ∃ i o, C.images[i]? = some o ∧ x ∈ f i o := by
  simp only [perImage, List.mem_flatMap, List.mem_range]
  constructor
  · rintro ⟨i, iLt, mem⟩
    have isImage : C.images[i]? = some C.images[i] := List.getElem?_eq_getElem iLt
    rw [isImage] at mem
    exact ⟨i, _, isImage, mem⟩
  · rintro ⟨i, o, isImage, mem⟩
    obtain ⟨iLt, -⟩ := List.getElem?_eq_some_iff.mp isImage
    refine ⟨i, iLt, ?_⟩
    rw [isImage]
    exact mem

theorem mem_mendWrites_iff {i : Nat} {o : CheckedImage} {c : Command ImageTag ImageMemory} :
    c ∈ C.mendWrites i o ↔
      ∃ n w, (repairWrites o.dims)[n]? = some w ∧ c = C.mendCommand i o n w := by
  rw [mendWrites, List.mem_mapIdx]
  constructor
  · rintro ⟨n, nLt, rfl⟩
    exact ⟨n, _, List.getElem?_eq_getElem nLt, rfl⟩
  · rintro ⟨n, w, isWrite, rfl⟩
    obtain ⟨nLt, rfl⟩ := List.getElem?_eq_some_iff.mp isWrite
    exact ⟨n, nLt, rfl⟩

theorem mem_imageCommands_iff {i : Nat} {o : CheckedImage} {c : Command ImageTag ImageMemory} :
    c ∈ C.imageCommands i o (C.known i) ↔
      (∃ w ∈ copyImageCanaries .machine o.memObj (C.offset i), c = C.copyCommand i o w) ∨
        c = C.copyFinishCommand i o ∨
        (C.errorEnv = false ∧ ((∃ n w, (repairWrites o.dims)[n]? = some w ∧
          c = C.mendCommand i o n w) ∨ c = C.mendFinishCommand i o)) ∨
        (C.single = true ∧ c = C.checkOne i o) := by
  have copies : c ∈ C.copyImage i o ↔
      (∃ w ∈ copyImageCanaries .machine o.memObj (C.offset i), c = C.copyCommand i o w) ∨
        c = C.copyFinishCommand i o := by
    rw [copyImage, List.mem_append, List.mem_singleton, copyTransfers, List.mem_map]
    simp only [eq_comm]
  have mends : c ∈ C.mendThisCanary i o (C.known i ++ C.copyImage i o) ↔
      C.errorEnv = false ∧ ((∃ n w, (repairWrites o.dims)[n]? = some w ∧
        c = C.mendCommand i o n w) ∨ c = C.mendFinishCommand i o) := by
    rw [mendThisCanary]
    split_ifs with keeps
    · rw [keeps]
      simp
    · rw [List.mem_append, mem_mendWrites_iff, List.mem_singleton,
        and_iff_right (Bool.eq_false_of_not_eq_true keeps), mendFinishCommand]
  have check : c ∈ (if C.single then [C.checkOne i o] else []) ↔
      C.single = true ∧ c = C.checkOne i o := by
    split_ifs with single
    · rw [List.mem_singleton, and_iff_right single]
    · simp [single]
  rw [imageCommands, List.mem_append, List.mem_append, copies, mends, check, or_assoc, or_assoc]

theorem enqueues_perImage {f : Nat → CheckedImage → List (HostOp ImageTag ImageMemory)} :
    enqueues (C.perImage f) = C.perImage fun i o => enqueues (f i o) := by
  rw [perImage, perImage]
  induction List.range C.numImages with
  | nil => rfl
  | cons i rest ih =>
      rw [List.flatMap_cons, List.flatMap_cons, enqueues_append, ih]
      cases C.images[i]? <;> rfl

theorem enqueues_verifyClImages (some' : C.images ≠ []) : enqueues C.verifyClImages =
    (if C.single then [C.fillCommand] else []) ++
      C.perImage (fun i o => C.imageCommands i o (C.known i)) ++
        (if C.single then [] else
          [C.fillCommand, C.checkAll, C.mendMarker, C.finishCommand]) ++ [C.readCommand] := by
  have first : enqueues (if C.single then [.enqueue C.fillCommand] else []) =
      if C.single then [C.fillCommand] else [] := by
    split_ifs <;> simp
  have each : ∀ i o, enqueues ((C.imageCommands i o (C.known i)).map .enqueue ++
      if C.single && C.checkerTime then [.finish C.queue] else []) =
        C.imageCommands i o (C.known i) := by
    intro i o
    rw [enqueues_append, enqueues_map]
    split_ifs <;> simp
  have last : enqueues C.afterImages = if C.single then [] else
      [C.fillCommand, C.checkAll, C.mendMarker, C.finishCommand] := by
    rw [afterImages]
    split_ifs <;> simp
  have read : enqueues (.enqueue C.readCommand :: if C.nvidia then [.waitFor [.read]] else []) =
      [C.readCommand] := by
    split_ifs <;> simp
  rw [verifyClImages, if_neg some', enqueues_append, enqueues_append, enqueues_append,
    enqueues_perImage, first, last, read]
  simp only [each]

theorem mem_enqueues_iff (some' : C.images ≠ []) {c : Command ImageTag ImageMemory} :
    c ∈ enqueues C.verifyClImages ↔ C.Issued c := by
  rw [enqueues_verifyClImages some', List.mem_append, List.mem_append, List.mem_append,
    mem_perImage_iff, List.mem_singleton]
  simp only [mem_imageCommands_iff]
  constructor
  · rintro (((first | ⟨i, o, isImage, ⟨w, mem, rfl⟩ | rfl | ⟨mends, ⟨n, w, isWrite, rfl⟩ | rfl⟩ |
      ⟨single, rfl⟩⟩) | last) | rfl)
    · split_ifs at first
      · rw [List.mem_singleton.mp first]
        exact .fill
      · contradiction
    · exact .copy isImage mem
    · exact .copyFinish isImage
    · exact .mend mends isImage isWrite
    · exact .mendFinish mends isImage
    · exact .checkOne single isImage
    · split_ifs at last with single
      · contradiction
      · have copying := Bool.eq_false_of_not_eq_true single
        simp only [List.mem_cons, List.not_mem_nil, or_false] at last
        rcases last with rfl | rfl | rfl | rfl
        · exact .fill
        · exact .checkAll copying
        · exact .mendMarker copying
        · exact .finish copying
    · exact .read
  · intro issued
    cases issued with
    | fill =>
        cases C.single <;> simp
    | copy isImage mem => exact Or.inl (Or.inl (Or.inr ⟨_, _, isImage, Or.inl ⟨_, mem, rfl⟩⟩))
    | copyFinish isImage => exact Or.inl (Or.inl (Or.inr ⟨_, _, isImage, Or.inr (Or.inl rfl)⟩))
    | mend mends isImage isWrite =>
        exact Or.inl (Or.inl (Or.inr ⟨_, _, isImage, Or.inr (Or.inr (Or.inl
          ⟨mends, Or.inl ⟨_, _, isWrite, rfl⟩⟩))⟩))
    | mendFinish mends isImage =>
        exact Or.inl (Or.inl (Or.inr ⟨_, _, isImage, Or.inr (Or.inr (Or.inl
          ⟨mends, Or.inr rfl⟩))⟩))
    | checkOne single isImage =>
        exact Or.inl (Or.inl (Or.inr ⟨_, _, isImage, Or.inr (Or.inr (Or.inr ⟨single, rfl⟩))⟩))
    | checkAll copying => simp [copying]
    | mendMarker copying => simp [copying]
    | finish copying => simp [copying]
    | read => exact Or.inr rfl

/-! ## Places in the copies -/

variable {i : Nat} {o : CheckedImage}

theorem Undisturbed.image (undisturbed : C.Undisturbed) (isImage : C.images[i]? = some o) :
    o.Fits :=
  undisturbed.fits o (List.mem_of_getElem? isImage)

theorem lens_getElem? (isImage : C.images[i]? = some o) : C.lens[i]? = some o.canaryLen := by
  rw [lens, List.getElem?_map, isImage, Option.map_some]

/-- In the buffer for all images the copies lie behind each other. -/
theorem offset_eq (undisturbed : C.Undisturbed) (isImage : C.images[i]? = some o)
    (copying : C.single = false) : C.offset i = (C.lens.take i).sum := by
  obtain ⟨iLt, -⟩ := List.getElem?_eq_some_iff.mp (lens_getElem? isImage)
  have few := undisturbed.few copying
  rw [offset, copying, if_neg Bool.false_ne_true, copyOffset_eq (by omega) (Nat.le_of_lt iLt)]

theorem offset_room (undisturbed : C.Undisturbed) (isImage : C.images[i]? = some o) :
    C.offset i + (expandedDims o.desc).canaryPixels * o.pixel < 4294967296 := by
  have fits := undisturbed.image isImage
  cases strategy : C.single with
  | true =>
      rw [offset, strategy, if_pos rfl, Nat.zero_add]
      exact fits.canaries.trans (by decide)
  | false =>
      have few := undisturbed.few strategy
      have inside := take_sum_add_le (lens_getElem? isImage)
      rw [offset_eq undisturbed isImage strategy, ← CheckedImage.canaryLen_eq fits]
      omega

theorem copyTransfers_slot (undisturbed : C.Undisturbed) (isImage : C.images[i]? = some o) :
    (copyImageCanaries .machine o.memObj (C.offset i)).map SlotWrite.slot =
      List.range (copyImageEvents .machine o.dims) :=
  CheckedImage.copyImageCanaries_slot (undisturbed.image isImage) (offset_room undisturbed isImage)

/-! ## The names of the commands -/

/-- The image that a command is for. -/
def imageOf : ImageTag → Option Nat
  | .copy i _ | .copyFinish i | .mend i _ | .mendFinish i | .check i => some i
  | _ => none

theorem copyTransfers_tags (undisturbed : C.Undisturbed) (isImage : C.images[i]? = some o) :
    (C.copyTransfers i o).map Command.tag =
      (List.range (copyImageEvents .machine o.dims)).map (.copy i) := by
  rw [← copyTransfers_slot undisturbed isImage, copyTransfers, List.map_map, List.map_map]
  rfl

theorem mendWrites_tags (i : Nat) (o : CheckedImage) : (C.mendWrites i o).map Command.tag =
    (List.range (repairWrites o.dims).length).map (.mend i) := by
  apply List.ext_getElem
  · simp [mendWrites]
  · intro n _ _
    simp [mendWrites, mendCommand]

theorem imageCommands_tags (undisturbed : C.Undisturbed) (isImage : C.images[i]? = some o) :
    (C.imageCommands i o (C.known i)).map Command.tag =
      ((List.range (copyImageEvents .machine o.dims)).map (.copy i) ++ [.copyFinish i] ++
        (if C.errorEnv then [] else
          (List.range (repairWrites o.dims).length).map (.mend i) ++ [.mendFinish i])) ++
        if C.single then [.check i] else [] := by
  rw [imageCommands, copyImage, mendThisCanary, List.map_append, List.map_append, List.map_append,
    copyTransfers_tags undisturbed isImage]
  congr 1
  · congr 1
    split_ifs
    · rfl
    · rw [List.map_append, mendWrites_tags]
      rfl
  · split_ifs <;> rfl

theorem imageOf_of_mem (undisturbed : C.Undisturbed) (isImage : C.images[i]? = some o)
    {t : ImageTag} (mem : t ∈ (C.imageCommands i o (C.known i)).map Command.tag) :
    imageOf t = some i ∧ (C.single = false → ∀ j, t ≠ .check j) := by
  rw [imageCommands_tags undisturbed isImage] at mem
  rcases List.mem_append.mp mem with mem | mem
  · rcases List.mem_append.mp mem with mem | mem
    · rcases List.mem_append.mp mem with mem | mem
      · obtain ⟨slot, -, rfl⟩ := List.mem_map.mp mem
        exact ⟨rfl, fun _ _ => ImageTag.noConfusion⟩
      · rw [List.mem_singleton.mp mem]
        exact ⟨rfl, fun _ _ => ImageTag.noConfusion⟩
    · split_ifs at mem
      · contradiction
      · rcases List.mem_append.mp mem with mem | mem
        · obtain ⟨n, -, rfl⟩ := List.mem_map.mp mem
          exact ⟨rfl, fun _ _ => ImageTag.noConfusion⟩
        · rw [List.mem_singleton.mp mem]
          exact ⟨rfl, fun _ _ => ImageTag.noConfusion⟩
  · split_ifs at mem with single
    · rw [List.mem_singleton.mp mem]
      exact ⟨rfl, fun copying => absurd single (by rw [copying]; decide)⟩
    · contradiction

theorem nodup_imageCommands (undisturbed : C.Undisturbed) (isImage : C.images[i]? = some o) :
    ((C.imageCommands i o (C.known i)).map Command.tag).Nodup := by
  rw [imageCommands_tags undisturbed isImage]
  have copies : ∀ n, ((List.range n).map (ImageTag.copy i)).Nodup := fun n =>
    List.nodup_range.map fun j k same => (ImageTag.copy.inj same).2
  have mends : ∀ n, ((List.range n).map (ImageTag.mend i)).Nodup := fun n =>
    List.nodup_range.map fun j k same => (ImageTag.mend.inj same).2
  split_ifs <;> simp [List.nodup_append, copies, mends] <;> aesop

/-- Commands for different images have different names. -/
theorem nodup_perImage {f : Nat → CheckedImage → List (Command ImageTag ImageMemory)}
    (each : ∀ i o, C.images[i]? = some o → ((f i o).map Command.tag).Nodup)
    (isFor : ∀ i o, C.images[i]? = some o → ∀ t ∈ (f i o).map Command.tag, imageOf t = some i) :
    ((C.perImage f).map Command.tag).Nodup := by
  have isFor' : ∀ i, ∀ t ∈ (C.images[i]?.elim [] (f i)).map Command.tag, imageOf t = some i := by
    intro i t mem
    cases isImage : C.images[i]? with
    | none =>
        rw [isImage] at mem
        contradiction
    | some o =>
        rw [isImage] at mem
        exact isFor i o isImage t mem
  rw [perImage, List.map_flatMap, List.nodup_flatMap]
  constructor
  · intro i _
    cases isImage : C.images[i]? with
    | none => exact List.nodup_nil
    | some o => exact each i o isImage
  · refine List.nodup_range.imp fun {i j} differ t mem mem' => ?_
    have same := isFor' i t mem
    rw [isFor' j t mem'] at same
    exact differ (Option.some.inj same).symm

theorem mem_perImage_tags (undisturbed : C.Undisturbed) {t : ImageTag}
    (mem : t ∈ (C.perImage fun i o => C.imageCommands i o (C.known i)).map Command.tag) :
    (∃ i, imageOf t = some i) ∧ (C.single = false → ∀ j, t ≠ .check j) := by
  obtain ⟨c, cMem, rfl⟩ := List.mem_map.mp mem
  obtain ⟨i, o, isImage, cMem⟩ := mem_perImage_iff.mp cMem
  have both := imageOf_of_mem undisturbed isImage (List.mem_map_of_mem cMem)
  exact ⟨⟨i, both.1⟩, both.2⟩

theorem not_pending_of_issued {c : Command ImageTag ImageMemory} (issued : C.Issued c) (n : Nat) :
    c.tag ≠ .pending n := by
  cases issued <;> exact ImageTag.noConfusion

theorem nodup_enqueues (undisturbed : C.Undisturbed) (some' : C.images ≠ []) :
    ((enqueues C.verifyClImages).map Command.tag).Nodup := by
  have blocks := @nodup_perImage C (fun i o => C.imageCommands i o (C.known i))
    (fun i o isImage => nodup_imageCommands undisturbed isImage)
    fun i o isImage t mem => (imageOf_of_mem undisturbed isImage mem).1
  have isFor := fun t => @mem_perImage_tags C undisturbed t
  rw [enqueues_verifyClImages some', List.map_append, List.map_append, List.map_append]
  generalize (C.perImage fun i o => C.imageCommands i o (C.known i)).map Command.tag = tags at *
  have others : ∀ t ∈ tags, t ≠ .fill ∧ t ≠ .mendMarker ∧ t ≠ .finish ∧ t ≠ .read := by
    intro t mem
    obtain ⟨⟨i, isImage⟩, -⟩ := isFor t mem
    refine ⟨?_, ?_, ?_, ?_⟩ <;> rintro rfl <;> contradiction
  cases strategy : C.single with
  | true =>
      rw [if_pos rfl, if_pos rfl, List.map_nil, List.append_nil]
      refine ((List.nodup_singleton _).append blocks fun t mem mem' => ?_).append
        (List.nodup_singleton _) fun t mem mem' => ?_
      · exact (others t mem').1 (List.mem_singleton.mp mem)
      · rcases List.mem_append.mp mem with mem | mem
        · rw [List.mem_singleton.mp mem] at mem'
          exact absurd (List.mem_singleton.mp mem') ImageTag.noConfusion
        · exact (others t mem).2.2.2 (List.mem_singleton.mp mem')
  | false =>
      have unchecked := fun t mem => (isFor t mem).2 strategy
      simp only [Bool.false_eq_true, if_neg, not_false_eq_true, List.map_nil, List.nil_append,
        List.map_cons, fillCommand, checkAll, mendMarker, finishCommand, readCommand,
        List.append_assoc, List.cons_append]
      refine blocks.append (by simp) fun t mem mem' => ?_
      obtain ⟨fill, marker, finish, read⟩ := others t mem
      simp only [List.mem_cons, List.not_mem_nil, or_false] at mem'
      rcases mem' with same | same | same | same | same
      · exact fill same
      · exact unchecked t mem 0 same
      · exact marker same
      · exact finish same
      · exact read same

theorem distinct_script (undisturbed : C.Undisturbed) : (C.script.map Command.tag).Nodup := by
  by_cases some' : C.images = []
  · rw [script, verifyClImages, if_pos some', enqueues_nil, List.append_nil]
    exact C.distinct
  · rw [List.map_append]
    refine C.distinct.append (nodup_enqueues undisturbed some') fun t mem mem' => ?_
    obtain ⟨c, cMem, rfl⟩ := List.mem_map.mp mem
    obtain ⟨d, dMem, same⟩ := List.mem_map.mp mem'
    obtain ⟨n, pending⟩ := C.isPending c cMem
    exact not_pending_of_issued ((mem_enqueues_iff some').mp dMem) n (same.trans pending)

/-! ## The order of the script -/

/-- The commands before those for an image, one image after the other. -/
theorem known_eq (n : Nat) : C.known n =
    C.pending ++ (if C.single then [C.fillCommand] else []) ++
      (List.range n).flatMap fun i => C.images[i]?.elim [] fun o =>
        C.imageCommands i o (C.known i) := by
  induction n with
  | zero => rw [known, List.range_zero, List.flatMap_nil, List.append_nil]
  | succ n ih =>
      rw [known, List.range_succ, List.flatMap_append, List.flatMap_singleton, ← List.append_assoc,
        ← ih]

theorem pending_known {t : ImageTag} (mem : t ∈ C.pending.map Command.tag) (n : Nat) :
    t ∈ (C.known n).map Command.tag := by
  rw [known_eq, List.append_assoc, List.map_append]
  exact List.mem_append_left _ mem

theorem mem_onQueue {queue : Nat} {before : List (Command ImageTag ImageMemory)} {t : ImageTag}
    (mem : t ∈ onQueue queue before) : t ∈ before.map Command.tag := by
  obtain ⟨c, kept, rfl⟩ := List.mem_map.mp mem
  exact List.mem_map_of_mem (List.mem_of_mem_filter kept)

/-- The commands for an image wait for those before them. -/
theorem imageCommands_wait (undisturbed : C.Undisturbed) (isImage : C.images[i]? = some o) :
    WaitsBehind {t | t ∈ (C.known i).map Command.tag} (C.imageCommands i o (C.known i)) := by
  have evt := pending_known C.launched i
  have copies : WaitsBehind {t | t ∈ (C.known i).map Command.tag} (C.copyImage i o) := by
    refine waitsBehind_append (waitsBehind_of_forall fun c mem t wait => ?_)
      ⟨fun t wait => ?_, trivial⟩
    · obtain ⟨w, -, rfl⟩ := List.mem_map.mp mem
      rw [List.mem_singleton.mp wait]
      exact evt
    · refine Or.inr ?_
      rw [Set.mem_ofPred, copyTransfers_tags undisturbed isImage]
      exact wait
  have copied : .copyFinish i ∈ (C.copyImage i o).map Command.tag := by
    rw [copyImage, List.map_append]
    exact List.mem_append_right _ (List.mem_singleton_self _)
  rw [imageCommands]
  refine waitsBehind_append (waitsBehind_append copies ?_) ?_
  · rw [mendThisCanary]
    split_ifs
    · trivial
    · refine waitsBehind_append (waitsBehind_of_forall fun c mem t wait => ?_)
        ⟨fun t wait => ?_, trivial⟩
      · obtain ⟨n, w, -, rfl⟩ := mem_mendWrites_iff.mp mem
        rw [List.mem_singleton.mp wait]
        exact Or.inr copied
      · have before := mem_onQueue wait
        rw [List.map_append, List.map_append] at before
        rcases List.mem_append.mp before with mem | mem
        · exact Or.inl ((List.mem_append.mp mem).imp id id)
        · exact Or.inr mem
  · split_ifs with single
    · refine ⟨fun t wait => ?_, trivial⟩
      rcases List.mem_cons.mp wait with rfl | wait
      · refine Or.inl ?_
        rw [Set.mem_ofPred, known_eq, if_pos single]
        simp [fillCommand]
      · refine Or.inr ?_
        rw [Set.mem_ofPred, List.map_append]
        rw [List.mem_singleton.mp wait]
        split_ifs with keeps
        · exact List.mem_append_left _ copied
        · refine List.mem_append_right _ ?_
          rw [mendThisCanary, if_neg keeps, List.map_append]
          exact List.mem_append_right _ (List.mem_singleton_self _)
    · trivial

/-- So do those for all images. -/
theorem images_wait (undisturbed : C.Undisturbed) (n : Nat) :
    WaitsBehind {t | t ∈ (C.known 0).map Command.tag} ((List.range n).flatMap fun i =>
      C.images[i]?.elim [] fun o => C.imageCommands i o (C.known i)) := by
  induction n with
  | zero => trivial
  | succ n ih =>
      rw [List.range_succ, List.flatMap_append, List.flatMap_singleton]
      refine waitsBehind_append ih ?_
      cases isImage : C.images[n]? with
      | none => trivial
      | some o =>
          refine (imageCommands_wait undisturbed isImage).mono fun t mem => ?_
          rw [Set.mem_ofPred, known_eq, List.map_append] at mem
          exact List.mem_append.mp mem

/-- What the last commands wait for is there. -/
theorem mem_known_of_image {c : Command ImageTag ImageMemory} (isImage : C.images[i]? = some o)
    (mem : c ∈ C.imageCommands i o (C.known i)) :
    c.tag ∈ (C.known C.numImages).map Command.tag := by
  rw [known_eq, List.map_append]
  exact List.mem_append_right _ (List.mem_map_of_mem (mem_perImage_iff.mpr ⟨i, o, isImage, mem⟩))

theorem image_of_lt (iLt : i < C.numImages) : ∃ o, C.images[i]? = some o :=
  ⟨_, List.getElem?_eq_getElem iLt⟩

theorem orderly_script (undisturbed : C.Undisturbed) : Orderly C.script := by
  by_cases some' : C.images = []
  · rw [script, verifyClImages, if_pos some', enqueues_nil, List.append_nil]
    exact C.orderly
  refine orderly_append C.orderly ?_ (distinct_script undisturbed)
  have known0 : {t | t ∈ (C.known 0).map Command.tag} = {t | t ∈ C.pending.map Command.tag} ∪
      {t | t ∈ (if C.single then [C.fillCommand] else []).map Command.tag} := by
    ext t
    rw [known, List.map_append]
    exact List.mem_append
  have blocks : WaitsBehind {t | t ∈ C.pending.map Command.tag}
      ((if C.single then [C.fillCommand] else []) ++
        C.perImage fun i o => C.imageCommands i o (C.known i)) := by
    refine waitsBehind_append (waitsBehind_of_forall fun c mem t wait => ?_) ?_
    · split_ifs at mem
      · rw [List.mem_singleton.mp mem] at wait
        contradiction
      · contradiction
    · rw [← known0]
      exact images_wait undisturbed C.numImages
  have knownAll : {t | t ∈ C.pending.map Command.tag} ∪ {t | t ∈ ((if C.single then
      [C.fillCommand] else []) ++ C.perImage fun i o =>
        C.imageCommands i o (C.known i)).map Command.tag} =
          {t | t ∈ (C.known C.numImages).map Command.tag} := by
    ext t
    rw [known_eq, List.append_assoc]
    simp only [List.map_append, Set.mem_union, Set.mem_ofPred, List.mem_append, perImage]
  have copied : ∀ j < C.numImages, .copyFinish j ∈ (C.known C.numImages).map Command.tag := by
    intro j jLt
    obtain ⟨o, isImage⟩ := image_of_lt jLt
    exact mem_known_of_image isImage (mem_imageCommands_iff.mpr (Or.inr (Or.inl rfl)))
  rw [enqueues_verifyClImages some', List.append_assoc]
  refine waitsBehind_append blocks ?_
  rw [knownAll]
  cases strategy : C.single with
  | true =>
      refine ⟨fun t wait => ?_, trivial⟩
      rw [readCommand, strategy] at wait
      obtain ⟨j, jMem, rfl⟩ := List.mem_map.mp wait
      obtain ⟨o, isImage⟩ := image_of_lt (List.mem_range.mp jMem)
      exact mem_known_of_image isImage
        (mem_imageCommands_iff.mpr (Or.inr (Or.inr (Or.inr ⟨strategy, rfl⟩))))
  | false =>
      refine ⟨fun t wait => absurd wait List.not_mem_nil, fun t wait => ?_, fun t wait => ?_,
        fun t wait => ?_, fun t wait => ?_, trivial⟩
      · rcases List.mem_append.mp wait with mem | mem
        · obtain ⟨j, jMem, rfl⟩ := List.mem_map.mp mem
          exact Or.inr (copied j (List.mem_range.mp jMem))
        · rw [List.mem_singleton.mp mem]
          exact Or.inl rfl
      · rw [mendMarker] at wait
        dsimp only at wait
        split_ifs at wait with keeps
        · contradiction
        · obtain ⟨j, jMem, rfl⟩ := List.mem_map.mp wait
          obtain ⟨o, isImage⟩ := image_of_lt (List.mem_range.mp jMem)
          have mends := Bool.eq_false_of_not_eq_true keeps
          exact Or.inr (Or.inr (mem_known_of_image isImage (mem_imageCommands_iff.mpr
            (Or.inr (Or.inr (Or.inl ⟨mends, Or.inr rfl⟩))))))
      · rcases List.mem_cons.mp wait with rfl | wait
        · exact Or.inl rfl
        · rw [List.mem_singleton.mp wait]
          exact Or.inr (Or.inl rfl)
      · rw [readCommand, strategy] at wait
        rw [List.mem_singleton.mp wait]
        exact Or.inl rfl

/-- The host waits for the read, which it has enqueued. -/
theorem supplied_verifyClImages : Supplied C.pending C.verifyClImages := by
  have waiting : ∀ start : List (Command ImageTag ImageMemory),
      Supplied start (.enqueue C.readCommand :: if C.nvidia then [.waitFor [.read]] else []) := by
    intro start
    have first : Supplied start [HostOp.enqueue C.readCommand] := supplied_of_forall
      fun tags mem => by simp at mem
    have second : Supplied (start ++ enqueues [HostOp.enqueue C.readCommand])
        (if C.nvidia then [.waitFor [.read]] else []) := by
      split_ifs
      · refine supplied_waitFor fun t mem => ?_
        rw [List.mem_singleton.mp mem, enqueues_enqueue]
        simp [readCommand]
      · exact supplied_of_forall fun tags => List.not_mem_nil
    exact supplied_append first second
  rw [verifyClImages]
  by_cases none : C.images = []
  · rw [if_pos none]
    exact supplied_of_forall fun tags => List.not_mem_nil
  · rw [if_neg none]
    refine supplied_append (supplied_of_forall fun tags mem => ?_) (waiting _)
    rw [List.mem_append, List.mem_append, mem_perImage_iff, afterImages] at mem
    rcases mem with (mem | ⟨i, o, -, mem⟩) | mem
    · simp at mem
    · cases both : C.single && C.checkerTime <;> simp [both] at mem
    · cases strategy : C.single <;> cases C.checkerTime <;> simp [strategy] at mem

theorem lawful (undisturbed : C.Undisturbed) {memory : ImageMemory}
    {m : Machine ImageTag ImageMemory}
    (runs : Runs C.inOrder (begin memory C.pending C.verifyClImages) m) :
    Lawful C.inOrder C.pending C.verifyClImages m :=
  (lawful_begin C.inOrder memory C.pending C.verifyClImages).of_runs (distinct_script undisturbed)
    runs

end ImageCheck

end Clarmor
