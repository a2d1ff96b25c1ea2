import Clarmor.Api.Images

/-!
# Copies between images and buffers

A copy checks the box of pixels against the image, and against the buffer a
rectangle whose pitches are counted in bytes.  The region of the rectangle is
that of the image, so the end in the buffer is computed in pixels.
-/

namespace Clarmor

open Word

/-- What the runtime tells of the device of a command queue. -/
inductive QueueDevice where
  | invalidQueue
  | invalidDevice
  | device (imageSupport : Bool)
deriving DecidableEq, Repr

/-- The copies that reach the runtime. -/
inductive RealImageCopy where
  | imageToBuffer (srcImage dstBuffer : Handle) (srcOrigin region : Triple) (dstOffset : Nat)
  | bufferToImage (srcBuffer dstImage : Handle) (srcOffset : Nat) (dstOrigin region : Triple)
deriving DecidableEq, Repr

/-- How a copy ends: with an error of its own, without a call, or in the runtime. -/
inductive CopyOutcome where
  | invalidCommandQueue
  | invalidDevice
  | invalidOperation
  | skipped
  | forwarded (call : RealImageCopy)
deriving DecidableEq, Repr

/-- The queries before a copy. -/
def QueueDevice.guard (queue : QueueDevice) (copy : CopyOutcome) : CopyOutcome :=
  match queue with
  | .invalidQueue => .invalidCommandQueue
  | .invalidDevice => .invalidDevice
  | .device imageSupport => if imageSupport then copy else .invalidOperation

section Enqueue

variable (mode : ApiMode) (w : Wrapper) (queue : QueueDevice)

/-- `clEnqueueCopyImageToBuffer`. -/
def clEnqueueCopyImageToBuffer (srcImage dstBuffer : Handle) (srcOrigin region : Triple)
    (dstOffset : Nat) : CopyOutcome :=
  queue.guard <|
    let call := CopyOutcome.forwarded (.imageToBuffer srcImage dstBuffer srcOrigin region dstOffset)
    match w.table.find srcImage with
    | none => call
    | some m1 =>
        let rowPitch := u64 (region.x * getImageDataSize m1.imageFormat)
        let slicePitch := u64 (region.y * rowPitch)
        if (apiImageOverflowCheck mode w srcImage srcOrigin region).isNone &&
            (apiBufferRectOverflowCheck mode w dstBuffer ⟨dstOffset, 0, 0⟩ region rowPitch
              slicePitch).isNone then call
        else .skipped

/-- `clEnqueueCopyBufferToImage`; the checks are made in the other order. -/
def clEnqueueCopyBufferToImage (srcBuffer dstImage : Handle) (srcOffset : Nat)
    (dstOrigin region : Triple) : CopyOutcome :=
  queue.guard <|
    let call := CopyOutcome.forwarded (.bufferToImage srcBuffer dstImage srcOffset dstOrigin region)
    match w.table.find dstImage with
    | none => call
    | some m1 =>
        let rowPitch := u64 (region.x * getImageDataSize m1.imageFormat)
        let slicePitch := u64 (region.y * rowPitch)
        if (apiBufferRectOverflowCheck mode w srcBuffer ⟨srcOffset, 0, 0⟩ region rowPitch
              slicePitch).isNone &&
            (apiImageOverflowCheck mode w dstImage dstOrigin region).isNone then call
        else .skipped

end Enqueue

/-- The pixels of a region. -/
def Triple.pixels (region : Triple) : Nat := region.x * region.y * region.z

/-- A copy with pixels of `d` bytes lies in the visible image and in a buffer of
size `s`. -/
def CopyInside (box : Box) (s d offset : Nat) (origin region : Triple) : Prop :=
  TransferInside box origin region ∧ offset + region.pixels * d ≤ s

/-- Both copies are forwarded exactly when they lie inside. -/
structure CopiesExact (mode : ApiMode) (w : Wrapper) (queue : QueueDevice) (image buffer : Handle)
    (box : Box) (s d offset : Nat) (origin region : Triple) : Prop where
  toBuffer : clEnqueueCopyImageToBuffer mode w queue image buffer origin region offset =
      .forwarded (.imageToBuffer image buffer origin region offset) ↔
    CopyInside box s d offset origin region
  toImage : clEnqueueCopyBufferToImage mode w queue buffer image offset origin region =
      .forwarded (.bufferToImage buffer image offset origin region) ↔
    CopyInside box s d offset origin region

/-- A copy inside is refused: the device has no images, or pixels without bytes
are counted. -/
def WronglyRefused (queue : QueueDevice) (s d offset : Nat) (region : Triple) : Prop :=
  queue ≠ .device true ∨ (d = 0 ∧ s < u64 (offset + region.pixels))

/-- Neither check reports a copy: its pixels would fit as bytes, and what leaves
the image is missed. -/
def PassesChecks (queue : QueueDevice) (axes : List TransferAxis) (s offset : Nat)
    (region : Triple) : Prop :=
  queue = .device true ∧ u64 (offset + region.pixels) ≤ s ∧ ∀ a ∈ axes, a.Outside → a.Missed

/-- The checks judge a copy rightly. -/
structure CopyJudged (queue : QueueDevice) (box : Box) (axes : List TransferAxis)
    (s d offset : Nat) (origin region : Triple) : Prop where
  inside : CopyInside box s d offset origin region → ¬ WronglyRefused queue s d offset region
  outside : ¬ CopyInside box s d offset origin region → ¬ PassesChecks queue axes s offset region

section

variable {mode : ApiMode} {w : Wrapper} {queue : QueueDevice} {image buffer : Handle}
  {m1 m2 : MemObj} {desc : ImageDesc} {origin region : Triple} {offset : Nat}

/-- The copies are forwarded when neither check reports. -/
theorem guard_eq_forwarded_iff {copy : CopyOutcome} {call : RealImageCopy} :
    queue.guard copy = .forwarded call ↔ queue = .device true ∧ copy = .forwarded call := by
  cases queue with
  | invalidQueue => simp [QueueDevice.guard]
  | invalidDevice => simp [QueueDevice.guard]
  | device imageSupport => cases imageSupport <;> simp [QueueDevice.guard]

/-- The rectangle check of a copy compares the end in pixels. -/
theorem apiBufferRectOverflowCheck_copy {rowPitch slicePitch : Nat}
    (enabled : mode.disableApiCheck = false) (tracked : w.table.find buffer = some m2) :
    (apiBufferRectOverflowCheck mode w buffer ⟨offset, 0, 0⟩ region rowPitch slicePitch).isNone ↔
      u64 (offset + region.pixels) ≤ m2.size := by
  rw [← Option.not_isSome, Bool.not_eq_true', ← Bool.not_eq_true,
    apiBufferRectOverflowCheck_isSome enabled tracked, gaplessEnd, rectStart, Triple.pixels]
  simp only [Nat.zero_mul, Nat.add_zero, not_lt]
  rw [Nat.add_comm]

/-- The image check of a copy lets through what is not caught. -/
theorem apiImageOverflowCheck_copy (enabled : mode.disableApiCheck = false)
    (tracked : w.table.find image = some m1) (stored : StoredImage m1 desc)
    (sizes : desc.ExtentsSizeT) (starts : SizeT origin.x ∧ SizeT origin.y ∧ SizeT origin.z)
    (lengths : SizeT region.x ∧ SizeT region.y ∧ SizeT region.z) :
    (apiImageOverflowCheck mode w image origin region).isNone ↔
      ∀ a ∈ transferAxes mode m1 desc origin region, a.Outside → a.Missed := by
  have proper := transferAxes_proper mode stored sizes starts lengths
  rw [← Option.not_isSome, Bool.not_eq_true', ← Bool.not_eq_true,
    apiImageOverflowCheck_isSome enabled tracked stored sizes]
  constructor
  · intro uncaught a mem outside
    by_contra noticed
    exact uncaught ⟨a, mem, (TransferAxis.caught_iff (proper a mem)).mpr ⟨outside, noticed⟩⟩
  · rintro missed ⟨a, mem, caught⟩
    obtain ⟨outside, noticed⟩ := (TransferAxis.caught_iff (proper a mem)).mp caught
    exact noticed (missed a mem outside)

/-- When the copy of an image is forwarded. -/
theorem clEnqueueCopyImageToBuffer_forwarded_iff (enabled : mode.disableApiCheck = false)
    (tracked : w.table.find image = some m1) (stored : StoredImage m1 desc)
    (sizes : desc.ExtentsSizeT) (starts : SizeT origin.x ∧ SizeT origin.y ∧ SizeT origin.z)
    (lengths : SizeT region.x ∧ SizeT region.y ∧ SizeT region.z)
    (bufferTracked : w.table.find buffer = some m2) :
    clEnqueueCopyImageToBuffer mode w queue image buffer origin region offset =
        .forwarded (.imageToBuffer image buffer origin region offset) ↔
      PassesChecks queue (transferAxes mode m1 desc origin region) m2.size offset region := by
  rw [clEnqueueCopyImageToBuffer, guard_eq_forwarded_iff, PassesChecks]
  simp only [tracked]
  split_ifs with passed <;>
    rw [Bool.and_eq_true, apiImageOverflowCheck_copy enabled tracked stored sizes starts lengths,
      apiBufferRectOverflowCheck_copy enabled bufferTracked] at passed
  · exact and_congr_right fun _ => iff_of_true rfl ⟨passed.2, passed.1⟩
  · refine and_congr_right fun _ => iff_of_false (by rintro ⟨⟩) ?_
    rintro ⟨fits, inside⟩
    exact passed ⟨inside, fits⟩

/-- When the copy into an image is forwarded. -/
theorem clEnqueueCopyBufferToImage_forwarded_iff (enabled : mode.disableApiCheck = false)
    (tracked : w.table.find image = some m1) (stored : StoredImage m1 desc)
    (sizes : desc.ExtentsSizeT) (starts : SizeT origin.x ∧ SizeT origin.y ∧ SizeT origin.z)
    (lengths : SizeT region.x ∧ SizeT region.y ∧ SizeT region.z)
    (bufferTracked : w.table.find buffer = some m2) :
    clEnqueueCopyBufferToImage mode w queue buffer image offset origin region =
        .forwarded (.bufferToImage buffer image offset origin region) ↔
      PassesChecks queue (transferAxes mode m1 desc origin region) m2.size offset region := by
  rw [clEnqueueCopyBufferToImage, guard_eq_forwarded_iff, PassesChecks]
  simp only [tracked]
  split_ifs with passed <;>
    rw [Bool.and_eq_true, apiBufferRectOverflowCheck_copy enabled bufferTracked,
      apiImageOverflowCheck_copy enabled tracked stored sizes starts lengths] at passed
  · exact and_congr_right fun _ => iff_of_true rfl ⟨passed.1, passed.2⟩
  · refine and_congr_right fun _ => iff_of_false (by rintro ⟨⟩) ?_
    rintro ⟨fits, inside⟩
    exact passed ⟨fits, inside⟩

/-- A copy inside passes the checks unless it is wrongly refused. -/
theorem passesChecks_iff_of_inside {s d : Nat} (sizeLt : SizeT s)
    (inside : CopyInside (visibleBox mode m1 desc) s d offset origin region) :
    PassesChecks queue (transferAxes mode m1 desc origin region) s offset region ↔
      ¬ WronglyRefused queue s d offset region := by
  obtain ⟨image, fits⟩ := inside
  have within : ∀ a ∈ transferAxes mode m1 desc origin region, a.Outside → a.Missed :=
    fun a mem outside => absurd image (not_transferInside_iff.mpr ⟨a, mem, outside⟩)
  have counted : ¬ d = 0 → u64 (offset + region.pixels) ≤ s := by
    intro bytes
    have less : offset + region.pixels ≤ s := by
      have scaled := Nat.le_mul_of_pos_right region.pixels (Nat.pos_of_ne_zero bytes)
      omega
    rwa [u64_of_lt (less.trans_lt sizeLt)]
  rw [PassesChecks, WronglyRefused]
  constructor
  · rintro ⟨supported, fitsPixels, -⟩ (unsupported | ⟨-, exceeds⟩)
    · exact unsupported supported
    · exact absurd fitsPixels exceeds.not_ge
  · intro accepted
    rw [not_or, not_not] at accepted
    obtain ⟨supported, notCounted⟩ := accepted
    refine ⟨supported, ?_, within⟩
    by_contra exceeds
    exact notCounted ⟨by_contra fun bytes => exceeds (counted bytes), not_le.mp exceeds⟩

/-- The copies between an image and a buffer are bounded in bytes exactly where a
copy inside is not wrongly refused, and one that is not inside does not pass the
checks. -/
theorem image_buffer_copies_exact_iff (d : Nat) (enabled : mode.disableApiCheck = false)
    (tracked : w.table.find image = some m1) (stored : StoredImage m1 desc)
    (sizes : desc.ExtentsSizeT) (starts : SizeT origin.x ∧ SizeT origin.y ∧ SizeT origin.z)
    (lengths : SizeT region.x ∧ SizeT region.y ∧ SizeT region.z)
    (bufferTracked : w.table.find buffer = some m2) (bufferSize : SizeT m2.size) :
    CopiesExact mode w queue image buffer (visibleBox mode m1 desc) m2.size d offset origin
        region ↔
      CopyJudged queue (visibleBox mode m1 desc) (transferAxes mode m1 desc origin region) m2.size
        d offset origin region := by
  have toBuffer := @clEnqueueCopyImageToBuffer_forwarded_iff mode w queue image buffer m1 m2 desc
    origin region offset enabled tracked stored sizes starts lengths bufferTracked
  have toImage := @clEnqueueCopyBufferToImage_forwarded_iff mode w queue image buffer m1 m2 desc
    origin region offset enabled tracked stored sizes starts lengths bufferTracked
  constructor
  · intro exact
    have passes := toBuffer.symm.trans exact.toBuffer
    constructor
    case inside =>
      intro inside
      exact (passesChecks_iff_of_inside bufferSize inside).mp (passes.mpr inside)
    case outside => exact fun leaves passed => leaves (passes.mp passed)
  · intro judged
    have passes : PassesChecks queue (transferAxes mode m1 desc origin region) m2.size offset
        region ↔ CopyInside (visibleBox mode m1 desc) m2.size d offset origin region := by
      constructor
      · exact fun passed => by_contra fun leaves => judged.outside leaves passed
      · exact fun inside =>
          (passesChecks_iff_of_inside bufferSize inside).mpr (judged.inside inside)
    exact ⟨toBuffer.trans passes, toImage.trans passes⟩

end

/-- An image of sixteen pixels of four bytes, with its canaries. -/
def rgbaSquare : MemObj := { expandedSquare with imageFormat := ⟨.rgba, .unormInt8⟩ }

theorem storedImage_rgbaSquare : StoredImage rgbaSquare ⟨.image2D, 4, 4, 1, 1, 0, 0, 0, 0, NULL⟩ :=
  ⟨rfl, rfl, rfl⟩

/-- A process that tracks this image and a buffer of `s` bytes. -/
def squareAndBuffer (s : Nat) : Wrapper :=
  { Wrapper.initial (fun _ => 0) false with
    table := (Table.insert Table.empty 1 rgbaSquare).insert 2 { handle := 2, size := s } }

theorem find_square (s : Nat) : (squareAndBuffer s).table.find 1 = some rgbaSquare :=
  (Table.find_insert_of_ne (by decide)).trans (Table.find_insert_fresh rfl)

theorem find_squareBuffer (s : Nat) :
    (squareAndBuffer s).table.find 2 = some { handle := 2, size := s } :=
  Table.find_insert_fresh rfl

/-- Four pixels of it and sixteen bytes. -/
theorem image_buffer_copies_exact_square :
    CopiesExact ⟨false, false⟩ (squareAndBuffer 16) (.device true) 1 2
        (visibleBox ⟨false, false⟩ rgbaSquare ⟨.image2D, 4, 4, 1, 1, 0, 0, 0, 0, NULL⟩) 16 4 0
        ⟨1, 1, 0⟩ ⟨2, 2, 1⟩ ↔
      CopyJudged (.device true)
        (visibleBox ⟨false, false⟩ rgbaSquare ⟨.image2D, 4, 4, 1, 1, 0, 0, 0, 0, NULL⟩)
        (transferAxes ⟨false, false⟩ rgbaSquare ⟨.image2D, 4, 4, 1, 1, 0, 0, 0, 0, NULL⟩
          ⟨1, 1, 0⟩ ⟨2, 2, 1⟩) 16 4 0 ⟨1, 1, 0⟩ ⟨2, 2, 1⟩ := by
  refine image_buffer_copies_exact_iff 4 rfl (find_square 16) storedImage_rgbaSquare ?_ ?_ ?_
    (find_squareBuffer 16) ?_
  · constructor <;> unfold SizeT <;> decide
  · unfold SizeT
    decide
  · unfold SizeT
    decide
  · unfold SizeT
    decide

/-- The whole image, 64 bytes, is copied into a buffer of 16 bytes. -/
theorem image_buffer_copy_counts_pixels :
    clEnqueueCopyImageToBuffer ⟨false, false⟩ (squareAndBuffer 16) (.device true) 1 2 ⟨0, 0, 0⟩
        ⟨4, 4, 1⟩ 0 = .forwarded (.imageToBuffer 1 2 ⟨0, 0, 0⟩ ⟨4, 4, 1⟩ 0) ∧
      getImageDataSize rgbaSquare.imageFormat = 4 ∧
      ¬ CopiesExact ⟨false, false⟩ (squareAndBuffer 16) (.device true) 1 2
        (visibleBox ⟨false, false⟩ rgbaSquare ⟨.image2D, 4, 4, 1, 1, 0, 0, 0, 0, NULL⟩) 16 4 0
        ⟨0, 0, 0⟩ ⟨4, 4, 1⟩ := by
  refine ⟨by decide, by decide, fun exact => ?_⟩
  have inside := exact.toBuffer.mp (by decide)
  exact absurd inside.2 (by decide)

end Clarmor
