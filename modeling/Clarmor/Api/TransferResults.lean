import Clarmor.Api.ImageBufferCopies

/-!
# What the intercepted transfers report

All wrappers of transfers start with the result `CL_SUCCESS` and replace it by the
answer of the real function, which they call when no check reports.  A transfer
that is held back is therefore reported as done, and nobody writes its event.
-/

namespace Clarmor

open Word

/-- `CL_SUCCESS`. -/
def CL_SUCCESS : Int := 0

/-- `CL_INVALID_DEVICE`. -/
def CL_INVALID_DEVICE : Int := -33

/-- `CL_INVALID_COMMAND_QUEUE`. -/
def CL_INVALID_COMMAND_QUEUE : Int := -36

/-- `CL_INVALID_OPERATION`. -/
def CL_INVALID_OPERATION : Int := -59

/-- The transfers with the arguments that are their own. -/
inductive EnqueueTransfer where
  | readBuffer (buffer : Handle) (blockingRead : Bool) (offset size ptr : Nat)
  | readBufferRect (buffer : Handle) (blockingRead : Bool) (bufferOffset hostOffset region : Triple)
      (bufferRowPitch bufferSlicePitch hostRowPitch hostSlicePitch ptr : Nat)
  | writeBuffer (buffer : Handle) (blockingWrite : Bool) (offset size ptr : Nat)
  | writeBufferRect (buffer : Handle) (blockingWrite : Bool)
      (bufferOffset hostOffset region : Triple)
      (bufferRowPitch bufferSlicePitch hostRowPitch hostSlicePitch ptr : Nat)
  | fillBuffer (buffer : Handle) (pattern : List UInt8) (offset size : Nat)
  | copyBuffer (srcBuffer dstBuffer : Handle) (srcOffset dstOffset size : Nat)
  | copyBufferRect (srcBuffer dstBuffer : Handle) (srcOrigin dstOrigin region : Triple)
      (srcRowPitch srcSlicePitch dstRowPitch dstSlicePitch : Nat)
  | readImage (image : Handle) (blockingRead : Bool) (origin region : Triple)
      (rowPitch slicePitch ptr : Nat)
  | writeImage (image : Handle) (blockingWrite : Bool) (origin region : Triple)
      (inputRowPitch inputSlicePitch ptr : Nat)
  | fillImage (image : Handle) (fillColor : List UInt8) (origin region : Triple)
  | copyImage (srcImage dstImage : Handle) (srcOrigin dstOrigin region : Triple)
  | copyImageToBuffer (srcImage dstBuffer : Handle) (srcOrigin region : Triple) (dstOffset : Nat)
  | copyBufferToImage (srcBuffer dstImage : Handle) (srcOffset : Nat) (dstOrigin region : Triple)
deriving DecidableEq, Repr

/-- A transfer reads, writes, fills or copies an image. -/
def EnqueueTransfer.ofImage : EnqueueTransfer → Bool
  | .readImage .. | .writeImage .. | .fillImage .. | .copyImage .. | .copyImageToBuffer ..
  | .copyBufferToImage .. => true
  | _ => false

/-- A transfer on a command queue, with its wait list and the pointer for its event. -/
structure EnqueueCall where
  commandQueue : Handle
  transfer : EnqueueTransfer
  eventList : List Handle
  event : Nat
deriving DecidableEq, Repr

/-- The real functions.  A call that succeeds enqueues its command and writes its
event where one is asked for. -/
structure TransferRuntime where
  /-- The real function of a transfer was found. -/
  found : EnqueueTransfer → Bool
  /-- What `clGetCommandQueueInfo` and `clGetDeviceInfo` tell of a queue. -/
  queueDevice : Handle → QueueDevice
  /-- The status of a real call, and what it writes to the event. -/
  enqueue : EnqueueCall → Int × Option Handle
  writes : ∀ call, (enqueue call).1 = CL_SUCCESS → call.event ≠ NULL →
    (enqueue call).2.isSome

/-- What a wrapper returns, the real call that it made, and what was written to the
event. -/
structure TransferResult where
  err : Int
  real : Option EnqueueCall
  event : Option Handle
deriving DecidableEq, Repr

/-- What the wrappers depend on. -/
structure TransferEnv where
  mode : ApiMode
  w : Wrapper
  rt : TransferRuntime

/-- The error of a wrapper whose queue has no device with images. -/
def QueueDevice.refusal : QueueDevice → Option Int
  | .invalidQueue => some CL_INVALID_COMMAND_QUEUE
  | .invalidDevice => some CL_INVALID_DEVICE
  | .device imageSupport => if imageSupport then none else some CL_INVALID_OPERATION

namespace TransferEnv

/-- The common course of the wrappers: a refusal, or the real call when it `passes`. -/
def intercept (env : TransferEnv) (call : EnqueueCall) (refusal : Option Int) (passes : Bool) :
    TransferResult :=
  if env.rt.found call.transfer then
    match refusal with
    | some err => ⟨err, none, none⟩
    | none =>
        if passes then ⟨(env.rt.enqueue call).1, some call, (env.rt.enqueue call).2⟩
        else ⟨CL_SUCCESS, none, none⟩
  else ⟨CL_SUCCESS, none, none⟩

section Wrappers

variable (env : TransferEnv) (commandQueue : Handle) (eventList : List Handle) (event : Nat)

/-- `clEnqueueReadBuffer`. -/
def clEnqueueReadBuffer (buffer : Handle) (blockingRead : Bool) (offset size ptr : Nat) :
    TransferResult :=
  env.intercept
    ⟨commandQueue, .readBuffer buffer blockingRead offset size ptr, eventList, event⟩
    none (apiBufferOverflowCheck env.mode env.w buffer offset size).isNone

/-- `clEnqueueReadBufferRect`. -/
def clEnqueueReadBufferRect (buffer : Handle) (blockingRead : Bool)
    (bufferOffset hostOffset region : Triple)
    (bufferRowPitch bufferSlicePitch hostRowPitch hostSlicePitch ptr : Nat) : TransferResult :=
  env.intercept ⟨commandQueue, .readBufferRect buffer blockingRead bufferOffset hostOffset region
      bufferRowPitch bufferSlicePitch hostRowPitch hostSlicePitch ptr, eventList, event⟩
    none (apiBufferRectOverflowCheck env.mode env.w buffer bufferOffset region bufferRowPitch
      bufferSlicePitch).isNone

/-- `clEnqueueWriteBuffer`. -/
def clEnqueueWriteBuffer (buffer : Handle) (blockingWrite : Bool) (offset size ptr : Nat) :
    TransferResult :=
  env.intercept
    ⟨commandQueue, .writeBuffer buffer blockingWrite offset size ptr, eventList, event⟩
    none (apiBufferOverflowCheck env.mode env.w buffer offset size).isNone

/-- `clEnqueueWriteBufferRect`. -/
def clEnqueueWriteBufferRect (buffer : Handle) (blockingWrite : Bool)
    (bufferOffset hostOffset region : Triple)
    (bufferRowPitch bufferSlicePitch hostRowPitch hostSlicePitch ptr : Nat) : TransferResult :=
  env.intercept ⟨commandQueue, .writeBufferRect buffer blockingWrite bufferOffset hostOffset
      region bufferRowPitch bufferSlicePitch hostRowPitch hostSlicePitch ptr, eventList, event⟩
    none (apiBufferRectOverflowCheck env.mode env.w buffer bufferOffset region bufferRowPitch
      bufferSlicePitch).isNone

/-- `clEnqueueFillBuffer`. -/
def clEnqueueFillBuffer (buffer : Handle) (pattern : List UInt8) (offset size : Nat) :
    TransferResult :=
  env.intercept ⟨commandQueue, .fillBuffer buffer pattern offset size, eventList, event⟩
    none (apiBufferOverflowCheck env.mode env.w buffer offset size).isNone

/-- `clEnqueueCopyBuffer`. -/
def clEnqueueCopyBuffer (srcBuffer dstBuffer : Handle) (srcOffset dstOffset size : Nat) :
    TransferResult :=
  env.intercept
    ⟨commandQueue, .copyBuffer srcBuffer dstBuffer srcOffset dstOffset size, eventList, event⟩
    none ((apiBufferOverflowCheck env.mode env.w srcBuffer srcOffset size).isNone &&
      (apiBufferOverflowCheck env.mode env.w dstBuffer dstOffset size).isNone)

/-- `clEnqueueCopyBufferRect`. -/
def clEnqueueCopyBufferRect (srcBuffer dstBuffer : Handle) (srcOrigin dstOrigin region : Triple)
    (srcRowPitch srcSlicePitch dstRowPitch dstSlicePitch : Nat) : TransferResult :=
  env.intercept ⟨commandQueue, .copyBufferRect srcBuffer dstBuffer srcOrigin dstOrigin region
      srcRowPitch srcSlicePitch dstRowPitch dstSlicePitch, eventList, event⟩
    none ((apiBufferRectOverflowCheck env.mode env.w srcBuffer srcOrigin region srcRowPitch
        srcSlicePitch).isNone &&
      (apiBufferRectOverflowCheck env.mode env.w dstBuffer dstOrigin region dstRowPitch
        dstSlicePitch).isNone)

/-- `clEnqueueReadImage`. -/
def clEnqueueReadImage (image : Handle) (blockingRead : Bool) (origin region : Triple)
    (rowPitch slicePitch ptr : Nat) : TransferResult :=
  env.intercept ⟨commandQueue, .readImage image blockingRead origin region rowPitch slicePitch
      ptr, eventList, event⟩
    (env.rt.queueDevice commandQueue).refusal
    (apiImageOverflowCheck env.mode env.w image origin region).isNone

/-- `clEnqueueWriteImage`. -/
def clEnqueueWriteImage (image : Handle) (blockingWrite : Bool) (origin region : Triple)
    (inputRowPitch inputSlicePitch ptr : Nat) : TransferResult :=
  env.intercept ⟨commandQueue, .writeImage image blockingWrite origin region inputRowPitch
      inputSlicePitch ptr, eventList, event⟩
    (env.rt.queueDevice commandQueue).refusal
    (apiImageOverflowCheck env.mode env.w image origin region).isNone

/-- `clEnqueueFillImage`. -/
def clEnqueueFillImage (image : Handle) (fillColor : List UInt8) (origin region : Triple) :
    TransferResult :=
  env.intercept ⟨commandQueue, .fillImage image fillColor origin region, eventList, event⟩
    (env.rt.queueDevice commandQueue).refusal
    (apiImageOverflowCheck env.mode env.w image origin region).isNone

/-- `clEnqueueCopyImage`. -/
def clEnqueueCopyImage (srcImage dstImage : Handle) (srcOrigin dstOrigin region : Triple) :
    TransferResult :=
  env.intercept
    ⟨commandQueue, .copyImage srcImage dstImage srcOrigin dstOrigin region, eventList, event⟩
    (env.rt.queueDevice commandQueue).refusal
    ((apiImageOverflowCheck env.mode env.w srcImage srcOrigin region).isNone &&
      (apiImageOverflowCheck env.mode env.w dstImage dstOrigin region).isNone)

/-- `run_real_call` of the copies between an image and a buffer; an image that is
not known is not checked. -/
def runRealCall (image buffer : Handle) (origin region : Triple) (offset : Nat) : Bool :=
  match env.w.table.find image with
  | none => true
  | some m1 =>
      let rowPitch := u64 (region.x * getImageDataSize m1.imageFormat)
      let slicePitch := u64 (region.y * rowPitch)
      (apiImageOverflowCheck env.mode env.w image origin region).isNone &&
        (apiBufferRectOverflowCheck env.mode env.w buffer ⟨offset, 0, 0⟩ region rowPitch
          slicePitch).isNone

/-- `clEnqueueCopyImageToBuffer`. -/
def clEnqueueCopyImageToBuffer (srcImage dstBuffer : Handle) (srcOrigin region : Triple)
    (dstOffset : Nat) : TransferResult :=
  env.intercept
    ⟨commandQueue, .copyImageToBuffer srcImage dstBuffer srcOrigin region dstOffset, eventList,
      event⟩
    (env.rt.queueDevice commandQueue).refusal
    (env.runRealCall srcImage dstBuffer srcOrigin region dstOffset)

/-- `clEnqueueCopyBufferToImage`. -/
def clEnqueueCopyBufferToImage (srcBuffer dstImage : Handle) (srcOffset : Nat)
    (dstOrigin region : Triple) : TransferResult :=
  env.intercept
    ⟨commandQueue, .copyBufferToImage srcBuffer dstImage srcOffset dstOrigin region, eventList,
      event⟩
    (env.rt.queueDevice commandQueue).refusal
    (env.runRealCall dstImage srcBuffer dstOrigin region srcOffset)

end Wrappers

/-- The wrapper of a transfer. -/
def run (env : TransferEnv) : EnqueueCall → TransferResult
  | ⟨queue, .readBuffer buffer blockingRead offset size ptr, eventList, event⟩ =>
      env.clEnqueueReadBuffer queue eventList event buffer blockingRead offset size ptr
  | ⟨queue, .readBufferRect buffer blockingRead bufferOffset hostOffset region bufferRowPitch
      bufferSlicePitch hostRowPitch hostSlicePitch ptr, eventList, event⟩ =>
      env.clEnqueueReadBufferRect queue eventList event buffer blockingRead bufferOffset hostOffset
        region bufferRowPitch bufferSlicePitch hostRowPitch hostSlicePitch ptr
  | ⟨queue, .writeBuffer buffer blockingWrite offset size ptr, eventList, event⟩ =>
      env.clEnqueueWriteBuffer queue eventList event buffer blockingWrite offset size ptr
  | ⟨queue, .writeBufferRect buffer blockingWrite bufferOffset hostOffset region bufferRowPitch
      bufferSlicePitch hostRowPitch hostSlicePitch ptr, eventList, event⟩ =>
      env.clEnqueueWriteBufferRect queue eventList event buffer blockingWrite bufferOffset
        hostOffset region bufferRowPitch bufferSlicePitch hostRowPitch hostSlicePitch ptr
  | ⟨queue, .fillBuffer buffer pattern offset size, eventList, event⟩ =>
      env.clEnqueueFillBuffer queue eventList event buffer pattern offset size
  | ⟨queue, .copyBuffer srcBuffer dstBuffer srcOffset dstOffset size, eventList, event⟩ =>
      env.clEnqueueCopyBuffer queue eventList event srcBuffer dstBuffer srcOffset dstOffset size
  | ⟨queue, .copyBufferRect srcBuffer dstBuffer srcOrigin dstOrigin region srcRowPitch
      srcSlicePitch dstRowPitch dstSlicePitch, eventList, event⟩ =>
      env.clEnqueueCopyBufferRect queue eventList event srcBuffer dstBuffer srcOrigin dstOrigin
        region srcRowPitch srcSlicePitch dstRowPitch dstSlicePitch
  | ⟨queue, .readImage image blockingRead origin region rowPitch slicePitch ptr, eventList,
      event⟩ =>
      env.clEnqueueReadImage queue eventList event image blockingRead origin region rowPitch
        slicePitch ptr
  | ⟨queue, .writeImage image blockingWrite origin region inputRowPitch inputSlicePitch ptr,
      eventList, event⟩ =>
      env.clEnqueueWriteImage queue eventList event image blockingWrite origin region inputRowPitch
        inputSlicePitch ptr
  | ⟨queue, .fillImage image fillColor origin region, eventList, event⟩ =>
      env.clEnqueueFillImage queue eventList event image fillColor origin region
  | ⟨queue, .copyImage srcImage dstImage srcOrigin dstOrigin region, eventList, event⟩ =>
      env.clEnqueueCopyImage queue eventList event srcImage dstImage srcOrigin dstOrigin region
  | ⟨queue, .copyImageToBuffer srcImage dstBuffer srcOrigin region dstOffset, eventList,
      event⟩ =>
      env.clEnqueueCopyImageToBuffer queue eventList event srcImage dstBuffer srcOrigin region
        dstOffset
  | ⟨queue, .copyBufferToImage srcBuffer dstImage srcOffset dstOrigin region, eventList,
      event⟩ =>
      env.clEnqueueCopyBufferToImage queue eventList event srcBuffer dstImage srcOffset dstOrigin
        region

/-- No check reports a transfer. -/
def Unreported (env : TransferEnv) : EnqueueTransfer → Prop
  | .readBuffer buffer _ offset size _
  | .writeBuffer buffer _ offset size _
  | .fillBuffer buffer _ offset size =>
      apiBufferOverflowCheck env.mode env.w buffer offset size = none
  | .readBufferRect buffer _ bufferOffset _ region rowPitch slicePitch _ _ _
  | .writeBufferRect buffer _ bufferOffset _ region rowPitch slicePitch _ _ _ =>
      apiBufferRectOverflowCheck env.mode env.w buffer bufferOffset region rowPitch slicePitch =
        none
  | .copyBuffer src dst srcOffset dstOffset size =>
      apiBufferOverflowCheck env.mode env.w src srcOffset size = none ∧
        apiBufferOverflowCheck env.mode env.w dst dstOffset size = none
  | .copyBufferRect src dst srcOrigin dstOrigin region srcRow srcSlice dstRow dstSlice =>
      apiBufferRectOverflowCheck env.mode env.w src srcOrigin region srcRow srcSlice = none ∧
        apiBufferRectOverflowCheck env.mode env.w dst dstOrigin region dstRow dstSlice = none
  | .readImage image _ origin region _ _ _
  | .writeImage image _ origin region _ _ _
  | .fillImage image _ origin region =>
      apiImageOverflowCheck env.mode env.w image origin region = none
  | .copyImage src dst srcOrigin dstOrigin region =>
      apiImageOverflowCheck env.mode env.w src srcOrigin region = none ∧
        apiImageOverflowCheck env.mode env.w dst dstOrigin region = none
  | .copyImageToBuffer image buffer origin region offset
  | .copyBufferToImage buffer image offset origin region =>
      env.runRealCall image buffer origin region offset = true

/-- The error that a wrapper returns before it checks: only images need a device. -/
def refusal (env : TransferEnv) (call : EnqueueCall) : Option Int :=
  if call.transfer.ofImage then (env.rt.queueDevice call.commandQueue).refusal else none

/-- A transfer that is reported as done was enqueued, and wrote its event. -/
structure ReportsTruly (env : TransferEnv) (call : EnqueueCall) : Prop where
  enqueued : (env.run call).err = CL_SUCCESS →
    (env.run call).real = some call ∧ (env.rt.enqueue call).1 = CL_SUCCESS
  event : (env.run call).err = CL_SUCCESS → call.event ≠ NULL →
    (env.run call).event.isSome ∧ (env.run call).event = (env.rt.enqueue call).2

variable {env : TransferEnv} {call : EnqueueCall}

/-- Every wrapper takes the common course, and passes what no check reports. -/
theorem run_eq (env : TransferEnv) (call : EnqueueCall) : ∃ passes : Bool,
    (passes = true ↔ env.Unreported call.transfer) ∧
      env.run call = env.intercept call (env.refusal call) passes := by
  obtain ⟨queue, transfer, eventList, event⟩ := call
  cases transfer with
  | copyBuffer | copyBufferRect | copyImage =>
      refine ⟨_, ?_, rfl⟩
      rw [Bool.and_eq_true, Option.isNone_iff_eq_none, Option.isNone_iff_eq_none]
      rfl
  | copyImageToBuffer | copyBufferToImage => exact ⟨_, Iff.rfl, rfl⟩
  | _ => exact ⟨_, Option.isNone_iff_eq_none, rfl⟩

theorem refusal_ne_success {err : Int} (refused : env.refusal call = some err) :
    err ≠ CL_SUCCESS := by
  have refusals : ∀ {device : QueueDevice}, device.refusal = some err → err ∈
      [CL_INVALID_COMMAND_QUEUE, CL_INVALID_DEVICE, CL_INVALID_OPERATION] := by
    intro device refused
    cases device with
    | invalidQueue => simp [← Option.some.inj refused]
    | invalidDevice => simp [← Option.some.inj refused]
    | device imageSupport =>
        rw [QueueDevice.refusal] at refused
        split at refused
        · contradiction
        · simp [← Option.some.inj refused]
  rw [refusal] at refused
  split at refused
  case isTrue =>
    have listed := refusals refused
    rintro rfl
    revert listed
    decide
  case isFalse => contradiction

/-- A transfer that is held back. -/
theorem intercept_held {refusal : Option Int} {passes : Bool}
    (held : env.rt.found call.transfer = false ∨ refusal = none ∧ passes = false) :
    env.intercept call refusal passes = ⟨CL_SUCCESS, none, none⟩ := by
  unfold intercept
  rcases held with missing | ⟨rfl, rfl⟩
  · rw [missing]
    rfl
  · split <;> rfl

theorem intercept_refused {err : Int} {passes : Bool}
    (found : env.rt.found call.transfer = true) :
    env.intercept call (some err) passes = ⟨err, none, none⟩ := by
  unfold intercept
  rw [found]
  rfl

theorem intercept_passed (found : env.rt.found call.transfer = true) :
    env.intercept call none true =
      ⟨(env.rt.enqueue call).1, some call, (env.rt.enqueue call).2⟩ := by
  unfold intercept
  rw [found]
  rfl

/-- A wrapper reports truly exactly when it has the real function, and refuses the
call or lets it through. -/
theorem reportsTruly_iff (env : TransferEnv) (call : EnqueueCall) :
    env.ReportsTruly call ↔ env.rt.found call.transfer = true ∧
      ((env.refusal call).isSome ∨ env.Unreported call.transfer) := by
  obtain ⟨passes, unreported, run⟩ := env.run_eq call
  rw [← unreported]
  constructor
  · rintro ⟨enqueued, -⟩
    have notHeld : ¬ (env.rt.found call.transfer = false ∨
        env.refusal call = none ∧ passes = false) := by
      intro held
      rw [run, intercept_held held] at enqueued
      exact Option.some_ne_none _ (enqueued rfl).1.symm
    rw [not_or, not_and, Bool.not_eq_false, Bool.not_eq_false] at notHeld
    refine ⟨notHeld.1, ?_⟩
    cases refused : env.refusal call with
    | none => exact Or.inr (notHeld.2 refused)
    | some err => exact Or.inl rfl
  · rintro ⟨found, passed⟩
    cases refused : env.refusal call with
    | some err =>
        have failed : (env.run call).err ≠ CL_SUCCESS := by
          rw [run, refused, intercept_refused found]
          exact refusal_ne_success refused
        exact ⟨fun done => absurd done failed, fun done => absurd done failed⟩
    | none =>
        rw [refused] at passed
        obtain rfl : passes = true := passed.resolve_left Bool.false_ne_true
        rw [refused, intercept_passed found] at run
        constructor
        · rw [run]
          exact fun done => ⟨rfl, done⟩
        · rw [run]
          exact fun done asked => ⟨env.rt.writes call done asked, rfl⟩

/-- A runtime that has all functions and accepts every call. -/
def accepting : TransferRuntime where
  found _ := true
  queueDevice _ := .device true
  enqueue _ := (CL_SUCCESS, some 77)
  writes _ _ _ := rfl

/-- A read of ten bytes that starts at byte ten of a buffer of sixteen bytes is
reported as done, is not enqueued, and leaves its event as it was. -/
theorem not_reportsTruly :
    let env : TransferEnv := ⟨⟨false, false⟩, oneBuffer 16, accepting⟩
    let call : EnqueueCall := ⟨5, .readBuffer 1 true 10 10 4096, [], 8192⟩
    env.run call = ⟨CL_SUCCESS, none, none⟩ ∧ ¬ env.ReportsTruly call := by
  refine ⟨rfl, fun truly => ?_⟩
  exact Option.some_ne_none _ (truly.enqueued rfl).1.symm

/-! ## The copies between images and buffers -/

/-- The copies reach the real function where `forwarded` was their outcome. -/
theorem forwarded_iff (env : TransferEnv) (queue image buffer : Handle) (origin region : Triple)
    (offset : Nat) :
    (Clarmor.clEnqueueCopyImageToBuffer env.mode env.w (env.rt.queueDevice queue) image buffer
          origin region offset = .forwarded (.imageToBuffer image buffer origin region offset) ↔
        (env.rt.queueDevice queue).refusal = none ∧
          env.runRealCall image buffer origin region offset = true) ∧
      (Clarmor.clEnqueueCopyBufferToImage env.mode env.w (env.rt.queueDevice queue) buffer image
          offset origin region = .forwarded (.bufferToImage buffer image offset origin region) ↔
        (env.rt.queueDevice queue).refusal = none ∧
          env.runRealCall image buffer origin region offset = true) := by
  have supported : (env.rt.queueDevice queue).refusal = none ↔
      env.rt.queueDevice queue = .device true := by
    cases env.rt.queueDevice queue with
    | invalidQueue => simp [QueueDevice.refusal]
    | invalidDevice => simp [QueueDevice.refusal]
    | device imageSupport => cases imageSupport <;> simp [QueueDevice.refusal]
  rw [supported, Clarmor.clEnqueueCopyImageToBuffer, Clarmor.clEnqueueCopyBufferToImage,
    guard_eq_forwarded_iff, guard_eq_forwarded_iff, runRealCall]
  cases env.w.table.find image with
  | none => simp
  | some m1 =>
      dsimp only
      rw [Bool.and_comm]
      constructor <;> refine and_congr_right fun _ => ?_ <;> split_ifs with passed <;>
        simp [passed]

end TransferEnv

end Clarmor
