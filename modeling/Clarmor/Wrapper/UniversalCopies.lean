import Clarmor.Library.Box
import Clarmor.Library.Store
import Clarmor.Wrapper.CommandQueues

/-!
# Copies across contexts

`cl_buffer_copy`, `cl_image_copy` and `cl_image_to_buffer_copy` take a queue and two
objects of any contexts.  A copy within the context of the queue goes to the runtime, one
within another context goes there by another queue, and one between contexts goes by way
of an array on the host that two temporary objects share.  The events that a copy is to
wait for stand for the contexts they are of.
-/

namespace Clarmor

open Word

/-- What a memory object holds of its storage: some bytes, or pixels row by row and slice
by slice. -/
inductive CopyShape where
  | buffer (origin size : Nat)
  | image (format : ImageFormat) (extent : Point)
deriving DecidableEq, Repr

/-- A memory object, as far as copies go. -/
structure CopyObject where
  context : Handle
  storage : Nat
  shape : CopyShape
deriving DecidableEq, Repr

/-- The tracked objects and the storages; the next storages are unused. -/
structure CopyWorld where
  objects : Table Handle CopyObject
  storages : Nat → Store.Block UInt8
  next : Nat

/-- The box with an origin and an extent. -/
def boxAt (origin region : Point) : Box :=
  ⟨origin.x, origin.y, origin.z, region.x, region.y, region.z⟩

/-- The origin of every image. -/
def zeroOrigin : Point := ⟨0, 0, 0⟩

/-- A region that is not empty lies in an image. -/
def RegionFits (extent origin region : Point) : Prop :=
  (0 < region.x ∧ 0 < region.y ∧ 0 < region.z) ∧
    origin.x + region.x ≤ extent.x ∧ origin.y + region.y ≤ extent.y ∧
      origin.z + region.z ≤ extent.z

instance (extent origin region : Point) : Decidable (RegionFits extent origin region) :=
  inferInstanceAs (Decidable (_ ∧ _))

/-- The storage cell of byte `k` of a region. -/
def pixelCell (pixel : Nat) (extent origin region : Point) (k : Nat) : Nat :=
  (boxAt zeroOrigin extent).index ((boxAt origin region).point (k / pixel)) * pixel + k % pixel

/-- `region[0]*region[1]*region[2]`. -/
def regionPixels (region : Point) : Nat := region.x * region.y * region.z

namespace CopyObject

/-- The end of an object in its storage. -/
def extent (pixels : PixelSizes) (o : CopyObject) : Nat :=
  match o.shape with
  | .buffer origin size => origin + size
  | .image format extent => regionPixels extent * pixels.size format

/-- The pixel size of an image; a buffer is counted in bytes. -/
def pixelSize (pixels : PixelSizes) (o : CopyObject) : Nat :=
  match o.shape with
  | .buffer .. => 1
  | .image format _ => pixels.size format

end CopyObject

/-- What a copy does to the storages, whatever the contexts. -/
abbrev DataCopy := CopyWorld → CopyObject → CopyObject → Option CopyWorld

namespace CopyWorld

/-- Copy numbered cells from one storage to another; a cell outside is a fault. -/
def transfer (w : CopyWorld) (src dst : Nat) (s d : Nat → Nat) (n : Nat) : Option CopyWorld :=
  ((w.storages dst).gather d (w.storages src) s n).map fun b =>
    { w with storages := Function.update w.storages dst b }

/-- The bytes that `clEnqueueCopyBuffer` copies. -/
def copyBuffer (offFrom offTo size : Nat) : DataCopy := fun w src dst =>
  match src.shape, dst.shape with
  | .buffer o₁ size₁, .buffer o₂ size₂ =>
      if offFrom + size ≤ size₁ ∧ offTo + size ≤ size₂ then
        w.transfer src.storage dst.storage (fun k => o₁ + offFrom + k) (fun k => o₂ + offTo + k)
          size
      else none
  | _, _ => none

/-- The pixels that `clEnqueueCopyImage` copies. -/
def copyImage (pixels : PixelSizes) (srcOrigin dstOrigin region : Point) : DataCopy :=
  fun w src dst =>
    match src.shape, dst.shape with
    | .image format extent₁, .image format₂ extent₂ =>
        if format₂ = format ∧ RegionFits extent₁ srcOrigin region ∧
            RegionFits extent₂ dstOrigin region then
          w.transfer src.storage dst.storage
            (pixelCell (pixels.size format) extent₁ srcOrigin region)
            (pixelCell (pixels.size format) extent₂ dstOrigin region)
            (regionPixels region * pixels.size format)
        else none
    | _, _ => none

/-- The pixels that `clEnqueueCopyImageToBuffer` copies. -/
def copyImageToBuffer (pixels : PixelSizes) (srcOrigin region : Point) (dstOffset : Nat) :
    DataCopy := fun w src dst =>
  match src.shape, dst.shape with
  | .image format extent, .buffer o₂ size₂ =>
      if RegionFits extent srcOrigin region ∧
          dstOffset + regionPixels region * pixels.size format ≤ size₂ then
        w.transfer src.storage dst.storage
          (pixelCell (pixels.size format) extent srcOrigin region) (fun k => o₂ + dstOffset + k)
          (regionPixels region * pixels.size format)
      else none
  | _, _ => none

/-- `malloc`: the next storage is in use. -/
def malloc (w : CopyWorld) (size : Nat) : CopyWorld :=
  { w with
    storages := Function.update w.storages w.next ⟨size, (w.storages w.next).get⟩
    next := w.next + 1 }

/-- `clCreateBuffer` with `CL_MEM_USE_HOST_PTR`. -/
def clCreateBuffer (size : Nat) (context : Handle) (hostPtr : Nat) : Option CopyObject :=
  if size = 0 then none else some ⟨context, hostPtr, .buffer 0 size⟩

/-- `clCreateImage` with `CL_MEM_USE_HOST_PTR` and without pitches. -/
def clCreateImage (format : ImageFormat) (extent : Point) (context : Handle) (hostPtr : Nat) :
    Option CopyObject :=
  if regionPixels extent = 0 then none else some ⟨context, hostPtr, .image format extent⟩

section Routes

variable (contextQueue : Handle → Option CommandQueue) (data toTemp fromTemp : DataCopy)
  (w : CopyWorld) (queue : CommandQueue) (evtList : List Handle) (src dst : CopyObject)

/-- A command on the two objects can be enqueued: the queue runs on the host and has the
context of both and of the events to wait for. -/
def Enqueues (queue : Option CommandQueue) : Prop :=
  queue = some ⟨src.context, false⟩ ∧ dst.context = src.context ∧
    ∀ context ∈ evtList, context = src.context

instance (queue : Option CommandQueue) : Decidable (Enqueues evtList src dst queue) :=
  inferInstanceAs (Decidable (_ ∧ _))

/-- The host can wait for the events: there are some and they are of one context. -/
def CanWait : Prop := evtList ≠ [] ∧ ∀ context ∈ evtList, evtList.head? = some context

instance : Decidable (CanWait evtList) := inferInstanceAs (Decidable (_ ∧ _))

/-- `clWaitForEvents`; an error ends the program. -/
def clWaitForEvents : Option Unit := if CanWait evtList then some () else none

/-- The `straight_…_copy` functions. -/
def straightCopy (queue : Option CommandQueue) : Option CopyWorld :=
  if Enqueues evtList src dst queue then data w src dst else none

/-- The `new_queue_…_copy` functions. -/
def newQueueCopy (context : Handle) : Option CopyWorld :=
  straightCopy data w evtList src dst (contextQueue context)

/-- The copies between contexts: by way of an array on the host. -/
def copyByHost (hostBytes : Nat) (temp : Handle → Nat → Option CopyObject) :
    Option CopyWorld := do
  let tempHostPtr := w.next
  let w := w.malloc hostBytes
  let tempBuff1 ← temp src.context tempHostPtr
  let w ← (if queue.context = src.context then
      straightCopy toTemp w evtList src tempBuff1 (some queue)
    else do
      clWaitForEvents evtList
      newQueueCopy contextQueue toTemp w [] src tempBuff1 src.context)
  let tempBuff2 ← temp dst.context tempHostPtr
  if queue.context = dst.context then straightCopy fromTemp w [] tempBuff2 dst (some queue)
  else newQueueCopy contextQueue fromTemp w [] tempBuff2 dst dst.context

/-- The `inner_…_copy` functions. -/
def innerCopy (between : CopyObject → CopyObject → Option CopyWorld) (source target : Handle) :
    Option CopyWorld := do
  let toInfo ← w.objects.find target
  let fromInfo ← w.objects.find source
  if queue.context = toInfo.context ∧ toInfo.context = fromInfo.context then
    straightCopy data w evtList fromInfo toInfo (some queue)
  else if toInfo.context = fromInfo.context then do
    clWaitForEvents evtList
    newQueueCopy contextQueue data w [] fromInfo toInfo toInfo.context
  else between fromInfo toInfo

end Routes

section Copies

variable (pixels : PixelSizes) (contextQueue : Handle → Option CommandQueue) (w : CopyWorld)
  (queue : CommandQueue) (evtList : List Handle)

/-- `copy_between_contexts`. -/
def copyBetweenContexts (offFrom offTo size : Nat) (src dst : CopyObject) : Option CopyWorld :=
  copyByHost contextQueue (copyBuffer offFrom 0 size) (copyBuffer 0 offTo size) w queue evtList
    src dst size (clCreateBuffer size)

/-- `inner_buffer_copy`. -/
def innerBufferCopy (source target : Handle) (offFrom offTo size : Nat) : Option CopyWorld :=
  innerCopy contextQueue (copyBuffer offFrom offTo size) w queue evtList
    (copyBetweenContexts contextQueue w queue evtList offFrom offTo size) source target

/-- `copy_image_between_contexts`. -/
def copyImageBetweenContexts (srcOrigin dstOrigin region : Point) (src dst : CopyObject) :
    Option CopyWorld :=
  match src.shape with
  | .buffer .. => none
  | .image format _ =>
      copyByHost contextQueue (copyImage pixels srcOrigin zeroOrigin region)
        (copyImage pixels zeroOrigin dstOrigin region) w queue evtList src dst
        (u64 (regionPixels region)) (clCreateImage format region)

/-- `inner_image_copy`. -/
def innerImageCopy (source target : Handle) (srcOrigin dstOrigin region : Point) :
    Option CopyWorld :=
  innerCopy contextQueue (copyImage pixels srcOrigin dstOrigin region) w queue evtList
    (copyImageBetweenContexts pixels contextQueue w queue evtList srcOrigin dstOrigin region)
    source target

/-- `copy_i_to_b_between_contexts`. -/
def copyIToBBetweenContexts (srcOrigin region : Point) (dstOffset : Nat)
    (src dst : CopyObject) : Option CopyWorld :=
  let size := u64 (regionPixels region)
  copyByHost contextQueue (copyImageToBuffer pixels srcOrigin region 0)
    (copyBuffer 0 dstOffset size) w queue evtList src dst size (clCreateBuffer size)

/-- `inner_image_to_buffer_copy`. -/
def innerImageToBufferCopy (source target : Handle) (srcOrigin region : Point)
    (dstOffset : Nat) : Option CopyWorld :=
  innerCopy contextQueue (copyImageToBuffer pixels srcOrigin region dstOffset) w queue evtList
    (copyIToBBetweenContexts pixels contextQueue w queue evtList srcOrigin region dstOffset)
    source target

end Copies

end CopyWorld

/-- A call of one of the three copies. -/
inductive UniversalCopy where
  | bufferCopy (source target : Handle) (offFrom offTo size : Nat)
  | imageCopy (source target : Handle) (srcOrigin dstOrigin region : Point)
  | imageToBufferCopy (source target : Handle) (srcOrigin region : Point) (dstOffset : Nat)

namespace UniversalCopy

/-- The source. -/
def source : UniversalCopy → Handle
  | bufferCopy source .. | imageCopy source .. | imageToBufferCopy source .. => source

/-- The destination. -/
def target : UniversalCopy → Handle
  | bufferCopy _ target .. | imageCopy _ target .. | imageToBufferCopy _ target .. => target

/-- What the copy is to do to the storages. -/
def data (pixels : PixelSizes) : UniversalCopy → DataCopy
  | bufferCopy _ _ offFrom offTo size => CopyWorld.copyBuffer offFrom offTo size
  | imageCopy _ _ srcOrigin dstOrigin region =>
      CopyWorld.copyImage pixels srcOrigin dstOrigin region
  | imageToBufferCopy _ _ srcOrigin region dstOffset =>
      CopyWorld.copyImageToBuffer pixels srcOrigin region dstOffset

/-- A copy of a buffer copies some bytes. -/
def NotEmpty : UniversalCopy → Prop
  | bufferCopy _ _ _ _ size => size ≠ 0
  | _ => True

end UniversalCopy

namespace CopyWorld

section Meaning

variable (pixels : PixelSizes) (contextQueue : Handle → Option CommandQueue) (w : CopyWorld)
  (queue : CommandQueue) (evtList : List Handle) (copy : UniversalCopy)

/-- `cl_buffer_copy`, `cl_image_copy` and `cl_image_to_buffer_copy`. -/
def runCopy : Option CopyWorld :=
  match copy with
  | .bufferCopy source target offFrom offTo size =>
      innerBufferCopy contextQueue w queue evtList source target offFrom offTo size
  | .imageCopy source target srcOrigin dstOrigin region =>
      innerImageCopy pixels contextQueue w queue evtList source target srcOrigin dstOrigin region
  | .imageToBufferCopy source target srcOrigin region dstOffset =>
      innerImageToBufferCopy pixels contextQueue w queue evtList source target srcOrigin region
        dstOffset

/-- The copy as it is when the queue and both objects are of one context. -/
def sameContextCopy : Option CopyWorld := do
  let toInfo ← w.objects.find copy.target
  let fromInfo ← w.objects.find copy.source
  copy.data pixels w fromInfo toInfo

/-- The objects lie in the storages that are in use. -/
structure WellFormed : Prop where
  inUse : ∀ h o, w.objects.find h = some o → o.storage < w.next
  fits : ∀ h o, w.objects.find h = some o → o.extent pixels ≤ (w.storages o.storage).len
  sizeT : ∀ i < w.next, (w.storages i).len < 18446744073709551616

/-- The queue that the commands on objects of a context go to. -/
def queueFor (context : Handle) : Option CommandQueue :=
  if queue.context = context then some queue else contextQueue context

/-- Commands on objects of a context can be enqueued. -/
def Reaches (context : Handle) : Prop :=
  queueFor contextQueue queue context = some ⟨context, false⟩

/-- The events can be waited for: by a command on objects of the context if the queue is of
that context, and by the host otherwise. -/
def Awaits (context : Handle) : Prop :=
  if queue.context = context then ∀ c ∈ evtList, c = context else CanWait evtList

/-- The copy succeeds and leaves every storage that was in use, and the destination with
it, as the copy within one context does, which leaves `w₁`. -/
def CopiesLike (w₁ : CopyWorld) : Prop :=
  ∃ w', runCopy pixels contextQueue w queue evtList copy = some w' ∧
    ∀ i < w.next, w'.storages i = w₁.storages i

end Meaning

variable {pixels : PixelSizes} {contextQueue : Handle → Option CommandQueue} {w w' w₁ : CopyWorld}
  {queue : CommandQueue} {evtList : List Handle} {copy : UniversalCopy} {src dst : CopyObject}
  {s d : Nat → Nat} {i n size : Nat}

/-! ## Storages -/

theorem transfer_eq_some_iff {i j : Nat} :
    w.transfer i j s d n = some w' ↔
      (∀ k < n, d k < (w.storages j).len ∧ s k < (w.storages i).len) ∧
        w' = { w with
          storages := Function.update w.storages j ⟨(w.storages j).len,
            Store.gather (w.storages j).get d (w.storages i).get s n⟩ } := by
  rw [transfer, Option.map_eq_some_iff]
  constructor
  · rintro ⟨b, gathered, rfl⟩
    obtain ⟨inside, rfl⟩ := Store.Block.gather_eq_some_iff.mp gathered
    exact ⟨inside, rfl⟩
  · rintro ⟨inside, rfl⟩
    exact ⟨_, Store.Block.gather_eq_some_iff.mpr ⟨inside, rfl⟩, rfl⟩

theorem malloc_storages_next : (w.malloc size).storages w.next =
    ⟨size, (w.storages w.next).get⟩ :=
  Function.update_self ..

theorem malloc_storages_of_lt (iLt : i < w.next) :
    (w.malloc size).storages i = w.storages i :=
  Function.update_of_ne (Nat.ne_of_lt iLt) ..

/-- A transfer by way of a new array that is long enough. -/
theorem transfer_by_host {i j : Nat} (iLt : i < w.next) (jLt : j < w.next) (fits : n ≤ size)
    (direct : w.transfer i j s d n = some w₁) :
    ∃ v w', (w.malloc size).transfer i w.next s id n = some v ∧
      v.transfer w.next j id d n = some w' ∧ ∀ l < w.next, w'.storages l = w₁.storages l := by
  obtain ⟨inside, rfl⟩ := transfer_eq_some_iff.mp direct
  have onHost : ∀ k < n, id k < ((w.malloc size).storages w.next).len ∧
      s k < ((w.malloc size).storages i).len := by
    intro k kLt
    rw [malloc_storages_next, malloc_storages_of_lt iLt]
    exact ⟨Nat.lt_of_lt_of_le kLt fits, (inside k kLt).2⟩
  refine ⟨_, _, transfer_eq_some_iff.mpr ⟨onHost, rfl⟩,
    transfer_eq_some_iff.mpr ⟨fun k kLt => ?_, rfl⟩, fun l lLt => ?_⟩
  · dsimp only
    rw [Function.update_of_ne (Nat.ne_of_lt jLt), Function.update_self,
      malloc_storages_of_lt jLt, malloc_storages_next]
    exact ⟨(inside k kLt).1, Nat.lt_of_lt_of_le kLt fits⟩
  · dsimp only
    rw [Function.update_of_ne (Nat.ne_of_lt jLt), Function.update_self,
      malloc_storages_of_lt jLt, malloc_storages_of_lt iLt, Store.gather_gather]
    by_cases here : l = j
    · rw [here, Function.update_self, Function.update_self]
    · rw [Function.update_of_ne here, Function.update_of_ne here,
        Function.update_of_ne (Nat.ne_of_lt lLt), malloc_storages_of_lt lLt]

/-- A transfer to an array that is too short is a fault. -/
theorem transfer_eq_none {i : Nat} (short : size < n) :
    (w.malloc size).transfer i w.next s id n = none := by
  rw [Option.eq_none_iff_forall_ne_some]
  intro v ran
  have last := ((transfer_eq_some_iff.mp ran).1 size short).1
  rw [malloc_storages_next] at last
  exact Nat.lt_irrefl _ last

/-! ## Shapes -/

/-- Byte `k` of a whole buffer is its cell `k`. -/
theorem bufferCell_whole : (fun k => 0 + 0 + k) = id := by
  funext k
  rw [Nat.zero_add, id]

/-- Byte `k` of a whole image is its cell `k`. -/
theorem pixelCell_whole (pixel : Nat) (region : Point) :
    pixelCell pixel region zeroOrigin region = id := by
  funext k
  rw [pixelCell, Box.index_point, Nat.div_add_mod', id]

theorem regionFits_whole {extent origin region : Point} (fits : RegionFits extent origin region) :
    RegionFits region zeroOrigin region := by
  refine ⟨fits.1, ?_⟩
  simp [zeroOrigin]

theorem regionPixels_pos {extent origin region : Point} (fits : RegionFits extent origin region) :
    0 < regionPixels region :=
  Nat.mul_pos (Nat.mul_pos fits.1.1 fits.1.2.1) fits.1.2.2

theorem regionPixels_le {extent origin region : Point} (fits : RegionFits extent origin region) :
    regionPixels region ≤ regionPixels extent := by
  obtain ⟨-, x, y, z⟩ := fits
  exact Nat.mul_le_mul (Nat.mul_le_mul (by omega) (by omega)) (by omega)

/-- A byte for every pixel is not enough for wider pixels. -/
theorem regionPixels_lt_mul {region : Point} (pos : 0 < regionPixels region)
    {format : ImageFormat} (wide : pixels.size format ≠ 1) :
    regionPixels region < regionPixels region * pixels.size format := by
  have atLeast := pixels.pos format
  exact (Nat.lt_mul_iff_one_lt_right pos).mpr (by omega)

/-- The pixels of a region of a live image are few enough for a `size_t`. -/
theorem u64_regionPixels (wf : w.WellFormed pixels) {h : Handle}
    (live : w.objects.find h = some src) {format : ImageFormat} {extent origin region : Point}
    (shape : src.shape = .image format extent) (fits : RegionFits extent origin region) :
    u64 (regionPixels region) = regionPixels region := by
  apply u64_of_lt
  calc
    regionPixels region ≤ regionPixels extent := regionPixels_le fits
    _ ≤ regionPixels extent * pixels.size format := Nat.le_mul_of_pos_right _ (pixels.pos format)
    _ = src.extent pixels := by rw [CopyObject.extent, shape]
    _ ≤ (w.storages src.storage).len := wf.fits _ _ live
    _ < 18446744073709551616 := wf.sizeT _ (wf.inUse _ _ live)

/-! ## Routes -/

section Routes

variable {data toTemp fromTemp : DataCopy} {temp : Handle → Nat → Option CopyObject}
  {shape : CopyShape}

theorem straightCopy_eq_some_iff {queue : Option CommandQueue} :
    straightCopy data w evtList src dst queue = some w' ↔
      Enqueues evtList src dst queue ∧ data w src dst = some w' := by
  rw [straightCopy]
  split <;> simp_all

theorem clWaitForEvents_bind_eq_some_iff {next : Option CopyWorld} :
    (clWaitForEvents evtList).bind (fun _ => next) = some w' ↔
      CanWait evtList ∧ next = some w' := by
  rw [clWaitForEvents]
  split <;> simp_all

/-- Both ways to a queue enqueue to the queue of the context. -/
theorem enqueue_eq (context : Handle) :
    (if queue.context = context then straightCopy data w [] src dst (some queue)
      else newQueueCopy contextQueue data w [] src dst context) =
    straightCopy data w [] src dst (queueFor contextQueue queue context) := by
  rw [queueFor, newQueueCopy]
  split <;> rfl

/-- The first copy waits for the events: the queue does when it is of the context, and else
the host before a queue of the context gets the copy. -/
theorem enqueueFirst_eq_some_iff :
    (if queue.context = src.context then straightCopy data w evtList src dst (some queue)
      else (clWaitForEvents evtList).bind fun _ =>
        newQueueCopy contextQueue data w [] src dst src.context) = some w' ↔
      (Reaches contextQueue queue src.context ∧ Awaits queue evtList src.context) ∧
        dst.context = src.context ∧ data w src dst = some w' := by
  rw [Reaches, Awaits, queueFor]
  by_cases here : queue.context = src.context
  · simp only [if_pos here, straightCopy_eq_some_iff, Enqueues]
    tauto
  · simp only [if_neg here, clWaitForEvents_bind_eq_some_iff, newQueueCopy,
      straightCopy_eq_some_iff, Enqueues, List.not_mem_nil, false_implies, implies_true, and_true]
    tauto

/-- A copy by the host is a copy to the first temporary object and one from the second. -/
theorem copyByHost_eq_some_iff
    (made : ∀ context hostPtr, temp context hostPtr = some ⟨context, hostPtr, shape⟩) :
    copyByHost contextQueue toTemp fromTemp w queue evtList src dst size temp = some w' ↔
      ((Reaches contextQueue queue src.context ∧ Reaches contextQueue queue dst.context) ∧
          Awaits queue evtList src.context) ∧
        ∃ v, toTemp (w.malloc size) src ⟨src.context, w.next, shape⟩ = some v ∧
          fromTemp v ⟨dst.context, w.next, shape⟩ dst = some w' := by
  simp only [copyByHost, made, Option.bind_eq_bind, Option.bind_some, enqueue_eq,
    Option.bind_eq_some_iff, enqueueFirst_eq_some_iff, straightCopy_eq_some_iff]
  constructor
  · rintro ⟨v, ⟨⟨reachSrc, awaits⟩, -, toHost⟩, ⟨reachDst, -⟩, fromHost⟩
    exact ⟨⟨⟨reachSrc, reachDst⟩, awaits⟩, v, toHost, fromHost⟩
  · rintro ⟨⟨⟨reachSrc, reachDst⟩, awaits⟩, v, toHost, fromHost⟩
    exact ⟨v, ⟨⟨reachSrc, awaits⟩, trivial, toHost⟩, ⟨reachDst, rfl, by simp⟩, fromHost⟩

theorem copyByHost_eq_none (refused : ∀ context hostPtr, temp context hostPtr = none) :
    copyByHost contextQueue toTemp fromTemp w queue evtList src dst size temp = none := by
  simp only [copyByHost, refused, Option.bind_eq_bind, Option.bind_none]

/-- A copy within one context is enqueued to a queue of the context; one between two
contexts takes the way by the host. -/
theorem innerCopy_eq {between : CopyObject → CopyObject → Option CopyWorld}
    {source target : Handle} (srcLive : w.objects.find source = some src)
    (dstLive : w.objects.find target = some dst) :
    innerCopy contextQueue data w queue evtList between source target =
      if src.context = dst.context then
        if queue.context = src.context then straightCopy data w evtList src dst (some queue)
        else (clWaitForEvents evtList).bind fun _ =>
          newQueueCopy contextQueue data w [] src dst src.context
      else between src dst := by
  simp only [innerCopy, srcLive, dstLive, Option.bind_eq_bind, Option.bind_some]
  by_cases same : src.context = dst.context
  · rw [if_pos same, if_pos same.symm, ← same]
    simp only [and_true]
  · rw [if_neg same, if_neg (fun both => same both.2.symm), if_neg (fun both => same both.symm)]

theorem copyByHost_like
    (made : ∀ context hostPtr, temp context hostPtr = some ⟨context, hostPtr, shape⟩)
    (both : ∃ v w', toTemp (w.malloc size) src ⟨src.context, w.next, shape⟩ = some v ∧
      fromTemp v ⟨dst.context, w.next, shape⟩ dst = some w' ∧
      ∀ i < w.next, w'.storages i = w₁.storages i) :
    (∃ w', copyByHost contextQueue toTemp fromTemp w queue evtList src dst size temp = some w' ∧
        ∀ i < w.next, w'.storages i = w₁.storages i) ↔
      (Reaches contextQueue queue src.context ∧ Reaches contextQueue queue dst.context) ∧
        Awaits queue evtList src.context := by
  constructor
  · rintro ⟨w', ran, -⟩
    exact ((copyByHost_eq_some_iff made).mp ran).1
  · intro reaches
    obtain ⟨v, w', toHost, fromHost, like⟩ := both
    exact ⟨w', (copyByHost_eq_some_iff made).mpr ⟨reaches, v, toHost, fromHost⟩, like⟩

/-- A first copy that fails is the end. -/
theorem copyByHost_of_fault
    (made : ∀ context hostPtr, temp context hostPtr = some ⟨context, hostPtr, shape⟩)
    (fault : toTemp (w.malloc size) src ⟨src.context, w.next, shape⟩ = none) :
    copyByHost contextQueue toTemp fromTemp w queue evtList src dst size temp = none := by
  rw [Option.eq_none_iff_forall_ne_some]
  intro w' ran
  obtain ⟨-, v, toHost, -⟩ := (copyByHost_eq_some_iff made).mp ran
  rw [fault] at toHost
  contradiction

end Routes

/-! ## The three copies -/

theorem copyBuffer_eq_some_iff {offFrom offTo : Nat} :
    copyBuffer offFrom offTo n w src dst = some w' ↔
      ∃ o₁ size₁ o₂ size₂, (src.shape = .buffer o₁ size₁ ∧ dst.shape = .buffer o₂ size₂) ∧
        (offFrom + n ≤ size₁ ∧ offTo + n ≤ size₂) ∧
        w.transfer src.storage dst.storage (fun k => o₁ + offFrom + k)
          (fun k => o₂ + offTo + k) n = some w' := by
  unfold copyBuffer
  cases src.shape <;> cases dst.shape <;> simp [and_assoc]

theorem copyImage_eq_some_iff {srcOrigin dstOrigin region : Point} :
    copyImage pixels srcOrigin dstOrigin region w src dst = some w' ↔
      ∃ format extent₁ extent₂,
        (src.shape = .image format extent₁ ∧ dst.shape = .image format extent₂) ∧
        (RegionFits extent₁ srcOrigin region ∧ RegionFits extent₂ dstOrigin region) ∧
        w.transfer src.storage dst.storage
          (pixelCell (pixels.size format) extent₁ srcOrigin region)
          (pixelCell (pixels.size format) extent₂ dstOrigin region)
          (regionPixels region * pixels.size format) = some w' := by
  unfold copyImage
  cases src.shape <;> cases dst.shape <;> simp [and_assoc]

theorem copyImageToBuffer_eq_some_iff {srcOrigin region : Point} {dstOffset : Nat} :
    copyImageToBuffer pixels srcOrigin region dstOffset w src dst = some w' ↔
      ∃ format extent o₂ size₂,
        (src.shape = .image format extent ∧ dst.shape = .buffer o₂ size₂) ∧
        (RegionFits extent srcOrigin region ∧
          dstOffset + regionPixels region * pixels.size format ≤ size₂) ∧
        w.transfer src.storage dst.storage
          (pixelCell (pixels.size format) extent srcOrigin region) (fun k => o₂ + dstOffset + k)
          (regionPixels region * pixels.size format) = some w' := by
  unfold copyImageToBuffer
  cases src.shape <;> cases dst.shape <;> simp [and_assoc]

/-- Bytes go by way of the host unless there are none. -/
theorem copyBetweenContexts_like_iff {offFrom offTo : Nat} (srcLt : src.storage < w.next)
    (dstLt : dst.storage < w.next)
    (direct : copyBuffer offFrom offTo n w src dst = some w₁) :
    (∃ w', copyBetweenContexts contextQueue w queue evtList offFrom offTo n src dst = some w' ∧
        ∀ i < w.next, w'.storages i = w₁.storages i) ↔
      ((Reaches contextQueue queue src.context ∧ Reaches contextQueue queue dst.context) ∧
        Awaits queue evtList src.context) ∧ n ≠ 0 := by
  obtain ⟨o₁, size₁, o₂, size₂, ⟨shape₁, shape₂⟩, fits, moved⟩ := copyBuffer_eq_some_iff.mp direct
  rw [copyBetweenContexts]
  by_cases empty : n = 0
  · rw [copyByHost_eq_none fun _ _ => by rw [clCreateBuffer, if_pos empty]]
    simp [empty]
  · have made : ∀ context hostPtr,
        clCreateBuffer n context hostPtr = some ⟨context, hostPtr, .buffer 0 n⟩ :=
      fun _ _ => if_neg empty
    obtain ⟨v, w', toHost, fromHost, like⟩ := transfer_by_host srcLt dstLt (Nat.le_refl n) moved
    rw [and_iff_left empty]
    refine copyByHost_like made ⟨v, w', ?_, ?_, like⟩
    · refine copyBuffer_eq_some_iff.mpr ⟨o₁, size₁, 0, n, ⟨shape₁, rfl⟩, ⟨fits.1, by omega⟩, ?_⟩
      rw [bufferCell_whole]
      exact toHost
    · refine copyBuffer_eq_some_iff.mpr ⟨0, n, o₂, size₂, ⟨rfl, shape₂⟩, ⟨by omega, fits.2⟩, ?_⟩
      rw [bufferCell_whole]
      exact fromHost

/-- The array on the host has a byte for every pixel. -/
theorem copyImageBetweenContexts_like_iff {srcOrigin dstOrigin region : Point}
    (wf : w.WellFormed pixels) {h : Handle} (srcLive : w.objects.find h = some src)
    (dstLt : dst.storage < w.next)
    (direct : copyImage pixels srcOrigin dstOrigin region w src dst = some w₁) :
    (∃ w', copyImageBetweenContexts pixels contextQueue w queue evtList srcOrigin dstOrigin region
          src dst = some w' ∧ ∀ i < w.next, w'.storages i = w₁.storages i) ↔
      ((Reaches contextQueue queue src.context ∧ Reaches contextQueue queue dst.context) ∧
        Awaits queue evtList src.context) ∧ src.pixelSize pixels = 1 := by
  obtain ⟨format, extent₁, extent₂, ⟨shape₁, shape₂⟩, fits, moved⟩ :=
    copyImage_eq_some_iff.mp direct
  have pixelsPos := regionPixels_pos fits.1
  have made : ∀ context hostPtr, clCreateImage format region context hostPtr =
      some ⟨context, hostPtr, .image format region⟩ := fun _ _ => if_neg (by omega)
  rw [CopyObject.pixelSize, shape₁]
  simp only [copyImageBetweenContexts, shape₁, u64_regionPixels wf srcLive shape₁ fits.1]
  by_cases one : pixels.size format = 1
  · rw [and_iff_left one]
    obtain ⟨v, w', toHost, fromHost, like⟩ := transfer_by_host (wf.inUse _ _ srcLive) dstLt
      (by rw [one, Nat.mul_one]) moved
    refine copyByHost_like made ⟨v, w', ?_, ?_, like⟩
    · refine copyImage_eq_some_iff.mpr ⟨format, extent₁, region, ⟨shape₁, rfl⟩,
        ⟨fits.1, regionFits_whole fits.1⟩, ?_⟩
      rw [pixelCell_whole]
      exact toHost
    · refine copyImage_eq_some_iff.mpr ⟨format, region, extent₂, ⟨rfl, shape₂⟩,
        ⟨regionFits_whole fits.1, fits.2⟩, ?_⟩
      rw [pixelCell_whole]
      exact fromHost
  · have fault : copyImage pixels srcOrigin zeroOrigin region (w.malloc (regionPixels region)) src
        ⟨src.context, w.next, .image format region⟩ = none := by
      rw [Option.eq_none_iff_forall_ne_some]
      intro v ran
      obtain ⟨format', extent, extent', ⟨sameShape, shape'⟩, -, wrote⟩ :=
        copyImage_eq_some_iff.mp ran
      cases shape'
      rw [pixelCell_whole, transfer_eq_none (regionPixels_lt_mul pixelsPos one)] at wrote
      contradiction
    rw [copyByHost_of_fault made fault]
    simp [one]

/-- The temporary buffers have a byte for every pixel. -/
theorem copyIToBBetweenContexts_like_iff {srcOrigin region : Point} {dstOffset : Nat}
    (wf : w.WellFormed pixels) {h : Handle} (srcLive : w.objects.find h = some src)
    (dstLt : dst.storage < w.next)
    (direct : copyImageToBuffer pixels srcOrigin region dstOffset w src dst = some w₁) :
    (∃ w', copyIToBBetweenContexts pixels contextQueue w queue evtList srcOrigin region dstOffset
          src dst = some w' ∧ ∀ i < w.next, w'.storages i = w₁.storages i) ↔
      ((Reaches contextQueue queue src.context ∧ Reaches contextQueue queue dst.context) ∧
        Awaits queue evtList src.context) ∧ src.pixelSize pixels = 1 := by
  obtain ⟨format, extent, o₂, size₂, ⟨shape₁, shape₂⟩, fits, moved⟩ :=
    copyImageToBuffer_eq_some_iff.mp direct
  have pixelsPos := regionPixels_pos fits.1
  have made : ∀ context hostPtr, clCreateBuffer (regionPixels region) context hostPtr =
      some ⟨context, hostPtr, .buffer 0 (regionPixels region)⟩ := fun _ _ => if_neg (by omega)
  rw [CopyObject.pixelSize, shape₁]
  simp only [copyIToBBetweenContexts, u64_regionPixels wf srcLive shape₁ fits.1]
  by_cases one : pixels.size format = 1
  · rw [and_iff_left one]
    rw [one, Nat.mul_one] at moved
    obtain ⟨v, w', toHost, fromHost, like⟩ := transfer_by_host (wf.inUse _ _ srcLive) dstLt
      (Nat.le_refl _) moved
    refine copyByHost_like made ⟨v, w', ?_, ?_, like⟩
    · refine copyImageToBuffer_eq_some_iff.mpr ⟨format, extent, 0, regionPixels region,
        ⟨shape₁, rfl⟩, ⟨fits.1, by rw [one]; omega⟩, ?_⟩
      rw [bufferCell_whole, one, Nat.mul_one]
      exact toHost
    · refine copyBuffer_eq_some_iff.mpr ⟨0, regionPixels region, o₂, size₂, ⟨rfl, shape₂⟩,
        ⟨by omega, by rw [one] at fits; omega⟩, ?_⟩
      rw [bufferCell_whole]
      exact fromHost
  · have fault : copyImageToBuffer pixels srcOrigin region 0 (w.malloc (regionPixels region)) src
        ⟨src.context, w.next, .buffer 0 (regionPixels region)⟩ = none := by
      rw [Option.eq_none_iff_forall_ne_some]
      intro v ran
      obtain ⟨format', extent', o, size, ⟨sameShape, shape'⟩, ⟨-, inside⟩, -⟩ :=
        copyImageToBuffer_eq_some_iff.mp ran
      cases shape'
      rw [shape₁, CopyShape.image.injEq] at sameShape
      have wide := regionPixels_lt_mul pixelsPos one
      rw [← sameShape.1] at inside
      omega
    rw [copyByHost_of_fault made fault]
    simp [one]

/-! ## All copies -/

theorem sameContextCopy_eq (srcLive : w.objects.find copy.source = some src)
    (dstLive : w.objects.find copy.target = some dst) :
    w.sameContextCopy pixels copy = copy.data pixels w src dst := by
  simp [sameContextCopy, srcLive, dstLive]

theorem enqueueFirst_like_iff {data : DataCopy} (same : src.context = dst.context)
    (direct : data w src dst = some w₁) :
    (∃ w', (if queue.context = src.context then straightCopy data w evtList src dst (some queue)
          else (clWaitForEvents evtList).bind fun _ =>
            newQueueCopy contextQueue data w [] src dst src.context) = some w' ∧
        ∀ i < w.next, w'.storages i = w₁.storages i) ↔
      Reaches contextQueue queue src.context ∧ Awaits queue evtList src.context := by
  constructor
  · rintro ⟨w', ran, -⟩
    exact (enqueueFirst_eq_some_iff.mp ran).1
  · intro enqueues
    exact ⟨w₁, enqueueFirst_eq_some_iff.mpr ⟨enqueues, same.symm, direct⟩, fun _ _ => rfl⟩

/-- An inner copy is the copy of one context if the commands reach both contexts, the events
can be waited for, and the copy between two contexts, when it is one, has the condition
`between` needs. -/
theorem innerCopy_like_iff {data : DataCopy} {between : CopyObject → CopyObject → Option CopyWorld}
    {source target : Handle} {needs : Prop} (srcLive : w.objects.find source = some src)
    (dstLive : w.objects.find target = some dst) (direct : data w src dst = some w₁)
    (far : (∃ w', between src dst = some w' ∧ ∀ i < w.next, w'.storages i = w₁.storages i) ↔
      ((Reaches contextQueue queue src.context ∧ Reaches contextQueue queue dst.context) ∧
        Awaits queue evtList src.context) ∧ needs) :
    (∃ w', innerCopy contextQueue data w queue evtList between source target = some w' ∧
        ∀ i < w.next, w'.storages i = w₁.storages i) ↔
      ((Reaches contextQueue queue src.context ∧ Reaches contextQueue queue dst.context) ∧
        Awaits queue evtList src.context) ∧ (src.context = dst.context ∨ needs) := by
  rw [innerCopy_eq srcLive dstLive]
  by_cases same : src.context = dst.context
  · rw [if_pos same, enqueueFirst_like_iff same direct, ← same]
    simp [same]
  · rw [if_neg same, far]
    simp [same]

/-- A copy of the wrapper means the same as the copy within one context exactly when the
commands reach the contexts of both objects, the events can be waited for, and the contexts
are one, or the pixels are single bytes and the copy is not one of an empty range. -/
theorem copiesLike_iff (wf : w.WellFormed pixels)
    (srcLive : w.objects.find copy.source = some src)
    (dstLive : w.objects.find copy.target = some dst)
    (direct : w.sameContextCopy pixels copy = some w₁) :
    CopiesLike pixels contextQueue w queue evtList copy w₁ ↔
      ((Reaches contextQueue queue src.context ∧ Reaches contextQueue queue dst.context) ∧
        Awaits queue evtList src.context) ∧
        (src.context = dst.context ∨ src.pixelSize pixels = 1 ∧ copy.NotEmpty) := by
  have srcLt := wf.inUse _ _ srcLive
  have dstLt := wf.inUse _ _ dstLive
  rw [sameContextCopy_eq srcLive dstLive] at direct
  cases copy with
  | bufferCopy source target offFrom offTo size =>
      refine innerCopy_like_iff srcLive dstLive direct ?_
      obtain ⟨o, size', -, -, ⟨shape, -⟩, -⟩ := copyBuffer_eq_some_iff.mp direct
      rw [copyBetweenContexts_like_iff srcLt dstLt direct, CopyObject.pixelSize, shape]
      simp [UniversalCopy.NotEmpty]
  | imageCopy source target srcOrigin dstOrigin region =>
      refine innerCopy_like_iff srcLive dstLive direct ?_
      rw [copyImageBetweenContexts_like_iff wf srcLive dstLt direct]
      simp [UniversalCopy.NotEmpty]
  | imageToBufferCopy source target srcOrigin region dstOffset =>
      refine innerCopy_like_iff srcLive dstLive direct ?_
      rw [copyIToBBetweenContexts_like_iff wf srcLive dstLt direct]
      simp [UniversalCopy.NotEmpty]

/-- An image of one pixel in the context `1` and another one in the context `2`. -/
def twoImages (format : ImageFormat) : CopyWorld where
  objects := (Table.empty.insert 1 ⟨1, 0, .image format ⟨1, 1, 1⟩⟩).insert 2
    ⟨2, 1, .image format ⟨1, 1, 1⟩⟩
  storages i := ⟨16, fun _ => UInt8.ofNat i⟩
  next := 2

/-- The copy of the first image to the second. -/
def onePixel : UniversalCopy := .imageCopy 1 2 zeroOrigin zeroOrigin ⟨1, 1, 1⟩

theorem twoImages_wellFormed (format : ImageFormat) :
    (twoImages format).WellFormed countedSizes := by
  have cases : ∀ h o, (twoImages format).objects.find h = some o →
      o.storage < 2 ∧ o.shape = .image format ⟨1, 1, 1⟩ := by
    intro h o found
    simp only [twoImages, Table.find_insert] at found
    split_ifs at found <;> cases found <;> simp
  have small := getImageDataSize_le format
  refine ⟨fun h o found => (cases h o found).1, fun h o found => ?_, fun i _ => ?_⟩
  · rw [CopyObject.extent, (cases h o found).2]
    simp only [regionPixels, countedSizes, twoImages]
    omega
  · simp [twoImages]

/-- One byte goes between two contexts by a queue of a third, after an event of that. -/
theorem copiesLike_iff_oneByte :
    ∃ w₁, (twoImages ⟨.r, .unsignedInt8⟩).sameContextCopy countedSizes onePixel = some w₁ ∧
      CopiesLike countedSizes (fun context => some ⟨context, false⟩)
        (twoImages ⟨.r, .unsignedInt8⟩) ⟨3, false⟩ [3] onePixel w₁ := by
  obtain ⟨w₁, direct⟩ := Option.isSome_iff_exists.mp (show
    ((twoImages ⟨.r, .unsignedInt8⟩).sameContextCopy countedSizes onePixel).isSome by decide)
  refine ⟨w₁, direct, (copiesLike_iff (twoImages_wellFormed _) rfl rfl direct).mpr ?_⟩
  exact ⟨⟨⟨rfl, rfl⟩, by decide, by decide⟩, Or.inr ⟨rfl, trivial⟩⟩

/-- A pixel of four bytes does not fit in the array on the host, and a copy with nothing to
wait for does not leave the context of its queue. -/
theorem not_copiesLike :
    (∃ w₁, (twoImages ⟨.rgba, .unsignedInt8⟩).sameContextCopy countedSizes onePixel = some w₁ ∧
      runCopy countedSizes (fun context => some ⟨context, false⟩)
          (twoImages ⟨.rgba, .unsignedInt8⟩) ⟨1, false⟩ [] onePixel = none ∧
      ¬ CopiesLike countedSizes (fun context => some ⟨context, false⟩)
        (twoImages ⟨.rgba, .unsignedInt8⟩) ⟨1, false⟩ [] onePixel w₁) ∧
    ∃ w₁, (twoImages ⟨.r, .unsignedInt8⟩).sameContextCopy countedSizes onePixel = some w₁ ∧
      runCopy countedSizes (fun context => some ⟨context, false⟩)
          (twoImages ⟨.r, .unsignedInt8⟩) ⟨3, false⟩ [] onePixel = none ∧
      ¬ CopiesLike countedSizes (fun context => some ⟨context, false⟩)
        (twoImages ⟨.r, .unsignedInt8⟩) ⟨3, false⟩ [] onePixel w₁ := by
  have unlike : ∀ {w : CopyWorld} {queue : CommandQueue} {w₁ : CopyWorld},
      runCopy countedSizes (fun context => some ⟨context, false⟩) w queue [] onePixel = none →
      ¬ CopiesLike countedSizes (fun context => some ⟨context, false⟩) w queue [] onePixel
        w₁ := by
    rintro w queue w₁ fault ⟨w', ran, -⟩
    rw [fault] at ran
    contradiction
  constructor
  · obtain ⟨w₁, direct⟩ := Option.isSome_iff_exists.mp (show
      ((twoImages ⟨.rgba, .unsignedInt8⟩).sameContextCopy countedSizes onePixel).isSome by decide)
    have fault : runCopy countedSizes (fun context => some ⟨context, false⟩)
        (twoImages ⟨.rgba, .unsignedInt8⟩) ⟨1, false⟩ [] onePixel = none := by
      rw [← Option.not_isSome_iff_eq_none]
      decide
    exact ⟨w₁, direct, fault, unlike fault⟩
  · obtain ⟨w₁, direct⟩ := Option.isSome_iff_exists.mp (show
      ((twoImages ⟨.r, .unsignedInt8⟩).sameContextCopy countedSizes onePixel).isSome by decide)
    have fault : runCopy countedSizes (fun context => some ⟨context, false⟩)
        (twoImages ⟨.r, .unsignedInt8⟩) ⟨3, false⟩ [] onePixel = none := by
      rw [← Option.not_isSome_iff_eq_none]
      decide
    exact ⟨w₁, direct, fault, unlike fault⟩

end CopyWorld

namespace QueueSystem

/-- The queue that `getCommandQueueForContext` stores, with the answers to its own
creations. -/
def contextQueue (s : QueueSystem) (answer : Handle → QueueAnswer) (context : Handle) :
    Option CommandQueue :=
  (s.getCommandQueueForContext context (answer context)).2.queues.find
    (s.getCommandQueueForContext context (answer context)).1

/-- Commands reach a context for which the wrapper gets a usable queue. -/
theorem reaches_of_usable {s : QueueSystem} {answer : Handle → QueueAnswer} {context : Handle}
    {queue : CommandQueue} (usable : s.Usable context) (granted : (answer context).ret ≠ NULL)
    (possible : s.Possible (answer context)) (onHost : queue.onDevice = false) :
    CopyWorld.Reaches (s.contextQueue answer) queue context := by
  rw [CopyWorld.Reaches, CopyWorld.queueFor]
  split
  case isTrue same =>
    rw [← same, ← onHost]
  case isFalse =>
    exact (usable (answer context) granted possible).2

end QueueSystem

end Clarmor
