import Clarmor.Image.Desc
import Clarmor.Library.Store
import Clarmor.Library.Table

/-!
# Memory objects of the OpenCL runtime

The wrapper forwards to the functions of the real runtime, which it loads at
run time.  This is their documented behaviour on memory objects: which handles
a creation returns and when it fails is left to an environment, except that a
returned handle is not `NULL` and not that of a live object.  The contents of a
buffer lie in a storage; a sub-buffer is a window of its parent's storage.
-/

namespace Clarmor

/-- The error codes that the detector tells apart, and one for all others. -/
inductive ClError where
  | invalidValue
  | invalidHostPtr
  | invalidBufferSize
  | invalidMemObject
  | imageFormatNotSupported
  | invalidImageFormatDescriptor
  | outOfResources
deriving DecidableEq, Repr

/-- A `cl_int` status; `none` is `CL_SUCCESS`. -/
abbrev ClStatus := Option ClError

/-- The runtime's answer to a creation. -/
inductive Reply where
  | granted (handle : Handle)
  | refused (error : ClError)
deriving DecidableEq, Repr

/-- What is decided outside the detector: the answers of the runtime to its
successive creations, the bytes that its pixels have, and whether the successive calls
of `calloc` succeed. -/
structure Env where
  reply : Nat → Reply
  pixels : PixelSizes
  calloc : Nat → Bool

/-- A range of cells of a storage. -/
structure Window where
  store : Nat
  origin : Nat
  size : Nat
deriving DecidableEq, Repr

/-- What a memory object is.  An image knows the bytes of one of its pixels, and where
in the application's memory it is when it was made over that. -/
inductive RtKind where
  | buffer (window : Window) (isSub : Bool)
  | image (store : Nat) (format : ImageFormat) (desc : ImageDesc) (pixelSize : Nat)
      (hostPtr : Option Nat)
deriving DecidableEq, Repr

/-- A memory object of the runtime. -/
structure RtObject where
  kind : RtKind
  context : Handle
  refs : Nat
deriving DecidableEq, Repr

/-- The window of a buffer. -/
def RtKind.window : RtKind → Option Window
  | .buffer window _ => some window
  | .image .. => none

/-- The memory behind a pointer.  An array of the detector's own has no address in the
application's memory. -/
structure HostArea where
  address : Option Nat
  bytes : Nat → UInt8

/-- The runtime's memory objects and their contents.  Every creation gets a
storage of its own, numbered by the creations before it. -/
structure Runtime where
  objects : Table Handle RtObject
  bytes : Nat → Nat → UInt8
  texels : Nat → Point → Nat → UInt8
  creations : Nat

namespace Runtime

/-- The runtime before any creation. -/
def initial : Runtime := ⟨Table.empty, fun _ _ => 0, fun _ _ _ => 0, 0⟩

variable (env : Env) (rt : Runtime)

/-- Answer a creation: enter the object under the granted handle. -/
def grant (kind : RtKind) (context : Handle) : Handle × ClStatus × Runtime :=
  let counted := { rt with creations := rt.creations + 1 }
  match env.reply rt.creations with
  | .refused error => (NULL, some error, counted)
  | .granted handle =>
      if handle = NULL ∨ (rt.objects.find handle).isSome then
        (NULL, some .outOfResources, counted)
      else
        (handle, none, { counted with
          objects :=
            counted.objects.insert handle { kind := kind, context := context, refs := 1 } })

/-- What a successful creation does to the objects. -/
structure Created (rt rt' : Runtime) (handle : Handle) (kind : RtKind) (context : Handle) :
    Prop where
  notNull : handle ≠ NULL
  fresh : rt.objects.find handle = none
  objects : rt'.objects = rt.objects.insert handle ⟨kind, context, 1⟩

/-- An answered creation either enters a fresh object or changes no object. -/
theorem grant_cases {env : Env} {rt rt' : Runtime} {kind : RtKind} {context handle : Handle}
    {status : ClStatus}
    (answered : rt.grant env kind context = (handle, status, rt')) :
    rt'.bytes = rt.bytes ∧
      ((handle = NULL ∧ status ≠ none ∧ rt'.objects = rt.objects) ∨
        (status = none ∧ Created rt rt' handle kind context)) := by
  simp only [grant] at answered
  cases reply : env.reply rt.creations with
  | refused error =>
      simp only [reply, Prod.mk.injEq] at answered
      obtain ⟨rfl, rfl, rfl⟩ := answered
      exact ⟨rfl, Or.inl ⟨rfl, by simp, rfl⟩⟩
  | granted granted =>
      simp only [reply] at answered
      split at answered
      · simp only [Prod.mk.injEq] at answered
        obtain ⟨rfl, rfl, rfl⟩ := answered
        exact ⟨rfl, Or.inl ⟨rfl, by simp, rfl⟩⟩
      · rename_i usable
        simp only [Prod.mk.injEq] at answered
        obtain ⟨rfl, rfl, rfl⟩ := answered
        rw [not_or, Option.not_isSome_iff_eq_none] at usable
        exact ⟨rfl, Or.inr ⟨rfl, usable.1, usable.2, rfl⟩⟩

/-- Host data is required by the two flags that use it, and refused without them. -/
def hostPtrError (flags : MemFlags) (data : Option (Nat → UInt8)) : Bool :=
  (flags.useHostPtr || flags.copyHostPtr) != data.isSome

/-- `CreateBuffer`; without host data the contents are whatever the storage held. -/
def createBuffer (context : Handle) (flags : MemFlags) (size : Nat)
    (data : Option (Nat → UInt8)) : Handle × ClStatus × Runtime :=
  if size = 0 then (NULL, some .invalidBufferSize, rt)
  else if hostPtrError flags data then (NULL, some .invalidHostPtr, rt)
  else
    let filled :=
      match data with
      | none => rt
      | some host => { rt with bytes := Function.update rt.bytes rt.creations host }
    filled.grant env (.buffer ⟨rt.creations, 0, size⟩ false) context

/-- A buffer lies in a storage of its own, which holds the host data. -/
theorem createBuffer_cases {env : Env} {rt rt' : Runtime} {context handle : Handle}
    {flags : MemFlags} {size : Nat} {data : Option (Nat → UInt8)} {status : ClStatus}
    (made : rt.createBuffer env context flags size data = (handle, status, rt')) :
    (handle = NULL ∧ status ≠ none ∧ rt'.objects = rt.objects) ∨
      (status = none ∧ hostPtrError flags data = false ∧
        Created rt rt' handle (.buffer ⟨rt.creations, 0, size⟩ false) context ∧
        ∀ host, data = some host → rt'.bytes rt.creations = host) := by
  unfold createBuffer at made
  split_ifs at made with empty refused
  · simp only [Prod.mk.injEq] at made
    obtain ⟨rfl, rfl, rfl⟩ := made
    exact Or.inl ⟨rfl, by simp, rfl⟩
  · simp only [Prod.mk.injEq] at made
    obtain ⟨rfl, rfl, rfl⟩ := made
    exact Or.inl ⟨rfl, by simp, rfl⟩
  · have accepted : hostPtrError flags data = false := by simpa using refused
    cases data with
    | none =>
        obtain ⟨-, failed | ⟨rfl, created⟩⟩ := grant_cases made
        · exact Or.inl failed
        · exact Or.inr ⟨rfl, accepted, created, by simp⟩
    | some host =>
        obtain ⟨bytes, failed | ⟨rfl, created⟩⟩ := grant_cases made
        · exact Or.inl failed
        · refine Or.inr ⟨rfl, accepted, ⟨created.notNull, created.fresh, created.objects⟩, ?_⟩
          intro host' same
          rw [bytes, ← Option.some.inj same]
          exact Function.update_self ..

/-- `CreateSubBuffer` of a region. -/
def createSubBuffer (buffer : Handle) (origin size : Nat) : Handle × ClStatus × Runtime :=
  match rt.objects.find buffer with
  | none => (NULL, some .invalidMemObject, rt)
  | some parent =>
      match parent.kind with
      | .image .. => (NULL, some .invalidMemObject, rt)
      | .buffer window isSub =>
          if isSub then (NULL, some .invalidMemObject, rt)
          else if size = 0 then (NULL, some .invalidBufferSize, rt)
          else if window.size < origin + size then (NULL, some .invalidValue, rt)
          else
            rt.grant env (.buffer ⟨window.store, window.origin + origin, size⟩ true)
              parent.context

/-- A sub-buffer is a range of a live buffer that is not itself a sub-buffer. -/
theorem createSubBuffer_cases {env : Env} {rt rt' : Runtime} {buffer handle : Handle}
    {origin size : Nat} {status : ClStatus}
    (made : rt.createSubBuffer env buffer origin size = (handle, status, rt')) :
    rt'.bytes = rt.bytes ∧
      ((handle = NULL ∧ status ≠ none ∧ rt'.objects = rt.objects) ∨
        (status = none ∧ ∃ window parent,
          rt.objects.find buffer = some parent ∧ parent.kind = .buffer window false ∧
          origin + size ≤ window.size ∧
          Created rt rt' handle (.buffer ⟨window.store, window.origin + origin, size⟩ true)
            parent.context)) := by
  unfold createSubBuffer at made
  split at made
  · simp only [Prod.mk.injEq] at made
    obtain ⟨rfl, rfl, rfl⟩ := made
    exact ⟨rfl, Or.inl ⟨rfl, by simp, rfl⟩⟩
  · rename_i parent found
    split at made
    · simp only [Prod.mk.injEq] at made
      obtain ⟨rfl, rfl, rfl⟩ := made
      exact ⟨rfl, Or.inl ⟨rfl, by simp, rfl⟩⟩
    · rename_i window isSub kind
      split_ifs at made with sub empty outside
      · simp only [Prod.mk.injEq] at made
        obtain ⟨rfl, rfl, rfl⟩ := made
        exact ⟨rfl, Or.inl ⟨rfl, by simp, rfl⟩⟩
      · simp only [Prod.mk.injEq] at made
        obtain ⟨rfl, rfl, rfl⟩ := made
        exact ⟨rfl, Or.inl ⟨rfl, by simp, rfl⟩⟩
      · simp only [Prod.mk.injEq] at made
        obtain ⟨rfl, rfl, rfl⟩ := made
        exact ⟨rfl, Or.inl ⟨rfl, by simp, rfl⟩⟩
      · obtain ⟨bytes, failed | ⟨rfl, created⟩⟩ := grant_cases made
        · exact ⟨bytes, Or.inl failed⟩
        · have main : isSub = false := by simpa using sub
          subst main
          exact ⟨bytes, Or.inr ⟨rfl, window, parent, found, kind, by omega, created⟩⟩

/-- The object that an image creation makes; only `CL_MEM_USE_HOST_PTR` keeps the
pointer. -/
def newImage (flags : MemFlags) (format : ImageFormat) (desc : ImageDesc)
    (data : Option HostArea) : RtKind :=
  .image rt.creations format desc (env.pixels.size format)
    (if flags.useHostPtr then data.bind HostArea.address else none)

/-- `CreateImage`, `CreateImage2D` and `CreateImage3D`. -/
def createImage (context : Handle) (flags : MemFlags) (format : ImageFormat) (desc : ImageDesc)
    (data : Option HostArea) : Handle × ClStatus × Runtime :=
  if hostPtrError flags (data.map HostArea.bytes) then (NULL, some .invalidHostPtr, rt)
  else rt.grant env (rt.newImage env flags format desc data) context

theorem createImage_cases {env : Env} {rt rt' : Runtime} {context handle : Handle}
    {flags : MemFlags} {format : ImageFormat} {desc : ImageDesc} {data : Option HostArea}
    {status : ClStatus}
    (made : rt.createImage env context flags format desc data = (handle, status, rt')) :
    (handle = NULL ∧ status ≠ none ∧ rt'.objects = rt.objects) ∨
      (status = none ∧
        Created rt rt' handle (rt.newImage env flags format desc data) context) := by
  unfold createImage at made
  split_ifs at made with refused
  · simp only [Prod.mk.injEq] at made
    obtain ⟨rfl, rfl, rfl⟩ := made
    exact Or.inl ⟨rfl, by simp, rfl⟩
  · exact (grant_cases made).2

/-- Apart from its own two refusals, an image creation fails as the runtime
answers. -/
theorem createImage_status {env : Env} {rt rt' : Runtime} {context handle : Handle}
    {flags : MemFlags} {format : ImageFormat} {desc : ImageDesc} {data : Option HostArea}
    {error : ClError}
    (made : rt.createImage env context flags format desc data = (handle, some error, rt')) :
    error = .invalidHostPtr ∨ error = .outOfResources ∨
      env.reply rt.creations = .refused error := by
  unfold createImage at made
  split_ifs at made
  · simp only [Prod.mk.injEq, Option.some.injEq] at made
    exact Or.inl made.2.1.symm
  · unfold grant at made
    cases reply : env.reply rt.creations with
    | refused answer =>
        simp only [reply, Prod.mk.injEq, Option.some.injEq] at made
        rw [made.2.1]
        exact Or.inr (Or.inr rfl)
    | granted granted =>
        simp only [reply] at made
        split_ifs at made
        · simp only [Prod.mk.injEq, Option.some.injEq] at made
          exact Or.inr (Or.inl made.2.1.symm)
        · simp at made

/-- `RetainMemObject`. -/
def retain (handle : Handle) : ClStatus × Runtime :=
  match rt.objects.find handle with
  | none => (some .invalidMemObject, rt)
  | some _ =>
      (none, { rt with
        objects := rt.objects.modify handle fun o => { o with refs := o.refs + 1 } })

/-- `ReleaseMemObject`; the object goes with its last reference. -/
def release (handle : Handle) : ClStatus × Runtime :=
  match rt.objects.find handle with
  | none => (some .invalidMemObject, rt)
  | some object =>
      if object.refs ≤ 1 then (none, { rt with objects := rt.objects.remove handle })
      else
        (none, { rt with
          objects := rt.objects.modify handle fun o => { o with refs := o.refs - 1 } })

theorem retain_of_live {rt : Runtime} {handle : Handle} {object : RtObject}
    (live : rt.objects.find handle = some object) :
    rt.retain handle = (none, { rt with
      objects := rt.objects.modify handle fun o => { o with refs := o.refs + 1 } }) := by
  simp [retain, live]

theorem retain_of_dead {rt : Runtime} {handle : Handle} (dead : rt.objects.find handle = none) :
    rt.retain handle = (some .invalidMemObject, rt) := by
  simp [retain, dead]

theorem release_of_dead {rt : Runtime} {handle : Handle} (dead : rt.objects.find handle = none) :
    rt.release handle = (some .invalidMemObject, rt) := by
  simp [release, dead]

theorem release_of_last {rt : Runtime} {handle : Handle} {object : RtObject}
    (live : rt.objects.find handle = some object) (last : object.refs ≤ 1) :
    rt.release handle = (none, { rt with objects := rt.objects.remove handle }) := by
  simp [release, live, last]

theorem release_of_shared {rt : Runtime} {handle : Handle} {object : RtObject}
    (live : rt.objects.find handle = some object) (shared : 1 < object.refs) :
    rt.release handle = (none, { rt with
      objects := rt.objects.modify handle fun o => { o with refs := o.refs - 1 } }) := by
  simp [release, live, Nat.not_le.mpr shared]

/-- The window of a live buffer. -/
def window (handle : Handle) : Option Window :=
  (rt.objects.find handle).bind fun object => object.kind.window

/-- `EnqueueReadBuffer` of `len` bytes: the bytes from `offset` on.  A range
outside the buffer is refused. -/
def readBuffer (handle : Handle) (offset len : Nat) : Option (Nat → UInt8) :=
  (rt.window handle).bind fun window =>
    if offset + len ≤ window.size then
      some fun a => rt.bytes window.store (window.origin + offset + a)
    else none

/-- Overwrite `len` bytes of a live buffer from `offset` on. -/
def writeBuffer (handle : Handle) (offset len : Nat) (src : Nat → UInt8) : Option Runtime :=
  (rt.window handle).bind fun window =>
    if offset + len ≤ window.size then
      some { rt with
        bytes := Function.update rt.bytes window.store
          (Store.blit (rt.bytes window.store) (window.origin + offset) src 0 len) }
    else none

theorem readBuffer_of_window {rt : Runtime} {handle : Handle} {window : Window} {offset len : Nat}
    (live : rt.window handle = some window) (fits : offset + len ≤ window.size) :
    rt.readBuffer handle offset len =
      some fun a => rt.bytes window.store (window.origin + offset + a) := by
  simp [readBuffer, live, fits]

theorem writeBuffer_of_window {rt : Runtime} {handle : Handle} {window : Window}
    {offset len : Nat} {src : Nat → UInt8} (live : rt.window handle = some window)
    (fits : offset + len ≤ window.size) :
    rt.writeBuffer handle offset len src =
      some { rt with
        bytes := Function.update rt.bytes window.store
          (Store.blit (rt.bytes window.store) (window.origin + offset) src 0 len) } := by
  simp [writeBuffer, live, fits]

/-- `EnqueueFillBuffer` with a one-byte pattern. -/
def fillBuffer (handle : Handle) (value : UInt8) (offset len : Nat) : Option Runtime :=
  rt.writeBuffer handle offset len fun _ => value

/-- `EnqueueCopyBuffer`. -/
def copyBuffer (src dst : Handle) (srcOffset dstOffset len : Nat) : Option Runtime :=
  (rt.readBuffer src srcOffset len).bind fun data => rt.writeBuffer dst dstOffset len data

/-- `EnqueueWriteImage` of tightly packed pixels. -/
def writeImage (handle : Handle) (box : Box) (data : Nat → UInt8) : Option Runtime :=
  (rt.objects.find handle).bind fun object =>
    match object.kind with
    | .buffer .. => none
    | .image store _ _ pixelSize _ =>
        some { rt with
          texels := Function.update rt.texels store fun p b =>
            if box.Mem p then data (box.index p * pixelSize + b)
            else rt.texels store p b }

/-- Writing pixels changes no object. -/
theorem writeImage_objects {rt rt' : Runtime} {handle : Handle} {box : Box} {data : Nat → UInt8}
    (written : rt.writeImage handle box data = some rt') :
    rt'.objects = rt.objects ∧ (rt.objects.find handle).isSome := by
  unfold writeImage at written
  obtain ⟨object, found, written⟩ := Option.bind_eq_some_iff.mp written
  split at written
  · simp at written
  · rw [← Option.some.inj written]
    exact ⟨rfl, by simp [found]⟩

end Runtime

end Clarmor
