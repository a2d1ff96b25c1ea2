import Clarmor.Image.FlatCopy
import Clarmor.Library.Word
import Clarmor.Runtime.Memory

/-!
# The intercepted memory-object calls

`clCreateBuffer`, `clCreateSubBuffer`, the three image creations,
`clRetainMemObject` and `clReleaseMemObject` of `cl_interceptor.c`.  A call that
ends the process, by `exit` or by a fault, has no result.  The application
passes a place for the error code to every creation.
-/

namespace Clarmor

open Word Store

/-- The memory-overhead counters. -/
structure MemStats where
  totalUser : Nat := 0
  currentUser : Nat := 0
  highUser : Nat := 0
  totalOverhead : Nat := 0
  currentOverhead : Nat := 0
  highOverhead : Nat := 0
deriving DecidableEq, Repr

/-- The wrapper's state and what it acts on. -/
structure Wrapper where
  /-- The table behind `get_cl_mem_alloc`. -/
  table : Table Handle MemObj
  /-- The table behind `get_cl_svm_mem_alloc`. -/
  svm : OrderedMap Nat SvmObj
  rt : Runtime
  /-- The application's memory, shared virtual memory included. -/
  host : Nat → UInt8
  /-- Calls of `calloc` for buffer contents so far. -/
  callocs : Nat
  stats : MemStats
  /-- `global_tool_stats_flags & STATS_MEM_OVERHEAD`. -/
  statsOn : Bool
  internalCreate : Bool

/-- The state at the start of a process. -/
def Wrapper.initial (host : Nat → UInt8) (statsOn : Bool) : Wrapper :=
  { table := Table.empty
    svm := ⟨[], List.Pairwise.nil⟩
    rt := Runtime.initial
    host := host
    callocs := 0
    stats := {}
    statsOn := statsOn
    internalCreate := false }

/-- The memory behind a host pointer. -/
def hostData (host : Nat → UInt8) (hostPtr : Nat) : Option (Nat → UInt8) :=
  if hostPtr = NULL then none else some fun a => host (hostPtr + a)

/-- The memory behind a host pointer, with its address. -/
def hostArea (host : Nat → UInt8) (hostPtr : Nat) : Option HostArea :=
  (hostData host hostPtr).map (HostArea.mk (some hostPtr))

/-- `cl_mem_insert`. -/
def clMemInsert (table : Table Handle MemObj) (item : MemObj) : Table Handle MemObj :=
  table.insert item.handle item

namespace MemStats

/-- Count an allocation of the application or of the detector itself. -/
def allocate (s : MemStats) (internalCreate : Bool) (size : Nat) : MemStats :=
  if internalCreate then
    { s with
      totalOverhead := u64 (s.totalOverhead + size)
      currentOverhead := u64 (s.currentOverhead + size) }
  else
    { s with
      totalUser := u64 (s.totalUser + size)
      currentUser := u64 (s.currentUser + size) }

/-- Count the canaries of an allocation. -/
def addOverhead (s : MemStats) (size : Nat) : MemStats :=
  { s with
    totalOverhead := u64 (s.totalOverhead + size)
    currentOverhead := u64 (s.currentOverhead + size) }

/-- Raise the high-water marks. -/
def raise (s : MemStats) : MemStats :=
  { s with
    highUser := max s.highUser s.currentUser
    highOverhead := max s.highOverhead s.currentOverhead }

/-- Take a released object off the counters. -/
def free (s : MemStats) (internalCreate : Bool) (m : MemObj) : MemStats :=
  if internalCreate then
    let rest := sub64 s.currentOverhead m.size
    { s with
      currentOverhead :=
        if m.isImage then rest else sub64 rest (POISON_REGIONS * POISON_FILL_LENGTH) }
  else if !m.hasCanary then { s with currentUser := sub64 s.currentUser m.size }
  else if m.isImage then
    let desc := m.imageDesc
    let a :=
      if desc.imageArraySize > 1 then
        if desc.imageHeight > 1 then sub64 desc.imageArraySize IMAGE_POISON_DEPTH
        else sub64 desc.imageArraySize IMAGE_POISON_HEIGHT
      else desc.imageArraySize
    let w :=
      if desc.imageWidth > 1 then sub64 desc.imageWidth IMAGE_POISON_WIDTH else desc.imageWidth
    let h :=
      if desc.imageHeight > 1 then sub64 desc.imageHeight IMAGE_POISON_HEIGHT
      else desc.imageHeight
    let d :=
      if desc.imageDepth > 1 then sub64 desc.imageDepth IMAGE_POISON_DEPTH else desc.imageDepth
    let imgSize := u64 (w * h * d * a * getImageDataSize m.imageFormat)
    { s with
      currentUser := sub64 s.currentUser imgSize
      currentOverhead := sub64 s.currentOverhead (sub64 m.size imgSize) }
  else
    { s with
      currentUser := sub64 s.currentUser m.size
      currentOverhead := sub64 s.currentOverhead (POISON_REGIONS * POISON_FILL_LENGTH) }

end MemStats

/-- Change the counters, when they are kept. -/
def Wrapper.count (w : Wrapper) (f : MemStats → MemStats) : Wrapper :=
  { w with stats := if w.statsOn then f w.stats else w.stats }

@[simp]
theorem Wrapper.count_table (w : Wrapper) (f : MemStats → MemStats) :
    (w.count f).table = w.table :=
  rfl

@[simp]
theorem Wrapper.count_rt (w : Wrapper) (f : MemStats → MemStats) : (w.count f).rt = w.rt :=
  rfl

@[simp]
theorem Wrapper.count_host (w : Wrapper) (f : MemStats → MemStats) : (w.count f).host = w.host :=
  rfl

@[simp]
theorem Wrapper.count_callocs (w : Wrapper) (f : MemStats → MemStats) :
    (w.count f).callocs = w.callocs :=
  rfl

/-! ## Buffers -/

/-- The flags that `clCreateBuffer` passes on: the kernels of the detector read
and write every buffer. -/
def bufferFlags (flags : MemFlags) : MemFlags :=
  { flags with
    writeOnly := false
    readOnly := false
    readWrite := true
    hostWriteOnly := false
    hostReadOnly := false
    hostNoAccess := false }

/-- The `uint32_t offset` of the canary behind the data of a buffer: all code
that addresses it starts with one of the two summands and adds the other. -/
def canaryOffset (size : Nat) : Nat := u32 (u32 size + POISON_FILL_LENGTH)

/-- The contents that `clCreateBuffer` prepares: canary, data, canary.  Copying
from a null pointer is a fault. -/
def fillBufferCopy (flags : MemFlags) (size : Nat) (data : Option (Nat → UInt8)) :
    Option (Block UInt8) :=
  let offset := POISON_FILL_LENGTH
  ((Block.replicate (u64 (size + POISON_REGIONS * POISON_FILL_LENGTH)) 0).fill 0
    POISON_FILL_LENGTH POISON_FILL).bind fun fillPtr =>
  (if flags.copyHostPtr then data.bind fun host => fillPtr.blit offset host 0 size
    else some fillPtr).bind fun fillPtr =>
  fillPtr.fill (u32 (offset + size)) POISON_FILL_LENGTH POISON_FILL

/-- The description that `clCreateBuffer` enters. -/
def bufferObject (handle mainBuff context : Handle) (flags : MemFlags) (size hostPtr : Nat) :
    MemObj :=
  if flags.useHostPtr then
    { handle := handle, context := context, flags := flags, size := size, hostPtr := hostPtr,
      refCount := 1 }
  else
    { handle := handle, context := context, flags := flags, size := size, mainBuff := mainBuff,
      hostPtr := NULL, hasCanary := true, refCount := 1 }

/-- The end of `clCreateBuffer`: enter the new handle, if there is one. -/
def enterBuffer (w : Wrapper) (handle mainBuff context : Handle) (flags : MemFlags)
    (size hostPtr : Nat) (status : ClStatus) : Handle × ClStatus × Wrapper :=
  if handle = NULL then (NULL, status, w)
  else
    (handle, status, { w with
      table := clMemInsert w.table (bufferObject handle mainBuff context flags size hostPtr) })

/-- Create the backing buffer and, where it is the wrapper's own, hand out its
middle as a sub-buffer. -/
def createBacking (env : Env) (w : Wrapper) (context : Handle) (flags : MemFlags)
    (size sizeAug hostPtr : Nat) (data : Option (Nat → UInt8)) :
    Option (Handle × ClStatus × Wrapper) :=
  match w.rt.createBuffer env context flags sizeAug data with
  | (mainBuff, internalErr, rt) =>
      if mainBuff ≠ NULL ∧ flags.useHostPtr = false then
        match rt.createSubBuffer env mainBuff POISON_FILL_LENGTH size with
        | (ret, none, rt) =>
            some (enterBuffer { w with rt := rt } ret mainBuff context flags size hostPtr none)
        | (_, some _, _) => none
      else
        some (enterBuffer { w with rt := rt } mainBuff mainBuff context flags size hostPtr
          internalErr)

/-- `clCreateBuffer`. -/
def clCreateBuffer (env : Env) (w : Wrapper) (context : Handle) (flags : MemFlags)
    (size hostPtr : Nat) : Option (Handle × ClStatus × Wrapper) :=
  if size = 0 then some (NULL, some .invalidBufferSize, w)
  else
    let w := w.count fun s => s.allocate w.internalCreate size
    let flags := bufferFlags flags
    if flags.useHostPtr then
      let w := w.count MemStats.raise
      createBacking env w context flags size size hostPtr (hostData w.host hostPtr)
    else if env.calloc w.callocs then
      (fillBufferCopy flags size (hostData w.host hostPtr)).bind fun fillPtr =>
      let w := { w with callocs := w.callocs + 1 }
      let w := w.count fun s => s.addOverhead (POISON_REGIONS * POISON_FILL_LENGTH)
      let w := w.count MemStats.raise
      createBacking env w context { flags with copyHostPtr := true } size
        (u64 (size + POISON_REGIONS * POISON_FILL_LENGTH)) hostPtr (some fillPtr.get)
    else
      let w := { w with callocs := w.callocs + 1 }
      let w := w.count MemStats.raise
      createBacking env w context flags size size hostPtr none

/-- `clCreateSubBuffer` of a region.  The description of the parent is read
without a check. -/
def clCreateSubBuffer (env : Env) (w : Wrapper) (buffer : Handle) (flags : MemFlags)
    (origin size : Nat) : Option (Handle × ClStatus × Wrapper) :=
  (w.table.find buffer).bind fun superBuff =>
  let buffer := if superBuff.hasCanary then superBuff.mainBuff else buffer
  let origin := if superBuff.hasCanary then u64 (origin + POISON_FILL_LENGTH) else origin
  match w.rt.createSubBuffer env buffer origin size with
  | (ret, status, rt) =>
      let w := { w with rt := rt }
      if ret = NULL then some (NULL, status, w)
      else
        some (ret, status, { w with
          table := clMemInsert w.table
            { handle := ret
              isSub := true
              context := superBuff.context
              flags := flags
              size := size
              origin := origin
              hostPtr := if superBuff.hostPtr ≠ NULL then superBuff.hostPtr + origin else NULL
              refCount := 1 } })

/-! ## Images -/

/-- What an image creation hands to its end: the new handle, the error code for
the application, the description and the runtime. -/
structure ImageCreation where
  ret : Handle
  status : ClStatus
  temp : MemObj
  rt : Runtime

/-- The part of the image creations that calls the runtime.  Where the contents
are to be copied, the image is created without them and written afterwards; only
this branch sets the handle.  `keepStatus` tells whether the result of the
creation reaches `internal_err`. -/
def createImageObject (env : Env) (rt : Runtime) (temp : MemObj) (passed : ImageDesc)
    (fillPtr : Option HostArea) (keepStatus : Bool) : Option ImageCreation :=
  if temp.flags.copyHostPtr then
    let flags := { temp.flags with copyHostPtr := false }
    match rt.createImage env temp.context flags temp.imageFormat passed none with
    | (ret, status, rt) =>
        let internalErr := if keepStatus then status else none
        let temp := { temp with flags := flags, handle := ret }
        if internalErr = some .imageFormatNotSupported ∨
            internalErr = some .invalidImageFormatDescriptor then
          some ⟨ret, internalErr, temp, rt⟩
        else
          let region : Box :=
            ⟨0, 0, 0, temp.imageDesc.imageWidth, temp.imageDesc.imageHeight,
              temp.imageDesc.imageDepth⟩
          (fillPtr.bind fun data => rt.writeImage ret region data.bytes).bind fun rt =>
          some ⟨ret, internalErr, temp, rt⟩
  else
    match rt.createImage env temp.context temp.flags temp.imageFormat passed fillPtr with
    | (ret, status, rt) => some ⟨ret, status, temp, rt⟩

/-- The end of the image creations: enter the description. -/
def enterImage (w : Wrapper) (flags : MemFlags) (hostPtr : Nat) (c : ImageCreation) :
    Handle × ClStatus × Wrapper :=
  (c.ret, c.status, { w with
    rt := c.rt
    table := clMemInsert w.table
      { c.temp with
        hostPtr := if flags.useHostPtr then hostPtr else NULL
        refCount := 1
        detectorInternalBuffer := false } })

/-- The contents of an expanded image; copying from a null pointer is a fault. -/
def flatImageData (temp : MemObj) (host : Nat → UInt8) (hostPtr : Nat) : Option (Block UInt8) :=
  if temp.flags.copyHostPtr ∧ hostPtr = NULL then none
  else allocFlatImageCopy temp fun a => host (hostPtr + a)

/-- The body that the three image creations share.  `plain` tells whether the
application's memory is used as it is, `canaried` finishes the description of an
expanded image and `passed` gives the descriptor for the runtime. -/
def createImageCommon (env : Env) (w : Wrapper) (flags : MemFlags) (temp : MemObj) (hostPtr : Nat)
    (plain keepStatus : Bool) (canaried : MemObj → MemObj) (passed : MemObj → ImageDesc) :
    Option (Handle × ClStatus × Wrapper) :=
  let imgSize := temp.size
  let w := w.count fun s => s.allocate w.internalCreate imgSize
  if plain then
    let w := w.count MemStats.raise
    (createImageObject env w.rt temp (passed temp) (hostArea w.host hostPtr) keepStatus).map
      (enterImage w flags hostPtr)
  else
    let temp := expandImage temp
    let w := w.count fun s => s.addOverhead (sub64 temp.size imgSize)
    (flatImageData temp w.host hostPtr).bind fun fillPtr =>
    let temp := canaried { temp with
      flags := { flags with copyHostPtr := true }
      hasCanary := true }
    let w := w.count MemStats.raise
    (createImageObject env w.rt temp (passed temp) (some ⟨none, fillPtr.get⟩) keepStatus).map
      (enterImage w flags hostPtr)

/-- `clCreateImage`.  The pitches of a canaried image are reset, and the result
of the creation is overwritten with `CL_SUCCESS` where contents are copied. -/
def clCreateImage (env : Env) (w : Wrapper) (context : Handle) (flags : MemFlags)
    (format : ImageFormat) (desc : ImageDesc) (hostPtr : Nat) :
    Option (Handle × ClStatus × Wrapper) :=
  createImageCommon env w flags (imageTemp context flags format desc) hostPtr
    (flags.useHostPtr || desc.buffer != NULL) false
    (fun temp => { temp with
      imageDesc := { temp.imageDesc with imageRowPitch := 0, imageSlicePitch := 0 } })
    MemObj.imageDesc

/-- The descriptor that the calls with separate dimensions stand for; they pass
no pitches on. -/
def unpitched (temp : MemObj) : ImageDesc :=
  { temp.imageDesc with imageRowPitch := 0, imageSlicePitch := 0 }

/-- `clCreateImage2D`. -/
def clCreateImage2D (env : Env) (w : Wrapper) (context : Handle) (flags : MemFlags)
    (format : ImageFormat) (imageWidth imageHeight imageRowPitch hostPtr : Nat) :
    Option (Handle × ClStatus × Wrapper) :=
  createImageCommon env w flags
    (imageTemp context flags format
      ⟨.image2D, imageWidth, imageHeight, 1, 1, imageRowPitch, 0, 0, 0, NULL⟩)
    hostPtr flags.useHostPtr true id unpitched

/-- `clCreateImage3D`. -/
def clCreateImage3D (env : Env) (w : Wrapper) (context : Handle) (flags : MemFlags)
    (format : ImageFormat)
    (imageWidth imageHeight imageDepth imageRowPitch imageSlicePitch hostPtr : Nat) :
    Option (Handle × ClStatus × Wrapper) :=
  createImageCommon env w flags
    (imageTemp context flags format
      ⟨.image3D, imageWidth, imageHeight, imageDepth, 1, imageRowPitch, imageSlicePitch, 0, 0,
        NULL⟩)
    hostPtr flags.useHostPtr true id unpitched

/-! ## References -/

/-- `clRetainMemObject`. -/
def clRetainMemObject (w : Wrapper) (memobj : Handle) : ClStatus × Wrapper :=
  let findme := w.table.find memobj
  let table := w.table.modify memobj fun m => { m with refCount := u32 (m.refCount + 1) }
  match w.rt.retain memobj with
  | (err, rt) =>
      match findme with
      | some m =>
          if m.mainBuff ≠ NULL then
            match rt.retain m.mainBuff with
            | (err, rt) => (err, { w with table := table, rt := rt })
          else (err, { w with table := table, rt := rt })
      | none => (err, { w with table := table, rt := rt })

/-- The wrapper's own part of a release: the description goes when its count
becomes zero. -/
def releaseEntry (w : Wrapper) (memobj : Handle) (m : MemObj) : Wrapper :=
  let refCount := sub32 m.refCount 1
  let m := { m with refCount := refCount }
  if refCount = 0 then
    let w := w.count fun s => s.free w.internalCreate m
    { w with table := w.table.remove memobj }
  else { w with table := w.table.modify memobj fun _ => m }

/-- Release a handle and then its backing buffer, where it has one. -/
def releaseObjects (w : Wrapper) (memobj mainBuff : Handle) : ClStatus × Wrapper :=
  match w.rt.release memobj with
  | (err, rt) =>
      if mainBuff ≠ NULL then
        match rt.release mainBuff with
        | (err, rt) => (err, { w with rt := rt })
      else (err, { w with rt := rt })

/-- `clReleaseMemObject`.  The backing buffer is read from the description before
that goes. -/
def clReleaseMemObject (w : Wrapper) (memobj : Handle) : ClStatus × Wrapper :=
  match w.table.find memobj with
  | none => releaseObjects w memobj NULL
  | some m => releaseObjects (releaseEntry w memobj m) memobj m.mainBuff

end Clarmor
