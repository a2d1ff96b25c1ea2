import Clarmor.Defines
import Clarmor.Library.Table

/-!
# Descriptions of memory objects

The wrapper keeps one `cl_memobj` for every buffer and image and one
`cl_svm_memobj` for every region of shared virtual memory.  A fresh description
is zeroed, as `calloc` leaves it, before fields are set.
-/

namespace Clarmor

/-- The zeroed descriptor of a memory object that is not an image. -/
def ImageDesc.zero : ImageDesc :=
  { imageType := .image1D, imageWidth := 0, imageHeight := 0, imageDepth := 0,
    imageArraySize := 0, imageRowPitch := 0, imageSlicePitch := 0, numMipLevels := 0,
    numSamples := 0, buffer := NULL }

/-- `cl_memobj`. -/
structure MemObj where
  handle : Handle := NULL
  mainBuff : Handle := NULL
  context : Handle := NULL
  flags : MemFlags := {}
  size : Nat := 0
  hostPtr : Nat := NULL
  refCount : Nat := 0
  isImage : Bool := false
  imageFormat : ImageFormat := ⟨.other, .other⟩
  imageDesc : ImageDesc := ImageDesc.zero
  isSub : Bool := false
  origin : Nat := 0
  hasCanary : Bool := false
  detectorInternalBuffer : Bool := false
deriving DecidableEq, Repr

/-- `cl_svm_memobj`.  The application's pointer is the handle; the allocation
starts at `mainBuff`. -/
structure SvmObj where
  handle : Nat
  mainBuff : Nat
  context : Handle
  size : Nat
  detectorInternalBuffer : Bool := false
deriving DecidableEq, Repr

/-- `cl_svm_mem_find`: the region with the greatest key up to a pointer, when
the pointer is at most one past its end. -/
def clSvmMemFind (table : OrderedMap Nat SvmObj) (handle : Nat) : Option SvmObj :=
  (table.entries.filter fun e => e.1 ≤ handle).getLast?.bind fun e =>
    if e.2.handle > handle then none
    else if e.2.size < handle - e.2.handle then none
    else some e.2

end Clarmor
