import Mathlib

/-!
# Constants and API data

The constants of `detector_defines.h` and the OpenCL values that the detector
reads: memory flags, image formats and image descriptors.  Handles and host
pointers are natural numbers, and `0` is `NULL`.
-/

namespace Clarmor

/-- Length in bytes of one canary region of a buffer. -/
def POISON_FILL_LENGTH : Nat := 4096

/-- Canary regions of one buffer; `UNDERFLOW_CHECK` puts one before the data. -/
def POISON_REGIONS : Nat := 2

/-- Canary columns of an image, in pixels. -/
def IMAGE_POISON_WIDTH : Nat := 16

/-- Canary rows of an image. -/
def IMAGE_POISON_HEIGHT : Nat := 16

/-- Canary slices of an image. -/
def IMAGE_POISON_DEPTH : Nat := 16

/-- The canary byte. -/
def POISON_FILL : UInt8 := 0xC2

/-- The canary word, four canary bytes. -/
def poisonFill_32b : Nat := 0xC2C2C2C2

/-- Length of one canary region in 32-bit words. -/
def poisonWordLen : Nat := 1024

/-- The initial value of every first-change cell. -/
def INT_MAX : Nat := 2147483647

/-- A `cl_mem`, a `cl_kernel`, a `cl_context` or any other opaque handle. -/
abbrev Handle := Nat

/-- The null handle. -/
def NULL : Handle := 0

/-- The bits of `cl_mem_flags` that the wrapper reads or changes. -/
structure MemFlags where
  readWrite : Bool := false
  writeOnly : Bool := false
  readOnly : Bool := false
  useHostPtr : Bool := false
  allocHostPtr : Bool := false
  copyHostPtr : Bool := false
  hostWriteOnly : Bool := false
  hostReadOnly : Bool := false
  hostNoAccess : Bool := false
deriving DecidableEq, Repr

/-- `cl_mem_object_type` of an image. -/
inductive ImageType where
  | image1D
  | image1DBuffer
  | image1DArray
  | image2D
  | image2DArray
  | image3D
deriving DecidableEq, Repr

/-- `cl_channel_type`; the packed and the unknown types are named after their
case in `getImageDataSize`. -/
inductive ChannelType where
  | snormInt8 | unormInt8 | signedInt8 | unsignedInt8
  | snormInt16 | unormInt16 | signedInt16 | unsignedInt16 | halfFloat
  | unormShort565 | unormShort555
  | unormInt24
  | signedInt32 | unsignedInt32 | float
  | unormInt101010
  | other
deriving DecidableEq, Repr

/-- `cl_channel_order`. -/
inductive ChannelOrder where
  | r | rx | a
  | intensity | luminance | depth
  | rg | rgx | ra
  | rgb | rgbx
  | rgba
  | sRGB | sRGBx | sRGBA | sBGRA
  | argb | bgra | abgr
  | depthStencil
  | other
deriving DecidableEq, Repr

/-- `cl_image_format`. -/
structure ImageFormat where
  imageChannelOrder : ChannelOrder
  imageChannelDataType : ChannelType
deriving DecidableEq, Repr

/-- The bytes of one channel in `getImageDataSize`. -/
def ChannelType.byteChannel : ChannelType → Nat
  | snormInt8 | unormInt8 | signedInt8 | unsignedInt8 => 1
  | snormInt16 | unormInt16 | signedInt16 | halfFloat | unsignedInt16 => 2
  | unormShort565 => 2
  | unormShort555 => 2
  | unormInt24 => 3
  | signedInt32 | unsignedInt32 | float => 4
  | unormInt101010 => 4
  | other => 0

/-- The channels that `getImageDataSize` counts; packed orders count once. -/
def ChannelOrder.numChannels : ChannelOrder → Nat
  | r | rx | a => 1
  | intensity | luminance | depth => 1
  | rg | rgx | ra => 2
  | rgb | rgbx => 1
  | rgba => 4
  | sRGB | sRGBx | sRGBA | sBGRA => 4
  | argb | bgra | abgr => 4
  | depthStencil => 1
  | other => 0

/-- Bytes of one pixel. -/
def getImageDataSize (format : ImageFormat) : Nat :=
  format.imageChannelDataType.byteChannel * format.imageChannelOrder.numChannels

/-- A pixel has at most sixteen bytes. -/
theorem getImageDataSize_le (format : ImageFormat) : getImageDataSize format ≤ 16 := by
  have bytes : format.imageChannelDataType.byteChannel ≤ 4 := by
    cases format.imageChannelDataType <;> decide
  have channels : format.imageChannelOrder.numChannels ≤ 4 := by
    cases format.imageChannelOrder <;> decide
  exact Nat.mul_le_mul bytes channels

/-- The sizes of the pixels of the runtime. -/
structure PixelSizes where
  size : ImageFormat → Nat
  pos : ∀ format, 0 < size format

/-- Pixels as `getImageDataSize` counts them, when it knows the format. -/
def countedSizes : PixelSizes where
  size format := max 1 (getImageDataSize format)
  pos _ := Nat.lt_of_lt_of_le Nat.one_pos (Nat.le_max_left _ _)

/-- `cl_image_desc`. -/
@[ext]
structure ImageDesc where
  imageType : ImageType
  imageWidth : Nat
  imageHeight : Nat
  imageDepth : Nat
  imageArraySize : Nat
  imageRowPitch : Nat
  imageSlicePitch : Nat
  numMipLevels : Nat
  numSamples : Nat
  buffer : Handle
deriving DecidableEq, Repr

end Clarmor
