import Clarmor.Library.Box
import Clarmor.Library.Word
import Clarmor.MetaData.MemObj

/-!
# Image descriptions and their canary borders

`clCreateImage` normalises the descriptor it was given, and
`expandLastDimForFill` then adds the canary columns, rows and slices.  The
sizes of the expanded image and of its data are read back from the expanded
descriptor by `get_image_dimensions`.
-/

namespace Clarmor

open Word

/-- The "error correcting" of `clCreateImage`: dimensions that the image type
does not use are one. -/
def standardDesc (desc : ImageDesc) : ImageDesc :=
  match desc.imageType with
  | .image1D => { desc with imageHeight := 1, imageDepth := 1, imageArraySize := 1 }
  | .image1DBuffer => { desc with imageHeight := 1, imageDepth := 1, imageArraySize := 1 }
  | .image1DArray => { desc with imageHeight := 1, imageDepth := 1 }
  | .image2D => { desc with imageDepth := 1, imageArraySize := 1 }
  | .image2DArray => { desc with imageDepth := 1 }
  | .image3D => { desc with imageArraySize := 1 }

/-- Make room for the canaries in every dimension that the image type uses. -/
def expandLastDimForFill (desc : ImageDesc) : ImageDesc :=
  match desc.imageType with
  | .image1D => { desc with imageWidth := desc.imageWidth + IMAGE_POISON_WIDTH }
  | .image1DBuffer => { desc with imageWidth := desc.imageWidth + IMAGE_POISON_WIDTH }
  | .image1DArray =>
      { desc with
        imageWidth := desc.imageWidth + IMAGE_POISON_WIDTH
        imageArraySize := desc.imageArraySize + IMAGE_POISON_HEIGHT }
  | .image2D =>
      { desc with
        imageWidth := desc.imageWidth + IMAGE_POISON_WIDTH
        imageHeight := desc.imageHeight + IMAGE_POISON_HEIGHT }
  | .image2DArray =>
      { desc with
        imageWidth := desc.imageWidth + IMAGE_POISON_WIDTH
        imageHeight := desc.imageHeight + IMAGE_POISON_HEIGHT
        imageArraySize := desc.imageArraySize + IMAGE_POISON_DEPTH }
  | .image3D =>
      { desc with
        imageWidth := desc.imageWidth + IMAGE_POISON_WIDTH
        imageHeight := desc.imageHeight + IMAGE_POISON_HEIGHT
        imageDepth := desc.imageDepth + IMAGE_POISON_DEPTH }

/-- The product that the wrapper stores as the size of an image. -/
def imageSize (desc : ImageDesc) (format : ImageFormat) : Nat :=
  u64 (desc.imageWidth * desc.imageHeight * desc.imageDepth * desc.imageArraySize *
    getImageDataSize format)

/-- The description that the image creation functions fill in before they
decide about canaries. -/
def imageTemp (context : Handle) (flags : MemFlags) (format : ImageFormat) (desc : ImageDesc) :
    MemObj :=
  { isImage := true
    context := context
    flags := flags
    imageFormat := format
    imageDesc := standardDesc desc
    size := imageSize (standardDesc desc) format }

/-- The same description with room for the canaries. -/
def expandImage (temp : MemObj) : MemObj :=
  { temp with
    imageDesc := expandLastDimForFill temp.imageDesc
    size := imageSize (expandLastDimForFill temp.imageDesc) temp.imageFormat }

/-- The six results of `get_image_dimensions`. -/
structure ImageDims where
  iLim : Nat
  jLim : Nat
  kLim : Nat
  iDat : Nat
  jDat : Nat
  kDat : Nat
deriving DecidableEq, Repr

/-- Extents of the image with canaries and of its data.  The sizes are read
into `uint32_t`. -/
def getImageDimensions (a : Arith) (desc : ImageDesc) : ImageDims :=
  let iLim := a.wrap32 desc.imageWidth
  let jLim :=
    if desc.imageType = .image1DArray then a.wrap32 desc.imageArraySize
    else a.wrap32 desc.imageHeight
  let kLim :=
    if desc.imageType = .image2DArray then a.wrap32 desc.imageArraySize
    else a.wrap32 desc.imageDepth
  { iLim := iLim
    jLim := jLim
    kLim := kLim
    iDat := if iLim = 1 then 1 else a.sub32 iLim IMAGE_POISON_WIDTH
    jDat := if jLim = 1 then 1 else a.sub32 jLim IMAGE_POISON_HEIGHT
    kDat := if kLim = 1 then 1 else a.sub32 kLim IMAGE_POISON_DEPTH }

/-- Bytes of the flattened canary array. -/
def getImageCanarySize (a : Arith) (imageType : ImageType)
    (dataSize iLim jLim jDat kDat : Nat) : Nat :=
  let rows := kDat * jDat * IMAGE_POISON_WIDTH
  let columns := a.wrap32 (kDat * IMAGE_POISON_HEIGHT * iLim)
  let slices := a.wrap32 (IMAGE_POISON_DEPTH * jLim * iLim)
  match imageType with
  | .image2DArray | .image3D => a.wrap64 ((rows + slices + columns) * dataSize)
  | .image1DArray | .image2D => a.wrap64 ((rows + columns) * dataSize)
  | .image1D | .image1DBuffer => a.wrap64 (rows * dataSize)

/-- The pixels of an image as its descriptor gives them.  The array index is
the second coordinate of a 1D array and the third one of a 2D array. -/
def imageBox (desc : ImageDesc) : Box :=
  match desc.imageType with
  | .image1D | .image1DBuffer => ⟨0, 0, 0, desc.imageWidth, 1, 1⟩
  | .image1DArray => ⟨0, 0, 0, desc.imageWidth, desc.imageArraySize, 1⟩
  | .image2D => ⟨0, 0, 0, desc.imageWidth, desc.imageHeight, 1⟩
  | .image2DArray => ⟨0, 0, 0, desc.imageWidth, desc.imageHeight, desc.imageArraySize⟩
  | .image3D => ⟨0, 0, 0, desc.imageWidth, desc.imageHeight, desc.imageDepth⟩

/-- Pixels that the expansion of a descriptor adds. -/
def IsCanaryPixel (desc : ImageDesc) (p : Point) : Prop :=
  (imageBox (expandLastDimForFill desc)).Mem p ∧ ¬ (imageBox desc).Mem p

instance (desc : ImageDesc) (p : Point) : Decidable (IsCanaryPixel desc p) := by
  unfold IsCanaryPixel
  infer_instance

/-- What the expansion makes of the extents: the width always gets a border,
the second extent gets one or is a single row, and the third one gets one
(then the second has one as well) or is a single slice. -/
structure ImageDims.Bordered (s : ImageDims) : Prop where
  width : s.iLim = s.iDat + IMAGE_POISON_WIDTH
  height : s.jLim = s.jDat + IMAGE_POISON_HEIGHT ∨ (s.jLim = 1 ∧ s.jDat = 1)
  depth : (s.kLim = s.kDat + IMAGE_POISON_DEPTH ∧ s.jLim = s.jDat + IMAGE_POISON_HEIGHT) ∨
    (s.kLim = 1 ∧ s.kDat = 1)

@[simp]
theorem standardDesc_imageType (desc : ImageDesc) :
    (standardDesc desc).imageType = desc.imageType := by
  unfold standardDesc
  cases type : desc.imageType <;> simp

@[simp]
theorem expandLastDimForFill_imageType (desc : ImageDesc) :
    (expandLastDimForFill desc).imageType = desc.imageType := by
  unfold expandLastDimForFill
  cases type : desc.imageType <;> simp

@[simp]
theorem imageBox_standardDesc (desc : ImageDesc) :
    imageBox (standardDesc desc) = imageBox desc := by
  cases type : desc.imageType <;> simp [imageBox, standardDesc, type]

namespace ImageDims

/-- The box of all pixels. -/
def limBox (s : ImageDims) : Box := ⟨0, 0, 0, s.iLim, s.jLim, s.kLim⟩

/-- The box of the data. -/
def datBox (s : ImageDims) : Box := ⟨0, 0, 0, s.iDat, s.jDat, s.kDat⟩

end ImageDims

/-- The extents of an image expanded from the application's descriptor. -/
def expandedDims (desc : ImageDesc) : ImageDims :=
  getImageDimensions .exact (expandLastDimForFill (standardDesc desc))

/-- The extents by image type. -/
theorem expandedDims_eq (desc : ImageDesc) :
    expandedDims desc =
      match desc.imageType with
      | .image1D | .image1DBuffer => ⟨desc.imageWidth + 16, 1, 1, desc.imageWidth, 1, 1⟩
      | .image1DArray =>
          ⟨desc.imageWidth + 16, desc.imageArraySize + 16, 1, desc.imageWidth,
            desc.imageArraySize, 1⟩
      | .image2D =>
          ⟨desc.imageWidth + 16, desc.imageHeight + 16, 1, desc.imageWidth, desc.imageHeight, 1⟩
      | .image2DArray =>
          ⟨desc.imageWidth + 16, desc.imageHeight + 16, desc.imageArraySize + 16,
            desc.imageWidth, desc.imageHeight, desc.imageArraySize⟩
      | .image3D =>
          ⟨desc.imageWidth + 16, desc.imageHeight + 16, desc.imageDepth + 16,
            desc.imageWidth, desc.imageHeight, desc.imageDepth⟩ := by
  cases type : desc.imageType <;>
    simp [expandedDims, getImageDimensions, expandLastDimForFill, standardDesc, type,
      IMAGE_POISON_WIDTH, IMAGE_POISON_HEIGHT, IMAGE_POISON_DEPTH]

/-- The expansion puts a border around the data. -/
theorem expandedDims_bordered (desc : ImageDesc) : (expandedDims desc).Bordered := by
  rw [expandedDims_eq]
  cases type : desc.imageType <;> constructor <;>
    simp [IMAGE_POISON_WIDTH, IMAGE_POISON_HEIGHT, IMAGE_POISON_DEPTH]

/-- The limits are the extents of the expanded image. -/
theorem imageBox_expand (desc : ImageDesc) :
    imageBox (expandLastDimForFill desc) = (expandedDims desc).limBox := by
  rw [expandedDims_eq]
  cases type : desc.imageType <;>
    simp [imageBox, expandLastDimForFill, type, ImageDims.limBox, IMAGE_POISON_WIDTH,
      IMAGE_POISON_HEIGHT, IMAGE_POISON_DEPTH]

/-- The data extents are the extents the application asked for. -/
theorem imageBox_eq_datBox (desc : ImageDesc) : imageBox desc = (expandedDims desc).datBox := by
  rw [expandedDims_eq]
  cases type : desc.imageType <;> simp [imageBox, type, ImageDims.datBox]

theorem sub32_border {dat : Nat} (limLt : dat + 16 < 4294967296) :
    (if dat + 16 = 1 then 1 else sub32 (dat + 16) 16) = dat := by
  rw [if_neg (by omega), sub32_of_le limLt (by omega), Nat.add_sub_cancel]

/-- Extents below `2^32` are read exactly. -/
theorem machine_dims {desc : ImageDesc} (iLt : (expandedDims desc).iLim < 4294967296)
    (jLt : (expandedDims desc).jLim < 4294967296) (kLt : (expandedDims desc).kLim < 4294967296) :
    getImageDimensions .machine (expandLastDimForFill (standardDesc desc)) =
      expandedDims desc := by
  rw [expandedDims_eq] at iLt jLt kLt ⊢
  have one : u32 1 = 1 := by decide
  cases type : desc.imageType <;> simp only [type] at iLt jLt kLt <;>
    simp [getImageDimensions, expandLastDimForFill, standardDesc, type, one, IMAGE_POISON_WIDTH,
      IMAGE_POISON_HEIGHT, IMAGE_POISON_DEPTH, u32_of_lt iLt, u32_of_lt jLt, u32_of_lt kLt,
      sub32_of_le iLt, sub32_of_le jLt, sub32_of_le kLt]

end Clarmor
