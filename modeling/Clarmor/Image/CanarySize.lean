import Clarmor.Image.Layout

/-!
# The size of the canaries of an image

`get_image_canary_size` adds up to three products.  The first one is made of 64-bit
factors; the other two are made of 32-bit factors and are widened when they are added.
-/

namespace Clarmor

open Word

namespace ImageDims

/-- The canary pixels and the data pixels are all pixels. -/
theorem canaryPixels_add_volume {s : ImageDims} (bordered : s.Bordered) :
    s.canaryPixels + s.datBox.volume = s.limBox.volume := by
  obtain ⟨width, height, depth⟩ := bordered
  simp only [IMAGE_POISON_WIDTH, IMAGE_POISON_HEIGHT, IMAGE_POISON_DEPTH] at width height depth
  simp only [canaryPixels, slicesEnd, Box.volume, datBox, limBox, IMAGE_POISON_WIDTH,
    IMAGE_POISON_HEIGHT, IMAGE_POISON_DEPTH, width]
  rcases depth with ⟨slices, rows⟩ | ⟨oneSlice, oneData⟩
  · rw [if_pos (by omega), if_pos (by omega), slices, rows]
    ring
  · rcases height with rows | ⟨oneRow, oneData'⟩
    · rw [if_pos (by omega), if_neg (by omega), rows, oneSlice, oneData]
      ring
    · rw [if_neg (by omega), oneRow, oneData', oneSlice, oneData]
      ring

end ImageDims

/-- The pixels that the expansion adds are as many as the flattened array has. -/
theorem ncard_isCanaryPixel (desc : ImageDesc) :
    {p | IsCanaryPixel desc p}.ncard = (expandedDims desc).canaryPixels := by
  have bordered := expandedDims_bordered desc
  have total := ImageDims.canaryPixels_add_volume bordered
  have inside :
      {p | (expandedDims desc).datBox.Mem p} ⊆ {p | (expandedDims desc).limBox.Mem p} := by
    rintro p ⟨⟨-, x⟩, ⟨-, y⟩, -, z⟩
    obtain ⟨width, height, depth⟩ := bordered
    simp only [ImageDims.datBox, ImageDims.limBox, Box.Mem, Set.mem_ofPred_eq] at x y z ⊢
    omega
  calc
    {p | IsCanaryPixel desc p}.ncard =
        ({p | (expandedDims desc).limBox.Mem p} \
          {p | (expandedDims desc).datBox.Mem p}).ncard := by
      congr 1
      ext p
      rw [Set.mem_ofPred_eq, IsCanaryPixel, imageBox_expand, imageBox_eq_datBox]
      rfl
    _ = (expandedDims desc).limBox.volume - (expandedDims desc).datBox.volume := by
      rw [Set.ncard_sdiff inside (Box.finite_setOf_mem _), Box.ncard_setOf_mem, Box.ncard_setOf_mem]
    _ = (expandedDims desc).canaryPixels := by omega

/-! ## The sum -/

/-- The products that have 32-bit factors fit in 32 bits. -/
def ProductsFit (imageType : ImageType) (s : ImageDims) : Prop :=
  match imageType with
  | .image2DArray | .image3D =>
      s.kDat * IMAGE_POISON_HEIGHT * s.iLim < 4294967296 ∧
        IMAGE_POISON_DEPTH * s.jLim * s.iLim < 4294967296
  | .image1DArray | .image2D => s.kDat * IMAGE_POISON_HEIGHT * s.iLim < 4294967296
  | .image1D | .image1DBuffer => True

/-- Products that are reduced before they are added give the exact result when nothing
was reduced, or when the result does not count. -/
theorem u64_sum_eq_iff {rows slices columns pixel : Nat}
    (fits : (rows + slices + columns) * pixel < 18446744073709551616) :
    u64 ((rows + u32 slices + u32 columns) * pixel) = (rows + slices + columns) * pixel ↔
      pixel = 0 ∨ columns < 4294967296 ∧ slices < 4294967296 := by
  have slicesLe := u32_le slices
  have columnsLe := u32_le columns
  have less : (rows + u32 slices + u32 columns) * pixel ≤ (rows + slices + columns) * pixel :=
    Nat.mul_le_mul_right _ (by omega)
  rw [u64_of_lt (by omega), mul_eq_mul_right_iff, or_comm]
  refine or_congr_right ?_
  rw [← u32_eq_self_iff, ← u32_eq_self_iff]
  omega

theorem u64_shortSum_eq_iff {rows columns pixel : Nat}
    (fits : (rows + columns) * pixel < 18446744073709551616) :
    u64 ((rows + u32 columns) * pixel) = (rows + columns) * pixel ↔
      pixel = 0 ∨ columns < 4294967296 := by
  have three := @u64_sum_eq_iff rows 0 columns pixel fits
  rw [Nat.add_zero, show u32 0 = 0 from rfl, Nat.add_zero] at three
  rw [three, and_iff_left (by omega)]

/-- The canary size is exact, where it fits in 64 bits, exactly when the products with
32-bit factors fit in 32 bits. -/
theorem getImageCanarySize_exact_iff {desc : ImageDesc} {dataSize : Nat}
    (iLt : (expandedDims desc).iLim < 4294967296) (jLt : (expandedDims desc).jLim < 4294967296)
    (kLt : (expandedDims desc).kLim < 4294967296)
    (fits : {p | IsCanaryPixel desc p}.ncard * dataSize < 18446744073709551616) :
    let s := getImageDimensions .machine (expandLastDimForFill (standardDesc desc))
    getImageCanarySize .machine desc.imageType dataSize s.iLim s.jLim s.jDat s.kDat =
        {p | IsCanaryPixel desc p}.ncard * dataSize ↔
      dataSize = 0 ∨ ProductsFit desc.imageType s := by
  intro s
  rw [show s = expandedDims desc from machine_dims iLt jLt kLt]
  rw [ncard_isCanaryPixel, ← getImageCanarySize_exact] at fits ⊢
  cases type : desc.imageType with
  | image2DArray | image3D =>
      simp only [getImageCanarySize, type, exact_wrap32, exact_wrap64, machine_wrap32,
        machine_wrap64] at fits ⊢
      exact u64_sum_eq_iff fits
  | image1DArray | image2D =>
      simp only [getImageCanarySize, type, exact_wrap32, exact_wrap64, machine_wrap32,
        machine_wrap64] at fits ⊢
      exact u64_shortSum_eq_iff fits
  | image1D | image1DBuffer =>
      simp only [getImageCanarySize, type, exact_wrap64, machine_wrap64] at fits ⊢
      simp [u64_of_lt fits, ProductsFit]

/-- A 2D image of 100 by 100 pixels of four bytes. -/
theorem getImageCanarySize_exact_iff_small :
    getImageCanarySize .machine .image2D 4 116 116 100 1 =
        {p | IsCanaryPixel ⟨.image2D, 100, 100, 1, 1, 0, 0, 0, 0, NULL⟩ p}.ncard * 4 ↔
      4 = 0 ∨ ProductsFit .image2D ⟨116, 116, 1, 100, 100, 1⟩ :=
  @getImageCanarySize_exact_iff ⟨.image2D, 100, 100, 1, 1, 0, 0, 0, 0, NULL⟩ 4 (by decide)
    (by decide) (by decide) (by rw [ncard_isCanaryPixel]; decide)

/-- The canary slices of a 3D image with rows and columns up to 16384 have `2 ^ 32` pixels,
which the size leaves out. -/
theorem not_getImageCanarySize_exact :
    getImageDimensions .machine (expandLastDimForFill
        (standardDesc ⟨.image3D, 16368, 16368, 1, 1, 0, 0, 0, 0, NULL⟩)) =
        ⟨16384, 16384, 17, 16368, 16368, 1⟩ ∧
      {p | IsCanaryPixel ⟨.image3D, 16368, 16368, 1, 1, 0, 0, 0, 0, NULL⟩ p}.ncard * 1 =
        4295491328 ∧
      getImageCanarySize .machine .image3D 1 16384 16384 16368 1 = 524032 ∧
      getImageCanarySize .machine .image3D 1 16384 16384 16368 1 ≠
        {p | IsCanaryPixel ⟨.image3D, 16368, 16368, 1, 1, 0, 0, 0, 0, NULL⟩ p}.ncard * 1 := by
  rw [ncard_isCanaryPixel]
  decide

end Clarmor
