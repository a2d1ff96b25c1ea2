import Clarmor.Check.Repair

/-!
# The canary bytes of an image, one by one

The flat array of the canaries has a byte for every byte of a canary pixel.  While the
extents and the array fit 32 bits, `copy_image_canaries` fills it so, from its offset on,
and the repair writes to the same pixels.
-/

namespace Clarmor

open Word Segment Store

/-- An image of a check: its storage, and what it was created from. -/
structure CheckedImage where
  store : Nat
  context : Handle
  flags : MemFlags
  format : ImageFormat
  desc : ImageDesc
deriving DecidableEq, Repr

namespace CheckedImage

variable (o : CheckedImage)

/-- Its `cl_memobj`. -/
def memObj : MemObj := expandImage (imageTemp o.context o.flags o.format o.desc)

/-- The bytes of a pixel. -/
def pixel : Nat := getImageDataSize o.format

def dims : ImageDims := getImageDimensions .machine o.memObj.imageDesc

/-- The length of the canaries, in a `uint32_t`. -/
def canaryLen : Nat := u32 (imageCanaryLen .machine o.memObj)

/-- The place of a byte of the flat array. -/
def canaryAt (k : Nat) : Point × Nat :=
  (((expandedDims o.desc).canaryTransfers o.pixel).find? fun t =>
    t.segment ≤ k ∧ k < t.segment + t.box.volume * o.pixel).elim (⟨0, 0, 0⟩, 0) fun t =>
      (t.box.point ((k - t.segment) / o.pixel), (k - t.segment) % o.pixel)

/-- The cell of a byte of the flat array. -/
def canaryCell (k : Nat) : Nat × Point × Nat := (o.store, o.canaryAt k)

/-- The first byte of the flat array that is not a canary byte. -/
def change (texels : Nat × Point × Nat → UInt8) : Option Nat :=
  (List.range o.canaryLen).find? fun k => texels (o.canaryCell k) ≠ POISON_FILL

/-- The extents and the canaries fit, and the repair has enough to write. -/
structure Fits : Prop where
  pixels : o.pixel ≠ 0
  width : (expandedDims o.desc).iLim < 4294967296
  height : (expandedDims o.desc).jLim < 4294967296
  depth : (expandedDims o.desc).kLim < 4294967296
  canaries : (expandedDims o.desc).canaryPixels * o.pixel < 2147483648
  sources : SourcesFit (expandedDims o.desc) o.pixel

variable {o}

/-! ## The layout -/

theorem layout (o : CheckedImage) : IsCanaryLayout o.desc o.pixel 0
    ((expandedDims o.desc).canaryPixels * o.pixel)
      ((expandedDims o.desc).canaryTransfers o.pixel) :=
  canaryTransfers_isCanaryLayout o.desc o.pixel

/-- A byte of a transfer. -/
theorem canaryAt_of_mem {t : Transfer} (mem : t ∈ (expandedDims o.desc).canaryTransfers o.pixel)
    {n : Nat} (nLt : n < t.box.volume * o.pixel) :
    o.canaryAt (t.segment + n) = (t.box.point (n / o.pixel), n % o.pixel) := by
  have covers : t.segment ≤ t.segment + n ∧ t.segment + n < t.segment + t.box.volume * o.pixel :=
    ⟨Nat.le_add_right _ _, Nat.add_lt_add_left nLt _⟩
  have found : ((expandedDims o.desc).canaryTransfers o.pixel).find? (fun u =>
      u.segment ≤ t.segment + n ∧ t.segment + n < u.segment + u.box.volume * o.pixel) = some t := by
    cases search : ((expandedDims o.desc).canaryTransfers o.pixel).find? (fun u =>
        u.segment ≤ t.segment + n ∧ t.segment + n < u.segment + u.box.volume * o.pixel) with
    | none =>
        exact absurd (decide_eq_true covers) (List.find?_eq_none.mp search t mem)
    | some u =>
        have covers' : Covers (u.span o.pixel) (t.segment + n) := by
          simpa [Covers, Transfer.span] using List.find?_some search
        by_contra differ
        have symmetric : Std.Symm fun t u : Transfer =>
            ∀ n, Covers (t.span o.pixel) n → ¬ Covers (u.span o.pixel) n :=
          ⟨fun _ _ apart n inFirst inSecond => apart n inSecond inFirst⟩
        exact o.layout.spansDisjoint.forall (List.mem_of_find?_eq_some search) mem
          (fun same => differ (congrArg some same)) _ covers' covers
  rw [canaryAt, found, Option.elim_some, Nat.add_sub_cancel_left]

/-- Every byte of the flat array is brought by a transfer. -/
theorem exists_transfer {k : Nat} (kLt : k < (expandedDims o.desc).canaryPixels * o.pixel) :
    ∃ t ∈ (expandedDims o.desc).canaryTransfers o.pixel, ∃ n < t.box.volume * o.pixel,
      k = t.segment + n := by
  obtain ⟨t, mem, lower, upper⟩ := (o.layout.spansCover k).mpr ⟨Nat.zero_le k, by omega⟩
  dsimp only [Transfer.span] at lower upper
  exact ⟨t, mem, k - t.segment, by omega, by omega⟩

/-- It is a byte of a canary pixel. -/
theorem canaryAt_isCanaryPixel (pixels : o.pixel ≠ 0) {k : Nat}
    (kLt : k < (expandedDims o.desc).canaryPixels * o.pixel) :
    IsCanaryPixel o.desc (o.canaryAt k).1 ∧ (o.canaryAt k).2 < o.pixel := by
  obtain ⟨t, mem, n, nLt, rfl⟩ := exists_transfer kLt
  rw [canaryAt_of_mem mem nLt]
  refine ⟨(o.layout.boxesCover _).mp ⟨t, mem, Box.point_mem ?_⟩, ?_⟩
  · exact Nat.div_lt_of_lt_mul (Nat.mul_comm _ _ ▸ nLt)
  · exact Nat.mod_lt n (Nat.pos_of_ne_zero pixels)

/-- Every byte of a canary pixel is in the flat array. -/
theorem exists_canaryAt {p : Point} (isCanary : IsCanaryPixel o.desc p) {b : Nat}
    (bLt : b < o.pixel) :
    ∃ k < (expandedDims o.desc).canaryPixels * o.pixel, o.canaryAt k = (p, b) := by
  obtain ⟨t, mem, inBox⟩ := (o.layout.boxesCover p).mpr isCanary
  have nLt : t.box.index p * o.pixel + b < t.box.volume * o.pixel :=
    Box.mul_add_lt (Box.index_lt inBox) bLt
  have inside := (o.layout.spansCover (t.segment + (t.box.index p * o.pixel + b))).mp
    ⟨t, mem, Nat.le_add_right _ _, Nat.add_lt_add_left nLt _⟩
  refine ⟨t.segment + (t.box.index p * o.pixel + b), by omega, ?_⟩
  rw [canaryAt_of_mem mem nLt, Nat.mul_comm, Nat.mul_add_div (by omega), Nat.div_eq_of_lt bLt,
    Nat.add_zero, Box.point_index inBox, Nat.mul_add_mod, Nat.mod_eq_of_lt bLt]

/-! ## The machine's arithmetic -/

theorem dims_eq (fits : o.Fits) : o.dims = expandedDims o.desc :=
  machine_dims fits.width fits.height fits.depth

/-- The number of canary pixels is small, too. -/
theorem canaryPixels_lt (fits : o.Fits) : (expandedDims o.desc).canaryPixels < 2147483648 :=
  lt_of_le_of_lt (Nat.le_mul_of_pos_right _ (Nat.pos_of_ne_zero fits.pixels)) fits.canaries

/-- What the products of the sizes come to. -/
theorem columns_le (desc : ImageDesc) : 1 < (expandedDims desc).jLim →
    (expandedDims desc).kDat * IMAGE_POISON_HEIGHT * (expandedDims desc).iLim ≤
      (expandedDims desc).canaryPixels := by
  intro rows
  rw [ImageDims.canaryPixels, if_pos rows, ImageDims.slicesEnd, Nat.mul_add, Nat.mul_assoc]
  exact (Nat.le_add_left _ _).trans (Nat.le_add_right _ _)

theorem slices_le (desc : ImageDesc) : 1 < (expandedDims desc).kLim →
    IMAGE_POISON_DEPTH * (expandedDims desc).jLim * (expandedDims desc).iLim ≤
      (expandedDims desc).canaryPixels := by
  intro slices
  have bordered := expandedDims_bordered desc
  have rows : 1 < (expandedDims desc).jLim := by
    rcases bordered.depth with ⟨-, height⟩ | ⟨one, -⟩
    · rw [height, IMAGE_POISON_HEIGHT]
      omega
    · omega
  rw [ImageDims.canaryPixels, if_pos rows, if_pos slices]
  exact Nat.le_add_left _ _

theorem imageCanaryLen_eq (fits : o.Fits) :
    imageCanaryLen .machine o.memObj = (expandedDims o.desc).canaryPixels * o.pixel := by
  have few := canaryPixels_lt fits
  have exact := getImageCanarySize_exact o.desc o.pixel
  have columns := columns_le o.desc
  have slices := slices_le o.desc
  have small := fits.canaries
  have machine : getImageCanarySize .machine o.desc.imageType o.pixel (expandedDims o.desc).iLim
      (expandedDims o.desc).jLim (expandedDims o.desc).jDat (expandedDims o.desc).kDat =
        (expandedDims o.desc).canaryPixels * o.pixel := by
    rw [← exact]
    rw [← exact] at small
    cases type : o.desc.imageType with
    | image1D | image1DBuffer =>
        rw [type] at small
        exact u64_of_lt (small.trans (by decide))
    | image1DArray | image2D =>
        have rows : 1 < (expandedDims o.desc).jLim := by
          rw [expandedDims_eq, type]
          dsimp only
          omega
        rw [type] at small
        simp only [getImageCanarySize, exact_wrap32, exact_wrap64, machine_wrap32,
          machine_wrap64] at small ⊢
        rw [u32_of_lt (by have := columns rows; omega), u64_of_lt (by omega)]
    | image2DArray | image3D =>
        have rows : 1 < (expandedDims o.desc).jLim := by
          rw [expandedDims_eq, type]
          dsimp only
          omega
        have deep : 1 < (expandedDims o.desc).kLim := by
          rw [expandedDims_eq, type]
          dsimp only
          omega
        rw [type] at small
        simp only [getImageCanarySize, exact_wrap32, exact_wrap64, machine_wrap32,
          machine_wrap64] at small ⊢
        rw [u32_of_lt (by have := columns rows; omega),
          u32_of_lt (by have := slices deep; omega), u64_of_lt (by omega)]
  have isType : o.memObj.imageDesc.imageType = o.desc.imageType := by
    rw [memObj, expandImage, imageTemp]
    exact (expandLastDimForFill_imageType _).trans (standardDesc_imageType _)
  have isPixel : getImageDataSize o.memObj.imageFormat = o.pixel := rfl
  have isDims : getImageDimensions .machine o.memObj.imageDesc = o.dims := rfl
  rw [imageCanaryLen, isType, isPixel, isDims, dims_eq fits, machine]

theorem canaryLen_eq (fits : o.Fits) :
    o.canaryLen = (expandedDims o.desc).canaryPixels * o.pixel := by
  rw [canaryLen, imageCanaryLen_eq fits, u32_of_lt (fits.canaries.trans (by decide))]

/-! ## The transfers -/

/-- A transfer stays in the flat array. -/
theorem transfer_le {desc : ImageDesc} {d : Nat} {t : Transfer}
    (mem : t ∈ (expandedDims desc).canaryTransfers d) :
    t.segment + t.box.volume * d ≤ (expandedDims desc).canaryPixels * d :=
  ((ImageDims.canaryTransfers_chain (expandedDims_bordered desc) d).bounds
    (List.mem_map_of_mem mem)).2

/-- There are fewer rows than canary pixels, or one. -/
theorem slots_le (desc : ImageDesc) : (expandedDims desc).kDat * ((expandedDims desc).jDat + 1) ≤
    (expandedDims desc).canaryPixels + 2 := by
  obtain ⟨width, height, depth⟩ := expandedDims_bordered desc
  generalize expandedDims desc = s at width height depth ⊢
  simp only [IMAGE_POISON_WIDTH, IMAGE_POISON_HEIGHT, IMAGE_POISON_DEPTH] at width height depth
  by_cases rows : s.jLim > 1
  · have wide : s.jDat + 1 ≤ s.jDat * IMAGE_POISON_WIDTH + IMAGE_POISON_HEIGHT * s.iLim := by
      simp only [IMAGE_POISON_WIDTH, IMAGE_POISON_HEIGHT]
      omega
    rw [ImageDims.canaryPixels, if_pos rows, ImageDims.slicesEnd]
    have few := Nat.mul_le_mul_left s.kDat wide
    omega
  · have one : s.kDat = 1 ∧ s.jDat = 1 := by omega
    rw [one.1, one.2]
    omega

/-- The numbers of a transfer of one row. -/
theorem row_lt (fits : o.Fits) {j k offset : Nat} (jLt : j < (expandedDims o.desc).jDat)
    (kLt : k < (expandedDims o.desc).kDat)
    (room : offset + (expandedDims o.desc).canaryPixels * o.pixel < 4294967296) :
    rowSegment .exact (expandedDims o.desc) j k < 4294967296 ∧
      offset + rowSegment .exact (expandedDims o.desc) j k * o.pixel < 4294967296 := by
  have mem : ∀ d, ⟨endOfRow (expandedDims o.desc) j k,
      rowSegment .exact (expandedDims o.desc) j k * d⟩ ∈ (expandedDims o.desc).canaryTransfers d :=
    fun d => ImageDims.mem_canaryTransfers.mpr
      (Or.inl ⟨k, kLt, ImageDims.mem_sliceTransfers.mpr (Or.inl ⟨j, jLt, rfl⟩)⟩)
  have one := transfer_le (mem 1)
  have bytes := transfer_le (mem o.pixel)
  have few := canaryPixels_lt fits
  dsimp only at one bytes
  omega

/-- The numbers of a transfer of the rows behind a slice. -/
theorem slice_lt (fits : o.Fits) {k offset : Nat} (rows : (expandedDims o.desc).jLim > 1)
    (kLt : k < (expandedDims o.desc).kDat)
    (room : offset + (expandedDims o.desc).canaryPixels * o.pixel < 4294967296) :
    sliceSegment .exact (expandedDims o.desc) k < 4294967296 ∧
      offset + sliceSegment .exact (expandedDims o.desc) k * o.pixel < 4294967296 := by
  have mem : ∀ d, ⟨endOfSlice (expandedDims o.desc) k,
      sliceSegment .exact (expandedDims o.desc) k * d⟩ ∈ (expandedDims o.desc).canaryTransfers d :=
    fun d => ImageDims.mem_canaryTransfers.mpr
      (Or.inl ⟨k, kLt, ImageDims.mem_sliceTransfers.mpr (Or.inr ⟨rows, rfl⟩)⟩)
  have one := transfer_le (mem 1)
  have bytes := transfer_le (mem o.pixel)
  have few := canaryPixels_lt fits
  dsimp only at one bytes
  omega

/-- The numbers of the transfer of the slices behind the data. -/
theorem depth_lt (fits : o.Fits) {offset : Nat} (slices : (expandedDims o.desc).kLim > 1)
    (room : offset + (expandedDims o.desc).canaryPixels * o.pixel < 4294967296) :
    depthSegment .exact (expandedDims o.desc) < 4294967296 ∧
      offset + depthSegment .exact (expandedDims o.desc) * o.pixel < 4294967296 := by
  have mem : ∀ d, ⟨canarySlice (expandedDims o.desc),
      depthSegment .exact (expandedDims o.desc) * d⟩ ∈ (expandedDims o.desc).canaryTransfers d :=
    fun d => ImageDims.mem_canaryTransfers.mpr (Or.inr ⟨slices, rfl⟩)
  have one := transfer_le (mem 1)
  have bytes := transfer_le (mem o.pixel)
  have few := canaryPixels_lt fits
  dsimp only at one bytes
  omega

/-- Nothing is reduced in `copy_image_canaries`. -/
theorem copyImageCanaries_exact (fits : o.Fits) {offset : Nat}
    (room : offset + (expandedDims o.desc).canaryPixels * o.pixel < 4294967296) :
    copyImageCanaries .machine o.memObj offset = copyImageCanaries .exact o.memObj offset := by
  have few := canaryPixels_lt fits
  have slots := slots_le o.desc
  have machine : getImageDimensions .machine o.memObj.imageDesc = expandedDims o.desc :=
    dims_eq fits
  have exact : getImageDimensions .exact o.memObj.imageDesc = expandedDims o.desc := rfl
  have isPixel : getImageDataSize o.memObj.imageFormat = o.pixel := rfl
  rw [copyImageCanaries, copyImageCanaries, machine, exact, isPixel]
  have slot : ∀ k < (expandedDims o.desc).kDat, ∀ j ≤ (expandedDims o.desc).jDat,
      k * ((expandedDims o.desc).jDat + 1) + j < 4294967296 := by
    intro k kLt j jLe
    have step := Nat.mul_le_mul_right ((expandedDims o.desc).jDat + 1) (Nat.succ_le_of_lt kLt)
    rw [Nat.succ_mul] at step
    omega
  congr 1
  · refine List.flatMap_congr fun k mem => ?_
    have kLt := List.mem_range.mp mem
    rw [copySlice, copySlice]
    congr 1
    · refine List.flatMap_congr fun j mem => ?_
      have jLt := List.mem_range.mp mem
      obtain ⟨row, bytes⟩ := row_lt fits jLt kLt room
      have isRow : rowSegment .machine (expandedDims o.desc) j k =
          rowSegment .exact (expandedDims o.desc) j k := u32_of_lt row
      rw [isRow, machine_wrap32, machine_wrap32, u32_of_lt (slot k kLt j (Nat.le_of_lt jLt)),
        u32_of_lt bytes]
      rfl
    · by_cases rows : (expandedDims o.desc).jLim > 1
      · obtain ⟨slice, bytes⟩ := slice_lt fits rows kLt room
        have isSlice : sliceSegment .machine (expandedDims o.desc) k =
            sliceSegment .exact (expandedDims o.desc) k := u32_of_lt slice
        rw [if_pos rows, if_pos rows, isSlice, machine_wrap32, machine_wrap32,
          u32_of_lt (slot k kLt _ le_rfl), u32_of_lt bytes]
        rfl
      · rw [if_neg rows, if_neg rows]
  · by_cases slices : (expandedDims o.desc).kLim > 1
    · obtain ⟨depth, bytes⟩ := depth_lt fits slices room
      have isDepth : depthSegment .machine (expandedDims o.desc) =
          depthSegment .exact (expandedDims o.desc) := u32_of_lt depth
      rw [if_pos slices, if_pos slices, isDepth, machine_wrap32, machine_wrap32,
        u32_of_lt (by omega), u32_of_lt bytes]
      rfl
    · rw [if_neg slices, if_neg slices]

/-- The array of events has a slot for each transfer. -/
theorem copyImageEvents_exact (fits : o.Fits) :
    copyImageEvents .machine o.dims = copyImageEvents .exact (expandedDims o.desc) := by
  have few := canaryPixels_lt fits
  have slots := slots_le o.desc
  rw [Nat.mul_succ] at slots
  rw [dims_eq fits, copyImageEvents, copyImageEvents]
  simp only [machine_wrap32, exact_wrap32]
  rw [u32_of_lt (by omega), u32_of_lt (by omega), u32_of_lt (by omega)]

/-- The slots that `copy_image_canaries` fills are those that its marker waits for. -/
theorem copyImageCanaries_slot (fits : o.Fits) {offset : Nat}
    (room : offset + (expandedDims o.desc).canaryPixels * o.pixel < 4294967296) :
    (copyImageCanaries .machine o.memObj offset).map SlotWrite.slot =
      List.range (copyImageEvents .machine o.dims) := by
  rw [copyImageCanaries_exact fits room, copyImageEvents_exact fits]
  exact copyImageCanaries_slots o.memObj offset (expandedDims_bordered o.desc)

/-- Its transfers are those of the flat array, from the offset on. -/
theorem copyImageCanaries_transfers (fits : o.Fits) {offset : Nat}
    (room : offset + (expandedDims o.desc).canaryPixels * o.pixel < 4294967296) :
    transfers (copyImageCanaries .machine o.memObj offset) =
      ((expandedDims o.desc).canaryTransfers o.pixel).map (Transfer.shift offset) := by
  rw [copyImageCanaries_exact fits room]
  exact transfers_copyImageCanaries offset o.memObj (expanded_columns rfl)

/-! ## The repair -/

theorem extentsRead (fits : o.Fits) : ExtentsRead (expandedDims o.desc) :=
  ⟨Or.inl fits.width, fun _ => ⟨fits.width, Or.inl fits.height⟩,
    fun _ => ⟨fits.height, Or.inl fits.depth⟩⟩

/-- The repair writes canary pixels, and all of them. -/
theorem covered_iff_isCanaryPixel (fits : o.Fits) (p : Point) :
    Covered o.dims p ↔ IsCanaryPixel o.desc p := by
  have isDims : o.dims = readDims (expandedDims o.desc) := machine_dims_eq o.desc
  rw [isDims, covered_of_extentsRead (expandedDims_bordered o.desc) (extentsRead fits),
    isCanaryPixel_iff]

/-- Its arrays are as long as what it writes. -/
theorem repair_sources (fits : o.Fits) :
    ∀ w ∈ repairWrites o.dims, w.box.volume * o.pixel ≤ w.source := by
  have isDims : o.dims = readDims (expandedDims o.desc) := machine_dims_eq o.desc
  rw [isDims]
  exact (sources_iff (expandedDims_bordered o.desc) (extentsRead fits)
    (getImageDataSize_le _)).mpr fits.sources

/-! ## Every image has canaries -/

theorem exists_isCanaryPixel (o : CheckedImage) : ∃ p, IsCanaryPixel o.desc p := by
  obtain ⟨width, height, depth⟩ := expandedDims_bordered o.desc
  simp only [IMAGE_POISON_WIDTH, IMAGE_POISON_HEIGHT, IMAGE_POISON_DEPTH] at width height depth
  refine ⟨⟨(expandedDims o.desc).iDat, (expandedDims o.desc).jLim - 1,
    (expandedDims o.desc).kLim - 1⟩, ?_⟩
  rw [isCanaryPixel_iff]
  simp only [Box.Mem, ImageDims.limBox, ImageDims.datBox]
  omega

/-- There is something to copy. -/
theorem exists_copyImageCanaries (fits : o.Fits) {offset : Nat}
    (room : offset + (expandedDims o.desc).canaryPixels * o.pixel < 4294967296) :
    ∃ w, w ∈ copyImageCanaries .machine o.memObj offset := by
  obtain ⟨p, isCanary⟩ := exists_isCanaryPixel o
  obtain ⟨k, kLt, -⟩ := exists_canaryAt isCanary (Nat.pos_of_ne_zero fits.pixels)
  obtain ⟨t, mem, -⟩ := exists_transfer kLt
  have isTransfer := List.mem_map_of_mem (f := Transfer.shift offset) mem
  rw [← copyImageCanaries_transfers fits room] at isTransfer
  obtain ⟨w, wMem, -⟩ := List.mem_filterMap.mp isTransfer
  exact ⟨w, wMem⟩

/-- There is something to repair. -/
theorem repairWrites_ne_nil (fits : o.Fits) : repairWrites o.dims ≠ [] := by
  intro none
  obtain ⟨p, isCanary⟩ := exists_isCanaryPixel o
  obtain ⟨w, mem, -⟩ := (covered_iff_isCanaryPixel fits p).mpr isCanary
  rw [none] at mem
  exact absurd mem List.not_mem_nil

/-! ## Changes -/

end CheckedImage

/-- A row of three pixels. -/
def rowDesc : ImageDesc := { ImageDesc.zero with imageType := .image1D, imageWidth := 3 }

def rowImage (store : Nat) : CheckedImage := ⟨store, 1, {}, ⟨.rgba, .unormInt8⟩, rowDesc⟩

theorem rowImage_fits (store : Nat) : (rowImage store).Fits where
  pixels := (by decide : (4 : Nat) ≠ 0)
  width := (by decide : (expandedDims rowDesc).iLim < 4294967296)
  height := (by decide : (expandedDims rowDesc).jLim < 4294967296)
  depth := (by decide : (expandedDims rowDesc).kLim < 4294967296)
  canaries := (by decide : (expandedDims rowDesc).canaryPixels * 4 < 2147483648)
  sources := ⟨fun rows => absurd rows (by decide : ¬ 1 < (expandedDims rowDesc).jLim),
    fun slices => absurd slices (by decide : ¬ 1 < (expandedDims rowDesc).kLim)⟩

end Clarmor
