import Clarmor.Image.Layout

/-!
# Locating a bad byte of an image canary

`getImageCanaryXYZ` turns a byte of the flattened canary array back into the
place of the pixel it belongs to.  It walks over the rows and slices of the data
and adds up the canary pixels that it passes; the limits are taken from width,
height and depth of the descriptor.
-/

namespace Clarmor

open Word

/-- What `getImageCanaryXYZ` stores: `-1` where a coordinate does not apply. -/
structure Location where
  x : Int
  y : Int
  z : Int
deriving DecidableEq, Repr

/-- The loop over the remaining `n` rows of slice `k`, from row `j` on: the sum
of the pixels passed, and the location when the row was found. -/
def searchRows (dataIndex k : Nat) : Nat → Nat → Nat → Nat × Option Location
  | 0, _, accume => (accume, none)
  | n + 1, j, accume =>
      let accume := u32 (accume + IMAGE_POISON_WIDTH)
      if dataIndex < accume then
        (accume, some
          { x := toInt32 (sub32 dataIndex (sub32 accume IMAGE_POISON_WIDTH))
            y := toInt32 j
            z := toInt32 k })
      else searchRows dataIndex k n (j + 1) accume

/-- The loop over the remaining `n` slices, from slice `k` on.  A division by
zero has no result. -/
def searchSlices (dataIndex iLim jLim jDat : Nat) : Nat → Nat → Nat → Option Location
  | 0, _, accume =>
      if u32 (iLim * jLim) = 0 then none
      else some ⟨-1, -1, toInt32 (sub32 dataIndex accume / u32 (iLim * jLim))⟩
  | n + 1, k, accume =>
      match searchRows dataIndex k jDat 0 accume with
      | (accume, hit) =>
          if dataIndex < accume then some (hit.getD ⟨-1, -1, -1⟩)
          else
            let columns := u32 (IMAGE_POISON_HEIGHT * iLim)
            let accume := u32 (accume + columns)
            if dataIndex < accume then
              if iLim = 0 then none
              else some ⟨-1, toInt32 (sub32 dataIndex (sub32 accume columns) / iLim), toInt32 k⟩
            else searchSlices dataIndex iLim jLim jDat n (k + 1) accume

/-- The search for one pixel of the flattened array. -/
def locateIndex (desc : ImageDesc) (dataIndex : Nat) : Option Location :=
  let iLim := u32 desc.imageWidth
  let jLim := u32 desc.imageHeight
  let kLim := u32 desc.imageDepth
  let jDat := if jLim = 1 then 1 else sub32 jLim IMAGE_POISON_HEIGHT
  let kDat := if kLim = 1 then 1 else sub32 kLim IMAGE_POISON_DEPTH
  searchSlices dataIndex iLim jLim jDat kDat 0 0

/-- `getImageCanaryXYZ`. -/
def getImageCanaryXYZ (img : MemObj) (badByte : Nat) : Option Location :=
  let dataSize := getImageDataSize img.imageFormat
  if dataSize = 0 then some ⟨-1, -1, -1⟩
  else locateIndex img.imageDesc (u32 (badByte / dataSize))

/-! ## What the search computes -/

/-- Rows that all end before the pixel are passed. -/
theorem searchRows_miss {dataIndex k n j accume : Nat} (dataLt : dataIndex < 4294967296)
    (passed : accume + n * 16 ≤ dataIndex) :
    searchRows dataIndex k n j accume = (accume + n * 16, none) := by
  induction n generalizing j accume with
  | zero => simp [searchRows]
  | succ n ih =>
      have next : u32 (accume + IMAGE_POISON_WIDTH) = accume + 16 := u32_of_lt (by
        simp only [IMAGE_POISON_WIDTH]
        omega)
      rw [searchRows, next, if_neg (by omega), ih (by omega), Nat.add_assoc, Nat.succ_mul,
        Nat.add_comm 16]

/-- The row of a pixel is found, and the pixel is located in it. -/
theorem searchRows_hit {dataIndex k n j accume : Nat} (dataLt : dataIndex < 4294967296)
    (le : accume ≤ dataIndex) (found : dataIndex < accume + n * 16)
    (fits : accume + n * 16 < 4294967296) :
    searchRows dataIndex k n j accume =
      (accume + ((dataIndex - accume) / 16 + 1) * 16, some
        { x := ((dataIndex - accume) % 16 : Nat)
          y := toInt32 (j + (dataIndex - accume) / 16)
          z := toInt32 k }) := by
  induction n generalizing j accume with
  | zero => omega
  | succ n ih =>
      have next : u32 (accume + IMAGE_POISON_WIDTH) = accume + 16 := u32_of_lt (by
        simp only [IMAGE_POISON_WIDTH]
        omega)
      by_cases here : dataIndex < accume + 16
      · have row : (dataIndex - accume) / 16 = 0 := by omega
        have column : (dataIndex - accume) % 16 = dataIndex - accume := by omega
        have back : sub32 (accume + 16) IMAGE_POISON_WIDTH = accume :=
          sub32_of_le (by omega) (by simp [IMAGE_POISON_WIDTH])
        rw [searchRows, next, if_pos here, row, column, back, sub32_of_le dataLt le,
          toInt32_of_lt (by omega)]
        simp
      · have row : (dataIndex - accume) / 16 = (dataIndex - (accume + 16)) / 16 + 1 := by omega
        have column : (dataIndex - accume) % 16 = (dataIndex - (accume + 16)) % 16 := by omega
        have passed : accume + 16 + ((dataIndex - (accume + 16)) / 16 + 1) * 16 =
            accume + ((dataIndex - (accume + 16)) / 16 + 1 + 1) * 16 := by ring
        have counted : j + 1 + (dataIndex - (accume + 16)) / 16 =
            j + ((dataIndex - (accume + 16)) / 16 + 1) := by ring
        rw [searchRows, next, if_neg here, ih (by omega) (by omega) (by omega), row, column,
          passed, counted]

/-- The place of the pixel with a given position in the flattened array. -/
def locate (s : ImageDims) (n : Nat) : Location :=
  let slice := s.jDat * 16 + 16 * s.iLim
  if n < s.kDat * slice then
    if n % slice < s.jDat * 16 then
      ⟨(n % slice % 16 : Nat), (n % slice / 16 : Nat), (n / slice : Nat)⟩
    else ⟨-1, ((n % slice - s.jDat * 16) / s.iLim : Nat), (n / slice : Nat)⟩
  else ⟨-1, -1, ((n - s.kDat * slice) / (s.iLim * s.jLim) : Nat)⟩

theorem div_mod_of_between {n k len : Nat} (lower : k * len ≤ n) (upper : n < (k + 1) * len) :
    n / len = k ∧ n % len = n - k * len := by
  have quotient : n / len = k := Nat.div_eq_of_lt_le lower upper
  refine ⟨quotient, ?_⟩
  have split := Nat.div_add_mod' n len
  rw [quotient] at split
  omega

/-- The loop over the slices locates a pixel, where no sum is reduced. -/
theorem searchSlices_eq (dataIndex jLim : Nat) {s : ImageDims} {n k : Nat} (widthGt : 1 < s.iLim)
    (dataLt : dataIndex < 4294967296)
    (fits : s.kDat * (s.jDat * 16 + 16 * s.iLim) < 4294967296)
    (depth : s.kDat * (s.jDat * 16 + 16 * s.iLim) ≤ dataIndex →
      0 < s.jLim ∧ s.iLim * s.jLim < 4294967296 ∧ jLim = s.jLim)
    (slices : k + n = s.kDat) (le : k * (s.jDat * 16 + 16 * s.iLim) ≤ dataIndex) :
    searchSlices dataIndex s.iLim jLim s.jDat n k (k * (s.jDat * 16 + 16 * s.iLim)) =
      some (locate s dataIndex) := by
  generalize sliceLen : s.jDat * 16 + 16 * s.iLim = slice at fits depth le ⊢
  induction n generalizing k with
  | zero =>
      obtain rfl : k = s.kDat := by omega
      obtain ⟨heightPos, areaLt, rfl⟩ := depth le
      have area : u32 (s.iLim * s.jLim) = s.iLim * s.jLim := u32_of_lt areaLt
      have areaGe : 2 ≤ s.iLim * s.jLim := Nat.mul_le_mul widthGt heightPos
      have areaNe : s.iLim * s.jLim ≠ 0 := Nat.ne_zero_of_lt areaGe
      have small : (dataIndex - s.kDat * slice) / (s.iLim * s.jLim) < 2147483648 :=
        lt_of_le_of_lt (Nat.div_le_div_left areaGe (by decide)) (by omega)
      rw [searchSlices, area, if_neg areaNe, sub32_of_le dataLt le, toInt32_of_lt small]
      simp only [locate, sliceLen, if_neg (not_lt.mpr le)]
  | succ n ih =>
      have more : (k + 1) * slice ≤ s.kDat * slice := Nat.mul_le_mul_right _ (by omega)
      have expand : (k + 1) * slice = k * slice + s.jDat * 16 + 16 * s.iLim := by
        rw [Nat.succ_mul, ← sliceLen]
        ring
      have kLe : k * 16 ≤ k * slice := Nat.mul_le_mul_left k (by omega)
      have position := fun upper => div_mod_of_between (k := k) le upper
      have front : dataIndex < (k + 1) * slice → dataIndex < s.kDat * slice := fun upper =>
        lt_of_lt_of_le upper more
      by_cases inRow : dataIndex < k * slice + s.jDat * 16
      · -- The row loop finds the pixel.
        have upper : dataIndex < (k + 1) * slice := by omega
        obtain ⟨quotient, remainder⟩ := position upper
        rw [searchSlices, searchRows_hit dataLt le inRow (by omega)]
        dsimp only
        rw [if_pos (by omega), Nat.zero_add, toInt32_of_lt (by omega), toInt32_of_lt (by omega)]
        simp only [locate, sliceLen, if_pos (front upper), quotient, remainder, Option.getD_some,
          if_pos (show dataIndex - k * slice < s.jDat * 16 by omega)]
      · have columns : u32 (IMAGE_POISON_HEIGHT * s.iLim) = 16 * s.iLim :=
          u32_of_lt (show 16 * s.iLim < _ by omega)
        have accume : u32 (k * slice + s.jDat * 16 + 16 * s.iLim) = (k + 1) * slice := by
          rw [← expand]
          exact u32_of_lt (by omega)
        have back : sub32 ((k + 1) * slice) (16 * s.iLim) = k * slice + s.jDat * 16 := by
          rw [sub32_of_le (by omega) (by omega)]
          omega
        rw [searchSlices, searchRows_miss dataLt (by omega)]
        dsimp only
        rw [if_neg inRow, columns, accume]
        by_cases inColumn : dataIndex < (k + 1) * slice
        · -- The pixel is in the extra rows of this slice.
          obtain ⟨quotient, remainder⟩ := position inColumn
          have row : (dataIndex - (k * slice + s.jDat * 16)) / s.iLim < 16 :=
            Nat.div_lt_of_lt_mul (by omega)
          rw [if_pos inColumn, if_neg (by omega), back, sub32_of_le dataLt (by omega),
            toInt32_of_lt (by omega), toInt32_of_lt (by omega)]
          simp only [locate, sliceLen, if_pos (front inColumn), quotient, remainder,
            if_neg (show ¬ dataIndex - k * slice < s.jDat * 16 by omega), Nat.sub_sub]
        · rw [if_neg inColumn]
          exact ih (by omega) (by omega)

/-! ## Places and entries -/

/-- The place of a canary pixel: counted from the end of its row in a row
canary, in rows from the end of its slice in a column strip, and in slices from
the end of the data behind it. -/
def canaryLocation (data : Box) (p : Point) : Location :=
  if p.z < data.rz then
    if p.y < data.ry then ⟨(p.x : Int) - data.rx, p.y, p.z⟩
    else ⟨-1, (p.y : Int) - data.ry, p.z⟩
  else ⟨-1, -1, (p.z : Int) - data.rz⟩

namespace ImageDims

variable {s : ImageDims}

/-- The rows and column strips of the data's slices, in pixels. -/
def frontPixels (s : ImageDims) : Nat :=
  if s.jLim > 1 then s.slicesEnd s.kDat else s.jDat * IMAGE_POISON_WIDTH

theorem slicesEnd_eq (s : ImageDims) (k : Nat) :
    s.slicesEnd k = k * (s.jDat * 16 + 16 * s.iLim) :=
  rfl

/-- An image with one row and one slice has the canaries of this row only. -/
theorem single_row (bordered : s.Bordered) (flat : ¬ s.jLim > 1) :
    s.jDat = 1 ∧ s.kDat = 1 ∧ s.kLim = 1 ∧ s.canaryPixels = 16 := by
  obtain ⟨width, height, depth⟩ := bordered
  simp only [IMAGE_POISON_WIDTH, IMAGE_POISON_HEIGHT, IMAGE_POISON_DEPTH] at width height depth
  have jDat : s.jDat = 1 := by omega
  refine ⟨jDat, by omega, by omega, ?_⟩
  rw [canaryPixels, if_neg flat, jDat]
  rfl

/-- The pixels before the extra slices come first. -/
theorem front_le_pixels (s : ImageDims) : s.frontPixels ≤ s.canaryPixels := by
  unfold frontPixels canaryPixels
  split <;> omega

/-- The place that position `m` of slice `k` stands for. -/
theorem locate_front {k m : Nat} (kLt : k < s.kDat) (mLt : m < s.jDat * 16 + 16 * s.iLim) :
    locate s (k * (s.jDat * 16 + 16 * s.iLim) + m) =
      if m < s.jDat * 16 then ⟨(m % 16 : Nat), (m / 16 : Nat), k⟩
      else ⟨-1, ((m - s.jDat * 16) / s.iLim : Nat), k⟩ := by
  have below : k * (s.jDat * 16 + 16 * s.iLim) + m < s.kDat * (s.jDat * 16 + 16 * s.iLim) :=
    Box.mul_add_lt kLt mLt
  obtain ⟨quotient, remainder⟩ := div_mod_of_between (n := k * (s.jDat * 16 + 16 * s.iLim) + m)
    (Nat.le_add_right _ _) (Nat.succ_mul k _ ▸ Nat.add_lt_add_left mLt _)
  rw [Nat.add_sub_cancel_left] at remainder
  simp only [locate, if_pos below, quotient, remainder]

/-- The end of a row: the place of its pixels is read off their position. -/
theorem entry_row (bordered : s.Bordered) {d j k : Nat} {p : Point} (jLt : j < s.jDat)
    (kLt : k < s.kDat) (inBox : (endOfRow s j k).Mem p) :
    ∃ n < s.canaryPixels,
      (⟨endOfRow s j k, rowSegment .exact s j k * d⟩ : Transfer).entry d p = n * d ∧
        canaryLocation s.datBox p = locate s n := by
  obtain ⟨⟨xLo, xHi⟩, ⟨yLo, yHi⟩, zLo, zHi⟩ := inBox
  simp only [endOfRow, IMAGE_POISON_WIDTH] at xLo xHi yLo yHi zLo zHi
  obtain rfl : p.y = j := by omega
  obtain rfl : p.z = k := by omega
  have inRows : p.y * 16 + (p.x - s.iDat) < s.jDat * 16 := Box.mul_add_lt jLt (by omega)
  refine ⟨p.z * (s.jDat * 16 + 16 * s.iLim) + (p.y * 16 + (p.x - s.iDat)), ?_, ?_, ?_⟩
  · by_cases rows : s.jLim > 1
    · have below : p.z * (s.jDat * 16 + 16 * s.iLim) + (p.y * 16 + (p.x - s.iDat)) <
          s.slicesEnd s.kDat := Box.mul_add_lt kLt (by omega)
      have front := front_le_pixels s
      rw [frontPixels, if_pos rows] at front
      omega
    · obtain ⟨jDat, kDat, -, pixels⟩ := single_row bordered rows
      rw [pixels, show p.z = 0 by omega]
      omega
  · simp only [Transfer.entry, Box.index, endOfRow, rowSegment, exact_wrap32, IMAGE_POISON_WIDTH,
      IMAGE_POISON_HEIGHT, Nat.sub_self, Nat.zero_mul, Nat.zero_add]
    ring
  · have column : (p.y * 16 + (p.x - s.iDat)) % 16 = p.x - s.iDat := by omega
    have row : (p.y * 16 + (p.x - s.iDat)) / 16 = p.y := by omega
    have inDepth : p.z < s.datBox.rz := kLt
    have inHeight : p.y < s.datBox.ry := jLt
    rw [locate_front kLt (by omega), if_pos inRows, column, row, canaryLocation, if_pos inDepth,
      if_pos inHeight]
    simp only [datBox, Location.mk.injEq, and_self, and_true]
    omega

/-- The extra rows of a slice. -/
theorem entry_column {d k : Nat} {p : Point} (rows : s.jLim > 1) (kLt : k < s.kDat)
    (inBox : (endOfSlice s k).Mem p) :
    ∃ n < s.canaryPixels,
      (⟨endOfSlice s k, sliceSegment .exact s k * d⟩ : Transfer).entry d p = n * d ∧
        canaryLocation s.datBox p = locate s n := by
  obtain ⟨⟨xLo, xHi⟩, ⟨yLo, yHi⟩, zLo, zHi⟩ := inBox
  simp only [endOfSlice, IMAGE_POISON_HEIGHT, Nat.zero_add] at xLo xHi yLo yHi zLo zHi
  obtain rfl : p.z = k := by omega
  have inColumn : (p.y - s.jDat) * s.iLim + p.x < 16 * s.iLim := Box.mul_add_lt (by omega) xHi
  refine ⟨p.z * (s.jDat * 16 + 16 * s.iLim) +
    (s.jDat * 16 + ((p.y - s.jDat) * s.iLim + p.x)), ?_, ?_, ?_⟩
  · have below : p.z * (s.jDat * 16 + 16 * s.iLim) +
        (s.jDat * 16 + ((p.y - s.jDat) * s.iLim + p.x)) < s.slicesEnd s.kDat :=
      Box.mul_add_lt kLt (by omega)
    have front := front_le_pixels s
    rw [frontPixels, if_pos rows] at front
    omega
  · simp only [Transfer.entry, Box.index, endOfSlice, sliceSegment, exact_wrap32,
      IMAGE_POISON_WIDTH, IMAGE_POISON_HEIGHT, Nat.sub_self, Nat.zero_mul, Nat.zero_add,
      Nat.sub_zero]
    ring
  · have row : ((p.y - s.jDat) * s.iLim + p.x) / s.iLim = p.y - s.jDat := by
      rw [Nat.add_comm, Nat.add_mul_div_right _ _ (by omega), Nat.div_eq_of_lt xHi, Nat.zero_add]
    have inDepth : p.z < s.datBox.rz := kLt
    have belowData : ¬ p.y < s.datBox.ry := not_lt.mpr yLo
    rw [locate_front kLt (by omega), if_neg (by omega), Nat.add_sub_cancel_left, row,
      canaryLocation, if_pos inDepth, if_neg belowData]
    simp only [datBox, Location.mk.injEq, true_and, and_true]
    omega

/-- The extra slices. -/
theorem entry_slices (bordered : s.Bordered) {d : Nat} {p : Point} (slices : s.kLim > 1)
    (inBox : (canarySlice s).Mem p) :
    ∃ n < s.canaryPixels,
      (⟨canarySlice s, depthSegment .exact s * d⟩ : Transfer).entry d p = n * d ∧
        canaryLocation s.datBox p = locate s n := by
  obtain ⟨width, height, depth⟩ := bordered
  obtain ⟨⟨xLo, xHi⟩, ⟨yLo, yHi⟩, zLo, zHi⟩ := inBox
  simp only [IMAGE_POISON_WIDTH, IMAGE_POISON_HEIGHT, IMAGE_POISON_DEPTH, canarySlice,
    Nat.zero_add] at width height depth xLo xHi yLo yHi zLo zHi
  have inArea : p.y * s.iLim + p.x < s.jLim * s.iLim := Box.mul_add_lt yHi xHi
  have inSlices : (p.z - s.kDat) * (s.jLim * s.iLim) + (p.y * s.iLim + p.x) <
      16 * (s.jLim * s.iLim) := Box.mul_add_lt (by omega) inArea
  refine ⟨s.kDat * (s.jDat * 16 + 16 * s.iLim) +
    ((p.z - s.kDat) * (s.jLim * s.iLim) + (p.y * s.iLim + p.x)), ?_, ?_, ?_⟩
  · rw [canaryPixels, if_pos (by omega), if_pos slices, slicesEnd_eq, IMAGE_POISON_DEPTH,
      Nat.mul_assoc]
    omega
  · simp only [Transfer.entry, Box.index, canarySlice, depthSegment, exact_wrap32,
      IMAGE_POISON_WIDTH, IMAGE_POISON_HEIGHT, Nat.sub_zero]
    ring
  · have slice : ((p.z - s.kDat) * (s.jLim * s.iLim) + (p.y * s.iLim + p.x)) /
        (s.iLim * s.jLim) = p.z - s.kDat := by
      rw [Nat.mul_comm s.iLim, Nat.add_comm, Nat.add_mul_div_right _ _ (by omega),
        Nat.div_eq_of_lt inArea, Nat.zero_add]
    have behindData : ¬ p.z < s.datBox.rz := not_lt.mpr zLo
    rw [canaryLocation, if_neg behindData]
    simp only [locate, if_neg (Nat.not_lt.mpr (Nat.le_add_right _ _)), Nat.add_sub_cancel_left,
      slice, datBox, Location.mk.injEq, true_and]
    omega

/-- Entries are whole pixels, and the place of a pixel is the place its position
stands for. -/
theorem entry_locate (bordered : s.Bordered) {d : Nat} {t : Transfer} {p : Point}
    (member : t ∈ s.canaryTransfers d) (inBox : t.box.Mem p) :
    ∃ n < s.canaryPixels, t.entry d p = n * d ∧ canaryLocation s.datBox p = locate s n := by
  rcases mem_canaryTransfers.mp member with ⟨k, kLt, inSlice⟩ | ⟨slices, rfl⟩
  · rcases mem_sliceTransfers.mp inSlice with ⟨j, jLt, rfl⟩ | ⟨rows, rfl⟩
    · exact entry_row bordered jLt kLt inBox
    · exact entry_column rows kLt inBox
  · exact entry_slices bordered slices inBox

/-- Every position of the flattened array is the entry of a pixel. -/
theorem exists_entry (bordered : s.Bordered) {d n : Nat} (pos : 0 < d)
    (below : n < s.canaryPixels) :
    ∃ t ∈ s.canaryTransfers d, ∃ p, t.box.Mem p ∧ t.entry d p = n * d := by
  have chain := canaryTransfers_chain bordered d
  have inside : n * d < s.canaryPixels * d := Nat.mul_lt_mul_of_pos_right below pos
  obtain ⟨span, spanMem, covers⟩ := chain.covers_iff.mpr ⟨Nat.zero_le _, inside⟩
  obtain ⟨t, member, rfl⟩ := List.mem_map.mp spanMem
  obtain ⟨m, start⟩ : ∃ m, t.segment = m * d := by
    rcases mem_canaryTransfers.mp member with ⟨k, _, inSlice⟩ | ⟨_, rfl⟩
    · rcases mem_sliceTransfers.mp inSlice with ⟨j, _, rfl⟩ | ⟨_, rfl⟩
      · exact ⟨_, rfl⟩
      · exact ⟨_, rfl⟩
    · exact ⟨_, rfl⟩
  simp only [Segment.Covers, Transfer.span, start] at covers
  obtain ⟨lower, upper⟩ := covers
  rw [← Nat.add_mul] at upper
  have mLe : m ≤ n := Nat.le_of_mul_le_mul_right lower pos
  have nLt : n < m + t.box.volume := Nat.lt_of_mul_lt_mul_right upper
  refine ⟨t, member, t.box.point (n - m), Box.point_mem (by omega), ?_⟩
  rw [Transfer.entry, Box.index_point, start, ← Nat.add_mul, Nat.add_sub_cancel' mLe]

end ImageDims

/-! ## When the decoder inverts the layout -/

/-- Every canary pixel has an entry in the layouts of both checkers, and every
byte of the entry is located where the pixel is. -/
def LocatesCanaries (img : MemObj) (desc : ImageDesc) : Prop :=
  ∀ p, IsCanaryPixel desc p →
    ∀ layout ∈ [transfers (readImageCanaries .exact img),
        transfers (copyImageCanaries .exact img 0)],
      ∃ t ∈ layout, t.box.Mem p ∧ ∀ b < getImageDataSize img.imageFormat,
        getImageCanaryXYZ img (u32 (t.entry (getImageDataSize img.imageFormat) p + b)) =
          some (canaryLocation (imageBox desc) p)

/-- An array image has one member, every byte of the flattened array has a
32-bit number, and the rows and column strips have fewer than `2^32` pixels.
Where pixels have no bytes there is nothing to locate. -/
def LayoutDecodable (desc : ImageDesc) (d : Nat) : Prop :=
  d = 0 ∨
    ((desc.imageType = .image1DArray ∨ desc.imageType = .image2DArray →
        desc.imageArraySize = 1) ∧
      (expandedDims desc).canaryPixels * d ≤ 4294967296 ∧
      (expandedDims desc).frontPixels < 4294967296)

instance (desc : ImageDesc) (d : Nat) : Decidable (LayoutDecodable desc d) := by
  unfold LayoutDecodable
  infer_instance

theorem expandedDims_columns (desc : ImageDesc) : (expandedDims desc).iLim > 1 :=
  @expanded_columns desc { imageDesc := expandLastDimForFill (standardDesc desc) } rfl

section Locate

variable {img : MemObj} {desc : ImageDesc}

/-- Locating the canaries is a property of the positions in the array. -/
theorem locatesCanaries_iff
    (expanded : img.imageDesc = expandLastDimForFill (standardDesc desc))
    (pos : 0 < getImageDataSize img.imageFormat) :
    LocatesCanaries img desc ↔
      ∀ n < (expandedDims desc).canaryPixels, ∀ b < getImageDataSize img.imageFormat,
        getImageCanaryXYZ img (u32 (n * getImageDataSize img.imageFormat + b)) =
          some (locate (expandedDims desc) n) := by
  have bordered : (expandedDims desc).Bordered := expandedDims_bordered desc
  have data : imageBox desc = (expandedDims desc).datBox := imageBox_eq_datBox desc
  have columns := expanded_columns expanded
  have read := transfers_readImageCanaries img columns
  have copied := transfers_copyImageCanaries 0 img columns
  have unshifted : Transfer.shift 0 = id := funext fun t => by
    simp only [Transfer.shift, Nat.zero_add, id]
  have layout := canaryTransfers_isCanaryLayout desc (getImageDataSize img.imageFormat)
  rw [expanded] at read copied
  rw [unshifted, List.map_id] at copied
  simp only [LocatesCanaries, read, copied, List.forall_mem_cons, List.not_mem_nil, false_implies,
    implies_true, and_true, and_self]
  constructor
  · intro located n nLt b bLt
    obtain ⟨t, member, p, inBox, entry⟩ := ImageDims.exists_entry bordered pos nLt
    obtain ⟨u, uMem, inU, decoded⟩ := located p ((layout.boxesCover p).mp ⟨t, member, inBox⟩)
    obtain rfl : t = u := by
      by_contra ne
      exact layout.apart member uMem ne p inBox inU
    obtain ⟨m, _, entry', place⟩ := ImageDims.entry_locate bordered member inBox
    obtain rfl : n = m := Nat.eq_of_mul_eq_mul_right pos (entry.symm.trans entry')
    rw [← entry, decoded b bLt, data, place]
  · intro located p canary
    obtain ⟨t, member, inBox⟩ := (layout.boxesCover p).mpr canary
    obtain ⟨n, nLt, entry, place⟩ := ImageDims.entry_locate bordered member inBox
    refine ⟨t, member, inBox, fun b bLt => ?_⟩
    rw [entry, located n nLt b bLt, data, place]

/-- The byte of a pixel whose number was not reduced. -/
theorem getImageCanaryXYZ_entry {n b : Nat} (bLt : b < getImageDataSize img.imageFormat)
    (small : n * getImageDataSize img.imageFormat + b < 4294967296) :
    getImageCanaryXYZ img (u32 (n * getImageDataSize img.imageFormat + b)) =
      locateIndex img.imageDesc n := by
  have pos : 0 < getImageDataSize img.imageFormat := by omega
  have nLe : n ≤ n * getImageDataSize img.imageFormat := Nat.le_mul_of_pos_right n pos
  have pixel : (n * getImageDataSize img.imageFormat + b) / getImageDataSize img.imageFormat =
      n := by
    rw [Nat.add_comm, Nat.add_mul_div_right _ _ pos, Nat.div_eq_of_lt bLt, Nat.zero_add]
  rw [u32_of_lt small, getImageCanaryXYZ, if_neg pos.ne', pixel, u32_of_lt (by omega)]

end Locate

/-- The limits of an image whose canaries are counted in 32 bits fit themselves. -/
theorem ImageDims.limits_lt {s : ImageDims} (bordered : s.Bordered) (rows : s.jLim > 1)
    (small : s.canaryPixels ≤ 4294967296) :
    s.iLim < 4294967296 ∧ s.jLim < 4294967296 ∧ s.kLim < 4294967296 := by
  obtain ⟨width, height, depth⟩ := bordered
  simp only [IMAGE_POISON_WIDTH, IMAGE_POISON_HEIGHT, IMAGE_POISON_DEPTH] at width height depth
  rw [canaryPixels, if_pos rows, slicesEnd_eq] at small
  have slices : s.kDat * 256 ≤ s.kDat * (s.jDat * 16 + 16 * s.iLim) :=
    Nat.mul_le_mul_left _ (by omega)
  by_cases deep : s.kLim > 1
  · rw [if_pos deep, IMAGE_POISON_DEPTH, Nat.mul_assoc] at small
    have tall : s.jLim * 16 ≤ s.jLim * s.iLim := Nat.mul_le_mul_left _ (by omega)
    have wide : 1 * s.iLim ≤ s.jLim * s.iLim := Nat.mul_le_mul_right _ (by omega)
    omega
  · have kDat : s.kDat = 1 := by omega
    rw [kDat] at small
    omega

/-- Where an array image has one member, the decoder works with the extents of
the layout; it knows the height that it divides by whenever there are slices to
count. -/
theorem locateIndex_eq (desc : ImageDesc) (rows : (expandedDims desc).jLim > 1)
    (arrays : desc.imageType = .image1DArray ∨ desc.imageType = .image2DArray →
      desc.imageArraySize = 1)
    (small : (expandedDims desc).canaryPixels ≤ 4294967296) :
    ∃ jLim, ((expandedDims desc).kLim > 1 → jLim = (expandedDims desc).jLim) ∧
      ∀ n, locateIndex (expandLastDimForFill (standardDesc desc)) n =
        searchSlices n (expandedDims desc).iLim jLim (expandedDims desc).jDat
          (expandedDims desc).kDat 0 0 := by
  have bordered : (expandedDims desc).Bordered := expandedDims_bordered desc
  obtain ⟨iLt, jLt, kLt⟩ := ImageDims.limits_lt bordered rows small
  rw [expandedDims_eq] at iLt jLt kLt rows
  rw [expandedDims_eq]
  have single : u32 1 = 1 := by decide
  have one_member : desc.imageType = .image1DArray ∨ desc.imageType = .image2DArray →
      1 = desc.imageArraySize := fun array => (arrays array).symm
  cases type : desc.imageType <;> simp only [type] at iLt jLt kLt rows one_member ⊢
  case image1D => omega
  case image1DBuffer => omega
  case image1DArray =>
    refine ⟨1, by omega, fun n => ?_⟩
    simp only [locateIndex, expandLastDimForFill, standardDesc, type, IMAGE_POISON_WIDTH,
      IMAGE_POISON_HEIGHT, IMAGE_POISON_DEPTH, u32_of_lt iLt, single, if_true]
    rw [← one_member (Or.inl trivial)]
  case image2D =>
    refine ⟨desc.imageHeight + 16, by omega, fun n => ?_⟩
    simp only [locateIndex, expandLastDimForFill, standardDesc, type, IMAGE_POISON_WIDTH,
      IMAGE_POISON_HEIGHT, IMAGE_POISON_DEPTH, single, if_true, u32_of_lt iLt, u32_of_lt jLt,
      sub32_border jLt]
  case image2DArray =>
    refine ⟨desc.imageHeight + 16, fun _ => rfl, fun n => ?_⟩
    simp only [locateIndex, expandLastDimForFill, standardDesc, type, IMAGE_POISON_WIDTH,
      IMAGE_POISON_HEIGHT, IMAGE_POISON_DEPTH, single, if_true, u32_of_lt iLt, u32_of_lt jLt,
      sub32_border jLt]
    rw [← one_member (Or.inr trivial)]
  case image3D =>
    refine ⟨desc.imageHeight + 16, fun _ => rfl, fun n => ?_⟩
    simp only [locateIndex, expandLastDimForFill, standardDesc, type, IMAGE_POISON_WIDTH,
      IMAGE_POISON_HEIGHT, IMAGE_POISON_DEPTH, u32_of_lt iLt, u32_of_lt jLt, u32_of_lt kLt,
      sub32_border jLt, sub32_border kLt]

/-- The canaries of a single row are found at once. -/
theorem searchSlices_single_row {n iLim jLim : Nat} (below : n < 16) :
    searchSlices n iLim jLim 1 1 0 0 = some ⟨n, 0, 0⟩ := by
  have row : n / 16 = 0 := by omega
  have column : n % 16 = n := by omega
  have zero : toInt32 0 = 0 := by decide
  rw [searchSlices, searchRows_hit (by omega) (Nat.zero_le n) (by omega) (by omega)]
  dsimp only
  rw [if_pos (by omega), Nat.sub_zero, row, column, zero]
  rfl

/-- Under the condition, the search finds the place of every position. -/
theorem locateIndex_locate {desc : ImageDesc}
    (arrays : desc.imageType = .image1DArray ∨ desc.imageType = .image2DArray →
      desc.imageArraySize = 1)
    (small : (expandedDims desc).canaryPixels ≤ 4294967296)
    (front : (expandedDims desc).frontPixels < 4294967296) {n : Nat}
    (below : n < (expandedDims desc).canaryPixels) :
    locateIndex (expandLastDimForFill (standardDesc desc)) n =
      some (locate (expandedDims desc) n) := by
  have bordered : (expandedDims desc).Bordered := expandedDims_bordered desc
  have columns := expandedDims_columns desc
  by_cases rows : (expandedDims desc).jLim > 1
  · obtain ⟨jLim, height, equal⟩ := locateIndex_eq desc rows arrays small
    rw [ImageDims.frontPixels, if_pos rows, ImageDims.slicesEnd_eq] at front
    rw [ImageDims.canaryPixels, if_pos rows, ImageDims.slicesEnd_eq] at small below
    rw [equal n]
    have search := searchSlices_eq n jLim (n := (expandedDims desc).kDat)
      (k := 0) columns (by omega) front ?_ (Nat.zero_add _) (by omega)
    · rwa [Nat.zero_mul] at search
    · intro behind
      have slices : (expandedDims desc).kLim > 1 := by
        by_contra single
        rw [if_neg single] at below
        omega
      rw [if_pos slices, IMAGE_POISON_DEPTH, Nat.mul_assoc,
        Nat.mul_comm (expandedDims desc).jLim] at small
      exact ⟨by omega, by omega, height slices⟩
  · obtain ⟨jDat, kDat, -, pixels⟩ := ImageDims.single_row bordered rows
    rw [pixels] at below
    have one : u32 1 = 1 := by decide
    have found : locateIndex (expandLastDimForFill (standardDesc desc)) n = some ⟨n, 0, 0⟩ := by
      rw [expandedDims_eq] at rows
      cases type : desc.imageType <;> simp only [type] at rows
      case image1D =>
        simp only [locateIndex, expandLastDimForFill, standardDesc, type, one, if_true]
        exact searchSlices_single_row below
      case image1DBuffer =>
        simp only [locateIndex, expandLastDimForFill, standardDesc, type, one, if_true]
        exact searchSlices_single_row below
      all_goals omega
    have place := ImageDims.locate_front (s := expandedDims desc) (k := 0) (m := n)
      (by omega) (by omega)
    rw [Nat.zero_mul, Nat.zero_add, if_pos (by omega)] at place
    rw [found, place, show n % 16 = n by omega, show n / 16 = 0 by omega]
    rfl

/-! ## The condition is needed -/

namespace ImageDims

variable {s : ImageDims}

/-- Positions with the place of the first position have no other place between
them. -/
theorem locate_between (columns : s.iLim > 1) {m r : Nat} (le : r ≤ m)
    (same : locate s m = locate s 0) : locate s r = locate s 0 := by
  generalize sliceLen : s.jDat * 16 + 16 * s.iLim = slice
  have slicePos : 0 < slice := by omega
  by_cases empty : s.kDat = 0
  · -- All positions lie in the extra slices.
    simp only [locate, empty, Nat.zero_mul, Nat.not_lt_zero, if_false, Nat.sub_zero, Nat.zero_div,
      Location.mk.injEq, true_and, Nat.cast_inj] at same ⊢
    exact Nat.le_zero.mp ((Nat.div_le_div_right le).trans same.le)
  · have start : 0 < s.kDat * slice := Nat.mul_pos (by omega) slicePos
    have front : m < s.kDat * slice := by
      by_contra behind
      simp only [locate, sliceLen, if_neg behind, if_pos start] at same
      split at same <;> simp at same
    have rFront : r < s.kDat * slice := by omega
    simp only [locate, sliceLen, if_pos start, if_pos front, if_pos rFront, Nat.zero_mod,
      Nat.zero_div] at same ⊢
    by_cases rows : s.jDat = 0
    · -- No rows: the first position is in the first extra row.
      simp only [rows, Nat.zero_mul, Nat.not_lt_zero, if_false, Nat.sub_zero, Nat.zero_div,
        Location.mk.injEq, true_and, Nat.cast_inj] at same ⊢
      have rSlice : r / slice = 0 := Nat.le_zero.mp ((Nat.div_le_div_right le).trans same.2.le)
      have mBelow : m < slice := (Nat.div_eq_zero_iff_lt slicePos).mp same.2
      rw [Nat.mod_eq_of_lt mBelow] at same
      rw [Nat.mod_eq_of_lt (by omega), rSlice]
      exact ⟨Nat.le_zero.mp ((Nat.div_le_div_right le).trans same.1.le), rfl⟩
    · -- The first position is the only one with its place.
      have firstRow : 0 < s.jDat * 16 := by omega
      rw [if_pos firstRow] at same ⊢
      have here : m % slice < s.jDat * 16 := by
        by_contra column
        rw [if_neg column] at same
        simp at same
      rw [if_pos here] at same
      simp only [Location.mk.injEq, Nat.cast_inj] at same
      obtain ⟨column, row, quotient⟩ := same
      have mBelow : m < slice := (Nat.div_eq_zero_iff_lt slicePos).mp quotient
      rw [Nat.mod_eq_of_lt mBelow] at column row
      obtain rfl : r = 0 := by omega
      simp [firstRow]

/-- The first and the last position have different places. -/
theorem locate_last_ne (bordered : s.Bordered) : locate s (s.canaryPixels - 1) ≠ locate s 0 := by
  have columns : s.iLim > 1 := by
    have width := bordered.width
    simp only [IMAGE_POISON_WIDTH] at width
    omega
  by_cases rows : s.jLim > 1
  · by_cases slices : s.kLim > 1
    · -- The last position is in the last extra slice.
      have areaPos : 0 < s.iLim * s.jLim := Nat.mul_pos (by omega) (by omega)
      have last : s.canaryPixels - 1 = s.kDat * (s.jDat * 16 + 16 * s.iLim) +
          (16 * (s.iLim * s.jLim) - 1) := by
        rw [canaryPixels, if_pos rows, if_pos slices, slicesEnd_eq, IMAGE_POISON_DEPTH,
          Nat.mul_assoc, Nat.mul_comm s.jLim]
        omega
      have slice : (16 * (s.iLim * s.jLim) - 1) / (s.iLim * s.jLim) = 15 :=
        Nat.div_eq_of_lt_le (by omega) (by omega)
      rw [last]
      intro same
      have depth := congrArg Location.z same
      simp only [locate, if_neg (Nat.not_lt.mpr (Nat.le_add_right _ _)), Nat.add_sub_cancel_left,
        slice, Nat.zero_div, Nat.zero_sub] at depth
      split at depth
      · split at depth <;> simp at depth
      · simp at depth
    · -- The last position is in the last extra row of the only slice.
      have kDat : s.kDat = 1 := by
        have depth := bordered.depth
        simp only [IMAGE_POISON_DEPTH] at depth
        omega
      have last : s.canaryPixels - 1 = 0 * (s.jDat * 16 + 16 * s.iLim) +
          (s.jDat * 16 + (16 * s.iLim - 1)) := by
        rw [canaryPixels, if_pos rows, if_neg slices, slicesEnd_eq, kDat]
        omega
      have row : (16 * s.iLim - 1) / s.iLim = 15 := Nat.div_eq_of_lt_le (by omega) (by omega)
      have start := locate_front (s := s) (k := 0) (m := 0) (by omega) (by omega)
      rw [last, locate_front (by omega) (by omega), if_neg (by omega), Nat.add_sub_cancel_left,
        row]
      rw [Nat.zero_mul, Nat.zero_add] at start
      rw [start]
      split <;> simp
  · obtain ⟨jDat, kDat, -, pixels⟩ := single_row bordered rows
    have start := locate_front (s := s) (k := 0) (m := 0) (by omega) (by omega)
    have finish := locate_front (s := s) (k := 0) (m := 15) (by omega) (by omega)
    rw [Nat.zero_mul, Nat.zero_add, if_pos (by omega)] at start finish
    rw [pixels, start, finish]
    simp

end ImageDims

section Needed

variable {img : MemObj} {desc : ImageDesc}

/-- The bytes of the array must have different 32-bit numbers: the byte `2^32`
would be located like the byte `0`, and then so would be all bytes. -/
theorem pixels_le_of_located (pos : 0 < getImageDataSize img.imageFormat)
    (located : ∀ n < (expandedDims desc).canaryPixels, ∀ b < getImageDataSize img.imageFormat,
      getImageCanaryXYZ img (u32 (n * getImageDataSize img.imageFormat + b)) =
        some (locate (expandedDims desc) n)) :
    (expandedDims desc).canaryPixels * getImageDataSize img.imageFormat ≤ 4294967296 := by
  generalize getImageDataSize img.imageFormat = d at pos located ⊢
  generalize pixelsEq : (expandedDims desc).canaryPixels = pixels at located ⊢
  by_contra tooMany
  -- A byte is the pixel that it belongs to and its number in this pixel.
  have decode : ∀ byte < pixels * d,
      getImageCanaryXYZ img (u32 byte) = some (locate (expandedDims desc) (byte / d)) := by
    intro byte byteLt
    have found := located (byte / d) (Nat.div_lt_of_lt_mul (by rwa [Nat.mul_comm])) (byte % d)
      (Nat.mod_lt _ pos)
    rwa [Nat.div_add_mod'] at found
  have first := decode 0 (by omega)
  have wrapped := decode 4294967296 (by omega)
  rw [show u32 4294967296 = u32 0 from rfl, first] at wrapped
  have same := (Option.some.inj wrapped).symm
  rw [Nat.zero_div] at same
  have columns := expandedDims_columns desc
  -- The last byte is located like a byte below `2^32`.
  have last := decode (pixels * d - 1) (by omega)
  have folded := decode (u32 (pixels * d - 1)) (by
    have below := u32_lt (pixels * d - 1)
    omega)
  rw [u32_u32, last] at folded
  have between := ImageDims.locate_between columns
    (Nat.div_le_div_right (c := d) (u32_lt (pixels * d - 1)).le) same
  have lastPixel : (pixels * d - 1) / d = pixels - 1 := by
    have pixelsPos : 0 < pixels := by
      by_contra none_left
      simp [show pixels = 0 by omega] at tooMany
    apply Nat.div_eq_of_lt_le
    · have step : (pixels - 1 + 1) * d = (pixels - 1) * d + d := Nat.succ_mul _ _
      rw [Nat.sub_add_cancel pixelsPos] at step
      omega
    · rw [Nat.sub_add_cancel pixelsPos]
      omega
  rw [lastPixel, between] at folded
  have lastNe := ImageDims.locate_last_ne (expandedDims_bordered desc)
  rw [pixelsEq] at lastNe
  exact lastNe (Option.some.inj folded)

/-- A row hit is a hit in the slice that is searched. -/
theorem searchRows_z {dataIndex k n j accume : Nat} {l : Location}
    (hit : (searchRows dataIndex k n j accume).2 = some l) : l.z = toInt32 k := by
  induction n generalizing j accume with
  | zero => simp [searchRows] at hit
  | succ n ih =>
      rw [searchRows] at hit
      split at hit
      · rw [← Option.some.inj hit]
      · exact ih hit

/-- A decoder that knows one slice only finds places in it or behind it. -/
theorem searchSlices_one_slice {n iLim jLim jDat : Nat} {l : Location}
    (found : searchSlices n iLim jLim jDat 1 0 0 = some l) : l.z = 0 ∨ l.y = -1 := by
  rw [searchSlices] at found
  split at found
  rename_i accume hit rows
  split at found
  · have place := Option.some.inj found
    cases hitEq : hit with
    | none =>
        rw [hitEq] at place
        exact Or.inr (by rw [← place]; rfl)
    | some m =>
        rw [hitEq] at place
        have z := searchRows_z (l := m) (by rw [rows, hitEq])
        exact Or.inl (by rw [← place]; exact z)
  · dsimp only at found
    split at found
    · split at found
      · contradiction
      · exact Or.inl (by rw [← Option.some.inj found]; rfl)
    · rw [searchSlices] at found
      split at found
      · contradiction
      · exact Or.inr (by rw [← Option.some.inj found])

/-- A decoder that knows one row of one slice finds no row behind this row. -/
theorem searchSlices_one_row {n iLim jLim : Nat} {l : Location} (behind : 16 ≤ n)
    (nLt : n < 4294967296) (found : searchSlices n iLim jLim 1 1 0 0 = some l) : l.x = -1 := by
  rw [searchSlices, searchRows_miss nLt (by omega)] at found
  dsimp only at found
  rw [if_neg (by omega)] at found
  split at found
  · split at found
    · contradiction
    · rw [← Option.some.inj found]
  · rw [searchSlices] at found
    split at found
    · contradiction
    · rw [← Option.some.inj found]

/-- Where the first slice has a row, the search of the first position ends
there. -/
theorem searchSlices_first_row (iLim jLim jDat : Nat) :
    searchSlices 0 iLim jLim (jDat + 1) 1 0 0 = some ⟨0, 0, 0⟩ :=
  rfl

/-- Where it has none, the search of the first position ends in an extra row. -/
theorem searchSlices_first_column {iLim jLim : Nat} (pos : 0 < iLim)
    (small : 16 * iLim < 4294967296) : searchSlices 0 iLim jLim 0 1 0 0 = some ⟨-1, 0, 0⟩ := by
  have columns : u32 (IMAGE_POISON_HEIGHT * iLim) = 16 * iLim := u32_of_lt small
  have back : sub32 (16 * iLim) (16 * iLim) = 0 := by
    rw [sub32_of_le small le_rfl, Nat.sub_self]
  rw [searchSlices, searchRows]
  dsimp only
  rw [if_neg (lt_irrefl 0), columns, Nat.zero_add, u32_of_lt small, if_pos (by omega),
    if_neg (by omega), back, show sub32 0 0 = 0 from rfl, Nat.zero_div]
  rfl

/-- The decoder reads the height of a 1D array, which is one, instead of its
number of members. -/
theorem one_member_of_located_1D (type : desc.imageType = .image1DArray)
    (located : ∀ n < (expandedDims desc).canaryPixels, n < 4294967296 →
      locateIndex (expandLastDimForFill (standardDesc desc)) n =
        some (locate (expandedDims desc) n)) :
    desc.imageArraySize = 1 := by
  have one : u32 1 = 1 := by decide
  have search : ∀ n, locateIndex (expandLastDimForFill (standardDesc desc)) n =
      searchSlices n (u32 (desc.imageWidth + 16)) 1 1 1 0 0 := fun n => by
    simp only [locateIndex, expandLastDimForFill, standardDesc, type, IMAGE_POISON_WIDTH, one,
      if_true]
  have dims := expandedDims_eq desc
  simp only [type] at dims
  generalize expandedDims desc = s at dims located
  have kDat : s.kDat = 1 := by rw [dims]
  have jDat : s.jDat = desc.imageArraySize := by rw [dims]
  have iLim : s.iLim = desc.imageWidth + 16 := by rw [dims]
  have pixels : s.canaryPixels = s.jDat * 16 + 16 * s.iLim := by
    rw [ImageDims.canaryPixels, ImageDims.slicesEnd_eq, dims]
    simp
  rw [pixels] at located
  by_contra other
  by_cases empty : desc.imageArraySize = 0
  · -- The first pixel is in an extra row, but the decoder finds a row first.
    have found := located 0 (by omega) (by omega)
    have place := ImageDims.locate_front (s := s) (k := 0) (m := 0) (by omega) (by omega)
    rw [Nat.zero_mul, Nat.zero_add, if_neg (by omega)] at place
    rw [search, searchSlices_first_row, place] at found
    simp at found
  · -- The second member's first pixel is taken for one of an extra row.
    have found := located 16 (by omega) (by omega)
    have place := ImageDims.locate_front (s := s) (k := 0) (m := 16) (by omega) (by omega)
    rw [Nat.zero_mul, Nat.zero_add, if_pos (by omega)] at place
    rw [search, place] at found
    have column := searchSlices_one_row (by decide) (by decide) found
    simp at column

/-- The decoder reads the depth of a 2D array, which is one, instead of its
number of members. -/
theorem one_member_of_located_2D (type : desc.imageType = .image2DArray)
    (small : (expandedDims desc).canaryPixels ≤ 4294967296)
    (located : ∀ n < (expandedDims desc).canaryPixels, n < 4294967296 →
      locateIndex (expandLastDimForFill (standardDesc desc)) n =
        some (locate (expandedDims desc) n)) :
    desc.imageArraySize = 1 := by
  have one : u32 1 = 1 := by decide
  have bordered : (expandedDims desc).Bordered := expandedDims_bordered desc
  have dims := expandedDims_eq desc
  simp only [type] at dims
  obtain ⟨iLt, jLt, -⟩ := ImageDims.limits_lt bordered (by rw [dims]; dsimp only; omega) small
  rw [dims] at iLt jLt
  dsimp only at iLt jLt
  have search : ∀ n, locateIndex (expandLastDimForFill (standardDesc desc)) n =
      searchSlices n (desc.imageWidth + 16) (desc.imageHeight + 16) desc.imageHeight 1 0 0 :=
    fun n => by
      simp only [locateIndex, expandLastDimForFill, standardDesc, type, IMAGE_POISON_WIDTH,
        IMAGE_POISON_HEIGHT, IMAGE_POISON_DEPTH, one, if_true, u32_of_lt iLt, u32_of_lt jLt,
        sub32_border jLt]
  generalize expandedDims desc = s at dims located small
  have kDat : s.kDat = desc.imageArraySize := by rw [dims]
  have jDat : s.jDat = desc.imageHeight := by rw [dims]
  have jLim : s.jLim = desc.imageHeight + 16 := by rw [dims]
  have iLim : s.iLim = desc.imageWidth + 16 := by rw [dims]
  have pixels : s.canaryPixels =
      s.kDat * (s.jDat * 16 + 16 * s.iLim) + 16 * (s.jLim * s.iLim) := by
    rw [ImageDims.canaryPixels, ImageDims.slicesEnd_eq, dims]
    simp [IMAGE_POISON_DEPTH, Nat.mul_assoc]
  have area : 16 * s.iLim ≤ s.jLim * s.iLim := Nat.mul_le_mul_right _ (by omega)
  by_contra other
  by_cases empty : desc.imageArraySize = 0
  · -- The first pixel is in an extra slice, but the decoder finds a row or an extra row.
    have found := located 0 (by omega) (by omega)
    have place : locate s 0 = ⟨-1, -1, 0⟩ := by
      simp [locate, kDat, empty]
    rw [search, place] at found
    cases rows : desc.imageHeight with
    | zero =>
        rw [rows, searchSlices_first_column (by omega) (by omega)] at found
        simp at found
    | succ rest =>
        rw [rows, searchSlices_first_row] at found
        simp at found
  · -- The first canary pixel of the second member is placed elsewhere.
    have inside : 1 * (s.jDat * 16 + 16 * s.iLim) + 0 < s.canaryPixels := by
      have members : 2 * (s.jDat * 16 + 16 * s.iLim) ≤ s.kDat * (s.jDat * 16 + 16 * s.iLim) :=
        Nat.mul_le_mul_right _ (by omega)
      omega
    have found := located _ inside (by omega)
    rw [search, ImageDims.locate_front (by omega) (by omega)] at found
    have place := searchSlices_one_slice found
    split at place <;> simp at place

/-- The pixels before the extra slices must be countable in 32 bits: otherwise
the last extra row is passed and its last pixel is looked for behind it. -/
theorem front_lt_of_located
    (arrays : desc.imageType = .image1DArray ∨ desc.imageType = .image2DArray →
      desc.imageArraySize = 1)
    (small : (expandedDims desc).canaryPixels ≤ 4294967296)
    (located : ∀ n < (expandedDims desc).canaryPixels, n < 4294967296 →
      locateIndex (expandLastDimForFill (standardDesc desc)) n =
        some (locate (expandedDims desc) n)) :
    (expandedDims desc).frontPixels < 4294967296 := by
  have bordered : (expandedDims desc).Bordered := expandedDims_bordered desc
  have columns := expandedDims_columns desc
  by_cases rows : (expandedDims desc).jLim > 1
  · obtain ⟨jLim, -, search⟩ := locateIndex_eq desc rows arrays small
    generalize expandedDims desc = s at *
    rw [ImageDims.frontPixels, if_pos rows, ImageDims.slicesEnd_eq]
    rw [ImageDims.canaryPixels, if_pos rows, ImageDims.slicesEnd_eq] at small located
    by_contra full
    have single : ¬ s.kLim > 1 := by
      intro slices
      rw [if_pos slices, IMAGE_POISON_DEPTH, Nat.mul_assoc] at small
      have area : 1 * s.iLim ≤ s.jLim * s.iLim := Nat.mul_le_mul_right _ (by omega)
      omega
    have kDat : s.kDat = 1 := by
      have depth := bordered.depth
      simp only [IMAGE_POISON_DEPTH] at depth
      omega
    rw [if_neg single, kDat, Nat.one_mul, Nat.add_zero] at small located
    rw [kDat, Nat.one_mul] at full
    have row : (16 * s.iLim - 1) / s.iLim = 15 := Nat.div_eq_of_lt_le (by omega) (by omega)
    have place := ImageDims.locate_front (s := s) (k := 0)
      (m := s.jDat * 16 + (16 * s.iLim - 1)) (by omega) (by omega)
    rw [Nat.zero_mul, Nat.zero_add, if_neg (by omega), Nat.add_sub_cancel_left, row] at place
    have found := located (s.jDat * 16 + (16 * s.iLim - 1)) (by omega) (by omega)
    have wrapped : u32 (s.jDat * 16 + u32 (IMAGE_POISON_HEIGHT * s.iLim)) = 0 := by
      rw [u32_add_u32, IMAGE_POISON_HEIGHT,
        show s.jDat * 16 + 16 * s.iLim = 4294967296 by omega]
      rfl
    rw [search, place, kDat, searchSlices, searchRows_miss (by omega) (by omega)] at found
    dsimp only at found
    rw [if_neg (by omega), Nat.zero_add, wrapped, if_neg (Nat.not_lt_zero _),
      searchSlices] at found
    split at found
    · contradiction
    · simp at found
  · obtain ⟨jDat, -, -, -⟩ := ImageDims.single_row bordered rows
    rw [ImageDims.frontPixels, if_neg rows, jDat]
    decide

end Needed

/-- The decoder inverts the canary layout exactly where array images have one
member, canary bytes have different 32-bit numbers, and the pixels before the
extra slices are countable in 32 bits. -/
theorem locatesCanaries_iff_layoutDecodable (context : Handle) (flags : MemFlags)
    (format : ImageFormat) (desc : ImageDesc) :
    LocatesCanaries (expandImage (imageTemp context flags format desc)) desc ↔
      LayoutDecodable desc (getImageDataSize format) := by
  generalize imgEq : expandImage (imageTemp context flags format desc) = img
  have expanded : img.imageDesc = expandLastDimForFill (standardDesc desc) := by
    rw [← imgEq]
    rfl
  have formatEq : img.imageFormat = format := by
    rw [← imgEq]
    rfl
  rw [← formatEq]
  rcases Nat.eq_zero_or_pos (getImageDataSize img.imageFormat) with empty | pos
  · refine ⟨fun _ => Or.inl empty, fun _ p canary layout layoutMem => ?_⟩
    -- No byte has to be located; the entry of the pixel exists all the same.
    have covered : ∃ t ∈ layout, t.box.Mem p := by
      simp only [List.mem_cons, List.not_mem_nil, or_false] at layoutMem
      rcases layoutMem with rfl | rfl
      · exact ((readImageCanaries_isCanaryLayout expanded).boxesCover p).mpr canary
      · exact ((copyImageCanaries_isCanaryLayout expanded 0).boxesCover p).mpr canary
    obtain ⟨t, member, inBox⟩ := covered
    exact ⟨t, member, inBox, fun b bLt => by omega⟩
  · rw [locatesCanaries_iff expanded pos]
    constructor
    · intro located
      have small := pixels_le_of_located pos located
      have found : ∀ n < (expandedDims desc).canaryPixels, n < 4294967296 →
          locateIndex (expandLastDimForFill (standardDesc desc)) n =
            some (locate (expandedDims desc) n) := by
        intro n nLt _
        have below : n * getImageDataSize img.imageFormat <
            (expandedDims desc).canaryPixels * getImageDataSize img.imageFormat :=
          Nat.mul_lt_mul_of_pos_right nLt pos
        have first := located n nLt 0 pos
        rwa [getImageCanaryXYZ_entry pos (by omega), expanded] at first
      have smallPixels : (expandedDims desc).canaryPixels ≤ 4294967296 :=
        (Nat.le_mul_of_pos_right _ pos).trans small
      have arrays : desc.imageType = .image1DArray ∨ desc.imageType = .image2DArray →
          desc.imageArraySize = 1 := by
        rintro (type | type)
        · exact one_member_of_located_1D type found
        · exact one_member_of_located_2D type smallPixels found
      exact Or.inr ⟨arrays, small, front_lt_of_located arrays smallPixels found⟩
    · rintro (empty | ⟨arrays, small, front⟩) n nLt b bLt
      · omega
      · have below : (n + 1) * getImageDataSize img.imageFormat ≤
            (expandedDims desc).canaryPixels * getImageDataSize img.imageFormat :=
          Nat.mul_le_mul_right _ nLt
        rw [Nat.succ_mul] at below
        have smallPixels : (expandedDims desc).canaryPixels ≤ 4294967296 :=
          (Nat.le_mul_of_pos_right _ pos).trans small
        rw [getImageCanaryXYZ_entry bLt (by omega), expanded]
        exact locateIndex_locate arrays smallPixels front nLt

/-- In a one-dimensional array with two members the first canary byte of the
second member is located in the first extra row. -/
theorem not_locatesCanaries_array :
    ¬ LocatesCanaries (expandImage (imageTemp 1 {} ⟨.r, .unsignedInt8⟩
      ⟨.image1DArray, 4, 0, 0, 2, 0, 0, 0, 0, NULL⟩))
        ⟨.image1DArray, 4, 0, 0, 2, 0, 0, 0, 0, NULL⟩ := by
  intro located
  have second := (locatesCanaries_iff rfl (by decide)).mp located 16 (by decide) 0 (by decide)
  exact absurd second (by decide)

end Clarmor
