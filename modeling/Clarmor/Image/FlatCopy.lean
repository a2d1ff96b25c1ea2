import Clarmor.Image.Desc
import Clarmor.Library.Loop
import Clarmor.Library.Store

/-!
# The first contents of a canaried image

`allocFlatImageCopy` builds the contents of an expanded image in one flat array:
the pixels of the application, if it gave any, and canary bytes around them.
The application's rows and slices are found with its row and slice pitches.
-/

namespace Clarmor

open Word Loop Store

/-- The locals of `allocFlatImageCopy`.  `i_lim` and `i_host_len` are in bytes,
the other limits and lengths in rows and slices. -/
structure FlatCopy where
  iLim : Nat
  jLim : Nat
  kLim : Nat
  iHostLen : Nat
  jHostLen : Nat
  kHostLen : Nat
  iHostPitch : Nat
  jHostPitch : Nat
  dataSize : Nat

/-- The locals as the declarations of `allocFlatImageCopy` set them. -/
def flatCopy (img : MemObj) : FlatCopy :=
  let s := getImageDimensions .machine img.imageDesc
  let dataSize := getImageDataSize img.imageFormat
  { iLim := u32 (s.iLim * dataSize)
    jLim := s.jLim
    kLim := s.kLim
    iHostLen := u32 (s.iDat * dataSize)
    jHostLen := s.jDat
    kHostLen := s.kDat
    -- The default pitch of a row is its length before this is scaled to bytes.
    iHostPitch :=
      if img.imageDesc.imageRowPitch ≠ 0 then u32 img.imageDesc.imageRowPitch else s.iDat
    jHostPitch :=
      if img.imageDesc.imageSlicePitch ≠ 0 then u32 img.imageDesc.imageSlicePitch else s.jDat
    dataSize := dataSize }

namespace FlatCopy

variable (f : FlatCopy)

/-- First byte of row `j` of slice `k` in the array. -/
def rowOffset (k j : Nat) : Nat := u32 (k * f.jLim * f.iLim) + u32 (j * f.iLim)

/-- First byte of row `j` of slice `k` behind `host_ptr`. -/
def hostOffset (k j : Nat) : Nat :=
  u32 (k * f.jHostPitch * f.iHostPitch) + u32 (j * f.iHostPitch)

/-- The body of the row loop: copy a row and put its canary behind it. -/
def copyRow (copyHostPtr : Bool) (host : Nat → UInt8) (k j : Nat) (copy : Block UInt8) :
    Option (Block UInt8) :=
  (if copyHostPtr then copy.blit (f.rowOffset k j) host (f.hostOffset k j) f.iHostLen
    else some copy).bind fun copy =>
  copy.fill (f.rowOffset k j + f.iHostLen) (IMAGE_POISON_WIDTH * f.dataSize) POISON_FILL

/-- The body of the slice loop. -/
def copySlice (copyHostPtr : Bool) (host : Nat → UInt8) (k : Nat) (copy : Block UInt8) :
    Option (Block UInt8) :=
  (loop f.jHostLen (f.copyRow copyHostPtr host k) copy).bind fun copy =>
  if f.jLim > 1 then
    copy.fill (u32 (k * f.jLim * f.iLim) + u32 (f.jHostLen * f.iLim))
      (u32 (IMAGE_POISON_HEIGHT * f.iLim)) POISON_FILL
  else some copy

end FlatCopy

/-- `allocFlatImageCopy`, from the bytes behind `host_ptr`.  A write outside the
array has no result. -/
def allocFlatImageCopy (img : MemObj) (host : Nat → UInt8) : Option (Block UInt8) :=
  let f := flatCopy img
  (loop f.kHostLen (f.copySlice img.flags.copyHostPtr host)
    (Block.replicate img.size 0)).bind fun copy =>
  if f.kLim > 1 then
    copy.fill (u32 (f.kHostLen * f.jLim * f.iLim))
      (u32 (IMAGE_POISON_DEPTH * f.jLim * f.iLim)) POISON_FILL
  else some copy

/-! ## What the array holds -/

/-- The locals of a copy whose bytes are countable in 32 bits are those of the
exact extents. -/
structure FlatCopy.Reads (f : FlatCopy) (s : ImageDims) (d : Nat) : Prop where
  iLim : f.iLim = s.iLim * d
  jLim : f.jLim = s.jLim
  kLim : f.kLim = s.kLim
  iHostLen : f.iHostLen = s.iDat * d
  jHostLen : f.jHostLen = s.jDat
  kHostLen : f.kHostLen = s.kDat
  dataSize : f.dataSize = d
  small : s.limBox.volume * d < 4294967296

/-- A block that holds `value n b` in byte `b` of entry `n`. -/
def Holds (blk : Block UInt8) (s : ImageDims) (d : Nat) (value : Nat → Nat → UInt8) : Prop :=
  blk.len = s.limBox.volume * d ∧
    ∀ n < s.limBox.volume, ∀ b < d, blk.get (n * d + b) = value n b

section Writes

variable {s : ImageDims} {d : Nat} {value : Nat → Nat → UInt8} {blk : Block UInt8}

theorem Holds.fill (holds : Holds blk s d value) (lo len : Nat) (v : UInt8)
    (fits : lo + len ≤ s.limBox.volume) :
    ∃ blk', blk.fill (lo * d) (len * d) v = some blk' ∧
      Holds blk' s d fun n b => if lo ≤ n ∧ n < lo + len then v else value n b := by
  have room : lo * d + len * d ≤ blk.len := by
    rw [← Nat.add_mul, holds.1]
    exact Nat.mul_le_mul_right d fits
  refine ⟨_, Block.fill_of_le room, holds.1, fun n nLt b bLt => ?_⟩
  dsimp only
  rw [fill_entries bLt, holds.2 n nLt b bLt]

theorem Holds.blit (holds : Holds blk s d value) (lo len start : Nat) (src : Nat → UInt8)
    (fits : lo + len ≤ s.limBox.volume) :
    ∃ blk', blk.blit (lo * d) src start (len * d) = some blk' ∧
      Holds blk' s d fun n b =>
        if lo ≤ n ∧ n < lo + len then src (start + (n - lo) * d + b) else value n b := by
  have room : lo * d + len * d ≤ blk.len := by
    rw [← Nat.add_mul, holds.1]
    exact Nat.mul_le_mul_right d fits
  refine ⟨_, Block.blit_of_le room, holds.1, fun n nLt b bLt => ?_⟩
  dsimp only
  rw [blit_entries bLt, holds.2 n nLt b bLt]

theorem Holds.congr (holds : Holds blk s d value) {value' : Nat → Nat → UInt8}
    (same : ∀ n < s.limBox.volume, ∀ b < d, value n b = value' n b) : Holds blk s d value' :=
  ⟨holds.1, fun n nLt b bLt => by rw [holds.2 n nLt b bLt, same n nLt b bLt]⟩

end Writes

/-- The byte that the array is to hold for byte `b` of the pixel `p`: a byte of
the application where the pixel is one of the data, read where the function
looks for it, and a canary byte elsewhere. -/
def FlatCopy.pixelByte (f : FlatCopy) (s : ImageDims) (d : Nat) (copyHostPtr : Bool)
    (host : Nat → UInt8) (p : Point) (b : Nat) : UInt8 :=
  if s.datBox.Mem p then
    if copyHostPtr then host (f.hostOffset p.z p.y + p.x * d + b) else 0
  else POISON_FILL

namespace FlatCopy

variable {f : FlatCopy} {s : ImageDims} {d : Nat}

/-- The contents when the rows before row `j` of slice `k` are done. -/
def progress (f : FlatCopy) (s : ImageDims) (d : Nat) (copyHostPtr : Bool) (host : Nat → UInt8)
    (k j n b : Nat) : UInt8 :=
  let p := s.limBox.point n
  if p.z < k ∨ (p.z = k ∧ p.y < j) then f.pixelByte s d copyHostPtr host p b else 0

theorem volume_eq (s : ImageDims) : s.limBox.volume = s.kLim * s.jLim * s.iLim :=
  rfl

/-- The position of a pixel in the array. -/
theorem index_eq (s : ImageDims) (n : Nat) :
    n = ((s.limBox.point n).z * s.jLim + (s.limBox.point n).y) * s.iLim +
      (s.limBox.point n).x := by
  have numbered := Box.index_point (b := s.limBox) (n := n)
  simpa [Box.index, ImageDims.limBox] using numbered.symm

/-- Row offsets are not reduced. -/
theorem Reads.rowOffset (reads : f.Reads s d) {k j : Nat} (kLt : k < s.kLim) (jLe : j ≤ s.jLim) :
    f.rowOffset k j = (k * s.jLim + j) * s.iLim * d := by
  have area : (k * s.jLim + s.jLim) * s.iLim * d ≤ s.kLim * s.jLim * s.iLim * d := by
    rw [← Nat.succ_mul]
    exact Nat.mul_le_mul_right d (Nat.mul_le_mul_right _ (Nat.mul_le_mul_right _ kLt))
  have row : (k * s.jLim + j) * s.iLim * d ≤ (k * s.jLim + s.jLim) * s.iLim * d :=
    Nat.mul_le_mul_right d (Nat.mul_le_mul_right _ (by omega))
  have small := reads.small
  rw [volume_eq] at small
  have split : (k * s.jLim + j) * s.iLim * d = k * s.jLim * (s.iLim * d) + j * (s.iLim * d) := by
    ring
  rw [FlatCopy.rowOffset, reads.jLim, reads.iLim, u32_of_lt (by omega), u32_of_lt (by omega), split]

/-- A pixel of the array lies in the box of all pixels. -/
theorem point_lt {n : Nat} (nLt : n < s.limBox.volume) :
    (s.limBox.point n).x < s.iLim ∧ (s.limBox.point n).y < s.jLim ∧
      (s.limBox.point n).z < s.kLim := by
  obtain ⟨⟨-, xLt⟩, ⟨-, yLt⟩, -, zLt⟩ := Box.point_mem nLt
  simp only [ImageDims.limBox, Nat.zero_add] at xLt yLt zLt
  exact ⟨xLt, yLt, zLt⟩

/-- Entries of rows `lo` to `hi` of slice `k`. -/
theorem rows_mem {n k lo hi : Nat} (nLt : n < s.limBox.volume) (hiLe : hi ≤ s.jLim) :
    (k * s.jLim + lo) * s.iLim ≤ n ∧ n < (k * s.jLim + hi) * s.iLim ↔
      (s.limBox.point n).z = k ∧ lo ≤ (s.limBox.point n).y ∧ (s.limBox.point n).y < hi := by
  obtain ⟨xLt, yLt, -⟩ := point_lt nLt
  have numbered := entry_between ((s.limBox.point n).z * s.jLim + (s.limBox.point n).y)
    (k * s.jLim + lo) (k * s.jLim + hi) xLt
  rw [← index_eq s n] at numbered
  rw [numbered, Box.mul_add_between _ _ _ yLt hiLe]

/-- Entries `lo` to `hi` of row `j` of slice `k`. -/
theorem row_mem (k lo hi : Nat) {n j : Nat} (nLt : n < s.limBox.volume) (jLt : j < s.jLim)
    (hiLe : hi ≤ s.iLim) :
    (k * s.jLim + j) * s.iLim + lo ≤ n ∧ n < (k * s.jLim + j) * s.iLim + hi ↔
      ((s.limBox.point n).z = k ∧ (s.limBox.point n).y = j) ∧
        lo ≤ (s.limBox.point n).x ∧ (s.limBox.point n).x < hi := by
  obtain ⟨xLt, yLt, -⟩ := point_lt nLt
  have numbered := Box.mul_add_between ((s.limBox.point n).z * s.jLim + (s.limBox.point n).y)
    (k * s.jLim + j) lo xLt hiLe
  rw [← index_eq s n] at numbered
  rw [numbered]
  have rows := Box.mul_add_between (s.limBox.point n).z k j yLt (Nat.succ_le_of_lt jLt)
  refine and_congr_left fun _ => ⟨fun same => ?_, ?_⟩
  · have inRow := rows.mp ⟨by omega, by omega⟩
    omega
  · rintro ⟨sameZ, sameY⟩
    rw [sameZ, sameY]

/-- The slices from slice `k` on. -/
theorem slices_mem {n k : Nat} (nLt : n < s.limBox.volume) :
    k * s.jLim * s.iLim ≤ n ↔ k ≤ (s.limBox.point n).z := by
  obtain ⟨xLt, yLt, zLt⟩ := point_lt nLt
  have lower := entry_between (s.limBox.point n).z k s.kLim yLt
  have numbered := entry_between ((s.limBox.point n).z * s.jLim + (s.limBox.point n).y)
    (k * s.jLim) (s.kLim * s.jLim) xLt
  rw [← index_eq s n, lower] at numbered
  have below : n < s.kLim * s.jLim * s.iLim := nLt
  constructor
  · intro behind
    exact (numbered.mp ⟨behind, below⟩).1
  · intro behind
    exact (numbered.mpr ⟨behind, zLt⟩).1

variable {copyHostPtr : Bool} {host : Nat → UInt8}

/-- The row loop makes progress by one row. -/
theorem copyRow_holds (reads : f.Reads s d) (bordered : s.Bordered) {k j : Nat}
    (kLt : k < s.kDat) (jLt : j < s.jDat) {blk : Block UInt8}
    (holds : Holds blk s d (f.progress s d copyHostPtr host k j)) :
    ∃ blk', f.copyRow copyHostPtr host k j blk = some blk' ∧
      Holds blk' s d (f.progress s d copyHostPtr host k (j + 1)) := by
  have width := bordered.width
  have height := bordered.height
  have depth := bordered.depth
  simp only [IMAGE_POISON_WIDTH, IMAGE_POISON_HEIGHT, IMAGE_POISON_DEPTH] at width height depth
  have jLim : j < s.jLim := by omega
  have kLim : k < s.kLim := by omega
  have rowFits : (k * s.jLim + j) * s.iLim + s.iLim ≤ s.limBox.volume := by
    rw [volume_eq, ← Nat.succ_mul]
    exact Nat.mul_le_mul_right _ (Box.mul_add_lt kLim jLim)
  -- The pixels of the row, when there are any to copy.
  obtain ⟨mid, copied, midHolds⟩ : ∃ mid,
      (if copyHostPtr then
        blk.blit (f.rowOffset k j) host (f.hostOffset k j) f.iHostLen else some blk) = some mid ∧
      Holds mid s d fun n b =>
        if copyHostPtr ∧ (k * s.jLim + j) * s.iLim ≤ n ∧ n < (k * s.jLim + j) * s.iLim + s.iDat
        then host (f.hostOffset k j + (n - (k * s.jLim + j) * s.iLim) * d + b)
        else f.progress s d copyHostPtr host k j n b := by
    rw [reads.rowOffset kLim jLim.le, reads.iHostLen]
    cases copyHostPtr with
    | false => exact ⟨blk, rfl, holds.congr fun n _ b _ => by simp⟩
    | true =>
        obtain ⟨mid, copied, midHolds⟩ := holds.blit ((k * s.jLim + j) * s.iLim) s.iDat
          (f.hostOffset k j) host (by omega)
        exact ⟨mid, copied, midHolds.congr fun n _ b _ => by simp⟩
  have canaryAt : f.rowOffset k j + f.iHostLen = ((k * s.jLim + j) * s.iLim + s.iDat) * d := by
    rw [reads.rowOffset kLim jLim.le, reads.iHostLen, ← Nat.add_mul]
  obtain ⟨blk', filled, done⟩ := midHolds.fill ((k * s.jLim + j) * s.iLim + s.iDat) 16 POISON_FILL
    (by omega)
  refine ⟨blk', ?_, done.congr fun n nLt b bLt => ?_⟩
  · rw [copyRow, copied, Option.bind_some, canaryAt, reads.dataSize]
    exact filled
  · have inRow := row_mem k 0 s.iDat nLt jLim (by omega)
    have inCanary := row_mem k s.iDat (s.iDat + 16) nLt jLim (by omega)
    obtain ⟨xLt, yLt, zLt⟩ := point_lt nLt
    rw [Nat.add_zero] at inRow
    rw [Nat.add_assoc]
    simp only [inRow, inCanary, progress]
    generalize pixel : s.limBox.point n = p at xLt yLt zLt
    by_cases here : p.z = k ∧ p.y = j
    · have notBefore : ¬ (p.z < k ∨ p.z = k ∧ p.y < j) := by omega
      have done : p.z < k ∨ p.z = k ∧ p.y < j + 1 := by omega
      rw [if_pos done, if_neg notBefore, pixelByte]
      by_cases data : p.x < s.iDat
      · have member : s.datBox.Mem p := by
          simp only [Box.Mem, ImageDims.datBox]
          omega
        have offset : n - (k * s.jLim + j) * s.iLim = p.x := by
          have numbered := index_eq s n
          rw [pixel, here.1, here.2] at numbered
          omega
        rw [if_neg (by omega), if_pos member, offset, ← here.1, ← here.2]
        simp only [and_self, Nat.zero_le, data, and_true]
      · have outside : ¬ s.datBox.Mem p := by
          simp only [Box.Mem, ImageDims.datBox]
          omega
        rw [if_pos (by omega), if_neg outside]
    · have same : (p.z < k ∨ p.z = k ∧ p.y < j) ↔ (p.z < k ∨ p.z = k ∧ p.y < j + 1) := by omega
      simp only [here, false_and, and_false, if_false, same]

/-- The slice loop makes progress by one slice. -/
theorem copySlice_holds (reads : f.Reads s d) (bordered : s.Bordered) {k : Nat}
    (kLt : k < s.kDat) {blk : Block UInt8}
    (holds : Holds blk s d (f.progress s d copyHostPtr host k 0)) :
    ∃ blk', f.copySlice copyHostPtr host k blk = some blk' ∧
      Holds blk' s d (f.progress s d copyHostPtr host (k + 1) 0) := by
  have height := bordered.height
  have depth := bordered.depth
  simp only [IMAGE_POISON_HEIGHT, IMAGE_POISON_DEPTH] at height depth
  have kLim : k < s.kLim := by omega
  obtain ⟨mid, rows, midHolds⟩ := loop_total (f.copyRow copyHostPtr host k)
    (fun j b => Holds b s d (f.progress s d copyHostPtr host k j)) holds
    (n := f.jHostLen)
    (fun j jLt b inv => copyRow_holds reads bordered kLt (reads.jHostLen ▸ jLt) inv)
  rw [reads.jHostLen] at midHolds
  rw [FlatCopy.copySlice, rows, Option.bind_some, reads.jLim]
  by_cases columns : s.jLim > 1
  · have start : u32 (k * f.jLim * f.iLim) + u32 (f.jHostLen * f.iLim) =
        (k * s.jLim + s.jDat) * s.iLim * d := by
      rw [reads.jHostLen]
      exact reads.rowOffset kLim (by omega)
    have area : 16 * s.iLim ≤ s.kLim * s.jLim * s.iLim :=
      Nat.mul_le_mul_right _ (le_trans (by omega) (Nat.le_mul_of_pos_left s.jLim (by omega)))
    have areaBytes := Nat.mul_le_mul_right d area
    have len : u32 (IMAGE_POISON_HEIGHT * f.iLim) = 16 * s.iLim * d := by
      have small := reads.small
      rw [volume_eq] at small
      rw [IMAGE_POISON_HEIGHT, reads.iLim, ← Nat.mul_assoc, u32_of_lt (by omega)]
    have strip : (k * s.jLim + s.jDat) * s.iLim + 16 * s.iLim =
        (k * s.jLim + s.jLim) * s.iLim := by
      rw [← Nat.add_mul]
      congr 1
      omega
    obtain ⟨blk', filled, done⟩ := midHolds.fill ((k * s.jLim + s.jDat) * s.iLim)
      (16 * s.iLim) POISON_FILL (by
        rw [strip, volume_eq, ← Nat.succ_mul]
        exact Nat.mul_le_mul_right _ (Nat.mul_le_mul_right _ kLim))
    refine ⟨blk', ?_, done.congr fun n nLt b bLt => ?_⟩
    · rw [if_pos columns, ← reads.jLim, start, len]
      exact filled
    · obtain ⟨xLt, yLt, zLt⟩ := point_lt nLt
      rw [strip]
      simp only [rows_mem nLt le_rfl, progress]
      generalize s.limBox.point n = p at xLt yLt zLt
      by_cases here : p.z = k ∧ s.jDat ≤ p.y ∧ p.y < s.jLim
      · have outside : ¬ s.datBox.Mem p := by
          simp only [Box.Mem, ImageDims.datBox]
          omega
        rw [if_pos here, if_pos (by omega), pixelByte, if_neg outside]
      · have same : (p.z < k ∨ p.z = k ∧ p.y < s.jDat) ↔
            (p.z < k + 1 ∨ p.z = k + 1 ∧ p.y < 0) := by omega
        simp only [if_neg here, same]
  · refine ⟨mid, if_neg columns, midHolds.congr fun n nLt b bLt => ?_⟩
    obtain ⟨xLt, yLt, zLt⟩ := point_lt nLt
    have same : ((s.limBox.point n).z < k ∨ (s.limBox.point n).z = k ∧
          (s.limBox.point n).y < s.jDat) ↔
        ((s.limBox.point n).z < k + 1 ∨ (s.limBox.point n).z = k + 1 ∧
          (s.limBox.point n).y < 0) := by omega
    simp only [progress, same]

end FlatCopy

/-- The array that `allocFlatImageCopy` builds holds the pixel bytes; no write
leaves it. -/
theorem allocFlatImageCopy_holds {img : MemObj} {s : ImageDims} {d : Nat}
    (reads : (flatCopy img).Reads s d) (bordered : s.Bordered)
    (size : img.size = s.limBox.volume * d) (host : Nat → UInt8) :
    ∃ blk, allocFlatImageCopy img host = some blk ∧
      Holds blk s d fun n b =>
        (flatCopy img).pixelByte s d img.flags.copyHostPtr host (s.limBox.point n) b := by
  have depth := bordered.depth
  simp only [IMAGE_POISON_DEPTH, IMAGE_POISON_HEIGHT] at depth
  have fresh : Holds (Block.replicate img.size 0) s d
      ((flatCopy img).progress s d img.flags.copyHostPtr host 0 0) :=
    ⟨size, fun n _ b _ => by simp [FlatCopy.progress]⟩
  obtain ⟨mid, slices, midHolds⟩ := loop_total ((flatCopy img).copySlice img.flags.copyHostPtr host)
    (fun k b => Holds b s d ((flatCopy img).progress s d img.flags.copyHostPtr host k 0)) fresh
    (n := (flatCopy img).kHostLen)
    (fun k kLt b inv => FlatCopy.copySlice_holds reads bordered (reads.kHostLen ▸ kLt) inv)
  rw [reads.kHostLen] at midHolds
  rw [allocFlatImageCopy, slices, Option.bind_some, reads.kLim]
  by_cases deep : s.kLim > 1
  · have small := reads.small
    rw [FlatCopy.volume_eq] at small
    have split : s.kLim * s.jLim * s.iLim * d =
        s.kDat * s.jLim * s.iLim * d + 16 * s.jLim * s.iLim * d := by
      rw [show s.kLim = s.kDat + 16 by omega]
      ring
    have start : u32 ((flatCopy img).kHostLen * (flatCopy img).jLim * (flatCopy img).iLim) =
        s.kDat * s.jLim * s.iLim * d := by
      rw [reads.kHostLen, reads.jLim, reads.iLim, ← Nat.mul_assoc, u32_of_lt (by omega)]
    have len : u32 (IMAGE_POISON_DEPTH * (flatCopy img).jLim * (flatCopy img).iLim) =
        16 * s.jLim * s.iLim * d := by
      rw [IMAGE_POISON_DEPTH, reads.jLim, reads.iLim, ← Nat.mul_assoc, u32_of_lt (by omega)]
    have fits : s.kDat * s.jLim * s.iLim + 16 * s.jLim * s.iLim = s.limBox.volume := by
      rw [FlatCopy.volume_eq, show s.kLim = s.kDat + 16 by omega]
      ring
    obtain ⟨blk, filled, done⟩ := midHolds.fill (s.kDat * s.jLim * s.iLim)
      (16 * s.jLim * s.iLim) POISON_FILL fits.le
    refine ⟨blk, ?_, done.congr fun n nLt b bLt => ?_⟩
    · rw [if_pos deep, start, len]
      exact filled
    · have behind := FlatCopy.slices_mem (k := s.kDat) nLt
      rw [fits]
      simp only [behind, nLt, and_true, FlatCopy.progress]
      generalize s.limBox.point n = p
      by_cases here : s.kDat ≤ p.z
      · have outside : ¬ s.datBox.Mem p := by
          simp only [Box.Mem, ImageDims.datBox]
          omega
        rw [if_pos here, FlatCopy.pixelByte, if_neg outside]
      · rw [if_neg here, if_pos (by omega)]
  · refine ⟨mid, if_neg deep, midHolds.congr fun n nLt b bLt => ?_⟩
    obtain ⟨xLt, yLt, zLt⟩ := FlatCopy.point_lt nLt
    simp only [FlatCopy.progress]
    rw [if_pos (by omega)]

/-- Where pixels have no bytes, the array is empty and stays so. -/
theorem allocFlatImageCopy_empty {img : MemObj} (noBytes : getImageDataSize img.imageFormat = 0)
    (host : Nat → UInt8) : ∃ blk, allocFlatImageCopy img host = some blk ∧ blk.len = img.size := by
  have iLim : (flatCopy img).iLim = 0 := by simp [flatCopy, noBytes, u32]
  have iHostLen : (flatCopy img).iHostLen = 0 := by simp [flatCopy, noBytes, u32]
  have dataSize : (flatCopy img).dataSize = 0 := noBytes
  have zero : u32 0 = 0 := by decide
  have rows : ∀ k j (b : Block UInt8), b.len = img.size →
      ∃ b', (flatCopy img).copyRow img.flags.copyHostPtr host k j b = some b' ∧
        b'.len = img.size := by
    intro k j b len
    simp only [FlatCopy.copyRow, FlatCopy.rowOffset, iLim, iHostLen, dataSize, Nat.mul_zero, zero]
    cases img.flags.copyHostPtr with
    | false => exact ⟨_, Block.fill_of_le (by omega), len⟩
    | true =>
        rw [if_pos rfl, Block.blit_of_le (by omega), Option.bind_some]
        exact ⟨_, Block.fill_of_le (by dsimp only; omega), len⟩
  have slices : ∀ k (b : Block UInt8), b.len = img.size →
      ∃ b', (flatCopy img).copySlice img.flags.copyHostPtr host k b = some b' ∧
        b'.len = img.size := by
    intro k b len
    obtain ⟨mid, ran, midLen⟩ := loop_total _ (n := (flatCopy img).jHostLen)
      (fun _ (b : Block UInt8) => b.len = img.size) len fun j _ b inv => rows k j b inv
    rw [FlatCopy.copySlice, ran, Option.bind_some]
    split
    · simp only [iLim, Nat.mul_zero, zero]
      exact ⟨_, Block.fill_of_le (by omega), midLen⟩
    · exact ⟨mid, rfl, midLen⟩
  obtain ⟨mid, ran, midLen⟩ := loop_total _ (n := (flatCopy img).kHostLen)
    (s := Block.replicate img.size (0 : UInt8))
    (fun _ (b : Block UInt8) => b.len = img.size) rfl fun k _ b inv => slices k b inv
  rw [allocFlatImageCopy, ran, Option.bind_some]
  split
  · simp only [iLim, Nat.mul_zero, zero]
    exact ⟨_, Block.fill_of_le (by omega), midLen⟩
  · exact ⟨mid, rfl, midLen⟩

/-! ## The application's pitches -/

/-- Bytes from one row of the application to the next. -/
def rowPitch (desc : ImageDesc) (d : Nat) : Nat :=
  if desc.imageRowPitch ≠ 0 then desc.imageRowPitch else desc.imageWidth * d

/-- Bytes from one slice of the application to the next. -/
def slicePitch (desc : ImageDesc) (d : Nat) : Nat :=
  if desc.imageSlicePitch ≠ 0 then desc.imageSlicePitch
  else rowPitch desc d * (imageBox desc).ry

/-- The byte that the image is to start with: the application's byte or a zero
in a pixel of the data, and a canary byte in every other pixel. -/
def startByte (desc : ImageDesc) (d : Nat) (copyHostPtr : Bool) (host : Nat → UInt8) (p : Point)
    (b : Nat) : UInt8 :=
  if (imageBox desc).Mem p then
    if copyHostPtr then host (p.z * slicePitch desc d + p.y * rowPitch desc d + p.x * d + b)
    else 0
  else POISON_FILL

/-- The array starts the image: it has the size of the expanded image and the
right byte at every byte of every pixel. -/
def StartsImage (desc : ImageDesc) (d : Nat) (copyHostPtr : Bool) (host : Nat → UInt8)
    (blk : Block UInt8) : Prop :=
  blk.len = (imageBox (expandLastDimForFill desc)).volume * d ∧
    ∀ p, (imageBox (expandLastDimForFill desc)).Mem p → ∀ b < d,
      blk.get ((imageBox (expandLastDimForFill desc)).index p * d + b) =
        startByte desc d copyHostPtr host p b

/-- Nothing is copied; or the rows and slices are where the function looks for
them.  Several rows need a given row pitch or pixels of one byte.  Several
slices need this as well when their pitch is not given; when it is given, it is
multiplied with the row pitch in pixels, which may only change it by a multiple
of `2^32`.  The last row and the last slice start below `2^32`. -/
def PitchesAgree (desc : ImageDesc) (d : Nat) (copyHostPtr : Bool) : Prop :=
  copyHostPtr = false ∨ (imageBox desc).volume * d = 0 ∨
    (((imageBox desc).ry ≤ 1 ∨
        (desc.imageRowPitch ≠ 0 ∨ d = 1) ∧
          ((imageBox desc).ry - 1) * rowPitch desc d < 4294967296) ∧
      ((imageBox desc).rz ≤ 1 ∨
        ((imageBox desc).rz - 1) * slicePitch desc d < 4294967296 ∧
          if desc.imageSlicePitch = 0 then desc.imageRowPitch ≠ 0 ∨ d = 1
          else desc.imageSlicePitch *
            ((if desc.imageRowPitch ≠ 0 then desc.imageRowPitch else desc.imageWidth) - 1) %
              4294967296 = 0))

instance (desc : ImageDesc) (d : Nat) (copyHostPtr : Bool) :
    Decidable (PitchesAgree desc d copyHostPtr) := by
  unfold PitchesAgree
  infer_instance

section Pitches

variable {desc : ImageDesc} {d : Nat}

/-- The extents of an image whose bytes are countable in 32 bits are as well. -/
theorem limits_lt_of_volume (pos : 0 < d)
    (small : (expandedDims desc).limBox.volume * d < 4294967296) :
    (expandedDims desc).iLim < 4294967296 ∧ (expandedDims desc).jLim < 4294967296 ∧
      (expandedDims desc).kLim < 4294967296 := by
  obtain ⟨width, height, depth⟩ := expandedDims_bordered desc
  simp only [IMAGE_POISON_WIDTH, IMAGE_POISON_HEIGHT, IMAGE_POISON_DEPTH] at width height depth
  generalize expandedDims desc = s at *
  have pixels : s.kLim * s.jLim * s.iLim ≤ s.limBox.volume * d := Nat.le_mul_of_pos_right _ pos
  have wide := Nat.le_mul_of_pos_left s.iLim (Nat.mul_pos (show 0 < s.kLim by omega)
    (show 0 < s.jLim by omega))
  have rows := Nat.le_mul_of_pos_right (s.kLim * s.jLim) (show 0 < s.iLim by omega)
  have tall := Nat.le_mul_of_pos_left s.jLim (show 0 < s.kLim by omega)
  have deep := Nat.le_mul_of_pos_right s.kLim (show 0 < s.jLim by omega)
  omega

/-- The locals of the copy for an image that the application described. -/
theorem flatCopy_reads {img : MemObj}
    (expanded : img.imageDesc = expandLastDimForFill (standardDesc desc))
    (bytes : getImageDataSize img.imageFormat = d) (pos : 0 < d)
    (small : (expandedDims desc).limBox.volume * d < 4294967296) :
    (flatCopy img).Reads (expandedDims desc) d := by
  obtain ⟨iLt, jLt, kLt⟩ := limits_lt_of_volume pos small
  obtain ⟨width, height, depth⟩ := expandedDims_bordered desc
  simp only [IMAGE_POISON_WIDTH, IMAGE_POISON_HEIGHT, IMAGE_POISON_DEPTH] at width height depth
  have dims := machine_dims iLt jLt kLt
  have row : (expandedDims desc).iLim * d ≤ (expandedDims desc).limBox.volume * d := by
    refine Nat.mul_le_mul_right d (Nat.le_mul_of_pos_left _ (Nat.mul_pos ?_ ?_))
    · simp only [ImageDims.limBox]
      omega
    · simp only [ImageDims.limBox]
      omega
  have data : (expandedDims desc).iDat * d ≤ (expandedDims desc).iLim * d :=
    Nat.mul_le_mul_right d (by omega)
  refine ⟨?_, ?_, ?_, ?_, ?_, ?_, ?_, small⟩ <;> simp only [flatCopy, expanded, dims, bytes]
  · exact u32_of_lt (by omega)
  · exact u32_of_lt (by omega)

theorem imageSize_expanded (format : ImageFormat)
    (small : (expandedDims desc).limBox.volume * getImageDataSize format < 4294967296) :
    imageSize (expandLastDimForFill (standardDesc desc)) format =
      (expandedDims desc).limBox.volume * getImageDataSize format := by
  have product : (expandLastDimForFill (standardDesc desc)).imageWidth *
      (expandLastDimForFill (standardDesc desc)).imageHeight *
      (expandLastDimForFill (standardDesc desc)).imageDepth *
      (expandLastDimForFill (standardDesc desc)).imageArraySize =
        (expandedDims desc).limBox.volume := by
    rw [expandedDims_eq]
    cases type : desc.imageType <;>
      simp [expandLastDimForFill, standardDesc, type, ImageDims.limBox, Box.volume,
        IMAGE_POISON_WIDTH, IMAGE_POISON_HEIGHT, IMAGE_POISON_DEPTH] <;> ring
  rw [imageSize, product, u64_of_lt (by omega)]

@[simp]
theorem expand_imageRowPitch (desc : ImageDesc) :
    (expandLastDimForFill (standardDesc desc)).imageRowPitch = desc.imageRowPitch := by
  cases type : desc.imageType <;> simp [expandLastDimForFill, standardDesc, type]

@[simp]
theorem expand_imageSlicePitch (desc : ImageDesc) :
    (expandLastDimForFill (standardDesc desc)).imageSlicePitch = desc.imageSlicePitch := by
  cases type : desc.imageType <;> simp [expandLastDimForFill, standardDesc, type]

theorem iDat_eq_imageWidth (desc : ImageDesc) : (expandedDims desc).iDat = desc.imageWidth := by
  rw [expandedDims_eq]
  cases desc.imageType <;> rfl

/-- The pixels of the data, in rows and slices, where one has bytes. -/
theorem data_volume (desc : ImageDesc) :
    (imageBox desc).volume = (imageBox desc).rz * (imageBox desc).ry * desc.imageWidth := by
  cases type : desc.imageType <;> simp [imageBox, type, Box.volume]

/-- The rows are found where the row pitch says. -/
theorem row_strides_iff {n : Nat} (widthPos : 0 < desc.imageWidth)
    (widthLt : desc.imageWidth < 4294967296) :
    (∀ j < n, u32 (j *
        (if desc.imageRowPitch ≠ 0 then u32 desc.imageRowPitch else desc.imageWidth)) =
          j * rowPitch desc d) ↔
      n ≤ 1 ∨ (desc.imageRowPitch ≠ 0 ∨ d = 1) ∧ (n - 1) * rowPitch desc d < 4294967296 := by
  rw [stride_iff, and_comm]
  refine or_congr_right' fun several => and_congr_left fun last => ?_
  have one : rowPitch desc d ≤ (n - 1) * rowPitch desc d := Nat.le_mul_of_pos_left _ (by omega)
  unfold rowPitch at one last ⊢
  by_cases given : desc.imageRowPitch = 0
  · simp only [given, ne_eq, not_true_eq_false, if_false, false_or] at one last ⊢
    rw [u32_of_lt widthLt, u32_of_lt (by omega)]
    constructor
    · intro same
      exact (Nat.eq_of_mul_eq_mul_left widthPos (by omega)).symm
    · rintro rfl
      rw [Nat.mul_one]
  · simp [given]

/-- The slices are found where the slice pitch says. -/
theorem slice_strides_iff {n rows : Nat} (widthPos : 0 < desc.imageWidth) (rowsPos : 0 < rows)
    (rowsEq : (imageBox desc).ry = rows) (small : rows * desc.imageWidth < 4294967296) :
    (∀ k < n, u32 (k *
        ((if desc.imageSlicePitch ≠ 0 then u32 desc.imageSlicePitch else rows) *
          (if desc.imageRowPitch ≠ 0 then u32 desc.imageRowPitch else desc.imageWidth))) =
          k * slicePitch desc d) ↔
      n ≤ 1 ∨ (n - 1) * slicePitch desc d < 4294967296 ∧
        if desc.imageSlicePitch = 0 then desc.imageRowPitch ≠ 0 ∨ d = 1
        else desc.imageSlicePitch *
          ((if desc.imageRowPitch ≠ 0 then desc.imageRowPitch else desc.imageWidth) - 1) %
            4294967296 = 0 := by
  rw [stride_iff]
  refine or_congr_right' fun several => and_congr_right fun last => ?_
  have one : slicePitch desc d ≤ (n - 1) * slicePitch desc d :=
    Nat.le_mul_of_pos_left _ (by omega)
  have pitch : u32 (if desc.imageRowPitch ≠ 0 then u32 desc.imageRowPitch
      else desc.imageWidth) =
        u32 (if desc.imageRowPitch ≠ 0 then desc.imageRowPitch else desc.imageWidth) := by
    split
    · exact u32_u32 _
    · rfl
  unfold slicePitch at one last ⊢
  by_cases slicesGiven : desc.imageSlicePitch = 0
  · simp only [slicesGiven, ne_eq, not_true_eq_false, if_false, if_true, rowsEq] at one last ⊢
    rw [← u32_mul_u32, pitch, u32_mul_u32]
    unfold rowPitch at one last ⊢
    by_cases rowsGiven : desc.imageRowPitch = 0
    · simp only [rowsGiven, ne_eq, not_true_eq_false, if_false, false_or] at one last ⊢
      have unit : desc.imageWidth * d * rows = rows * desc.imageWidth * d := by ring
      rw [unit] at one last ⊢
      rw [u32_of_lt small, u32_of_lt (by omega)]
      constructor
      · intro same
        exact (Nat.eq_of_mul_eq_mul_left (Nat.mul_pos rowsPos widthPos) (by omega)).symm
      · rintro rfl
        rw [Nat.mul_one]
    · simp [rowsGiven, Nat.mul_comm]
  · simp only [slicesGiven, ne_eq, not_false_eq_true, if_true, if_false]
    rw [← u32_mul_u32, pitch, u32_mul_u32, u32_u32_mul]
    have pitchPos : 0 < (if desc.imageRowPitch ≠ 0 then desc.imageRowPitch
        else desc.imageWidth) := by
      split
      · omega
      · exact widthPos
    generalize (if desc.imageRowPitch ≠ 0 then desc.imageRowPitch else desc.imageWidth) = pixels
      at pitchPos
    have step : desc.imageSlicePitch * pixels - desc.imageSlicePitch =
        desc.imageSlicePitch * (pixels - 1) := by
      rw [Nat.mul_sub, Nat.mul_one]
    have congruent := Nat.modEq_iff_dvd' (n := 4294967296)
      (Nat.le_mul_of_pos_right desc.imageSlicePitch pitchPos)
    rw [step] at congruent
    rw [← Nat.dvd_iff_mod_eq_zero, ← congruent]
    exact eq_comm

/-- The offsets that the function uses are those of the pitches exactly where
the pitches agree. -/
theorem hostOffset_iff {img : MemObj}
    (expanded : img.imageDesc = expandLastDimForFill (standardDesc desc))
    (pos : 0 < d) (bytes : (imageBox desc).volume * d ≠ 0)
    (small : (expandedDims desc).limBox.volume * d < 4294967296) :
    (∀ k < (imageBox desc).rz, ∀ j < (imageBox desc).ry,
        (flatCopy img).hostOffset k j = k * slicePitch desc d + j * rowPitch desc d) ↔
      PitchesAgree desc d true := by
  have data := data_volume desc
  have volumeNe : (imageBox desc).volume ≠ 0 := Nat.ne_zero_of_mul_ne_zero_left bytes
  rw [data] at volumeNe
  have widthPos : 0 < desc.imageWidth :=
    Nat.pos_of_ne_zero (Nat.ne_zero_of_mul_ne_zero_right volumeNe)
  have slicesRows := Nat.ne_zero_of_mul_ne_zero_left volumeNe
  have rowsPos := Nat.pos_of_ne_zero (Nat.ne_zero_of_mul_ne_zero_right slicesRows)
  have slicesPos := Nat.pos_of_ne_zero (Nat.ne_zero_of_mul_ne_zero_left slicesRows)
  obtain ⟨iLt, jLt, kLt⟩ := limits_lt_of_volume pos small
  have offsets : ∀ k j, (flatCopy img).hostOffset k j =
      u32 (k * ((if desc.imageSlicePitch ≠ 0 then u32 desc.imageSlicePitch
          else (imageBox desc).ry) *
        (if desc.imageRowPitch ≠ 0 then u32 desc.imageRowPitch else desc.imageWidth))) +
      u32 (j * (if desc.imageRowPitch ≠ 0 then u32 desc.imageRowPitch else desc.imageWidth)) := by
    intro k j
    simp only [FlatCopy.hostOffset, flatCopy, expanded, machine_dims iLt jLt kLt,
      expand_imageRowPitch, expand_imageSlicePitch, iDat_eq_imageWidth, imageBox_eq_datBox,
      ImageDims.datBox, Nat.mul_assoc]
  obtain ⟨width, height, depth⟩ := expandedDims_bordered desc
  simp only [IMAGE_POISON_WIDTH, IMAGE_POISON_HEIGHT, IMAGE_POISON_DEPTH] at width height depth
  rw [iDat_eq_imageWidth] at width
  have rowsSmall : (imageBox desc).ry * desc.imageWidth < 4294967296 := by
    rw [imageBox_eq_datBox]
    calc
      (expandedDims desc).jDat * desc.imageWidth ≤
          (expandedDims desc).kLim * (expandedDims desc).jLim * (expandedDims desc).iLim :=
        Nat.mul_le_mul
          (le_trans (by omega) (Nat.le_mul_of_pos_left (expandedDims desc).jLim (by omega)))
          (by omega)
      _ ≤ (expandedDims desc).limBox.volume * d := Nat.le_mul_of_pos_right _ pos
      _ < 4294967296 := small
  have rows := row_strides_iff (d := d) (n := (imageBox desc).ry) widthPos (by omega)
  have slices := slice_strides_iff (d := d) (n := (imageBox desc).rz) widthPos rowsPos rfl rowsSmall
  rw [PitchesAgree, ← rows, ← slices]
  simp only [offsets, Bool.true_eq_false, bytes, false_or]
  constructor
  · intro agree
    refine ⟨fun j jLt => ?_, fun k kLt => ?_⟩
    · have first := agree 0 slicesPos j jLt
      simpa [u32] using first
    · have first := agree k kLt 0 rowsPos
      simpa [u32] using first
  · rintro ⟨rowsAgree, slicesAgree⟩ k kLt j jLt
    rw [rowsAgree j jLt, slicesAgree k kLt]

end Pitches

/-- What the array holds decides whether it starts the image. -/
theorem startsImage_iff_of_holds {desc : ImageDesc} {d : Nat} {copyHostPtr : Bool}
    {host : Nat → UInt8} {blk : Block UInt8} {f : FlatCopy}
    (holds : Holds blk (expandedDims desc) d fun n b =>
      f.pixelByte (expandedDims desc) d copyHostPtr host ((expandedDims desc).limBox.point n) b) :
    StartsImage desc d copyHostPtr host blk ↔
      ∀ p, (expandedDims desc).limBox.Mem p → ∀ b < d,
        f.pixelByte (expandedDims desc) d copyHostPtr host p b =
          startByte desc d copyHostPtr host p b := by
  rw [StartsImage, imageBox_expand, and_iff_right holds.1]
  refine forall₂_congr fun p member => forall₂_congr fun b bLt => ?_
  rw [holds.2 _ (Box.index_lt member) b bLt]
  dsimp only
  rw [Box.point_index member]

/-- The array holds the right bytes for all application data exactly where the
pitches agree. -/
theorem pixelBytes_iff {img : MemObj} {desc : ImageDesc} {d : Nat} {copyHostPtr : Bool}
    (expanded : img.imageDesc = expandLastDimForFill (standardDesc desc)) (pos : 0 < d)
    (small : (expandedDims desc).limBox.volume * d < 4294967296) :
    (∀ host p, (expandedDims desc).limBox.Mem p → ∀ b < d,
        (flatCopy img).pixelByte (expandedDims desc) d copyHostPtr host p b =
          startByte desc d copyHostPtr host p b) ↔
      PitchesAgree desc d copyHostPtr := by
  simp only [FlatCopy.pixelByte, startByte, ← imageBox_eq_datBox]
  cases copyHostPtr with
  | false => simp [PitchesAgree]
  | true =>
      by_cases bytes : (imageBox desc).volume * d = 0
      · refine iff_of_true (fun host p _ b _ => ?_) (Or.inr (Or.inl bytes))
        have none_left : ¬ (imageBox desc).Mem p := fun member => by
          have below := Box.index_lt member
          rcases Nat.mul_eq_zero.mp bytes with noPixels | noBytes <;> omega
        rw [if_neg none_left, if_neg none_left]
      · rw [← hostOffset_iff expanded pos bytes small]
        constructor
        · intro agree k kLt j jLt
          -- Mark the byte that the function reads for the first pixel of the row.
          have data := imageBox_eq_datBox desc
          obtain ⟨width, height, depth⟩ := expandedDims_bordered desc
          simp only [IMAGE_POISON_WIDTH, IMAGE_POISON_HEIGHT, IMAGE_POISON_DEPTH]
            at width height depth
          have widthPos : 0 < desc.imageWidth := by
            rw [data_volume] at bytes
            exact Nat.pos_of_ne_zero
              (Nat.ne_zero_of_mul_ne_zero_right (Nat.ne_zero_of_mul_ne_zero_left bytes))
          have member : (imageBox desc).Mem ⟨0, j, k⟩ := by
            rw [data] at kLt jLt ⊢
            simp only [ImageDims.datBox] at kLt jLt
            simp only [Box.Mem, ImageDims.datBox, iDat_eq_imageWidth]
            omega
          have inLim : (expandedDims desc).limBox.Mem ⟨0, j, k⟩ := by
            rw [data] at member
            simp only [Box.Mem, ImageDims.datBox] at member
            simp only [Box.Mem, ImageDims.limBox]
            omega
          have marked := agree (fun a => if a = (flatCopy img).hostOffset k j then 1 else 0)
            ⟨0, j, k⟩ inLim 0 pos
          simp only [if_pos member, if_true, Nat.zero_mul, Nat.add_zero] at marked
          by_contra differ
          rw [if_neg (Ne.symm differ)] at marked
          contradiction
        · intro agree host p _ b _
          by_cases member : (imageBox desc).Mem p
          · have inBox := member
            rw [imageBox_eq_datBox] at inBox
            obtain ⟨-, ⟨-, yLt⟩, -, zLt⟩ := inBox
            have offset := agree p.z (by
              rw [imageBox_eq_datBox]
              simpa [ImageDims.datBox] using zLt) p.y (by
              rw [imageBox_eq_datBox]
              simpa [ImageDims.datBox] using yLt)
            rw [if_pos member, if_pos member, offset]
          · rw [if_neg member, if_neg member]

/-- A canaried image starts with the application's pixels and intact canaries,
whatever the application's bytes are, exactly where its pitches agree with those
of the function; the bytes of the image are countable in 32 bits. -/
theorem allocFlatImageCopy_startsImage_iff (context : Handle) (flags : MemFlags)
    (format : ImageFormat) (desc : ImageDesc)
    (small : (imageBox (expandLastDimForFill desc)).volume * getImageDataSize format <
      4294967296) :
    (∀ host, ∃ blk,
        allocFlatImageCopy (expandImage (imageTemp context flags format desc)) host = some blk ∧
          StartsImage desc (getImageDataSize format) flags.copyHostPtr host blk) ↔
      PitchesAgree desc (getImageDataSize format) flags.copyHostPtr := by
  generalize imgEq : expandImage (imageTemp context flags format desc) = img
  have expanded : img.imageDesc = expandLastDimForFill (standardDesc desc) := by
    rw [← imgEq]
    rfl
  have flagsEq : img.flags = flags := by
    rw [← imgEq]
    rfl
  have formatEq : img.imageFormat = format := by
    rw [← imgEq]
    rfl
  rw [imageBox_expand] at small
  have size : img.size = (expandedDims desc).limBox.volume * getImageDataSize format := by
    rw [← imgEq]
    exact imageSize_expanded format small
  generalize bytes : getImageDataSize format = d at small size
  rcases Nat.eq_zero_or_pos d with rfl | pos
  · refine iff_of_true (fun host => ?_) (Or.inr (Or.inl (Nat.mul_zero _)))
    obtain ⟨blk, built, len⟩ := allocFlatImageCopy_empty (by rw [formatEq, bytes]) host
    exact ⟨blk, built, by rw [len, size, imageBox_expand], fun p _ b bLt => by omega⟩
  · have reads := flatCopy_reads expanded (formatEq ▸ bytes) pos small
    have built := allocFlatImageCopy_holds reads (expandedDims_bordered desc) size
    rw [flagsEq] at built
    have decided : (∀ host, ∃ blk, allocFlatImageCopy img host = some blk ∧
          StartsImage desc d flags.copyHostPtr host blk) ↔
        ∀ host, ∀ p, (expandedDims desc).limBox.Mem p → ∀ b < d,
          (flatCopy img).pixelByte (expandedDims desc) d flags.copyHostPtr host p b =
            startByte desc d flags.copyHostPtr host p b := by
      refine forall_congr' fun host => ?_
      obtain ⟨blk, ran, holds⟩ := built host
      rw [← startsImage_iff_of_holds holds]
      constructor
      · rintro ⟨blk', ran', starts⟩
        obtain rfl : blk = blk' := Option.some.inj (ran.symm.trans ran')
        exact starts
      · exact fun starts => ⟨blk, ran, starts⟩
    rw [decided]
    exact pixelBytes_iff expanded pos small

/-- A one-dimensional image of three four-byte pixels, copied from the host. -/
theorem allocFlatImageCopy_startsImage_line :
    ∃ blk,
      allocFlatImageCopy (expandImage (imageTemp 1 { copyHostPtr := true }
          ⟨.rgba, .unsignedInt8⟩ ⟨.image1D, 3, 0, 0, 0, 0, 0, 0, 0, NULL⟩)) (fun a => a.toUInt8) =
        some blk ∧
      StartsImage ⟨.image1D, 3, 0, 0, 0, 0, 0, 0, 0, NULL⟩ 4 true (fun a => a.toUInt8) blk :=
  (allocFlatImageCopy_startsImage_iff 1 { copyHostPtr := true } ⟨.rgba, .unsignedInt8⟩
    ⟨.image1D, 3, 0, 0, 0, 0, 0, 0, 0, NULL⟩ (by decide)).mpr (by decide) _

/-- With default pitches, the second row of a two-dimensional image of four-byte
pixels is read from byte `2` instead of byte `8`. -/
theorem allocFlatImageCopy_default_pitch :
    ¬ ∀ host, ∃ blk,
      allocFlatImageCopy (expandImage (imageTemp 1 { copyHostPtr := true }
          ⟨.rgba, .unsignedInt8⟩ ⟨.image2D, 2, 2, 0, 0, 0, 0, 0, 0, NULL⟩)) host = some blk ∧
        StartsImage ⟨.image2D, 2, 2, 0, 0, 0, 0, 0, 0, NULL⟩ 4 true host blk := by
  intro starts
  obtain ⟨blk, built, -, bytes⟩ := starts fun a => a.toUInt8
  have read : (allocFlatImageCopy (expandImage (imageTemp 1 { copyHostPtr := true }
      ⟨.rgba, .unsignedInt8⟩ ⟨.image2D, 2, 2, 0, 0, 0, 0, 0, 0, NULL⟩)) fun a => a.toUInt8).map
        (fun blk => blk.get 72) = some 2 := by decide
  have expected := bytes ⟨0, 1, 0⟩ (by decide) 0 (by decide)
  rw [built, Option.map_some, Option.some.injEq] at read
  have position : (imageBox (expandLastDimForFill
      ⟨.image2D, 2, 2, 0, 0, 0, 0, 0, 0, NULL⟩)).index ⟨0, 1, 0⟩ * 4 + 0 = 72 := by decide
  rw [position, read] at expected
  exact absurd expected (by decide)

end Clarmor
