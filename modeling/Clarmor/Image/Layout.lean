import Clarmor.Image.Canary

/-!
# The flattened canary layout

Both checkers issue the same boxes to the same positions: a canonical list of
transfers.  The boxes of this list partition the canary pixels and its spans
follow each other from the start of the array to its end.
-/

namespace Clarmor

open Word Segment

namespace ImageDims

variable (s : ImageDims)

/-- The transfers of one slice of the data. -/
def sliceTransfers (d k : Nat) : List Transfer :=
  ((List.range s.jDat).map fun j => ⟨endOfRow s j k, rowSegment .exact s j k * d⟩) ++
  if s.jLim > 1 then [⟨endOfSlice s k, sliceSegment .exact s k * d⟩] else []

/-- All transfers, entries before rows before slices. -/
def canaryTransfers (d : Nat) : List Transfer :=
  (List.range s.kDat).flatMap (s.sliceTransfers d) ++
  if s.kLim > 1 then [⟨canarySlice s, depthSegment .exact s * d⟩] else []

variable {s}

theorem mem_sliceTransfers {d k : Nat} {t : Transfer} :
    t ∈ s.sliceTransfers d k ↔
      (∃ j < s.jDat, t = ⟨endOfRow s j k, rowSegment .exact s j k * d⟩) ∨
        (s.jLim > 1 ∧ t = ⟨endOfSlice s k, sliceSegment .exact s k * d⟩) := by
  unfold sliceTransfers
  split
  · rename_i rows
    simp [rows, eq_comm]
  · rename_i noRows
    simp [noRows, eq_comm]

theorem mem_canaryTransfers {d : Nat} {t : Transfer} :
    t ∈ s.canaryTransfers d ↔
      (∃ k < s.kDat, t ∈ s.sliceTransfers d k) ∨
        (s.kLim > 1 ∧ t = ⟨canarySlice s, depthSegment .exact s * d⟩) := by
  unfold canaryTransfers
  split
  · rename_i slices
    simp [slices]
  · rename_i noSlices
    simp [noSlices]

/-! ## Boxes -/

/-- The transfers of slice `k` read the canary pixels of that slice. -/
theorem sliceTransfers_mem_iff (bordered : s.Bordered) {d k : Nat} (kLt : k < s.kDat)
    {p : Point} :
    (∃ t ∈ s.sliceTransfers d k, t.box.Mem p) ↔
      p.z = k ∧ s.limBox.Mem p ∧ ¬ s.datBox.Mem p := by
  obtain ⟨width, height, depth⟩ := bordered
  simp only [IMAGE_POISON_WIDTH, IMAGE_POISON_HEIGHT, IMAGE_POISON_DEPTH] at width height depth
  constructor
  · rintro ⟨t, member, inBox⟩
    rcases mem_sliceTransfers.mp member with ⟨j, jLt, rfl⟩ | ⟨rows, rfl⟩
    · simp only [Box.Mem, endOfRow, IMAGE_POISON_WIDTH, limBox, datBox] at inBox ⊢
      omega
    · simp only [Box.Mem, endOfSlice, IMAGE_POISON_HEIGHT, limBox, datBox] at inBox ⊢
      omega
  · rintro ⟨rfl, inLim, outside⟩
    simp only [Box.Mem, limBox, datBox] at inLim outside
    by_cases row : p.y < s.jDat
    · refine ⟨_, mem_sliceTransfers.mpr (Or.inl ⟨p.y, row, rfl⟩), ?_⟩
      simp only [Box.Mem, endOfRow, IMAGE_POISON_WIDTH]
      omega
    · refine ⟨_, mem_sliceTransfers.mpr (Or.inr ⟨by omega, rfl⟩), ?_⟩
      simp only [Box.Mem, endOfSlice, IMAGE_POISON_HEIGHT]
      omega

/-- The transfers read exactly the canary pixels. -/
theorem canaryTransfers_mem_iff (bordered : s.Bordered) {d : Nat} {p : Point} :
    (∃ t ∈ s.canaryTransfers d, t.box.Mem p) ↔ s.limBox.Mem p ∧ ¬ s.datBox.Mem p := by
  obtain ⟨width, height, depth⟩ := bordered
  simp only [IMAGE_POISON_WIDTH, IMAGE_POISON_HEIGHT, IMAGE_POISON_DEPTH] at width height depth
  constructor
  · rintro ⟨t, member, inBox⟩
    rcases mem_canaryTransfers.mp member with ⟨k, kLt, inSlice⟩ | ⟨slices, rfl⟩
    · exact ((sliceTransfers_mem_iff ⟨width, height, depth⟩ kLt).mp ⟨t, inSlice, inBox⟩).2
    · simp only [Box.Mem, canarySlice, IMAGE_POISON_DEPTH, limBox, datBox] at inBox ⊢
      omega
  · rintro ⟨inLim, outside⟩
    by_cases slice : p.z < s.kDat
    · obtain ⟨t, member, inBox⟩ :=
        (sliceTransfers_mem_iff (d := d) ⟨width, height, depth⟩ slice).mpr
          ⟨rfl, inLim, outside⟩
      exact ⟨t, mem_canaryTransfers.mpr (Or.inl ⟨p.z, slice, member⟩), inBox⟩
    · simp only [Box.Mem, limBox, datBox] at inLim outside
      refine ⟨_, mem_canaryTransfers.mpr (Or.inr ⟨by omega, rfl⟩), ?_⟩
      simp only [Box.Mem, canarySlice, IMAGE_POISON_DEPTH]
      omega

/-- No two transfers of one slice share a pixel. -/
theorem sliceTransfers_disjoint (d k : Nat) :
    (s.sliceTransfers d k).Pairwise fun t u => t.box.Disjoint u.box := by
  unfold sliceTransfers
  refine List.pairwise_append.mpr ⟨?_, ?_, ?_⟩
  · refine List.pairwise_map.mpr (List.nodup_range.imp ?_)
    intro j j' ne p inFirst inSecond
    simp only [Box.Mem, endOfRow] at inFirst inSecond
    omega
  · split <;> simp
  · intro t tMem u uMem p inFirst inSecond
    obtain ⟨j, jLt, rfl⟩ := List.mem_map.mp tMem
    split at uMem
    · rw [List.mem_singleton] at uMem
      subst uMem
      simp only [Box.Mem, endOfRow, endOfSlice] at inFirst inSecond
      simp only [List.mem_range] at jLt
      omega
    · simp at uMem

/-- No two transfers share a pixel. -/
theorem canaryTransfers_disjoint (bordered : s.Bordered) (d : Nat) :
    (s.canaryTransfers d).Pairwise fun t u => t.box.Disjoint u.box := by
  unfold canaryTransfers
  refine List.pairwise_append.mpr ⟨?_, ?_, ?_⟩
  · refine List.pairwise_flatMap.mpr ⟨fun k _ => sliceTransfers_disjoint d k, ?_⟩
    refine List.Pairwise.imp_of_mem ?_ List.nodup_range
    intro k k' kMem kMem' ne t tMem u uMem p inFirst inSecond
    have first := (sliceTransfers_mem_iff bordered (List.mem_range.mp kMem)).mp
      ⟨t, tMem, inFirst⟩
    have second := (sliceTransfers_mem_iff bordered (List.mem_range.mp kMem')).mp
      ⟨u, uMem, inSecond⟩
    exact ne (first.1.symm.trans second.1)
  · split <;> simp
  · intro t tMem u uMem p inFirst inSecond
    obtain ⟨k, kMem, member⟩ := List.mem_flatMap.mp tMem
    have first := (sliceTransfers_mem_iff bordered (List.mem_range.mp kMem)).mp
      ⟨t, member, inFirst⟩
    split at uMem
    · rw [List.mem_singleton] at uMem
      subst uMem
      simp only [Box.Mem, canarySlice] at inSecond
      have kLt := List.mem_range.mp kMem
      omega
    · simp at uMem

/-! ## Spans -/

/-- Position after the first `k` slices, in pixels. -/
def slicesEnd (s : ImageDims) (k : Nat) : Nat :=
  k * (s.jDat * IMAGE_POISON_WIDTH + IMAGE_POISON_HEIGHT * s.iLim)

/-- Pixels of the flattened array. -/
def canaryPixels (s : ImageDims) : Nat :=
  if s.jLim > 1 then
    s.slicesEnd s.kDat + if s.kLim > 1 then IMAGE_POISON_DEPTH * s.jLim * s.iLim else 0
  else s.jDat * IMAGE_POISON_WIDTH

/-- The spans of one slice follow each other. -/
theorem sliceTransfers_chain (rows : s.jLim > 1) (d k : Nat) :
    Chain (s.slicesEnd k * d) ((s.sliceTransfers d k).map (Transfer.span · d))
      (s.slicesEnd (k + 1) * d) := by
  rw [sliceTransfers, if_pos rows, List.map_append, List.map_map]
  have entries : Chain ((s.slicesEnd k + 0 * IMAGE_POISON_WIDTH) * d)
      ((List.range s.jDat).map
        ((Transfer.span · d) ∘ fun j => ⟨endOfRow s j k, rowSegment .exact s j k * d⟩))
      ((s.slicesEnd k + s.jDat * IMAGE_POISON_WIDTH) * d) := by
    refine Chain.map_range (fun j => (s.slicesEnd k + j * IMAGE_POISON_WIDTH) * d) ?_
    intro j _
    refine ⟨rfl, ?_⟩
    simp only [Function.comp, Transfer.span, Box.volume, endOfRow]
    ring
  rw [Nat.zero_mul, Nat.add_zero] at entries
  refine entries.append (Chain.singleton ?_ ?_)
  · simp only [sliceSegment, slicesEnd, exact_wrap32]
    ring
  · simp only [Box.volume, endOfSlice, slicesEnd]
    ring

/-- The spans of all transfers follow each other from `0` to the end of the
array. -/
theorem canaryTransfers_chain (bordered : s.Bordered) (d : Nat) :
    Chain 0 ((s.canaryTransfers d).map (Transfer.span · d)) (s.canaryPixels * d) := by
  obtain ⟨width, height, depth⟩ := bordered
  by_cases rows : s.jLim > 1
  · rw [canaryTransfers, List.map_append, List.map_flatMap, canaryPixels, if_pos rows]
    have slices := Chain.flatMap_range (fun k => s.slicesEnd k * d) (n := s.kDat)
      fun k _ => sliceTransfers_chain rows d k
    rw [show s.slicesEnd 0 * d = 0 by simp [slicesEnd]] at slices
    refine slices.append ?_
    split
    · refine Chain.singleton ?_ ?_
      · simp only [depthSegment, slicesEnd, exact_wrap32]
        ring
      · simp only [Box.volume, canarySlice]
        ring
    · exact congrArg (· * d) (Nat.add_zero _).symm
  · -- A single row of a single slice: nothing but the end of this row.
    simp only [IMAGE_POISON_HEIGHT, IMAGE_POISON_DEPTH] at height depth
    have jDat : s.jDat = 1 := by omega
    have kDat : s.kDat = 1 := by omega
    have kLim : s.kLim = 1 := by omega
    simp [canaryTransfers, sliceTransfers, canaryPixels, rows, jDat, kDat, kLim, Chain,
      Transfer.span, Box.volume, endOfRow, rowSegment]

end ImageDims

/-- The size of the array by the extents of an expanded image, for any pixel size. -/
theorem getImageCanarySize_exact (desc : ImageDesc) (dataSize : Nat) :
    getImageCanarySize .exact desc.imageType dataSize (expandedDims desc).iLim
        (expandedDims desc).jLim (expandedDims desc).jDat (expandedDims desc).kDat =
      (expandedDims desc).canaryPixels * dataSize := by
  rw [expandedDims_eq]
  cases type : desc.imageType <;>
    simp [getImageCanarySize, ImageDims.canaryPixels, ImageDims.slicesEnd, IMAGE_POISON_WIDTH,
      IMAGE_POISON_HEIGHT, IMAGE_POISON_DEPTH] <;> ring_nf <;> simp

/-- The array that is allocated has a byte for every byte of a canary pixel. -/
theorem imageCanaryLen_exact (img : MemObj) (desc : ImageDesc)
    (expanded : img.imageDesc = expandLastDimForFill (standardDesc desc)) :
    imageCanaryLen .exact img =
      (getImageDimensions .exact img.imageDesc).canaryPixels *
        getImageDataSize img.imageFormat := by
  have exact := getImageCanarySize_exact desc (getImageDataSize img.imageFormat)
  rw [imageCanaryLen, expanded, expandLastDimForFill_imageType, standardDesc_imageType]
  exact exact

/-! ## Both checkers issue the canonical transfers -/

/-- The same transfer into an array that begins at an offset. -/
def Transfer.shift (offset : Nat) (t : Transfer) : Transfer := ⟨t.box, offset + t.segment⟩

theorem transfers_append (v w : List SlotWrite) :
    transfers (v ++ w) = transfers v ++ transfers w :=
  List.filterMap_append

theorem transfers_flatMap {α : Type} (l : List α) (f : α → List SlotWrite) :
    transfers (l.flatMap f) = l.flatMap fun x => transfers (f x) :=
  List.filterMap_flatMap

/-- Numbering the events does not change the transfers among them. -/
theorem transfers_mapIdx (events : List SlotEvent) (number : Nat → Nat) :
    transfers (events.mapIdx fun n event => ⟨number n, event⟩) =
      events.flatMap fun event => transfers [⟨0, event⟩] := by
  induction events generalizing number with
  | nil => rfl
  | cons event rest ih =>
      rw [List.mapIdx_cons, List.flatMap_cons, ← ih fun n => number (n + 1)]
      cases event <;> rfl

section Issue

variable {s : ImageDims} (d offset : Nat)

theorem transfers_copySlice (columns : s.iLim > 1) (k : Nat) :
    transfers (copySlice .exact s d offset k) =
      (s.sliceTransfers d k).map (Transfer.shift offset) := by
  rw [copySlice, transfers_append, transfers_flatMap, ImageDims.sliceTransfers, List.map_append,
    List.map_map, List.map_eq_flatMap]
  congr 1
  · simp only [if_pos columns]
    rfl
  · split <;> rfl

/-- The copying checker issues the canonical transfers, behind its offset. -/
theorem transfers_copyImageCanaries (img : MemObj)
    (columns : (getImageDimensions .exact img.imageDesc).iLim > 1) :
    transfers (copyImageCanaries .exact img offset) =
      ((getImageDimensions .exact img.imageDesc).canaryTransfers
        (getImageDataSize img.imageFormat)).map (Transfer.shift offset) := by
  simp only [copyImageCanaries, ImageDims.canaryTransfers, transfers_append, transfers_flatMap,
    transfers_copySlice _ _ columns, List.map_append, List.map_flatMap]
  congr 1
  split <;> rfl

theorem transfers_readSlice (columns : s.iLim > 1) (k : Nat) :
    (readSlice .exact s d k).flatMap (fun event => transfers [⟨0, event⟩]) =
      s.sliceTransfers d k := by
  rw [readSlice, List.flatMap_append, List.flatMap_map, ImageDims.sliceTransfers,
    List.map_eq_flatMap, List.flatMap_singleton]
  congr 1
  · simp only [copyEndOfRow, if_pos columns]
    rfl
  · rw [copyEndOfSlice]
    split <;> rfl

/-- The host checker issues the canonical transfers. -/
theorem transfers_readImageCanaries (img : MemObj)
    (columns : (getImageDimensions .exact img.imageDesc).iLim > 1) :
    transfers (readImageCanaries .exact img) =
      (getImageDimensions .exact img.imageDesc).canaryTransfers
        (getImageDataSize img.imageFormat) := by
  rw [readImageCanaries, transfers_mapIdx, List.flatMap_append, List.flatMap_assoc,
    ImageDims.canaryTransfers]
  simp only [transfers_readSlice _ columns, List.flatMap_singleton]
  congr 1
  rw [copyCanarySlice]
  split <;> rfl

end Issue

/-! ## Event slots -/

theorem copySlice_slots {s : ImageDims} (columns : s.iLim > 1) (rows : s.jLim > 1)
    (d offset k : Nat) :
    (copySlice .exact s d offset k).map SlotWrite.slot =
      (List.range (s.jDat + 1)).map fun j => k * (s.jDat + 1) + j := by
  rw [copySlice, if_pos rows, List.map_append, List.map_flatMap, List.range_succ, List.map_append,
    List.map_eq_flatMap (l := List.range s.jDat)]
  simp only [if_pos columns]
  rfl

/-- The copying checker fills its slots one after the other. -/
theorem copyImageCanaries_slots (img : MemObj) (offset : Nat)
    (bordered : (getImageDimensions .exact img.imageDesc).Bordered) :
    (copyImageCanaries .exact img offset).map SlotWrite.slot =
      List.range (copyImageEvents .exact (getImageDimensions .exact img.imageDesc)) := by
  rw [copyImageCanaries]
  generalize getImageDimensions .exact img.imageDesc = s at bordered
  obtain ⟨width, height, depth⟩ := bordered
  simp only [IMAGE_POISON_WIDTH, IMAGE_POISON_HEIGHT, IMAGE_POISON_DEPTH] at width height depth
  have columns : s.iLim > 1 := by omega
  by_cases rows : s.jLim > 1
  · simp only [List.map_append, List.map_flatMap, copySlice_slots columns rows]
    rw [flatMap_range_eq_range, copyImageEvents, if_pos rows]
    split
    · simp only [exact_wrap32, List.map_cons, List.map_nil]
      rw [← List.range_succ, Nat.mul_succ]
    · rw [List.map_nil, List.append_nil, Nat.mul_succ]
      rfl
  · have jDat : s.jDat = 1 := by omega
    have kDat : s.kDat = 1 := by omega
    have kLim : s.kLim = 1 := by omega
    simp [copyImageEvents, copySlice, rows, columns, jDat, kDat, kLim]

theorem readSlice_length (s : ImageDims) (d k : Nat) :
    (readSlice .exact s d k).length = s.jDat + 1 := by
  simp [readSlice]

/-- The host checker fills its slots one after the other. -/
theorem readImageCanaries_slots (img : MemObj) :
    (readImageCanaries .exact img).map SlotWrite.slot =
      List.range (numberOfImageReads .exact
        (getImageDimensions .exact img.imageDesc).jDat
        (getImageDimensions .exact img.imageDesc).kDat) := by
  rw [readImageCanaries]
  generalize getImageDimensions .exact img.imageDesc = s
  have count : ((List.range s.kDat).flatMap
      (readSlice .exact s (getImageDataSize img.imageFormat))).length =
        s.kDat * (s.jDat + 1) := by
    simp [List.length_flatMap, readSlice_length]
  apply List.ext_getElem
  · simp only [List.length_map, List.length_mapIdx, List.length_append, count, List.length_range,
      numberOfImageReads, List.length_singleton, exact_wrap32]
    ring
  · intro n _ _
    rw [List.getElem_map, List.getElem_mapIdx, List.getElem_range, exact_wrap32]

/-! ## The layout -/

/-- A list of transfers that lays the canary pixels of an expanded image out in
`len` bytes, from `base` on. -/
structure IsCanaryLayout (desc : ImageDesc) (d base len : Nat) (ts : List Transfer) : Prop where
  /-- No pixel is transferred twice. -/
  boxesDisjoint : ts.Pairwise fun t u => t.box.Disjoint u.box
  /-- The canary pixels, and no others, are transferred. -/
  boxesCover : ∀ p, (∃ t ∈ ts, t.box.Mem p) ↔ IsCanaryPixel desc p
  /-- No byte is written twice. -/
  spansDisjoint : ts.Pairwise fun t u => ∀ n, Covers (t.span d) n → ¬ Covers (u.span d) n
  /-- Every byte of the array, and no other, is written. -/
  spansCover : ∀ n, (∃ t ∈ ts, Covers (t.span d) n) ↔ base ≤ n ∧ n < base + len

/-- Different transfers of a layout share no pixel. -/
theorem IsCanaryLayout.apart {desc : ImageDesc} {d base len : Nat} {ts : List Transfer}
    (layout : IsCanaryLayout desc d base len ts) {t u : Transfer} (tMem : t ∈ ts) (uMem : u ∈ ts)
    (ne : t ≠ u) : t.box.Disjoint u.box := by
  have symmetric : Std.Symm fun t u : Transfer => t.box.Disjoint u.box :=
    ⟨fun _ _ apart p inFirst inSecond => apart p inSecond inFirst⟩
  exact layout.boxesDisjoint.forall tMem uMem ne

/-- Shifting the destination of every transfer shifts the layout. -/
theorem IsCanaryLayout.shift {desc : ImageDesc} {d len : Nat} {ts : List Transfer}
    (layout : IsCanaryLayout desc d 0 len ts) (offset : Nat) :
    IsCanaryLayout desc d offset len (ts.map (Transfer.shift offset)) := by
  have covers_shift : ∀ (t : Transfer) n,
      Covers ((t.shift offset).span d) n ↔ offset ≤ n ∧ Covers (t.span d) (n - offset) := by
    intro t n
    simp only [Covers, Transfer.span, Transfer.shift]
    omega
  refine ⟨List.pairwise_map.mpr layout.boxesDisjoint, fun p => ?_, ?_, fun n => ?_⟩
  · rw [← layout.boxesCover p]
    simp [Transfer.shift]
  · refine List.pairwise_map.mpr (layout.spansDisjoint.imp ?_)
    intro t u apart n inFirst inSecond
    exact apart _ ((covers_shift t n).mp inFirst).2 ((covers_shift u n).mp inSecond).2
  · have covered := layout.spansCover (n - offset)
    simp only [List.mem_map, exists_exists_and_eq_and, covers_shift]
    constructor
    · rintro ⟨t, member, above, inSpan⟩
      have inside := covered.mp ⟨t, member, inSpan⟩
      omega
    · rintro ⟨above, below⟩
      obtain ⟨t, member, inSpan⟩ := covered.mpr ⟨Nat.zero_le _, by omega⟩
      exact ⟨t, member, above, inSpan⟩

/-- The canonical transfers of an expanded image lay out its canaries. -/
theorem canaryTransfers_isCanaryLayout (desc : ImageDesc) (d : Nat) :
    IsCanaryLayout desc d 0 ((expandedDims desc).canaryPixels * d)
      ((expandedDims desc).canaryTransfers d) := by
  have bordered := expandedDims_bordered desc
  have limits := imageBox_expand desc
  have data := imageBox_eq_datBox desc
  generalize expandedDims desc = s at bordered limits data ⊢
  have chain := ImageDims.canaryTransfers_chain bordered d
  refine ⟨ImageDims.canaryTransfers_disjoint bordered d, fun p => ?_,
    List.pairwise_map.mp chain.pairwise, fun n => ?_⟩
  · rw [IsCanaryPixel, limits, data]
    exact ImageDims.canaryTransfers_mem_iff bordered
  · rw [Nat.zero_add, ← chain.covers_iff]
    simp

section Expanded

variable {desc : ImageDesc} {img : MemObj}

theorem expanded_columns
    (expanded : img.imageDesc = expandLastDimForFill (standardDesc desc)) :
    (getImageDimensions .exact img.imageDesc).iLim > 1 := by
  have width := (expandedDims_bordered desc).width
  rw [expandedDims, ← expanded] at width
  simp only [IMAGE_POISON_WIDTH] at width
  omega

/-- The host checker reads a canary layout. -/
theorem readImageCanaries_isCanaryLayout
    (expanded : img.imageDesc = expandLastDimForFill (standardDesc desc)) :
    IsCanaryLayout desc (getImageDataSize img.imageFormat) 0 (imageCanaryLen .exact img)
      (transfers (readImageCanaries .exact img)) := by
  rw [transfers_readImageCanaries img (expanded_columns expanded),
    imageCanaryLen_exact img desc expanded, expanded]
  exact canaryTransfers_isCanaryLayout desc _

/-- The copying checker writes a canary layout, behind its offset. -/
theorem copyImageCanaries_isCanaryLayout
    (expanded : img.imageDesc = expandLastDimForFill (standardDesc desc)) (offset : Nat) :
    IsCanaryLayout desc (getImageDataSize img.imageFormat) offset (imageCanaryLen .exact img)
      (transfers (copyImageCanaries .exact img offset)) := by
  rw [transfers_copyImageCanaries offset img (expanded_columns expanded),
    imageCanaryLen_exact img desc expanded, expanded]
  exact (canaryTransfers_isCanaryLayout desc _).shift offset

end Expanded

/-- The copying checker and the host checker lay the canaries of an image out
alike: each of them transfers every canary pixel and no pixel of the data, once,
into consecutive bytes that fill the array; an entry that the one puts at a
position the other puts at the same position; and each of them fills the slots
of its event array one after the other, every slot once. -/
theorem canary_layouts_agree (context : Handle) (flags : MemFlags) (format : ImageFormat)
    (desc : ImageDesc) (offset : Nat) :
    let img := expandImage (imageTemp context flags format desc)
    let s := getImageDimensions .exact img.imageDesc
    let d := getImageDataSize format
    let copied := copyImageCanaries .exact img offset
    let read := readImageCanaries .exact img
    IsCanaryLayout desc d offset (imageCanaryLen .exact img) (transfers copied) ∧
      IsCanaryLayout desc d 0 (imageCanaryLen .exact img) (transfers read) ∧
      (∀ t ∈ transfers copied, ∀ u ∈ transfers read, ∀ p, t.box.Mem p → u.box.Mem p →
        t.entry d p = offset + u.entry d p) ∧
      copied.map SlotWrite.slot = List.range (copyImageEvents .exact s) ∧
      read.map SlotWrite.slot = List.range (numberOfImageReads .exact s.jDat s.kDat) := by
  intro img s d copied read
  have expanded : img.imageDesc = expandLastDimForFill (standardDesc desc) := rfl
  have bordered : s.Bordered := expandedDims_bordered desc
  have columns := expanded_columns expanded
  refine ⟨copyImageCanaries_isCanaryLayout expanded offset,
    readImageCanaries_isCanaryLayout expanded, ?_, copyImageCanaries_slots img offset bordered,
    readImageCanaries_slots img⟩
  intro t tMem u uMem p inFirst inSecond
  rw [transfers_copyImageCanaries offset img columns] at tMem
  rw [transfers_readImageCanaries img columns] at uMem
  obtain ⟨v, vMem, rfl⟩ := List.mem_map.mp tMem
  -- The boxes are disjoint, so both entries come from the same transfer.
  have same : v = u := by
    by_contra ne
    exact (canaryTransfers_isCanaryLayout desc d).apart vMem uMem ne p inFirst inSecond
  rw [same]
  exact Nat.add_assoc _ _ _

end Clarmor
