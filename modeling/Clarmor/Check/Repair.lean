import Clarmor.Check.Mend
import Clarmor.Image.Layout

/-!
# Repairing the canaries of an image

`poisonFillImageCanaries` writes the canary byte to the ends of the rows, to the
extra rows and to the extra slices.  The extents are read into 32 bits, and so are
the sizes of the two larger arrays that are written from, which have 16 bytes for
every pixel.
-/

namespace Clarmor

open Word Store

/-! ## The writes -/

/-- One write of the repair, with the bytes of the array that it reads. -/
structure RepairWrite where
  box : Box
  source : Nat
deriving DecidableEq, Repr

/-- The writes to one slice of the data. -/
def repairSlice (s : ImageDims) (k : Nat) : List RepairWrite :=
  (if s.iLim > 1 then
    (List.range s.jDat).map fun j => ⟨endOfRow s j k, 16 * IMAGE_POISON_WIDTH⟩
  else []) ++
  if s.jLim > 1 ∧ s.iLim > 0 then
    [⟨endOfSlice s k, u32 (16 * s.iLim * IMAGE_POISON_HEIGHT)⟩]
  else []

/-- The writes of `poisonFillImageCanaries`. -/
def repairWrites (s : ImageDims) : List RepairWrite :=
  (List.range s.kDat).flatMap (repairSlice s) ++
  if s.kLim > 1 ∧ s.jLim > 0 ∧ s.iLim > 0 then
    [⟨canarySlice s, u32 (16 * s.iLim * s.jLim * IMAGE_POISON_DEPTH)⟩]
  else []

/-- Write the canary byte to the pixels of a box. -/
def RepairWrite.run (img : MemObj) (rt : Runtime) (w : RepairWrite) : Option Runtime :=
  writeImageFrom rt img w.box (some (Block.replicate w.source POISON_FILL))

theorem poisonFillImageCanaries_eq {img : MemObj} (pos : getImageDataSize img.imageFormat ≠ 0)
    (rt : Runtime) : poisonFillImageCanaries rt img =
      (repairWrites (getImageDimensions .machine img.imageDesc)).foldlM
        (RepairWrite.run img) rt := by
  generalize dims : getImageDimensions .machine img.imageDesc = s
  rw [poisonFillImageCanaries, dims]
  dsimp only
  rw [if_neg pos, repairWrites, List.foldlM_append]
  have slice : ∀ k rt,
      ((if s.iLim > 1 then
        Loop.loop s.jDat (fun j rt => writeImageFrom rt img (endOfRow s j k)
          (some (Block.replicate (16 * IMAGE_POISON_WIDTH) POISON_FILL))) rt
      else some rt).bind fun rt =>
      if s.jLim > 1 ∧ s.iLim > 0 then
        writeImageFrom rt img (endOfSlice s k)
          (if s.jLim > 1 ∧ s.iLim > 0 then
            some (Block.replicate (u32 (16 * s.iLim * IMAGE_POISON_HEIGHT)) POISON_FILL)
          else none)
      else some rt) = (repairSlice s k).foldlM (RepairWrite.run img) rt := by
    intro k rt
    have rows := Loop.loop_map (RepairWrite.run img)
      (fun j => ⟨endOfRow s j k, 16 * IMAGE_POISON_WIDTH⟩) s.jDat rt
    rw [repairSlice, List.foldlM_append]
    congr 1
    · split_ifs
      · rw [← rows]
        rfl
      · rfl
    · funext rt
      split_ifs
      · simp [RepairWrite.run]
      · rfl
  simp only [slice]
  rw [Loop.loop_flatMap]
  congr 1
  funext rt
  split_ifs
  · simp [RepairWrite.run]
  · rfl

variable {img : MemObj} {s : ImageDims} {w : RepairWrite} {p : Point} {d : Nat}

theorem mem_repairSlice {k : Nat} : w ∈ repairSlice s k ↔
    (s.iLim > 1 ∧ ∃ j < s.jDat, w = ⟨endOfRow s j k, 16 * IMAGE_POISON_WIDTH⟩) ∨
      (s.jLim > 1 ∧ s.iLim > 0) ∧
        w = ⟨endOfSlice s k, u32 (16 * s.iLim * IMAGE_POISON_HEIGHT)⟩ := by
  rw [repairSlice, List.mem_append]
  apply or_congr
  · split_ifs with columns
    · simp [columns, eq_comm]
    · simp [columns]
  · split_ifs with rows
    · simp [rows]
    · simp [rows]

theorem mem_repairWrites : w ∈ repairWrites s ↔
    (∃ k < s.kDat, w ∈ repairSlice s k) ∨ (s.kLim > 1 ∧ s.jLim > 0 ∧ s.iLim > 0) ∧
      w = ⟨canarySlice s, u32 (16 * s.iLim * s.jLim * IMAGE_POISON_DEPTH)⟩ := by
  rw [repairWrites, List.mem_append]
  apply or_congr
  · simp
  · split_ifs with slices
    · simp [slices]
    · simp [slices]

/-! ## What a list of writes does -/

/-- The image is one of the runtime's, with this storage. -/
def IsImage (rt : Runtime) (img : MemObj) (store : Nat) : Prop :=
  ∃ object desc pixelSize hostPtr, rt.objects.find img.handle = some object ∧
    object.kind = .image store img.imageFormat desc pixelSize hostPtr

/-- Some pixels of a storage have the canary byte, and nothing else is touched. -/
structure Painted (rt rt' : Runtime) (store : Nat) (covered : Point → Prop) : Prop where
  objects : rt'.objects = rt.objects
  bytes : rt'.bytes = rt.bytes
  others : ∀ other, other ≠ store → rt'.texels other = rt.texels other
  inside : ∀ q b, covered q → rt'.texels store q b = POISON_FILL
  outside : ∀ q b, ¬ covered q → rt'.texels store q b = rt.texels store q b

variable {rt rt' rt'' : Runtime} {store : Nat} {covered covered' : Point → Prop}

theorem Painted.trans (first : Painted rt rt' store covered)
    (second : Painted rt' rt'' store covered') :
    Painted rt rt'' store fun q => covered q ∨ covered' q := by
  constructor
  case objects => exact second.objects.trans first.objects
  case bytes => exact second.bytes.trans first.bytes
  case others => exact fun other ne => (second.others other ne).trans (first.others other ne)
  case inside =>
    intro q b either
    by_cases later : covered' q
    · exact second.inside q b later
    · rw [second.outside q b later]
      exact first.inside q b (either.resolve_right later)
  case outside =>
    intro q b neither
    rw [not_or] at neither
    exact (second.outside q b neither.2).trans (first.outside q b neither.1)

/-- One write, for which the array has to be long enough. -/
theorem RepairWrite.run_eq_some_iff (isImage : IsImage rt img store) :
    (∃ rt', w.run img rt = some rt') ↔
      w.box.volume * getImageDataSize img.imageFormat ≤ w.source := by
  obtain ⟨object, desc, _, _, found, kind⟩ := isImage
  rw [RepairWrite.run, writeImageFrom, Option.bind_some, Block.replicate_len]
  split_ifs with long
  · simp [Runtime.writeImage, found, kind, long]
  · simp [long]

theorem RepairWrite.run_painted (isImage : IsImage rt img store) (ran : w.run img rt = some rt') :
    Painted rt rt' store w.box.Mem := by
  obtain ⟨object, desc, _, _, found, kind⟩ := isImage
  rw [RepairWrite.run, writeImageFrom, Option.bind_some] at ran
  split_ifs at ran
  rw [Runtime.writeImage, found, Option.bind_some, kind] at ran
  obtain rfl := Option.some.inj ran
  constructor
  case objects => rfl
  case bytes => rfl
  case others => exact fun other ne => Function.update_of_ne ne _ _
  case inside =>
    intro q b inBox
    simp only [Function.update_self, if_pos inBox, Block.replicate_get]
  case outside =>
    intro q b outBox
    simp only [Function.update_self, if_neg outBox]

theorem Painted.isImage (painted : Painted rt rt' store covered)
    (isImage : IsImage rt img store) : IsImage rt' img store := by
  rw [IsImage, painted.objects]
  exact isImage

/-- A list of writes whose arrays are long enough paints its boxes. -/
theorem writes_painted (isImage : IsImage rt img store) (writes : List RepairWrite)
    (sources : ∀ w ∈ writes, w.box.volume * getImageDataSize img.imageFormat ≤ w.source) :
    ∃ rt', writes.foldlM (RepairWrite.run img) rt = some rt' ∧
      Painted rt rt' store fun q => ∃ w ∈ writes, w.box.Mem q := by
  induction writes generalizing rt with
  | nil => exact ⟨rt, rfl, rfl, rfl, fun _ _ => rfl, by simp, fun _ _ _ => rfl⟩
  | cons w rest ih =>
      obtain ⟨rt', ran⟩ :=
        (RepairWrite.run_eq_some_iff isImage).mpr (sources w List.mem_cons_self)
      have painted := RepairWrite.run_painted isImage ran
      obtain ⟨rt'', ran', painted'⟩ :=
        ih (painted.isImage isImage) fun v mem => sources v (List.mem_cons_of_mem w mem)
      refine ⟨rt'', ?_, ?_⟩
      · rw [List.foldlM_cons, ran]
        exact ran'
      · simpa using painted.trans painted'

/-! ## The pixels that are written -/

/-- The writes cover this pixel. -/
def Covered (s : ImageDims) (p : Point) : Prop := ∃ w ∈ repairWrites s, w.box.Mem p

theorem covered_iff : Covered s p ↔
    (1 < s.iLim ∧ p.z < s.kDat ∧ p.y < s.jDat ∧ s.iDat ≤ p.x ∧ p.x < s.iDat + 16) ∨
    (1 < s.jLim ∧ p.z < s.kDat ∧ p.x < s.iLim ∧ s.jDat ≤ p.y ∧ p.y < s.jDat + 16) ∨
    (1 < s.kLim ∧ p.x < s.iLim ∧ p.y < s.jLim ∧ s.kDat ≤ p.z ∧ p.z < s.kDat + 16) := by
  constructor
  · rintro ⟨w, mem, inBox⟩
    rcases mem_repairWrites.mp mem with ⟨k, kLt, mem⟩ | ⟨slices, rfl⟩
    · rcases mem_repairSlice.mp mem with ⟨columns, j, jLt, rfl⟩ | ⟨rows, rfl⟩
      · simp only [Box.Mem, endOfRow, IMAGE_POISON_WIDTH] at inBox
        omega
      · simp only [Box.Mem, endOfSlice, IMAGE_POISON_HEIGHT] at inBox
        omega
    · simp only [Box.Mem, canarySlice, IMAGE_POISON_DEPTH] at inBox
      omega
  · rintro (⟨columns, zLt, yLt, lower, upper⟩ | ⟨rows, zLt, xLt, lower, upper⟩ |
      ⟨slices, xLt, yLt, lower, upper⟩)
    · refine ⟨_, mem_repairWrites.mpr (Or.inl ⟨p.z, zLt,
        mem_repairSlice.mpr (Or.inl ⟨columns, p.y, yLt, rfl⟩)⟩), ?_⟩
      simp only [Box.Mem, endOfRow, IMAGE_POISON_WIDTH]
      omega
    · refine ⟨_, mem_repairWrites.mpr (Or.inl ⟨p.z, zLt,
        mem_repairSlice.mpr (Or.inr ⟨⟨rows, by omega⟩, rfl⟩)⟩), ?_⟩
      simp only [Box.Mem, endOfSlice, IMAGE_POISON_HEIGHT]
      omega
    · refine ⟨_, mem_repairWrites.mpr (Or.inr ⟨⟨slices, by omega, by omega⟩, rfl⟩), ?_⟩
      simp only [Box.Mem, canarySlice, IMAGE_POISON_DEPTH]
      omega

/-! ## Extents that are read right -/

/-- An extent from which the data extent is read right: it fits 32 bits, or is
above that by more than one and less than a border. -/
def Countable (n : Nat) : Prop := n < 4294967296 ∨ 4294967298 ≤ n ∧ n < 4294967312

/-- The data extent that is read behind an extent. -/
def readDat (n : Nat) : Nat := if u32 n = 1 then 1 else sub32 (u32 n) 16

theorem readDat_one : readDat 1 = 1 := by decide

/-- An extent with a border: where it ends as it is read. -/
theorem read_border {n : Nat} (border : 16 ≤ n) :
    readDat n + 16 ≤ n ∧ (Countable n → 1 < u32 n ∧ readDat n + 16 = n) ∧
      (¬ Countable n → u32 n < n ∧ (1 < u32 n → readDat n + 16 < n)) ∧
      (4294967296 ≤ n → u32 n < n) := by
  unfold readDat Countable sub32 u32
  split_ifs <;> omega

/-- The dimensions as they are read. -/
def readDims (e : ImageDims) : ImageDims :=
  { iLim := u32 e.iLim, jLim := u32 e.jLim, kLim := u32 e.kLim, iDat := readDat e.iLim,
    jDat := readDat e.jLim, kDat := readDat e.kLim }

/-- The dimensions that are read, by the extents of the expanded image. -/
theorem machine_dims_eq (desc : ImageDesc) :
    getImageDimensions .machine (expandLastDimForFill (standardDesc desc)) =
      readDims (expandedDims desc) := by
  simp only [expandedDims, getImageDimensions, readDims, readDat, IMAGE_POISON_WIDTH,
    IMAGE_POISON_HEIGHT, IMAGE_POISON_DEPTH, machine_wrap32, machine_sub32, exact_wrap32]
  split_ifs <;> rfl

/-- Extents for which the writes cover the canaries: all but the last that the
image uses fit 32 bits, and the last one is read right. -/
structure ExtentsRead (e : ImageDims) : Prop where
  width : Countable e.iLim
  rows : 1 < e.jLim → e.iLim < 4294967296 ∧ Countable e.jLim
  slices : 1 < e.kLim → e.jLim < 4294967296 ∧ Countable e.kLim

variable {e : ImageDims}

/-- Where the extents are read right, the writes cover the border. -/
theorem covered_of_extentsRead (bordered : e.Bordered) (read : ExtentsRead e) (p : Point) :
    Covered (readDims e) p ↔ e.limBox.Mem p ∧ ¬ e.datBox.Mem p := by
  obtain ⟨width, height, depth⟩ := bordered
  simp only [IMAGE_POISON_WIDTH, IMAGE_POISON_HEIGHT, IMAGE_POISON_DEPTH] at width height depth
  have one : u32 1 = 1 := by decide
  obtain ⟨iLim, iDat⟩ := (read_border (n := e.iLim) (by omega)).2.1 read.width
  rw [covered_iff]
  simp only [readDims, Box.Mem, ImageDims.limBox, ImageDims.datBox]
  rcases height with height | ⟨jOne, jDatOne⟩
  · obtain ⟨iLt, jRead⟩ := read.rows (by omega)
    obtain ⟨jLim, jDat⟩ := (read_border (n := e.jLim) (by omega)).2.1 jRead
    rw [u32_of_lt iLt] at iLim ⊢
    rcases depth with ⟨depth, -⟩ | ⟨kOne, kDatOne⟩
    · obtain ⟨jLt, kRead⟩ := read.slices (by omega)
      obtain ⟨kLim, kDat⟩ := (read_border (n := e.kLim) (by omega)).2.1 kRead
      rw [u32_of_lt jLt] at jLim ⊢
      omega
    · rw [kOne, readDat_one, one]
      omega
  · have kOne : e.kLim = 1 ∧ e.kDat = 1 := by omega
    rw [jOne, kOne.1, readDat_one, one]
    omega

/-- Where the writes cover the border, the extents are read right. -/
theorem extentsRead_of_covered (bordered : e.Bordered)
    (covers : ∀ p, e.limBox.Mem p → ¬ e.datBox.Mem p → Covered (readDims e) p) :
    ExtentsRead e := by
  obtain ⟨width, height, depth⟩ := bordered
  simp only [IMAGE_POISON_WIDTH, IMAGE_POISON_HEIGHT, IMAGE_POISON_DEPTH] at width height depth
  simp only [covered_iff, readDims, Box.Mem, ImageDims.limBox, ImageDims.datBox] at covers
  obtain ⟨-, -, iWrong, iAbove⟩ := read_border (n := e.iLim) (by omega)
  have jEnds : 1 < e.jLim → readDat e.jLim + 16 ≤ e.jLim ∧
      (¬ Countable e.jLim → u32 e.jLim < e.jLim ∧ (1 < u32 e.jLim → readDat e.jLim + 16 < e.jLim)) ∧
      (4294967296 ≤ e.jLim → u32 e.jLim < e.jLim) := by
    intro rows
    obtain ⟨ends, -, wrong, above⟩ := read_border (n := e.jLim) (by omega)
    exact ⟨ends, wrong, above⟩
  have kEnds : 1 < e.kLim → readDat e.kLim + 16 ≤ e.kLim ∧
      (¬ Countable e.kLim → 1 < u32 e.kLim → readDat e.kLim + 16 < e.kLim) := by
    intro slices
    obtain ⟨ends, -, wrong, -⟩ := read_border (n := e.kLim) (by omega)
    exact ⟨ends, fun miscounted => (wrong miscounted).2⟩
  constructor
  case width =>
    by_contra miscounted
    obtain ⟨below, short⟩ := iWrong miscounted
    have corner := covers ⟨e.iLim - 1, 0, 0⟩ (by dsimp only; omega) (by dsimp only; omega)
    dsimp only at corner
    omega
  case rows =>
    intro rows
    obtain ⟨jEnd, jWrong, jAbove⟩ := jEnds rows
    constructor
    · by_contra wide
      have below := iAbove (by omega)
      have corner := covers ⟨e.iLim - 1, e.jLim - 1, 0⟩ (by dsimp only; omega)
        (by dsimp only; omega)
      dsimp only at corner
      omega
    · by_contra miscounted
      obtain ⟨below, short⟩ := jWrong miscounted
      have corner := covers ⟨0, e.jLim - 1, 0⟩ (by dsimp only; omega) (by dsimp only; omega)
      dsimp only at corner
      omega
  case slices =>
    intro slices
    obtain ⟨kEnd, kWrong⟩ := kEnds slices
    obtain ⟨jEnd, jWrong, jAbove⟩ := jEnds (by omega)
    constructor
    · by_contra high
      have below := jAbove (by omega)
      have corner := covers ⟨0, e.jLim - 1, e.kLim - 1⟩ (by dsimp only; omega)
        (by dsimp only; omega)
      dsimp only at corner
      omega
    · by_contra miscounted
      have short := kWrong miscounted
      have corner := covers ⟨0, 0, e.kLim - 1⟩ (by dsimp only; omega) (by dsimp only; omega)
      dsimp only at corner
      omega

/-- No write reaches past the image. -/
theorem limBox_of_covered (bordered : e.Bordered) (covered : Covered (readDims e) p) :
    e.limBox.Mem p := by
  obtain ⟨width, height, depth⟩ := bordered
  simp only [IMAGE_POISON_WIDTH, IMAGE_POISON_HEIGHT, IMAGE_POISON_DEPTH] at width height depth
  have one : u32 1 = 1 := by decide
  have iEnd := (read_border (n := e.iLim) (by omega)).1
  have iLe := u32_le e.iLim
  have jLe := u32_le e.jLim
  rw [covered_iff] at covered
  simp only [readDims, Box.Mem, ImageDims.limBox] at covered ⊢
  rcases height with height | ⟨jOne, -⟩
  · have jEnd := (read_border (n := e.jLim) (by omega)).1
    rcases depth with ⟨depth, -⟩ | ⟨kOne, -⟩
    · have kEnd := (read_border (n := e.kLim) (by omega)).1
      omega
    · rw [kOne, readDat_one, one] at covered
      omega
  · have kOne : e.kLim = 1 := by omega
    rw [jOne, kOne, readDat_one, one] at covered
    omega

/-! ## The arrays that are written from -/

/-- The arrays are long enough for the writes that read them. -/
structure SourcesFit (e : ImageDims) (d : Nat) : Prop where
  rows : 1 < e.jLim → 0 < e.kDat → e.iLim * 16 * d ≤ u32 (e.iLim * 256)
  slices : 1 < e.kLim → e.iLim * e.jLim * 16 * d ≤ u32 (e.iLim * e.jLim * 256)

theorem sources_iff (bordered : e.Bordered) (read : ExtentsRead e) (dLe : d ≤ 16) :
    (∀ w ∈ repairWrites (readDims e), w.box.volume * d ≤ w.source) ↔ SourcesFit e d := by
  obtain ⟨width, height, depth⟩ := bordered
  simp only [IMAGE_POISON_WIDTH, IMAGE_POISON_HEIGHT, IMAGE_POISON_DEPTH] at width height depth
  obtain ⟨columns, -⟩ := (read_border (n := e.iLim) (by omega)).2.1 read.width
  have rowsRead : 1 < e.jLim → u32 e.iLim = e.iLim ∧ 1 < u32 e.jLim := by
    intro rows
    obtain ⟨iLt, jRead⟩ := read.rows rows
    exact ⟨u32_of_lt iLt, ((read_border (n := e.jLim) (by omega)).2.1 jRead).1⟩
  have slicesRead : 1 < e.kLim → u32 e.jLim = e.jLim ∧ 1 < u32 e.kLim := by
    intro slices
    obtain ⟨jLt, kRead⟩ := read.slices slices
    exact ⟨u32_of_lt jLt, ((read_border (n := e.kLim) (by omega)).2.1 kRead).1⟩
  have isKDat : readDat e.kLim = e.kDat := by
    rcases depth with ⟨depth, -⟩ | ⟨kOne, kDatOne⟩
    · have kRead := (read.slices (by omega)).2
      have ends := ((read_border (n := e.kLim) (by omega)).2.1 kRead).2
      omega
    · rw [kOne, kDatOne, readDat_one]
  have one : u32 1 = 1 := by decide
  have rowVolume : ∀ k, (endOfSlice (readDims e) k).volume = u32 e.iLim * 16 := by
    intro k
    simp only [Box.volume, endOfSlice, readDims, IMAGE_POISON_HEIGHT]
    ring
  have sliceVolume : (canarySlice (readDims e)).volume = u32 e.iLim * u32 e.jLim * 16 := by
    simp only [Box.volume, canarySlice, readDims, IMAGE_POISON_DEPTH]
    ring
  have rowSource : ∀ n, 16 * n * IMAGE_POISON_HEIGHT = n * 256 := by
    intro n
    simp only [IMAGE_POISON_HEIGHT]
    ring
  have sliceSource : ∀ m n, 16 * m * n * IMAGE_POISON_DEPTH = m * n * 256 := by
    intro m n
    simp only [IMAGE_POISON_DEPTH]
    ring
  constructor
  · intro sources
    constructor
    · intro rows data
      obtain ⟨isILim, jLim⟩ := rowsRead rows
      have first : 0 < readDat e.kLim := by rwa [isKDat]
      have fits := sources _ (mem_repairWrites.mpr (Or.inl ⟨0, first,
        mem_repairSlice.mpr (Or.inr ⟨⟨jLim, Nat.lt_of_succ_lt columns⟩, rfl⟩)⟩))
      dsimp only at fits
      rw [rowVolume, rowSource] at fits
      simpa only [readDims, isILim] using fits
    · intro slices
      obtain ⟨isILim, jLim⟩ := rowsRead (by omega)
      obtain ⟨isJLim, kLim⟩ := slicesRead slices
      have fits := sources _ (mem_repairWrites.mpr (Or.inr
        ⟨⟨kLim, Nat.lt_of_succ_lt jLim, Nat.lt_of_succ_lt columns⟩, rfl⟩))
      dsimp only at fits
      rw [sliceVolume, sliceSource] at fits
      simpa only [readDims, isILim, isJLim] using fits
  · intro fit w mem
    rcases mem_repairWrites.mp mem with ⟨k, kLt, mem⟩ | ⟨slices, rfl⟩
    · rcases mem_repairSlice.mp mem with ⟨-, j, -, rfl⟩ | ⟨rows, rfl⟩
      · simp only [Box.volume, endOfRow, IMAGE_POISON_WIDTH]
        omega
      · have rows' : 1 < e.jLim := by
          by_contra single
          have jOne : e.jLim = 1 := by omega
          rw [readDims, jOne, one] at rows
          dsimp only at rows
          omega
        have data : 0 < e.kDat := by
          rw [← isKDat]
          exact Nat.zero_lt_of_lt kLt
        dsimp only
        rw [rowVolume, rowSource]
        simpa only [readDims, (rowsRead rows').1] using fit.rows rows' data
    · have slices' : 1 < e.kLim := by
        by_contra single
        have kOne : e.kLim = 1 := by omega
        rw [readDims, kOne, one] at slices
        dsimp only at slices
        omega
      dsimp only
      rw [sliceVolume, sliceSource]
      simpa only [readDims, (rowsRead (by omega)).1, (slicesRead slices').1] using
        fit.slices slices'

/-! ## The repair -/

/-- The repair touches the canaries and nothing else, whatever the contents are:
every write lies inside the image, every array is as long as the write that reads
it, and then exactly the canary pixels have the canary byte. -/
structure RepairsImage (img : MemObj) (desc : ImageDesc) : Prop where
  inside : ∀ w ∈ repairWrites (getImageDimensions .machine img.imageDesc), ∀ p, w.box.Mem p →
    (imageBox (expandLastDimForFill desc)).Mem p
  sources : ∀ w ∈ repairWrites (getImageDimensions .machine img.imageDesc),
    w.box.volume * getImageDataSize img.imageFormat ≤ w.source
  repaired : ∀ rt store, IsImage rt img store → ∃ rt', poisonFillImageCanaries rt img = some rt' ∧
    Painted rt rt' store (IsCanaryPixel desc)

theorem isCanaryPixel_iff (desc : ImageDesc) (p : Point) : IsCanaryPixel desc p ↔
    (expandedDims desc).limBox.Mem p ∧ ¬ (expandedDims desc).datBox.Mem p := by
  rw [IsCanaryPixel, imageBox_expand, imageBox_eq_datBox]

/-- An image of zeros. -/
def zeroImage (img : MemObj) : Runtime :=
  { Runtime.initial with
    objects := Table.empty.insert img.handle
      ⟨.image 0 img.imageFormat img.imageDesc (getImageDataSize img.imageFormat) none, NULL, 1⟩ }

theorem isImage_zeroImage (img : MemObj) : IsImage (zeroImage img) img 0 :=
  ⟨_, _, _, _, Table.find_insert_fresh rfl, rfl⟩

theorem extentsRead_of_repairsImage {desc : ImageDesc}
    (expanded : img.imageDesc = expandLastDimForFill (standardDesc desc))
    (pos : getImageDataSize img.imageFormat ≠ 0) (repairs : RepairsImage img desc) :
    ExtentsRead (expandedDims desc) ∧
      SourcesFit (expandedDims desc) (getImageDataSize img.imageFormat) := by
  have bordered := expandedDims_bordered desc
  obtain ⟨-, sources, repaired⟩ := repairs
  obtain ⟨rt', ran, byCanary⟩ := repaired _ 0 (isImage_zeroImage img)
  rw [poisonFillImageCanaries_eq pos] at ran
  rw [expanded, machine_dims_eq] at ran sources
  obtain ⟨rt'', ran', byWrites⟩ := writes_painted (isImage_zeroImage img) _ sources
  obtain rfl : rt' = rt'' := Option.some.inj (ran.symm.trans ran')
  have read : ExtentsRead (expandedDims desc) := by
    apply extentsRead_of_covered bordered
    intro p inLim outDat
    by_contra uncovered
    have painted := byCanary.inside p 0 ((isCanaryPixel_iff desc p).mpr ⟨inLim, outDat⟩)
    rw [byWrites.outside p 0 uncovered] at painted
    exact absurd painted (show (0 : UInt8) ≠ POISON_FILL by decide)
  exact ⟨read, (sources_iff bordered read (getImageDataSize_le _)).mp sources⟩

theorem repairsImage_of_extentsRead {desc : ImageDesc}
    (expanded : img.imageDesc = expandLastDimForFill (standardDesc desc))
    (pos : getImageDataSize img.imageFormat ≠ 0) (read : ExtentsRead (expandedDims desc))
    (fit : SourcesFit (expandedDims desc) (getImageDataSize img.imageFormat)) :
    RepairsImage img desc := by
  have bordered := expandedDims_bordered desc
  have dims : getImageDimensions .machine img.imageDesc = readDims (expandedDims desc) := by
    rw [expanded, machine_dims_eq]
  have sources := (sources_iff bordered read (getImageDataSize_le _)).mpr fit
  have covers : ∀ p, Covered (readDims (expandedDims desc)) p ↔ IsCanaryPixel desc p := by
    intro p
    rw [covered_of_extentsRead bordered read, isCanaryPixel_iff]
  constructor
  case inside =>
    rw [dims]
    intro w mem p inBox
    rw [imageBox_expand]
    exact limBox_of_covered bordered ⟨w, mem, inBox⟩
  case sources =>
    rw [dims]
    exact sources
  case repaired =>
    intro rt store isImage
    rw [poisonFillImageCanaries_eq pos, dims]
    obtain ⟨rt', ran, painted⟩ := writes_painted isImage _ sources
    refine ⟨rt', ran, painted.objects, painted.bytes, painted.others, ?_, ?_⟩
    · exact fun q b canary => painted.inside q b ((covers q).mpr canary)
    · exact fun q b outside => painted.outside q b fun covered => outside ((covers q).mp covered)

/-- An RGBA image of bytes. -/
def rgbaImage (desc : ImageDesc) : MemObj :=
  { expandImage (imageTemp 1 {} ⟨.rgba, .unormInt8⟩ desc) with handle := 11, hasCanary := true }

/-- The repair of a canaried image touches the canaries and nothing else exactly
where its extents are read right and the products that the arrays are sized with
do not lose what the pixels need. -/
theorem repairsImage_iff {desc : ImageDesc}
    (expanded : img.imageDesc = expandLastDimForFill (standardDesc desc))
    (pos : getImageDataSize img.imageFormat ≠ 0) : RepairsImage img desc ↔
      ExtentsRead (expandedDims desc) ∧
        SourcesFit (expandedDims desc) (getImageDataSize img.imageFormat) :=
  ⟨extentsRead_of_repairsImage expanded pos,
    fun both => repairsImage_of_extentsRead expanded pos both.1 both.2⟩

/-- A two-dimensional image of 48 by 48 pixels. -/
theorem repairsImage_iff_square :
    let desc := { ImageDesc.zero with imageType := .image2D, imageWidth := 48, imageHeight := 48 }
    RepairsImage (rgbaImage desc) desc ↔
      ExtentsRead (expandedDims desc) ∧ SourcesFit (expandedDims desc) 4 :=
  repairsImage_iff rfl (by decide)

/-- An image of 4080 by 4080 pixels in an array: the size of the array for the
extra slices is reduced to zero. -/
theorem not_repairsImage :
    let desc := { ImageDesc.zero with
      imageType := .image2DArray, imageWidth := 4080, imageHeight := 4080, imageArraySize := 1 }
    ¬ RepairsImage (rgbaImage desc) desc := by
  intro desc repairs
  have fit := (@extentsRead_of_repairsImage (rgbaImage desc) desc rfl (by decide) repairs).2
  exact absurd (fit.slices (by decide)) (by decide)

end Clarmor
