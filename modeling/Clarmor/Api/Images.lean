import Clarmor.Api.Transfers
import Clarmor.Image.Desc

/-!
# Limits and range checks of images

`clGetDeviceInfo` reports smaller image limits than the device has, so that the
canaries fit.  The transfers check the box of pixels that they touch against
the visible part of the image, which is the image without its canaries unless
the detector itself is at work.
-/

namespace Clarmor

open Word

/-! ## Device limits -/

/-- `cl_device_info`, as far as the wrapper or an image type depends on it. -/
inductive DeviceParam where
  | image2DMaxWidth
  | image2DMaxHeight
  | image3DMaxWidth
  | image3DMaxHeight
  | image3DMaxDepth
  | imageMaxBufferSize
  | imageMaxArraySize
  | maxMemAllocSize
  | other (paramName : Nat)
deriving DecidableEq, Repr

/-- The limits of image dimensions. -/
def DeviceParam.IsImageLimit : DeviceParam → Prop
  | .maxMemAllocSize | .other _ => False
  | _ => True

/-- A device: whether it supports images, and the values of its parameters.
Without images the image limits are zero. -/
structure Device where
  imageSupport : Bool
  value : DeviceParam → Nat
  valueLt : ∀ p, SizeT (value p)
  noImages : imageSupport = false → ∀ p : DeviceParam, p.IsImageLimit → value p = 0

/-- `clGetDeviceInfo`.  The division faults where the product of the 3D limits
is zero. -/
def clGetDeviceInfo (device : Device) (paramName : DeviceParam) : Option Nat :=
  let val := device.value paramName
  if device.imageSupport then
    match paramName with
    | .image2DMaxWidth => some (sub64 val IMAGE_POISON_WIDTH)
    | .image2DMaxHeight => some (sub64 val IMAGE_POISON_HEIGHT)
    | .image3DMaxWidth => some (sub64 val IMAGE_POISON_WIDTH)
    | .image3DMaxHeight => some (sub64 val IMAGE_POISON_HEIGHT)
    | .image3DMaxDepth => some (sub64 val IMAGE_POISON_DEPTH)
    | .imageMaxBufferSize => some (sub64 val IMAGE_POISON_WIDTH)
    | .maxMemAllocSize =>
        -- The largest canary space is from slice duplication for depth.
        let width := device.value .image3DMaxWidth
        let height := device.value .image3DMaxHeight
        if u64 (width * height) = 0 then none
        else
          let depth := val / u64 (width * height)
          some (u64 (sub64 width IMAGE_POISON_WIDTH * sub64 height IMAGE_POISON_HEIGHT *
            sub64 depth IMAGE_POISON_DEPTH))
    | .imageMaxArraySize | .other _ => some val
  else some val

/-- The dimensions of an image with the parameter that bounds each of them. -/
def boundedDims (desc : ImageDesc) : List (DeviceParam × Nat) :=
  match desc.imageType with
  | .image1D => [(.image2DMaxWidth, desc.imageWidth)]
  | .image1DBuffer => [(.imageMaxBufferSize, desc.imageWidth)]
  | .image1DArray =>
      [(.image2DMaxWidth, desc.imageWidth), (.imageMaxArraySize, desc.imageArraySize)]
  | .image2D => [(.image2DMaxWidth, desc.imageWidth), (.image2DMaxHeight, desc.imageHeight)]
  | .image2DArray =>
      [(.image2DMaxWidth, desc.imageWidth), (.image2DMaxHeight, desc.imageHeight),
        (.imageMaxArraySize, desc.imageArraySize)]
  | .image3D =>
      [(.image3DMaxWidth, desc.imageWidth), (.image3DMaxHeight, desc.imageHeight),
        (.image3DMaxDepth, desc.imageDepth)]

/-- An image keeps to a table of limits. -/
def WithinLimits (limit : DeviceParam → Option Nat) (desc : ImageDesc) : Prop :=
  ∀ e ∈ boundedDims desc, ∃ most, limit e.1 = some most ∧ e.2 ≤ most

/-- The extents of a descriptor as `size_t` values. -/
def ImageDesc.toSizeT (desc : ImageDesc) : ImageDesc :=
  { desc with
    imageWidth := u64 desc.imageWidth
    imageHeight := u64 desc.imageHeight
    imageDepth := u64 desc.imageDepth
    imageArraySize := u64 desc.imageArraySize }

/-- Images with an array index. -/
def ImageType.IsArray : ImageType → Prop
  | .image1DArray | .image2DArray => True
  | _ => False

/-- The canary members of an array fit behind its members, or their number wraps
around. -/
def ArrayRoom (device : Device) (desc : ImageDesc) : Prop :=
  desc.imageType.IsArray →
    desc.imageArraySize + 16 ≤ device.value .imageMaxArraySize ∨
      18446744073709551616 ≤ desc.imageArraySize + 16

/-- What the reduced limits leave of an image dimension. -/
theorem clGetDeviceInfo_reduced {device : Device} {p : DeviceParam} {dim most : Nat}
    (supported : device.imageSupport = true) (limit : p.IsImageLimit)
    (reduced : p ≠ .imageMaxArraySize) (large : 16 < device.value p)
    (reported : clGetDeviceInfo device p = some most) (le : dim ≤ most) :
    u64 (dim + 16) ≤ device.value p := by
  have valueLt : device.value p < 18446744073709551616 := device.valueLt p
  have difference : sub64 (device.value p) 16 = device.value p - 16 :=
    sub64_of_le valueLt (by omega)
  have room : most = device.value p - 16 := by
    rw [← difference]
    cases p <;> simp_all [clGetDeviceInfo, DeviceParam.IsImageLimit, IMAGE_POISON_WIDTH,
      IMAGE_POISON_HEIGHT, IMAGE_POISON_DEPTH]
  rw [u64_of_lt (by omega)]
  omega

/-- The number of members of an array is reported as it is. -/
theorem clGetDeviceInfo_arraySize (device : Device) :
    clGetDeviceInfo device .imageMaxArraySize = some (device.value .imageMaxArraySize) := by
  unfold clGetDeviceInfo
  split_ifs <;> rfl

theorem arrayRoom_iff {size most : Nat} (mostLt : most < 18446744073709551616) (large : 16 < most)
    (le : size ≤ most) :
    u64 (size + 16) ≤ most ↔ size + 16 ≤ most ∨ 18446744073709551616 ≤ size + 16 := by
  unfold u64
  omega

/-- Every dimension that is bounded gets its canaries. -/
theorem boundedDims_expand (desc : ImageDesc) :
    boundedDims (expandLastDimForFill (standardDesc desc)).toSizeT =
      (boundedDims desc).map fun e => (e.1, u64 (e.2 + 16)) := by
  cases type : desc.imageType <;>
    simp [boundedDims, expandLastDimForFill, standardDesc, ImageDesc.toSizeT, type,
      IMAGE_POISON_WIDTH, IMAGE_POISON_HEIGHT, IMAGE_POISON_DEPTH]

theorem isImageLimit_of_mem {desc : ImageDesc} {e : DeviceParam × Nat}
    (mem : e ∈ boundedDims desc) : e.1.IsImageLimit := by
  cases type : desc.imageType <;> simp only [boundedDims, type, List.mem_cons,
    List.not_mem_nil, or_false] at mem
  case image1D | image1DBuffer =>
    subst mem
    exact trivial
  case image1DArray | image2D =>
    rcases mem with rfl | rfl <;> exact trivial
  case image2DArray | image3D =>
    rcases mem with rfl | rfl | rfl <;> exact trivial

/-- Arrays are what the array limit bounds. -/
theorem mem_boundedDims_arraySize {desc : ImageDesc} {n : Nat} :
    (.imageMaxArraySize, n) ∈ boundedDims desc ↔
      desc.imageType.IsArray ∧ n = desc.imageArraySize := by
  cases type : desc.imageType <;> simp [boundedDims, type, ImageType.IsArray]

/-- An image with legal extents stays within the real limits, canaries included,
exactly where the canary members of an array have room. -/
theorem limits_leave_room_iff {device : Device} {desc : ImageDesc}
    (large : ∀ p : DeviceParam, p.IsImageLimit → 16 < device.value p)
    (legal : WithinLimits (clGetDeviceInfo device) desc) :
    WithinLimits (fun p => some (device.value p))
        (expandLastDimForFill (standardDesc desc)).toSizeT ↔
      ArrayRoom device desc := by
  have supported : device.imageSupport = true := by
    by_contra unsupported
    have zero := device.noImages (by simpa using unsupported) .image2DMaxWidth trivial
    have positive := large .image2DMaxWidth trivial
    omega
  have members : ∀ {n}, (.imageMaxArraySize, n) ∈ boundedDims desc →
      n ≤ device.value .imageMaxArraySize := by
    intro n mem
    obtain ⟨most, reported, le⟩ := legal _ mem
    rw [clGetDeviceInfo_arraySize, Option.some.injEq] at reported
    rwa [← reported] at le
  have room : ∀ {n}, (.imageMaxArraySize, n) ∈ boundedDims desc →
      (u64 (n + 16) ≤ device.value .imageMaxArraySize ↔
        n + 16 ≤ device.value .imageMaxArraySize ∨ 18446744073709551616 ≤ n + 16) := fun mem =>
    arrayRoom_iff (device.valueLt _) (large _ trivial) (members mem)
  simp only [WithinLimits, boundedDims_expand, List.forall_mem_map, Option.some.injEq,
    exists_eq_left']
  constructor
  · intro fits array
    have mem := mem_boundedDims_arraySize.mpr ⟨array, rfl⟩
    exact (room mem).mp (fits _ mem)
  · rintro fits ⟨p, dim⟩ mem
    by_cases counted : p = .imageMaxArraySize
    · subst counted
      obtain ⟨array, rfl⟩ := mem_boundedDims_arraySize.mp mem
      exact (room mem).mpr (fits array)
    · obtain ⟨most, reported, le⟩ := legal _ mem
      have limit := isImageLimit_of_mem mem
      exact clGetDeviceInfo_reduced supported limit counted (large p limit) reported le

/-- A device with one value for every parameter. -/
def uniformDevice (most : Nat) (mostLt : SizeT most) : Device where
  imageSupport := true
  value := fun _ => most
  valueLt := fun _ => mostLt
  noImages := nofun

/-- The largest legal 2D image. -/
theorem limits_leave_room_image2D :
    WithinLimits (fun p => some ((uniformDevice 2048 (by unfold SizeT; decide)).value p))
        (expandLastDimForFill
          (standardDesc ⟨.image2D, 2032, 2032, 1, 1, 0, 0, 0, 0, NULL⟩)).toSizeT ↔
      ArrayRoom (uniformDevice 2048 (by unfold SizeT; decide))
        ⟨.image2D, 2032, 2032, 1, 1, 0, 0, 0, 0, NULL⟩ :=
  limits_leave_room_iff (fun _ _ => (by decide : 16 < 2048)) (by
    intro e mem
    simp only [boundedDims, List.mem_cons, List.not_mem_nil, or_false] at mem
    rcases mem with rfl | rfl
    · exact ⟨2032, by decide, le_refl _⟩
    · exact ⟨2032, by decide, le_refl _⟩)

/-- A 1D array with as many members as the device reports gets sixteen more than
the device allows. -/
theorem limits_leave_no_room_array :
    (∀ p : DeviceParam, p.IsImageLimit →
        16 < (uniformDevice 2048 (by unfold SizeT; decide)).value p) ∧
      WithinLimits (clGetDeviceInfo (uniformDevice 2048 (by unfold SizeT; decide)))
        ⟨.image1DArray, 1, 1, 1, 2048, 0, 0, 0, 0, NULL⟩ ∧
      ¬ WithinLimits (fun p => some ((uniformDevice 2048 (by unfold SizeT; decide)).value p))
        (expandLastDimForFill
          (standardDesc ⟨.image1DArray, 1, 1, 1, 2048, 0, 0, 0, 0, NULL⟩)).toSizeT := by
  refine ⟨fun _ _ => (by decide : 16 < 2048), ?_, fun fits => ?_⟩
  · intro e mem
    simp only [boundedDims, List.mem_cons, List.not_mem_nil, or_false] at mem
    rcases mem with rfl | rfl
    · exact ⟨2032, by decide, by decide⟩
    · exact ⟨2048, by decide, le_refl _⟩
  · obtain ⟨most, real, le⟩ := fits (.imageMaxArraySize, 2064) (by decide)
    cases real
    exact absurd le (by decide)

/-! ## Image transfers -/

/-- The coordinates of an image overflow as they are reported; a negative one is
in order. -/
structure ImageOverflow where
  x : Int
  y : Int
  z : Int
deriving DecidableEq, Repr

/-- The extents that the check compares with: the array index takes the place of
the dimension behind those that the type has, and the canaries are taken off
unless the detector may touch them. -/
def visibleLens (mode : ApiMode) (m1 : MemObj) : Triple :=
  let w := m1.imageDesc.imageWidth
  let h :=
    if m1.imageDesc.imageType = .image1DArray then m1.imageDesc.imageArraySize
    else m1.imageDesc.imageHeight
  let d :=
    if m1.imageDesc.imageType = .image2DArray then m1.imageDesc.imageArraySize
    else m1.imageDesc.imageDepth
  if !m1.hasCanary || mode.canaryAccess then ⟨w, h, d⟩
  else ⟨sub64 w IMAGE_POISON_WIDTH, sub64 h IMAGE_POISON_HEIGHT, sub64 d IMAGE_POISON_DEPTH⟩

/-- How far an origin lies past a length. -/
def badIndex (origin len : Nat) : Int :=
  toInt32 (if origin > len then origin - len else 0)

/-- `apiImageOverflowCheck`. -/
def apiImageOverflowCheck (mode : ApiMode) (w : Wrapper) (image : Handle) (origin region : Triple) :
    Option ImageOverflow :=
  if mode.disableApiCheck then none
  else
    match w.table.find image with
    | none => none
    | some m1 =>
        if m1.isImage then
          let len := visibleLens mode m1
          if u64 (origin.z + region.z) > len.z then
            some ⟨-1, -1, badIndex origin.z len.z⟩
          else if u64 (origin.y + region.y) > len.y then
            some ⟨-1, badIndex origin.y len.y, toInt32 origin.z⟩
          else if u64 (origin.x + region.x) > len.x then
            some ⟨badIndex origin.x len.x, toInt32 origin.y, toInt32 origin.z⟩
          else none
        else none

/-- What the table stores of the extents of an image that the application
created as `desc`. -/
structure StoredImage (m1 : MemObj) (desc : ImageDesc) : Prop where
  isImage : m1.isImage = true
  imageType : m1.imageDesc.imageType = desc.imageType
  extents : (m1.imageDesc.imageWidth, m1.imageDesc.imageHeight, m1.imageDesc.imageDepth,
      m1.imageDesc.imageArraySize) =
    let stored :=
      if m1.hasCanary then (expandLastDimForFill (standardDesc desc)).toSizeT
      else standardDesc desc
    (stored.imageWidth, stored.imageHeight, stored.imageDepth, stored.imageArraySize)

/-- The box that a transfer may touch: what the application asked for, or what
is stored when there are no canaries to hide. -/
def visibleBox (mode : ApiMode) (m1 : MemObj) (desc : ImageDesc) : Box :=
  if m1.hasCanary && !mode.canaryAccess then imageBox desc else imageBox m1.imageDesc

/-- The box of a transfer lies in a box at the origin. -/
def TransferInside (box : Box) (origin region : Triple) : Prop :=
  RangeInside box.rx origin.x region.x ∧ RangeInside box.ry origin.y region.y ∧
    RangeInside box.rz origin.z region.z

/-- One axis of a transfer: the visible length, and whether it is the single row
or slice of an image type without this axis, of which the check takes canaries
off that are not there. -/
structure TransferAxis where
  len : Nat
  shrunk : Bool
  origin : Nat
  region : Nat

namespace TransferAxis

/-- The length that the check computes; sixteen off one wraps around. -/
def codeLen (a : TransferAxis) : Nat :=
  if a.shrunk then 18446744073709551601 else a.len

/-- The check reports the axis. -/
def Caught (a : TransferAxis) : Prop := a.codeLen < u64 (a.origin + a.region)

/-- The transfer leaves the image along the axis. -/
def Outside (a : TransferAxis) : Prop := a.len < a.origin + a.region

/-- The transfer leaves the image, but its end wraps around to a visible position,
or lies below the length that wrapped around. -/
def Missed (a : TransferAxis) : Prop :=
  if a.shrunk then
    1 < a.origin + a.region ∧ u64 (a.origin + a.region) ≤ 18446744073709551601
  else
    18446744073709551616 ≤ a.origin + a.region ∧
      a.origin + a.region - 18446744073709551616 ≤ a.len

/-- The values of an axis are `size_t` values, and an axis that the type lacks has
length one. -/
structure Proper (a : TransferAxis) : Prop where
  lenLt : SizeT a.len
  originLt : SizeT a.origin
  regionLt : SizeT a.region
  single : a.shrunk = true → a.len = 1

/-- The check catches what lies outside and is not missed. -/
theorem caught_iff {a : TransferAxis} (proper : a.Proper) :
    a.Caught ↔ a.Outside ∧ ¬ a.Missed := by
  obtain ⟨lenLt, originLt, regionLt, single⟩ := proper
  unfold SizeT at lenLt originLt regionLt
  cases shrunk : a.shrunk
  case false =>
    simp only [Caught, codeLen, Outside, Missed, shrunk, Bool.false_eq_true, if_false, u64]
    omega
  case true =>
    simp only [Caught, codeLen, Outside, Missed, shrunk, if_true, single shrunk, u64]
    omega

theorem outside_of_missed {a : TransferAxis} (proper : a.Proper) (missed : a.Missed) :
    a.Outside := by
  have lenLt : a.len < 18446744073709551616 := proper.lenLt
  cases shrunk : a.shrunk
  case false =>
    simp only [Missed, shrunk, Bool.false_eq_true, if_false] at missed
    unfold Outside
    omega
  case true =>
    simp only [Missed, shrunk, if_true] at missed
    rw [Outside, proper.single shrunk]
    exact missed.1

end TransferAxis

/-- The canaries of an image are hidden from a transfer. -/
def canariesHidden (mode : ApiMode) (m1 : MemObj) : Bool :=
  m1.hasCanary && !mode.canaryAccess

/-- Image types without a second axis. -/
def ImageType.lacksY : ImageType → Bool
  | .image1D | .image1DBuffer => true
  | _ => false

/-- Image types without a third axis. -/
def ImageType.lacksZ : ImageType → Bool
  | .image2DArray | .image3D => false
  | _ => true

/-- The three axes of a transfer. -/
def transferAxes (mode : ApiMode) (m1 : MemObj) (desc : ImageDesc) (origin region : Triple) :
    List TransferAxis :=
  let box := visibleBox mode m1 desc
  let hidden := canariesHidden mode m1
  [⟨box.rx, false, origin.x, region.x⟩,
    ⟨box.ry, hidden && desc.imageType.lacksY, origin.y, region.y⟩,
    ⟨box.rz, hidden && desc.imageType.lacksZ, origin.z, region.z⟩]

/-- The extents of a descriptor are `size_t` values. -/
structure ImageDesc.ExtentsSizeT (desc : ImageDesc) : Prop where
  width : SizeT desc.imageWidth
  height : SizeT desc.imageHeight
  depth : SizeT desc.imageDepth
  arraySize : SizeT desc.imageArraySize

/-- The lengths of the check are those of the axes. -/
theorem visibleLens_eq (mode : ApiMode) {m1 : MemObj} {desc : ImageDesc}
    (stored : StoredImage m1 desc) (sizes : desc.ExtentsSizeT) (origin region : Triple) :
    [(visibleLens mode m1).x, (visibleLens mode m1).y, (visibleLens mode m1).z] =
      (transferAxes mode m1 desc origin region).map TransferAxis.codeLen := by
  obtain ⟨-, sameType, extents⟩ := stored
  obtain ⟨width, height, depth, arraySize⟩ := sizes
  have back : ∀ n, SizeT n → sub64 (u64 (n + 16)) 16 = n := fun n nLt => by
    rw [sub64_u64_add, u64_of_lt nLt]
  have one : u64 1 = 1 := by decide
  have below : sub64 1 16 = 18446744073709551601 := by decide
  simp only [Prod.mk.injEq] at extents
  obtain ⟨storedWidth, storedHeight, storedDepth, storedArray⟩ := extents
  cases canary : m1.hasCanary <;> cases access : mode.canaryAccess <;>
    cases type : desc.imageType <;>
    simp_all [visibleLens, transferAxes, visibleBox, canariesHidden, TransferAxis.codeLen,
      ImageType.lacksY, ImageType.lacksZ, imageBox, standardDesc, expandLastDimForFill,
      ImageDesc.toSizeT, IMAGE_POISON_WIDTH, IMAGE_POISON_HEIGHT, IMAGE_POISON_DEPTH]

/-- The values of the axes are in range. -/
theorem transferAxes_proper (mode : ApiMode) {m1 : MemObj} {desc : ImageDesc}
    (stored : StoredImage m1 desc) (sizes : desc.ExtentsSizeT) {origin region : Triple}
    (starts : SizeT origin.x ∧ SizeT origin.y ∧ SizeT origin.z)
    (lengths : SizeT region.x ∧ SizeT region.y ∧ SizeT region.z) :
    ∀ a ∈ transferAxes mode m1 desc origin region, a.Proper := by
  have one : SizeT 1 := by unfold SizeT; decide
  have reduced : ∀ n, SizeT (u64 n) := fun n => Nat.mod_lt _ (by decide)
  obtain ⟨-, sameType, extents⟩ := stored
  obtain ⟨width, height, depth, arraySize⟩ := sizes
  simp only [Prod.mk.injEq] at extents
  obtain ⟨storedWidth, storedHeight, storedDepth, storedArray⟩ := extents
  intro a mem
  simp only [transferAxes, List.mem_cons, List.not_mem_nil, or_false] at mem
  cases canary : m1.hasCanary <;> cases access : mode.canaryAccess <;>
    cases type : desc.imageType <;>
    rcases mem with rfl | rfl | rfl <;> constructor <;>
    simp_all [visibleBox, canariesHidden, ImageType.lacksY, ImageType.lacksZ, imageBox,
      standardDesc, expandLastDimForFill, ImageDesc.toSizeT]

/-- A transfer leaves the visible box along an axis. -/
theorem not_transferInside_iff {mode : ApiMode} {m1 : MemObj} {desc : ImageDesc}
    {origin region : Triple} :
    ¬ TransferInside (visibleBox mode m1 desc) origin region ↔
      ∃ a ∈ transferAxes mode m1 desc origin region, a.Outside := by
  simp only [TransferInside, rangeInside_iff, transferAxes, List.mem_cons, List.not_mem_nil,
    or_false, exists_eq_or_imp, exists_eq_left, TransferAxis.Outside]
  omega

/-- What the check decides. -/
theorem apiImageOverflowCheck_isSome {mode : ApiMode} {w : Wrapper} {image : Handle} {m1 : MemObj}
    {desc : ImageDesc} {origin region : Triple} (enabled : mode.disableApiCheck = false)
    (tracked : w.table.find image = some m1) (stored : StoredImage m1 desc)
    (sizes : desc.ExtentsSizeT) :
    (apiImageOverflowCheck mode w image origin region).isSome ↔
      ∃ a ∈ transferAxes mode m1 desc origin region, a.Caught := by
  have lens := visibleLens_eq mode stored sizes origin region
  simp only [transferAxes, List.map_cons, List.map_nil, List.cons.injEq, and_true] at lens
  obtain ⟨lenX, lenY, lenZ⟩ := lens
  simp only [transferAxes, List.mem_cons, List.not_mem_nil, or_false, exists_eq_or_imp,
    exists_eq_left, TransferAxis.Caught, ← lenX, ← lenY, ← lenZ, apiImageOverflowCheck, enabled,
    tracked, stored.isImage, Bool.false_eq_true, if_false, if_true, gt_iff_lt]
  split_ifs with past third second <;> simp_all

/-- The image check is exact exactly where no axis is missed or some other axis
gives the transfer away. -/
theorem image_check_exact_iff {mode : ApiMode} {w : Wrapper} {image : Handle} {m1 : MemObj}
    {desc : ImageDesc} {origin region : Triple} (enabled : mode.disableApiCheck = false)
    (tracked : w.table.find image = some m1) (stored : StoredImage m1 desc)
    (sizes : desc.ExtentsSizeT) (starts : SizeT origin.x ∧ SizeT origin.y ∧ SizeT origin.z)
    (lengths : SizeT region.x ∧ SizeT region.y ∧ SizeT region.z) :
    ((apiImageOverflowCheck mode w image origin region).isSome ↔
        ¬ TransferInside (visibleBox mode m1 desc) origin region) ↔
      (∀ a ∈ transferAxes mode m1 desc origin region, ¬ a.Missed) ∨
        ∃ a ∈ transferAxes mode m1 desc origin region, a.Outside ∧ ¬ a.Missed := by
  have proper := transferAxes_proper mode stored sizes starts lengths
  rw [apiImageOverflowCheck_isSome enabled tracked stored sizes, not_transferInside_iff]
  constructor
  · intro exact
    by_cases caught : ∃ a ∈ transferAxes mode m1 desc origin region, a.Caught
    · obtain ⟨a, mem, reported⟩ := caught
      exact Or.inr ⟨a, mem, (TransferAxis.caught_iff (proper a mem)).mp reported⟩
    · exact Or.inl fun a mem missed =>
        caught (exact.mpr ⟨a, mem, TransferAxis.outside_of_missed (proper a mem) missed⟩)
  · rintro (clear | ⟨a, mem, outside⟩)
    · constructor
      · rintro ⟨a, mem, reported⟩
        exact ⟨a, mem, ((TransferAxis.caught_iff (proper a mem)).mp reported).1⟩
      · rintro ⟨a, mem, outside⟩
        exact ⟨a, mem, (TransferAxis.caught_iff (proper a mem)).mpr ⟨outside, clear a mem⟩⟩
    · exact iff_of_true ⟨a, mem, (TransferAxis.caught_iff (proper a mem)).mpr outside⟩
        ⟨a, mem, outside.1⟩

/-- A description keeps what the check reads of another one. -/
structure KeepsExtents (m m' : MemObj) : Prop where
  isImage : m'.isImage = m.isImage
  hasCanary : m'.hasCanary = m.hasCanary
  imageType : m'.imageDesc.imageType = m.imageDesc.imageType
  extents : (m'.imageDesc.imageWidth, m'.imageDesc.imageHeight, m'.imageDesc.imageDepth,
      m'.imageDesc.imageArraySize) =
    (m.imageDesc.imageWidth, m.imageDesc.imageHeight, m.imageDesc.imageDepth,
      m.imageDesc.imageArraySize)

theorem StoredImage.of_keeps {m m' : MemObj} {desc : ImageDesc} (stored : StoredImage m desc)
    (keeps : KeepsExtents m m') : StoredImage m' desc where
  isImage := by rw [keeps.isImage, stored.isImage]
  imageType := by rw [keeps.imageType, stored.imageType]
  extents := by rw [keeps.extents, stored.extents, keeps.hasCanary]

/-- The extents of images. -/
inductive ImageDim where
  | width
  | height
  | depth
  | arraySize
deriving DecidableEq, Repr

/-- The extents of an image type. -/
def ImageType.Has : ImageType → ImageDim → Prop
  | _, .width => True
  | .image2D, .height | .image2DArray, .height | .image3D, .height => True
  | .image3D, .depth => True
  | .image1DArray, .arraySize | .image2DArray, .arraySize => True
  | _, _ => False

instance (type : ImageType) (dim : ImageDim) : Decidable (type.Has dim) := by
  cases type <;> cases dim <;> unfold ImageType.Has <;> infer_instance

/-- An extent of a descriptor. -/
def ImageDesc.extent (desc : ImageDesc) : ImageDim → Nat
  | .width => desc.imageWidth
  | .height => desc.imageHeight
  | .depth => desc.imageDepth
  | .arraySize => desc.imageArraySize

/-- There is room for the canaries in the `size_t` extents. -/
def ImageDesc.ExpandsInSizeT (desc : ImageDesc) : Prop :=
  ∀ dim, desc.imageType.Has dim → SizeT (desc.extent dim + 16)

/-- The descriptions of the image creations before they reach the runtime. -/
theorem storedImage_temp (context : Handle) (flags : MemFlags) (format : ImageFormat)
    (desc : ImageDesc) : StoredImage (imageTemp context flags format desc) desc where
  isImage := rfl
  imageType := standardDesc_imageType desc
  extents := rfl

theorem storedImage_expand {context : Handle} {flags flags' : MemFlags} {format : ImageFormat}
    {desc : ImageDesc} (fits : desc.ExpandsInSizeT) :
    StoredImage
      { expandImage (imageTemp context flags format desc) with flags := flags', hasCanary := true }
      desc := by
  refine ⟨rfl, by simp [expandImage, imageTemp], ?_⟩
  have small : ∀ dim, desc.imageType.Has dim → u64 (desc.extent dim + 16) = desc.extent dim + 16 :=
    fun dim has => u64_of_lt (fits dim has)
  have width : desc.imageType.Has .width → u64 (desc.imageWidth + 16) = desc.imageWidth + 16 :=
    small .width
  have height : desc.imageType.Has .height → u64 (desc.imageHeight + 16) = desc.imageHeight + 16 :=
    small .height
  have depth : desc.imageType.Has .depth → u64 (desc.imageDepth + 16) = desc.imageDepth + 16 :=
    small .depth
  have arraySize : desc.imageType.Has .arraySize →
      u64 (desc.imageArraySize + 16) = desc.imageArraySize + 16 := small .arraySize
  have one : u64 1 = 1 := by decide
  cases type : desc.imageType <;>
    simp only [type, ImageType.Has, true_implies, false_implies] at width height depth arraySize <;>
    simp [expandImage, imageTemp, expandLastDimForFill, standardDesc, ImageDesc.toSizeT, type,
      IMAGE_POISON_WIDTH, IMAGE_POISON_HEIGHT, IMAGE_POISON_DEPTH, one, width, height, depth,
      arraySize]

/-- The runtime's part of a creation changes the handle and the flags only. -/
theorem createImageObject_keeps {env : Env} {rt : Runtime} {temp : MemObj} {passed : ImageDesc}
    {fillPtr : Option HostArea} {keepStatus : Bool} {c : ImageCreation}
    (made : createImageObject env rt temp passed fillPtr keepStatus = some c) :
    KeepsExtents temp c.temp := by
  unfold createImageObject at made
  dsimp only at made
  by_cases copies : temp.flags.copyHostPtr = true
  · rw [if_pos copies] at made
    split_ifs at made
    all_goals first
      | cases made; exact ⟨rfl, rfl, rfl, rfl⟩
      | obtain ⟨rt', -, made⟩ := Option.bind_eq_some_iff.mp made
        cases made
        exact ⟨rfl, rfl, rfl, rfl⟩
  · rw [if_neg copies] at made
    cases made
    exact ⟨rfl, rfl, rfl, rfl⟩

/-- Every image creation enters a description that stores the extents. -/
theorem createImageCommon_stores {env : Env} {w w' : Wrapper} {context : Handle} {flags : MemFlags}
    {format : ImageFormat} {desc : ImageDesc} {hostPtr : Nat} {plain keepStatus : Bool}
    {canaried : MemObj → MemObj} {passed : MemObj → ImageDesc} {ret : Handle} {status : ClStatus}
    (fits : desc.ExpandsInSizeT) (keeps : ∀ temp, KeepsExtents temp (canaried temp))
    (created : createImageCommon env w flags (imageTemp context flags format desc) hostPtr plain
      keepStatus canaried passed = some (ret, status, w')) :
    ∃ m1, StoredImage m1 desc ∧ w'.table = clMemInsert w.table m1 := by
  unfold createImageCommon at created
  dsimp only at created
  cases plain with
  | true =>
      rw [if_pos rfl] at created
      obtain ⟨c, object, entered⟩ := Option.map_eq_some_iff.mp created
      have stored := (storedImage_temp context flags format desc).of_keeps
        (createImageObject_keeps object)
      simp only [enterImage, Prod.mk.injEq] at entered
      obtain ⟨-, -, rfl⟩ := entered
      refine ⟨_, ?_, rfl⟩
      exact stored.of_keeps ⟨rfl, rfl, rfl, rfl⟩
  | false =>
      rw [if_neg (by simp)] at created
      obtain ⟨fillPtr, -, created⟩ := Option.bind_eq_some_iff.mp created
      obtain ⟨c, object, entered⟩ := Option.map_eq_some_iff.mp created
      have stored := ((storedImage_expand fits).of_keeps (keeps _)).of_keeps
        (createImageObject_keeps object)
      simp only [enterImage, Prod.mk.injEq] at entered
      obtain ⟨-, -, rfl⟩ := entered
      refine ⟨_, ?_, rfl⟩
      exact stored.of_keeps ⟨rfl, rfl, rfl, rfl⟩

/-- A process that tracks one image. -/
def oneImage (m1 : MemObj) : Wrapper :=
  { Wrapper.initial (fun _ => 0) false with table := Table.insert Table.empty 1 m1 }

/-- An image of sixteen pixels with its canaries. -/
def expandedSquare : MemObj :=
  { handle := 1
    isImage := true
    hasCanary := true
    imageDesc := ⟨.image2D, 20, 20, 1, 1, 0, 0, 0, 0, NULL⟩ }

theorem storedImage_expandedSquare :
    StoredImage expandedSquare ⟨.image2D, 4, 4, 1, 1, 0, 0, 0, 0, NULL⟩ :=
  ⟨rfl, rfl, rfl⟩

/-- Four of its pixels. -/
theorem image_check_exact_square :
    ((apiImageOverflowCheck ⟨false, false⟩ (oneImage expandedSquare) 1 ⟨1, 1, 0⟩
          ⟨2, 2, 1⟩).isSome ↔
        ¬ TransferInside
          (visibleBox ⟨false, false⟩ expandedSquare ⟨.image2D, 4, 4, 1, 1, 0, 0, 0, 0, NULL⟩)
          ⟨1, 1, 0⟩ ⟨2, 2, 1⟩) ↔
      (∀ a ∈ transferAxes ⟨false, false⟩ expandedSquare ⟨.image2D, 4, 4, 1, 1, 0, 0, 0, 0, NULL⟩
          ⟨1, 1, 0⟩ ⟨2, 2, 1⟩, ¬ a.Missed) ∨
        ∃ a ∈ transferAxes ⟨false, false⟩ expandedSquare ⟨.image2D, 4, 4, 1, 1, 0, 0, 0, 0, NULL⟩
          ⟨1, 1, 0⟩ ⟨2, 2, 1⟩, a.Outside ∧ ¬ a.Missed := by
  refine image_check_exact_iff rfl (Table.find_insert_fresh rfl) storedImage_expandedSquare
    ?_ ?_ ?_
  · constructor <;> unfold SizeT <;> decide
  · unfold SizeT
    decide
  · unfold SizeT
    decide

/-- Slice five of a 2D image is let through: sixteen is taken off its depth, which
is one. -/
theorem image_check_misses_slice :
    apiImageOverflowCheck ⟨false, false⟩ (oneImage expandedSquare) 1 ⟨0, 0, 5⟩ ⟨1, 1, 1⟩ = none ∧
      StoredImage expandedSquare ⟨.image2D, 4, 4, 1, 1, 0, 0, 0, 0, NULL⟩ ∧
      ¬ TransferInside
        (visibleBox ⟨false, false⟩ expandedSquare ⟨.image2D, 4, 4, 1, 1, 0, 0, 0, 0, NULL⟩)
        ⟨0, 0, 5⟩ ⟨1, 1, 1⟩ := by
  refine ⟨by decide, storedImage_expandedSquare, fun inside => ?_⟩
  have depth := rangeInside_iff.mp inside.2.2
  exact absurd depth (by decide)

end Clarmor
