import Clarmor.Api.Images
import Clarmor.Wrapper.Placement

/-!
# The limit of allocations

For `CL_DEVICE_MAX_MEM_ALLOC_SIZE` the wrapper counts the slices of the greatest width and
height that one allocation holds, and takes the canaries off all three extents.  There may
be fewer slices than canary slices.
-/

namespace Clarmor

open Word

namespace Device

/-- The limits that the reported size depends on. -/
def maxAlloc (device : Device) : Nat := device.value .maxMemAllocSize

/-- `CL_DEVICE_IMAGE3D_MAX_WIDTH` of the device. -/
def maxWidth (device : Device) : Nat := device.value .image3DMaxWidth

/-- `CL_DEVICE_IMAGE3D_MAX_HEIGHT` of the device. -/
def maxHeight (device : Device) : Nat := device.value .image3DMaxHeight

/-- The slices of the greatest width and height in one allocation. -/
def slices (device : Device) : Nat := device.maxAlloc / (device.maxWidth * device.maxHeight)

/-- The reported size is a lower bound of the device's own, also with the canaries of a
buffer, and the subtractions on the way to it are exact. -/
structure ReportsLowerBound (device : Device) (v : Nat) : Prop where
  reported : clGetDeviceInfo device .maxMemAllocSize = some v
  le : v ≤ device.maxAlloc
  leWithCanaries : 0 < v → v + POISON_REGIONS * POISON_FILL_LENGTH ≤ device.maxAlloc
  noWrap : IMAGE_POISON_WIDTH ≤ device.maxWidth ∧ IMAGE_POISON_HEIGHT ≤ device.maxHeight ∧
    IMAGE_POISON_DEPTH ≤ device.slices

/-- There are as many slices as canary slices.  Where there are more, the canaries around
a whole image and the rest of the allocation come to two canaries of a buffer. -/
def EnoughSlices (device : Device) : Prop :=
  let a := device.maxWidth - IMAGE_POISON_WIDTH
  let b := device.maxHeight - IMAGE_POISON_HEIGHT
  let c := device.slices - IMAGE_POISON_DEPTH
  IMAGE_POISON_DEPTH ≤ device.slices ∧
    (c = 0 ∨ 4096 ≤ 16 * (a * b + a * c + b * c) + 256 * (a + b + c) +
      device.maxAlloc % (device.maxWidth * device.maxHeight))

end Device

variable {device : Device}

/-- An allocation of whole slices and a rest, with the canaries of an image taken apart. -/
theorem alloc_eq (a b c r : Nat) :
    (a + 16) * (b + 16) * (c + 16) + r =
      a * b * c + (16 * (a * b + a * c + b * c) + 256 * (a + b + c) + r) + 4096 := by
  ring

/-- What the wrapper reports when the product of the limits does not wrap. -/
theorem clGetDeviceInfo_maxMemAllocSize (images : device.imageSupport = true)
    (wide : 16 < device.maxWidth) (high : 16 < device.maxHeight)
    (noWrap : SizeT (device.maxWidth * device.maxHeight)) :
    clGetDeviceInfo device .maxMemAllocSize =
      some (u64 ((device.maxWidth - 16) * (device.maxHeight - 16) *
        sub64 device.slices 16)) := by
  have product : u64 (device.value .image3DMaxWidth * device.value .image3DMaxHeight) =
      device.maxWidth * device.maxHeight := u64_of_lt noWrap
  have pos : device.maxWidth * device.maxHeight ≠ 0 :=
    (Nat.mul_pos (by omega) (by omega)).ne'
  rw [clGetDeviceInfo]
  simp only [images, if_true, product, if_neg pos, IMAGE_POISON_WIDTH, IMAGE_POISON_HEIGHT,
    IMAGE_POISON_DEPTH]
  rw [sub64_of_le (device.valueLt _) (Nat.le_of_lt wide),
    sub64_of_le (device.valueLt _) (Nat.le_of_lt high)]
  rfl

/-- With enough slices nothing wraps. -/
theorem clGetDeviceInfo_of_slices (images : device.imageSupport = true)
    (wide : 16 < device.maxWidth) (high : 16 < device.maxHeight)
    (noWrap : SizeT (device.maxWidth * device.maxHeight)) (enough : 16 ≤ device.slices) :
    clGetDeviceInfo device .maxMemAllocSize =
      some ((device.maxWidth - 16) * (device.maxHeight - 16) * (device.slices - 16)) := by
  have whole : device.maxWidth * device.maxHeight * device.slices ≤ device.maxAlloc :=
    Nat.mul_div_le _ _
  have allocLt : device.maxAlloc < 18446744073709551616 := device.valueLt _
  have slicesLe : device.slices ≤ device.maxAlloc := Nat.div_le_self _ _
  have less : (device.maxWidth - 16) * (device.maxHeight - 16) * (device.slices - 16) ≤
      device.maxWidth * device.maxHeight * device.slices :=
    Nat.mul_le_mul (Nat.mul_le_mul (Nat.sub_le _ _) (Nat.sub_le _ _)) (Nat.sub_le _ _)
  rw [clGetDeviceInfo_maxMemAllocSize images wide high noWrap,
    sub64_of_le (by omega) enough, u64_of_lt (by omega)]

/-- The reported size is a safe lower bound exactly when there are enough slices. -/
theorem reportsLowerBound_iff (images : device.imageSupport = true)
    (wide : 16 < device.maxWidth) (high : 16 < device.maxHeight)
    (noWrap : SizeT (device.maxWidth * device.maxHeight)) :
    (∃ v, device.ReportsLowerBound v) ↔ device.EnoughSlices := by
  obtain ⟨a, aEq⟩ := Nat.exists_eq_add_of_le' (Nat.le_of_lt wide)
  obtain ⟨b, bEq⟩ := Nat.exists_eq_add_of_le' (Nat.le_of_lt high)
  have parts : device.maxWidth * device.maxHeight * device.slices +
      device.maxAlloc % (device.maxWidth * device.maxHeight) = device.maxAlloc :=
    Nat.div_add_mod _ _
  have reported := clGetDeviceInfo_of_slices images wide high noWrap
  constructor
  · rintro ⟨v, bound⟩
    have enough : 16 ≤ device.slices := bound.noWrap.2.2
    obtain ⟨c, cEq⟩ := Nat.exists_eq_add_of_le' enough
    refine ⟨enough, ?_⟩
    rw [or_iff_not_imp_left]
    intro more
    have value := Option.some.inj ((reported enough).symm.trans bound.reported)
    have roomy := bound.leWithCanaries
    simp only [aEq, bEq, cEq, Nat.add_sub_cancel, IMAGE_POISON_WIDTH, IMAGE_POISON_HEIGHT,
      IMAGE_POISON_DEPTH] at value more parts ⊢
    have positive : 0 < v := value ▸ Nat.mul_pos (Nat.mul_pos (by omega) (by omega)) (by omega)
    have fits := roomy positive
    rw [← parts, alloc_eq, ← value, POISON_REGIONS, POISON_FILL_LENGTH] at fits
    omega
  · rintro ⟨enough, room⟩
    obtain ⟨c, cEq⟩ := Nat.exists_eq_add_of_le' enough
    simp only [aEq, bEq, cEq, Nat.add_sub_cancel, IMAGE_POISON_WIDTH, IMAGE_POISON_HEIGHT,
      IMAGE_POISON_DEPTH] at reported room parts
    rw [alloc_eq] at parts
    refine ⟨a * b * c, reported (Nat.le_add_left _ _), by omega, fun positive => ?_,
      Nat.le_of_lt wide, Nat.le_of_lt high, enough⟩
    rcases room with noMore | room
    · rw [noMore, Nat.mul_zero] at positive
      contradiction
    · rw [POISON_REGIONS, POISON_FILL_LENGTH]
      omega

/-- The backing buffer of a buffer with the reported size stays within the limit of the
device. -/
theorem backing_le_maxAlloc {v : Nat} (bound : device.ReportsLowerBound v) {env : Env}
    {w w' : Wrapper} {context handle : Handle} {flags : MemFlags} {hostPtr : Nat}
    {err : ClStatus} (own : flags.useHostPtr = false) (handed : handle ≠ NULL)
    (made : clCreateBuffer env w context flags v hostPtr = some (handle, err, w')) :
    ∃ mainBuff sizeAug data, OwnBacking w.rt w'.rt handle mainBuff context v sizeAug data ∧
      sizeAug ≤ device.maxAlloc := by
  rcases clCreateBuffer_cases made with ⟨null, -⟩ | ⟨plain, -⟩ | ⟨-, main, fillPtr, -, backed, -⟩
  · exact absurd null handed
  · simp [own] at plain
  · have positive : 0 < v := by
      by_contra zero
      rw [clCreateBuffer, if_pos (by omega)] at made
      exact handed (Prod.mk.inj (Option.some.inj made)).1.symm
    have fits := bound.leWithCanaries positive
    have allocLt : device.maxAlloc < 18446744073709551616 := device.valueLt _
    refine ⟨main, _, _, backed, ?_⟩
    rw [u64_of_lt (by omega)]
    exact fits

/-- A device with one limit for extents. -/
def imageDevice (alloc extent : Nat) (allocLt : SizeT alloc) (extentLt : SizeT extent) :
    Device where
  imageSupport := true
  value
    | .maxMemAllocSize => alloc
    | _ => extent
  valueLt p := by
    cases p <;> assumption
  noImages := nofun

theorem imageDevice_slices {alloc extent : Nat} (allocLt : SizeT alloc)
    (extentLt : SizeT extent) :
    (imageDevice alloc extent allocLt extentLt).slices = alloc / (extent * extent) :=
  rfl

/-- A gibibyte holds 256 slices of 2048 by 2048. -/
theorem reportsLowerBound_iff_gibibyte :
    (∃ v, (imageDevice 1073741824 2048 (by unfold SizeT; decide)
        (by unfold SizeT; decide)).ReportsLowerBound v) ↔
      (imageDevice 1073741824 2048 (by unfold SizeT; decide)
        (by unfold SizeT; decide)).EnoughSlices :=
  reportsLowerBound_iff rfl (by decide : 16 < 2048) (by decide : 16 < 2048)
    (by decide : 2048 * 2048 < 18446744073709551616)

/-- An allocation of fifteen slices and a rest is reported as one of almost `2 ^ 64` bytes,
and one of seventeen small slices as one with no room for canaries. -/
theorem not_reportsLowerBound :
    clGetDeviceInfo (imageDevice 4294967295 16384 (by unfold SizeT; decide)
        (by unfold SizeT; decide)) .maxMemAllocSize = some 18446744073441640192 ∧
      clGetDeviceInfo (imageDevice 4913 17 (by unfold SizeT; decide)
        (by unfold SizeT; decide)) .maxMemAllocSize = some 1 ∧
      (¬ ∃ v, (imageDevice 4294967295 16384 (by unfold SizeT; decide)
        (by unfold SizeT; decide)).ReportsLowerBound v) ∧
      ¬ ∃ v, (imageDevice 4913 17 (by unfold SizeT; decide)
        (by unfold SizeT; decide)).ReportsLowerBound v := by
  have small : clGetDeviceInfo (imageDevice 4913 17 (by unfold SizeT; decide)
      (by unfold SizeT; decide)) .maxMemAllocSize = some 1 := by decide
  refine ⟨by decide, small, ?_, ?_⟩
  · rintro ⟨v, bound⟩
    have enough := bound.noWrap.2.2
    rw [imageDevice_slices, IMAGE_POISON_DEPTH] at enough
    omega
  · rintro ⟨v, bound⟩
    have one : 1 = v := Option.some.inj (small.symm.trans bound.reported)
    have fits := bound.leWithCanaries (by omega)
    rw [← one] at fits
    exact absurd fits (by decide)

end Clarmor
