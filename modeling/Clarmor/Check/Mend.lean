import Clarmor.Image.Canary
import Clarmor.Library.Loop
import Clarmor.Wrapper.MemObjects

/-!
# Addressing and repairing canaries

The host check, the copying check on the device and the repair each compute
where the two canary regions of a buffer lie from the size that the application
asked for.
-/

namespace Clarmor

open Word Store

/-- One copy of a canary region to a scratch array. -/
structure RegionCopy where
  src : Nat
  dst : Nat
  len : Nat
deriving DecidableEq, Repr

/-- The bytes that a copy reads, as start and length. -/
def RegionCopy.source (c : RegionCopy) : Nat × Nat := (c.src, c.len)

/-- The reads that `read_cl_mem_canaries` issues for the `i`-th buffer. -/
def readClMemRegions (i : Nat) (m1 : MemObj) : List RegionCopy :=
  let thisCanary := u32 (i * POISON_REGIONS * POISON_FILL_LENGTH)
  [⟨0, thisCanary, POISON_FILL_LENGTH⟩,
    ⟨canaryOffset m1.size, thisCanary + POISON_FILL_LENGTH, POISON_FILL_LENGTH⟩]

/-- The copies that `create_clmem_copies` issues for the `i`-th buffer. -/
def copyClMemRegions (i : Nat) (m1 : MemObj) : List RegionCopy :=
  let index := u32 (i * POISON_REGIONS)
  [⟨0, u32 (index * POISON_FILL_LENGTH), POISON_FILL_LENGTH⟩,
    ⟨canaryOffset m1.size, u32 (u32 (index + 1) * POISON_FILL_LENGTH), POISON_FILL_LENGTH⟩]

/-- The ranges that `mendCanaryRegion` fills in an object of this size. -/
def mendRegions (size : Nat) : List (Nat × Nat) :=
  [(canaryOffset size, POISON_FILL_LENGTH), (0, POISON_FILL_LENGTH)]

/-! ## Repair -/

/-- `EnqueueWriteImage` from an array; a null or short array is a fault. -/
def writeImageFrom (rt : Runtime) (img : MemObj) (box : Box) (src : Option (Block UInt8)) :
    Option Runtime :=
  src.bind fun poison =>
    if box.volume * getImageDataSize img.imageFormat ≤ poison.len then
      rt.writeImage img.handle box poison.get
    else none

/-- `poisonFillImageCanaries`.  The arrays hold the largest pixels. -/
def poisonFillImageCanaries (rt : Runtime) (img : MemObj) : Option Runtime :=
  let s := getImageDimensions .machine img.imageDesc
  if getImageDataSize img.imageFormat = 0 then some rt
  else
    let len := 16
    let firstPoison := some (Block.replicate (len * IMAGE_POISON_WIDTH) POISON_FILL)
    let secondPoison :=
      if s.jLim > 1 ∧ s.iLim > 0 then
        some (Block.replicate (u32 (len * s.iLim * IMAGE_POISON_HEIGHT)) POISON_FILL)
      else none
    let thirdPoison :=
      if s.kLim > 1 ∧ s.jLim > 0 ∧ s.iLim > 0 then
        some (Block.replicate (u32 (len * s.iLim * s.jLim * IMAGE_POISON_DEPTH)) POISON_FILL)
      else none
    (Loop.loop s.kDat (fun k rt =>
      (if s.iLim > 1 then
        Loop.loop s.jDat (fun j rt => writeImageFrom rt img (endOfRow s j k) firstPoison) rt
      else some rt).bind fun rt =>
      if s.jLim > 1 ∧ s.iLim > 0 then writeImageFrom rt img (endOfSlice s k) secondPoison
      else some rt) rt).bind fun rt =>
    if s.kLim > 1 ∧ s.jLim > 0 ∧ s.iLim > 0 then
      writeImageFrom rt img (canarySlice s) thirdPoison
    else some rt

/-- Fill ranges of a buffer with the canary byte. -/
def fillRegions (rt : Runtime) (handle : Handle) (regions : List (Nat × Nat)) : Option Runtime :=
  regions.foldlM (fun rt r => rt.fillBuffer handle POISON_FILL r.1 r.2) rt

/-- `mendCanaryRegion`: what it does to the memory of the object. -/
def mendCanaryRegion (w : Wrapper) (buffer : Handle) : Option Wrapper :=
  match w.table.find buffer with
  | some m1 =>
      (if m1.isImage then poisonFillImageCanaries w.rt m1
        else fillRegions w.rt m1.mainBuff (mendRegions m1.size)).map fun rt =>
      { w with rt := rt }
  | none =>
      match clSvmMemFind w.svm buffer with
      | some m2 =>
          some { w with
            host := (mendRegions m2.size).foldl
              (fun host r => fill host (m2.mainBuff + r.1) r.2 POISON_FILL) w.host }
      | none => some w

/-! ## The offset of the second region -/

/-- The canary behind the data of a buffer of this size. -/
def canaryRanges (size : Nat) : List (Nat × Nat) :=
  [(0, POISON_FILL_LENGTH), (POISON_FILL_LENGTH + size, POISON_FILL_LENGTH)]

theorem canaryOffset_eq_iff {size : Nat} :
    canaryOffset size = POISON_FILL_LENGTH + size ↔ size + 4096 < 4294967296 := by
  rw [canaryOffset, u32_u32_add, Nat.add_comm POISON_FILL_LENGTH size]
  exact u32_eq_self_iff

/-- The second region never reaches past the backing buffer. -/
theorem canaryOffset_le (size : Nat) : canaryOffset size ≤ size + POISON_FILL_LENGTH := by
  rw [canaryOffset, u32_u32_add]
  exact u32_le _

theorem map_source_readClMemRegions (i : Nat) (m1 : MemObj) :
    (readClMemRegions i m1).map RegionCopy.source =
      [(0, POISON_FILL_LENGTH), (canaryOffset m1.size, POISON_FILL_LENGTH)] :=
  rfl

theorem map_source_copyClMemRegions (i : Nat) (m1 : MemObj) :
    (copyClMemRegions i m1).map RegionCopy.source =
      [(0, POISON_FILL_LENGTH), (canaryOffset m1.size, POISON_FILL_LENGTH)] :=
  rfl

end Clarmor
