import Clarmor.Wrapper.MemObjects

/-!
# Range checks of buffer transfers

The intercepted transfers check the range they touch against the size in the
table before they call the runtime.  A check returns the byte that it reports,
or nothing when it lets the transfer through.  Sizes and offsets are `size_t`
values, and the sums of the checks are 64 bits wide.
-/

namespace Clarmor

open Word

/-- What the checks depend on besides the table: the environment variable that
turns them off, and whether the detector itself is at work on the canaries. -/
structure ApiMode where
  disableApiCheck : Bool
  canaryAccess : Bool
deriving DecidableEq, Repr

/-- Values of a `size_t`. -/
def SizeT (n : Nat) : Prop := n < 18446744073709551616

/-- `apiBufferOverflowCheck`. -/
def apiBufferOverflowCheck (mode : ApiMode) (w : Wrapper) (buffer : Handle) (offset size : Nat) :
    Option Nat :=
  if mode.disableApiCheck then none
  else
    match w.table.find buffer with
    | none => none
    | some m1 =>
        if u64 (offset + size) > m1.size then
          some (u32 (if offset > m1.size then offset - m1.size else 0))
        else none

/-- Three components of an origin or a region. -/
structure Triple where
  x : Nat
  y : Nat
  z : Nat
deriving DecidableEq, Repr

/-- `apiBufferRectOverflowCheck`. -/
def apiBufferRectOverflowCheck (mode : ApiMode) (w : Wrapper) (buffer : Handle)
    (bufferOffset region : Triple) (rowPitch slicePitch : Nat) : Option Nat :=
  if mode.disableApiCheck then none
  else
    match w.table.find buffer with
    | none => none
    | some m1 =>
        let rowPitch := if rowPitch = 0 then region.x else rowPitch
        let slicePitch := if slicePitch = 0 then u64 (rowPitch * region.y) else slicePitch
        let bOff := u64 (bufferOffset.x + bufferOffset.y * rowPitch + bufferOffset.z * slicePitch)
        let bEnd := u64 (region.x * region.y * region.z + bOff)
        if bEnd > m1.size then some (u32 (if bOff > m1.size then bOff - m1.size else 0))
        else none

/-- The calls that reach the runtime. -/
inductive RealTransfer where
  | readBuffer (buffer : Handle) (offset size : Nat)
  | writeBuffer (buffer : Handle) (offset size : Nat)
  | fillBuffer (buffer : Handle) (pattern : List UInt8) (offset size : Nat)
  | copyBuffer (src dst : Handle) (srcOffset dstOffset size : Nat)
deriving DecidableEq, Repr

section Enqueue

variable (mode : ApiMode) (w : Wrapper)

/-- `clEnqueueReadBuffer`. -/
def clEnqueueReadBuffer (buffer : Handle) (offset size : Nat) : Option RealTransfer :=
  if (apiBufferOverflowCheck mode w buffer offset size).isSome then none
  else some (.readBuffer buffer offset size)

/-- `clEnqueueWriteBuffer`. -/
def clEnqueueWriteBuffer (buffer : Handle) (offset size : Nat) : Option RealTransfer :=
  if (apiBufferOverflowCheck mode w buffer offset size).isSome then none
  else some (.writeBuffer buffer offset size)

/-- `clEnqueueFillBuffer`. -/
def clEnqueueFillBuffer (buffer : Handle) (pattern : List UInt8) (offset size : Nat) :
    Option RealTransfer :=
  if (apiBufferOverflowCheck mode w buffer offset size).isSome then none
  else some (.fillBuffer buffer pattern offset size)

/-- `clEnqueueCopyBuffer`; the second check is made after the first passed. -/
def clEnqueueCopyBuffer (src dst : Handle) (srcOffset dstOffset size : Nat) :
    Option RealTransfer :=
  if (apiBufferOverflowCheck mode w src srcOffset size).isSome then none
  else if (apiBufferOverflowCheck mode w dst dstOffset size).isSome then none
  else some (.copyBuffer src dst srcOffset dstOffset size)

end Enqueue

/-! ## Linear transfers -/

/-- The range starts in the buffer and each of its bytes is a byte of the buffer. -/
def RangeInside (s offset size : Nat) : Prop :=
  offset ≤ s ∧ ∀ a, offset ≤ a → a < offset + size → a < s

theorem rangeInside_iff {s offset size : Nat} : RangeInside s offset size ↔ offset + size ≤ s := by
  constructor
  · rintro ⟨start, bytes⟩
    by_contra outside
    exact absurd (bytes s start (by omega)) (lt_irrefl s)
  · intro inside
    exact ⟨by omega, fun a _ upper => by omega⟩

/-- The check of a range and the transfers of one range are exact. -/
structure LinearExact (mode : ApiMode) (w : Wrapper) (buffer : Handle) (s offset size : Nat) :
    Prop where
  check : (apiBufferOverflowCheck mode w buffer offset size).isSome ↔ s < offset + size
  read : clEnqueueReadBuffer mode w buffer offset size =
    some (.readBuffer buffer offset size) ↔ RangeInside s offset size
  write : clEnqueueWriteBuffer mode w buffer offset size =
    some (.writeBuffer buffer offset size) ↔ RangeInside s offset size
  fill : ∀ pattern, clEnqueueFillBuffer mode w buffer pattern offset size =
    some (.fillBuffer buffer pattern offset size) ↔ RangeInside s offset size

/-- A sum that does not wrap around, or still exceeds the size when it does. -/
def SumExceedsWhenWrapped (s offset size : Nat) : Prop :=
  offset + size < 18446744073709551616 ∨ s < offset + size - 18446744073709551616

/-- What the check decides. -/
theorem apiBufferOverflowCheck_isSome {mode : ApiMode} {w : Wrapper} {buffer : Handle} {m1 : MemObj}
    (offset size : Nat) (enabled : mode.disableApiCheck = false)
    (tracked : w.table.find buffer = some m1) :
    (apiBufferOverflowCheck mode w buffer offset size).isSome ↔ m1.size < u64 (offset + size) := by
  simp only [apiBufferOverflowCheck, enabled, tracked, Bool.false_eq_true, if_false, gt_iff_lt]
  split_ifs with exceeds <;> simp [exceeds]

theorem wrapped_iff {s offset size : Nat} (sLt : SizeT s) (offsetLt : SizeT offset)
    (sizeLt : SizeT size) :
    (s < u64 (offset + size) ↔ s < offset + size) ↔ SumExceedsWhenWrapped s offset size := by
  unfold SizeT at sLt offsetLt sizeLt
  unfold SumExceedsWhenWrapped
  by_cases small : offset + size < 18446744073709551616
  · rw [u64_of_lt small]
    simp [small]
  · have wrapped : u64 (offset + size) = offset + size - 18446744073709551616 := by
      unfold u64
      omega
    rw [wrapped]
    omega

/-- Once the check is exact, so are the transfers that it guards. -/
theorem linearExact_of_check {mode : ApiMode} {w : Wrapper} {buffer : Handle} {s offset size : Nat}
    (check : (apiBufferOverflowCheck mode w buffer offset size).isSome ↔ s < offset + size) :
    LinearExact mode w buffer s offset size := by
  refine ⟨check, ?_, ?_, fun pattern => ?_⟩
  · rw [rangeInside_iff, ← not_lt, ← check, clEnqueueReadBuffer]
    split_ifs with reported <;> simp [reported]
  · rw [rangeInside_iff, ← not_lt, ← check, clEnqueueWriteBuffer]
    split_ifs with reported <;> simp [reported]
  · rw [rangeInside_iff, ← not_lt, ← check, clEnqueueFillBuffer]
    split_ifs with reported <;> simp [reported]

theorem copy_of_checks {mode : ApiMode} {w : Wrapper} {src dst : Handle}
    {s s' srcOffset dstOffset size : Nat}
    (checkSrc : (apiBufferOverflowCheck mode w src srcOffset size).isSome ↔ s < srcOffset + size)
    (checkDst : (apiBufferOverflowCheck mode w dst dstOffset size).isSome ↔
      s' < dstOffset + size) :
    clEnqueueCopyBuffer mode w src dst srcOffset dstOffset size =
        some (.copyBuffer src dst srcOffset dstOffset size) ↔
      RangeInside s srcOffset size ∧ RangeInside s' dstOffset size := by
  rw [rangeInside_iff, rangeInside_iff, ← not_lt, ← not_lt, ← checkSrc, ← checkDst,
    clEnqueueCopyBuffer]
  split_ifs with reportedSrc reportedDst
  · simp [reportedSrc]
  · simp [reportedDst]
  · simp [reportedSrc, reportedDst]

/-- The linear checks and transfers are exact exactly where no sum wraps around to
a value inside the buffer. -/
theorem linear_transfers_exact_iff {mode : ApiMode} {w : Wrapper} {src dst : Handle}
    {m m' : MemObj} {srcOffset dstOffset size : Nat} (enabled : mode.disableApiCheck = false)
    (srcTracked : w.table.find src = some m) (dstTracked : w.table.find dst = some m')
    (srcSize : SizeT m.size) (dstSize : SizeT m'.size) (srcStart : SizeT srcOffset)
    (dstStart : SizeT dstOffset) (sizeLt : SizeT size) :
    (LinearExact mode w src m.size srcOffset size ∧ LinearExact mode w dst m'.size dstOffset size ∧
      (clEnqueueCopyBuffer mode w src dst srcOffset dstOffset size =
          some (.copyBuffer src dst srcOffset dstOffset size) ↔
        RangeInside m.size srcOffset size ∧ RangeInside m'.size dstOffset size)) ↔
      SumExceedsWhenWrapped m.size srcOffset size ∧
        SumExceedsWhenWrapped m'.size dstOffset size := by
  have srcCheck := apiBufferOverflowCheck_isSome srcOffset size enabled srcTracked
  have dstCheck := apiBufferOverflowCheck_isSome dstOffset size enabled dstTracked
  rw [← wrapped_iff srcSize srcStart sizeLt, ← wrapped_iff dstSize dstStart sizeLt]
  constructor
  · rintro ⟨srcExact, dstExact, -⟩
    exact ⟨srcCheck.symm.trans srcExact.check, dstCheck.symm.trans dstExact.check⟩
  · rintro ⟨srcSum, dstSum⟩
    have srcExact := srcCheck.trans srcSum
    have dstExact := dstCheck.trans dstSum
    exact ⟨linearExact_of_check srcExact, linearExact_of_check dstExact,
      copy_of_checks srcExact dstExact⟩

/-- A process that tracks one buffer. -/
def oneBuffer (s : Nat) : Wrapper :=
  { Wrapper.initial (fun _ => 0) false with
    table := Table.insert Table.empty 1 { handle := 1, size := s } }

theorem find_oneBuffer (s : Nat) :
    (oneBuffer s).table.find 1 = some { handle := 1, size := s } :=
  Table.find_insert_fresh rfl

/-- Ten bytes of a buffer of sixteen. -/
theorem linear_transfers_exact_ten :
    (LinearExact ⟨false, false⟩ (oneBuffer 16) 1 16 2 10 ∧
      LinearExact ⟨false, false⟩ (oneBuffer 16) 1 16 6 10 ∧
      (clEnqueueCopyBuffer ⟨false, false⟩ (oneBuffer 16) 1 1 2 6 10 =
          some (.copyBuffer 1 1 2 6 10) ↔
        RangeInside 16 2 10 ∧ RangeInside 16 6 10)) ↔
      SumExceedsWhenWrapped 16 2 10 ∧ SumExceedsWhenWrapped 16 6 10 :=
  linear_transfers_exact_iff rfl (find_oneBuffer 16) (find_oneBuffer 16)
    (by unfold SizeT; decide) (by unfold SizeT; decide) (by unfold SizeT; decide)
    (by unfold SizeT; decide) (by unfold SizeT; decide)

/-- Two bytes at the last address wrap around to one byte, which is let through. -/
theorem linear_check_wraps :
    apiBufferOverflowCheck ⟨false, false⟩ (oneBuffer 16) 1 18446744073709551615 2 = none ∧
      16 < 18446744073709551615 + 2 ∧
      clEnqueueReadBuffer ⟨false, false⟩ (oneBuffer 16) 1 18446744073709551615 2 =
        some (.readBuffer 1 18446744073709551615 2) ∧
      ¬ LinearExact ⟨false, false⟩ (oneBuffer 16) 1 16 18446744073709551615 2 := by
  refine ⟨rfl, by decide, rfl, fun exact => ?_⟩
  have reported := exact.check.mpr (by decide)
  exact absurd reported (by decide)

/-! ## Rectangular transfers -/

/-- The row pitch, with its default. -/
def rowPitchOf (region : Triple) (rowPitch : Nat) : Nat :=
  if rowPitch = 0 then region.x else rowPitch

/-- The slice pitch, with its default. -/
def slicePitchOf (region : Triple) (rowPitch slicePitch : Nat) : Nat :=
  if slicePitch = 0 then rowPitchOf region rowPitch * region.y else slicePitch

/-- The first byte of a rectangle. -/
def rectStart (origin region : Triple) (rowPitch slicePitch : Nat) : Nat :=
  origin.x + origin.y * rowPitchOf region rowPitch +
    origin.z * slicePitchOf region rowPitch slicePitch

/-- The bytes from the first to the last byte of a rectangle. -/
def rectSpan (region : Triple) (rowPitch slicePitch : Nat) : Nat :=
  (region.z - 1) * slicePitchOf region rowPitch slicePitch +
    (region.y - 1) * rowPitchOf region rowPitch + region.x

/-- The largest byte that a rectangle touches. -/
def rectLast (origin region : Triple) (rowPitch slicePitch : Nat) : Nat :=
  rectStart origin region rowPitch slicePitch + rectSpan region rowPitch slicePitch - 1

/-- The check of a rectangle in one buffer of size `s` is exact. -/
def RectExactAt (mode : ApiMode) (w : Wrapper) (buffer : Handle) (s : Nat) (origin region : Triple)
    (rowPitch slicePitch : Nat) : Prop :=
  (apiBufferRectOverflowCheck mode w buffer origin region rowPitch slicePitch).isSome ↔
    ¬ rectLast origin region rowPitch slicePitch < s

/-- The check of a rectangle is exact in every buffer. -/
def RectExact (mode : ApiMode) (origin region : Triple) (rowPitch slicePitch : Nat) : Prop :=
  ∀ w buffer m1, w.table.find buffer = some m1 → SizeT m1.size →
    RectExactAt mode w buffer m1.size origin region rowPitch slicePitch

/-- The end of the rectangle if its rows and slices left no gaps, as a `size_t`. -/
def gaplessEnd (origin region : Triple) (rowPitch slicePitch : Nat) : Nat :=
  u64 (region.x * region.y * region.z + rectStart origin region rowPitch slicePitch)

/-- The size `s` has room for the smaller of two ends, but not for the larger. -/
def Separates (s m n : Nat) : Prop := (m ≤ s ∧ s < n) ∨ (n ≤ s ∧ s < m)

/-- A rectangle that ends below `2 ^ 64` and spans as many bytes as it transfers:
its rows and slices leave no gaps. -/
def Packed (origin region : Triple) (rowPitch slicePitch : Nat) : Prop :=
  rectLast origin region rowPitch slicePitch + 1 < 18446744073709551616 ∧
    u64 (region.x * region.y * region.z) = rectSpan region rowPitch slicePitch

/-- The check looks at the gapless end. -/
theorem apiBufferRectOverflowCheck_isSome {mode : ApiMode} {w : Wrapper} {buffer : Handle}
    {m1 : MemObj} {origin region : Triple} {rowPitch slicePitch : Nat}
    (enabled : mode.disableApiCheck = false) (tracked : w.table.find buffer = some m1) :
    (apiBufferRectOverflowCheck mode w buffer origin region rowPitch slicePitch).isSome ↔
      m1.size < gaplessEnd origin region rowPitch slicePitch := by
  have same : ∀ r, u64 (origin.x + origin.y * r + origin.z *
      (if slicePitch = 0 then u64 (r * region.y) else slicePitch)) =
      u64 (origin.x + origin.y * r + origin.z *
        (if slicePitch = 0 then r * region.y else slicePitch)) := by
    intro r
    split_ifs
    · exact ((Nat.mod_modEq (r * region.y) _).mul_left origin.z).add_left _
    · rfl
  have reduced : ∀ m n, u64 (m + u64 n) = u64 (m + n) := fun m n =>
    (Nat.mod_modEq n _).add_left m
  simp only [apiBufferRectOverflowCheck, enabled, tracked, Bool.false_eq_true, if_false, same,
    reduced, gt_iff_lt, gaplessEnd, rectStart, slicePitchOf, rowPitchOf]
  split_ifs with exceeds <;> simp_all

/-- Adding the start of a rectangle to both sides keeps residues apart. -/
theorem u64_add_eq_iff {bytes start span : Nat} (small : start + span < 18446744073709551616) :
    u64 (bytes + start) = start + span ↔ u64 bytes = span := by
  have spanMod : u64 span = span := u64_of_lt (by omega)
  have endMod : u64 (span + start) = start + span := by
    rw [Nat.add_comm span start]
    exact u64_of_lt small
  constructor
  · intro equal
    have residues : u64 (bytes + start) = u64 (span + start) := by rw [equal, endMod]
    have cancelled : u64 bytes = u64 span := Nat.ModEq.add_right_cancel' start residues
    rw [cancelled, spanMod]
  · intro equal
    have residues : u64 bytes = u64 span := by rw [equal, spanMod]
    have added : u64 (bytes + start) = u64 (span + start) := Nat.ModEq.add_right start residues
    rw [added, endMod]

theorem rectLast_succ (origin : Triple) {region : Triple} (rowPitch slicePitch : Nat)
    (wide : 1 ≤ region.x) :
    rectLast origin region rowPitch slicePitch + 1 =
      rectStart origin region rowPitch slicePitch + rectSpan region rowPitch slicePitch := by
  have spanPos : 1 ≤ rectSpan region rowPitch slicePitch := by
    rw [rectSpan]
    omega
  rw [rectLast]
  omega

/-- In one buffer the check is wrong exactly when the size separates the gapless
end from the real one. -/
theorem rectExactAt_iff {mode : ApiMode} {w : Wrapper} {buffer : Handle} {m1 : MemObj}
    {origin region : Triple} {rowPitch slicePitch : Nat} (enabled : mode.disableApiCheck = false)
    (tracked : w.table.find buffer = some m1) :
    RectExactAt mode w buffer m1.size origin region rowPitch slicePitch ↔
      ¬ Separates m1.size (gaplessEnd origin region rowPitch slicePitch)
        (rectLast origin region rowPitch slicePitch + 1) := by
  rw [RectExactAt, apiBufferRectOverflowCheck_isSome enabled tracked, Separates]
  omega

/-- No size separates the two ends exactly when the rectangle is packed. -/
theorem rectExact_iff_packed {mode : ApiMode} {origin region : Triple} {rowPitch slicePitch : Nat}
    (enabled : mode.disableApiCheck = false) (wide : 1 ≤ region.x) :
    RectExact mode origin region rowPitch slicePitch ↔
      Packed origin region rowPitch slicePitch := by
  have last := rectLast_succ origin rowPitch slicePitch wide
  constructor
  · intro exact
    have kept : ∀ s, SizeT s → ¬ Separates s (gaplessEnd origin region rowPitch slicePitch)
        (rectLast origin region rowPitch slicePitch + 1) := fun s sLt =>
      (rectExactAt_iff enabled (find_oneBuffer s)).mp
        (exact (oneBuffer s) 1 _ (find_oneBuffer s) sLt)
    have codeLt : gaplessEnd origin region rowPitch slicePitch < 18446744073709551616 :=
      Nat.mod_lt _ (by decide)
    have endLt : rectLast origin region rowPitch slicePitch + 1 < 18446744073709551616 := by
      have atLast := kept 18446744073709551615 (by unfold SizeT; decide)
      unfold Separates at atLast
      omega
    have equal : gaplessEnd origin region rowPitch slicePitch =
        rectLast origin region rowPitch slicePitch + 1 := by
      have atCode := kept _ codeLt
      have atEnd := kept _ endLt
      unfold Separates at atCode atEnd
      omega
    refine ⟨endLt, ?_⟩
    rw [last] at endLt equal
    exact (u64_add_eq_iff endLt).mp equal
  · rintro ⟨endLt, packed⟩ w buffer m1 tracked -
    rw [rectExactAt_iff enabled tracked]
    rw [last] at endLt ⊢
    have equal : gaplessEnd origin region rowPitch slicePitch = _ :=
      (u64_add_eq_iff endLt).mpr packed
    rw [equal, Separates]
    omega

/-- The rectangular check is exact in a buffer exactly when its size does not
separate the gapless end from the real one, and in every buffer exactly when the
rectangle is packed. -/
theorem rect_check_exact_iff {mode : ApiMode} {origin region : Triple} {rowPitch slicePitch : Nat}
    (enabled : mode.disableApiCheck = false) (wide : 1 ≤ region.x) :
    (∀ w buffer m1, w.table.find buffer = some m1 →
      (RectExactAt mode w buffer m1.size origin region rowPitch slicePitch ↔
        ¬ Separates m1.size (gaplessEnd origin region rowPitch slicePitch)
          (rectLast origin region rowPitch slicePitch + 1))) ∧
      (RectExact mode origin region rowPitch slicePitch ↔
        Packed origin region rowPitch slicePitch) :=
  ⟨fun _ _ _ tracked => rectExactAt_iff enabled tracked, rectExact_iff_packed enabled wide⟩

/-- Two packed rows of four bytes. -/
theorem rect_check_exact_packed :
    (∀ w buffer m1, w.table.find buffer = some m1 →
      (RectExactAt ⟨false, false⟩ w buffer m1.size ⟨0, 1, 0⟩ ⟨4, 2, 1⟩ 0 0 ↔
        ¬ Separates m1.size (gaplessEnd ⟨0, 1, 0⟩ ⟨4, 2, 1⟩ 0 0)
          (rectLast ⟨0, 1, 0⟩ ⟨4, 2, 1⟩ 0 0 + 1))) ∧
      (RectExact ⟨false, false⟩ ⟨0, 1, 0⟩ ⟨4, 2, 1⟩ 0 0 ↔ Packed ⟨0, 1, 0⟩ ⟨4, 2, 1⟩ 0 0) :=
  rect_check_exact_iff rfl (by decide)

/-- Two rows of one byte, ten bytes apart: the check adds two bytes where the
rectangle ends at byte ten. -/
theorem rect_check_misses_pitch :
    apiBufferRectOverflowCheck ⟨false, false⟩ (oneBuffer 5) 1 ⟨0, 0, 0⟩ ⟨1, 2, 1⟩ 10 0 = none ∧
      rectLast ⟨0, 0, 0⟩ ⟨1, 2, 1⟩ 10 0 = 10 ∧
      ¬ RectExact ⟨false, false⟩ ⟨0, 0, 0⟩ ⟨1, 2, 1⟩ 10 0 := by
  refine ⟨rfl, rfl, fun exact => ?_⟩
  have reported := (exact (oneBuffer 5) 1 _ (find_oneBuffer 5) (by unfold SizeT; decide)).mpr
    (by decide)
  exact absurd reported (by decide)

end Clarmor
