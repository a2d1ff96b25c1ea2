import Clarmor.Check.HostCheck
import Clarmor.Library.Items
import Clarmor.Library.Reduce

/-!
# The kernels that check buffers on the device

Every work-item compares one word, or four bytes, with the canary; the items of a
group agree on the least byte with a scan, and one atomic operation of each group
brings it to the cell of the object.  Some of the comparisons also put the canary
back.

A word that is not aligned cannot be loaded.
-/

namespace Clarmor

open Word Reduce

/-- The memories of the device, numbered, and their bytes. -/
abbrev DeviceMemory := Nat × Nat → UInt8

/-- Load a 32-bit word. -/
def loadWord (m : DeviceMemory) (store address : Nat) : Option Nat :=
  if address % 4 = 0 then some (leWord (fun a => m (store, address + a)) 0) else none

/-- Store a 32-bit word, the lowest byte first. -/
def storeWord (m : DeviceMemory) (store address word : Nat) : DeviceMemory := fun a =>
  if a.1 = store ∧ address ≤ a.2 ∧ a.2 < address + 4 then
    UInt8.ofNat (word / 256 ^ (a.2 - address))
  else m a

/-- The first of the four bytes with a property, in the numbering of the object. -/
def firstByte (first : Nat) (differs : Nat → Bool) : Nat :=
  (((List.range 4).find? differs).map fun i => first + i).getD INT_MAX

/-! ## The comparisons -/

/-- `compareWithPoison` of `buffer_copy_canary_src`. -/
def compareCopied (poison localBuff index : Nat) (B : Nat → UInt8) : Nat :=
  if poison ≠ leWord B index then
    firstByte (4 * localBuff) fun i => UInt8.ofNat poison ≠ B (u32 (4 * index + i))
  else INT_MAX

/-- `compareWithPoison` of `buffer_and_ptr_copy_src`, at a pointer. -/
def compareAndMend (poison localBuff index store B : Nat) (m : DeviceMemory) :
    Option (Nat × DeviceMemory) :=
  (loadWord m store (B + 4 * index)).map fun word =>
    if poison ≠ word then
      (firstByte (4 * localBuff) fun i => UInt8.ofNat poison ≠ m (store, B + u32 (4 * index + i)),
        storeWord m store (B + 4 * index) poison)
    else (INT_MAX, m)

/-- `compareWithPoison` of `single_buffer_src`, which looks at the bytes of the
exclusive or. -/
def compareXor (poison index store canary : Nat) (m : DeviceMemory) :
    Option (Nat × DeviceMemory) :=
  (loadWord m store (canary + 4 * index)).map fun loaded =>
    let word := poison ^^^ loaded
    if word ≠ 0 then
      (firstByte (4 * index) fun i => word / 256 ^ i % 256 ≠ 0,
        storeWord m store (canary + 4 * index) poison)
    else (INT_MAX, m)

/-- The variables of the loop of `compareWithPoisonByte`. -/
structure ByteLoop where
  ret : Nat
  tmpRet : Nat
  m : DeviceMemory

/-- One turn of it. -/
def byteTurn (poison : UInt8) (index store canary : Nat) (s : ByteLoop) (i : Nat) : ByteLoop :=
  let s :=
    if poison ≠ s.m (store, canary + (index + i)) then
      { s with
        tmpRet := index + i
        m := Function.update s.m (store, canary + (index + i)) poison }
    else s
  if s.tmpRet < s.ret then { s with ret := s.tmpRet } else s

/-- `compareWithPoisonByte`. -/
def compareWithPoisonByte (poison : UInt8) (index store canary : Nat) (m : DeviceMemory) :
    Nat × DeviceMemory :=
  let s := (List.range 4).foldl (byteTurn poison index store canary) ⟨INT_MAX, INT_MAX, m⟩
  (s.ret, s.m)

/-! ## The kernels -/

/-- The comparison of an item of `findCorruption`. -/
def findCorruption (canaryLen buffEnd poison : Nat) (B C : Nat → UInt8) (tid : Nat) : Nat :=
  if tid < buffEnd then compareCopied poison (tid % canaryLen) tid B
  else compareCopied poison (tid % canaryLen) (tid - buffEnd) C

/-- The comparison of an item of `findCorruptionNoSVM`. -/
def findCorruptionNoSVM (canaryLen buffEnd poison : Nat) (B : Nat → UInt8) (tid : Nat) : Nat :=
  if tid < buffEnd then compareCopied poison (tid % canaryLen) tid B else INT_MAX

/-- The comparison of an item of `locateDiffSVMPtr`; `B` and the pointers' targets
are in two of the memories. -/
def locateDiffSVMPtr (length endBuffs poison copies svm : Nat) (C : Nat → Nat) (tid : Nat)
    (m : DeviceMemory) : Option (Nat × DeviceMemory) :=
  if tid < endBuffs then compareAndMend poison (tid % length) tid copies 0 m
  else
    compareAndMend poison (tid % length) (tid % (length / POISON_REGIONS)) svm
      (C ((tid - endBuffs) / (length / POISON_REGIONS))) m

/-- The comparison of an item of `locateDiffParts`. -/
def locateDiffParts (poison offset store B tid : Nat) (m : DeviceMemory) :
    Option (Nat × DeviceMemory) :=
  if offset % 4 ≠ 0 then
    some (compareWithPoisonByte (UInt8.ofNat poison) (tid * 4) store (B + offset) m)
  else compareXor poison tid store (B + offset) m

/-- The cells of the results before a check. -/
def resultCells : Nat → Nat := fun _ => INT_MAX

/-- A result as `report_kernel_overflows` reads it. -/
def reported (change : Nat) : Option Nat := if change < INT_MAX then some change else none

/-! ## What a comparison finds -/

/-- The first byte of an image that is not a canary byte, or `INT_MAX`. -/
def firstChange (len : Nat) (image : Nat → UInt8) : Nat :=
  ((List.range len).find? fun k => image k ≠ POISON_FILL).getD INT_MAX

theorem least_le_iff {n first top x : Nat} {differs : Nat → Bool} (below : x < top) :
    (((List.range n).find? differs).map fun i => first + i).getD top ≤ x ↔
      ∃ k < n, differs k = true ∧ first + k ≤ x := by
  cases found : (List.range n).find? differs with
  | none =>
      rw [List.find?_eq_none] at found
      constructor
      · exact fun le => absurd (lt_of_lt_of_le below le) (lt_irrefl x)
      · rintro ⟨k, kLt, bad, -⟩
        exact absurd bad (found k (List.mem_range.mpr kLt))
  | some i =>
      obtain ⟨bad, iMem, before⟩ := List.find?_range_eq_some.mp found
      rw [Option.map_some, Option.getD_some]
      constructor
      · exact fun le => ⟨i, List.mem_range.mp iMem, bad, le⟩
      · rintro ⟨k, -, bad', le⟩
        by_contra gt
        have clean := before k (by omega)
        rw [bad'] at clean
        contradiction

theorem firstByte_le_iff {first x : Nat} {differs : Nat → Bool} (below : x < INT_MAX) :
    firstByte first differs ≤ x ↔ ∃ q < 4, differs q = true ∧ first + q ≤ x :=
  least_le_iff below

theorem firstChange_le_iff {len x : Nat} {image : Nat → UInt8} (below : x < INT_MAX) :
    firstChange len image ≤ x ↔ ∃ k < len, image k ≠ POISON_FILL ∧ k ≤ x := by
  have least := @least_le_iff len 0 INT_MAX x (fun k => image k ≠ POISON_FILL) below
  simpa [firstChange] using least

theorem firstByte_congr {first : Nat} {differs differs' : Nat → Bool}
    (same : ∀ q < 4, differs q = differs' q) :
    firstByte first differs = firstByte first differs' := by
  have bytes : List.range 4 = [0, 1, 2, 3] := rfl
  rw [firstByte, firstByte, bytes]
  simp only [List.find?_cons, List.find?_nil, same 0 (by decide), same 1 (by decide),
    same 2 (by decide), same 3 (by decide)]

/-- Four canary bytes. -/
theorem firstByte_eq_top {first : Nat} {differs : Nat → Bool}
    (clean : ∀ q < 4, differs q = false) : firstByte first differs = INT_MAX := by
  have none : (List.range 4).find? differs = none := by
    rw [List.find?_eq_none]
    intro q qMem
    rw [clean q (List.mem_range.mp qMem)]
    exact Bool.false_ne_true
  rw [firstByte, none]
  rfl

/-! ## What the comparisons come to -/


/-- The first `n` bytes from an address on with canary bytes in their place. -/
def mendedBytes (m : DeviceMemory) (store first n : Nat) : DeviceMemory := fun a =>
  if a.1 = store ∧ first ≤ a.2 ∧ a.2 < first + n then POISON_FILL else m a

theorem ofNat_poison : UInt8.ofNat poisonFill_32b = POISON_FILL := rfl

theorem storeWord_poison (m : DeviceMemory) (store address : Nat) :
    storeWord m store address poisonFill_32b = mendedBytes m store address 4 := by
  funext a
  rw [storeWord, mendedBytes]
  split_ifs with inside
  · obtain ⟨-, lower, upper⟩ := inside
    apply UInt8.toNat_inj.mp
    rw [UInt8.toNat_ofNat', poisonFill_32b_eq]
    exact splat_byte POISON_FILL (by omega)
  · rfl

theorem mendedBytes_of_clean {m : DeviceMemory} {store address : Nat}
    (clean : ∀ q < 4, m (store, address + q) = POISON_FILL) :
    mendedBytes m store address 4 = m := by
  funext a
  rw [mendedBytes]
  split_ifs with inside
  · obtain ⟨rfl, lower, upper⟩ := inside
    have byte := clean (a.2 - address) (by omega)
    rw [Nat.add_sub_cancel' lower] at byte
    exact byte.symm
  · rfl

/-- A comparison with mending finds the first byte that is not a canary byte. -/
def Finds (compare : DeviceMemory → Option (Nat × DeviceMemory)) (store address first : Nat) :
    Prop :=
  ∀ m, compare m = some (firstByte first fun q => m (store, address + q) ≠ POISON_FILL,
    mendedBytes m store address 4)

/-- The bytes of a word. -/
def InWord (place a : Nat × Nat) : Prop := a.1 = place.1 ∧ place.2 ≤ a.2 ∧ a.2 < place.2 + 4

/-- It reads and changes its word only. -/
theorem Finds.isLocal {compare : DeviceMemory → Option (Nat × DeviceMemory)}
    {store address first : Nat} (finds : Finds compare store address first) :
    Items.Local compare (InWord (store, address)) where
  frame := by
    intro m r m' ran a outside
    rw [finds] at ran
    rw [← (Prod.mk.inj (Option.some.inj ran)).2]
    exact if_neg outside
  congr := by
    intro m n r m' same ran
    rw [finds] at ran
    refine ⟨mendedBytes n store address 4, ?_⟩
    rw [finds, ← (Prod.mk.inj (Option.some.inj ran)).1]
    congr 2
    refine firstByte_congr fun q qLt => ?_
    rw [same (store, address + q) ⟨rfl, Nat.le_add_right _ _, Nat.add_lt_add_left qLt _⟩]

theorem loadWord_eq {m : DeviceMemory} {store address : Nat} (aligned : address % 4 = 0) :
    loadWord m store address = some (leWord (fun a => m (store, address + a)) 0) :=
  if_pos aligned

theorem loadWord_clean_iff {m : DeviceMemory} {store address : Nat} :
    leWord (fun a => m (store, address + a)) 0 = poisonFill_32b ↔
      ∀ q < 4, m (store, address + q) = POISON_FILL := by
  rw [poisonFill_32b_eq, leWord_eq_splat_iff]
  simp

theorem compareCopied_eq {localBuff index : Nat} {B : Nat → UInt8}
    (small : 4 * index + 4 ≤ 4294967296) : compareCopied poisonFill_32b localBuff index B =
      firstByte (4 * localBuff) fun q => B (4 * index + q) ≠ POISON_FILL := by
  rw [compareCopied]
  split_ifs with differs
  · refine firstByte_congr fun q qLt => ?_
    rw [ofNat_poison, u32_of_lt (by omega)]
    exact decide_eq_decide.mpr ne_comm
  · rw [not_ne_iff, eq_comm, poisonFill_32b_eq, leWord_eq_splat_iff] at differs
    exact (firstByte_eq_top fun q qLt => by simp [differs q qLt]).symm

theorem compareAndMend_finds {localBuff index store B : Nat} (aligned : B % 4 = 0)
    (small : 4 * index + 4 ≤ 4294967296) :
    Finds (compareAndMend poisonFill_32b localBuff index store B) store (B + 4 * index)
      (4 * localBuff) := by
  intro m
  rw [compareAndMend, loadWord_eq (by omega), Option.map_some]
  split_ifs with differs
  · rw [storeWord_poison]
    congr 2
    refine firstByte_congr fun q qLt => ?_
    rw [ofNat_poison, u32_of_lt (by omega), Nat.add_assoc]
    exact decide_eq_decide.mpr ne_comm
  · have clean := loadWord_clean_iff.mp (not_ne_iff.mp differs).symm
    rw [mendedBytes_of_clean clean, firstByte_eq_top fun q qLt => by simp [clean q qLt]]

theorem compareXor_finds {index store canary : Nat} (aligned : canary % 4 = 0) :
    Finds (compareXor poisonFill_32b index store canary) store (canary + 4 * index)
      (4 * index) := by
  intro m
  rw [compareXor, loadWord_eq (by omega), Option.map_some]
  dsimp only
  split_ifs with differs
  · rw [storeWord_poison]
    congr 2
    refine firstByte_congr fun q qLt => ?_
    rw [xor_byte, poisonFill_32b_eq, splat_byte POISON_FILL qLt, leWord_byte _ _ qLt]
    refine decide_eq_decide.mpr (Nat.xor_ne_zero_iff.trans ?_)
    rw [ne_eq, UInt8.toNat_inj, Nat.mul_zero, Nat.zero_add]
    exact ne_comm
  · rw [Nat.xor_ne_zero_iff, not_ne_iff] at differs
    have clean := loadWord_clean_iff.mp differs.symm
    rw [mendedBytes_of_clean clean, firstByte_eq_top fun q qLt => by simp [clean q qLt]]

theorem mendedBytes_next (m : DeviceMemory) (store first n : Nat) :
    mendedBytes m store first n (store, first + n) = m (store, first + n) :=
  if_neg (by simp)

theorem mendedBytes_succ (m : DeviceMemory) (store first n : Nat) :
    mendedBytes m store first (n + 1) =
      Function.update (mendedBytes m store first n) (store, first + n) POISON_FILL := by
  funext a
  by_cases here : a = (store, first + n)
  · rw [here, Function.update_self]
    exact if_pos (by simp)
  · have same : (a.1 = store ∧ first ≤ a.2 ∧ a.2 < first + (n + 1)) ↔
        (a.1 = store ∧ first ≤ a.2 ∧ a.2 < first + n) := by
      rw [Prod.ext_iff] at here
      dsimp only at here
      omega
    rw [Function.update_of_ne here]
    simp only [mendedBytes, same]

/-- The loop over the bytes after some turns. -/
structure ByteTurns (m : DeviceMemory) (index store canary n : Nat) (s : ByteLoop) : Prop where
  mended : s.m = mendedBytes m store (canary + index) n
  ret : s.ret = (((List.range n).find? fun q =>
    m (store, canary + index + q) ≠ POISON_FILL).map fun q => index + q).getD INT_MAX
  tmpRet : s.ret ≤ s.tmpRet

theorem byteTurn_spec {m : DeviceMemory} {index store canary n : Nat} {s : ByteLoop}
    (small : index + n < INT_MAX) (turns : ByteTurns m index store canary n s) :
    ByteTurns m index store canary (n + 1) (byteTurn POISON_FILL index store canary s n) := by
  obtain ⟨mended, ret, tmpRet⟩ := turns
  have byte : s.m (store, canary + index + n) = m (store, canary + index + n) := by
    rw [mended, mendedBytes_next]
  have next : (List.range (n + 1)).find? (fun q => m (store, canary + index + q) ≠ POISON_FILL) =
      ((List.range n).find? fun q => m (store, canary + index + q) ≠ POISON_FILL).or
        (if m (store, canary + index + n) ≠ POISON_FILL then some n else none) := by
    rw [List.range_succ, List.find?_append, List.find?_singleton]
    simp only [decide_eq_true_eq]
  by_cases bad : m (store, canary + index + n) = POISON_FILL
  · -- A canary byte changes neither the memory nor the result.
    have unchanged : byteTurn POISON_FILL index store canary s n = s := by
      simp only [byteTurn, ← Nat.add_assoc, byte, bad, ne_eq, not_true_eq_false, if_false,
        not_lt.mpr tmpRet]
    rw [unchanged]
    refine ⟨?_, ?_, tmpRet⟩
    · rw [mendedBytes_succ, ← mended, ← bad, ← byte, Function.update_eq_self]
    · rw [next, if_neg (not_ne_iff.mpr bad), Option.or_none, ret]
  · -- The first other byte is the result; later ones lie above it.
    have turned : byteTurn POISON_FILL index store canary s n =
        ⟨if index + n < s.ret then index + n else s.ret, index + n,
          Function.update s.m (store, canary + index + n) POISON_FILL⟩ := by
      simp only [byteTurn, ← Nat.add_assoc, byte, if_pos (Ne.symm bad)]
      split_ifs <;> rfl
    rw [turned]
    refine ⟨?_, ?_, ?_⟩
    · rw [mendedBytes_succ, ← mended]
    · rw [next, if_pos bad]
      dsimp only
      rw [ret]
      cases found : (List.range n).find? fun q => m (store, canary + index + q) ≠ POISON_FILL with
      | none => exact if_pos small
      | some q =>
          obtain ⟨qLt, -, -⟩ := find?_range_iff.mp found
          exact if_neg (by
            rw [Option.map_some, Option.getD_some]
            omega)
    · dsimp only
      split_ifs
      · exact le_refl _
      · exact not_lt.mp ‹_›

theorem compareWithPoisonByte_finds {index store canary : Nat} (small : index + 4 ≤ INT_MAX) :
    Finds (fun m => some (compareWithPoisonByte POISON_FILL index store canary m)) store
      (canary + index) index := by
  intro m
  have turns : ∀ n ≤ 4, ByteTurns m index store canary n
      ((List.range n).foldl (byteTurn POISON_FILL index store canary) ⟨INT_MAX, INT_MAX, m⟩) := by
    intro n
    induction n with
    | zero =>
        refine fun _ => ⟨?_, rfl, le_refl _⟩
        funext a
        exact (if_neg (by omega)).symm
    | succ n ih =>
        intro le
        rw [List.range_succ, List.foldl_append]
        exact byteTurn_spec (by omega) (ih (by omega))
  obtain ⟨mended, ret, -⟩ := turns 4 (le_refl 4)
  simp only [compareWithPoisonByte, mended, ret]
  rfl

/-- The comparison of `locateDiffParts` needs a whole word only when the offset is one. -/
theorem locateDiffParts_finds {offset store B tid : Nat} (aligned : offset % 4 = 0 → B % 4 = 0)
    (small : 4 * tid + 4 ≤ INT_MAX) :
    Finds (locateDiffParts poisonFill_32b offset store B tid) store (B + offset + 4 * tid)
      (4 * tid) := by
  intro m
  rw [locateDiffParts]
  split_ifs with odd
  · rw [ofNat_poison, Nat.mul_comm tid 4]
    exact @compareWithPoisonByte_finds (4 * tid) store (B + offset) small m
  · have even := not_ne_iff.mp odd
    have whole := aligned even
    exact @compareXor_finds tid store (B + offset) (by omega) m

end Clarmor
