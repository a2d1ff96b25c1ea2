import Clarmor.Check.Strategies

/-!
# The kernel that checks images

The canaries of all images are copied behind each other.  A work-item looks at one byte,
searches for its image among the ends of the copies, and sends its place in the image to
the cell of the image when the byte is not a canary byte.
-/

namespace Clarmor

open Word Store Reduce Items

/-- The ends of some copies, from the end of the copies before them. -/
def endsFrom : Nat → List Nat → List Nat
  | _, [] => []
  | last, len :: lens => u32 (last + len) :: endsFrom (u32 (last + len)) lens

/-- `find_canary_ends`, from the canary lengths of the images. -/
def findCanaryEnds (lens : List Nat) : List Nat := endsFrom 0 lens

/-- The length of all copies, which `find_canary_ends` returns. -/
def totalCanaryLen (lens : List Nat) : Nat := (findCanaryEnds lens).getLast?.getD 0

/-- The start of a copy: the end before it. -/
def copyOffset (ends : List Nat) (imageNum : Nat) : Nat :=
  if imageNum > 0 then ends.getD (imageNum - 1) 0 else 0

/-- The loop that searches for the image of an item. -/
def searchEnds (tid : Nat) : List Nat → Nat
  | [] => 0
  | e :: rest => if tid ≥ e then searchEnds tid rest + 1 else 0

/-- An item of `findCorruption` of `image_copy_canary_src`: the cell and the value of its
atomic operation. -/
def findCorruptionImage (poison : UInt8) (ends : List Nat) (B : Nat → UInt8) (tid : Nat) :
    Option (Nat × Nat) :=
  let buffID := searchEnds tid ends
  if buffID ≥ ends.length then none
  else
    let localBuff := sub32 tid (copyOffset ends buffID)
    if poison ≠ B tid then some (buffID, localBuff) else none

/-- The results of the kernel over all bytes of the copies `B`. -/
def imageKernel (s : Schedule Nat Nat) (lens : List Nat) (B : Nat → UInt8) : Nat → Nat :=
  runAtomics (s.atomics ((s.items (List.range (totalCanaryLen lens))).filterMap
    (findCorruptionImage POISON_FILL (findCanaryEnds lens) B))) resultCells

/-- The copies hold the canaries of the images, each at its offset. -/
def CanariesCopied (canaries : List (Block UInt8)) (B : Nat → UInt8) : Prop :=
  ∀ b canary, canaries[b]? = some canary → ∀ k < canary.len,
    B (copyOffset (findCanaryEnds (canaries.map Block.len)) b + k) = canary.get k

variable {lens : List Nat} {last len b k tid : Nat} {B : Nat → UInt8}

/-! ## Ends -/

theorem endsFrom_length (last : Nat) (lens : List Nat) :
    (endsFrom last lens).length = lens.length := by
  induction lens generalizing last with
  | nil => rfl
  | cons len lens ih => exact congrArg (· + 1) (ih _)

/-- Ends that do not wrap are sums. -/
theorem endsFrom_getElem? (small : last + lens.sum < 4294967296) (bLt : b < lens.length) :
    (endsFrom last lens)[b]? = some (last + (lens.take (b + 1)).sum) := by
  induction lens generalizing last b with
  | nil => contradiction
  | cons len lens ih =>
      rw [List.sum_cons] at small
      rw [endsFrom, u32_of_lt (by omega)]
      cases b with
      | zero => simp
      | succ b =>
          rw [List.getElem?_cons_succ, ih (by omega) (Nat.lt_of_succ_lt_succ bLt),
            List.take_succ_cons, List.sum_cons, Nat.add_assoc]

theorem copyOffset_eq (small : lens.sum < 4294967296) (bLe : b ≤ lens.length) :
    copyOffset (findCanaryEnds lens) b = (lens.take b).sum := by
  rw [copyOffset]
  cases b with
  | zero => rfl
  | succ b =>
      have found := @endsFrom_getElem? lens 0 b (by omega) bLe
      rw [if_pos (Nat.succ_pos b), Nat.add_sub_cancel, findCanaryEnds, List.getD, found,
        Option.getD_some, Nat.zero_add]

theorem totalCanaryLen_eq (small : lens.sum < 4294967296) : totalCanaryLen lens = lens.sum := by
  rw [totalCanaryLen, List.getLast?_eq_getElem?, findCanaryEnds, endsFrom_length]
  cases lens with
  | nil => rfl
  | cons len rest =>
      rw [endsFrom_getElem? (by omega) (by simp), List.length_cons, Nat.add_sub_cancel,
        Option.getD_some, Nat.zero_add, List.take_of_length_le (by simp)]

/-- The search gives the image whose copy holds the place. -/
theorem searchEnds_eq_iff (small : last + lens.sum < 4294967296) (isImage : lens[b]? = some len)
    (behind : last ≤ tid) :
    searchEnds tid (endsFrom last lens) = b ↔
      last + (lens.take b).sum ≤ tid ∧ tid < last + (lens.take b).sum + len := by
  induction lens generalizing last b with
  | nil => contradiction
  | cons first lens ih =>
      rw [List.sum_cons] at small
      rw [endsFrom, u32_of_lt (by omega), searchEnds]
      cases b with
      | zero =>
          obtain rfl : first = len := by simpa using isImage
          split <;> simp <;> omega
      | succ b =>
          rw [List.getElem?_cons_succ] at isImage
          rw [List.take_succ_cons, List.sum_cons, ← Nat.add_assoc]
          split
          case isTrue past =>
            rw [Nat.add_right_cancel_iff, ih (by omega) isImage past]
          case isFalse =>
            omega

/-- A copy ends within all copies. -/
theorem take_sum_add_le (isImage : lens[b]? = some len) :
    (lens.take b).sum + len ≤ lens.sum := by
  have parts := congrArg List.sum (List.take_append_drop b lens)
  obtain ⟨bLt, here⟩ := List.getElem?_eq_some_iff.mp isImage
  rw [List.drop_eq_getElem_cons bLt, here, List.sum_append, List.sum_cons] at parts
  omega

/-! ## Items -/

/-- An item sends the place of its byte in its image, if this is not a canary byte. -/
theorem findCorruptionImage_eq_some_iff (small : lens.sum < 4294967296)
    (isImage : lens[b]? = some len) (tidLt : tid < lens.sum) :
    findCorruptionImage POISON_FILL (findCanaryEnds lens) B tid = some (b, k) ↔
      (k < len ∧ tid = (lens.take b).sum + k) ∧ B tid ≠ POISON_FILL := by
  have bLt : b < lens.length := (List.getElem?_eq_some_iff.mp isImage).1
  have search := @searchEnds_eq_iff lens 0 len b tid (by omega) isImage (Nat.zero_le tid)
  have offset := copyOffset_eq small (Nat.le_of_lt bLt)
  rw [← findCanaryEnds, Nat.zero_add] at search
  rw [findCorruptionImage, findCanaryEnds, endsFrom_length, ← findCanaryEnds]
  constructor
  · intro sent
    split_ifs at sent with missing differs
    obtain ⟨here, place⟩ := Prod.mk.inj (Option.some.inj sent)
    obtain ⟨lower, upper⟩ := search.mp here
    rw [here, offset, sub32_of_le (by omega) lower] at place
    exact ⟨by omega, differs.symm⟩
  · rintro ⟨⟨kLt, rfl⟩, differs⟩
    have here := search.mpr ⟨by omega, by omega⟩
    rw [here, if_neg (by omega), if_pos differs.symm, offset, sub32_of_le (by omega) (by omega),
      Nat.add_sub_cancel_left]

/-- An item sends to the cell of an image. -/
theorem findCorruptionImage_lt (sent :
    findCorruptionImage POISON_FILL (findCanaryEnds lens) B tid = some (b, k)) :
    b < lens.length := by
  rw [findCorruptionImage, findCanaryEnds, endsFrom_length] at sent
  split_ifs at sent with missing differs
  obtain ⟨here, -⟩ := Prod.mk.inj (Option.some.inj sent)
  rw [here] at missing
  exact Nat.lt_of_not_le missing

/-! ## The launch -/

/-- A cell of the kernel holds the first place of its image with a byte that is not a canary
byte, as the host finds it in the canaries of this image alone. -/
theorem imageKernel_eq_cpuParseCanary {canaries : List (Block UInt8)} {canary : Block UInt8}
    (s : Schedule Nat Nat) (small : (canaries.map Block.len).sum < 2147483648)
    (copied : CanariesCopied canaries B) (isImage : canaries[b]? = some canary) :
    imageKernel s (canaries.map Block.len) B b = firstChange canary.len canary.get ∧
      reported (imageKernel s (canaries.map Block.len) B b) =
        cpuParseCanary canary.len canary.get := by
  have isLen : (canaries.map Block.len)[b]? = some canary.len := by
    rw [List.getElem?_map, isImage, Option.map_some]
  have offset := copyOffset_eq (Nat.lt_trans small (by decide))
    (Nat.le_of_lt (List.getElem?_eq_some_iff.mp isLen).1)
  have inside := take_sum_add_le isLen
  have top : INT_MAX = 2147483647 := rfl
  have cell : imageKernel s (canaries.map Block.len) B b = firstChange canary.len canary.get := by
    refine eq_firstChange (by omega) (runAtomics_le_top _ b) fun x below => ?_
    rw [imageKernel, totalCanaryLen_eq (by omega)]
    refine (runAtomics_filterMap_le_iff below ((s.atomics_perm _).trans
      ((s.items_perm _).filterMap _))).trans ?_
    constructor
    · rintro ⟨tid, tidLt, k, sent, le⟩
      obtain ⟨⟨kLt, rfl⟩, differs⟩ :=
        (findCorruptionImage_eq_some_iff (by omega) isLen tidLt).mp sent
      rw [← offset, copied b canary isImage k kLt] at differs
      exact ⟨k, kLt, differs, le⟩
    · rintro ⟨k, kLt, differs, le⟩
      have tidLt : ((canaries.map Block.len).take b).sum + k < (canaries.map Block.len).sum := by
        omega
      refine ⟨_, tidLt, k, (findCorruptionImage_eq_some_iff (by omega) isLen tidLt).mpr
        ⟨⟨kLt, rfl⟩, ?_⟩, le⟩
      rw [← offset, copied b canary isImage k kLt]
      exact differs
  refine ⟨cell, ?_⟩
  rw [cell, reported_firstChange (by omega), cpuParseCanary_eq_find (by omega)]

/-- The canaries of three images: none, three bytes of which the second is wrong, and five. -/
def threeCanaries : List (Block UInt8) :=
  [⟨0, fun _ => 0⟩, ⟨3, fun k => if k = 1 then 0 else POISON_FILL⟩, ⟨5, fun _ => POISON_FILL⟩]

/-- Their copies. -/
def threeCopies (a : Nat) : UInt8 := if a = 1 then 0 else POISON_FILL

theorem threeCanaries_copied : CanariesCopied threeCanaries threeCopies := by
  intro b canary isImage k kLt
  rcases b with _ | _ | _ | b
  · cases isImage
    exact absurd kLt (Nat.not_lt_zero k)
  · cases isImage
    rw [show copyOffset (findCanaryEnds (threeCanaries.map Block.len)) (0 + 1) = 0 from rfl,
      Nat.zero_add]
    rfl
  · cases isImage
    rw [show copyOffset (findCanaryEnds (threeCanaries.map Block.len)) (0 + 1 + 1) = 3 from rfl]
    exact if_neg (by omega)
  · contradiction

theorem imageKernel_eq_cpuParseCanary_second :
    imageKernel (Schedule.itemFirst Nat Nat 5) [0, 3, 5] threeCopies 1 =
        firstChange 3 (fun k => if k = 1 then 0 else POISON_FILL) ∧
      reported (imageKernel (Schedule.itemFirst Nat Nat 5) [0, 3, 5] threeCopies 1) =
        cpuParseCanary 3 fun k => if k = 1 then 0 else POISON_FILL :=
  @imageKernel_eq_cpuParseCanary 1 threeCopies threeCanaries
    ⟨3, fun k => if k = 1 then 0 else POISON_FILL⟩ (Schedule.itemFirst Nat Nat 5) (by decide)
    threeCanaries_copied rfl

/-- The kernel finds the second byte of the second image. -/
example : (List.range 3).map (imageKernel (Schedule.inOrder Nat Nat) [0, 3, 5] threeCopies) =
    [INT_MAX, 1, INT_MAX] := by decide

end Clarmor
