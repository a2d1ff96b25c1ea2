import Mathlib

/-!
# Consecutive segments

A chain is a list of segments, each given by its start and its length, of which
every one starts where the one before it ends.  The segments of a chain are
pairwise disjoint and cover what lies between the two ends of the chain.
-/

namespace Clarmor.Segment

/-- The segments follow each other from `lo` to `hi` without a gap. -/
def Chain : Nat → List (Nat × Nat) → Nat → Prop
  | lo, [], hi => lo = hi
  | lo, segment :: rest, hi => segment.1 = lo ∧ Chain (lo + segment.2) rest hi

/-- The positions of a segment. -/
def Covers (segment : Nat × Nat) (n : Nat) : Prop :=
  segment.1 ≤ n ∧ n < segment.1 + segment.2

theorem Chain.append {lo mid hi : Nat} {first second : List (Nat × Nat)}
    (left : Chain lo first mid) (right : Chain mid second hi) :
    Chain lo (first ++ second) hi := by
  induction first generalizing lo with
  | nil =>
      rw [show lo = mid from left]
      exact right
  | cons segment rest ih => exact ⟨left.1, ih left.2⟩

theorem Chain.singleton {lo hi start len : Nat} (starts : start = lo) (ends : lo + len = hi) :
    Chain lo [(start, len)] hi :=
  ⟨starts, ends⟩

/-- Chains laid end to end, one for every index of a counted loop. -/
theorem Chain.flatMap_range (ends : Nat → Nat) {piece : Nat → List (Nat × Nat)} {n : Nat}
    (links : ∀ k < n, Chain (ends k) (piece k) (ends (k + 1))) :
    Chain (ends 0) ((List.range n).flatMap piece) (ends n) := by
  induction n with
  | zero => rfl
  | succ n ih =>
      rw [List.range_succ, List.flatMap_append, List.flatMap_singleton]
      exact (ih fun k kLt => links k (by omega)).append (links n (by omega))

theorem Chain.map_range (ends : Nat → Nat) {piece : Nat → Nat × Nat} {n : Nat}
    (links : ∀ k < n, (piece k).1 = ends k ∧ ends k + (piece k).2 = ends (k + 1)) :
    Chain (ends 0) ((List.range n).map piece) (ends n) := by
  rw [List.map_eq_flatMap]
  exact Chain.flatMap_range ends fun k kLt => Chain.singleton (links k kLt).1 (links k kLt).2

theorem Chain.le {lo hi : Nat} {segments : List (Nat × Nat)} (chain : Chain lo segments hi) :
    lo ≤ hi := by
  induction segments generalizing lo with
  | nil => exact le_of_eq chain
  | cons segment rest ih => exact (Nat.le_add_right _ _).trans (ih chain.2)

/-- The segments of a chain cover exactly what lies between its ends. -/
theorem Chain.covers_iff {lo hi : Nat} {segments : List (Nat × Nat)}
    (chain : Chain lo segments hi) {n : Nat} :
    (∃ segment ∈ segments, Covers segment n) ↔ lo ≤ n ∧ n < hi := by
  induction segments generalizing lo with
  | nil =>
      have equal : lo = hi := chain
      simp only [List.not_mem_nil, false_and, exists_const, false_iff]
      omega
  | cons segment rest ih =>
      obtain ⟨starts, tail⟩ := chain
      have later := tail.le
      rw [List.exists_mem_cons_iff, ih tail, Covers, starts]
      omega

/-- The segments of a chain lie between its ends. -/
theorem Chain.bounds {lo hi : Nat} {segments : List (Nat × Nat)} (chain : Chain lo segments hi)
    {segment : Nat × Nat} (mem : segment ∈ segments) :
    lo ≤ segment.1 ∧ segment.1 + segment.2 ≤ hi := by
  induction segments generalizing lo with
  | nil => exact absurd mem List.not_mem_nil
  | cons first rest ih =>
      obtain ⟨starts, tail⟩ := chain
      rcases List.mem_cons.mp mem with rfl | later
      · exact ⟨le_of_eq starts.symm, starts ▸ tail.le⟩
      · obtain ⟨lower, upper⟩ := ih tail later
        exact ⟨(Nat.le_add_right _ _).trans lower, upper⟩

/-- No position belongs to two segments of a chain. -/
theorem Chain.pairwise {lo hi : Nat} {segments : List (Nat × Nat)}
    (chain : Chain lo segments hi) :
    segments.Pairwise fun a b => ∀ n, Covers a n → ¬ Covers b n := by
  induction segments generalizing lo with
  | nil => exact List.Pairwise.nil
  | cons segment rest ih =>
      obtain ⟨starts, tail⟩ := chain
      refine List.pairwise_cons.mpr ⟨fun other member n inFirst inOther => ?_, ih tail⟩
      have beyond := (tail.covers_iff.mp ⟨other, member, inOther⟩).1
      have before := inFirst.2
      omega

/-- Two nested counted loops visit the numbers below the product of their
bounds in order. -/
theorem flatMap_range_eq_range (m n : Nat) :
    (List.range m).flatMap (fun k => (List.range n).map fun j => k * n + j) =
      List.range (m * n) := by
  induction m with
  | zero => simp
  | succ m ih =>
      rw [List.range_succ, List.flatMap_append, ih, List.flatMap_singleton, Nat.succ_mul,
        List.range_add]

end Clarmor.Segment
