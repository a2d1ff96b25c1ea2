import Mathlib

/-!
# Cell stores and bounded blocks

A store is a function from addresses to cells.  A block is a store together
with a length; its operations are checked, so a write that would leave the
block fails instead of changing anything.  A program built from the checked
operations that succeeds has therefore written nothing outside its blocks.
-/

namespace Clarmor.Store

universe u

variable {α : Type u}

/-- Overwrite `len` cells from `off` on with one value. -/
def fill (m : Nat → α) (off len : Nat) (v : α) : Nat → α := fun a =>
  if off ≤ a ∧ a < off + len then v else m a

/-- Overwrite `len` cells from `off` on with the cells of `src` from `from` on. -/
def blit (m : Nat → α) (off : Nat) (src : Nat → α) (start len : Nat) : Nat → α := fun a =>
  if off ≤ a ∧ a < off + len then src (start + (a - off)) else m a

theorem fill_inside {m : Nat → α} {off len a : Nat} {v : α}
    (lower : off ≤ a) (upper : a < off + len) : fill m off len v a = v :=
  if_pos ⟨lower, upper⟩

theorem fill_outside {m : Nat → α} {off len a : Nat} {v : α}
    (outside : a < off ∨ off + len ≤ a) : fill m off len v a = m a := by
  unfold fill
  rw [if_neg]
  omega

theorem blit_inside {m src : Nat → α} {off start len a : Nat}
    (lower : off ≤ a) (upper : a < off + len) :
    blit m off src start len a = src (start + (a - off)) :=
  if_pos ⟨lower, upper⟩

theorem blit_outside {m src : Nat → α} {off start len a : Nat}
    (outside : a < off ∨ off + len ≤ a) : blit m off src start len a = m a := by
  unfold blit
  rw [if_neg]
  omega

/-! ## Entries of several cells

An entry of `d` cells is numbered by its position; cell `b` of entry `n` is cell
`n * d + b` of the store. -/

theorem entry_between (n lo hi : Nat) {d b : Nat} (bLt : b < d) :
    lo * d ≤ n * d + b ∧ n * d + b < hi * d ↔ lo ≤ n ∧ n < hi := by
  have pos : 0 < d := by omega
  constructor
  · rintro ⟨lower, upper⟩
    constructor
    · have step : lo * d < (n + 1) * d := by
        rw [Nat.succ_mul]
        omega
      exact Nat.lt_succ_iff.mp (Nat.lt_of_mul_lt_mul_right step)
    · exact Nat.lt_of_mul_lt_mul_right (lt_of_le_of_lt (Nat.le_add_right _ b) upper)
  · rintro ⟨lower, upper⟩
    have first : lo * d ≤ n * d := Nat.mul_le_mul_right d lower
    have last : (n + 1) * d ≤ hi * d := Nat.mul_le_mul_right d upper
    rw [Nat.succ_mul] at last
    omega

theorem fill_entries {m : Nat → α} {d n b lo len : Nat} {v : α} (bLt : b < d) :
    fill m (lo * d) (len * d) v (n * d + b) =
      if lo ≤ n ∧ n < lo + len then v else m (n * d + b) := by
  unfold fill
  rw [← Nat.add_mul]
  simp only [entry_between _ _ _ bLt]

theorem blit_entries {m src : Nat → α} {d n b lo start len : Nat} (bLt : b < d) :
    blit m (lo * d) src start (len * d) (n * d + b) =
      if lo ≤ n ∧ n < lo + len then src (start + (n - lo) * d + b) else m (n * d + b) := by
  unfold blit
  rw [← Nat.add_mul]
  simp only [entry_between _ _ _ bLt]
  split
  · rename_i inside
    have lower : lo * d ≤ n * d := Nat.mul_le_mul_right d inside.1
    rw [Nat.sub_mul]
    congr 1
    omega
  · rfl

/-! ## Numbered cells

A copy between places of different shapes numbers the cells and says which cell of
either place has a number. -/

/-- Overwrite the cells `d 0`, ..., `d (n - 1)` with the cells `s 0`, ..., `s (n - 1)` of
`src`; where numbers share a cell the first one counts. -/
def gather (m : Nat → α) (d : Nat → Nat) (src : Nat → α) (s : Nat → Nat) (n : Nat) : Nat → α :=
  fun a =>
    match (List.range n).find? fun k => d k = a with
    | some k => src (s k)
    | none => m a

theorem gather_id {m src : Nat → α} {s : Nat → Nat} {n k : Nat} (kLt : k < n) :
    gather m id src s n k = src (s k) := by
  unfold gather
  cases found : (List.range n).find? fun j => id j = k with
  | none =>
      have missed := List.find?_eq_none.mp found k (List.mem_range.mpr kLt)
      simp at missed
  | some j =>
      have same : j = k := by simpa using List.find?_some found
      rw [same]

/-- A copy by way of cells in the order of their numbers is a copy. -/
theorem gather_gather {m t src : Nat → α} {d s : Nat → Nat} {n : Nat} :
    gather m d (gather t id src s n) id n = gather m d src s n := by
  funext a
  unfold gather
  cases found : (List.range n).find? fun k => d k = a with
  | none => rfl
  | some k =>
      have kLt : k < n := List.mem_range.mp (List.mem_of_find?_eq_some found)
      exact gather_id kLt

/-- A store of `len` cells. -/
structure Block (α : Type u) where
  len : Nat
  get : Nat → α

namespace Block

/-- A block with one value in every cell. -/
def replicate (len : Nat) (v : α) : Block α := ⟨len, fun _ => v⟩

/-- Checked `fill`. -/
def fill (b : Block α) (off len : Nat) (v : α) : Option (Block α) :=
  if off + len ≤ b.len then some ⟨b.len, Store.fill b.get off len v⟩ else none

/-- Checked `blit`. -/
def blit (b : Block α) (off : Nat) (src : Nat → α) (start len : Nat) : Option (Block α) :=
  if off + len ≤ b.len then some ⟨b.len, Store.blit b.get off src start len⟩ else none

/-- Checked `gather`. -/
def gather (b : Block α) (d : Nat → Nat) (src : Block α) (s : Nat → Nat) (n : Nat) :
    Option (Block α) :=
  if ∀ k < n, d k < b.len ∧ s k < src.len then
    some ⟨b.len, Store.gather b.get d src.get s n⟩
  else none

theorem gather_eq_some_iff {b b' src : Block α} {d s : Nat → Nat} {n : Nat} :
    b.gather d src s n = some b' ↔
      (∀ k < n, d k < b.len ∧ s k < src.len) ∧
        b' = ⟨b.len, Store.gather b.get d src.get s n⟩ := by
  unfold gather
  split <;> simp_all [eq_comm]

@[simp]
theorem replicate_len (len : Nat) (v : α) : (replicate len v).len = len :=
  rfl

@[simp]
theorem replicate_get (len : Nat) (v : α) (a : Nat) : (replicate len v).get a = v :=
  rfl

theorem fill_of_le {b : Block α} {off len : Nat} {v : α} (fits : off + len ≤ b.len) :
    b.fill off len v = some ⟨b.len, Store.fill b.get off len v⟩ :=
  if_pos fits

theorem blit_of_le {b : Block α} {off start len : Nat} {src : Nat → α}
    (fits : off + len ≤ b.len) :
    b.blit off src start len = some ⟨b.len, Store.blit b.get off src start len⟩ :=
  if_pos fits

theorem fill_eq_some {b b' : Block α} {off len : Nat} {v : α}
    (filled : b.fill off len v = some b') :
    off + len ≤ b.len ∧ b' = ⟨b.len, Store.fill b.get off len v⟩ := by
  unfold fill at filled
  split at filled
  · rename_i fits
    exact ⟨fits, (Option.some.inj filled).symm⟩
  · contradiction

theorem blit_eq_some {b b' : Block α} {off start len : Nat} {src : Nat → α}
    (copied : b.blit off src start len = some b') :
    off + len ≤ b.len ∧ b' = ⟨b.len, Store.blit b.get off src start len⟩ := by
  unfold blit at copied
  split at copied
  · rename_i fits
    exact ⟨fits, (Option.some.inj copied).symm⟩
  · contradiction

/-- Two copies, the second right behind the first. -/
theorem blit_blit {b : Block α} {off len start start' : Nat} {src src' : Nat → α}
    (fits : off + len + len ≤ b.len) :
    ∃ b', ((b.blit off src start len).bind fun b => b.blit (off + len) src' start' len) =
        some b' ∧ b'.len = b.len ∧
      ∀ a, b'.get a =
        if off ≤ a ∧ a < off + len then src (start + (a - off))
        else if off + len ≤ a ∧ a < off + len + len then src' (start' + (a - (off + len)))
        else b.get a := by
  have first : b.blit off src start len = some ⟨b.len, Store.blit b.get off src start len⟩ :=
    blit_of_le (by omega)
  rw [first, Option.bind_some]
  refine ⟨_, blit_of_le fits, rfl, fun a => ?_⟩
  dsimp only
  split_ifs with first second
  · rw [blit_outside (by omega), blit_inside first.1 first.2]
  · exact blit_inside second.1 second.2
  · rw [blit_outside (by omega), blit_outside (by omega)]

end Block

end Clarmor.Store
