import Mathlib

/-!
# Arrays with checked accesses

An array is the list of its cells.  Reading behind its end gives nothing, and
writing there fails.  A list of pairs is kept in an array with the two components
of a pair next to each other and a terminator behind the last pair.
-/

namespace Clarmor.Arrays

universe u

variable {α : Type u}

/-- Overwrite a cell. -/
def put (a : List α) (i : Nat) (v : α) : Option (List α) :=
  if i < a.length then some (a.set i v) else none

theorem put_of_lt {a : List α} {i : Nat} {v : α} (inside : i < a.length) :
    put a i v = some (a.set i v) :=
  if_pos inside

/-- An array that is filled from its start on. -/
theorem put_next {l : List α} {n size : Nat} {d v : α} (here : l[n]? = some v)
    (inside : n < size) :
    put (l.take n ++ List.replicate (size - n) d) n v =
      some (l.take (n + 1) ++ List.replicate (size - (n + 1)) d) := by
  obtain ⟨nLt, -⟩ := List.getElem?_eq_some_iff.mp here
  have taken : (l.take n).length = n := by
    rw [List.length_take]
    omega
  have left : size - n = size - (n + 1) + 1 := by omega
  rw [put_of_lt (by rw [List.length_append, List.length_replicate, taken]; omega),
    List.set_append_right n v (le_of_eq taken), taken, Nat.sub_self, left, List.replicate_succ,
    List.set_cons_zero, List.take_add_one, here, Option.toList_some, List.append_assoc]
  rfl

/-! ## Lists of pairs -/

/-- The pairs one after the other. -/
def cells (pairs : List (α × α)) : List α := pairs.flatMap fun p => [p.1, p.2]

/-- The array of a list of pairs, with its terminator. -/
def terminated (zero : α) (pairs : List (α × α)) : List α := cells pairs ++ [zero]

@[simp]
theorem cells_cons (p : α × α) (rest : List (α × α)) :
    cells (p :: rest) = p.1 :: p.2 :: cells rest :=
  rfl

theorem cells_append (pairs more : List (α × α)) :
    cells (pairs ++ more) = cells pairs ++ cells more :=
  List.flatMap_append

@[simp]
theorem length_cells (pairs : List (α × α)) : (cells pairs).length = 2 * pairs.length := by
  induction pairs with
  | nil => rfl
  | cons p rest ih =>
      rw [cells_cons, List.length_cons, List.length_cons, ih, List.length_cons]
      omega

theorem length_terminated (zero : α) (pairs : List (α × α)) :
    (terminated zero pairs).length = 2 * pairs.length + 1 := by
  rw [terminated, List.length_append, length_cells, List.length_singleton]

variable {pairs : List (α × α)} {p : α × α} {i : Nat}

theorem cells_key (isPair : pairs[i]? = some p) : (cells pairs)[2 * i]? = some p.1 := by
  induction pairs generalizing i with
  | nil => contradiction
  | cons q rest ih =>
      cases i with
      | zero =>
          obtain rfl : q = p := by simpa using isPair
          rfl
      | succ i => exact ih isPair

theorem cells_value (isPair : pairs[i]? = some p) : (cells pairs)[2 * i + 1]? = some p.2 := by
  induction pairs generalizing i with
  | nil => contradiction
  | cons q rest ih =>
      cases i with
      | zero =>
          obtain rfl : q = p := by simpa using isPair
          rfl
      | succ i => exact ih isPair

theorem index_lt (isPair : pairs[i]? = some p) : i < pairs.length :=
  (List.getElem?_eq_some_iff.mp isPair).1

theorem terminated_key {zero : α} (isPair : pairs[i]? = some p) :
    (terminated zero pairs)[2 * i]? = some p.1 := by
  have iLt := index_lt isPair
  rw [terminated, List.getElem?_append_left (by rw [length_cells]; omega), cells_key isPair]

theorem terminated_value {zero : α} (isPair : pairs[i]? = some p) :
    (terminated zero pairs)[2 * i + 1]? = some p.2 := by
  have iLt := index_lt isPair
  rw [terminated, List.getElem?_append_left (by rw [length_cells]; omega), cells_value isPair]

theorem terminated_end (zero : α) (pairs : List (α × α)) :
    (terminated zero pairs)[2 * pairs.length]? = some zero := by
  rw [terminated, List.getElem?_append_right (by rw [length_cells]), length_cells, Nat.sub_self]
  rfl

/-- Writing one more pair into the zeros behind the others. -/
theorem put_pair (zero : α) (pairs : List (α × α)) (p : α × α) :
    (put (cells pairs ++ List.replicate 3 zero) (2 * pairs.length) p.1).bind
        (fun a => put a (2 * pairs.length + 1) p.2) = some (terminated zero (pairs ++ [p])) := by
  have length := length_cells pairs
  have first : put (cells pairs ++ List.replicate 3 zero) (2 * pairs.length) p.1 =
      some (cells pairs ++ [p.1, zero, zero]) := by
    rw [put_of_lt (by rw [List.length_append, List.length_replicate]; omega),
      List.set_append_right _ _ (by omega), length, Nat.sub_self]
    rfl
  have second : put (cells pairs ++ [p.1, zero, zero]) (2 * pairs.length + 1) p.2 =
      some (cells pairs ++ [p.1, p.2, zero]) := by
    have inside : 2 * pairs.length + 1 < (cells pairs ++ [p.1, zero, zero]).length := by
      rw [List.length_append, length]
      exact Nat.add_lt_add_left Nat.one_lt_ofNat _
    rw [put_of_lt inside, List.set_append_right _ _ (by omega), length, Nat.add_sub_cancel_left]
    rfl
  rw [first, Option.bind_some, second, terminated, cells_append, List.append_assoc]
  rfl

/-- Overwriting the second component of a pair. -/
theorem terminated_set {zero v : α} (isPair : pairs[i]? = some p) :
    (terminated zero pairs).set (2 * i + 1) v = terminated zero (pairs.set i (p.1, v)) := by
  induction pairs generalizing i with
  | nil => contradiction
  | cons q rest ih =>
      cases i with
      | zero =>
          obtain rfl : q = p := by simpa using isPair
          rfl
      | succ i => exact congrArg (fun l => q.1 :: q.2 :: l) (ih isPair)

end Clarmor.Arrays
