import Mathlib

/-!
# Boxes of a three-dimensional grid

A box is an origin and an extent in each direction.  Reading its points row by
row and slice by slice numbers them from `0` to `volume - 1`, each number used
exactly once.
-/

namespace Clarmor

/-- A point of the grid. -/
@[ext]
structure Point where
  x : Nat
  y : Nat
  z : Nat
deriving DecidableEq, Repr

/-- A box of grid points. -/
@[ext]
structure Box where
  ox : Nat
  oy : Nat
  oz : Nat
  rx : Nat
  ry : Nat
  rz : Nat
deriving DecidableEq, Repr

namespace Box

/-- The points of a box. -/
def Mem (b : Box) (p : Point) : Prop :=
  (b.ox ≤ p.x ∧ p.x < b.ox + b.rx) ∧ (b.oy ≤ p.y ∧ p.y < b.oy + b.ry) ∧
    (b.oz ≤ p.z ∧ p.z < b.oz + b.rz)

instance (b : Box) (p : Point) : Decidable (b.Mem p) := by
  unfold Mem
  infer_instance

/-- The number of points. -/
def volume (b : Box) : Nat := b.rz * b.ry * b.rx

/-- Position of a point in the row-by-row, slice-by-slice order. -/
def index (b : Box) (p : Point) : Nat :=
  ((p.z - b.oz) * b.ry + (p.y - b.oy)) * b.rx + (p.x - b.ox)

/-- Two boxes without a common point. -/
def Disjoint (b c : Box) : Prop := ∀ p, b.Mem p → ¬ c.Mem p

/-- A mixed-radix numeral is below the product of its radices. -/
theorem mul_add_lt {a b m n : Nat} (aLt : a < m) (bLt : b < n) : a * n + b < m * n := by
  calc
    a * n + b < a * n + n := by omega
    _ = (a + 1) * n := by ring
    _ ≤ m * n := Nat.mul_le_mul_right n aLt

/-- A part of one row holds the numerals with this row as their first digit. -/
theorem mul_add_between (q r lo : Nat) {x hi m : Nat} (xLt : x < m) (hiLe : hi ≤ m) :
    r * m + lo ≤ q * m + x ∧ q * m + x < r * m + hi ↔ q = r ∧ lo ≤ x ∧ x < hi := by
  rcases lt_trichotomy q r with before | rfl | after
  · have rows : (q + 1) * m ≤ r * m := Nat.mul_le_mul_right m before
    rw [Nat.succ_mul] at rows
    omega
  · omega
  · have rows : (r + 1) * m ≤ q * m := Nat.mul_le_mul_right m after
    rw [Nat.succ_mul] at rows
    omega

theorem index_lt {b : Box} {p : Point} (member : b.Mem p) : b.index p < b.volume := by
  obtain ⟨⟨xLo, xHi⟩, ⟨yLo, yHi⟩, zLo, zHi⟩ := member
  exact mul_add_lt (mul_add_lt (by omega) (by omega)) (by omega)

/-- The point with a given position. -/
def point (b : Box) (n : Nat) : Point :=
  ⟨b.ox + n % b.rx, b.oy + n / b.rx % b.ry, b.oz + n / b.rx / b.ry⟩

theorem point_mem {b : Box} {n : Nat} (below : n < b.volume) : b.Mem (b.point n) := by
  have rx_pos : 0 < b.rx := by
    by_contra empty
    simp [volume, show b.rx = 0 by omega] at below
  have ry_pos : 0 < b.ry := by
    by_contra empty
    simp [volume, show b.ry = 0 by omega] at below
  have zLt : n / b.rx / b.ry < b.rz := by
    rw [Nat.div_div_eq_div_mul]
    apply Nat.div_lt_of_lt_mul
    calc
      n < b.rz * b.ry * b.rx := below
      _ = b.rx * b.ry * b.rz := by ring
  exact ⟨⟨Nat.le_add_right _ _, Nat.add_lt_add_left (Nat.mod_lt _ rx_pos) _⟩,
    ⟨Nat.le_add_right _ _, Nat.add_lt_add_left (Nat.mod_lt _ ry_pos) _⟩,
    Nat.le_add_right _ _, Nat.add_lt_add_left zLt _⟩

theorem index_point {b : Box} {n : Nat} : b.index (b.point n) = n := by
  simp only [index, point, Nat.add_sub_cancel_left]
  rw [Nat.div_add_mod', Nat.div_add_mod']

theorem point_index {b : Box} {p : Point} (member : b.Mem p) : b.point (b.index p) = p := by
  obtain ⟨⟨xLo, xHi⟩, ⟨yLo, yHi⟩, zLo, zHi⟩ := member
  have rx_pos : 0 < b.rx := by omega
  have ry_pos : 0 < b.ry := by omega
  have xLt : p.x - b.ox < b.rx := by omega
  have yLt : p.y - b.oy < b.ry := by omega
  have row : b.index p / b.rx = (p.z - b.oz) * b.ry + (p.y - b.oy) := by
    rw [index, Nat.add_comm, Nat.add_mul_div_right _ _ rx_pos, Nat.div_eq_of_lt xLt, Nat.zero_add]
  have col : b.index p % b.rx = p.x - b.ox := by
    rw [index, Nat.add_comm, Nat.add_mul_mod_self_right, Nat.mod_eq_of_lt xLt]
  have slice : ((p.z - b.oz) * b.ry + (p.y - b.oy)) / b.ry = p.z - b.oz := by
    rw [Nat.add_comm, Nat.add_mul_div_right _ _ ry_pos, Nat.div_eq_of_lt yLt, Nat.zero_add]
  have inSlice : ((p.z - b.oz) * b.ry + (p.y - b.oy)) % b.ry = p.y - b.oy := by
    rw [Nat.add_comm, Nat.add_mul_mod_self_right, Nat.mod_eq_of_lt yLt]
  ext
  · simp only [point, col]
    omega
  · simp only [point, row, inSlice]
    omega
  · simp only [point, row, slice]
    omega

theorem finite_setOf_mem (b : Box) : {p | b.Mem p}.Finite :=
  ((Set.finite_Iio b.volume).image b.point).subset fun _ member =>
    ⟨_, index_lt member, point_index member⟩

/-- The volume counts the points. -/
theorem ncard_setOf_mem (b : Box) : {p | b.Mem p}.ncard = b.volume := by
  refine Set.ncard_eq_of_bijective (fun n _ => b.point n) ?_ (fun _ below => point_mem below) ?_
  · intro p member
    exact ⟨b.index p, index_lt member, point_index member⟩
  · intro m n _ _ same
    rw [← @index_point b m, ← @index_point b n]
    exact congrArg b.index same

end Box

end Clarmor
