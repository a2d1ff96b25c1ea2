import Mathlib

/-!
# Minimum reductions

The minimum of a list under a top value, computed at once, group by group with
an inclusive scan inside each group, or by atomic minimum operations on shared
cells in any order.  All of them are characterised by which bounds the result
lies under, and so agree.
-/

namespace Clarmor.Reduce

universe u v

variable {α : Type u} [LinearOrder α]

/-- The least of `top` and the members of a list. -/
def minAll (top : α) (l : List α) : α := l.foldr min top

@[simp]
theorem minAll_nil (top : α) : minAll top [] = top :=
  rfl

@[simp]
theorem minAll_cons (top a : α) (l : List α) : minAll top (a :: l) = min a (minAll top l) :=
  rfl

theorem minAll_le_iff {top x : α} {l : List α} :
    minAll top l ≤ x ↔ top ≤ x ∨ ∃ y ∈ l, y ≤ x := by
  induction l with
  | nil => simp
  | cons a l ih =>
      simp only [minAll_cons, min_le_iff, ih, List.exists_mem_cons_iff]
      tauto

theorem minAll_le_top (top : α) (l : List α) : minAll top l ≤ top :=
  minAll_le_iff.mpr (Or.inl le_rfl)

/-- Two reductions agree when the same bounds lie above them. -/
theorem minAll_eq_of_forall {top : α} {l l' : List α}
    (same : ∀ x, x < top → ((∃ y ∈ l, y ≤ x) ↔ ∃ y ∈ l', y ≤ x)) :
    minAll top l = minAll top l' := by
  apply eq_of_forall_ge_iff
  intro x
  rw [minAll_le_iff, minAll_le_iff]
  by_cases above : top ≤ x
  · simp [above]
  · rw [same x (not_le.mp above)]

theorem minAll_perm {top : α} {l l' : List α} (perm : l.Perm l') :
    minAll top l = minAll top l' :=
  minAll_eq_of_forall fun x _ => by simp [perm.mem_iff]

/-- The `j`-th value of an inclusive minimum scan. -/
def scanMin (top : α) (l : List α) (j : Nat) : α := minAll top (l.take (j + 1))

/-- The last value of the scan reduces the whole list. -/
theorem scanMin_last (top : α) {l : List α} {j : Nat} (last : l.length ≤ j + 1) :
    scanMin top l j = minAll top l := by
  rw [scanMin, List.take_of_length_le last]

/-! ## Atomic minimum operations -/

variable {ι : Type v} [DecidableEq ι]

/-- One atomic minimum: a cell takes the smaller of its value and the operand. -/
def atomicMin (cells : ι → α) (op : ι × α) : ι → α :=
  Function.update cells op.1 (min (cells op.1) op.2)

/-- The cells after the operations of a list, one after the other. -/
def runAtomics (ops : List (ι × α)) (cells : ι → α) : ι → α :=
  ops.foldl atomicMin cells

/-- After any operations a cell holds the least of its first value and of all
operands sent to it. -/
theorem runAtomics_apply (ops : List (ι × α)) (cells : ι → α) (i : ι) :
    runAtomics ops cells i =
      minAll (cells i) ((ops.filter fun op => op.1 = i).map Prod.snd) := by
  induction ops generalizing cells with
  | nil => rfl
  | cons op ops ih =>
      change runAtomics ops (atomicMin cells op) i = _
      rw [ih]
      by_cases here : op.1 = i
      · subst here
        simp only [atomicMin, Function.update_self, decide_true, List.filter_cons_of_pos,
          List.map_cons, minAll_cons]
        apply eq_of_forall_ge_iff
        intro x
        simp only [minAll_le_iff, min_le_iff]
        tauto
      · have ne : i ≠ op.1 := fun h => here h.symm
        simp [atomicMin, here, Function.update_of_ne ne]

/-- The order of atomic operations does not matter. -/
theorem runAtomics_perm {ops ops' : List (ι × α)} (perm : ops.Perm ops') (cells : ι → α) :
    runAtomics ops cells = runAtomics ops' cells := by
  funext i
  rw [runAtomics_apply, runAtomics_apply]
  exact minAll_perm ((perm.filter _).map _)

/-- What a cell holds after the operations of items that send one each, or none, in any
order. -/
theorem runAtomics_filterMap_le_iff {top x : α} {total : Nat} {item : Nat → Option (ι × α)}
    {ops : List (ι × α)} {c : ι} (below : x < top)
    (perm : ops.Perm ((List.range total).filterMap item)) :
    runAtomics ops (fun _ => top) c ≤ x ↔ ∃ t < total, ∃ v, item t = some (c, v) ∧ v ≤ x := by
  rw [runAtomics_perm perm, runAtomics_apply, minAll_le_iff]
  simp only [not_le.mpr below, false_or, List.mem_map, List.mem_filter, List.mem_filterMap,
    List.mem_range, decide_eq_true_eq]
  constructor
  · rintro ⟨y, ⟨op, ⟨⟨t, tLt, sent⟩, here⟩, rfl⟩, le⟩
    exact ⟨t, tLt, op.2, by rw [sent, ← here], le⟩
  · rintro ⟨t, tLt, v, sent, le⟩
    exact ⟨v, ⟨(c, v), ⟨⟨t, tLt, sent⟩, rfl⟩, rfl⟩, le⟩

/-! ## Groups of items -/

/-- The operations of the items of a launch.  An item that takes part sends the
value that the scan of its group has at its place when it is the last of the group,
or is told to. -/
def groupOps (top : α) (size total : Nat) (part : Nat → Bool) (sends : Nat → Bool)
    (cell : Nat → ι) (value : Nat → α) : List (ι × α) :=
  (List.range total).flatMap fun t =>
    if part t && (t % size + 1 == size || sends t) then
      [(cell t, scanMin top ((List.range size).map fun l => value (size * (t / size) + l))
        (t % size))]
    else []

omit [DecidableEq ι] in
/-- The operations on a cell come to the least value of the items of that cell. -/
theorem exists_groupOps_iff {top x : α} {size total : Nat} {part sends : Nat → Bool}
    {cell : Nat → ι} {value : Nat → α} {c : ι} (below : x < top) (whole : size ∣ total)
    (uniform : ∀ t u, t / size = u / size → part t = part u ∧ cell t = cell u) :
    (∃ op ∈ groupOps top size total part sends cell value, op.1 = c ∧ op.2 ≤ x) ↔
      ∃ t < total, part t = true ∧ cell t = c ∧ value t ≤ x := by
  have pos : ∀ t < total, 0 < size := by
    rintro t tLt
    rcases Nat.eq_zero_or_pos size with rfl | pos
    · rw [Nat.eq_zero_of_zero_dvd whole] at tLt
      omega
    · exact pos
  constructor
  · rintro ⟨op, mem, here, le⟩
    obtain ⟨t, tMem, mem⟩ := List.mem_flatMap.mp mem
    have tLt := List.mem_range.mp tMem
    split_ifs at mem with takes
    · obtain rfl := List.mem_singleton.mp mem
      rw [Bool.and_eq_true] at takes
      rcases minAll_le_iff.mp le with le | ⟨y, yMem, le⟩
      · exact absurd (lt_of_lt_of_le below le) (lt_irrefl x)
      · obtain ⟨l, lMem, rfl⟩ := List.mem_map.mp (List.mem_of_mem_take yMem)
        have lLt := List.mem_range.mp lMem
        have group : t / size = (size * (t / size) + l) / size := by
          rw [Nat.mul_add_div (pos t tLt), Nat.div_eq_of_lt lLt, Nat.add_zero]
        obtain ⟨samePart, sameCell⟩ := uniform t _ group
        refine ⟨size * (t / size) + l, ?_, samePart ▸ takes.1, sameCell ▸ here, le⟩
        obtain ⟨groups, rfl⟩ := whole
        have inside : t / size < groups := Nat.div_lt_of_lt_mul tLt
        calc size * (t / size) + l < size * (t / size) + size := by omega
          _ = size * (t / size + 1) := (Nat.mul_succ _ _).symm
          _ ≤ size * groups := Nat.mul_le_mul_left size inside
    · exact absurd mem List.not_mem_nil
  · rintro ⟨t, tLt, takes, here, le⟩
    have sizePos := pos t tLt
    -- The last item of the group sends the least value of the group.
    have short : size - 1 < size := Nat.sub_lt sizePos Nat.one_pos
    have group : t / size = (size * (t / size) + (size - 1)) / size := by
      rw [Nat.mul_add_div sizePos, Nat.div_eq_of_lt short, Nat.add_zero]
    have place : (size * (t / size) + (size - 1)) % size = size - 1 := by
      rw [Nat.mul_add_mod, Nat.mod_eq_of_lt short]
    obtain ⟨samePart, sameCell⟩ := uniform t _ group
    have inside : size * (t / size) + (size - 1) < total := by
      obtain ⟨groups, rfl⟩ := whole
      have inside : t / size < groups := Nat.div_lt_of_lt_mul tLt
      calc size * (t / size) + (size - 1) < size * (t / size) + size := by omega
        _ = size * (t / size + 1) := (Nat.mul_succ _ _).symm
        _ ≤ size * groups := Nat.mul_le_mul_left size inside
    refine ⟨(cell (size * (t / size) + (size - 1)), scanMin top
      ((List.range size).map fun l => value (size * (t / size) + l)) (size - 1)),
      List.mem_flatMap.mpr ⟨_, List.mem_range.mpr inside, ?_⟩, sameCell ▸ here, ?_⟩
    · rw [if_pos, place, ← group]
      · exact List.mem_singleton_self _
      · rw [place, ← samePart, takes, Nat.sub_add_cancel sizePos]
        simp
    · rw [scanMin_last, minAll_le_iff]
      · refine Or.inr ⟨value t, List.mem_map.mpr ⟨t % size, ?_, ?_⟩, le⟩
        · exact List.mem_range.mpr (Nat.mod_lt t sizePos)
        · rw [Nat.div_add_mod]
      · rw [List.length_map, List.length_range]
        omega

/-- What a cell holds after the operations of a launch, in any order. -/
theorem runAtomics_groupOps_le_iff {top x : α} {size total : Nat} {part sends : Nat → Bool}
    {cell : Nat → ι} {value : Nat → α} {ops : List (ι × α)} {c : ι} (below : x < top)
    (whole : size ∣ total)
    (uniform : ∀ t u, t / size = u / size → part t = part u ∧ cell t = cell u)
    (perm : ops.Perm (groupOps top size total part sends cell value)) :
    runAtomics ops (fun _ => top) c ≤ x ↔
      ∃ t < total, part t = true ∧ cell t = c ∧ value t ≤ x := by
  rw [runAtomics_perm perm, runAtomics_apply, minAll_le_iff, ← exists_groupOps_iff below whole
    uniform]
  simp only [not_le.mpr below, false_or, List.mem_map, List.mem_filter, decide_eq_true_eq]
  constructor
  · rintro ⟨y, ⟨op, ⟨mem, here⟩, rfl⟩, le⟩
    exact ⟨op, mem, here, le⟩
  · rintro ⟨op, mem, here, le⟩
    exact ⟨op.2, ⟨op, ⟨mem, here⟩, rfl⟩, le⟩

theorem runAtomics_le_top {top : α} (ops : List (ι × α)) (c : ι) :
    runAtomics ops (fun _ => top) c ≤ top := by
  rw [runAtomics_apply]
  exact minAll_le_top _ _

end Clarmor.Reduce
