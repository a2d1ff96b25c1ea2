import Clarmor.Library.Reduce

/-!
# Work-items on a shared memory

An item gives a result and changes a memory, or fails.  Items that touch
different cells can run in any order: each gives the result that it has on the
memory before all of them.  A launch brings the results of its items to cells, by
a minimum scan in every group and one atomic minimum of each group.
-/

namespace Clarmor.Items

open Reduce

universe u v w x

variable {ι : Type u} {α : Type v} {β : Type w} {ρ : Type x}

/-- What one item does. -/
abbrev Item (α : Type v) (β : Type w) (ρ : Type x) := (α → β) → Option (ρ × (α → β))

/-- Run items one after the other. -/
def run (item : ι → Item α β ρ) : List ι → (α → β) → Option (List (ι × ρ) × (α → β))
  | [], m => some ([], m)
  | i :: rest, m =>
      (item i m).bind fun next =>
        (run item rest next.2).map fun after => ((i, next.1) :: after.1, after.2)

/-- An item reads and writes the cells that it touches, and no others. -/
structure Local (item : Item α β ρ) (touches : α → Prop) : Prop where
  frame : ∀ m r m', item m = some (r, m') → ∀ a, ¬ touches a → m' a = m a
  congr : ∀ m n r m', (∀ a, touches a → m a = n a) → item m = some (r, m') →
    ∃ n', item n = some (r, n')

theorem Local.mono {item : Item α β ρ} {touches touches' : α → Prop} (isLocal : Local item touches)
    (le : ∀ a, touches a → touches' a) : Local item touches' where
  frame := fun m r m' ran a outside =>
    isLocal.frame m r m' ran a fun touched => outside (le a touched)
  congr := fun m n r m' same ran =>
    isLocal.congr m n r m' (fun a touched => same a (le a touched)) ran

/-- An item that leaves every memory as it is and has one result. -/
theorem local_of_fixed {item : Item α β ρ} {touches : α → Prop} {r : ρ}
    (fixed : ∀ m, item m = some (r, m)) : Local item touches where
  frame := by
    intro m r' m' ran a _
    rw [fixed] at ran
    rw [(Prod.mk.inj (Option.some.inj ran)).2]
  congr := by
    intro m n r' m' _ ran
    rw [fixed] at ran
    rw [fixed, (Prod.mk.inj (Option.some.inj ran)).1]
    exact ⟨_, rfl⟩

/-- Items that touch different cells, in any order. -/
theorem run_of_disjoint {item : ι → Item α β ρ} {touches : ι → α → Prop} {order : List ι}
    {res : ι → ρ} {m : α → β} (isLocal : ∀ i ∈ order, Local (item i) (touches i))
    (disjoint : ∀ i ∈ order, ∀ j ∈ order, i ≠ j → ∀ a, touches i a → ¬ touches j a)
    (nodup : order.Nodup) (each : ∀ i ∈ order, ∃ m', item i m = some (res i, m')) :
    ∃ m', run item order m = some (order.map fun i => (i, res i), m') := by
  induction order generalizing m with
  | nil => exact ⟨m, rfl⟩
  | cons i rest ih =>
      obtain ⟨apart, nodup⟩ := List.nodup_cons.mp nodup
      obtain ⟨m', first⟩ := each i List.mem_cons_self
      have frame := (isLocal i List.mem_cons_self).frame m (res i) m' first
      have later : ∀ j ∈ rest, ∃ n, item j m' = some (res j, n) := by
        intro j mem
        obtain ⟨n, ran⟩ := each j (List.mem_cons_of_mem i mem)
        refine (isLocal j (List.mem_cons_of_mem i mem)).congr m m' (res j) n ?_ ran
        intro a touched
        have other : j ≠ i := fun same => apart (same ▸ mem)
        exact (frame a (disjoint j (List.mem_cons_of_mem i mem) i List.mem_cons_self other a
          touched)).symm
      obtain ⟨after, ran⟩ := ih (fun j mem => isLocal j (List.mem_cons_of_mem i mem))
        (fun j mem k mem' => disjoint j (List.mem_cons_of_mem i mem) k
          (List.mem_cons_of_mem i mem')) nodup later
      exact ⟨after, by simp [run, first, ran]⟩

/-- One item that fails on every memory makes the run fail. -/
theorem run_eq_none {item : ι → Item α β ρ} {order : List ι} {i : ι} (mem : i ∈ order)
    (fails : ∀ m, item i m = none) (m : α → β) : run item order m = none := by
  induction order generalizing m with
  | nil => exact absurd mem List.not_mem_nil
  | cons j rest ih =>
      rw [run]
      rcases List.mem_cons.mp mem with rfl | mem
      · rw [fails]
        rfl
      · cases item j m with
        | none => rfl
        | some next =>
            rw [Option.bind_some, ih mem]
            rfl

/-- Items that leave a memory as it is. -/
theorem run_of_fixed {item : ι → Item α β ρ} {order : List ι} {res : ι → ρ} {m : α → β}
    (fixed : ∀ i ∈ order, item i m = some (res i, m)) :
    run item order m = some (order.map fun i => (i, res i), m) := by
  induction order with
  | nil => rfl
  | cons i rest ih =>
      rw [run, fixed i List.mem_cons_self, Option.bind_some,
        ih fun j mem => fixed j (List.mem_cons_of_mem i mem)]
      rfl

/-- The result of an item in a list of results. -/
def resultOf [DecidableEq ι] (top : ρ) (results : List (ι × ρ)) (i : ι) : ρ :=
  (results.lookup i).getD top

theorem resultOf_map [DecidableEq ι] {order : List ι} {res : ι → ρ} {top : ρ} {i : ι}
    (mem : i ∈ order) : resultOf top (order.map fun j => (j, res j)) i = res i := by
  induction order with
  | nil => exact absurd mem List.not_mem_nil
  | cons j rest ih =>
      by_cases same : i = j
      · simp [resultOf, same]
      · have later := ih ((List.mem_cons.mp mem).resolve_left same)
        rw [resultOf, List.map_cons, List.lookup_cons, beq_false_of_ne same]
        exact later

/-! ## Launches -/

variable {κ : Type u} [DecidableEq κ] [LinearOrder ρ]

/-- The order of the items of a launch, and of its atomic operations. -/
structure Schedule (κ : Type u) (ρ : Type x) where
  items : List Nat → List Nat
  atomics : List (κ × ρ) → List (κ × ρ)
  items_perm : ∀ l, (items l).Perm l
  atomics_perm : ∀ l, (atomics l).Perm l

/-- Everything in its own order. -/
def Schedule.inOrder (κ : Type u) (ρ : Type x) : Schedule κ ρ :=
  ⟨id, id, fun l => List.Perm.refl l, fun l => List.Perm.refl l⟩

/-- One item before all others. -/
def Schedule.itemFirst (κ : Type u) (ρ : Type x) (i : Nat) : Schedule κ ρ where
  items := fun l => if i ∈ l then i :: l.erase i else l
  atomics := id
  items_perm := by
    intro l
    split_ifs with mem
    · exact (List.perm_cons_erase mem).symm
    · exact List.Perm.refl l
  atomics_perm := fun l => List.Perm.refl l

/-- The items of a launch: the size of a group, how many items there are, which of
them take part, which send besides the last of each group, and to which cell. -/
structure Grid (κ : Type u) where
  size : Nat
  total : Nat
  part : Nat → Bool
  sends : Nat → Bool
  cell : Nat → κ

/-- The groups are whole, and the items of one take part together and have one
cell. -/
structure Grid.Uniform (grid : Grid κ) : Prop where
  whole : grid.size ∣ grid.total
  group : ∀ t u, t / grid.size = u / grid.size →
    grid.part t = grid.part u ∧ grid.cell t = grid.cell u

/-- Run the items, then the atomic operations: the cells, and the memory. -/
def launch (grid : Grid κ) (s : Schedule κ ρ) (top : ρ) (item : Nat → Item α β ρ) (m : α → β) :
    Option ((κ → ρ) × (α → β)) :=
  (run item (s.items (List.range grid.total)) m).map fun after =>
    (runAtomics (s.atomics (groupOps top grid.size grid.total grid.part grid.sends grid.cell
      (resultOf top after.1))) fun _ => top, after.2)

/-- A launch whose cells hold something before. -/
def launchFrom (grid : Grid κ) (s : Schedule κ ρ) (top : ρ) (cells : κ → ρ)
    (item : Nat → Item α β ρ) (m : α → β) : Option ((κ → ρ) × (α → β)) :=
  (run item (s.items (List.range grid.total)) m).map fun after =>
    (runAtomics (s.atomics (groupOps top grid.size grid.total grid.part grid.sends grid.cell
      (resultOf top after.1))) cells, after.2)

/-- The atomic operations of a launch whose items have these results. -/
def atomicsOf (grid : Grid κ) (s : Schedule κ ρ) (top : ρ) (res : Nat → ρ) : List (κ × ρ) :=
  s.atomics (groupOps top grid.size grid.total grid.part grid.sends grid.cell
    (resultOf top ((s.items (List.range grid.total)).map fun t => (t, res t))))

/-- Every cell holds the least result of the items that take part and have it. -/
structure Gathers (grid : Grid κ) (top : ρ) (res : Nat → ρ) (first : κ → ρ) : Prop where
  le_top : ∀ c, first c ≤ top
  le_iff : ∀ c x, x < top →
    (first c ≤ x ↔ ∃ t < grid.total, grid.part t = true ∧ grid.cell t = c ∧ res t ≤ x)

variable {grid : Grid κ} {s : Schedule κ ρ} {top : ρ} {item : Nat → Item α β ρ} {m m' : α → β}
  {res : Nat → ρ}

theorem launch_of_run (uniform : grid.Uniform)
    (ran : run item (s.items (List.range grid.total)) m =
      some ((s.items (List.range grid.total)).map fun t => (t, res t), m')) :
    ∃ first, launch grid s top item m = some (first, m') ∧ Gathers grid top res first := by
  refine ⟨_, by rw [launch, ran, Option.map_some], fun c => runAtomics_le_top _ c,
    fun c x below => ?_⟩
  rw [runAtomics_groupOps_le_iff below uniform.whole uniform.group (s.atomics_perm _)]
  have result : ∀ t < grid.total, resultOf top
      ((s.items (List.range grid.total)).map fun t => (t, res t)) t = res t := fun t tLt =>
    resultOf_map ((s.items_perm _).mem_iff.mpr (List.mem_range.mpr tLt))
  constructor
  · rintro ⟨t, tLt, takes, here, le⟩
    rw [result t tLt] at le
    exact ⟨t, tLt, takes, here, le⟩
  · rintro ⟨t, tLt, takes, here, le⟩
    rw [← result t tLt] at le
    exact ⟨t, tLt, takes, here, le⟩

/-- A launch of items that touch different cells of the memory. -/
theorem launch_of_disjoint {touches : Nat → α → Prop} (uniform : grid.Uniform)
    (isLocal : ∀ t < grid.total, Local (item t) (touches t))
    (disjoint : ∀ t < grid.total, ∀ u < grid.total, t ≠ u → ∀ a, touches t a → ¬ touches u a)
    (each : ∀ t < grid.total, ∃ m', item t m = some (res t, m')) :
    ∃ first m', launch grid s top item m = some (first, m') ∧ Gathers grid top res first := by
  have below : ∀ t ∈ s.items (List.range grid.total), t < grid.total := fun t mem =>
    List.mem_range.mp ((s.items_perm _).mem_iff.mp mem)
  obtain ⟨m', ran⟩ := run_of_disjoint (fun t mem => isLocal t (below t mem))
    (fun t mem u mem' => disjoint t (below t mem) u (below u mem'))
    ((s.items_perm _).nodup_iff.mpr List.nodup_range) fun t mem => each t (below t mem)
  obtain ⟨first, launched, gathers⟩ :=
    @launch_of_run _ _ _ _ _ _ grid s top item m m' res uniform ran
  exact ⟨first, m', launched, gathers⟩

/-- The cells of a launch, from the results of its items. -/
theorem launchFrom_of_run {cells : κ → ρ}
    (ran : run item (s.items (List.range grid.total)) m =
      some ((s.items (List.range grid.total)).map fun t => (t, res t), m')) :
    launchFrom grid s top cells item m =
      some (runAtomics (atomicsOf grid s top res) cells, m') := by
  rw [launchFrom, ran]
  rfl

/-- A cell that holds the top value before holds the least result of its items after. -/
theorem gathers_atomicsOf (uniform : grid.Uniform) :
    Gathers grid top res (runAtomics (atomicsOf grid s top res) fun _ => top) := by
  have ran : run (fun t m => some (res t, m)) (s.items (List.range grid.total))
      (fun _ : Unit => ()) =
        some ((s.items (List.range grid.total)).map fun t => (t, res t), fun _ => ()) :=
    run_of_fixed fun _ _ => rfl
  obtain ⟨first, launched, gathers⟩ := @launch_of_run _ _ _ _ _ _ grid s top _ _ _ res uniform ran
  rw [launch, ran] at launched
  obtain ⟨same, -⟩ := Prod.mk.inj (Option.some.inj launched)
  rw [← same] at gathers
  exact gathers

omit [DecidableEq κ] in
theorem atomicsOf_congr {res' : Nat → ρ} (same : ∀ t < grid.total, res t = res' t) :
    atomicsOf grid s top res = atomicsOf grid s top res' := by
  have results : ((s.items (List.range grid.total)).map fun t => (t, res t)) =
      (s.items (List.range grid.total)).map fun t => (t, res' t) := by
    refine List.map_congr_left fun t mem => ?_
    rw [same t (List.mem_range.mp ((s.items_perm _).mem_iff.mp mem))]
  rw [atomicsOf, results, atomicsOf]

/-- A cell after atomic operations depends on what it held before and on them. -/
theorem runAtomics_congr {ops : List (κ × ρ)} {cells cells' : κ → ρ} {c : κ}
    (same : cells c = cells' c) : runAtomics ops cells c = runAtomics ops cells' c := by
  rw [runAtomics_apply, runAtomics_apply, same]

/-- A cell that no item has keeps what it held. -/
theorem runAtomics_atomicsOf_of_ne {cells : κ → ρ} {c : κ}
    (other : ∀ t < grid.total, grid.cell t ≠ c) :
    runAtomics (atomicsOf grid s top res) cells c = cells c := by
  have none : (atomicsOf grid s top res).filter (fun op => op.1 = c) = [] := by
    rw [List.filter_eq_nil_iff]
    intro op mem here
    have inOps := (s.atomics_perm _).mem_iff.mp mem
    obtain ⟨t, tMem, sent⟩ := List.mem_flatMap.mp inOps
    split_ifs at sent
    · rw [List.mem_singleton.mp sent] at here
      exact other t (List.mem_range.mp tMem) (of_decide_eq_true here)
    · contradiction
  rw [runAtomics_apply, none]
  rfl

omit [LinearOrder ρ] in
/-- Items that write one value in every cell that they touch. -/
theorem run_writes {touches : Nat → α → Prop} {value : α → β} {order : List Nat}
    {results : List (Nat × ρ)}
    (writes : ∀ t ∈ order, ∀ m r m', item t m = some (r, m') →
      (∀ a, touches t a → m' a = value a) ∧ ∀ a, ¬ touches t a → m' a = m a)
    (ran : run item order m = some (results, m')) (a : α) :
    ((∃ t ∈ order, touches t a) → m' a = value a) ∧
      ((∀ t ∈ order, ¬ touches t a) → m' a = m a) := by
  induction order generalizing m results with
  | nil =>
      obtain ⟨-, rfl⟩ := Prod.mk.inj (Option.some.inj ran)
      refine ⟨?_, fun _ => rfl⟩
      rintro ⟨t, mem, -⟩
      exact absurd mem List.not_mem_nil
  | cons t order ih =>
      rw [run] at ran
      obtain ⟨⟨r, n⟩, first, ran⟩ := Option.bind_eq_some_iff.mp ran
      obtain ⟨⟨rest, n'⟩, later, ran⟩ := Option.map_eq_some_iff.mp ran
      obtain ⟨-, rfl⟩ := Prod.mk.inj ran
      obtain ⟨written, kept⟩ := writes t List.mem_cons_self m r n first
      obtain ⟨written', kept'⟩ := ih (fun u mem => writes u (List.mem_cons_of_mem t mem)) later
      constructor
      · rintro ⟨u, mem, touched⟩
        by_cases again : ∃ u ∈ order, touches u a
        · exact written' again
        · push Not at again
          rw [kept' again]
          rcases List.mem_cons.mp mem with rfl | mem
          · exact written a touched
          · exact absurd touched (again u mem)
      · intro outside
        rw [kept' fun u mem => outside u (List.mem_cons_of_mem t mem)]
        exact kept a (outside t List.mem_cons_self)

theorem launch_eq_none {t : Nat} (tLt : t < grid.total) (fails : ∀ m, item t m = none)
    (m : α → β) : launch grid s top item m = none := by
  rw [launch, run_eq_none ((s.items_perm _).mem_iff.mpr (List.mem_range.mpr tLt)) fails]
  rfl

end Clarmor.Items
