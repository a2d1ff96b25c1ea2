import Clarmor.Library.SortedList
import Clarmor.Library.Table

/-!
# Linked lists in a heap

Nodes lie at addresses, and a node has the address of the next one.  The loops that
insert, unlink and find a node read and write through these addresses; where no node
lies, they fail.  A chain is the list that a pointer leads to, with its addresses, and
on a chain the loops do what the operations of a sorted list do.  The nodes outside
of the chain stay as they are, and no item is changed.
-/

namespace Clarmor.LinkedList

universe u v

variable {α : Type u} {κ : Type v} [LinearOrder κ]

/-- An item, and the address of the next node. -/
structure Node (α : Type u) where
  item : α
  next : Option Nat

/-- The nodes by their addresses. -/
abbrev Nodes (α : Type u) := Table Nat (Node α)

/-- The assignment `p->next = next`. -/
def setNext (nodes : Nodes α) (p : Nat) (next : Option Nat) : Option (Nodes α) :=
  (nodes.find p).map fun _ => nodes.modify p fun node => { node with next := next }

/-- The loop of `insert`, when `prev` is the node before `lp`. -/
def insertFrom (key : α → κ) (nodes : Nodes α) (list : Option Nat) (item : Nat) :
    Nat → Option Nat → Option Nat → Option (Nodes α × Option Nat)
  | 0, _, _ => none
  | _ + 1, prev, none =>
      prev.bind fun prev =>
      (setNext nodes prev (some item)).bind fun nodes =>
      (setNext nodes item none).map fun nodes => (nodes, list)
  | fuel + 1, prev, some lp =>
      (nodes.find item).bind fun new =>
      (nodes.find lp).bind fun node =>
      if key new.item < key node.item then
        (setNext nodes item (some lp)).bind fun nodes =>
        match prev with
        | some prev => (setNext nodes prev (some item)).map fun nodes => (nodes, list)
        | none => some (nodes, some item)
      else insertFrom key nodes list item fuel (some lp) node.next

/-- `insert`, with the nodes and the head of the list after it. -/
def insert (key : α → κ) (fuel : Nat) (nodes : Nodes α) (list : Option Nat) (item : Nat) :
    Option (Nodes α × Option Nat) :=
  match list with
  | none => (setNext nodes item none).map fun nodes => (nodes, some item)
  | some _ => insertFrom key nodes list item fuel none list

/-- The loop of `remove`, when `prev` is the node before `lp`. -/
def removeFrom (key : α → κ) (nodes : Nodes α) (list : Option Nat) (handle : κ) :
    Nat → Option Nat → Option Nat → Option (Option Nat × Nodes α × Option Nat)
  | 0, _, _ => none
  | _ + 1, _, none => some (none, nodes, list)
  | fuel + 1, prev, some lp =>
      (nodes.find lp).bind fun node =>
      if key node.item = handle then
        match prev with
        | some prev => (setNext nodes prev node.next).map fun nodes => (some lp, nodes, list)
        | none => some (some lp, nodes, node.next)
      else if handle < key node.item then some (none, nodes, list)
      else removeFrom key nodes list handle fuel (some lp) node.next

/-- `remove`, with the node that was unlinked, and the nodes and the head after it. -/
def remove (key : α → κ) (fuel : Nat) (nodes : Nodes α) (list : Option Nat) (handle : κ) :
    Option (Option Nat × Nodes α × Option Nat) :=
  removeFrom key nodes list handle fuel none list

/-- `find`. -/
def find (key : α → κ) (nodes : Nodes α) (handle : κ) :
    Nat → Option Nat → Option (Option Nat)
  | 0, _ => none
  | _ + 1, none => some none
  | fuel + 1, some lp =>
      (nodes.find lp).bind fun node =>
      if key node.item = handle then some (some lp)
      else if handle < key node.item then some none
      else find key nodes handle fuel node.next

/-! ## Chains -/

/-- A pointer leads to these items, at these addresses. -/
def Chain (nodes : Nodes α) : Option Nat → List (Nat × α) → Prop
  | list, [] => list = none
  | list, (p, item) :: rest =>
      list = some p ∧ ∃ next, nodes.find p = some ⟨item, next⟩ ∧ Chain nodes next rest

/-- The addresses of a list. -/
def addresses (l : List (Nat × α)) : List Nat := l.map Prod.fst

variable {key : α → κ} {nodes nodes' : Nodes α} {list next : Option Nat} {l l' : List (Nat × α)}
  {p q : Nat} {item : α} {handle : κ}

@[simp]
theorem addresses_nil : addresses ([] : List (Nat × α)) = [] := rfl

@[simp]
theorem addresses_cons : addresses ((p, item) :: l) = p :: addresses l := rfl

theorem mem_addresses : p ∈ addresses l ↔ ∃ item, (p, item) ∈ l := by
  rw [addresses, List.mem_map]
  constructor
  · rintro ⟨⟨p, item⟩, mem, rfl⟩
    exact ⟨item, mem⟩
  · rintro ⟨item, mem⟩
    exact ⟨(p, item), mem, rfl⟩

/-- A pointer leads to one list. -/
theorem Chain.unique (chain : Chain nodes list l) (chain' : Chain nodes list l') : l = l' := by
  induction l generalizing list l' with
  | nil =>
      cases l' with
      | nil => rfl
      | cons e rest => exact absurd (chain.symm.trans chain'.1) (Option.some_ne_none e.1).symm
  | cons e rest ih =>
      obtain ⟨rfl, next, found, chain⟩ := chain
      cases l' with
      | nil => exact absurd chain' (Option.some_ne_none e.1)
      | cons e' rest' =>
          obtain ⟨same, next', found', chain'⟩ := chain'
          obtain ⟨p, item⟩ := e
          obtain ⟨p', item'⟩ := e'
          obtain rfl := Option.some.inj same
          rw [found, Option.some.injEq, Node.mk.injEq] at found'
          obtain ⟨rfl, rfl⟩ := found'
          rw [ih chain chain']

theorem Chain.mem (chain : Chain nodes list l) (mem : (p, item) ∈ l) :
    ∃ next, nodes.find p = some ⟨item, next⟩ := by
  induction l generalizing list with
  | nil => exact absurd mem List.not_mem_nil
  | cons e rest ih =>
      obtain ⟨-, next, found, chain⟩ := chain
      rcases List.mem_cons.mp mem with rfl | mem
      · exact ⟨next, found⟩
      · exact ih chain mem

/-- A chain depends on its own nodes. -/
theorem Chain.congr (chain : Chain nodes list l)
    (same : ∀ p ∈ addresses l, nodes'.find p = nodes.find p) : Chain nodes' list l := by
  induction l generalizing list with
  | nil => exact chain
  | cons e rest ih =>
      obtain ⟨isHead, next, found, chain⟩ := chain
      refine ⟨isHead, next, (same e.1 List.mem_cons_self).trans found, ih chain fun p mem => ?_⟩
      exact same p (List.mem_cons_of_mem e.1 mem)

/-- What a node of a chain leads to is the rest of it. -/
theorem Chain.suffix (chain : Chain nodes list l) (mem : (p, item) ∈ l) :
    ∃ before after, l = before ++ (p, item) :: after ∧
      Chain nodes (some p) ((p, item) :: after) := by
  induction l generalizing list with
  | nil => exact absurd mem List.not_mem_nil
  | cons e rest ih =>
      have whole := chain
      obtain ⟨rfl, next, found, chain⟩ := chain
      rcases List.mem_cons.mp mem with rfl | mem
      · exact ⟨[], rest, rfl, whole⟩
      · obtain ⟨before, after, rfl, suffix'⟩ := ih chain mem
        exact ⟨e :: before, after, rfl, suffix'⟩

/-- A chain ends, so that it does not come back to a node. -/
theorem Chain.nodup (chain : Chain nodes list l) : (addresses l).Nodup := by
  induction l generalizing list with
  | nil => exact List.nodup_nil
  | cons e rest ih =>
      obtain ⟨p, item⟩ := e
      have whole := chain
      obtain ⟨rfl, next, found, chain⟩ := chain
      refine List.nodup_cons.mpr ⟨fun mem => ?_, ih chain⟩
      obtain ⟨item', mem⟩ := mem_addresses.mp mem
      obtain ⟨before, after, isRest, again⟩ := chain.suffix mem
      have lengths := congrArg List.length (whole.unique again)
      rw [isRest, List.length_cons, List.length_append, List.length_cons] at lengths
      omega

/-- A chain below an address is no longer than the address. -/
theorem Chain.length_le {bound : Nat} (chain : Chain nodes list l)
    (below : ∀ p, bound ≤ p → nodes.find p = none) : l.length ≤ bound := by
  have within : addresses l ⊆ List.range bound := by
    intro p mem
    obtain ⟨item, mem⟩ := mem_addresses.mp mem
    obtain ⟨next, found⟩ := chain.mem mem
    rw [List.mem_range]
    by_contra above
    rw [below p (Nat.le_of_not_lt above)] at found
    contradiction
  have lengths := (List.subperm_of_subset chain.nodup within).length_le
  rwa [addresses, List.length_map, List.length_range] at lengths

/-! ## The loops -/

/-- The items are the same. -/
def SameItems (nodes nodes' : Nodes α) : Prop :=
  ∀ p, (nodes'.find p).map Node.item = (nodes.find p).map Node.item

theorem SameItems.trans {nodes'' : Nodes α} (same : SameItems nodes nodes')
    (same' : SameItems nodes' nodes'') : SameItems nodes nodes'' :=
  fun p => (same' p).trans (same p)

/-- An assignment to the pointer of a node. -/
theorem setNext_of_find {node : Node α} (found : nodes.find p = some node) (next : Option Nat) :
    ∃ nodes', setNext nodes p next = some nodes' ∧ nodes'.find p = some ⟨node.item, next⟩ ∧
      (∀ q ≠ p, nodes'.find q = nodes.find q) ∧ SameItems nodes nodes' := by
  refine ⟨nodes.modify p fun node => { node with next := next }, ?_, ?_, ?_, ?_⟩
  · rw [setNext, found, Option.map_some]
  · rw [Table.find_modify_self, found, Option.map_some]
  · exact fun q other => Table.find_modify_of_ne other
  · intro q
    rw [Table.find_modify]
    split_ifs with here
    · rw [here, Option.map_map]
      rfl
    · rfl

/-- What a loop that starts behind a node `q` does: from `q` on there is a new chain. -/
structure Relinks (nodes nodes' : Nodes α) (q : Nat) (item : α) (l : List (Nat × α))
    (touched : List Nat) : Prop where
  behind : ∃ next, nodes'.find q = some ⟨item, next⟩ ∧ Chain nodes' next l
  frame : ∀ p ≠ q, p ∉ touched → nodes'.find p = nodes.find p
  items : SameItems nodes nodes'

/-- Relinking behind the next node is relinking behind this one. -/
theorem Relinks.behind_next {item' : α} {touched touched' : List Nat}
    (relinks : Relinks nodes nodes' p item l touched) (found : nodes.find q = some ⟨item', some p⟩)
    (other : q ≠ p) (untouched : q ∉ touched) (within : p :: touched ⊆ touched') :
    Relinks nodes nodes' q item' ((p, item) :: l) touched' := by
  obtain ⟨next, found', chain⟩ := relinks.behind
  constructor
  · refine ⟨some p, (relinks.frame q other untouched).trans found, rfl, next, found', chain⟩
  · intro p' _ outside
    refine relinks.frame p' (fun same => outside ?_) fun mem => outside ?_
    · exact within (same ▸ List.mem_cons_self)
    · exact within (List.mem_cons_of_mem p mem)
  · exact relinks.items

/-- The loop of `insert` behind a node. -/
theorem insertFrom_spec {fuel : Nat} {new : Node α} {b : α} (enough : l.length < fuel)
    (isNew : nodes.find p = some new) (found : nodes.find q = some ⟨b, next⟩)
    (chain : Chain nodes next l) (other : q ≠ p) (outside : p ∉ addresses l)
    (outside' : q ∉ addresses l) : ∃ nodes',
      insertFrom key nodes list p fuel (some q) next = some (nodes', list) ∧
        Relinks nodes nodes' q b (SortedList.insert (fun e => key e.2) (p, new.item) l)
          (p :: addresses l) := by
  induction l generalizing q b next fuel with
  | nil =>
      obtain rfl := chain
      obtain ⟨fuel, rfl⟩ := Nat.exists_eq_succ_of_ne_zero (Nat.ne_zero_of_lt enough)
      obtain ⟨nodes₁, ran₁, at₁, frame₁, items₁⟩ := setNext_of_find found (some p)
      have isNew₁ := (frame₁ p other.symm).trans isNew
      obtain ⟨nodes₂, ran₂, at₂, frame₂, items₂⟩ := setNext_of_find isNew₁ none
      refine ⟨nodes₂, ?_, ⟨some p, (frame₂ q other).trans at₁, rfl, none, at₂, rfl⟩, ?_,
        items₁.trans items₂⟩
      · rw [insertFrom, Option.bind_some, ran₁, Option.bind_some, ran₂, Option.map_some]
      · intro p' notQ outside
        rw [frame₂ p' (List.ne_of_not_mem_cons outside), frame₁ p' notQ]
  | cons e rest ih =>
      obtain ⟨lp, c⟩ := e
      obtain ⟨rfl, next, isLp, chain⟩ := chain
      obtain ⟨fuel, rfl⟩ := Nat.exists_eq_succ_of_ne_zero (Nat.ne_zero_of_lt enough)
      rw [addresses_cons, List.mem_cons, not_or] at outside outside'
      rw [insertFrom, isNew, Option.bind_some, isLp, Option.bind_some, SortedList.insert]
      dsimp only
      split_ifs with less
      · obtain ⟨nodes₁, ran₁, at₁, frame₁, items₁⟩ := setNext_of_find isNew (some lp)
        have found₁ := (frame₁ q other).trans found
        obtain ⟨nodes₂, ran₂, at₂, frame₂, items₂⟩ := setNext_of_find found₁ (some p)
        refine ⟨nodes₂, ?_, ⟨some p, at₂, rfl, some lp, (frame₂ p other.symm).trans at₁, rfl, next,
          ?_, ?_⟩, ?_, items₁.trans items₂⟩
        · rw [ran₁, Option.bind_some, ran₂, Option.map_some]
        · rw [frame₂ lp (Ne.symm outside'.1), frame₁ lp (Ne.symm outside.1), isLp]
        · refine chain.congr fun p' mem => ?_
          rw [frame₂ p' (fun same => outside'.2 (same ▸ mem)),
            frame₁ p' (fun same => outside.2 (same ▸ mem))]
        · intro p' notQ outside
          rw [frame₂ p' notQ, frame₁ p' (List.ne_of_not_mem_cons outside)]
      · rw [List.length_cons] at enough
        have apart : lp ∉ addresses rest := by
          have whole : Chain nodes (some lp) ((lp, c) :: rest) := ⟨rfl, next, isLp, chain⟩
          exact (List.nodup_cons.mp whole.nodup).1
        obtain ⟨nodes', ran, relinks⟩ :=
          ih (Nat.lt_of_succ_lt_succ enough) isLp chain (Ne.symm outside.1) outside.2 apart
        refine ⟨nodes', ran, relinks.behind_next found outside'.1 ?_ ?_⟩
        · rw [List.mem_cons, not_or]
          exact ⟨other, outside'.2⟩
        · rw [addresses_cons]
          exact fun p' mem => by
            simp only [List.mem_cons] at mem ⊢
            tauto

/-- What `insert` and `remove` leave. -/
structure Leaves (nodes nodes' : Nodes α) (list : Option Nat) (l : List (Nat × α))
    (touched : List Nat) : Prop where
  chain : Chain nodes' list l
  frame : ∀ p ∉ touched, nodes'.find p = nodes.find p
  items : SameItems nodes nodes'

/-- `insert` of a node that is not on the chain. -/
theorem insert_spec {fuel : Nat} {new : Node α} (enough : l.length < fuel)
    (isNew : nodes.find p = some new) (chain : Chain nodes list l) (outside : p ∉ addresses l) :
    ∃ nodes' list', insert key fuel nodes list p = some (nodes', list') ∧
      Leaves nodes nodes' list' (SortedList.insert (fun e => key e.2) (p, new.item) l)
        (p :: addresses l) := by
  cases l with
  | nil =>
      obtain rfl := chain
      obtain ⟨nodes', ran, found, frame, items⟩ := setNext_of_find isNew none
      refine ⟨nodes', some p, ?_, ⟨rfl, none, found, rfl⟩, fun p' other => ?_, items⟩
      · rw [insert, ran, Option.map_some]
      · exact frame p' (List.ne_of_not_mem_cons other)
  | cons e rest =>
      obtain ⟨lp, c⟩ := e
      have whole := chain
      obtain ⟨rfl, next, isLp, chain⟩ := chain
      obtain ⟨fuel, rfl⟩ := Nat.exists_eq_succ_of_ne_zero (Nat.ne_zero_of_lt enough)
      rw [addresses_cons, List.mem_cons, not_or] at outside
      rw [insert, insertFrom, isNew, Option.bind_some, isLp, Option.bind_some, SortedList.insert]
      dsimp only
      split_ifs with less
      · obtain ⟨nodes', ran, found, frame, items⟩ := setNext_of_find isNew (some lp)
        refine ⟨nodes', some p, ?_, ⟨rfl, some lp, found, whole.congr fun p' mem => ?_⟩,
          fun p' other => ?_, items⟩
        · rw [ran, Option.bind_some]
        · refine frame p' fun same => ?_
          rw [same, addresses_cons, List.mem_cons] at mem
          exact mem.elim outside.1 outside.2
        · exact frame p' (List.ne_of_not_mem_cons other)
      · rw [List.length_cons] at enough
        obtain ⟨nodes', ran, relinks⟩ := @insertFrom_spec _ _ _ key nodes (some lp) next rest p lp
          fuel new c (by omega) isNew isLp chain (Ne.symm outside.1) outside.2
          (List.nodup_cons.mp whole.nodup).1
        obtain ⟨next', found, chain'⟩ := relinks.behind
        refine ⟨nodes', some lp, ran, ⟨rfl, next', found, chain'⟩, fun p' other => ?_,
          relinks.items⟩
        rw [addresses_cons, List.mem_cons, List.mem_cons, not_or, not_or] at other
        refine relinks.frame p' other.2.1 ?_
        rw [List.mem_cons, not_or]
        exact ⟨other.1, other.2.2⟩

/-- The loop of `remove` behind a node. -/
theorem removeFrom_spec {fuel : Nat} {b : α} (enough : l.length < fuel)
    (found : nodes.find q = some ⟨b, next⟩) (chain : Chain nodes next l)
    (outside : q ∉ addresses l) : ∃ nodes',
      removeFrom key nodes list handle fuel (some q) next =
          some ((SortedList.remove (fun e : Nat × α => key e.2) handle l).1.map Prod.fst, nodes',
            list) ∧
        Relinks nodes nodes' q b (SortedList.remove (fun e => key e.2) handle l).2
          (addresses l) := by
  induction l generalizing q b next fuel with
  | nil =>
      obtain rfl := chain
      obtain ⟨fuel, rfl⟩ := Nat.exists_eq_succ_of_ne_zero (Nat.ne_zero_of_lt enough)
      exact ⟨nodes, rfl, ⟨none, found, rfl⟩, fun _ _ _ => rfl, fun _ => rfl⟩
  | cons e rest ih =>
      obtain ⟨lp, c⟩ := e
      have whole := chain
      obtain ⟨rfl, next, isLp, chain⟩ := chain
      obtain ⟨fuel, rfl⟩ := Nat.exists_eq_succ_of_ne_zero (Nat.ne_zero_of_lt enough)
      rw [addresses_cons, List.mem_cons, not_or] at outside
      rw [removeFrom, isLp, Option.bind_some, SortedList.remove]
      dsimp only
      split_ifs with same less
      · obtain ⟨nodes', ran, at', frame, items⟩ := setNext_of_find found next
        refine ⟨nodes', ?_, ⟨next, at', chain.congr fun p' mem => ?_⟩, fun p' other _ => ?_, items⟩
        · rw [ran]
          rfl
        · exact frame p' fun same => outside.2 (same ▸ mem)
        · exact frame p' other
      · exact ⟨nodes, rfl, ⟨some lp, found, whole⟩, fun _ _ _ => rfl, fun _ => rfl⟩
      · rw [List.length_cons] at enough
        obtain ⟨nodes', ran, relinks⟩ :=
          ih (Nat.lt_of_succ_lt_succ enough) isLp chain (List.nodup_cons.mp whole.nodup).1
        exact ⟨nodes', ran, relinks.behind_next found outside.1 outside.2 fun _ => id⟩

/-- `remove` on a chain. -/
theorem remove_spec {fuel : Nat} (enough : l.length < fuel) (chain : Chain nodes list l) :
    ∃ nodes' list', remove key fuel nodes list handle =
        some ((SortedList.remove (fun e : Nat × α => key e.2) handle l).1.map Prod.fst, nodes',
          list') ∧
      Leaves nodes nodes' list' (SortedList.remove (fun e => key e.2) handle l).2
        (addresses l) := by
  cases l with
  | nil =>
      obtain rfl := chain
      obtain ⟨fuel, rfl⟩ := Nat.exists_eq_succ_of_ne_zero (Nat.ne_zero_of_lt enough)
      exact ⟨nodes, none, rfl, rfl, fun _ _ => rfl, fun _ => rfl⟩
  | cons e rest =>
      obtain ⟨lp, c⟩ := e
      have whole := chain
      obtain ⟨rfl, next, isLp, chain⟩ := chain
      obtain ⟨fuel, rfl⟩ := Nat.exists_eq_succ_of_ne_zero (Nat.ne_zero_of_lt enough)
      rw [remove, removeFrom, isLp, Option.bind_some, SortedList.remove]
      dsimp only
      split_ifs with same less
      · exact ⟨nodes, next, rfl, chain, fun _ _ => rfl, fun _ => rfl⟩
      · exact ⟨nodes, some lp, rfl, whole, fun _ _ => rfl, fun _ => rfl⟩
      · rw [List.length_cons] at enough
        obtain ⟨nodes', ran, relinks⟩ := @removeFrom_spec _ _ _ key nodes (some lp) next rest lp
          handle fuel c (by omega) isLp chain (List.nodup_cons.mp whole.nodup).1
        obtain ⟨next', found, chain'⟩ := relinks.behind
        refine ⟨nodes', some lp, ran, ⟨rfl, next', found, chain'⟩, fun p' other => ?_,
          relinks.items⟩
        rw [addresses_cons, List.mem_cons, not_or] at other
        exact relinks.frame p' other.1 other.2

/-- `find` on a chain. -/
theorem find_spec {fuel : Nat} (enough : l.length < fuel) (chain : Chain nodes list l) :
    find key nodes handle fuel list =
      some ((SortedList.find (fun e : Nat × α => key e.2) handle l).map Prod.fst) := by
  induction l generalizing list fuel with
  | nil =>
      obtain rfl := chain
      obtain ⟨fuel, rfl⟩ := Nat.exists_eq_succ_of_ne_zero (Nat.ne_zero_of_lt enough)
      rfl
  | cons e rest ih =>
      obtain ⟨lp, c⟩ := e
      obtain ⟨rfl, next, isLp, chain⟩ := chain
      obtain ⟨fuel, rfl⟩ := Nat.exists_eq_succ_of_ne_zero (Nat.ne_zero_of_lt enough)
      rw [List.length_cons] at enough
      rw [find, isLp, Option.bind_some, SortedList.find]
      dsimp only
      split_ifs
      · rfl
      · rfl
      · exact ih (by omega) chain

end Clarmor.LinkedList
