import Clarmor.Launch.ArgNodes

/-!
# Calls on the nodes of the argument lists

What the calls that set an argument, that count the uses of a kernel and that clean a
clone up do to the lists.  None of them reads or frees what is not there.
-/

namespace Clarmor

open Word

namespace ArgHeap

open LinkedList (Chain addresses addresses_cons)

variable {h h' h'' : ArgHeap} {lists : Handle → List (Address × ArgNode)}
  {loose loose' : Set Address} {p q : Address} {item : ArgNode} {k : Handle}

/-! ## The calls of the application -/

/-- The description of a kernel. -/
def kinfoFind (h : ArgHeap) (kernel : Handle) : Option KernelNode :=
  (h.kernList.find kernel).bind h.kernInfos.find

theorem Keeps.refCount (keeps : Keeps h h' p) (k : Handle) :
    (h'.kinfoFind k).map KernelNode.refCount = (h.kinfoFind k).map KernelNode.refCount := by
  rw [kinfoFind, kinfoFind, keeps.kernList]
  cases h.kernList.find k with
  | none => rfl
  | some q =>
      have counts := congrArg (Option.map Prod.snd) (keeps.counts q)
      rw [Option.map_map, Option.map_map] at counts
      exact counts

/-- A kernel that was not known. -/
theorem kinfoInsert_spec (layout : Layout h lists loose) (unlisted : h.kernList.find k = none)
    (refCount : Nat) : Layout (h.kinfoInsert k refCount).2 lists loose ∧
      (h.kinfoInsert k refCount).2.kernList.find k = some (h.kinfoInsert k refCount).1 ∧
      (h.kinfoInsert k refCount).2.kinfoFind k = some ⟨k, none, refCount⟩ ∧
      ∀ k' ≠ k, (h.kinfoInsert k refCount).2.kinfoFind k' = h.kinfoFind k' := by
  obtain ⟨links, values, below⟩ := layout
  have room := below.kernInfos h.nextAddress (le_refl _)
  have here : (h.kinfoInsert k refCount).2.kernList.find k = some h.nextAddress :=
    Table.find_insert_fresh unlisted
  have isInfo : (h.kinfoInsert k refCount).2.kernInfos.find h.nextAddress =
      some ⟨k, none, refCount⟩ := Table.find_insert_fresh room
  have others : ∀ q info, h.kernInfos.find q = some info →
      (h.kinfoInsert k refCount).2.kernInfos.find q = some info := by
    intro q info found
    have other : q ≠ h.nextAddress := by
      rintro rfl
      rw [room] at found
      contradiction
    exact (Table.find_insert_of_ne other).trans found
  refine ⟨⟨⟨?_, ?_, ?_, links.increasing, links.apart, links.free, links.live⟩,
    ⟨values.owned, values.owner, values.single⟩, ?_⟩, here, ?_, fun k' other => ?_⟩
  · intro k' q isListed
    by_cases same : k' = k
    · rw [same, here, Option.some.injEq] at isListed
      rw [same, ← isListed]
      refine ⟨_, isInfo, rfl, ?_⟩
      rw [links.unlisted k unlisted]
      rfl
    · obtain ⟨info, found, isHandle, chain⟩ :=
        links.listed k' q ((Table.find_insert_of_ne same).symm.trans isListed)
      exact ⟨info, others q info found, isHandle, chain⟩
  · intro k' unlisted'
    have other : k' ≠ k := by
      rintro rfl
      rw [here] at unlisted'
      contradiction
    exact links.unlisted k' ((Table.find_insert_of_ne other).symm.trans unlisted')
  · intro q info found
    by_cases same : q = h.nextAddress
    · rw [same, isInfo, Option.some.injEq] at found
      rw [← found, same]
      exact here
    · have isListed := links.entered q info ((Table.find_insert_of_ne same).symm.trans found)
      have other : info.handle ≠ k := by
        intro same
        rw [same, unlisted] at isListed
        contradiction
      exact (Table.find_insert_of_ne other).trans isListed
  · constructor
    · exact fun q above => below.args q (Nat.le_of_succ_le above)
    · exact fun q above => below.values q (Nat.le_of_succ_le above)
    · intro q above
      have other : q ≠ h.nextAddress := (Nat.lt_of_succ_le above).ne'
      exact (Table.find_insert_of_ne other).trans (below.kernInfos q (Nat.le_of_succ_le above))
  · rw [kinfoFind, here, Option.bind_some, isInfo]
  · rw [kinfoFind, kinfoFind, show (h.kinfoInsert k refCount).2.kernList.find k' =
      h.kernList.find k' from Table.find_insert_of_ne other]
    cases isListed : h.kernList.find k' with
    | none => rfl
    | some q =>
        obtain ⟨info, found, -⟩ := links.listed k' q isListed
        rw [Option.bind_some, Option.bind_some, others q info found, found]

/-- A loose argument gets its fields and is linked. -/
theorem enter_spec (layout : Layout h lists (insert p loose)) (notLoose : p ∉ loose)
    (isListed : h.kernList.find k = some q) (isItem : h.itemAt p = some item)
    (noValue : item.value = none) (new : ∀ e ∈ lists k, key e ≠ item.handle)
    (argValue : Option Nat) {f : Option Address → ArgNode → ArgNode}
    (keepsValue : ∀ v arg, (f v arg).value = v)
    (keepsHandle : ∀ v, (f v item).handle = item.handle) :
    ∃ h₁ h' v, h.fillArg p argValue f = some h₁ ∧ h₁.kargInsert q p = some h' ∧
      Layout h' (Function.update lists k (SortedList.insert key (p, f v item) (lists k))) loose ∧
      Keeps h h' p ∧ v.bind h'.values.find = argValue := by
  obtain ⟨h₁, v, filled, layout₁, keeps₁, isItem₁, isValue⟩ :=
    fillArg_spec layout (Set.mem_insert p loose) isItem noValue argValue keepsValue
  have isListed₁ : h₁.kernList.find k = some q := by rw [keeps₁.kernList, isListed]
  obtain ⟨h', inserted, layout', keeps', sameValues⟩ :=
    kargInsert_spec layout₁ isListed₁ (Set.mem_insert p loose) isItem₁ (by
      rw [keepsHandle]
      exact new)
  rw [Set.insert_sdiff_self_of_notMem notLoose] at layout'
  refine ⟨h₁, h', v, filled, inserted, layout', keeps₁.trans (keeps' p), ?_⟩
  rw [sameValues, isValue]

/-- An argument of a kernel is set. -/
structure Sets (h h' : ArgHeap) (lists lists' : Handle → List (Address × ArgNode))
    (loose : Set Address) (kernel : Handle) (i : Nat) (entry : ArgEntry) : Prop where
  layout : Layout h' lists' loose
  refCount : ∀ k, (h'.kinfoFind k).map KernelNode.refCount = if k = kernel then
    some (((h.kinfoFind k).map KernelNode.refCount).getD 1)
    else (h.kinfoFind k).map KernelNode.refCount
  entries : ∀ k j entry', (∃ e ∈ lists' k, key e = j ∧ h'.entryOf e.2 = entry') ↔
    if k = kernel ∧ j = i then entry' = entry
    else ∃ e ∈ lists k, key e = j ∧ h.entryOf e.2 = entry'

/-- The kernel of an argument that is set. -/
theorem kinfoOf_spec (layout : Layout h lists loose) (kernel : Handle) :
    Layout (h.kinfoOf kernel).2 lists loose ∧
      (h.kinfoOf kernel).2.kernList.find kernel = some (h.kinfoOf kernel).1 ∧
      (h.kinfoOf kernel).2.args = h.args ∧ (h.kinfoOf kernel).2.values = h.values ∧
      ∀ k, ((h.kinfoOf kernel).2.kinfoFind k).map KernelNode.refCount = if k = kernel then
        some (((h.kinfoFind k).map KernelNode.refCount).getD 1)
        else (h.kinfoFind k).map KernelNode.refCount := by
  rw [kinfoOf]
  cases isListed : h.kernList.find kernel with
  | some q =>
      refine ⟨layout, isListed, rfl, rfl, fun k => ?_⟩
      split_ifs with here
      · obtain ⟨info, found, -⟩ := layout.links.listed kernel q isListed
        rw [here, kinfoFind, isListed, Option.bind_some, found]
        rfl
      · rfl
  | none =>
      obtain ⟨layout', here, isInfo, others⟩ := kinfoInsert_spec layout isListed 1
      refine ⟨layout', here, rfl, rfl, fun k => ?_⟩
      dsimp only
      split_ifs with same
      · rw [same, isInfo, kinfoFind, isListed]
        rfl
      · rw [others k same]

theorem Layout.itemAt {e : Address × ArgNode} (layout : Layout h lists loose) (mem : e ∈ lists k) :
    h.itemAt e.1 = some e.2 := by
  cases listed : h.kernList.find k with
  | none =>
      rw [layout.links.unlisted k listed] at mem
      exact absurd mem List.not_mem_nil
  | some q =>
      obtain ⟨info, -, -, chain⟩ := layout.links.listed k q listed
      obtain ⟨next, found⟩ := chain.mem mem
      rw [ArgHeap.itemAt, found, Option.map_some]

/-- A linked argument is not a loose one. -/
theorem Layout.ne_loose {e : Address × ArgNode} (layout : Layout h lists loose)
    (isLoose : p ∈ loose) (mem : e ∈ lists k) : e.1 ≠ p := by
  rintro rfl
  exact layout.links.free k e.1 isLoose (List.mem_map_of_mem mem)

/-- The description that was there is unlinked, and a new one is linked. -/
theorem sets_of_replaced {h₀ h₂ : ArgHeap} {i : Nat} (entry : ArgEntry) (argValue : Option Nat)
    (f : Option Address → ArgNode → ArgNode)
    (increasing : SortedList.Increasing key (lists k))
    (layout : Layout h₂ (Function.update lists k (SortedList.remove key i (lists k)).2)
      (insert p loose)) (notLoose : p ∉ loose) (isListed : h₂.kernList.find k = some q)
    (refCount : ∀ k', (h₂.kinfoFind k').map KernelNode.refCount = if k' = k then
      some (((h₀.kinfoFind k').map KernelNode.refCount).getD 1)
      else (h₀.kinfoFind k').map KernelNode.refCount)
    (kept : ∀ k', ∀ e ∈ Function.update lists k (SortedList.remove key i (lists k)).2 k',
      h₂.entryOf e.2 = h₀.entryOf e.2)
    (isItem : h₂.itemAt p = some item) (noValue : item.value = none) (isIndex : item.handle = i)
    (keepsValue : ∀ v arg, (f v arg).value = v)
    (keepsHandle : ∀ v arg, (f v arg).handle = arg.handle)
    (isEntry : ∀ v, (⟨(f v item).size, argValue, (f v item).buffer, (f v item).svmBuffer⟩ :
      ArgEntry) = entry) :
    ∃ h₃ h' lists', h₂.fillArg p argValue f = some h₃ ∧ h₃.kargInsert q p = some h' ∧
      Sets h₀ h' lists lists' loose k i entry := by
  have rest : (SortedList.remove key i (lists k)).2 = (lists k).filter fun e => key e ≠ i :=
    increasing.remove_snd
  obtain ⟨h₃, h', v, filled, inserted, layout', keeps, isValue⟩ :=
    enter_spec layout notLoose isListed isItem noValue (by
      intro e mem
      rw [Function.update_self, rest] at mem
      rw [isIndex]
      simpa using (List.mem_filter.mp mem).2) argValue keepsValue fun v => keepsHandle v item
  rw [Function.update_self, Function.update_idem] at layout'
  refine ⟨h₃, h', _, filled, inserted, layout', fun k' => ?_, fun k' j entry' => ?_⟩
  · rw [keeps.refCount, refCount]
  · have isNew : h'.entryOf (f v item) = entry := by
      rw [entryOf, keepsValue, isValue, isEntry]
    have kept : ∀ e ∈ Function.update lists k (SortedList.remove key i (lists k)).2 k',
        h'.entryOf e.2 = h₀.entryOf e.2 := by
      intro e mem
      have other := layout.ne_loose (Set.mem_insert p loose) mem
      rw [keeps.entries e.1 other e.2 (layout.itemAt mem), kept k' e mem]
    by_cases here : k' = k
    · subst here
      rw [Function.update_self] at kept ⊢
      simp only [true_and]
      constructor
      · rintro ⟨e, mem, isKey, isEntry'⟩
        rcases SortedList.mem_insert.mp mem with rfl | mem
        · have isKey' : j = i := by
            rw [← isKey, ← isIndex]
            exact keepsHandle v item
          rw [if_pos isKey', ← isEntry', isNew]
        · rw [kept e mem] at isEntry'
          rw [rest, List.mem_filter] at mem
          rw [if_neg (by simpa [isKey] using mem.2)]
          exact ⟨e, mem.1, isKey, isEntry'⟩
      · intro given
        split_ifs at given with isKey
        · refine ⟨_, SortedList.mem_insert.mpr (Or.inl rfl), ?_, isNew.trans given.symm⟩
          rw [isKey, ← isIndex]
          exact keepsHandle v item
        · obtain ⟨e, mem, isKey', isEntry'⟩ := given
          have mem' : e ∈ (SortedList.remove key i (lists k')).2 := by
            rw [rest, List.mem_filter]
            exact ⟨mem, by simpa [isKey'] using isKey⟩
          exact ⟨e, SortedList.mem_insert.mpr (Or.inr mem'), isKey',
            (kept e mem').trans isEntry'⟩
    · rw [Function.update_of_ne here] at kept ⊢
      rw [if_neg fun both => here both.1]
      constructor
      · rintro ⟨e, mem, isKey, isEntry'⟩
        exact ⟨e, mem, isKey, (kept e mem).symm.trans isEntry'⟩
      · rintro ⟨e, mem, isKey, isEntry'⟩
        exact ⟨e, mem, isKey, (kept e mem).trans isEntry'⟩

/-- `karg_remove`, by whether there was an argument with the index. -/
theorem kargRemove_cases (layout : Layout h lists loose) (isListed : h.kernList.find k = some q)
    (i : Nat) : ∃ h' removed, h.kargRemove q i = some (removed, h') ∧
      (∀ other, Keeps h h' other) ∧
      (removed = none ∧ (∀ e ∈ lists k, key e ≠ i) ∧
          Layout h' (Function.update lists k (SortedList.remove key i (lists k)).2) loose ∨
        ∃ p item, removed = some p ∧ (p, item) ∈ lists k ∧ item.handle = i ∧ p ∉ loose ∧
          h'.itemAt p = some item ∧
          Layout h' (Function.update lists k (SortedList.remove key i (lists k)).2)
            (insert p loose)) := by
  obtain ⟨h', ran, layout', keeps, items⟩ := kargRemove_spec layout isListed i
  refine ⟨h', _, ran, keeps, ?_⟩
  have perm := @SortedList.remove_perm _ _ _ key (lists k) i
  cases removed : (SortedList.remove key i (lists k)).1 with
  | none =>
      rw [removed] at layout' perm
      have same : {p | p ∈ loose ∨ (none : Option (Address × ArgNode)).map Prod.fst = some p} =
          loose := by
        ext p
        simp
      rw [same] at layout'
      refine Or.inl ⟨rfl, fun e mem => ?_, layout'⟩
      have kept := perm.mem_iff.mp mem
      rw [Option.toList_none, List.nil_append, (layout.links.increasing k).remove_snd] at kept
      simpa using (List.mem_filter.mp kept).2
  | some e =>
      obtain ⟨p, item⟩ := e
      rw [removed] at layout' perm
      have mem : (p, item) ∈ lists k := perm.mem_iff.mpr (List.mem_cons_self)
      obtain ⟨info, -, -, chain⟩ := layout.links.listed k q isListed
      obtain ⟨next, found⟩ := chain.mem mem
      have same : {p' | p' ∈ loose ∨ (some (p, item)).map Prod.fst = some p'} =
          insert p loose := by
        ext p'
        rw [Set.mem_insert_iff, or_comm, eq_comm (a := p')]
        simp
      rw [same] at layout'
      refine Or.inr ⟨p, item, rfl, mem, @SortedList.key_of_remove _ _ _ key _ _ _ removed,
        fun isLoose => ?_, ?_, layout'⟩
      · exact layout.links.free k p isLoose (LinkedList.mem_addresses.mpr ⟨item, mem⟩)
      · rw [items, itemAt, found, Option.map_some]

/-- A new argument in a list without its index. -/
theorem sets_of_new {h₀ h₁ : ArgHeap} {i : Nat} (entry : ArgEntry) (argValue : Option Nat)
    (f : Option Address → ArgNode → ArgNode) (increasing : SortedList.Increasing key (lists k))
    (layout : Layout h₁ (Function.update lists k (SortedList.remove key i (lists k)).2) loose)
    (isListed : h₁.kernList.find k = some q)
    (refCount : ∀ k', (h₁.kinfoFind k').map KernelNode.refCount = if k' = k then
      some (((h₀.kinfoFind k').map KernelNode.refCount).getD 1)
      else (h₀.kinfoFind k').map KernelNode.refCount)
    (kept : ∀ k', ∀ e ∈ Function.update lists k (SortedList.remove key i (lists k)).2 k',
      h₁.entryOf e.2 = h₀.entryOf e.2)
    (keepsValue : ∀ v arg, (f v arg).value = v)
    (keepsHandle : ∀ v arg, (f v arg).handle = arg.handle)
    (isEntry : ∀ v, (⟨(f v ⟨i, 0, none, none, none⟩).size, argValue,
      (f v ⟨i, 0, none, none, none⟩).buffer, (f v ⟨i, 0, none, none, none⟩).svmBuffer⟩ :
        ArgEntry) = entry) :
    ∃ h₃ h' lists', (h₁.callocArg i).2.fillArg (h₁.callocArg i).1 argValue f = some h₃ ∧
      h₃.kargInsert q (h₁.callocArg i).1 = some h' ∧ Sets h₀ h' lists lists' loose k i entry := by
  obtain ⟨layout', keeps, isItem, outside⟩ := callocArg_spec layout i
  have notLoose : (h₁.callocArg i).1 ∉ loose := by
    intro isLoose
    obtain ⟨node, found⟩ := (layout.loose_live isLoose).2
    have room := layout.below.args h₁.nextAddress (le_refl _)
    exact Option.some_ne_none node (found.symm.trans room)
  refine sets_of_replaced entry argValue f increasing layout' notLoose (keeps.kernList ▸ isListed)
    (fun k' => (keeps.refCount k').trans (refCount k')) (fun k' e mem => ?_) isItem rfl rfl
    keepsValue keepsHandle isEntry
  have other := layout'.ne_loose (Set.mem_insert _ loose) mem
  rw [keeps.entries e.1 other e.2 (layout.itemAt mem), kept k' e mem]

theorem mem_of_mem_rest {i : Nat} {e : Address × ArgNode} {k' : Handle}
    (increasing : SortedList.Increasing key (lists k))
    (mem : e ∈ Function.update lists k (SortedList.remove key i (lists k)).2 k') :
    e ∈ lists k' := by
  rw [Function.update_apply] at mem
  split_ifs at mem with here
  · rw [increasing.remove_snd] at mem
    exact here ▸ List.mem_of_mem_filter mem
  · exact mem

theorem clSetKernelArg_spec (layout : Layout h lists loose) (kernel : Handle)
    (argIndex argSize : Nat) (argValue : Option Nat) (buffer : Option Address) : ∃ h' lists',
      h.clSetKernelArg kernel argIndex argSize argValue buffer = some h' ∧
        Sets h h' lists lists' loose kernel argIndex ⟨argSize, argValue, buffer, none⟩ := by
  obtain ⟨layout₁, isListed, -, sameValues, refCount⟩ := kinfoOf_spec layout kernel
  obtain ⟨h₂, removed, ran, keeps₂, cases⟩ := kargRemove_cases layout₁ isListed argIndex
  have increasing := layout.links.increasing kernel
  have kept : ∀ k', ∀ e ∈ Function.update lists kernel
      (SortedList.remove key argIndex (lists kernel)).2 k', h₂.entryOf e.2 = h.entryOf e.2 := by
    intro k' e mem
    have isItem := layout₁.itemAt (mem_of_mem_rest increasing mem)
    rw [(keeps₂ (e.1 + 1)).entries e.1 (Nat.lt_succ_self _).ne e.2 isItem, entryOf, sameValues,
      entryOf]
  have isListed₂ := isListed
  rw [← (keeps₂ 0).kernList] at isListed₂
  have refCount₂ := fun k' => ((keeps₂ 0).refCount k').trans (refCount k')
  rw [clSetKernelArg, ran, Option.bind_some]
  rcases cases with ⟨rfl, new, layout₂⟩ | ⟨p, item, rfl, mem, isIndex, notLoose, isItem, layout₂⟩
  · obtain ⟨h₃, h', lists', filled, inserted, sets⟩ := sets_of_new
      ⟨argSize, argValue, buffer, none⟩ argValue
      (fun value arg => ⟨arg.handle, argSize, value, buffer, none⟩) increasing layout₂ isListed₂
      refCount₂ kept (fun _ _ => rfl) (fun _ _ => rfl) fun _ => rfl
    refine ⟨h', lists', ?_, sets⟩
    dsimp only
    rw [Option.bind_some, filled]
    exact inserted
  · obtain ⟨h₃, h₄, freed, dropped, layout₄, keeps₄, isItem₄⟩ :=
      dropValue_spec layout₂ (Set.mem_insert p loose) isItem
    obtain ⟨node, found, rfl⟩ := Option.map_eq_some_iff.mp isItem
    obtain ⟨h₅, h', lists', filled, inserted, sets⟩ := sets_of_replaced
      ⟨argSize, argValue, buffer, none⟩ argValue
      (fun value arg => ⟨arg.handle, argSize, value, buffer, none⟩) increasing layout₄ notLoose
      (keeps₄.kernList ▸ isListed₂) (fun k' => (keeps₄.refCount k').trans (refCount₂ k'))
      (fun k' e mem => (keeps₄.entries e.1 (layout₂.ne_loose (Set.mem_insert p loose) mem) e.2
        (layout₂.itemAt mem)).trans (kept k' e mem))
      isItem₄ rfl isIndex (fun _ _ => rfl) (fun _ _ => rfl) fun _ => rfl
    refine ⟨h', lists', ?_, sets⟩
    dsimp only
    rw [found, Option.bind_some, freed, Option.bind_some, dropped, Option.map_some,
      Option.bind_some, filled]
    exact inserted

theorem clSetKernelArgSVMPointer_spec (layout : Layout h lists loose) (kernel : Handle)
    (argIndex argValue : Nat) (svmBuffer : Option Address) : ∃ h' lists',
      h.clSetKernelArgSVMPointer kernel argIndex argValue svmBuffer = some h' ∧
        Sets h h' lists lists' loose kernel argIndex ⟨0, some argValue, none, svmBuffer⟩ := by
  obtain ⟨layout₁, isListed, -, sameValues, refCount⟩ := kinfoOf_spec layout kernel
  obtain ⟨h₂, removed, ran, keeps₂, cases⟩ := kargRemove_cases layout₁ isListed argIndex
  have increasing := layout.links.increasing kernel
  have kept : ∀ k', ∀ e ∈ Function.update lists kernel
      (SortedList.remove key argIndex (lists kernel)).2 k', h₂.entryOf e.2 = h.entryOf e.2 := by
    intro k' e mem
    have isItem := layout₁.itemAt (mem_of_mem_rest increasing mem)
    rw [(keeps₂ (e.1 + 1)).entries e.1 (Nat.lt_succ_self _).ne e.2 isItem, entryOf, sameValues,
      entryOf]
  have isListed₂ := isListed
  rw [← (keeps₂ 0).kernList] at isListed₂
  have refCount₂ := fun k' => ((keeps₂ 0).refCount k').trans (refCount k')
  rw [clSetKernelArgSVMPointer, ran, Option.bind_some]
  rcases cases with ⟨rfl, new, layout₂⟩ | ⟨p, item, rfl, mem, isIndex, notLoose, isItem, layout₂⟩
  · obtain ⟨h₃, h', lists', filled, inserted, sets⟩ := sets_of_new
      ⟨0, some argValue, none, svmBuffer⟩ (some argValue)
      (fun value arg => ⟨arg.handle, arg.size, value, none, svmBuffer⟩) increasing layout₂
      isListed₂ refCount₂ kept (fun _ _ => rfl) (fun _ _ => rfl) fun _ => rfl
    refine ⟨h', lists', ?_, sets⟩
    dsimp only
    rw [Option.bind_some, filled]
    exact inserted
  · obtain ⟨h₃, deleted, layout₃, keeps₃⟩ := kargDelete_spec layout₂ (Set.mem_insert p loose)
    rw [Set.insert_sdiff_self_of_notMem notLoose] at layout₃
    obtain ⟨h₄, h', lists', filled, inserted, sets⟩ := sets_of_new
      ⟨0, some argValue, none, svmBuffer⟩ (some argValue)
      (fun value arg => ⟨arg.handle, arg.size, value, none, svmBuffer⟩) increasing layout₃
      (keeps₃.kernList ▸ isListed₂) (fun k' => (keeps₃.refCount k').trans (refCount₂ k'))
      (fun k' e mem => (keeps₃.entries e.1 (layout₂.ne_loose (Set.mem_insert p loose) mem) e.2
        (layout₂.itemAt mem)).trans (kept k' e mem)) (fun _ _ => rfl) (fun _ _ => rfl) fun _ => rfl
    refine ⟨h', lists', ?_, sets⟩
    dsimp only
    rw [deleted, Option.bind_some, filled]
    exact inserted

/-- No two kernels have the same description. -/
theorem Layout.handle_unique {k' : Handle} (layout : Layout h lists loose)
    (isListed : h.kernList.find k = some q) (isListed' : h.kernList.find k' = some q) : k = k' := by
  obtain ⟨info, isInfo, isHandle, -⟩ := layout.links.listed k q isListed
  obtain ⟨info', isInfo', isHandle', -⟩ := layout.links.listed k' q isListed'
  obtain rfl := Option.some.inj (isInfo.symm.trans isInfo')
  exact isHandle.symm.trans isHandle'

/-- The description of a kernel is counted. -/
def setCount (h : ArgHeap) (info : Address) (f : Nat → Nat) : ArgHeap :=
  { h with kernInfos := h.kernInfos.modify info fun node =>
      { node with refCount := f node.refCount } }

theorem setCount_spec (layout : Layout h lists loose) (isListed : h.kernList.find k = some q)
    (f : Nat → Nat) : Layout (h.setCount q f) lists loose ∧
      ∀ k', ((h.setCount q f).kinfoFind k').map KernelNode.refCount =
        if k' = k then (h.kinfoFind k).map fun node => f node.refCount
        else (h.kinfoFind k').map KernelNode.refCount := by
  have unique := fun k' => @Layout.handle_unique h lists loose q k k' layout isListed
  obtain ⟨links, values, below⟩ := layout
  have found : ∀ q' info, h.kernInfos.find q' = some info → ∃ info',
      (h.setCount q f).kernInfos.find q' = some info' ∧ info'.handle = info.handle ∧
        info'.argList = info.argList := by
    intro q' info isInfo
    rw [setCount, Table.find_modify]
    split_ifs with here
    · rw [← here, isInfo]
      exact ⟨_, rfl, rfl, rfl⟩
    · exact ⟨info, isInfo, rfl, rfl⟩
  refine ⟨⟨⟨?_, links.unlisted, ?_, links.increasing, links.apart, links.free, links.live⟩,
    ⟨values.owned, values.owner, values.single⟩, below.args, below.values, ?_⟩, fun k' => ?_⟩
  · intro k' q' isListed'
    obtain ⟨info, isInfo, isHandle, chain⟩ := links.listed k' q' isListed'
    obtain ⟨info', isInfo', sameHandle, sameList⟩ := found q' info isInfo
    exact ⟨info', isInfo', sameHandle.trans isHandle, sameList ▸ chain⟩
  · intro q' info isInfo
    rw [setCount, Table.find_modify] at isInfo
    split_ifs at isInfo with here
    · obtain ⟨info', isInfo', rfl⟩ := Option.map_eq_some_iff.mp isInfo
      rw [here]
      exact links.entered q info' isInfo'
    · exact links.entered q' info isInfo
  · intro p above
    rw [setCount, Table.find_modify]
    split_ifs with here
    · rw [← here, below.kernInfos p above, Option.map_none]
    · exact below.kernInfos p above
  · rw [kinfoFind, kinfoFind, kinfoFind]
    split_ifs with here
    · rw [here, setCount, isListed, Option.bind_some, Table.find_modify_self, Option.map_map,
        Option.bind_some]
      rfl
    · cases isListed' : h.kernList.find k' with
      | none =>
          rw [setCount, isListed']
          rfl
      | some q' =>
          have other : q' ≠ q := by
            rintro rfl
            exact here (unique k' isListed').symm
          rw [setCount, isListed', Option.bind_some, Table.find_modify_of_ne other,
            Option.bind_some]

/-- The loop of `kinfo_delete` frees a chain, and the values on it. -/
theorem kinfoDeleteArgs_spec {l : List (Address × ArgNode)} {list : Option Address} {fuel : Nat}
    (enough : l.length < fuel) (chain : Chain h.args list l)
    (owned : ∀ e ∈ l, ∀ v, e.2.value = some v → (h.values.find v).isSome)
    (single : l.Pairwise fun e e' => ∀ v, e.2.value = some v → e'.2.value ≠ some v) :
    ∃ args values, kinfoDeleteArgs fuel list h = some { h with args := args, values := values } ∧
      (∀ p, args.find p = if p ∈ addresses l then none else h.args.find p) ∧
      ∀ v, values.find v = if ∃ e ∈ l, e.2.value = some v then none else h.values.find v := by
  induction l generalizing list fuel h with
  | nil =>
      obtain rfl := chain
      obtain ⟨fuel, rfl⟩ := Nat.exists_eq_succ_of_ne_zero (Nat.ne_zero_of_lt enough)
      refine ⟨h.args, h.values, rfl, fun p => (if_neg List.not_mem_nil).symm, fun v => ?_⟩
      rw [if_neg]
      rintro ⟨e, mem, -⟩
      exact List.not_mem_nil mem
  | cons e rest ih =>
      have nodup := chain.nodup
      obtain ⟨p, item⟩ := e
      obtain ⟨rfl, next, found, chain⟩ := chain
      obtain ⟨fuel, rfl⟩ := Nat.exists_eq_succ_of_ne_zero (Nat.ne_zero_of_lt enough)
      obtain ⟨notMem, -⟩ := List.nodup_cons.mp nodup
      obtain ⟨apart, single⟩ := List.pairwise_cons.mp single
      -- the node is freed after its value
      obtain ⟨h₁, freed, isFreed⟩ : ∃ h₁, h.kargDelete p = some h₁ ∧
          h₁ = { h with args := h.args.remove p, values := h₁.values } ∧
          ∀ v, h₁.values.find v = if item.value = some v then none else h.values.find v := by
        cases isValue : item.value with
        | none =>
            refine ⟨{ h with args := h.args.remove p }, ?_, rfl, fun v => ?_⟩
            · rw [kargDelete, found, Option.bind_some, isValue, freeValue, Option.bind_some,
                freeArg, found, Option.map_some]
            · rw [if_neg (Option.some_ne_none v).symm]
        | some v =>
            obtain ⟨value, isSome⟩ := Option.isSome_iff_exists.mp
              (owned (p, item) List.mem_cons_self v isValue)
            refine ⟨{ h with args := h.args.remove p, values := h.values.remove v }, ?_, rfl,
              fun w => ?_⟩
            · rw [kargDelete, found, Option.bind_some, isValue, freeValue, isSome,
                Option.map_some, Option.bind_some, freeArg]
              dsimp only
              rw [found, Option.map_some]
            · rw [Table.find_remove]
              simp only [Option.some.injEq, eq_comm]
      obtain ⟨isFreed, isValues⟩ := isFreed
      have chain₁ : Chain h₁.args next rest := by
        rw [isFreed]
        exact chain.congr fun p' mem => Table.find_remove_of_ne fun same => notMem (same ▸ mem)
      rw [List.length_cons] at enough
      obtain ⟨args, values, ran, isArgs, isValues'⟩ := ih (Nat.lt_of_succ_lt_succ enough) chain₁
        (fun e mem v isValue => by
          rw [isValues, if_neg fun same => apart e mem v same isValue]
          exact owned e (List.mem_cons_of_mem _ mem) v isValue) single
      refine ⟨args, values, ?_, fun p' => ?_, fun v => ?_⟩
      · rw [kinfoDeleteArgs, found, Option.bind_some, freed, Option.bind_some, ran, isFreed]
      · rw [isArgs, isFreed, Table.find_remove]
        simp only [addresses_cons, List.mem_cons]
        by_cases here : p' = p <;> simp [here]
      · rw [isValues', isValues]
        have split : (∃ e ∈ (p, item) :: rest, e.2.value = some v) ↔
            item.value = some v ∨ ∃ e ∈ rest, e.2.value = some v := by simp
        by_cases here : item.value = some v
        · rw [if_pos here, ite_self, if_pos (split.mpr (Or.inl here))]
        · rw [if_neg here]
          exact if_congr (split.trans (or_iff_right here)).symm rfl rfl

/-! ## The end of a kernel -/

/-- A kernel and its description are gone, and so are the arguments on its list and their
values. -/
structure Freed (h h' : ArgHeap) (l : List (Address × ArgNode)) (k : Handle) (q : Address) :
    Prop where
  args : ∀ p, h'.args.find p = if p ∈ addresses l then none else h.args.find p
  values : ∀ v, h'.values.find v =
    if ∃ e ∈ l, e.2.value = some v then none else h.values.find v
  kernInfos : h'.kernInfos = h.kernInfos.remove q
  kernList : h'.kernList = h.kernList.remove k
  nextAddress : h'.nextAddress = h.nextAddress

theorem Layout.valueAt {e : Address × ArgNode} (layout : Layout h lists loose) {k' : Handle}
    (mem : e ∈ lists k') : h.valueAt e.1 = e.2.value :=
  valueAt_of_itemAt (layout.itemAt mem)

/-- An argument of another kernel is not on the list. -/
theorem Layout.notMem_of_ne {k' : Handle} (layout : Layout h lists loose) (other : k' ≠ k)
    (mem : p ∈ addresses (lists k')) : p ∉ addresses (lists k) :=
  fun mem' => other (layout.links.apart _ _ _ mem mem')

theorem Freed.valueAt_eq_some_iff (freed : Freed h h' (lists k) k q)
    {v : Address} : h'.valueAt p = some v ↔
    p ∉ addresses (lists k) ∧ h.valueAt p = some v := by
  rw [ArgHeap.valueAt, itemAt, freed.args]
  split_ifs with mem
  · exact iff_of_false (Option.some_ne_none v).symm fun both => both.1 mem
  · exact (and_iff_right mem).symm

/-- A block of an argument that stays is not one of those that were freed. -/
theorem Freed.find_value (freed : Freed h h' (lists k) k q) (layout : Layout h lists loose)
    {v : Address} (outside : p ∉ addresses (lists k))
    (owns : h.valueAt p = some v) : h'.values.find v = h.values.find v := by
  rw [freed.values, if_neg]
  rintro ⟨e, mem, owns'⟩
  rw [layout.values.single p e.1 v owns ((layout.valueAt mem).trans owns')] at outside
  exact outside (List.mem_map_of_mem mem)

theorem Freed.find_kernInfo (freed : Freed h h' (lists k) k q) (layout : Layout h lists loose)
    (isListed : h.kernList.find k = some q) {k' : Handle} {q' : Address} (other : k' ≠ k)
    (isListed' : h.kernList.find k' = some q') : h'.kernInfos.find q' = h.kernInfos.find q' := by
  rw [freed.kernInfos, Table.find_remove_of_ne]
  rintro rfl
  exact other (layout.handle_unique isListed' isListed)

theorem Freed.kinfoFind (freed : Freed h h' (lists k) k q) (layout : Layout h lists loose)
    (isListed : h.kernList.find k = some q) (k' : Handle) :
    h'.kinfoFind k' = if k' = k then none else h.kinfoFind k' := by
  rw [ArgHeap.kinfoFind, freed.kernList, Table.find_remove, ArgHeap.kinfoFind]
  split_ifs with here
  · rfl
  · cases isListed' : h.kernList.find k' with
    | none => rfl
    | some q' => exact freed.find_kernInfo layout isListed here isListed'

theorem Freed.entryOf (freed : Freed h h' (lists k) k q) (layout : Layout h lists loose)
    {k' : Handle} {e : Address × ArgNode} (other : k' ≠ k)
    (mem : e ∈ lists k') : h'.entryOf e.2 = h.entryOf e.2 := by
  rw [ArgHeap.entryOf, ArgHeap.entryOf]
  cases owns : e.2.value with
  | none => rfl
  | some v =>
      rw [Option.bind_some, Option.bind_some, freed.find_value layout
        (layout.notMem_of_ne other (List.mem_map_of_mem mem)) ((layout.valueAt mem).trans owns)]

theorem Freed.live (freed : Freed h h' (lists k) k q) (layout : Layout h lists loose)
    (p : Address) : (h'.args.find p).isSome ↔
    p ∈ loose ∨ ∃ k', p ∈ addresses (Function.update lists k [] k') := by
  have stays : ∀ k', p ∈ addresses (Function.update lists k [] k') ↔
      k' ≠ k ∧ p ∈ addresses (lists k') := by
    intro k'
    rw [Function.update_apply]
    split_ifs with here
    · exact iff_of_false List.not_mem_nil fun both => both.1 here
    · exact (and_iff_right here).symm
  simp only [stays]
  rw [freed.args]
  split_ifs with mem
  · refine iff_of_false Bool.false_ne_true ?_
    rintro (isLoose | ⟨k', other, mem'⟩)
    · exact layout.links.free k p isLoose mem
    · exact layout.notMem_of_ne other mem' mem
  · rw [layout.links.live]
    refine or_congr_right (exists_congr fun k' => ?_)
    exact ⟨fun mem' => ⟨fun here => mem (here ▸ mem'), mem'⟩, And.right⟩

theorem Freed.links (freed : Freed h h' (lists k) k q) (layout : Layout h lists loose)
    (isListed : h.kernList.find k = some q) : Links h' (Function.update lists k []) loose := by
  constructor
  case listed =>
    intro k' q' isListed'
    rw [freed.kernList, Table.find_remove] at isListed'
    split_ifs at isListed' with here
    obtain ⟨info', isInfo', isHandle', chain'⟩ := layout.links.listed k' q' isListed'
    refine ⟨info', (freed.find_kernInfo layout isListed here isListed').trans isInfo',
      isHandle', ?_⟩
    rw [Function.update_of_ne here]
    refine chain'.congr fun p mem => ?_
    rw [freed.args, if_neg (layout.notMem_of_ne here mem)]
  case unlisted =>
    intro k' unlisted
    rw [freed.kernList] at unlisted
    rw [Function.update_apply]
    split_ifs with here
    · rfl
    · exact layout.links.unlisted k' ((Table.find_remove_of_ne here).symm.trans unlisted)
  case entered =>
    intro q' info' isInfo'
    rw [freed.kernInfos, Table.find_remove] at isInfo'
    split_ifs at isInfo' with here
    have isListed' := layout.links.entered q' info' isInfo'
    rw [freed.kernList]
    refine (Table.find_remove_of_ne ?_).trans isListed'
    intro same
    rw [same, isListed, Option.some.injEq] at isListed'
    exact here isListed'.symm
  case increasing =>
    intro k'
    rw [Function.update_apply]
    split_ifs
    · exact List.Pairwise.nil
    · exact layout.links.increasing k'
  case apart =>
    intro k' k'' p mem mem'
    rw [Function.update_apply] at mem mem'
    split_ifs at mem mem' with here here' here'
    · rw [here, here']
    · exact absurd mem List.not_mem_nil
    · exact absurd mem' List.not_mem_nil
    · exact layout.links.apart k' k'' p mem mem'
  case free =>
    intro k' p isLoose mem
    rw [Function.update_apply] at mem
    split_ifs at mem
    · exact List.not_mem_nil mem
    · exact layout.links.free k' p isLoose mem
  case live => exact freed.live layout

theorem Freed.values_spec (freed : Freed h h' (lists k) k q) (layout : Layout h lists loose) :
    Values h' := by
  constructor
  · intro p v owns
    obtain ⟨outside, owns⟩ := freed.valueAt_eq_some_iff.mp owns
    rw [freed.find_value layout outside owns]
    exact layout.values.owned p v owns
  · intro v isSome
    rw [freed.values] at isSome
    split_ifs at isSome with gone
    · contradiction
    · obtain ⟨p, owns⟩ := layout.values.owner v isSome
      refine ⟨p, freed.valueAt_eq_some_iff.mpr ⟨fun mem => gone ?_, owns⟩⟩
      obtain ⟨item, mem⟩ := LinkedList.mem_addresses.mp mem
      exact ⟨(p, item), mem, (layout.valueAt mem).symm.trans owns⟩
  · exact fun p p' v owns owns' => layout.values.single p p' v
      (freed.valueAt_eq_some_iff.mp owns).2 (freed.valueAt_eq_some_iff.mp owns').2

theorem Freed.below (freed : Freed h h' (lists k) k q) (layout : Layout h lists loose) :
    Below h' := by
  constructor <;> rw [freed.nextAddress]
  · intro p above
    rw [freed.args, layout.below.args p above, ite_self]
  · intro v above
    rw [freed.values, layout.below.values v above, ite_self]
  · intro p above
    rw [freed.kernInfos, Table.find_remove, layout.below.kernInfos p above, ite_self]

/-- The loop and the `free` behind it. -/
theorem kinfoDelete_freed (layout : Layout h lists loose) (isListed : h.kernList.find k = some q) :
    ∃ h', ({ h with kernList := h.kernList.remove k } : ArgHeap).kinfoDelete q = some h' ∧
      Freed h h' (lists k) k q := by
  obtain ⟨info, isInfo, -, chain⟩ := layout.links.listed k q isListed
  have single : (lists k).Pairwise fun e e' => ∀ v, e.2.value = some v → e'.2.value ≠ some v := by
    refine (List.pairwise_map.mp chain.nodup).imp_of_mem
      fun {e e'} mem mem' other v owns owns' => ?_
    exact other (layout.values.single e.1 e'.1 v ((layout.valueAt mem).trans owns)
      ((layout.valueAt mem').trans owns'))
  obtain ⟨args, values, ran, isArgs, isValues⟩ := @kinfoDeleteArgs_spec
    { h with kernList := h.kernList.remove k } (lists k) info.argList h.fuel
    (layout.length_lt isListed) chain
    (fun e mem v owns => layout.values.owned e.1 v ((layout.valueAt mem).trans owns)) single
  refine ⟨⟨args, values, h.kernInfos.remove q, h.kernList.remove k, h.nextAddress⟩, ?_,
    isArgs, isValues, rfl, rfl, rfl⟩
  rw [kinfoDelete, isInfo, Option.bind_some]
  exact congrArg (Option.map _) ran

/-- The list of a kernel goes with it. -/
theorem kinfoDelete_spec (layout : Layout h lists loose) (isListed : h.kernList.find k = some q) :
    ∃ h', ({ h with kernList := h.kernList.remove k } : ArgHeap).kinfoDelete q = some h' ∧
      Layout h' (Function.update lists k []) loose ∧
      (∀ k', h'.kinfoFind k' = if k' = k then none else h.kinfoFind k') ∧
      ∀ k' ≠ k, ∀ e ∈ lists k', h'.entryOf e.2 = h.entryOf e.2 := by
  obtain ⟨h', ran, freed⟩ := kinfoDelete_freed layout isListed
  refine ⟨h', ran, ⟨?_, ?_, ?_⟩, ?_, ?_⟩
  · exact freed.links layout isListed
  · exact freed.values_spec layout
  · exact freed.below layout
  · exact freed.kinfoFind layout isListed
  · exact fun k' other e mem => freed.entryOf layout other mem

/-- One turn of the loop of `delPoisonKernel`. -/
theorem delPoisonArg_spec (layout : Layout h lists loose) (isListed : h.kernList.find k = some q)
    (dupe : List Nat) (i : Nat) : ∃ lost h' lists', h.delPoisonArg k dupe i = some (lost, h') ∧
      Layout h' lists' {p | p ∈ lost ∨ p ∈ loose} ∧
      (∀ k', (h'.kinfoFind k').map KernelNode.refCount =
        (h.kinfoFind k').map KernelNode.refCount) ∧
      (∀ k' j entry, (∃ e ∈ lists' k', key e = j ∧ h'.entryOf e.2 = entry) ↔
        ¬ (dupe[i]? = some i ∧ k' = k ∧ j = i) ∧
          ∃ e ∈ lists k', key e = j ∧ h.entryOf e.2 = entry) ∧
      (lost.Nodup ∧ ∀ p ∈ lost, p ∉ loose) ∧
      lost.length = if dupe[i]? = some i ∧ ∃ e ∈ lists k, key e = i ∧ e.2.buffer = none then 1
        else 0 := by
  have nothing : ([] : List Address).Nodup ∧ ∀ p ∈ ([] : List Address), p ∉ loose :=
    ⟨List.nodup_nil, fun p mem => absurd mem List.not_mem_nil⟩
  rw [delPoisonArg]
  by_cases turn : dupe[i]? = some i
  swap
  · rw [if_neg turn]
    refine ⟨[], h, lists, rfl, ?_, fun _ => rfl, fun k' j entry => ?_, nothing, ?_⟩
    · simpa using layout
    · rw [and_iff_right]
      exact fun all => turn all.1
    · rw [if_neg fun all => turn all.1, List.length_nil]
  have increasing := layout.links.increasing k
  have rest : (SortedList.remove key i (lists k)).2 = (lists k).filter fun e => key e ≠ i :=
    increasing.remove_snd
  obtain ⟨h₁, removed, ran, keeps₁, cases⟩ := kargRemove_cases layout isListed i
  rw [if_pos turn, isListed, Option.bind_some, ran, Option.bind_some]
  -- what stays in the lists, once its descriptions are known to stay
  have entries : ∀ {h' : ArgHeap}, (∀ k', ∀ e ∈ Function.update lists k
      (SortedList.remove key i (lists k)).2 k', h'.entryOf e.2 = h.entryOf e.2) →
      ∀ k' j entry, (∃ e ∈ Function.update lists k (SortedList.remove key i (lists k)).2 k',
        key e = j ∧ h'.entryOf e.2 = entry) ↔ ¬ (dupe[i]? = some i ∧ k' = k ∧ j = i) ∧
          ∃ e ∈ lists k', key e = j ∧ h.entryOf e.2 = entry := by
    intro h' kept k' j entry
    constructor
    · rintro ⟨e, mem, isKey, isEntry⟩
      refine ⟨?_, e, mem_of_mem_rest increasing mem, isKey, (kept k' e mem).symm.trans isEntry⟩
      rintro ⟨-, rfl, rfl⟩
      rw [Function.update_self, rest, List.mem_filter] at mem
      simp [isKey] at mem
    · rintro ⟨others, e, mem, isKey, isEntry⟩
      have mem' : e ∈ Function.update lists k (SortedList.remove key i (lists k)).2 k' := by
        rw [Function.update_apply]
        split_ifs with here
        · rw [rest, List.mem_filter]
          refine ⟨here ▸ mem, ?_⟩
          simpa using fun same => others ⟨turn, here, isKey.symm.trans same⟩
        · exact mem
      exact ⟨e, mem', isKey, (kept k' e mem').trans isEntry⟩
  have kept₁ : ∀ k', ∀ e ∈ Function.update lists k (SortedList.remove key i (lists k)).2 k',
      h₁.entryOf e.2 = h.entryOf e.2 := fun k' e mem =>
    (keeps₁ (e.1 + 1)).entries e.1 (Nat.lt_succ_self _).ne e.2
      (layout.itemAt (mem_of_mem_rest increasing mem))
  rcases cases with ⟨rfl, new, layout₁⟩ | ⟨p, item, rfl, mem, isIndex, notLoose, isItem, layout₁⟩
  · refine ⟨[], h₁, _, rfl, ?_, (keeps₁ 0).refCount, entries kept₁, nothing, ?_⟩
    · simpa using layout₁
    · rw [if_neg, List.length_nil]
      rintro ⟨-, e, mem, isKey, -⟩
      exact new e mem isKey
  · have only : (∃ e ∈ lists k, key e = i ∧ e.2.buffer = none) ↔ item.buffer = none := by
      constructor
      · rintro ⟨e, mem', isKey, noBuffer⟩
        rwa [increasing.key_injective mem' mem (isKey.trans isIndex.symm)] at noBuffer
      · exact fun noBuffer => ⟨(p, item), mem, isIndex, noBuffer⟩
    obtain ⟨node, found, rfl⟩ := Option.map_eq_some_iff.mp isItem
    dsimp only
    rw [found, Option.bind_some]
    cases buffer : node.item.buffer with
    | none =>
        refine ⟨[p], h₁, _, rfl, ?_, (keeps₁ 0).refCount, entries kept₁,
          ⟨List.nodup_singleton p, by simpa using notLoose⟩, ?_⟩
        · have same : {p' | p' ∈ [p] ∨ p' ∈ loose} = insert p loose := by
            ext p'
            simp
          rw [same]
          exact layout₁
        · rw [if_pos ⟨turn, only.mpr buffer⟩, List.length_singleton]
    | some m1 =>
        obtain ⟨h₂, deleted, layout₂, keeps₂⟩ := kargDelete_spec layout₁ (Set.mem_insert p loose)
        rw [Set.insert_sdiff_self_of_notMem notLoose] at layout₂
        refine ⟨[], h₂, _, ?_, ?_, fun k' => (keeps₂.refCount k').trans ((keeps₁ 0).refCount k'),
          entries fun k' e mem => ?_, nothing, ?_⟩
        · dsimp only
          rw [deleted, Option.map_some]
        · simpa using layout₂
        · exact (keeps₂.entries e.1 (layout₁.ne_loose (Set.mem_insert p loose) mem) e.2
            (layout₁.itemAt mem)).trans (kept₁ k' e mem)
        · rw [if_neg, List.length_nil]
          rintro ⟨-, noBuffer⟩
          rw [only, buffer] at noBuffer
          contradiction

end ArgHeap

end Clarmor
