import Mathlib

/-!
# Keyed tables

`Table` is an unordered map seen through its lookups: inserting under a key
that is present changes nothing, as the insertion of a hash map does.
`OrderedMap` is a map whose entries are kept in increasing key order; `next`
gives the entry with the least key above a given one, and walking from key to
next key visits every entry above the start once and in order.
-/

namespace Clarmor

universe u v

/-- An unordered map from keys to values. -/
def Table (κ : Type u) (ν : Type v) := κ → Option ν

namespace Table

variable {κ : Type u} {ν : Type v} [DecidableEq κ]

/-- The map without entries. -/
def empty : Table κ ν := fun _ => none

/-- Lookup. -/
def find (t : Table κ ν) (k : κ) : Option ν := t k

/-- Insert an entry; an entry that is already present under the key stays. -/
def insert (t : Table κ ν) (k : κ) (v : ν) : Table κ ν := fun j =>
  if j = k then some ((t k).getD v) else t j

/-- Delete the entry under a key. -/
def remove (t : Table κ ν) (k : κ) : Table κ ν := fun j =>
  if j = k then none else t j

/-- Change the value under a key, if there is one. -/
def modify (t : Table κ ν) (k : κ) (f : ν → ν) : Table κ ν := fun j =>
  if j = k then (t k).map f else t j

omit [DecidableEq κ] in
@[simp]
theorem find_empty (k : κ) : (empty : Table κ ν).find k = none :=
  rfl

omit [DecidableEq κ] in
@[ext]
theorem ext {s t : Table κ ν} (same : ∀ k, s.find k = t.find k) : s = t :=
  funext same

theorem find_insert (t : Table κ ν) (k j : κ) (v : ν) :
    (t.insert k v).find j = if j = k then some ((t.find k).getD v) else t.find j :=
  rfl

theorem find_insert_fresh {t : Table κ ν} {k : κ} {v : ν} (fresh : t.find k = none) :
    (t.insert k v).find k = some v := by
  simp [find_insert, fresh]

theorem find_insert_of_ne {t : Table κ ν} {k j : κ} {v : ν} (ne : j ≠ k) :
    (t.insert k v).find j = t.find j := by
  simp [find_insert, ne]

theorem find_remove (t : Table κ ν) (k j : κ) :
    (t.remove k).find j = if j = k then none else t.find j :=
  rfl

@[simp]
theorem find_remove_self (t : Table κ ν) (k : κ) : (t.remove k).find k = none := by
  simp [find_remove]

theorem find_remove_of_ne {t : Table κ ν} {k j : κ} (ne : j ≠ k) :
    (t.remove k).find j = t.find j := by
  simp [find_remove, ne]

theorem find_modify (t : Table κ ν) (k j : κ) (f : ν → ν) :
    (t.modify k f).find j = if j = k then (t.find k).map f else t.find j :=
  rfl

theorem find_modify_of_ne {t : Table κ ν} {k j : κ} {f : ν → ν} (ne : j ≠ k) :
    (t.modify k f).find j = t.find j := by
  simp [find_modify, ne]

theorem modify_modify (t : Table κ ν) (k : κ) (f g : ν → ν) :
    (t.modify k f).modify k g = t.modify k fun v => g (f v) := by
  ext j : 1
  simp only [find_modify]
  split_ifs with here
  · rw [Option.map_map]
    rfl
  · rfl

@[simp]
theorem find_modify_self (t : Table κ ν) (k : κ) (f : ν → ν) :
    (t.modify k f).find k = (t.find k).map f := by
  simp [find_modify]

end Table

/-- A map whose entries are listed in strictly increasing key order. -/
structure OrderedMap (κ : Type u) (ν : Type v) [LinearOrder κ] where
  entries : List (κ × ν)
  sorted : entries.Pairwise fun a b => a.1 < b.1

namespace OrderedMap

variable {κ : Type u} {ν : Type v} [LinearOrder κ]

/-- Lookup. -/
def find (m : OrderedMap κ ν) (k : κ) : Option ν :=
  (m.entries.find? fun e => e.1 = k).map Prod.snd

/-- The entry with the least key above `k`. -/
def next (m : OrderedMap κ ν) (k : κ) : Option (κ × ν) :=
  m.entries.find? fun e => k < e.1

/-- The entries above `k`, in order. -/
def above (m : OrderedMap κ ν) (k : κ) : List (κ × ν) :=
  m.entries.filter fun e => k < e.1

/-- Visit `next k`, then the next of that key, and so on, at most `fuel` times. -/
def walk (m : OrderedMap κ ν) : Nat → κ → List (κ × ν)
  | 0, _ => []
  | fuel + 1, k =>
      match m.next k with
      | none => []
      | some e => e :: walk m fuel e.1

private theorem filter_eq_find_cons {l : List (κ × ν)} {k : κ} {e : κ × ν}
    (sorted : l.Pairwise fun a b => a.1 < b.1) (found : l.find? (fun e => k < e.1) = some e) :
    l.filter (fun e => k < e.1) = e :: l.filter (fun e' => e.1 < e'.1) := by
  induction l with
  | nil => simp at found
  | cons head tail ih =>
      have tailSorted := (List.pairwise_cons.mp sorted).2
      have headLt := (List.pairwise_cons.mp sorted).1
      by_cases above : k < head.1
      · simp only [above, decide_true, List.find?_cons_of_pos, Option.some.injEq] at found
        subst found
        have tailAbove : tail.filter (fun e => k < e.1) =
            tail.filter (fun e' => head.1 < e'.1) := by
          apply List.filter_congr
          intro x xMem
          simp [headLt x xMem, above.trans (headLt x xMem)]
        simp [above, tailAbove]
      · simp only [above, decide_false, Bool.false_eq_true, not_false_eq_true,
          List.find?_cons_of_neg] at found
        have notAbove : ¬ e.1 < head.1 :=
          not_lt.mpr (headLt e (List.mem_of_find?_eq_some found)).le
        simp only [above, decide_false, Bool.false_eq_true, not_false_eq_true,
          List.filter_cons_of_neg, notAbove]
        exact ih tailSorted found

/-- The first entry above a key, and then what is above that entry. -/
theorem above_eq_cons {m : OrderedMap κ ν} {k : κ} {e : κ × ν} (found : m.next k = some e) :
    m.above k = e :: m.above e.1 :=
  filter_eq_find_cons m.sorted found

theorem above_eq_nil {m : OrderedMap κ ν} {k : κ} (none_found : m.next k = none) :
    m.above k = [] := by
  rw [next, List.find?_eq_none] at none_found
  simpa [above] using none_found

/-- Walking with enough fuel visits exactly the entries above the start. -/
theorem walk_eq_above (m : OrderedMap κ ν) {fuel : Nat} {k : κ}
    (enough : (m.above k).length ≤ fuel) : m.walk fuel k = m.above k := by
  induction fuel generalizing k with
  | zero =>
      have empty : m.above k = [] := List.length_eq_zero_iff.mp (by omega)
      simp [walk, empty]
  | succ fuel ih =>
      cases found : m.next k with
      | none => simp [walk, found, above_eq_nil found]
      | some e =>
          have split := above_eq_cons found
          rw [split, List.length_cons] at enough
          simp [walk, found, split, ih (k := e.1) (by omega)]

theorem above_length_le (m : OrderedMap κ ν) (k : κ) :
    (m.above k).length ≤ m.entries.length :=
  List.length_filter_le _ _

theorem keys_nodup (m : OrderedMap κ ν) : (m.entries.map Prod.fst).Nodup :=
  (List.pairwise_map.mpr m.sorted).imp fun lt => lt.ne

/-- Lookup returns exactly the listed entries. -/
theorem find_eq_some_iff {m : OrderedMap κ ν} {k : κ} {v : ν} :
    m.find k = some v ↔ (k, v) ∈ m.entries := by
  constructor
  · intro found
    obtain ⟨e, present, rfl⟩ := Option.map_eq_some_iff.mp found
    have key : e.1 = k := by simpa using List.find?_some present
    subst key
    exact List.mem_of_find?_eq_some present
  · intro member
    cases search : m.entries.find? (fun e => e.1 = k) with
    | none =>
        have absent := List.find?_eq_none.mp search (k, v) member
        simp at absent
    | some e =>
        have key : e.1 = k := by simpa using List.find?_some search
        have eMem := List.mem_of_find?_eq_some search
        have same : e = (k, v) := by
          exact List.inj_on_of_nodup_map m.keys_nodup eMem member key
        simp [find, search, same]

/-- The map without entries. -/
def empty : OrderedMap κ ν := ⟨[], List.Pairwise.nil⟩

/-- Insert an entry; an entry that is already present under the key stays. -/
def insert (m : OrderedMap κ ν) (k : κ) (v : ν) : OrderedMap κ ν where
  entries :=
    if (m.find k).isSome then m.entries
    else (m.entries.filter fun e => e.1 < k) ++ (k, v) :: m.entries.filter fun e => k < e.1
  sorted := by
    split
    · exact m.sorted
    · rw [List.pairwise_append, List.pairwise_cons]
      refine ⟨m.sorted.filter _, ⟨?_, m.sorted.filter _⟩, ?_⟩
      · intro e mem
        simpa using (List.mem_filter.mp mem).2
      · intro e before e' after
        have lower : e.1 < k := by simpa using (List.mem_filter.mp before).2
        rcases List.mem_cons.mp after with rfl | mem
        · exact lower
        · have upper : k < e'.1 := by simpa using (List.mem_filter.mp mem).2
          exact lower.trans upper

/-- Delete the entry under a key. -/
def remove (m : OrderedMap κ ν) (k : κ) : OrderedMap κ ν where
  entries := m.entries.filter fun e => e.1 ≠ k
  sorted := m.sorted.filter _

@[simp]
theorem find_empty (k : κ) : (empty : OrderedMap κ ν).find k = none :=
  rfl

theorem find_remove (m : OrderedMap κ ν) (k j : κ) :
    (m.remove k).find j = if j = k then none else m.find j := by
  apply Option.ext
  intro v
  rw [find_eq_some_iff, remove, List.mem_filter]
  by_cases here : j = k
  · simp [here]
  · simp [here, find_eq_some_iff]

theorem find_insert_fresh {m : OrderedMap κ ν} {k : κ} {v : ν} (fresh : m.find k = none) (j : κ) :
    (m.insert k v).find j = if j = k then some v else m.find j := by
  apply Option.ext
  intro v'
  have entries : (m.insert k v).entries =
      (m.entries.filter fun e => e.1 < k) ++ (k, v) :: m.entries.filter fun e => k < e.1 := by
    simp [insert, fresh]
  rw [find_eq_some_iff, entries]
  by_cases here : j = k
  · subst here
    simp [eq_comm]
  · rcases lt_or_gt_of_ne here with before | after
    · simp [here, find_eq_some_iff, before, before.not_gt]
    · simp [here, find_eq_some_iff, after, after.not_gt]

theorem find_insert_of_ne {m : OrderedMap κ ν} {k j : κ} {v : ν} (ne : j ≠ k) :
    (m.insert k v).find j = m.find j := by
  cases present : m.find k with
  | none => rw [find_insert_fresh present, if_neg ne]
  | some v' =>
      have entries : (m.insert k v).entries = m.entries := by simp [insert, present]
      rw [find, find, entries]

/-- The entry with the greatest key up to `k`. -/
def upTo (m : OrderedMap κ ν) (k : κ) : Option (κ × ν) :=
  (m.entries.filter fun e => e.1 ≤ k).getLast?

theorem upTo_eq_some_iff {m : OrderedMap κ ν} {k : κ} {e : κ × ν} :
    m.upTo k = some e ↔
      e ∈ m.entries ∧ e.1 ≤ k ∧ ∀ e' ∈ m.entries, e'.1 ≤ k → e'.1 ≤ e.1 := by
  have sorted : (m.entries.filter fun e => e.1 ≤ k).Pairwise fun a b => a.1 < b.1 :=
    m.sorted.filter _
  rw [upTo, List.getLast?_eq_some_iff]
  constructor
  · rintro ⟨before, split⟩
    have mem : e ∈ m.entries.filter fun e => e.1 ≤ k := by simp [split]
    obtain ⟨mem, le⟩ := List.mem_filter.mp mem
    refine ⟨mem, by simpa using le, fun e' mem' le' => ?_⟩
    have inside : e' ∈ before ++ [e] := by
      rw [← split]
      exact List.mem_filter.mpr ⟨mem', by simpa using le'⟩
    rw [split, List.pairwise_append] at sorted
    rcases List.mem_append.mp inside with earlier | last
    · exact (sorted.2.2 e' earlier e (List.mem_singleton_self e)).le
    · rw [List.mem_singleton.mp last]
  · rintro ⟨mem, le, greatest⟩
    have inside : e ∈ m.entries.filter fun e => e.1 ≤ k :=
      List.mem_filter.mpr ⟨mem, by simpa using le⟩
    obtain ⟨before, last, split⟩ : ∃ before last,
        m.entries.filter (fun e => e.1 ≤ k) = before ++ [last] :=
      ⟨_, _, (List.dropLast_append_getLast (List.ne_nil_of_mem inside)).symm⟩
    have lastMem : last ∈ m.entries.filter fun e => e.1 ≤ k := by simp [split]
    obtain ⟨lastMem, lastLe⟩ := List.mem_filter.mp lastMem
    have most := greatest last lastMem (by simpa using lastLe)
    rw [split, List.pairwise_append] at sorted
    rw [split] at inside
    rcases List.mem_append.mp inside with earlier | here
    · exact absurd (sorted.2.2 e earlier last (List.mem_singleton_self last)) most.not_gt
    · rw [List.mem_singleton.mp here]
      exact ⟨before, split⟩

end OrderedMap

end Clarmor
