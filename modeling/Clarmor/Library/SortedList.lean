import Mathlib

/-!
# Lists sorted by a key

The operations of a linked list that is kept in increasing order of a key: an
element is inserted behind the elements with its key, and a search gives up at
the first greater key.  On a list with strictly increasing keys a search finds
the element with the key, and removing a key before it is inserted keeps the
keys strictly increasing.
-/

namespace Clarmor.SortedList

universe u v

variable {α : Type u} {κ : Type v} [LinearOrder κ] (key : α → κ)

/-- Insert an element before the first one with a greater key. -/
def insert (item : α) : List α → List α
  | [] => [item]
  | lp :: next => if key item < key lp then item :: lp :: next else lp :: insert item next

/-- Unlink the element with a key. -/
def remove (handle : κ) : List α → Option α × List α
  | [] => (none, [])
  | lp :: next =>
      if key lp = handle then (some lp, next)
      else if handle < key lp then (none, lp :: next)
      else ((remove handle next).1, lp :: (remove handle next).2)

/-- The element with a key. -/
def find (handle : κ) : List α → Option α
  | [] => none
  | lp :: next =>
      if key lp = handle then some lp
      else if handle < key lp then none
      else find handle next

/-- The keys increase strictly. -/
def Increasing (list : List α) : Prop := list.Pairwise fun a b => key a < key b

variable {key} {list : List α} {item : α} {handle : κ}

theorem Increasing.key_injective (increasing : Increasing key list) {a b : α} (mem : a ∈ list)
    (mem' : b ∈ list) (same : key a = key b) : a = b := by
  have distinct : (list.map key).Nodup :=
    List.pairwise_map.mpr (increasing.imp fun less => less.ne)
  exact List.inj_on_of_nodup_map distinct mem mem' same

theorem mem_insert {a : α} : a ∈ insert key item list ↔ a = item ∨ a ∈ list := by
  induction list with
  | nil => simp [insert]
  | cons lp next ih =>
      rw [insert]
      split
      · exact List.mem_cons
      · rw [List.mem_cons, ih, List.mem_cons, or_left_comm]

theorem insert_perm : (insert key item list).Perm (item :: list) := by
  induction list with
  | nil => exact .refl _
  | cons lp next ih =>
      rw [insert]
      split
      · exact .refl _
      · exact (ih.cons lp).trans (.swap item lp next)

/-- What is unlinked, and what is left. -/
theorem remove_perm :
    list.Perm ((remove key handle list).1.toList ++ (remove key handle list).2) := by
  induction list with
  | nil => exact .refl _
  | cons lp next ih =>
      rw [remove]
      split_ifs
      · exact .refl _
      · exact .refl _
      · exact (ih.cons lp).trans List.perm_middle.symm

/-- What is unlinked has the key. -/
theorem key_of_remove {a : α} (removed : (remove key handle list).1 = some a) :
    key a = handle := by
  induction list with
  | nil => contradiction
  | cons lp next ih =>
      rw [remove] at removed
      split_ifs at removed with same
      · rw [← Option.some.inj removed, same]
      · exact ih removed

/-- A new key keeps the keys strictly increasing. -/
theorem Increasing.insert (increasing : Increasing key list)
    (new : ∀ a ∈ list, key a ≠ key item) : Increasing key (insert key item list) := by
  induction list with
  | nil => exact List.pairwise_singleton _ _
  | cons lp next ih =>
      obtain ⟨above, increasing⟩ := List.pairwise_cons.mp increasing
      rw [SortedList.insert]
      split
      case isTrue before =>
        refine List.pairwise_cons.mpr ⟨fun a mem => ?_, List.pairwise_cons.mpr ⟨above, increasing⟩⟩
        rcases List.mem_cons.mp mem with rfl | mem
        · exact before
        · exact before.trans (above a mem)
      case isFalse notBefore =>
        have after : key lp < key item :=
          lt_of_le_of_ne (not_lt.mp notBefore) (new lp List.mem_cons_self)
        refine List.pairwise_cons.mpr ⟨fun a mem => ?_,
          ih increasing fun a mem => new a (List.mem_cons_of_mem lp mem)⟩
        rcases mem_insert.mp mem with rfl | mem
        · exact after
        · exact above a mem

/-- A new key stands between the lesser and the greater ones. -/
theorem Increasing.insert_eq (increasing : Increasing key list)
    (new : ∀ a ∈ list, key a ≠ key item) : SortedList.insert key item list =
      (list.filter fun a => key a < key item) ++ item ::
        list.filter fun a => key item < key a := by
  induction list with
  | nil => rfl
  | cons lp next ih =>
      obtain ⟨above, increasing⟩ := List.pairwise_cons.mp increasing
      rw [SortedList.insert]
      split
      case isTrue before =>
        have greater : ∀ a ∈ lp :: next, key item < key a := by
          intro a mem
          rcases List.mem_cons.mp mem with rfl | mem
          · exact before
          · exact before.trans (above a mem)
        rw [List.filter_eq_nil_iff.mpr fun a mem => by simpa using (greater a mem).le,
          List.filter_eq_self.mpr fun a mem => by simpa using greater a mem]
        rfl
      case isFalse notBefore =>
        have after : key lp < key item :=
          lt_of_le_of_ne (not_lt.mp notBefore) (new lp List.mem_cons_self)
        rw [ih increasing fun a mem => new a (List.mem_cons_of_mem lp mem)]
        rw [List.filter_cons_of_pos (by simpa using after),
          List.filter_cons_of_neg (by simpa using after.le)]
        rfl

/-- All keys behind a greater one differ from the key that is searched for. -/
theorem Increasing.ne_of_lt {lp : α} (increasing : Increasing key (lp :: list))
    (less : handle < key lp) {a : α} (mem : a ∈ lp :: list) : key a ≠ handle := by
  rcases List.mem_cons.mp mem with rfl | mem
  · exact less.ne'
  · exact (less.trans ((List.pairwise_cons.mp increasing).1 a mem)).ne'

/-- The search that gives up early finds what a full one finds. -/
theorem Increasing.find_eq (increasing : Increasing key list) :
    find key handle list = list.find? fun a => key a = handle := by
  induction list with
  | nil => rfl
  | cons lp next ih =>
      rw [SortedList.find, List.find?_cons]
      by_cases same : key lp = handle
      · simp [same]
      · rw [if_neg same]
        have missed : decide (key lp = handle) = false := by simpa using same
        rw [missed]
        by_cases less : handle < key lp
        · rw [if_pos less]
          refine (List.find?_eq_none.mpr fun a mem => ?_).symm
          simpa using increasing.ne_of_lt less (List.mem_cons_of_mem lp mem)
        · rw [if_neg less]
          exact ih (List.pairwise_cons.mp increasing).2

/-- What is left is the list without the key. -/
theorem Increasing.remove_snd (increasing : Increasing key list) :
    (remove key handle list).2 = list.filter fun a => key a ≠ handle := by
  induction list with
  | nil => rfl
  | cons lp next ih =>
      have rest := (List.pairwise_cons.mp increasing).1
      rw [remove]
      by_cases same : key lp = handle
      · have kept : ∀ a ∈ next, decide (key a ≠ handle) = true := by
          intro a mem
          have above := rest a mem
          rw [same] at above
          simpa using above.ne'
        rw [if_pos same, List.filter_cons_of_neg (by simpa using same),
          List.filter_eq_self.mpr kept]
      · rw [if_neg same]
        by_cases less : handle < key lp
        · rw [if_pos less]
          refine (List.filter_eq_self.mpr fun a mem => ?_).symm
          simpa using increasing.ne_of_lt less mem
        · rw [if_neg less, List.filter_cons_of_pos (by simpa using same)]
          rw [ih (List.pairwise_cons.mp increasing).2]

/-- Replace the element with a key. -/
theorem Increasing.replace (increasing : Increasing key list) (same : key item = handle) :
    Increasing key (SortedList.insert key item (remove key handle list).2) := by
  rw [increasing.remove_snd]
  refine Increasing.insert (increasing.filter _) fun a mem => ?_
  have ne := (List.mem_filter.mp mem).2
  rw [same]
  simpa using ne

theorem Increasing.mem_replace (increasing : Increasing key list) (same : key item = handle)
    {a : α} : a ∈ SortedList.insert key item (remove key handle list).2 ↔
      a = item ∨ (a ∈ list ∧ key a ≠ key item) := by
  rw [mem_insert, increasing.remove_snd, List.mem_filter, same]
  simp

/-- When the keys are numbers and all numbers below a bound are among them, the
elements below the bound stand at their keys. -/
theorem Increasing.getElem?_of_all {key : α → ℕ} {list : List α} {n : ℕ}
    (increasing : Increasing key list) (all : ∀ i < n, ∃ a ∈ list, key a = i) :
    ∀ i < n, ∃ a, list[i]? = some a ∧ key a = i := by
  intro i iLt
  have strict : ∀ {j k : ℕ} (jLt : j < list.length) (kLt : k < list.length),
      j < k → key list[j] < key list[k] := by
    intro j k jLt kLt less
    exact List.pairwise_iff_getElem.mp increasing j k jLt kLt less
  have atLeast : ∀ j (jLt : j < list.length), j ≤ key list[j] := by
    intro j
    induction j with
    | zero => exact fun _ => Nat.zero_le _
    | succ j ih =>
        intro jLt
        have before := ih (by omega)
        have less := strict (j := j) (by omega) jLt (Nat.lt_succ_self j)
        omega
  have placed : ∀ j < n, ∃ jLt : j < list.length, key list[j] = j := by
    intro j
    induction j using Nat.strong_induction_on with
    | _ j ih =>
        intro jLt
        obtain ⟨a, mem, keyed⟩ := all j jLt
        obtain ⟨k, kLt, here⟩ := List.mem_iff_getElem.mp mem
        have kLe := atLeast k kLt
        rw [here, keyed] at kLe
        rcases kLe.lt_or_eq with less | rfl
        · obtain ⟨kLt', keyed'⟩ := ih k less (by omega)
          rw [here, keyed] at keyed'
          omega
        · exact ⟨kLt, by rw [here, keyed]⟩
  obtain ⟨bound, keyed⟩ := placed i iLt
  exact ⟨list[i], List.getElem?_eq_getElem bound, keyed⟩

end Clarmor.SortedList
