import Clarmor.Library.Run
import Clarmor.Wrapper.Svm

/-!
# Bases of shared virtual memory

The application holds the pointer behind the first canary, while the runtime
and the caches of fine-grained regions know the base.  Along a run of
allocations and `clSVMFree` calls every live fine-grained base is either lent to
the application or idle in the cache of its context, and only live
coarse-grained bases are given back to the runtime.
-/

namespace Clarmor

/-- A pointer that the application holds: the context and the kind of its
allocation. -/
structure SvmHeld where
  context : Handle
  fineGrain : Bool
deriving DecidableEq, Repr

/-- The tables, the caches, the runtime and the application's pointers belong
together. -/
structure Lending (svm : OrderedMap Nat SvmObj) (fg : FgCache) (live : Table Nat SvmAlloc)
    (app : Table Nat SvmHeld) : Prop where
  held : ∀ p h, app.find p = some h → ∃ m a, svm.find p = some m ∧
    p = m.mainBuff + POISON_FILL_LENGTH ∧ m.mainBuff ≠ NULL ∧
    live.find m.mainBuff = some a ∧ a.context = h.context ∧ a.fineGrain = h.fineGrain ∧
    (h.fineGrain = true → ((fg.allocatedFgSvms h.context).find m.mainBuff).isSome)
  known : ∀ p, app.find p = none → svm.find p = none
  inUse : ∀ c base r, (fg.allocatedFgSvms c).find base = some r →
    r.base = base ∧ app.find (base + POISON_FILL_LENGTH) = some ⟨c, true⟩
  idle : ∀ c, ∀ r ∈ fg.freeFgSvms c, app.find (r.base + POISON_FILL_LENGTH) = none ∧
    r.base ≠ NULL ∧ ∃ a, live.find r.base = some a ∧ a.context = c ∧ a.fineGrain = true
  distinct : ∀ c, ((fg.freeFgSvms c).map FgRegion.base).Nodup
  cached : ∀ base a, live.find base = some a → a.fineGrain = true →
    (app.find (base + POISON_FILL_LENGTH)).isSome ∨
      ∃ r ∈ fg.freeFgSvms a.context, r.base = base

namespace FgCache

theorem find_use {fg : FgCache} {c : Handle} {r : FgRegion}
    (fresh : (fg.allocatedFgSvms c).find r.base = none) (c' base : Nat) :
    ((fg.use c r).allocatedFgSvms c').find base =
      if c' = c ∧ base = r.base then some r else (fg.allocatedFgSvms c').find base := by
  by_cases here : c' = c
  · subst here
    by_cases same : base = r.base
    · subst same
      simp [use, Table.find_insert_fresh fresh]
    · simp [use, same, Table.find_insert_of_ne same]
  · simp [use, here]

theorem mem_insertBySize {r q : FgRegion} {free : List FgRegion} :
    q ∈ insertBySize r free ↔ q = r ∨ q ∈ free := by
  have split : free.takeWhile (fun q => q.size ≤ r.size) ++
      free.dropWhile (fun q => q.size ≤ r.size) = free := List.takeWhile_append_dropWhile
  rw [insertBySize, List.mem_append, List.mem_cons]
  conv_rhs => rw [← split, List.mem_append]
  tauto

theorem insertBySize_perm (r : FgRegion) (free : List FgRegion) :
    (insertBySize r free).Perm (r :: free) := by
  have split : free.takeWhile (fun q => q.size ≤ r.size) ++
      free.dropWhile (fun q => q.size ≤ r.size) = free := List.takeWhile_append_dropWhile
  conv_rhs => rw [← split]
  exact List.perm_middle

theorem find_retire (fg : FgCache) (c base : Nat) (r : FgRegion) (c' b : Nat) :
    ((fg.retire c base r).allocatedFgSvms c').find b =
      if c' = c ∧ b = base then none else (fg.allocatedFgSvms c').find b := by
  by_cases here : c' = c
  · subst here
    simp [retire, Table.find_remove]
  · simp [retire, here]

theorem mem_retire {fg : FgCache} {c base c' : Nat} {r q : FgRegion} :
    q ∈ (fg.retire c base r).freeFgSvms c' ↔ (c' = c ∧ q = r) ∨ q ∈ fg.freeFgSvms c' := by
  by_cases here : c' = c
  · subst here
    simp [retire, mem_insertBySize]
  · simp [retire, here]

/-- A region whose base is not among the free ones keeps the bases distinct. -/
theorem retire_distinct {fg : FgCache} {c base : Nat} {r : FgRegion}
    (distinct : ∀ c, ((fg.freeFgSvms c).map FgRegion.base).Nodup)
    (new : ∀ q ∈ fg.freeFgSvms c, q.base ≠ r.base) (c' : Nat) :
    (((fg.retire c base r).freeFgSvms c').map FgRegion.base).Nodup := by
  by_cases here : c' = c
  · subst here
    have inserted : (fg.retire c' base r).freeFgSvms c' = insertBySize r (fg.freeFgSvms c') := by
      simp [retire]
    rw [inserted, ((insertBySize_perm _ _).map _).nodup_iff, List.map_cons, List.nodup_cons]
    refine ⟨fun mem => ?_, distinct c'⟩
    obtain ⟨q, qMem, equal⟩ := List.mem_map.mp mem
    exact new q qMem equal
  · simpa [retire, here] using distinct c'

/-- The free regions that stay. -/
theorem mem_reuse {fg : FgCache} {context : Handle} {r q : FgRegion}
    (distinct : ((fg.freeFgSvms context).map FgRegion.base).Nodup)
    (mem : r ∈ fg.freeFgSvms context) :
    q ∈ (fg.reuse context r).freeFgSvms context ↔
      q ∈ fg.freeFgSvms context ∧ q.base ≠ r.base := by
  rw [reuse_freeFgSvms_self, distinct.of_map.mem_erase_iff]
  constructor
  · rintro ⟨ne, qMem⟩
    exact ⟨qMem, fun same => ne (List.inj_on_of_nodup_map distinct qMem mem same)⟩
  · rintro ⟨qMem, away⟩
    exact ⟨fun same => away (by rw [same]), qMem⟩

/-- What a search of the free regions finds. -/
theorem findFreeSvm_cases {fg fg' : FgCache} {context size alignment base : Nat}
    (found : fg.findFreeSvm context size alignment = some (base, fg')) :
    ∃ r ∈ fg.freeFgSvms context, base = r.base ∧ fg' = fg.reuse context r := by
  simp only [findFreeSvm] at found
  split at found
  · simp at found
  · rename_i r search
    simp only [Option.some.injEq, Prod.mk.injEq] at found
    obtain ⟨rfl, rfl⟩ := found
    exact ⟨r, (List.dropWhile_sublist _).mem (List.mem_of_find?_eq_some search), rfl, rfl⟩

end FgCache

namespace Lending

variable {svm : OrderedMap Nat SvmObj} {fg : FgCache} {live : Table Nat SvmAlloc}
  {app : Table Nat SvmHeld}

theorem empty : Lending OrderedMap.empty FgCache.initial Table.empty Table.empty := by
  constructor <;> simp [FgCache.initial]

/-- A base that is not live is held by nobody. -/
theorem free_of_fresh (inv : Lending svm fg live app) {base : Nat}
    (fresh : live.find base = none) : app.find (base + POISON_FILL_LENGTH) = none := by
  cases held : app.find (base + POISON_FILL_LENGTH) with
  | none => rfl
  | some h =>
      obtain ⟨m, a, -, pointer, -, found, -⟩ := inv.held _ h held
      have same : base = m.mainBuff := Nat.add_right_cancel pointer
      rw [← same, fresh] at found
      simp at found

/-- `NULL` is never held. -/
theorem null_free (inv : Lending svm fg live app) : app.find NULL = none := by
  cases held : app.find NULL with
  | none => rfl
  | some h =>
      obtain ⟨m, a, -, pointer, -⟩ := inv.held _ h held
      simp [NULL, POISON_FILL_LENGTH] at pointer

/-- Nor is a base in use whose pointer is not held. -/
theorem not_inUse_of_free (inv : Lending svm fg live app) {base : Nat}
    (free : app.find (base + POISON_FILL_LENGTH) = none) (c : Handle) :
    (fg.allocatedFgSvms c).find base = none := by
  cases used : (fg.allocatedFgSvms c).find base with
  | none => rfl
  | some r =>
      obtain ⟨-, held⟩ := inv.inUse c base r used
      rw [free] at held
      simp at held

/-- How the caches and the runtime change when a base is lent: it is live, in use
when it is fine-grained, and idle no more. -/
structure Lends (fg fg' : FgCache) (live live' : Table Nat SvmAlloc) (base : Nat) (a : SvmAlloc) :
    Prop where
  liveAt : live'.find base = some a
  liveElse : ∀ b, b ≠ base → live'.find b = live.find b
  usedAt : a.fineGrain = true →
    ∃ r, r.base = base ∧ (fg'.allocatedFgSvms a.context).find base = some r
  usedElse : ∀ c b, ¬ (c = a.context ∧ b = base ∧ a.fineGrain = true) →
    (fg'.allocatedFgSvms c).find b = (fg.allocatedFgSvms c).find b
  idle : ∀ c r, r ∈ fg'.freeFgSvms c ↔ r ∈ fg.freeFgSvms c ∧ r.base ≠ base
  distinct : ∀ c, ((fg'.freeFgSvms c).map FgRegion.base).Nodup

/-- Hand out the pointer behind the first canary of a base. -/
theorem lend (inv : Lending svm fg live app) {base : Nat} {a : SvmAlloc} {m : SvmObj}
    {fg' : FgCache} {live' : Table Nat SvmAlloc} (notNull : base ≠ NULL)
    (free : app.find (base + POISON_FILL_LENGTH) = none) (mainBuff : m.mainBuff = base)
    (lends : Lends fg fg' live live' base a) :
    Lending (svm.insert (base + POISON_FILL_LENGTH) m) fg' live'
      (app.insert (base + POISON_FILL_LENGTH) ⟨a.context, a.fineGrain⟩) := by
  have notKey := inv.known _ free
  have shifted : ∀ {b}, b + POISON_FILL_LENGTH = base + POISON_FILL_LENGTH → b = base :=
    fun same => Nat.add_right_cancel same
  constructor
  case held =>
    intro p h held
    by_cases here : p = base + POISON_FILL_LENGTH
    · subst here
      rw [Table.find_insert_fresh free, Option.some.injEq] at held
      subst held
      refine ⟨m, a, ?_, ?_, ?_, ?_, rfl, rfl, ?_⟩
      · rw [OrderedMap.find_insert_fresh notKey, if_pos rfl]
      · rw [mainBuff]
      · rwa [mainBuff]
      · rw [mainBuff, lends.liveAt]
      · intro fine
        obtain ⟨r, -, used⟩ := lends.usedAt fine
        rw [mainBuff, used]
        rfl
    · rw [Table.find_insert_of_ne here] at held
      obtain ⟨m', a', found, pointer, notNull', isLive, context, grain, used⟩ := inv.held p h held
      have away : m'.mainBuff ≠ base := by
        rintro rfl
        exact here pointer
      refine ⟨m', a', ?_, pointer, notNull', ?_, context, grain, fun fine => ?_⟩
      · rw [OrderedMap.find_insert_fresh notKey, if_neg here, found]
      · rw [lends.liveElse _ away, isLive]
      · rw [lends.usedElse _ _ (fun same => away same.2.1)]
        exact used fine
  case known =>
    intro p absent
    by_cases here : p = base + POISON_FILL_LENGTH
    · subst here
      rw [Table.find_insert_fresh free] at absent
      simp at absent
    · rw [Table.find_insert_of_ne here] at absent
      rw [OrderedMap.find_insert_fresh notKey, if_neg here, inv.known p absent]
  case inUse =>
    intro c b r used
    by_cases here : c = a.context ∧ b = base ∧ a.fineGrain = true
    · obtain ⟨rfl, rfl, fine⟩ := here
      obtain ⟨r', same, used'⟩ := lends.usedAt fine
      rw [used, Option.some.injEq] at used'
      subst used'
      refine ⟨same, ?_⟩
      rw [Table.find_insert_fresh free, fine]
    · rw [lends.usedElse c b here] at used
      obtain ⟨same, held⟩ := inv.inUse c b r used
      refine ⟨same, ?_⟩
      rw [Table.find_insert_of_ne ?_, held]
      intro pointer
      rw [pointer, free] at held
      simp at held
  case idle =>
    intro c r mem
    obtain ⟨mem, away⟩ := (lends.idle c r).mp mem
    obtain ⟨unheld, notNull', a', isLive, context, fine⟩ := inv.idle c r mem
    refine ⟨?_, notNull', a', ?_, context, fine⟩
    · rw [Table.find_insert_of_ne fun pointer => away (shifted pointer), unheld]
    · rw [lends.liveElse _ away, isLive]
  case distinct => exact lends.distinct
  case cached =>
    intro b a' isLive fine
    by_cases here : b = base
    · subst here
      left
      rw [Table.find_insert_fresh free]
      rfl
    · rw [lends.liveElse b here] at isLive
      rcases inv.cached b a' isLive fine with held | ⟨r, mem, same⟩
      · left
        rwa [Table.find_insert_of_ne fun pointer => here (shifted pointer)]
      · right
        refine ⟨r, (lends.idle _ r).mpr ⟨mem, ?_⟩, same⟩
        rwa [same]

/-- Take an idle region from the cache. -/
theorem lends_idle (inv : Lending svm fg live app) {context : Handle} {r : FgRegion}
    (mem : r ∈ fg.freeFgSvms context) :
    ∃ a, a.context = context ∧ a.fineGrain = true ∧
      Lends fg (fg.reuse context r) live live r.base a := by
  obtain ⟨unheld, -, a, isLive, rfl, fine⟩ := inv.idle context r mem
  have unused := inv.not_inUse_of_free unheld
  refine ⟨a, rfl, fine, isLive, fun _ _ => rfl, fun _ => ⟨r, rfl, ?_⟩, ?_, ?_, ?_⟩
  · have used := FgCache.find_use (unused a.context) a.context r.base
    simpa using used
  · intro c b elsewhere
    have used := FgCache.find_use (unused a.context) c b
    rw [if_neg fun same => elsewhere ⟨same.1, same.2, fine⟩] at used
    exact used
  · intro c q
    by_cases here : c = a.context
    · subst here
      exact FgCache.mem_reuse (inv.distinct a.context) mem
    · rw [FgCache.reuse_freeFgSvms_of_ne here]
      constructor
      · intro qMem
        refine ⟨qMem, fun same => ?_⟩
        obtain ⟨-, -, a', isLive', context', -⟩ := inv.idle c q qMem
        rw [same, isLive, Option.some.injEq] at isLive'
        exact here (by rw [← context', isLive'])
      · exact fun both => both.1
  · intro c
    by_cases here : c = a.context
    · subst here
      rw [FgCache.reuse_freeFgSvms_self]
      exact (inv.distinct a.context).sublist (List.erase_sublist.map _)
    · rw [FgCache.reuse_freeFgSvms_of_ne here]
      exact inv.distinct c

/-- A base that the runtime just granted is not idle. -/
theorem idle_iff_of_fresh (inv : Lending svm fg live app) {base : Nat}
    (fresh : live.find base = none) (c : Handle) (r : FgRegion) :
    r ∈ fg.freeFgSvms c ↔ r ∈ fg.freeFgSvms c ∧ r.base ≠ base := by
  constructor
  · intro mem
    refine ⟨mem, fun same => ?_⟩
    obtain ⟨-, -, a, isLive, -⟩ := inv.idle c r mem
    rw [same, fresh] at isLive
    simp at isLive
  · exact fun both => both.1

/-- A granted fine-grained base goes into use. -/
theorem lends_fine (inv : Lending svm fg live app) {r : FgRegion} {a : SvmAlloc}
    (fresh : live.find r.base = none) (fine : a.fineGrain = true) :
    Lends fg (fg.use a.context r) live (live.insert r.base a) r.base a := by
  have unused := inv.not_inUse_of_free (inv.free_of_fresh fresh)
  constructor
  case liveAt => exact Table.find_insert_fresh fresh
  case liveElse => exact fun b ne => Table.find_insert_of_ne ne
  case usedAt =>
    intro _
    exact ⟨r, rfl, by rw [FgCache.find_use (unused a.context), if_pos ⟨rfl, rfl⟩]⟩
  case usedElse =>
    intro c b elsewhere
    rw [FgCache.find_use (unused a.context), if_neg fun same => elsewhere ⟨same.1, same.2, fine⟩]
  case idle => exact inv.idle_iff_of_fresh fresh
  case distinct => exact inv.distinct

/-- A granted coarse-grained base concerns no cache. -/
theorem lends_coarse (inv : Lending svm fg live app) {base : Nat} {a : SvmAlloc}
    (fresh : live.find base = none) (coarse : a.fineGrain = false) :
    Lends fg fg live (live.insert base a) base a := by
  constructor
  case liveAt => exact Table.find_insert_fresh fresh
  case liveElse => exact fun b ne => Table.find_insert_of_ne ne
  case usedAt => simp [coarse]
  case usedElse => exact fun _ _ _ => rfl
  case idle => exact inv.idle_iff_of_fresh fresh
  case distinct => exact inv.distinct

/-- A fine-grained base that comes back is idle in the cache of its context. -/
theorem return_fine (inv : Lending svm fg live app) {p : Nat} {h : SvmHeld} {m : SvmObj}
    (held : app.find p = some h) (fine : h.fineGrain = true) (found : svm.find p = some m) :
    ∃ fg', fg.clSvmFgFree h.context m.mainBuff = (false, fg') ∧
      Lending (svm.remove p) fg' live (app.remove p) := by
  obtain ⟨m', a, found', rfl, notNull, isLive, context, grain, used⟩ := inv.held p h held
  rw [found, Option.some.injEq] at found'
  subst found'
  obtain ⟨r, used⟩ := Option.isSome_iff_exists.mp (used fine)
  obtain ⟨same, -⟩ := inv.inUse _ _ r used
  have shifted : ∀ {b}, b + POISON_FILL_LENGTH = m.mainBuff + POISON_FILL_LENGTH →
      b = m.mainBuff := fun same => Nat.add_right_cancel same
  rw [FgCache.clSvmFgFree, used]
  refine ⟨_, rfl, ?_⟩
  constructor
  case held =>
    intro q h' held'
    rw [Table.find_remove] at held'
    split_ifs at held' with here
    obtain ⟨m', a', found', pointer, notNull', isLive', context', grain', used'⟩ :=
      inv.held q h' held'
    have away : m'.mainBuff ≠ m.mainBuff := fun equal => here (by rw [pointer, equal])
    refine ⟨m', a', ?_, pointer, notNull', isLive', context', grain', fun fine' => ?_⟩
    · rw [OrderedMap.find_remove, if_neg here, found']
    · rw [FgCache.find_retire, if_neg fun same => away same.2]
      exact used' fine'
  case known =>
    intro q absent
    rw [OrderedMap.find_remove]
    split_ifs with here
    · rfl
    · rw [Table.find_remove_of_ne here] at absent
      exact inv.known q absent
  case inUse =>
    intro c b q used'
    rw [FgCache.find_retire] at used'
    split_ifs at used' with here
    obtain ⟨sameBase, held'⟩ := inv.inUse c b q used'
    refine ⟨sameBase, ?_⟩
    rw [Table.find_remove_of_ne ?_, held']
    intro pointer
    rw [pointer, held, Option.some.injEq] at held'
    exact here ⟨by rw [held'], shifted pointer⟩
  case idle =>
    intro c q mem
    rcases FgCache.mem_retire.mp mem with ⟨rfl, rfl⟩ | mem
    · rw [same]
      exact ⟨by simp, notNull, a, isLive, context, by rw [grain, fine]⟩
    · obtain ⟨unheld, notNull', others⟩ := inv.idle c q mem
      refine ⟨?_, notNull', others⟩
      rw [Table.find_remove, unheld, ite_self]
  case distinct =>
    refine FgCache.retire_distinct inv.distinct fun q mem equal => ?_
    obtain ⟨unheld, -⟩ := inv.idle h.context q mem
    rw [equal, same, held] at unheld
    simp at unheld
  case cached =>
    intro b a' isLive' fine'
    by_cases here : b = m.mainBuff
    · subst here
      rw [isLive, Option.some.injEq] at isLive'
      subst isLive'
      right
      exact ⟨r, FgCache.mem_retire.mpr (Or.inl ⟨context, rfl⟩), same⟩
    · rcases inv.cached b a' isLive' fine' with held' | ⟨q, mem, equal⟩
      · left
        rwa [Table.find_remove_of_ne fun pointer => here (shifted pointer)]
      · right
        exact ⟨q, FgCache.mem_retire.mpr (Or.inr mem), equal⟩

/-- A coarse-grained base goes back to the runtime. -/
theorem return_coarse (inv : Lending svm fg live app) {p : Nat} {h : SvmHeld} {m : SvmObj}
    (held : app.find p = some h) (coarse : h.fineGrain = false) (found : svm.find p = some m)
    (c : Handle) :
    fg.clSvmFgFree c m.mainBuff = (true, fg) ∧
      (∃ a, live.find m.mainBuff = some a ∧ a.fineGrain = false) ∧
      Lending (svm.remove p) fg (live.remove m.mainBuff) (app.remove p) := by
  obtain ⟨m', a, found', rfl, notNull, isLive, context, grain, -⟩ := inv.held p h held
  rw [found, Option.some.injEq] at found'
  subst found'
  have unused : ∀ c, (fg.allocatedFgSvms c).find m.mainBuff = none := by
    intro c
    cases used : (fg.allocatedFgSvms c).find m.mainBuff with
    | none => rfl
    | some r =>
        obtain ⟨-, held'⟩ := inv.inUse c _ r used
        rw [held, Option.some.injEq] at held'
        rw [held'] at coarse
        simp at coarse
  have shifted : ∀ {b}, b + POISON_FILL_LENGTH = m.mainBuff + POISON_FILL_LENGTH →
      b = m.mainBuff := fun same => Nat.add_right_cancel same
  refine ⟨by rw [FgCache.clSvmFgFree, unused c], ⟨a, isLive, by rw [grain, coarse]⟩, ?_⟩
  constructor
  case held =>
    intro q h' held'
    rw [Table.find_remove] at held'
    split_ifs at held' with here
    obtain ⟨m', a', found', pointer, notNull', isLive', others⟩ := inv.held q h' held'
    have away : m'.mainBuff ≠ m.mainBuff := fun equal => here (by rw [pointer, equal])
    refine ⟨m', a', ?_, pointer, notNull', ?_, others⟩
    · rw [OrderedMap.find_remove, if_neg here, found']
    · rw [Table.find_remove_of_ne away, isLive']
  case known =>
    intro q absent
    rw [OrderedMap.find_remove]
    split_ifs with here
    · rfl
    · rw [Table.find_remove_of_ne here] at absent
      exact inv.known q absent
  case inUse =>
    intro c' b r used
    obtain ⟨same, held'⟩ := inv.inUse c' b r used
    refine ⟨same, ?_⟩
    rw [Table.find_remove_of_ne ?_, held']
    intro pointer
    rw [shifted pointer, unused c'] at used
    simp at used
  case idle =>
    intro c' r mem
    obtain ⟨unheld, notNull', a', isLive', context', fine'⟩ := inv.idle c' r mem
    have away : r.base ≠ m.mainBuff := by
      intro equal
      rw [equal, held] at unheld
      simp at unheld
    refine ⟨?_, notNull', a', ?_, context', fine'⟩
    · rw [Table.find_remove, unheld, ite_self]
    · rw [Table.find_remove_of_ne away, isLive']
  case distinct => exact inv.distinct
  case cached =>
    intro b a' isLive' fine'
    rw [Table.find_remove] at isLive'
    split_ifs at isLive' with here
    rcases inv.cached b a' isLive' fine' with held' | idle
    · left
      rwa [Table.find_remove_of_ne fun pointer => here (shifted pointer)]
    · exact Or.inr idle

end Lending

/-! ## Runs -/

/-- The application's calls on shared virtual memory. -/
inductive SvmCall where
  | alloc (context : Handle) (flags : SvmFlags) (size alignment : Nat)
  | free (context : Handle) (svmPointer : Nat)
  | enqueueFree (context : Handle) (svmPointers : List Nat)

/-- The wrapper with its runtime, and the pointers that the application holds. -/
structure SvmSystem where
  s : SvmState
  app : Table Nat SvmHeld

namespace SvmSystem

/-- The start of a process. -/
def initial (host : Nat → UInt8) (statsOn : Bool) : SvmSystem :=
  ⟨SvmState.initial host statsOn, Table.empty⟩

/-- Take the result of an allocation. -/
def receive (app : Table Nat SvmHeld) (context : Handle) (flags : SvmFlags) (ret : Nat) :
    Table Nat SvmHeld :=
  if ret = NULL then app else app.insert ret ⟨context, flags.fineGrainBuffer⟩

/-- One call of an application that frees `NULL` and pointers that it holds, each
of them once. -/
def step (env : SvmEnv) (sys : SvmSystem) : SvmCall → Option SvmSystem
  | .alloc context flags size alignment =>
      match clSVMAlloc env sys.s context flags size alignment with
      | (ret, s) => some ⟨s, receive sys.app context flags ret⟩
  | .free context svmPointer =>
      if svmPointer = NULL ∨ (sys.app.find svmPointer).isSome then
        some ⟨clSVMFree sys.s context svmPointer, sys.app.remove svmPointer⟩
      else none
  | .enqueueFree context svmPointers =>
      if svmPointers.Nodup ∧ ∀ p ∈ svmPointers, (sys.app.find p).isSome then
        some ⟨clEnqueueSVMFree sys.s context svmPointers, svmPointers.foldl Table.remove sys.app⟩
      else none

/-- Only live bases that are not fine-grained were given back to the runtime, and
every live fine-grained base that is not lent is available in the cache. -/
structure BasesKept (sys : SvmSystem) : Prop where
  real : ∀ e ∈ sys.s.rt.freed, ∃ a, e.2 = some a ∧ a.fineGrain = false
  cached : ∀ base a, sys.s.rt.live.find base = some a → a.fineGrain = true →
    (sys.app.find (base + POISON_FILL_LENGTH)).isSome ∨
      ∃ r ∈ sys.s.fg.freeFgSvms a.context, r.base = base

/-- The calls that translate the application's pointers: no pointer is freed on a
queue, and `clSVMFree` gets the context of the allocation. -/
def Translates (sys : SvmSystem) : SvmCall → Prop
  | .alloc .. => True
  | .free context svmPointer => ∀ h, sys.app.find svmPointer = some h → h.context = context
  | .enqueueFree _ svmPointers => svmPointers = []

/-- The invariant of runs. -/
structure Inv (sys : SvmSystem) : Prop where
  lending : Lending sys.s.w.svm sys.s.fg sys.s.rt.live sys.app
  real : ∀ e ∈ sys.s.rt.freed, ∃ a, e.2 = some a ∧ a.fineGrain = false

theorem Inv.basesKept {sys : SvmSystem} (inv : sys.Inv) : sys.BasesKept :=
  ⟨inv.real, inv.lending.cached⟩

end SvmSystem

/-- An allocation leaves the wrapper and the freed pointers as they are, and
either fails or lends a base. -/
theorem internalSVMAlloc_cases {env : SvmEnv} {s s' : SvmState} {context : Handle}
    {flags : SvmFlags} {size alignment ret : Nat} {app : Table Nat SvmHeld}
    (inv : Lending s.w.svm s.fg s.rt.live app)
    (allocated : internalSVMAlloc env s context flags size alignment = (ret, s')) :
    s'.w = s.w ∧ s'.rt.freed = s.rt.freed ∧
      ((ret = NULL ∧ s'.fg = s.fg ∧ s'.rt.live = s.rt.live) ∨
        (ret ≠ NULL ∧ app.find (ret + POISON_FILL_LENGTH) = none ∧
          ∃ a, a.context = context ∧ a.fineGrain = flags.fineGrainBuffer ∧
            Lending.Lends s.fg s'.fg s.rt.live s'.rt.live ret a)) := by
  rw [internalSVMAlloc] at allocated
  split at allocated
  · simp only [Prod.mk.injEq] at allocated
    obtain ⟨rfl, rfl⟩ := allocated
    exact ⟨rfl, rfl, Or.inl ⟨rfl, rfl, rfl⟩⟩
  · split at allocated
    · rename_i fine
      dsimp only at allocated
      cases search : s.fg.findFreeSvm context size alignment with
      | some found =>
          obtain ⟨base, fg⟩ := found
          rw [search] at allocated
          simp only [Prod.mk.injEq] at allocated
          obtain ⟨rfl, rfl⟩ := allocated
          obtain ⟨r, mem, rfl, rfl⟩ := FgCache.findFreeSvm_cases search
          obtain ⟨a, sameContext, isFine, lends⟩ := inv.lends_idle mem
          obtain ⟨unheld, notNull, -⟩ := inv.idle context r mem
          exact ⟨rfl, rfl, Or.inr ⟨notNull, unheld, a, sameContext, by rw [isFine, fine], lends⟩⟩
      | none =>
          rw [search] at allocated
          dsimp only at allocated
          rcases real : s.rt.svmAlloc env context
            { readWrite := true, fineGrainBuffer := true } size with ⟨base, rt⟩
          rw [real] at allocated
          dsimp only at allocated
          obtain ⟨freed, answer⟩ := SvmRuntime.svmAlloc_cases real
          rcases answer with ⟨rfl, live⟩ | ⟨notNull, fresh, live⟩
          · rw [if_neg (by simp)] at allocated
            simp only [Prod.mk.injEq] at allocated
            obtain ⟨rfl, rfl⟩ := allocated
            exact ⟨rfl, freed, Or.inl ⟨rfl, rfl, live⟩⟩
          · rw [if_pos notNull] at allocated
            simp only [Prod.mk.injEq] at allocated
            obtain ⟨rfl, rfl⟩ := allocated
            refine ⟨rfl, freed, Or.inr ⟨notNull, inv.free_of_fresh fresh,
              ⟨context, size, true⟩, rfl, fine.symm, ?_⟩⟩
            rw [live]
            exact inv.lends_fine (r := ⟨base, _, size, alignment⟩) (a := ⟨context, size, true⟩)
              fresh rfl
    · rename_i coarse
      rcases real : s.rt.svmAlloc env context flags size with ⟨base, rt⟩
      rw [real] at allocated
      simp only [Prod.mk.injEq] at allocated
      obtain ⟨rfl, rfl⟩ := allocated
      obtain ⟨freed, answer⟩ := SvmRuntime.svmAlloc_cases real
      rcases answer with ⟨rfl, live⟩ | ⟨notNull, fresh, live⟩
      · exact ⟨rfl, freed, Or.inl ⟨rfl, rfl, live⟩⟩
      · refine ⟨rfl, freed, Or.inr ⟨notNull, inv.free_of_fresh fresh,
          ⟨context, size, flags.fineGrainBuffer⟩, rfl, rfl, ?_⟩⟩
        rw [live]
        exact inv.lends_coarse fresh (by simpa using coarse)

namespace SvmSystem

theorem inv_initial (host : Nat → UInt8) (statsOn : Bool) : (initial host statsOn).Inv where
  lending := Lending.empty
  real := by simp [initial, SvmState.initial, SvmRuntime.initial]

/-- An allocation keeps the invariant. -/
theorem inv_alloc {env : SvmEnv} {sys : SvmSystem} {s' : SvmState} {context : Handle}
    {flags : SvmFlags} {size alignment ret : Nat} (inv : sys.Inv)
    (allocated : clSVMAlloc env sys.s context flags size alignment = (ret, s')) :
    Inv ⟨s', receive sys.app context flags ret⟩ := by
  rw [clSVMAlloc] at allocated
  dsimp only at allocated
  generalize counted : ((sys.s.w.count fun c => c.allocateSvm sys.s.w.internalCreate size).count
    MemStats.raise) = w at allocated
  have sameTable : w.svm = sys.s.w.svm := by
    rw [← counted]
    rfl
  have lending : Lending w.svm sys.s.fg sys.s.rt.live sys.app := by
    rw [sameTable]
    exact inv.lending
  rcases inner : internalSVMAlloc env { sys.s with w := w } context flags
    (Word.u64 (size + POISON_REGIONS * POISON_FILL_LENGTH)) alignment with ⟨base, t⟩
  rw [inner] at allocated
  dsimp only at allocated
  obtain ⟨sameW, freed, answer⟩ := internalSVMAlloc_cases (s := { sys.s with w := w }) lending inner
  have real : ∀ e ∈ t.rt.freed, ∃ a, e.2 = some a ∧ a.fineGrain = false := by
    rw [freed]
    exact inv.real
  rcases answer with ⟨rfl, sameFg, sameLive⟩ | ⟨notNull, unheld, a, rfl, grain, lends⟩
  · rw [if_pos rfl] at allocated
    simp only [Prod.mk.injEq] at allocated
    obtain ⟨rfl, rfl⟩ := allocated
    refine ⟨?_, real⟩
    rw [receive, if_pos rfl, sameW, sameFg, sameLive]
    exact lending
  · rw [if_neg notNull] at allocated
    simp only [Prod.mk.injEq] at allocated
    obtain ⟨rfl, rfl⟩ := allocated
    have handedOut : base + POISON_FILL_LENGTH ≠ NULL := by simp [POISON_FILL_LENGTH, NULL]
    refine ⟨?_, real⟩
    rw [receive, if_neg handedOut, sameW, ← grain]
    exact lending.lend notNull unheld rfl lends

/-- A free with the context of the allocation keeps the invariant. -/
theorem inv_free {sys : SvmSystem} {context p : Nat} (inv : sys.Inv)
    (mayFree : p = NULL ∨ (sys.app.find p).isSome)
    (sameContext : ∀ h, sys.app.find p = some h → h.context = context) :
    Inv ⟨clSVMFree sys.s context p, sys.app.remove p⟩ := by
  have nullUnheld := inv.lending.null_free
  rw [clSVMFree]
  by_cases null : p = NULL
  · subst null
    have unchanged : sys.app.remove NULL = sys.app := by
      refine Table.ext fun q => ?_
      rw [Table.find_remove]
      split_ifs with here
      · rw [here, nullUnheld]
      · rfl
    rw [if_pos rfl, unchanged]
    exact inv
  · obtain ⟨h, held⟩ := Option.isSome_iff_exists.mp (mayFree.resolve_left null)
    obtain ⟨m, a, found, -, notNull, -⟩ := inv.lending.held p h held
    obtain rfl := sameContext h held
    rw [if_neg null, found]
    dsimp only
    rw [if_neg notNull]
    cases grain : h.fineGrain with
    | true =>
        obtain ⟨fg', retired, lending⟩ := inv.lending.return_fine held grain found
        rw [retired]
        exact ⟨lending, inv.real⟩
    | false =>
        obtain ⟨retired, ⟨a', isLive, coarse⟩, lending⟩ :=
          inv.lending.return_coarse held grain found h.context
        rw [retired]
        refine ⟨lending, fun e mem => ?_⟩
        rcases List.mem_cons.mp mem with rfl | mem
        · exact ⟨a', isLive, coarse⟩
        · exact inv.real e mem

/-- Every call that translates its pointers keeps the invariant. -/
theorem inv_step {env : SvmEnv} {sys sys' : SvmSystem} {call : SvmCall} (inv : sys.Inv)
    (translates : sys.Translates call) (stepped : sys.step env call = some sys') : sys'.Inv := by
  cases call with
  | alloc context flags size alignment =>
      rcases ran : clSVMAlloc env sys.s context flags size alignment with ⟨ret, s'⟩
      rw [step, ran] at stepped
      rw [← Option.some.inj stepped]
      exact inv_alloc inv ran
  | free context p =>
      rw [step] at stepped
      split_ifs at stepped with mayFree
      rw [← Option.some.inj stepped]
      exact inv_free inv mayFree translates
  | enqueueFree context ptrs =>
      obtain rfl : ptrs = [] := translates
      rw [step, if_pos (by simp)] at stepped
      rw [← Option.some.inj stepped]
      exact inv

/-- In every run of translating calls the bases are kept throughout. -/
theorem basesKept_of_run {env : SvmEnv} {host : Nat → UInt8} {statsOn : Bool} {sys : SvmSystem}
    (run : Run.Reach (step env) Translates (initial host statsOn) sys) : sys.BasesKept := by
  have inv : sys.Inv := run.invariant (inv_initial host statsOn) fun _ _ _ inv ok stepped =>
    inv_step inv ok stepped
  exact inv.basesKept

/-- The environment whose allocations start at multiples of `2 ^ 20`. -/
def megabytes : SvmEnv := ⟨fun n => (n + 1) * 1048576⟩

/-- A fine-grained allocation that is freed and reused. -/
theorem basesKept_of_run_reuse :
    ∃ sys, sys.app.find 1052672 = some ⟨7, true⟩ ∧ sys.s.rt.allocs = 1 ∧
      Run.Reach (step megabytes) Translates (initial (fun _ => 0) false) sys ∧ sys.BasesKept := by
  have first : Run.Reach (step megabytes) Translates (initial (fun _ => 0) false) _ :=
    .tail (a := .alloc 7 { fineGrainBuffer := true } 100 0) .refl trivial rfl
  have second : Run.Reach (step megabytes) Translates (initial (fun _ => 0) false) _ :=
    .tail (a := .free 7 1052672) first
      (fun h held => by
        obtain rfl : (⟨7, true⟩ : SvmHeld) = h := Option.some.inj held
        rfl) rfl
  have third : Run.Reach (step megabytes) Translates (initial (fun _ => 0) false) _ :=
    .tail (a := .alloc 7 { fineGrainBuffer := true } 50 0) second trivial rfl
  exact ⟨_, rfl, rfl, third, basesKept_of_run third⟩

/-- `clEnqueueSVMFree` gives the application's pointer to the runtime, and the
fine-grained base behind it is not cached. -/
theorem not_basesKept_enqueueFree :
    ∃ sys, Run.Reach (step megabytes) (fun _ _ => True) (initial (fun _ => 0) false) sys ∧
      sys.s.rt.freed = [(1052672, none)] ∧
      sys.s.rt.live.find 1048576 = some ⟨7, 8292, true⟩ ∧ sys.app.find 1052672 = none ∧
      sys.s.fg.freeFgSvms 7 = [] ∧ ¬ sys.BasesKept := by
  have first : Run.Reach (step megabytes) (fun _ _ => True) (initial (fun _ => 0) false) _ :=
    .tail (a := .alloc 7 { fineGrainBuffer := true } 100 0) .refl trivial rfl
  have second : Run.Reach (step megabytes) (fun _ _ => True) (initial (fun _ => 0) false) _ :=
    .tail (a := .enqueueFree 7 [1052672]) first trivial rfl
  refine ⟨_, second, rfl, rfl, rfl, rfl, fun kept => ?_⟩
  obtain ⟨a, isLive, -⟩ := kept.real (1052672, none) List.mem_cons_self
  simp at isLive

end SvmSystem

end Clarmor
