import Clarmor.Wrapper.SvmBases

/-!
# Regions in the caches of fine-grained memory

A region enters the caches when it is allocated and never leaves them: it is in use
or free, in the context that it was allocated in.  In any order of allocations,
searches and frees it is in one of the two containers of its context, so that a
search cannot hand it out twice.
-/

namespace Clarmor

/-- A call of one of the three functions of the caches. -/
inductive FgCall where
  | alloc (context base : Nat) (flags : SvmFlags) (size alignment : Nat)
  | free (context base : Nat)
  | find (context size alignment : Nat)

/-- The caches, and every region that was entered with its context. -/
structure FgSystem where
  cache : FgCache
  entered : List (Handle × FgRegion)

namespace FgCache

/-- A region is in use or free in a context. -/
def Holds (fg : FgCache) (context : Handle) (r : FgRegion) : Prop :=
  (fg.allocatedFgSvms context).find r.base = some r ∨ r ∈ fg.freeFgSvms context

/-- A base is in one of the caches. -/
def Known (fg : FgCache) (base : Nat) : Prop :=
  ∃ context r, fg.Holds context r ∧ r.base = base

/-- A context does not have a base. -/
def Lacks (fg : FgCache) (context : Handle) (base : Nat) : Prop :=
  (fg.allocatedFgSvms context).find base = none ∧ ∀ q ∈ fg.freeFgSvms context, q.base ≠ base

/-- A region is in exactly one of the two containers of a context, once. -/
def InOneContainer (fg : FgCache) (context : Handle) (r : FgRegion) : Prop :=
  ((fg.allocatedFgSvms context).find r.base = some r ∧
      ∀ q ∈ fg.freeFgSvms context, q.base ≠ r.base) ∨
    ((fg.allocatedFgSvms context).find r.base = none ∧
      (fg.freeFgSvms context).filter (fun q => q.base = r.base) = [r])

/-- A free region of a context that a request fits in. -/
structure Fits (fg : FgCache) (context size alignment : Nat) (r : FgRegion) : Prop where
  free : r ∈ fg.freeFgSvms context
  alignment : r.alignment = alignment
  size : size ≤ r.size

/-- All other bases are where they were. -/
def SameElsewhere (fg fg' : FgCache) (context base : Nat) : Prop :=
  ∀ c b, ¬ (c = context ∧ b = base) →
    (fg'.allocatedFgSvms c).find b = (fg.allocatedFgSvms c).find b ∧
      ∀ q, q.base = b → (q ∈ fg'.freeFgSvms c ↔ q ∈ fg.freeFgSvms c)

/-- A search takes the smallest region that the request fits in into use. -/
def FindsSmallest (fg : FgCache) (context size alignment : Nat) : Prop :=
  match fg.findFreeSvm context size alignment with
  | none => ∀ r, ¬ fg.Fits context size alignment r
  | some (base, fg') => ∃ r, fg.Fits context size alignment r ∧ r.base = base ∧
      (∀ q, fg.Fits context size alignment q → r.size ≤ q.size) ∧
      (fg'.allocatedFgSvms context).find base = some r ∧
      (∀ q ∈ fg'.freeFgSvms context, q.base ≠ base) ∧ SameElsewhere fg fg' context base

/-- A free succeeds for the bases in use, and moves the region as it is. -/
def FreesUsed (fg : FgCache) (context base : Nat) : Prop :=
  match (fg.allocatedFgSvms context).find base with
  | none => fg.clSvmFgFree context base = (true, fg)
  | some r => ∃ fg', fg.clSvmFgFree context base = (false, fg') ∧
      (fg'.allocatedFgSvms context).find base = none ∧ r ∈ fg'.freeFgSvms context ∧
      SameElsewhere fg fg' context base

end FgCache

namespace FgSystem

/-- The start of a process. -/
def initial : FgSystem := ⟨FgCache.initial, []⟩

/-- One call. -/
def step (sys : FgSystem) : FgCall → Option FgSystem
  | .alloc context base flags size alignment =>
      some ⟨sys.cache.clSvmFgAlloc context base flags size alignment,
        (context, ⟨base, flags, size, alignment⟩) :: sys.entered⟩
  | .free context base => some { sys with cache := (sys.cache.clSvmFgFree context base).2 }
  | .find context size alignment =>
      some { sys with
        cache := ((sys.cache.findFreeSvm context size alignment).map Prod.snd).getD sys.cache }

/-- An allocation has a base that is not known. -/
def NewBase (sys : FgSystem) : FgCall → Prop
  | .alloc _ base _ _ _ => ¬ sys.cache.Known base
  | _ => True

/-- Every region is lent once, and every call does what it is for. -/
structure LentOnce (sys : FgSystem) : Prop where
  known : ∀ base, sys.cache.Known base ↔ ∃ e ∈ sys.entered, e.2.base = base
  once : ∀ e ∈ sys.entered, sys.cache.InOneContainer e.1 e.2 ∧
    ∀ context, context ≠ e.1 → sys.cache.Lacks context e.2.base
  finds : ∀ context size alignment, sys.cache.FindsSmallest context size alignment
  frees : ∀ context base, sys.cache.FreesUsed context base

/-- The invariant of the caches. -/
structure Inv (sys : FgSystem) : Prop where
  key : ∀ c b r, (sys.cache.allocatedFgSvms c).find b = some r → r.base = b
  holds : ∀ c r, sys.cache.Holds c r ↔ (c, r) ∈ sys.entered
  apart : ∀ c b r, (sys.cache.allocatedFgSvms c).find b = some r →
    ∀ q ∈ sys.cache.freeFgSvms c, q.base ≠ b
  distinct : ∀ c, ((sys.cache.freeFgSvms c).map FgRegion.base).Nodup
  bases : (sys.entered.map fun e => e.2.base).Nodup
  sorted : ∀ c, (sys.cache.freeFgSvms c).Pairwise fun q r => q.size ≤ r.size

variable {sys sys' : FgSystem} {context base size alignment : Nat}

theorem inv_initial : Inv initial := by
  constructor <;> simp [initial, FgCache.initial, FgCache.Holds]

theorem Inv.known_iff (inv : Inv sys) :
    sys.cache.Known base ↔ ∃ e ∈ sys.entered, e.2.base = base := by
  constructor
  · rintro ⟨c, r, held, same⟩
    exact ⟨(c, r), (inv.holds c r).mp held, same⟩
  · rintro ⟨⟨c, r⟩, mem, same⟩
    exact ⟨c, r, (inv.holds c r).mpr mem, same⟩

/-- Two regions with one base are one, in one context. -/
theorem Inv.unique (inv : Inv sys) {c c' : Handle} {r r' : FgRegion}
    (held : sys.cache.Holds c r) (held' : sys.cache.Holds c' r') (same : r.base = r'.base) :
    c = c' ∧ r = r' :=
  Prod.mk.inj (List.inj_on_of_nodup_map inv.bases ((inv.holds c r).mp held)
    ((inv.holds c' r').mp held') same)

/-! ## Free regions by size -/

theorem insertBySize_sorted {r : FgRegion} {free : List FgRegion}
    (sorted : free.Pairwise fun q r => q.size ≤ r.size) :
    (FgCache.insertBySize r free).Pairwise fun q r => q.size ≤ r.size := by
  have split : free.takeWhile (fun q => q.size ≤ r.size) ++
      free.dropWhile (fun q => q.size ≤ r.size) = free := List.takeWhile_append_dropWhile
  have before : ∀ q ∈ free.takeWhile (fun q => q.size ≤ r.size), q.size ≤ r.size := by
    intro q mem
    simpa using List.mem_takeWhile_imp mem
  rw [← split, List.pairwise_append] at sorted
  obtain ⟨left, right, across⟩ := sorted
  have after : ∀ q ∈ free.dropWhile (fun q => q.size ≤ r.size), r.size ≤ q.size := by
    cases rest : free.dropWhile (fun q => q.size ≤ r.size) with
    | nil => simp
    | cons head tail =>
        have larger : ¬ head.size ≤ r.size := by
          have first := List.head?_dropWhile_not (fun q : FgRegion => q.size ≤ r.size) free
          simpa [rest] using first
        rw [rest] at right
        intro q mem
        rcases List.mem_cons.mp mem with rfl | mem
        · omega
        · have le := (List.pairwise_cons.mp right).1 q mem
          omega
  rw [FgCache.insertBySize, List.pairwise_append, List.pairwise_cons]
  refine ⟨left, ⟨after, right⟩, fun q mem q' mem' => ?_⟩
  rcases List.mem_cons.mp mem' with rfl | mem'
  · exact before q mem
  · exact across q mem q' mem'

/-- The walk from the lower bound starts at the regions that are large enough. -/
theorem mem_dropWhile_iff {free : List FgRegion} {q : FgRegion}
    (sorted : free.Pairwise fun q r => q.size ≤ r.size) :
    q ∈ free.dropWhile (fun q => q.size < size) ↔ q ∈ free ∧ size ≤ q.size := by
  induction free with
  | nil => simp
  | cons head tail ih =>
      obtain ⟨least, sorted⟩ := List.pairwise_cons.mp sorted
      by_cases small : head.size < size
      · rw [List.dropWhile_cons, if_pos (decide_eq_true small), ih sorted, List.mem_cons]
        constructor
        · rintro ⟨mem, le⟩
          exact ⟨Or.inr mem, le⟩
        · rintro ⟨rfl | mem, le⟩
          · omega
          · exact ⟨mem, le⟩
      · rw [List.dropWhile_cons, if_neg (by simpa using small), iff_self_and, List.mem_cons]
        rintro (rfl | mem)
        · omega
        · have le := least q mem
          omega

/-- The search finds the first of the regions that the request fits in. -/
theorem search_spec {fg : FgCache} {r : FgRegion}
    (sorted : (fg.freeFgSvms context).Pairwise fun q r => q.size ≤ r.size)
    (found : ((fg.freeFgSvms context).dropWhile fun q => q.size < size).find?
      (fun q => q.alignment = alignment) = some r) :
    fg.Fits context size alignment r ∧
      ∀ q, fg.Fits context size alignment q → r.size ≤ q.size := by
  have mem := (mem_dropWhile_iff sorted).mp (List.mem_of_find?_eq_some found)
  have aligned : r.alignment = alignment := by simpa using List.find?_some found
  refine ⟨⟨mem.1, aligned, mem.2⟩, fun q fits => ?_⟩
  obtain ⟨-, before, after, split, missed⟩ := List.find?_eq_some_iff_append.mp found
  have inside := (mem_dropWhile_iff sorted).mpr ⟨fits.free, fits.size⟩
  have rest := sorted.sublist (List.dropWhile_sublist fun q => q.size < size)
  rw [split] at inside rest
  rcases List.mem_append.mp inside with earlier | later
  · have other := missed q earlier
    rw [fits.alignment] at other
    simp at other
  · rcases List.mem_cons.mp later with rfl | later
    · exact le_refl _
    · exact (List.pairwise_cons.mp (List.pairwise_append.mp rest).2.1).1 q later

theorem search_none {fg : FgCache}
    (sorted : (fg.freeFgSvms context).Pairwise fun q r => q.size ≤ r.size)
    (none : ((fg.freeFgSvms context).dropWhile fun q => q.size < size).find?
      (fun q => q.alignment = alignment) = none) (r : FgRegion) :
    ¬ fg.Fits context size alignment r := by
  intro fits
  have inside := (mem_dropWhile_iff sorted).mpr ⟨fits.free, fits.size⟩
  have missed := List.find?_eq_none.mp none r inside
  rw [fits.alignment] at missed
  simp at missed

/-! ## The calls -/

/-- A free region is not in use in its context, and no other context has its base. -/
theorem Inv.free_elsewhere (inv : Inv sys) {r : FgRegion}
    (mem : r ∈ sys.cache.freeFgSvms context) :
    (sys.cache.allocatedFgSvms context).find r.base = none := by
  cases used : (sys.cache.allocatedFgSvms context).find r.base with
  | none => rfl
  | some q => exact absurd rfl (inv.apart context r.base q used r mem)

/-- A region that is taken into use again. -/
theorem Inv.reuse_spec (inv : Inv sys) {r : FgRegion} (mem : r ∈ sys.cache.freeFgSvms context) :
    ((sys.cache.reuse context r).allocatedFgSvms context).find r.base = some r ∧
      (∀ q ∈ (sys.cache.reuse context r).freeFgSvms context, q.base ≠ r.base) ∧
      sys.cache.SameElsewhere (sys.cache.reuse context r) context r.base := by
  have used := FgCache.find_use (inv.free_elsewhere mem)
  have left := fun q => @FgCache.mem_reuse sys.cache context r q (inv.distinct context) mem
  refine ⟨?_, fun q qMem => ((left q).mp qMem).2, fun c b away => ⟨?_, fun q same => ?_⟩⟩
  · rw [FgCache.reuse_allocatedFgSvms, used, if_pos ⟨rfl, rfl⟩]
  · rw [FgCache.reuse_allocatedFgSvms, used, if_neg away]
  · by_cases here : c = context
    · subst here
      rw [left, and_iff_left]
      rintro sameBase
      exact away ⟨rfl, same.symm.trans sameBase⟩
    · rw [FgCache.reuse_freeFgSvms_of_ne here]

/-- What a search gives. -/
theorem Inv.findsSmallest (inv : Inv sys) (context size alignment : Nat) :
    sys.cache.FindsSmallest context size alignment := by
  rw [FgCache.FindsSmallest, FgCache.findFreeSvm]
  cases found : ((sys.cache.freeFgSvms context).dropWhile fun q => q.size < size).find?
      (fun q => q.alignment = alignment) with
  | none => exact search_none (inv.sorted context) found
  | some r =>
      obtain ⟨fits, least⟩ := search_spec (inv.sorted context) found
      exact ⟨r, fits, rfl, least, inv.reuse_spec fits.free⟩

/-- A region that is freed. -/
theorem Inv.retire_spec (inv : Inv sys) {r : FgRegion}
    (used : (sys.cache.allocatedFgSvms context).find base = some r) :
    ((sys.cache.retire context base r).allocatedFgSvms context).find base = none ∧
      r ∈ (sys.cache.retire context base r).freeFgSvms context ∧
      sys.cache.SameElsewhere (sys.cache.retire context base r) context base := by
  refine ⟨?_, FgCache.mem_retire.mpr (Or.inl ⟨rfl, rfl⟩), fun c b away => ⟨?_, fun q same => ?_⟩⟩
  · rw [FgCache.find_retire, if_pos ⟨rfl, rfl⟩]
  · rw [FgCache.find_retire, if_neg away]
  · rw [FgCache.mem_retire, or_iff_right]
    rintro ⟨rfl, rfl⟩
    exact away ⟨rfl, same.symm.trans (inv.key c base q used)⟩

/-- What a free does. -/
theorem Inv.freesUsed (inv : Inv sys) (context base : Nat) :
    sys.cache.FreesUsed context base := by
  rw [FgCache.FreesUsed, FgCache.clSvmFgFree]
  cases used : (sys.cache.allocatedFgSvms context).find base with
  | none => rfl
  | some r => exact ⟨_, rfl, inv.retire_spec used⟩

/-- A region that moves from one container of its context to the other. -/
theorem Inv.moved (inv : Inv sys) {fg : FgCache} {r : FgRegion}
    (held : sys.cache.Holds context r) (elsewhere : sys.cache.SameElsewhere fg context r.base)
    (now : (fg.allocatedFgSvms context).find r.base = some r ∧
        (∀ q ∈ fg.freeFgSvms context, q.base ≠ r.base) ∨
      (fg.allocatedFgSvms context).find r.base = none ∧
        ∀ q, q.base = r.base → (q ∈ fg.freeFgSvms context ↔ q = r))
    (distinct : ∀ c, ((fg.freeFgSvms c).map FgRegion.base).Nodup)
    (sorted : ∀ c, (fg.freeFgSvms c).Pairwise fun q r => q.size ≤ r.size) :
    Inv ⟨fg, sys.entered⟩ := by
  have away : ∀ {c : Handle} {q : FgRegion}, ¬ (c = context ∧ q.base = r.base) →
      (fg.Holds c q ↔ sys.cache.Holds c q) := by
    intro c q away
    obtain ⟨used, free⟩ := elsewhere c q.base away
    rw [FgCache.Holds, FgCache.Holds, used, free q rfl]
  have here : ∀ q : FgRegion, q.base = r.base → (fg.Holds context q ↔ q = r) := by
    intro q same
    rw [FgCache.Holds, same]
    rcases now with ⟨used, unfree⟩ | ⟨unused, free⟩
    · rw [used, Option.some.injEq, or_iff_left fun mem => unfree q mem same]
      exact eq_comm
    · rw [unused, free q same]
      simp
  constructor
  case key =>
    intro c b q used
    by_cases isHere : c = context ∧ b = r.base
    · obtain ⟨rfl, rfl⟩ := isHere
      rcases now with ⟨used', -⟩ | ⟨unused, -⟩
      · rw [Option.some.inj (used.symm.trans used')]
      · rw [used] at unused
        contradiction
    · have used' := (elsewhere c b isHere).1.symm.trans used
      exact inv.key c b q used'
  case holds =>
    intro c q
    by_cases isHere : c = context ∧ q.base = r.base
    · obtain ⟨rfl, same⟩ := isHere
      rw [here q same, ← inv.holds]
      constructor
      · rintro rfl
        exact held
      · exact fun held' => (inv.unique held' held same).2
    · rw [away isHere, inv.holds]
  case apart =>
    intro c b q used q' mem same
    by_cases isHere : c = context ∧ b = r.base
    · obtain ⟨rfl, rfl⟩ := isHere
      rcases now with ⟨-, unfree⟩ | ⟨unused, -⟩
      · exact unfree q' mem same
      · rw [used] at unused
        contradiction
    · obtain ⟨used', free'⟩ := elsewhere c b isHere
      exact inv.apart c b q (used'.symm.trans used) q' ((free' q' same).mp mem) same
  case distinct => exact distinct
  case bases => exact inv.bases
  case sorted => exact sorted

/-- An unknown base is neither in use nor free anywhere. -/
theorem lacks_of_not_known (inv : Inv sys) (new : ¬ sys.cache.Known base) (c : Handle) :
    sys.cache.Lacks c base := by
  constructor
  · cases used : (sys.cache.allocatedFgSvms c).find base with
    | none => rfl
    | some q =>
        have same := inv.key c base q used
        exact absurd ⟨c, q, Or.inl (by rw [same, used]), same⟩ new
  · exact fun q mem same => new ⟨c, q, Or.inr mem, same⟩

theorem inv_alloc (inv : Inv sys) {r : FgRegion} (new : ¬ sys.cache.Known r.base) :
    Inv ⟨sys.cache.use context r, (context, r) :: sys.entered⟩ := by
  have absent := lacks_of_not_known inv new
  have used := fun c b => FgCache.find_use (absent context).1 c b
  have held : ∀ c q, (sys.cache.use context r).Holds c q ↔
      (c = context ∧ q = r) ∨ sys.cache.Holds c q := by
    intro c q
    rw [FgCache.Holds, used, FgCache.Holds, FgCache.use_freeFgSvms]
    by_cases here : c = context ∧ q.base = r.base
    · obtain ⟨rfl, same⟩ := here
      rw [if_pos ⟨rfl, same⟩, Option.some.injEq, same, (absent c).1]
      have unfree : q ∉ sys.cache.freeFgSvms c := fun mem => (absent c).2 q mem same
      simp [unfree, eq_comm]
    · rw [if_neg here, or_iff_right (a := c = context ∧ q = r)]
      rintro ⟨rfl, rfl⟩
      exact here ⟨rfl, rfl⟩
  constructor
  case key =>
    intro c b q found
    rw [used] at found
    by_cases here : c = context ∧ b = r.base
    · rw [if_pos here, Option.some.injEq] at found
      rw [← found, here.2]
    · rw [if_neg here] at found
      exact inv.key c b q found
  case holds =>
    intro c q
    rw [held, inv.holds, List.mem_cons, Prod.mk.injEq]
  case apart =>
    intro c b q found q' mem same
    rw [used] at found
    by_cases here : c = context ∧ b = r.base
    · exact (absent c).2 q' mem (same.trans here.2)
    · rw [if_neg here] at found
      exact inv.apart c b q found q' mem same
  case distinct => exact inv.distinct
  case bases =>
    refine List.nodup_cons.mpr ⟨fun mem => new ?_, inv.bases⟩
    obtain ⟨⟨c, q⟩, entered, same⟩ := List.mem_map.mp mem
    exact ⟨c, q, (inv.holds c q).mpr entered, same⟩
  case sorted => exact inv.sorted

theorem inv_free (inv : Inv sys) {r : FgRegion}
    (used : (sys.cache.allocatedFgSvms context).find base = some r) :
    Inv ⟨sys.cache.retire context base r, sys.entered⟩ := by
  obtain rfl := inv.key context base r used
  obtain ⟨unused, -, elsewhere⟩ := inv.retire_spec used
  have unfree := inv.apart context r.base r used
  refine inv.moved (Or.inl used) elsewhere (Or.inr ⟨unused, fun q same => ?_⟩) ?_ ?_
  · rw [FgCache.mem_retire]
    constructor
    · rintro (⟨-, rfl⟩ | mem)
      · rfl
      · exact absurd same (unfree q mem)
    · rintro rfl
      exact Or.inl ⟨rfl, rfl⟩
  · exact FgCache.retire_distinct inv.distinct unfree
  · intro c
    by_cases here : c = context
    · subst here
      simpa [FgCache.retire] using insertBySize_sorted (inv.sorted c)
    · simpa [FgCache.retire, here] using inv.sorted c

theorem inv_find (inv : Inv sys) {r : FgRegion} (mem : r ∈ sys.cache.freeFgSvms context) :
    Inv ⟨sys.cache.reuse context r, sys.entered⟩ := by
  obtain ⟨used, unfree, elsewhere⟩ := inv.reuse_spec mem
  have kept : ∀ c, List.Sublist ((sys.cache.reuse context r).freeFgSvms c)
      (sys.cache.freeFgSvms c) := by
    intro c
    by_cases here : c = context
    · subst here
      rw [FgCache.reuse_freeFgSvms_self]
      exact List.erase_sublist
    · rw [FgCache.reuse_freeFgSvms_of_ne here]
  refine inv.moved (Or.inr mem) elsewhere (Or.inl ⟨used, unfree⟩) ?_ ?_
  · exact fun c => (inv.distinct c).sublist ((kept c).map FgRegion.base)
  · exact fun c => (inv.sorted c).sublist (kept c)

/-- Every call keeps the invariant. -/
theorem inv_step {call : FgCall} (inv : Inv sys) (new : sys.NewBase call)
    (stepped : sys.step call = some sys') : Inv sys' := by
  cases call with
  | alloc context base flags size alignment =>
      obtain rfl := Option.some.inj stepped
      exact inv_alloc inv (r := ⟨base, flags, size, alignment⟩) new
  | free context base =>
      obtain rfl := Option.some.inj stepped
      rw [FgCache.clSvmFgFree]
      cases used : (sys.cache.allocatedFgSvms context).find base with
      | none => exact inv
      | some r => exact inv_free inv used
  | find context size alignment =>
      obtain rfl := Option.some.inj stepped
      rw [FgCache.findFreeSvm]
      cases found : ((sys.cache.freeFgSvms context).dropWhile fun q => q.size < size).find?
          (fun q => q.alignment = alignment) with
      | none => exact inv
      | some r => exact inv_find inv (search_spec (inv.sorted context) found).1.free

theorem Inv.inOneContainer (inv : Inv sys) {r : FgRegion} (held : sys.cache.Holds context r) :
    sys.cache.InOneContainer context r := by
  rcases held with used | free
  · exact Or.inl ⟨used, inv.apart context r.base r used⟩
  · refine Or.inr ⟨inv.free_elsewhere free, ?_⟩
    have only : ∀ q ∈ sys.cache.freeFgSvms context,
        decide (q.base = r.base) = decide (q = r) := by
      intro q mem
      rw [decide_eq_decide]
      exact ⟨List.inj_on_of_nodup_map (inv.distinct context) mem free, fun same => by rw [same]⟩
    have nodup : (sys.cache.freeFgSvms context).Nodup := (inv.distinct context).of_map
    rw [List.filter_congr only, List.filter_eq, List.count_eq_one_of_mem nodup free]
    rfl

theorem Inv.lentOnce (inv : Inv sys) : sys.LentOnce where
  known _ := inv.known_iff
  once := by
    rintro ⟨c, r⟩ mem
    have held := (inv.holds c r).mpr mem
    refine ⟨inv.inOneContainer held, fun c' other => ⟨?_, fun q free same => ?_⟩⟩
    · cases used : (sys.cache.allocatedFgSvms c').find r.base with
      | none => rfl
      | some q =>
          have same := inv.key c' r.base q used
          have held' : sys.cache.Holds c' q := Or.inl (by rw [same, used])
          exact absurd (inv.unique held' held same).1 other
    · exact other (inv.unique (Or.inr free) held same).1
  finds := inv.findsSmallest
  frees := inv.freesUsed

/-- In every run whose allocations have new bases, every region is lent once. -/
theorem lentOnce_of_run (run : Run.Reach step NewBase initial sys) : sys.LentOnce :=
  Inv.lentOnce (run.invariant inv_initial fun _ _ _ => inv_step)

/-- A region that is freed and found again for a smaller request. -/
theorem lentOnce_of_run_reuse :
    ∃ sys, Run.Reach step NewBase initial sys ∧
      (sys.cache.allocatedFgSvms 7).find 4096 = some ⟨4096, {}, 100, 0⟩ ∧ sys.LentOnce := by
  have unknown : ¬ initial.cache.Known 4096 := by
    rw [inv_initial.known_iff]
    rintro ⟨e, mem, -⟩
    exact List.not_mem_nil mem
  have first : Run.Reach step NewBase initial _ :=
    .tail (a := .alloc 7 4096 {} 100 0) .refl unknown rfl
  have second : Run.Reach step NewBase initial _ :=
    .tail (a := .free 7 4096) first trivial rfl
  have third : Run.Reach step NewBase initial _ :=
    .tail (a := .find 7 50 0) second trivial rfl
  exact ⟨_, third, rfl, lentOnce_of_run third⟩

end FgSystem

end Clarmor
