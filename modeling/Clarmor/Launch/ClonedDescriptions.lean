import Clarmor.Launch.RegionTable
import Clarmor.Wrapper.ImageCalls
import Clarmor.Wrapper.Placement

/-!
# The descriptions of the arguments of a clone

The loop of `createPoisonedKernel` enters a description for every argument of the
clone.  Two of them lead to one memory object where the arguments of the kernel do;
an object with canaries stands for itself, and one without them has a new object in
its place.  A number with the bytes of a handle may be taken for a memory object when
the clone gets it.
-/

namespace Clarmor

namespace KernelState

/-- The description of a memory object that argument `i` leads to. -/
def objectAt (args : OrderedMap Nat ArgEntry) (i : Nat) : Option Address :=
  (args.find i).bind ArgEntry.buffer

/-- The descriptions of the arguments of a kernel; there are none before one is set. -/
def argsOf (s : KernelState) (kernel : Handle) : OrderedMap Nat ArgEntry :=
  (s.kinfoFind kernel).elim OrderedMap.empty KernelInfo.argList

/-- An argument that is passed by value has the bytes of this handle. -/
def ValueBits (kargs : List KernelArg) (handle : Handle) : Prop :=
  ∃ karg ∈ kargs, karg.buffer = none ∧ karg.svmBuffer = none ∧ karg.size = SIZEOF_MEM ∧
    karg.value = some handle

/-- What the arguments lead to is in the tables. -/
structure Listed (s : KernelState) (kargs : List KernelArg) : Prop where
  apart : ∀ karg ∈ kargs, karg.buffer.isSome → karg.svmBuffer = none
  object : ∀ karg ∈ kargs, ∀ m, karg.buffer = some m →
    ∃ p, s.clMemAlloc.find m.handle = some p ∧ s.memobjs.find p = some m
  region : ∀ karg ∈ kargs, ∀ m, karg.svmBuffer = some m →
    ∃ p, s.clSvmMemAlloc.find m.handle = some p ∧ s.svmobjs.find p = some m

/-- The first `n` descriptions are like the arguments `kargs`, up to the memory objects:
these have canaries, and are the same where those are. -/
structure Mirrors (s : KernelState) (kargs : List KernelArg) (args : OrderedMap Nat ArgEntry)
    (n : Nat) : Prop where
  within : ∀ j, n ≤ j → args.find j = none
  svm : ∀ j karg, j < n → kargs[j]? = some karg → ∃ entry, args.find j = some entry ∧
    entry.svmBuffer.isSome = karg.svmBuffer.isSome
  object : ∀ j < n, ∀ h, bufferAt kargs j = some h → ∃ p m, objectAt args j = some p ∧
    s.memobjs.find p = some m ∧ m.hasCanary
  shared : ∀ j < n, ∀ k < n, ∀ h, bufferAt kargs j = some h → bufferAt kargs k = some h →
    objectAt args j = objectAt args k
  separate : ∀ j < n, ∀ k < n, ∀ h h', bufferAt kargs j = some h → bufferAt kargs k = some h' →
    objectAt args j = objectAt args k → h = h'

/-- The description `m'` at `p` stands for `m`: it is `m`, or a new one when `m` has no
canaries. -/
def StandsFor (start : KernelState) (m : MemObj) (p : Address) (m' : MemObj) : Prop :=
  if m.hasCanary then m' = m ∧ start.memobjs.find p = some m else start.memobjs.find p = none

/-- The descriptions of the clone when argument `i` is next; `objects` are those of the
new memory objects. -/
structure Mirroring (start : KernelState) (kargs : List KernelArg) (objects : List MemObj)
    (clone : Handle) (i : Nat) (s : KernelState) : Prop where
  kept : ∀ p m, start.memobjs.find p = some m → s.memobjs.find p = some m
  keepsSvm : KeepsSvm start s
  known : ∀ h p, s.clMemAlloc.find h = some p → start.clMemAlloc.find h = some p ∨
    ∃ object ∈ objects, object.handle = h
  others : ∀ k ≠ clone, s.kinfoFind k = start.kinfoFind k
  mirrors : Mirrors s kargs (s.argsOf clone) i
  value : ∀ j < i, bufferAt kargs j = none → objectAt (s.argsOf clone) j = none ∨
    ∃ h p, ValueBits kargs h ∧ s.clMemAlloc.find h = some p
  stands : ∀ j < i, ∀ karg m p m', kargs[j]? = some karg → karg.buffer = some m →
    objectAt (s.argsOf clone) j = some p → s.memobjs.find p = some m' → StandsFor start m p m'

/-- A description that can be entered for argument `i`. -/
structure MirrorsAt (start s : KernelState) (kargs : List KernelArg)
    (args : OrderedMap Nat ArgEntry) (i : Nat) (karg : KernelArg) (entry : ArgEntry) : Prop where
  isArg : kargs[i]? = some karg
  svm : entry.svmBuffer.isSome = karg.svmBuffer.isSome
  value : bufferAt kargs i = none → entry.buffer = none ∨
    ∃ h p, ValueBits kargs h ∧ s.clMemAlloc.find h = some p
  object : ∀ h, bufferAt kargs i = some h → ∃ p m, entry.buffer = some p ∧
    s.memobjs.find p = some m ∧ m.hasCanary
  shared : ∀ j < i, ∀ h, bufferAt kargs j = some h → bufferAt kargs i = some h →
    objectAt args j = entry.buffer
  separate : ∀ j < i, ∀ h h', bufferAt kargs j = some h → bufferAt kargs i = some h' →
    objectAt args j = entry.buffer → h = h'
  stands : ∀ m p m', karg.buffer = some m → entry.buffer = some p →
    s.memobjs.find p = some m' → StandsFor start m p m'

variable {start s s' : KernelState} {kargs : List KernelArg} {karg : KernelArg}
  {args args' : OrderedMap Nat ArgEntry} {objects : List MemObj} {clone : Handle}
  {entry : ArgEntry} {i n : Nat}

theorem bufferAt_of_getElem? (isArg : kargs[i]? = some karg) :
    bufferAt kargs i = karg.buffer.map MemObj.handle := by
  rw [bufferAt, isArg, Option.bind_some, KernelArg.bufferHandle]

theorem exists_of_bufferAt {h : Handle} (passes : bufferAt kargs i = some h) :
    ∃ karg m, kargs[i]? = some karg ∧ karg.buffer = some m ∧ m.handle = h := by
  rw [bufferAt] at passes
  obtain ⟨karg, isArg, passes⟩ := Option.bind_eq_some_iff.mp passes
  obtain ⟨m, isObject, same⟩ := Option.map_eq_some_iff.mp passes
  exact ⟨karg, m, isArg, isObject, same⟩

theorem find_argsOf (s : KernelState) (kernel : Handle) (j : Nat) :
    (s.argsOf kernel).find j = (s.kinfoFind kernel).bind fun info => info.argList.find j := by
  rw [argsOf]
  cases s.kinfoFind kernel <;> rfl

theorem find_argsOf_enterArg (coherent : s.Coherent) (kernel : Handle) (entry : ArgEntry)
    (j : Nat) : ((s.enterArg kernel i entry).argsOf kernel).find j =
      if j = i then some entry else (s.argsOf kernel).find j := by
  obtain ⟨info, found, args⟩ := (enterArg_spec coherent kernel i entry).here
  rw [find_argsOf, found, Option.bind_some, args, find_argsOf]

/-- Two arguments that lead to one handle lead to one description. -/
theorem Listed.unique {karg' : KernelArg} {m m' : MemObj} (listed : Listed s kargs)
    (mem : karg ∈ kargs) (mem' : karg' ∈ kargs) (isObject : karg.buffer = some m)
    (isObject' : karg'.buffer = some m') (same : m.handle = m'.handle) : m = m' := by
  obtain ⟨p, isListed, found⟩ := listed.object karg mem m isObject
  obtain ⟨p', isListed', found'⟩ := listed.object karg' mem' m' isObject'
  rw [same, isListed', Option.some.injEq] at isListed
  rw [← isListed, found', Option.some.injEq] at found
  exact found.symm

/-! ## One more description -/

theorem Mirrors.congr (mirrors : Mirrors s kargs args n)
    (kept : ∀ p m, s.memobjs.find p = some m → s'.memobjs.find p = some m) :
    Mirrors s' kargs args n := by
  refine ⟨mirrors.within, mirrors.svm, fun j jLt h passes => ?_, mirrors.shared, mirrors.separate⟩
  obtain ⟨p, m, isObject, found, canary⟩ := mirrors.object j jLt h passes
  exact ⟨p, m, isObject, kept p m found, canary⟩

/-- The arguments before the next one keep what they lead to. -/
structure Enters (args args' : OrderedMap Nat ArgEntry) (i : Nat) (entry : ArgEntry) : Prop where
  here : objectAt args' i = entry.buffer
  before : ∀ j < i, objectAt args' j = objectAt args j

theorem enters_of_find (enters : ∀ j, args'.find j = if j = i then some entry else args.find j) :
    Enters args args' i entry := by
  constructor
  · rw [objectAt, enters, if_pos rfl, Option.bind_some]
  · intro j jLt
    rw [objectAt, enters, if_neg jLt.ne, objectAt]

theorem Mirrors.snoc (mirrors : Mirrors s kargs args i)
    (next : MirrorsAt start s kargs args i karg entry)
    (enters : ∀ j, args'.find j = if j = i then some entry else args.find j) :
    Mirrors s kargs args' (i + 1) := by
  obtain ⟨here, before⟩ := enters_of_find enters
  constructor
  case within =>
    intro j outside
    rw [enters, if_neg (by omega), mirrors.within j (by omega)]
  case svm =>
    intro j karg' jLt isArg
    rw [enters]
    rcases Nat.lt_succ_iff_lt_or_eq.mp jLt with earlier | rfl
    · rw [if_neg earlier.ne]
      exact mirrors.svm j karg' earlier isArg
    · rw [next.isArg, Option.some.injEq] at isArg
      rw [if_pos rfl, ← isArg]
      exact ⟨entry, rfl, next.svm⟩
  case object =>
    intro j jLt h passes
    rcases Nat.lt_succ_iff_lt_or_eq.mp jLt with earlier | rfl
    · rw [before j earlier]
      exact mirrors.object j earlier h passes
    · rw [here]
      exact next.object h passes
  case shared =>
    intro j jLt k kLt h passes passes'
    rcases Nat.lt_succ_iff_lt_or_eq.mp jLt with earlier | rfl
    · rcases Nat.lt_succ_iff_lt_or_eq.mp kLt with earlier' | rfl
      · rw [before j earlier, before k earlier']
        exact mirrors.shared j earlier k earlier' h passes passes'
      · rw [before j earlier, here]
        exact next.shared j earlier h passes passes'
    · rcases Nat.lt_succ_iff_lt_or_eq.mp kLt with earlier' | rfl
      · rw [before k earlier', here]
        exact (next.shared k earlier' h passes' passes).symm
      · rfl
  case separate =>
    intro j jLt k kLt h h' passes passes' same
    rcases Nat.lt_succ_iff_lt_or_eq.mp jLt with earlier | rfl
    · rw [before j earlier] at same
      rcases Nat.lt_succ_iff_lt_or_eq.mp kLt with earlier' | rfl
      · rw [before k earlier'] at same
        exact mirrors.separate j earlier k earlier' h h' passes passes' same
      · rw [here] at same
        exact next.separate j earlier h h' passes passes' same
    · rw [here] at same
      rcases Nat.lt_succ_iff_lt_or_eq.mp kLt with earlier' | rfl
      · rw [before k earlier'] at same
        exact (next.separate k earlier' h' h passes' passes same.symm).symm
      · rw [passes, Option.some.injEq] at passes'
        exact passes'

/-- Setting an argument of the clone. -/
theorem Mirroring.set (mirroring : Mirroring start kargs objects clone i s)
    (coherent : s.Coherent) (next : MirrorsAt start s kargs (s.argsOf clone) i karg entry) :
    Mirroring start kargs objects clone (i + 1) (s.enterArg clone i entry) := by
  have entered := enterArg_spec coherent clone i entry
  have enters := find_argsOf_enterArg (i := i) coherent clone entry
  obtain ⟨here, before⟩ := enters_of_find enters
  constructor
  case kept =>
    rw [entered.memobjs]
    exact mirroring.kept
  case keepsSvm => exact mirroring.keepsSvm.trans (keepsSvm_enterArg s clone i entry)
  case known =>
    rw [entered.clMemAlloc]
    exact mirroring.known
  case others =>
    intro k other
    rw [entered.others k other]
    exact mirroring.others k other
  case mirrors =>
    apply (mirroring.mirrors.snoc next enters).congr
    rw [entered.memobjs]
    exact fun _ _ => id
  case value =>
    intro j jLt passes
    rw [entered.clMemAlloc]
    rcases Nat.lt_succ_iff_lt_or_eq.mp jLt with earlier | rfl
    · rw [before j earlier]
      exact mirroring.value j earlier passes
    · rw [here]
      exact next.value passes
  case stands =>
    intro j jLt karg' m p m' isArg isObject leads found
    rw [entered.memobjs] at found
    rcases Nat.lt_succ_iff_lt_or_eq.mp jLt with earlier | rfl
    · rw [before j earlier] at leads
      exact mirroring.stands j earlier karg' m p m' isArg isObject leads found
    · rw [here] at leads
      rw [next.isArg, Option.some.injEq] at isArg
      exact next.stands m p m' (isArg ▸ isObject) leads found

/-- A new memory object of the detector. -/
theorem Mirroring.create {object : MemObj} (mirroring : Mirroring start kargs objects clone i s)
    (coherent : s.Coherent) (mem : object ∈ objects)
    (created : s.createInternal object = some s') :
    Mirroring start kargs objects clone i s' := by
  have keepsSvm := mirroring.keepsSvm.trans (keepsSvm_createInternal created)
  rw [createInternal] at created
  split_ifs at created with usable
  obtain rfl := Option.some.inj created
  have room := coherent.memBelow s.nextAddress (le_refl _)
  have kept : ∀ p m, s.memobjs.find p = some m →
      (s.clMemInsert { object with refCount := 1, detectorInternalBuffer := true }).memobjs.find p =
        some m := by
    intro p m found
    have old : p ≠ s.nextAddress := by
      rintro rfl
      rw [room] at found
      contradiction
    exact (Table.find_insert_of_ne old).trans found
  have listed : ∀ h p, s.clMemAlloc.find h = some p → (s.clMemInsert
      { object with refCount := 1, detectorInternalBuffer := true }).clMemAlloc.find h =
        some p := by
    intro h p isListed
    have other : h ≠ object.handle := by
      rintro rfl
      rw [usable.2] at isListed
      contradiction
    exact (Table.find_insert_of_ne other).trans isListed
  constructor
  case kept => exact fun p m found => kept p m (mirroring.kept p m found)
  case keepsSvm => exact keepsSvm
  case known =>
    intro h p isListed
    by_cases here : h = object.handle
    · exact Or.inr ⟨object, mem, here.symm⟩
    · exact mirroring.known h p ((Table.find_insert_of_ne here).symm.trans isListed)
  case others => exact mirroring.others
  case mirrors => exact mirroring.mirrors.congr kept
  case value =>
    intro j jLt passes
    rcases mirroring.value j jLt passes with none | ⟨h, p, isValue, isListed⟩
    · exact Or.inl none
    · exact Or.inr ⟨h, p, isValue, listed h p isListed⟩
  case stands =>
    intro j jLt karg' m p m' isArg isObject leads found
    obtain ⟨p', m'', leads', found', -⟩ := mirroring.mirrors.object j jLt m.handle
      (by rw [bufferAt_of_getElem? isArg, isObject, Option.map_some])
    have same : p' = p := Option.some.inj (leads'.symm.trans leads)
    rw [kept p m'' (same ▸ found'), Option.some.injEq] at found
    exact mirroring.stands j jLt karg' m p m' isArg isObject leads (found ▸ same ▸ found')

/-! ## The kinds of descriptions -/

/-- An argument without a memory object. -/
theorem MirrorsAt.of_value (isArg : kargs[i]? = some karg) (noObject : karg.buffer = none)
    (svm : entry.svmBuffer.isSome = karg.svmBuffer.isSome)
    (value : entry.buffer = none ∨ ∃ h p, ValueBits kargs h ∧ s.clMemAlloc.find h = some p) :
    MirrorsAt start s kargs args i karg entry := by
  have passes : ∀ h, bufferAt kargs i ≠ some h := by
    intro h
    rw [bufferAt_of_getElem? isArg, noObject]
    exact (Option.some_ne_none h).symm
  constructor
  case isArg => exact isArg
  case svm => exact svm
  case value => exact fun _ => value
  case object => exact fun h passes' => absurd passes' (passes h)
  case shared => exact fun _ _ h _ passes' => absurd passes' (passes h)
  case separate => exact fun _ _ _ h' _ passes' => absurd passes' (passes h')
  case stands =>
    intro m _ _ isObject
    rw [noObject] at isObject
    contradiction

/-- The first use of a memory object, with one that no earlier argument has. -/
theorem MirrorsAt.of_first {p : Address} {m m' : MemObj} (isArg : kargs[i]? = some karg)
    (isObject : karg.buffer = some m) (first : firstUse kargs i = i)
    (svm : entry.svmBuffer.isSome = karg.svmBuffer.isSome) (buffer : entry.buffer = some p)
    (found : s.memobjs.find p = some m') (canary : m'.hasCanary)
    (other : ∀ j < i, ∀ h, bufferAt kargs j = some h → objectAt args j = some p → h = m.handle)
    (stands : StandsFor start m p m') : MirrorsAt start s kargs args i karg entry := by
  have passes : bufferAt kargs i = some m.handle := by
    rw [bufferAt_of_getElem? isArg, isObject, Option.map_some]
  constructor
  case isArg => exact isArg
  case svm => exact svm
  case value =>
    intro none
    rw [passes] at none
    contradiction
  case object => exact fun _ _ => ⟨p, m', buffer, found, canary⟩
  case shared =>
    intro j jLt h passes' passes''
    have le := firstUse_le kargs j
    rw [firstUse_congr passes' passes'', first] at le
    omega
  case separate =>
    intro j jLt h h' passes' passes'' same
    rw [passes, Option.some.injEq] at passes''
    rw [buffer] at same
    rw [other j jLt h passes' same, passes'']
  case stands =>
    intro m₁ p₁ m₁' isObject₁ buffer₁ found₁
    rw [isObject, Option.some.injEq] at isObject₁
    rw [buffer, Option.some.injEq] at buffer₁
    rw [← buffer₁, found, Option.some.injEq] at found₁
    rw [← isObject₁, ← buffer₁, ← found₁]
    exact stands

/-- A memory object that was passed before, with the one that stands for it. -/
theorem Mirroring.repeated {m : MemObj} (mirroring : Mirroring start kargs objects clone i s)
    (listed : Listed start kargs) (isArg : kargs[i]? = some karg)
    (isObject : karg.buffer = some m) (earlier : firstUse kargs i < i)
    (svm : entry.svmBuffer = none)
    (buffer : entry.buffer = objectAt (s.argsOf clone) (firstUse kargs i)) :
    MirrorsAt start s kargs (s.argsOf clone) i karg entry := by
  have mem := List.mem_of_getElem? isArg
  have passes : bufferAt kargs i = some m.handle := by
    rw [bufferAt_of_getElem? isArg, isObject, Option.map_some]
  have passes' := (firstUse_of_some passes).2.1
  constructor
  case isArg => exact isArg
  case svm =>
    rw [svm, listed.apart karg mem (by rw [isObject]; rfl)]
    rfl
  case value =>
    intro none
    rw [passes] at none
    contradiction
  case object =>
    rw [buffer]
    exact fun _ _ => mirroring.mirrors.object _ earlier m.handle passes'
  case shared =>
    intro j jLt h before here
    rw [passes, Option.some.injEq] at here
    rw [buffer]
    exact mirroring.mirrors.shared j jLt _ earlier h before (here ▸ passes')
  case separate =>
    intro j jLt h h' before here same
    rw [passes, Option.some.injEq] at here
    rw [buffer] at same
    exact mirroring.mirrors.separate j jLt _ earlier h h' before (here ▸ passes') same
  case stands =>
    intro m₁ p m' isObject₁ leads found
    obtain ⟨karg', m'', isArg', isObject', same⟩ := exists_of_bufferAt passes'
    have one := listed.unique (List.mem_of_getElem? isArg') mem isObject' isObject₁ (by
      rw [same, Option.some.inj (isObject.symm.trans isObject₁)])
    rw [buffer] at leads
    rw [← one]
    exact mirroring.stands _ earlier karg' m'' p m' isArg' isObject' leads found

theorem memArg_buffer {h : Handle} {p : Address} (listed : s.clMemAlloc.find h = some p) :
    (s.memArg SIZEOF_MEM (some h)).buffer = some p := by
  rw [memArg, if_pos rfl]
  exact listed

end KernelState

namespace ArgSystem

open KernelState

variable {sys sys' start : ArgSystem} {kernel clone : Handle} {info : KernelInfo}
  {kern : RuntimeKernel} {params : List Param} {kargs : List KernelArg} {karg : KernelArg}
  {objects rest rest' : List MemObj} {i : Nat}

/-! ## The loop -/

/-- The description of an argument that is set again. -/
theorem mirrorsAt_again {arg : RuntimeArg} (cloned : Cloned start kargs clone params i sys)
    (mirroring : Mirroring start.s kargs objects clone i sys.s) (listed : Listed start.s kargs)
    (first : firstUse kargs i = i) (isArg : kargs[i]? = some karg)
    (again : cloneArg karg = some arg) :
    MirrorsAt start.s sys.s kargs (sys.s.argsOf clone) i karg (entryOf sys.s arg) := by
  have mem := List.mem_of_getElem? isArg
  obtain ⟨handle, size, value, buffer, svmBuffer⟩ := karg
  cases svmBuffer with
  | some region =>
      obtain rfl := Option.some.inj again
      have noBuffer : buffer = none := by
        rw [← Option.not_isSome_iff_eq_none]
        intro isObject
        exact Option.some_ne_none region (listed.apart _ mem isObject)
      obtain ⟨p, isListed, found⟩ := listed.region _ mem region rfl
      have finds : sys.s.clSvmMemFind region.handle = some p := by
        apply clSvmMemFind_handle
        · rw [mirroring.keepsSvm.2, isListed]
        · rw [mirroring.keepsSvm.1, found]
      apply MirrorsAt.of_value isArg noBuffer
      · rw [entryOf, svmArg, finds]
        rfl
      · exact Or.inl rfl
  | none =>
      cases buffer with
      | none =>
          obtain rfl := Option.some.inj again
          apply MirrorsAt.of_value isArg rfl rfl
          rw [entryOf, memArg]
          dsimp only
          split_ifs with isSize
          · cases finds : value.bind sys.s.clMemAlloc.find with
            | none => exact Or.inl rfl
            | some p =>
                obtain ⟨h, given, isListed⟩ := Option.bind_eq_some_iff.mp finds
                exact Or.inr ⟨h, p, ⟨_, mem, rfl, rfl, isSize, given⟩, isListed⟩
          · exact Or.inl rfl
      | some m =>
          simp only [cloneArg] at again
          split_ifs at again with canary
          obtain rfl := Option.some.inj again
          obtain ⟨p, isListed, found⟩ := listed.object _ mem m rfl
          apply MirrorsAt.of_first isArg rfl first rfl (memArg_buffer (cloned.grows _ p isListed))
            (mirroring.kept p m found) canary
          · intro j jLt h passes leads
            obtain ⟨karg', m', isArg', isObject', same⟩ := exists_of_bufferAt passes
            have stands := mirroring.stands j jLt karg' m' p m isArg' isObject' leads
              (mirroring.kept p m found)
            rw [StandsFor] at stands
            split_ifs at stands
            · rw [← same, stands.1]
            · rw [found] at stands
              contradiction
          · rw [StandsFor, if_pos canary]
            exact ⟨rfl, found⟩

/-- The description of a memory object that takes the place of another. -/
theorem mirrorsAt_new {object : MemObj} {s : KernelState}
    (cloned : Cloned start kargs clone params i sys)
    (mirroring : Mirroring start.s kargs objects clone i sys.s) (first : firstUse kargs i = i)
    (isArg : kargs[i]? = some karg) (new : cloneArg karg = none) (canary : object.hasCanary)
    (created : sys.s.createInternal object = some s) :
    MirrorsAt start.s s kargs (s.argsOf clone) i karg
      (s.memArg SIZEOF_MEM (some object.handle)) := by
  obtain ⟨m, isObject, noSvm, noCanary⟩ :=
    KernelArg.isReplaced_iff.mp (cloneArg_eq_none_iff.mp new)
  have room := cloned.inv.coherent.memBelow sys.s.nextAddress (le_refl _)
  rw [createInternal] at created
  split_ifs at created with usable
  obtain rfl := Option.some.inj created
  apply MirrorsAt.of_first (p := sys.s.nextAddress) isArg isObject first
  case svm =>
    rw [noSvm]
    rfl
  case buffer => exact memArg_buffer (Table.find_insert_fresh usable.2)
  case found => exact Table.find_insert_fresh room
  case canary => exact canary
  case other =>
    intro j jLt h passes leads
    obtain ⟨p, m', leads', found, -⟩ := mirroring.mirrors.object j jLt h passes
    rw [Option.some.inj (leads'.symm.trans leads), room] at found
    contradiction
  case stands =>
    rw [StandsFor, noCanary, if_neg Bool.false_ne_true]
    cases found : start.s.memobjs.find sys.s.nextAddress with
    | none => rfl
    | some m' =>
        rw [mirroring.kept _ m' found] at room
        contradiction

/-- The description of a memory object that was passed before. -/
theorem mirrorsAt_repeated {entry : ArgEntry} (cloned : Cloned start kargs clone params i sys)
    (mirroring : Mirroring start.s kargs objects clone i sys.s) (listed : Listed start.s kargs)
    (isArg : kargs[i]? = some karg) (notFirst : firstUse kargs i ≠ i)
    (isEntry : (sys.s.argsOf clone).find (firstUse kargs i) = some entry) :
    MirrorsAt start.s sys.s kargs (sys.s.argsOf clone) i karg
      (sys.s.memArg entry.size entry.value) := by
  obtain ⟨h, passes⟩ : ∃ h, bufferAt kargs i = some h := by
    rw [← Option.ne_none_iff_exists']
    exact fun none => notFirst (firstUse_of_none none)
  obtain ⟨karg', m', isArg', isObject, -⟩ := exists_of_bufferAt passes
  rw [isArg, Option.some.injEq] at isArg'
  rw [← isArg'] at isObject
  have earlier : firstUse kargs i < i := lt_of_le_of_ne (firstUse_le kargs i) notFirst
  obtain ⟨p, m, leads, found, -⟩ :=
    mirroring.mirrors.object _ earlier h (firstUse_of_some passes).2.1
  apply mirroring.repeated listed isArg isObject earlier rfl
  -- the value that the first use was set with is the handle of what it leads to
  have isMem : entry.size = SIZEOF_MEM ∧ entry.value = some m.handle := by
    rw [objectAt, isEntry, Option.bind_some] at leads
    rw [find_argsOf] at isEntry
    obtain ⟨info, isInfo, isEntry⟩ := Option.bind_eq_some_iff.mp isEntry
    obtain ⟨kern, arg, -, -, describes⟩ := cloned.inv.tracks clone info isInfo _ entry isEntry
    obtain ⟨rfl, -⟩ := Ready.memory_of_buffer describes leads found
    exact ⟨describes.1, describes.2.1⟩
  rw [isMem.1, isMem.2, leads]
  exact memArg_buffer (cloned.inv.entered p m found)

/-- The objects that are left for the turns to come have canaries. -/
def Suited (objects rest : List MemObj) : Prop :=
  ∀ object ∈ rest, object.hasCanary ∧ object ∈ objects

/-- One turn. -/
theorem mirroring_turn (cloned : Cloned start kargs clone params i sys)
    (mirroring : Mirroring start.s kargs objects clone i sys.s) (listed : Listed start.s kargs)
    (suited : Suited objects rest) (iLt : i < kargs.length)
    (ran : sys.setCloneArg kargs clone i rest = some (rest', sys')) :
    Mirroring start.s kargs objects clone (i + 1) sys'.s ∧ Suited objects rest' := by
  have coherent := cloned.inv.coherent
  cases cloneTurn_of_run ran with
  | again isArg first again set =>
      rw [setRuntimeArg_s set]
      have next := mirrorsAt_again cloned mirroring listed first isArg again
      exact ⟨mirroring.set coherent next, suited⟩
  | @new karg object s _ _ isArg first new created set =>
      rw [setRuntimeArg_s set]
      obtain ⟨canary, mem⟩ := suited object List.mem_cons_self
      have mirroring' := mirroring.create coherent mem created
      have next := mirrorsAt_new cloned mirroring first isArg new canary created
      exact ⟨mirroring'.set (cloned.create created).1.inv.coherent next,
        fun object' mem' => suited object' (List.mem_cons_of_mem object mem')⟩
  | repeated notFirst found isEntry set =>
      rw [setRuntimeArg_s set]
      have isArg := List.getElem?_eq_getElem iLt
      have isEntry' := find_argsOf sys.s clone (firstUse kargs i)
      rw [found, Option.bind_some, isEntry] at isEntry'
      have next := mirrorsAt_repeated cloned mirroring listed isArg notFirst isEntry'
      exact ⟨mirroring.set coherent next, suited⟩

/-- The whole loop. -/
theorem mirroring_loop {n : Nat} (cloned : Cloned start kargs clone params i sys)
    (mirroring : Mirroring start.s kargs objects clone i sys.s) (listed : Listed start.s kargs)
    (suited : Suited objects rest) (bound : i + n ≤ kargs.length)
    (ran : setCloneArgs kargs clone (List.range' i n) rest sys = some sys') :
    Mirroring start.s kargs objects clone (i + n) sys'.s := by
  induction n generalizing i rest sys with
  | zero =>
      obtain rfl := Option.some.inj ran
      exact mirroring
  | succ n ih =>
      rw [List.range'_succ, setCloneArgs] at ran
      obtain ⟨⟨rest', next⟩, turned, ran⟩ := Option.bind_eq_some_iff.mp ran
      obtain ⟨mirroring', suited'⟩ :=
        mirroring_turn cloned mirroring listed suited (by omega) turned
      have cloned' := cloned.turn listed.apart turned
      have final := ih cloned' mirroring' suited' (by omega) ran
      rwa [Nat.add_right_comm, Nat.add_assoc] at final

/-! ## The kernel that is launched -/

namespace Ready

variable (ready : Ready sys kernel info kern) (inv : Inv sys)

include ready inv

/-- The memory object that an argument passes is the one it leads to. -/
theorem bufferAt_eq_some_iff {h : Handle} : bufferAt (resolved sys.s info) i = some h ↔
    ∃ p m, objectAt info.argList i = some p ∧ sys.s.memobjs.find p = some m ∧ m.handle = h := by
  rw [bufferAt, Option.bind_eq_some_iff]
  constructor
  · rintro ⟨karg, isArg, passes⟩
    obtain ⟨entry, arg, found, rfl, -⟩ := ready.at_index inv isArg
    obtain ⟨m, isObject, same⟩ := Option.map_eq_some_iff.mp passes
    obtain ⟨p, buffer, isMem⟩ := Option.bind_eq_some_iff.mp isObject
    exact ⟨p, m, by rw [objectAt, found]; exact buffer, isMem, same⟩
  · rintro ⟨p, m, isObject, isMem, same⟩
    obtain ⟨entry, found, buffer⟩ := Option.bind_eq_some_iff.mp isObject
    have iLt : i < (resolved sys.s info).length := ready.length.symm ▸ ready.index_lt found
    have isArg := List.getElem?_eq_getElem iLt
    obtain ⟨entry', arg, found', isKarg, -⟩ := ready.at_index inv isArg
    rw [found, Option.some.injEq] at found'
    refine ⟨_, isArg, ?_⟩
    rw [isKarg, ← found', KernelArg.bufferHandle, resolve, buffer, Option.bind_some, isMem,
      Option.map_some, same]

omit inv in
/-- An argument leads to a memory object that is there. -/
theorem object_live {p : Address} (isObject : objectAt info.argList i = some p) :
    ∃ m, sys.s.memobjs.find p = some m := by
  obtain ⟨entry, found, buffer⟩ := Option.bind_eq_some_iff.mp isObject
  have live := ready.live _ (OrderedMap.find_eq_some_iff.mp found)
  rw [argHandle, buffer] at live
  dsimp only at live
  rw [Option.isSome_map] at live
  exact Option.isSome_iff_exists.mp live

theorem objectAt_isSome :
    (objectAt info.argList i).isSome = (bufferAt (resolved sys.s info) i).isSome := by
  rw [Bool.eq_iff_iff, Option.isSome_iff_exists, Option.isSome_iff_exists]
  constructor
  · rintro ⟨p, isObject⟩
    obtain ⟨m, found⟩ := ready.object_live isObject
    exact ⟨m.handle, (ready.bufferAt_eq_some_iff inv).mpr ⟨p, m, isObject, found, rfl⟩⟩
  · rintro ⟨h, passes⟩
    obtain ⟨p, m, isObject, -⟩ := (ready.bufferAt_eq_some_iff inv).mp passes
    exact ⟨p, isObject⟩

/-- An argument has a region exactly where a region was found when it was set. -/
theorem svm_isSome {karg : KernelArg} (isArg : (resolved sys.s info)[i]? = some karg) :
    ∃ entry, info.argList.find i = some entry ∧
      entry.svmBuffer.isSome = karg.svmBuffer.isSome := by
  obtain ⟨entry, arg, found, rfl, live, -, describes⟩ := ready.at_index inv isArg
  refine ⟨entry, found, ?_⟩
  rw [resolve]
  cases isSvm : entry.svmBuffer with
  | none => rfl
  | some p =>
      have noBuffer : entry.buffer = none := by
        cases arg with
        | memory size value =>
            rw [describes.2.2.1] at isSvm
            contradiction
        | svm pointer => exact describes.2.2
      rw [argHandle, noBuffer, isSvm] at live
      dsimp only at live
      rw [Option.isSome_map] at live
      rw [Option.bind_some, live]
      rfl

end Ready

/-- What the arguments lead to is in the tables. -/
theorem Ready.listed (ready : Ready sys kernel info kern) (inv : Inv sys)
    (svm : SvmEntered sys.s) : Listed sys.s (resolved sys.s info) := by
  have source : ∀ karg ∈ resolved sys.s info, ∃ entry : ArgEntry,
      karg.buffer = entry.buffer.bind sys.s.memobjs.find ∧
        karg.svmBuffer = entry.svmBuffer.bind sys.s.svmobjs.find := by
    intro karg mem
    obtain ⟨e, -, rfl⟩ := List.mem_map.mp mem
    exact ⟨e.2, rfl, rfl⟩
  constructor
  case apart => exact ready.separate inv
  case object =>
    intro karg mem m isObject
    obtain ⟨entry, isBuffer, -⟩ := source karg mem
    rw [isBuffer] at isObject
    obtain ⟨p, -, found⟩ := Option.bind_eq_some_iff.mp isObject
    exact ⟨p, inv.entered p m found, found⟩
  case region =>
    intro karg mem m isRegion
    obtain ⟨entry, -, isSvm⟩ := source karg mem
    rw [isSvm] at isRegion
    obtain ⟨p, -, found⟩ := Option.bind_eq_some_iff.mp isRegion
    exact ⟨p, svm.entered p m found, found⟩

/-- The clone has no descriptions before its first argument. -/
theorem Inv.beginMirroring (inv : Inv sys) (fresh : sys.kernels.find clone = none)
    (kargs : List KernelArg) (objects : List MemObj) :
    Mirroring sys.s kargs objects clone 0 sys.s := by
  have noArgs : sys.s.argsOf clone = OrderedMap.empty := by
    rw [argsOf, kinfoFind, inv.unlisted clone fresh]
    rfl
  constructor
  case kept => exact fun _ _ => id
  case keepsSvm => exact KeepsSvm.refl sys.s
  case known => exact fun _ _ => Or.inl
  case others => exact fun _ _ => rfl
  case mirrors =>
    rw [noArgs]
    constructor
    case within => exact fun _ _ => rfl
    all_goals exact fun _ => by intros; omega
  case value => exact fun j jLt => absurd jLt (Nat.not_lt_zero j)
  case stands => exact fun j jLt => absurd jLt (Nat.not_lt_zero j)

/-- The descriptions of the clone after the loop. -/
theorem Ready.mirroring (ready : Ready sys kernel info kern) (inv : Inv sys)
    (svm : SvmEntered sys.s) (canaried : ∀ object ∈ objects, object.hasCanary)
    (created : sys.clCreateKernel clone kern.params = some start)
    (ran : setCloneArgs (resolved sys.s info) clone (List.range kern.params.length) objects start =
      some sys') :
    Mirroring sys.s (resolved sys.s info) objects clone kern.params.length sys'.s := by
  obtain ⟨begun, same, -⟩ := inv.beginClone (resolved sys.s info) created
  have fresh := (inv.clCreateKernel created).2.2.1
  have suited : Suited objects objects := fun object mem => ⟨canaried object mem, mem⟩
  rw [List.range_eq_range'] at ran
  have final := mirroring_loop begun (by rw [same]; exact inv.beginMirroring fresh _ objects)
    (by rw [same]; exact ready.listed inv svm) suited (by rw [ready.length, Nat.zero_add]) ran
  rwa [Nat.zero_add, same] at final

end ArgSystem

/-! ## The memory objects of the clone -/

/-- The creation of a memory object in the loop of `createPoisonedKernel`. -/
def createNewBuffer (env : Env) (w : Wrapper) (oldBufferInfo : MemObj) :
    Option (Handle × ClStatus × Wrapper) :=
  let flags :=
    { oldBufferInfo.flags with useHostPtr := false, copyHostPtr := false, allocHostPtr := false }
  if oldBufferInfo.isImage then
    clCreateImage env w oldBufferInfo.context flags oldBufferInfo.imageFormat
      { oldBufferInfo.imageDesc with buffer := NULL } NULL
  else clCreateBuffer env w oldBufferInfo.context flags oldBufferInfo.size NULL

/-- The description that such a creation enters. -/
def IsNewBuffer (object : MemObj) : Prop :=
  ∃ env w oldBufferInfo w', createNewBuffer env w oldBufferInfo = some (object.handle, none, w') ∧
    object.handle ≠ NULL ∧ w.table.find object.handle = none ∧
    w'.table.find object.handle = some object

/-- It always has canaries. -/
theorem IsNewBuffer.hasCanary {object : MemObj} (new : IsNewBuffer object) : object.hasCanary := by
  obtain ⟨env, w, old, w', made, nonNull, fresh, found⟩ := new
  rw [createNewBuffer] at made
  dsimp only at made
  have entered : ∀ item : MemObj, item.handle = object.handle →
      w'.table = clMemInsert w.table item → item = object := by
    intro item same table
    rw [table, clMemInsert, same, Table.find_insert_fresh fresh, Option.some.injEq] at found
    exact found
  split_ifs at made with image
  · obtain ⟨fillPtr, c, -, created, isHandle, -, -, table⟩ :=
      @ImageCall.run_canaried (.image { old.imageDesc with buffer := NULL }) _ _ _ _ _ _ _ _ _ rfl
        made
    rcases createImageObject_handed created (isHandle ▸ nonNull) with
      ⟨copies, -⟩ | ⟨-, between, data, -, -, -, -, temp⟩
    · rw [ImageCall.canariedTemp_copyHostPtr] at copies
      contradiction
    · rw [← entered _ (by rw [temp, isHandle]) table, temp]
      exact ImageCall.canariedTemp_hasCanary
  · rcases clCreateBuffer_cases made with ⟨null, -⟩ | ⟨use, -⟩ | ⟨-, mainBuff, fillPtr, -, -, table⟩
    · exact absurd null nonNull
    · contradiction
    · rw [← entered _ (by simp [bufferObject, bufferFlags]) table]
      simp [bufferObject, bufferFlags]

end Clarmor
