import Clarmor.Check.SvmContexts
import Clarmor.Launch.ClonedDescriptions

/-!
# What a launch hands to the checkers

The duplicates are found among the arguments of the kernel that is launched, the
arrays are filled from those of the kernel that ran.  Where this is a clone, its
arguments lead to memory objects with canaries, and two of them lead to one object
where those of the kernel do, so that the first uses are the same.
-/

namespace Clarmor

open Word

namespace KernelState

variable (s : KernelState) (kargs : List KernelArg) (args : OrderedMap Nat ArgEntry)

/-- The memory object is among the arguments. -/
def Passed (isImage : Bool) (handle : Handle) : Prop :=
  ∃ i p m, objectAt args i = some p ∧ s.memobjs.find p = some m ∧ m.isImage = isImage ∧
    m.handle = handle

/-- A list has every handle of a kind once. -/
def ListsOnce (l : List Handle) (kind : Handle → Prop) : Prop := l.Nodup ∧ ∀ h, h ∈ l ↔ kind h

/-- What is promised of the launch of a kernel: the memory objects have canaries, and
the arrays for the checkers have each of them once, with the regions behind the
buffers when `passesSvm`. -/
structure ChecksAll (dupe : List Nat) (nargs : Nat) (passesSvm : Prop) : Prop where
  canaried : ∀ i p, objectAt args i = some p → ∃ m, s.memobjs.find p = some m ∧ m.hasCanary
  arrays : ∃ buffers regions images,
    s.checkArrays args dupe nargs =
      some ⟨buffers ++ regions, images, buffers.length, regions.length, images.length⟩ ∧
    ListsOnce buffers (s.Passed args false) ∧ ListsOnce images (s.Passed args true) ∧
    ListsOnce regions fun h => passesSvm ∧ ∃ m, s.LiveRegion m ∧ m.handle = h

/-- The descriptions are like the arguments, and no other argument leads to a memory
object. -/
structure MirrorsAll (n : Nat) : Prop extends Mirrors s kargs args n where
  value : ∀ j < n, bufferAt kargs j = none → objectAt args j = none

variable {s kargs args} {i n : Nat}

/-! ## The arrays -/

theorem placed_of_length_le {room : Nat} {l : List Handle} (le : l.length ≤ room) :
    placed room l = l := by
  rw [placed]
  split_ifs with none
  · rw [none] at le
    exact (List.length_eq_zero_iff.mp (Nat.le_zero.mp le)).symm
  · rfl

theorem svmChecked_length_le {dupe : List Nat} (coherent : s.Coherent)
    (noNull : s.clSvmMemAlloc.find NULL = none) :
    (s.svmChecked args dupe n).length ≤ s.clSvmMemAlloc.entries.length := by
  have all : s.svmHandles.length ≤ s.clSvmMemAlloc.entries.length := by
    rw [svmHandles, List.length_map]
    apply (List.length_filter_le _ _).trans
    rw [svmRegions_eq coherent noNull]
    exact List.length_filterMap_le _ _
  rw [svmChecked]
  split_ifs
  · exact all
  · exact Nat.zero_le _

theorem firstObject_eq (iLt : i < kargs.length) : firstObject args (findDuplicates kargs) i =
    if firstUse kargs i = i then objectAt args i else none := by
  simp only [firstObject, findDuplicates_getElem? iLt, Option.some.injEq, objectAt]

theorem firstObject_eq_some {p : Address}
    (first : firstObject args (findDuplicates kargs) i = some p) :
    i < kargs.length ∧ firstUse kargs i = i ∧ objectAt args i = some p := by
  have iLt : i < kargs.length := by
    rw [firstObject] at first
    split_ifs at first with isFirst
    have bound := (List.getElem?_eq_some_iff.mp isFirst).1
    rwa [findDuplicates, List.length_map, List.length_range] at bound
  rw [firstObject_eq iLt] at first
  split_ifs at first with isFirst
  exact ⟨iLt, isFirst, first⟩

namespace MirrorsAll

theorem objectAt_lt {p : Address} (mirrors : MirrorsAll s kargs args n)
    (isObject : objectAt args i = some p) : i < n := by
  by_contra outside
  rw [objectAt, mirrors.within i (Nat.le_of_not_lt outside)] at isObject
  contradiction

theorem passes {p : Address} (mirrors : MirrorsAll s kargs args n)
    (isObject : objectAt args i = some p) : ∃ h, bufferAt kargs i = some h := by
  rw [← Option.ne_none_iff_exists']
  intro none
  rw [mirrors.value i (mirrors.objectAt_lt isObject) none] at isObject
  contradiction

/-- The memory objects are there, and have canaries. -/
theorem canaried {p : Address} (mirrors : MirrorsAll s kargs args n)
    (isObject : objectAt args i = some p) :
    ∃ m, s.memobjs.find p = some m ∧ m.hasCanary := by
  obtain ⟨h, passes⟩ := mirrors.passes isObject
  obtain ⟨p', m, isObject', found, canary⟩ :=
    mirrors.object i (mirrors.objectAt_lt isObject) h passes
  rw [isObject, Option.some.injEq] at isObject'
  exact ⟨m, isObject' ▸ found, canary⟩

theorem firstLive (mirrors : MirrorsAll s kargs args n) :
    FirstLive s args (findDuplicates kargs) := by
  intro i p first
  obtain ⟨m, found, -⟩ := mirrors.canaried (firstObject_eq_some first).2.2
  rw [found]
  rfl

variable (mirrors : MirrorsAll s kargs args kargs.length) (entered : s.MemEntered)

include mirrors

theorem objectAt_isSome : (objectAt args i).isSome = (bufferAt kargs i).isSome := by
  by_cases iLt : i < kargs.length
  · cases passes : bufferAt kargs i with
    | none => rw [mirrors.value i iLt passes]
    | some h =>
        obtain ⟨p, m, isObject, -⟩ := mirrors.object i iLt h passes
        rw [isObject]
        rfl
  · have outside := Nat.le_of_not_lt iLt
    rw [objectAt, mirrors.within i outside, bufferAt, List.getElem?_eq_none outside]
    rfl

/-- Every memory object has a first use. -/
theorem mem_firstObjects_iff {m : MemObj} :
    m ∈ s.firstObjects args (findDuplicates kargs) kargs.length ↔
      ∃ i p, objectAt args i = some p ∧ s.memobjs.find p = some m := by
  rw [firstObjects, List.mem_filterMap]
  constructor
  · rintro ⟨i, -, isFirst⟩
    obtain ⟨p, first, found⟩ := Option.bind_eq_some_iff.mp isFirst
    exact ⟨i, p, (firstObject_eq_some first).2.2, found⟩
  · rintro ⟨i, p, isObject, found⟩
    have iLt := mirrors.objectAt_lt isObject
    have firstLt : firstUse kargs i < kargs.length := (firstUse_le kargs i).trans_lt iLt
    have first : firstObject args (findDuplicates kargs) (firstUse kargs i) = some p := by
      obtain ⟨h, passes⟩ := mirrors.passes isObject
      rw [firstObject_eq firstLt, if_pos (firstUse_firstUse kargs i), ← isObject]
      exact mirrors.shared _ firstLt i iLt h (firstUse_of_some passes).2.1 passes
    exact ⟨firstUse kargs i, List.mem_range.mpr firstLt, by rw [first]; exact found⟩

include entered

/-- No memory object has two. -/
theorem firstObjects_nodup :
    ((s.firstObjects args (findDuplicates kargs) kargs.length).map MemObj.handle).Nodup := by
  rw [firstObjects, List.map_filterMap]
  apply List.Nodup.filterMap _ List.nodup_range
  intro i k h isHandle isHandle'
  obtain ⟨m, isFirst, rfl⟩ := Option.map_eq_some_iff.mp isHandle
  obtain ⟨m', isFirst', same⟩ := Option.map_eq_some_iff.mp isHandle'
  obtain ⟨p, first, found⟩ := Option.bind_eq_some_iff.mp isFirst
  obtain ⟨p', first', found'⟩ := Option.bind_eq_some_iff.mp isFirst'
  obtain ⟨iLt, isUse, isObject⟩ := firstObject_eq_some first
  obtain ⟨kLt, isUse', isObject'⟩ := firstObject_eq_some first'
  -- a live description is the only one with its handle
  have listed := entered p m found
  rw [← same, entered p' m' found'] at listed
  obtain ⟨h, passes⟩ := mirrors.passes isObject
  obtain ⟨h', passes'⟩ := mirrors.passes isObject'
  have same' := mirrors.separate i iLt k kLt h h' passes passes' (by
    rw [isObject, isObject', Option.some.inj listed])
  rw [← isUse, ← isUse']
  exact firstUse_congr passes (same' ▸ passes')

/-- The objects of a kind are listed once. -/
theorem handles_once {kind : MemObj → Bool} {isImage : Bool}
    (isKind : ∀ m, kind m = true ↔ m.isImage = isImage) :
    ListsOnce (((s.firstObjects args (findDuplicates kargs) kargs.length).filter kind).map
      MemObj.handle) (s.Passed args isImage) := by
  constructor
  · exact (mirrors.firstObjects_nodup entered).sublist (List.filter_sublist.map MemObj.handle)
  · intro h
    rw [List.mem_map]
    constructor
    · rintro ⟨m, mem, rfl⟩
      obtain ⟨mem, ofKind⟩ := List.mem_filter.mp mem
      obtain ⟨i, p, isObject, found⟩ := mirrors.mem_firstObjects_iff.mp mem
      exact ⟨i, p, m, isObject, found, (isKind m).mp ofKind, rfl⟩
    · rintro ⟨i, p, m, isObject, found, ofKind, rfl⟩
      refine ⟨m, List.mem_filter.mpr ⟨?_, (isKind m).mpr ofKind⟩, rfl⟩
      exact mirrors.mem_firstObjects_iff.mpr ⟨i, p, isObject, found⟩

omit entered in
/-- The regions are checked when one of them is passed. -/
theorem passesSvm_iff (apart : ∀ karg ∈ kargs, karg.buffer.isSome → karg.svmBuffer = none) :
    PassesSvm args (findDuplicates kargs) kargs.length ↔
      ∃ karg ∈ kargs, karg.svmBuffer.isSome := by
  constructor
  · rintro ⟨i, iLt, -, -, isSvm⟩
    obtain ⟨entry, found, same⟩ := mirrors.svm i kargs[i] iLt (List.getElem?_eq_getElem iLt)
    rw [found, Option.any_some, same] at isSvm
    exact ⟨kargs[i], List.getElem_mem iLt, isSvm⟩
  · rintro ⟨karg, mem, isSvm⟩
    obtain ⟨i, isArg⟩ := List.getElem?_of_mem mem
    have iLt := (List.getElem?_eq_some_iff.mp isArg).1
    obtain ⟨entry, found, same⟩ := mirrors.svm i karg iLt isArg
    have noBuffer : karg.buffer = none := by
      rw [← Option.not_isSome_iff_eq_none]
      intro isObject
      rw [apart karg mem isObject] at isSvm
      contradiction
    have passes : bufferAt kargs i = none := by
      rw [bufferAt, isArg, Option.bind_some, KernelArg.bufferHandle, noBuffer, Option.map_none]
    have isFirst := firstUse_of_none passes
    refine ⟨i, iLt, ?_, by rw [findDuplicates_getElem? iLt, isFirst], ?_⟩
    · rw [firstObject_eq iLt, if_pos isFirst, mirrors.value i iLt passes]
    · rw [found, Option.any_some, same, isSvm]

/-- What the checkers get. -/
theorem checksAll (coherent : s.Coherent) (noNull : s.clSvmMemAlloc.find NULL = none)
    (apart : ∀ karg ∈ kargs, karg.buffer.isSome → karg.svmBuffer = none)
    (few : kargs.length + s.clSvmMemAlloc.entries.length < 4294967296) :
    ChecksAll s args (findDuplicates kargs) kargs.length
      (∃ karg ∈ kargs, karg.svmBuffer.isSome) := by
  refine ⟨fun i p => mirrors.canaried, ?_⟩
  have buffers := (@handles_length_le s args (findDuplicates kargs) kargs.length).1
  have regions : (s.svmChecked args (findDuplicates kargs) kargs.length).length ≤
      s.clSvmMemAlloc.entries.length := svmChecked_length_le coherent noNull
  have uncut : u32 (s.svmChecked args (findDuplicates kargs) kargs.length).length =
      (s.svmChecked args (findDuplicates kargs) kargs.length).length := u32_of_lt (by omega)
  have length : u32 (s.arrayLength args (findDuplicates kargs) kargs.length) =
      (s.bufferHandles args (findDuplicates kargs) kargs.length).length +
        (s.svmChecked args (findDuplicates kargs) kargs.length).length := by
    rw [arrayLength, uncut, u32_of_lt (by omega)]
  have filled := @checkArrays_eq s args (findDuplicates kargs) kargs.length (by omega)
    mirrors.firstLive (by rw [arrayLength]; omega)
  have counted : s.svmCounted args (findDuplicates kargs) kargs.length =
      s.svmChecked args (findDuplicates kargs) kargs.length := by
    rw [svmCounted, uncut, List.take_length, placed_of_length_le (by omega)]
  rw [arraysFor, counted, placed_of_length_le (by omega)] at filled
  refine ⟨_, _, _, filled, mirrors.handles_once entered (by simp),
    mirrors.handles_once entered fun _ => Iff.rfl, ?_⟩
  rw [svmChecked, ← mirrors.passesSvm_iff apart]
  constructor
  · split_ifs
    · exact (svmRegions_nodup coherent noNull).sublist (List.filter_sublist.map SvmObj.handle)
    · exact List.nodup_nil
  · intro h
    split_ifs with passes
    · rw [svmHandles, List.mem_map]
      simp only [mem_liveRegions_iff coherent noNull, passes, true_and]
    · simp [passes]

end MirrorsAll

end KernelState

namespace ArgSystem

open KernelState

variable {sys sys' start : ArgSystem} {kernel clone : Handle} {info : KernelInfo}
  {kern : RuntimeKernel} {i : Nat}

/-! ## The kernel that is launched -/

/-- A kernel that needs no clone is checked as it is. -/
theorem Ready.mirrorsAll (ready : Ready sys kernel info kern) (inv : Inv sys)
    (canaried : needInternalBuffer (resolved sys.s info) = false) :
    MirrorsAll sys.s (resolved sys.s info) info.argList (resolved sys.s info).length := by
  constructor
  case toMirrors =>
    constructor
    case within =>
      intro j outside
      cases found : info.argList.find j with
      | none => rfl
      | some entry =>
          have inside := ready.index_lt found
          rw [← ready.length] at inside
          omega
    case svm => exact fun j karg _ isArg => ready.svm_isSome inv isArg
    case object =>
      intro j jLt h passes
      obtain ⟨p, m, isObject, found, -⟩ := (ready.bufferAt_eq_some_iff inv).mp passes
      refine ⟨p, m, isObject, found, ?_⟩
      have isArg := List.getElem?_eq_getElem jLt
      obtain ⟨entry, arg, isEntry, isKarg, -⟩ := ready.at_index inv isArg
      rw [objectAt, isEntry, Option.bind_some] at isObject
      have isBuffer : (resolved sys.s info)[j].buffer = some m := by
        rw [isKarg, resolve, isObject, Option.bind_some, found]
      rw [needInternalBuffer, List.any_eq_false] at canaried
      have canary := canaried _ (List.getElem_mem jLt)
      rw [isBuffer, Option.any_some] at canary
      simpa using canary
    case shared =>
      intro j jLt k kLt h passes passes'
      obtain ⟨p, m, isObject, found, isHandle⟩ := (ready.bufferAt_eq_some_iff inv).mp passes
      obtain ⟨p', m', isObject', found', isHandle'⟩ := (ready.bufferAt_eq_some_iff inv).mp passes'
      have listed := inv.entered p m found
      rw [isHandle, ← isHandle', inv.entered p' m' found', Option.some.injEq] at listed
      rw [isObject, isObject', listed]
    case separate =>
      intro j jLt k kLt h h' passes passes' same
      obtain ⟨p, m, isObject, found, isHandle⟩ := (ready.bufferAt_eq_some_iff inv).mp passes
      obtain ⟨p', m', isObject', found', isHandle'⟩ := (ready.bufferAt_eq_some_iff inv).mp passes'
      rw [isObject, isObject', Option.some.injEq] at same
      rw [same, found', Option.some.injEq] at found
      rw [← isHandle, ← isHandle', found]
  case value =>
    intro j _ passes
    have isSome := ready.objectAt_isSome inv (i := j)
    rw [passes] at isSome
    exact Option.not_isSome_iff_eq_none.mp (isSome ▸ Bool.false_ne_true)

/-! ## Launches -/

/-- The kernel that `createPoisonedKernel` returns. -/
def poisonedKernel (s : KernelState) (info : KernelInfo) (kernel clone : Handle) : Handle :=
  if needInternalBuffer (resolved s info) then clone else kernel

/-- What is promised of a launch: the kernel that runs leads to memory objects where the
one that was launched does, and all that it leads to is checked. -/
def ChecksLaunch (sys sys' : ArgSystem) (kernel clone : Handle) (info : KernelInfo) (nargs : Nat)
    (passesSvm : Prop) : Prop :=
  ∃ info', sys'.s.kinfoFind (poisonedKernel sys.s info kernel clone) = some info' ∧
    (∀ i, (objectAt info'.argList i).isSome = (objectAt info.argList i).isSome) ∧
    ChecksAll sys'.s info'.argList (findDuplicates (resolved sys.s info)) nargs passesSvm

/-- A launch of a kernel whose arguments are all set, which gets to its end. -/
structure Launched (sys sys' : ArgSystem) (kernel clone : Handle) (objects : List MemObj)
    (info : KernelInfo) (kern : RuntimeKernel) : Prop extends Ready sys kernel info kern where
  ran : sys.createPoisonedKernel kernel clone objects = some sys'
  new : ∀ object ∈ objects, IsNewBuffer object
  few : kern.params.length + sys.s.clSvmMemAlloc.entries.length < 4294967296

/-- No argument that is passed by value has the bytes of a handle that is known when the
clone gets it. -/
def Unlike (sys : ArgSystem) (objects : List MemObj) (info : KernelInfo) : Prop :=
  ∀ h, ValueBits (resolved sys.s info) h →
    sys.s.clMemAlloc.find h = none ∧ ∀ object ∈ objects, object.handle ≠ h

/-- An argument is an SVM pointer for which a region was found when it was set. -/
def PassesRegion (info : KernelInfo) : Prop :=
  ∃ i entry, info.argList.find i = some entry ∧ entry.svmBuffer.isSome

theorem Ready.passesRegion_iff (ready : Ready sys kernel info kern) (inv : Inv sys) :
    (∃ karg ∈ resolved sys.s info, karg.svmBuffer.isSome) ↔ PassesRegion info := by
  constructor
  · rintro ⟨karg, mem, isSvm⟩
    obtain ⟨i, isArg⟩ := List.getElem?_of_mem mem
    obtain ⟨entry, found, same⟩ := ready.svm_isSome inv isArg
    exact ⟨i, entry, found, same.trans isSvm⟩
  · rintro ⟨i, entry, found, isSvm⟩
    have iLt : i < (resolved sys.s info).length := ready.length.symm ▸ ready.index_lt found
    obtain ⟨entry', found', same⟩ := ready.svm_isSome inv (List.getElem?_eq_getElem iLt)
    rw [found, Option.some.injEq] at found'
    rw [← found', isSvm] at same
    exact ⟨_, List.getElem_mem iLt, same.symm⟩

/-- What the kernel that runs leads to. -/
theorem Launched.mirrors (launched : Launched sys sys' kernel clone objects info kern)
    (inv : Inv sys) (svm : SvmEntered sys.s)
    (unlike : needInternalBuffer (resolved sys.s info) → Unlike sys objects info) :
    Inv sys' ∧ KeepsSvm sys.s sys'.s ∧
      ∃ info', sys'.s.kinfoFind (poisonedKernel sys.s info kernel clone) = some info' ∧
        MirrorsAll sys'.s (resolved sys.s info) info'.argList (resolved sys.s info).length := by
  have ready := launched.toReady
  rw [poisonedKernel]
  by_cases needs : needInternalBuffer (resolved sys.s info)
  · have ran := launched.ran
    rw [ready.createPoisonedKernel_eq, if_pos needs] at ran
    obtain ⟨start, created, ran⟩ := Option.bind_eq_some_iff.mp ran
    have mirroring := ready.mirroring inv svm
      (fun object mem => (launched.new object mem).hasCanary) created ran
    have mirrors : MirrorsAll sys'.s (resolved sys.s info) (sys'.s.argsOf clone)
        kern.params.length := by
      refine ⟨mirroring.mirrors, fun j jLt none => ?_⟩
      rcases mirroring.value j jLt none with noObject | ⟨h, p, isValue, isListed⟩
      · exact noObject
      · rcases mirroring.known h p isListed with before | ⟨object, mem, same⟩
        · rw [(unlike needs h isValue).1] at before
          contradiction
        · exact absurd same ((unlike needs h isValue).2 object mem)
    rw [← ready.length] at mirrors
    refine ⟨(ready.cloned inv created ran).inv, mirroring.keepsSvm, ?_⟩
    rw [if_pos needs]
    cases found : sys'.s.kinfoFind clone with
    | some info' =>
        rw [argsOf, found] at mirrors
        exact ⟨info', rfl, mirrors⟩
    | none =>
        -- a kernel without arguments is not cloned
        obtain ⟨karg, mem, -⟩ := List.any_eq_true.mp needs
        obtain ⟨i, isArg⟩ := List.getElem?_of_mem mem
        obtain ⟨entry, isEntry, -⟩ :=
          mirrors.svm i karg (List.getElem?_eq_some_iff.mp isArg).1 isArg
        rw [find_argsOf, found] at isEntry
        contradiction
  · have ran := launched.ran
    rw [ready.createPoisonedKernel_eq, if_neg needs] at ran
    obtain rfl := Option.some.inj ran
    rw [if_neg needs]
    exact ⟨inv, KeepsSvm.refl _, info, ready.described,
      ready.mirrorsAll inv (Bool.eq_false_iff.mpr needs)⟩

/-- In every run, all that a launched kernel was given is checked, when no argument that is
passed by value to a clone has the bytes of a handle that is known by then. -/
theorem checksLaunch_of_run (run : Run.Reach step (fun _ _ => True) initial sys)
    (launched : Launched sys sys' kernel clone objects info kern)
    (unlike : needInternalBuffer (resolved sys.s info) → Unlike sys objects info) :
    ChecksLaunch sys sys' kernel clone info kern.params.length (PassesRegion info) := by
  obtain ⟨inv, svm⟩ := svmEntered_of_run run
  have ready := launched.toReady
  obtain ⟨inv', keepsSvm, info', found, mirrors⟩ := launched.mirrors inv svm unlike
  have svm' := svm.keep keepsSvm
  have few := launched.few
  rw [← ready.length, ← keepsSvm.2] at few
  have checks := mirrors.checksAll inv'.entered inv'.coherent svm'.noNull (ready.separate inv) few
  rw [ready.passesRegion_iff inv, ready.length] at checks
  refine ⟨info', found, fun i => ?_, checks⟩
  rw [mirrors.objectAt_isSome, ready.objectAt_isSome inv]

/-- The buffer that takes the place of one of four bytes. -/
def fourBytes : MemObj := bufferObject 2 1 7 { bufferFlags {} with copyHostPtr := true } 4 NULL

theorem isNewBuffer_fourBytes : IsNewBuffer fourBytes :=
  ⟨grantAll, Wrapper.initial (fun _ => 5) false, { handle := 11, context := 7, size := 4 }, _, rfl,
    by decide, rfl, rfl⟩

/-- No argument that is passed by value is as long as a handle. -/
theorem unlike_of_forall (short : ∀ karg ∈ resolved sys.s info,
    ¬ (karg.buffer = none ∧ karg.svmBuffer = none ∧ karg.size = SIZEOF_MEM)) :
    Unlike sys objects info := by
  rintro h ⟨karg, mem, noBuffer, noSvm, size, -⟩
  exact absurd ⟨noBuffer, noSvm, size⟩ (short karg mem)

/-- A buffer without canary, a pointer into a region, and a number. -/
theorem checksLaunch_of_run_threeArgs : ∃ sys sys' info kern,
    Launched sys sys' 3 4 [fourBytes] info kern ∧ PassesRegion info ∧
      ChecksLaunch sys sys' 3 4 info 3 (PassesRegion info) := by
  have launched : ∃ sys sys' info kern, Run.Reach step (fun _ _ => True) initial sys ∧
      Launched sys sys' 3 4 [fourBytes] info kern ∧ Unlike sys [fourBytes] info ∧
        kern.params.length = 3 ∧ PassesRegion info := by
    refine ⟨_, _, _, _, Run.reach_of_foldlM (threeArgs 8200) rfl,
      ⟨⟨rfl, rfl, rfl, by decide⟩, rfl, ?_, by decide⟩, unlike_of_forall (by decide), rfl,
      ⟨1, _, rfl, rfl⟩⟩
    intro object mem
    rw [List.mem_singleton.mp mem]
    exact isNewBuffer_fourBytes
  obtain ⟨sys, sys', info, kern, run, launched, unlike, three, passes⟩ := launched
  have checks := checksLaunch_of_run run launched fun _ => unlike
  rw [three] at checks
  exact ⟨sys, sys', info, kern, launched, passes, checks⟩

/-- An argument is an SVM pointer. -/
def PassesPointer (kern : RuntimeKernel) : Prop := ∃ i pointer, kern.args i = some (.svm pointer)

/-- A pointer outside the only region, which is not checked, and a number with the bytes
of a handle that is created before the launch: the clone leads to a buffer without
canary. -/
theorem not_checksLaunch :
    (∃ sys sys' info kern, Run.Reach step (fun _ _ => True) initial sys ∧
      Launched sys sys' 3 4 [] info kern ∧ Unlike sys [] info ∧
        ¬ ChecksLaunch sys sys' 3 4 info 1 (PassesPointer kern)) ∧
    ∃ sys sys' info kern, Run.Reach step (fun _ _ => True) initial sys ∧
      Launched sys sys' 3 4 [fourBytes] info kern ∧
        ¬ ChecksLaunch sys sys' 3 4 info 2 (PassesPointer kern) := by
  constructor
  · have made : ∃ sys sys' info kern info' region, Run.Reach step (fun _ _ => True) initial sys ∧
        Launched sys sys' 3 4 [] info kern ∧ Unlike sys [] info ∧
        kern.args 0 = some (.svm 100) ∧ sys'.s.LiveRegion region ∧
        sys'.s.kinfoFind (poisonedKernel sys.s info 3 4) = some info' ∧
        sys'.s.checkArrays info'.argList (findDuplicates (resolved sys.s info)) 1 =
          some ⟨[], [], 0, 0, 0⟩ := by
      refine ⟨_, _, _, _, _, { handle := 8192, mainBuff := 4096, context := 1, size := 64 },
        Run.reach_of_foldlM
          [.createSvm { handle := 8192, mainBuff := 4096, context := 1, size := 64 },
            .createKernel 3 [.pointer], .setSvmArg 3 0 100] rfl,
        ⟨⟨rfl, rfl, rfl, by decide⟩, rfl, fun _ mem => absurd mem List.not_mem_nil,
          by decide⟩, unlike_of_forall (by decide), rfl,
        ⟨⟨_, rfl, rfl⟩, rfl⟩, rfl, ?_⟩
      decide +kernel
    obtain ⟨sys, sys', info, kern, info', region, run, launched, unlike, given, live, isInfo,
      unfilled⟩ := made
    refine ⟨sys, sys', info, kern, run, launched, unlike, ?_⟩
    rintro ⟨info'', isInfo', -, -, buffers, regions, images, filled, -, -, -, all⟩
    rw [isInfo, Option.some.injEq] at isInfo'
    rw [← isInfo', unfilled, Option.some.injEq] at filled
    have isEmpty : 0 = regions.length := congrArg CheckArrays.numSVM filled
    have checked := (all region.handle).mpr ⟨⟨0, 100, given⟩, region, live, rfl⟩
    rw [List.length_eq_zero_iff.mp isEmpty.symm] at checked
    contradiction
  · have made : ∃ sys sys' info kern info', Run.Reach step (fun _ _ => True) initial sys ∧
        Launched sys sys' 3 4 [fourBytes] info kern ∧
        sys'.s.kinfoFind (poisonedKernel sys.s info 3 4) = some info' ∧
        objectAt info'.argList 1 = some 2 ∧
        (sys'.s.memobjs.find 2).map MemObj.hasCanary = some false := by
      refine ⟨_, _, _, _, _, Run.reach_of_foldlM
        [.createMem { handle := 11, context := 7, size := 4 },
          .createKernel 3 [.pointer, .value 8], .setArg 3 0 8 (some 11), .setArg 3 1 8 (some 12),
          .createMem { handle := 12, context := 7, size := 4 }] rfl,
        ⟨⟨rfl, rfl, rfl, by decide⟩, rfl, ?_, by decide⟩, rfl, rfl, rfl⟩
      intro object mem
      rw [List.mem_singleton.mp mem]
      exact isNewBuffer_fourBytes
    obtain ⟨sys, sys', info, kern, info', run, launched, isInfo, isObject, noCanary⟩ := made
    refine ⟨sys, sys', info, kern, run, launched, ?_⟩
    rintro ⟨info'', isInfo', -, canaried, -⟩
    rw [isInfo, Option.some.injEq] at isInfo'
    obtain ⟨m, found, canary⟩ := canaried 1 2 (isInfo' ▸ isObject)
    rw [found, Option.map_some, canary] at noCanary
    contradiction

end ArgSystem

end Clarmor
