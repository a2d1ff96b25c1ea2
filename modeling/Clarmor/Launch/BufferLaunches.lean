import Clarmor.Launch.CloneContents

/-!
# Launches on buffers

A launch from `createPoisonedKernel` to `delPoisonKernel`, for kernels that get buffers,
plain values and sizes of local memory.  Whatever mix of buffers a kernel gets, the buffers
of the application hold afterwards what the kernel leaves on its own arguments, unless a
plain value has the bits of a buffer without canaries: the clone then gets a new buffer's
handle in its place.
-/

namespace Clarmor

open Access

variable {A : Type} [DecidableEq A]

namespace LaunchState

open ArgSystem KernelState

/-- `delPoisonKernel`.  The descriptions of the clone go; the memory stays as it is. -/
def delPoisonKernel (delKern : Handle) (dupe : List Nat) (st : LaunchState A) : LaunchState A :=
  let s := (List.range dupe.length).foldl (fun s i => s.delPoisonArg delKern dupe i) st.sys.s
  { st with sys := { st.sys with s := s.clReleaseKernel delKern } }

/-- `kernelLaunchFunc`, to its end. -/
def launchWhole {params : List Param} (place : Handle → Nat → A) (code : KernelCode params)
    (kernel clone : Handle) (objects : List MemObj) (st : LaunchState A) :
    Option (LaunchState A) :=
  (st.sys.s.kinfoFind kernel).bind fun kinfo =>
  let dupe := findDuplicates (resolved st.sys.s kinfo)
  (st.createPoisonedKernel place kernel clone objects).bind fun temp =>
  (temp.2.runNDRangeKernel place code temp.1).bind fun st =>
  if temp.1 ≠ kernel then
    (st.copyKernelBuffers place kernel temp.1 dupe).map (delPoisonKernel temp.1 dupe)
  else some st

/-- The handles of the buffers that a launch has to do with. -/
def Involved (objects : List MemObj) (kern : RuntimeKernel) (h : Handle) : Prop :=
  (∃ i, passedObject kern i = some h) ∨ ∃ object ∈ objects, object.handle = h

/-- The arguments of a kernel are set to buffers that the wrapper knows, to values and to
sizes of local memory.  Different buffers lie apart.  Where a clone is needed, it and its
buffers can be made. -/
structure OnBuffers (place : Handle → Nat → A) (size : Handle → Nat) (sys : ArgSystem)
    (kernel clone : Handle) (objects : List MemObj) (info : KernelInfo) (kern : RuntimeKernel) :
    Prop extends Ready sys kernel info kern where
  noSvm : ∀ i pointer, kern.args i ≠ some (.svm pointer)
  buffers : ∀ i h, passedObject kern i = some h → ∃ p m, objectAt info.argList i = some p ∧
    sys.s.memobjs.find p = some m ∧ m.isImage = false ∧ size h = m.size
  apart : ∀ h h', Involved objects kern h → Involved objects kern h' → ∀ o o', o < size h →
    o' < size h' → place h o = place h' o' → h = h' ∧ o = o'
  clonable : needInternalBuffer (resolved sys.s info) → (clone ≠ NULL ∧
    sys.kernels.find clone = none) ∧
      Creates sys.s objects (replacedArgs (resolved sys.s info)).length
  new : ∀ object ∈ objects, size object.handle = object.size ∧ object.isImage = false
  fits : ∀ i m object, isNew (resolved sys.s info) i → oldObject (resolved sys.s info) i = some m →
    objects[rank (resolved sys.s info) i]? = some object → object.size = m.size

/-- No plain value has the bits of a memory object without canaries. -/
def PlainValues (sys : ArgSystem) (kern : RuntimeKernel) : Prop :=
  ∀ i param h, kern.params[i]? = some param → param.isObject = false →
    kern.args i = some (.memory SIZEOF_MEM (some h)) →
      ∀ p m, sys.s.memobjs.find p = some m → m.handle = h → m.hasCanary = true

/-- After the launch the buffers hold what the kernel leaves on its own arguments, and what
is none of its arguments is unchanged. -/
def Transparent (place : Handle → Nat → A) (size : Handle → Nat) (kernel clone : Handle)
    (objects : List MemObj) (kern : RuntimeKernel) (code : KernelCode kern.params)
    (start : LaunchState A) : Prop :=
  ∃ st, start.launchWhole place code kernel clone objects = some st ∧
    ∀ a ∉ newCells place objects,
      st.memory a = (code.body kern.args).exec (argPlace place kern) start.memory a ∧
      ((∀ i o, o < argBytes size kern i → argPlace place kern i o ≠ a) →
        st.memory a = start.memory a)

variable {place : Handle → Nat → A} {size : Handle → Nat} {objects : List MemObj}
  {kernel clone : Handle} {start : LaunchState A} {info : KernelInfo} {kern : RuntimeKernel}

/-- The end of the clone changes no contents. -/
theorem launchWhole_of_kernelLaunchFunc {params : List Param} {code : KernelCode params}
    {st : LaunchState A}
    (launched : start.kernelLaunchFunc place code kernel clone objects = some st) :
    ∃ st', start.launchWhole place code kernel clone objects = some st' ∧
      st'.memory = st.memory := by
  unfold kernelLaunchFunc at launched
  obtain ⟨kinfo, isInfo, launched⟩ := Option.bind_eq_some_iff.mp launched
  obtain ⟨temp, created, launched⟩ := Option.bind_eq_some_iff.mp launched
  obtain ⟨ran, runs, launched⟩ := Option.bind_eq_some_iff.mp launched
  rw [launchWhole, isInfo, Option.bind_some, created, Option.bind_some, runs, Option.bind_some]
  split_ifs at launched ⊢ with cloned
  · rw [launched, Option.map_some]
    exact ⟨_, rfl, rfl⟩
  · exact ⟨st, launched, rfl⟩

/-- An argument that is taken for a buffer without canaries is one. -/
theorem isObject_of_plainValues {sys : ArgSystem} (inv : ArgSystem.Inv sys)
    (ready : Ready sys kernel info kern) (plain : PlainValues sys kern)
    {i : Nat} {p : Address} {m : MemObj}
    (leads : objectAt info.argList i = some p) (found : sys.s.memobjs.find p = some m)
    (noCanary : m.hasCanary = false) :
    ∃ param, kern.params[i]? = some param ∧ param.isObject := by
  obtain ⟨entry, isEntry, buffer⟩ := Option.bind_eq_some_iff.mp leads
  obtain ⟨kern', arg, isKern, given, describes⟩ :=
    inv.tracks kernel info ready.described i entry isEntry
  obtain rfl := Option.some.inj (ready.isKernel.symm.trans isKern)
  obtain ⟨rfl, -⟩ := Ready.memory_of_buffer describes buffer found
  have isParam := List.getElem?_eq_getElem (ready.index_lt isEntry)
  refine ⟨_, isParam, ?_⟩
  by_contra value
  have canary := plain i _ m.handle isParam (Bool.eq_false_iff.mpr value) given p m found rfl
  rw [noCanary] at canary
  contradiction

omit [DecidableEq A] in
/-- Such a launch meets what the simulation of the clone needs. -/
theorem OnBuffers.replaceable (inv : ArgSystem.Inv start.sys)
    (onBuffers : OnBuffers place size start.sys kernel clone objects info kern)
    (plain : PlainValues start.sys kern) (needs : needInternalBuffer (resolved start.sys.s info)) :
    Replaceable place size (Involved objects kern) start.sys kernel clone objects info kern := by
  have ready := onBuffers.toReady
  obtain ⟨fresh, creates⟩ := onBuffers.clonable needs
  refine ⟨⟨ready, needs, fresh, creates⟩, fun i h passes => ?_, ⟨?_, ?_⟩, ⟨onBuffers.apart, ?_, ?_,
    onBuffers.fits⟩⟩
  · obtain ⟨p, m, leads, -⟩ := onBuffers.buffers i h passes
    exact ⟨Or.inl ⟨i, passes⟩, p, leads⟩
  · exact fun i pointer given => absurd given (onBuffers.noSvm i pointer)
  · intro i entry p m isEntry buffer found noCanary
    refine isObject_of_plainValues inv ready plain ?_ found noCanary
    rw [objectAt, isEntry, Option.bind_some, buffer]
  · intro i m isOld noCanary
    rw [oldObject_resolved ready inv] at isOld
    obtain ⟨p, leads, found⟩ := Option.bind_eq_some_iff.mp isOld
    obtain ⟨param, isParam, isObject⟩ :=
      isObject_of_plainValues inv ready plain leads found noCanary
    have passes := (passes_of_object ready inv isParam isObject leads found).2
    obtain ⟨p', m', leads', found', notImage, isSize⟩ := onBuffers.buffers i m.handle passes
    obtain rfl := Option.some.inj (leads.symm.trans leads')
    obtain rfl := Option.some.inj (found.symm.trans found')
    exact ⟨Or.inl ⟨i, passes⟩, isSize, notImage⟩
  · intro object mem
    exact ⟨Or.inr ⟨object, mem, rfl⟩, onBuffers.new object mem⟩

/-- In every run, a launch on buffers is transparent. -/
theorem transparent_of_run (run : Run.Reach step (fun _ _ => True) initial start.sys)
    (onBuffers : OnBuffers place size start.sys kernel clone objects info kern)
    (plain : PlainValues start.sys kern) (code : KernelCode kern.params)
    (inBounds : (code.body kern.args).InBounds (argBytes size kern) (argPlace place kern)
      start.memory) :
    Transparent place size kernel clone objects kern code start := by
  have inv := inv_of_run run
  obtain ⟨st, launched, same⟩ := launched_of_ready inv onBuffers.toReady
    (fun needs => onBuffers.replaceable inv plain needs) code inBounds
  obtain ⟨st', whole, memory⟩ := launchWhole_of_kernelLaunchFunc launched
  refine ⟨st', whole, fun a outside => ?_⟩
  rw [memory, same a outside]
  exact ⟨rfl, fun unnamed => Program.exec_frame inBounds unnamed⟩

/-- A kernel that gets one buffer twice, and copies a byte of it when it does; besides a
number and local memory. -/
def mixedCode : KernelCode [.pointer, .pointer, .pointer, .value 8, .localMemory] where
  body args :=
    if args 0 = args 2 then .load 2 0 fun byte => .store 0 1 byte (.store 1 0 byte .done)
    else .done
  blind args args' alike := by
    simp only [alike.aliased 0 2 .pointer .pointer rfl rfl rfl rfl]

/-- A buffer without canary, one with canaries, and a kernel that gets the first one twice, the
number 5 and 64 bytes of local memory. -/
def mixedCalls : List ArgCall :=
  [.createMem { handle := 11, size := 2 },
    .createMem { handle := 12, size := 1, hasCanary := true },
    .createKernel 3 [.pointer, .pointer, .pointer, .value 8, .localMemory],
    .setArg 3 0 8 (some 11), .setArg 3 1 8 (some 12), .setArg 3 2 8 (some 11),
    .setArg 3 3 8 (some 5), .setArg 3 4 64 none]

/-- This kernel gets buffers, a number and local memory. -/
theorem onBuffers_mixed : ∃ sys info args, Run.Reach step (fun _ _ => True) initial sys ∧
    OnBuffers Prod.mk (fun h => if h = 12 then 1 else 2) sys 3 4
      [{ handle := 21, size := 2, hasCanary := true }] info
      ⟨[.pointer, .pointer, .pointer, .value 8, .localMemory], args⟩ ∧
    PlainValues sys ⟨[.pointer, .pointer, .pointer, .value 8, .localMemory], args⟩ ∧
    args 0 = some (.memory SIZEOF_MEM (some 11)) ∧ args 1 = some (.memory SIZEOF_MEM (some 12)) ∧
    args 2 = some (.memory SIZEOF_MEM (some 11)) := by
  have run : Run.Reach step (fun _ _ => True) initial _ := Run.reach_of_foldlM mixedCalls rfl
  refine ⟨_, _, _, run, ⟨⟨rfl, rfl, rfl, by decide⟩, ?_, ?_, ?_, fun _ => ⟨⟨by decide, rfl⟩,
    creates_single (by decide) rfl⟩, ?_, ?_⟩, ?_, rfl, rfl, rfl⟩
  · intro i pointer given
    rcases i with _ | _ | _ | _ | _ | i
    all_goals first
      | exact absurd (Option.some.inj given) RuntimeArg.noConfusion
      | contradiction
  · intro i h passes
    rcases i with _ | _ | _ | _ | _ | i
    · obtain rfl := Option.some.inj passes
      exact ⟨_, _, rfl, rfl, rfl, rfl⟩
    · obtain rfl := Option.some.inj passes
      exact ⟨_, _, rfl, rfl, rfl, rfl⟩
    · obtain rfl := Option.some.inj passes
      exact ⟨_, _, rfl, rfl, rfl, rfl⟩
    all_goals contradiction
  · intro h h' _ _ o o' _ _ same
    exact Prod.mk.inj same
  · intro object mem
    rw [List.mem_singleton.mp mem]
    decide
  · intro i m object new isOld here
    rcases i with _ | _ | _ | _ | _ | i
    · obtain rfl := Option.some.inj isOld
      obtain rfl := Option.some.inj here
      rfl
    all_goals contradiction
  · intro i param h isParam value given p m found same
    rcases i with _ | _ | _ | _ | _ | i
    · obtain rfl := Option.some.inj isParam
      contradiction
    · obtain rfl := Option.some.inj isParam
      contradiction
    · obtain rfl := Option.some.inj isParam
      contradiction
    · obtain rfl : 5 = h := Option.some.inj (RuntimeArg.memory.inj (Option.some.inj given)).2
      have entered := (inv_of_run run).entered p m found
      rw [same] at entered
      contradiction
    · exact absurd (RuntimeArg.memory.inj (Option.some.inj given)).1 (by decide)
    · contradiction

/-- The clone copies the byte that the kernel would have copied. -/
theorem transparent_of_run_mixed : ∃ sys memory st, Run.Reach step (fun _ _ => True) initial sys ∧
    (⟨sys, memory⟩ : LaunchState (Handle × Nat)).launchWhole Prod.mk mixedCode 3 4
      [{ handle := 21, size := 2, hasCanary := true }] = some st ∧
    memory (11, 0) = 7 ∧ st.memory (11, 1) = 7 ∧ st.memory (12, 0) = 7 ∧
    st.memory (13, 0) = memory (13, 0) := by
  obtain ⟨sys, info, args, run, onBuffers, plain, first, second, third⟩ := onBuffers_mixed
  have passed : ∀ i h, i < 3 → args i = some (.memory SIZEOF_MEM (some h)) →
      passedObject ⟨[.pointer, .pointer, .pointer, .value 8, .localMemory], args⟩ i = some h := by
    intro i h iLt given
    rw [passedObject]
    dsimp only
    rw [given]
    interval_cases i <;> rfl
  have body : mixedCode.body args =
      .load 2 0 fun byte => .store 0 1 byte (.store 1 0 byte .done) :=
    if_pos (first.trans third.symm)
  have buffer := passed 0 11 (by decide) first
  have canaried := passed 1 12 (by decide) second
  have again := passed 2 11 (by decide) third
  obtain ⟨st, launched, same⟩ := @transparent_of_run (Handle × Nat) _ Prod.mk
    (fun h => if h = 12 then 1 else 2) [{ handle := 21, size := 2, hasCanary := true }] 3 4
    ⟨sys, fun a => if a = (11, 0) then 7 else 0⟩ info _ run onBuffers plain mixedCode (by
      rw [body]
      simp [Program.InBounds, argBytes, buffer, canaried, again])
  refine ⟨sys, _, st, run, launched, rfl, ?_, ?_, ?_⟩
  · rw [(same _ (not_mem_newCells_single (by decide))).1, body]
    simp [Program.exec, argPlace, buffer, canaried, again]
  · rw [(same _ (not_mem_newCells_single (by decide))).1, body]
    simp [Program.exec, argPlace, buffer, canaried, again]
  · rw [(same _ (not_mem_newCells_single (by decide))).1, body]
    simp [Program.exec, argPlace, buffer, canaried, again]

/-- A kernel that looks at a number. -/
def numberCode : KernelCode [.pointer, .value 8] where
  body args := .store 0 0 (if args 1 = some (.memory 8 (some 11)) then 1 else 2) .done
  blind args args' alike := by
    rcases alike.same 1 with same | ⟨param, _, _, isParam, isObject, -⟩
    · rw [same]
    · obtain rfl := Option.some.inj isParam
      contradiction

/-- A kernel with a buffer without canary and a number that has the bits of its handle. -/
def numberCalls : List ArgCall :=
  [.createMem { handle := 11, size := 1 }, .createKernel 3 [.pointer, .value 8],
    .setArg 3 0 8 (some 11), .setArg 3 1 8 (some 11)]

/-- This kernel writes 1, and its clone writes 2. -/
theorem not_transparent_number : ∃ start info args,
    Run.Reach step (fun _ _ => True) initial start.sys ∧
      OnBuffers Prod.mk (fun _ => 1) start.sys 3 4
        [{ handle := 21, size := 1, hasCanary := true }] info ⟨[.pointer, .value 8], args⟩ ∧
      (numberCode.body args).InBounds (argBytes (fun _ => 1) ⟨[.pointer, .value 8], args⟩)
        (argPlace Prod.mk ⟨[.pointer, .value 8], args⟩) start.memory ∧
      ¬ Transparent Prod.mk (fun _ => 1) 3 4 [{ handle := 21, size := 1, hasCanary := true }]
        ⟨[.pointer, .value 8], args⟩ numberCode start := by
  have run : Run.Reach step (fun _ _ => True) initial _ := Run.reach_of_foldlM numberCalls rfl
  refine ⟨⟨_, fun _ => 0⟩, _, _, run, ⟨⟨rfl, rfl, rfl, by decide⟩, ?_, ?_, ?_,
    fun _ => ⟨⟨by decide, rfl⟩, creates_single (by decide) rfl⟩, ?_, ?_⟩, ?_, ?_⟩
  · intro i pointer given
    rcases i with _ | _ | i
    all_goals first
      | exact absurd (Option.some.inj given) RuntimeArg.noConfusion
      | contradiction
  · intro i h passes
    rcases i with _ | _ | i
    · obtain rfl := Option.some.inj passes
      exact ⟨_, _, rfl, rfl, rfl, rfl⟩
    all_goals contradiction
  · intro h h' _ _ o o' _ _ same
    exact Prod.mk.inj same
  · intro object mem
    rw [List.mem_singleton.mp mem]
    decide
  · intro i m object new isOld here
    rcases i with _ | _ | i
    · obtain rfl := Option.some.inj isOld
      obtain rfl := Option.some.inj here
      rfl
    all_goals contradiction
  · exact ⟨by decide, trivial⟩
  · rintro ⟨st, launched, same⟩
    have native := (same (11, 0) (not_mem_newCells_single (by decide))).1
    have cloned : st.memory (11, 0) = 2 := by
      rw [← Option.some.inj launched]
      rfl
    rw [cloned] at native
    exact absurd native (by decide)

end LaunchState

end Clarmor
