import Clarmor.Library.Run
import Clarmor.Launch.Reports
import Clarmor.Runtime.Kernels

/-!
# What a clone runs with

`createPoisonedKernel` sets the arguments of the clone from the descriptions that
were entered when the arguments of the kernel were set.  Next to the descriptions
the runtime's own arguments are kept here, which the application sets through the
wrapper, so that those of the clone can be compared with those of the kernel.

A run also has the calls that create and release what the arguments are, and the
launches, with the end of their clones.
-/

namespace Clarmor

/-- The wrapper's descriptions and the kernels of the runtime, which are never
released there. -/
structure ArgSystem where
  s : KernelState
  kernels : Table Handle RuntimeKernel

/-- The calls of the application, and of the detector on the clones. -/
inductive ArgCall where
  | createMem (item : MemObj)
  | retainMem (memobj : Handle)
  | releaseMem (memobj : Handle)
  | createSvm (item : SvmObj)
  | freeSvm (svmPointer : Nat)
  | createKernel (kernel : Handle) (params : List Param)
  | setArg (kernel : Handle) (argIndex argSize : Nat) (argValue : Option Nat)
  | setSvmArg (kernel : Handle) (argIndex argValue : Nat)
  | retainKernel (kernel : Handle)
  | releaseKernel (kernel : Handle)
  | createPoisoned (kernel clone : Handle) (objects : List MemObj)
  | delPoisonArg (delKern : Handle) (dupe : List Nat) (i : Nat)

namespace ArgSystem

/-- The start of a process. -/
def initial : ArgSystem := ⟨KernelState.initial, Table.empty⟩

/-- Set an argument in the runtime, and enter its description when the runtime
accepts it. -/
def enter (sys : ArgSystem) (kernel : Handle) (argIndex : Nat) (arg : RuntimeArg)
    (entry : ArgEntry) : Option ArgSystem :=
  (sys.kernels.find kernel).bind fun kern =>
  (kern.setKernelArg argIndex arg).map fun kern =>
    { s := sys.s.enterArg kernel argIndex entry
      kernels := sys.kernels.modify kernel fun _ => kern }

/-- `clSetKernelArg`, unless it returns an error. -/
def clSetKernelArg (sys : ArgSystem) (kernel : Handle) (argIndex argSize : Nat)
    (argValue : Option Nat) : Option ArgSystem :=
  sys.enter kernel argIndex (.memory argSize argValue) (sys.s.memArg argSize argValue)

/-- `clSetKernelArgSVMPointer`, unless it returns an error. -/
def clSetKernelArgSVMPointer (sys : ArgSystem) (kernel : Handle) (argIndex argValue : Nat) :
    Option ArgSystem :=
  if argValue = NULL then none
  else sys.enter kernel argIndex (.svm argValue) (sys.s.svmArg argValue)

/-- A new kernel of the runtime. -/
def clCreateKernel (sys : ArgSystem) (kernel : Handle) (params : List Param) : Option ArgSystem :=
  if kernel ≠ NULL ∧ sys.kernels.find kernel = none then
    some { sys with kernels := sys.kernels.insert kernel (RuntimeKernel.create params) }
  else none

/-- One turn of the loop of `createPoisonedKernel`.  An error ends the process. -/
def setCloneArg (args : List KernelArg) (clone : Handle) (i : Nat) (objects : List MemObj)
    (sys : ArgSystem) : Option (List MemObj × ArgSystem) :=
  if firstUse args i = i then
    args[i]?.bind fun arg =>
      match arg.svmBuffer, arg.buffer with
      | none, none =>
          (sys.clSetKernelArg clone i arg.size arg.value).map fun sys => (objects, sys)
      | some region, _ =>
          (sys.clSetKernelArgSVMPointer clone i region.handle).map fun sys => (objects, sys)
      | none, some m =>
          if m.hasCanary then
            (sys.clSetKernelArg clone i SIZEOF_MEM (some m.handle)).map fun sys => (objects, sys)
          else
            match objects with
            | [] => none
            | object :: objects =>
                (sys.s.createInternal object).bind fun s =>
                (clSetKernelArg { sys with s := s } clone i SIZEOF_MEM
                  (some object.handle)).map fun sys => (objects, sys)
  else
    ((sys.s.kinfoFind clone).bind fun info => info.argList.find (firstUse args i)).bind fun arg =>
    (sys.clSetKernelArg clone i arg.size arg.value).map fun sys => (objects, sys)

/-- The loop of `createPoisonedKernel`; `objects` are the memory objects that the
creations in it return. -/
def setCloneArgs (args : List KernelArg) (clone : Handle) :
    List Nat → List MemObj → ArgSystem → Option ArgSystem
  | [], _, sys => some sys
  | i :: rest, objects, sys =>
      (sys.setCloneArg args clone i objects).bind fun next =>
      setCloneArgs args clone rest next.1 next.2

/-- `createPoisonedKernel`.  All arguments are set, and the objects behind them
exist.  The clone is the kernel itself when no argument has to be replaced. -/
def createPoisonedKernel (sys : ArgSystem) (kernel clone : Handle) (objects : List MemObj) :
    Option ArgSystem :=
  (sys.s.kinfoFind kernel).bind fun info =>
  (sys.kernels.find kernel).bind fun kern =>
  if info.argList.entries.map Prod.fst = List.range kern.params.length ∧
      ∀ e ∈ info.argList.entries, (sys.s.argHandle e.2).isSome then
    let args := info.argList.entries.map sys.s.resolve
    if needInternalBuffer args then
      (sys.clCreateKernel clone kern.params).bind fun sys =>
      setCloneArgs args clone (List.range kern.params.length) objects sys
    else some sys
  else none

/-- One call. -/
def step (sys : ArgSystem) : ArgCall → Option ArgSystem
  | .createMem item =>
      if item.handle ≠ NULL ∧ sys.s.clMemAlloc.find item.handle = none then
        some { sys with s := sys.s.clMemInsert { item with refCount := 1 } }
      else none
  | .retainMem memobj => some { sys with s := sys.s.clRetainMemObject memobj }
  | .releaseMem memobj => some { sys with s := sys.s.clReleaseMemObject memobj }
  | .createSvm item =>
      if item.handle ≠ NULL ∧ sys.s.clSvmMemAlloc.find item.handle = none then
        some { sys with s := sys.s.clSvmMemInsert item }
      else none
  | .freeSvm svmPointer => some { sys with s := sys.s.clSVMFree svmPointer }
  | .createKernel kernel params => sys.clCreateKernel kernel params
  | .setArg kernel argIndex argSize argValue => sys.clSetKernelArg kernel argIndex argSize argValue
  | .setSvmArg kernel argIndex argValue => sys.clSetKernelArgSVMPointer kernel argIndex argValue
  | .retainKernel kernel =>
      if (sys.kernels.find kernel).isSome then
        some { sys with s := sys.s.clRetainKernel kernel }
      else none
  | .releaseKernel kernel => some { sys with s := sys.s.clReleaseKernel kernel }
  | .createPoisoned kernel clone objects => sys.createPoisonedKernel kernel clone objects
  | .delPoisonArg delKern dupe i => some { sys with s := sys.s.delPoisonArg delKern dupe i }

end ArgSystem

/-! ## What the calls do to the descriptions -/

namespace KernelState

variable {s s' : KernelState} {known : Handle → Prop}

/-- A description of a memory object that is there is the one in the table. -/
def MemEntered (s : KernelState) : Prop :=
  ∀ p m, s.memobjs.find p = some m → s.clMemAlloc.find m.handle = some p

/-- The description of an argument belongs to what the runtime was given. -/
def Describes (s : KernelState) (entry : ArgEntry) : RuntimeArg → Prop
  | .memory size value =>
      entry.size = size ∧ entry.value = value ∧ entry.svmBuffer = none ∧
        ∀ p, entry.buffer = some p → p < s.nextAddress ∧ size = SIZEOF_MEM ∧
          ∃ handle, value = some handle ∧ ∀ m, s.memobjs.find p = some m → m.handle = handle
  | .svm pointer => entry.size = 0 ∧ entry.value = some pointer ∧ entry.buffer = none

/-- Descriptions are made and dropped, but no argument is set. -/
structure Quiet (s s' : KernelState) (known : Handle → Prop) : Prop where
  coherent : s'.Coherent
  entered : s'.MemEntered
  later : s.nextAddress ≤ s'.nextAddress
  stable : ∀ p m', p < s.nextAddress → s'.memobjs.find p = some m' →
    ∃ m, s.memobjs.find p = some m ∧ m'.handle = m.handle
  args : ∀ k info', s'.kinfoFind k = some info' → ∀ i entry,
    info'.argList.find i = some entry →
      ∃ info, s.kinfoFind k = some info ∧ info.argList.find i = some entry
  unlisted : ∀ k, ¬ known k → s.kernList.find k = none → s'.kernList.find k = none

theorem Describes.later {entry : ArgEntry} {arg : RuntimeArg} (describes : s.Describes entry arg)
    (later : s.nextAddress ≤ s'.nextAddress)
    (stable : ∀ p m', p < s.nextAddress → s'.memobjs.find p = some m' →
      ∃ m, s.memobjs.find p = some m ∧ m'.handle = m.handle) : s'.Describes entry arg := by
  cases arg with
  | svm pointer => exact describes
  | memory size value =>
      obtain ⟨isSize, isValue, noSvm, isObject⟩ := describes
      refine ⟨isSize, isValue, noSvm, fun p buffer => ?_⟩
      obtain ⟨below, isMem, handle, given, same⟩ := isObject p buffer
      refine ⟨below.trans_le later, isMem, handle, given, fun m' found => ?_⟩
      obtain ⟨m, found', same'⟩ := stable p m' below found
      exact same'.trans (same m found')

/-- A change of the memory objects leaves the kernels alone. -/
theorem Quiet.memory (coherent : s'.Coherent) (entered : s'.MemEntered)
    (later : s.nextAddress ≤ s'.nextAddress) (kernInfos : s'.kernInfos = s.kernInfos)
    (kernList : s'.kernList = s.kernList)
    (stable : ∀ p m', p < s.nextAddress → s'.memobjs.find p = some m' →
      ∃ m, s.memobjs.find p = some m ∧ m'.handle = m.handle) : Quiet s s' known := by
  refine ⟨coherent, entered, later, stable, fun k info' found i entry isArg => ?_, ?_⟩
  · refine ⟨info', ?_, isArg⟩
    rw [← found, kinfoFind, kinfoFind, kernInfos, kernList]
  · rw [kernList]
    exact fun _ _ => id

/-- A change of the kernels leaves the memory objects alone. -/
theorem Quiet.kernels (coherent : s'.Coherent) (entered : s.MemEntered)
    (later : s.nextAddress ≤ s'.nextAddress) (memobjs : s'.memobjs = s.memobjs)
    (clMemAlloc : s'.clMemAlloc = s.clMemAlloc)
    (args : ∀ k info', s'.kinfoFind k = some info' → ∀ i entry,
      info'.argList.find i = some entry →
        ∃ info, s.kinfoFind k = some info ∧ info.argList.find i = some entry)
    (unlisted : ∀ k, ¬ known k → s.kernList.find k = none → s'.kernList.find k = none) :
    Quiet s s' known := by
  refine ⟨coherent, ?_, later, fun p m' _ found => ⟨m', memobjs ▸ found, rfl⟩, args, unlisted⟩
  rw [MemEntered, memobjs, clMemAlloc]
  exact entered

theorem Quiet.refl (coherent : s.Coherent) (entered : s.MemEntered) : Quiet s s known :=
  Quiet.memory coherent entered (le_refl _) rfl rfl fun _ m' _ found => ⟨m', found, rfl⟩

theorem quiet_clMemInsert {item : MemObj} (coherent : s.Coherent) (entered : s.MemEntered)
    (fresh : s.clMemAlloc.find item.handle = none) : Quiet s (s.clMemInsert item) known := by
  have room := coherent.memBelow s.nextAddress (le_refl _)
  apply Quiet.memory (s := s) (clMemInsert_spec coherent fresh).1 ?_ (Nat.le_succ _) rfl rfl
  · intro p m' below found
    simp only [clMemInsert, Table.find_insert_of_ne below.ne] at found
    exact ⟨m', found, rfl⟩
  · intro p m found
    simp only [clMemInsert] at found ⊢
    by_cases here : p = s.nextAddress
    · rw [here, Table.find_insert_fresh room, Option.some.injEq] at found
      rw [← found, Table.find_insert_fresh fresh, here]
    · rw [Table.find_insert_of_ne here] at found
      have listed := entered p m found
      have other : m.handle ≠ item.handle := by
        intro same
        rw [same, fresh] at listed
        contradiction
      rw [Table.find_insert_of_ne other, listed]

/-- A change of a description that keeps its handle. -/
theorem quiet_modify {p : Address} {f : MemObj → MemObj} (coherent : s.Coherent)
    (entered : s.MemEntered) (keeps : ∀ m, (f m).handle = m.handle) :
    Quiet s { s with memobjs := s.memobjs.modify p f } known := by
  have stable : ∀ q m', (s.memobjs.modify p f).find q = some m' →
      ∃ m, s.memobjs.find q = some m ∧ m'.handle = m.handle := by
    intro q m' found
    rw [Table.find_modify] at found
    split_ifs at found with here
    · obtain ⟨m, found', rfl⟩ := Option.map_eq_some_iff.mp found
      exact ⟨m, here.symm ▸ found', keeps m⟩
    · exact ⟨m', found, rfl⟩
  apply Quiet.memory (s := s) (modify_spec coherent keeps).1 ?_ (le_refl _) rfl rfl
  · exact fun q m' _ found => stable q m' found
  · intro q m' found
    obtain ⟨m, found', same⟩ := stable q m' found
    rw [same]
    exact entered q m found'

theorem quiet_clRetainMemObject (coherent : s.Coherent) (entered : s.MemEntered)
    (memobj : Handle) : Quiet s (s.clRetainMemObject memobj) known := by
  rw [clRetainMemObject]
  cases s.clMemAlloc.find memobj with
  | none => exact Quiet.refl coherent entered
  | some p => exact quiet_modify coherent entered fun _ => rfl

theorem quiet_clReleaseMemObject (coherent : s.Coherent) (entered : s.MemEntered)
    (memobj : Handle) : Quiet s (s.clReleaseMemObject memobj) known := by
  have released := (clReleaseMemObject_spec coherent memobj).1
  rw [clReleaseMemObject] at released ⊢
  cases listed : s.clMemAlloc.find memobj with
  | none => exact Quiet.refl coherent entered
  | some p =>
      obtain ⟨m, found, same⟩ := coherent.mem memobj p listed
      rw [listed] at released
      dsimp only at released ⊢
      rw [found] at released ⊢
      dsimp only at released ⊢
      split_ifs at released ⊢ with last
      · apply Quiet.memory (s := s) released ?_ (le_refl _) rfl rfl
        · intro q m' _ found'
          simp only [Table.find_remove] at found'
          split_ifs at found'
          exact ⟨m', found', rfl⟩
        · intro q m' found'
          simp only [Table.find_remove] at found' ⊢
          split_ifs at found' with here
          have listed' := entered q m' found'
          have other : m'.handle ≠ memobj := by
            intro same'
            rw [same', listed, Option.some.injEq] at listed'
            exact here listed'.symm
          rw [if_neg other, listed']
      · exact quiet_modify coherent entered fun _ => rfl

theorem quiet_clSvmMemInsert {item : SvmObj} (coherent : s.Coherent) (entered : s.MemEntered)
    (fresh : s.clSvmMemAlloc.find item.handle = none) : Quiet s (s.clSvmMemInsert item) known :=
  Quiet.memory (clSvmMemInsert_spec coherent fresh).1 entered (Nat.le_succ _) rfl rfl
    fun _ m' _ found => ⟨m', found, rfl⟩

theorem quiet_clSVMFree (coherent : s.Coherent) (entered : s.MemEntered) (svmPointer : Nat) :
    Quiet s (s.clSVMFree svmPointer) known := by
  have freed := (clSVMFree_spec coherent svmPointer).1
  rw [clSVMFree] at freed ⊢
  cases listed : s.clSvmMemAlloc.find svmPointer with
  | none => exact Quiet.refl coherent entered
  | some p =>
      rw [listed] at freed
      exact Quiet.memory (s := s) freed entered (le_refl _) rfl rfl fun _ m' _ found =>
        ⟨m', found, rfl⟩

/-- A change of the description of a kernel that adds no argument. -/
theorem quiet_kinfoModify {kernel : Handle} {f : KernelInfo → KernelInfo} (coherent : s.Coherent)
    (entered : s.MemEntered) (keeps : ∀ info, (f info).handle = info.handle)
    (fewer : ∀ info i entry, (f info).argList.find i = some entry →
      info.argList.find i = some entry) : Quiet s (s.kinfoModify kernel f) known := by
  have args : ∀ k info', (s.kinfoModify kernel f).kinfoFind k = some info' → ∀ i entry,
      info'.argList.find i = some entry →
        ∃ info, s.kinfoFind k = some info ∧ info.argList.find i = some entry := by
    intro k info' found i entry isArg
    rw [kinfoFind_modify coherent] at found
    split_ifs at found
    · obtain ⟨info, found', rfl⟩ := Option.map_eq_some_iff.mp found
      exact ⟨info, found', fewer info i entry isArg⟩
    · exact ⟨info', found, isArg⟩
  have modified := @kinfoModify_coherent s kernel f coherent keeps
  cases listed : s.kernList.find kernel with
  | none =>
      have same : s.kinfoModify kernel f = s := by simp only [kinfoModify, listed]
      rw [same]
      exact Quiet.refl coherent entered
  | some p =>
      rw [kinfoModify_of_listed listed] at modified args ⊢
      exact Quiet.kernels (s := s) modified entered (le_refl _) rfl rfl args fun _ _ => id

theorem quiet_kargRemove (coherent : s.Coherent) (entered : s.MemEntered) (kernel : Handle)
    (i : Nat) : Quiet s (s.kargRemove kernel i) known := by
  refine quiet_kinfoModify coherent entered (fun _ => rfl) fun info j entry isArg => ?_
  rw [OrderedMap.find_remove] at isArg
  split_ifs at isArg
  exact isArg

theorem quiet_clRetainKernel (coherent : s.Coherent) (entered : s.MemEntered) {kernel : Handle}
    (isKnown : known kernel) : Quiet s (s.clRetainKernel kernel) known := by
  rw [clRetainKernel]
  cases listed : s.kernList.find kernel with
  | some p => exact quiet_kinfoModify coherent entered (fun _ => rfl) fun _ _ _ => id
  | none =>
      apply Quiet.kernels (kinfoInsert_coherent coherent listed) entered (Nat.le_succ _) rfl rfl
      · intro k info' found i entry isArg
        rw [kinfoFind_insert coherent listed] at found
        split_ifs at found
        · rw [← Option.some.inj found] at isArg
          contradiction
        · exact ⟨info', found, isArg⟩
      · intro k unknown unlisted
        have other : k ≠ kernel := by
          rintro rfl
          exact unknown isKnown
        exact (Table.find_insert_of_ne other).trans unlisted

theorem quiet_clReleaseKernel (coherent : s.Coherent) (entered : s.MemEntered)
    (kernel : Handle) : Quiet s (s.clReleaseKernel kernel) known := by
  rw [clReleaseKernel]
  cases listed : s.kernList.find kernel with
  | none => exact Quiet.refl coherent entered
  | some p =>
      obtain ⟨info, found, -⟩ := coherent.listed kernel p listed
      dsimp only
      rw [found]
      dsimp only
      split_ifs with last
      · apply Quiet.kernels (s := s) (kinfoRemove_coherent coherent listed) entered (le_refl _)
          rfl rfl
        · intro k info' found' i entry isArg
          rw [kinfoFind_remove coherent listed] at found'
          split_ifs at found'
          exact ⟨info', found', isArg⟩
        · intro k _ unlisted
          simp only [Table.find_remove, unlisted, ite_self]
      · exact quiet_kinfoModify coherent entered (fun _ => rfl) fun _ _ _ => id

/-- The description that an argument gets fits what the runtime is given. -/
theorem describes_memArg (coherent : s.Coherent) (argSize : Nat) (argValue : Option Nat) :
    s.Describes (s.memArg argSize argValue) (.memory argSize argValue) := by
  refine ⟨rfl, rfl, rfl, fun p buffer => ?_⟩
  simp only [memArg] at buffer
  split_ifs at buffer with isMem
  obtain ⟨handle, given, listed⟩ := Option.bind_eq_some_iff.mp buffer
  obtain ⟨m, found, same⟩ := coherent.mem handle p listed
  refine ⟨?_, isMem, handle, given, fun m' found' => ?_⟩
  · by_contra above
    rw [coherent.memBelow p (Nat.le_of_not_lt above)] at found
    contradiction
  · rw [found, Option.some.injEq] at found'
    rw [← found', same]

theorem describes_svmArg (s : KernelState) (argValue : Nat) :
    s.Describes (s.svmArg argValue) (.svm argValue) :=
  ⟨rfl, rfl, rfl⟩

end KernelState

namespace ArgSystem

open KernelState

variable {sys sys' : ArgSystem} {kernel clone : Handle} {i : Nat} {arg : RuntimeArg}

/-! ## The arguments of every kernel are described -/

/-- The invariant of the runs. -/
structure Inv (sys : ArgSystem) : Prop where
  coherent : sys.s.Coherent
  entered : sys.s.MemEntered
  unlisted : ∀ k, sys.kernels.find k = none → sys.s.kernList.find k = none
  typed : ∀ k kern, sys.kernels.find k = some kern →
    kern.Typed ∧ ∀ i, kern.args i ≠ some (.svm NULL)
  tracks : ∀ k info, sys.s.kinfoFind k = some info → ∀ i entry,
    info.argList.find i = some entry → ∃ kern arg, sys.kernels.find k = some kern ∧
      kern.args i = some arg ∧ sys.s.Describes entry arg

theorem inv_initial : Inv initial := by
  constructor
  case coherent => exact coherent_initial
  case entered => exact fun p m found => by contradiction
  case unlisted => exact fun _ _ => rfl
  case typed => exact fun k kern found => by contradiction
  case tracks => exact fun k info found => by contradiction

/-- A change that sets no argument. -/
theorem Inv.quiet {s' : KernelState} (inv : Inv sys)
    (quiet : Quiet sys.s s' fun k => (sys.kernels.find k).isSome) : Inv { sys with s := s' } := by
  constructor
  case coherent => exact quiet.coherent
  case entered => exact quiet.entered
  case unlisted =>
    intro k unknown
    refine quiet.unlisted k ?_ (inv.unlisted k unknown)
    rw [show sys.kernels.find k = none from unknown]
    exact Bool.false_ne_true
  case typed => exact inv.typed
  case tracks =>
    intro k info' found i entry isArg
    obtain ⟨info, found, isArg⟩ := quiet.args k info' found i entry isArg
    obtain ⟨kern, arg, isKern, given, describes⟩ := inv.tracks k info found i entry isArg
    exact ⟨kern, arg, isKern, given, describes.later quiet.later quiet.stable⟩

/-- A new kernel has no arguments. -/
theorem Inv.clCreateKernel {params : List Param} (inv : Inv sys)
    (created : sys.clCreateKernel kernel params = some sys') :
    Inv sys' ∧ sys'.s = sys.s ∧ sys.kernels.find kernel = none ∧
      sys'.kernels = sys.kernels.insert kernel (RuntimeKernel.create params) := by
  rw [ArgSystem.clCreateKernel] at created
  split_ifs at created with usable
  rw [← Option.some.inj created]
  refine ⟨?_, rfl, usable.2, rfl⟩
  constructor
  case coherent => exact inv.coherent
  case entered => exact inv.entered
  case unlisted =>
    intro k unknown
    rw [Table.find_insert] at unknown
    split_ifs at unknown
    exact inv.unlisted k unknown
  case typed =>
    intro k kern found
    rw [Table.find_insert, usable.2, Option.getD_none] at found
    split_ifs at found
    · rw [← Option.some.inj found]
      refine ⟨RuntimeKernel.typed_create params, ?_⟩
      intro i isNull
      exact absurd isNull.symm (Option.some_ne_none _)
    · exact inv.typed k kern found
  case tracks =>
    intro k info found i entry isArg
    obtain ⟨kern, arg, isKern, rest⟩ := inv.tracks k info found i entry isArg
    refine ⟨kern, arg, ?_, rest⟩
    have other : k ≠ kernel := by
      rintro rfl
      rw [usable.2] at isKern
      contradiction
    rw [Table.find_insert_of_ne other, isKern]

/-- Set an argument, through the call that belongs to it. -/
def setRuntimeArg (sys : ArgSystem) (kernel : Handle) (argIndex : Nat) :
    RuntimeArg → Option ArgSystem
  | .memory argSize argValue => sys.clSetKernelArg kernel argIndex argSize argValue
  | .svm argValue => sys.clSetKernelArgSVMPointer kernel argIndex argValue

/-- The description that is entered with an argument. -/
def entryOf (s : KernelState) : RuntimeArg → ArgEntry
  | .memory argSize argValue => s.memArg argSize argValue
  | .svm argValue => s.svmArg argValue

/-- The wrapper accepts what the runtime accepts, except a null pointer. -/
theorem setRuntimeArg_eq_some_iff : sys.setRuntimeArg kernel i arg = some sys' ↔
    arg ≠ .svm NULL ∧ ∃ kern, sys.kernels.find kernel = some kern ∧
      (∃ param, kern.params[i]? = some param ∧ param.takes arg) ∧
      sys' = { s := sys.s.enterArg kernel i (entryOf sys.s arg),
               kernels := sys.kernels.modify kernel fun _ =>
                 { kern with args := Function.update kern.args i (some arg) } } := by
  have enters : sys.enter kernel i arg (entryOf sys.s arg) = some sys' ↔
      ∃ kern, sys.kernels.find kernel = some kern ∧
        (∃ param, kern.params[i]? = some param ∧ param.takes arg) ∧
        sys' = { s := sys.s.enterArg kernel i (entryOf sys.s arg),
                 kernels := sys.kernels.modify kernel fun _ =>
                   { kern with args := Function.update kern.args i (some arg) } } := by
    simp only [enter, Option.bind_eq_some_iff, Option.map_eq_some_iff,
      RuntimeKernel.setKernelArg_eq_some_iff]
    constructor
    · rintro ⟨kern, isKern, _, ⟨taken, rfl⟩, rfl⟩
      exact ⟨kern, isKern, taken, rfl⟩
    · rintro ⟨kern, isKern, taken, rfl⟩
      exact ⟨kern, isKern, _, ⟨taken, rfl⟩, rfl⟩
  cases arg with
  | memory argSize argValue =>
      rw [← enters]
      simp [setRuntimeArg, ArgSystem.clSetKernelArg, entryOf]
  | svm argValue =>
      rw [setRuntimeArg, ArgSystem.clSetKernelArgSVMPointer]
      rw [← enters]
      split_ifs with null
      · simp [null]
      · simp [null, entryOf]

/-- What setting an argument does. -/
structure Sets (sys sys' : ArgSystem) (kernel : Handle) (i : Nat) (arg : RuntimeArg) : Prop where
  inv : Inv sys'
  clMemAlloc : sys'.s.clMemAlloc = sys.s.clMemAlloc
  here : ∃ kern, sys.kernels.find kernel = some kern ∧
    sys'.kernels.find kernel = some { kern with args := Function.update kern.args i (some arg) }
  others : ∀ k ≠ kernel, sys'.kernels.find k = sys.kernels.find k
  listed : ∃ info, sys'.s.kinfoFind kernel = some info ∧ ∀ j, info.argList.find j =
    if j = i then some (entryOf sys.s arg)
    else (sys.s.kinfoFind kernel).bind fun info => info.argList.find j

theorem Inv.setRuntimeArg (inv : Inv sys) (set : sys.setRuntimeArg kernel i arg = some sys') :
    Sets sys sys' kernel i arg := by
  obtain ⟨nonNull, kern, isKern, taken, rfl⟩ := setRuntimeArg_eq_some_iff.mp set
  have entered := enterArg_spec inv.coherent kernel i (entryOf sys.s arg)
  have describes : sys.s.Describes (entryOf sys.s arg) arg := by
    cases arg with
    | memory argSize argValue => exact describes_memArg inv.coherent argSize argValue
    | svm argValue => exact describes_svmArg sys.s argValue
  have later : ∀ {entry : ArgEntry} {arg' : RuntimeArg}, sys.s.Describes entry arg' →
      (sys.s.enterArg kernel i (entryOf sys.s arg)).Describes entry arg' := fun describes =>
    describes.later entered.later fun p m' _ found => ⟨m', entered.memobjs ▸ found, rfl⟩
  have here : (sys.kernels.modify kernel fun _ =>
      { kern with args := Function.update kern.args i (some arg) }).find kernel =
        some { kern with args := Function.update kern.args i (some arg) } := by
    rw [Table.find_modify_self, isKern]
    rfl
  refine ⟨?_, entered.clMemAlloc, ⟨kern, isKern, here⟩,
    fun k other => Table.find_modify_of_ne other, entered.here⟩
  constructor
  case coherent => exact entered.coherent
  case entered =>
    dsimp only
    rw [MemEntered, entered.memobjs, entered.clMemAlloc]
    exact inv.entered
  case unlisted =>
    intro k unknown
    have other : k ≠ kernel := by
      rintro rfl
      rw [here] at unknown
      contradiction
    rw [Table.find_modify_of_ne other] at unknown
    exact entered.unlisted k other (inv.unlisted k unknown)
  case typed =>
    intro k kern' found
    by_cases same : k = kernel
    · rw [same, here, Option.some.injEq] at found
      obtain ⟨typed, noNull⟩ := inv.typed kernel kern isKern
      rw [← found]
      refine ⟨typed.setKernelArg (RuntimeKernel.setKernelArg_eq_some_iff.mpr ⟨taken, rfl⟩),
        fun j => ?_⟩
      dsimp only
      by_cases isArg : j = i
      · rw [isArg, Function.update_self]
        exact fun given => nonNull (Option.some.inj given)
      · rw [Function.update_of_ne isArg]
        exact noNull j
    · rw [Table.find_modify_of_ne same] at found
      exact inv.typed k kern' found
  case tracks =>
    intro k info found j entry isArg
    by_cases same : k = kernel
    · subst same
      obtain ⟨info', found', args⟩ := entered.here
      rw [found', Option.some.injEq] at found
      rw [← found, args] at isArg
      refine ⟨_, if j = i then arg else (kern.args j).getD arg, here, ?_⟩
      dsimp only
      split_ifs at isArg ⊢ with isSet
      · rw [isSet, Function.update_self, ← Option.some.inj isArg]
        exact ⟨rfl, later describes⟩
      · obtain ⟨info'', found'', isArg⟩ := Option.bind_eq_some_iff.mp isArg
        obtain ⟨kern', arg', isKern', given, describes'⟩ :=
          inv.tracks k info'' found'' j entry isArg
        rw [isKern, Option.some.injEq] at isKern'
        rw [Function.update_of_ne isSet, isKern', given]
        exact ⟨rfl, later describes'⟩
    · rw [entered.others k same] at found
      obtain ⟨kern', arg', isKern', given, describes'⟩ := inv.tracks k info found j entry isArg
      exact ⟨kern', arg', (Table.find_modify_of_ne same).trans isKern', given, later describes'⟩

/-! ## One turn of the loop -/

/-- The argument that the clone gets for the first use of an argument, unless a
new memory object takes its place. -/
def cloneArg (arg : KernelArg) : Option RuntimeArg :=
  match arg.svmBuffer, arg.buffer with
  | none, none => some (.memory arg.size arg.value)
  | some region, _ => some (.svm region.handle)
  | none, some m => if m.hasCanary then some (.memory SIZEOF_MEM (some m.handle)) else none

theorem cloneArg_eq_none_iff {karg : KernelArg} : cloneArg karg = none ↔ karg.isReplaced := by
  obtain ⟨handle, size, value, buffer, svmBuffer⟩ := karg
  cases svmBuffer with
  | some region => simp [cloneArg, KernelArg.isReplaced]
  | none =>
      cases buffer with
      | none => simp [cloneArg, KernelArg.isReplaced]
      | some m => simp [cloneArg, KernelArg.isReplaced]

variable {args : List KernelArg} {objects objects' : List MemObj}

/-- A turn for a first use that is set again. -/
theorem setCloneArg_again {karg : KernelArg} (first : firstUse args i = i)
    (isArg : args[i]? = some karg) (again : cloneArg karg = some arg) :
    sys.setCloneArg args clone i objects =
      (sys.setRuntimeArg clone i arg).map fun sys => (objects, sys) := by
  obtain ⟨handle, size, value, buffer, svmBuffer⟩ := karg
  rw [setCloneArg.eq_def, if_pos first, isArg, Option.bind_some]
  cases svmBuffer with
  | some region =>
      obtain rfl := Option.some.inj again
      rfl
  | none =>
      cases buffer with
      | none =>
          obtain rfl := Option.some.inj again
          rfl
      | some m =>
          simp only [cloneArg] at again
          split_ifs at again with canary
          obtain rfl := Option.some.inj again
          dsimp only
          rw [if_pos canary]
          rfl

/-- A turn for a first use that gets a new memory object. -/
theorem setCloneArg_new {karg : KernelArg} (first : firstUse args i = i)
    (isArg : args[i]? = some karg) (new : cloneArg karg = none) :
    sys.setCloneArg args clone i objects =
      objects.head?.bind fun object => (sys.s.createInternal object).bind fun s =>
        (setRuntimeArg { sys with s := s } clone i
          (.memory SIZEOF_MEM (some object.handle))).map fun sys => (objects.tail, sys) := by
  obtain ⟨handle, size, value, buffer, svmBuffer⟩ := karg
  rw [setCloneArg.eq_def, if_pos first, isArg, Option.bind_some]
  cases svmBuffer with
  | some region => contradiction
  | none =>
      cases buffer with
      | none => contradiction
      | some m =>
          simp only [cloneArg] at new
          split_ifs at new with canary
          dsimp only
          rw [if_neg canary]
          cases objects with
          | nil => rfl
          | cons object objects => rfl

/-- A turn for a repeated memory object. -/
theorem setCloneArg_repeated (notFirst : firstUse args i ≠ i) :
    sys.setCloneArg args clone i objects =
      ((sys.s.kinfoFind clone).bind fun info => info.argList.find (firstUse args i)).bind
        fun entry => (sys.setRuntimeArg clone i (.memory entry.size entry.value)).map
          fun sys => (objects, sys) := by
  rw [setCloneArg.eq_def, if_neg notFirst]
  rfl

/-- The kinds of turns: from some objects to those that are left, and the state after
it. -/
inductive CloneTurn (sys : ArgSystem) (args : List KernelArg) (clone : Handle) (i : Nat) :
    List MemObj → List MemObj → ArgSystem → Prop
  | again {karg : KernelArg} {arg : RuntimeArg} {objects : List MemObj} {sys' : ArgSystem}
      (isArg : args[i]? = some karg) (first : firstUse args i = i)
      (again : cloneArg karg = some arg) (set : sys.setRuntimeArg clone i arg = some sys') :
      CloneTurn sys args clone i objects objects sys'
  | new {karg : KernelArg} {object : MemObj} {s : KernelState} {objects : List MemObj}
      {sys' : ArgSystem} (isArg : args[i]? = some karg) (first : firstUse args i = i)
      (new : cloneArg karg = none) (created : sys.s.createInternal object = some s)
      (set : setRuntimeArg { sys with s := s } clone i
        (.memory SIZEOF_MEM (some object.handle)) = some sys') :
      CloneTurn sys args clone i (object :: objects) objects sys'
  | repeated {info : KernelInfo} {entry : ArgEntry} {objects : List MemObj} {sys' : ArgSystem}
      (notFirst : firstUse args i ≠ i) (found : sys.s.kinfoFind clone = some info)
      (isEntry : info.argList.find (firstUse args i) = some entry)
      (set : sys.setRuntimeArg clone i (.memory entry.size entry.value) = some sys') :
      CloneTurn sys args clone i objects objects sys'

/-- Every turn is of one of these kinds. -/
theorem cloneTurn_of_run (ran : sys.setCloneArg args clone i objects = some (objects', sys')) :
    CloneTurn sys args clone i objects objects' sys' := by
  by_cases first : firstUse args i = i
  · cases isArg : args[i]? with
    | none =>
        rw [setCloneArg.eq_def, if_pos first, isArg] at ran
        contradiction
    | some karg =>
        cases again : cloneArg karg with
        | some arg =>
            rw [setCloneArg_again first isArg again] at ran
            obtain ⟨_, set, same⟩ := Option.map_eq_some_iff.mp ran
            obtain ⟨rfl, rfl⟩ := Prod.mk.inj same
            exact .again isArg first again set
        | none =>
            rw [setCloneArg_new first isArg again] at ran
            obtain ⟨object, head, ran⟩ := Option.bind_eq_some_iff.mp ran
            obtain ⟨s, created, ran⟩ := Option.bind_eq_some_iff.mp ran
            obtain ⟨_, set, same⟩ := Option.map_eq_some_iff.mp ran
            obtain ⟨rfl, rfl⟩ := Prod.mk.inj same
            rw [← List.cons_head?_tail head]
            exact .new isArg first again created set
  · rw [setCloneArg_repeated first] at ran
    obtain ⟨entry, isEntry, ran⟩ := Option.bind_eq_some_iff.mp ran
    obtain ⟨info, found, isEntry⟩ := Option.bind_eq_some_iff.mp isEntry
    obtain ⟨_, set, same⟩ := Option.map_eq_some_iff.mp ran
    obtain ⟨rfl, rfl⟩ := Prod.mk.inj same
    exact .repeated first found isEntry set

/-! ## The loop -/

theorem setRuntimeArg_s (set : sys.setRuntimeArg kernel i arg = some sys') :
    sys'.s = sys.s.enterArg kernel i (entryOf sys.s arg) := by
  obtain ⟨-, kern, -, -, rfl⟩ := setRuntimeArg_eq_some_iff.mp set
  rfl

/-- The descriptions are those of the loop without the runtime. -/
theorem setCloneArgs_s {indices : List Nat}
    (ran : setCloneArgs args clone indices objects sys = some sys') :
    KernelState.setCloneArgs args clone indices objects sys.s = some sys'.s := by
  induction indices generalizing objects sys with
  | nil =>
      obtain rfl := Option.some.inj ran
      rfl
  | cons i rest ih =>
      rw [setCloneArgs] at ran
      obtain ⟨⟨objects', next⟩, turned, loop⟩ := Option.bind_eq_some_iff.mp ran
      rw [KernelState.setCloneArgs.eq_def]
      dsimp only
      cases cloneTurn_of_run turned with
      | @again karg arg _ _ isArg first again set =>
          rw [if_pos first, isArg, ← ih loop, setRuntimeArg_s set]
          obtain ⟨handle, size, value, buffer, svmBuffer⟩ := karg
          cases svmBuffer with
          | some region =>
              obtain rfl := Option.some.inj again
              rfl
          | none =>
              cases buffer with
              | none =>
                  obtain rfl := Option.some.inj again
                  rfl
              | some m =>
                  simp only [cloneArg] at again
                  split_ifs at again with canary
                  obtain rfl := Option.some.inj again
                  dsimp only
                  rw [if_pos canary]
                  rfl
      | @new karg object s _ _ isArg first new created set =>
          rw [if_pos first, isArg]
          obtain ⟨handle, size, value, buffer, svmBuffer⟩ := karg
          cases svmBuffer with
          | some region => contradiction
          | none =>
              cases buffer with
              | none => contradiction
              | some m =>
                  simp only [cloneArg] at new
                  split_ifs at new with canary
                  dsimp only
                  rw [if_neg canary, created, Option.bind_some, ← ih loop, setRuntimeArg_s set]
                  rfl
      | repeated notFirst found isEntry set =>
          rw [if_neg notFirst, found, Option.bind_some, isEntry, Option.bind_some, ← ih loop,
            setRuntimeArg_s set]
          rfl

/-- What the clone has for an argument: the first use of it again, or a memory
object that was not there before. -/
def Gets (s : KernelState) (args : List KernelArg) (i : Nat) (arg : RuntimeArg) : Prop :=
  ∃ karg, args[firstUse args i]? = some karg ∧
    (cloneArg karg = some arg ∨ cloneArg karg = none ∧
      ∃ handle, s.clMemAlloc.find handle = none ∧ arg = .memory SIZEOF_MEM (some handle))

/-- The clone after some turns of the loop that began in `start`. -/
structure Cloned (start : ArgSystem) (args : List KernelArg) (clone : Handle)
    (params : List Param) (i : Nat) (sys : ArgSystem) : Prop where
  inv : Inv sys
  grows : ∀ h p, start.s.clMemAlloc.find h = some p → sys.s.clMemAlloc.find h = some p
  others : ∀ k ≠ clone, sys.kernels.find k = start.kernels.find k
  isClone : ∃ kern, sys.kernels.find clone = some kern ∧ kern.params = params ∧
    (∀ j < i, ∃ arg, kern.args j = some arg ∧ Gets start.s args j arg) ∧
    ∀ j, i ≤ j → kern.args j = none
  described : ∀ j < i, ∃ info entry, sys.s.kinfoFind clone = some info ∧
    info.argList.find j = some entry

variable {start : ArgSystem} {params : List Param}

theorem Cloned.set (cloned : Cloned start args clone params i sys)
    (gets : Gets start.s args i arg) (set : sys.setRuntimeArg clone i arg = some sys') :
    Cloned start args clone params (i + 1) sys' := by
  have sets := cloned.inv.setRuntimeArg set
  obtain ⟨kern, isKern, isParams, before, after⟩ := cloned.isClone
  obtain ⟨kern', isKern', isClone⟩ := sets.here
  rw [isKern, Option.some.injEq] at isKern'
  obtain rfl := isKern'
  constructor
  case inv => exact sets.inv
  case grows =>
    rw [sets.clMemAlloc]
    exact cloned.grows
  case others => exact fun k other => (sets.others k other).trans (cloned.others k other)
  case isClone =>
    refine ⟨_, isClone, isParams, fun j jLt => ?_, fun j iLt => ?_⟩
    · rcases Nat.lt_succ_iff_lt_or_eq.mp jLt with earlier | rfl
      · obtain ⟨arg', given, gets'⟩ := before j earlier
        exact ⟨arg', (Function.update_of_ne earlier.ne _ _).trans given, gets'⟩
      · exact ⟨arg, Function.update_self .., gets⟩
    · exact (Function.update_of_ne (Nat.lt_of_succ_le iLt).ne' _ _).trans
        (after j (Nat.le_of_succ_le iLt))
  case described =>
    intro j jLt
    obtain ⟨info, found, isEntry⟩ := sets.listed
    rcases Nat.lt_succ_iff_lt_or_eq.mp jLt with earlier | rfl
    · obtain ⟨info', entry, found', isArg⟩ := cloned.described j earlier
      refine ⟨info, entry, found, ?_⟩
      rw [isEntry, if_neg earlier.ne, found']
      exact isArg
    · exact ⟨info, _, found, by rw [isEntry, if_pos rfl]⟩

/-- A new memory object of the detector. -/
theorem Cloned.create {object : MemObj} {s : KernelState}
    (cloned : Cloned start args clone params i sys)
    (created : sys.s.createInternal object = some s) :
    Cloned start args clone params i { sys with s := s } ∧
      start.s.clMemAlloc.find object.handle = none ∧
      s.clMemAlloc = sys.s.clMemAlloc.insert object.handle sys.s.nextAddress := by
  rw [createInternal] at created
  split_ifs at created with usable
  rw [← Option.some.inj created]
  have quiet := @quiet_clMemInsert sys.s (fun k => (sys.kernels.find k).isSome)
    { object with refCount := 1, detectorInternalBuffer := true } cloned.inv.coherent
    cloned.inv.entered usable.2
  refine ⟨⟨cloned.inv.quiet quiet, fun h p listed => ?_, cloned.others, cloned.isClone,
    cloned.described⟩, ?_, rfl⟩
  · have listed' := cloned.grows h p listed
    have other : h ≠ object.handle := by
      rintro rfl
      rw [usable.2] at listed'
      contradiction
    exact (Table.find_insert_of_ne other).trans listed'
  · cases listed : start.s.clMemAlloc.find object.handle with
    | none => rfl
    | some p =>
        rw [cloned.grows _ p listed] at usable
        exact absurd usable.2 (Option.some_ne_none p)

/-- A repeated memory object is passed as its first use was. -/
theorem Cloned.repeated {info : KernelInfo} {entry : ArgEntry}
    (cloned : Cloned start args clone params i sys)
    (separate : ∀ karg ∈ args, karg.buffer.isSome → karg.svmBuffer = none)
    (notFirst : firstUse args i ≠ i) (found : sys.s.kinfoFind clone = some info)
    (isEntry : info.argList.find (firstUse args i) = some entry) :
    Gets start.s args i (.memory entry.size entry.value) := by
  have earlier : firstUse args i < i := lt_of_le_of_ne (firstUse_le args i) notFirst
  obtain ⟨kern, isKern, -, before, -⟩ := cloned.isClone
  obtain ⟨arg, given, karg, isArg, gets⟩ := before _ earlier
  obtain ⟨kern', arg', isKern', given', describes⟩ :=
    cloned.inv.tracks clone info found _ entry isEntry
  rw [isKern, Option.some.injEq] at isKern'
  rw [← isKern', given, Option.some.injEq] at given'
  rw [firstUse_firstUse] at isArg
  have isMemory : ∃ size value, arg = .memory size value := by
    rcases gets with again | ⟨-, handle, -, rfl⟩
    · cases passes : bufferAt args i with
      | none => exact absurd (firstUse_of_none passes) notFirst
      | some h =>
          have passes' := (firstUse_of_some passes).2.1
          rw [bufferAt, isArg, Option.bind_some, KernelArg.bufferHandle,
            Option.map_eq_some_iff] at passes'
          obtain ⟨m, isObject, -⟩ := passes'
          have noSvm := separate karg (List.mem_of_getElem? isArg) (by rw [isObject]; rfl)
          rw [cloneArg, noSvm, isObject] at again
          dsimp only at again
          split_ifs at again
          exact ⟨_, _, (Option.some.inj again).symm⟩
    · exact ⟨_, _, rfl⟩
  obtain ⟨size, value, rfl⟩ := isMemory
  rw [← given'] at describes
  rw [describes.1, describes.2.1]
  exact ⟨karg, isArg, gets⟩

/-- One turn. -/
theorem Cloned.turn (cloned : Cloned start args clone params i sys)
    (separate : ∀ karg ∈ args, karg.buffer.isSome → karg.svmBuffer = none)
    (ran : sys.setCloneArg args clone i objects = some (objects', sys')) :
    Cloned start args clone params (i + 1) sys' := by
  cases cloneTurn_of_run ran with
  | again isArg first again set =>
      exact cloned.set ⟨_, by rw [first, isArg], Or.inl again⟩ set
  | new isArg first new created set =>
      obtain ⟨cloned', unused, -⟩ := cloned.create created
      exact cloned'.set ⟨_, by rw [first, isArg], Or.inr ⟨new, _, unused, rfl⟩⟩ set
  | repeated notFirst found isEntry set =>
      exact cloned.set (cloned.repeated separate notFirst found isEntry) set

/-- The whole loop. -/
theorem Cloned.loop {n : Nat} (cloned : Cloned start args clone params i sys)
    (separate : ∀ karg ∈ args, karg.buffer.isSome → karg.svmBuffer = none)
    (bound : i + n ≤ args.length)
    (ran : setCloneArgs args clone (List.range' i n) objects sys = some sys') :
    Cloned start args clone params (i + n) sys' := by
  induction n generalizing i objects sys with
  | zero =>
      obtain rfl := Option.some.inj ran
      exact cloned
  | succ n ih =>
      rw [List.range'_succ, setCloneArgs] at ran
      obtain ⟨⟨objects', next⟩, turned, ran⟩ := Option.bind_eq_some_iff.mp ran
      have cloned' := cloned.turn separate turned
      have final := ih cloned' (by omega) ran
      rwa [Nat.add_right_comm, Nat.add_assoc] at final

/-- The creations of memory objects succeed: as many as are asked for, each with a
handle of its own. -/
structure Creates (s : KernelState) (objects : List MemObj) (n : Nat) : Prop where
  length : objects.length = n
  nodup : (objects.map MemObj.handle).Nodup
  fresh : ∀ object ∈ objects, object.handle ≠ NULL ∧ s.clMemAlloc.find object.handle = none

/-- An argument for which there is a new memory object. -/
def isNew (args : List KernelArg) (i : Nat) : Bool :=
  firstUse args i = i && args[i]?.any KernelArg.isReplaced

/-- The parameters take what the clone gets. -/
def Takes (s : KernelState) (args : List KernelArg) (params : List Param) : Prop :=
  ∀ i arg, i < args.length → Gets s args i arg →
    arg ≠ .svm NULL ∧ ∃ param, params[i]? = some param ∧ param.takes arg

theorem Cloned.setRuns (cloned : Cloned start args clone params i sys)
    (takes : Takes start.s args params) (iLt : i < args.length) (gets : Gets start.s args i arg) :
    ∃ sys', sys.setRuntimeArg clone i arg = some sys' := by
  obtain ⟨kern, isKern, isParams, -⟩ := cloned.isClone
  obtain ⟨nonNull, taken⟩ := takes i arg iLt gets
  rw [← isParams] at taken
  exact ⟨_, setRuntimeArg_eq_some_iff.mpr ⟨nonNull, kern, isKern, taken, rfl⟩⟩

/-- One turn gets to its end, and leaves the objects of the turns after it. -/
theorem Cloned.turnRuns {n : Nat} (cloned : Cloned start args clone params i sys)
    (separate : ∀ karg ∈ args, karg.buffer.isSome → karg.svmBuffer = none)
    (takes : Takes start.s args params) (iLt : i < args.length)
    (creates : Creates sys.s objects ((if isNew args i then 1 else 0) + n)) :
    ∃ objects' sys', sys.setCloneArg args clone i objects = some (objects', sys') ∧
      Creates sys'.s objects' n := by
  have kept : isNew args i = false → ∀ {arg sys'}, sys.setRuntimeArg clone i arg = some sys' →
      Creates sys'.s objects n := by
    intro old arg sys' set
    rw [old, if_neg Bool.false_ne_true, Nat.zero_add] at creates
    have same := (cloned.inv.setRuntimeArg set).clMemAlloc
    refine ⟨creates.length, creates.nodup, fun object mem => ?_⟩
    rw [same]
    exact creates.fresh object mem
  by_cases first : firstUse args i = i
  · have isArg := List.getElem?_eq_getElem iLt
    have isUse : args[firstUse args i]? = some args[i] := by rw [first, isArg]
    cases again : cloneArg args[i] with
    | some arg =>
        have old : isNew args i = false := by
          have notReplaced : args[i].isReplaced = false := by
            rw [← Bool.not_eq_true, ← cloneArg_eq_none_iff, again]
            exact Option.some_ne_none arg
          rw [isNew, isArg, Option.any_some, notReplaced, Bool.and_false]
        obtain ⟨sys', set⟩ := cloned.setRuns takes iLt ⟨args[i], isUse, Or.inl again⟩
        exact ⟨objects, sys', by rw [setCloneArg_again first isArg again, set]; rfl, kept old set⟩
    | none =>
        have new : isNew args i = true := by
          rw [isNew, isArg, Option.any_some, cloneArg_eq_none_iff.mp again, Bool.and_true]
          exact decide_eq_true first
        obtain ⟨length, nodup, fresh⟩ := creates
        rw [new, if_pos rfl] at length
        cases objects with
        | nil => rw [List.length_nil] at length; omega
        | cons object objects =>
            obtain ⟨apart, nodup⟩ := List.nodup_cons.mp nodup
            have created : sys.s.createInternal object = some _ :=
              if_pos (fresh object List.mem_cons_self)
            obtain ⟨cloned', unused, entered⟩ := cloned.create created
            obtain ⟨sys', set⟩ := cloned'.setRuns takes iLt
              ⟨args[i], isUse, Or.inr ⟨again, object.handle, unused, rfl⟩⟩
            refine ⟨objects, sys', ?_, ?_⟩
            · rw [setCloneArg_new first isArg again, List.head?_cons, Option.bind_some, created,
                Option.bind_some, set]
              rfl
            · rw [List.length_cons] at length
              refine ⟨by omega, nodup, fun object' mem => ?_⟩
              obtain ⟨nonNull, unlisted⟩ := fresh object' (List.mem_cons_of_mem _ mem)
              have other : object'.handle ≠ object.handle := by
                intro same
                exact apart (same ▸ List.mem_map_of_mem mem)
              refine ⟨nonNull, ?_⟩
              rw [(cloned'.inv.setRuntimeArg set).clMemAlloc, entered]
              exact (Table.find_insert_of_ne other).trans unlisted
  · have old : isNew args i = false := by
      rw [isNew, decide_eq_false first, Bool.false_and]
    have earlier : firstUse args i < i := lt_of_le_of_ne (firstUse_le args i) first
    obtain ⟨info, entry, found, isEntry⟩ := cloned.described _ earlier
    obtain ⟨sys', set⟩ :=
      cloned.setRuns takes iLt (cloned.repeated separate first found isEntry)
    refine ⟨objects, sys', ?_, kept old set⟩
    rw [setCloneArg_repeated first, found, Option.bind_some, isEntry, Option.bind_some, set]
    rfl

/-- The whole loop gets to its end. -/
theorem Cloned.loopRuns {n : Nat} (cloned : Cloned start args clone params i sys)
    (separate : ∀ karg ∈ args, karg.buffer.isSome → karg.svmBuffer = none)
    (takes : Takes start.s args params) (bound : i + n ≤ args.length)
    (creates : Creates sys.s objects ((List.range' i n).filter (isNew args)).length) :
    ∃ sys', setCloneArgs args clone (List.range' i n) objects sys = some sys' := by
  induction n generalizing i objects sys with
  | zero => exact ⟨sys, rfl⟩
  | succ n ih =>
      have count : ((List.range' i (n + 1)).filter (isNew args)).length =
          (if isNew args i then 1 else 0) +
            ((List.range' (i + 1) n).filter (isNew args)).length := by
        rw [List.range'_succ, List.filter_cons]
        split_ifs
        · rw [List.length_cons, Nat.add_comm]
        · rw [Nat.zero_add]
      rw [count] at creates
      obtain ⟨objects', next, turned, creates'⟩ :=
        cloned.turnRuns separate takes (by omega) creates
      obtain ⟨sys', ran⟩ := ih (cloned.turn separate turned) (by omega) creates'
      refine ⟨sys', ?_⟩
      rw [List.range'_succ, setCloneArgs, turned]
      exact ran

/-! ## The arguments of a kernel that is launched -/

variable {info : KernelInfo} {kern : RuntimeKernel}

/-- A kernel whose arguments are all set and exist. -/
structure Ready (sys : ArgSystem) (kernel : Handle) (info : KernelInfo) (kern : RuntimeKernel) :
    Prop where
  described : sys.s.kinfoFind kernel = some info
  isKernel : sys.kernels.find kernel = some kern
  complete : info.argList.entries.map Prod.fst = List.range kern.params.length
  live : ∀ e ∈ info.argList.entries, (sys.s.argHandle e.2).isSome

/-- The descriptions that `createPoisonedKernel` goes through. -/
def resolved (s : KernelState) (info : KernelInfo) : List KernelArg :=
  info.argList.entries.map s.resolve

namespace Ready

theorem length (ready : Ready sys kernel info kern) :
    (resolved sys.s info).length = kern.params.length := by
  have lengths := congrArg List.length ready.complete
  rw [List.length_map, List.length_range] at lengths
  rw [resolved, List.length_map, lengths]

/-- The arguments that are described are parameters of the kernel. -/
theorem index_lt (ready : Ready sys kernel info kern) {entry : ArgEntry}
    (found : info.argList.find i = some entry) : i < kern.params.length := by
  have mem := List.mem_map_of_mem (f := Prod.fst) (OrderedMap.find_eq_some_iff.mp found)
  rw [ready.complete] at mem
  exact List.mem_range.mp mem

/-- The list has the argument of every index in its place. -/
theorem at_index (ready : Ready sys kernel info kern) (inv : Inv sys) {karg : KernelArg}
    (isArg : (resolved sys.s info)[i]? = some karg) :
    ∃ entry arg, info.argList.find i = some entry ∧ karg = sys.s.resolve (i, entry) ∧
      (sys.s.argHandle entry).isSome ∧ kern.args i = some arg ∧ sys.s.Describes entry arg := by
  rw [resolved, List.getElem?_map, Option.map_eq_some_iff] at isArg
  obtain ⟨⟨j, entry⟩, isEntry, rfl⟩ := isArg
  have iLt : i < kern.params.length := by
    have bound := (List.getElem?_eq_some_iff.mp isEntry).1
    have lengths := congrArg List.length ready.complete
    rw [List.length_map, List.length_range] at lengths
    omega
  have isIndex : j = i := by
    have index := congrArg (fun l => l[i]?) ready.complete
    simp only [List.getElem?_map, isEntry, Option.map_some, List.getElem?_range iLt,
      Option.some.injEq] at index
    exact index
  subst isIndex
  have mem := List.mem_of_getElem? isEntry
  have found := OrderedMap.find_eq_some_iff.mpr mem
  obtain ⟨kern', arg, isKern, given, describes⟩ :=
    inv.tracks kernel info ready.described j entry found
  rw [ready.isKernel, Option.some.injEq] at isKern
  exact ⟨entry, arg, found, rfl, ready.live _ mem, isKern ▸ given, describes⟩

theorem separate (ready : Ready sys kernel info kern) (inv : Inv sys) :
    ∀ karg ∈ resolved sys.s info, karg.buffer.isSome → karg.svmBuffer = none := by
  intro karg mem isObject
  obtain ⟨i, isArg⟩ := List.getElem?_of_mem mem
  obtain ⟨entry, arg, -, rfl, -, -, describes⟩ := ready.at_index inv isArg
  cases arg with
  | memory size value => simp [resolve, describes.2.2.1]
  | svm pointer => simp [resolve, describes.2.2] at isObject

/-- The handle of an argument that leads to a memory object. -/
theorem memory_of_buffer {s : KernelState} {entry : ArgEntry} {p : Address} {m : MemObj}
    (describes : s.Describes entry arg) (buffer : entry.buffer = some p)
    (found : s.memobjs.find p = some m) :
    arg = .memory SIZEOF_MEM (some m.handle) ∧ entry.svmBuffer = none := by
  cases arg with
  | svm pointer =>
      rw [describes.2.2] at buffer
      contradiction
  | memory size value =>
      obtain ⟨-, -, noSvm, isObject⟩ := describes
      obtain ⟨-, rfl, handle, rfl, same⟩ := isObject p buffer
      exact ⟨by rw [same m found], noSvm⟩

/-- What the clone gets, by what the argument is. -/
inductive Source (s : KernelState) (entry : ArgEntry) (original : RuntimeArg) :
    RuntimeArg → Prop
  | value (noBuffer : entry.buffer = none) (noSvm : entry.svmBuffer = none) :
      Source s entry original (.memory entry.size entry.value)
  | region {p : Address} {region : SvmObj} (noBuffer : entry.buffer = none)
      (isSvm : entry.svmBuffer = some p) (found : s.svmobjs.find p = some region) :
      Source s entry original (.svm region.handle)
  | canaried {p : Address} {m : MemObj} (buffer : entry.buffer = some p)
      (found : s.memobjs.find p = some m) (canary : m.hasCanary = true) :
      Source s entry original original
  | replaced {p : Address} {m : MemObj} {handle : Handle} (buffer : entry.buffer = some p)
      (found : s.memobjs.find p = some m) (noCanary : m.hasCanary = false)
      (isObject : original = .memory SIZEOF_MEM (some m.handle)) (other : handle ≠ m.handle) :
      Source s entry original (.memory SIZEOF_MEM (some handle))

theorem source (ready : Ready sys kernel info kern) (inv : Inv sys)
    (gets : Gets sys.s (resolved sys.s info) i arg) (iLt : i < kern.params.length) :
    ∃ entry original, info.argList.find i = some entry ∧ kern.args i = some original ∧
      sys.s.Describes entry original ∧ Source sys.s entry original arg := by
  have iLt' : i < (resolved sys.s info).length := ready.length.symm ▸ iLt
  have isArg := List.getElem?_eq_getElem iLt'
  obtain ⟨entry, original, found, isKarg, live, given, describes⟩ := ready.at_index inv isArg
  refine ⟨entry, original, found, given, describes, ?_⟩
  obtain ⟨karg, isUse, gets⟩ := gets
  cases buffer : entry.buffer with
  | none =>
      have passes : bufferAt (resolved sys.s info) i = none := by
        rw [bufferAt, isArg, isKarg]
        simp [KernelArg.bufferHandle, resolve, buffer]
      rw [firstUse_of_none passes, isArg, Option.some.injEq] at isUse
      rw [← isUse, isKarg] at gets
      rw [argHandle, buffer] at live
      cases isSvm : entry.svmBuffer with
      | none =>
          have again : cloneArg (sys.s.resolve (i, entry)) =
              some (.memory entry.size entry.value) := by
            simp [cloneArg, resolve, buffer, isSvm]
          rcases gets with same | ⟨none, -⟩
          · rw [again, Option.some.injEq] at same
            rw [← same]
            exact .value buffer isSvm
          · rw [again] at none
            contradiction
      | some p =>
          rw [isSvm] at live
          dsimp only at live
          rw [Option.isSome_map] at live
          obtain ⟨region, isRegion⟩ := Option.isSome_iff_exists.mp live
          have again : cloneArg (sys.s.resolve (i, entry)) = some (.svm region.handle) := by
            simp [cloneArg, resolve, isSvm, isRegion]
          rcases gets with same | ⟨none, -⟩
          · rw [again, Option.some.injEq] at same
            rw [← same]
            exact .region buffer isSvm isRegion
          · rw [again] at none
            contradiction
  | some p =>
      rw [argHandle, buffer] at live
      dsimp only at live
      rw [Option.isSome_map] at live
      obtain ⟨m, isMem⟩ := Option.isSome_iff_exists.mp live
      obtain ⟨isObject, noSvm⟩ := memory_of_buffer describes buffer isMem
      have listed := inv.entered p m isMem
      have passes : bufferAt (resolved sys.s info) i = some m.handle := by
        rw [bufferAt, isArg, isKarg]
        simp [KernelArg.bufferHandle, resolve, buffer, isMem]
      -- a live description is the only one with its handle
      have isFirst : karg.svmBuffer = none ∧ karg.buffer = some m := by
        have passes' := (firstUse_of_some passes).2.1
        rw [bufferAt, isUse, Option.bind_some, KernelArg.bufferHandle,
          Option.map_eq_some_iff] at passes'
        obtain ⟨m', isBuffer, same⟩ := passes'
        refine ⟨ready.separate inv karg (List.mem_of_getElem? isUse) (by rw [isBuffer]; rfl), ?_⟩
        obtain ⟨entry', arg', -, rfl, -, -, -⟩ := ready.at_index inv isUse
        obtain ⟨p', -, isMem'⟩ := Option.bind_eq_some_iff.mp
          (show entry'.buffer.bind sys.s.memobjs.find = some m' from isBuffer)
        have listed' := inv.entered p' m' isMem'
        rw [same, listed, Option.some.injEq] at listed'
        rw [← listed', isMem] at isMem'
        rw [isBuffer, isMem']
      rw [cloneArg, isFirst.1, isFirst.2] at gets
      dsimp only at gets
      cases canary : m.hasCanary with
      | true =>
          simp only [canary, if_true, Option.some.injEq, reduceCtorEq, false_and, or_false] at gets
          rw [← gets, ← isObject]
          exact .canaried buffer isMem canary
      | false =>
          simp only [canary, Bool.false_eq_true, if_false, reduceCtorEq, false_or, true_and] at gets
          obtain ⟨handle, unlisted, rfl⟩ := gets
          refine .replaced buffer isMem canary isObject ?_
          rintro rfl
          rw [listed] at unlisted
          contradiction

end Ready

/-! ## Runs -/

/-- A clone before its first argument. -/
theorem Inv.beginClone (inv : Inv sys) (args : List KernelArg)
    (created : sys.clCreateKernel clone params = some start) :
    Cloned start args clone params 0 start ∧ start.s = sys.s ∧
      ∀ k kern, sys.kernels.find k = some kern → start.kernels.find k = some kern := by
  obtain ⟨inv', same, fresh, isKernels⟩ := inv.clCreateKernel created
  refine ⟨⟨inv', fun _ _ => id, fun _ _ => rfl, ?_, fun j jLt => absurd jLt (Nat.not_lt_zero j)⟩,
    same, fun k kern isKern => ?_⟩
  · refine ⟨RuntimeKernel.create params, ?_, rfl, fun j jLt => absurd jLt (Nat.not_lt_zero j),
      fun _ _ => rfl⟩
    rw [isKernels, Table.find_insert_fresh fresh]
  · have other : k ≠ clone := by
      rintro rfl
      rw [fresh] at isKern
      contradiction
    rw [isKernels, Table.find_insert_of_ne other, isKern]

/-- `createPoisonedKernel` for a kernel that is ready. -/
theorem Ready.createPoisonedKernel_eq (ready : Ready sys kernel info kern)
    (objects : List MemObj) : sys.createPoisonedKernel kernel clone objects =
      if needInternalBuffer (resolved sys.s info) then
        (sys.clCreateKernel clone kern.params).bind fun sys' =>
          setCloneArgs (resolved sys.s info) clone (List.range kern.params.length) objects sys'
      else some sys := by
  rw [createPoisonedKernel, ready.described, Option.bind_some, ready.isKernel, Option.bind_some,
    if_pos ⟨ready.complete, ready.live⟩]
  rfl

/-- The clone after the loop. -/
theorem Ready.cloned (ready : Ready sys kernel info kern) (inv : Inv sys)
    (created : sys.clCreateKernel clone kern.params = some start)
    (ran : setCloneArgs (resolved sys.s info) clone (List.range kern.params.length) objects start =
      some sys') :
    Cloned start (resolved sys.s info) clone kern.params kern.params.length sys' := by
  obtain ⟨cloned, -, -⟩ := inv.beginClone (resolved sys.s info) created
  rw [List.range_eq_range'] at ran
  have final := cloned.loop (ready.separate inv) (by rw [ready.length, Nat.zero_add]) ran
  rwa [Nat.zero_add] at final

theorem inv_step {call : ArgCall} (inv : Inv sys) (ran : sys.step call = some sys') :
    Inv sys' := by
  cases call with
  | createMem item =>
      simp only [step] at ran
      split_ifs at ran with usable
      obtain rfl := Option.some.inj ran
      exact inv.quiet (@quiet_clMemInsert sys.s _ { item with refCount := 1 } inv.coherent
        inv.entered usable.2)
  | retainMem memobj =>
      obtain rfl := Option.some.inj ran
      exact inv.quiet (quiet_clRetainMemObject inv.coherent inv.entered memobj)
  | releaseMem memobj =>
      obtain rfl := Option.some.inj ran
      exact inv.quiet (quiet_clReleaseMemObject inv.coherent inv.entered memobj)
  | createSvm item =>
      simp only [step] at ran
      split_ifs at ran with usable
      obtain rfl := Option.some.inj ran
      exact inv.quiet (quiet_clSvmMemInsert inv.coherent inv.entered usable.2)
  | freeSvm svmPointer =>
      obtain rfl := Option.some.inj ran
      exact inv.quiet (quiet_clSVMFree inv.coherent inv.entered svmPointer)
  | createKernel kernel params => exact (inv.clCreateKernel ran).1
  | setArg kernel argIndex argSize argValue =>
      exact (@Inv.setRuntimeArg sys sys' kernel argIndex (.memory argSize argValue) inv ran).inv
  | setSvmArg kernel argIndex argValue =>
      exact (@Inv.setRuntimeArg sys sys' kernel argIndex (.svm argValue) inv ran).inv
  | retainKernel kernel =>
      simp only [step] at ran
      split_ifs at ran with known
      obtain rfl := Option.some.inj ran
      exact inv.quiet (quiet_clRetainKernel inv.coherent inv.entered known)
  | releaseKernel kernel =>
      obtain rfl := Option.some.inj ran
      exact inv.quiet (quiet_clReleaseKernel inv.coherent inv.entered kernel)
  | createPoisoned kernel clone objects =>
      simp only [step] at ran
      have unfolded := ran
      rw [createPoisonedKernel] at unfolded
      obtain ⟨info, described, unfolded⟩ := Option.bind_eq_some_iff.mp unfolded
      obtain ⟨kern, isKernel, unfolded⟩ := Option.bind_eq_some_iff.mp unfolded
      split_ifs at unfolded with complete
      have ready : Ready sys kernel info kern := ⟨described, isKernel, complete.1, complete.2⟩
      rw [ready.createPoisonedKernel_eq] at ran
      split_ifs at ran
      · obtain ⟨start, created, ran⟩ := Option.bind_eq_some_iff.mp ran
        exact (ready.cloned inv created ran).inv
      · obtain rfl := Option.some.inj ran
        exact inv
  | delPoisonArg delKern dupe i =>
      obtain rfl := Option.some.inj ran
      rw [KernelState.delPoisonArg]
      split_ifs
      · have removed := inv.quiet (quiet_kargRemove inv.coherent inv.entered delKern i)
        rw [KernelState.releaseInternal]
        cases (sys.s.kargRemove delKern i).internalObject (sys.s.bufferBehind delKern i) with
        | none => exact removed
        | some m1 =>
            exact removed.quiet
              (quiet_clReleaseMemObject removed.coherent removed.entered m1.handle)
      · exact inv

theorem inv_of_run (run : Run.Reach step (fun _ _ => True) initial sys) : Inv sys :=
  run.invariant inv_initial fun _ _ _ inv _ ran => inv_step inv ran

/-! ## Arguments that are not replaced -/

/-- The argument is a memory object without canary. -/
def CanaryLess (s : KernelState) (info : KernelInfo) (kern : RuntimeKernel) (i : Nat) : Prop :=
  ∃ param entry p m, kern.params[i]? = some param ∧ param.isObject ∧
    info.argList.find i = some entry ∧ entry.buffer = some p ∧ s.memobjs.find p = some m ∧
    m.hasCanary = false

/-- A kernel that has to be cloned, for which a kernel and memory objects can be
made. -/
structure Clonable (sys : ArgSystem) (kernel clone : Handle) (objects : List MemObj)
    (info : KernelInfo) (kern : RuntimeKernel) : Prop extends Ready sys kernel info kern where
  needs : needInternalBuffer (resolved sys.s info)
  fresh : clone ≠ NULL ∧ sys.kernels.find clone = none
  creates : Creates sys.s objects (replacedArgs (resolved sys.s info)).length

/-- The clone is made, and runs with every argument of the kernel that is not a
memory object without canary. -/
def RunsWith (sys : ArgSystem) (kernel clone : Handle) (objects : List MemObj)
    (info : KernelInfo) (kern : RuntimeKernel) : Prop :=
  ∃ sys' kern', sys.createPoisonedKernel kernel clone objects = some sys' ∧
    sys'.kernels.find kernel = some kern ∧ sys'.kernels.find clone = some kern' ∧
    ∀ i, ¬ CanaryLess sys.s info kern i → kern'.args i = kern.args i

/-- Every SVM pointer that was set is the first byte of the region that was found
for it, and no other argument than a memory object is taken for one without
canary. -/
structure SetAgain (s : KernelState) (info : KernelInfo) (kern : RuntimeKernel) : Prop where
  bases : ∀ i pointer, kern.args i = some (.svm pointer) → ∃ entry p region,
    info.argList.find i = some entry ∧ entry.svmBuffer = some p ∧
      s.svmobjs.find p = some region ∧ region.handle = pointer
  objects : ∀ i entry p m, info.argList.find i = some entry → entry.buffer = some p →
    s.memobjs.find p = some m → m.hasCanary = false →
      ∃ param, kern.params[i]? = some param ∧ param.isObject

theorem setAgain_of_runsWith (inv : Inv sys) (ready : Ready sys kernel info kern)
    (needs : needInternalBuffer (resolved sys.s info))
    (runs : RunsWith sys kernel clone objects info kern) : SetAgain sys.s info kern := by
  obtain ⟨sys', kern', ran, -, isClone, same⟩ := runs
  rw [ready.createPoisonedKernel_eq, if_pos needs] at ran
  obtain ⟨start, created, ran⟩ := Option.bind_eq_some_iff.mp ran
  have isStart := (inv.beginClone (resolved sys.s info) created).2.1
  obtain ⟨-, -, -, ⟨kern'', isClone', -, gets, -⟩, -⟩ := ready.cloned inv created ran
  rw [isClone, Option.some.injEq] at isClone'
  subst isClone'
  rw [isStart] at gets
  constructor
  · intro i pointer given
    obtain ⟨param, isParam, -⟩ := (inv.typed kernel kern ready.isKernel).1 i _ given
    have iLt := (List.getElem?_eq_some_iff.mp isParam).1
    obtain ⟨arg, given', isArg⟩ := gets i iLt
    obtain ⟨entry, original, found, isOriginal, describes, source⟩ := ready.source inv isArg iLt
    rw [given, Option.some.injEq] at isOriginal
    rw [← isOriginal] at describes source
    have notCanaryLess : ¬ CanaryLess sys.s info kern i := by
      rintro ⟨_, entry', p, _, _, _, found', buffer, _⟩
      rw [found, Option.some.injEq] at found'
      rw [← found', describes.2.2] at buffer
      contradiction
    rw [same i notCanaryLess, given, Option.some.injEq] at given'
    rw [← given'] at source
    cases source with
    | region noBuffer isSvm isRegion => exact ⟨entry, _, _, found, isSvm, isRegion, rfl⟩
    | canaried buffer =>
        rw [describes.2.2] at buffer
        contradiction
  · intro i entry p m found buffer isMem noCanary
    have iLt := ready.index_lt found
    refine ⟨kern.params[i], List.getElem?_eq_getElem iLt, ?_⟩
    by_contra notObject
    have notCanaryLess : ¬ CanaryLess sys.s info kern i := by
      rintro ⟨param, _, _, _, isParam, isObject, -⟩
      rw [List.getElem?_eq_getElem iLt, Option.some.injEq] at isParam
      exact notObject (isParam ▸ isObject)
    obtain ⟨arg, given', isArg⟩ := gets i iLt
    obtain ⟨entry', original, found', given, -, source⟩ := ready.source inv isArg iLt
    rw [found, Option.some.injEq] at found'
    subst found'
    rw [same i notCanaryLess, given, Option.some.injEq] at given'
    cases source with
    | value noBuffer =>
        rw [noBuffer] at buffer
        contradiction
    | region noBuffer =>
        rw [noBuffer] at buffer
        contradiction
    | canaried buffer' isMem' canary =>
        rw [buffer, Option.some.injEq] at buffer'
        rw [← buffer', isMem, Option.some.injEq] at isMem'
        rw [isMem', canary] at noCanary
        contradiction
    | replaced buffer' isMem' _ isObject other =>
        rw [isObject, RuntimeArg.memory.injEq, Option.some.injEq] at given'
        exact other given'.2.symm

/-- What the clone gets is the argument itself, or a memory object for a memory
object without canary. -/
theorem Ready.gets_again (ready : Ready sys kernel info kern) (inv : Inv sys)
    (again : SetAgain sys.s info kern) (iLt : i < kern.params.length)
    (gets : Gets sys.s (resolved sys.s info) i arg) : kern.args i = some arg ∨
      CanaryLess sys.s info kern i ∧ ∃ handle handle', arg = .memory SIZEOF_MEM (some handle) ∧
        kern.args i = some (.memory SIZEOF_MEM (some handle')) := by
  obtain ⟨entry, original, found, given, describes, source⟩ := ready.source inv gets iLt
  cases source with
  | value noBuffer noSvm =>
      cases original with
      | memory size value =>
          rw [given, describes.1, describes.2.1]
          exact Or.inl rfl
      | svm pointer =>
          obtain ⟨entry', p, region, found', isSvm, -⟩ := again.bases i pointer given
          rw [found, Option.some.injEq] at found'
          rw [← found', noSvm] at isSvm
          contradiction
  | @region p r noBuffer isSvm isRegion =>
      cases original with
      | memory size value =>
          rw [describes.2.2.1] at isSvm
          contradiction
      | svm pointer =>
          obtain ⟨entry', p', region', found', isSvm', isRegion', isBase⟩ :=
            again.bases i pointer given
          rw [found, Option.some.injEq] at found'
          rw [← found', isSvm, Option.some.injEq] at isSvm'
          rw [← isSvm', isRegion, Option.some.injEq] at isRegion'
          rw [given, ← isBase, isRegion']
          exact Or.inl rfl
  | canaried => exact Or.inl given
  | @replaced p m handle buffer isMem noCanary isObject other =>
      obtain ⟨param, isParam, takesObject⟩ := again.objects i entry p m found buffer isMem noCanary
      refine Or.inr ⟨⟨param, entry, p, m, isParam, takesObject, found, buffer, isMem, noCanary⟩,
        handle, m.handle, rfl, ?_⟩
      rw [given, isObject]

theorem runsWith_of_setAgain (inv : Inv sys)
    (clonable : Clonable sys kernel clone objects info kern)
    (again : SetAgain sys.s info kern) : RunsWith sys kernel clone objects info kern := by
  have ready := clonable.toReady
  obtain ⟨start, isStart⟩ : ∃ start, sys.clCreateKernel clone kern.params = some start :=
    ⟨_, if_pos clonable.fresh⟩
  obtain ⟨begun, same, kept⟩ := inv.beginClone (resolved sys.s info) isStart
  obtain ⟨typed, nonNull⟩ := inv.typed kernel kern ready.isKernel
  have takes : Takes start.s (resolved sys.s info) kern.params := by
    intro i arg iLt gets
    rw [same] at gets
    rw [ready.length] at iLt
    rcases ready.gets_again inv again iLt gets with given | ⟨-, handle, handle', rfl, given⟩
    · exact ⟨fun null => nonNull i (null ▸ given), typed i arg given⟩
    · obtain ⟨param, isParam, taken⟩ := typed i _ given
      exact ⟨RuntimeArg.noConfusion, param, isParam, taken⟩
  have creates : Creates start.s objects
      ((List.range' 0 kern.params.length).filter (isNew (resolved sys.s info))).length := by
    rw [same, ← List.range_eq_range', ← ready.length]
    exact clonable.creates
  obtain ⟨sys', ran⟩ := begun.loopRuns (ready.separate inv) takes
    (by rw [ready.length, Nat.zero_add]) creates
  rw [← List.range_eq_range'] at ran
  obtain ⟨-, -, others, ⟨kern', isClone, -, gets, after⟩, -⟩ := ready.cloned inv isStart ran
  have apart : kernel ≠ clone := by
    rintro rfl
    exact Option.some_ne_none kern (ready.isKernel.symm.trans clonable.fresh.2)
  refine ⟨sys', kern', ?_, ?_, isClone, fun i notCanaryLess => ?_⟩
  · rw [ready.createPoisonedKernel_eq, if_pos clonable.needs, isStart]
    exact ran
  · rw [others kernel apart]
    exact kept kernel kern ready.isKernel
  · by_cases iLt : i < kern.params.length
    · obtain ⟨arg, given, isArg⟩ := gets i iLt
      rw [same] at isArg
      rcases ready.gets_again inv again iLt isArg with original | ⟨canaryLess, -⟩
      · rw [given, original]
      · exact absurd canaryLess notCanaryLess
    · rw [after i (Nat.le_of_not_lt iLt)]
      cases given : kern.args i with
      | none => rfl
      | some arg =>
          obtain ⟨param, isParam, -⟩ := typed i arg given
          exact absurd (List.getElem?_eq_some_iff.mp isParam).1 iLt

/-- A kernel with a buffer without canary, an SVM pointer and a number. -/
def threeArgs (pointer : Nat) : List ArgCall :=
  [.createMem { handle := 11 },
    .createSvm { handle := 8192, mainBuff := 4096, context := 1, size := 64 },
    .createKernel 3 [.pointer, .pointer, .value 4], .setArg 3 0 8 (some 11),
    .setSvmArg 3 1 pointer, .setArg 3 2 4 (some 7)]

/-- A clone of this kernel can be made, wherever the pointer is in the region. -/
theorem clonable_threeArgs : ∀ pointer ∈ [8192, 8200], ∃ sys info kern,
    Run.Reach step (fun _ _ => True) initial sys ∧
      Clonable sys 3 4 [{ handle := 21 }] info kern ∧ kern.args 1 = some (.svm pointer) ∧
      ∀ entry p region, info.argList.find 1 = some entry → entry.svmBuffer = some p →
        sys.s.svmobjs.find p = some region → region.handle = 8192 := by
  have creates : ∀ s : KernelState, s.clMemAlloc.find 21 = none →
      Creates s [{ handle := 21 }] 1 := by
    intro s unused
    refine ⟨rfl, List.nodup_singleton _, fun object mem => ?_⟩
    rw [List.mem_singleton.mp mem]
    exact ⟨by decide, unused⟩
  intro pointer mem
  rcases List.mem_cons.mp mem with rfl | mem
  · refine ⟨_, _, _, Run.reach_of_foldlM (threeArgs 8192) rfl,
      ⟨⟨rfl, rfl, rfl, by decide⟩, by decide, ⟨by decide, rfl⟩, creates _ rfl⟩, rfl, ?_⟩
    intro entry p region isEntry isSvm isRegion
    obtain rfl := Option.some.inj isEntry
    obtain rfl := Option.some.inj isSvm
    exact (congrArg SvmObj.handle (Option.some.inj isRegion)).symm
  · obtain rfl := List.mem_singleton.mp mem
    refine ⟨_, _, _, Run.reach_of_foldlM (threeArgs 8200) rfl,
      ⟨⟨rfl, rfl, rfl, by decide⟩, by decide, ⟨by decide, rfl⟩, creates _ rfl⟩, rfl, ?_⟩
    intro entry p region isEntry isSvm isRegion
    obtain rfl := Option.some.inj isEntry
    obtain rfl := Option.some.inj isSvm
    exact (congrArg SvmObj.handle (Option.some.inj isRegion)).symm

/-- In every run, a clone runs with the arguments of its kernel that are not
replaced exactly when every SVM pointer among them is the first byte of its
region, and no value has the bits of the handle of a memory object without
canary. -/
theorem runsWith_iff (run : Run.Reach step (fun _ _ => True) initial sys)
    (clonable : Clonable sys kernel clone objects info kern) :
    RunsWith sys kernel clone objects info kern ↔ SetAgain sys.s info kern :=
  ⟨setAgain_of_runsWith (inv_of_run run) clonable.toReady clonable.needs,
    runsWith_of_setAgain (inv_of_run run) clonable⟩

/-- A pointer to the first byte of its region. -/
theorem runsWith_iff_base : ∃ sys info kern, kern.args 1 = some (.svm 8192) ∧
    (RunsWith sys 3 4 [{ handle := 21 }] info kern ↔ SetAgain sys.s info kern) := by
  obtain ⟨sys, info, kern, run, clonable, given, -⟩ := clonable_threeArgs 8192 (by decide)
  exact ⟨sys, info, kern, given, runsWith_iff run clonable⟩

/-- A pointer to the ninth byte of its region is not what the clone gets. -/
theorem not_runsWith : ∃ sys info kern, Run.Reach step (fun _ _ => True) initial sys ∧
    Clonable sys 3 4 [{ handle := 21 }] info kern ∧ kern.args 1 = some (.svm 8200) ∧
    ¬ RunsWith sys 3 4 [{ handle := 21 }] info kern := by
  obtain ⟨sys, info, kern, run, clonable, given, base⟩ := clonable_threeArgs 8200 (by decide)
  refine ⟨sys, info, kern, run, clonable, given, fun runs => ?_⟩
  have again := setAgain_of_runsWith (inv_of_run run) clonable.toReady clonable.needs runs
  obtain ⟨entry, p, region, isEntry, isSvm, isRegion, isBase⟩ := again.bases 1 8200 given
  have elsewhere := base entry p region isEntry isSvm isRegion
  rw [isBase] at elsewhere
  contradiction

end ArgSystem

end Clarmor
