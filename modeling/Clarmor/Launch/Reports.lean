import Clarmor.Library.Run
import Clarmor.Launch.Arguments
import Clarmor.Wrapper.Kernels

/-!
# Reports that come after their launch

With `KERN_CALLBACK` a check on the device is not waited for:
`analyze_check_results` keeps a pointer to the description of the kernel that
ran, and `verify_callback` looks the arguments up when the results have arrived.
Meanwhile the host goes on: it cleans the clone of the kernel up, and the
application sets arguments and releases objects.

A callback comes between any two steps of the host.  Setting an argument is two of
them, since `karg_remove` and `karg_insert` take the lock of the list one after the
other, and so is a turn of `delPoisonKernel`.  Which objects a check finds an overflow in
is left open.
-/

namespace Clarmor

open Word

/-- `verif_info`: the description of the kernel and the objects with an overflow.
What the launch passed is remembered with it. -/
structure Report where
  kernInfo : Address
  overflows : List Handle
  passed : List (Nat × Handle)
deriving DecidableEq, Repr

/-- One call of `overflowError`: the object, and the argument it was put down
to. -/
structure Reported where
  buffer : Handle
  passed : List (Nat × Handle)
  result : BufferIndex
deriving DecidableEq, Repr

/-- What an argument is set to. -/
inductive ArgValue where
  | mem (argSize : Nat) (argValue : Option Nat)
  | svm (argValue : Nat)
deriving DecidableEq, Repr

/-- Where the host is: between two calls; in a call that sets an argument, with the old one
removed; or in a launch.  `found` are the results of the checks that were not analyzed yet;
`dupe` is there when the kernel is a clone; `m1` is the buffer of the argument that was
removed. -/
inductive HostPhase where
  | idle
  | setting (kernel : Handle) (argIndex : Nat) (value : ArgValue)
  | checking (kernel : Handle) (dupe : Option (List Nat)) (passed : List (Nat × Handle))
      (found : List (List Handle))
  | deleting (clone : Handle) (dupe : List Nat) (i : Nat)
  | releasing (clone : Handle) (dupe : List Nat) (i : Nat) (m1 : Option Address)
deriving DecidableEq, Repr

/-- The wrapper's descriptions; how many arguments the kernels of the runtime
have, which are never released there; the references to kernels that their users
hold; and the reports to come and made. -/
structure ReportSystem where
  s : KernelState
  numArgs : Table Handle Nat
  refs : Handle → Nat
  phase : HostPhase
  reports : List Report
  log : List Reported

/-- What happens: calls of the application, the next step of a call that is not over, and a
callback.  A launch has the handles that its clone gets, and what its checks
find. -/
inductive ReportCall where
  | createMem (item : MemObj)
  | retainMem (memobj : Handle)
  | releaseMem (memobj : Handle)
  | createSvm (item : SvmObj)
  | freeSvm (svmPointer : Nat)
  | createKernel (kernel : Handle) (nargs : Nat)
  | setArg (kernel : Handle) (argIndex argSize : Nat) (argValue : Option Nat)
  | setSvmArg (kernel : Handle) (argIndex argValue : Nat)
  | retainKernel (kernel : Handle)
  | releaseKernel (kernel : Handle)
  | launch (kernel clone : Handle) (objects : List MemObj) (found : List (List Handle))
  | proceed
  | callback (n : Nat)

namespace KernelState

/-- An argument with what its pointers lead to. -/
def resolve (s : KernelState) (e : Nat × ArgEntry) : KernelArg :=
  ⟨e.1, e.2.size, e.2.value, e.2.buffer.bind s.memobjs.find, e.2.svmBuffer.bind s.svmobjs.find⟩

/-- The objects that arguments pass, with the index. -/
def passedHandles (s : KernelState) (args : OrderedMap Nat ArgEntry) : List (Nat × Handle) :=
  args.entries.filterMap fun e => (s.argHandle e.2).join.map fun handle => (e.1, handle)

/-- A new memory object of the detector. -/
def createInternal (s : KernelState) (object : MemObj) : Option KernelState :=
  if object.handle ≠ NULL ∧ s.clMemAlloc.find object.handle = none then
    some (s.clMemInsert { object with refCount := 1, detectorInternalBuffer := true })
  else none

/-- The loop of `createPoisonedKernel` that sets the arguments of the clone;
`objects` are the memory objects that the creations in it return. -/
def setCloneArgs (args : List KernelArg) (clone : Handle) :
    List Nat → List MemObj → KernelState → Option KernelState
  | [], _, s => some s
  | i :: rest, objects, s =>
      if firstUse args i = i then
        match args[i]? with
        | none => none
        | some arg =>
            match arg.svmBuffer, arg.buffer with
            | none, none =>
                setCloneArgs args clone rest objects
                  (s.clSetKernelArg clone i arg.size arg.value)
            | some region, _ =>
                setCloneArgs args clone rest objects
                  (s.clSetKernelArgSVMPointer clone i region.handle)
            | none, some m =>
                if m.hasCanary then
                  setCloneArgs args clone rest objects
                    (s.clSetKernelArg clone i SIZEOF_MEM (some m.handle))
                else
                  match objects with
                  | [] => none
                  | object :: objects =>
                      (s.createInternal object).bind fun s =>
                      setCloneArgs args clone rest objects
                        (s.clSetKernelArg clone i SIZEOF_MEM (some object.handle))
      else
        ((s.kinfoFind clone).bind fun info => info.argList.find (firstUse args i)).bind fun arg =>
        setCloneArgs args clone rest objects (s.clSetKernelArg clone i arg.size arg.value)

/-- The description of a kernel that `kinfo_find` does not find is made. -/
def kinfoFindOrInsert (s : KernelState) (kernel : Handle) : KernelState :=
  match s.kernList.find kernel with
  | none => s.kinfoInsert ⟨kernel, OrderedMap.empty, 1⟩
  | some _ => s

/-- `karg_remove` of an argument of a kernel. -/
def kargRemove (s : KernelState) (kernel : Handle) (i : Nat) : KernelState :=
  s.kinfoModify kernel fun info => { info with argList := info.argList.remove i }

/-- `karg_insert` of an argument of a kernel. -/
def kargInsert (s : KernelState) (kernel : Handle) (i : Nat) (arg : ArgEntry) : KernelState :=
  s.kinfoModify kernel fun info => { info with argList := info.argList.insert i arg }

/-- The buffer of an argument of a kernel. -/
def bufferBehind (s : KernelState) (kernel : Handle) (i : Nat) : Option Address :=
  (s.kinfoFind kernel).bind fun info => (info.argList.find i).bind ArgEntry.buffer

/-- The memory object behind a buffer, when it is the detector's. -/
def internalObject (s : KernelState) (m1 : Option Address) : Option MemObj :=
  (m1.bind s.memobjs.find).filter MemObj.detectorInternalBuffer

/-- `clReleaseMemObject` of the buffer of a removed argument, when it is the detector's. -/
def releaseInternal (s : KernelState) (m1 : Option Address) : KernelState :=
  match s.internalObject m1 with
  | none => s
  | some m1 => s.clReleaseMemObject m1.handle

/-- One turn of the loop of `delPoisonKernel`. -/
def delPoisonArg (s : KernelState) (delKern : Handle) (dupe : List Nat) (i : Nat) :
    KernelState :=
  if dupe[i]? = some i then
    (s.kargRemove delKern i).releaseInternal (s.bufferBehind delKern i)
  else s

end KernelState

/-- The argument that the calls enter. -/
def ArgValue.entry (s : KernelState) : ArgValue → ArgEntry
  | mem argSize argValue => s.memArg argSize argValue
  | svm argValue => s.svmArg argValue

namespace ReportSystem

open KernelState

/-- The start of a process. -/
def initial : ReportSystem := ⟨KernelState.initial, Table.empty, fun _ => 0, .idle, [], []⟩

/-- The check of a kernel that has been launched. -/
def startChecks (sys : ReportSystem) (kernel : Handle) (dupe : Option (List Nat))
    (found : List (List Handle)) : Option ReportSystem :=
  (sys.s.kinfoFind kernel).map fun info =>
    { sys with phase := .checking kernel dupe (sys.s.passedHandles info.argList) found }

/-- `createPoisonedKernel` and the launch.  All arguments are set, and the objects
behind them exist. -/
def launchKernel (sys : ReportSystem) (kernel clone : Handle) (objects : List MemObj)
    (found : List (List Handle)) : Option ReportSystem :=
  (sys.s.kinfoFind kernel).bind fun info =>
  (sys.numArgs.find kernel).bind fun nargs =>
  if info.argList.entries.map Prod.fst = List.range nargs ∧
      ∀ e ∈ info.argList.entries, (sys.s.argHandle e.2).isSome then
    let args := info.argList.entries.map sys.s.resolve
    if needInternalBuffer args then
      if clone ≠ NULL ∧ sys.numArgs.find clone = none then
        (setCloneArgs args clone (List.range nargs) objects sys.s).bind fun s =>
        startChecks
          { sys with
            s := s
            numArgs := sys.numArgs.insert clone nargs
            refs := Function.update sys.refs clone 1 }
          clone (some (findDuplicates args)) found
      else none
    else sys.startChecks kernel none found
  else none

/-- `analyze_check_results`. -/
def analyzeCheckResults (sys : ReportSystem) (kernel : Handle) (passed : List (Nat × Handle))
    (overflows : List Handle) : Option ReportSystem :=
  (sys.s.kernList.find kernel).map fun kernInfo =>
    { sys with
      s := sys.s.clRetainKernel kernel
      reports := ⟨kernInfo, overflows, passed⟩ :: sys.reports }

/-- The first half of the calls that set an argument. -/
def startSetting (sys : ReportSystem) (kernel : Handle) (argIndex : Nat) (value : ArgValue) :
    ReportSystem :=
  { sys with
    s := (sys.s.kinfoFindOrInsert kernel).kargRemove kernel argIndex
    phase := .setting kernel argIndex value }

/-- The next step of the host in a call.  Copying the contents of the clone's
objects back changes no description. -/
def proceed (sys : ReportSystem) : Option ReportSystem :=
  match sys.phase with
  | .idle => none
  | .setting kernel argIndex value =>
      some { sys with
        s := sys.s.kargInsert kernel argIndex (value.entry sys.s)
        phase := .idle }
  | .checking kernel dupe passed (overflows :: found) =>
      (sys.analyzeCheckResults kernel passed overflows).map fun sys =>
        { sys with phase := .checking kernel dupe passed found }
  | .checking _ none _ [] => some { sys with phase := .idle }
  | .checking kernel (some dupe) _ [] => some { sys with phase := .deleting kernel dupe 0 }
  | .deleting clone dupe i =>
      if i < dupe.length then
        if dupe[i]? = some i then
          some { sys with
            s := sys.s.kargRemove clone i
            phase := .releasing clone dupe i (sys.s.bufferBehind clone i) }
        else some { sys with phase := .deleting clone dupe (i + 1) }
      else
        some { sys with
          s := sys.s.clReleaseKernel clone
          refs := Function.update sys.refs clone 0
          phase := .idle }
  | .releasing clone dupe i m1 =>
      some { sys with
        s := sys.s.releaseInternal m1
        phase := .deleting clone dupe (i + 1) }

/-- `report_kernel_overflows` with the arguments that are there now. -/
def reportKernelOverflows (s : KernelState) (r : Report) (args : List (Nat × ArgEntry)) :
    List Reported :=
  r.overflows.map fun buffer => ⟨buffer, r.passed, s.getBufferIndex buffer args⟩

/-- `verify_callback`. -/
def verifyCallback (sys : ReportSystem) (n : Nat) : Option ReportSystem :=
  (sys.reports[n]?).map fun r =>
    match sys.s.kernInfos.find r.kernInfo with
    | none =>
        { sys with
          reports := sys.reports.eraseIdx n
          log := (r.overflows.map fun buffer => ⟨buffer, r.passed, .freed⟩) ++ sys.log }
    | some kernInfo =>
        { sys with
          s := sys.s.clReleaseKernel kernInfo.handle
          reports := sys.reports.eraseIdx n
          log := reportKernelOverflows sys.s r kernInfo.argList.entries ++ sys.log }

/-- A call of the application, which makes none while it is in another one. -/
def apiCall (sys : ReportSystem) : ReportCall → Option ReportSystem
  | .createMem item =>
      if item.handle ≠ NULL ∧ sys.s.clMemAlloc.find item.handle = none then
        some { sys with
          s := sys.s.clMemInsert { item with refCount := 1, detectorInternalBuffer := false } }
      else none
  | .retainMem memobj => some { sys with s := sys.s.clRetainMemObject memobj }
  | .releaseMem memobj => some { sys with s := sys.s.clReleaseMemObject memobj }
  | .createSvm item =>
      if item.handle ≠ NULL ∧ sys.s.clSvmMemAlloc.find item.handle = none then
        some { sys with s := sys.s.clSvmMemInsert item }
      else none
  | .freeSvm svmPointer => some { sys with s := sys.s.clSVMFree svmPointer }
  | .createKernel kernel nargs =>
      if kernel ≠ NULL ∧ sys.numArgs.find kernel = none then
        some { sys with
          numArgs := sys.numArgs.insert kernel nargs
          refs := Function.update sys.refs kernel 1 }
      else none
  | .setArg kernel argIndex argSize argValue =>
      if 0 < sys.refs kernel ∧ ∃ nargs ∈ sys.numArgs.find kernel, argIndex < nargs then
        some (sys.startSetting kernel argIndex (.mem argSize argValue))
      else none
  | .setSvmArg kernel argIndex argValue =>
      if 0 < sys.refs kernel ∧ ∃ nargs ∈ sys.numArgs.find kernel, argIndex < nargs then
        some (sys.startSetting kernel argIndex (.svm argValue))
      else none
  | .retainKernel kernel =>
      if 0 < sys.refs kernel then
        some { sys with
          s := sys.s.clRetainKernel kernel
          refs := Function.update sys.refs kernel (sys.refs kernel + 1) }
      else none
  | .releaseKernel kernel =>
      if 0 < sys.refs kernel then
        some { sys with
          s := sys.s.clReleaseKernel kernel
          refs := Function.update sys.refs kernel (sys.refs kernel - 1) }
      else none
  | .launch kernel clone objects found =>
      if 0 < sys.refs kernel then sys.launchKernel kernel clone objects found else none
  | .proceed => none
  | .callback _ => none

/-- One step of the host or of a callback. -/
def step (sys : ReportSystem) : ReportCall → Option ReportSystem
  | .proceed => sys.proceed
  | .callback n => sys.verifyCallback n
  | call => if sys.phase = .idle then sys.apiCall call else none

/-- The reports describe the launches that they belong to. -/
structure Describes (sys : ReportSystem) : Prop where
  /-- The description that a callback will use is allocated. -/
  allocated : ∀ r ∈ sys.reports, (sys.s.kernInfos.find r.kernInfo).isSome
  /-- No freed description was followed. -/
  live : ∀ e ∈ sys.log, e.result ≠ .freed
  /-- An index is one at which the launch passed the object. -/
  indexed : ∀ e ∈ sys.log, ∀ i, e.result = .index i → (i, e.buffer) ∈ e.passed
  /-- Only an object that was not passed is reported without an index. -/
  unpassed : ∀ e ∈ sys.log, e.result = .none → ∀ i, (i, e.buffer) ∉ e.passed

/-! ## What may happen while a report is pending -/

/-- Something holds for every overflow that is still to be reported, with the
arguments in which it will be looked for. -/
def ForPending (s : KernelState) (reports : List Report)
    (P : Address → OrderedMap Nat ArgEntry → Handle → Prop) : Prop :=
  ∀ r ∈ reports, ∀ buffer ∈ r.overflows, ∀ info, s.kernInfos.find r.kernInfo = some info →
    P r.kernInfo info.argList buffer

/-- Releasing a memory object frees no description that will be read. -/
def KeepsMem (s : KernelState) (reports : List Report) (memobj : Handle) : Prop :=
  ForPending s reports fun _ args buffer => ∀ j arg p, s.Reads args buffer j →
    args.find j = some arg → arg.buffer = some p → ¬ s.FreesMem memobj p

/-- Freeing shared virtual memory frees no description that will be read. -/
def KeepsSvm (s : KernelState) (reports : List Report) (svmPointer : Nat) : Prop :=
  ForPending s reports fun _ args buffer => ∀ j arg p, s.Reads args buffer j →
    args.find j = some arg → arg.buffer = none → arg.svmBuffer = some p →
      ¬ s.FreesSvm svmPointer p

/-- An argument is none of those that will be read. -/
def SkipsArg (s : KernelState) (reports : List Report) (kernel : Handle) (i : Nat) : Prop :=
  ForPending s reports fun q args buffer => s.kernList.find kernel = some q →
    ¬ s.Reads args buffer i

instance (s : KernelState) (reports : List Report) (kernel : Handle) (i : Nat) :
    Decidable (SkipsArg s reports kernel i) :=
  inferInstanceAs (Decidable (∀ r ∈ reports, ∀ buffer ∈ r.overflows,
    ∀ info ∈ s.kernInfos.find r.kernInfo, s.kernList.find kernel = some r.kernInfo →
      ¬ s.Reads info.argList buffer i))

/-- The steps that leave alone what the pending reports will read, and that do not
exhaust a reference count. -/
def LeavesPending (sys : ReportSystem) : ReportCall → Prop
  | .releaseMem memobj => KeepsMem sys.s sys.reports memobj
  | .freeSvm svmPointer => KeepsSvm sys.s sys.reports svmPointer
  | .setArg kernel argIndex _ _ | .setSvmArg kernel argIndex _ =>
      SkipsArg sys.s sys.reports kernel argIndex
  | .retainKernel kernel =>
      ∀ info, sys.s.kinfoFind kernel = some info → info.refCount + 1 < 4294967296
  | .launch kernel _ _ found =>
      ∀ info, sys.s.kinfoFind kernel = some info → info.refCount + found.length < 4294967296
  | .proceed =>
      match sys.phase with
      | .setting kernel argIndex _ => SkipsArg sys.s sys.reports kernel argIndex
      | .deleting clone dupe i => dupe[i]? = some i → SkipsArg sys.s sys.reports clone i
      | .releasing _ _ _ m1 => ∀ m, sys.s.internalObject m1 = some m →
          KeepsMem sys.s sys.reports m.handle
      | _ => True
  | _ => True

/-! ## What will be read -/

/-- Looking an object up among arguments gives what a launch passed. -/
def Answers (s : KernelState) (args : OrderedMap Nat ArgEntry) (passed : List (Nat × Handle))
    (buffer : Handle) : Prop :=
  (∃ i, s.getBufferIndex buffer args.entries = .index i ∧ (i, buffer) ∈ passed) ∨
    (s.getBufferIndex buffer args.entries = .none ∧ ∀ i, (i, buffer) ∉ passed)

/-- A pending report will be answered by what its launch passed. -/
def Watched (s : KernelState) (r : Report) : Prop :=
  ∃ info, s.kernInfos.find r.kernInfo = some info ∧
    ∀ buffer ∈ r.overflows, Answers s info.argList r.passed buffer

variable {s s' : KernelState} {args args' : OrderedMap Nat ArgEntry} {buffer : Handle}
  {passed : List (Nat × Handle)} {reports reports' : List Report} {r : Report}

theorem Answers.safe (answers : Answers s args passed buffer) :
    s.getBufferIndex buffer args.entries ≠ .freed := by
  rcases answers with ⟨i, answer, -⟩ | ⟨answer, -⟩
  · rw [answer]
    exact BufferIndex.noConfusion
  · rw [answer]
    exact BufferIndex.noConfusion

theorem Answers.congr (answers : Answers s args passed buffer)
    (same : ∀ j, s.Reads args buffer j → (s'.Points args' buffer j ↔ s.Points args buffer j))
    (live : ∀ j arg, s.Reads args buffer j → args'.find j = some arg →
      ∃ handle, s'.argHandle arg = some handle) :
    Answers s' args' passed buffer := by
  rw [Answers, getBufferIndex_congr answers.safe same live]
  exact answers

/-- The same arguments, which lead to what they led to. -/
theorem Answers.frame (answers : Answers s args passed buffer)
    (kept : ∀ j arg handle, s.Reads args buffer j → args.find j = some arg →
      s.argHandle arg = some handle → s'.argHandle arg = some handle) :
    Answers s' args passed buffer := by
  apply answers.congr
  · intro j reads
    constructor
    · rintro ⟨arg, found, points⟩
      obtain ⟨handle, read⟩ := argHandle_of_reads answers.safe reads found
      have read' := kept j arg handle reads found read
      rw [points, Option.some.injEq] at read'
      exact ⟨arg, found, by rw [read, ← read']⟩
    · rintro ⟨arg, found, points⟩
      exact ⟨arg, found, kept j arg (some buffer) reads found points⟩
  · intro j arg reads found
    obtain ⟨handle, read⟩ := argHandle_of_reads answers.safe reads found
    exact ⟨handle, kept j arg handle reads found read⟩

theorem mem_passedHandles {i : Nat} {handle : Handle} :
    (i, handle) ∈ s.passedHandles args ↔ s.Points args handle i := by
  simp only [passedHandles, List.mem_filterMap, Option.map_eq_some_iff, Option.join_eq_some_iff,
    Prod.mk.injEq, Points, OrderedMap.find_eq_some_iff]
  constructor
  · rintro ⟨⟨j, arg⟩, mem, h, read, rfl, rfl⟩
    exact ⟨arg, mem, read⟩
  · rintro ⟨arg, mem, read⟩
    exact ⟨(i, arg), mem, handle, read, rfl, rfl⟩

/-- Right after a launch every object is found where it was passed. -/
theorem answers_passedHandles
    (live : ∀ j arg, args.find j = some arg → ∃ handle, s.argHandle arg = some handle) :
    Answers s args (s.passedHandles args) buffer := by
  by_cases points : ∃ i, s.Points args buffer i
  · left
    obtain ⟨i, points, least⟩ : ∃ i, s.Points args buffer i ∧
        ∀ j < i, ¬ s.Points args buffer j := by
      classical
      exact ⟨Nat.find points, Nat.find_spec points, fun j lt => Nat.find_min points lt⟩
    refine ⟨i, getBufferIndex_eq_index_iff.mpr ⟨points, fun j arg lt found => ?_⟩,
      mem_passedHandles.mpr points⟩
    obtain ⟨handle, read⟩ := live j arg found
    refine ⟨handle, read, ?_⟩
    rintro rfl
    exact least j lt ⟨arg, found, read⟩
  · right
    rw [not_exists] at points
    refine ⟨getBufferIndex_eq_none_iff.mpr fun j arg found => ?_, fun i mem =>
      points i (mem_passedHandles.mp mem)⟩
    obtain ⟨handle, read⟩ := live j arg found
    refine ⟨handle, read, ?_⟩
    rintro rfl
    exact points j ⟨arg, found, read⟩

/-! ## The descriptions of kernels and their counts -/

/-- How many callbacks will use a description. -/
def pending (reports : List Report) (p : Address) : Nat := (reports.map Report.kernInfo).count p

/-- The count of a kernel is that of its users and its callbacks, and every
pending report will be answered. -/
structure Core (s : KernelState) (refs : Handle → Nat) (numArgs : Table Handle Nat)
    (reports : List Report) : Prop where
  coherent : s.Coherent
  counted : ∀ p info, s.kernInfos.find p = some info →
    info.refCount = refs info.handle + pending reports p ∧ 0 < info.refCount ∧
      info.refCount < 4294967296
  unlisted : ∀ k, s.kernList.find k = none → refs k ≤ 1
  unknown : ∀ k, numArgs.find k = none → refs k = 0 ∧ s.kernList.find k = none
  watched : ∀ r ∈ reports, Watched s r

variable {refs refs' : Handle → Nat} {numArgs : Table Handle Nat}

theorem core_initial : Core KernelState.initial (fun _ => 0) Table.empty [] where
  coherent := coherent_initial
  counted := by
    intro p info found
    contradiction
  unlisted := fun _ _ => Nat.zero_le _
  unknown := fun _ _ => ⟨rfl, rfl⟩
  watched := by simp

namespace Core

/-- A call that concerns memory objects only. -/
theorem memory {memGone svmGone : Address → Prop} (core : Core s refs numArgs reports)
    (coherent : s'.Coherent) (stay : s.Stay s' memGone svmGone)
    (kernInfos : s'.kernInfos = s.kernInfos) (kernList : s'.kernList = s.kernList)
    (keeps : ForPending s reports fun _ args buffer => ∀ j arg, s.Reads args buffer j →
      args.find j = some arg → (∀ p, arg.buffer = some p → ¬ memGone p) ∧
        ∀ p, arg.buffer = none → arg.svmBuffer = some p → ¬ svmGone p) :
    Core s' refs numArgs reports where
  coherent := coherent
  counted := by
    rw [kernInfos]
    exact core.counted
  unlisted := by
    rw [kernList]
    exact core.unlisted
  unknown := by
    rw [kernList]
    exact core.unknown
  watched := by
    intro r mem
    obtain ⟨info, found, answers⟩ := core.watched r mem
    refine ⟨info, by rw [kernInfos, found], fun buffer overflow => ?_⟩
    apply (answers buffer overflow).frame
    intro j arg handle reads isArg read
    obtain ⟨memKept, svmKept⟩ := keeps r mem buffer overflow info found j arg reads isArg
    exact stay.argHandle read memKept svmKept

/-- A new description of a kernel, which no report uses. -/
theorem insert {item : KernelInfo} (core : Core s refs numArgs reports)
    (fresh : s.kernList.find item.handle = none) (known : numArgs.find item.handle ≠ none)
    (count : item.refCount = refs' item.handle)
    (bounds : 0 < item.refCount ∧ item.refCount < 4294967296)
    (same : ∀ k ≠ item.handle, refs' k = refs k) :
    Core (s.kinfoInsert item) refs' numArgs reports := by
  have room := core.coherent.kernBelow s.nextAddress (le_refl _)
  have old : ∀ r ∈ reports, r.kernInfo ≠ s.nextAddress := by
    intro r mem here
    obtain ⟨info, found, -⟩ := core.watched r mem
    rw [here, room] at found
    contradiction
  have unused : pending reports s.nextAddress = 0 := by
    rw [pending, List.count_eq_zero]
    intro mem
    obtain ⟨r, mem, here⟩ := List.mem_map.mp mem
    exact old r mem here
  constructor
  case coherent => exact kinfoInsert_coherent core.coherent fresh
  case counted =>
    intro p info found
    simp only [kinfoInsert, Table.find_insert, room, Option.getD_none] at found
    split_ifs at found with here
    · obtain rfl := Option.some.inj found
      rw [here, unused, ← count]
      exact ⟨rfl, bounds⟩
    · obtain ⟨counted, bounds⟩ := core.counted p info found
      have other : info.handle ≠ item.handle := by
        intro same
        have listed := core.coherent.entered p info found
        rw [same, fresh] at listed
        contradiction
      rw [same _ other]
      exact ⟨counted, bounds⟩
  case unlisted =>
    intro k unlisted
    simp only [kinfoInsert, Table.find_insert] at unlisted
    split_ifs at unlisted with here
    rw [same k here]
    exact core.unlisted k unlisted
  case unknown =>
    intro k unknown
    have other : k ≠ item.handle := fun here => known (here ▸ unknown)
    obtain ⟨none, unlisted⟩ := core.unknown k unknown
    rw [same k other]
    exact ⟨none, by simp only [kinfoInsert, Table.find_insert_of_ne other, unlisted]⟩
  case watched =>
    intro r mem
    obtain ⟨info, found, answers⟩ := core.watched r mem
    refine ⟨info, by simp only [kinfoInsert, Table.find_insert_of_ne (old r mem), found], ?_⟩
    intro buffer overflow
    exact (answers buffer overflow).frame fun _ _ _ _ _ read => read

/-- A change of the description of one kernel. -/
theorem modify {kernel : Handle} {p : Address} {info : KernelInfo} {f : KernelInfo → KernelInfo}
    (core : Core s refs numArgs reports) (listed : s.kernList.find kernel = some p)
    (found : s.kernInfos.find p = some info) (keeps : ∀ info, (f info).handle = info.handle)
    (count : (f info).refCount = refs' kernel + pending reports' p)
    (bounds : 0 < (f info).refCount ∧ (f info).refCount < 4294967296)
    (same : ∀ k ≠ kernel, refs' k = refs k)
    (others : ∀ q ≠ p, pending reports' q = pending reports q)
    (watched : ∀ r ∈ reports', Watched s r)
    (answers : ∀ r ∈ reports', r.kernInfo = p → ∀ buffer ∈ r.overflows,
      Answers s (f info).argList r.passed buffer) :
    Core (s.kinfoModify kernel f) refs' numArgs reports' := by
  have handle : info.handle = kernel := by
    obtain ⟨info', found', same⟩ := core.coherent.listed kernel p listed
    rw [found, Option.some.injEq] at found'
    rw [found', same]
  have isList : (s.kinfoModify kernel f).kernList = s.kernList := by
    simp only [kinfoModify, listed]
  have isHeap : (s.kinfoModify kernel f).kernInfos = s.kernInfos.modify p f := by
    simp only [kinfoModify, listed]
  have isMem : (s.kinfoModify kernel f).memobjs = s.memobjs := by
    simp only [kinfoModify, listed]
  have isSvm : (s.kinfoModify kernel f).svmobjs = s.svmobjs := by
    simp only [kinfoModify, listed]
  have frame : ∀ {args passed buffer}, Answers s args passed buffer →
      Answers (s.kinfoModify kernel f) args passed buffer := by
    intro args passed buffer answers
    apply answers.frame
    intro _ arg _ _ _ read
    rw [argHandle_congr isMem isSvm, read]
  constructor
  case coherent => exact kinfoModify_coherent core.coherent keeps
  case counted =>
    intro q info' found'
    rw [isHeap, Table.find_modify] at found'
    split_ifs at found' with here
    · rw [found, Option.map_some, Option.some.injEq] at found'
      rw [← found', here, keeps, handle]
      exact ⟨count, bounds⟩
    · obtain ⟨counted, bounds'⟩ := core.counted q info' found'
      have other : info'.handle ≠ kernel := by
        intro equal
        have listed' := core.coherent.entered q info' found'
        rw [equal, listed, Option.some.injEq] at listed'
        exact here listed'.symm
      rw [same _ other, others q here]
      exact ⟨counted, bounds'⟩
  case unlisted =>
    intro k unlisted
    rw [isList] at unlisted
    have other : k ≠ kernel := by
      rintro rfl
      rw [listed] at unlisted
      contradiction
    rw [same k other]
    exact core.unlisted k unlisted
  case unknown =>
    intro k unknown
    obtain ⟨none, unlisted⟩ := core.unknown k unknown
    have other : k ≠ kernel := by
      rintro rfl
      rw [listed] at unlisted
      contradiction
    rw [same k other, isList]
    exact ⟨none, unlisted⟩
  case watched =>
    intro r mem
    by_cases here : r.kernInfo = p
    · refine ⟨f info, by rw [isHeap, here]; simp [found], fun buffer overflow => ?_⟩
      exact frame (answers r mem here buffer overflow)
    · obtain ⟨info', found', answers'⟩ := watched r mem
      refine ⟨info', by rw [isHeap, Table.find_modify_of_ne here, found'], ?_⟩
      exact fun buffer overflow => frame (answers' buffer overflow)

/-- Another count in the description of a kernel. -/
theorem recount {kernel : Handle} {p : Address} {info : KernelInfo} {f : KernelInfo → KernelInfo}
    (core : Core s refs numArgs reports) (listed : s.kernList.find kernel = some p)
    (found : s.kernInfos.find p = some info) (keeps : ∀ info, (f info).handle = info.handle)
    (keepsArgs : ∀ info, (f info).argList = info.argList)
    (count : (f info).refCount = refs' kernel + pending reports' p)
    (bounds : 0 < (f info).refCount ∧ (f info).refCount < 4294967296)
    (same : ∀ k ≠ kernel, refs' k = refs k)
    (others : ∀ q ≠ p, pending reports' q = pending reports q)
    (watched : ∀ r ∈ reports', Watched s r) :
    Core (s.kinfoModify kernel f) refs' numArgs reports' := by
  apply core.modify listed found keeps count bounds same others watched
  intro r mem here buffer overflow
  obtain ⟨info', found', answers⟩ := watched r mem
  rw [here, found, Option.some.injEq] at found'
  rw [keepsArgs, found']
  exact answers buffer overflow

/-- Another argument list in the description of a kernel. -/
theorem rearrange {kernel : Handle} {p : Address} {info : KernelInfo}
    {f : KernelInfo → KernelInfo} (core : Core s refs numArgs reports)
    (listed : s.kernList.find kernel = some p) (found : s.kernInfos.find p = some info)
    (keeps : ∀ info, (f info).handle = info.handle)
    (keepsCount : ∀ info, (f info).refCount = info.refCount)
    (answers : ∀ r ∈ reports, r.kernInfo = p → ∀ buffer ∈ r.overflows,
      Answers s (f info).argList r.passed buffer) :
    Core (s.kinfoModify kernel f) refs numArgs reports := by
  obtain ⟨counted, bounds⟩ := core.counted p info found
  obtain ⟨info', found', handle⟩ := core.coherent.listed kernel p listed
  rw [found, Option.some.injEq] at found'
  rw [← found'] at handle
  apply core.modify listed found keeps
  case count => rw [keepsCount, counted, handle]
  case bounds =>
    rw [keepsCount]
    exact bounds
  case same => exact fun _ _ => rfl
  case others => exact fun _ _ => rfl
  case watched => exact core.watched
  case answers => exact answers

/-- The description of a kernel goes when nobody uses it. -/
theorem remove {kernel : Handle} {p : Address} (core : Core s refs numArgs reports)
    (listed : s.kernList.find kernel = some p) (unheld : refs' kernel = 0)
    (unused : pending reports' p = 0) (same : ∀ k ≠ kernel, refs' k = refs k)
    (others : ∀ q ≠ p, pending reports' q = pending reports q)
    (watched : ∀ r ∈ reports', Watched s r) :
    Core { s with kernInfos := s.kernInfos.remove p, kernList := s.kernList.remove kernel } refs'
      numArgs reports' := by
  constructor
  case coherent => exact kinfoRemove_coherent core.coherent listed
  case counted =>
    intro q info found
    simp only [Table.find_remove] at found
    split_ifs at found with here
    obtain ⟨counted, bounds⟩ := core.counted q info found
    have other : info.handle ≠ kernel := by
      intro equal
      have listed' := core.coherent.entered q info found
      rw [equal, listed, Option.some.injEq] at listed'
      exact here listed'.symm
    rw [same _ other, others q here]
    exact ⟨counted, bounds⟩
  case unlisted =>
    intro k unlisted
    by_cases here : k = kernel
    · rw [here, unheld]
      exact Nat.zero_le _
    · rw [same k here]
      simp only [Table.find_remove_of_ne here] at unlisted
      exact core.unlisted k unlisted
  case unknown =>
    intro k unknown
    obtain ⟨none, unlisted⟩ := core.unknown k unknown
    have other : k ≠ kernel := by
      rintro rfl
      rw [listed] at unlisted
      contradiction
    rw [same k other]
    exact ⟨none, by simp only [Table.find_remove_of_ne other, unlisted]⟩
  case watched =>
    intro r mem
    obtain ⟨info, found, answers⟩ := watched r mem
    have other : r.kernInfo ≠ p := by
      intro here
      rw [pending, List.count_eq_zero] at unused
      exact unused (List.mem_map.mpr ⟨r, mem, here⟩)
    refine ⟨info, by simp only [Table.find_remove_of_ne other, found], fun buffer overflow => ?_⟩
    exact (answers buffer overflow).frame fun _ _ _ _ _ read => read

/-- `clRetainKernel` for one more user or one more callback. -/
theorem clRetainKernel {kernel : Handle} {p : Address} {info : KernelInfo}
    (core : Core s refs numArgs reports) (listed : s.kernList.find kernel = some p)
    (found : s.kernInfos.find p = some info) (bound : info.refCount + 1 < 4294967296)
    (count : refs' kernel + pending reports' p = refs kernel + pending reports p + 1)
    (same : ∀ k ≠ kernel, refs' k = refs k)
    (others : ∀ q ≠ p, pending reports' q = pending reports q)
    (watched : ∀ r ∈ reports', Watched s r) :
    Core (s.clRetainKernel kernel) refs' numArgs reports' := by
  obtain ⟨counted, -⟩ := core.counted p info found
  obtain ⟨info', found', handle⟩ := core.coherent.listed kernel p listed
  rw [found, Option.some.injEq] at found'
  rw [← found'] at handle
  have retained : s.clRetainKernel kernel =
      s.kinfoModify kernel fun info => { info with refCount := u32 (info.refCount + 1) } := by
    simp only [KernelState.clRetainKernel, listed]
  rw [retained]
  apply core.recount listed found
  case keeps => exact fun _ => rfl
  case keepsArgs => exact fun _ => rfl
  case count =>
    rw [u32_of_lt bound, counted, handle, count]
  case bounds =>
    rw [u32_of_lt bound]
    exact ⟨Nat.succ_pos _, bound⟩
  case same => exact same
  case others => exact others
  case watched => exact watched

/-- `clReleaseKernel` for a user or a callback that is done. -/
theorem clReleaseKernel {kernel : Handle} {p : Address} (core : Core s refs numArgs reports)
    (listed : s.kernList.find kernel = some p)
    (count : refs' kernel + pending reports' p + 1 = refs kernel + pending reports p)
    (same : ∀ k ≠ kernel, refs' k = refs k)
    (others : ∀ q ≠ p, pending reports' q = pending reports q)
    (watched : ∀ r ∈ reports', Watched s r) :
    Core (s.clReleaseKernel kernel) refs' numArgs reports' := by
  obtain ⟨info, found, handle⟩ := core.coherent.listed kernel p listed
  obtain ⟨counted, positive, below⟩ := core.counted p info found
  rw [handle] at counted
  have less : sub32 info.refCount 1 = refs' kernel + pending reports' p := by
    rw [sub32_of_le below positive, counted]
    exact Nat.sub_eq_of_eq_add count.symm
  by_cases last : sub32 info.refCount 1 = 0
  · have released : s.clReleaseKernel kernel =
        { s with kernInfos := s.kernInfos.remove p, kernList := s.kernList.remove kernel } := by
      simp only [KernelState.clReleaseKernel, listed, found, if_pos last]
    rw [released]
    rw [less] at last
    exact core.remove listed (Nat.eq_zero_of_add_eq_zero_right last)
      (Nat.eq_zero_of_add_eq_zero_left last) same others watched
  · have released : s.clReleaseKernel kernel =
        s.kinfoModify kernel fun info => { info with refCount := sub32 info.refCount 1 } := by
      simp only [KernelState.clReleaseKernel, listed, found, if_neg last]
    rw [released]
    apply core.recount listed found
    case keeps => exact fun _ => rfl
    case keepsArgs => exact fun _ => rfl
    case count => exact less
    case bounds =>
      refine ⟨Nat.pos_of_ne_zero last, ?_⟩
      rw [sub32_of_le below positive]
      exact lt_of_le_of_lt (Nat.sub_le _ _) below
    case same => exact same
    case others => exact others
    case watched => exact watched

/-- The users of a kernel without description. -/
theorem unlistedRefs {numArgs' : Table Handle Nat} {kernel : Handle}
    (core : Core s refs numArgs reports) (unlisted : s.kernList.find kernel = none)
    (few : refs' kernel ≤ 1) (same : ∀ k ≠ kernel, refs' k = refs k)
    (knows : ∀ k, numArgs'.find k = none → numArgs.find k = none)
    (unknown : numArgs'.find kernel = none → refs' kernel = 0) :
    Core s refs' numArgs' reports where
  coherent := core.coherent
  counted := by
    intro p info found
    have other : info.handle ≠ kernel := by
      intro equal
      have listed := core.coherent.entered p info found
      rw [equal, unlisted] at listed
      contradiction
    rw [same _ other]
    exact core.counted p info found
  unlisted := by
    intro k unlisted'
    by_cases here : k = kernel
    · rw [here]
      exact few
    · rw [same k here]
      exact core.unlisted k unlisted'
  unknown := by
    intro k unknown'
    obtain ⟨none, unlisted'⟩ := core.unknown k (knows k unknown')
    by_cases here : k = kernel
    · rw [here] at unknown' unlisted' ⊢
      exact ⟨unknown unknown', unlisted'⟩
    · rw [same k here]
      exact ⟨none, unlisted'⟩
  watched := core.watched

theorem kernInfo_below (core : Core s refs numArgs reports) (mem : r ∈ reports) :
    r.kernInfo ≠ s.nextAddress := by
  intro here
  obtain ⟨info, found, -⟩ := core.watched r mem
  rw [here, core.coherent.kernBelow s.nextAddress (le_refl _)] at found
  contradiction

/-- A change of an argument that will not be read. -/
theorem changeArg {kernel : Handle} {i : Nat}
    {f : OrderedMap Nat ArgEntry → OrderedMap Nat ArgEntry}
    (core : Core s refs numArgs reports) (skips : SkipsArg s reports kernel i)
    (others : ∀ args, ∀ j ≠ i, (f args).find j = args.find j) :
    Core (s.kinfoModify kernel fun info => { info with argList := f info.argList }) refs numArgs
      reports := by
  cases listed : s.kernList.find kernel with
  | none =>
      have unchanged : (s.kinfoModify kernel fun info =>
          { info with argList := f info.argList }) = s := by
        simp only [kinfoModify, listed]
      rw [unchanged]
      exact core
  | some p =>
      obtain ⟨info, found, -⟩ := core.coherent.listed kernel p listed
      apply core.rearrange listed found
      case keeps => exact fun _ => rfl
      case keepsCount => exact fun _ => rfl
      case answers =>
        intro r mem here buffer overflow
        obtain ⟨info', found', answers⟩ := core.watched r mem
        rw [here, found, Option.some.injEq] at found'
        subst found'
        have other : ∀ j, s.Reads info.argList buffer j → j ≠ i := by
          rintro j reads rfl
          exact skips r mem buffer overflow info (here ▸ found) (here ▸ listed) reads
        apply (answers buffer overflow).congr
        · intro j reads
          simp only [Points, others info.argList j (other j reads)]
        · intro j arg reads isArg
          dsimp only at isArg
          rw [others info.argList j (other j reads)] at isArg
          exact argHandle_of_reads (answers buffer overflow).safe reads isArg

/-- Removing an argument. -/
theorem kargRemove {kernel : Handle} {i : Nat} (core : Core s refs numArgs reports)
    (skips : SkipsArg s reports kernel i) : Core (s.kargRemove kernel i) refs numArgs reports := by
  apply core.changeArg (f := fun args => args.remove i) skips
  intro args j other
  rw [OrderedMap.find_remove, if_neg other]

/-- Inserting an argument. -/
theorem kargInsert {kernel : Handle} {i : Nat} {arg : ArgEntry}
    (core : Core s refs numArgs reports) (skips : SkipsArg s reports kernel i) :
    Core (s.kargInsert kernel i arg) refs numArgs reports :=
  core.changeArg (f := fun args => args.insert i arg) skips fun _ _ other =>
    OrderedMap.find_insert_of_ne other

/-- The description of a kernel that the caller holds is made. -/
theorem kinfoFindOrInsert {kernel : Handle} (core : Core s refs numArgs reports)
    (held : 0 < refs kernel) : Core (s.kinfoFindOrInsert kernel) refs numArgs reports := by
  rw [KernelState.kinfoFindOrInsert]
  split
  · next listed =>
      have one : refs kernel = 1 := le_antisymm (core.unlisted kernel listed) held
      have known : numArgs.find kernel ≠ none := by
        intro unknown
        rw [(core.unknown kernel unknown).1] at held
        contradiction
      exact core.insert listed known one.symm ⟨Nat.one_pos, by simp⟩ fun _ _ => rfl
  · exact core

/-- The application retains a kernel. -/
theorem userRetains {kernel : Handle} (core : Core s refs numArgs reports) (held : 0 < refs kernel)
    (bound : ∀ info, s.kinfoFind kernel = some info → info.refCount + 1 < 4294967296) :
    Core (s.clRetainKernel kernel) (Function.update refs kernel (refs kernel + 1)) numArgs
      reports := by
  have same : ∀ k ≠ kernel, Function.update refs kernel (refs kernel + 1) k = refs k :=
    fun k other => Function.update_of_ne other _ _
  cases listed : s.kernList.find kernel with
  | some p =>
      obtain ⟨info, found, -⟩ := core.coherent.listed kernel p listed
      apply core.clRetainKernel listed found (bound info (kinfoFind_eq_some listed found))
      case count =>
        rw [Function.update_self]
        exact Nat.add_right_comm _ _ _
      case same => exact same
      case others => exact fun _ _ => rfl
      case watched => exact core.watched
  | none =>
      have one : refs kernel = 1 := le_antisymm (core.unlisted kernel listed) held
      have known : numArgs.find kernel ≠ none := by
        intro unknown
        rw [(core.unknown kernel unknown).1] at held
        contradiction
      have retained : s.clRetainKernel kernel = s.kinfoInsert ⟨kernel, OrderedMap.empty, 2⟩ := by
        simp only [KernelState.clRetainKernel, listed]
      rw [retained]
      apply core.insert listed known
      case count => rw [Function.update_self, one]
      case bounds => exact ⟨Nat.two_pos, by simp⟩
      case same => exact same

/-- A user of a kernel gives a reference up. -/
theorem userReleases {kernel : Handle} (core : Core s refs numArgs reports)
    (held : 0 < refs kernel) :
    Core (s.clReleaseKernel kernel) (Function.update refs kernel (refs kernel - 1)) numArgs
      reports := by
  have same : ∀ k ≠ kernel, Function.update refs kernel (refs kernel - 1) k = refs k :=
    fun k other => Function.update_of_ne other _ _
  cases listed : s.kernList.find kernel with
  | some p =>
      apply core.clReleaseKernel listed
      case count =>
        rw [Function.update_self, Nat.add_right_comm, Nat.sub_add_cancel held]
      case same => exact same
      case others => exact fun _ _ => rfl
      case watched => exact core.watched
  | none =>
      have released : s.clReleaseKernel kernel = s := by
        simp only [KernelState.clReleaseKernel, listed]
      rw [released]
      have few := core.unlisted kernel listed
      apply core.unlistedRefs listed
      case few =>
        rw [Function.update_self]
        exact (Nat.sub_le _ _).trans few
      case same => exact same
      case knows => exact fun _ unknown => unknown
      case unknown =>
        intro unknown
        rw [Function.update_self, (core.unknown kernel unknown).1]

end Core

theorem exists_listed_kinfoFindOrInsert (s : KernelState) (kernel : Handle) :
    ∃ p, (s.kinfoFindOrInsert kernel).kernList.find kernel = some p := by
  rw [KernelState.kinfoFindOrInsert]
  split
  · next listed => exact ⟨s.nextAddress, Table.find_insert_fresh listed⟩
  · next p listed => exact ⟨p, listed⟩

/-- An argument is looked up in the lists of objects. -/
theorem entry_congr (value : ArgValue) (mem : s'.clMemAlloc = s.clMemAlloc)
    (svm : s'.clSvmMemAlloc = s.clSvmMemAlloc) (regions : s'.svmobjs = s.svmobjs) :
    value.entry s' = value.entry s := by
  cases value with
  | mem argSize argValue => simp only [ArgValue.entry, memArg, mem]
  | svm argValue => simp only [ArgValue.entry, svmArg, KernelState.clSvmMemFind, svm, regions]

/-- When nothing comes between its halves, setting an argument is one call. -/
theorem enterArg_eq_halves (s : KernelState) (kernel : Handle) (i : Nat) (value : ArgValue) :
    ((s.kinfoFindOrInsert kernel).kargRemove kernel i).kargInsert kernel i
        (value.entry ((s.kinfoFindOrInsert kernel).kargRemove kernel i)) =
      s.enterArg kernel i (value.entry s) := by
  obtain ⟨p, listed⟩ := exists_listed_kinfoFindOrInsert s kernel
  have entered : s.enterArg kernel i (value.entry s) =
      (s.kinfoFindOrInsert kernel).kinfoModify kernel fun info =>
        info.setArg i (value.entry s) := rfl
  have same : value.entry ((s.kinfoFindOrInsert kernel).kargRemove kernel i) = value.entry s := by
    rw [KernelState.kargRemove, kinfoModify_of_listed listed]
    apply entry_congr value
    all_goals
      rw [KernelState.kinfoFindOrInsert]
      split <;> rfl
  rw [same, entered, KernelState.kargRemove, kinfoModify_of_listed listed, KernelState.kargInsert,
    kinfoModify_of_listed (by exact listed), kinfoModify_of_listed listed, Table.modify_modify]
  rfl

/-! ## The clone of a kernel -/

/-- A clone that is being made: no report uses it, and its arguments exist. -/
structure Cloning (s : KernelState) (reports : List Report) (clone : Handle) : Prop where
  unused : ∀ r ∈ reports, s.kernList.find clone ≠ some r.kernInfo
  live : ∀ p info, s.kernList.find clone = some p → s.kernInfos.find p = some info →
    ∀ j arg, info.argList.find j = some arg → ∃ handle, s.argHandle arg = some handle

namespace Cloning

variable {clone : Handle}

theorem skipsArg {i : Nat} (cloning : Cloning s reports clone) :
    SkipsArg s reports clone i := by
  intro r mem _ _ _ _ listed
  exact absurd listed (cloning.unused r mem)

/-- Making the description of the clone. -/
theorem kinfoFindOrInsert (core : Core s refs numArgs reports) (cloning : Cloning s reports clone) :
    Cloning (s.kinfoFindOrInsert clone) reports clone := by
  rw [KernelState.kinfoFindOrInsert]
  split
  · next listed =>
      have listed' : (s.kinfoInsert ⟨clone, OrderedMap.empty, 1⟩).kernList.find clone =
          some s.nextAddress := Table.find_insert_fresh listed
      have found : (s.kinfoInsert ⟨clone, OrderedMap.empty, 1⟩).kernInfos.find s.nextAddress =
          some ⟨clone, OrderedMap.empty, 1⟩ :=
        Table.find_insert_fresh (core.coherent.kernBelow _ (le_refl _))
      constructor
      · intro r mem here
        rw [listed', Option.some.injEq] at here
        exact core.kernInfo_below mem here.symm
      · intro p info isListed isInfo j arg' isArg
        rw [listed', Option.some.injEq] at isListed
        rw [← isListed, found, Option.some.injEq] at isInfo
        rw [← isInfo] at isArg
        contradiction
  · exact cloning

/-- Setting an argument of the clone. -/
theorem enterArg {i : Nat} {arg : ArgEntry} (core : Core s refs numArgs reports)
    (cloning : Cloning s reports clone) (held : 0 < refs clone)
    (live : ∃ handle, s.argHandle arg = some handle) :
    Core (s.enterArg clone i arg) refs numArgs reports ∧
      Cloning (s.enterArg clone i arg) reports clone := by
  have core' := core.kinfoFindOrInsert held
  have cloning' := cloning.kinfoFindOrInsert core
  obtain ⟨handle, read⟩ := live
  have read' : (s.kinfoFindOrInsert clone).argHandle arg = some handle := by
    rw [KernelState.kinfoFindOrInsert]
    split <;> exact read
  obtain ⟨p, listed⟩ := exists_listed_kinfoFindOrInsert s clone
  have entered : s.enterArg clone i arg =
      (s.kinfoFindOrInsert clone).kinfoModify clone fun info => info.setArg i arg := rfl
  rw [entered]
  refine ⟨?_, ?_⟩
  · apply core'.changeArg (f := fun args => (args.remove i).insert i arg) cloning'.skipsArg
    intro args j other
    rw [OrderedMap.find_insert_of_ne other, OrderedMap.find_remove, if_neg other]
  · obtain ⟨info, found, -⟩ := core'.coherent.listed clone p listed
    rw [kinfoModify_of_listed listed]
    constructor
    · exact cloning'.unused
    · intro q info' listed' found' j arg' isArg
      dsimp only at listed'
      rw [listed, Option.some.injEq] at listed'
      subst listed'
      simp only [Table.find_modify_self, found, Option.map_some, Option.some.injEq] at found'
      rw [← found', find_setArg] at isArg
      split_ifs at isArg
      · rw [← Option.some.inj isArg]
        exact ⟨handle, read'⟩
      · exact cloning'.live p info listed found j arg' isArg

/-- A new memory object. -/
theorem createInternal {object : MemObj} (core : Core s refs numArgs reports)
    (cloning : Cloning s reports clone) (created : s.createInternal object = some s') :
    Core s' refs numArgs reports ∧ Cloning s' reports clone := by
  rw [KernelState.createInternal] at created
  split_ifs at created with usable
  rw [← Option.some.inj created]
  obtain ⟨coherent, stay⟩ := @clMemInsert_spec s
    { object with refCount := 1, detectorInternalBuffer := true } core.coherent usable.2
  constructor
  · apply core.memory coherent stay rfl rfl
    intro r mem buffer overflow info found j arg reads isArg
    exact ⟨fun _ _ => id, fun _ _ _ => id⟩
  · constructor
    · exact cloning.unused
    · intro p info listed found j arg isArg
      obtain ⟨handle, read⟩ := cloning.live p info listed found j arg isArg
      exact ⟨handle, stay.argHandle read (fun _ _ => id) fun _ _ _ => id⟩

/-- The whole loop. -/
theorem setCloneArgs {args : List KernelArg} {indices : List Nat} {objects : List MemObj}
    (core : Core s refs numArgs reports) (cloning : Cloning s reports clone)
    (held : 0 < refs clone) (ran : setCloneArgs args clone indices objects s = some s') :
    Core s' refs numArgs reports ∧ Cloning s' reports clone := by
  have set : ∀ {t : KernelState} (i size : Nat) (value : Option Nat),
      Core t refs numArgs reports → Cloning t reports clone →
      Core (t.clSetKernelArg clone i size value) refs numArgs reports ∧
        Cloning (t.clSetKernelArg clone i size value) reports clone := by
    intro t i size value core cloning
    exact cloning.enterArg core held (memArg_live core.coherent size value)
  have setSvm : ∀ {t : KernelState} (i value : Nat),
      Core t refs numArgs reports → Cloning t reports clone →
      Core (t.clSetKernelArgSVMPointer clone i value) refs numArgs reports ∧
        Cloning (t.clSetKernelArgSVMPointer clone i value) reports clone := by
    intro t i value core cloning
    exact cloning.enterArg core held (svmArg_live t value)
  induction indices generalizing s objects with
  | nil =>
      obtain rfl := Option.some.inj ran
      exact ⟨core, cloning⟩
  | cons i rest ih =>
      rw [KernelState.setCloneArgs.eq_def] at ran
      dsimp only at ran
      split_ifs at ran with first
      · cases isArg : args[i]? with
        | none =>
            rw [isArg] at ran
            contradiction
        | some arg =>
            rw [isArg] at ran
            dsimp only at ran
            cases region : arg.svmBuffer with
            | some region' =>
                rw [region] at ran
                obtain ⟨core', cloning'⟩ := setSvm i region'.handle core cloning
                exact ih core' cloning' ran
            | none =>
                cases buffer : arg.buffer with
                | none =>
                    rw [region, buffer] at ran
                    obtain ⟨core', cloning'⟩ := set i arg.size arg.value core cloning
                    exact ih core' cloning' ran
                | some m =>
                    rw [region, buffer] at ran
                    dsimp only at ran
                    split_ifs at ran
                    · obtain ⟨core', cloning'⟩ := set i SIZEOF_MEM (some m.handle) core cloning
                      exact ih core' cloning' ran
                    · cases objects with
                      | nil => contradiction
                      | cons object objects =>
                          obtain ⟨t, created, ran⟩ := Option.bind_eq_some_iff.mp ran
                          obtain ⟨core', cloning'⟩ := cloning.createInternal core created
                          obtain ⟨core'', cloning''⟩ :=
                            set i SIZEOF_MEM (some object.handle) core' cloning'
                          exact ih core'' cloning'' ran
      · obtain ⟨arg, -, ran⟩ := Option.bind_eq_some_iff.mp ran
        obtain ⟨core', cloning'⟩ := set i arg.size arg.value core cloning
        exact ih core' cloning' ran

end Cloning

/-! ## The host in a launch -/

/-- The kernel whose checks are analyzed has the arguments of the launch. -/
structure Checking (s : KernelState) (refs : Handle → Nat) (kernel : Handle)
    (passed : List (Nat × Handle)) (found : List (List Handle)) (p : Address)
    (info : KernelInfo) : Prop where
  listed : s.kernList.find kernel = some p
  isInfo : s.kernInfos.find p = some info
  passed : passed = s.passedHandles info.argList
  live : ∀ j arg, info.argList.find j = some arg → ∃ handle, s.argHandle arg = some handle
  bound : info.refCount + found.length < 4294967296
  held : 0 < refs kernel

/-- What the host is sure of in a call. -/
def PhaseOk (s : KernelState) (refs : Handle → Nat) : HostPhase → Prop
  | .idle => True
  | .setting kernel argIndex _ => 0 < refs kernel ∧ ∃ p info,
      (s.kernList.find kernel = some p ∧ s.kernInfos.find p = some info) ∧
        info.argList.find argIndex = none
  | .checking kernel dupe passed found =>
      (∃ p info, Checking s refs kernel passed found p info) ∧
        (dupe.isSome → refs kernel = 1)
  | .deleting clone _ _ | .releasing clone _ _ _ => refs clone = 1

/-- An answer that belongs to its launch. -/
def Right (e : Reported) : Prop :=
  (∃ i, e.result = .index i ∧ (i, e.buffer) ∈ e.passed) ∨
    (e.result = .none ∧ ∀ i, (i, e.buffer) ∉ e.passed)

/-- The invariant of the runs that leave pending reports alone. -/
structure Inv (sys : ReportSystem) : Prop where
  core : Core sys.s sys.refs sys.numArgs sys.reports
  phase : PhaseOk sys.s sys.refs sys.phase
  log : ∀ e ∈ sys.log, Right e

theorem inv_initial : Inv initial where
  core := core_initial
  phase := trivial
  log := by simp [initial]

theorem Inv.describes {sys : ReportSystem} (inv : Inv sys) : sys.Describes where
  allocated := by
    intro r mem
    obtain ⟨info, found, -⟩ := inv.core.watched r mem
    rw [found]
    rfl
  live := by
    intro e mem freed
    rcases inv.log e mem with ⟨i, result, -⟩ | ⟨result, -⟩
    · rw [freed] at result
      contradiction
    · rw [freed] at result
      contradiction
  indexed := by
    intro e mem i index
    rcases inv.log e mem with ⟨j, result, passed⟩ | ⟨result, -⟩
    · rw [index, BufferIndex.index.injEq] at result
      rw [result]
      exact passed
    · rw [index] at result
      contradiction
  unpassed := by
    intro e mem none
    rcases inv.log e mem with ⟨j, result, -⟩ | ⟨-, unpassed⟩
    · rw [none] at result
      contradiction
    · exact unpassed

theorem pending_cons (r : Report) (reports : List Report) (p : Address) :
    pending (r :: reports) p = pending reports p + if r.kernInfo = p then 1 else 0 := by
  simp [pending, List.count_cons]

theorem pending_eraseIdx {n : Nat} (isReport : reports[n]? = some r) (p : Address) :
    pending reports p = pending (reports.eraseIdx n) p + if r.kernInfo = p then 1 else 0 := by
  induction reports generalizing n with
  | nil => simp at isReport
  | cons head rest ih =>
      cases n with
      | zero =>
          simp only [List.getElem?_cons_zero, Option.some.injEq] at isReport
          rw [isReport, List.eraseIdx_cons_zero, pending_cons]
      | succ n =>
          rw [List.getElem?_cons_succ] at isReport
          rw [List.eraseIdx_cons_succ, pending_cons, pending_cons, ih isReport]
          omega

/-- One more report on the kernel that was launched. -/
theorem Inv.analyze {sys : ReportSystem} {kernel : Handle} {dupe : Option (List Nat)}
    {overflows : List Handle} {found : List (List Handle)} {sys' : ReportSystem}
    (inv : Inv sys) (phase : sys.phase = .checking kernel dupe passed (overflows :: found))
    (analyzed : sys.analyzeCheckResults kernel passed overflows = some sys') :
    Inv { sys' with phase := .checking kernel dupe passed found } := by
  have phaseOk := inv.phase
  rw [phase] at phaseOk
  obtain ⟨⟨p, info, checking⟩, isClone⟩ := phaseOk
  have bound : info.refCount + 1 < 4294967296 := by
    have := checking.bound
    rw [List.length_cons] at this
    omega
  rw [analyzeCheckResults, checking.listed] at analyzed
  obtain rfl := Option.some.inj analyzed
  have retained : sys.s.clRetainKernel kernel =
      sys.s.kinfoModify kernel fun info => { info with refCount := u32 (info.refCount + 1) } := by
    simp only [KernelState.clRetainKernel, checking.listed]
  constructor
  case core =>
    apply inv.core.clRetainKernel checking.listed checking.isInfo bound
    case count => rw [pending_cons, if_pos rfl, Nat.add_assoc]
    case same => exact fun _ _ => rfl
    case others =>
      intro q other
      rw [pending_cons, if_neg other.symm, Nat.add_zero]
    case watched =>
      intro r mem
      rcases List.mem_cons.mp mem with rfl | mem
      · refine ⟨info, checking.isInfo, fun buffer _ => ?_⟩
        dsimp only
        rw [checking.passed]
        exact answers_passedHandles checking.live
      · exact inv.core.watched r mem
  case phase =>
    refine ⟨⟨p, { info with refCount := u32 (info.refCount + 1) }, ?_⟩, isClone⟩
    dsimp only
    rw [retained]
    simp only [kinfoModify, checking.listed]
    constructor
    case listed => exact checking.listed
    case isInfo => simp [checking.isInfo]
    case passed => exact checking.passed
    case live => exact checking.live
    case bound =>
      have := checking.bound
      rw [List.length_cons] at this
      dsimp only
      rw [u32_of_lt bound]
      omega
    case held => exact checking.held
  case log => exact inv.log

/-- Releasing a memory object. -/
theorem Core.clReleaseMemObject {memobj : Handle} (core : Core s refs numArgs reports)
    (keeps : KeepsMem s reports memobj) :
    Core (s.clReleaseMemObject memobj) refs numArgs reports := by
  obtain ⟨coherent, stay⟩ := clReleaseMemObject_spec core.coherent memobj
  have kernels : (s.clReleaseMemObject memobj).kernInfos = s.kernInfos ∧
      (s.clReleaseMemObject memobj).kernList = s.kernList := by
    rw [KernelState.clReleaseMemObject]
    split
    · exact ⟨rfl, rfl⟩
    · split
      · exact ⟨rfl, rfl⟩
      · split
        · exact ⟨rfl, rfl⟩
        · exact ⟨rfl, rfl⟩
  apply core.memory coherent stay kernels.1 kernels.2
  intro r mem buffer overflow info found j arg reads isArg
  exact ⟨fun p isBuffer => keeps r mem buffer overflow info found j arg p reads isArg isBuffer,
    fun _ _ _ => id⟩

/-- The first half of setting an argument. -/
theorem Inv.startSetting {sys : ReportSystem} {kernel : Handle} {argIndex : Nat}
    (value : ArgValue) (inv : Inv sys) (held : 0 < sys.refs kernel)
    (skips : SkipsArg sys.s sys.reports kernel argIndex) :
    Inv (sys.startSetting kernel argIndex value) := by
  have core := inv.core.kinfoFindOrInsert held
  have skips' : SkipsArg (sys.s.kinfoFindOrInsert kernel) sys.reports kernel argIndex := by
    cases listed : sys.s.kernList.find kernel with
    | some p =>
        have unchanged : sys.s.kinfoFindOrInsert kernel = sys.s := by
          simp only [KernelState.kinfoFindOrInsert, listed]
        rw [unchanged]
        exact skips
    | none =>
        have made : sys.s.kinfoFindOrInsert kernel =
            sys.s.kinfoInsert ⟨kernel, OrderedMap.empty, 1⟩ := by
          simp only [KernelState.kinfoFindOrInsert, listed]
        intro r mem buffer overflow info found isListed
        rw [made, kinfoInsert] at isListed
        rw [Table.find_insert_fresh listed, Option.some.injEq] at isListed
        exact absurd isListed.symm (inv.core.kernInfo_below mem)
  obtain ⟨p, listed⟩ := exists_listed_kinfoFindOrInsert sys.s kernel
  obtain ⟨info, found, -⟩ := core.coherent.listed kernel p listed
  refine ⟨core.kargRemove skips', ⟨held, p, ?_⟩, inv.log⟩
  refine ⟨{ info with argList := info.argList.remove argIndex }, ⟨?_, ?_⟩, ?_⟩
  · simp only [ReportSystem.startSetting, KernelState.kargRemove, kinfoModify_of_listed listed,
      listed]
  · simp only [ReportSystem.startSetting, KernelState.kargRemove, kinfoModify_of_listed listed,
      Table.find_modify_self, found, Option.map_some]
  · rw [OrderedMap.find_remove, if_pos rfl]

/-- The next step of the host in a call. -/
theorem Inv.proceed {sys sys' : ReportSystem} (inv : Inv sys)
    (leaves : sys.LeavesPending .proceed) (ran : sys.proceed = some sys') : Inv sys' := by
  rw [ReportSystem.proceed] at ran
  rw [LeavesPending] at leaves
  cases phase : sys.phase with
  | idle =>
      rw [phase] at ran
      contradiction
  | setting kernel argIndex value =>
      rw [phase] at ran leaves
      obtain rfl := Option.some.inj ran
      exact ⟨inv.core.kargInsert leaves, trivial, inv.log⟩
  | checking kernel dupe passed found =>
      cases found with
      | cons overflows found =>
          rw [phase] at ran
          obtain ⟨t, analyzed, rfl⟩ := Option.map_eq_some_iff.mp ran
          exact inv.analyze phase analyzed
      | nil =>
          cases dupe with
          | none =>
              rw [phase] at ran
              obtain rfl := Option.some.inj ran
              exact ⟨inv.core, trivial, inv.log⟩
          | some dupe =>
              have phaseOk := inv.phase
              rw [phase] at ran phaseOk
              obtain rfl := Option.some.inj ran
              exact ⟨inv.core, phaseOk.2 rfl, inv.log⟩
  | deleting clone dupe i =>
      have held := inv.phase
      rw [phase] at ran leaves held
      dsimp only at ran leaves
      split_ifs at ran with inside first
      · obtain rfl := Option.some.inj ran
        exact ⟨inv.core.kargRemove (leaves first), held, inv.log⟩
      · obtain rfl := Option.some.inj ran
        exact ⟨inv.core, held, inv.log⟩
      · obtain rfl := Option.some.inj ran
        have one : sys.refs clone = 1 := held
        have isHeld : 0 < sys.refs clone := one.symm ▸ Nat.one_pos
        have core := inv.core.userReleases isHeld
        rw [one] at core
        exact ⟨core, trivial, inv.log⟩
  | releasing clone dupe i m1 =>
      have held := inv.phase
      rw [phase] at ran leaves held
      obtain rfl := Option.some.inj ran
      refine ⟨?_, held, inv.log⟩
      dsimp only
      rw [KernelState.releaseInternal]
      cases behind : sys.s.internalObject m1 with
      | none => exact inv.core
      | some m => exact inv.core.clReleaseMemObject (leaves m behind)

/-- Releasing a kernel leaves the memory objects alone. -/
theorem clReleaseKernel_objects (s : KernelState) (kernel : Handle) :
    (s.clReleaseKernel kernel).memobjs = s.memobjs ∧
      (s.clReleaseKernel kernel).svmobjs = s.svmobjs := by
  rw [KernelState.clReleaseKernel]
  split
  · exact ⟨rfl, rfl⟩
  · next p listed =>
      split
      · exact ⟨rfl, rfl⟩
      · split
        · exact ⟨rfl, rfl⟩
        · rw [kinfoModify_of_listed listed]
          exact ⟨rfl, rfl⟩

/-- A callback leaves the description of a kernel that is held, up to its count. -/
theorem Core.kept_of_held {kernel : Handle} {p : Address} {info info' : KernelInfo}
    (core : Core s refs numArgs reports) (found : s.kernInfos.find r.kernInfo = some info)
    (mem : r ∈ reports) (held : 0 < refs kernel) (isListed : s.kernList.find kernel = some p)
    (isInfo : s.kernInfos.find p = some info') :
    (s.clReleaseKernel info.handle).kernList.find kernel = some p ∧
      ∃ info'', (s.clReleaseKernel info.handle).kernInfos.find p = some info'' ∧
        info''.argList = info'.argList ∧ info''.refCount ≤ info'.refCount := by
  have listed := core.coherent.entered r.kernInfo info found
  obtain ⟨counted, positive, below⟩ := core.counted r.kernInfo info found
  simp only [KernelState.clReleaseKernel, listed, found]
  by_cases here : p = r.kernInfo
  · subst here
    obtain rfl : info = info' := Option.some.inj (found.symm.trans isInfo)
    obtain ⟨info'', found'', handle⟩ := core.coherent.listed kernel r.kernInfo isListed
    obtain rfl : info = info'' := Option.some.inj (found.symm.trans found'')
    have used : 0 < pending reports r.kernInfo :=
      List.count_pos_iff.mpr (List.mem_map.mpr ⟨r, mem, rfl⟩)
    rw [← handle] at held
    have less : sub32 info.refCount 1 = info.refCount - 1 := sub32_of_le below positive
    rw [if_neg (by omega), kinfoModify_of_listed listed]
    refine ⟨isListed, { info with refCount := sub32 info.refCount 1 }, ?_, rfl, ?_⟩
    · rw [Table.find_modify_self, found, Option.map_some]
    · dsimp only
      omega
  · have other : kernel ≠ info.handle := by
      rintro rfl
      rw [listed, Option.some.injEq] at isListed
      exact here isListed.symm
    split_ifs with last
    · exact ⟨by rw [Table.find_remove_of_ne other, isListed], info',
        by rw [Table.find_remove_of_ne here, isInfo], rfl, le_refl _⟩
    · rw [kinfoModify_of_listed listed]
      exact ⟨isListed, info', by rw [Table.find_modify_of_ne here, isInfo], rfl, le_refl _⟩

/-- A callback leaves the call that the host is in alone. -/
theorem PhaseOk.callback {phase : HostPhase} {info : KernelInfo}
    (core : Core s refs numArgs reports) (phaseOk : PhaseOk s refs phase)
    (found : s.kernInfos.find r.kernInfo = some info) (mem : r ∈ reports) :
    PhaseOk (s.clReleaseKernel info.handle) refs phase := by
  obtain ⟨sameMem, sameSvm⟩ := clReleaseKernel_objects s info.handle
  cases phase with
  | idle => exact trivial
  | deleting clone dupe i => exact phaseOk
  | releasing clone dupe i m1 => exact phaseOk
  | setting kernel argIndex value =>
      obtain ⟨held, p, info', ⟨listed, isInfo⟩, absent⟩ := phaseOk
      obtain ⟨listed', info'', isInfo', args, -⟩ :=
        core.kept_of_held found mem held listed isInfo
      exact ⟨held, p, info'', ⟨listed', isInfo'⟩, by rw [args, absent]⟩
  | checking kernel dupe passed results =>
      obtain ⟨⟨p, info', checking⟩, isClone⟩ := phaseOk
      obtain ⟨listed, info'', isInfo, args, count⟩ :=
        core.kept_of_held found mem checking.held checking.listed checking.isInfo
      refine ⟨⟨p, info'', ?_⟩, isClone⟩
      constructor
      case listed => exact listed
      case isInfo => exact isInfo
      case passed =>
        rw [args, checking.passed]
        simp only [passedHandles, argHandle_congr sameMem sameSvm]
      case live =>
        intro j arg isArg
        rw [args] at isArg
        rw [argHandle_congr sameMem sameSvm]
        exact checking.live j arg isArg
      case bound => exact lt_of_le_of_lt (Nat.add_le_add_right count _) checking.bound
      case held => exact checking.held

/-- A callback reports what its launch passed, and gives its reference up. -/
theorem Inv.callback {sys sys' : ReportSystem} {n : Nat} (inv : Inv sys)
    (ran : sys.verifyCallback n = some sys') : Inv sys' := by
  obtain ⟨r, isReport, same⟩ := Option.map_eq_some_iff.mp ran
  have mem : r ∈ sys.reports := List.mem_of_getElem? isReport
  obtain ⟨info, found, answers⟩ := inv.core.watched r mem
  rw [found] at same
  dsimp only at same
  obtain rfl := same
  have listed := inv.core.coherent.entered r.kernInfo info found
  constructor
  case core =>
    apply inv.core.clReleaseKernel listed
    case count =>
      rw [pending_eraseIdx isReport r.kernInfo, if_pos rfl, Nat.add_assoc]
    case same => exact fun _ _ => rfl
    case others =>
      intro q other
      rw [pending_eraseIdx isReport q, if_neg other.symm, Nat.add_zero]
    case watched =>
      intro r' mem'
      exact inv.core.watched r' (List.mem_of_mem_eraseIdx mem')
  case phase => exact inv.phase.callback inv.core found mem
  case log =>
    intro e mem'
    rcases List.mem_append.mp mem' with mem' | mem'
    · obtain ⟨buffer, overflow, rfl⟩ := List.mem_map.mp mem'
      exact answers buffer overflow
    · exact inv.log e mem'

/-- A launch without a clone, or of the clone that was made. -/
theorem Inv.startChecks {sys sys' : ReportSystem} {kernel : Handle} {dupe : Option (List Nat)}
    {found : List (List Handle)} (ran : sys.startChecks kernel dupe found = some sys')
    (core : Core sys.s sys.refs sys.numArgs sys.reports) (log : ∀ e ∈ sys.log, Right e)
    (held : 0 < sys.refs kernel) (isClone : dupe.isSome → sys.refs kernel = 1)
    (ready : ∀ info, sys.s.kinfoFind kernel = some info →
      (∀ j arg, info.argList.find j = some arg → ∃ handle, sys.s.argHandle arg = some handle) ∧
        info.refCount + found.length < 4294967296) : Inv sys' := by
  obtain ⟨info, isInfo, rfl⟩ := Option.map_eq_some_iff.mp ran
  obtain ⟨live, bound⟩ := ready info isInfo
  obtain ⟨p, listed, isInfo⟩ := Option.bind_eq_some_iff.mp isInfo
  exact ⟨core, ⟨⟨p, info, listed, isInfo, rfl, live, bound, held⟩, isClone⟩, log⟩

/-- A launch. -/
theorem Inv.launch {sys sys' : ReportSystem} {kernel clone : Handle} {objects : List MemObj}
    {found : List (List Handle)} (inv : Inv sys) (held : 0 < sys.refs kernel)
    (bound : ∀ info, sys.s.kinfoFind kernel = some info →
      info.refCount + found.length < 4294967296)
    (ran : sys.launchKernel kernel clone objects found = some sys') : Inv sys' := by
  obtain ⟨info, isInfo, ran⟩ := Option.bind_eq_some_iff.mp ran
  obtain ⟨nargs, known, ran⟩ := Option.bind_eq_some_iff.mp ran
  dsimp only at ran
  split_ifs at ran with ready needsClone fresh
  · obtain ⟨s, made, ran⟩ := Option.bind_eq_some_iff.mp ran
    obtain ⟨none, unlisted⟩ := inv.core.unknown clone fresh.2
    have core : Core sys.s (Function.update sys.refs clone 1) (sys.numArgs.insert clone nargs)
        sys.reports := by
      apply inv.core.unlistedRefs unlisted
      case few => rw [Function.update_self]
      case same => exact fun k other => Function.update_of_ne other _ _
      case knows =>
        intro k unknown
        rw [Table.find_insert] at unknown
        split_ifs at unknown
        exact unknown
      case unknown =>
        intro unknown
        rw [Table.find_insert_fresh fresh.2] at unknown
        contradiction
    have cloning : Cloning sys.s sys.reports clone := by
      constructor
      · intro r _ listed
        rw [unlisted] at listed
        contradiction
      · intro p info listed
        rw [unlisted] at listed
        contradiction
    have one : Function.update sys.refs clone 1 clone = 1 := Function.update_self ..
    have held' : 0 < Function.update sys.refs clone 1 clone := one.symm ▸ Nat.one_pos
    obtain ⟨core, cloning⟩ := cloning.setCloneArgs core held' made
    apply Inv.startChecks ran core inv.log held' fun _ => one
    intro info' isInfo'
    obtain ⟨p, listed, isInfo'⟩ := Option.bind_eq_some_iff.mp isInfo'
    refine ⟨cloning.live p info' listed isInfo', ?_⟩
    obtain ⟨counted, -⟩ := core.counted p info' isInfo'
    obtain ⟨info'', isInfo'', handle⟩ := core.coherent.listed clone p listed
    obtain rfl : info' = info'' := Option.some.inj (isInfo'.symm.trans isInfo'')
    have unused : pending sys.reports p = 0 := by
      rw [pending, List.count_eq_zero]
      intro mem
      obtain ⟨r, mem, here⟩ := List.mem_map.mp mem
      exact cloning.unused r mem (here ▸ listed)
    rw [handle, one, unused] at counted
    obtain ⟨q, listed', isInfo'⟩ := Option.bind_eq_some_iff.mp isInfo
    obtain ⟨-, positive, -⟩ := inv.core.counted q info isInfo'
    have := bound info isInfo
    omega
  · apply Inv.startChecks ran inv.core inv.log held fun isClone => by simp at isClone
    intro info' isInfo'
    obtain rfl : info = info' := Option.some.inj (isInfo.symm.trans isInfo')
    refine ⟨fun j arg isArg => ?_, bound info isInfo⟩
    exact Option.isSome_iff_exists.mp (ready.2 (j, arg) (OrderedMap.find_eq_some_iff.mp isArg))

/-- Every call of the application keeps the invariant. -/
theorem Inv.apiCall {sys sys' : ReportSystem} {call : ReportCall} (inv : Inv sys)
    (idle : sys.phase = .idle) (leaves : sys.LeavesPending call)
    (ran : sys.apiCall call = some sys') : Inv sys' := by
  have nothing : ∀ args buffer, ∀ j arg, sys.s.Reads args buffer j → args.find j = some arg →
      (∀ p, arg.buffer = some p → ¬ False) ∧
        ∀ p, arg.buffer = none → arg.svmBuffer = some p → ¬ False :=
    fun _ _ _ _ _ _ => ⟨fun _ _ => id, fun _ _ _ => id⟩
  have rest : ∀ s refs, PhaseOk s refs sys.phase := by
    intro s refs
    rw [idle]
    trivial
  cases call with
  | createMem item =>
      simp only [ReportSystem.apiCall] at ran
      split_ifs at ran with usable
      obtain rfl := Option.some.inj ran
      obtain ⟨coherent, stay⟩ := @clMemInsert_spec sys.s
        { item with refCount := 1, detectorInternalBuffer := false } inv.core.coherent usable.2
      exact ⟨inv.core.memory coherent stay rfl rfl fun _ _ buffer _ info _ =>
        nothing info.argList buffer, rest _ _, inv.log⟩
  | retainMem memobj =>
      obtain rfl := Option.some.inj ran
      obtain ⟨coherent, stay⟩ := clRetainMemObject_spec inv.core.coherent memobj
      have kernels : (sys.s.clRetainMemObject memobj).kernInfos = sys.s.kernInfos ∧
          (sys.s.clRetainMemObject memobj).kernList = sys.s.kernList := by
        rw [KernelState.clRetainMemObject]
        split
        · exact ⟨rfl, rfl⟩
        · exact ⟨rfl, rfl⟩
      exact ⟨inv.core.memory coherent stay kernels.1 kernels.2 fun _ _ buffer _ info _ =>
        nothing info.argList buffer, rest _ _, inv.log⟩
  | releaseMem memobj =>
      obtain rfl := Option.some.inj ran
      exact ⟨inv.core.clReleaseMemObject leaves, rest _ _, inv.log⟩
  | createSvm item =>
      simp only [ReportSystem.apiCall] at ran
      split_ifs at ran with usable
      obtain rfl := Option.some.inj ran
      obtain ⟨coherent, stay⟩ := clSvmMemInsert_spec inv.core.coherent usable.2
      exact ⟨inv.core.memory coherent stay rfl rfl fun _ _ buffer _ info _ =>
        nothing info.argList buffer, rest _ _, inv.log⟩
  | freeSvm svmPointer =>
      obtain rfl := Option.some.inj ran
      obtain ⟨coherent, stay⟩ := clSVMFree_spec inv.core.coherent svmPointer
      have kernels : (sys.s.clSVMFree svmPointer).kernInfos = sys.s.kernInfos ∧
          (sys.s.clSVMFree svmPointer).kernList = sys.s.kernList := by
        rw [KernelState.clSVMFree]
        split
        · exact ⟨rfl, rfl⟩
        · exact ⟨rfl, rfl⟩
      refine ⟨inv.core.memory coherent stay kernels.1 kernels.2 ?_, rest _ _, inv.log⟩
      intro r mem buffer overflow info found j arg reads isArg
      exact ⟨fun _ _ => id, fun p noBuffer isRegion =>
        leaves r mem buffer overflow info found j arg p reads isArg noBuffer isRegion⟩
  | createKernel kernel nargs =>
      simp only [ReportSystem.apiCall] at ran
      split_ifs at ran with usable
      obtain rfl := Option.some.inj ran
      obtain ⟨none, unlisted⟩ := inv.core.unknown kernel usable.2
      refine ⟨?_, rest _ _, inv.log⟩
      apply inv.core.unlistedRefs unlisted
      case few =>
        dsimp only
        rw [Function.update_self]
      case same => exact fun k other => Function.update_of_ne other _ _
      case knows =>
        intro k unknown
        rw [Table.find_insert] at unknown
        split_ifs at unknown
        exact unknown
      case unknown =>
        intro unknown
        rw [Table.find_insert_fresh usable.2] at unknown
        contradiction
  | setArg kernel argIndex argSize argValue =>
      simp only [ReportSystem.apiCall] at ran
      split_ifs at ran with usable
      obtain rfl := Option.some.inj ran
      exact inv.startSetting _ usable.1 leaves
  | setSvmArg kernel argIndex argValue =>
      simp only [ReportSystem.apiCall] at ran
      split_ifs at ran with usable
      obtain rfl := Option.some.inj ran
      exact inv.startSetting _ usable.1 leaves
  | retainKernel kernel =>
      simp only [ReportSystem.apiCall] at ran
      split_ifs at ran with held
      obtain rfl := Option.some.inj ran
      exact ⟨inv.core.userRetains held leaves, rest _ _, inv.log⟩
  | releaseKernel kernel =>
      simp only [ReportSystem.apiCall] at ran
      split_ifs at ran with held
      obtain rfl := Option.some.inj ran
      exact ⟨inv.core.userReleases held, rest _ _, inv.log⟩
  | launch kernel clone objects found =>
      simp only [ReportSystem.apiCall] at ran
      split_ifs at ran with held
      exact inv.launch held leaves ran
  | proceed => contradiction
  | callback n => contradiction

/-- Every step that leaves the pending reports alone keeps the invariant. -/
theorem inv_step {sys sys' : ReportSystem} {call : ReportCall} (inv : Inv sys)
    (leaves : sys.LeavesPending call) (ran : sys.step call = some sys') : Inv sys' := by
  have byApplication : (∀ n, call ≠ .callback n) → call ≠ .proceed → Inv sys' := by
    intro noCallback noProceed
    have ran' : (if sys.phase = .idle then sys.apiCall call else none) = some sys' := by
      cases call with
      | proceed => contradiction
      | callback n => exact absurd rfl (noCallback n)
      | _ => exact ran
    split_ifs at ran' with idle
    exact inv.apiCall idle leaves ran'
  cases call with
  | proceed => exact inv.proceed leaves ran
  | callback n => exact inv.callback ran
  | _ => exact byApplication (fun _ => ReportCall.noConfusion) ReportCall.noConfusion

end ReportSystem

end Clarmor
