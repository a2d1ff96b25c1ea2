import Clarmor.Launch.FilledArrays
import Clarmor.Launch.LaunchEvents

/-!
# The contexts of the regions that are checked

The regions of shared virtual memory are collected from the table without regard
to their contexts.  The checker on the host skips those that were allocated in
another context than the kernel's; the checkers on the device take them all.
-/

namespace Clarmor

open Word

/-- `GPU_MODE_MULTI_SVMPTR`. -/
def GPU_MODE_MULTI_SVMPTR : Int := 0

/-- A region under examination: the description that was found, the pointer that a
report names and that a repair is made for, and the addresses where the canaries are
read. -/
structure SvmExam where
  region : SvmObj
  reported : Nat
  canaries : List Nat
deriving DecidableEq, Repr

/-- The examination of a region; the offset of the second canary has 32 bits. -/
def examine (svmPtr : Nat) (m1 : SvmObj) : SvmExam :=
  ⟨m1, svmPtr, [m1.mainBuff, m1.mainBuff + u32 (m1.size + POISON_FILL_LENGTH)]⟩

namespace KernelState

variable (s : KernelState)

/-- `cl_svm_mem_find`, and the description at the address. -/
def svmRegion (svmPtr : Nat) : Option SvmObj := (s.clSvmMemFind svmPtr).bind s.svmobjs.find

/-- `set_up_svm_canary_copy`: one place for each pointer, which is empty where
`right_context` is `0`.  A pointer that is not found ends the process. -/
def setUpSvmCanaryCopy (kernCtx : Handle) (svmPtrs : List Nat) : Option (List (Option SvmExam)) :=
  svmPtrs.mapM fun svmPtr => (s.svmRegion svmPtr).map fun m1 =>
    if m1.context = kernCtx then some (examine svmPtr m1) else none

/-- `verify_svm`: copy, map, check and mend the places that are not empty. -/
def verifySvm (kernCtx : Handle) (svmPtrs : List Nat) : Option (List SvmExam) :=
  (s.setUpSvmCanaryCopy kernCtx svmPtrs).map List.reduceOption

/-- The loop over the regions that the checkers on the device have in common. -/
def examineAll (svmPtrs : List Nat) : Option (List SvmExam) :=
  svmPtrs.mapM fun svmPtr => (s.svmRegion svmPtr).map (examine svmPtr)

/-- `create_svm_copies`. -/
def createSvmCopies (svmPtrs : List Nat) : Option (List SvmExam) := s.examineAll svmPtrs

/-- `create_svm_ptr_copies`. -/
def createSvmPtrCopies (svmPtrs : List Nat) : Option (List SvmExam) := s.examineAll svmPtrs

/-- `perform_cl_buffer_checks` for the regions, one kernel for each canary. -/
def performSvmChecks (svmPtrs : List Nat) : Option (List SvmExam) := s.examineAll svmPtrs

/-- The regions that a checker examines. -/
def verifyRegions (device : CheckDevice) (kernCtx : Handle) (path : CheckPath)
    (svmPtrs : List Nat) : Option (List SvmExam) :=
  match path with
  | .nothing => some []
  | .host => s.verifySvm kernCtx svmPtrs
  | .singleBuffer => s.performSvmChecks svmPtrs
  | .copyCanary =>
      if device.gpuStrat = GPU_MODE_MULTI_SVMPTR then s.createSvmPtrCopies svmPtrs
      else s.createSvmCopies svmPtrs

variable (args : OrderedMap Nat ArgEntry) (dupe : List Nat)

/-- `verifyBufferInBounds`, for a kernel and a queue of one context, as far as the
regions go. -/
def verifyLaunch (device : CheckDevice) (context : Handle) (nargs : Nat) :
    Option (List SvmExam) :=
  (s.checkArrays args dupe nargs).bind fun a =>
  (s.checkPath args dupe device nargs).bind fun path =>
    s.verifyRegions device context path ((a.bufferPtrs.drop a.numBuffs).take a.numSVM)

/-- A region that is live and not the detector's own. -/
def LiveRegion (m : SvmObj) : Prop :=
  (∃ p, s.clSvmMemAlloc.find m.handle = some p ∧ s.svmobjs.find p = some m) ∧
    m.detectorInternalBuffer = false

/-- The regions that are counted, when there is an array for them. -/
def countedRegions (n : Nat) : List SvmObj :=
  if u32 (s.arrayLength args dupe n) = 0 then []
  else (s.svmRegions.filter fun m => !m.detectorInternalBuffer).take
    (u32 (s.svmChecked args dupe n).length)

/-- A launch with an SVM argument: the tables are in order, the descriptions behind
the arguments are there, and `nargs` is a `cl_uint`. -/
structure SvmLaunch (nargs : Nat) : Prop where
  coherent : s.Coherent
  noNull : s.clSvmMemAlloc.find NULL = none
  live : FirstLive s args dupe
  few : nargs < 4294967296
  passes : PassesSvm args dupe nargs

/-- The regions that a check examines are those of the context. -/
def ExaminesContext (device : CheckDevice) (context : Handle) (nargs : Nat) : Prop :=
  ∃ exams, s.verifyLaunch args dupe device context nargs = some exams ∧
    ∀ m, (∃ e ∈ exams, e.region = m) ↔ s.LiveRegion m ∧ m.context = context

/-- The regions of the context are counted and checked, and a check on the device
counts no others. -/
structure CountsContext (device : CheckDevice) (context : Handle) (nargs : Nat) : Prop where
  fits : s.arrayLength args dupe nargs ≤ 4294967296
  counted : ∀ m, s.LiveRegion m → m.context = context →
    s.pathFor args dupe device nargs ≠ .nothing ∧ m ∈ s.countedRegions args dupe nargs
  onDevice : s.pathFor args dupe device nargs = .singleBuffer ∨
    s.pathFor args dupe device nargs = .copyCanary →
      ∀ m ∈ s.countedRegions args dupe nargs, m.context = context

variable {s args dupe} {device : CheckDevice} {context : Handle} {nargs : Nat}

/-- The description of a live region. -/
theorem svmRegion_handle {m : SvmObj} {p : Address}
    (listed : s.clSvmMemAlloc.find m.handle = some p) (isRegion : s.svmobjs.find p = some m) :
    s.svmRegion m.handle = some m := by
  rw [svmRegion, clSvmMemFind_handle listed isRegion, Option.bind_some, isRegion]

theorem mem_liveRegions_iff (coherent : s.Coherent) (noNull : s.clSvmMemAlloc.find NULL = none)
    {m : SvmObj} :
    m ∈ (s.svmRegions.filter fun m => !m.detectorInternalBuffer) ↔ s.LiveRegion m := by
  rw [List.mem_filter, mem_svmRegions_iff coherent noNull, LiveRegion, Bool.not_eq_true']

theorem live_of_counted (coherent : s.Coherent) (noNull : s.clSvmMemAlloc.find NULL = none)
    {m : SvmObj} (mem : m ∈ s.countedRegions args dupe nargs) : s.LiveRegion m := by
  rw [countedRegions] at mem
  split at mem
  · contradiction
  · exact (mem_liveRegions_iff coherent noNull).mp (List.mem_of_mem_take mem)

/-- The pointers of the regions in the array. -/
theorem svmCounted_eq (passes : PassesSvm args dupe nargs) :
    s.svmCounted args dupe nargs = (s.countedRegions args dupe nargs).map SvmObj.handle := by
  have checked : s.svmChecked args dupe nargs = s.svmHandles := if_pos passes
  rw [svmCounted, countedRegions, placed, checked]
  split
  · rfl
  · rw [svmHandles, List.map_take]

/-- Looking up the pointers of live regions finds these. -/
theorem mapM_handles {β : Type} {f : Nat → SvmObj → β} {regions : List SvmObj}
    (live : ∀ m ∈ regions, s.LiveRegion m) :
    (regions.map SvmObj.handle).mapM (fun p => (s.svmRegion p).map (f p)) =
      some (regions.map fun m => f m.handle m) := by
  induction regions with
  | nil => rfl
  | cons m rest ih =>
      obtain ⟨⟨p, listed, isRegion⟩, -⟩ := live m List.mem_cons_self
      have tail := ih fun m' mem => live m' (List.mem_cons_of_mem m mem)
      rw [List.map_cons, List.mapM_cons, svmRegion_handle listed isRegion, tail]
      rfl

/-- The regions that a checker of a context takes from a list. -/
def takenFrom (path : CheckPath) (context : Handle) (regions : List SvmObj) : List SvmObj :=
  match path with
  | .nothing => []
  | .host => regions.filter fun m => m.context = context
  | .singleBuffer | .copyCanary => regions

theorem verifyRegions_eq {path : CheckPath} {regions : List SvmObj}
    (live : ∀ m ∈ regions, s.LiveRegion m) :
    s.verifyRegions device context path (regions.map SvmObj.handle) =
      some ((takenFrom path context regions).map fun m => examine m.handle m) := by
  have all : s.examineAll (regions.map SvmObj.handle) =
      some (regions.map fun m => examine m.handle m) := mapM_handles live
  cases path with
  | nothing => rfl
  | host =>
      rw [verifyRegions, verifySvm, setUpSvmCanaryCopy, mapM_handles live, Option.map_some]
      congr 1
      clear live all
      induction regions with
      | nil => rfl
      | cons m rest ih =>
          by_cases here : m.context = context
          · simp [takenFrom, here, List.reduceOption_cons_of_some] at ih ⊢
            exact ih
          · simp [takenFrom, here, List.reduceOption_cons_of_none] at ih ⊢
            exact ih
  | singleBuffer => exact all
  | copyCanary =>
      rw [verifyRegions]
      split <;> exact all

/-- What a launch examines. -/
theorem verifyLaunch_eq (launch : SvmLaunch s args dupe nargs)
    (fits : s.arrayLength args dupe nargs ≤ 4294967296) :
    s.verifyLaunch args dupe device context nargs =
      some ((takenFrom (s.pathFor args dupe device nargs) context
        (s.countedRegions args dupe nargs)).map fun m => examine m.handle m) := by
  obtain ⟨c, counted⟩ : ∃ c, s.checkCounts args dupe nargs = some c :=
    checkCounts_isSome launch.live
  obtain ⟨path, chosen⟩ : ∃ path, s.checkPath args dupe device nargs = some path := by
    rw [checkPath, counted]
    exact ⟨_, rfl⟩
  have ptrs : (((s.arraysFor args dupe nargs).bufferPtrs.drop
        (s.arraysFor args dupe nargs).numBuffs).take (s.arraysFor args dupe nargs).numSVM) =
      (s.countedRegions args dupe nargs).map SvmObj.handle := by
    rw [arraysFor, ← svmCounted_eq launch.passes]
    simp
  rw [verifyLaunch, checkArrays_eq launch.few launch.live fits, Option.bind_some, chosen,
    Option.bind_some, ptrs, checkPath_spec launch.few chosen]
  exact verifyRegions_eq fun m mem => live_of_counted launch.coherent launch.noNull mem

/-- A check examines exactly the regions of the kernel's context exactly when it
counts these, and the device counts no others. -/
theorem examinesContext_iff (launch : SvmLaunch s args dupe nargs) :
    s.ExaminesContext args dupe device context nargs ↔
      s.CountsContext args dupe device context nargs := by
  rcases le_or_gt (s.arrayLength args dupe nargs) 4294967296 with fits | exceeds
  · have live : ∀ m ∈ s.countedRegions args dupe nargs, s.LiveRegion m :=
      fun m mem => live_of_counted launch.coherent launch.noNull mem
    have examined : ∀ m, (∃ e ∈ (takenFrom (s.pathFor args dupe device nargs) context
        (s.countedRegions args dupe nargs)).map (fun m => examine m.handle m), e.region = m) ↔
        m ∈ takenFrom (s.pathFor args dupe device nargs) context
          (s.countedRegions args dupe nargs) := by
      intro m
      simp [examine]
    rw [ExaminesContext, verifyLaunch_eq launch fits]
    simp only [Option.some.injEq, exists_eq_left', examined]
    cases path : s.pathFor args dupe device nargs with
    | nothing =>
        simp only [takenFrom, List.not_mem_nil, false_iff, not_and]
        constructor
        · intro none
          exact ⟨fits, fun m isLive here => absurd here (none m isLive),
            by rw [path]; rintro (h | h) <;> contradiction⟩
        · intro counts m isLive here
          exact (counts.counted m isLive here).1 path
    | host =>
        simp only [takenFrom, List.mem_filter, decide_eq_true_eq]
        constructor
        · intro exact
          refine ⟨fits, fun m isLive here => ⟨by rw [path]; rintro ⟨⟩, ?_⟩,
            by rw [path]; rintro (h | h) <;> contradiction⟩
          exact ((exact m).mpr ⟨isLive, here⟩).1
        · intro counts m
          exact ⟨fun both => ⟨live m both.1, both.2⟩,
            fun both => ⟨(counts.counted m both.1 both.2).2, both.2⟩⟩
    | singleBuffer | copyCanary =>
        simp only [takenFrom]
        constructor
        · intro exact
          refine ⟨fits, fun m isLive here => ⟨by rw [path]; rintro ⟨⟩, ?_⟩, fun _ m mem => ?_⟩
          · exact (exact m).mpr ⟨isLive, here⟩
          · exact ((exact m).mp mem).2
        · intro counts m
          have only := counts.onDevice (by rw [path]; simp)
          exact ⟨fun mem => ⟨live m mem, only m mem⟩,
            fun both => (counts.counted m both.1 both.2).2⟩
  · have fails : s.verifyLaunch args dupe device context nargs = none := by
      rw [verifyLaunch, checkArrays_eq_none launch.few launch.live exceeds]
      rfl
    rw [ExaminesContext, fails]
    constructor
    · rintro ⟨exams, found, -⟩
      contradiction
    · intro counts
      exact absurd counts.fits exceeds.not_ge

/-! ## Two contexts -/

/-- A region of the context `1`. -/
def oneRegion : SvmObj := { handle := 8192, mainBuff := 4096, context := 1, size := 64 }

/-- A region of the context `2`. -/
def otherRegion : SvmObj := { handle := 40960, mainBuff := 36864, context := 2, size := 64 }

/-- A process with these two regions. -/
def twoContexts : KernelState := (initial.clSvmMemInsert oneRegion).clSvmMemInsert otherRegion

/-- The arguments of a kernel with the first region as its only argument. -/
def regionArg : OrderedMap Nat ArgEntry :=
  OrderedMap.empty.insert 0 ⟨0, some 8192, none, some 0⟩

theorem svmLaunch_twoContexts : SvmLaunch twoContexts regionArg [0] 1 where
  coherent := by
    have first : (initial.clSvmMemInsert oneRegion).Coherent :=
      (clSvmMemInsert_spec coherent_initial rfl).1
    exact (clSvmMemInsert_spec first rfl).1
  noNull := rfl
  live := by
    intro i p first
    rw [firstObject] at first
    split at first
    · obtain ⟨arg, found, buffer⟩ := Option.bind_eq_some_iff.mp first
      rw [regionArg, OrderedMap.find_insert_fresh rfl] at found
      split at found
      · rw [← Option.some.inj found] at buffer
        contradiction
      · contradiction
    · contradiction
  few := by decide
  passes := by decide

/-- On a CPU the check is made by the host, which skips the other context. -/
theorem examinesContext_iff_host :
    twoContexts.ExaminesContext regionArg [0] ⟨CL_DEVICE_TYPE_CPU, 0, 0⟩ 1 1 := by
  refine (examinesContext_iff svmLaunch_twoContexts).mpr ⟨by decide, fun m isLive here => ?_, ?_⟩
  · have mem := (mem_liveRegions_iff svmLaunch_twoContexts.coherent rfl).mpr isLive
    rw [show twoContexts.svmRegions.filter (fun m => !m.detectorInternalBuffer) =
      [oneRegion, otherRegion] from rfl] at mem
    refine ⟨by decide, ?_⟩
    rw [show twoContexts.countedRegions regionArg [0] 1 = [oneRegion, otherRegion] by decide]
    exact mem
  · rintro (path | path) <;> exact absurd path (by decide)

/-- On a GPU the same launch examines the regions of both contexts. -/
theorem not_examinesContext_gpu :
    twoContexts.verifyLaunch regionArg [0] ⟨4, 0, 0⟩ 1 1 =
        some [examine 8192 oneRegion, examine 40960 otherRegion] ∧
      ¬ twoContexts.ExaminesContext regionArg [0] ⟨4, 0, 0⟩ 1 1 := by
  have examined : twoContexts.verifyLaunch regionArg [0] ⟨4, 0, 0⟩ 1 1 =
      some [examine 8192 oneRegion, examine 40960 otherRegion] := by decide
  refine ⟨examined, ?_⟩
  rintro ⟨exams, found, exact⟩
  rw [examined, Option.some.injEq] at found
  subst found
  have here := ((exact otherRegion).mp ⟨_, List.mem_cons_of_mem _ List.mem_cons_self, rfl⟩).2
  exact absurd here (by decide)

end KernelState

end Clarmor
