import Clarmor.Launch.CloneArguments

/-!
# The table of the regions in a run

Only `clSVMAlloc` and `clSVMFree` change the regions of shared virtual memory.  Every
region that is there is in the table under its own pointer, in every state of a run.
-/

namespace Clarmor

namespace KernelState

/-- The regions are those of the other state. -/
def KeepsSvm (s s' : KernelState) : Prop :=
  s'.svmobjs = s.svmobjs ∧ s'.clSvmMemAlloc = s.clSvmMemAlloc

/-- A region that is there is the one in the table, and none is at a null pointer. -/
structure SvmEntered (s : KernelState) : Prop where
  entered : ∀ p m, s.svmobjs.find p = some m → s.clSvmMemAlloc.find m.handle = some p
  noNull : s.clSvmMemAlloc.find NULL = none

variable {s s' s'' : KernelState} {kernel : Handle}

theorem KeepsSvm.refl (s : KernelState) : KeepsSvm s s := ⟨rfl, rfl⟩

theorem KeepsSvm.trans (first : KeepsSvm s s') (second : KeepsSvm s' s'') : KeepsSvm s s'' :=
  ⟨second.1.trans first.1, second.2.trans first.2⟩

theorem SvmEntered.keep (svm : SvmEntered s) (keeps : KeepsSvm s s') : SvmEntered s' := by
  obtain ⟨entered, noNull⟩ := svm
  rw [← keeps.1, ← keeps.2] at entered
  rw [← keeps.2] at noNull
  exact ⟨entered, noNull⟩

theorem keepsSvm_kinfoModify (s : KernelState) (kernel : Handle) (f : KernelInfo → KernelInfo) :
    KeepsSvm s (s.kinfoModify kernel f) := by
  rw [kinfoModify]
  cases s.kernList.find kernel <;> exact KeepsSvm.refl s

theorem keepsSvm_enterArg (s : KernelState) (kernel : Handle) (i : Nat) (entry : ArgEntry) :
    KeepsSvm s (s.enterArg kernel i entry) := by
  rw [enterArg]
  cases s.kernList.find kernel with
  | none =>
      have inserts : KeepsSvm s (s.kinfoInsert ⟨kernel, OrderedMap.empty, 1⟩) := ⟨rfl, rfl⟩
      exact inserts.trans (keepsSvm_kinfoModify _ _ _)
  | some p => exact keepsSvm_kinfoModify _ _ _

theorem keepsSvm_clRetainMemObject (s : KernelState) (memobj : Handle) :
    KeepsSvm s (s.clRetainMemObject memobj) := by
  rw [clRetainMemObject]
  cases s.clMemAlloc.find memobj <;> exact ⟨rfl, rfl⟩

theorem keepsSvm_clReleaseMemObject (s : KernelState) (memobj : Handle) :
    KeepsSvm s (s.clReleaseMemObject memobj) := by
  rw [clReleaseMemObject]
  cases s.clMemAlloc.find memobj with
  | none => exact KeepsSvm.refl s
  | some p =>
      dsimp only
      cases s.memobjs.find p with
      | none => exact KeepsSvm.refl s
      | some m =>
          dsimp only
          split_ifs <;> exact ⟨rfl, rfl⟩

theorem keepsSvm_clRetainKernel (s : KernelState) (kernel : Handle) :
    KeepsSvm s (s.clRetainKernel kernel) := by
  rw [clRetainKernel]
  cases s.kernList.find kernel with
  | none => exact ⟨rfl, rfl⟩
  | some p => exact keepsSvm_kinfoModify _ _ _

theorem keepsSvm_clReleaseKernel (s : KernelState) (kernel : Handle) :
    KeepsSvm s (s.clReleaseKernel kernel) := by
  rw [clReleaseKernel]
  cases s.kernList.find kernel with
  | none => exact KeepsSvm.refl s
  | some p =>
      dsimp only
      cases s.kernInfos.find p with
      | none => exact KeepsSvm.refl s
      | some info =>
          dsimp only
          split_ifs
          · exact ⟨rfl, rfl⟩
          · exact keepsSvm_kinfoModify _ _ _

theorem keepsSvm_createInternal {object : MemObj} (created : s.createInternal object = some s') :
    KeepsSvm s s' := by
  rw [createInternal] at created
  split_ifs at created
  obtain rfl := Option.some.inj created
  exact ⟨rfl, rfl⟩

theorem keepsSvm_releaseInternal (s : KernelState) (m1 : Option Address) :
    KeepsSvm s (s.releaseInternal m1) := by
  rw [releaseInternal]
  cases s.internalObject m1 with
  | none => exact KeepsSvm.refl s
  | some object => exact keepsSvm_clReleaseMemObject _ _

theorem keepsSvm_delPoisonArg (s : KernelState) (delKern : Handle) (dupe : List Nat) (i : Nat) :
    KeepsSvm s (s.delPoisonArg delKern dupe i) := by
  rw [delPoisonArg]
  split_ifs
  · have removes := keepsSvm_kinfoModify s delKern fun info =>
      { info with argList := info.argList.remove i }
    exact removes.trans (keepsSvm_releaseInternal _ _)
  · exact KeepsSvm.refl s

theorem svmEntered_initial : SvmEntered initial :=
  ⟨fun p m found => by contradiction, rfl⟩

theorem SvmEntered.clSvmMemInsert {item : SvmObj} (svm : SvmEntered s) (coherent : s.Coherent)
    (nonNull : item.handle ≠ NULL) (fresh : s.clSvmMemAlloc.find item.handle = none) :
    SvmEntered (s.clSvmMemInsert item) := by
  have room := coherent.svmBelow s.nextAddress (le_refl _)
  constructor
  · intro p m found
    simp only [KernelState.clSvmMemInsert] at found ⊢
    by_cases here : p = s.nextAddress
    · rw [here, Table.find_insert_fresh room, Option.some.injEq] at found
      rw [← found, OrderedMap.find_insert_fresh fresh, if_pos rfl, here]
    · rw [Table.find_insert_of_ne here] at found
      have listed := svm.entered p m found
      have other : m.handle ≠ item.handle := by
        intro same
        rw [same, fresh] at listed
        contradiction
      rw [OrderedMap.find_insert_fresh fresh, if_neg other, listed]
  · simp only [KernelState.clSvmMemInsert, OrderedMap.find_insert_fresh fresh]
    rw [if_neg nonNull.symm, svm.noNull]

theorem SvmEntered.clSVMFree (svm : SvmEntered s) (svmPointer : Nat) :
    SvmEntered (s.clSVMFree svmPointer) := by
  rw [KernelState.clSVMFree]
  cases listed : s.clSvmMemAlloc.find svmPointer with
  | none => exact svm
  | some p =>
      constructor
      · intro q m found
        simp only [Table.find_remove, OrderedMap.find_remove] at found ⊢
        split_ifs at found with here
        have listed' := svm.entered q m found
        have other : m.handle ≠ svmPointer := by
          intro same
          rw [same, listed, Option.some.injEq] at listed'
          exact here listed'.symm
        rw [if_neg other, listed']
      · simp only [OrderedMap.find_remove, svm.noNull, ite_self]

end KernelState

namespace ArgSystem

open KernelState

variable {sys sys' : ArgSystem} {kernel clone : Handle} {kargs : List KernelArg}
  {objects objects' : List MemObj} {i : Nat}

theorem keepsSvm_setRuntimeArg {arg : RuntimeArg}
    (set : sys.setRuntimeArg kernel i arg = some sys') : KeepsSvm sys.s sys'.s := by
  rw [setRuntimeArg_s set]
  exact keepsSvm_enterArg _ _ _ _

theorem keepsSvm_setCloneArg
    (ran : sys.setCloneArg kargs clone i objects = some (objects', sys')) :
    KeepsSvm sys.s sys'.s := by
  cases cloneTurn_of_run ran with
  | again _ _ _ set => exact keepsSvm_setRuntimeArg set
  | new _ _ _ created set =>
      exact (keepsSvm_createInternal created).trans (keepsSvm_setRuntimeArg set)
  | repeated _ _ _ set => exact keepsSvm_setRuntimeArg set

theorem keepsSvm_setCloneArgs {indices : List Nat}
    (ran : setCloneArgs kargs clone indices objects sys = some sys') : KeepsSvm sys.s sys'.s := by
  induction indices generalizing objects sys with
  | nil =>
      obtain rfl := Option.some.inj ran
      exact KeepsSvm.refl sys.s
  | cons i rest ih =>
      rw [setCloneArgs] at ran
      obtain ⟨next, turned, ran⟩ := Option.bind_eq_some_iff.mp ran
      exact (keepsSvm_setCloneArg turned).trans (ih ran)

theorem svmEntered_step {call : ArgCall} (inv : Inv sys) (svm : SvmEntered sys.s)
    (ran : sys.step call = some sys') : SvmEntered sys'.s := by
  cases call with
  | createMem item =>
      simp only [step] at ran
      split_ifs at ran
      obtain rfl := Option.some.inj ran
      exact svm.keep ⟨rfl, rfl⟩
  | retainMem memobj =>
      obtain rfl := Option.some.inj ran
      exact svm.keep (keepsSvm_clRetainMemObject _ _)
  | releaseMem memobj =>
      obtain rfl := Option.some.inj ran
      exact svm.keep (keepsSvm_clReleaseMemObject _ _)
  | createSvm item =>
      simp only [step] at ran
      split_ifs at ran with usable
      obtain rfl := Option.some.inj ran
      exact svm.clSvmMemInsert inv.coherent usable.1 usable.2
  | freeSvm svmPointer =>
      obtain rfl := Option.some.inj ran
      exact svm.clSVMFree svmPointer
  | createKernel kernel params =>
      rw [← (inv.clCreateKernel ran).2.1] at svm
      exact svm
  | setArg kernel argIndex argSize argValue =>
      exact svm.keep (@keepsSvm_setRuntimeArg sys sys' kernel argIndex
        (.memory argSize argValue) ran)
  | setSvmArg kernel argIndex argValue =>
      exact svm.keep (@keepsSvm_setRuntimeArg sys sys' kernel argIndex (.svm argValue) ran)
  | retainKernel kernel =>
      simp only [step] at ran
      split_ifs at ran
      obtain rfl := Option.some.inj ran
      exact svm.keep (keepsSvm_clRetainKernel _ _)
  | releaseKernel kernel =>
      obtain rfl := Option.some.inj ran
      exact svm.keep (keepsSvm_clReleaseKernel _ _)
  | createPoisoned kernel clone objects =>
      simp only [step, createPoisonedKernel] at ran
      obtain ⟨info, -, ran⟩ := Option.bind_eq_some_iff.mp ran
      obtain ⟨kern, -, ran⟩ := Option.bind_eq_some_iff.mp ran
      split_ifs at ran
      · obtain ⟨start, created, ran⟩ := Option.bind_eq_some_iff.mp ran
        rw [← (inv.clCreateKernel created).2.1] at svm
        exact svm.keep (keepsSvm_setCloneArgs ran)
      · obtain rfl := Option.some.inj ran
        exact svm
  | delPoisonArg delKern dupe i =>
      obtain rfl := Option.some.inj ran
      exact svm.keep (keepsSvm_delPoisonArg _ _ _ _)

theorem svmEntered_of_run (run : Run.Reach step (fun _ _ => True) initial sys) :
    Inv sys ∧ SvmEntered sys.s := by
  apply run.invariant
  · exact ⟨inv_initial, svmEntered_initial⟩
  · rintro _ _ _ ⟨inv, svm⟩ _ ran
    exact ⟨inv_step inv ran, svmEntered_step inv svm ran⟩

end ArgSystem

end Clarmor
