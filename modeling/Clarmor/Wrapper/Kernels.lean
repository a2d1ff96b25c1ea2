import Clarmor.Library.Word
import Clarmor.MetaData.Kernel

/-!
# The descriptions of kernels and what they point to

A `kernel_info` has the list of its arguments, and an argument points to the
`cl_memobj` or the `cl_svm_memobj` that was found when it was set.  The
descriptions lie in a heap here, so that one that was freed can still be pointed
to; an address is not used twice, and a pointer to a freed description is one
that leads nowhere.
-/

namespace Clarmor

open Word

/-- The address of a description. -/
abbrev Address := Nat

/-- `sizeof(cl_mem)`. -/
def SIZEOF_MEM : Nat := 8

/-- `kernel_arg` under its index. -/
structure ArgEntry where
  size : Nat
  value : Option Nat
  buffer : Option Address
  svmBuffer : Option Address
deriving DecidableEq, Repr

/-- `kernel_info`. -/
structure KernelInfo where
  handle : Handle
  argList : OrderedMap Nat ArgEntry
  refCount : Nat

/-- `karg_remove` and `karg_insert` on the argument list. -/
def KernelInfo.setArg (info : KernelInfo) (argIndex : Nat) (arg : ArgEntry) : KernelInfo :=
  { info with argList := (info.argList.remove argIndex).insert argIndex arg }

/-- The heap of descriptions, and the tables behind `get_cl_mem_alloc`,
`get_cl_svm_mem_alloc` and `get_kern_list`. -/
structure KernelState where
  memobjs : Table Address MemObj
  svmobjs : Table Address SvmObj
  kernInfos : Table Address KernelInfo
  nextAddress : Address
  clMemAlloc : Table Handle Address
  clSvmMemAlloc : OrderedMap Nat Address
  kernList : Table Handle Address

/-- What `getBufferIndex` comes to: an index, `-1`, or a description that was
freed. -/
inductive BufferIndex where
  | index (i : Nat)
  | none
  | freed
deriving DecidableEq, Repr

namespace KernelState

/-- The start of a process. -/
def initial : KernelState :=
  ⟨Table.empty, Table.empty, Table.empty, 0, Table.empty, OrderedMap.empty, Table.empty⟩

/-! ## Memory objects -/

/-- `cl_mem_insert` of a new description. -/
def clMemInsert (s : KernelState) (item : MemObj) : KernelState :=
  { s with
    memobjs := s.memobjs.insert s.nextAddress item
    clMemAlloc := s.clMemAlloc.insert item.handle s.nextAddress
    nextAddress := s.nextAddress + 1 }

/-- `clRetainMemObject`. -/
def clRetainMemObject (s : KernelState) (memobj : Handle) : KernelState :=
  match s.clMemAlloc.find memobj with
  | none => s
  | some p =>
      { s with memobjs := s.memobjs.modify p fun m => { m with refCount := u32 (m.refCount + 1) } }

/-- `clReleaseMemObject`. -/
def clReleaseMemObject (s : KernelState) (memobj : Handle) : KernelState :=
  match s.clMemAlloc.find memobj with
  | none => s
  | some p =>
      match s.memobjs.find p with
      | none => s
      | some m =>
          if sub32 m.refCount 1 = 0 then
            { s with memobjs := s.memobjs.remove p, clMemAlloc := s.clMemAlloc.remove memobj }
          else
            { s with memobjs := s.memobjs.modify p fun m =>
                { m with refCount := sub32 m.refCount 1 } }

/-- `cl_svm_mem_insert` of a new description. -/
def clSvmMemInsert (s : KernelState) (item : SvmObj) : KernelState :=
  { s with
    svmobjs := s.svmobjs.insert s.nextAddress item
    clSvmMemAlloc := s.clSvmMemAlloc.insert item.handle s.nextAddress
    nextAddress := s.nextAddress + 1 }

/-- `clSVMFree`. -/
def clSVMFree (s : KernelState) (svmPointer : Nat) : KernelState :=
  match s.clSvmMemAlloc.find svmPointer with
  | none => s
  | some p =>
      { s with svmobjs := s.svmobjs.remove p, clSvmMemAlloc := s.clSvmMemAlloc.remove svmPointer }

/-- `cl_svm_mem_find`. -/
def clSvmMemFind (s : KernelState) (handle : Nat) : Option Address :=
  (s.clSvmMemAlloc.entries.filter fun e => e.1 ≤ handle).getLast?.bind fun e =>
    (s.svmobjs.find e.2).bind fun m =>
      if m.handle > handle then none
      else if m.size < handle - m.handle then none
      else some e.2

/-! ## Kernels -/

/-- `kinfo_find`. -/
def kinfoFind (s : KernelState) (kernel : Handle) : Option KernelInfo :=
  (s.kernList.find kernel).bind s.kernInfos.find

/-- `kinfo_insert` of a new description. -/
def kinfoInsert (s : KernelState) (item : KernelInfo) : KernelState :=
  { s with
    kernInfos := s.kernInfos.insert s.nextAddress item
    kernList := s.kernList.insert item.handle s.nextAddress
    nextAddress := s.nextAddress + 1 }

/-- Change the description of a kernel. -/
def kinfoModify (s : KernelState) (kernel : Handle) (f : KernelInfo → KernelInfo) : KernelState :=
  match s.kernList.find kernel with
  | none => s
  | some p => { s with kernInfos := s.kernInfos.modify p f }

/-- `clRetainKernel`. -/
def clRetainKernel (s : KernelState) (kernel : Handle) : KernelState :=
  match s.kernList.find kernel with
  | none => s.kinfoInsert ⟨kernel, OrderedMap.empty, 2⟩
  | some _ => s.kinfoModify kernel fun info => { info with refCount := u32 (info.refCount + 1) }

/-- `clReleaseKernel`; the runtime is not told. -/
def clReleaseKernel (s : KernelState) (kernel : Handle) : KernelState :=
  match s.kernList.find kernel with
  | none => s
  | some p =>
      match s.kernInfos.find p with
      | none => s
      | some info =>
          if sub32 info.refCount 1 = 0 then
            { s with kernInfos := s.kernInfos.remove p, kernList := s.kernList.remove kernel }
          else s.kinfoModify kernel fun info => { info with refCount := sub32 info.refCount 1 }

/-- The end of the calls that set an argument: the description of the kernel is
made when its first argument is set. -/
def enterArg (s : KernelState) (kernel : Handle) (argIndex : Nat) (arg : ArgEntry) :
    KernelState :=
  let s := match s.kernList.find kernel with
    | none => s.kinfoInsert ⟨kernel, OrderedMap.empty, 1⟩
    | some _ => s
  s.kinfoModify kernel fun info => info.setArg argIndex arg

/-- The argument that `clSetKernelArg` enters. -/
def memArg (s : KernelState) (argSize : Nat) (argValue : Option Nat) : ArgEntry :=
  ⟨argSize, argValue, if argSize = SIZEOF_MEM then argValue.bind s.clMemAlloc.find else none, none⟩

/-- The argument that `clSetKernelArgSVMPointer` enters. -/
def svmArg (s : KernelState) (argValue : Nat) : ArgEntry :=
  ⟨0, some argValue, none, s.clSvmMemFind argValue⟩

/-- `clSetKernelArg`, when the runtime accepts the argument. -/
def clSetKernelArg (s : KernelState) (kernel : Handle) (argIndex argSize : Nat)
    (argValue : Option Nat) : KernelState :=
  s.enterArg kernel argIndex (s.memArg argSize argValue)

/-- `clSetKernelArgSVMPointer`, when the runtime accepts the argument. -/
def clSetKernelArgSVMPointer (s : KernelState) (kernel : Handle) (argIndex argValue : Nat) :
    KernelState :=
  s.enterArg kernel argIndex (s.svmArg argValue)

/-- The handle that `getBufferIndex` finds behind an argument, unless the
description is gone. -/
def argHandle (s : KernelState) (arg : ArgEntry) : Option (Option Handle) :=
  match arg.buffer with
  | some p => (s.memobjs.find p).map fun m => some m.handle
  | none =>
      match arg.svmBuffer with
      | some p => (s.svmobjs.find p).map fun m => some m.handle
      | none => some none

/-- `getBufferIndex`. -/
def getBufferIndex (s : KernelState) (buffer : Handle) : List (Nat × ArgEntry) → BufferIndex
  | [] => .none
  | (i, arg) :: next =>
      match s.argHandle arg with
      | none => .freed
      | some handle => if handle = some buffer then .index i else s.getBufferIndex buffer next

/-! ## What is read on the way to a buffer -/

/-- Argument `i` of a list is this buffer. -/
def Points (s : KernelState) (args : OrderedMap Nat ArgEntry) (buffer : Handle) (i : Nat) : Prop :=
  ∃ arg, args.find i = some arg ∧ s.argHandle arg = some (some buffer)

instance (s : KernelState) (args : OrderedMap Nat ArgEntry) (buffer : Handle) (i : Nat) :
    Decidable (s.Points args buffer i) :=
  inferInstanceAs
    (Decidable (∃ arg ∈ args.find i, s.argHandle arg = some (some buffer)))

/-- `getBufferIndex` gets as far as argument `j`. -/
def Reads (s : KernelState) (args : OrderedMap Nat ArgEntry) (buffer : Handle) (j : Nat) : Prop :=
  ∀ i < j, ¬ s.Points args buffer i

instance (s : KernelState) (args : OrderedMap Nat ArgEntry) (buffer : Handle) (j : Nat) :
    Decidable (s.Reads args buffer j) :=
  inferInstanceAs (Decidable (∀ i < j, ¬ s.Points args buffer i))

/-- Argument `i` leads to a description that is not this buffer's. -/
def Passes (s : KernelState) (buffer : Handle) (arg : ArgEntry) : Prop :=
  ∃ handle, s.argHandle arg = some handle ∧ handle ≠ some buffer

variable {s s' : KernelState} {args args' : OrderedMap Nat ArgEntry} {buffer : Handle}
  {arg : ArgEntry} {i : Nat}

private theorem getBufferIndex_list {l : List (Nat × ArgEntry)}
    (sorted : l.Pairwise fun a b => a.1 < b.1) :
    (s.getBufferIndex buffer l = .index i ↔
      (∃ arg, (i, arg) ∈ l ∧ s.argHandle arg = some (some buffer)) ∧
        ∀ e ∈ l, e.1 < i → s.Passes buffer e.2) ∧
    (s.getBufferIndex buffer l = .none ↔ ∀ e ∈ l, s.Passes buffer e.2) := by
  induction l with
  | nil => simp [getBufferIndex]
  | cons head rest ih =>
      obtain ⟨j, arg⟩ := head
      obtain ⟨below, sorted⟩ := List.pairwise_cons.mp sorted
      obtain ⟨isIndex, isNone⟩ := ih sorted
      rw [getBufferIndex]
      cases reads : s.argHandle arg with
      | none =>
          have unread : ¬ s.Passes buffer arg := by
            rintro ⟨handle, found, -⟩
            rw [reads] at found
            contradiction
          constructor
          · simp only [reduceCtorEq, false_iff, not_and]
            rintro ⟨arg', mem, found⟩ all
            rcases List.mem_cons.mp mem with same | mem
            · rw [(Prod.mk.inj same).2, reads] at found
              contradiction
            · exact unread (all (j, arg) List.mem_cons_self (below _ mem))
          · simp only [reduceCtorEq, false_iff]
            intro all
            exact unread (all (j, arg) List.mem_cons_self)
      | some handle =>
          by_cases here : handle = some buffer
          · subst here
            have unread : ¬ s.Passes buffer arg := by
              rintro ⟨handle, found, other⟩
              rw [reads] at found
              exact other (Option.some.inj found).symm
            simp only [if_true]
            constructor
            · simp only [BufferIndex.index.injEq]
              constructor
              · rintro rfl
                refine ⟨⟨arg, List.mem_cons_self, reads⟩, fun e mem lt => ?_⟩
                rcases List.mem_cons.mp mem with rfl | mem
                · exact absurd lt (lt_irrefl _)
                · exact absurd lt (below e mem).not_gt
              · rintro ⟨⟨arg', mem, -⟩, all⟩
                rcases List.mem_cons.mp mem with same | mem
                · exact (Prod.mk.inj same).1.symm
                · exact absurd (all (j, arg) List.mem_cons_self (below _ mem)) unread
            · simp only [reduceCtorEq, false_iff]
              intro all
              exact unread (all (j, arg) List.mem_cons_self)
          · have read : s.Passes buffer arg := ⟨handle, reads, here⟩
            simp only [here, if_false, isIndex, isNone]
            constructor
            · constructor
              · rintro ⟨⟨arg', mem, found⟩, all⟩
                refine ⟨⟨arg', List.mem_cons_of_mem _ mem, found⟩, fun e mem' lt => ?_⟩
                rcases List.mem_cons.mp mem' with rfl | mem'
                · exact read
                · exact all e mem' lt
              · rintro ⟨⟨arg', mem, found⟩, all⟩
                rcases List.mem_cons.mp mem with same | mem
                · rw [(Prod.mk.inj same).2, reads] at found
                  exact absurd (Option.some.inj found) here
                · exact ⟨⟨arg', mem, found⟩, fun e mem' => all e (List.mem_cons_of_mem _ mem')⟩
            · simp [read]

theorem getBufferIndex_eq_index_iff : s.getBufferIndex buffer args.entries = .index i ↔
    s.Points args buffer i ∧
      ∀ j arg, j < i → args.find j = some arg → s.Passes buffer arg := by
  rw [(getBufferIndex_list args.sorted).1]
  simp only [Points, OrderedMap.find_eq_some_iff, Prod.forall]
  constructor
  · rintro ⟨points, all⟩
    exact ⟨points, fun j arg lt mem => all j arg mem lt⟩
  · rintro ⟨points, all⟩
    exact ⟨points, fun j arg mem lt => all j arg lt mem⟩

theorem getBufferIndex_eq_none_iff : s.getBufferIndex buffer args.entries = .none ↔
    ∀ j arg, args.find j = some arg → s.Passes buffer arg := by
  rw [(getBufferIndex_list (i := 0) args.sorted).2]
  simp only [OrderedMap.find_eq_some_iff, Prod.forall]

theorem not_points_of_passes (found : args.find i = some arg) (passes : s.Passes buffer arg) :
    ¬ s.Points args buffer i := by
  rintro ⟨arg', found', points⟩
  obtain ⟨handle, read, other⟩ := passes
  rw [found, Option.some.injEq] at found'
  rw [found', points] at read
  exact other (Option.some.inj read).symm

/-- What is read is there, when no description on the way is gone. -/
theorem argHandle_of_reads (safe : s.getBufferIndex buffer args.entries ≠ .freed)
    (reads : s.Reads args buffer i) (found : args.find i = some arg) :
    ∃ handle, s.argHandle arg = some handle := by
  cases answer : s.getBufferIndex buffer args.entries with
  | freed => contradiction
  | index k =>
      obtain ⟨⟨arg', found', points⟩, before⟩ := getBufferIndex_eq_index_iff.mp answer
      rcases lt_trichotomy i k with lt | rfl | gt
      · obtain ⟨handle, read, -⟩ := before i arg lt found
        exact ⟨handle, read⟩
      · rw [found, Option.some.injEq] at found'
        rw [found']
        exact ⟨some buffer, points⟩
      · exact absurd ⟨arg', found', points⟩ (reads k gt)
  | none =>
      obtain ⟨handle, read, -⟩ := getBufferIndex_eq_none_iff.mp answer i arg found
      exact ⟨handle, read⟩

/-- The answer stays when the arguments that are read are this buffer or another
one as before. -/
theorem getBufferIndex_congr (safe : s.getBufferIndex buffer args.entries ≠ .freed)
    (same : ∀ j, s.Reads args buffer j → (s'.Points args' buffer j ↔ s.Points args buffer j))
    (live : ∀ j arg, s.Reads args buffer j → args'.find j = some arg →
      ∃ handle, s'.argHandle arg = some handle) :
    s'.getBufferIndex buffer args'.entries = s.getBufferIndex buffer args.entries := by
  have passes : ∀ j arg, s.Reads args buffer j → ¬ s.Points args buffer j →
      args'.find j = some arg → s'.Passes buffer arg := by
    intro j arg reads other found
    obtain ⟨handle, read⟩ := live j arg reads found
    refine ⟨handle, read, ?_⟩
    rintro rfl
    exact other ((same j reads).mp ⟨arg, found, read⟩)
  cases answer : s.getBufferIndex buffer args.entries with
  | freed => contradiction
  | index k =>
      obtain ⟨points, before⟩ := getBufferIndex_eq_index_iff.mp answer
      have not_before : ∀ j < k, ¬ s.Points args buffer j := by
        rintro j lt ⟨arg, found, points⟩
        exact not_points_of_passes found (before j arg lt found) ⟨arg, found, points⟩
      rw [getBufferIndex_eq_index_iff]
      refine ⟨(same k not_before).mpr points, fun j arg lt found => ?_⟩
      exact passes j arg (fun i lt' => not_before i (lt'.trans lt)) (not_before j lt) found
  | none =>
      have others : ∀ j, ¬ s.Points args buffer j := by
        rintro j ⟨arg, found, points⟩
        exact not_points_of_passes found (getBufferIndex_eq_none_iff.mp answer j arg found)
          ⟨arg, found, points⟩
      rw [getBufferIndex_eq_none_iff]
      intro j arg found
      exact passes j arg (fun i _ => others i) (others j) found

/-! ## The tables and the heap -/

/-- The tables lead to descriptions that are there, and nothing is at an address
that was not used yet. -/
structure Coherent (s : KernelState) : Prop where
  mem : ∀ h p, s.clMemAlloc.find h = some p → ∃ m, s.memobjs.find p = some m ∧ m.handle = h
  svm : ∀ h p, s.clSvmMemAlloc.find h = some p → ∃ m, s.svmobjs.find p = some m ∧ m.handle = h
  listed : ∀ k p, s.kernList.find k = some p →
    ∃ info, s.kernInfos.find p = some info ∧ info.handle = k
  entered : ∀ p info, s.kernInfos.find p = some info → s.kernList.find info.handle = some p
  memBelow : ∀ p, s.nextAddress ≤ p → s.memobjs.find p = none
  svmBelow : ∀ p, s.nextAddress ≤ p → s.svmobjs.find p = none
  kernBelow : ∀ p, s.nextAddress ≤ p → s.kernInfos.find p = none

/-- Descriptions stay where they are, except for the ones that go. -/
structure Stay (s s' : KernelState) (memGone svmGone : Address → Prop) : Prop where
  mem : ∀ p m, s.memobjs.find p = some m → ¬ memGone p →
    ∃ m', s'.memobjs.find p = some m' ∧ m'.handle = m.handle
  svm : ∀ p m, s.svmobjs.find p = some m → ¬ svmGone p →
    ∃ m', s'.svmobjs.find p = some m' ∧ m'.handle = m.handle

/-- `clReleaseMemObject` frees this description. -/
def FreesMem (s : KernelState) (memobj : Handle) (p : Address) : Prop :=
  s.clMemAlloc.find memobj = some p ∧ ∃ m, s.memobjs.find p = some m ∧ sub32 m.refCount 1 = 0

/-- `clSVMFree` frees this description. -/
def FreesSvm (s : KernelState) (svmPointer : Nat) (p : Address) : Prop :=
  s.clSvmMemAlloc.find svmPointer = some p

theorem coherent_initial : initial.Coherent := by
  constructor <;> intros <;> first | rfl | contradiction

theorem Stay.refl (s : KernelState) : Stay s s (fun _ => False) fun _ => False :=
  ⟨fun _ m found _ => ⟨m, found, rfl⟩, fun _ m found _ => ⟨m, found, rfl⟩⟩

/-- What an argument leads to stays with the descriptions. -/
theorem Stay.argHandle {memGone svmGone : Address → Prop} {handle : Option Handle}
    (stay : Stay s s' memGone svmGone) (read : s.argHandle arg = some handle)
    (memKept : ∀ p, arg.buffer = some p → ¬ memGone p)
    (svmKept : ∀ p, arg.buffer = none → arg.svmBuffer = some p → ¬ svmGone p) :
    s'.argHandle arg = some handle := by
  rw [KernelState.argHandle] at read ⊢
  cases buffer : arg.buffer with
  | some p =>
      rw [buffer] at read
      obtain ⟨m, found, rfl⟩ := Option.map_eq_some_iff.mp read
      obtain ⟨m', found', same⟩ := stay.mem p m found (memKept p buffer)
      simp [found', same]
  | none =>
      rw [buffer] at read
      cases region : arg.svmBuffer with
      | none =>
          rw [region] at read
          exact read
      | some p =>
          rw [region] at read
          obtain ⟨m, found, rfl⟩ := Option.map_eq_some_iff.mp read
          obtain ⟨m', found', same⟩ := stay.svm p m found (svmKept p buffer region)
          simp [found', same]

/-- The description of a memory object that the application does not have. -/
theorem clMemInsert_spec {item : MemObj} (coherent : s.Coherent)
    (fresh : s.clMemAlloc.find item.handle = none) :
    (s.clMemInsert item).Coherent ∧
      Stay s (s.clMemInsert item) (fun _ => False) fun _ => False := by
  have room := coherent.memBelow s.nextAddress (le_refl _)
  constructor
  · constructor
    case mem =>
      intro h p found
      simp only [clMemInsert, Table.find_insert, fresh, Option.getD_none] at found ⊢
      split_ifs at found with here
      · obtain rfl := Option.some.inj found
        exact ⟨item, by simp [room], here.symm⟩
      · obtain ⟨m, found', same⟩ := coherent.mem h p found
        have old : p ≠ s.nextAddress := by
          rintro rfl
          rw [room] at found'
          contradiction
        exact ⟨m, by simp [old, found'], same⟩
    case svm => exact coherent.svm
    case listed => exact coherent.listed
    case entered => exact coherent.entered
    case memBelow =>
      intro p above
      have later : p ≠ s.nextAddress := (Nat.lt_of_succ_le above).ne'
      simp only [clMemInsert, Table.find_insert_of_ne later]
      exact coherent.memBelow p (Nat.le_of_succ_le above)
    case svmBelow => exact fun p above => coherent.svmBelow p (Nat.le_of_succ_le above)
    case kernBelow => exact fun p above => coherent.kernBelow p (Nat.le_of_succ_le above)
  · constructor
    · intro p m found _
      have old : p ≠ s.nextAddress := by
        rintro rfl
        rw [room] at found
        contradiction
      exact ⟨m, by simp [clMemInsert, Table.find_insert_of_ne old, found], rfl⟩
    · exact fun p m found _ => ⟨m, found, rfl⟩

/-- The description of a region that the application does not have. -/
theorem clSvmMemInsert_spec {item : SvmObj} (coherent : s.Coherent)
    (fresh : s.clSvmMemAlloc.find item.handle = none) :
    (s.clSvmMemInsert item).Coherent ∧
      Stay s (s.clSvmMemInsert item) (fun _ => False) fun _ => False := by
  have room := coherent.svmBelow s.nextAddress (le_refl _)
  constructor
  · constructor
    case mem => exact coherent.mem
    case svm =>
      intro h p found
      simp only [clSvmMemInsert, OrderedMap.find_insert_fresh fresh] at found ⊢
      split_ifs at found with here
      · obtain rfl := Option.some.inj found
        exact ⟨item, by simp [Table.find_insert, room], here.symm⟩
      · obtain ⟨m, found', same⟩ := coherent.svm h p found
        have old : p ≠ s.nextAddress := by
          rintro rfl
          rw [room] at found'
          contradiction
        exact ⟨m, by simp [Table.find_insert_of_ne old, found'], same⟩
    case listed => exact coherent.listed
    case entered => exact coherent.entered
    case memBelow => exact fun p above => coherent.memBelow p (Nat.le_of_succ_le above)
    case svmBelow =>
      intro p above
      have later : p ≠ s.nextAddress := (Nat.lt_of_succ_le above).ne'
      simp only [clSvmMemInsert, Table.find_insert_of_ne later]
      exact coherent.svmBelow p (Nat.le_of_succ_le above)
    case kernBelow => exact fun p above => coherent.kernBelow p (Nat.le_of_succ_le above)
  · constructor
    · exact fun p m found _ => ⟨m, found, rfl⟩
    · intro p m found _
      have old : p ≠ s.nextAddress := by
        rintro rfl
        rw [room] at found
        contradiction
      exact ⟨m, by simp [clSvmMemInsert, Table.find_insert_of_ne old, found], rfl⟩

/-- A change of a description that keeps its handle. -/
theorem modify_spec {p : Address} {f : MemObj → MemObj} (coherent : s.Coherent)
    (keeps : ∀ m, (f m).handle = m.handle) :
    ({ s with memobjs := s.memobjs.modify p f } : KernelState).Coherent ∧
      Stay s { s with memobjs := s.memobjs.modify p f } (fun _ => False) fun _ => False := by
  have stay : ∀ q m, s.memobjs.find q = some m →
      ∃ m', (s.memobjs.modify p f).find q = some m' ∧ m'.handle = m.handle := by
    intro q m found
    by_cases here : q = p
    · subst here
      exact ⟨f m, by simp [found], keeps m⟩
    · exact ⟨m, by rw [Table.find_modify_of_ne here, found], rfl⟩
  constructor
  · constructor
    case mem =>
      intro h q found
      obtain ⟨m, found', same⟩ := coherent.mem h q found
      obtain ⟨m', found'', same'⟩ := stay q m found'
      exact ⟨m', found'', same'.trans same⟩
    case svm => exact coherent.svm
    case listed => exact coherent.listed
    case entered => exact coherent.entered
    case memBelow =>
      intro q above
      have empty := coherent.memBelow q above
      simp only [Table.find_modify]
      split_ifs with here
      · rw [← here, empty]
        rfl
      · exact empty
    case svmBelow => exact coherent.svmBelow
    case kernBelow => exact coherent.kernBelow
  · exact ⟨fun q m found _ => stay q m found, fun q m found _ => ⟨m, found, rfl⟩⟩

theorem clRetainMemObject_spec (coherent : s.Coherent) (memobj : Handle) :
    (s.clRetainMemObject memobj).Coherent ∧
      Stay s (s.clRetainMemObject memobj) (fun _ => False) fun _ => False := by
  rw [clRetainMemObject]
  cases s.clMemAlloc.find memobj with
  | none => exact ⟨coherent, Stay.refl s⟩
  | some p => exact modify_spec coherent fun _ => rfl

theorem clReleaseMemObject_spec (coherent : s.Coherent) (memobj : Handle) :
    (s.clReleaseMemObject memobj).Coherent ∧
      Stay s (s.clReleaseMemObject memobj) (s.FreesMem memobj) fun _ => False := by
  have nothing : s.Coherent ∧ Stay s s (s.FreesMem memobj) fun _ => False :=
    ⟨coherent, fun _ m found _ => ⟨m, found, rfl⟩, fun _ m found _ => ⟨m, found, rfl⟩⟩
  rw [clReleaseMemObject]
  cases listed : s.clMemAlloc.find memobj with
  | none => exact nothing
  | some p =>
      obtain ⟨m, found, same⟩ := coherent.mem memobj p listed
      dsimp only
      rw [found]
      dsimp only
      split_ifs with last
      · constructor
        · constructor
          case mem =>
            intro h q found'
            simp only [Table.find_remove] at found' ⊢
            split_ifs at found' with here
            obtain ⟨m', other, same'⟩ := coherent.mem h q found'
            have apart : q ≠ p := by
              rintro rfl
              rw [found, Option.some.injEq] at other
              rw [other, same'] at same
              exact here same
            exact ⟨m', by rw [if_neg apart, other], same'⟩
          case svm => exact coherent.svm
          case listed => exact coherent.listed
          case entered => exact coherent.entered
          case memBelow =>
            intro q above
            simp only [Table.find_remove, coherent.memBelow q above, ite_self]
          case svmBelow => exact coherent.svmBelow
          case kernBelow => exact coherent.kernBelow
        · constructor
          · intro q m' found' kept
            have apart : q ≠ p := by
              rintro rfl
              exact kept ⟨listed, m, found, last⟩
            exact ⟨m', by simp only [Table.find_remove, if_neg apart, found'], rfl⟩
          · exact fun q m' found' _ => ⟨m', found', rfl⟩
      · obtain ⟨coherent', stay⟩ := modify_spec (s := s) (p := p)
          (f := fun m => { m with refCount := sub32 m.refCount 1 }) coherent fun _ => rfl
        exact ⟨coherent', fun q m' found' _ => stay.mem q m' found' id,
          fun q m' found' _ => ⟨m', found', rfl⟩⟩

theorem clSVMFree_spec (coherent : s.Coherent) (svmPointer : Nat) :
    (s.clSVMFree svmPointer).Coherent ∧
      Stay s (s.clSVMFree svmPointer) (fun _ => False) (s.FreesSvm svmPointer) := by
  rw [clSVMFree]
  cases listed : s.clSvmMemAlloc.find svmPointer with
  | none =>
      exact ⟨coherent, fun _ m found _ => ⟨m, found, rfl⟩, fun _ m found _ => ⟨m, found, rfl⟩⟩
  | some p =>
      obtain ⟨m, found, same⟩ := coherent.svm svmPointer p listed
      constructor
      · constructor
        case mem => exact coherent.mem
        case svm =>
          intro h q found'
          simp only [OrderedMap.find_remove] at found'
          split_ifs at found' with here
          obtain ⟨m', other, same'⟩ := coherent.svm h q found'
          have apart : q ≠ p := by
            rintro rfl
            rw [found, Option.some.injEq] at other
            rw [other, same'] at same
            exact here same
          exact ⟨m', by simp only [Table.find_remove, if_neg apart, other], same'⟩
        case listed => exact coherent.listed
        case entered => exact coherent.entered
        case memBelow => exact coherent.memBelow
        case svmBelow =>
          intro q above
          simp only [Table.find_remove, coherent.svmBelow q above, ite_self]
        case kernBelow => exact coherent.kernBelow
      · constructor
        · exact fun q m' found' _ => ⟨m', found', rfl⟩
        · intro q m' found' kept
          have apart : q ≠ p := by
            rintro rfl
            exact kept listed
          exact ⟨m', by simp only [Table.find_remove, if_neg apart, found'], rfl⟩

theorem kinfoFind_eq_some {kernel : Handle} {p : Address} {info : KernelInfo}
    (listed : s.kernList.find kernel = some p) (found : s.kernInfos.find p = some info) :
    s.kinfoFind kernel = some info := by
  rw [kinfoFind, listed]
  exact found

/-- The description of a kernel that has none. -/
theorem kinfoInsert_coherent {item : KernelInfo} (coherent : s.Coherent)
    (fresh : s.kernList.find item.handle = none) : (s.kinfoInsert item).Coherent := by
  have room := coherent.kernBelow s.nextAddress (le_refl _)
  constructor
  case mem => exact coherent.mem
  case svm => exact coherent.svm
  case listed =>
    intro k p found
    simp only [kinfoInsert, Table.find_insert, fresh, Option.getD_none] at found ⊢
    split_ifs at found with here
    · obtain rfl := Option.some.inj found
      exact ⟨item, by simp [room], here.symm⟩
    · obtain ⟨info, found', same⟩ := coherent.listed k p found
      have old : p ≠ s.nextAddress := by
        rintro rfl
        rw [room] at found'
        contradiction
      exact ⟨info, by simp [old, found'], same⟩
  case entered =>
    intro p info found
    simp only [kinfoInsert, Table.find_insert, fresh, room, Option.getD_none] at found ⊢
    split_ifs at found with here
    · obtain rfl := Option.some.inj found
      rw [if_pos rfl, here]
    · have found' := coherent.entered p info found
      have other : info.handle ≠ item.handle := by
        intro same
        rw [same, fresh] at found'
        contradiction
      rw [if_neg other, found']
  case memBelow => exact fun p above => coherent.memBelow p (Nat.le_of_succ_le above)
  case svmBelow => exact fun p above => coherent.svmBelow p (Nat.le_of_succ_le above)
  case kernBelow =>
    intro p above
    have later : p ≠ s.nextAddress := (Nat.lt_of_succ_le above).ne'
    simp only [kinfoInsert, Table.find_insert_of_ne later]
    exact coherent.kernBelow p (Nat.le_of_succ_le above)

/-- A change of the description of a kernel that keeps its handle. -/
theorem kinfoModify_coherent {kernel : Handle} {f : KernelInfo → KernelInfo}
    (coherent : s.Coherent) (keeps : ∀ info, (f info).handle = info.handle) :
    (s.kinfoModify kernel f).Coherent := by
  rw [kinfoModify]
  cases s.kernList.find kernel with
  | none => exact coherent
  | some p =>
      have split : ∀ q info, (s.kernInfos.modify p f).find q = some info →
          ∃ info', s.kernInfos.find q = some info' ∧ info.handle = info'.handle := by
        intro q info found
        simp only [Table.find_modify] at found
        split_ifs at found with here
        · obtain ⟨info', found', rfl⟩ := Option.map_eq_some_iff.mp found
          exact ⟨info', by rw [here, found'], keeps info'⟩
        · exact ⟨info, found, rfl⟩
      constructor
      case mem => exact coherent.mem
      case svm => exact coherent.svm
      case listed =>
        intro k q listed
        obtain ⟨info, found, same⟩ := coherent.listed k q listed
        by_cases here : q = p
        · exact ⟨f info, by simp [← here, found], (keeps info).trans same⟩
        · exact ⟨info, by simp [Table.find_modify_of_ne here, found], same⟩
      case entered =>
        intro q info found
        obtain ⟨info', found', same⟩ := split q info found
        rw [same]
        exact coherent.entered q info' found'
      case memBelow => exact coherent.memBelow
      case svmBelow => exact coherent.svmBelow
      case kernBelow =>
        intro q above
        cases found : (s.kernInfos.modify p f).find q with
        | none => rfl
        | some info =>
            obtain ⟨info', found', -⟩ := split q info found
            rw [coherent.kernBelow q above] at found'
            contradiction

/-- The description of a kernel goes. -/
theorem kinfoRemove_coherent {kernel : Handle} {p : Address} (coherent : s.Coherent)
    (listed : s.kernList.find kernel = some p) :
    ({ s with kernInfos := s.kernInfos.remove p, kernList := s.kernList.remove kernel } :
      KernelState).Coherent := by
  obtain ⟨info, found, same⟩ := coherent.listed kernel p listed
  constructor
  case mem => exact coherent.mem
  case svm => exact coherent.svm
  case listed =>
    intro k q listed'
    simp only [Table.find_remove] at listed' ⊢
    split_ifs at listed' with here
    obtain ⟨info', found', same'⟩ := coherent.listed k q listed'
    have apart : q ≠ p := by
      rintro rfl
      rw [found, Option.some.injEq] at found'
      rw [found', same'] at same
      exact here same
    exact ⟨info', by rw [if_neg apart, found'], same'⟩
  case entered =>
    intro q info' found'
    simp only [Table.find_remove] at found' ⊢
    split_ifs at found' with here
    have listed' := coherent.entered q info' found'
    have apart : info'.handle ≠ kernel := by
      intro same'
      rw [same', listed, Option.some.injEq] at listed'
      exact here listed'.symm
    rw [if_neg apart, listed']
  case memBelow => exact coherent.memBelow
  case svmBelow => exact coherent.svmBelow
  case kernBelow =>
    intro q above
    simp only [Table.find_remove, coherent.kernBelow q above, ite_self]

/-- What the arguments lead to does not depend on the kernels. -/
theorem argHandle_congr (mem : s'.memobjs = s.memobjs) (svm : s'.svmobjs = s.svmobjs)
    (arg : ArgEntry) : s'.argHandle arg = s.argHandle arg := by
  rw [argHandle, argHandle, mem, svm]

/-- A memory object that is set exists. -/
theorem memArg_live (coherent : s.Coherent) (argSize : Nat) (argValue : Option Nat) :
    ∃ handle, s.argHandle (s.memArg argSize argValue) = some handle := by
  rw [argHandle, memArg]
  dsimp only
  split_ifs with isMem
  · cases value : argValue.bind s.clMemAlloc.find with
    | none => exact ⟨_, rfl⟩
    | some p =>
        obtain ⟨v, -, listed⟩ := Option.bind_eq_some_iff.mp value
        obtain ⟨m, found, -⟩ := coherent.mem v p listed
        exact ⟨some m.handle, by simp [found]⟩
  · exact ⟨_, rfl⟩

/-- A region that is set exists. -/
theorem svmArg_live (s : KernelState) (argValue : Nat) :
    ∃ handle, s.argHandle (s.svmArg argValue) = some handle := by
  rw [argHandle, svmArg]
  dsimp only
  cases found : s.clSvmMemFind argValue with
  | none => exact ⟨_, rfl⟩
  | some p =>
      rw [clSvmMemFind] at found
      obtain ⟨e, -, found⟩ := Option.bind_eq_some_iff.mp found
      obtain ⟨m, isThere, found⟩ := Option.bind_eq_some_iff.mp found
      split_ifs at found
      obtain rfl := Option.some.inj found
      exact ⟨some m.handle, by simp [isThere]⟩

/-- A live region is found under its handle. -/
theorem clSvmMemFind_handle {m : SvmObj} {p : Address}
    (listed : s.clSvmMemAlloc.find m.handle = some p) (isRegion : s.svmobjs.find p = some m) :
    s.clSvmMemFind m.handle = some p := by
  have entry : s.clSvmMemAlloc.upTo m.handle = some (m.handle, p) :=
    OrderedMap.upTo_eq_some_iff.mpr ⟨OrderedMap.find_eq_some_iff.mp listed, le_refl _,
      fun _ _ le => le⟩
  rw [clSvmMemFind, show (s.clSvmMemAlloc.entries.filter _).getLast? = _ from entry,
    Option.bind_some, isRegion, Option.bind_some, if_neg (lt_irrefl _),
    if_neg (by rw [Nat.sub_self]; exact Nat.not_lt_zero _)]

@[simp]
theorem find_setArg (info : KernelInfo) (i j : Nat) (arg : ArgEntry) :
    (info.setArg i arg).argList.find j = if j = i then some arg else info.argList.find j := by
  have fresh : (info.argList.remove i).find i = none := by simp [OrderedMap.find_remove]
  rw [KernelInfo.setArg]
  dsimp only
  rw [OrderedMap.find_insert_fresh fresh, OrderedMap.find_remove]
  split_ifs <;> rfl

theorem enterArg_of_listed {kernel : Handle} {p : Address}
    (listed : s.kernList.find kernel = some p) :
    s.enterArg kernel i arg = s.kinfoModify kernel fun info => info.setArg i arg := by
  simp only [enterArg, listed]

theorem enterArg_of_unlisted {kernel : Handle} (unlisted : s.kernList.find kernel = none) :
    s.enterArg kernel i arg =
      (s.kinfoInsert ⟨kernel, OrderedMap.empty, 1⟩).enterArg kernel i arg := by
  have listed : (s.kinfoInsert ⟨kernel, OrderedMap.empty, 1⟩).kernList.find kernel =
      some s.nextAddress := Table.find_insert_fresh unlisted
  rw [enterArg_of_listed listed]
  simp only [enterArg, unlisted]

/-! ## The description of a kernel after a change -/

theorem kinfoModify_of_listed {kernel : Handle} {p : Address} {f : KernelInfo → KernelInfo}
    (listed : s.kernList.find kernel = some p) :
    s.kinfoModify kernel f = { s with kernInfos := s.kernInfos.modify p f } := by
  simp only [kinfoModify, listed]

theorem kinfoFind_modify {kernel k : Handle} {f : KernelInfo → KernelInfo}
    (coherent : s.Coherent) : (s.kinfoModify kernel f).kinfoFind k =
      if k = kernel then (s.kinfoFind k).map f else s.kinfoFind k := by
  cases listed : s.kernList.find kernel with
  | none =>
      have same : s.kinfoModify kernel f = s := by simp only [kinfoModify, listed]
      rw [same]
      split_ifs with here
      · rw [here, kinfoFind, listed]
        rfl
      · rfl
  | some p =>
      obtain ⟨info, found, handle⟩ := coherent.listed kernel p listed
      have isList : (s.kinfoModify kernel f).kernList = s.kernList := by
        simp only [kinfoModify, listed]
      have isHeap : (s.kinfoModify kernel f).kernInfos = s.kernInfos.modify p f := by
        simp only [kinfoModify, listed]
      rw [kinfoFind, kinfoFind, isList, isHeap]
      split_ifs with here
      · rw [here, listed]
        exact Table.find_modify_self _ _ _
      · cases listed' : s.kernList.find k with
        | none => rfl
        | some q =>
            obtain ⟨info', found', handle'⟩ := coherent.listed k q listed'
            have apart : q ≠ p := by
              rintro rfl
              rw [found, Option.some.injEq] at found'
              rw [← found', handle] at handle'
              exact here handle'.symm
            exact Table.find_modify_of_ne apart

theorem kinfoFind_insert {item : KernelInfo} {k : Handle} (coherent : s.Coherent)
    (fresh : s.kernList.find item.handle = none) : (s.kinfoInsert item).kinfoFind k =
      if k = item.handle then some item else s.kinfoFind k := by
  have room := coherent.kernBelow s.nextAddress (le_refl _)
  split_ifs with here
  · rw [here]
    exact kinfoFind_eq_some (Table.find_insert_fresh fresh) (Table.find_insert_fresh room)
  · rw [kinfoFind, kinfoFind]
    simp only [kinfoInsert, Table.find_insert_of_ne here]
    cases listed : s.kernList.find k with
    | none => rfl
    | some q =>
        obtain ⟨info, found, -⟩ := coherent.listed k q listed
        have old : q ≠ s.nextAddress := by
          rintro rfl
          rw [room] at found
          contradiction
        exact Table.find_insert_of_ne old

theorem kinfoFind_remove {kernel k : Handle} {p : Address} (coherent : s.Coherent)
    (listed : s.kernList.find kernel = some p) :
    ({ s with kernInfos := s.kernInfos.remove p, kernList := s.kernList.remove kernel } :
      KernelState).kinfoFind k = if k = kernel then none else s.kinfoFind k := by
  obtain ⟨info, found, handle⟩ := coherent.listed kernel p listed
  rw [kinfoFind]
  simp only [Table.find_remove]
  split_ifs with here
  · rfl
  · rw [kinfoFind]
    cases listed' : s.kernList.find k with
    | none => rfl
    | some q =>
        obtain ⟨info', found', handle'⟩ := coherent.listed k q listed'
        have apart : q ≠ p := by
          rintro rfl
          rw [found, Option.some.injEq] at found'
          rw [← found', handle] at handle'
          exact here handle'.symm
        exact Table.find_remove_of_ne apart

/-- What entering an argument does. -/
structure Entered (s s' : KernelState) (kernel : Handle) (i : Nat) (arg : ArgEntry) : Prop where
  coherent : s'.Coherent
  memobjs : s'.memobjs = s.memobjs
  clMemAlloc : s'.clMemAlloc = s.clMemAlloc
  later : s.nextAddress ≤ s'.nextAddress
  here : ∃ info, s'.kinfoFind kernel = some info ∧ ∀ j, info.argList.find j =
    if j = i then some arg else (s.kinfoFind kernel).bind fun info => info.argList.find j
  others : ∀ k ≠ kernel, s'.kinfoFind k = s.kinfoFind k
  unlisted : ∀ k ≠ kernel, s.kernList.find k = none → s'.kernList.find k = none

theorem enterArg_spec (coherent : s.Coherent) (kernel : Handle) (i : Nat) (arg : ArgEntry) :
    Entered s (s.enterArg kernel i arg) kernel i arg := by
  cases listed : s.kernList.find kernel with
  | some p =>
      obtain ⟨info, found, -⟩ := coherent.listed kernel p listed
      have isInfo := kinfoFind_eq_some listed found
      have modified := @kinfoModify_of_listed s kernel p (fun info => info.setArg i arg) listed
      rw [enterArg_of_listed listed, modified]
      constructor
      case coherent =>
        rw [← modified]
        exact kinfoModify_coherent coherent fun _ => rfl
      case memobjs => rfl
      case clMemAlloc => rfl
      case later => exact le_refl _
      case here =>
        refine ⟨info.setArg i arg, ?_, fun j => ?_⟩
        · rw [← modified, kinfoFind_modify coherent, if_pos rfl, isInfo]
          rfl
        · rw [find_setArg, isInfo]
          rfl
      case others =>
        intro k other
        rw [← modified, kinfoFind_modify coherent, if_neg other]
      case unlisted => exact fun _ _ unlisted => unlisted
  | none =>
      have coherent' := @kinfoInsert_coherent s ⟨kernel, OrderedMap.empty, 1⟩ coherent listed
      have isInfo := @kinfoFind_insert s ⟨kernel, OrderedMap.empty, 1⟩ kernel coherent listed
      rw [if_pos rfl] at isInfo
      have listed' : (s.kinfoInsert ⟨kernel, OrderedMap.empty, 1⟩).kernList.find kernel =
          some s.nextAddress := Table.find_insert_fresh listed
      rw [enterArg_of_unlisted listed, enterArg_of_listed listed', kinfoModify_of_listed listed']
      have modified := @kinfoModify_of_listed _ kernel _ (fun info => info.setArg i arg) listed'
      constructor
      case coherent =>
        rw [← modified]
        exact kinfoModify_coherent coherent' fun _ => rfl
      case memobjs => rfl
      case clMemAlloc => rfl
      case later => exact Nat.le_succ _
      case here =>
        refine ⟨KernelInfo.setArg ⟨kernel, OrderedMap.empty, 1⟩ i arg, ?_, fun j => ?_⟩
        · rw [← modified, kinfoFind_modify coherent', if_pos rfl, isInfo]
          rfl
        · rw [find_setArg, kinfoFind, listed]
          rfl
      case others =>
        intro k other
        rw [← modified, kinfoFind_modify coherent', if_neg other, kinfoFind_insert coherent listed,
          if_neg other]
      case unlisted =>
        intro k other unlisted
        exact (Table.find_insert_of_ne other).trans unlisted

end KernelState

end Clarmor
