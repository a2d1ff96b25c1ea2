import Clarmor.Check.Strategies
import Clarmor.Library.Races

/-!
# The commands of the copying check

The check enqueues copies of the canaries, their repair, a fill of the results, the
kernel that compares, markers and a read of the results, and returns without
waiting.  The repair of an object is on a queue of its context.  A device executes
the commands as soon as their events let it, in any order.

All copies are made in the context of the queue, and a conversion of an event to
another context keeps what it waits for.
-/

namespace Clarmor

open Word Store Reduce Items Queues

/-- Names for the commands of a check and for those that were enqueued before. -/
inductive CheckTag where
  | pending (n : Nat)
  | copy (index region : Nat)
  | copyFinish (index : Nat)
  | mend (index region : Nat)
  | mendFinish (index : Nat)
  | pointers
  | fill
  | check
  | mendMarker
  | finish
  | read
deriving DecidableEq, Repr

/-- The cells of a check: the memories of the device, the pointers to regions, the
results, and the array on the host. -/
inductive CheckCell where
  | device (a : Nat × Nat)
  | pointers (j : Nat)
  | result (i : Nat)
  | firstChange (i : Nat)
deriving DecidableEq, Repr

@[reducible]
def CheckCell.Value : CheckCell → Type
  | .device _ => UInt8
  | .pointers _ | .result _ | .firstChange _ => Nat

abbrev CheckMemory := (c : CheckCell) → c.Value

/-- The memories of the device. -/
def CheckMemory.onDevice (m : CheckMemory) : DeviceMemory := fun a => m (.device a)

/-! ## What the commands do -/

/-- `clEnqueueCopyBuffer` from a buffer, or `clEnqueueSVMMemcpy` from an SVM region, to
copies that start at a place. -/
def copyRegion (copies : Nat × Nat) (o : CheckedObject) (c : RegionCopy) (m : CheckMemory) :
    CheckMemory
  | .device a =>
      if a.1 = copies.1 ∧ copies.2 + c.dst ≤ a.2 ∧ a.2 < copies.2 + c.dst + c.len then
        m (.device (o.store, o.base + (c.src + (a.2 - (copies.2 + c.dst)))))
      else m (.device a)
  | .pointers j => m (.pointers j)
  | .result i => m (.result i)
  | .firstChange i => m (.firstChange i)

/-- `clEnqueueFillBuffer` or `clEnqueueSVMMemFill` with the canary byte. -/
def mendRegion (o : CheckedObject) (r : Nat × Nat) (m : CheckMemory) : CheckMemory
  | .device a =>
      if a.1 = o.store ∧ o.base + r.1 ≤ a.2 ∧ a.2 < o.base + (r.1 + r.2) then POISON_FILL
      else m (.device a)
  | .pointers j => m (.pointers j)
  | .result i => m (.result i)
  | .firstChange i => m (.firstChange i)

/-- `clEnqueueWriteBuffer` of the pointers to the regions. -/
def writePointers (svms : List CheckedObject) (m : CheckMemory) : CheckMemory
  | .device a => m (.device a)
  | .pointers j =>
      if j < POISON_REGIONS * svms.length then (createSvmPtrCopies svms).getD j NULL
      else m (.pointers j)
  | .result i => m (.result i)
  | .firstChange i => m (.firstChange i)

/-- `clEnqueueFillBuffer` of the results. -/
def fillResult (numBuffers : Nat) (m : CheckMemory) : CheckMemory
  | .device a => m (.device a)
  | .pointers j => m (.pointers j)
  | .result i => if i < numBuffers then INT_MAX else m (.result i)
  | .firstChange i => m (.firstChange i)

/-- `clEnqueueReadBuffer` of the results. -/
def readResult (numBuffers : Nat) (m : CheckMemory) : CheckMemory
  | .device a => m (.device a)
  | .pointers j => m (.pointers j)
  | .result i => m (.result i)
  | .firstChange i => if i < numBuffers then m (.result i) else m (.firstChange i)

/-- The pointers are those to the regions. -/
def TableWritten (svms : List CheckedObject) (m : CheckMemory) : Prop :=
  ∀ j < POISON_REGIONS * svms.length, m (.pointers j) = (createSvmPtrCopies svms).getD j NULL

instance (svms : List CheckedObject) (m : CheckMemory) : Decidable (TableWritten svms m) :=
  inferInstanceAs (Decidable (∀ j < _, _))

/-- The memory after a kernel. -/
def CheckMemory.launched (m : CheckMemory) (first : Nat → Nat) (device : DeviceMemory) :
    CheckMemory
  | .device a => device a
  | .pointers j => m (.pointers j)
  | .result i => first i
  | .firstChange i => m (.firstChange i)

/-- The kernel of the check.  Pointers that were not written point nowhere; the kernel
fails on them, and where an item fails. -/
def checkKernel (copySvmPtrs : Bool) (size : Nat) (s : Schedule Nat Nat) (inp : CheckInput)
    (svmCopies : Nat) (m : CheckMemory) : CheckMemory :=
  if copySvmPtrs = true ∧ ¬ TableWritten inp.svms m then m
  else
    match launchFrom (copyGrid copySvmPtrs size inp) s INT_MAX (fun i => m (.result i))
        (copyItem copySvmPtrs inp ⟨8192 * inp.buffers.length, fun a => m (.device (SCRATCH, a))⟩
          ⟨8192 * inp.svms.length, fun a => m (.device (SHARED, svmCopies + a))⟩)
        m.onDevice with
    | none => m
    | some after => m.launched after.1 after.2

/-! ## The commands -/

/-- A check of a kernel while commands are pending.  The kernel's event is that of a
pending command. -/
structure CopyCheck where
  inp : CheckInput
  copySvmPtrs : Bool
  /-- The SVM region with the copies of SVM canaries. -/
  svmCopies : Nat
  /-- `CL_KERNEL_WORK_GROUP_SIZE` of the kernel that compares. -/
  size : Nat
  schedule : Schedule Nat Nat
  queue : Nat
  /-- `getCommandQueueForContext` of the context of an object. -/
  fillQueue : Nat → Nat
  inOrder : Nat → Bool
  /-- `get_error_envvar`: canaries are not repaired. -/
  errorEnv : Bool
  /-- `STATS_CHECKER_TIME` is set. -/
  checkerTime : Bool
  /-- `is_nvidia_platform`: the host waits for the results. -/
  nvidia : Bool
  pending : List (Command CheckTag CheckMemory)
  evt : CheckTag
  isPending : ∀ c ∈ pending, ∃ n, c.tag = .pending n
  distinct : (pending.map Command.tag).Nodup
  orderly : Orderly pending
  launched : evt ∈ pending.map Command.tag
  fresh : ∀ o ∈ inp.objects, ∀ a < 8192 * inp.svms.length,
    ¬ o.Allocates (SHARED, svmCopies + a)

namespace CopyCheck

variable (C : CopyCheck)

/-- A command on an object of the check. -/
def onObject (index : Nat) (f : CheckedObject → CheckMemory → CheckMemory) (m : CheckMemory) :
    CheckMemory :=
  (C.inp.objects[index]?).elim m fun o => f o m

/-- A fill of `mendCanaryRegion`. -/
def mendCommand (index region : Nat) : Command CheckTag CheckMemory :=
  ⟨.mend index region, C.fillQueue index, [.copyFinish index],
    C.onObject index fun o => mendRegion o ((mendRegions o.size).getD region (0, 0))⟩

/-- `mend_this_canary`: a marker after the fills of `mendCanaryRegion`, or a complete
user event. -/
def mendThisCanary (index : Nat) : List (Command CheckTag CheckMemory) :=
  if C.errorEnv then []
  else
    [C.mendCommand index 0, C.mendCommand index 1,
      ⟨.mendFinish index, C.fillQueue index, [.mend index 0, .mend index 1], id⟩]

/-- A copy of the `i`-th object of its kind. -/
def copyCommand (copies : Nat × Nat) (index i region : Nat) : Command CheckTag CheckMemory :=
  ⟨.copy index region, C.queue, [C.evt], C.onObject index fun o =>
    copyRegion copies o ((copyClMemRegions i { size := o.size }).getD region ⟨0, 0, 0⟩)⟩

/-- A turn of the loops of `create_clmem_copies` and of `create_svm_copies`. -/
def copyObject (copies : Nat × Nat) (index i : Nat) : List (Command CheckTag CheckMemory) :=
  [C.copyCommand copies index i 0, C.copyCommand copies index i 1,
    ⟨.copyFinish index, C.queue, [.copy index 0, .copy index 1], id⟩] ++ C.mendThisCanary index

/-- The number of buffers, and that of objects. -/
def numClMem : Nat := C.inp.buffers.length

def totalBuffs : Nat := C.inp.objects.length

/-- `create_clmem_copies`. -/
def createClmemCopies : List (Command CheckTag CheckMemory) :=
  (List.range C.numClMem).flatMap fun i => C.copyObject (SCRATCH, 0) i i

/-- `create_svm_copies` and `create_svm_ptr_copies`. -/
def createSvmCopies : List (Command CheckTag CheckMemory) :=
  if C.copySvmPtrs then
    if C.inp.svms = [] then []
    else [⟨.pointers, C.queue, [C.evt], writePointers C.inp.svms⟩]
  else
    (List.range C.inp.svms.length).flatMap fun i =>
      C.copyObject (SHARED, C.svmCopies) (C.numClMem + i) i

/-- The objects whose canaries are copied. -/
def copied : Nat := if C.copySvmPtrs then C.numClMem else C.totalBuffs

/-- `events`: what the kernel waits for, without complete user events. -/
def initEvts : List CheckTag :=
  ((List.range C.copied).flatMap fun i => [.copy i 0, .copy i 1]) ++
    (if C.copySvmPtrs = true ∧ C.inp.svms ≠ [] then [.pointers] else []) ++ [.fill]

/-- `mend_events`, without complete user events. -/
def mendEvents : List CheckTag :=
  if C.errorEnv then [] else (List.range C.copied).map .mendFinish

/-- The kernel that compares. -/
def checkCommand : Command CheckTag CheckMemory :=
  ⟨.check, C.queue, C.initEvts, checkKernel C.copySvmPtrs C.size C.schedule C.inp C.svmCopies⟩

/-- `create_result_buffer`. -/
def fillCommand : Command CheckTag CheckMemory :=
  ⟨.fill, C.queue, [], fillResult C.totalBuffs⟩

/-- The markers of `perform_cl_buffer_checks`. -/
def markers : List (Command CheckTag CheckMemory) :=
  if C.errorEnv then []
  else
    [⟨.mendMarker, C.queue, C.mendEvents, id⟩,
      ⟨.finish, C.queue, [.mendMarker, .check], id⟩]

/-- `get_change_buffer`, which waits for the event of `perform_cl_buffer_checks`. -/
def readCommand : Command CheckTag CheckMemory :=
  ⟨.read, C.queue, [if C.errorEnv then .check else .finish], readResult C.totalBuffs⟩

/-- The commands up to the kernel that compares, and those after it. -/
def copies : List (Command CheckTag CheckMemory) :=
  C.createClmemCopies ++ C.createSvmCopies ++ [C.fillCommand, C.checkCommand]

def results : List (Command CheckTag CheckMemory) :=
  C.markers ++ [C.readCommand]

/-- `verify_cl_buffer_copy` with `analyze_check_results`. -/
def verifyOps : List (HostOp CheckTag CheckMemory) :=
  if C.totalBuffs = 0 then []
  else
    C.copies.map .enqueue ++ (if C.checkerTime then [.finish C.queue] else []) ++
      C.results.map .enqueue ++ (if C.nvidia then [.waitFor [.read]] else [])

/-- The commands of the check. -/
def commands : List (Command CheckTag CheckMemory) := C.copies ++ C.results

/-- Few objects with two regions apart, pointers to whole words, and pending commands
that do not know the memory of the check; those that the kernel does not wait for leave
canaries alone. -/
structure Undisturbed : Prop where
  few : Few C.inp
  divides : C.size ∣ 2048
  between : ∀ o ∈ C.inp.objects, POISON_FILL_LENGTH ≤ canaryOffset o.size
  words : C.copySvmPtrs = true → ∀ o ∈ C.inp.svms, o.base % 4 = 0 ∧ o.size % 4 = 0
  unaware : ∀ c ∈ C.pending, ∀ m, (∀ a, a.1 = SCRATCH ∨
      (∃ x < 8192 * C.inp.svms.length, a = (SHARED, C.svmCopies + x)) →
        c.body m (.device a) = m (.device a)) ∧
    ∀ i, c.body m (.pointers i) = m (.pointers i) ∧ c.body m (.result i) = m (.result i) ∧
      c.body m (.firstChange i) = m (.firstChange i)
  alone : ∀ c ∈ C.pending, c.tag ≠ C.evt →
    ¬ Relation.TransGen (Needs C.inOrder C.pending) C.evt c.tag →
      ∀ m, ∀ o ∈ C.inp.objects, ∀ k < POISON_REGIONS * POISON_FILL_LENGTH,
        c.body m (.device (o.cell k)) = m (.device (o.cell k))

/-! ## What the commands read and write -/

/-- The place of a byte of the copies. -/
def copyCell (index k : Nat) : Nat × Nat :=
  if index < C.numClMem then (SCRATCH, 8192 * index + k)
  else (SHARED, C.svmCopies + (8192 * (index - C.numClMem) + k))

/-- The cells of a region of an object. -/
def canaryCells (index region : Nat) : Set CheckCell :=
  {c | ∃ o, C.inp.objects[index]? = some o ∧ ∃ k, k / 4096 = region ∧ c = .device (o.cell k)}

/-- The cells of the copy of a region. -/
def copyCells (index region : Nat) : Set CheckCell :=
  {c | ∃ k, k / 4096 = region ∧ c = .device (C.copyCell index k)}

/-- The byte that the kernel looks at for a byte of an image. -/
def examinedCell (index k : Nat) : Nat × Nat :=
  if index < C.copied then C.copyCell index k
  else ((C.inp.objects[index]?).map fun o => o.cell k).getD (SCRATCH, 0)

/-- All bytes that the kernel looks at. -/
def examinedCells : Set CheckCell :=
  {c | ∃ index < C.totalBuffs, ∃ k < 8192, c = .device (C.examinedCell index k)}

def reads : CheckTag → Set CheckCell
  | .copy index region => C.canaryCells index region
  | .check => C.examinedCells ∪ {c | ∃ i, c = .result i} ∪ {c | ∃ j, c = .pointers j}
  | .read => {c | ∃ i < C.totalBuffs, c = .result i}
  | _ => ∅

def writes : CheckTag → Set CheckCell
  | .copy index region => C.copyCells index region
  | .mend index region => C.canaryCells index (1 - region)
  | .pointers => {c | ∃ j < POISON_REGIONS * C.inp.svms.length, c = .pointers j}
  | .fill => {c | ∃ i < C.totalBuffs, c = .result i}
  | .check => {c | ∃ i, c = .result i} ∪
      {c | C.copySvmPtrs = true ∧ C.inp.svms ≠ [] ∧ c ∈ C.examinedCells}
  | .read => {c | ∃ i < C.totalBuffs, c = .firstChange i}
  | _ => ∅

/-- What the check looks at: its own memory and the canaries. -/
def cells : Set CheckCell := fun
  | .device a => a.1 = SCRATCH ∨ (∃ x < 8192 * C.inp.svms.length, a = (SHARED, C.svmCopies + x)) ∨
      ∃ o ∈ C.inp.objects, ∃ k < POISON_REGIONS * POISON_FILL_LENGTH, a = o.cell k
  | _ => True

/-! ## The commands one by one -/

/-- The copy of a region of an object, of either kind. -/
def copyOf (index region : Nat) : Command CheckTag CheckMemory :=
  if index < C.numClMem then C.copyCommand (SCRATCH, 0) index index region
  else C.copyCommand (SHARED, C.svmCopies) index (index - C.numClMem) region

/-- The commands, by their names. -/
inductive Issued : Command CheckTag CheckMemory → Prop
  | copy {index region : Nat} : index < C.copied → region < 2 → Issued (C.copyOf index region)
  | copyFinish {index : Nat} : index < C.copied →
      Issued ⟨.copyFinish index, C.queue, [.copy index 0, .copy index 1], id⟩
  | mend {index region : Nat} : C.errorEnv = false → index < C.copied → region < 2 →
      Issued (C.mendCommand index region)
  | mendFinish {index : Nat} : C.errorEnv = false → index < C.copied →
      Issued ⟨.mendFinish index, C.fillQueue index, [.mend index 0, .mend index 1], id⟩
  | pointers : C.copySvmPtrs = true → C.inp.svms ≠ [] →
      Issued ⟨.pointers, C.queue, [C.evt], writePointers C.inp.svms⟩
  | fill : Issued C.fillCommand
  | check : Issued C.checkCommand
  | mendMarker : C.errorEnv = false → Issued ⟨.mendMarker, C.queue, C.mendEvents, id⟩
  | finish : C.errorEnv = false → Issued ⟨.finish, C.queue, [.mendMarker, .check], id⟩
  | read : Issued C.readCommand

variable {C}

theorem totalBuffs_eq : C.totalBuffs = C.numClMem + C.inp.svms.length :=
  C.inp.length_objects

theorem enqueues_verifyOps (any : C.totalBuffs ≠ 0) : enqueues C.verifyOps = C.commands := by
  rw [verifyOps, if_neg any, commands]
  split_ifs <;> simp

theorem mem_copyObject_iff {copies : Nat × Nat} {index i : Nat}
    {c : Command CheckTag CheckMemory} : c ∈ C.copyObject copies index i ↔
      (∃ region < 2, c = C.copyCommand copies index i region) ∨
        c = ⟨.copyFinish index, C.queue, [.copy index 0, .copy index 1], id⟩ ∨
        C.errorEnv = false ∧ ((∃ region < 2, c = C.mendCommand index region) ∨
          c = ⟨.mendFinish index, C.fillQueue index, [.mend index 0, .mend index 1], id⟩) := by
  have two : ∀ f : Nat → Command CheckTag CheckMemory,
      (∃ region < 2, c = f region) ↔ c = f 0 ∨ c = f 1 := by
    intro f
    constructor
    · rintro ⟨region, regionLt, rfl⟩
      interval_cases region
      · exact Or.inl rfl
      · exact Or.inr rfl
    · rintro (same | same)
      · exact ⟨0, by decide, same⟩
      · exact ⟨1, by decide, same⟩
  rw [copyObject, mendThisCanary, two, two]
  cases C.errorEnv <;> simp [or_assoc]

theorem numClMem_le_copied : C.numClMem ≤ C.copied := by
  rw [copied]
  split_ifs
  · exact le_refl _
  · rw [totalBuffs_eq]
    exact Nat.le_add_right _ _

theorem copied_le_totalBuffs : C.copied ≤ C.totalBuffs := by
  rw [copied]
  split_ifs
  · rw [totalBuffs_eq]
    exact Nat.le_add_right _ _
  · exact le_refl _

theorem copyOf_buffer {i region : Nat} (iLt : i < C.numClMem) :
    C.copyOf i region = C.copyCommand (SCRATCH, 0) i i region :=
  if_pos iLt

theorem copyOf_svm {i region : Nat} : C.copyOf (C.numClMem + i) region =
    C.copyCommand (SHARED, C.svmCopies) (C.numClMem + i) i region := by
  rw [copyOf, if_neg (Nat.not_lt.mpr (Nat.le_add_right _ _)), Nat.add_sub_cancel_left]

/-- What is issued for an object. -/
theorem issued_of_copyObject {copies : Nat × Nat} {index i : Nat}
    {c : Command CheckTag CheckMemory} (indexLt : index < C.copied)
    (isCopy : ∀ region, C.copyOf index region = C.copyCommand copies index i region)
    (mem : c ∈ C.copyObject copies index i) : C.Issued c := by
  rcases mem_copyObject_iff.mp mem with ⟨region, regionLt, rfl⟩ | rfl |
    ⟨mends, ⟨region, regionLt, rfl⟩ | rfl⟩
  · rw [← isCopy]
    exact .copy indexLt regionLt
  · exact .copyFinish indexLt
  · exact .mend mends indexLt regionLt
  · exact .mendFinish mends indexLt

/-- The commands of a copied object are among those of the check. -/
theorem exists_copyObject {index : Nat} (indexLt : index < C.copied) :
    ∃ copies i, (∀ region, C.copyOf index region = C.copyCommand copies index i region) ∧
      ∀ c ∈ C.copyObject copies index i, c ∈ C.commands := by
  rcases lt_or_ge index C.numClMem with isBuffer | isSvm
  · refine ⟨(SCRATCH, 0), index, fun region => copyOf_buffer isBuffer, fun c mem => ?_⟩
    rw [commands, copies, createClmemCopies]
    simp only [List.mem_append, List.mem_flatMap, List.mem_range]
    exact Or.inl (Or.inl (Or.inl ⟨index, isBuffer, mem⟩))
  · obtain ⟨i, rfl⟩ := Nat.exists_eq_add_of_le isSvm
    have native : C.copySvmPtrs = false := by
      by_contra pointers
      rw [Bool.not_eq_false] at pointers
      rw [copied, if_pos pointers] at indexLt
      omega
    rw [copied, native, totalBuffs_eq, if_neg Bool.false_ne_true] at indexLt
    refine ⟨(SHARED, C.svmCopies), i, fun region => copyOf_svm, fun c mem => ?_⟩
    rw [commands, copies, createSvmCopies, native, if_neg Bool.false_ne_true]
    simp only [List.mem_append, List.mem_flatMap, List.mem_range]
    exact Or.inl (Or.inl (Or.inr ⟨i, by omega, mem⟩))

theorem mem_commands_iff {c : Command CheckTag CheckMemory} : c ∈ C.commands ↔ C.Issued c := by
  constructor
  · intro mem
    rw [commands, copies, results] at mem
    rcases List.mem_append.mp mem with mem | mem
    · rcases List.mem_append.mp mem with mem | mem
      · rcases List.mem_append.mp mem with mem | mem
        · obtain ⟨i, iMem, mem⟩ := List.mem_flatMap.mp mem
          have iLt := List.mem_range.mp iMem
          exact issued_of_copyObject (iLt.trans_le numClMem_le_copied)
            (fun region => copyOf_buffer iLt) mem
        · rw [createSvmCopies] at mem
          split_ifs at mem with pointers none
          · exact absurd mem List.not_mem_nil
          · rw [List.mem_singleton.mp mem]
            exact .pointers pointers none
          · obtain ⟨i, iMem, mem⟩ := List.mem_flatMap.mp mem
            have iLt := List.mem_range.mp iMem
            refine issued_of_copyObject ?_ (fun region => copyOf_svm) mem
            rw [copied, if_neg pointers, totalBuffs_eq]
            omega
      · rcases List.mem_cons.mp mem with rfl | mem
        · exact .fill
        · rw [List.mem_singleton.mp mem]
          exact .check
    · rcases List.mem_append.mp mem with mem | mem
      · rw [markers] at mem
        split_ifs at mem with kept
        · exact absurd mem List.not_mem_nil
        · rw [Bool.not_eq_true] at kept
          rcases List.mem_cons.mp mem with rfl | mem
          · exact .mendMarker kept
          · rw [List.mem_singleton.mp mem]
            exact .finish kept
      · rw [List.mem_singleton.mp mem]
        exact .read
  · intro issued
    have marked : ∀ {d}, C.errorEnv = false → d ∈ ([⟨.mendMarker, C.queue, C.mendEvents, id⟩,
        ⟨.finish, C.queue, [.mendMarker, .check], id⟩] : List (Command CheckTag CheckMemory)) →
        d ∈ C.commands := by
      intro d mends mem
      rw [commands, results, markers, mends, if_neg Bool.false_ne_true]
      exact List.mem_append_right _ (List.mem_append_left _ mem)
    cases issued with
    | @copy index region indexLt regionLt =>
        obtain ⟨copies, i, isCopy, inside⟩ := exists_copyObject indexLt
        exact inside _ (mem_copyObject_iff.mpr (Or.inl ⟨region, regionLt, isCopy region⟩))
    | copyFinish indexLt =>
        obtain ⟨copies, i, -, inside⟩ := exists_copyObject indexLt
        exact inside _ (mem_copyObject_iff.mpr (Or.inr (Or.inl rfl)))
    | @mend index region mends indexLt regionLt =>
        obtain ⟨copies, i, -, inside⟩ := exists_copyObject indexLt
        exact inside _ (mem_copyObject_iff.mpr
          (Or.inr (Or.inr ⟨mends, Or.inl ⟨region, regionLt, rfl⟩⟩)))
    | mendFinish mends indexLt =>
        obtain ⟨copies, i, -, inside⟩ := exists_copyObject indexLt
        exact inside _ (mem_copyObject_iff.mpr (Or.inr (Or.inr ⟨mends, Or.inr rfl⟩)))
    | pointers pointers some =>
        rw [commands, copies, createSvmCopies, if_pos pointers, if_neg some]
        simp
    | fill =>
        rw [commands, copies]
        simp
    | check =>
        rw [commands, copies]
        simp
    | mendMarker mends => exact marked mends List.mem_cons_self
    | finish mends => exact marked mends (List.mem_cons_of_mem _ (List.mem_singleton_self _))
    | read =>
        rw [commands, results]
        simp

/-! ## The script of a check -/

/-- The names of the commands of a copied object. -/
def objectTags (C : CopyCheck) (index : Nat) : List CheckTag :=
  [.copy index 0, .copy index 1, .copyFinish index] ++
    if C.errorEnv then [] else [.mend index 0, .mend index 1, .mendFinish index]

theorem map_tag_copyObject {copies : Nat × Nat} {index i : Nat} :
    (C.copyObject copies index i).map Command.tag = C.objectTags index := by
  rw [copyObject, mendThisCanary, objectTags]
  cases C.errorEnv <;> rfl

theorem map_tag_objects : (C.createClmemCopies ++ C.createSvmCopies).map Command.tag =
    (List.range C.copied).flatMap C.objectTags ++
      if C.copySvmPtrs = true ∧ C.inp.svms ≠ [] then [.pointers] else [] := by
  rw [List.map_append, createClmemCopies, createSvmCopies, List.map_flatMap, copied]
  simp only [map_tag_copyObject]
  cases pointers : C.copySvmPtrs with
  | true =>
      by_cases none : C.inp.svms = []
      · simp [none]
      · simp [none]
  | false =>
      simp only [Bool.false_eq_true, if_false, false_and, List.append_nil, List.map_flatMap,
        map_tag_copyObject]
      rw [totalBuffs_eq, List.range_add, List.flatMap_append, List.flatMap_map]

theorem map_tag_commands : C.commands.map Command.tag =
    (List.range C.copied).flatMap C.objectTags ++
      ((if C.copySvmPtrs = true ∧ C.inp.svms ≠ [] then [.pointers] else []) ++ [.fill, .check] ++
        (if C.errorEnv then [] else [.mendMarker, .finish]) ++ [.read]) := by
  rw [commands, copies, results, List.map_append, List.map_append, map_tag_objects, markers]
  cases C.errorEnv <;> simp [fillCommand, checkCommand, readCommand]

theorem nodup_objectTags : ((List.range C.copied).flatMap C.objectTags).Nodup := by
  rw [List.nodup_flatMap]
  constructor
  · intro index _
    rw [objectTags]
    cases C.errorEnv <;> simp
  · refine List.nodup_range.imp fun {i j} differ => ?_
    intro t mem mem'
    rw [objectTags] at mem mem'
    cases C.errorEnv <;> simp at mem mem' <;> aesop

theorem not_pending_of_issued {c : Command CheckTag CheckMemory} (issued : C.Issued c) (n : Nat) :
    c.tag ≠ .pending n := by
  cases issued with
  | @copy index region _ _ =>
      rw [copyOf]
      split_ifs <;> exact CheckTag.noConfusion
  | _ => exact CheckTag.noConfusion

theorem distinct_commands : (C.commands.map Command.tag).Nodup := by
  rw [map_tag_commands]
  apply List.Nodup.append nodup_objectTags
  · split_ifs <;> decide
  · intro t mem mem'
    obtain ⟨index, -, mem⟩ := List.mem_flatMap.mp mem
    rw [objectTags] at mem
    split_ifs at mem mem' <;> simp at mem mem' <;> aesop

theorem distinct_script : ((C.pending ++ enqueues C.verifyOps).map Command.tag).Nodup := by
  by_cases any : C.totalBuffs = 0
  · rw [verifyOps, if_pos any]
    simpa using C.distinct
  · rw [enqueues_verifyOps any, List.map_append]
    apply List.Nodup.append C.distinct distinct_commands
    intro t mem mem'
    obtain ⟨c, cMem, rfl⟩ := List.mem_map.mp mem
    obtain ⟨d, dMem, same⟩ := List.mem_map.mp mem'
    obtain ⟨n, pending⟩ := C.isPending c cMem
    exact not_pending_of_issued (mem_commands_iff.mp dMem) n (same.trans pending)

theorem copyObject_waits {copies : Nat × Nat} {index i : Nat} :
    WaitsBehind {t | t ∈ C.pending.map Command.tag} (C.copyObject copies index i) := by
  have launched := List.mem_map.mp C.launched
  rw [copyObject, mendThisCanary]
  split_ifs <;> simp [WaitsBehind, copyCommand, mendCommand, launched]

theorem mem_objectTags_copy {index region : Nat} (regionLt : region < 2) :
    .copy index region ∈ C.objectTags index := by
  interval_cases region <;> simp [objectTags]

/-- Every command waits for commands that were enqueued before it. -/
theorem commands_wait : WaitsBehind {t | t ∈ C.pending.map Command.tag} C.commands := by
  have launched := List.mem_map.mp C.launched
  have objects : WaitsBehind {t | t ∈ C.pending.map Command.tag}
      (C.createClmemCopies ++ C.createSvmCopies) := by
    refine waitsBehind_append (waitsBehind_flatMap fun i _ => copyObject_waits) ?_
    refine WaitsBehind.mono ?_ Set.subset_union_left
    rw [createSvmCopies]
    split_ifs
    · trivial
    · simp [WaitsBehind, launched]
    · exact waitsBehind_flatMap fun i _ => copyObject_waits
  rw [commands, copies, results, List.append_assoc]
  refine waitsBehind_append objects ?_
  rw [map_tag_objects]
  have copied : ∀ index < C.copied, ∀ t ∈ C.objectTags index,
      t ∈ (List.range C.copied).flatMap C.objectTags := fun index indexLt t mem =>
    List.mem_flatMap.mpr ⟨index, List.mem_range.mpr indexLt, mem⟩
  have waits : ∀ t ∈ C.initEvts, t = .fill ∨ t ∈ (List.range C.copied).flatMap C.objectTags ++
      if C.copySvmPtrs = true ∧ C.inp.svms ≠ [] then [.pointers] else [] := by
    intro t mem
    rw [initEvts, List.mem_append, List.mem_append] at mem
    rcases mem with (mem | mem) | mem
    · obtain ⟨index, indexMem, mem⟩ := List.mem_flatMap.mp mem
      refine Or.inr (List.mem_append_left _ (copied index (List.mem_range.mp indexMem) t ?_))
      rcases List.mem_cons.mp mem with rfl | mem
      · exact mem_objectTags_copy (by decide)
      · rw [List.mem_singleton.mp mem]
        exact mem_objectTags_copy (by decide)
    · exact Or.inr (List.mem_append_right _ mem)
    · exact Or.inl (List.mem_singleton.mp mem)
  have mends : ∀ t ∈ C.mendEvents, t ∈ (List.range C.copied).flatMap C.objectTags := by
    intro t mem
    rw [mendEvents] at mem
    split_ifs at mem with kept
    · exact absurd mem List.not_mem_nil
    · obtain ⟨index, indexMem, rfl⟩ := List.mem_map.mp mem
      refine copied index (List.mem_range.mp indexMem) _ ?_
      simp [objectTags, kept]
  refine ⟨fun t wait => absurd wait List.not_mem_nil, fun t wait => ?_, ?_⟩
  · rcases waits t wait with rfl | mem
    · exact Or.inl rfl
    · exact Or.inr (Or.inr mem)
  · rw [markers]
    cases kept : C.errorEnv with
    | true =>
        refine ⟨fun t wait => ?_, trivial⟩
        rw [readCommand, kept, if_pos rfl] at wait
        exact Or.inl (List.mem_singleton.mp wait)
    | false =>
        refine ⟨fun t wait => Or.inr (Or.inr (Or.inr (List.mem_append_left _ (mends t wait)))), ?_,
          fun t wait => ?_, trivial⟩
        · simp [checkCommand]
        · rw [readCommand, kept, if_neg Bool.false_ne_true] at wait
          exact Or.inl (List.mem_singleton.mp wait)

theorem orderly_script : Orderly (C.pending ++ enqueues C.verifyOps) := by
  by_cases any : C.totalBuffs = 0
  · rw [verifyOps, if_pos any]
    simpa using C.orderly
  · have distinct := @distinct_script C
    rw [enqueues_verifyOps any] at distinct ⊢
    exact orderly_append C.orderly commands_wait distinct

/-- The host waits for the results only, and after it has enqueued their read. -/
theorem supplied_verifyOps : Supplied C.pending C.verifyOps := by
  intro l tags l' split t tMem
  by_cases any : C.totalBuffs = 0
  · rw [verifyOps, if_pos any] at split
    simp at split
  · rw [verifyOps, if_neg any] at split
    have noWait : ∀ ts, HostOp.waitFor ts ∉ C.copies.map .enqueue ++
        (if C.checkerTime then [.finish C.queue] else []) ++ C.results.map .enqueue := by
      intro ts
      split_ifs <;> simp
    cases waits : C.nvidia with
    | false =>
        rw [waits, if_neg Bool.false_ne_true, List.append_nil] at split
        exact absurd (by rw [split]; simp) (noWait tags)
    | true =>
        rw [waits, if_pos rfl] at split
        rcases consumed_snoc split with ⟨same, rfl, -⟩ | ⟨l'', before⟩
        · obtain rfl := HostOp.waitFor.inj same
          rw [List.mem_singleton.mp tMem]
          refine List.mem_map.mpr ⟨C.readCommand, List.mem_append_right _ ?_, rfl⟩
          rw [enqueues_append, enqueues_map, results]
          simp
        · exact absurd (by rw [before]; simp) (noWait tags)

end CopyCheck

end Clarmor
