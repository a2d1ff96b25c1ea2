import Clarmor.Check.CopyProtocol

/-!
# The commands of the check of single buffers

Every region of every object is compared by a launch of its own, where it lies, and
the kernel repairs what it finds changed.  A callback puts the results of the two
regions of an object together.  Buffers and SVM regions are checked one after the
other on the same queue, and a marker joins the two.
-/

namespace Clarmor

open Word Store Reduce Items Queues

/-- Names for the commands of a check and for those that were enqueued before. -/
inductive PartsTag where
  | pending (n : Nat)
  | fill (isSvm : Bool)
  | parts (c : Bool × Nat)
  | read (isSvm : Bool)
  | format (isSvm : Bool)
  | finish
deriving DecidableEq, Repr

/-- The cells of a check: the memories of the device, and the results there and on
the host. -/
inductive PartsCell where
  | device (a : Nat × Nat)
  | result (c : Bool × Nat)
  | firstChange (c : Bool × Nat)
deriving DecidableEq, Repr

@[reducible]
def PartsCell.Value : PartsCell → Type
  | .device _ => UInt8
  | .result _ | .firstChange _ => Nat

abbrev PartsMemory := (c : PartsCell) → c.Value

/-- The memories of the device. -/
def PartsMemory.onDevice (m : PartsMemory) : DeviceMemory := fun a => m (.device a)

/-! ## What the commands do -/

/-- `clEnqueueFillBuffer` of the results. -/
def fillParts (isSvm : Bool) (numBuffers : Nat) (m : PartsMemory) : PartsMemory
  | .device a => m (.device a)
  | .result c => if c.1 = isSvm ∧ c.2 < numBuffers then INT_MAX else m (.result c)
  | .firstChange c => m (.firstChange c)

/-- `clEnqueueReadBuffer` of the results. -/
def readParts (isSvm : Bool) (numBuffers : Nat) (m : PartsMemory) : PartsMemory
  | .device a => m (.device a)
  | .result c => m (.result c)
  | .firstChange c =>
      if c.1 = isSvm ∧ c.2 < numBuffers then m (.result c) else m (.firstChange c)

/-- `format_result_buff` on the array of a kind of object. -/
def formatParts (isSvm : Bool) (numBuff : Nat) (m : PartsMemory) : PartsMemory
  | .device a => m (.device a)
  | .result c => m (.result c)
  | .firstChange c =>
      if c.1 = isSvm then formatResultBuff numBuff (fun i => m (.firstChange (isSvm, i))) c.2
      else m (.firstChange c)

/-- The memory after a launch. -/
def PartsMemory.launched (m : PartsMemory) (first : Bool × Nat → Nat) (device : DeviceMemory) :
    PartsMemory
  | .device a => device a
  | .result c => first c
  | .firstChange c => m (.firstChange c)

/-- A launch of `locateDiffParts`. -/
def partsKernel (size : Nat) (s : Schedule (Bool × Nat) Nat) (l : PartsLaunch) (m : PartsMemory) :
    PartsMemory :=
  match launchFrom (partsGrid size [l]) s INT_MAX (fun c => m (.result c)) (partsItem [l])
      m.onDevice with
  | none => m
  | some after => m.launched after.1 after.2

/-! ## The commands -/

/-- A check of a kernel while commands are pending.  The kernel's event is that of a
pending command. -/
structure PartsCheck where
  inp : CheckInput
  /-- `CL_KERNEL_WORK_GROUP_SIZE` of the kernel that compares. -/
  size : Nat
  schedule : Bool × Nat → Schedule (Bool × Nat) Nat
  queue : Nat
  /-- Where callbacks run. -/
  callbacks : Nat
  inOrder : Nat → Bool
  /-- `STATS_CHECKER_TIME` is set. -/
  checkerTime : Bool
  /-- `is_nvidia_platform`: the host waits for the results and formats them itself. -/
  nvidia : Bool
  pending : List (Command PartsTag PartsMemory)
  evt : PartsTag
  isPending : ∀ c ∈ pending, ∃ n, c.tag = .pending n
  distinct : (pending.map Command.tag).Nodup
  orderly : Orderly pending
  launched : evt ∈ pending.map Command.tag

namespace PartsCheck

variable (C : PartsCheck)

/-- The objects of a kind. -/
def objects (isSvm : Bool) : List CheckedObject := if isSvm then C.inp.svms else C.inp.buffers

def numBuff (isSvm : Bool) : Nat := (C.objects isSvm).length

/-- `create_result_buffer`. -/
def fillCommand (isSvm : Bool) : Command PartsTag PartsMemory :=
  ⟨.fill isSvm, C.queue, [], fillParts isSvm (POISON_REGIONS * C.numBuff isSvm)⟩

/-- The launch for a region. -/
def partsCommand (isSvm : Bool) (index : Nat) : Command PartsTag PartsMemory :=
  ⟨.parts (isSvm, index), C.queue, [.fill isSvm, C.evt], fun m =>
    ((partsLaunches isSvm (C.objects isSvm))[index]?).elim m fun l =>
      partsKernel C.size (C.schedule (isSvm, index)) l m⟩

/-- The launches of `perform_cl_buffer_checks`. -/
def performClBufferChecks (isSvm : Bool) : List (Command PartsTag PartsMemory) :=
  (List.range (POISON_REGIONS * C.numBuff isSvm)).map (C.partsCommand isSvm)

/-- `check_events`. -/
def checkEvents (isSvm : Bool) : List PartsTag :=
  (C.performClBufferChecks isSvm).map Command.tag

/-- `get_change_buffer`. -/
def readCommand (isSvm : Bool) : Command PartsTag PartsMemory :=
  ⟨.read isSvm, C.queue, C.checkEvents isSvm, readParts isSvm (POISON_REGIONS * C.numBuff isSvm)⟩

/-- The callback `format_result_buff`, which completes a user event. -/
def formatCommand (isSvm : Bool) : Command PartsTag PartsMemory :=
  ⟨.format isSvm, C.callbacks, [.read isSvm], formatParts isSvm (C.numBuff isSvm)⟩

/-- `verify_cl_buffer_single` with `analyze_check_results`. -/
def verifyOps (isSvm : Bool) : List (HostOp PartsTag PartsMemory) :=
  if C.numBuff isSvm = 0 then []
  else
    .enqueue (C.fillCommand isSvm) ::
      ((C.performClBufferChecks isSvm).flatMap fun c =>
        .enqueue c :: if C.checkerTime then [.finish C.queue] else []) ++
      .enqueue (C.readCommand isSvm) :: (if C.nvidia then [.waitFor [.read isSvm]] else []) ++
      .enqueue (C.formatCommand isSvm) :: if C.nvidia then [.waitFor [.format isSvm]] else []

/-- The marker of `verify_on_gpu_single_buffer`, without complete user events. -/
def finishCommand : Command PartsTag PartsMemory :=
  ⟨.finish, C.queue, ([false, true].filter fun isSvm => C.numBuff isSvm ≠ 0).map .read, id⟩

/-- `verify_on_gpu_single_buffer`, without images. -/
def verifyOnGpu : List (HostOp PartsTag PartsMemory) :=
  C.verifyOps false ++ C.verifyOps true ++ [.enqueue C.finishCommand]

/-- The commands for a kind of object. -/
def commands (isSvm : Bool) : List (Command PartsTag PartsMemory) :=
  if C.numBuff isSvm = 0 then []
  else
    C.fillCommand isSvm :: (C.performClBufferChecks isSvm ++
      [C.readCommand isSvm, C.formatCommand isSvm])

/-- The script of a check with its pending commands. -/
abbrev script : List (Command PartsTag PartsMemory) := C.pending ++ enqueues C.verifyOnGpu

/-- Few objects with two regions apart, which start at whole words, and pending commands
that do not know the results; those that the kernel does not wait for leave canaries
alone. -/
structure Undisturbed : Prop where
  few : Few C.inp
  divides : C.size ∣ 1024
  between : ∀ o ∈ C.inp.objects, POISON_FILL_LENGTH ≤ canaryOffset o.size
  words : ∀ o ∈ C.inp.svms, o.base % 4 = 0
  unaware : ∀ c ∈ C.pending, ∀ m i, c.body m (.result i) = m (.result i) ∧
    c.body m (.firstChange i) = m (.firstChange i)
  alone : ∀ c ∈ C.pending, c.tag ≠ C.evt →
    ¬ Relation.TransGen (Needs C.inOrder C.pending) C.evt c.tag →
      ∀ m, ∀ o ∈ C.inp.objects, ∀ k < POISON_REGIONS * POISON_FILL_LENGTH,
        c.body m (.device (o.cell k)) = m (.device (o.cell k))

/-! ## What the commands read and write -/

/-- The cells of a region. -/
def canaryCells (isSvm : Bool) (index : Nat) : Set PartsCell :=
  {c | ∃ o, (C.objects isSvm)[index / 2]? = some o ∧
    ∃ k, k / 4096 = index % 2 ∧ c = .device (o.cell k)}

/-- What a command reads. -/
def reads : PartsTag → Set PartsCell
  | .parts (isSvm, index) => C.canaryCells isSvm index ∪ {.result (isSvm, index)}
  | .read isSvm => {c | ∃ i < 2 * C.numBuff isSvm, c = .result (isSvm, i)}
  | .format isSvm => {c | ∃ i, c = .firstChange (isSvm, i)}
  | _ => ∅

/-- What a command writes. -/
def writes : PartsTag → Set PartsCell
  | .fill isSvm => {c | ∃ i < 2 * C.numBuff isSvm, c = .result (isSvm, i)}
  | .parts (isSvm, index) => C.canaryCells isSvm index ∪ {.result (isSvm, index)}
  | .read isSvm => {c | ∃ i < 2 * C.numBuff isSvm, c = .firstChange (isSvm, i)}
  | .format isSvm => {c | ∃ i, c = .firstChange (isSvm, i)}
  | _ => ∅

/-- What the check of a kind of object looks at: its results and its canaries. -/
def cells (isSvm : Bool) : Set PartsCell := fun
  | .device a => ∃ o ∈ C.objects isSvm, ∃ k < POISON_REGIONS * POISON_FILL_LENGTH, a = o.cell k
  | .result c => c.1 = isSvm
  | .firstChange c => c.1 = isSvm

/-! ## The commands one by one -/

/-- The commands, by their names. -/
inductive Issued : Command PartsTag PartsMemory → Prop
  | fill {isSvm : Bool} : C.numBuff isSvm ≠ 0 → Issued (C.fillCommand isSvm)
  | parts {isSvm : Bool} {index : Nat} : index < 2 * C.numBuff isSvm →
      Issued (C.partsCommand isSvm index)
  | read {isSvm : Bool} : C.numBuff isSvm ≠ 0 → Issued (C.readCommand isSvm)
  | format {isSvm : Bool} : C.numBuff isSvm ≠ 0 → Issued (C.formatCommand isSvm)
  | finish : Issued C.finishCommand

variable {C}

theorem enqueues_verifyOps (isSvm : Bool) :
    enqueues (C.verifyOps isSvm) = C.commands isSvm := by
  have launches : ∀ cs : List (Command PartsTag PartsMemory), enqueues (cs.flatMap fun c =>
      .enqueue c :: if C.checkerTime then [.finish C.queue] else []) = cs := by
    intro cs
    induction cs with
    | nil => rfl
    | cons c cs ih =>
        rw [List.flatMap_cons, enqueues_append, ih]
        cases C.checkerTime <;> rfl
  rw [verifyOps, commands]
  by_cases none : C.numBuff isSvm = 0
  · rw [if_pos none, if_pos none]
    rfl
  · rw [if_neg none, if_neg none, enqueues_append, enqueues_append, enqueues_enqueue,
      enqueues_enqueue, enqueues_enqueue, launches]
    cases C.nvidia <;> simp

theorem enqueues_verifyOnGpu : enqueues C.verifyOnGpu =
    C.commands false ++ (C.commands true ++ [C.finishCommand]) := by
  rw [verifyOnGpu, enqueues_append, enqueues_append, enqueues_verifyOps, enqueues_verifyOps,
    List.append_assoc]
  rfl

theorem mem_performClBufferChecks_iff {isSvm : Bool} {c : Command PartsTag PartsMemory} :
    c ∈ C.performClBufferChecks isSvm ↔
      ∃ index < 2 * C.numBuff isSvm, c = C.partsCommand isSvm index := by
  simp only [performClBufferChecks, POISON_REGIONS, List.mem_map, List.mem_range, eq_comm]

theorem mem_commands_iff {isSvm : Bool} {c : Command PartsTag PartsMemory} :
    c ∈ C.commands isSvm ↔ C.numBuff isSvm ≠ 0 ∧ (c = C.fillCommand isSvm ∨
      (∃ index < 2 * C.numBuff isSvm, c = C.partsCommand isSvm index) ∨
        c = C.readCommand isSvm ∨ c = C.formatCommand isSvm) := by
  rw [commands]
  split_ifs with none
  · simp [none]
  · simp [none, mem_performClBufferChecks_iff]

theorem mem_enqueues_iff {c : Command PartsTag PartsMemory} :
    c ∈ enqueues C.verifyOnGpu ↔ C.Issued c := by
  rw [enqueues_verifyOnGpu, List.mem_append, List.mem_append, List.mem_singleton,
    mem_commands_iff, mem_commands_iff]
  constructor
  · have kind : ∀ isSvm, (C.numBuff isSvm ≠ 0 ∧ (c = C.fillCommand isSvm ∨
        (∃ index < 2 * C.numBuff isSvm, c = C.partsCommand isSvm index) ∨
          c = C.readCommand isSvm ∨ c = C.formatCommand isSvm)) → C.Issued c := by
      rintro isSvm ⟨some', rfl | ⟨index, indexLt, rfl⟩ | rfl | rfl⟩
      · exact .fill some'
      · exact .parts indexLt
      · exact .read some'
      · exact .format some'
    rintro (buffers | svms | rfl)
    · exact kind false buffers
    · exact kind true svms
    · exact .finish
  · have kind : ∀ isSvm, C.numBuff isSvm ≠ 0 → (c = C.fillCommand isSvm ∨
        (∃ index < 2 * C.numBuff isSvm, c = C.partsCommand isSvm index) ∨
          c = C.readCommand isSvm ∨ c = C.formatCommand isSvm) →
        (C.numBuff false ≠ 0 ∧ (c = C.fillCommand false ∨
          (∃ index < 2 * C.numBuff false, c = C.partsCommand false index) ∨
            c = C.readCommand false ∨ c = C.formatCommand false)) ∨
        (C.numBuff true ≠ 0 ∧ (c = C.fillCommand true ∨
          (∃ index < 2 * C.numBuff true, c = C.partsCommand true index) ∨
            c = C.readCommand true ∨ c = C.formatCommand true)) ∨ c = C.finishCommand := by
      intro isSvm some' one
      cases isSvm with
      | false => exact Or.inl ⟨some', one⟩
      | true => exact Or.inr (Or.inl ⟨some', one⟩)
    intro issued
    cases issued with
    | fill some' => exact kind _ some' (Or.inl rfl)
    | parts indexLt => exact kind _ (by omega) (Or.inr (Or.inl ⟨_, indexLt, rfl⟩))
    | read some' => exact kind _ some' (Or.inr (Or.inr (Or.inl rfl)))
    | format some' => exact kind _ some' (Or.inr (Or.inr (Or.inr rfl)))
    | finish => exact Or.inr (Or.inr rfl)

/-! ## The script of a check -/

theorem checkEvents_eq (isSvm : Bool) : C.checkEvents isSvm =
    (List.range (2 * C.numBuff isSvm)).map fun index => .parts (isSvm, index) := by
  rw [checkEvents, performClBufferChecks, List.map_map]
  rfl

theorem map_tag_commands (isSvm : Bool) : (C.commands isSvm).map Command.tag =
    if C.numBuff isSvm = 0 then []
    else .fill isSvm :: (C.checkEvents isSvm ++ [.read isSvm, .format isSvm]) := by
  rw [commands]
  split_ifs
  · rfl
  · rw [List.map_cons, List.map_append]
    rfl

/-- What a command is about. -/
def kindOf : PartsTag → Option Bool
  | .fill isSvm | .parts (isSvm, _) | .read isSvm | .format isSvm => some isSvm
  | _ => none

theorem kindOf_of_mem {isSvm : Bool} {t : PartsTag} (mem : t ∈ (C.commands isSvm).map Command.tag) :
    kindOf t = some isSvm := by
  rw [map_tag_commands, checkEvents_eq] at mem
  split_ifs at mem
  · contradiction
  · simp only [List.mem_cons, List.mem_append, List.mem_map, List.not_mem_nil, or_false] at mem
    rcases mem with rfl | ⟨index, -, rfl⟩ | rfl | rfl <;> rfl

theorem nodup_commands (isSvm : Bool) : ((C.commands isSvm).map Command.tag).Nodup := by
  rw [map_tag_commands, checkEvents_eq]
  split_ifs
  · exact List.nodup_nil
  · have parts : ((List.range (2 * C.numBuff isSvm)).map
        fun index => PartsTag.parts (isSvm, index)).Nodup :=
      List.nodup_range.map fun i j same => (Prod.mk.inj (PartsTag.parts.inj same)).2
    refine List.nodup_cons.mpr ⟨by simp, parts.append (by simp) ?_⟩
    intro t mem mem'
    obtain ⟨index, -, rfl⟩ := List.mem_map.mp mem
    simp at mem'

theorem not_pending_of_issued {c : Command PartsTag PartsMemory} (issued : C.Issued c) (n : Nat) :
    c.tag ≠ .pending n := by
  cases issued <;> exact PartsTag.noConfusion

theorem distinct_script : (C.script.map Command.tag).Nodup := by
  rw [List.map_append]
  apply List.Nodup.append C.distinct
  · rw [enqueues_verifyOnGpu, List.map_append, List.map_append]
    refine (nodup_commands false).append ((nodup_commands true).append
      (List.nodup_singleton _) ?_) ?_
    · intro t mem mem'
      rw [List.mem_singleton.mp mem'] at mem
      exact absurd (kindOf_of_mem mem) (Option.some_ne_none true).symm
    · intro t mem mem'
      have isBuffer := kindOf_of_mem mem
      rcases List.mem_append.mp mem' with mem' | mem'
      · rw [kindOf_of_mem mem'] at isBuffer
        contradiction
      · rw [List.mem_singleton.mp mem'] at isBuffer
        contradiction
  · intro t mem mem'
    obtain ⟨c, cMem, rfl⟩ := List.mem_map.mp mem
    obtain ⟨d, dMem, same⟩ := List.mem_map.mp mem'
    obtain ⟨n, pending⟩ := C.isPending c cMem
    exact not_pending_of_issued (mem_enqueues_iff.mp dMem) n (same.trans pending)

/-- Every command of a kind waits for commands that were enqueued before it. -/
theorem commands_wait {isSvm : Bool} {known : Set PartsTag} (evtKnown : C.evt ∈ known) :
    WaitsBehind known (C.commands isSvm) := by
  rw [commands]
  split_ifs
  · trivial
  · refine ⟨fun t wait => absurd wait List.not_mem_nil, waitsBehind_append ?_ ⟨?_, ?_, trivial⟩⟩
    · refine waitsBehind_of_forall fun c mem t wait => ?_
      obtain ⟨index, -, rfl⟩ := mem_performClBufferChecks_iff.mp mem
      rcases List.mem_cons.mp wait with rfl | wait
      · exact Set.mem_insert _ _
      · rw [List.mem_singleton.mp wait]
        exact Set.mem_insert_of_mem _ evtKnown
    · exact fun t wait => Or.inr wait
    · intro t wait
      rw [List.mem_singleton.mp wait]
      exact Set.mem_insert _ _

theorem orderly_script : Orderly C.script := by
  refine orderly_append C.orderly ?_ distinct_script
  rw [enqueues_verifyOnGpu]
  refine waitsBehind_append (commands_wait C.launched) (waitsBehind_append
    (commands_wait (Or.inl C.launched)) ⟨fun t wait => ?_, trivial⟩)
  obtain ⟨isSvm, isKind, rfl⟩ := List.mem_map.mp wait
  have some' := of_decide_eq_true (List.mem_filter.mp isKind).2
  have enqueued : .read isSvm ∈ (C.commands isSvm).map Command.tag := by
    rw [map_tag_commands, if_neg some']
    simp
  cases isSvm with
  | false => exact Or.inl (Or.inr enqueued)
  | true => exact Or.inr enqueued

/-- The host waits for results that it has enqueued the read of. -/
theorem supplied_verifyOps (start : List (Command PartsTag PartsMemory)) (isSvm : Bool) :
    Supplied start (C.verifyOps isSvm) := by
  have behind : ∀ (start : List (Command PartsTag PartsMemory)) (c : Command PartsTag PartsMemory),
      Supplied start (.enqueue c :: if C.nvidia then [.waitFor [c.tag]] else []) := by
    intro start c
    have first : Supplied start [HostOp.enqueue c] := supplied_of_forall fun tags mem => by
      simp at mem
    have second : Supplied (start ++ enqueues [HostOp.enqueue c])
        (if C.nvidia then [.waitFor [c.tag]] else []) := by
      split_ifs
      · refine supplied_waitFor fun t mem => ?_
        rw [List.mem_singleton.mp mem, enqueues_enqueue]
        simp
      · exact supplied_of_forall fun tags => List.not_mem_nil
    exact supplied_append first second
  rw [verifyOps]
  by_cases none : C.numBuff isSvm = 0
  · rw [if_pos none]
    exact supplied_of_forall fun tags => List.not_mem_nil
  · rw [if_neg none]
    refine supplied_append (supplied_append (supplied_of_forall fun tags mem => ?_)
      (behind _ (C.readCommand isSvm))) (behind _ (C.formatCommand isSvm))
    cases C.checkerTime <;> simp at mem

theorem supplied_verifyOnGpu : Supplied C.pending C.verifyOnGpu := by
  refine supplied_append (supplied_append (supplied_verifyOps _ false) (supplied_verifyOps _ true))
    (supplied_of_forall fun tags mem => ?_)
  simp at mem

theorem lawful {memory : PartsMemory} {m : Machine PartsTag PartsMemory}
    (runs : Runs C.inOrder (begin memory C.pending C.verifyOnGpu) m) :
    Lawful C.inOrder C.pending C.verifyOnGpu m :=
  (lawful_begin C.inOrder memory C.pending C.verifyOnGpu).of_runs distinct_script runs

end PartsCheck

end Clarmor
