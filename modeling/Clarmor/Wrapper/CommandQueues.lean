import Clarmor.Defines
import Clarmor.Library.Run
import Clarmor.Library.Table
import Clarmor.Library.Word

/-!
# The cache of command queues

The wrapper keeps the command queue of the first creation on a context, and its
own copies and checks use it.  The cache takes whatever the runtime answered: a
creation that was refused leaves `NULL` for the context, and a queue on the device
is kept like any other one.
-/

namespace Clarmor

open Word

/-- `CL_QUEUE_PROPERTIES`. -/
def CL_QUEUE_PROPERTIES : Nat := 0x1093

/-- `CL_QUEUE_PROFILING_ENABLE`. -/
def CL_QUEUE_PROFILING_ENABLE : Nat := 2

/-- `CL_QUEUE_ON_DEVICE`. -/
def CL_QUEUE_ON_DEVICE : Nat := 4

/-- A list of properties with their values, without its terminator. -/
abbrev QueueProperties := List (Nat × Nat)

/-- A command queue of the runtime. -/
structure CommandQueue where
  context : Handle
  onDevice : Bool
deriving DecidableEq, Repr

/-- `commandQueueCache`. -/
structure CommandQueueCache where
  handle : Handle
  cachedQueue : Handle
  refCount : Nat
deriving DecidableEq, Repr

/-- The status that a creation stores. -/
inductive QueueStatus where
  | success
  | invalidCommandQueue
  | other (code : Int)
deriving DecidableEq, Repr

/-- The queues of the runtime and the cache of the wrapper. -/
structure QueueSystem where
  /-- `global_tool_stats_flags & STATS_CHECKER_TIME`. -/
  checkerTime : Bool
  queues : Table Handle CommandQueue
  cmdQueueCache : Table Handle CommandQueueCache

/-- What the runtime answers to a creation: a queue or `NULL`, and the status. -/
structure QueueAnswer where
  ret : Handle
  errcode : QueueStatus

/-- A profiling request is missing in a property. -/
def lacksProfiling (p : Nat × Nat) : Bool :=
  p.1 = CL_QUEUE_PROPERTIES && p.2 &&& CL_QUEUE_PROFILING_ENABLE = 0

/-- Ask for profiling in the last of the queue properties that do not. -/
def addProfilingHere : QueueProperties → QueueProperties
  | [] => []
  | p :: rest =>
      if rest.any lacksProfiling then p :: addProfilingHere rest
      else if lacksProfiling p then (p.1, p.2 ||| CL_QUEUE_PROFILING_ENABLE) :: rest
      else p :: rest

/-- `add_profiling`. -/
def addProfiling : Option QueueProperties → QueueProperties
  | some properties =>
      if properties.any fun p => p.1 = CL_QUEUE_PROPERTIES then addProfilingHere properties
      else properties ++ [(CL_QUEUE_PROPERTIES, CL_QUEUE_PROFILING_ENABLE)]
  | none => [(CL_QUEUE_PROPERTIES, CL_QUEUE_PROFILING_ENABLE)]

/-- A property asks for a queue on the device. -/
def asksDevice (p : Nat × Nat) : Bool :=
  p.1 = CL_QUEUE_PROPERTIES && p.2 &&& CL_QUEUE_ON_DEVICE ≠ 0

/-- The flags that `clCreateCommandQueueWithProperties` looks at: those of the first
or of the second property. -/
def firstFlags : QueueProperties → Nat
  | (key, value) :: rest =>
      if key = CL_QUEUE_PROPERTIES then u32 value
      else match rest with
        | (key, value) :: _ => if key = CL_QUEUE_PROPERTIES then u32 value else 0
        | [] => 0
  | [] => 0

namespace QueueSystem

/-- The start of a process. -/
def initial (checkerTime : Bool) : QueueSystem := ⟨checkerTime, Table.empty, Table.empty⟩

/-- The runtime's part of a creation. -/
def answered (s : QueueSystem) (context : Handle) (onDevice : Bool) (ret : Handle) :
    QueueSystem :=
  if ret = NULL then s else { s with queues := s.queues.insert ret ⟨context, onDevice⟩ }

/-- `commandQueueCache_insert`; an entry that is there stays. -/
def commandQueueCacheInsert (s : QueueSystem) (item : CommandQueueCache) : QueueSystem :=
  { s with
    cmdQueueCache :=
      if (s.cmdQueueCache.find item.handle).isSome then s.cmdQueueCache
      else s.cmdQueueCache.insert item.handle item }

/-- `clCreateCommandQueue`. -/
def clCreateCommandQueue (s : QueueSystem) (context : Handle) (properties : Nat)
    (answer : QueueAnswer) : QueueAnswer × QueueSystem :=
  let localProp :=
    if s.checkerTime then properties ||| CL_QUEUE_PROFILING_ENABLE else properties
  let s := s.answered context (asksDevice (CL_QUEUE_PROPERTIES, localProp)) answer.ret
  (answer, s.commandQueueCacheInsert ⟨context, answer.ret, 1⟩)

/-- The status of `clGetCommandQueueInfo`. -/
def queueInfoStatus (s : QueueSystem) (queue : Handle) : QueueStatus :=
  if (s.queues.find queue).isSome then .success else .invalidCommandQueue

/-- `clCreateCommandQueueWithProperties`. -/
def clCreateCommandQueueWithProperties (s : QueueSystem) (context : Handle)
    (properties : Option QueueProperties) (answer : QueueAnswer) : QueueAnswer × QueueSystem :=
  let updatedProp := if s.checkerTime then some (addProfiling properties) else properties
  let s := s.answered context ((updatedProp.getD []).any asksDevice) answer.ret
  let flags := (updatedProp.map firstFlags).getD 0
  -- the runtime does not set the status for a queue on the device
  let errcode :=
    if flags &&& CL_QUEUE_ON_DEVICE ≠ 0 then s.queueInfoStatus answer.ret else answer.errcode
  (⟨answer.ret, errcode⟩, s.commandQueueCacheInsert ⟨context, answer.ret, 1⟩)

/-- `getCommandQueueForContext`: the queue it stores, with the answer to its own
creation when there is one. -/
def getCommandQueueForContext (s : QueueSystem) (context : Handle) (answer : QueueAnswer) :
    Handle × QueueSystem :=
  match s.cmdQueueCache.find context with
  | none =>
      match s.clCreateCommandQueue context 0 answer with
      | (answer, s) => (answer.ret, s)
  | some findme => (findme.cachedQueue, s)

end QueueSystem

/-- A creation of a command queue with the runtime's answer. -/
inductive QueueCall where
  | createCommandQueue (context : Handle) (properties : Nat) (answer : QueueAnswer)
  | createCommandQueueWithProperties (context : Handle) (properties : Option QueueProperties)
      (answer : QueueAnswer)

namespace QueueCall

/-- The context of a creation. -/
def context : QueueCall → Handle
  | createCommandQueue context _ _ => context
  | createCommandQueueWithProperties context _ _ => context

/-- The answer to a creation. -/
def answer : QueueCall → QueueAnswer
  | createCommandQueue _ _ answer => answer
  | createCommandQueueWithProperties _ _ answer => answer

/-- A creation asks for a queue on the device. -/
def onDevice : QueueCall → Bool
  | createCommandQueue _ properties _ => asksDevice (CL_QUEUE_PROPERTIES, properties)
  | createCommandQueueWithProperties _ properties _ => (properties.getD []).any asksDevice

/-- A creation gives a queue on the host. -/
def GivesHostQueue (call : QueueCall) : Prop := call.answer.ret ≠ NULL ∧ call.onDevice = false

/-- The first creation on a context. -/
def first (calls : List QueueCall) (context : Handle) : Option QueueCall :=
  calls.find? fun call => call.context = context

end QueueCall

namespace QueueSystem

/-- An answer of the runtime is `NULL` or a new queue. -/
def Possible (s : QueueSystem) (answer : QueueAnswer) : Prop :=
  answer.ret = NULL ∨ s.queues.find answer.ret = none

instance (s : QueueSystem) (answer : QueueAnswer) : Decidable (s.Possible answer) :=
  inferInstanceAs (Decidable (_ ∨ _))

/-- What a creation does. -/
def create (s : QueueSystem) : QueueCall → QueueSystem
  | .createCommandQueue context properties answer =>
      (s.clCreateCommandQueue context properties answer).2
  | .createCommandQueueWithProperties context properties answer =>
      (s.clCreateCommandQueueWithProperties context properties answer).2

/-- One creation. -/
def step (s : QueueSystem) (call : QueueCall) : Option QueueSystem :=
  if s.Possible call.answer then some (s.create call) else none

/-- The wrapper gets a queue of a context that runs on the host, if the runtime
creates one when it is asked. -/
def Usable (s : QueueSystem) (context : Handle) : Prop :=
  ∀ answer : QueueAnswer, answer.ret ≠ NULL → s.Possible answer →
    (s.getCommandQueueForContext context answer).1 ≠ NULL ∧
      (s.getCommandQueueForContext context answer).2.queues.find
        (s.getCommandQueueForContext context answer).1 = some ⟨context, false⟩

variable {s s' : QueueSystem} {call : QueueCall} {calls : List QueueCall} {context : Handle}

/-! ## Profiling -/

theorem or_profiling_and_device (flags : Nat) :
    (flags ||| CL_QUEUE_PROFILING_ENABLE) &&& CL_QUEUE_ON_DEVICE =
      flags &&& CL_QUEUE_ON_DEVICE := by
  rw [Nat.and_or_distrib_right]
  exact Nat.or_zero _

theorem any_addProfilingHere (properties : QueueProperties) :
    (addProfilingHere properties).any asksDevice = properties.any asksDevice := by
  induction properties with
  | nil => rfl
  | cons p rest ih =>
      rw [addProfilingHere]
      split_ifs
      · rw [List.any_cons, ih, List.any_cons]
      · rw [List.any_cons, List.any_cons, asksDevice, or_profiling_and_device]
        rfl
      · rfl

/-- Profiling does not change where a queue is. -/
theorem any_addProfiling (properties : Option QueueProperties) :
    (addProfiling properties).any asksDevice = (properties.getD []).any asksDevice := by
  cases properties with
  | none => rfl
  | some properties =>
      rw [addProfiling]
      split_ifs
      · exact any_addProfilingHere properties
      · rw [List.any_append]
        exact Bool.or_false _

/-! ## Creations -/

/-- Every creation adds the queue to the runtime and tries to enter it. -/
theorem create_eq (s : QueueSystem) (call : QueueCall) :
    s.create call = (s.answered call.context call.onDevice
      call.answer.ret).commandQueueCacheInsert ⟨call.context, call.answer.ret, 1⟩ := by
  cases call with
  | createCommandQueue context properties answer =>
      have kept : asksDevice (CL_QUEUE_PROPERTIES,
          if s.checkerTime then properties ||| CL_QUEUE_PROFILING_ENABLE else properties) =
          asksDevice (CL_QUEUE_PROPERTIES, properties) := by
        split_ifs
        · rw [asksDevice, or_profiling_and_device]
          rfl
        · rfl
      dsimp only [create, clCreateCommandQueue]
      rw [kept]
      rfl
  | createCommandQueueWithProperties context properties answer =>
      have kept : ((if s.checkerTime then some (addProfiling properties)
          else properties).getD []).any asksDevice = (properties.getD []).any asksDevice := by
        split_ifs
        · exact any_addProfiling properties
        · rfl
      dsimp only [create, clCreateCommandQueueWithProperties]
      rw [kept]
      rfl

theorem step_cases (stepped : s.step call = some s') :
    s.Possible call.answer ∧
      s' = (s.answered call.context call.onDevice call.answer.ret).commandQueueCacheInsert
        ⟨call.context, call.answer.ret, 1⟩ := by
  rw [step] at stepped
  split at stepped
  case isTrue possible =>
    exact ⟨possible, (Option.some.inj stepped).symm.trans (s.create_eq call)⟩
  case isFalse => contradiction

theorem find_answered (possible : s.Possible call.answer) (queue : Handle) :
    (s.answered call.context call.onDevice call.answer.ret).queues.find queue =
      if call.answer.ret ≠ NULL ∧ queue = call.answer.ret then
        some ⟨call.context, call.onDevice⟩
      else s.queues.find queue := by
  rw [answered]
  split_ifs with refused here here
  · exact absurd refused here.1
  · rfl
  · have fresh := possible.resolve_left refused
    rw [here.2]
    exact Table.find_insert_fresh fresh
  · exact Table.find_insert_of_ne fun same => here ⟨refused, same⟩

/-- A queue stays what it is. -/
theorem queues_step {queue : Handle} {q : CommandQueue} (stepped : s.step call = some s')
    (isQueue : s.queues.find queue = some q) : s'.queues.find queue = some q := by
  obtain ⟨possible, rfl⟩ := step_cases stepped
  refine (find_answered possible queue).trans ?_
  rw [if_neg, isQueue]
  rintro ⟨granted, rfl⟩
  rw [possible.resolve_left granted] at isQueue
  contradiction

theorem cache_step (stepped : s.step call = some s') (context : Handle) :
    s'.cmdQueueCache.find context = (s.cmdQueueCache.find context).or
      (if call.context = context then some ⟨context, call.answer.ret, 1⟩ else none) := by
  obtain ⟨-, rfl⟩ := step_cases stepped
  have same : (s.answered call.context call.onDevice call.answer.ret).cmdQueueCache =
      s.cmdQueueCache := by
    rw [answered]
    split_ifs <;> rfl
  rw [commandQueueCacheInsert, same]
  dsimp only
  by_cases here : call.context = context
  · subst here
    rw [if_pos rfl]
    cases held : s.cmdQueueCache.find call.context with
    | none => simp [Table.find_insert_fresh held]
    | some item => simp [held]
  · rw [if_neg here, Option.or_none]
    split_ifs
    · rfl
    · exact Table.find_insert_of_ne (Ne.symm here)

/-! ## Histories -/

/-- All handles from a number on are new. -/
def Bounded (s : QueueSystem) : Prop := ∃ bound, ∀ queue ≥ bound, s.queues.find queue = none

theorem bounded_step (bounded : s.Bounded) (stepped : s.step call = some s') : s'.Bounded := by
  obtain ⟨bound, new⟩ := bounded
  obtain ⟨possible, rfl⟩ := step_cases stepped
  refine ⟨max bound (call.answer.ret + 1), fun queue le => ?_⟩
  obtain ⟨le, above⟩ := max_le_iff.mp le
  refine (find_answered possible queue).trans ?_
  rw [if_neg, new queue le]
  rintro ⟨-, rfl⟩
  exact Nat.not_succ_le_self _ above

/-- A context keeps the answer to its first creation. -/
theorem cache_run (ran : calls.foldlM step s = some s') (context : Handle) :
    s'.cmdQueueCache.find context = (s.cmdQueueCache.find context).or
      ((QueueCall.first calls context).map fun call => ⟨context, call.answer.ret, 1⟩) := by
  induction calls generalizing s with
  | nil =>
      obtain rfl := Option.some.inj ran
      simp [QueueCall.first]
  | cons call rest ih =>
      rw [List.foldlM_cons] at ran
      obtain ⟨t, stepped, ran⟩ := Option.bind_eq_some_iff.mp ran
      rw [ih ran, cache_step stepped, Option.or_assoc]
      by_cases here : call.context = context <;> simp [here, QueueCall.first]

theorem queues_run {queue : Handle} {q : CommandQueue} (ran : calls.foldlM step s = some s')
    (isQueue : s.queues.find queue = some q) : s'.queues.find queue = some q := by
  induction calls generalizing s with
  | nil =>
      obtain rfl := Option.some.inj ran
      exact isQueue
  | cons call rest ih =>
      rw [List.foldlM_cons] at ran
      obtain ⟨t, stepped, rest⟩ := Option.bind_eq_some_iff.mp ran
      exact ih rest (queues_step stepped isQueue)

/-- A queue that was given in a history is there at its end. -/
theorem queue_of_mem (ran : calls.foldlM step s = some s') (mem : call ∈ calls)
    (granted : call.answer.ret ≠ NULL) :
    s'.queues.find call.answer.ret = some ⟨call.context, call.onDevice⟩ := by
  induction calls generalizing s with
  | nil => contradiction
  | cons head rest ih =>
      rw [List.foldlM_cons] at ran
      obtain ⟨t, stepped, later⟩ := Option.bind_eq_some_iff.mp ran
      rcases List.mem_cons.mp mem with rfl | mem
      · refine queues_run later ?_
        obtain ⟨possible, rfl⟩ := step_cases stepped
        exact (find_answered possible call.answer.ret).trans (if_pos ⟨granted, rfl⟩)
      · exact ih later mem

theorem bounded_run (bounded : s.Bounded) (ran : calls.foldlM step s = some s') :
    s'.Bounded := by
  have reach := Run.reach_of_foldlM calls ran
  exact reach.invariant bounded fun _ _ _ bounded _ stepped => bounded_step bounded stepped

/-- A context without an entry gets a new queue. -/
theorem usable_of_uncached (uncached : s.cmdQueueCache.find context = none) :
    s.Usable context := by
  intro answer granted possible
  have made : s.getCommandQueueForContext context answer =
      (answer.ret, s.create (.createCommandQueue context 0 answer)) := by
    rw [getCommandQueueForContext, uncached]
    rfl
  rw [made, create_eq]
  exact ⟨granted, (find_answered possible answer.ret).trans (if_pos ⟨granted, rfl⟩)⟩

/-- The wrapper gets a usable queue for a context exactly when the first creation
on it, if there was one, gave a queue on the host. -/
theorem usable_iff {checkerTime : Bool} (ran : calls.foldlM step (initial checkerTime) = some s) :
    s.Usable context ↔
      ∀ call, QueueCall.first calls context = some call → call.GivesHostQueue := by
  have cached := cache_run ran context
  cases isFirst : QueueCall.first calls context with
  | none =>
      rw [isFirst] at cached
      refine iff_of_true (usable_of_uncached cached) ?_
      rintro call ⟨⟩
  | some call =>
      rw [isFirst] at cached
      have stored : ∀ answer, s.getCommandQueueForContext context answer =
          (call.answer.ret, s) := by
        intro answer
        rw [getCommandQueueForContext, cached]
        rfl
      have mem : call ∈ calls := List.mem_of_find?_eq_some isFirst
      have here : call.context = context := by simpa using List.find?_some isFirst
      constructor
      · rintro usable call' ⟨⟩
        obtain ⟨bound, new⟩ : s.Bounded := bounded_run ⟨0, fun _ _ => rfl⟩ ran
        have given := usable ⟨bound + 1, .success⟩ (Nat.succ_ne_zero bound)
          (Or.inr (new (bound + 1) (Nat.le_succ bound)))
        rw [stored] at given
        refine ⟨given.1, ?_⟩
        have isQueue := (queue_of_mem ran mem given.1).symm.trans given.2
        exact congrArg CommandQueue.onDevice (Option.some.inj isQueue)
      · intro host answer granted possible
        obtain ⟨given, onHost⟩ := host call rfl
        rw [stored]
        refine ⟨given, (queue_of_mem ran mem given).trans ?_⟩
        rw [here, onHost]

/-- A queue on the host is created first, and one on the device afterwards. -/
def hostFirst : List QueueCall :=
  [.createCommandQueue 1 0 ⟨11, .success⟩,
    .createCommandQueueWithProperties 1 (some [(CL_QUEUE_PROPERTIES, 5)]) ⟨12, .success⟩]

theorem usable_iff_hostFirst :
    ∃ s, hostFirst.foldlM step (initial false) = some s ∧ s.Usable 1 := by
  refine ⟨_, rfl, (@usable_iff _ hostFirst 1 false rfl).mpr ?_⟩
  rintro call ⟨⟩
  exact ⟨by decide, rfl⟩

/-- A refused creation leaves `NULL` for its context, and a queue on the device is
what the wrapper uses from then on. -/
theorem not_usable :
    (∃ s, [.createCommandQueue 1 1 ⟨NULL, .other (-35)⟩].foldlM step (initial false) = some s ∧
      (s.getCommandQueueForContext 1 ⟨11, .success⟩).1 = NULL ∧ ¬ s.Usable 1) ∧
    ∃ s, [.createCommandQueueWithProperties 1 (some [(CL_QUEUE_PROPERTIES, 5)])
        ⟨11, .success⟩].foldlM step (initial false) = some s ∧
      (s.getCommandQueueForContext 1 ⟨12, .success⟩).1 = 11 ∧
      s.queues.find 11 = some ⟨1, true⟩ ∧ ¬ s.Usable 1 := by
  refine ⟨⟨_, rfl, rfl, fun usable => ?_⟩, _, rfl, rfl, rfl, fun usable => ?_⟩
  · exact (usable ⟨11, .success⟩ (by decide) (Or.inr rfl)).1 rfl
  · have given := (usable ⟨12, .success⟩ (by decide) (Or.inr rfl)).2
    exact absurd (congrArg CommandQueue.onDevice (Option.some.inj given)) (by decide)

end QueueSystem

end Clarmor
