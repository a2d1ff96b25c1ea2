import Clarmor.Launch.Arguments
import Clarmor.Library.Access
import Clarmor.Library.Queues

/-!
# The order of a cloned launch

A launch with a wait list, while commands are still pending.  When the kernel is
cloned, the contents of the replaced arguments are copied on the launch's queue
without a wait list, the clone runs with the wait list, and the contents are
copied back.  The checks read and mend canaries only and are left out, and
arguments are in the context of the queue.
-/

namespace Clarmor

open Queues Access

/-- Names for the commands of a launch and for those that were enqueued before. -/
inductive CloneTag where
  | pending (n : Nat)
  | copyIn (arg : Nat)
  | kernel
  | copyBack (arg : Nat)
deriving DecidableEq, Repr

variable {A : Type} [DecidableEq A]

/-- Copy `n` cells. -/
def copyCells (src dst : Nat → A) (n : Nat) (m : A → UInt8) : A → UInt8 :=
  (List.range n).foldl (fun m' o => Function.update m' (dst o) (m (src o))) m

/-- The copied cells, and the others. -/
theorem copyCells_spec {n : Nat} (src dst : Nat → A) (m : A → UInt8)
    (apart : ∀ o o', o < n → o' < n → dst o = dst o' → o = o') :
    (∀ o < n, copyCells src dst n m (dst o) = m (src o)) ∧
      ∀ a, (∀ o < n, dst o ≠ a) → copyCells src dst n m a = m a := by
  induction n with
  | zero => exact ⟨by simp, fun a _ => rfl⟩
  | succ n ih =>
      obtain ⟨copied, others⟩ := ih fun o o' oLt o'Lt => apart o o' (by omega) (by omega)
      have last : copyCells src dst (n + 1) m =
          Function.update (copyCells src dst n m) (dst n) (m (src n)) := by
        rw [copyCells, List.range_succ, List.foldl_append]
        rfl
      rw [last]
      constructor
      · intro o oLt
        rcases Nat.lt_succ_iff_lt_or_eq.mp oLt with before | rfl
        · have other : dst o ≠ dst n := by
            intro same
            have := apart o n oLt (Nat.lt_succ_self n) same
            omega
          rw [Function.update_of_ne other, copied o before]
        · exact Function.update_self _ _ _
      · intro a apart'
        rw [Function.update_of_ne (apart' n (Nat.lt_succ_self n)).symm,
          others a fun o oLt => apart' o (by omega)]

/-- A command changes a cell in some memory. -/
def Changes (c : Command CloneTag (A → UInt8)) (a : A) : Prop := ∃ m, c.body m a ≠ m a

/-- A command neither reads nor writes some cells. -/
structure Ignores (c : Command CloneTag (A → UInt8)) (cells : Set A) : Prop where
  keeps : ∀ m, ∀ a ∈ cells, c.body m a = m a
  unread : ∀ m m', (∀ a, a ∉ cells → m a = m' a) → ∀ a, a ∉ cells → c.body m a = c.body m' a

/-- A launch of a kernel that is cloned.  An argument's bytes lie where its memory
object does, and the replacement's in memory that no pending command knows. -/
structure CloneLaunch (A : Type) [DecidableEq A] where
  args : List KernelArg
  queue : Nat
  inOrder : Nat → Bool
  pending : List (Command CloneTag (A → UInt8))
  /-- The commands whose events are in the wait list and not complete. -/
  waitList : List CloneTag
  place : Nat → Nat → A
  size : Nat → Nat
  clone : Nat → Nat → A
  /-- What the kernel does with its arguments. -/
  prog : Program Nat UInt8
  cloned : needInternalBuffer args = true
  isPending : ∀ c ∈ pending, ∃ n, c.tag = .pending n
  distinct : (pending.map Command.tag).Nodup
  orderly : Orderly pending
  waits : ∀ t ∈ waitList, t ∈ pending.map Command.tag
  /-- Arguments that pass one object lie in one place. -/
  shared : ∀ i, place (firstUse args i) = place i ∧ size (firstUse args i) = size i
  cloneApart : ∀ i ∈ replacedArgs args, ∀ j ∈ replacedArgs args, ∀ o o', o < size i →
    o' < size j → clone i o = clone j o' → i = j ∧ o = o'
  cloneFresh : ∀ i ∈ replacedArgs args, ∀ j o o', o < size i → o' < size j →
    clone i o ≠ place j o'
  unaware : ∀ c ∈ pending, Ignores c {a | ∃ i ∈ replacedArgs args, ∃ o < size i, clone i o = a}

namespace CloneLaunch

variable (L : CloneLaunch A)

/-- The arguments that get a new memory object. -/
def replaced : List Nat := replacedArgs L.args

/-- The cells of the new memory objects. -/
def cloneCells : Set A := {a | ∃ i ∈ L.replaced, ∃ o < L.size i, L.clone i o = a}

/-- The cells of the arguments. -/
def argCells : Set A := {a | ∃ i, ∃ o < L.size i, L.place i o = a}

/-- The command of `cl_buffer_copy` in `createPoisonedKernel`. -/
def copyIn (i : Nat) : Command CloneTag (A → UInt8) :=
  ⟨.copyIn i, L.queue, [], copyCells (L.place i) (L.clone i) (L.size i)⟩

/-- The command of `cl_buffer_copy` in `copyKernelBuffers`. -/
def copyBack (i : Nat) : Command CloneTag (A → UInt8) :=
  ⟨.copyBack i, L.queue, [], copyCells (L.clone i) (L.place i) (L.size i)⟩

/-- Where the arguments of the clone lie. -/
def clonePlace (i : Nat) : Nat → A :=
  if firstUse L.args i ∈ L.replaced then L.clone (firstUse L.args i) else L.place i

/-- The kernel, with its arguments in given places. -/
def kernel (place : Nat → Nat → A) : Command CloneTag (A → UInt8) :=
  ⟨.kernel, L.queue, L.waitList, L.prog.exec place⟩

/-- `createPoisonedKernel`: copy into the new objects and finish the queue. -/
def createPoisonedKernelOps : List (HostOp CloneTag (A → UInt8)) :=
  (L.replaced.map L.copyIn).map .enqueue ++ [.finish L.queue]

/-- `runNDRangeKernel` with the wait list of the launch. -/
def runNDRangeKernelOps (place : Nat → Nat → A) : List (HostOp CloneTag (A → UInt8)) :=
  [.enqueue (L.kernel place)]

/-- `copyKernelBuffers`: finish the queue, copy back and wait for the copies. -/
def copyKernelBuffersOps : List (HostOp CloneTag (A → UInt8)) :=
  .finish L.queue :: (L.replaced.map L.copyBack).map .enqueue ++
    [.waitFor (L.replaced.map .copyBack)]

/-- The commands of `kernelLaunchFunc`. -/
def launchOps : List (HostOp CloneTag (A → UInt8)) :=
  L.createPoisonedKernelOps ++ L.runNDRangeKernelOps L.clonePlace ++ L.copyKernelBuffersOps

/-- The launch without the detector. -/
def nativeOps : List (HostOp CloneTag (A → UInt8)) := L.runNDRangeKernelOps L.place

/-- A pending command writes into an argument. -/
def WritesArg (c : Command CloneTag (A → UInt8)) (i : Nat) : Prop :=
  ∃ o, o < L.size i ∧ Changes c (L.place i o)

/-- What was copied into the replacements includes every write of the wait list:
the writer was done before the copy. -/
def Included (m : Machine CloneTag (A → UInt8)) : Prop :=
  ∀ c ∈ L.pending, c.tag ∈ L.waitList → ∀ i ∈ L.replaced, L.WritesArg c i →
    [.copyIn i, c.tag].Sublist m.done

/-- Without the detector the launch has a meaning: different objects do not
overlap, the kernel stays in its arguments, and a command that the launch does
not wait for leaves them alone. -/
structure RaceFree : Prop where
  apart : ∀ i j o o', o < L.size i → o' < L.size j → L.place i o = L.place j o' →
    firstUse L.args i = firstUse L.args j ∧ o = o'
  inBounds : ∀ m, L.prog.InBounds L.size L.place m
  exclusive : ∀ c ∈ L.pending, c.tag ∉ L.waitList → Ignores c L.argCells

/-- The commands of the application and the kernel. -/
def isNative : CloneTag → Bool
  | .pending _ | .kernel => true
  | .copyIn _ | .copyBack _ => false

/-- No update is lost: the same commands in the same order leave the same bytes
without the detector. -/
def NoLostUpdate (memory : A → UInt8) (m : Machine CloneTag (A → UInt8)) : Prop :=
  L.RaceFree → ∃ n, Runs L.inOrder (begin memory L.pending L.nativeOps) n ∧ n.host = [] ∧
    n.done = m.done.filter isNative ∧
    ∀ a ∉ L.cloneCells, m.memory a = n.memory a

/-- Cloning respects the dependencies of the launch, in every order. -/
def Respects : Prop :=
  ∀ memory m, Runs L.inOrder (begin memory L.pending L.launchOps) m → m.host = [] →
    L.Included m ∧ L.NoLostUpdate memory m

/-- The pending commands that every command enqueued on the launch's queue needs. -/
inductive Ahead : CloneTag → Prop
  | enqueued {c : Command CloneTag (A → UInt8)} : L.inOrder L.queue = true → c ∈ L.pending →
      c.queue = L.queue → Ahead c.tag
  | needed {t p : CloneTag} : Ahead t → Needs L.inOrder L.pending t p → Ahead p

/-! ## The commands of a launch -/

variable {L}

/-- All commands, in the order in which they are enqueued. -/
theorem script_eq : L.pending ++ enqueues L.launchOps =
    L.pending ++ L.replaced.map L.copyIn ++ L.kernel L.clonePlace :: L.replaced.map L.copyBack := by
  rw [launchOps, createPoisonedKernelOps, runNDRangeKernelOps, copyKernelBuffersOps]
  simp [-List.map_map]

theorem tags_eq : (L.pending ++ enqueues L.launchOps).map Command.tag =
    L.pending.map Command.tag ++
      (L.replaced.map CloneTag.copyIn ++ .kernel :: L.replaced.map CloneTag.copyBack) := by
  rw [script_eq, List.map_append, List.map_append, List.map_cons, List.map_map, List.map_map,
    List.append_assoc]
  rfl

theorem pending_of_tag {t : CloneTag} (mem : t ∈ L.pending.map Command.tag) :
    ∃ n, t = .pending n := by
  obtain ⟨c, cMem, rfl⟩ := List.mem_map.mp mem
  exact L.isPending c cMem

theorem distinct_script : ((L.pending ++ enqueues L.launchOps).map Command.tag).Nodup := by
  rw [tags_eq]
  have nodup : L.replaced.Nodup := replacedArgs_nodup L.args
  apply List.Nodup.append L.distinct
  · apply List.Nodup.append
    · exact nodup.map fun i j same => CloneTag.copyIn.inj same
    · apply List.nodup_cons.mpr
      refine ⟨by simp, nodup.map fun i j same => CloneTag.copyBack.inj same⟩
    · intro t mem mem'
      obtain ⟨i, -, rfl⟩ := List.mem_map.mp mem
      simp at mem'
  · intro t mem mem'
    obtain ⟨n, rfl⟩ := pending_of_tag mem
    simp at mem'

theorem earlier_pending {t : CloneTag} (mem : t ∈ L.pending.map Command.tag) :
    earlier (L.pending ++ enqueues L.launchOps) t = earlier L.pending t :=
  earlier_append mem

/-- What a pending command needs does not depend on the launch. -/
theorem needs_pending {t needed : CloneTag} (mem : t ∈ L.pending.map Command.tag) :
    Needs L.inOrder (L.pending ++ enqueues L.launchOps) t needed ↔
      Needs L.inOrder L.pending t needed := by
  constructor
  · rintro ⟨c, cMem, rfl, cause⟩
    obtain ⟨d, dMem, same⟩ := List.mem_map.mp mem
    obtain rfl := eq_of_tag distinct_script (List.mem_append_left _ dMem) cMem same
    rw [earlier_pending mem] at cause
    exact ⟨d, dMem, rfl, cause⟩
  · rintro ⟨c, cMem, rfl, cause⟩
    rw [← earlier_pending mem] at cause
    exact ⟨c, List.mem_append_left _ cMem, rfl, cause⟩

/-- What comes before a copy into a replacement. -/
theorem earlier_copyIn {i : Nat} (mem : i ∈ L.replaced) {d : Command CloneTag (A → UInt8)}
    (dMem : d ∈ earlier (L.pending ++ enqueues L.launchOps) (.copyIn i)) :
    d ∈ L.pending ∨ ∃ j ∈ L.replaced, d = L.copyIn j := by
  have present : (.copyIn i : CloneTag) ∈
      (L.pending ++ L.replaced.map L.copyIn).map Command.tag := by
    rw [List.map_append, List.map_map]
    exact List.mem_append_right _ (List.mem_map_of_mem mem)
  rw [script_eq, earlier_append present] at dMem
  rcases List.mem_append.mp (mem_of_mem_earlier dMem) with mem' | mem'
  · exact Or.inl mem'
  · obtain ⟨j, jMem, rfl⟩ := List.mem_map.mp mem'
    exact Or.inr ⟨j, jMem, rfl⟩

theorem pending_before_copyIn {i : Nat} {d : Command CloneTag (A → UInt8)}
    (dMem : d ∈ L.pending) :
    d ∈ earlier (L.pending ++ enqueues L.launchOps) (.copyIn i) := by
  rw [earlier, List.takeWhile_append_of_pos]
  · exact List.mem_append_left _ dMem
  · intro c mem
    obtain ⟨n, same⟩ := L.isPending c mem
    simp [same]

theorem orderly_script : Orderly (L.pending ++ enqueues L.launchOps) := by
  intro c mem t wait
  have inPending : ∀ t, t ∈ L.pending.map Command.tag → ∀ tag, tag ∉ L.pending.map Command.tag →
      t ∈ (earlier (L.pending ++ enqueues L.launchOps) tag).map Command.tag := by
    intro t tMem tag absent
    rw [earlier, List.takeWhile_append_of_pos]
    · rw [List.map_append]
      exact List.mem_append_left _ tMem
    · intro d dMem
      have other : d.tag ≠ tag := fun same => absent (same ▸ List.mem_map_of_mem dMem)
      simpa using other
  rw [script_eq] at mem
  rcases List.mem_append.mp mem with mem | mem
  · rcases List.mem_append.mp mem with mem | mem
    · rw [earlier_pending (List.mem_map_of_mem mem)]
      exact L.orderly c mem t wait
    · obtain ⟨i, -, rfl⟩ := List.mem_map.mp mem
      simp [copyIn] at wait
  · rcases List.mem_cons.mp mem with rfl | mem
    · apply inPending t (L.waits t wait)
      intro isPending
      obtain ⟨n, same⟩ := pending_of_tag isPending
      simp [kernel] at same
    · obtain ⟨i, -, rfl⟩ := List.mem_map.mp mem
      simp [copyBack] at wait

theorem supplied_ops : Supplied L.pending L.launchOps := by
  intro l tags l' split t tMem
  have last : L.launchOps = (L.createPoisonedKernelOps ++ L.runNDRangeKernelOps L.clonePlace ++
      (.finish L.queue :: (L.replaced.map L.copyBack).map .enqueue)) ++
        [.waitFor (L.replaced.map .copyBack)] := by
    rw [launchOps, copyKernelBuffersOps]
    simp
  have noWait : ∀ ts, HostOp.waitFor ts ∉ L.createPoisonedKernelOps ++
      L.runNDRangeKernelOps L.clonePlace ++
        (.finish L.queue :: (L.replaced.map L.copyBack).map .enqueue) := by
    intro ts
    simp [createPoisonedKernelOps, runNDRangeKernelOps]
  rw [last] at split
  rcases consumed_snoc split with ⟨same, rfl, -⟩ | ⟨l'', before⟩
  · obtain rfl := HostOp.waitFor.inj same
    obtain ⟨i, iMem, rfl⟩ := List.mem_map.mp tMem
    apply List.mem_map.mpr
    refine ⟨L.copyBack i, ?_, rfl⟩
    simp [createPoisonedKernelOps, runNDRangeKernelOps, -List.map_map]
    exact Or.inr (Or.inr (Or.inr ⟨i, iMem, rfl⟩))
  · exact absurd (by rw [before]; simp) (noWait tags)

/-! ## The order of the copies -/

/-- The start of the launch is lawful, and so is what follows. -/
theorem lawful {memory : A → UInt8} {m : Machine CloneTag (A → UInt8)}
    (runs : Runs L.inOrder (begin memory L.pending L.launchOps) m) :
    Lawful L.inOrder L.pending L.launchOps m :=
  (lawful_begin L.inOrder memory L.pending L.launchOps).of_runs distinct_script runs

theorem ahead_pending {t : CloneTag} (ahead : L.Ahead t) : t ∈ L.pending.map Command.tag := by
  induction ahead with
  | enqueued _ mem _ => exact List.mem_map_of_mem mem
  | @needed t p _ needs _ =>
      obtain ⟨c, cMem, rfl, wait | ⟨-, d, dMem, -, rfl⟩⟩ := needs
      · obtain ⟨d, dMem, rfl⟩ := List.mem_map.mp (L.orderly c cMem p wait)
        exact List.mem_map_of_mem (mem_of_mem_earlier dMem)
      · exact List.mem_map_of_mem (mem_of_mem_earlier dMem)

/-- A command ahead of the launch is done before every copy into a replacement. -/
theorem ahead_before_copyIn {m : Machine CloneTag (A → UInt8)}
    (ok : Lawful L.inOrder L.pending L.launchOps m) {i : Nat} (mem : i ∈ L.replaced)
    (copied : .copyIn i ∈ m.done) {t : CloneTag} (ahead : L.Ahead t) :
    [.copyIn i, t].Sublist m.done := by
  induction ahead with
  | @enqueued c ordered cMem onQueue =>
      apply ok.ordered _ _ copied
      refine ⟨L.copyIn i, ?_, rfl, Or.inr ⟨ordered, c, pending_before_copyIn cMem, onQueue, rfl⟩⟩
      rw [script_eq]
      exact List.mem_append_left _ (List.mem_append_right _ (List.mem_map_of_mem mem))
  | @needed t p ahead needs ih =>
      have done : t ∈ m.done := ih.subset (by simp)
      have before := ok.ordered t p done ((needs_pending (ahead_pending ahead)).mpr needs)
      exact sublist_trans_pair ok.once ih before

/-- When the launch has returned, everything was copied. -/
theorem copyIn_done {m : Machine CloneTag (A → UInt8)}
    (ok : Lawful L.inOrder L.pending L.launchOps m) (host : m.host = []) {i : Nat}
    (mem : i ∈ L.replaced) : .copyIn i ∈ m.done := by
  have split : L.launchOps = (L.replaced.map L.copyIn).map .enqueue ++ .finish L.queue ::
      (L.runNDRangeKernelOps L.clonePlace ++ L.copyKernelBuffersOps) := by
    rw [launchOps, createPoisonedKernelOps]
    simp
  apply ok.returned host split (L.copyIn i) _ rfl
  rw [enqueues_map]
  exact List.mem_append_right _ (List.mem_map_of_mem mem)

/-- A schedule that makes the copies as early as the queue allows: only what is
ahead of the launch is done before them. -/
theorem exists_early_copies (memory : A → UInt8) :
    ∃ m, Runs L.inOrder (begin memory L.pending L.launchOps) m ∧
      (∀ i ∈ L.replaced, .copyIn i ∈ m.done) ∧
      ∀ t ∈ m.done, L.Ahead t ∨ ∃ i ∈ L.replaced, t = .copyIn i := by
  have hosted : (begin memory L.pending L.launchOps).host =
      (L.replaced.map L.copyIn).map .enqueue ++ (.finish L.queue ::
        (L.runNDRangeKernelOps L.clonePlace ++ L.copyKernelBuffersOps)) := by
    rw [begin, launchOps, createPoisonedKernelOps]
    simp
  have enqueuing : Runs L.inOrder (begin memory L.pending L.launchOps) _ :=
    runs_enqueue (L.replaced.map L.copyIn) hosted
  have closed : ∀ t needed, (L.Ahead t ∨ ∃ i ∈ L.replaced, t = .copyIn i) →
      Needs L.inOrder (L.pending ++ enqueues L.launchOps) t needed →
      (L.Ahead needed ∨ ∃ i ∈ L.replaced, needed = .copyIn i) := by
    rintro t needed (ahead | ⟨i, mem, rfl⟩) needs
    · exact Or.inl (.needed ahead ((needs_pending (ahead_pending ahead)).mp needs))
    · obtain ⟨c, cMem, named, cause⟩ := needs
      have here : L.copyIn i ∈ L.pending ++ enqueues L.launchOps := by
        rw [script_eq]
        exact List.mem_append_left _ (List.mem_append_right _ (List.mem_map_of_mem mem))
      obtain rfl := eq_of_tag distinct_script cMem here named
      rcases cause with wait | ⟨ordered, d, dMem, onQueue, rfl⟩
      · simp [copyIn] at wait
      · rcases earlier_copyIn mem dMem with isPending | ⟨j, jMem, rfl⟩
        · exact Or.inl (.enqueued ordered isPending onQueue)
        · exact Or.inr ⟨j, jMem, rfl⟩
  obtain ⟨m, runs, -, -, all, only, -⟩ :=
    (lawful enqueuing).run_closed distinct_script orderly_script closed
  refine ⟨m, enqueuing.trans runs, fun i mem => ?_, fun t mem => ?_⟩
  · apply all (L.copyIn i) _ (Or.inr ⟨i, mem, rfl⟩)
    exact List.mem_append_right _ (List.mem_map_of_mem mem)
  · exact (only t mem).resolve_left (by simp [begin])

/-- If a launch respects its dependencies, its writers are ahead of it. -/
theorem ahead_of_respects (respects : L.Respects) {c : Command CloneTag (A → UInt8)}
    (mem : c ∈ L.pending) (waited : c.tag ∈ L.waitList) {i : Nat} (iMem : i ∈ L.replaced)
    (writes : L.WritesArg c i) : L.Ahead c.tag := by
  obtain ⟨m, runs, copied, only⟩ := exists_early_copies (L := L) fun _ => 0
  obtain ⟨final, runs', host, -⟩ :=
    (lawful runs).completes distinct_script orderly_script supplied_ops
  have before := (respects _ final (runs.trans runs') host).1 c mem waited i iMem writes
  obtain ⟨later, split⟩ := runs'.done_suffix
  have once := (lawful (runs.trans runs')).once
  rw [← split] at before once
  have inside : c.tag ∈ m.done := by
    obtain ⟨l, l', same, outer, inner⟩ := List.sublist_append_iff.mp before
    cases l with
    | nil =>
        rw [List.nil_append] at same
        rw [← same] at inner
        exact inner.subset (by simp)
    | cons x l =>
        obtain ⟨rfl, -⟩ := List.cons.inj same
        exact absurd rfl ((List.nodup_append.mp once).2.2 _ (outer.subset List.mem_cons_self) _
          (copied i iMem))
  obtain ⟨n, named⟩ := L.isPending c mem
  rcases only c.tag inside with ahead | ⟨j, -, same⟩
  · exact ahead
  · rw [named] at same
    contradiction

/-! ## Simulation of the native launch -/

omit [DecidableEq A] in
/-- Ignoring two sets of cells is ignoring both at once. -/
theorem ignores_union {c : Command CloneTag (A → UInt8)} {X Y : Set A} (ignoresX : Ignores c X)
    (ignoresY : Ignores c Y) : Ignores c (X ∪ Y) where
  keeps m a mem := by
    rcases mem with inX | inY
    · exact ignoresX.keeps m a inX
    · exact ignoresY.keeps m a inY
  unread m m' agree a outside := by
    classical
    -- the memory that has the cells of `X` from `m'` and all others from `m`
    have viaX : c.body m a = c.body (fun b => if b ∈ X then m' b else m b) a :=
      ignoresX.unread m _ (fun b out => (if_neg out).symm) a fun inX => outside (Or.inl inX)
    have viaY : c.body (fun b => if b ∈ X then m' b else m b) a = c.body m' a := by
      refine ignoresY.unread _ m' (fun b out => ?_) a fun inY => outside (Or.inr inY)
      by_cases inX : b ∈ X
      · exact if_pos inX
      · rw [if_neg inX]
        exact agree b fun mem => mem.elim inX out
    exact viaX.trans viaY

/-- The kernel runs after the copies and after its wait list. -/
theorem kernel_done {m : Machine CloneTag (A → UInt8)}
    (ok : Lawful L.inOrder L.pending L.launchOps m) (done : .kernel ∈ m.done) :
    (∀ i ∈ L.replaced, .copyIn i ∈ m.done) ∧ ∀ t ∈ L.waitList, t ∈ m.done := by
  constructor
  · intro i mem
    have split : L.launchOps = (L.replaced.map L.copyIn).map .enqueue ++ .finish L.queue ::
        (L.runNDRangeKernelOps L.clonePlace ++ L.copyKernelBuffersOps) := by
      rw [launchOps, createPoisonedKernelOps]
      simp
    have follows : L.kernel L.clonePlace ∈
        enqueues (L.runNDRangeKernelOps L.clonePlace ++ L.copyKernelBuffersOps) := by
      simp [runNDRangeKernelOps]
    apply ok.finished distinct_script split follows done (L.copyIn i) _ rfl
    rw [enqueues_map]
    exact List.mem_append_right _ (List.mem_map_of_mem mem)
  · intro t wait
    have needs : Needs L.inOrder (L.pending ++ enqueues L.launchOps) .kernel t := by
      refine ⟨L.kernel L.clonePlace, ?_, rfl, Or.inl wait⟩
      rw [script_eq]
      simp
    exact (ok.ordered _ _ done needs).subset (by simp)

/-- The copies back are made after the kernel. -/
theorem copyBack_done {m : Machine CloneTag (A → UInt8)}
    (ok : Lawful L.inOrder L.pending L.launchOps m) {i : Nat} (mem : i ∈ L.replaced)
    (done : .copyBack i ∈ m.done) : .kernel ∈ m.done := by
  have split : L.launchOps =
      (L.createPoisonedKernelOps ++ L.runNDRangeKernelOps L.clonePlace) ++ .finish L.queue ::
        ((L.replaced.map L.copyBack).map .enqueue ++ [.waitFor (L.replaced.map .copyBack)]) := by
    rw [launchOps, copyKernelBuffersOps]
    rfl
  have follows : L.copyBack i ∈ enqueues ((L.replaced.map L.copyBack).map .enqueue ++
      [.waitFor (L.replaced.map .copyBack)]) := by
    rw [enqueues_append, enqueues_map]
    exact List.mem_append_left _ (List.mem_map_of_mem mem)
  apply ok.finished distinct_script split follows done (L.kernel L.clonePlace) _ rfl
  simp [runNDRangeKernelOps]

/-- A native run in step with the launch.  Until the kernel runs the memories
agree on what the application knows, and what was copied into a replacement is
still up to date; afterwards the replacements hold what the native run has in the
arguments, and the memories agree outside the arguments that wait for their copy. -/
structure Follows (L : CloneLaunch A) (memory : A → UInt8)
    (s n : Machine CloneTag (A → UInt8)) : Prop where
  runs : Runs L.inOrder (begin memory L.pending L.nativeOps) n
  host : n.host = []
  enqueued : n.enqueued = L.pending ++ [L.kernel L.place]
  done : n.done = s.done.filter isNative
  before : .kernel ∉ s.done → ∀ a ∉ L.cloneCells, s.memory a = n.memory a
  copied : .kernel ∉ s.done → ∀ i ∈ L.replaced, .copyIn i ∈ s.done → ∀ o < L.size i,
    s.memory (L.clone i o) = s.memory (L.place i o)
  after : .kernel ∈ s.done → ∀ a ∉ L.cloneCells,
    (∀ i ∈ L.replaced, .copyBack i ∉ s.done → ∀ o < L.size i, L.place i o ≠ a) →
      s.memory a = n.memory a
  results : .kernel ∈ s.done → ∀ i ∈ L.replaced, ∀ o < L.size i,
    s.memory (L.clone i o) = n.memory (L.place i o)

theorem follows_begin (memory : A → UInt8) :
    ∃ n, L.Follows memory (begin memory L.pending L.launchOps) n := by
  have first : Runs L.inOrder (begin memory L.pending L.nativeOps)
      ⟨memory, L.pending ++ [L.kernel L.place], [], []⟩ :=
    Run.Reach.refl.tail (a := .host) trivial rfl
  refine ⟨_, first, rfl, rfl, rfl, fun _ _ _ => rfl, ?_, ?_, ?_⟩
  · intro _ i _ copied
    simp [begin] at copied
  · intro kernel
    simp [begin] at kernel
  · intro kernel
    simp [begin] at kernel

/-- The places of different arguments, and those of the replacements. -/
theorem place_not_clone {i : Nat} {o : Nat} (oLt : o < L.size i) : L.place i o ∉ L.cloneCells := by
  rintro ⟨j, mem, o', o'Lt, same⟩
  exact L.cloneFresh j mem i o' o o'Lt oLt same

/-- The clone's arguments alias as the original ones do. -/
theorem sameAliasing (free : L.RaceFree) :
    Program.SameAliasing L.size L.place L.clonePlace := by
  intro i o j o' oLt o'Lt
  have sizes : ∀ i, L.size (firstUse L.args i) = L.size i := fun i => (L.shared i).2
  constructor
  · intro same
    obtain ⟨first, rfl⟩ := free.apart i j o o' oLt o'Lt same
    rw [clonePlace, clonePlace, first]
    split_ifs
    · rfl
    · exact same
  · intro same
    rw [clonePlace, clonePlace] at same
    split_ifs at same with iMem jMem jMem
    · obtain ⟨first, rfl⟩ := L.cloneApart _ iMem _ jMem o o' (by rwa [sizes]) (by rwa [sizes]) same
      rw [← (L.shared i).1, ← (L.shared j).1, first]
    · exact absurd same (L.cloneFresh _ iMem j o o' (by rwa [sizes]) o'Lt)
    · exact absurd same.symm (L.cloneFresh _ jMem i o' o (by rwa [sizes]) oLt)
    · exact same

section Simulation

variable {memory : A → UInt8} {s s' n : Machine CloneTag (A → UInt8)} {i : Nat}

/-- The condition of the launch: every writer of a replaced argument that the
launch waits for is ahead of it. -/
def WritersAhead (L : CloneLaunch A) : Prop :=
  ∀ c ∈ L.pending, c.tag ∈ L.waitList → ∀ i ∈ L.replaced, L.WritesArg c i → L.Ahead c.tag

theorem native_distinct : ((L.pending ++ [L.kernel L.place]).map Command.tag).Nodup := by
  rw [List.map_append]
  apply List.Nodup.append L.distinct (List.nodup_singleton _)
  intro t mem mem'
  obtain ⟨n, rfl⟩ := pending_of_tag mem
  simp [kernel] at mem'

theorem pending_native {t : CloneTag} (mem : t ∈ L.pending.map Command.tag) :
    isNative t = true := by
  obtain ⟨n, rfl⟩ := pending_of_tag mem
  rfl

/-- A pending command executes in both runs. -/
theorem Follows.pending (follows : L.Follows memory s n) (free : L.RaceFree)
    (ahead : L.WritersAhead) (ok : Lawful L.inOrder L.pending L.launchOps s)
    {c : Command CloneTag (A → UInt8)} (mem : c ∈ L.pending) (ready : Ready L.inOrder s c) :
    ∃ n', L.Follows memory
      { s with memory := c.body s.memory, done := c.tag :: s.done } n' := by
  obtain ⟨new, waits, behind⟩ := ready
  have tagged : c.tag ∈ L.pending.map Command.tag := List.mem_map_of_mem mem
  have notKernel : .kernel ≠ c.tag := by
    obtain ⟨k, same⟩ := pending_of_tag tagged
    rw [same]
    simp
  obtain ⟨consumed, -, enqueued, -⟩ := ok.consumed
  have inNative : ∀ t ∈ L.pending.map Command.tag, t ∈ s.done → t ∈ n.done := by
    intro t tMem done
    rw [follows.done]
    exact List.mem_filter.mpr ⟨done, pending_native tMem⟩
  have nReady : Ready L.inOrder n c := by
    refine ⟨fun done => ?_, fun t wait => ?_, fun ordered d dMem onQueue => ?_⟩
    · rw [follows.done] at done
      exact new (List.mem_filter.mp done).1
    · obtain ⟨d, dMem, rfl⟩ := List.mem_map.mp (L.orderly c mem t wait)
      exact inNative _ (List.mem_map_of_mem (mem_of_mem_earlier dMem)) (waits _ wait)
    · rw [follows.enqueued, earlier_append tagged] at dMem
      apply inNative _ (List.mem_map_of_mem (mem_of_mem_earlier dMem))
      apply behind ordered d _ onQueue
      rw [enqueued, earlier_append tagged]
      exact dMem
  have nMem : c ∈ n.enqueued := by
    rw [follows.enqueued]
    exact List.mem_append_left _ mem
  have nStep := execute_ready (by rw [follows.enqueued]; exact native_distinct) nMem nReady
  have unaware : Ignores c L.cloneCells := L.unaware c mem
  have exclusive : .kernel ∈ s.done → Ignores c L.argCells := by
    intro ran
    apply free.exclusive c mem
    intro waited
    exact new ((kernel_done ok ran).2 _ waited)
  refine ⟨_, follows.runs.tail trivial nStep, follows.host, follows.enqueued, ?_, ?_, ?_, ?_, ?_⟩
  · dsimp only
    rw [follows.done, List.filter_cons_of_pos (pending_native tagged)]
  · intro ran a outside
    have notYet : .kernel ∉ s.done := fun done => ran (List.mem_cons_of_mem _ done)
    exact unaware.unread _ _ (follows.before notYet) a outside
  · intro ran i iMem copied o oLt
    have notYet : .kernel ∉ s.done := fun done => ran (List.mem_cons_of_mem _ done)
    have copied' : .copyIn i ∈ s.done := by
      rcases List.mem_cons.mp copied with same | copied
      · obtain ⟨k, named⟩ := pending_of_tag tagged
        rw [named] at same
        contradiction
      · exact copied
    dsimp only
    have kept : c.body s.memory (L.place i o) = s.memory (L.place i o) := by
      by_contra changed
      by_cases waited : c.tag ∈ L.waitList
      · have isAhead := ahead c mem waited i iMem ⟨o, oLt, s.memory, changed⟩
        exact new ((ahead_before_copyIn ok iMem copied' isAhead).subset (by simp))
      · exact changed ((free.exclusive c mem waited).keeps _ _ ⟨i, o, oLt, rfl⟩)
    rw [kept, unaware.keeps _ _ ⟨i, iMem, o, oLt, rfl⟩]
    exact follows.copied notYet i iMem copied' o oLt
  · intro ran a outside settled
    have done : .kernel ∈ s.done := (List.mem_cons.mp ran).resolve_left notKernel
    have settled' : ∀ i ∈ L.replaced, .copyBack i ∉ s.done → ∀ o < L.size i, L.place i o ≠ a := by
      intro i iMem undone
      apply settled i iMem
      intro copied
      rcases List.mem_cons.mp copied with same | copied
      · obtain ⟨k, named⟩ := pending_of_tag tagged
        rw [named] at same
        contradiction
      · exact undone copied
    by_cases inArgs : a ∈ L.argCells
    · dsimp only
      rw [(exclusive done).keeps _ a inArgs, (exclusive done).keeps _ a inArgs]
      exact follows.after done a outside settled'
    · apply (ignores_union unaware (exclusive done)).unread
      · intro b out
        rw [Set.mem_union, not_or] at out
        apply follows.after done b out.1
        rintro i - - o oLt rfl
        exact out.2 ⟨i, o, oLt, rfl⟩
      · rintro (inClones | inArgs')
        · exact outside inClones
        · exact inArgs inArgs'
  · intro ran i iMem o oLt
    have done : .kernel ∈ s.done := (List.mem_cons.mp ran).resolve_left notKernel
    dsimp only
    rw [unaware.keeps _ _ ⟨i, iMem, o, oLt, rfl⟩, (exclusive done).keeps _ _ ⟨i, o, oLt, rfl⟩]
    exact follows.results done i iMem o oLt

/-- A copy into a replacement. -/
theorem Follows.copyIn (follows : L.Follows memory s n)
    (ok : Lawful L.inOrder L.pending L.launchOps s) {i : Nat} (mem : i ∈ L.replaced)
    (ready : Ready L.inOrder s (L.copyIn i)) :
    L.Follows memory { s with
      memory := (L.copyIn i).body s.memory, done := .copyIn i :: s.done } n := by
  have notYet : .kernel ∉ s.done := fun done => ready.1 ((kernel_done ok done).1 i mem)
  obtain ⟨copies, others⟩ := copyCells_spec (L.place i) (L.clone i) s.memory
    fun o o' oLt o'Lt same => (L.cloneApart i mem i mem o o' oLt o'Lt same).2
  have outsideKept : ∀ a ∉ L.cloneCells, (L.copyIn i).body s.memory a = s.memory a := by
    intro a outside
    apply others
    intro o oLt same
    exact outside ⟨i, mem, o, oLt, same⟩
  refine ⟨follows.runs, follows.host, follows.enqueued, ?_, ?_, ?_, ?_, ?_⟩
  · rw [follows.done, List.filter_cons_of_neg (by simp [isNative])]
  · intro _ a outside
    dsimp only
    rw [outsideKept a outside]
    exact follows.before notYet a outside
  · intro _ j jMem copied o oLt
    dsimp only
    rw [outsideKept _ (place_not_clone oLt)]
    by_cases same : j = i
    · subst same
      exact copies o oLt
    · have copied' : .copyIn j ∈ s.done := by
        rcases List.mem_cons.mp copied with equal | copied
        · exact absurd (CloneTag.copyIn.inj equal) same
        · exact copied
      have kept : (L.copyIn i).body s.memory (L.clone j o) = s.memory (L.clone j o) := by
        apply others
        intro o' o'Lt equal
        exact same (L.cloneApart i mem j jMem o' o o'Lt oLt equal).1.symm
      rw [kept]
      exact follows.copied notYet j jMem copied' o oLt
  · intro ran
    exact absurd ((List.mem_cons.mp ran).resolve_left (by simp)) notYet
  · intro ran
    exact absurd ((List.mem_cons.mp ran).resolve_left (by simp)) notYet

/-- The kernel runs on the replacements and natively on the arguments. -/
theorem Follows.kernel (follows : L.Follows memory s n) (free : L.RaceFree)
    (ok : Lawful L.inOrder L.pending L.launchOps s)
    (ok' : Lawful L.inOrder L.pending L.launchOps
      { s with memory := (L.kernel L.clonePlace).body s.memory, done := .kernel :: s.done })
    (ready : Ready L.inOrder s (L.kernel L.clonePlace)) :
    ∃ n', L.Follows memory
      { s with memory := (L.kernel L.clonePlace).body s.memory, done := .kernel :: s.done } n' := by
  obtain ⟨notYet, waits, behind⟩ := ready
  obtain ⟨copied, -⟩ := kernel_done ok' List.mem_cons_self
  obtain ⟨consumed, -, enqueued, -⟩ := ok.consumed
  have unnamed : ∀ d ∈ L.pending, d.tag ≠ .kernel := by
    intro d mem same
    obtain ⟨k, named⟩ := L.isPending d mem
    rw [named] at same
    contradiction
  have nReady : Ready L.inOrder n (L.kernel L.place) := by
    refine ⟨fun done => ?_, fun t wait => ?_, fun ordered d dMem onQueue => ?_⟩
    · rw [follows.done] at done
      exact notYet (List.mem_filter.mp done).1
    · rw [follows.done]
      exact List.mem_filter.mpr ⟨waits t wait, pending_native (L.waits t wait)⟩
    · have dPending : d ∈ L.pending := by
        rw [follows.enqueued] at dMem
        have split : earlier (L.pending ++ [L.kernel L.place]) (L.kernel L.place).tag = L.pending :=
          earlier_split unnamed
        rwa [split] at dMem
      rw [follows.done]
      refine List.mem_filter.mpr ⟨behind ordered d ?_ onQueue,
        pending_native (List.mem_map_of_mem dPending)⟩
      rw [enqueued, earlier, List.takeWhile_append_of_pos]
      · exact List.mem_append_left _ dPending
      · intro e eMem
        exact decide_eq_true (unnamed e eMem)
  have nMem : L.kernel L.place ∈ n.enqueued := by
    rw [follows.enqueued]
    simp
  have nStep := execute_ready (by rw [follows.enqueued]; exact native_distinct) nMem nReady
  have sizes : ∀ i, L.size (firstUse L.args i) = L.size i := fun i => (L.shared i).2
  have agree : Program.Agree L.size L.place L.clonePlace n.memory s.memory := by
    intro i o oLt
    rw [← follows.before notYet _ (place_not_clone oLt), clonePlace]
    split_ifs with mem
    · have held := follows.copied notYet _ mem ((List.mem_cons.mp (copied _ mem)).resolve_left
        (by simp)) o (by rwa [sizes])
      rw [held, (L.shared i).1]
    · rfl
  obtain ⟨inBounds, agree'⟩ :=
    Program.exec_agree (sameAliasing free) agree (free.inBounds n.memory)
  refine ⟨_, follows.runs.tail trivial nStep, follows.host, follows.enqueued, ?_, ?_, ?_, ?_, ?_⟩
  · dsimp only
    rw [follows.done, List.filter_cons_of_pos (by rfl)]
    rfl
  · intro absent
    exact absurd List.mem_cons_self absent
  · intro absent
    exact absurd List.mem_cons_self absent
  · intro _ a outside settled
    have fresh : ∀ i ∈ L.replaced, ∀ o < L.size i, L.place i o ≠ a := by
      intro i mem
      apply settled i mem
      intro done
      have early := (List.mem_cons.mp done).resolve_left (by simp)
      exact notYet (copyBack_done ok mem early)
    by_cases named : ∃ i, ∃ o < L.size i, L.place i o = a
    · obtain ⟨i, o, oLt, rfl⟩ := named
      have kept : firstUse L.args i ∉ L.replaced := by
        intro mem
        exact fresh _ mem o (by rwa [sizes]) (by rw [(L.shared i).1])
      have same := agree' i o oLt
      rw [clonePlace, if_neg kept] at same
      exact same.symm
    · have unnamedNative : ∀ i o, o < L.size i → L.place i o ≠ a :=
        fun i o oLt same => named ⟨i, o, oLt, same⟩
      have unnamedClone : ∀ i o, o < L.size i → L.clonePlace i o ≠ a := by
        intro i o oLt
        rw [clonePlace]
        split_ifs with mem
        · exact fun same => outside ⟨_, mem, o, by rwa [sizes], same⟩
        · exact unnamedNative i o oLt
      have native := Program.exec_frame (free.inBounds n.memory) unnamedNative
      have cloned := Program.exec_frame inBounds unnamedClone
      dsimp only [CloneLaunch.kernel]
      rw [native, cloned]
      exact follows.before notYet a outside
  · intro _ i mem o oLt
    have same := agree' i o oLt
    have first : firstUse L.args i = i := firstUse_of_replaced mem
    rw [clonePlace, first, if_pos mem] at same
    exact same.symm

/-- A copy back into an argument. -/
theorem Follows.copyBack (follows : L.Follows memory s n) (free : L.RaceFree)
    (ok' : Lawful L.inOrder L.pending L.launchOps
      { s with memory := (L.copyBack i).body s.memory, done := .copyBack i :: s.done })
    (mem : i ∈ L.replaced) :
    L.Follows memory { s with
      memory := (L.copyBack i).body s.memory, done := .copyBack i :: s.done } n := by
  have ran : .kernel ∈ s.done :=
    (List.mem_cons.mp (copyBack_done ok' mem List.mem_cons_self)).resolve_left (by simp)
  obtain ⟨copies, others⟩ := copyCells_spec (L.clone i) (L.place i) s.memory
    fun o o' oLt o'Lt same => (free.apart i i o o' oLt o'Lt same).2
  refine ⟨follows.runs, follows.host, follows.enqueued, ?_, ?_, ?_, ?_, ?_⟩
  · rw [follows.done, List.filter_cons_of_neg (by simp [isNative])]
  · intro absent
    exact absurd (List.mem_cons_of_mem _ ran) absent
  · intro absent
    exact absurd (List.mem_cons_of_mem _ ran) absent
  · intro _ a outside settled
    by_cases inside : ∃ o < L.size i, L.place i o = a
    · obtain ⟨o, oLt, rfl⟩ := inside
      exact (copies o oLt).trans (follows.results ran i mem o oLt)
    · have kept : (L.copyBack i).body s.memory a = s.memory a :=
        others a fun o oLt same => inside ⟨o, oLt, same⟩
      dsimp only
      rw [kept]
      apply follows.after ran a outside
      intro j jMem undone o oLt
      by_cases same : j = i
      · subst same
        exact fun equal => inside ⟨o, oLt, equal⟩
      · apply settled j jMem _ o oLt
        intro copied
        rcases List.mem_cons.mp copied with equal | copied
        · exact same (CloneTag.copyBack.inj equal)
        · exact undone copied
  · intro _ j jMem o oLt
    have kept : (L.copyBack i).body s.memory (L.clone j o) = s.memory (L.clone j o) := by
      apply others
      intro o' o'Lt same
      exact L.cloneFresh j jMem i o o' oLt o'Lt same.symm
    dsimp only
    rw [kept]
    exact follows.results ran j jMem o oLt

/-- Every step of the launch is followed by the native run. -/
theorem follows_of_runs (free : L.RaceFree) (ahead : L.WritersAhead)
    (runs : Runs L.inOrder (begin memory L.pending L.launchOps) s) :
    ∃ n, L.Follows memory s n := by
  induction runs with
  | refl => exact follows_begin memory
  | @tail s t move runs _ stepped ih =>
      obtain ⟨n, follows⟩ := ih
      have ok := lawful runs
      have ok' := lawful (runs.tail trivial stepped)
      cases move with
      | host =>
          have frame : t.memory = s.memory ∧ t.done = s.done := by
            rw [step, hostStep] at stepped
            split at stepped
            · contradiction
            · rw [← Option.some.inj stepped]
              exact ⟨rfl, rfl⟩
            · split_ifs at stepped
              rw [← Option.some.inj stepped]
              exact ⟨rfl, rfl⟩
            · split_ifs at stepped
              rw [← Option.some.inj stepped]
              exact ⟨rfl, rfl⟩
          obtain ⟨sameMemory, sameDone⟩ := frame
          obtain ⟨h₁, h₂, h₃, h₄, h₅, h₆, h₇, h₈⟩ := follows
          rw [← sameMemory, ← sameDone] at h₅ h₆ h₇ h₈
          rw [← sameDone] at h₄
          exact ⟨n, h₁, h₂, h₃, h₄, h₅, h₆, h₇, h₈⟩
      | execute tag =>
          obtain ⟨c, mem, -, ready, rfl⟩ := execute_eq_some stepped
          have inScript := ok.mem_script mem
          rw [script_eq] at inScript
          rcases List.mem_append.mp inScript with inScript | inScript
          · rcases List.mem_append.mp inScript with isPending | isCopy
            · exact follows.pending free ahead ok isPending ready
            · obtain ⟨i, iMem, rfl⟩ := List.mem_map.mp isCopy
              exact ⟨n, follows.copyIn ok iMem ready⟩
          · rcases List.mem_cons.mp inScript with rfl | isCopy
            · exact follows.kernel free ok ok' ready
            · obtain ⟨i, iMem, rfl⟩ := List.mem_map.mp isCopy
              exact ⟨n, follows.copyBack free ok' iMem⟩

/-- When the launch has returned, the memories agree on everything the
application knows. -/
theorem noLostUpdate (ahead : L.WritersAhead)
    (runs : Runs L.inOrder (begin memory L.pending L.launchOps) s) (host : s.host = []) :
    L.NoLostUpdate memory s := by
  intro free
  obtain ⟨n, follows⟩ := follows_of_runs free ahead runs
  have ok := lawful runs
  have copiedBack : ∀ i ∈ L.replaced, .copyBack i ∈ s.done := by
    intro i mem
    have split : L.launchOps = (L.createPoisonedKernelOps ++ L.runNDRangeKernelOps L.clonePlace ++
        (.finish L.queue :: (L.replaced.map L.copyBack).map .enqueue)) ++
          .waitFor (L.replaced.map .copyBack) :: [] := by
      rw [launchOps, copyKernelBuffersOps]
      simp
    exact ok.awaited host split _ (List.mem_map_of_mem mem)
  refine ⟨n, follows.runs, follows.host, follows.done, fun a outside => ?_⟩
  by_cases ran : .kernel ∈ s.done
  · exact follows.after ran a outside fun i mem undone => absurd (copiedBack i mem) undone
  · exact follows.before ran a outside

end Simulation

/-- A cloned launch respects its dependencies in every order exactly when every
command of its wait list that writes into a replaced argument is ahead of it on
its queue. -/
theorem respects_iff : L.Respects ↔ L.WritersAhead := by
  constructor
  · intro respects c mem waited i iMem writes
    exact ahead_of_respects respects mem waited iMem writes
  · intro ahead memory m runs host
    refine ⟨fun c mem waited i iMem writes => ?_, noLostUpdate ahead runs host⟩
    exact ahead_before_copyIn (lawful runs) iMem (copyIn_done (lawful runs) host iMem)
      (ahead c mem waited i iMem writes)

/-- A kernel with one argument of one byte, in the application's memory, and a
pending command on a queue that writes 5 there. -/
def oneByte (queue : Nat) : CloneLaunch Nat where
  args := [⟨0, 8, some 1, some { handle := 1, size := 1, refCount := 1 }, none⟩]
  queue := 1
  inOrder := fun _ => true
  pending := [⟨.pending 0, queue, [], fun m => Function.update m 0 5⟩]
  waitList := [.pending 0]
  place := fun _ o => o
  size := fun i => if i = 0 then 1 else 0
  clone := fun _ o => o + 1
  prog := .done
  cloned := rfl
  isPending c mem := ⟨0, by rw [List.mem_singleton.mp mem]⟩
  distinct := List.nodup_singleton _
  orderly c mem t wait := by
    rw [List.mem_singleton.mp mem] at wait
    contradiction
  waits t mem := mem
  shared i := by
    refine ⟨rfl, ?_⟩
    cases i with
    | zero => rfl
    | succ i => rfl
  cloneApart i iMem j jMem o o' oLt o'Lt same := by
    have first : i = 0 := by
      have short := List.mem_range.mp (List.mem_filter.mp iMem).1
      simpa using short
    have second : j = 0 := by
      have short := List.mem_range.mp (List.mem_filter.mp jMem).1
      simpa using short
    exact ⟨first.trans second.symm, Nat.succ.inj same⟩
  cloneFresh i iMem j o o' oLt o'Lt same := by
    split_ifs at o'Lt <;> omega
  unaware c mem := by
    rw [List.mem_singleton.mp mem]
    constructor
    · rintro m a ⟨i, iMem, o, oLt, rfl⟩
      exact Function.update_of_ne (Nat.succ_ne_zero o) 5 m
    · intro m m' agree a outside
      dsimp only
      by_cases here : a = 0
      · rw [here, Function.update_self, Function.update_self]
      · rw [Function.update_of_ne here, Function.update_of_ne here]
        exact agree a outside

/-- On the launch's own queue the pending write comes first. -/
theorem respects_iff_sameQueue : (oneByte 1).Respects := by
  apply respects_iff.mpr
  intro c mem waited i iMem writes
  refine .enqueued rfl mem ?_
  rw [List.mem_singleton.mp mem]
  rfl

/-- On another queue the write can fall between the copies, and the copy back
overwrites it. -/
theorem not_respects_otherQueue :
    (∃ m,
      Runs (oneByte 2).inOrder (begin (fun _ => 0) (oneByte 2).pending (oneByte 2).launchOps) m ∧
        m.host = [] ∧ m.done = [.copyBack 0, .kernel, .pending 0, .copyIn 0] ∧ m.memory 0 = 0) ∧
    ¬ (oneByte 2).Respects := by
  have run : Runs (oneByte 2).inOrder
      (begin (fun _ => 0) (oneByte 2).pending (oneByte 2).launchOps) _ :=
    ((((((((((Run.Reach.refl.tail (a := .host) trivial rfl).tail (a := .execute (.copyIn 0)) trivial
      rfl).tail (a := .host) trivial rfl).tail (a := .host) trivial rfl).tail
      (a := .execute (.pending 0)) trivial rfl).tail (a := .execute .kernel) trivial rfl).tail
      (a := .host) trivial rfl).tail (a := .host) trivial rfl).tail
      (a := .execute (.copyBack 0)) trivial rfl).tail (a := .host) trivial rfl)
  refine ⟨⟨_, run, rfl, rfl, rfl⟩, fun respects => ?_⟩
  have included := (respects _ _ run rfl).1 _ List.mem_cons_self List.mem_cons_self 0 (by decide)
    ⟨0, Nat.one_pos, fun _ => 0, by decide⟩
  exact absurd included (by decide)

end CloneLaunch

end Clarmor
