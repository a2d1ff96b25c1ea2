import Clarmor.Library.Run

/-!
# Command queues

A host program enqueues commands and waits for them; a device executes commands
that are enqueued, each as soon as what it needs is done.  A command needs the
commands in its wait list and, on a queue that keeps its order, all commands
enqueued there before it.  Host and device take turns in any order.
-/

namespace Clarmor.Queues

open Run

universe u v

/-- A command changes the memory. -/
structure Command (τ : Type u) (M : Type v) where
  tag : τ
  queue : Nat
  waits : List τ
  body : M → M

/-- What a host program does. -/
inductive HostOp (τ : Type u) (M : Type v) where
  | enqueue (c : Command τ M)
  | finish (queue : Nat)
  | waitFor (tags : List τ)

/-- The memory, what was enqueued in order, what is done, the latest first, and
what the host still has to do. -/
structure Machine (τ : Type u) (M : Type v) where
  memory : M
  enqueued : List (Command τ M)
  done : List τ
  host : List (HostOp τ M)

/-- The host does something, or a command executes. -/
inductive Move (τ : Type u) where
  | host
  | execute (tag : τ)

variable {τ : Type u} {M : Type v} [DecidableEq τ]

/-- The commands in a list before one. -/
def earlier (cs : List (Command τ M)) (tag : τ) : List (Command τ M) :=
  cs.takeWhile fun d => d.tag ≠ tag

/-- A command is not done, and all that it needs is. -/
def Ready (inOrder : Nat → Bool) (m : Machine τ M) (c : Command τ M) : Prop :=
  c.tag ∉ m.done ∧ (∀ t ∈ c.waits, t ∈ m.done) ∧
    (inOrder c.queue = true →
      ∀ d ∈ earlier m.enqueued c.tag, d.queue = c.queue → d.tag ∈ m.done)

instance (inOrder : Nat → Bool) (m : Machine τ M) (c : Command τ M) :
    Decidable (Ready inOrder m c) :=
  inferInstanceAs (Decidable (_ ∧ _ ∧ _))

/-- A step of the host. -/
def hostStep (m : Machine τ M) : Option (Machine τ M) :=
  match m.host with
  | [] => none
  | .enqueue c :: rest => some { m with enqueued := m.enqueued ++ [c], host := rest }
  | .finish queue :: rest =>
      if ∀ c ∈ m.enqueued, c.queue = queue → c.tag ∈ m.done then some { m with host := rest }
      else none
  | .waitFor tags :: rest =>
      if ∀ t ∈ tags, t ∈ m.done then some { m with host := rest } else none

/-- A step of host and device. -/
def step (inOrder : Nat → Bool) (m : Machine τ M) : Move τ → Option (Machine τ M)
  | .host => hostStep m
  | .execute tag =>
      match m.enqueued.find? fun c => c.tag = tag with
      | none => none
      | some c =>
          if Ready inOrder m c then
            some { m with memory := c.body m.memory, done := c.tag :: m.done }
          else none

/-- Runs of any length, in any order. -/
abbrev Runs (inOrder : Nat → Bool) (m m' : Machine τ M) : Prop :=
  Reach (step inOrder) (fun _ _ => True) m m'

/-- The commands that host operations enqueue. -/
def enqueues (ops : List (HostOp τ M)) : List (Command τ M) :=
  ops.filterMap fun
    | .enqueue c => some c
    | _ => none

omit [DecidableEq τ] in
@[simp]
theorem enqueues_append (ops ops' : List (HostOp τ M)) :
    enqueues (ops ++ ops') = enqueues ops ++ enqueues ops' :=
  List.filterMap_append

omit [DecidableEq τ] in
@[simp]
theorem enqueues_enqueue (c : Command τ M) (ops : List (HostOp τ M)) :
    enqueues (.enqueue c :: ops) = c :: enqueues ops :=
  rfl

omit [DecidableEq τ] in
@[simp]
theorem enqueues_finish (queue : Nat) (ops : List (HostOp τ M)) :
    enqueues (.finish queue :: ops) = enqueues ops :=
  rfl

omit [DecidableEq τ] in
@[simp]
theorem enqueues_waitFor (tags : List τ) (ops : List (HostOp τ M)) :
    enqueues (.waitFor tags :: ops) = enqueues ops :=
  rfl

omit [DecidableEq τ] in
@[simp]
theorem enqueues_nil : enqueues ([] : List (HostOp τ M)) = [] :=
  rfl

omit [DecidableEq τ] in
@[simp]
theorem enqueues_map (cs : List (Command τ M)) : enqueues (cs.map HostOp.enqueue) = cs := by
  induction cs with
  | nil => rfl
  | cons c cs ih => rw [List.map_cons, enqueues_enqueue, ih]

theorem earlier_append {cs ds : List (Command τ M)} {tag : τ} (present : tag ∈ cs.map Command.tag) :
    earlier (cs ++ ds) tag = earlier cs tag := by
  induction cs with
  | nil => simp at present
  | cons c rest ih =>
      rw [earlier, earlier, List.cons_append]
      by_cases here : c.tag = tag
      · simp [here]
      · have later : tag ∈ rest.map Command.tag := by
          rcases List.mem_cons.mp present with same | mem
          · exact absurd same.symm here
          · exact mem
        simp only [ne_eq, here, not_false_eq_true, decide_true, List.takeWhile_cons_of_pos,
          List.cons.injEq, true_and]
        exact ih later

theorem earlier_split {cs ds : List (Command τ M)} {c : Command τ M}
    (absent : ∀ d ∈ cs, d.tag ≠ c.tag) : earlier (cs ++ c :: ds) c.tag = cs := by
  rw [earlier, List.takeWhile_append_of_pos]
  · simp
  · intro d mem
    simpa using absent d mem

theorem mem_of_mem_earlier {cs : List (Command τ M)} {tag : τ} {d : Command τ M}
    (mem : d ∈ earlier cs tag) : d ∈ cs :=
  (List.takeWhile_prefix _).subset mem

/-- What a command needs in a script. -/
def Needs (inOrder : Nat → Bool) (script : List (Command τ M)) (tag needed : τ) : Prop :=
  ∃ c ∈ script, c.tag = tag ∧ (needed ∈ c.waits ∨
    (inOrder c.queue = true ∧ ∃ d ∈ earlier script tag, d.queue = c.queue ∧ d.tag = needed))

/-- A machine that has come from a start by lawful steps. -/
structure Lawful (inOrder : Nat → Bool) (start : List (Command τ M)) (ops : List (HostOp τ M))
    (m : Machine τ M) : Prop where
  /-- The host has consumed a prefix of its operations, and what it waited for
  is done. -/
  consumed : ∃ consumed, ops = consumed ++ m.host ∧ m.enqueued = start ++ enqueues consumed ∧
    (∀ l queue l', consumed = l ++ .finish queue :: l' →
      ∀ c ∈ start ++ enqueues l, c.queue = queue → c.tag ∈ m.done) ∧
    ∀ l tags l', consumed = l ++ .waitFor tags :: l' → ∀ t ∈ tags, t ∈ m.done
  known : ∀ t ∈ m.done, t ∈ m.enqueued.map Command.tag
  once : m.done.Nodup
  /-- What a command needs was done before it. -/
  ordered : ∀ t needed, t ∈ m.done → Needs inOrder (start ++ enqueues ops) t needed →
    [t, needed].Sublist m.done

/-- The start of a host program, with commands pending. -/
def begin (memory : M) (start : List (Command τ M)) (ops : List (HostOp τ M)) : Machine τ M :=
  ⟨memory, start, [], ops⟩

theorem lawful_begin (inOrder : Nat → Bool) (memory : M) (start : List (Command τ M))
    (ops : List (HostOp τ M)) : Lawful inOrder start ops (begin memory start ops) where
  consumed := ⟨[], rfl, by simp [begin], by simp, by simp⟩
  known t mem := by simp [begin] at mem
  once := List.nodup_nil
  ordered t needed mem := by simp [begin] at mem

/-! ## Steps -/

section Steps

variable {inOrder : Nat → Bool} {start : List (Command τ M)} {ops : List (HostOp τ M)}
  {m m' : Machine τ M}

/-- The commands enqueued so far are the first ones of the script. -/
theorem Lawful.script (lawful : Lawful inOrder start ops m) :
    start ++ enqueues ops = m.enqueued ++ enqueues m.host := by
  obtain ⟨consumed, split, enqueued, -⟩ := lawful.consumed
  rw [enqueued, split, enqueues_append, List.append_assoc]

theorem Lawful.mem_script (lawful : Lawful inOrder start ops m) {c : Command τ M}
    (mem : c ∈ m.enqueued) : c ∈ start ++ enqueues ops := by
  rw [lawful.script]
  exact List.mem_append_left _ mem

omit [DecidableEq τ] in
/-- Commands of one tag are equal. -/
theorem eq_of_tag {script : List (Command τ M)} (distinct : (script.map Command.tag).Nodup)
    {c d : Command τ M} (mem : c ∈ script) (mem' : d ∈ script) (same : c.tag = d.tag) : c = d :=
  List.inj_on_of_nodup_map distinct mem mem' same

/-- A command that executes was enqueued and ready. -/
theorem execute_eq_some {tag : τ} (stepped : step inOrder m (.execute tag) = some m') :
    ∃ c ∈ m.enqueued, c.tag = tag ∧ Ready inOrder m c ∧
      m' = { m with memory := c.body m.memory, done := c.tag :: m.done } := by
  rw [step] at stepped
  cases found : m.enqueued.find? fun c => c.tag = tag with
  | none =>
      rw [found] at stepped
      contradiction
  | some c =>
      rw [found] at stepped
      dsimp only at stepped
      split_ifs at stepped with ready
      have named : c.tag = tag := by simpa using List.find?_some found
      exact ⟨c, List.mem_of_find?_eq_some found, named, ready, (Option.some.inj stepped).symm⟩

/-- A ready command can execute. -/
theorem execute_ready (distinct : (m.enqueued.map Command.tag).Nodup) {c : Command τ M}
    (mem : c ∈ m.enqueued) (ready : Ready inOrder m c) :
    step inOrder m (.execute c.tag) =
      some { m with memory := c.body m.memory, done := c.tag :: m.done } := by
  cases found : m.enqueued.find? fun d => d.tag = c.tag with
  | none =>
      have absent := List.find?_eq_none.mp found c mem
      simp at absent
  | some d =>
      have named : d.tag = c.tag := by simpa using List.find?_some found
      obtain rfl := eq_of_tag distinct (List.mem_of_find?_eq_some found) mem named
      rw [step, found]
      dsimp only
      rw [if_pos ready]

omit [DecidableEq τ] in
/-- A position in a list with one more element is the last one or was there before. -/
theorem consumed_snoc {consumed : List (HostOp τ M)} {op : HostOp τ M} {l l' : List (HostOp τ M)}
    {x : HostOp τ M} (split : consumed ++ [op] = l ++ x :: l') :
    (op = x ∧ consumed = l ∧ l' = []) ∨ ∃ l'', consumed = l ++ x :: l'' := by
  rcases l'.eq_nil_or_concat with rfl | ⟨l'', last, rfl⟩
  · obtain ⟨same, last⟩ := List.append_inj' split rfl
    exact Or.inl ⟨(List.cons.inj last).1, same, rfl⟩
  · have regrouped : consumed ++ [op] = (l ++ x :: l'') ++ [last] := by
      simpa using split
    exact Or.inr ⟨l'', (List.append_inj' regrouped rfl).1⟩

/-- A step of the host is lawful. -/
theorem Lawful.host (lawful : Lawful inOrder start ops m) (stepped : hostStep m = some m') :
    Lawful inOrder start ops m' := by
  obtain ⟨consumed, split, enqueued, finished, waited⟩ := lawful.consumed
  rw [hostStep] at stepped
  cases upcoming : m.host with
  | nil =>
      rw [upcoming] at stepped
      contradiction
  | cons op rest =>
      have moved : ops = (consumed ++ [op]) ++ rest := by
        rw [split, upcoming, List.append_assoc]
        rfl
      rw [upcoming] at stepped
      cases op with
      | enqueue c =>
          rw [← Option.some.inj stepped]
          refine ⟨⟨consumed ++ [.enqueue c], moved, ?_, ?_, ?_⟩, ?_, lawful.once, lawful.ordered⟩
          · dsimp only
            rw [enqueued, enqueues_append, List.append_assoc]
            rfl
          · intro l queue l' at'
            rcases consumed_snoc at' with ⟨same, -⟩ | ⟨l'', before⟩
            · contradiction
            · exact finished l queue l'' before
          · intro l tags l' at'
            rcases consumed_snoc at' with ⟨same, -⟩ | ⟨l'', before⟩
            · contradiction
            · exact waited l tags l'' before
          · intro t mem
            dsimp only
            rw [List.map_append]
            exact List.mem_append_left _ (lawful.known t mem)
      | finish q =>
          dsimp only at stepped
          split_ifs at stepped with drained
          rw [← Option.some.inj stepped]
          refine ⟨⟨consumed ++ [.finish q], moved, ?_, ?_, ?_⟩, lawful.known, lawful.once,
            lawful.ordered⟩
          · simpa using enqueued
          · intro l queue l' at'
            rcases consumed_snoc at' with ⟨same, rfl, -⟩ | ⟨l'', before⟩
            · obtain rfl := HostOp.finish.inj same
              rw [← enqueued]
              exact drained
            · exact finished l queue l'' before
          · intro l tags l' at'
            rcases consumed_snoc at' with ⟨same, -⟩ | ⟨l'', before⟩
            · contradiction
            · exact waited l tags l'' before
      | waitFor ts =>
          dsimp only at stepped
          split_ifs at stepped with all
          rw [← Option.some.inj stepped]
          refine ⟨⟨consumed ++ [.waitFor ts], moved, ?_, ?_, ?_⟩, lawful.known, lawful.once,
            lawful.ordered⟩
          · simpa using enqueued
          · intro l queue l' at'
            rcases consumed_snoc at' with ⟨same, -⟩ | ⟨l'', before⟩
            · contradiction
            · exact finished l queue l'' before
          · intro l tags l' at'
            rcases consumed_snoc at' with ⟨same, -, -⟩ | ⟨l'', before⟩
            · obtain rfl := HostOp.waitFor.inj same
              exact all
            · exact waited l tags l'' before

/-- Executing a command is lawful. -/
theorem Lawful.execute (lawful : Lawful inOrder start ops m)
    (distinct : ((start ++ enqueues ops).map Command.tag).Nodup) {tag : τ}
    (stepped : step inOrder m (.execute tag) = some m') : Lawful inOrder start ops m' := by
  obtain ⟨c, mem, rfl, ⟨new, waits, behind⟩, rfl⟩ := execute_eq_some stepped
  obtain ⟨consumed, split, enqueued, finished, waited⟩ := lawful.consumed
  constructor
  case consumed =>
    refine ⟨consumed, split, enqueued, ?_, ?_⟩
    · intro l queue l' at' d dMem onQueue
      exact List.mem_cons_of_mem _ (finished l queue l' at' d dMem onQueue)
    · intro l tags l' at' t tMem
      exact List.mem_cons_of_mem _ (waited l tags l' at' t tMem)
  case known =>
    intro t tMem
    rcases List.mem_cons.mp tMem with rfl | tMem
    · exact List.mem_map_of_mem mem
    · exact lawful.known t tMem
  case once => exact List.nodup_cons.mpr ⟨new, lawful.once⟩
  case ordered =>
    intro t needed tMem needs
    rcases List.mem_cons.mp tMem with rfl | tMem
    · obtain ⟨d, dMem, named, cause⟩ := needs
      obtain rfl := eq_of_tag distinct dMem (lawful.mem_script mem) named
      have done : needed ∈ m.done := by
        rcases cause with wait | ⟨ordered, e, eMem, sameQueue, rfl⟩
        · exact waits needed wait
        · rw [lawful.script, earlier_append (List.mem_map_of_mem mem)] at eMem
          exact behind ordered e eMem sameQueue
      exact (List.singleton_sublist.mpr done).cons_cons _
    · exact (lawful.ordered t needed tMem needs).cons _

/-- Every run from the start is lawful. -/
theorem Lawful.of_runs (distinct : ((start ++ enqueues ops).map Command.tag).Nodup)
    (lawful : Lawful inOrder start ops m) (runs : Runs inOrder m m') :
    Lawful inOrder start ops m' := by
  refine runs.invariant lawful fun s move t lawful _ stepped => ?_
  cases move with
  | host => exact lawful.host stepped
  | execute tag => exact lawful.execute distinct stepped

/-! ## Progress -/

/-- Commands wait only for commands that were enqueued before them. -/
def Orderly (script : List (Command τ M)) : Prop :=
  ∀ c ∈ script, ∀ t ∈ c.waits, t ∈ (earlier script c.tag).map Command.tag

/-- A set of commands that contains what its members need can be executed on its
own. -/
theorem Lawful.run_prefix (lawful : Lawful inOrder start ops m)
    (distinct : ((start ++ enqueues ops).map Command.tag).Nodup)
    (orderly : Orderly (start ++ enqueues ops)) {S : τ → Prop}
    (closed : ∀ t needed, S t → Needs inOrder (start ++ enqueues ops) t needed → S needed)
    {cs ds : List (Command τ M)} (split : m.enqueued = cs ++ ds) :
    ∃ m', Runs inOrder m m' ∧ m'.host = m.host ∧ m'.enqueued = m.enqueued ∧
      (∀ c ∈ cs, S c.tag → c.tag ∈ m'.done) ∧ (∀ t ∈ m'.done, t ∈ m.done ∨ S t) ∧
      ∀ t ∈ m.done, t ∈ m'.done := by
  induction cs using List.reverseRecOn generalizing ds with
  | nil =>
      exact ⟨m, .refl, rfl, rfl, fun c mem => by simp at mem, fun t => Or.inl, fun t mem => mem⟩
  | append_singleton cs c ih =>
      rw [List.append_assoc] at split
      obtain ⟨m', runs, host, enqueued, before, only, kept⟩ := ih split
      by_cases todo : S c.tag ∧ c.tag ∉ m'.done
      · have mem : c ∈ m'.enqueued := by
          rw [enqueued, split]
          simp
        have lawful' := lawful.of_runs distinct runs
        have distinct' : (m'.enqueued.map Command.tag).Nodup := by
          rw [lawful'.script, List.map_append] at distinct
          exact (List.nodup_append.mp distinct).1
        have behind : earlier m'.enqueued c.tag = cs := by
          rw [enqueued, split]
          apply earlier_split
          intro d dMem same
          rw [enqueued, split, List.map_append] at distinct'
          exact (List.nodup_append.mp distinct').2.2 d.tag (List.mem_map_of_mem dMem) c.tag
            (by simp) same
        have behindScript : earlier (start ++ enqueues ops) c.tag = cs := by
          rw [lawful'.script, earlier_append (List.mem_map_of_mem mem), behind]
        have ready : Ready inOrder m' c := by
          refine ⟨todo.2, fun t wait => ?_, fun ordered d dMem sameQueue => ?_⟩
          · obtain ⟨d, dMem, rfl⟩ := List.mem_map.mp (orderly c (lawful'.mem_script mem) t wait)
            rw [behindScript] at dMem
            exact before d dMem
              (closed _ _ todo.1 ⟨c, lawful'.mem_script mem, rfl, Or.inl wait⟩)
          · rw [behind] at dMem
            refine before d dMem (closed _ _ todo.1 ⟨c, lawful'.mem_script mem, rfl, Or.inr ?_⟩)
            exact ⟨ordered, d, by rwa [behindScript], sameQueue, rfl⟩
        refine ⟨_, runs.tail trivial (execute_ready distinct' mem ready), host, enqueued,
          ?_, ?_, ?_⟩
        · intro d dMem inS
          rcases List.mem_append.mp dMem with dMem | dMem
          · exact List.mem_cons_of_mem _ (before d dMem inS)
          · rw [List.mem_singleton.mp dMem]
            exact List.mem_cons_self
        · intro t tMem
          rcases List.mem_cons.mp tMem with rfl | tMem
          · exact Or.inr todo.1
          · exact only t tMem
        · intro t tMem
          exact List.mem_cons_of_mem _ (kept t tMem)
      · refine ⟨m', runs, host, enqueued, ?_, only, kept⟩
        intro d dMem inS
        rcases List.mem_append.mp dMem with dMem | dMem
        · exact before d dMem inS
        · rw [List.mem_singleton.mp dMem] at inS ⊢
          by_contra undone
          exact todo ⟨inS, undone⟩

/-- A set of commands that contains what its members need can be executed on its
own. -/
theorem Lawful.run_closed (lawful : Lawful inOrder start ops m)
    (distinct : ((start ++ enqueues ops).map Command.tag).Nodup)
    (orderly : Orderly (start ++ enqueues ops)) {S : τ → Prop}
    (closed : ∀ t needed, S t → Needs inOrder (start ++ enqueues ops) t needed → S needed) :
    ∃ m', Runs inOrder m m' ∧ m'.host = m.host ∧ m'.enqueued = m.enqueued ∧
      (∀ c ∈ m.enqueued, S c.tag → c.tag ∈ m'.done) ∧ (∀ t ∈ m'.done, t ∈ m.done ∨ S t) ∧
      ∀ t ∈ m.done, t ∈ m'.done :=
  lawful.run_prefix distinct orderly closed (List.append_nil _).symm

/-- The host waits only for commands that it has enqueued before. -/
def Supplied (start : List (Command τ M)) (ops : List (HostOp τ M)) : Prop :=
  ∀ l tags l', ops = l ++ .waitFor tags :: l' →
    ∀ t ∈ tags, t ∈ (start ++ enqueues l).map Command.tag

/-- From every state of a run the host program can come to its end. -/
theorem Lawful.completes (lawful : Lawful inOrder start ops m)
    (distinct : ((start ++ enqueues ops).map Command.tag).Nodup)
    (orderly : Orderly (start ++ enqueues ops)) (supplied : Supplied start ops) :
    ∃ m', Runs inOrder m m' ∧ m'.host = [] ∧ ∀ t ∈ m.done, t ∈ m'.done := by
  induction upcoming : m.host generalizing m with
  | nil => exact ⟨m, .refl, upcoming, fun t mem => mem⟩
  | cons op rest ih =>
      obtain ⟨m', runs, host, enqueued, all, -, kept⟩ :=
        lawful.run_closed distinct orderly (S := fun _ => True) fun _ _ _ _ => trivial
      have lawful' := lawful.of_runs distinct runs
      obtain ⟨consumed, split, enqueued', -⟩ := lawful'.consumed
      have done : ∀ c ∈ m'.enqueued, c.tag ∈ m'.done := by
        rw [enqueued]
        exact fun c mem => all c mem trivial
      have moved : ∃ m'', hostStep m' = some m'' ∧ m''.host = rest ∧ m''.done = m'.done := by
        rw [hostStep, host, upcoming]
        cases op with
        | enqueue c => exact ⟨_, rfl, rfl, rfl⟩
        | finish q =>
            dsimp only
            rw [if_pos fun c mem _ => done c mem]
            exact ⟨_, rfl, rfl, rfl⟩
        | waitFor ts =>
            dsimp only
            have available : ∀ t ∈ ts, t ∈ m'.done := by
              intro t mem
              rw [host, upcoming] at split
              obtain ⟨c, cMem, rfl⟩ := List.mem_map.mp (supplied consumed ts rest split t mem)
              exact done c (by rwa [enqueued'])
            rw [if_pos available]
            exact ⟨_, rfl, rfl, rfl⟩
      obtain ⟨m'', stepped, host', done'⟩ := moved
      obtain ⟨final, runs', returned, kept'⟩ := ih (lawful'.host stepped) host'
      have step' : step inOrder m' .host = some m'' := stepped
      refine ⟨final, (runs.tail trivial step').trans runs', returned, fun t mem => kept' t ?_⟩
      rw [done']
      exact kept t mem
/-! ## What a run leaves behind -/

/-- A run executes more commands after those that are done. -/
theorem Runs.done_suffix (runs : Runs inOrder m m') : m.done <:+ m'.done := by
  induction runs with
  | refl => exact List.suffix_rfl
  | @tail s t move _ _ stepped before =>
      cases move with
      | host =>
          rw [step, hostStep] at stepped
          split at stepped
          · contradiction
          · rw [← Option.some.inj stepped]
            exact before
          · split_ifs at stepped
            rw [← Option.some.inj stepped]
            exact before
          · split_ifs at stepped
            rw [← Option.some.inj stepped]
            exact before
      | execute tag =>
          obtain ⟨c, -, -, -, rfl⟩ := execute_eq_some stepped
          exact before.trans (List.suffix_cons _ _)

/-- When a command that follows a `finish` is done, so is what was on the queue. -/
theorem Lawful.finished (lawful : Lawful inOrder start ops m)
    (distinct : ((start ++ enqueues ops).map Command.tag).Nodup) {l l' : List (HostOp τ M)}
    {queue : Nat} (split : ops = l ++ .finish queue :: l') {d : Command τ M}
    (follows : d ∈ enqueues l') (done : d.tag ∈ m.done) :
    ∀ c ∈ start ++ enqueues l, c.queue = queue → c.tag ∈ m.done := by
  obtain ⟨consumed, split', enqueued, finished, -⟩ := lawful.consumed
  have present := lawful.known d.tag done
  rw [enqueued] at present
  rw [split] at split' distinct
  rcases List.append_eq_append_iff.mp split' with ⟨rest, rfl, later⟩ | ⟨rest, rfl, -⟩
  · cases rest with
    | nil =>
        rw [List.append_nil] at present
        rw [enqueues_append, enqueues_finish, ← List.append_assoc, List.map_append] at distinct
        exact absurd rfl ((List.nodup_append.mp distinct).2.2 d.tag present d.tag
          (List.mem_map_of_mem follows))
    | cons op rest =>
        obtain ⟨rfl, -⟩ := List.cons.inj later
        exact finished l queue rest rfl
  · rw [enqueues_append, enqueues_append, enqueues_finish, List.append_assoc, ← List.append_assoc,
      List.map_append] at distinct
    refine absurd rfl ((List.nodup_append.mp distinct).2.2 d.tag present d.tag ?_)
    exact List.mem_map_of_mem (List.mem_append_right _ follows)

/-- When the host has returned, everything before a `finish` is done. -/
theorem Lawful.returned (lawful : Lawful inOrder start ops m) (host : m.host = [])
    {l l' : List (HostOp τ M)} {queue : Nat} (split : ops = l ++ .finish queue :: l') :
    ∀ c ∈ start ++ enqueues l, c.queue = queue → c.tag ∈ m.done := by
  obtain ⟨consumed, split', -, finished, -⟩ := lawful.consumed
  rw [host, List.append_nil] at split'
  exact finished l queue l' (split'.symm.trans split)

/-- When the host has returned, everything it waited for is done. -/
theorem Lawful.awaited (lawful : Lawful inOrder start ops m) (host : m.host = [])
    {l l' : List (HostOp τ M)} {tags : List τ} (split : ops = l ++ .waitFor tags :: l') :
    ∀ t ∈ tags, t ∈ m.done := by
  obtain ⟨consumed, split', -, -, waited⟩ := lawful.consumed
  rw [host, List.append_nil] at split'
  exact waited l tags l' (split'.symm.trans split)

/-- The host enqueues what comes next. -/
theorem runs_enqueue (cs : List (Command τ M)) {rest : List (HostOp τ M)}
    (host : m.host = cs.map .enqueue ++ rest) :
    Runs inOrder m { m with enqueued := m.enqueued ++ cs, host := rest } := by
  induction cs generalizing m with
  | nil =>
      rw [List.map_nil, List.nil_append] at host
      rw [List.append_nil, ← host]
      exact .refl
  | cons c cs ih =>
      have first : step inOrder m .host = some { m with
          enqueued := m.enqueued ++ [c], host := cs.map .enqueue ++ rest } := by
        rw [step, hostStep, host]
        rfl
      have others :=
        @ih { m with enqueued := m.enqueued ++ [c], host := cs.map .enqueue ++ rest } rfl
      rw [List.append_assoc] at others
      exact (Reach.refl.tail trivial first).trans others

omit [DecidableEq τ] in
/-- In a list without repetitions, what is before something before another is
before that one. -/
theorem sublist_trans_pair {l : List τ} (once : l.Nodup) {a b c : τ} (first : [a, b].Sublist l)
    (second : [b, c].Sublist l) : [a, c].Sublist l := by
  induction l with
  | nil => simp at first
  | cons x l ih =>
      obtain ⟨new, once⟩ := List.nodup_cons.mp once
      rcases List.sublist_cons_iff.mp first with inside | ⟨r, split, rest⟩
      · rcases List.sublist_cons_iff.mp second with inside' | ⟨r', split', -⟩
        · exact (ih once inside inside').cons x
        · obtain ⟨rfl, -⟩ := List.cons.inj split'
          exact absurd (inside.subset (by simp)) new
      · obtain ⟨rfl, rfl⟩ := List.cons.inj split
        have bMem : b ∈ l := rest.subset (by simp)
        rcases List.sublist_cons_iff.mp second with inside' | ⟨r', split', -⟩
        · have cMem : c ∈ l := inside'.subset (by simp)
          exact (List.singleton_sublist.mpr cMem).cons_cons a
        · obtain ⟨rfl, -⟩ := List.cons.inj split'
          exact absurd bMem new

end Steps

end Clarmor.Queues
