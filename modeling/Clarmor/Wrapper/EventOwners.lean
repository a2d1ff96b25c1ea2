import Clarmor.Library.Run
import Clarmor.Wrapper.Events

/-!
# Who owns the internal events

A launch that is asked for an event puts its internal event into the table; a
launch that is not asked keeps it.  In every run in which each launch is asked
for an event, an internal event is unreleased exactly as long as the application
holds the event of that launch.
-/

namespace Clarmor

open Word

/-- A reference count that the application has on an event. -/
structure AppEvent where
  serial : Nat
  refs : Nat
deriving DecidableEq, Repr

/-- A launch: its internal event, and the event it gave to the application. -/
structure Launched where
  internal : Nat
  user : Option Nat
deriving DecidableEq, Repr

/-- The calls that concern events.  `command` stands for every other call that
gives an event to the application. -/
inductive EventCall where
  | launch (context : Handle) (path : CheckPath) (event : Option Handle)
  | command (context : Handle)
  | retain (event : Handle)
  | release (event : Handle)

/-- The wrapper, what the application holds, and the launches so far. -/
structure EventSystem where
  s : EventState
  app : Table Handle AppEvent
  launches : List Launched

/-- The application gets an event. -/
def receiveEvent (app : Table Handle AppEvent) (rt : EventRuntime) (event : Handle) :
    Table Handle AppEvent :=
  match rt.live.find event with
  | none => app
  | some e => app.insert event ⟨e.serial, 1⟩

/-- The application gives a reference up. -/
def dropEvent (app : Table Handle AppEvent) (event : Handle) (a : AppEvent) :
    Table Handle AppEvent :=
  if a.refs = 1 then app.remove event
  else app.modify event fun a => { a with refs := a.refs - 1 }

namespace EventSystem

/-- The start of a process. -/
def initial : EventSystem := ⟨EventState.initial, Table.empty, []⟩

/-- One call of an application that retains and releases only what it holds. -/
def step (env : EventEnv) (sys : EventSystem) : EventCall → Option EventSystem
  | .launch context path event =>
      (sys.s.launchEvents env context path event).map fun (_, external, s) =>
        match external with
        | none => ⟨s, sys.app, ⟨sys.s.rt.created, none⟩ :: sys.launches⟩
        | some cell =>
            ⟨s, receiveEvent sys.app s.rt cell.value,
              ⟨sys.s.rt.created, (s.rt.live.find cell.value).map EventObject.serial⟩ ::
                sys.launches⟩
  | .command context =>
      (sys.s.rt.createEvent env context).map fun (event, rt) =>
        { sys with s := { sys.s with rt := rt }, app := receiveEvent sys.app rt event }
  | .retain event =>
      if (sys.app.find event).isSome then
        some { sys with
          s := (sys.s.clRetainEvent event).2
          app := sys.app.modify event fun a => { a with refs := a.refs + 1 } }
      else none
  | .release event =>
      (sys.app.find event).bind fun a =>
      (sys.s.clReleaseEvent event).map fun (_, s) =>
        { sys with s := s, app := dropEvent sys.app event a }

/-- An entry whose internal event is this one. -/
def Owns (s : EventState) (user : Handle) (internal : Nat) : Prop :=
  ∃ info e, s.table.find user = some info ∧ s.rt.live.find info.internalEvent = some e ∧
    e.serial = internal

/-- The application has a reference to an event. -/
def Held (app : Table Handle AppEvent) (serial : Nat) : Prop :=
  ∃ event a, app.find event = some a ∧ a.serial = serial

/-- The internal events are owned exactly once. -/
structure OwnedOnce (sys : EventSystem) : Prop where
  /-- An internal event is unreleased as long as exactly one entry has it. -/
  owner : ∀ l ∈ sys.launches,
    some l.internal ∉ sys.s.rt.releases ↔ ∃! user, Owns sys.s user l.internal
  /-- An entry counts the references of the application. -/
  counted : ∀ user info, sys.s.table.find user = some info →
    ∃ a, sys.app.find user = some a ∧ info.refCount = a.refs
  /-- It is released once, when the application's last reference goes. -/
  once : ∀ l ∈ sys.launches, ∃ u, l.user = some u ∧
    (Held sys.app u → sys.s.rt.releases.count (some l.internal) = 0) ∧
    (¬ Held sys.app u → sys.s.rt.releases.count (some l.internal) = 1)
  /-- The times of an event that the application holds are those of a live event,
  and of its launch's internal one if it came from a launch. -/
  profiled : ∀ user a, sys.app.find user = some a →
    ∃ e, sys.s.rt.live.find (sys.s.profiledEvent user) = some e ∧
      ∀ l ∈ sys.launches, l.user = some a.serial → e.serial = l.internal

/-- The calls for which this holds: launches check something, are asked for an
event and get one, and retains do not exhaust a reference count. -/
def AsksForEvent (env : EventEnv) (sys : EventSystem) : EventCall → Prop
  | .launch context path event =>
      path ≠ .nothing ∧ event.isSome ∧
        (path = .host → ∀ internal rt, sys.s.rt.createEvent env context = some (internal, rt) →
          (rt.createEvent env context).isSome)
  | .retain event => ∀ a, sys.app.find event = some a → a.refs + 1 < 4294967296
  | _ => True

end EventSystem

/-! ## What a check leaves behind -/

/-- A release of an event that was made between two moments. -/
def Between (lo hi : Nat) (released : Option Nat) : Prop :=
  ∃ k, released = some k ∧ lo ≤ k ∧ k < hi

/-- Of the events that were made meanwhile one is left. -/
structure Grown (rt rt' : EventRuntime) (event context : Handle) (serial : Nat) : Prop where
  notNull : event ≠ NULL
  fresh : rt.live.find event = none
  live : rt'.live = rt.live.insert event ⟨serial, context, 1⟩
  recent : rt.created ≤ serial
  known : serial < rt'.created
  releases : ∃ passed, rt'.releases = passed ++ rt.releases ∧
    ∀ r ∈ passed, Between rt.created rt'.created r

theorem EventRuntime.NewEvent.grown {rt rt' : EventRuntime} {event context : Handle}
    (made : NewEvent rt rt' event context) : Grown rt rt' event context rt.created where
  notNull := made.notNull
  fresh := made.fresh
  live := made.live
  recent := le_refl _
  known := by
    rw [made.created]
    exact Nat.lt_succ_self _
  releases := ⟨[], made.releases, by simp⟩

namespace EventState

/-- Events that were made and are still live with one reference. -/
structure Parts (s s' : EventState) (context : Handle) (events : List Handle) : Prop where
  table : s'.table = s.table
  distinct : events.Nodup
  created : s.rt.created ≤ s'.rt.created
  releases : s'.rt.releases = s.rt.releases
  part : ∀ h ∈ events, h ≠ NULL ∧ s.rt.live.find h = none ∧ ∃ k, s.rt.created ≤ k ∧
    k < s'.rt.created ∧ s'.rt.live.find h = some ⟨k, context, 1⟩
  rest : ∀ h, h ∉ events → s'.rt.live.find h = s.rt.live.find h

theorem createEvents_parts {env : EventEnv} {context : Handle} {s s' : EventState} {n : Nat}
    {events : List Handle} (made : createEvents env context s n = some (events, s')) :
    Parts s s' context events := by
  induction n generalizing s events with
  | zero =>
      rw [createEvents, Option.some.injEq, Prod.mk.injEq] at made
      obtain ⟨rfl, rfl⟩ := made
      exact ⟨rfl, List.nodup_nil, le_refl _, rfl, by simp, fun _ _ => rfl⟩
  | succ n ih =>
      rw [createEvents] at made
      cases first : s.rt.createEvent env context with
      | none =>
          rw [first] at made
          contradiction
      | some made' =>
          obtain ⟨event, rt⟩ := made'
          rw [first] at made
          obtain ⟨⟨rest, t⟩, later, same⟩ := Option.map_eq_some_iff.mp made
          rw [Prod.mk.injEq] at same
          obtain ⟨rfl, rfl⟩ := same
          have new := EventRuntime.createEvent_eq_some first
          have parts := ih later
          have below : s.rt.created + 1 ≤ t.rt.created := by
            have := parts.created
            rwa [new.created] at this
          have here : rt.live.find event = some ⟨s.rt.created, context, 1⟩ := by
            rw [new.live, Table.find_insert_fresh new.fresh]
          have apart : event ∉ rest := by
            intro mem
            obtain ⟨-, free, -⟩ := parts.part event mem
            rw [here] at free
            contradiction
          constructor
          case table => exact parts.table
          case distinct => exact List.nodup_cons.mpr ⟨apart, parts.distinct⟩
          case created => omega
          case releases => exact parts.releases.trans new.releases
          case part =>
            intro h mem
            rcases List.mem_cons.mp mem with rfl | mem
            · exact ⟨new.notNull, new.fresh, s.rt.created, le_refl _, below,
                (parts.rest h apart).trans here⟩
            · obtain ⟨notNull, free, k, lower, upper, live⟩ := parts.part h mem
              have other : h ≠ event := fun same => apart (same ▸ mem)
              rw [new.live, Table.find_insert_of_ne other] at free
              rw [new.created] at lower
              exact ⟨notNull, free, k, by omega, upper, live⟩
          case rest =>
            intro h mem
            rw [List.mem_cons, not_or] at mem
            rw [parts.rest h mem.2, new.live, Table.find_insert_of_ne mem.1]

/-- Releasing events that only the caller knows. -/
theorem releaseEvents_unknown {s : EventState} {lo : Nat} {context : Handle} {events : List Handle}
    (distinct : events.Nodup) (unknown : ∀ h ∈ events, s.table.find h = none)
    (only : ∀ h ∈ events, ∃ k, lo ≤ k ∧ k < s.rt.created ∧
      s.rt.live.find h = some ⟨k, context, 1⟩) :
    ∃ s', s.releaseEvents events = some s' ∧ s'.table = s.table ∧
      s'.rt.created = s.rt.created ∧
      (∀ h, s'.rt.live.find h = if h ∈ events then none else s.rt.live.find h) ∧
      ∃ passed, s'.rt.releases = passed ++ s.rt.releases ∧
        ∀ r ∈ passed, Between lo s.rt.created r := by
  induction events generalizing s with
  | nil => exact ⟨s, rfl, rfl, rfl, by simp, [], rfl, by simp⟩
  | cons event rest ih =>
      obtain ⟨apart, distinct⟩ := List.nodup_cons.mp distinct
      obtain ⟨k, lower, upper, live⟩ := only event List.mem_cons_self
      have first : s.clReleaseEvent event = some (true, { s with rt := { s.rt with
          live := s.rt.live.remove event, releases := some k :: s.rt.releases } }) := by
        rw [clReleaseEvent, unknown event List.mem_cons_self]
        simp only [forwardRelease, EventRuntime.releaseEvent_last live]
      have known : ∀ h ∈ rest, ∃ k, lo ≤ k ∧ k < s.rt.created ∧
          (s.rt.live.remove event).find h = some ⟨k, context, 1⟩ := by
        intro h mem
        have other : h ≠ event := fun same => apart (same ▸ mem)
        rw [Table.find_remove_of_ne other]
        exact only h (List.mem_cons_of_mem event mem)
      obtain ⟨s', ran, table, created, liveAfter, passed, releases, between⟩ :=
        @ih { s with rt := { s.rt with
          live := s.rt.live.remove event, releases := some k :: s.rt.releases } } distinct
          (fun h mem => unknown h (List.mem_cons_of_mem event mem)) known
      refine ⟨s', ?_, table, created, ?_, passed ++ [some k], ?_, ?_⟩
      · rw [releaseEvents, first]
        exact ran
      · intro h
        rw [liveAfter, Table.find_remove]
        by_cases here : h = event
        · simp [here]
        · simp [here]
      · rw [releases]
        simp
      · intro r mem
        rcases List.mem_append.mp mem with mem | mem
        · exact between r mem
        · rw [List.mem_singleton] at mem
          exact ⟨k, mem, lower, upper⟩

/-- The events of the parts of a check are gone at its end, and the marker is
left for the caller. -/
theorem finishOnGpu_grown {env : EventEnv} {s s' : EventState} {context : Handle} {parts : Nat}
    {cell : EventCell} {external : Option EventCell}
    (known : ∀ h info, s.table.find h = some info → (s.rt.live.find h).isSome)
    (ran : s.finishOnGpu env context parts (some cell) = some (external, s')) :
    ∃ event serial, external = some ⟨event, true⟩ ∧ s'.table = s.table ∧
      Grown s.rt s'.rt event context serial := by
  rw [finishOnGpu] at ran
  obtain ⟨⟨events, t⟩, made, ran⟩ := Option.bind_eq_some_iff.mp ran
  obtain ⟨⟨finish, rt⟩, finished, ran⟩ := Option.bind_eq_some_iff.mp ran
  obtain ⟨u, released, ran⟩ := Option.bind_eq_some_iff.mp ran
  dsimp only at finished released ran
  rw [Option.some.injEq, Prod.mk.injEq] at ran
  obtain ⟨rfl, rfl⟩ := ran
  have all := createEvents_parts made
  have new := EventRuntime.createEvent_eq_some finished
  have apart : finish ∉ events := by
    intro mem
    obtain ⟨-, -, k, -, -, live⟩ := all.part finish mem
    rw [new.fresh] at live
    contradiction
  have freshBefore : s.rt.live.find finish = none := by
    rw [← all.rest finish apart]
    exact new.fresh
  have unknown : ∀ h ∈ events, t.table.find h = none := by
    intro h mem
    obtain ⟨-, free, -⟩ := all.part h mem
    rw [all.table]
    by_contra isEntry
    obtain ⟨info, found⟩ := Option.ne_none_iff_exists'.mp isEntry
    have := known h info found
    rw [free] at this
    contradiction
  have only : ∀ h ∈ events, ∃ k, s.rt.created ≤ k ∧ k < rt.created ∧
      rt.live.find h = some ⟨k, context, 1⟩ := by
    intro h mem
    obtain ⟨-, -, k, lower, upper, live⟩ := all.part h mem
    have other : h ≠ finish := fun same => apart (same ▸ mem)
    rw [new.created, new.live, Table.find_insert_of_ne other]
    exact ⟨k, lower, by omega, live⟩
  obtain ⟨s', ran, table, created, live, passed, releases, between⟩ :=
    releaseEvents_unknown (s := { t with rt := rt }) all.distinct unknown only
  obtain rfl : u = s' := Option.some.inj (released.symm.trans ran)
  refine ⟨finish, t.rt.created, rfl, table.trans all.table, new.notNull, freshBefore, ?_,
    all.created, ?_, passed, ?_, ?_⟩
  · apply Table.ext
    intro h
    rw [live]
    by_cases mem : h ∈ events
    · obtain ⟨-, free, -⟩ := all.part h mem
      have other : h ≠ finish := fun same => apart (same ▸ mem)
      rw [if_pos mem, Table.find_insert_of_ne other, free]
    · rw [if_neg mem, new.live, Table.find_insert, Table.find_insert, all.rest h mem,
        all.rest finish apart]
  · rw [created, new.created]
    exact Nat.lt_succ_self _
  · rw [releases, new.releases, all.releases]
  · rw [created]
    exact between

/-- A check that is asked for an event gives one that completes after it. -/
theorem verifyEvents_grown {env : EventEnv} {s s' : EventState} {context : Handle}
    {path : CheckPath} {cell : EventCell} {external : Option EventCell}
    (known : ∀ h info, s.table.find h = some info → (s.rt.live.find h).isSome)
    (checks : path ≠ .nothing)
    (granted : path = .host → (s.rt.createEvent env context).isSome)
    (ran : s.verifyEvents env context path (some cell) = some (external, s')) :
    ∃ event serial, external = some ⟨event, true⟩ ∧ s'.table = s.table ∧
      Grown s.rt s'.rt event context serial := by
  cases path with
  | nothing => contradiction
  | host =>
      obtain ⟨⟨event, rt⟩, made⟩ := Option.isSome_iff_exists.mp (granted rfl)
      simp only [verifyEvents, verifyOnHost, made] at ran
      rw [Option.some.injEq, Prod.mk.injEq] at ran
      obtain ⟨rfl, rfl⟩ := ran
      exact ⟨event, _, rfl, rfl, (EventRuntime.createEvent_eq_some made).grown⟩
  | singleBuffer => exact @finishOnGpu_grown env s s' context 3 cell external known ran
  | copyCanary => exact @finishOnGpu_grown env s s' context 2 cell external known ran

end EventState

namespace EventSystem

/-! ## The invariant -/

/-- A launch whose event the application holds: its entry has the internal event,
which was never released. -/
def Kept (sys : EventSystem) (l : Launched) (u : Nat) : Prop :=
  ∃ h a info context, sys.app.find h = some a ∧ a.serial = u ∧ sys.s.table.find h = some info ∧
    sys.s.rt.live.find info.internalEvent = some ⟨l.internal, context, 1⟩ ∧
    sys.s.rt.releases.count (some l.internal) = 0

/-- A launch whose event the application has given up: the internal event was
released once and is not live. -/
def Gone (sys : EventSystem) (l : Launched) (u : Nat) : Prop :=
  ¬ Held sys.app u ∧ (∀ h e, sys.s.rt.live.find h = some e → e.serial ≠ l.internal) ∧
    sys.s.rt.releases.count (some l.internal) = 1

/-- An entry without an internal event, or with that of the launch its event came
from. -/
def Redirects (sys : EventSystem) (info : EvtInfo) (a : AppEvent) : Prop :=
  info.internalEvent = NULL ∨ ∃ l ∈ sys.launches, l.user = some a.serial ∧
    ∃ context, sys.s.rt.live.find info.internalEvent = some ⟨l.internal, context, 1⟩

/-- The internal event of the launch that gave an event to the application. -/
def Behind (sys : EventSystem) (a : AppEvent) (h : Handle) : Prop :=
  ∃ l ∈ sys.launches, l.user = some a.serial ∧
    ∃ c, sys.s.rt.live.find h = some ⟨l.internal, c, 1⟩

/-- The invariant of runs. -/
structure Inv (sys : EventSystem) : Prop where
  nullFree : sys.s.rt.live.find NULL = none
  bounded : ∀ h e, sys.s.rt.live.find h = some e → e.serial < sys.s.rt.created
  unique : ∀ h h' e e', sys.s.rt.live.find h = some e → sys.s.rt.live.find h' = some e' →
    e.serial = e'.serial → h = h'
  past : ∀ k, some k ∈ sys.s.rt.releases → k < sys.s.rt.created
  held : ∀ h a, sys.app.find h = some a →
    0 < a.refs ∧ ∃ context, sys.s.rt.live.find h = some ⟨a.serial, context, a.refs⟩
  single : ∀ h a, sys.app.find h = some a → sys.s.table.find h = none → a.refs = 1
  entry : ∀ h info, sys.s.table.find h = some info →
    ∃ a, sys.app.find h = some a ∧ info.refCount = a.refs ∧ a.refs < 4294967296 ∧
      sys.Redirects info a
  launched : ∀ l ∈ sys.launches, ∃ u, l.user = some u ∧ u < sys.s.rt.created ∧
    l.internal < sys.s.rt.created ∧ (sys.Kept l u ∨ sys.Gone l u)
  internals : (sys.launches.map Launched.internal).Nodup
  users : (sys.launches.map Launched.user).Nodup
  apart : ∀ l ∈ sys.launches, ∀ h a, sys.app.find h = some a → a.serial ≠ l.internal

namespace Inv

variable {env : EventEnv} {sys : EventSystem}

/-- One serial number is held under one handle. -/
theorem held_unique (inv : sys.Inv) {h h' : Handle} {a a' : AppEvent}
    (holds : sys.app.find h = some a) (holds' : sys.app.find h' = some a')
    (same : a.serial = a'.serial) : h = h' := by
  obtain ⟨-, c, live⟩ := inv.held h a holds
  obtain ⟨-, c', live'⟩ := inv.held h' a' holds'
  exact inv.unique h h' _ _ live live' same

theorem eq_of_internal (inv : sys.Inv) {l l' : Launched} (mem : l ∈ sys.launches)
    (mem' : l' ∈ sys.launches) (same : l.internal = l'.internal) : l = l' :=
  List.inj_on_of_nodup_map inv.internals mem mem' same

theorem eq_of_user (inv : sys.Inv) {l l' : Launched} (mem : l ∈ sys.launches)
    (mem' : l' ∈ sys.launches) (same : l.user = l'.user) : l = l' :=
  List.inj_on_of_nodup_map inv.users mem mem' same

/-- A launch whose event is held is kept by the entry of that event. -/
theorem kept_of_held (inv : sys.Inv) {l : Launched} (mem : l ∈ sys.launches) {h : Handle}
    {a : AppEvent} (holds : sys.app.find h = some a) (user : l.user = some a.serial) :
    ∃ info context, sys.s.table.find h = some info ∧
      sys.s.rt.live.find info.internalEvent = some ⟨l.internal, context, 1⟩ ∧
      sys.s.rt.releases.count (some l.internal) = 0 := by
  obtain ⟨u, user', -, -, kept | gone⟩ := inv.launched l mem
  · obtain ⟨h', a', info, context, holds', serial, found, live, count⟩ := kept
    rw [user, Option.some.injEq] at user'
    obtain rfl : h = h' := inv.held_unique holds holds' (user'.trans serial.symm)
    exact ⟨info, context, found, live, count⟩
  · rw [user, Option.some.injEq] at user'
    exact absurd ⟨h, a, holds, user'⟩ gone.1

/-- What the invariant says about ownership. -/
theorem ownedOnce (inv : sys.Inv) : sys.OwnedOnce := by
  constructor
  case owner =>
    intro l mem
    obtain ⟨u, user, -, -, kept | gone⟩ := inv.launched l mem
    · obtain ⟨h, a, info, context, holds, serial, found, live, count⟩ := kept
      apply iff_of_true
      · exact List.count_eq_zero.mp count
      · refine ⟨h, ⟨info, _, found, live, rfl⟩, ?_⟩
        rintro h' ⟨info', e', found', live', serial'⟩
        obtain ⟨a', holds', -, -, redirects⟩ := inv.entry h' info' found'
        rcases redirects with none | ⟨l', mem', user', context', live''⟩
        · rw [none, inv.nullFree] at live'
          contradiction
        · rw [live'', Option.some.injEq] at live'
          subst live'
          obtain rfl := inv.eq_of_internal mem' mem serial'
          rw [user', Option.some.injEq] at user
          exact inv.held_unique holds' holds (user.trans serial.symm)
    · apply iff_of_false
      · intro unreleased
        have count := gone.2.2
        rw [List.count_eq_zero.mpr unreleased] at count
        contradiction
      · rintro ⟨h, ⟨info, e, -, live, serial⟩, -⟩
        exact gone.2.1 _ e live serial
  case counted =>
    intro h info found
    obtain ⟨a, holds, count, -⟩ := inv.entry h info found
    exact ⟨a, holds, count⟩
  case once =>
    intro l mem
    obtain ⟨u, user, -, -, kept | gone⟩ := inv.launched l mem
    · obtain ⟨h, a, info, context, holds, serial, -, -, count⟩ := kept
      exact ⟨u, user, fun _ => count, fun free => absurd ⟨h, a, holds, serial⟩ free⟩
    · exact ⟨u, user, fun holds => absurd holds gone.1, fun _ => gone.2.2⟩
  case profiled =>
    intro h a holds
    obtain ⟨-, context, live⟩ := inv.held h a holds
    have unowned : ∀ l ∈ sys.launches, l.user = some a.serial → ∀ info,
        sys.s.table.find h = some info → info.internalEvent ≠ NULL := by
      intro l mem user info found none
      obtain ⟨info', context', found', live', -⟩ := inv.kept_of_held mem holds user
      obtain rfl : info = info' := Option.some.inj (found.symm.trans found')
      rw [none, inv.nullFree] at live'
      contradiction
    rw [EventState.profiledEvent]
    cases found : sys.s.table.find h with
    | none =>
        refine ⟨_, live, fun l mem user => ?_⟩
        obtain ⟨info, -, found', -⟩ := inv.kept_of_held mem holds user
        rw [found] at found'
        contradiction
    | some info =>
        dsimp only
        split_ifs with redirected
        · obtain ⟨a', holds', -, -, redirects⟩ := inv.entry h info found
          obtain rfl : a = a' := Option.some.inj (holds.symm.trans holds')
          obtain ⟨l, mem, user, context', live'⟩ := redirects.resolve_left redirected
          refine ⟨_, live', fun l' mem' user' => ?_⟩
          rw [inv.eq_of_user mem mem' (user.trans user'.symm)]
        · refine ⟨_, live, fun l mem user => ?_⟩
          rw [not_not] at redirected
          exact absurd redirected (unowned l mem user info found)

end Inv

theorem inv_initial : initial.Inv where
  nullFree := rfl
  bounded h e live := by simp [initial, EventState.initial, EventRuntime.initial] at live
  unique h h' e e' live := by simp [initial, EventState.initial, EventRuntime.initial] at live
  past k mem := by simp [initial, EventState.initial, EventRuntime.initial] at mem
  held h a holds := by simp [initial] at holds
  single h a holds := by simp [initial] at holds
  entry h info found := by simp [initial, EventState.initial] at found
  launched l mem := by simp [initial] at mem
  internals := List.nodup_nil
  users := List.nodup_nil
  apart l mem := by simp [initial] at mem

/-! ## Steps -/

namespace Inv

variable {env : EventEnv} {sys : EventSystem}

/-- Releases since a moment leave the counts of earlier events alone. -/
theorem count_passed {lo hi k : Nat} {passed releases releases' : List (Option Nat)}
    (appended : releases' = passed ++ releases) (between : ∀ r ∈ passed, Between lo hi r)
    (early : k < lo) : releases'.count (some k) = releases.count (some k) := by
  have absent : some k ∉ passed := by
    intro mem
    obtain ⟨k', same, lower, -⟩ := between _ mem
    rw [Option.some.injEq] at same
    omega
  rw [appended, List.count_append, List.count_eq_zero.mpr absent, Nat.zero_add]

/-- A new event that nobody holds yet. -/
theorem grow (inv : sys.Inv) {rt : EventRuntime} {event context : Handle} {serial : Nat}
    (grown : Grown sys.s.rt rt event context serial) :
    Inv { sys with s := { sys.s with rt := rt } } := by
  obtain ⟨passed, releases, between⟩ := grown.releases
  have later : sys.s.rt.created ≤ rt.created := grown.recent.trans grown.known.le
  have live : ∀ h, rt.live.find h =
      if h = event then some ⟨serial, context, 1⟩ else sys.s.rt.live.find h := by
    intro h
    rw [grown.live, Table.find_insert, grown.fresh]
    rfl
  have keeps : ∀ h e, sys.s.rt.live.find h = some e → rt.live.find h = some e := by
    intro h e before
    have other : h ≠ event := by
      rintro rfl
      rw [grown.fresh] at before
      contradiction
    rw [live, if_neg other]
    exact before
  constructor
  case nullFree =>
    dsimp only
    rw [live, if_neg grown.notNull.symm]
    exact inv.nullFree
  case bounded =>
    intro h e found
    rw [live] at found
    split_ifs at found with here
    · obtain rfl := Option.some.inj found
      exact grown.known
    · exact (inv.bounded h e found).trans_le later
  case unique =>
    intro h h' e e' found found' same
    rw [live] at found found'
    split_ifs at found found' with here here' here'
    · rw [here, here']
    · have below := inv.bounded h' e' found'
      rw [← same, ← Option.some.inj found] at below
      exact absurd grown.recent (not_le.mpr below)
    · have below := inv.bounded h e found
      rw [same, ← Option.some.inj found'] at below
      exact absurd grown.recent (not_le.mpr below)
    · exact inv.unique h h' e e' found found' same
  case past =>
    intro k mem
    dsimp only at mem
    rw [releases] at mem
    rcases List.mem_append.mp mem with mem | mem
    · obtain ⟨k', same, -, upper⟩ := between _ mem
      rw [Option.some.injEq] at same
      exact same ▸ upper
    · exact (inv.past k mem).trans_le later
  case held =>
    intro h a holds
    obtain ⟨pos, c, isLive⟩ := inv.held h a holds
    exact ⟨pos, c, keeps h _ isLive⟩
  case single => exact inv.single
  case entry =>
    intro h info found
    obtain ⟨a, holds, count, range, redirects⟩ := inv.entry h info found
    refine ⟨a, holds, count, range, redirects.imp_right ?_⟩
    rintro ⟨l, mem, user, c, isLive⟩
    exact ⟨l, mem, user, c, keeps _ _ isLive⟩
  case launched =>
    intro l mem
    obtain ⟨u, user, uLt, internalLt, possession⟩ := inv.launched l mem
    refine ⟨u, user, uLt.trans_le later, internalLt.trans_le later, ?_⟩
    have count := count_passed releases between internalLt
    rcases possession with ⟨h, a, info, c, holds, same, found, isLive, once⟩ | ⟨free, dead, once⟩
    · exact Or.inl ⟨h, a, info, c, holds, same, found, keeps _ _ isLive, count.trans once⟩
    · refine Or.inr ⟨free, fun h e found same => ?_, count.trans once⟩
      dsimp only at found
      rw [live] at found
      split_ifs at found with here
      · rw [← Option.some.inj found] at same
        have := grown.recent
        dsimp only at same
        omega
      · exact dead h e found same
  case internals => exact inv.internals
  case users => exact inv.users
  case apart => exact inv.apart

/-- The application takes a live event that belongs to no launch yet. -/
theorem hold (inv : sys.Inv) {event context : Handle} {serial : Nat}
    (isLive : sys.s.rt.live.find event = some ⟨serial, context, 1⟩)
    (free : sys.app.find event = none)
    (unrelated : ∀ l ∈ sys.launches, serial ≠ l.internal ∧ l.user ≠ some serial) :
    Inv { sys with app := sys.app.insert event ⟨serial, 1⟩ } := by
  have app : ∀ h, (sys.app.insert event ⟨serial, 1⟩).find h =
      if h = event then some ⟨serial, 1⟩ else sys.app.find h := by
    intro h
    rw [Table.find_insert, free]
    rfl
  have keeps : ∀ h a, sys.app.find h = some a →
      (sys.app.insert event ⟨serial, 1⟩).find h = some a := by
    intro h a holds
    have other : h ≠ event := by
      rintro rfl
      rw [free] at holds
      contradiction
    rw [app, if_neg other]
    exact holds
  constructor
  case nullFree => exact inv.nullFree
  case bounded => exact inv.bounded
  case unique => exact inv.unique
  case past => exact inv.past
  case held =>
    intro h a holds
    dsimp only at holds
    rw [app] at holds
    split_ifs at holds with here
    · obtain rfl := Option.some.inj holds
      exact ⟨Nat.one_pos, context, by rw [here]; exact isLive⟩
    · exact inv.held h a holds
  case single =>
    intro h a holds absent
    dsimp only at holds
    rw [app] at holds
    split_ifs at holds with here
    · rw [← Option.some.inj holds]
    · exact inv.single h a holds absent
  case entry =>
    intro h info found
    obtain ⟨a, holds, count, range, redirects⟩ := inv.entry h info found
    exact ⟨a, keeps h a holds, count, range, redirects⟩
  case launched =>
    intro l mem
    obtain ⟨u, user, uLt, internalLt, possession⟩ := inv.launched l mem
    refine ⟨u, user, uLt, internalLt, ?_⟩
    rcases possession with ⟨h, a, info, c, holds, rest⟩ | ⟨gone, rest⟩
    · exact Or.inl ⟨h, a, info, c, keeps h a holds, rest⟩
    · refine Or.inr ⟨?_, rest⟩
      rintro ⟨h, a, holds, same⟩
      dsimp only at holds
      rw [app] at holds
      split_ifs at holds with here
      · rw [← Option.some.inj holds] at same
        exact (unrelated l mem).2 (user.trans (congrArg some same.symm))
      · exact gone ⟨h, a, holds, same⟩
  case internals => exact inv.internals
  case users => exact inv.users
  case apart =>
    intro l mem h a holds
    dsimp only at holds
    rw [app] at holds
    split_ifs at holds with here
    · rw [← Option.some.inj holds]
      exact (unrelated l mem).1
    · exact inv.apart l mem h a holds

/-- The table gets the internal event of a new launch. -/
theorem own (inv : sys.Inv) {event internal c : Handle} {k u : Nat}
    (holds : sys.app.find event = some ⟨u, 1⟩) (absent : sys.s.table.find event = none)
    (isLive : sys.s.rt.live.find internal = some ⟨k, c, 1⟩)
    (unreleased : sys.s.rt.releases.count (some k) = 0)
    (unrelated : ∀ l ∈ sys.launches, l.internal ≠ k ∧ l.user ≠ some u)
    (unheld : ∀ h a, sys.app.find h = some a → a.serial ≠ k) :
    Inv { sys with
      s := sys.s.recordEvent event internal
      launches := ⟨k, some u⟩ :: sys.launches } := by
  have table : ∀ h, (sys.s.recordEvent event internal).table.find h =
      if h = event then some ⟨event, 1, internal⟩ else sys.s.table.find h := by
    intro h
    rw [EventState.recordEvent]
    dsimp only
    rw [Table.find_insert, Table.find_modify_self, Table.find_modify, absent]
    split_ifs <;> rfl
  have rt : (sys.s.recordEvent event internal).rt = sys.s.rt := rfl
  have keeps : ∀ h info, sys.s.table.find h = some info →
      (sys.s.recordEvent event internal).table.find h = some info := by
    intro h info found
    have other : h ≠ event := by
      rintro rfl
      rw [absent] at found
      contradiction
    rw [table, if_neg other]
    exact found
  constructor
  case nullFree => exact inv.nullFree
  case bounded => exact inv.bounded
  case unique => exact inv.unique
  case past => exact inv.past
  case held => exact inv.held
  case single =>
    intro h a holds' absent'
    dsimp only at absent'
    rw [table] at absent'
    split_ifs at absent' with here
    exact inv.single h a holds' absent'
  case entry =>
    intro h info found
    dsimp only at found
    rw [table] at found
    split_ifs at found with here
    · obtain rfl := Option.some.inj found
      refine ⟨⟨u, 1⟩, by rw [here]; exact holds, rfl, (by decide : 1 < 4294967296), Or.inr ?_⟩
      exact ⟨⟨k, some u⟩, List.mem_cons_self, rfl, c, isLive⟩
    · obtain ⟨a, holds', count, range, redirects⟩ := inv.entry h info found
      refine ⟨a, holds', count, range, redirects.imp_right ?_⟩
      rintro ⟨l, mem, rest⟩
      exact ⟨l, List.mem_cons_of_mem _ mem, rest⟩
  case launched =>
    intro l mem
    rcases List.mem_cons.mp mem with rfl | mem
    · obtain ⟨-, c', live'⟩ := inv.held event _ holds
      refine ⟨u, rfl, inv.bounded _ _ live', inv.bounded _ _ isLive, Or.inl ?_⟩
      exact ⟨event, ⟨u, 1⟩, ⟨event, 1, internal⟩, c, holds, rfl, by rw [table, if_pos rfl], isLive,
        unreleased⟩
    · obtain ⟨u', user, uLt, internalLt, possession⟩ := inv.launched l mem
      refine ⟨u', user, uLt, internalLt, possession.imp_left ?_⟩
      rintro ⟨h, a, info, c', holds', same, found, rest⟩
      exact ⟨h, a, info, c', holds', same, keeps h info found, rest⟩
  case internals =>
    rw [List.map_cons, List.nodup_cons]
    refine ⟨fun mem => ?_, inv.internals⟩
    obtain ⟨l, mem, same⟩ := List.mem_map.mp mem
    exact (unrelated l mem).1 same
  case users =>
    rw [List.map_cons, List.nodup_cons]
    refine ⟨fun mem => ?_, inv.users⟩
    obtain ⟨l, mem, same⟩ := List.mem_map.mp mem
    exact (unrelated l mem).2 same
  case apart =>
    intro l mem h a holds'
    rcases List.mem_cons.mp mem with rfl | mem
    · exact unheld h a holds'
    · exact inv.apart l mem h a holds'

/-- The internal event of a launch is not one that the application holds. -/
theorem internal_ne (inv : sys.Inv) {l : Launched} (mem : l ∈ sys.launches) {event h c : Handle}
    {a : AppEvent} (holds : sys.app.find event = some a)
    (isLive : sys.s.rt.live.find h = some ⟨l.internal, c, 1⟩) : h ≠ event := by
  rintro rfl
  obtain ⟨-, c', live⟩ := inv.held h a holds
  rw [isLive, Option.some.injEq] at live
  exact inv.apart l mem h a holds (congrArg EventObject.serial live).symm

end Inv

/-! ## Another reference count -/

/-- An event that the application holds gets another reference count, in the
runtime, in its entry and for the application. -/
structure Recounted (sys : EventSystem) (s : EventState) (app : Table Handle AppEvent)
    (event context : Handle) (a : AppEvent) (n : Nat) (info : EvtInfo) : Prop where
  holds : sys.app.find event = some a
  isLive : sys.s.rt.live.find event = some ⟨a.serial, context, a.refs⟩
  table : ∀ h, s.table.find h = if h = event then some info else sys.s.table.find h
  same : ∀ info', sys.s.table.find event = some info' →
    info.internalEvent = info'.internalEvent
  live : ∀ h, s.rt.live.find h =
    if h = event then some ⟨a.serial, context, n⟩ else sys.s.rt.live.find h
  apps : ∀ h, app.find h = if h = event then some ⟨a.serial, n⟩ else sys.app.find h
  created : s.rt.created = sys.s.rt.created
  releases : ∃ passed, s.rt.releases = passed ++ sys.s.rt.releases ∧
    ∀ r ∈ passed, r = some a.serial

namespace Recounted

variable {sys : EventSystem} {s : EventState} {app : Table Handle AppEvent}
  {event context : Handle} {a : AppEvent} {n : Nat} {info : EvtInfo}

/-- Live events have the serial numbers that they had. -/
theorem serials (r : Recounted sys s app event context a n info) {h : Handle} {e : EventObject}
    (found : s.rt.live.find h = some e) :
    ∃ e', sys.s.rt.live.find h = some e' ∧ e.serial = e'.serial := by
  rw [r.live] at found
  split_ifs at found with here
  · rw [here]
    exact ⟨_, r.isLive, by rw [← Option.some.inj found]⟩
  · exact ⟨e, found, rfl⟩

/-- The application held before what it holds. -/
theorem held (r : Recounted sys s app event context a n info) {h : Handle} {b : AppEvent}
    (found : app.find h = some b) : ∃ b', sys.app.find h = some b' ∧ b.serial = b'.serial := by
  rw [r.apps] at found
  split_ifs at found with here
  · rw [here]
    exact ⟨a, r.holds, by rw [← Option.some.inj found]⟩
  · exact ⟨b, found, rfl⟩

/-- The application holds what it held. -/
theorem holdsOn (r : Recounted sys s app event context a n info) {h : Handle} {b : AppEvent}
    (found : sys.app.find h = some b) : ∃ b', app.find h = some b' ∧ b'.serial = b.serial := by
  by_cases here : h = event
  · subst here
    obtain rfl : a = b := Option.some.inj (r.holds.symm.trans found)
    exact ⟨⟨a.serial, n⟩, by rw [r.apps, if_pos rfl], rfl⟩
  · exact ⟨b, by rw [r.apps, if_neg here, found], rfl⟩

/-- Internal events stay. -/
theorem keeps (r : Recounted sys s app event context a n info) (inv : sys.Inv) {l : Launched}
    (mem : l ∈ sys.launches) {h c : Handle}
    (found : sys.s.rt.live.find h = some ⟨l.internal, c, 1⟩) :
    s.rt.live.find h = some ⟨l.internal, c, 1⟩ := by
  rw [r.live, if_neg (inv.internal_ne mem r.holds found)]
  exact found

theorem redirects (r : Recounted sys s app event context a n info) (inv : sys.Inv)
    {info' : EvtInfo} {b b' : AppEvent} (serial : b'.serial = b.serial)
    (redirects : sys.Redirects info' b) :
    { sys with s := s, app := app }.Redirects info' b' := by
  refine redirects.imp_right ?_
  rintro ⟨l, mem, user, c, found⟩
  exact ⟨l, mem, user.trans (congrArg some serial.symm), c, r.keeps inv mem found⟩

/-- No internal event is released. -/
theorem count (r : Recounted sys s app event context a n info) (inv : sys.Inv) {l : Launched}
    (mem : l ∈ sys.launches) :
    s.rt.releases.count (some l.internal) = sys.s.rt.releases.count (some l.internal) := by
  obtain ⟨passed, releases, ofEvent⟩ := r.releases
  have absent : some l.internal ∉ passed := fun mem' =>
    inv.apart l mem event a r.holds (Option.some.inj (ofEvent _ mem')).symm
  rw [releases, List.count_append, List.count_eq_zero.mpr absent, Nat.zero_add]

theorem kept (r : Recounted sys s app event context a n info) (inv : sys.Inv) {l : Launched}
    (mem : l ∈ sys.launches) {u : Nat} (kept : sys.Kept l u) :
    { sys with s := s, app := app }.Kept l u := by
  obtain ⟨h, b, info', c, holds', serial, found, live', once⟩ := kept
  obtain ⟨b', held', serial'⟩ := r.holdsOn holds'
  by_cases here : h = event
  · subst here
    refine ⟨h, b', info, c, held', serial'.trans serial, ?_, ?_, (r.count inv mem).trans once⟩
    · dsimp only
      rw [r.table, if_pos rfl]
    · rw [r.same info' found]
      exact r.keeps inv mem live'
  · refine ⟨h, b', info', c, held', serial'.trans serial, ?_, r.keeps inv mem live',
      (r.count inv mem).trans once⟩
    dsimp only
    rw [r.table, if_neg here, found]

theorem gone (r : Recounted sys s app event context a n info) (inv : sys.Inv) {l : Launched}
    (mem : l ∈ sys.launches) {u : Nat} (gone : sys.Gone l u) :
    { sys with s := s, app := app }.Gone l u := by
  obtain ⟨free, dead, once⟩ := gone
  refine ⟨?_, ?_, (r.count inv mem).trans once⟩
  · rintro ⟨h, b, found, serial⟩
    obtain ⟨b', holds', serial'⟩ := r.held found
    exact free ⟨h, b', holds', serial'.symm.trans serial⟩
  · intro h e found
    obtain ⟨e', found', serial⟩ := r.serials found
    rw [serial]
    exact dead h e' found'

end Recounted

namespace Inv

variable {env : EventEnv} {sys : EventSystem}

theorem recount (inv : sys.Inv) {s : EventState} {app : Table Handle AppEvent}
    {event context : Handle} {a : AppEvent} {n : Nat} {info : EvtInfo}
    (r : Recounted sys s app event context a n info) (pos : 0 < n) (range : n < 4294967296)
    (counts : info.refCount = n) (redirects : sys.Redirects info a) :
    Inv { sys with s := s, app := app } := by
  have early : a.serial < sys.s.rt.created := inv.bounded event _ r.isLive
  constructor
  case nullFree =>
    have other : NULL ≠ event := by
      intro here
      have isLive := r.isLive
      rw [← here, inv.nullFree] at isLive
      contradiction
    dsimp only
    rw [r.live, if_neg other]
    exact inv.nullFree
  case bounded =>
    intro h e found
    obtain ⟨e', found', serial⟩ := r.serials found
    dsimp only
    rw [serial, r.created]
    exact inv.bounded h e' found'
  case unique =>
    intro h h' e e' found found' equal
    obtain ⟨d, before, serial⟩ := r.serials found
    obtain ⟨d', before', serial'⟩ := r.serials found'
    exact inv.unique h h' d d' before before' (serial.symm.trans (equal.trans serial'))
  case past =>
    intro k mem
    obtain ⟨passed, releases, ofEvent⟩ := r.releases
    dsimp only at mem ⊢
    rw [releases] at mem
    rw [r.created]
    rcases List.mem_append.mp mem with mem | mem
    · rw [Option.some.inj (ofEvent _ mem)]
      exact early
    · exact inv.past k mem
  case held =>
    intro h b found
    dsimp only at found ⊢
    rw [r.apps] at found
    rw [r.live]
    split_ifs at found ⊢ with here
    · rw [← Option.some.inj found]
      exact ⟨pos, context, rfl⟩
    · exact inv.held h b found
  case single =>
    intro h b found absent
    dsimp only at found absent
    rw [r.table] at absent
    split_ifs at absent with here
    rw [r.apps, if_neg here] at found
    exact inv.single h b found absent
  case entry =>
    intro h info' found
    dsimp only at found
    rw [r.table] at found
    split_ifs at found with here
    · obtain rfl := Option.some.inj found
      exact ⟨⟨a.serial, n⟩, by dsimp only; rw [r.apps, if_pos here], counts, range,
        r.redirects inv rfl redirects⟩
    · obtain ⟨b, holds', count, range', redirects'⟩ := inv.entry h info' found
      exact ⟨b, by dsimp only; rw [r.apps, if_neg here, holds'], count, range',
        r.redirects inv rfl redirects'⟩
  case launched =>
    intro l mem
    obtain ⟨u, user, uLt, internalLt, possession⟩ := inv.launched l mem
    refine ⟨u, user, by rwa [r.created], by rwa [r.created], ?_⟩
    exact possession.imp (r.kept inv mem) (r.gone inv mem)
  case internals => exact inv.internals
  case users => exact inv.users
  case apart =>
    intro l mem h b found
    obtain ⟨b', holds', serial⟩ := r.held found
    rw [serial]
    exact inv.apart l mem h b' holds'

/-- The application retains an event. -/
theorem retain (inv : sys.Inv) {event : Handle} {a : AppEvent}
    (holds : sys.app.find event = some a) (range : a.refs + 1 < 4294967296) :
    Inv { sys with
      s := (sys.s.clRetainEvent event).2
      app := sys.app.modify event fun a => { a with refs := a.refs + 1 } } := by
  obtain ⟨pos, context, isLive⟩ := inv.held event a holds
  have live : ∀ h, (sys.s.clRetainEvent event).2.rt.live.find h =
      if h = event then some ⟨a.serial, context, a.refs + 1⟩ else sys.s.rt.live.find h := by
    intro h
    simp only [EventState.clRetainEvent, EventRuntime.retainEvent]
    rw [Table.find_modify, isLive]
    rfl
  have app : ∀ h, (sys.app.modify event fun a => { a with refs := a.refs + 1 }).find h =
      if h = event then some ⟨a.serial, a.refs + 1⟩ else sys.app.find h := by
    intro h
    rw [Table.find_modify, holds]
    rfl
  have table : ∀ info, (sys.s.table.find event).getD ⟨event, 1, NULL⟩ = info → ∀ h,
      (sys.s.clRetainEvent event).2.table.find h =
        if h = event then some { info with refCount := u32 (info.refCount + 1) }
        else sys.s.table.find h := by
    intro info entry h
    simp only [EventState.clRetainEvent]
    rw [Table.find_modify, Table.find_insert, if_pos rfl, entry, Table.find_insert]
    split_ifs <;> rfl
  have range32 : u32 (a.refs + 1) = a.refs + 1 := Nat.mod_eq_of_lt range
  have releases : ∃ passed, (sys.s.clRetainEvent event).2.rt.releases =
      passed ++ sys.s.rt.releases ∧ ∀ r ∈ passed, r = some a.serial := ⟨[], rfl, by simp⟩
  cases found : sys.s.table.find event with
  | none =>
      have one : a.refs = 1 := inv.single event a holds found
      refine inv.recount ⟨holds, isLive, table ⟨event, 1, NULL⟩ (by rw [found]; rfl), ?_, live, app,
        rfl, releases⟩ (Nat.succ_pos _) range ?_ (Or.inl rfl)
      · intro info' found'
        rw [found] at found'
        contradiction
      · rw [one]
        rfl
  | some info =>
      obtain ⟨a', holds', count, -, redirects⟩ := inv.entry event info found
      obtain rfl : a = a' := Option.some.inj (holds.symm.trans holds')
      refine inv.recount ⟨holds, isLive, table info (by rw [found]; rfl), ?_, live, app, rfl,
        releases⟩ (Nat.succ_pos _) range ?_ redirects
      · intro info' found'
        obtain rfl : info = info' := Option.some.inj (found.symm.trans found')
        rfl
      · dsimp only
        rw [count, range32]

end Inv

/-! ## The last reference -/

/-- The application gives its last reference up, and the event goes together with
the internal one behind it. -/
structure Left (sys : EventSystem) (s : EventState) (event : Handle) (a : AppEvent) : Prop where
  holds : sys.app.find event = some a
  table : ∀ h, s.table.find h = if h = event then none else sys.s.table.find h
  live : ∀ h e, s.rt.live.find h = some e ↔
    sys.s.rt.live.find h = some e ∧ h ≠ event ∧ ¬ sys.Behind a h
  created : s.rt.created = sys.s.rt.created
  past : ∀ k, some k ∈ s.rt.releases → k < sys.s.rt.created
  others : ∀ l ∈ sys.launches, l.user ≠ some a.serial →
    s.rt.releases.count (some l.internal) = sys.s.rt.releases.count (some l.internal)
  behind : ∀ l ∈ sys.launches, l.user = some a.serial →
    s.rt.releases.count (some l.internal) = sys.s.rt.releases.count (some l.internal) + 1

namespace Left

variable {sys : EventSystem} {s : EventState} {event : Handle} {a : AppEvent}

/-- The application held before what it holds, and it is another event. -/
theorem held {h : Handle} {b : AppEvent} (found : (sys.app.remove event).find h = some b) :
    h ≠ event ∧ sys.app.find h = some b := by
  rw [Table.find_remove] at found
  split_ifs at found with here
  exact ⟨here, found⟩

/-- The internal events of other launches stay. -/
theorem keeps (left : Left sys s event a) (inv : sys.Inv) {l : Launched}
    (mem : l ∈ sys.launches) (other : l.user ≠ some a.serial) {h c : Handle}
    (found : sys.s.rt.live.find h = some ⟨l.internal, c, 1⟩) :
    s.rt.live.find h = some ⟨l.internal, c, 1⟩ := by
  apply (left.live h _).mpr
  refine ⟨found, inv.internal_ne mem left.holds found, ?_⟩
  rintro ⟨l', mem', user, c', found'⟩
  rw [found, Option.some.injEq] at found'
  obtain rfl := inv.eq_of_internal mem mem' (congrArg EventObject.serial found')
  exact other user

/-- The launch of the event is gone. -/
theorem gone_of_user (left : Left sys s event a) (inv : sys.Inv) {l : Launched}
    (mem : l ∈ sys.launches) (mine : l.user = some a.serial) :
    { sys with s := s, app := sys.app.remove event }.Gone l a.serial := by
  obtain ⟨info, c, -, isLive, once⟩ := inv.kept_of_held mem left.holds mine
  refine ⟨?_, ?_, ?_⟩
  · rintro ⟨h, b, found, same⟩
    obtain ⟨here, found⟩ := held found
    exact here (inv.held_unique found left.holds same)
  · intro h e found same
    obtain ⟨before, -, notBehind⟩ := (left.live h e).mp found
    obtain rfl := inv.unique _ _ _ _ before isLive same
    exact notBehind ⟨l, mem, mine, c, isLive⟩
  · dsimp only
    rw [left.behind l mem mine, once]

theorem kept (left : Left sys s event a) (inv : sys.Inv) {l : Launched} (mem : l ∈ sys.launches)
    {u : Nat} (user : l.user = some u) (other : l.user ≠ some a.serial) (kept : sys.Kept l u) :
    { sys with s := s, app := sys.app.remove event }.Kept l u := by
  obtain ⟨h, b, info, c, holds', same, found, isLive, once⟩ := kept
  have here : h ≠ event := by
    rintro rfl
    obtain rfl : a = b := Option.some.inj (left.holds.symm.trans holds')
    exact other (user.trans (congrArg some same.symm))
  refine ⟨h, b, info, c, ?_, same, ?_, left.keeps inv mem other isLive,
    (left.others l mem other).trans once⟩
  · dsimp only
    rw [Table.find_remove_of_ne here, holds']
  · dsimp only
    rw [left.table, if_neg here, found]

theorem gone (left : Left sys s event a) {l : Launched} (mem : l ∈ sys.launches) {u : Nat}
    (other : l.user ≠ some a.serial) (gone : sys.Gone l u) :
    { sys with s := s, app := sys.app.remove event }.Gone l u := by
  obtain ⟨free, dead, once⟩ := gone
  refine ⟨?_, ?_, (left.others l mem other).trans once⟩
  · rintro ⟨h, b, found, same⟩
    exact free ⟨h, b, (held found).2, same⟩
  · intro h e found
    exact dead h e ((left.live h e).mp found).1

end Left

namespace Inv

variable {env : EventEnv} {sys : EventSystem}

theorem leave (inv : sys.Inv) {s : EventState} {event : Handle} {a : AppEvent}
    (left : Left sys s event a) : Inv { sys with s := s, app := sys.app.remove event } := by
  constructor
  case nullFree =>
    by_contra isLive
    obtain ⟨e, found⟩ := Option.ne_none_iff_exists'.mp isLive
    have before := ((left.live NULL e).mp found).1
    rw [inv.nullFree] at before
    contradiction
  case bounded =>
    intro h e found
    dsimp only
    rw [left.created]
    exact inv.bounded h e ((left.live h e).mp found).1
  case unique =>
    intro h h' e e' found found' same
    exact inv.unique h h' e e' ((left.live h e).mp found).1 ((left.live h' e').mp found').1 same
  case past =>
    intro k mem
    dsimp only
    rw [left.created]
    exact left.past k mem
  case held =>
    intro h b found
    obtain ⟨here, found⟩ := Left.held found
    obtain ⟨pos, c, isLive⟩ := inv.held h b found
    refine ⟨pos, c, (left.live h _).mpr ⟨isLive, here, ?_⟩⟩
    rintro ⟨l, mem, -, c', isLive'⟩
    exact inv.internal_ne mem found isLive' rfl
  case single =>
    intro h b found absent
    obtain ⟨here, found⟩ := Left.held found
    dsimp only at absent
    rw [left.table, if_neg here] at absent
    exact inv.single h b found absent
  case entry =>
    intro h info found
    dsimp only at found
    rw [left.table] at found
    split_ifs at found with here
    obtain ⟨b, holds', count, range, redirects⟩ := inv.entry h info found
    refine ⟨b, by dsimp only; rw [Table.find_remove_of_ne here, holds'], count, range, ?_⟩
    refine redirects.imp_right ?_
    rintro ⟨l, mem, user, c, isLive⟩
    refine ⟨l, mem, user, c, left.keeps inv mem ?_ isLive⟩
    rw [user]
    intro same
    exact here (inv.held_unique holds' left.holds (Option.some.inj same))
  case launched =>
    intro l mem
    obtain ⟨u, user, uLt, internalLt, possession⟩ := inv.launched l mem
    refine ⟨u, user, by dsimp only; rwa [left.created], by dsimp only; rwa [left.created], ?_⟩
    by_cases mine : l.user = some a.serial
    · obtain rfl : u = a.serial := Option.some.inj (user.symm.trans mine)
      exact Or.inr (left.gone_of_user inv mem mine)
    · exact possession.imp (left.kept inv mem user mine) (left.gone mem mine)
  case internals => exact inv.internals
  case users => exact inv.users
  case apart =>
    intro l mem h b found
    exact inv.apart l mem h b (Left.held found).2

/-- The last release of an event that came from no launch. -/
theorem leave_alone (inv : sys.Inv) {s : EventState} {event context : Handle} {a : AppEvent}
    (holds : sys.app.find event = some a)
    (isLive : sys.s.rt.live.find event = some ⟨a.serial, context, 1⟩)
    (alone : ∀ l ∈ sys.launches, l.user ≠ some a.serial)
    (table : ∀ h, s.table.find h = if h = event then none else sys.s.table.find h)
    (rt : s.rt = (sys.s.rt.releaseEvent event).2) :
    Inv { sys with s := s, app := sys.app.remove event } := by
  rw [EventRuntime.releaseEvent_last isLive] at rt
  apply inv.leave
  constructor
  case holds => exact holds
  case table => exact table
  case live =>
    intro h e
    rw [rt]
    dsimp only
    rw [Table.find_remove]
    have notBehind : ¬ sys.Behind a h := by
      rintro ⟨l, mem, user, -⟩
      exact alone l mem user
    by_cases here : h = event <;> simp [here, notBehind]
  case created => rw [rt]
  case past =>
    intro k mem
    rw [rt] at mem
    rcases List.mem_cons.mp mem with same | mem
    · rw [Option.some.inj same]
      exact inv.bounded event _ isLive
    · exact inv.past k mem
  case others =>
    intro l mem _
    rw [rt]
    apply List.count_cons_of_ne
    intro same
    exact inv.apart l mem event a holds (Option.some.inj same)
  case behind =>
    intro l mem user
    exact absurd user (alone l mem)

/-- The last release of an event that came from a launch. -/
theorem leave_launch (inv : sys.Inv) {s : EventState} {event internal context c : Handle}
    {a : AppEvent} {l : Launched} (holds : sys.app.find event = some a)
    (isLive : sys.s.rt.live.find event = some ⟨a.serial, context, 1⟩)
    (mem : l ∈ sys.launches) (user : l.user = some a.serial)
    (internalLive : sys.s.rt.live.find internal = some ⟨l.internal, c, 1⟩)
    (table : ∀ h, s.table.find h = if h = event then none else sys.s.table.find h)
    (rt : s.rt = ((sys.s.rt.releaseEvent internal).2.releaseEvent event).2) :
    Inv { sys with s := s, app := sys.app.remove event } := by
  have other : internal ≠ event := inv.internal_ne mem holds internalLive
  have still : (sys.s.rt.live.remove internal).find event = some ⟨a.serial, context, 1⟩ := by
    rw [Table.find_remove_of_ne other.symm]
    exact isLive
  rw [EventRuntime.releaseEvent_last internalLive] at rt
  dsimp only at rt
  rw [@EventRuntime.releaseEvent_last ⟨sys.s.rt.live.remove internal, sys.s.rt.created,
    some l.internal :: sys.s.rt.releases⟩ event context a.serial still] at rt
  have apart : a.serial ≠ l.internal := inv.apart l mem event a holds
  apply inv.leave
  constructor
  case holds => exact holds
  case table => exact table
  case live =>
    intro h e
    rw [rt]
    dsimp only
    rw [Table.find_remove, Table.find_remove]
    by_cases here : h = event
    · simp [here]
    · rw [if_neg here]
      by_cases inside : h = internal
      · have isBehind : sys.Behind a h := by
          rw [inside]
          exact ⟨l, mem, user, c, internalLive⟩
        rw [if_pos inside]
        constructor
        · intro found
          contradiction
        · rintro ⟨-, -, notBehind⟩
          exact absurd isBehind notBehind
      · rw [if_neg inside]
        have notBehind : ¬ sys.Behind a h := by
          rintro ⟨l', mem', user', c', found⟩
          obtain rfl := inv.eq_of_user mem mem' (user.trans user'.symm)
          exact inside (inv.unique _ _ _ _ found internalLive rfl)
        simp [here, notBehind]
  case created => rw [rt]
  case past =>
    intro k released
    rw [rt] at released
    rcases List.mem_cons.mp released with same | released
    · rw [Option.some.inj same]
      exact inv.bounded event _ isLive
    · rcases List.mem_cons.mp released with same | released
      · rw [Option.some.inj same]
        exact inv.bounded internal _ internalLive
      · exact inv.past k released
  case others =>
    intro l' mem' user'
    rw [rt]
    dsimp only
    rw [List.count_cons_of_ne, List.count_cons_of_ne]
    · intro same
      obtain rfl := inv.eq_of_internal mem mem' (Option.some.inj same)
      exact user' user
    · intro same
      exact inv.apart l' mem' event a holds (Option.some.inj same)
  case behind =>
    intro l' mem' user'
    obtain rfl := inv.eq_of_user mem mem' (user.trans user'.symm)
    rw [rt]
    dsimp only
    rw [List.count_cons_of_ne, List.count_cons_self]
    intro same
    exact apart (Option.some.inj same)

/-- The application releases an event. -/
theorem release (inv : sys.Inv) {s : EventState} {event : Handle} {a : AppEvent} {ok : Bool}
    (holds : sys.app.find event = some a)
    (ran : sys.s.clReleaseEvent event = some (ok, s)) :
    Inv { sys with s := s, app := dropEvent sys.app event a } := by
  obtain ⟨pos, context, isLive⟩ := inv.held event a holds
  rw [EventState.clReleaseEvent] at ran
  cases found : sys.s.table.find event with
  | none =>
      have one : a.refs = 1 := inv.single event a holds found
      rw [found] at ran
      obtain ⟨-, rfl⟩ := Prod.mk.inj (Option.some.inj ran)
      rw [one] at isLive
      rw [dropEvent, if_pos one]
      apply inv.leave_alone holds isLive
      case alone =>
        intro l mem user
        obtain ⟨info, -, found', -⟩ := inv.kept_of_held mem holds user
        rw [found] at found'
        contradiction
      case table =>
        intro h
        by_cases here : h = event <;> simp [here, found]
      case rt => rfl
  | some info =>
      rw [found] at ran
      dsimp only at ran
      obtain ⟨t, entry, forwarded⟩ := Option.map_eq_some_iff.mp ran
      obtain ⟨-, rfl⟩ := Prod.mk.inj forwarded
      obtain ⟨a', holds', count, range, redirects⟩ := inv.entry event info found
      obtain rfl : a = a' := Option.some.inj (holds.symm.trans holds')
      have counted : sub32 info.refCount 1 = a.refs - 1 := by
        rw [count]
        exact sub32_of_le range pos
      rw [EventState.releaseInfo] at entry
      dsimp only at entry
      rw [counted] at entry
      by_cases one : a.refs = 1
      · rw [dropEvent, if_pos one]
        rw [one] at isLive
        rw [if_pos (by rw [one])] at entry
        split_ifs at entry with owns
        · obtain ⟨l, mem, user, c, internalLive⟩ := redirects.resolve_left owns
          rw [EventRuntime.releaseEvent_last internalLive] at entry
          obtain rfl := Option.some.inj entry
          apply inv.leave_launch holds isLive mem user internalLive
          case table =>
            intro h
            exact Table.find_remove _ _ _
          case rt =>
            rw [EventRuntime.releaseEvent_last internalLive]
        · obtain rfl := Option.some.inj entry
          apply inv.leave_alone holds isLive
          case alone =>
            intro l mem user
            obtain ⟨info', c, found', live', -⟩ := inv.kept_of_held mem holds user
            obtain rfl : info = info' := Option.some.inj (found.symm.trans found')
            rw [not_not] at owns
            rw [owns, inv.nullFree] at live'
            simp at live'
          case table =>
            intro h
            exact Table.find_remove _ _ _
          case rt => rfl
      · rw [dropEvent, if_neg one]
        rw [if_neg (by omega)] at entry
        obtain rfl := Option.some.inj entry
        have shared := EventRuntime.releaseEvent_shared isLive one
        refine @recount sys inv _ _ event context a (a.refs - 1)
          { info with refCount := a.refs - 1 } ?_ (by omega) (by omega) rfl redirects
        constructor
        case holds => exact holds
        case isLive => exact isLive
        case table =>
          intro h
          dsimp only
          rw [Table.find_modify, found]
          rfl
        case same =>
          intro info' found'
          obtain rfl : info = info' := Option.some.inj (found.symm.trans found')
          rfl
        case live =>
          intro h
          dsimp only
          rw [shared]
          rw [Table.find_modify, isLive]
          rfl
        case apps =>
          intro h
          rw [Table.find_modify, holds]
          rfl
        case created =>
          dsimp only
          rw [shared]
        case releases =>
          refine ⟨[some a.serial], ?_, by simp⟩
          dsimp only
          rw [shared]
          rfl

/-- An entry is that of a live event. -/
theorem known (inv : sys.Inv) (h : Handle) (info : EvtInfo)
    (found : sys.s.table.find h = some info) : (sys.s.rt.live.find h).isSome := by
  obtain ⟨a, holds, -⟩ := inv.entry h info found
  obtain ⟨-, context, isLive⟩ := inv.held h a holds
  rw [isLive]
  rfl

/-- What a new event is not. -/
theorem free_of_fresh (inv : sys.Inv) {event : Handle}
    (fresh : sys.s.rt.live.find event = none) :
    sys.app.find event = none ∧ sys.s.table.find event = none := by
  have free : sys.app.find event = none := by
    by_contra isHeld
    obtain ⟨a, holds⟩ := Option.ne_none_iff_exists'.mp isHeld
    obtain ⟨-, context, isLive⟩ := inv.held event a holds
    rw [fresh] at isLive
    contradiction
  refine ⟨free, ?_⟩
  by_contra isEntry
  obtain ⟨info, found⟩ := Option.ne_none_iff_exists'.mp isEntry
  have isLive := inv.known event info found
  rw [fresh] at isLive
  contradiction

/-- A serial number that is not given out yet. -/
theorem unrelated (inv : sys.Inv) {serial : Nat} (new : sys.s.rt.created ≤ serial)
    {l : Launched} (mem : l ∈ sys.launches) : serial ≠ l.internal ∧ l.user ≠ some serial := by
  obtain ⟨u, user, uLt, internalLt, -⟩ := inv.launched l mem
  refine ⟨(internalLt.trans_le new).ne', ?_⟩
  rw [user]
  intro same
  exact (uLt.trans_le new).ne (Option.some.inj same)

/-- A command gives the application a new event. -/
theorem command (inv : sys.Inv) {rt : EventRuntime} {event context : Handle}
    (made : sys.s.rt.createEvent env context = some (event, rt)) :
    Inv { sys with s := { sys.s with rt := rt }, app := receiveEvent sys.app rt event } := by
  have new := EventRuntime.createEvent_eq_some made
  have live : rt.live.find event = some ⟨sys.s.rt.created, context, 1⟩ := by
    rw [new.live, Table.find_insert_fresh new.fresh]
  rw [receiveEvent, live]
  exact (inv.grow new.grown).hold live (inv.free_of_fresh new.fresh).1
    fun l mem => inv.unrelated (le_refl _) mem

/-- A launch that is asked for an event. -/
theorem launch (inv : sys.Inv) {s : EventState} {context internal : Handle} {path : CheckPath}
    {event : Option Handle} {external : Option EventCell}
    (asks : sys.AsksForEvent env (.launch context path event))
    (ran : sys.s.launchEvents env context path event = some (internal, external, s)) :
    ∃ user u, external = some ⟨user, true⟩ ∧ (∃ c, s.rt.live.find user = some ⟨u, c, 1⟩) ∧
      Inv { sys with
        s := s
        app := sys.app.insert user ⟨u, 1⟩
        launches := ⟨sys.s.rt.created, some u⟩ :: sys.launches } := by
  obtain ⟨checks, asked, granted⟩ := asks
  obtain ⟨old, rfl⟩ := Option.isSome_iff_exists.mp asked
  rw [EventState.launchEvents] at ran
  obtain ⟨⟨first, rt⟩, made, ran⟩ := Option.bind_eq_some_iff.mp ran
  obtain ⟨⟨cell, t⟩, verified, ran⟩ := Option.map_eq_some_iff.mp ran
  have new := EventRuntime.createEvent_eq_some made
  have running : Inv { sys with s := { sys.s with rt := rt } } := inv.grow new.grown
  obtain ⟨user, u, rfl, table, grown⟩ := EventState.verifyEvents_grown running.known checks
    (fun host => granted host first rt made) verified
  simp only [Prod.mk.injEq] at ran
  obtain ⟨rfl, rfl, rfl⟩ := ran
  obtain ⟨passed, releases, between⟩ := grown.releases
  have checked : Inv { sys with s := t } := by
    have grow := running.grow grown
    dsimp only at grow
    rw [← table] at grow
    exact grow
  have userLive : t.rt.live.find user = some ⟨u, context, 1⟩ := by
    rw [grown.live, Table.find_insert_fresh grown.fresh]
  have internalBefore : rt.live.find first = some ⟨sys.s.rt.created, context, 1⟩ := by
    rw [new.live, Table.find_insert_fresh new.fresh]
  have other : first ≠ user := by
    rintro rfl
    have fresh := grown.fresh
    dsimp only at fresh
    rw [internalBefore] at fresh
    contradiction
  have internalLive : t.rt.live.find first = some ⟨sys.s.rt.created, context, 1⟩ := by
    rw [grown.live, Table.find_insert_of_ne other]
    exact internalBefore
  obtain ⟨free, absent⟩ := running.free_of_fresh grown.fresh
  have later : sys.s.rt.created < u := by
    have recent := grown.recent
    dsimp only at recent
    rw [new.created] at recent
    exact recent
  have holding := checked.hold userLive free fun l mem => running.unrelated grown.recent mem
  refine ⟨user, u, rfl, ⟨context, userLive⟩, ?_⟩
  apply holding.own
  case holds => exact Table.find_insert_fresh free
  case absent =>
    dsimp only
    rw [table]
    exact absent
  case isLive => exact internalLive
  case unreleased =>
    dsimp only
    rw [count_passed releases between (by dsimp only; rw [new.created]; exact Nat.lt_succ_self _)]
    apply List.count_eq_zero.mpr
    intro mem
    dsimp only at mem
    rw [new.releases] at mem
    exact (inv.past _ mem).ne rfl
  case unrelated =>
    intro l mem
    exact ⟨(inv.unrelated (le_refl _) mem).1.symm, (inv.unrelated later.le mem).2⟩
  case unheld =>
    intro h a holds
    dsimp only at holds
    rw [Table.find_insert] at holds
    split_ifs at holds with here
    · rw [free] at holds
      rw [← Option.some.inj holds]
      exact later.ne'
    · obtain ⟨-, c, isLive⟩ := inv.held h a holds
      exact (inv.bounded h _ isLive).ne

end Inv

/-- Every call keeps the invariant, when launches are asked for an event. -/
theorem inv_step {env : EventEnv} {sys sys' : EventSystem} {call : EventCall} (inv : sys.Inv)
    (asks : sys.AsksForEvent env call) (stepped : sys.step env call = some sys') : sys'.Inv := by
  cases call with
  | launch context path event =>
      obtain ⟨⟨internal, external, s⟩, ran, rfl⟩ := Option.map_eq_some_iff.mp stepped
      obtain ⟨user, u, rfl, ⟨c, live⟩, inv'⟩ := inv.launch asks ran
      dsimp only
      rw [receiveEvent, live]
      exact inv'
  | command context =>
      obtain ⟨⟨event, rt⟩, made, rfl⟩ := Option.map_eq_some_iff.mp stepped
      exact inv.command made
  | retain event =>
      rw [step] at stepped
      split_ifs at stepped with holds
      obtain ⟨a, holds⟩ := Option.isSome_iff_exists.mp holds
      rw [← Option.some.inj stepped]
      exact inv.retain holds (asks a holds)
  | release event =>
      obtain ⟨a, holds, stepped⟩ := Option.bind_eq_some_iff.mp stepped
      obtain ⟨⟨ok, s⟩, ran, rfl⟩ := Option.map_eq_some_iff.mp stepped
      exact inv.release holds ran

/-- In every run in which each launch is asked for an event, internal events are
owned exactly once. -/
theorem ownedOnce_of_run {env : EventEnv} {sys : EventSystem}
    (run : Run.Reach (step env) (AsksForEvent env) initial sys) : sys.OwnedOnce := by
  have inv : sys.Inv := run.invariant inv_initial fun _ _ _ inv asks stepped =>
    inv_step inv asks stepped
  exact inv.ownedOnce

/-- A runtime that numbers its events. -/
def numbered : EventEnv := ⟨fun n => n + 1⟩

/-- A launch that is checked on the device, whose event is retained and released
twice. -/
theorem ownedOnce_of_run_released :
    ∃ sys, sys.launches = [⟨0, some 4⟩] ∧
      sys.s.rt.releases = [some 4, some 0, some 4, some 3, some 2, some 1] ∧
      Run.Reach (step numbered) (AsksForEvent numbered) initial sys ∧ sys.OwnedOnce := by
  have launched : Run.Reach (step numbered) (AsksForEvent numbered) initial _ :=
    .tail (a := .launch 7 .singleBuffer (some 99)) .refl
      ⟨by decide, rfl, fun host => by contradiction⟩ rfl
  have retained : Run.Reach (step numbered) (AsksForEvent numbered) initial _ :=
    .tail (a := .retain 5) launched
      (fun a held => by
        obtain rfl : (⟨4, 1⟩ : AppEvent) = a := Option.some.inj held
        exact (by decide : 2 < 4294967296)) rfl
  have once : Run.Reach (step numbered) (AsksForEvent numbered) initial _ :=
    .tail (a := .release 5) retained trivial rfl
  have twice : Run.Reach (step numbered) (AsksForEvent numbered) initial _ :=
    .tail (a := .release 5) once trivial rfl
  exact ⟨_, rfl, rfl, twice, ownedOnce_of_run twice⟩

/-- The internal event of a launch that is asked for no event is live and in no
entry. -/
theorem not_ownedOnce_unasked :
    ∃ sys, Run.Reach (step numbered)
        (fun _ call => ∀ context event, call ≠ .launch context .nothing event) initial sys ∧
      sys.launches = [⟨0, none⟩] ∧ sys.s.rt.live.find 1 = some ⟨0, 7, 1⟩ ∧ ¬ sys.OwnedOnce := by
  have launched : Run.Reach (step numbered)
      (fun _ call => ∀ context event, call ≠ .launch context .nothing event) initial _ :=
    .tail (a := .launch 7 .host none) .refl (fun context event => by simp) rfl
  refine ⟨_, launched, rfl, rfl, fun owned => ?_⟩
  obtain ⟨user, ⟨info, e, found, -⟩, -⟩ := (owned.owner ⟨0, none⟩ List.mem_cons_self).mp (by
    intro released
    cases released)
  cases found

end EventSystem

end Clarmor
