import Clarmor.Defines
import Clarmor.Library.Table

/-!
# Events of the OpenCL runtime

The documented behaviour of event objects as far as references go.  Which handle
a new event gets, or that there is none, is left to an environment, except that
it is neither `NULL` nor the handle of a live event.  Every event has a serial
number, since the handle of a released event may come back.  The runtime
remembers every release, with the event it was given.
-/

namespace Clarmor

/-- The handles that the runtime gives to its successive events. -/
structure EventEnv where
  handle : Nat → Handle

/-- A live event. -/
structure EventObject where
  serial : Nat
  context : Handle
  refs : Nat
deriving DecidableEq, Repr

/-- The runtime's events and every `ReleaseEvent` so far, the latest first; an
invalid handle is remembered as `none`. -/
structure EventRuntime where
  live : Table Handle EventObject
  created : Nat
  releases : List (Option Nat)

namespace EventRuntime

/-- The runtime before any event. -/
def initial : EventRuntime := ⟨Table.empty, 0, []⟩

/-- Make an event in a context, if the runtime can. -/
def createEvent (rt : EventRuntime) (env : EventEnv) (context : Handle) :
    Option (Handle × EventRuntime) :=
  let handle := env.handle rt.created
  if handle = NULL ∨ (rt.live.find handle).isSome then none
  else
    some (handle, { rt with
      live := rt.live.insert handle ⟨rt.created, context, 1⟩
      created := rt.created + 1 })

/-- `RetainEvent`; the result tells whether the handle was valid. -/
def retainEvent (rt : EventRuntime) (event : Handle) : Bool × EventRuntime :=
  ((rt.live.find event).isSome,
    { rt with live := rt.live.modify event fun e => { e with refs := e.refs + 1 } })

/-- `ReleaseEvent`; the result tells whether the handle was valid. -/
def releaseEvent (rt : EventRuntime) (event : Handle) : Bool × EventRuntime :=
  match rt.live.find event with
  | none => (false, { rt with releases := none :: rt.releases })
  | some e =>
      (true, { rt with
        live :=
          if e.refs = 1 then rt.live.remove event
          else rt.live.modify event fun e => { e with refs := e.refs - 1 }
        releases := some e.serial :: rt.releases })

/-- A new event is live, with one reference and the next serial number. -/
structure NewEvent (rt rt' : EventRuntime) (event context : Handle) : Prop where
  notNull : event ≠ NULL
  fresh : rt.live.find event = none
  live : rt'.live = rt.live.insert event ⟨rt.created, context, 1⟩
  created : rt'.created = rt.created + 1
  releases : rt'.releases = rt.releases

theorem createEvent_eq_some {rt rt' : EventRuntime} {env : EventEnv} {event context : Handle}
    (made : rt.createEvent env context = some (event, rt')) : NewEvent rt rt' event context := by
  simp only [createEvent] at made
  split at made
  · contradiction
  · rename_i usable
    rw [Option.some.injEq, Prod.mk.injEq] at made
    obtain ⟨rfl, rfl⟩ := made
    rw [not_or, Option.not_isSome_iff_eq_none] at usable
    exact ⟨usable.1, usable.2, rfl, rfl, rfl⟩

/-- Releasing the only reference of an event. -/
theorem releaseEvent_last {rt : EventRuntime} {event context : Handle} {serial : Nat}
    (isLive : rt.live.find event = some ⟨serial, context, 1⟩) :
    rt.releaseEvent event =
      (true, { rt with live := rt.live.remove event, releases := some serial :: rt.releases }) := by
  simp [releaseEvent, isLive]

/-- Releasing one of several references of an event. -/
theorem releaseEvent_shared {rt : EventRuntime} {event : Handle} {e : EventObject}
    (isLive : rt.live.find event = some e) (shared : e.refs ≠ 1) :
    rt.releaseEvent event =
      (true, { rt with
        live := rt.live.modify event fun e => { e with refs := e.refs - 1 }
        releases := some e.serial :: rt.releases }) := by
  simp [releaseEvent, isLive, shared]

end EventRuntime

end Clarmor
