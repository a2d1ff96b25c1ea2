import Clarmor.Library.Word
import Clarmor.Runtime.Events

/-!
# The event table

`clRetainEvent`, `clReleaseEvent` and the redirection of
`clGetEventProfilingInfo`, and what `kernelLaunchFunc` does with events.  A
launch runs the kernel with an event of its own and gives the application one
that completes after the checks; the table leads from the latter to the former.

The events that a check uses for its own commands and releases before it returns
are left out, except for those that end the parts of a check on the device.
-/

namespace Clarmor

open Word

/-- `cl_evt_info`. -/
structure EvtInfo where
  handle : Handle
  refCount : Nat
  internalEvent : Handle
deriving DecidableEq, Repr

/-- The table behind `get_cl_evt_list`, and the runtime's events. -/
structure EventState where
  table : Table Handle EvtInfo
  rt : EventRuntime

/-- The place for an event that the caller of an enqueue gives: what is in it,
and whether the call has put it there. -/
structure EventCell where
  value : Handle
  written : Bool
deriving DecidableEq, Repr

namespace EventState

/-- The start of a process. -/
def initial : EventState := ⟨Table.empty, EventRuntime.initial⟩

/-- `clRetainEvent`. -/
def clRetainEvent (s : EventState) (event : Handle) : Bool × EventState :=
  let table := s.table.insert event ⟨event, 1, NULL⟩
  let table := table.modify event fun info => { info with refCount := u32 (info.refCount + 1) }
  match s.rt.retainEvent event with
  | (err, rt) => (err, ⟨table, rt⟩)

/-- The wrapper's own part of `clReleaseEvent`: the internal event goes with the
last reference, and so does the entry.  An error of the runtime ends the
process. -/
def releaseInfo (s : EventState) (event : Handle) (info : EvtInfo) : Option EventState :=
  let info := { info with refCount := sub32 info.refCount 1 }
  if info.refCount = 0 then
    if info.internalEvent ≠ NULL then
      match s.rt.releaseEvent info.internalEvent with
      | (true, rt) => some ⟨s.table.remove event, rt⟩
      | (false, _) => none
    else some { s with table := s.table.remove event }
  else some { s with table := s.table.modify event fun _ => info }

/-- The call of the real `ReleaseEvent`. -/
def forwardRelease (event : Handle) (s : EventState) : Bool × EventState :=
  ((s.rt.releaseEvent event).1, { s with rt := (s.rt.releaseEvent event).2 })

/-- `clReleaseEvent`. -/
def clReleaseEvent (s : EventState) (event : Handle) : Option (Bool × EventState) :=
  match s.table.find event with
  | none => some (s.forwardRelease event)
  | some info => (s.releaseInfo event info).map (forwardRelease event)

/-- The event whose times `clGetEventProfilingInfo` asks the runtime for. -/
def profiledEvent (s : EventState) (event : Handle) : Handle :=
  match s.table.find event with
  | none => event
  | some info => if info.internalEvent ≠ NULL then info.internalEvent else event

/-- Release events one after the other; an error ends the process. -/
def releaseEvents (s : EventState) : List Handle → Option EventState
  | [] => some s
  | event :: rest =>
      match s.clReleaseEvent event with
      | some (true, s) => s.releaseEvents rest
      | _ => none

/-- Make events one after the other; an error ends the process. -/
def createEvents (env : EventEnv) (context : Handle) (s : EventState) :
    Nat → Option (List Handle × EventState)
  | 0 => some ([], s)
  | n + 1 =>
      match s.rt.createEvent env context with
      | none => none
      | some (event, rt) =>
          (createEvents env context { s with rt := rt } n).map fun (events, s) =>
            (event :: events, s)

/-- The end of a check on the device: every part has an event of its own, and a
marker that waits for them is what the caller gets. -/
def finishOnGpu (env : EventEnv) (s : EventState) (context : Handle) (parts : Nat)
    (retEvt : Option EventCell) : Option (Option EventCell × EventState) :=
  (createEvents env context s parts).bind fun (evtList, s) =>
  (s.rt.createEvent env context).bind fun (finish, rt) =>
  (releaseEvents { s with rt := rt } evtList).bind fun s =>
  match retEvt with
  | some _ => some (some ⟨finish, true⟩, s)
  | none => (s.releaseEvents [finish]).map fun s => (none, s)

/-- The events of `verify_on_gpu_single_buffer`: one for the `cl_mem` buffers,
one for shared virtual memory and one for images. -/
def verifyOnGpuSingleBuffer (env : EventEnv) (s : EventState) (context : Handle)
    (retEvt : Option EventCell) : Option (Option EventCell × EventState) :=
  s.finishOnGpu env context 3 retEvt

/-- The events of `verify_on_gpu_copy_canary`: one for buffers of both kinds and
one for images. -/
def verifyOnGpuCopyCanary (env : EventEnv) (s : EventState) (context : Handle)
    (retEvt : Option EventCell) : Option (Option EventCell × EventState) :=
  s.finishOnGpu env context 2 retEvt

/-- The event after `verify_buffer_on_host`: a completed user event, whose
creation is not checked. -/
def verifyOnHost (env : EventEnv) (s : EventState) (context : Handle)
    (retEvt : Option EventCell) : Option EventCell × EventState :=
  match retEvt with
  | none => (none, s)
  | some _ =>
      match s.rt.createEvent env context with
      | none => (some ⟨NULL, true⟩, s)
      | some (event, rt) => (some ⟨event, true⟩, { s with rt := rt })

end EventState

/-- The ways that `verifyBufferInBounds` can take. -/
inductive CheckPath where
  | nothing
  | host
  | singleBuffer
  | copyCanary
deriving DecidableEq, Repr

namespace EventState

/-- The events of `verifyBufferInBounds`. -/
def verifyEvents (env : EventEnv) (s : EventState) (context : Handle) (path : CheckPath)
    (retEvt : Option EventCell) : Option (Option EventCell × EventState) :=
  match path with
  | .nothing => some (retEvt, s)
  | .host => some (s.verifyOnHost env context retEvt)
  | .singleBuffer => s.verifyOnGpuSingleBuffer env context retEvt
  | .copyCanary => s.verifyOnGpuCopyCanary env context retEvt

/-- Enter the internal event of a launch under the application's event; an entry
that is there already keeps its count. -/
def recordEvent (s : EventState) (external internal : Handle) : EventState :=
  let table := s.table.modify external fun info =>
    { info with handle := external, internalEvent := internal }
  { s with table := table.insert external ⟨external, 1, internal⟩ }

/-- The events of `kernelLaunchFunc`: the internal one, and the place that the
application gave for its own. -/
def launchEvents (env : EventEnv) (s : EventState) (context : Handle) (path : CheckPath)
    (event : Option Handle) : Option (Handle × Option EventCell × EventState) :=
  (s.rt.createEvent env context).bind fun (internal, rt) =>
  (({ s with rt := rt } : EventState).verifyEvents env context path
    (event.map fun old => ⟨old, false⟩)).map fun (external, s) =>
  match external with
  | none => (internal, none, s)
  | some cell => (internal, some cell, s.recordEvent cell.value internal)

end EventState

end Clarmor
