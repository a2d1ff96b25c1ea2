import Clarmor.Launch.CheckArrays
import Clarmor.Wrapper.EventOwners

/-!
# The event that a launch gives to the application

`kernelLaunchFunc` runs the kernel with an event of its own.  The place that the
application gave for the event is filled by `verifyBufferInBounds`, on each of
the ways that it can take to a checker, and read afterwards to enter the event
into the table.
-/

namespace Clarmor

open Word

/-- `CL_DEVICE_TYPE_CPU`. -/
def CL_DEVICE_TYPE_CPU : Nat := 2

/-- `DEVICE_GPU`. -/
def DEVICE_GPU : Nat := 1

/-- `DEVICE_CPU`. -/
def DEVICE_CPU : Nat := 2

/-- `GPU_MODE_SINGLE_BUFFER`. -/
def GPU_MODE_SINGLE_BUFFER : Int := 2

/-- What the choice of a checker depends on next to the arguments: the type of the
device, and the values of two environment variables. -/
structure CheckDevice where
  devType : Nat
  useDevice : Nat
  gpuStrat : Int
deriving DecidableEq, Repr

/-- The condition for a check on the device. -/
def CheckDevice.ChecksOnGpu (device : CheckDevice) (totalSVM totalImgs checkItems : Nat) : Prop :=
  device.devType ≠ CL_DEVICE_TYPE_CPU ∧
    ((totalSVM > 0 ∨ totalImgs > 0) ∧ device.useDevice ≠ DEVICE_CPU ∨
      checkItems > 0 ∧ device.useDevice = DEVICE_GPU)

instance (device : CheckDevice) (totalSVM totalImgs checkItems : Nat) :
    Decidable (device.ChecksOnGpu totalSVM totalImgs checkItems) :=
  inferInstanceAs (Decidable (_ ∧ _))

/-- The choice at the end of `verifyBufferInBounds`. -/
def CheckDevice.choose (device : CheckDevice) (totalBuffs totalSVM totalImgs : Nat) : CheckPath :=
  let checkItems := u32 (totalBuffs + totalSVM + totalImgs)
  if device.ChecksOnGpu totalSVM totalImgs checkItems then
    if device.gpuStrat = GPU_MODE_SINGLE_BUFFER then .singleBuffer else .copyCanary
  else if checkItems > 0 then .host
  else .nothing

namespace KernelState

variable (s : KernelState) (args : OrderedMap Nat ArgEntry) (dupe : List Nat)

/-- The way that `verifyBufferInBounds` takes. -/
def checkPath (device : CheckDevice) (nargs : Nat) : Option CheckPath :=
  (s.checkCounts args dupe nargs).map fun c =>
    device.choose c.numBuffs (if c.hasSVM then s.countSvm else 0) c.numImgs

/-- `kernelLaunchFunc` from the run of the kernel on, as far as events go: `args`
are the arguments of the kernel that runs. -/
def launch (env : EventEnv) (device : CheckDevice) (nargs : Nat) (events : EventState)
    (context : Handle) (event : Option Handle) :
    Option (Handle × Option EventCell × EventState) :=
  (s.checkPath args dupe device nargs).bind fun path =>
    events.launchEvents env context path event

/-- The number of regions that are checked. -/
def svmItems (n : Nat) : Nat := if PassesSvm args dupe n then s.svmHandles.length else 0

/-- The number of buffers, regions and images that are checked. -/
def checkItems (n : Nat) : Nat :=
  (s.bufferHandles args dupe n).length + s.svmItems args dupe n +
    (s.imageHandles args dupe n).length

/-- The way that follows from the numbers of what is checked. -/
def pathFor (device : CheckDevice) (n : Nat) : CheckPath :=
  device.choose (s.bufferHandles args dupe n).length (u32 (s.svmItems args dupe n))
    (s.imageHandles args dupe n).length

/-- There is something to check, as far as the counters of 32 bits can tell. -/
def ChecksItems (device : CheckDevice) (n : Nat) : Prop :=
  u32 (s.checkItems args dupe n) ≠ 0 ∨
    device.devType ≠ CL_DEVICE_TYPE_CPU ∧ device.useDevice ≠ DEVICE_CPU ∧
      (u32 (s.svmItems args dupe n) ≠ 0 ∨ s.imageHandles args dupe n ≠ [])

end KernelState

/-- The event that a call leaves in its place: written, and made by the call in
the context of the queue.  It is live, when no entry of the table before the call
is under the handle of an event that is gone. -/
structure GivesEvent (env : EventEnv) (events events' : EventState) (context : Handle)
    (cell : EventCell) : Prop where
  written : cell.written = true
  made : ∃ rt rt' : EventRuntime, rt.createEvent env context = some (cell.value, rt') ∧
    events.rt.created ≤ rt.created ∧ rt'.created ≤ events'.rt.created
  live : (∀ h info, events.table.find h = some info → (events.rt.live.find h).isSome) →
    ∃ serial, events'.rt.live.find cell.value = some ⟨serial, context, 1⟩

/-- After the internal event another one can be made. -/
def UserEventGranted (env : EventEnv) (events : EventState) (context : Handle) : Prop :=
  ∀ internal rt, events.rt.createEvent env context = some (internal, rt) →
    (rt.createEvent env context).isSome

variable {device : CheckDevice} {s : KernelState} {args : OrderedMap Nat ArgEntry}
  {dupe : List Nat} {env : EventEnv} {events events' : EventState} {context : Handle}

namespace KernelState

/-- The way depends on the arguments through the numbers of what is checked. -/
theorem checkPath_spec {nargs : Nat} {path : CheckPath} (few : nargs < 4294967296)
    (chosen : s.checkPath args dupe device nargs = some path) :
    path = s.pathFor args dupe device nargs := by
  obtain ⟨c, counted, rfl⟩ := Option.map_eq_some_iff.mp chosen
  obtain ⟨buffs, imgs, svm⟩ := checkCounts_spec few counted
  have regions : (if c.hasSVM then s.countSvm else 0) = u32 (s.svmItems args dupe nargs) := by
    rw [svmItems, countSvm_eq]
    by_cases passes : PassesSvm args dupe nargs
    · rw [if_pos (svm.mpr passes), if_pos passes]
    · rw [if_neg (svm.not.mpr passes), if_neg passes]
      rfl
  rw [regions, buffs, imgs, pathFor]

theorem choose_eq_nothing_iff {totalBuffs totalSVM totalImgs : Nat} :
    device.choose totalBuffs totalSVM totalImgs = .nothing ↔
      u32 (totalBuffs + totalSVM + totalImgs) = 0 ∧
        ¬ device.ChecksOnGpu totalSVM totalImgs (u32 (totalBuffs + totalSVM + totalImgs)) := by
  simp only [CheckDevice.choose]
  split_ifs with gpu single items
  · simp [gpu]
  · simp [gpu]
  · simp [items.ne']
  · simpa [gpu] using items

/-- A way to a checker is taken when there is something to check. -/
theorem pathFor_ne_nothing_iff {n : Nat} :
    s.pathFor args dupe device n ≠ .nothing ↔ s.ChecksItems args dupe device n := by
  have total : u32 ((s.bufferHandles args dupe n).length + u32 (s.svmItems args dupe n) +
      (s.imageHandles args dupe n).length) = u32 (s.checkItems args dupe n) := by
    rw [← u32_u32_add, u32_add_u32, u32_u32_add]
    rfl
  rw [pathFor, ne_eq, choose_eq_nothing_iff, total, ChecksItems, CheckDevice.ChecksOnGpu]
  have images : s.imageHandles args dupe n ≠ [] ↔ (s.imageHandles args dupe n).length > 0 :=
    List.length_pos_iff.symm
  rw [images]
  by_cases none : u32 (s.checkItems args dupe n) = 0
  · simp [none, Nat.pos_iff_ne_zero]
    tauto
  · simp [none]

end KernelState

namespace EventState

variable {e e' : EventState}

/-! ## What was made -/

theorem clReleaseEvent_created {event : Handle} {valid : Bool}
    (released : e.clReleaseEvent event = some (valid, e')) : e'.rt.created = e.rt.created := by
  have forwarded : ∀ t : EventState, (t.forwardRelease event).2.rt.created = t.rt.created := by
    intro t
    rw [forwardRelease, EventRuntime.releaseEvent]
    cases t.rt.live.find event <;> rfl
  rw [clReleaseEvent] at released
  cases found : e.table.find event with
  | none =>
      rw [found] at released
      have result := congrArg Prod.snd (Option.some.inj released)
      rw [← show (e.forwardRelease event).2 = e' from result, forwarded]
  | some info =>
      rw [found] at released
      obtain ⟨t, entry, same⟩ := Option.map_eq_some_iff.mp released
      have result := congrArg Prod.snd same
      rw [← show (t.forwardRelease event).2 = e' from result, forwarded]
      simp only [releaseInfo] at entry
      split_ifs at entry with last internal
      · rw [EventRuntime.releaseEvent] at entry
        cases live : e.rt.live.find info.internalEvent with
        | none => simp [live] at entry
        | some object =>
            rw [live] at entry
            rw [← Option.some.inj entry]
      · rw [← Option.some.inj entry]
      · rw [← Option.some.inj entry]

theorem releaseEvents_created {l : List Handle} (released : e.releaseEvents l = some e') :
    e'.rt.created = e.rt.created := by
  induction l generalizing e with
  | nil => rw [← Option.some.inj released]
  | cons event rest ih =>
      rw [releaseEvents] at released
      cases first : e.clReleaseEvent event with
      | none => simp [first] at released
      | some result =>
          obtain ⟨valid, t⟩ := result
          rw [first] at released
          cases valid with
          | false => contradiction
          | true => exact (ih released).trans (clReleaseEvent_created first)

/-- A check on the device gives its marker to the caller. -/
theorem finishOnGpu_made {parts : Nat} {cell : EventCell} {external : Option EventCell}
    (ran : e.finishOnGpu env context parts (some cell) = some (external, e')) :
    ∃ event rt rt', external = some ⟨event, true⟩ ∧
      EventRuntime.createEvent rt env context = some (event, rt') ∧
      e.rt.created ≤ rt.created ∧ rt'.created ≤ e'.rt.created := by
  rw [finishOnGpu] at ran
  obtain ⟨⟨evtList, t⟩, parts, ran⟩ := Option.bind_eq_some_iff.mp ran
  obtain ⟨⟨finish, rt⟩, made, ran⟩ := Option.bind_eq_some_iff.mp ran
  obtain ⟨u, released, ran⟩ := Option.bind_eq_some_iff.mp ran
  rw [Option.some.injEq, Prod.mk.injEq] at ran
  obtain ⟨rfl, rfl⟩ := ran
  exact ⟨finish, t.rt, rt, rfl, made, (createEvents_parts parts).created,
    (releaseEvents_created released).ge⟩

/-- Every way to a checker writes the event that it makes, if it makes one. -/
theorem verifyEvents_made {path : CheckPath} {cell cell' : EventCell} (checks : path ≠ .nothing)
    (granted : path = .host → (e.rt.createEvent env context).isSome)
    (ran : e.verifyEvents env context path (some cell) = some (some cell', e')) :
    cell'.written = true ∧ ∃ rt rt',
      EventRuntime.createEvent rt env context = some (cell'.value, rt') ∧
      e.rt.created ≤ rt.created ∧ rt'.created ≤ e'.rt.created := by
  have ofGpu : ∀ parts, e.finishOnGpu env context parts (some cell) = some (some cell', e') →
      cell'.written = true ∧ ∃ rt rt',
        EventRuntime.createEvent rt env context = some (cell'.value, rt') ∧
        e.rt.created ≤ rt.created ∧ rt'.created ≤ e'.rt.created := by
    intro parts finished
    obtain ⟨event, rt, rt', same, made, lower, upper⟩ := finishOnGpu_made finished
    rw [Option.some.inj same]
    exact ⟨rfl, rt, rt', made, lower, upper⟩
  cases path with
  | nothing => contradiction
  | singleBuffer => exact ofGpu 3 ran
  | copyCanary => exact ofGpu 2 ran
  | host =>
      obtain ⟨⟨event, rt⟩, made⟩ := Option.isSome_iff_exists.mp (granted rfl)
      simp only [verifyEvents, verifyOnHost, made] at ran
      rw [Option.some.injEq, Prod.mk.injEq, Option.some.injEq] at ran
      obtain ⟨rfl, rfl⟩ := ran
      exact ⟨rfl, e.rt, rt, made, le_refl _, le_refl _⟩

/-- Without a check, or without an event for it, nothing of use is written. -/
theorem verifyEvents_unmade {path : CheckPath} {cell cell' : EventCell}
    (missed : path = .nothing ∨ path = .host ∧ e.rt.createEvent env context = none)
    (unwritten : cell.written = false)
    (ran : e.verifyEvents env context path (some cell) = some (some cell', e')) :
    cell'.written = false ∨ cell'.value = NULL := by
  rcases missed with rfl | ⟨rfl, none⟩
  · rw [verifyEvents, Option.some.injEq, Prod.mk.injEq, Option.some.injEq] at ran
    rw [← ran.1]
    exact Or.inl unwritten
  · simp only [verifyEvents, verifyOnHost, none] at ran
    rw [Option.some.injEq, Prod.mk.injEq, Option.some.injEq] at ran
    rw [← ran.1]
    exact Or.inr rfl

end EventState

/-! ## The event of a launch -/

/-- What a launch with a place for the event goes through. -/
def Launches (env : EventEnv) (events events' : EventState) (context : Handle)
    (path : CheckPath) (old internal : Handle) (cell : EventCell) : Prop :=
  ∃ rt t, events.rt.createEvent env context = some (internal, rt) ∧
    ({ events with rt := rt } : EventState).verifyEvents env context path (some ⟨old, false⟩) =
      some (some cell, t) ∧ events' = t.recordEvent cell.value internal

theorem launches_of_launchEvents {path : CheckPath} {old internal : Handle} {cell : EventCell}
    (ran : events.launchEvents env context path (some old) =
      some (internal, some cell, events')) :
    Launches env events events' context path old internal cell := by
  rw [EventState.launchEvents] at ran
  obtain ⟨⟨event, rt⟩, made, ran⟩ := Option.bind_eq_some_iff.mp ran
  obtain ⟨⟨external, t⟩, verified, same⟩ := Option.map_eq_some_iff.mp ran
  cases external with
  | none => simp at same
  | some cell' =>
      simp only [Prod.mk.injEq, Option.some.injEq] at same
      obtain ⟨rfl, rfl, rfl⟩ := same
      exact ⟨rt, t, made, verified, rfl⟩

/-- A checked launch leaves a live event, unless the table has an entry under the
handle of an event that is gone. -/
theorem Launches.live {path : CheckPath} {old internal : Handle} {cell : EventCell}
    (launches : Launches env events events' context path old internal cell)
    (checks : path ≠ .nothing) (granted : path = .host → UserEventGranted env events context)
    (known : ∀ h info, events.table.find h = some info → (events.rt.live.find h).isSome) :
    ∃ serial, events'.rt.live.find cell.value = some ⟨serial, context, 1⟩ := by
  obtain ⟨rt, t, made, verified, rfl⟩ := launches
  have new := EventRuntime.createEvent_eq_some made
  have known' : ∀ h info, events.table.find h = some info → (rt.live.find h).isSome := by
    intro h info entry
    rw [new.live, Table.find_insert]
    split_ifs
    · rfl
    · exact known h info entry
  obtain ⟨event, serial, same, -, grown⟩ :=
    EventState.verifyEvents_grown (s := { events with rt := rt }) known' checks
      (fun host => granted host internal rt made) verified
  obtain rfl := Option.some.inj same
  refine ⟨serial, ?_⟩
  change t.rt.live.find event = _
  rw [grown.live, Table.find_insert_fresh grown.fresh]

/-- A launch gives the application an event exactly when there is something to
check and, for a check on the host, another event can be made. -/
theorem givesEvent_iff {nargs : Nat} {old internal : Handle} {cell : EventCell}
    (few : nargs < 4294967296)
    (ran : s.launch args dupe env device nargs events context (some old) =
      some (internal, some cell, events')) :
    GivesEvent env events events' context cell ↔
      s.ChecksItems args dupe device nargs ∧
        (s.pathFor args dupe device nargs = .host → UserEventGranted env events context) := by
  obtain ⟨path, chosen, ran⟩ := Option.bind_eq_some_iff.mp ran
  obtain rfl := KernelState.checkPath_spec few chosen
  have live := (launches_of_launchEvents ran).live
  obtain ⟨rt, t, made, verified, rfl⟩ := launches_of_launchEvents ran
  have new := EventRuntime.createEvent_eq_some made
  rw [← KernelState.pathFor_ne_nothing_iff]
  constructor
  · intro gives
    obtain ⟨rt₁, rt₂, user, -, -⟩ := gives.made
    have notNull := (EventRuntime.createEvent_eq_some user).notNull
    have unmissed : ¬ (s.pathFor args dupe device nargs = .nothing ∨
        s.pathFor args dupe device nargs = .host ∧ rt.createEvent env context = none) := by
      intro missed
      rcases EventState.verifyEvents_unmade missed rfl verified with unwritten | null
      · rw [gives.written] at unwritten
        contradiction
      · exact notNull null
    rw [not_or] at unmissed
    refine ⟨unmissed.1, fun host internal' rt' made' => ?_⟩
    obtain ⟨-, rfl⟩ := Prod.mk.inj (Option.some.inj (made.symm.trans made'))
    rw [Option.isSome_iff_ne_none]
    exact fun none => unmissed.2 ⟨host, none⟩
  · rintro ⟨checks, granted⟩
    obtain ⟨written, rt₁, rt₂, user, lower, upper⟩ :=
      EventState.verifyEvents_made checks (fun host => granted host internal rt made) verified
    have later : events.rt.created ≤ rt₁.created := by
      have := new.created
      change rt.created ≤ rt₁.created at lower
      omega
    exact ⟨written, ⟨rt₁, rt₂, user, later, upper⟩, live checks granted⟩

/-- The arguments of a kernel with one argument. -/
def oneArgument (arg : ArgEntry) : OrderedMap Nat ArgEntry := OrderedMap.empty.insert 0 arg

/-- A buffer is known. -/
def knownBuffer : KernelState :=
  KernelState.initial.clMemInsert { handle := 100, hasCanary := true }

/-- A launch with a buffer, checked on the host. -/
theorem givesEvent_iff_buffer : ∃ internal cell events',
    knownBuffer.launch (oneArgument (knownBuffer.memArg 8 (some 100))) [0] ⟨fun n => n + 1⟩
      ⟨4, 0, 0⟩ 1 EventState.initial 7 (some 0) = some (internal, some cell, events') ∧
    (GivesEvent ⟨fun n => n + 1⟩ EventState.initial events' 7 cell ↔
      knownBuffer.ChecksItems (oneArgument (knownBuffer.memArg 8 (some 100))) [0] ⟨4, 0, 0⟩ 1 ∧
        (knownBuffer.pathFor (oneArgument (knownBuffer.memArg 8 (some 100))) [0] ⟨4, 0, 0⟩ 1 =
            .host →
          UserEventGranted ⟨fun n => n + 1⟩ EventState.initial 7)) :=
  ⟨_, _, _, rfl, @givesEvent_iff _ _ _ _ _ _ _ _ _ 0 _ _ (by decide) rfl⟩

/-- A launch with a number: what was in the place before is entered into the table. -/
theorem not_givesEvent : ∃ internal cell events',
    knownBuffer.launch (oneArgument (knownBuffer.memArg 4 (some 5))) [0] ⟨fun n => n + 1⟩
      ⟨4, 0, 0⟩ 1 EventState.initial 7 (some 9) = some (internal, some cell, events') ∧
    cell = ⟨9, false⟩ ∧ events'.table.find 9 = some ⟨9, 1, internal⟩ ∧
    ¬ GivesEvent ⟨fun n => n + 1⟩ EventState.initial events' 7 cell :=
  ⟨_, _, _, rfl, rfl, rfl, fun gives => Bool.false_ne_true gives.written⟩

end Clarmor
