import Clarmor.Defines
import Clarmor.Library.Loop
import Clarmor.Library.Word
import Clarmor.MetaData.MemObj

/-!
# Events of the check of regions on the host

`verify_svm` keeps its pointers and events in arrays that are not initialised.  A
region of the kernel's context has two slots for the events of its copies, and one
for each other event; a region of another context gets events that are complete, of
which the first goes to the slot with the number of the region.  The release goes by
the number of the region, too, and leaves out the regions of other contexts.
-/

namespace Clarmor

open Word

/-- The arrays of `verify_svm`. -/
inductive ScratchArray where
  | basePtrs
  | canaryPtrs
  | mapPtrs
  | copyEvents
  | mapEvents
  | unmapEvents
deriving DecidableEq, Repr

/-- The arrays, with nothing in a slot that was not written, and the events: how many
were created, the released ones, and those whose slot was written again before. -/
structure SvmScratch where
  arrays : ScratchArray → List (Option Nat)
  created : Nat
  released : List Nat
  overwritten : List Nat
  freed : List Nat

namespace SvmScratch

/-- The arrays after `malloc`. -/
def initial (numSvm : Nat) : SvmScratch where
  arrays
    | .canaryPtrs | .copyEvents => List.replicate (POISON_REGIONS * numSvm) none
    | _ => List.replicate numSvm none
  created := 0
  released := []
  overwritten := []
  freed := []

/-- Read a slot; one that was not written, or that is outside, is a fault. -/
def load (sc : SvmScratch) (array : ScratchArray) (i : Nat) : Option Nat :=
  (sc.arrays array)[i]?.join

/-- Write a slot. -/
def store (sc : SvmScratch) (array : ScratchArray) (i v : Nat) : Option SvmScratch :=
  if i < (sc.arrays array).length then
    some { sc with
      arrays := Function.update sc.arrays array ((sc.arrays array).set i (some v)) }
  else none

/-- Create an event in a slot. -/
def createEvent (sc : SvmScratch) (array : ScratchArray) (i : Nat) : Option SvmScratch :=
  let pending := (sc.load array i).filter fun e => e ∉ sc.released
  ({ sc with
    created := sc.created + 1
    overwritten := pending.toList ++ sc.overwritten } : SvmScratch).store array i sc.created

/-- `clReleaseEvent` of a slot. -/
def releaseEvent (sc : SvmScratch) (array : ScratchArray) (i : Nat) : Option SvmScratch :=
  (sc.load array i).map fun e => { sc with released := e :: sc.released }

end SvmScratch

section Verify

variable (kernCtx : Handle) (regions : List SvmObj) (svmAlloc : Nat → Nat)

/-- `right_context`. -/
def rightContext (i : Nat) : Bool := regions[i]?.any fun m1 => m1.context = kernCtx

/-- `set_up_svm_canary_copy` for one region; `svmAlloc` gives the memory for the
copies. -/
def setUpRegion (i : Nat) (sc : SvmScratch) : Option SvmScratch := do
  let m1 ← regions[i]?
  if m1.context = kernCtx then
    let sc ← sc.store .basePtrs i m1.mainBuff
    let base ← sc.load .basePtrs i
    let sc ← sc.store .canaryPtrs (POISON_REGIONS * i) base
    let sc ← sc.store .canaryPtrs (POISON_REGIONS * i + 1)
      (base + u32 (m1.size + POISON_FILL_LENGTH))
    sc.store .mapPtrs i (svmAlloc i)
  else some sc

/-- `copy_and_map_svm_canaries` for one region. -/
def copyAndMapRegion (i : Nat) (sc : SvmScratch) : Option SvmScratch :=
  if rightContext kernCtx regions i then do
    let _ ← sc.load .mapPtrs i
    let _ ← sc.load .canaryPtrs (POISON_REGIONS * i)
    let sc ← sc.createEvent .copyEvents (POISON_REGIONS * i)
    let _ ← sc.load .canaryPtrs (POISON_REGIONS * i + 1)
    let sc ← sc.createEvent .copyEvents (POISON_REGIONS * i + 1)
    -- the map waits for both copies
    let _ ← sc.load .copyEvents (POISON_REGIONS * i)
    let _ ← sc.load .copyEvents (POISON_REGIONS * i + 1)
    sc.createEvent .mapEvents i
  else do
    let sc ← sc.createEvent .copyEvents i
    sc.createEvent .mapEvents i

/-- `clWaitForEvents` for one of the events. -/
def waitForEvent (array : ScratchArray) (i : Nat) (sc : SvmScratch) : Option SvmScratch :=
  (sc.load array i).map fun _ => sc

/-- `check_svm_buffers` for one region. -/
def checkRegion (i : Nat) (sc : SvmScratch) : Option SvmScratch :=
  if rightContext kernCtx regions i then (sc.load .mapPtrs i).map fun _ => sc else some sc

/-- `unmap_svm_buffers` for one region. -/
def unmapRegion (i : Nat) (sc : SvmScratch) : Option SvmScratch :=
  if rightContext kernCtx regions i then do
    let _ ← sc.load .mapPtrs i
    sc.createEvent .unmapEvents i
  else sc.createEvent .unmapEvents i

/-- `release_and_free` for one region. -/
def releaseAndFreeRegion (i : Nat) (sc : SvmScratch) : Option SvmScratch :=
  if rightContext kernCtx regions i then do
    let mapPtr ← sc.load .mapPtrs i
    let sc : SvmScratch := { sc with freed := mapPtr :: sc.freed }
    let sc ← sc.releaseEvent .copyEvents i
    let sc ← sc.releaseEvent .mapEvents i
    sc.releaseEvent .unmapEvents i
  else some sc

/-- `verify_svm`, as far as its arrays and events go. -/
def verifySvmEvents : Option SvmScratch :=
  let numSvm := regions.length
  if numSvm = 0 then some (SvmScratch.initial 0)
  else do
    let sc ← Loop.loop numSvm (setUpRegion kernCtx regions svmAlloc) (SvmScratch.initial numSvm)
    let sc ← Loop.loop numSvm (copyAndMapRegion kernCtx regions) sc
    let sc ← Loop.loop numSvm (waitForEvent .mapEvents) sc
    let sc ← Loop.loop numSvm (checkRegion kernCtx regions) sc
    let sc ← Loop.loop numSvm (unmapRegion kernCtx regions) sc
    let sc ← Loop.loop numSvm (waitForEvent .unmapEvents) sc
    Loop.loop numSvm (releaseAndFreeRegion kernCtx regions) sc

/-- Every slot is written before it is read, no slot is written again before its event
is released, and every event is released once. -/
def HandlesEvents : Prop :=
  ∃ sc, verifySvmEvents kernCtx regions svmAlloc = some sc ∧ sc.overwritten = [] ∧
    ∀ e < sc.created, sc.released.count e = 1

end Verify

variable {kernCtx : Handle} {regions : List SvmObj} {svmAlloc : Nat → Nat} {sc sc' : SvmScratch}
  {array : ScratchArray} {i v : Nat}

namespace SvmScratch

/-- The numbers of created and released events. -/
def ledger (sc : SvmScratch) : Nat × Nat := (sc.created, sc.released.length)

theorem store_ledger (stored : sc.store array i v = some sc') : sc'.ledger = sc.ledger := by
  rw [store] at stored
  split at stored
  · rw [← Option.some.inj stored]
    rfl
  · contradiction

theorem createEvent_ledger (made : sc.createEvent array i = some sc') :
    sc'.ledger = (sc.created + 1, sc.released.length) :=
  store_ledger made

theorem releaseEvent_ledger (released : sc.releaseEvent array i = some sc') :
    sc'.ledger = (sc.created, sc.released.length + 1) := by
  obtain ⟨e, -, rfl⟩ := Option.map_eq_some_iff.mp released
  rfl

end SvmScratch

/-! ## What the steps create and release -/

theorem setUpRegion_ledger (ran : setUpRegion kernCtx regions svmAlloc i sc = some sc') :
    sc'.ledger = sc.ledger := by
  obtain ⟨m1, -, ran⟩ := Option.bind_eq_some_iff.mp ran
  split at ran
  · obtain ⟨s₁, first, ran⟩ := Option.bind_eq_some_iff.mp ran
    obtain ⟨base, -, ran⟩ := Option.bind_eq_some_iff.mp ran
    obtain ⟨s₂, second, ran⟩ := Option.bind_eq_some_iff.mp ran
    obtain ⟨s₃, third, ran⟩ := Option.bind_eq_some_iff.mp ran
    rw [SvmScratch.store_ledger ran, SvmScratch.store_ledger third,
      SvmScratch.store_ledger second, SvmScratch.store_ledger first]
  · rw [← Option.some.inj ran]

/-- A region of the context has three events when it is mapped, another one two. -/
theorem copyAndMapRegion_ledger (ran : copyAndMapRegion kernCtx regions i sc = some sc') :
    sc'.ledger = (sc.created + 2 + (if rightContext kernCtx regions i then 1 else 0),
      sc.released.length) := by
  rw [copyAndMapRegion] at ran
  split at ran
  case isTrue right =>
    obtain ⟨-, -, ran⟩ := Option.bind_eq_some_iff.mp ran
    obtain ⟨-, -, ran⟩ := Option.bind_eq_some_iff.mp ran
    obtain ⟨s₁, first, ran⟩ := Option.bind_eq_some_iff.mp ran
    obtain ⟨-, -, ran⟩ := Option.bind_eq_some_iff.mp ran
    obtain ⟨s₂, second, ran⟩ := Option.bind_eq_some_iff.mp ran
    obtain ⟨-, -, ran⟩ := Option.bind_eq_some_iff.mp ran
    obtain ⟨-, -, ran⟩ := Option.bind_eq_some_iff.mp ran
    have one := Prod.mk.inj (SvmScratch.createEvent_ledger first)
    have two := Prod.mk.inj (SvmScratch.createEvent_ledger second)
    rw [SvmScratch.createEvent_ledger ran, two.1, two.2, one.1, one.2, if_pos right]
  case isFalse right =>
    obtain ⟨s₁, first, ran⟩ := Option.bind_eq_some_iff.mp ran
    have one := Prod.mk.inj (SvmScratch.createEvent_ledger first)
    rw [SvmScratch.createEvent_ledger ran, one.1, one.2, if_neg right]

theorem waitForEvent_eq (ran : waitForEvent array i sc = some sc') : sc' = sc := by
  obtain ⟨-, -, same⟩ := Option.map_eq_some_iff.mp ran
  exact same.symm

theorem checkRegion_eq (ran : checkRegion kernCtx regions i sc = some sc') : sc' = sc := by
  rw [checkRegion] at ran
  split at ran
  · obtain ⟨-, -, same⟩ := Option.map_eq_some_iff.mp ran
    exact same.symm
  · exact (Option.some.inj ran).symm

theorem unmapRegion_ledger (ran : unmapRegion kernCtx regions i sc = some sc') :
    sc'.ledger = (sc.created + 1, sc.released.length) := by
  rw [unmapRegion] at ran
  split at ran
  · obtain ⟨-, -, ran⟩ := Option.bind_eq_some_iff.mp ran
    exact SvmScratch.createEvent_ledger ran
  · exact SvmScratch.createEvent_ledger ran

/-- Only regions of the context release their events. -/
theorem releaseAndFreeRegion_ledger
    (ran : releaseAndFreeRegion kernCtx regions i sc = some sc') :
    sc'.ledger = (sc.created,
      sc.released.length + 3 * (if rightContext kernCtx regions i then 1 else 0)) := by
  rw [releaseAndFreeRegion] at ran
  split at ran
  case isTrue right =>
    obtain ⟨mapPtr, -, ran⟩ := Option.bind_eq_some_iff.mp ran
    obtain ⟨s₁, first, ran⟩ := Option.bind_eq_some_iff.mp ran
    obtain ⟨s₂, second, ran⟩ := Option.bind_eq_some_iff.mp ran
    have one := Prod.mk.inj (SvmScratch.releaseEvent_ledger first)
    have two := Prod.mk.inj (SvmScratch.releaseEvent_ledger second)
    rw [SvmScratch.releaseEvent_ledger ran, two.1, two.2, one.1, one.2, if_pos right]
  case isFalse right =>
    rw [← Option.some.inj ran, if_neg right]
    rfl

/-! ## The whole check -/

/-- A loop whose turns add to the numbers of events. -/
theorem loop_ledger {body : Nat → SvmScratch → Option SvmScratch} {made gone : Nat → Nat} {n : Nat}
    (each : ∀ i s s', body i s = some s' →
      s'.ledger = (s.created + made i, s.released.length + gone i))
    (ran : Loop.loop n body sc = some sc') :
    sc'.ledger = (sc.created + ((List.range n).map made).sum,
      sc.released.length + ((List.range n).map gone).sum) := by
  refine Loop.loop_invariant (fun i s => s.ledger = (sc.created + ((List.range i).map made).sum,
    sc.released.length + ((List.range i).map gone).sum)) ran rfl fun i _ s s' inv step => ?_
  have now := Prod.mk.inj inv
  rw [each i s s' step, now.1, now.2, List.range_succ]
  simp [Nat.add_assoc]

/-- A loop whose turns leave the numbers of events. -/
theorem loop_keeps {body : Nat → SvmScratch → Option SvmScratch} {n : Nat}
    (each : ∀ i s s', body i s = some s' → s'.ledger = s.ledger)
    (ran : Loop.loop n body sc = some sc') : sc'.ledger = sc.ledger :=
  Loop.loop_invariant (fun _ s => s.ledger = sc.ledger) ran rfl
    fun i _ s s' inv step => (each i s s' step).trans inv

theorem sum_range_const (n c : Nat) : ((List.range n).map fun _ => c).sum = c * n := by
  rw [List.map_const', List.sum_replicate, List.length_range, smul_eq_mul, Nat.mul_comm]

theorem sum_range_add (n c : Nat) (f : Nat → Nat) :
    ((List.range n).map fun i => c + f i).sum = c * n + ((List.range n).map f).sum := by
  rw [List.sum_map_add, sum_range_const]

theorem sum_range_mul (n c : Nat) (f : Nat → Nat) :
    ((List.range n).map fun i => c * f i).sum = c * ((List.range n).map f).sum :=
  List.sum_map_mul_left _ _ _

/-- The number of regions of the context. -/
def rightCount (kernCtx : Handle) (regions : List SvmObj) (n : Nat) : Nat :=
  ((List.range n).map fun i => if rightContext kernCtx regions i then 1 else 0).sum

/-- Four events are created for a region of the context and three for another one, and
three are released for a region of the context. -/
theorem verifySvmEvents_ledger (ran : verifySvmEvents kernCtx regions svmAlloc = some sc) :
    sc.ledger = (3 * regions.length + rightCount kernCtx regions regions.length,
      3 * rightCount kernCtx regions regions.length) := by
  rw [verifySvmEvents] at ran
  split at ran
  case isTrue none =>
    rw [none, ← Option.some.inj ran]
    rfl
  case isFalse =>
    obtain ⟨s₁, setUp, ran⟩ := Option.bind_eq_some_iff.mp ran
    obtain ⟨s₂, copied, ran⟩ := Option.bind_eq_some_iff.mp ran
    obtain ⟨s₃, waited, ran⟩ := Option.bind_eq_some_iff.mp ran
    obtain ⟨s₄, checked, ran⟩ := Option.bind_eq_some_iff.mp ran
    obtain ⟨s₅, unmapped, ran⟩ := Option.bind_eq_some_iff.mp ran
    obtain ⟨s₆, waitedAgain, ran⟩ := Option.bind_eq_some_iff.mp ran
    have start : s₁.ledger = (0, 0) :=
      loop_keeps (fun _ _ _ step => setUpRegion_ledger step) setUp
    have kept : s₄.ledger = s₂.ledger :=
      (loop_keeps (fun _ _ _ step => by rw [checkRegion_eq step]) checked).trans
        (loop_keeps (fun _ _ _ step => by rw [waitForEvent_eq step]) waited)
    have keptAgain : s₆.ledger = s₅.ledger :=
      loop_keeps (fun _ _ _ step => by rw [waitForEvent_eq step]) waitedAgain
    have made : s₂.ledger = (s₁.created + ((List.range regions.length).map fun i =>
          2 + if rightContext kernCtx regions i then 1 else 0).sum,
        s₁.released.length + ((List.range regions.length).map fun _ => 0).sum) :=
      loop_ledger (fun i s s' step => by rw [copyAndMapRegion_ledger step, Nat.add_assoc,
        Nat.add_zero]) copied
    have made' : s₅.ledger = (s₄.created + ((List.range regions.length).map fun _ => 1).sum,
        s₄.released.length + ((List.range regions.length).map fun _ => 0).sum) :=
      loop_ledger (fun i s s' step => unmapRegion_ledger step) unmapped
    have gone : sc.ledger = (s₆.created + ((List.range regions.length).map fun _ => 0).sum,
        s₆.released.length + ((List.range regions.length).map fun i =>
          3 * if rightContext kernCtx regions i then 1 else 0).sum) :=
      loop_ledger (fun i s s' step => releaseAndFreeRegion_ledger step) ran
    have atStart := Prod.mk.inj start
    have atCheck := Prod.mk.inj (kept.trans made)
    have atRelease := Prod.mk.inj (keptAgain.trans made')
    rw [gone, atRelease.1, atRelease.2, atCheck.1, atCheck.2, atStart.1, atStart.2]
    simp only [sum_range_add, sum_range_mul, sum_range_const, rightCount]
    refine Prod.ext ?_ ?_ <;> dsimp only <;> omega

theorem rightCount_le (n : Nat) : rightCount kernCtx regions n ≤ n := by
  have each : ∀ x ∈ (List.range n).map fun i =>
      if rightContext kernCtx regions i then 1 else 0, x ≤ 1 := by
    intro x mem
    obtain ⟨i, -, rfl⟩ := List.mem_map.mp mem
    split <;> omega
  simpa [rightCount] using List.sum_le_card_nsmul _ 1 each

/-- A list with every number below `n` has `n` entries or more. -/
theorem le_length_of_forall_count {n : Nat} {es : List Nat} (once : ∀ e < n, es.count e = 1) :
    n ≤ es.length := by
  have all : List.range n ⊆ es := fun e mem =>
    List.count_pos_iff.mp (by rw [once e (List.mem_range.mp mem)]; exact Nat.one_pos)
  simpa using (List.subperm_of_subset List.nodup_range all).length_le

/-- The events are handled rightly only when there are none: any region leaves an event
that is not released. -/
theorem handlesEvents_iff :
    HandlesEvents kernCtx regions svmAlloc ↔ regions = [] := by
  constructor
  · rintro ⟨sc, ran, -, once⟩
    have ledger := Prod.mk.inj (verifySvmEvents_ledger ran)
    have enough := le_length_of_forall_count once
    have few : rightCount kernCtx regions regions.length ≤ regions.length := rightCount_le _
    rw [ledger.1, ledger.2] at enough
    exact List.eq_nil_of_length_eq_zero (by omega)
  · rintro rfl
    exact ⟨SvmScratch.initial 0, rfl, rfl, fun e eLt => absurd eLt (Nat.not_lt_zero e)⟩

/-- A region of the context `1`. -/
def svmOfOne : SvmObj := { handle := 8192, mainBuff := 4096, context := 1, size := 64 }

/-- A region of the context `2`. -/
def svmOfTwo : SvmObj := { handle := 40960, mainBuff := 36864, context := 2, size := 64 }

/-- The event of the second copy is never released.  After a region of another context
the copies of a region go to slots that its release does not read, and before one a slot
with a pending event is written. -/
theorem not_handlesEvents :
    (verifySvmEvents 1 [svmOfOne] fun _ => 65536).map
        (fun sc => (sc.created, sc.released, sc.overwritten)) = some (4, [3, 2, 0], []) ∧
      verifySvmEvents 1 [svmOfTwo, svmOfOne] (fun _ => 65536) = none ∧
      (verifySvmEvents 1 [svmOfOne, svmOfTwo] fun _ => 65536).map
        (fun sc => sc.overwritten) = some [1] ∧
      ¬ HandlesEvents 1 [svmOfOne] fun _ => 65536 := by
  have leaked : (verifySvmEvents 1 [svmOfOne] fun _ => 65536).map
      (fun sc => (sc.created, sc.released, sc.overwritten)) = some (4, [3, 2, 0], []) := by
    decide
  refine ⟨leaked, by decide, by decide, ?_⟩
  rintro ⟨sc, ran, -, once⟩
  rw [ran, Option.map_some, Option.some.injEq, Prod.mk.injEq, Prod.mk.injEq] at leaked
  have second := once 1 (by omega)
  rw [leaked.2.1] at second
  exact absurd second (by decide)

end Clarmor
