import Clarmor.Check.Agreement
import Clarmor.Check.MergedResults
import Clarmor.Check.PartsRuns

/-!
# The verdict of the check of single buffers

Whatever order the device takes, the callback leaves the first changed byte of every
object when the kernel of the application had finished, and all canaries are in place.
-/

namespace Clarmor

open Word Store Reduce Items Queues

namespace PartsCheck

variable {C : PartsCheck} {isSvm : Bool} {index : Nat} {o : CheckedObject}

/-! ## What the launches leave -/

/-- The memory after the launches for a kind of object. -/
def afterLaunches (C : PartsCheck) (isSvm : Bool) (m : PartsMemory) : PartsMemory :=
  inTurn Command.body (C.performClBufferChecks isSvm) m

/-- A launch is the only one to write to its cells. -/
theorem afterLaunches_written (undisturbed : C.Undisturbed) (indexLt : index < 2 * C.numBuff isSvm)
    {c : PartsCell} (written : c ∈ C.writes (.parts (isSvm, index))) (m : PartsMemory) :
    C.afterLaunches isSvm m c = (C.partsCommand isSvm index).body m c := by
  have some' : C.numBuff isSvm ≠ 0 := by omega
  have apart : ∀ d ∈ C.performClBufferChecks isSvm, d ≠ C.partsCommand isSvm index →
      Disjoint (C.writes (.parts (isSvm, index))) (C.writes d.tag) := by
    intro d mem differ
    obtain ⟨j, -, rfl⟩ := mem_performClBufferChecks_iff.mp mem
    refine writes_apart undisturbed fun both => differ ?_
    rw [(Prod.mk.inj both).2]
  rw [afterLaunches, @inTurn_once _ _ _ Command.body (fun d => C.reads d.tag)
    (fun d => C.writes d.tag) (C.performClBufferChecks isSvm) ?_ ?_ (C.partsCommand isSvm index)
    (mem_performClBufferChecks_iff.mpr ⟨index, indexLt, rfl⟩) c written]
  · exact fun d mem differ => Set.disjoint_left.mp (apart d mem differ) written
  · exact apart
  · intro d mem
    obtain ⟨j, jLt, rfl⟩ := mem_performClBufferChecks_iff.mp mem
    exact parts_footprint undisturbed jLt
  · exact (List.nodup_append.mp (List.nodup_cons.mp (nodup_afterFill some')).2).1

/-- The result of a region is its first change. -/
theorem afterLaunches_result (undisturbed : C.Undisturbed) {m : PartsMemory} {i n : Nat}
    (filled : ∀ i < 2 * C.numBuff isSvm, m (.result (isSvm, i)) = INT_MAX)
    (isObject : (C.objects isSvm)[i]? = some o) (nLt : n < 2) :
    C.afterLaunches isSvm m (.result (isSvm, 2 * i + n)) =
      firstChange 4096 fun k => m.onDevice (o.cell (4096 * n + k)) := by
  obtain ⟨iLt, -⟩ := List.getElem?_eq_some_iff.mp isObject
  have indexLt : 2 * i + n < 2 * C.numBuff isSvm := by
    change i < C.numBuff isSvm at iLt
    omega
  have isRegion : (2 * i + n) % 2 = n := by omega
  have effect := @partsCommand_effect C isSvm (2 * i + n) o undisturbed (by
    rw [show (2 * i + n) / 2 = i by omega]
    exact isObject) m
  rw [afterLaunches_written undisturbed indexLt (Or.inr rfl),
    effect.found undisturbed.divides (filled _ indexLt), isRegion]

/-- All canaries are in place. -/
theorem afterLaunches_mended (undisturbed : C.Undisturbed) {m : PartsMemory} {i k : Nat}
    (isObject : (C.objects isSvm)[i]? = some o) (kLt : k < 8192) :
    C.afterLaunches isSvm m (.device (o.cell k)) = POISON_FILL := by
  obtain ⟨iLt, -⟩ := List.getElem?_eq_some_iff.mp isObject
  have indexLt : 2 * i + k / 4096 < 2 * C.numBuff isSvm := by
    change i < C.numBuff isSvm at iLt
    omega
  have isRegion : k / 4096 = (2 * i + k / 4096) % 2 := by omega
  have isObject' : (C.objects isSvm)[(2 * i + k / 4096) / 2]? = some o := by
    rw [show (2 * i + k / 4096) / 2 = i by omega]
    exact isObject
  rw [afterLaunches_written undisturbed indexLt (Or.inl ⟨o, isObject', k, isRegion, rfl⟩)]
  exact (partsCommand_effect undisturbed isObject' m).mended k isRegion

/-! ## What the callback leaves -/

/-- The results are those of a memory, and the canaries are in place. -/
structure Verified (C : PartsCheck) (isSvm : Bool) (before : DeviceMemory) (after : PartsMemory) :
    Prop where
  reports : (List.range (C.numBuff isSvm)).map (fun i =>
      reported (after (.firstChange (isSvm, i)))) =
    (C.objects isSvm).map fun o => (List.range (POISON_REGIONS * POISON_FILL_LENGTH)).find?
      fun k => before (o.cell k) ≠ POISON_FILL
  mended : ∀ o ∈ C.objects isSvm, ∀ k < POISON_REGIONS * POISON_FILL_LENGTH,
    after (.device (o.cell k)) = POISON_FILL

/-- The commands one after the other. -/
theorem verified_inTurn (undisturbed : C.Undisturbed) {m : PartsMemory}
    (filled : ∀ i < 2 * C.numBuff isSvm, m (.result (isSvm, i)) = INT_MAX) :
    C.Verified isSvm m.onDevice (inTurn Command.body (C.afterFill isSvm) m) := by
  have after : inTurn Command.body (C.afterFill isSvm) m = formatParts isSvm (C.numBuff isSvm)
      (readParts isSvm (POISON_REGIONS * C.numBuff isSvm) (C.afterLaunches isSvm m)) := by
    rw [afterFill, inTurn_append]
    rfl
  rw [after]
  constructor
  · apply List.ext_getElem
    · rw [List.length_map, List.length_range, List.length_map]
      rfl
    intro i iLt iLt'
    rw [List.length_map, List.length_range] at iLt
    rw [List.getElem_map, List.getElem_map, List.getElem_range]
    have isObject : (C.objects isSvm)[i]? = some (C.objects isSvm)[i] :=
      List.getElem?_eq_getElem iLt
    set o := (C.objects isSvm)[i]
    have few := objects_few undisturbed.few isSvm
    have read : ∀ j < 2 * C.numBuff isSvm,
        readParts isSvm (POISON_REGIONS * C.numBuff isSvm) (C.afterLaunches isSvm m)
          (.firstChange (isSvm, j)) = C.afterLaunches isSvm m (.result (isSvm, j)) :=
      fun j jLt => if_pos ⟨rfl, jLt⟩
    have formatted : formatParts isSvm (C.numBuff isSvm)
        (readParts isSvm (POISON_REGIONS * C.numBuff isSvm) (C.afterLaunches isSvm m))
          (.firstChange (isSvm, i)) = formatResultBuff (C.numBuff isSvm) (fun j =>
            readParts isSvm (POISON_REGIONS * C.numBuff isSvm) (C.afterLaunches isSvm m)
              (.firstChange (isSvm, j))) i := if_pos rfl
    have front := afterLaunches_result undisturbed filled isObject (show 0 < 2 by decide)
    have back := afterLaunches_result undisturbed filled isObject (show 1 < 2 by decide)
    simp only [Nat.mul_zero, Nat.zero_add, Nat.add_zero, Nat.mul_one] at front back
    rw [formatted, formatResultBuff_early iLt (by omega), read _ (by omega), read _ (by omega),
      front, back, merged_firstChange fun k => m.onDevice (o.cell k),
      reported_firstChange (by decide)]
    rfl
  · intro o mem k kLt
    obtain ⟨i, isObject⟩ := List.getElem?_of_mem mem
    exact afterLaunches_mended undisturbed isObject kLt

/-- The fill of the results is done, or it comes first. -/
theorem verified_afterFill (undisturbed : C.Undisturbed) (some' : C.numBuff isSvm ≠ 0)
    {memory : PartsMemory} {s s' : Machine PartsTag PartsMemory}
    (runs : Runs C.inOrder (begin memory C.pending C.verifyOnGpu) s)
    (executed : step C.inOrder s (.execute C.evt) = some s') :
    C.Verified isSvm s'.memory.onDevice (inTurn Command.body
      (if .fill isSvm ∈ s'.done then C.afterFill isSvm
        else C.fillCommand isSvm :: C.afterFill isSvm) s'.memory) := by
  have toS' : Runs C.inOrder (begin memory C.pending C.verifyOnGpu) s' := runs.tail trivial executed
  split_ifs with fillDone
  · refine verified_inTurn undisturbed
      (filled undisturbed some' toS' fillDone fun index indexLt => ?_)
    have isLaunch : C.partsCommand isSvm index ∈ C.afterFill isSvm :=
      mem_afterFill_iff.mpr (Or.inl ⟨index, indexLt, rfl⟩)
    exact (lawful toS').not_yet executed (after_evt some' isLaunch)
  · rw [inTurn_cons]
    exact @verified_inTurn C isSvm undisturbed
      (fillParts isSvm (POISON_REGIONS * C.numBuff isSvm) s'.memory) fun i iLt => if_pos ⟨rfl, iLt⟩

/-- A verdict is about cells of the check. -/
theorem Verified.congr {before : DeviceMemory} {m m' : PartsMemory}
    (verified : C.Verified isSvm before m) (same : AgreeOn (C.cells isSvm) m' m) :
    C.Verified isSvm before m' := by
  refine ⟨?_, fun o mem k kLt => ?_⟩
  · rw [← verified.reports]
    refine List.map_congr_left fun i _ => ?_
    rw [same (.firstChange (isSvm, i)) rfl]
  · rw [← verified.mended o mem k kLt]
    exact same _ ⟨o, mem, k, kLt, rfl⟩

/-! ## All runs -/

/-- A command of the check changes nothing but what it looks at. -/
theorem step_keeps (undisturbed : C.Undisturbed) {memory : PartsMemory}
    {s s' : Machine PartsTag PartsMemory} {t : PartsTag}
    (runs : Runs C.inOrder (begin memory C.pending C.verifyOnGpu) s)
    (executed : step C.inOrder s (.execute t) = some s') (own : t ∉ C.pending.map Command.tag)
    {c : PartsCell} (outside : ∀ isSvm, c ∉ C.cells isSvm) : s'.memory c = s.memory c := by
  obtain ⟨d, mem, rfl, -, rfl⟩ := execute_eq_some executed
  rcases List.mem_append.mp ((lawful runs).mem_script mem) with isPending | mem
  · exact absurd (List.mem_map_of_mem isPending) own
  · have issued := mem_enqueues_iff.mp mem
    refine (issued.footprint undisturbed).keeps s.memory c fun written => ?_
    cases isKind : kindOf d.tag with
    | none =>
        cases issued with
        | finish => exact written
        | _ => contradiction
    | some isSvm => exact outside isSvm (writes_subset isKind written)

/-- A command of the check that is done was enqueued by it. -/
theorem numBuff_ne_zero_of_format {memory : PartsMemory} {m : Machine PartsTag PartsMemory}
    (runs : Runs C.inOrder (begin memory C.pending C.verifyOnGpu) m)
    (done : .format isSvm ∈ m.done) : C.numBuff isSvm ≠ 0 := by
  obtain ⟨c, mem, isFormat⟩ := List.mem_map.mp ((lawful runs).known _ done)
  rcases List.mem_append.mp ((lawful runs).mem_script mem) with isPending | mem
  · obtain ⟨n, named⟩ := C.isPending c isPending
    rw [named] at isFormat
    contradiction
  · have issued := mem_enqueues_iff.mp mem
    cases issued with
    | @format i some' =>
        obtain rfl : i = isSvm := PartsTag.format.inj isFormat
        exact some'
    | _ => contradiction

/-- The promise of a check to a run. -/
structure Completes (C : PartsCheck) (memory : PartsMemory) (m : Machine PartsTag PartsMemory) :
    Prop where
  ends : ∃ m', Runs C.inOrder m m' ∧ m'.host = [] ∧ ∀ c ∈ C.script, c.tag ∈ m'.done
  verified : ∀ isSvm, .format isSvm ∈ m.done →
    ∃ s s', Runs C.inOrder (begin memory C.pending C.verifyOnGpu) s ∧
      step C.inOrder s (.execute C.evt) = some s' ∧ Runs C.inOrder s' m ∧
        C.Verified isSvm s'.memory.onDevice m.memory
  /-- The marker comes after the launches and the reads of both kinds. -/
  joined : .finish ∈ m.done → ∀ isSvm, C.numBuff isSvm ≠ 0 →
    .read isSvm ∈ m.done ∧ ∀ t ∈ C.checkEvents isSvm, t ∈ m.done
  /-- A command of the check changes nothing but what it looks at. -/
  keeps : ∀ t m', t ∉ C.pending.map Command.tag → step C.inOrder m (.execute t) = some m' →
    ∀ c, (∀ isSvm, c ∉ C.cells isSvm) → m'.memory c = m.memory c

/-- Every run can come to its end.  What the callback of a kind has then put together are
the first changes when the kernel of the application had finished. -/
theorem verified_of_run (undisturbed : C.Undisturbed) {memory : PartsMemory}
    {m : Machine PartsTag PartsMemory}
    (runs : Runs C.inOrder (begin memory C.pending C.verifyOnGpu) m) : C.Completes memory m := by
  refine ⟨(lawful runs).drains distinct_script orderly_script supplied_verifyOnGpu,
    fun isSvm done => ?_, fun done isSvm some' => ?_,
    fun t m' own executed c outside => step_keeps undisturbed runs executed own outside⟩
  · have some' := numBuff_ne_zero_of_format runs done
    have evtDone : C.evt ∈ m.done := by
      have isLast : C.formatCommand isSvm ∈ C.afterFill isSvm :=
        mem_afterFill_iff.mpr (Or.inr (Or.inr rfl))
      exact ((lawful runs).after done (after_evt some' isLast)).subset
        (List.mem_cons_of_mem _ (List.mem_singleton_self _))
    obtain ⟨s, s', first, executed, rest⟩ := runs.executed_at List.not_mem_nil evtDone
    refine ⟨s, s', first, executed, rest, ?_⟩
    exact (verified_afterFill undisturbed some' first executed).congr
      (serial_afterFill undisturbed some' first executed rest done)
  · have waits : Needs C.inOrder C.script .finish (.read isSvm) := by
      refine needs_of_wait .finish (List.mem_map_of_mem (List.mem_filter.mpr ⟨?_, ?_⟩))
      · cases isSvm <;> simp
      · exact decide_eq_true some'
    refine ⟨((lawful runs).after done (.single waits)).subset
      (List.mem_cons_of_mem _ (List.mem_singleton_self _)), fun t mem => ?_⟩
    rw [checkEvents_eq] at mem
    obtain ⟨index, inside, rfl⟩ := List.mem_map.mp mem
    have after := (Relation.TransGen.single waits).trans (after_read (List.mem_range.mp inside))
    exact ((lawful runs).after done after).subset
      (List.mem_cons_of_mem _ (List.mem_singleton_self _))

end PartsCheck

/-- A kernel that writes behind a buffer of three bytes. -/
def overflowKernel : Command PartsTag PartsMemory where
  tag := .pending 0
  queue := 0
  waits := []
  body := fun m => m.launched (fun c => m (.result c)) fun a =>
    if a = (2, 4100) then 7 else m.onDevice a

theorem overflowKernel_isPending : ∀ c ∈ [overflowKernel], ∃ n, c.tag = .pending n := by
  intro c mem
  rw [List.mem_singleton.mp mem]
  exact ⟨0, rfl⟩

theorem overflowKernel_orderly : Orderly [overflowKernel] := by
  intro c mem t wait
  rw [List.mem_singleton.mp mem] at wait
  exact absurd wait List.not_mem_nil

/-- The kernel, and the check of single buffers after it. -/
def overflowingParts : PartsCheck where
  inp := bufferAndRegion
  size := 256
  schedule := fun _ => Schedule.inOrder (Bool × Nat) Nat
  queue := 0
  callbacks := 1
  inOrder := fun _ => false
  checkerTime := false
  nvidia := false
  pending := [overflowKernel]
  evt := .pending 0
  isPending := overflowKernel_isPending
  distinct := List.nodup_singleton _
  orderly := overflowKernel_orderly
  launched := List.mem_singleton_self _

theorem overflowingParts_undisturbed : overflowingParts.Undisturbed where
  few := ⟨by decide, by decide⟩
  divides := by decide
  between := by decide
  words := by decide
  unaware := by
    intro c mem m i
    rw [List.mem_singleton.mp mem]
    exact ⟨rfl, rfl⟩
  alone := by
    intro c mem other
    rw [List.mem_singleton.mp mem] at other
    exact absurd rfl other

/-- A memory with canaries everywhere. -/
def PartsMemory.canaries : PartsMemory
  | .device _ => POISON_FILL
  | .result _ | .firstChange _ => (0 : Nat)

/-- The check of the kernel ends, with the verdict on both kinds. -/
theorem PartsCheck.verified_of_run_overflowing : ∃ m,
    Runs overflowingParts.inOrder
      (begin .canaries overflowingParts.pending overflowingParts.verifyOnGpu) m ∧
      m.host = [] ∧ (∀ isSvm, .format isSvm ∈ m.done) ∧ .finish ∈ m.done ∧
        overflowingParts.Completes .canaries m := by
  obtain ⟨m, runs, host, done⟩ :=
    (PartsCheck.verified_of_run overflowingParts_undisturbed .refl).ends
  have issued : ∀ c, overflowingParts.Issued c → c.tag ∈ m.done := fun c issued =>
    done c (List.mem_append_right _ (PartsCheck.mem_enqueues_iff.mpr issued))
  refine ⟨m, runs, host, fun isSvm => issued _ (.format ?_), issued _ .finish,
    PartsCheck.verified_of_run overflowingParts_undisturbed runs⟩
  cases isSvm <;> decide

end Clarmor
