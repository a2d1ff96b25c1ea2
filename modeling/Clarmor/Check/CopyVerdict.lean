import Clarmor.Check.Agreement
import Clarmor.Check.CopyRuns

/-!
# The verdict of the copying check

Whatever order the device takes, what is read from the results is the first changed
byte of every object when the kernel of the application had finished.
-/

namespace Clarmor

open Word Store Reduce Items Queues

namespace CopyCheck

variable {C : CopyCheck}

/-! ## The memory that the kernel looks at -/

/-- The memory of the device, when the kernel that compares starts. -/
def atCheck (C : CopyCheck) (m : CheckMemory) : CheckMemory :=
  inTurn Command.body C.mendList (inTurn Command.body C.pointerList
    (inTurn Command.body C.copyList m))

theorem copyList_footprints (undisturbed : C.Undisturbed) :
    ∀ c ∈ C.copyList, Footprint c.body (C.reads c.tag) (C.writes c.tag) := fun _ mem =>
  (issued_of_afterFill (mem_afterFill_iff.mpr (Or.inl mem))).footprint undisturbed

theorem pointerList_footprints (undisturbed : C.Undisturbed) :
    ∀ c ∈ C.pointerList, Footprint c.body (C.reads c.tag) (C.writes c.tag) := fun _ mem =>
  (issued_of_afterFill (mem_afterFill_iff.mpr (Or.inr (Or.inl mem)))).footprint undisturbed

theorem mendList_footprints (undisturbed : C.Undisturbed) :
    ∀ c ∈ C.mendList, Footprint c.body (C.reads c.tag) (C.writes c.tag) := fun _ mem =>
  (issued_of_afterFill (mem_afterFill_iff.mpr (Or.inr (Or.inr (Or.inl mem))))).footprint undisturbed

/-- Cells that neither copies nor repairs reach. -/
theorem atCheck_kept (undisturbed : C.Undisturbed) {m : CheckMemory} {c : CheckCell}
    (uncopied : ∀ index < C.copied, ∀ region < 2, c ∉ C.copyCells index region)
    (unpointed : kind c ≠ 1)
    (unmended : C.errorEnv = false → ∀ index < C.copied, ∀ region < 2,
      c ∉ C.canaryCells index region) : C.atCheck m c = m c := by
  rw [atCheck, inTurn_keeps (mendList_footprints undisturbed),
    inTurn_keeps (pointerList_footprints undisturbed),
    inTurn_keeps (copyList_footprints undisturbed)]
  · intro d mem
    obtain ⟨index, indexLt, region, regionLt, rfl⟩ := mem_copyList_iff.mp mem
    rw [copyOf_tag]
    exact uncopied index indexLt region regionLt
  · intro d mem
    obtain ⟨-, rfl⟩ := mem_pointerList_iff.mp mem
    rintro ⟨j, -, rfl⟩
    exact unpointed rfl
  · intro d mem
    obtain ⟨mends, index, indexLt, region, regionLt, rfl⟩ := mem_mendList_iff.mp mem
    exact unmended mends index indexLt (1 - region) (by omega)

theorem not_copyCells {index j k region : Nat} {o : CheckedObject}
    (isObject : C.inp.objects[j]? = some o) (kLt : k < 8192) (indexLt : index < C.copied)
    (regionLt : region < 2) : .device (o.cell k) ∉ C.copyCells index region := by
  intro mem
  have regionLt' : k / 4096 < 2 := by omega
  exact Set.disjoint_left.mp (disjoint_copy_canary indexLt regionLt regionLt') mem
    ⟨o, isObject, k, rfl, rfl⟩

/-- The kernel finds what the canaries were. -/
theorem atCheck_examined (undisturbed : C.Undisturbed) {m : CheckMemory} {index k : Nat}
    {o : CheckedObject} (isObject : C.inp.objects[index]? = some o) (kLt : k < 8192) :
    C.atCheck m (.device (C.examinedCell index k)) = m (.device (o.cell k)) := by
  obtain ⟨total, -⟩ := List.getElem?_eq_some_iff.mp isObject
  by_cases isCopy : index < C.copied
  · have regionLt : k / 4096 < 2 := by omega
    have inCopies : CheckCell.device (C.copyCell index k) ∈ C.copyCells index (k / 4096) :=
      ⟨k, rfl, rfl⟩
    have written := @inTurn_written _ _ _ Command.body (fun c => C.reads c.tag)
      (fun c => C.writes c.tag) C.copyList (copyList_footprints undisturbed)
      (C.copyOf index (k / 4096)) (mem_copyList_iff.mpr ⟨index, isCopy, _, regionLt, rfl⟩)
      (.device (C.copyCell index k)) (by rw [copyOf_tag]; exact inCopies)
      (by
        intro d mem other
        obtain ⟨j, jLt, region, regionLt', rfl⟩ := mem_copyList_iff.mp mem
        rw [copyOf_tag]
        intro inside
        refine Set.disjoint_left.mp (disjoint_copies regionLt regionLt' ?_) inCopies inside
        rintro rfl same
        rw [same] at other
        exact other rfl)
      (by
        intro d mem
        obtain ⟨j, jLt, region, regionLt', rfl⟩ := mem_copyList_iff.mp mem
        rw [copyOf_tag, copyOf_tag]
        exact (disjoint_copy_canary jLt regionLt' regionLt).symm)
      m
    rw [examinedCell, if_pos isCopy, atCheck, inTurn_keeps (mendList_footprints undisturbed),
      inTurn_keeps (pointerList_footprints undisturbed), written]
    · exact (copyOf_moves undisturbed.few isObject regionLt m).1 k rfl
    · intro d mem
      obtain ⟨-, rfl⟩ := mem_pointerList_iff.mp mem
      rintro ⟨j, -, same⟩
      contradiction
    · intro d mem
      obtain ⟨mends, j, jLt, region, regionLt', rfl⟩ := mem_mendList_iff.mp mem
      exact Set.disjoint_left.mp (disjoint_copy_canary isCopy regionLt (by omega)) inCopies
  · obtain ⟨pointers, isSvm⟩ := not_copied isCopy total
    rw [examinedCell_pointer pointers isSvm isObject]
    refine atCheck_kept undisturbed (fun j jLt region regionLt =>
      not_copyCells isObject kLt jLt regionLt) (by decide : 0 ≠ 1) ?_
    intro _ j jLt region regionLt mem
    obtain ⟨o', isObject', k', kLt', -, same⟩ := mem_canaryCells_device mem regionLt
    obtain ⟨rfl, -⟩ := cell_inj undisturbed.between isObject isObject' kLt kLt'
      (CheckCell.device.inj same)
    exact isCopy jLt

/-- The pointers are written, or not needed. -/
theorem atCheck_valid (undisturbed : C.Undisturbed) {m : CheckMemory} :
    (C.copySvmPtrs = false ∨ C.inp.svms = []) ∨ TableWritten C.inp.svms (C.atCheck m) := by
  by_cases native : C.copySvmPtrs = false ∨ C.inp.svms = []
  · exact Or.inl native
  · rw [not_or, Bool.not_eq_false] at native
    refine Or.inr fun j jLt => ?_
    have one : C.pointerList = [⟨.pointers, C.queue, [C.evt], writePointers C.inp.svms⟩] :=
      if_pos native
    rw [atCheck, inTurn_keeps (mendList_footprints undisturbed), one, inTurn_cons, inTurn_nil]
    · exact if_pos jLt
    · intro d mem
      obtain ⟨mends, index, indexLt, region, regionLt, rfl⟩ := mem_mendList_iff.mp mem
      intro inside
      exact absurd (kind_canary inside) (by decide : 1 ≠ 0)

/-- Canaries of copied objects are repaired before the kernel ends. -/
theorem atCheck_mended (undisturbed : C.Undisturbed) {m : CheckMemory} (mends : C.errorEnv = false)
    {index k : Nat} {o : CheckedObject} (isObject : C.inp.objects[index]? = some o)
    (isCopy : index < C.copied) (kLt : k < 8192) :
    C.atCheck m (.device (o.cell k)) = POISON_FILL := by
  have regionLt : 1 - k / 4096 < 2 := by omega
  have other : 1 - (1 - k / 4096) = k / 4096 := by omega
  have inCanary : CheckCell.device (o.cell k) ∈ C.canaryCells index (1 - (1 - k / 4096)) :=
    ⟨o, isObject, k, other.symm, rfl⟩
  rw [atCheck, @inTurn_written _ _ _ Command.body (fun c => C.reads c.tag)
    (fun c => C.writes c.tag) C.mendList (mendList_footprints undisturbed)
    (C.mendCommand index (1 - k / 4096))
    (mem_mendList_iff.mpr ⟨mends, index, isCopy, _, regionLt, rfl⟩) _ inCanary]
  · exact (mendCommand_writes isObject regionLt _).1 k other.symm
  · intro d mem differ
    obtain ⟨-, j, jLt, region, regionLt', rfl⟩ := mem_mendList_iff.mp mem
    intro inside
    refine Set.disjoint_left.mp (disjoint_canaries undisturbed (by omega) (by omega) ?_) inCanary
      inside
    rintro rfl same
    refine differ ?_
    rw [show region = 1 - k / 4096 by omega]
  · exact fun d mem => Set.empty_disjoint _

/-! ## What is read -/

/-- The results are those of a memory, and afterwards every canary is in place that is
not kept for the application to look at. -/
structure Verified (C : CopyCheck) (before : DeviceMemory) (after : CheckMemory) : Prop where
  reports : (List.range C.totalBuffs).map (fun i => reported (after (.firstChange i))) =
    C.inp.changes before
  mended : ∀ index o, C.inp.objects[index]? = some o →
    ∀ k < POISON_REGIONS * POISON_FILL_LENGTH, after (.device (o.cell k)) =
      if C.errorEnv = true ∧ index < C.copied then before (o.cell k) else POISON_FILL

theorem itemChange_atCheck (undisturbed : C.Undisturbed) (m : CheckMemory) :
    C.itemChange (C.atCheck m) = wordChange C.inp.objects m.onDevice := by
  funext t
  rw [itemChange, wordChange]
  split_ifs with inside
  · have isObject : C.inp.objects[t / 2048]? = some C.inp.objects[t / 2048] :=
      List.getElem?_eq_getElem inside
    rw [isObject, Option.map_some, Option.getD_some]
    refine firstByte_congr fun q qLt => ?_
    have found : (C.atCheck m).onDevice (C.examinedCell (t / 2048) (4 * (t % 2048) + q)) =
        m.onDevice (C.inp.objects[t / 2048].cell (4 * (t % 2048) + q)) :=
      atCheck_examined undisturbed isObject (by omega)
    rw [found]
  · rw [List.getElem?_eq_none (Nat.not_lt.mp inside)]
    rfl

/-- The commands one after the other. -/
theorem verified_inTurn (undisturbed : C.Undisturbed) {m : CheckMemory}
    (filled : ∀ i < C.totalBuffs, m (.result i) = INT_MAX) :
    C.Verified m.onDevice (inTurn Command.body C.afterFill m) := by
  have effect := checkKernel_effect undisturbed (atCheck_valid undisturbed (m := m))
  have after : inTurn Command.body C.afterFill m = readResult C.totalBuffs
      (checkKernel C.copySvmPtrs C.size C.schedule C.inp C.svmCopies (C.atCheck m)) := by
    rw [afterFill, inTurn_append, inTurn_append, inTurn_append]
    rfl
  rw [after]
  constructor
  · have gathers := @gathers_atomicsOf _ _ _ _ (copyGrid C.copySvmPtrs C.size C.inp) C.schedule
      INT_MAX (wordChange C.inp.objects m.onDevice)
      (copyGrid_uniform undisturbed.few undisturbed.divides)
    rw [← reports_of_gathers undisturbed.few gathers, ← C.inp.length_objects]
    refine List.map_congr_left fun i mem => ?_
    have iLt : i < C.totalBuffs := List.mem_range.mp mem
    have kept : C.atCheck m (.result i) = m (.result i) := by
      refine atCheck_kept undisturbed (fun j _ r _ inside => ?_) (by exact (by decide : 2 ≠ 1))
        fun _ j _ r _ inside => ?_
      · exact absurd (kind_copies inside) (by decide : 2 ≠ 0)
      · exact absurd (kind_canary inside) (by decide : 2 ≠ 0)
    have unfilled : C.atCheck m (.result i) = INT_MAX := kept.trans (filled i iLt)
    have isRead : readResult C.totalBuffs (checkKernel C.copySvmPtrs C.size C.schedule C.inp
        C.svmCopies (C.atCheck m)) (.firstChange i) = checkKernel C.copySvmPtrs C.size C.schedule
          C.inp C.svmCopies (C.atCheck m) (.result i) := if_pos iLt
    rw [isRead, effect.result, itemChange_atCheck undisturbed]
    exact congrArg reported (runAtomics_congr unfilled)
  · intro index o isObject k kLt
    change checkKernel C.copySvmPtrs C.size C.schedule C.inp C.svmCopies (C.atCheck m)
      (.device (o.cell k)) = _
    obtain ⟨total, -⟩ := List.getElem?_eq_some_iff.mp isObject
    by_cases isCopy : index < C.copied
    · have regionLt : k / 4096 < 2 := by
        simp only [POISON_REGIONS, POISON_FILL_LENGTH] at kLt
        omega
      have kept := effect.kept (o.cell k) (Or.inr (Or.inr fun j jLt k' kLt' same =>
        Set.disjoint_left.mp (disjoint_examined_canary undisturbed isCopy regionLt)
          ⟨j, jLt, k', kLt', rfl⟩ ⟨o, isObject, k, rfl, congrArg _ same.symm⟩))
      rw [kept]
      cases keeps : C.errorEnv with
      | false =>
          rw [if_neg (by simp)]
          exact atCheck_mended undisturbed keeps isObject isCopy kLt
      | true =>
          rw [if_pos ⟨rfl, isCopy⟩]
          refine atCheck_kept undisturbed (fun j jLt region regionLt =>
            not_copyCells isObject kLt jLt regionLt) (by decide : 0 ≠ 1) fun mends => ?_
          exact absurd mends (by rw [keeps]; decide)
    · obtain ⟨pointers, isSvm⟩ := not_copied isCopy total
      have some' : C.inp.svms ≠ [] := by
        intro none
        have length : C.totalBuffs = C.numClMem + C.inp.svms.length := totalBuffs_eq
        have total' : index < C.totalBuffs := total
        rw [none, List.length_nil] at length
        omega
      rw [if_neg fun other => isCopy other.2, ← examinedCell_pointer pointers isSvm isObject]
      exact effect.mended pointers some' index total k kLt

/-! ## All runs -/

/-- The fill of the results is done, or it comes first. -/
theorem verified_afterFill (undisturbed : C.Undisturbed) (any : C.totalBuffs ≠ 0)
    {memory : CheckMemory} {s s' : Machine CheckTag CheckMemory}
    (runs : Runs C.inOrder (begin memory C.pending C.verifyOps) s)
    (executed : step C.inOrder s (.execute C.evt) = some s') :
    C.Verified s'.memory.onDevice (inTurn Command.body
      (if .fill ∈ s'.done then C.afterFill else C.fillCommand :: C.afterFill) s'.memory) := by
  have toS' : Runs C.inOrder (begin memory C.pending C.verifyOps) s' := runs.tail trivial executed
  split_ifs with fillDone
  · refine verified_inTurn undisturbed (filled undisturbed any toS' fillDone ?_)
    have isLast : C.checkCommand ∈ C.afterFill :=
      mem_afterFill_iff.mpr (Or.inr (Or.inr (Or.inr (Or.inl rfl))))
    exact (lawful toS').not_yet executed (after_evt any isLast)
  · rw [inTurn_cons]
    exact @verified_inTurn C undisturbed (fillResult C.totalBuffs s'.memory)
      fun i iLt => if_pos iLt

/-- A verdict is about cells of the check. -/
theorem Verified.congr {before : DeviceMemory} {m m' : CheckMemory} (verified : C.Verified before m)
    (same : AgreeOn C.cells m' m) : C.Verified before m' := by
  refine ⟨?_, fun index o isObject k kLt => ?_⟩
  · rw [← verified.reports]
    refine List.map_congr_left fun i _ => ?_
    rw [same (.firstChange i) trivial]
  · rw [← verified.mended index o isObject k kLt]
    exact same _ (cell_mem isObject kLt)

/-- A command of the check changes nothing but what it looks at. -/
theorem step_keeps (undisturbed : C.Undisturbed) {memory : CheckMemory}
    {s s' : Machine CheckTag CheckMemory} {t : CheckTag}
    (runs : Runs C.inOrder (begin memory C.pending C.verifyOps) s)
    (executed : step C.inOrder s (.execute t) = some s') (own : t ∉ C.pending.map Command.tag)
    {c : CheckCell} (outside : c ∉ C.cells) : s'.memory c = s.memory c := by
  obtain ⟨d, mem, rfl, -, rfl⟩ := execute_eq_some executed
  rcases List.mem_append.mp ((lawful runs).mem_script mem) with isPending | mem
  · exact absurd (List.mem_map_of_mem isPending) own
  · by_cases any : C.totalBuffs = 0
    · rw [verifyOps, if_pos any] at mem
      exact absurd mem List.not_mem_nil
    · rw [enqueues_verifyOps any] at mem
      have issued := mem_commands_iff.mp mem
      exact (issued.footprint undisturbed).keeps s.memory c fun written =>
        outside (writes_subset issued written)

/-- The promise of a check to a run. -/
structure Completes (C : CopyCheck) (memory : CheckMemory) (m : Machine CheckTag CheckMemory) :
    Prop where
  ends : ∃ m', Runs C.inOrder m m' ∧ m'.host = [] ∧
    ∀ c ∈ C.pending ++ enqueues C.verifyOps, c.tag ∈ m'.done
  verified : .read ∈ m.done → ∃ s s', Runs C.inOrder (begin memory C.pending C.verifyOps) s ∧
    step C.inOrder s (.execute C.evt) = some s' ∧ Runs C.inOrder s' m ∧
      C.Verified s'.memory.onDevice m.memory
  /-- A command of the check changes nothing but what it looks at. -/
  keeps : ∀ t m', t ∉ C.pending.map Command.tag → step C.inOrder m (.execute t) = some m' →
    ∀ c ∉ C.cells, m'.memory c = m.memory c

/-- Every run can come to its end.  What it has then read are the first changes when the
kernel of the application had finished. -/
theorem completes_of_run (undisturbed : C.Undisturbed) {memory : CheckMemory}
    {m : Machine CheckTag CheckMemory}
    (runs : Runs C.inOrder (begin memory C.pending C.verifyOps) m) : C.Completes memory m := by
  refine ⟨(lawful runs).drains distinct_script orderly_script supplied_verifyOps, fun done => ?_,
    fun t m' own executed c outside => step_keeps undisturbed runs executed own outside⟩
  have any : C.totalBuffs ≠ 0 := by
    intro none
    obtain ⟨c, mem, isRead⟩ := List.mem_map.mp ((lawful runs).known .read done)
    have inScript := (lawful runs).mem_script mem
    rw [verifyOps, if_pos none] at inScript
    obtain ⟨n, isPending⟩ := C.isPending c (by simpa using inScript)
    rw [isPending] at isRead
    contradiction
  have evtDone : C.evt ∈ m.done := by
    have isLast : C.readCommand ∈ C.afterFill :=
      mem_afterFill_iff.mpr (Or.inr (Or.inr (Or.inr (Or.inr rfl))))
    exact ((lawful runs).after done (after_evt any isLast)).subset
      (List.mem_cons_of_mem _ (List.mem_singleton_self _))
  obtain ⟨s, s', first, executed, rest⟩ := runs.executed_at List.not_mem_nil evtDone
  refine ⟨s, s', first, executed, rest, ?_⟩
  exact (verified_afterFill undisturbed any first executed).congr
    (serial_afterFill undisturbed any first executed rest done)

end CopyCheck

theorem bufferAndRegion_fresh : ∀ o ∈ bufferAndRegion.objects,
    ∀ a < 8192 * bufferAndRegion.svms.length, ¬ o.Allocates (SHARED, 65536 + a) := by
  rintro o mem a - ⟨store, lower, upper⟩
  rcases List.mem_cons.mp mem with rfl | mem
  · exact absurd (show SHARED = 2 from store) (by decide)
  · rw [List.mem_singleton.mp mem] at upper
    simp only [POISON_REGIONS, POISON_FILL_LENGTH] at upper
    omega

/-- A kernel that writes behind a buffer of three bytes. -/
def writeBehind (m : CheckMemory) : CheckMemory := Function.update m (.device (2, 4100)) (7 : UInt8)

/-- The kernel, and the check after it. -/
def overflowing : CopyCheck where
  inp := bufferAndRegion
  copySvmPtrs := true
  svmCopies := 65536
  size := 256
  schedule := Schedule.inOrder Nat Nat
  queue := 0
  fillQueue := fun _ => 1
  inOrder := fun _ => false
  errorEnv := false
  checkerTime := false
  nvidia := true
  pending := [⟨.pending 0, 0, [], writeBehind⟩]
  evt := .pending 0
  isPending := by
    intro c mem
    rw [List.mem_singleton.mp mem]
    exact ⟨0, rfl⟩
  distinct := List.nodup_singleton _
  orderly := by
    intro c mem t wait
    rw [List.mem_singleton.mp mem] at wait
    exact absurd wait (List.not_mem_nil)
  launched := List.mem_singleton_self _
  fresh := bufferAndRegion_fresh

theorem overflowing_undisturbed : overflowing.Undisturbed where
  few := ⟨by decide, by decide⟩
  divides := by decide
  between := by decide
  words := by
    intro _
    decide
  unaware := by
    intro c mem m
    rw [List.mem_singleton.mp mem]
    refine ⟨fun a own => Function.update_of_ne ?_ _ _, fun i => ⟨rfl, rfl, rfl⟩⟩
    rintro same
    obtain rfl := CheckCell.device.inj same
    rcases own with scratch | ⟨x, -, shared⟩
    · exact absurd scratch (by decide)
    · exact absurd (Prod.mk.inj shared).1 (by decide)
  alone := by
    intro c mem other
    rw [List.mem_singleton.mp mem] at other
    exact absurd rfl other

/-- A memory with canaries everywhere. -/
def CheckMemory.canaries : CheckMemory
  | .device _ => POISON_FILL
  | .pointers _ | .result _ | .firstChange _ => (0 : Nat)

/-- The check of the kernel ends, with the verdict on what the kernel left. -/
theorem CopyCheck.completes_of_run_overflowing : ∃ m,
    Runs overflowing.inOrder (begin .canaries overflowing.pending overflowing.verifyOps) m ∧
      m.host = [] ∧ .read ∈ m.done ∧ overflowing.Completes .canaries m := by
  obtain ⟨m, runs, host, done⟩ := (CopyCheck.completes_of_run overflowing_undisturbed (.refl)).ends
  refine ⟨m, runs, host, done overflowing.readCommand ?_,
    CopyCheck.completes_of_run overflowing_undisturbed runs⟩
  rw [CopyCheck.enqueues_verifyOps (by decide)]
  exact List.mem_append_right _ (CopyCheck.mem_commands_iff.mpr .read)

end Clarmor
