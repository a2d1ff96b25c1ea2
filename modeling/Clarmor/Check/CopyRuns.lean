import Clarmor.Check.CopyFootprints

/-!
# Runs of the copying check

Commands that interfere are ordered by their events.  So whatever order the device
takes, the results are those of the memory that the kernel left, and afterwards the
canaries are in place.
-/

namespace Clarmor

open Word Store Reduce Items Queues

namespace CopyCheck

variable {C : CopyCheck}

/-! ## One order for all runs -/

/-- The copies, without their markers. -/
def copyList (C : CopyCheck) : List (Command CheckTag CheckMemory) :=
  (List.range C.copied).flatMap fun index => [C.copyOf index 0, C.copyOf index 1]

def pointerList (C : CopyCheck) : List (Command CheckTag CheckMemory) :=
  if C.copySvmPtrs = true ∧ C.inp.svms ≠ [] then
    [⟨.pointers, C.queue, [C.evt], writePointers C.inp.svms⟩]
  else []

/-- The repairs, without their markers. -/
def mendList (C : CopyCheck) : List (Command CheckTag CheckMemory) :=
  if C.errorEnv then []
  else (List.range C.copied).flatMap fun index => [C.mendCommand index 0, C.mendCommand index 1]

/-- The commands after the fill, the copies before all repairs. -/
def afterFill (C : CopyCheck) : List (Command CheckTag CheckMemory) :=
  C.copyList ++ (C.pointerList ++ (C.mendList ++ [C.checkCommand, C.readCommand]))

theorem mem_copyList_iff {c : Command CheckTag CheckMemory} :
    c ∈ C.copyList ↔ ∃ index < C.copied, ∃ region < 2, c = C.copyOf index region := by
  simp only [copyList, List.mem_flatMap, List.mem_range, List.mem_cons, List.not_mem_nil, or_false]
  constructor
  · rintro ⟨index, indexLt, rfl | rfl⟩
    · exact ⟨index, indexLt, 0, by decide, rfl⟩
    · exact ⟨index, indexLt, 1, by decide, rfl⟩
  · rintro ⟨index, indexLt, region, regionLt, rfl⟩
    refine ⟨index, indexLt, ?_⟩
    interval_cases region
    · exact Or.inl rfl
    · exact Or.inr rfl

theorem mem_mendList_iff {c : Command CheckTag CheckMemory} : c ∈ C.mendList ↔
    C.errorEnv = false ∧ ∃ index < C.copied, ∃ region < 2, c = C.mendCommand index region := by
  rw [mendList]
  cases C.errorEnv with
  | true => simp
  | false =>
      simp only [Bool.false_eq_true, if_false, true_and, List.mem_flatMap, List.mem_range,
        List.mem_cons, List.not_mem_nil, or_false]
      constructor
      · rintro ⟨index, indexLt, rfl | rfl⟩
        · exact ⟨index, indexLt, 0, by decide, rfl⟩
        · exact ⟨index, indexLt, 1, by decide, rfl⟩
      · rintro ⟨index, indexLt, region, regionLt, rfl⟩
        refine ⟨index, indexLt, ?_⟩
        interval_cases region
        · exact Or.inl rfl
        · exact Or.inr rfl

theorem mem_pointerList_iff {c : Command CheckTag CheckMemory} : c ∈ C.pointerList ↔
    (C.copySvmPtrs = true ∧ C.inp.svms ≠ []) ∧
      c = ⟨.pointers, C.queue, [C.evt], writePointers C.inp.svms⟩ := by
  rw [pointerList]
  split_ifs with pointers
  · simp [pointers]
  · simp [pointers]

/-- A command of the order, with what it is. -/
theorem mem_afterFill_iff {c : Command CheckTag CheckMemory} : c ∈ C.afterFill ↔
    c ∈ C.copyList ∨ c ∈ C.pointerList ∨ c ∈ C.mendList ∨ c = C.checkCommand ∨
      c = C.readCommand := by
  rw [afterFill]
  simp

theorem issued_of_afterFill {c : Command CheckTag CheckMemory} (mem : c ∈ C.afterFill) :
    C.Issued c := by
  rcases mem_afterFill_iff.mp mem with mem | mem | mem | rfl | rfl
  · obtain ⟨index, indexLt, region, regionLt, rfl⟩ := mem_copyList_iff.mp mem
    exact .copy indexLt regionLt
  · obtain ⟨⟨pointers, some'⟩, rfl⟩ := mem_pointerList_iff.mp mem
    exact .pointers pointers some'
  · obtain ⟨mends, index, indexLt, region, regionLt, rfl⟩ := mem_mendList_iff.mp mem
    exact .mend mends indexLt regionLt
  · exact .check
  · exact .read

/-- A pair of tags for every index. -/
theorem nodup_pairs {n : Nat} {tag : Nat → Nat → CheckTag}
    (inj : ∀ i j region region', tag i region = tag j region' → i = j ∧ region = region') :
    ((List.range n).flatMap fun index => [tag index 0, tag index 1]).Nodup := by
  rw [List.nodup_flatMap]
  constructor
  · intro index _
    refine List.nodup_cons.mpr ⟨fun mem => ?_, List.nodup_singleton _⟩
    exact absurd (inj _ _ _ _ (List.mem_singleton.mp mem)).2 (by decide)
  · refine List.nodup_range.imp fun {i j} differ => ?_
    intro t mem mem'
    obtain ⟨region, rfl⟩ : ∃ region, t = tag i region := by
      rcases List.mem_cons.mp mem with rfl | mem
      · exact ⟨0, rfl⟩
      · exact ⟨1, List.mem_singleton.mp mem⟩
    obtain ⟨region', same⟩ : ∃ region', tag i region = tag j region' := by
      rcases List.mem_cons.mp mem' with same | mem'
      · exact ⟨0, same⟩
      · exact ⟨1, List.mem_singleton.mp mem'⟩
    exact differ (inj _ _ _ _ same).1

theorem afterFill_tags : (C.fillCommand :: C.afterFill).map Command.tag = .fill ::
    ((List.range C.copied).flatMap (fun index => [.copy index 0, .copy index 1]) ++
      ((if C.copySvmPtrs = true ∧ C.inp.svms ≠ [] then [.pointers] else []) ++
        ((if C.errorEnv then [] else
          (List.range C.copied).flatMap fun index => [.mend index 0, .mend index 1]) ++
            [.check, .read]))) := by
  rw [afterFill, copyList, pointerList, mendList]
  simp only [List.map_cons, List.map_append, List.map_flatMap, copyOf_tag, List.map_nil,
    fillCommand, checkCommand, readCommand, apply_ite (List.map Command.tag)]
  rfl

theorem nodup_afterFill : (C.fillCommand :: C.afterFill).Nodup := by
  apply List.Nodup.of_map Command.tag
  rw [afterFill_tags]
  have copies : ((List.range C.copied).flatMap
      fun index => [CheckTag.copy index 0, .copy index 1]).Nodup :=
    nodup_pairs fun i j region region' same => CheckTag.copy.inj same
  have mends : ((List.range C.copied).flatMap
      fun index => [CheckTag.mend index 0, .mend index 1]).Nodup :=
    nodup_pairs fun i j region region' same => CheckTag.mend.inj same
  split_ifs <;> simp [List.nodup_append, copies, mends] <;> aesop

/-- The fill of the results comes before the kernel and the read, and touches what no
other command does. -/
theorem before_fill (undisturbed : C.Undisturbed) (any : C.totalBuffs ≠ 0)
    {d : Command CheckTag CheckMemory} (mem : d ∈ C.afterFill) : C.Before C.fillCommand d := by
  have results : ∀ c ∈ C.writes C.fillCommand.tag, kind c = 2 := by
    rintro c ⟨i, -, rfl⟩
    rfl
  have apart : (∀ c ∈ C.reads d.tag, kind c ≠ 2) → (∀ c ∈ C.writes d.tag, kind c ≠ 2) →
      C.Before C.fillCommand d := fun reads writes => Or.inl <|
    commute_of_disjoint undisturbed .fill (issued_of_afterFill mem)
      (disjoint_of_kind results writes) (Set.empty_disjoint _) (disjoint_of_kind results reads).symm
  rcases mem_afterFill_iff.mp mem with mem | mem | mem | rfl | rfl
  · obtain ⟨index, indexLt, region, regionLt, rfl⟩ := mem_copyList_iff.mp mem
    rw [copyOf_tag] at apart
    exact apart (fun c mem => by rw [kind_canary mem]; decide)
      fun c mem => by rw [kind_copies mem]; decide
  · obtain ⟨⟨pointers, some'⟩, rfl⟩ := mem_pointerList_iff.mp mem
    refine apart (fun c mem => absurd mem (Set.notMem_empty _)) ?_
    rintro c ⟨j, -, rfl⟩
    exact (by decide : 1 ≠ 2)
  · obtain ⟨mends, index, indexLt, region, regionLt, rfl⟩ := mem_mendList_iff.mp mem
    exact apart (fun c mem => absurd mem (Set.notMem_empty _))
      fun c mem => by rw [kind_canary mem]; decide
  · exact Or.inr (.single (after_check any (List.mem_append_right _ (List.mem_singleton_self _))))
  · refine Or.inr (.tail (after_read any) (after_check any ?_))
    exact List.mem_append_right _ (List.mem_singleton_self _)

/-- The copies do not interfere, and the kernel waits for them. -/
theorem before_copy (undisturbed : C.Undisturbed) (any : C.totalBuffs ≠ 0) {index region : Nat}
    (indexLt : index < C.copied) (regionLt : region < 2) {d : Command CheckTag CheckMemory}
    (mem : d ∈ C.afterFill) : C.Before (C.copyOf index region) d := by
  have issued : C.Issued (C.copyOf index region) := .copy indexLt regionLt
  have waits := after_check any (mem_initEvts_copy indexLt regionLt)
  rw [← copyOf_tag] at waits
  rcases mem_afterFill_iff.mp mem with mem | mem | mem | rfl | rfl
  · obtain ⟨j, jLt, region', regionLt', rfl⟩ := mem_copyList_iff.mp mem
    by_cases same : index = j ∧ region = region'
    · obtain ⟨rfl, rfl⟩ := same
      exact Or.inl fun m => (agreeOn_equivalence _).refl _
    · have differ : index = j → region ≠ region' := fun h h' => same ⟨h, h'⟩
      refine Or.inl (commute_of_disjoint undisturbed issued (.copy jLt regionLt') ?_ ?_ ?_) <;>
        rw [copyOf_tag, copyOf_tag]
      · exact disjoint_copies regionLt regionLt' differ
      · exact (disjoint_copy_canary jLt regionLt' regionLt).symm
      · exact (disjoint_copy_canary indexLt regionLt regionLt').symm
  · obtain ⟨⟨pointers, some'⟩, rfl⟩ := mem_pointerList_iff.mp mem
    have written : ∀ c ∈ C.writes .pointers, kind c ≠ 0 := by
      rintro c ⟨j, -, rfl⟩
      exact (by decide : 1 ≠ 0)
    refine Or.inl (commute_of_disjoint undisturbed issued (.pointers pointers some') ?_ ?_
      (Set.empty_disjoint _)) <;> rw [copyOf_tag]
    · exact disjoint_of_kind (fun c => kind_copies) written
    · exact disjoint_of_kind (fun c => kind_canary) written
  · obtain ⟨mends, j, jLt, region', regionLt', rfl⟩ := mem_mendList_iff.mp mem
    by_cases same : index = j
    · obtain rfl := same
      refine Or.inr ?_
      rw [copyOf_tag]
      exact after_mend any mends indexLt regionLt' regionLt
    · refine Or.inl (commute_of_disjoint undisturbed issued (.mend mends jLt regionLt') ?_ ?_
        (Set.empty_disjoint _)) <;> rw [copyOf_tag]
      · exact disjoint_copy_canary indexLt regionLt (by omega)
      · exact disjoint_canaries undisturbed regionLt (by omega) fun h => absurd h same
  · exact Or.inr (.single waits)
  · exact Or.inr (.tail (after_read any) waits)

/-- The kernel waits for the pointers, and repairs do not need them. -/
theorem before_pointers (undisturbed : C.Undisturbed) (any : C.totalBuffs ≠ 0)
    (pointers : C.copySvmPtrs = true) (some' : C.inp.svms ≠ []) {d : Command CheckTag CheckMemory}
    (mem : d ∈ C.mendList ++ [C.checkCommand, C.readCommand]) :
    C.Before ⟨.pointers, C.queue, [C.evt], writePointers C.inp.svms⟩ d := by
  have waits : Needs C.inOrder (C.pending ++ enqueues C.verifyOps) .check .pointers := by
    refine after_check any (List.mem_append_left _ (List.mem_append_right _ ?_))
    rw [if_pos ⟨pointers, some'⟩]
    exact List.mem_singleton_self _
  rcases List.mem_append.mp mem with mem | mem
  · obtain ⟨mends, j, jLt, region, regionLt, rfl⟩ := mem_mendList_iff.mp mem
    refine Or.inl (commute_of_disjoint undisturbed (.pointers pointers some')
      (.mend mends jLt regionLt) ?_ (Set.empty_disjoint _) (Set.empty_disjoint _))
    refine (disjoint_of_kind (fun c => kind_canary) ?_).symm
    rintro c ⟨i, -, rfl⟩
    exact (by decide : 1 ≠ 0)
  · rcases List.mem_cons.mp mem with rfl | mem
    · exact Or.inr (.single waits)
    · rw [List.mem_singleton.mp mem]
      exact Or.inr (.tail (after_read any) waits)

/-- Repairs do not interfere with each other, with the kernel or with the read. -/
theorem before_mend (undisturbed : C.Undisturbed) (mends : C.errorEnv = false) {index region : Nat}
    (indexLt : index < C.copied) (regionLt : region < 2) {d : Command CheckTag CheckMemory}
    (mem : d ∈ C.mendList ++ [C.checkCommand, C.readCommand]) :
    C.Before (C.mendCommand index region) d := by
  have issued : C.Issued (C.mendCommand index region) := .mend mends indexLt regionLt
  have apart : ∀ {j : Nat} {t : Set CheckCell}, (∀ c ∈ t, kind c ≠ 0) →
      Disjoint (C.canaryCells index j) t := fun other =>
    disjoint_of_kind (fun c => kind_canary) other
  have results : ∀ c ∈ {c : CheckCell | ∃ i, c = .result i}, kind c ≠ 0 := by
    rintro c ⟨i, rfl⟩
    exact (by decide : 2 ≠ 0)
  have examined := @disjoint_examined_canary C undisturbed index (1 - region) indexLt (by omega)
  rcases List.mem_append.mp mem with mem | mem
  · obtain ⟨-, j, jLt, region', regionLt', rfl⟩ := mem_mendList_iff.mp mem
    by_cases same : index = j ∧ region = region'
    · obtain ⟨rfl, rfl⟩ := same
      exact Or.inl fun m => (agreeOn_equivalence _).refl _
    · refine Or.inl (commute_of_disjoint undisturbed issued (.mend mends jLt regionLt')
        (disjoint_canaries undisturbed (by omega) (by omega) fun h h' => same ⟨h, by omega⟩)
        (Set.empty_disjoint _) (Set.empty_disjoint _))
  · rcases List.mem_cons.mp mem with rfl | mem
    · refine Or.inl (commute_of_disjoint undisturbed issued .check ?_ (Set.empty_disjoint _) ?_)
      · refine Set.disjoint_union_right.mpr ⟨apart results, examined.symm.mono_right ?_⟩
        exact fun c mem => mem.2.2
      · refine Set.disjoint_union_left.mpr ⟨Set.disjoint_union_left.mpr ⟨examined, ?_⟩, ?_⟩
        · exact (apart results).symm
        · refine (apart ?_).symm
          rintro c ⟨j, rfl⟩
          exact (by decide : 1 ≠ 0)
    · rw [List.mem_singleton.mp mem]
      refine Or.inl (commute_of_disjoint undisturbed issued .read (apart ?_) (Set.empty_disjoint _)
        (apart ?_).symm)
      · rintro c ⟨i, -, rfl⟩
        exact (by decide : 3 ≠ 0)
      · rintro c ⟨i, -, rfl⟩
        exact (by decide : 2 ≠ 0)

/-- Every command comes before those that it interferes with. -/
theorem pairwise_before (undisturbed : C.Undisturbed) (any : C.totalBuffs ≠ 0) :
    (C.fillCommand :: C.afterFill).Pairwise C.Before := by
  have inTail : ∀ d ∈ C.mendList ++ [C.checkCommand, C.readCommand], d ∈ C.afterFill := fun d mem =>
    List.mem_append_right _ (List.mem_append_right _ mem)
  refine List.pairwise_cons.mpr ⟨fun d mem => before_fill undisturbed any mem, ?_⟩
  rw [afterFill]
  refine List.pairwise_append.mpr ⟨?_, List.pairwise_append.mpr ⟨?_, ?_, ?_⟩, ?_⟩
  · refine List.pairwise_of_forall_mem_list fun c mem d mem' => ?_
    obtain ⟨index, indexLt, region, regionLt, rfl⟩ := mem_copyList_iff.mp mem
    exact before_copy undisturbed any indexLt regionLt (List.mem_append_left _ mem')
  · rw [pointerList]
    split_ifs
    · exact List.pairwise_singleton _ _
    · exact List.Pairwise.nil
  · refine List.pairwise_append.mpr ⟨?_, ?_, ?_⟩
    · refine List.pairwise_of_forall_mem_list fun c mem d mem' => ?_
      obtain ⟨mends, index, indexLt, region, regionLt, rfl⟩ := mem_mendList_iff.mp mem
      exact before_mend undisturbed mends indexLt regionLt (List.mem_append_left _ mem')
    · refine List.pairwise_pair.mpr (Or.inr (after_read any))
    · intro c mem d mem'
      obtain ⟨mends, index, indexLt, region, regionLt, rfl⟩ := mem_mendList_iff.mp mem
      exact before_mend undisturbed mends indexLt regionLt (List.mem_append_right _ mem')
  · intro c mem d mem'
    obtain ⟨⟨pointers, some'⟩, rfl⟩ := mem_pointerList_iff.mp mem
    exact before_pointers undisturbed any pointers some' mem'
  · intro c mem d mem'
    obtain ⟨index, indexLt, region, regionLt, rfl⟩ := mem_copyList_iff.mp mem
    exact before_copy undisturbed any indexLt regionLt (List.mem_append_right _ mem')

/-! ## What a run has done -/

/-- The script of a check with its pending commands. -/
abbrev script (C : CopyCheck) : List (Command CheckTag CheckMemory) :=
  C.pending ++ enqueues C.verifyOps

abbrev After (C : CopyCheck) (t needed : CheckTag) : Prop :=
  Relation.TransGen (Needs C.inOrder C.script) t needed

/-- Everything but the fill waits for the kernel of the application. -/
theorem after_evt (any : C.totalBuffs ≠ 0) {c : Command CheckTag CheckMemory}
    (mem : c ∈ C.afterFill) : C.After c.tag C.evt := by
  have copy : ∀ index < C.copied, ∀ region < 2, C.After (.copy index region) C.evt := by
    intro index indexLt region regionLt
    have waits := needs_of_wait any (.copy indexLt regionLt) (t := C.evt) (by
      rw [copyOf]
      split_ifs <;> exact List.mem_singleton_self _)
    rw [copyOf_tag] at waits
    exact .single waits
  have pointers : C.copySvmPtrs = true → C.inp.svms ≠ [] → C.After .pointers C.evt :=
    fun pointers some' => .single (needs_of_wait any (.pointers pointers some') (by simp))
  have check : C.After .check C.evt := by
    by_cases one : 0 < C.copied
    · exact (Relation.TransGen.single (after_check any (mem_initEvts_copy one (by decide)))).trans
        (copy 0 one 0 (by decide))
    · obtain ⟨isPointers, isSvm⟩ := not_copied one (Nat.pos_of_ne_zero any)
      have some' : C.inp.svms ≠ [] := by
        intro none
        have total : C.totalBuffs = C.numClMem + C.inp.svms.length := totalBuffs_eq
        rw [none, List.length_nil] at total
        omega
      refine (Relation.TransGen.single (after_check any ?_)).trans (pointers isPointers some')
      refine List.mem_append_left _ (List.mem_append_right _ ?_)
      rw [if_pos ⟨isPointers, some'⟩]
      exact List.mem_singleton_self _
  rcases mem_afterFill_iff.mp mem with mem | mem | mem | rfl | rfl
  · obtain ⟨index, indexLt, region, regionLt, rfl⟩ := mem_copyList_iff.mp mem
    rw [copyOf_tag]
    exact copy index indexLt region regionLt
  · obtain ⟨⟨isPointers, some'⟩, rfl⟩ := mem_pointerList_iff.mp mem
    exact pointers isPointers some'
  · obtain ⟨mends, index, indexLt, region, regionLt, rfl⟩ := mem_mendList_iff.mp mem
    exact (after_mend any mends indexLt regionLt (by decide)).trans
      (copy index indexLt 0 (by decide))
  · exact check
  · exact (after_read any).trans check

/-- The read waits for everything. -/
theorem read_after (any : C.totalBuffs ≠ 0) {c : Command CheckTag CheckMemory}
    (mem : c ∈ C.fillCommand :: C.afterFill) : c = C.readCommand ∨ C.After .read c.tag := by
  have waits : ∀ t ∈ C.initEvts, C.After .read t := fun t wait =>
    (after_read any).trans (.single (after_check any wait))
  rcases List.mem_cons.mp mem with rfl | mem
  · exact Or.inr (waits .fill (List.mem_append_right _ (List.mem_singleton_self _)))
  rcases mem_afterFill_iff.mp mem with mem | mem | mem | rfl | rfl
  · obtain ⟨index, indexLt, region, regionLt, rfl⟩ := mem_copyList_iff.mp mem
    rw [copyOf_tag]
    exact Or.inr (waits _ (mem_initEvts_copy indexLt regionLt))
  · obtain ⟨isPointers, rfl⟩ := mem_pointerList_iff.mp mem
    refine Or.inr (waits .pointers (List.mem_append_left _ (List.mem_append_right _ ?_)))
    rw [if_pos isPointers]
    exact List.mem_singleton_self _
  · obtain ⟨mends, index, indexLt, region, regionLt, rfl⟩ := mem_mendList_iff.mp mem
    have read : Needs C.inOrder C.script .read .finish := needs_of_wait any .read (by
      rw [readCommand, mends, if_neg Bool.false_ne_true]
      exact List.mem_singleton_self _)
    have finish : Needs C.inOrder C.script .finish .mendMarker :=
      needs_of_wait any (.finish mends) (by simp)
    have marker : Needs C.inOrder C.script .mendMarker (.mendFinish index) :=
      needs_of_wait any (.mendMarker mends) (by
        rw [mendEvents, mends, if_neg Bool.false_ne_true]
        exact List.mem_map_of_mem (List.mem_range.mpr indexLt))
    have mended : Needs C.inOrder C.script (.mendFinish index) (.mend index region) :=
      needs_of_wait any (.mendFinish mends indexLt) (by interval_cases region <;> simp)
    exact Or.inr ((((Relation.TransGen.single read).tail finish).tail marker).tail mended)
  · exact Or.inr (after_read any)
  · exact Or.inl rfl

theorem lawful {memory : CheckMemory} {m : Machine CheckTag CheckMemory}
    (runs : Runs C.inOrder (begin memory C.pending C.verifyOps) m) :
    Lawful C.inOrder C.pending C.verifyOps m :=
  (lawful_begin C.inOrder memory C.pending C.verifyOps).of_runs distinct_script runs

/-- The results that were filled stay so until the kernel of the check. -/
theorem filled (undisturbed : C.Undisturbed) (any : C.totalBuffs ≠ 0) {memory : CheckMemory}
    {m : Machine CheckTag CheckMemory}
    (runs : Runs C.inOrder (begin memory C.pending C.verifyOps) m) (done : .fill ∈ m.done)
    (unchecked : .check ∉ m.done) : ∀ i < C.totalBuffs, m.memory (.result i) = INT_MAX := by
  have one : AgreeOn {c | ∃ i < C.totalBuffs, c = .result i} m.memory
      (C.fillCommand.body memory) := by
    refine runs.settled (agreeOn_equivalence _) distinct_script (List.mem_append_right _ ?_) done
      ?_ ?_
    · rw [enqueues_verifyOps any]
      exact mem_commands_iff.mpr .fill
    · rintro memory' memory'' - c' ⟨i, iLt, rfl⟩
      exact (if_pos iLt).trans (if_pos iLt).symm
    · intro c mem other isDone memory'
      rcases List.mem_append.mp mem with mem | mem
      · rintro c' ⟨i, -, rfl⟩
        exact ((undisturbed.unaware c mem memory').2 i).2.1
      · rw [enqueues_verifyOps any] at mem
        have issued := mem_commands_iff.mp mem
        refine (issued.footprint undisturbed).hidden (Set.disjoint_left.mpr ?_) memory'
        rintro c' ⟨i, -, rfl⟩ written
        cases issued with
        | copy indexLt regionLt =>
            rw [copyOf_tag] at written
            exact absurd (kind_copies written) (by decide : 2 ≠ 0)
        | mend _ _ _ => exact absurd (kind_canary written) (by decide : 2 ≠ 0)
        | copyFinish _ => exact written
        | mendFinish _ _ => exact written
        | mendMarker _ => exact written
        | finish _ => exact written
        | pointers _ _ =>
            obtain ⟨j, -, same⟩ := written
            contradiction
        | fill => exact other rfl
        | check => exact unchecked isDone
        | read =>
            obtain ⟨j, -, same⟩ := written
            contradiction
  intro i iLt
  exact (one _ ⟨i, iLt, rfl⟩).trans (if_pos iLt)

/-! ## What a run leaves -/

theorem copyCell_mem {index k : Nat} (indexLt : index < C.copied) (kLt : k < 8192) :
    .device (C.copyCell index k) ∈ C.cells := by
  have total := indexLt.trans_le copied_le_totalBuffs
  rw [totalBuffs_eq] at total
  rw [copyCell]
  split_ifs with isBuffer
  · exact Or.inl rfl
  · exact Or.inr (Or.inl ⟨_, by omega, rfl⟩)

theorem cell_mem {index k : Nat} {o : CheckedObject} (isObject : C.inp.objects[index]? = some o)
    (kLt : k < 8192) : .device (o.cell k) ∈ C.cells :=
  Or.inr (Or.inr ⟨o, List.mem_of_getElem? isObject, k, kLt, rfl⟩)

theorem reads_subset {c : Command CheckTag CheckMemory} (issued : C.Issued c) :
    C.reads c.tag ⊆ C.cells := by
  intro a mem
  cases issued with
  | copy indexLt regionLt =>
      rw [copyOf_tag] at mem
      obtain ⟨o, isObject, k, kLt, -, rfl⟩ := mem_canaryCells_device mem regionLt
      exact cell_mem isObject kLt
  | check =>
      rcases mem with (⟨index, indexLt, k, kLt, rfl⟩ | ⟨i, rfl⟩) | ⟨j, rfl⟩
      · by_cases isCopy : index < C.copied
        · rw [examinedCell, if_pos isCopy]
          exact copyCell_mem isCopy kLt
        · obtain ⟨pointers, isSvm⟩ := not_copied isCopy indexLt
          have isObject : C.inp.objects[index]? = some C.inp.objects[index] :=
            List.getElem?_eq_getElem indexLt
          rw [examinedCell_pointer pointers isSvm isObject]
          exact cell_mem isObject kLt
      · trivial
      · trivial
  | read =>
      obtain ⟨i, -, rfl⟩ := mem
      trivial
  | _ => exact absurd mem (Set.notMem_empty _)

/-- The commands of a check leave data alone. -/
theorem writes_subset {c : Command CheckTag CheckMemory} (issued : C.Issued c) :
    C.writes c.tag ⊆ C.cells := by
  intro a mem
  cases issued with
  | copy indexLt regionLt =>
      rw [copyOf_tag] at mem
      obtain ⟨k, inside, rfl⟩ := mem
      exact copyCell_mem indexLt (by omega)
  | mend _ _ regionLt =>
      obtain ⟨o, isObject, k, kLt, -, rfl⟩ := mem_canaryCells_device mem (by omega)
      exact cell_mem isObject kLt
  | check =>
      rcases mem with ⟨i, rfl⟩ | ⟨-, -, mem⟩
      · trivial
      · exact reads_subset .check (Or.inl (Or.inl mem))
  | pointers _ _ =>
      obtain ⟨j, -, rfl⟩ := mem
      trivial
  | fill =>
      obtain ⟨i, -, rfl⟩ := mem
      trivial
  | read =>
      obtain ⟨i, -, rfl⟩ := mem
      trivial
  | copyFinish _ => exact absurd mem (Set.notMem_empty _)
  | mendFinish _ _ => exact absurd mem (Set.notMem_empty _)
  | mendMarker _ => exact absurd mem (Set.notMem_empty _)
  | finish _ => exact absurd mem (Set.notMem_empty _)

/-- A command that is not in the order writes nothing. -/
theorem mem_order_of_issued {c : Command CheckTag CheckMemory} (issued : C.Issued c) :
    c ∈ C.fillCommand :: C.afterFill ∨ C.writes c.tag = ∅ := by
  have inTail : ∀ {c}, c ∈ C.copyList ∨ c ∈ C.pointerList ∨ c ∈ C.mendList ∨
      c = C.checkCommand ∨ c = C.readCommand →
      c ∈ C.fillCommand :: C.afterFill ∨ C.writes c.tag = ∅ :=
    fun mem => Or.inl (List.mem_cons_of_mem _ (mem_afterFill_iff.mpr mem))
  cases issued with
  | copy indexLt regionLt =>
      exact inTail (Or.inl (mem_copyList_iff.mpr ⟨_, indexLt, _, regionLt, rfl⟩))
  | mend mends indexLt regionLt =>
      exact inTail (Or.inr (Or.inr (Or.inl
        (mem_mendList_iff.mpr ⟨mends, _, indexLt, _, regionLt, rfl⟩))))
  | pointers isPointers some' =>
      exact inTail (Or.inr (Or.inl (mem_pointerList_iff.mpr ⟨⟨isPointers, some'⟩, rfl⟩)))
  | check => exact inTail (Or.inr (Or.inr (Or.inr (Or.inl rfl))))
  | read => exact inTail (Or.inr (Or.inr (Or.inr (Or.inr rfl))))
  | fill => exact Or.inl List.mem_cons_self
  | _ => exact Or.inr rfl

/-- The check is a protocol behind the pending commands. -/
theorem protocol (undisturbed : C.Undisturbed) (any : C.totalBuffs ≠ 0) :
    Protocol C.inOrder C.pending C.verifyOps (AgreeOn C.cells) C.evt C.fillCommand C.afterFill := by
  have known : ∀ c ∈ C.fillCommand :: C.afterFill, C.Issued c := by
    intro c mem
    rcases List.mem_cons.mp mem with rfl | mem
    · exact .fill
    · exact issued_of_afterFill mem
  constructor
  case distinct => exact distinct_script
  case once => exact nodup_afterFill
  case enqueued =>
    intro c mem
    rw [enqueues_verifyOps any]
    exact mem_commands_iff.mpr (known c mem)
  case behind => exact fun c mem => after_evt any mem
  case unaware =>
    intro c mem notEvt notNeeded memory
    obtain ⟨device, others⟩ := undisturbed.unaware c mem memory
    rintro (a | j | i | i) inside
    · rcases inside with scratch | shared | ⟨o, oMem, k, kLt, rfl⟩
      · exact device a (Or.inl scratch)
      · exact device a (Or.inr shared)
      · exact undisturbed.alone c mem notEvt notNeeded memory o oMem k kLt
    · exact (others j).1
    · exact (others i).2.1
    · exact (others i).2.2
  case hidden =>
    intro c mem other memory
    rw [enqueues_verifyOps any] at mem
    have issued := mem_commands_iff.mp mem
    refine (issued.footprint undisturbed).hidden ?_ memory
    rw [(mem_order_of_issued issued).resolve_left other]
    exact Set.disjoint_empty _
  case respects =>
    intro c mem memory memory' same
    exact ((known c mem).footprint undisturbed).respects (reads_subset (known c mem)) same
  case ordered => exact pairwise_before undisturbed any

/-- After the kernel a run does what the commands do one after the other. -/
theorem serial_afterFill (undisturbed : C.Undisturbed) (any : C.totalBuffs ≠ 0)
    {memory : CheckMemory} {s s' m : Machine CheckTag CheckMemory}
    (runs : Runs C.inOrder (begin memory C.pending C.verifyOps) s)
    (executed : step C.inOrder s (.execute C.evt) = some s') (runs' : Runs C.inOrder s' m)
    (done : .read ∈ m.done) : AgreeOn C.cells m.memory (inTurn Command.body
      (if .fill ∈ s'.done then C.afterFill else C.fillCommand :: C.afterFill) s'.memory) := by
  refine (protocol undisturbed any).serial (agreeOn_equivalence _) runs executed runs' done ?_
  exact fun c mem => (read_after any mem).imp (congrArg Command.tag) id

end CopyCheck

end Clarmor
