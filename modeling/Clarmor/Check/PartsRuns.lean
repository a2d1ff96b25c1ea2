import Clarmor.Check.Agreement
import Clarmor.Check.CopyFootprints
import Clarmor.Check.PartsProtocol

/-!
# Runs of the check of single buffers

A launch looks at one region, repairs it and changes one result.  Launches for different
regions can change places, and all others are ordered by their events.  So a run leaves
for a kind of object what its commands leave one after the other.
-/

namespace Clarmor

open Word Store Reduce Items Queues

namespace PartsCheck

variable {C : PartsCheck} {isSvm : Bool} {index : Nat} {o : CheckedObject}

/-! ## A launch -/

theorem objects_few (few : Few C.inp) (isSvm : Bool) : C.numBuff isSvm < 524288 := by
  cases isSvm with
  | false => exact few.buffers
  | true => exact few.svms

theorem mem_objects (mem : o ∈ C.objects isSvm) : o ∈ C.inp.objects := by
  cases isSvm with
  | false => exact List.mem_append_left _ mem
  | true => exact List.mem_append_right _ mem

theorem aligned (undisturbed : C.Undisturbed) (mem : o ∈ C.objects isSvm) : o.base % 4 = 0 := by
  cases isSvm with
  | false => exact C.inp.aligned o mem
  | true => exact undisturbed.words o mem

/-- What an item of the launch for a region finds. -/
def wordResult (o : CheckedObject) (region : Nat) (m : DeviceMemory) (t : Nat) : Nat :=
  firstByte (4 * t) fun q => m (o.cell (4096 * region + (4 * t + q))) ≠ POISON_FILL

/-- The launch for a region. -/
def launchOf (isSvm : Bool) (index : Nat) (o : CheckedObject) : PartsLaunch :=
  ⟨isSvm, index, o, if index % 2 = 0 then 0 else canaryOffset o.size⟩

theorem isLaunch (few : Few C.inp) (isObject : (C.objects isSvm)[index / 2]? = some o) :
    (partsLaunches isSvm (C.objects isSvm))[index]? = some (launchOf isSvm index o) := by
  have bound := objects_few few isSvm
  obtain ⟨inside, -⟩ := List.getElem?_eq_some_iff.mp isObject
  have inside' : index / 2 < C.numBuff isSvm := inside
  have launches := @partsLaunches_getElem? (C.objects isSvm) isSvm (index / 2) (index % 2)
    (Nat.mod_lt index (by decide))
  rw [Nat.div_add_mod, isObject, Option.map_some, u32_of_lt (by omega)] at launches
  exact launches

theorem partsItem_launchOf {t : Nat} (tLt : t < 1024) : partsItem [launchOf isSvm index o] t =
    locateDiffParts poisonFill_32b (if index % 2 = 0 then 0 else canaryOffset o.size) o.store
      o.base t := by
  funext m
  rw [partsItem, poisonWordLen, Nat.div_eq_of_lt tLt, Nat.mod_eq_of_lt tLt]
  rfl

/-- A word of a region. -/
theorem word_place {t q : Nat} (tLt : t < 1024) (qLt : q < 4) :
    o.cell (4096 * (index % 2) + (4 * t + q)) =
      (o.store, o.base + (if index % 2 = 0 then 0 else canaryOffset o.size) + 4 * t + q) := by
  rw [CopyCheck.cell_of_region (Nat.mod_lt index (by decide))
    (show (4096 * (index % 2) + (4 * t + q)) / 4096 = index % 2 by omega), Nat.add_sub_cancel_left]
  congr 1
  omega

theorem partsItem_word (undisturbed : C.Undisturbed) (mem : o ∈ C.objects isSvm) {t : Nat}
    (tLt : t < 1024) : Finds (partsItem [launchOf isSvm index o] t) o.store
      (o.base + (if index % 2 = 0 then 0 else canaryOffset o.size) + 4 * t) (4 * t) := by
  rw [partsItem_launchOf tLt]
  exact locateDiffParts_finds (fun _ => aligned undisturbed mem) (by simp only [INT_MAX]; omega)

theorem partsGrid_one (size : Nat) (l : PartsLaunch) :
    (partsGrid size [l]).total = 1024 ∧
      ∀ t < 1024, (partsGrid size [l]).cell t = (l.isSvm, l.buffID) := by
  refine ⟨rfl, fun t tLt => ?_⟩
  change (([l][t / 1024]?).map fun l => (l.isSvm, l.buffID)).getD (false, 0) = _
  rw [Nat.div_eq_of_lt tLt]
  rfl

theorem partsGrid_one_uniform {size : Nat} (divides : size ∣ 1024) (l : PartsLaunch) :
    (partsGrid size [l]).Uniform := by
  constructor
  · rw [(partsGrid_one size l).1]
    exact divides
  · intro t u group
    have launch : t / poisonWordLen = u / poisonWordLen := div_eq_of_group divides group
    have inside : ∀ t, t % poisonWordLen < poisonWordLen := fun t => Nat.mod_lt t (by decide)
    constructor
    · exact decide_eq_decide.mpr (iff_of_true (inside t) (inside u))
    · simp only [partsGrid, launch]

/-- What a launch leaves. -/
structure PartsEffect (C : PartsCheck) (isSvm : Bool) (index : Nat) (o : CheckedObject)
    (m m' : PartsMemory) : Prop where
  result : ∀ c, m' (.result c) = runAtomics (atomicsOf (partsGrid C.size [launchOf isSvm index o])
    (C.schedule (isSvm, index)) INT_MAX (wordResult o (index % 2) m.onDevice))
      (fun c => m (.result c)) c
  mended : ∀ k, k / 4096 = index % 2 → m' (.device (o.cell k)) = POISON_FILL
  kept : ∀ a, (∀ k, k / 4096 = index % 2 → a ≠ o.cell k) → m' (.device a) = m (.device a)
  firstChange : ∀ c, m' (.firstChange c) = m (.firstChange c)

/-- The bytes of a word lie in the region. -/
theorem inWord_iff_cell {t : Nat} {a : Nat × Nat} (tLt : t < 1024) : InWord
    (o.store, o.base + (if index % 2 = 0 then 0 else canaryOffset o.size) + 4 * t) a ↔
      ∃ q < 4, a = o.cell (4096 * (index % 2) + (4 * t + q)) := by
  constructor
  · rintro ⟨store, lower, upper⟩
    dsimp only at store lower upper
    refine ⟨a.2 - (o.base + (if index % 2 = 0 then 0 else canaryOffset o.size) + 4 * t),
      by omega, ?_⟩
    rw [word_place tLt (by omega), Nat.add_sub_cancel' lower, ← store]
  · rintro ⟨q, qLt, rfl⟩
    rw [word_place tLt qLt]
    exact ⟨rfl, Nat.le_add_right _ _, Nat.add_lt_add_left qLt _⟩

theorem partsCommand_effect (undisturbed : C.Undisturbed)
    (isObject : (C.objects isSvm)[index / 2]? = some o) (m : PartsMemory) :
    C.PartsEffect isSvm index o m ((C.partsCommand isSvm index).body m) := by
  have mem := List.mem_of_getElem? isObject
  set l := launchOf isSvm index o with isL
  set s := C.schedule (isSvm, index) with isS
  set place := o.base + (if index % 2 = 0 then 0 else canaryOffset o.size) with isPlace
  have body : (C.partsCommand isSvm index).body m = partsKernel C.size s l m := by
    dsimp only [partsCommand]
    rw [isLaunch undisturbed.few isObject, Option.elim_some]
  have total := (partsGrid_one C.size l).1
  have below : ∀ t ∈ s.items (List.range (partsGrid C.size [l]).total), t < 1024 := fun t tMem =>
    List.mem_range.mp ((s.items_perm _).mem_iff.mp tMem)
  have finds : ∀ t < 1024, Finds (partsItem [l] t) o.store (place + 4 * t) (4 * t) := fun t tLt =>
    partsItem_word undisturbed mem tLt
  obtain ⟨after, ran⟩ := @run_of_disjoint _ _ _ _ (partsItem [l])
    (fun t => InWord (o.store, place + 4 * t))
    (s.items (List.range (partsGrid C.size [l]).total)) (wordResult o (index % 2) m.onDevice)
    m.onDevice (fun t tMem => (finds t (below t tMem)).isLocal)
    (fun t _ u _ differ a inside inside' => by
      obtain ⟨-, lower, upper⟩ := inside
      obtain ⟨-, lower', upper'⟩ := inside'
      dsimp only at lower upper lower' upper'
      omega)
    ((s.items_perm _).nodup_iff.mpr List.nodup_range)
    (fun t tMem => by
      rw [finds t (below t tMem), wordResult]
      refine ⟨_, congrArg some (Prod.ext (firstByte_congr fun q qLt => ?_) rfl)⟩
      rw [word_place (below t tMem) qLt])
  have launched := @launchFrom_of_run _ _ _ _ _ _ (partsGrid C.size [l]) s INT_MAX _ _ _ _
    (fun c => m (.result c)) ran
  have writes : ∀ t ∈ s.items (List.range (partsGrid C.size [l]).total), ∀ m r m',
      partsItem [l] t m = some (r, m') →
        (∀ a, InWord (o.store, place + 4 * t) a → m' a = POISON_FILL) ∧
          ∀ a, ¬ InWord (o.store, place + 4 * t) a → m' a = m a := by
    intro t tMem m r m' one
    rw [finds t (below t tMem)] at one
    obtain ⟨-, rfl⟩ := Prod.mk.inj (Option.some.inj one)
    exact ⟨fun a inside => if_pos inside, fun a outside => if_neg outside⟩
  have memory := run_writes writes ran
  rw [body, partsKernel, launched]
  refine ⟨fun c => rfl, fun k inside => ?_, fun a outside => ?_, fun c => rfl⟩
  · have tLt : k % 4096 / 4 < 1024 := by omega
    refine (memory (o.cell k)).1 ⟨k % 4096 / 4, ?_, ?_⟩
    · refine (s.items_perm _).mem_iff.mpr (List.mem_range.mpr ?_)
      rw [total]
      exact tLt
    · refine (inWord_iff_cell tLt).mpr ⟨k % 4, Nat.mod_lt k (by decide), ?_⟩
      congr 1
      omega
  · refine (memory a).2 fun t tMem inside => ?_
    obtain ⟨q, qLt, rfl⟩ := (inWord_iff_cell (below t tMem)).mp inside
    have tLt := below t tMem
    exact outside _ (by omega) rfl

/-- Only the result of the launch changes. -/
theorem PartsEffect.other {m m' : PartsMemory} (effect : C.PartsEffect isSvm index o m m')
    {c : Bool × Nat} (other : c ≠ (isSvm, index)) : m' (.result c) = m (.result c) := by
  rw [effect.result, runAtomics_atomicsOf_of_ne]
  intro t tLt
  rw [(partsGrid_one C.size _).2 t tLt]
  exact other.symm

/-- It becomes the first change in the region. -/
theorem PartsEffect.found {m m' : PartsMemory} (divides : C.size ∣ 1024)
    (effect : C.PartsEffect isSvm index o m m') (unfilled : m (.result (isSvm, index)) = INT_MAX) :
    m' (.result (isSvm, index)) =
      Clarmor.firstChange 4096 fun k => m.onDevice (o.cell (4096 * (index % 2) + k)) := by
  have gathers := @gathers_atomicsOf _ _ _ _ (partsGrid C.size [launchOf isSvm index o])
    (C.schedule (isSvm, index)) INT_MAX (wordResult o (index % 2) m.onDevice)
    (partsGrid_one_uniform divides _)
  have least := @eq_firstChange_of_gathers _ _ _ _ _ (isSvm, index) 1024 0
    (fun k => m.onDevice (o.cell (4096 * (index % 2) + k))) gathers (by decide) (fun t => by
      rw [(partsGrid_one C.size _).1]
      constructor
      · rintro ⟨tLt, -⟩
        exact ⟨t, tLt, by omega⟩
      · rintro ⟨w, wLt, rfl⟩
        rw [Nat.mul_zero, Nat.zero_add]
        exact ⟨wLt, decide_eq_true (Nat.mod_lt w (by decide)), (partsGrid_one C.size _).2 w wLt⟩)
    (fun w _ => by
      rw [Nat.mul_zero, Nat.zero_add]
      rfl)
  rw [effect.result, ← least]
  exact runAtomics_congr unfilled

/-! ## Footprints -/

theorem canaryCells_eq (isObject : (C.objects isSvm)[index / 2]? = some o) :
    C.canaryCells isSvm index = {c | ∃ k, k / 4096 = index % 2 ∧ c = .device (o.cell k)} := by
  ext c
  constructor
  · rintro ⟨o', isObject', inside⟩
    obtain rfl := Option.some.inj (isObject.symm.trans isObject')
    exact inside
  · exact fun inside => ⟨o, isObject, inside⟩

theorem isObject_of_index (indexLt : index < 2 * C.numBuff isSvm) :
    ∃ o, (C.objects isSvm)[index / 2]? = some o := by
  have inside : index / 2 < (C.objects isSvm).length := by
    change index / 2 < C.numBuff isSvm
    omega
  exact ⟨_, List.getElem?_eq_getElem inside⟩

theorem parts_footprint (undisturbed : C.Undisturbed) (indexLt : index < 2 * C.numBuff isSvm) :
    Footprint (C.partsCommand isSvm index).body (C.reads (.parts (isSvm, index)))
      (C.writes (.parts (isSvm, index))) := by
  obtain ⟨o, isObject⟩ := isObject_of_index indexLt
  have effect := fun m => partsCommand_effect undisturbed isObject m
  rw [reads, writes, canaryCells_eq isObject]
  constructor
  · intro m c outside
    rw [Set.mem_union, not_or] at outside
    cases c with
    | device a =>
        refine (effect m).kept a fun k inside same => outside.1 ⟨k, inside, congrArg _ same⟩
    | result c => exact (effect m).other fun same => outside.2 (congrArg _ same)
    | firstChange c => exact (effect m).firstChange c
  · intro m m' same c written
    rcases written with ⟨k, inside, rfl⟩ | isResult
    · rw [(effect m).mended k inside, (effect m').mended k inside]
    · rw [Set.mem_singleton_iff.mp isResult, (effect m).result, (effect m').result]
      have items : ∀ t < (partsGrid C.size [launchOf isSvm index o]).total,
          wordResult o (index % 2) (PartsMemory.onDevice m) t =
            wordResult o (index % 2) (PartsMemory.onDevice m') t := by
        intro t tLt
        have tLt' : t < 1024 := tLt
        refine firstByte_congr fun q qLt => ?_
        have agree : PartsMemory.onDevice m (o.cell (4096 * (index % 2) + (4 * t + q))) =
            PartsMemory.onDevice m' (o.cell (4096 * (index % 2) + (4 * t + q))) :=
          same _ (Or.inl ⟨_, by omega, rfl⟩)
        rw [agree]
      rw [atomicsOf_congr items]
      exact runAtomics_congr (same _ (Or.inr rfl))

theorem Issued.footprint (undisturbed : C.Undisturbed) {c : Command PartsTag PartsMemory}
    (issued : C.Issued c) : Footprint c.body (C.reads c.tag) (C.writes c.tag) := by
  cases issued with
  | parts indexLt => exact parts_footprint undisturbed indexLt
  | finish => exact ⟨fun _ _ _ => rfl, fun _ _ _ _ mem => absurd mem (Set.notMem_empty _)⟩
  | @fill isSvm _ =>
      constructor
      · intro m c outside
        cases c with
        | result c =>
            refine if_neg fun both => outside ⟨c.2, both.2, ?_⟩
            rw [← both.1]
        | _ => rfl
      · rintro m m' - c ⟨i, iLt, rfl⟩
        exact (if_pos ⟨rfl, iLt⟩).trans (if_pos ⟨rfl, iLt⟩).symm
  | @read isSvm _ =>
      constructor
      · intro m c outside
        cases c with
        | firstChange c =>
            refine if_neg fun both => outside ⟨c.2, both.2, ?_⟩
            rw [← both.1]
        | _ => rfl
      · rintro m m' same c ⟨i, iLt, rfl⟩
        refine (if_pos ⟨rfl, iLt⟩).trans (Eq.trans ?_ (if_pos ⟨rfl, iLt⟩).symm)
        exact same _ ⟨i, iLt, rfl⟩
  | @format isSvm _ =>
      constructor
      · intro m c outside
        cases c with
        | firstChange c =>
            refine if_neg fun isKind => outside ⟨c.2, ?_⟩
            rw [← isKind]
        | _ => rfl
      · rintro m m' same c ⟨i, rfl⟩
        refine (if_pos rfl).trans (Eq.trans ?_ (if_pos rfl).symm)
        have agree : (fun i => m (.firstChange (isSvm, i))) =
            fun i => m' (.firstChange (isSvm, i)) := funext fun i => same _ ⟨i, rfl⟩
        rw [agree]

/-! ## Commands that touch the same cells -/

/-- The place of an object among all objects. -/
theorem object_place {i : Nat} (isObject : (C.objects isSvm)[i]? = some o) :
    C.inp.objects[(if isSvm then C.inp.buffers.length else 0) + i]? = some o := by
  cases isSvm with
  | false =>
      have isBuffer : C.inp.buffers[i]? = some o := isObject
      obtain ⟨iLt, -⟩ := List.getElem?_eq_some_iff.mp isBuffer
      rw [if_neg Bool.false_ne_true, Nat.zero_add, CheckInput.objects,
        List.getElem?_append_left iLt]
      exact isBuffer
  | true =>
      rw [if_pos rfl, CheckInput.objects, List.getElem?_append_right (Nat.le_add_right _ _),
        Nat.add_sub_cancel_left]
      exact isObject

theorem disjoint_canaries (undisturbed : C.Undisturbed) {isSvm' : Bool} {j : Nat}
    (differ : (isSvm, index) ≠ (isSvm', j)) :
    Disjoint (C.canaryCells isSvm index) (C.canaryCells isSvm' j) := by
  rw [Set.disjoint_left]
  rintro c ⟨o, isObject, k, inside, rfl⟩ ⟨o', isObject', k', inside', same⟩
  obtain ⟨sameObject, sameByte⟩ := cell_inj undisturbed.between (object_place isObject)
    (object_place isObject') (show k < 8192 by omega) (show k' < 8192 by omega)
    (PartsCell.device.inj same)
  obtain ⟨inBuffers, -⟩ := List.getElem?_eq_some_iff.mp isObject
  obtain ⟨inBuffers', -⟩ := List.getElem?_eq_some_iff.mp isObject'
  refine differ (Prod.ext ?_ ?_)
  · cases isSvm <;> cases isSvm' <;> simp [objects] at sameObject inBuffers inBuffers' ⊢ <;> omega
  · dsimp only
    cases isSvm <;> cases isSvm' <;> simp [objects] at sameObject inBuffers inBuffers' <;> omega

theorem writes_subset {t : PartsTag} (isKind : kindOf t = some isSvm) :
    C.writes t ⊆ C.cells isSvm := by
  intro c mem
  cases t with
  | fill _ =>
      obtain ⟨i, -, rfl⟩ := mem
      exact Option.some.inj isKind
  | parts e =>
      rcases mem with ⟨o, isObject, k, inside, rfl⟩ | rfl
      · rw [← Option.some.inj isKind]
        exact ⟨o, List.mem_of_getElem? isObject, k, by
          simp only [POISON_REGIONS, POISON_FILL_LENGTH]; omega, rfl⟩
      · exact Option.some.inj isKind
  | read _ =>
      obtain ⟨i, -, rfl⟩ := mem
      exact Option.some.inj isKind
  | format _ =>
      obtain ⟨i, rfl⟩ := mem
      exact Option.some.inj isKind
  | _ => contradiction

theorem reads_subset {t : PartsTag} (isKind : kindOf t = some isSvm) :
    C.reads t ⊆ C.cells isSvm := by
  intro c mem
  cases t with
  | parts e => exact writes_subset isKind mem
  | read _ =>
      obtain ⟨i, -, rfl⟩ := mem
      exact Option.some.inj isKind
  | format _ => exact writes_subset isKind mem
  | _ => exact absurd mem (Set.notMem_empty _)

/-- What is looked at for one kind of object is not looked at for the other one. -/
theorem disjoint_cells (undisturbed : C.Undisturbed) {isSvm' : Bool} (differ : isSvm ≠ isSvm') :
    Disjoint (C.cells isSvm) (C.cells isSvm') := by
  rw [Set.disjoint_left]
  intro c mem mem'
  cases c with
  | device a =>
      obtain ⟨o, oMem, k, kLt, rfl⟩ := mem
      obtain ⟨o', oMem', k', kLt', same⟩ := mem'
      obtain ⟨i, isObject⟩ := List.getElem?_of_mem oMem
      obtain ⟨j, isObject'⟩ := List.getElem?_of_mem oMem'
      simp only [POISON_REGIONS, POISON_FILL_LENGTH] at kLt kLt'
      have apart : Disjoint (C.canaryCells isSvm (2 * i + k / 4096))
          (C.canaryCells isSvm' (2 * j + k' / 4096)) :=
        disjoint_canaries undisturbed fun both => differ (Prod.mk.inj both).1
      have inside : .device (o.cell k) ∈ C.canaryCells isSvm (2 * i + k / 4096) := by
        refine ⟨o, ?_, k, by omega, rfl⟩
        rw [show (2 * i + k / 4096) / 2 = i by omega]
        exact isObject
      have inside' : .device (o.cell k) ∈ C.canaryCells isSvm' (2 * j + k' / 4096) := by
        refine ⟨o', ?_, k', by omega, congrArg _ same⟩
        rw [show (2 * j + k' / 4096) / 2 = j by omega]
        exact isObject'
      exact Set.disjoint_left.mp apart inside inside'
  | result c => exact differ (Eq.trans (Eq.symm mem) mem')
  | firstChange c => exact differ (Eq.trans (Eq.symm mem) mem')

/-! ## One order for all runs -/

/-- The commands for a kind of object, after the fill. -/
def afterFill (C : PartsCheck) (isSvm : Bool) : List (Command PartsTag PartsMemory) :=
  C.performClBufferChecks isSvm ++ [C.readCommand isSvm, C.formatCommand isSvm]

abbrev After (C : PartsCheck) (t needed : PartsTag) : Prop :=
  Relation.TransGen (Needs C.inOrder C.script) t needed

variable {c d : Command PartsTag PartsMemory}

theorem mem_afterFill_iff : c ∈ C.afterFill isSvm ↔
    (∃ index < 2 * C.numBuff isSvm, c = C.partsCommand isSvm index) ∨
      c = C.readCommand isSvm ∨ c = C.formatCommand isSvm := by
  rw [afterFill, List.mem_append, mem_performClBufferChecks_iff]
  simp

theorem commands_eq (some' : C.numBuff isSvm ≠ 0) :
    C.commands isSvm = C.fillCommand isSvm :: C.afterFill isSvm :=
  if_neg some'

theorem issued_of_mem (some' : C.numBuff isSvm ≠ 0)
    (mem : c ∈ C.fillCommand isSvm :: C.afterFill isSvm) : C.Issued c := by
  rcases List.mem_cons.mp mem with rfl | mem
  · exact .fill some'
  · rcases mem_afterFill_iff.mp mem with ⟨index, indexLt, rfl⟩ | rfl | rfl
    · exact .parts indexLt
    · exact .read some'
    · exact .format some'

theorem kindOf_of_mem_afterFill (mem : c ∈ C.fillCommand isSvm :: C.afterFill isSvm) :
    kindOf c.tag = some isSvm := by
  rcases List.mem_cons.mp mem with rfl | mem
  · rfl
  · rcases mem_afterFill_iff.mp mem with ⟨index, -, rfl⟩ | rfl | rfl <;> rfl

theorem nodup_afterFill (some' : C.numBuff isSvm ≠ 0) :
    (C.fillCommand isSvm :: C.afterFill isSvm).Nodup := by
  rw [← commands_eq some']
  exact .of_map _ (nodup_commands isSvm)

theorem needs_of_wait {t : PartsTag} (issued : C.Issued d) (wait : t ∈ d.waits) :
    Needs C.inOrder C.script d.tag t :=
  ⟨d, List.mem_append_right _ (mem_enqueues_iff.mpr issued), rfl, Or.inl wait⟩

/-- A launch waits for the fill and for the kernel of the application. -/
theorem after_parts (indexLt : index < 2 * C.numBuff isSvm) :
    C.After (.parts (isSvm, index)) (.fill isSvm) ∧ C.After (.parts (isSvm, index)) C.evt :=
  ⟨.single (needs_of_wait (.parts indexLt) List.mem_cons_self),
    .single (needs_of_wait (.parts indexLt) (List.mem_cons_of_mem _ (List.mem_singleton_self _)))⟩

/-- The read waits for all launches. -/
theorem after_read (indexLt : index < 2 * C.numBuff isSvm) :
    C.After (.read isSvm) (.parts (isSvm, index)) := by
  refine .single (needs_of_wait (.read (by omega)) ?_)
  change _ ∈ C.checkEvents isSvm
  rw [checkEvents_eq]
  exact List.mem_map_of_mem (List.mem_range.mpr indexLt)

/-- The callback waits for the read. -/
theorem after_format (some' : C.numBuff isSvm ≠ 0) : C.After (.format isSvm) (.read isSvm) :=
  .single (needs_of_wait (.format some') (List.mem_singleton_self _))

theorem after_evt (some' : C.numBuff isSvm ≠ 0) (mem : c ∈ C.afterFill isSvm) :
    C.After c.tag C.evt := by
  have one : 0 < 2 * C.numBuff isSvm := by omega
  have read := (after_read one).trans (after_parts one).2
  rcases mem_afterFill_iff.mp mem with ⟨index, indexLt, rfl⟩ | rfl | rfl
  · exact (after_parts indexLt).2
  · exact read
  · exact (after_format some').trans read

theorem read_after (some' : C.numBuff isSvm ≠ 0) : C.After (.read isSvm) (.fill isSvm) := by
  have one : 0 < 2 * C.numBuff isSvm := by omega
  exact (after_read one).trans (after_parts one).1

/-- The callback comes last. -/
theorem format_after (some' : C.numBuff isSvm ≠ 0)
    (mem : c ∈ C.fillCommand isSvm :: C.afterFill isSvm) :
    c = C.formatCommand isSvm ∨ C.After (.format isSvm) c.tag := by
  rcases List.mem_cons.mp mem with rfl | mem
  · exact Or.inr ((after_format some').trans (read_after some'))
  · rcases mem_afterFill_iff.mp mem with ⟨index, indexLt, rfl⟩ | rfl | rfl
    · exact Or.inr ((after_format some').trans (after_read indexLt))
    · exact Or.inr (after_format some')
    · exact Or.inl rfl

/-- Launches for different regions write to different cells. -/
theorem writes_apart (undisturbed : C.Undisturbed) {j : Nat}
    (differ : (isSvm, index) ≠ (isSvm, j)) :
    Disjoint (C.writes (.parts (isSvm, index))) (C.writes (.parts (isSvm, j))) := by
  refine Set.disjoint_union_left.mpr ⟨Set.disjoint_union_right.mpr
    ⟨disjoint_canaries undisturbed differ, ?_⟩, Set.disjoint_union_right.mpr ⟨?_, ?_⟩⟩
  · rw [Set.disjoint_singleton_right]
    rintro ⟨o, -, k, -, isResult⟩
    contradiction
  · rw [Set.disjoint_singleton_left]
    rintro ⟨o, -, k, -, isResult⟩
    contradiction
  · rw [Set.disjoint_singleton]
    exact fun both => differ (PartsCell.result.inj both)

theorem parts_commute (undisturbed : C.Undisturbed) {j : Nat}
    (indexLt : index < 2 * C.numBuff isSvm) (jLt : j < 2 * C.numBuff isSvm) :
    Commute Command.body (AgreeOn (C.cells isSvm)) (C.partsCommand isSvm index)
      (C.partsCommand isSvm j) := by
  intro m
  by_cases same : index = j
  · rw [same]
    exact (agreeOn_equivalence _).refl _
  · have apart := writes_apart undisturbed fun both : (isSvm, index) = (isSvm, j) =>
      same (Prod.mk.inj both).2
    rw [(parts_footprint undisturbed indexLt).commute (parts_footprint undisturbed jLt) apart apart
      apart.symm]
    exact (agreeOn_equivalence _).refl _

/-- Every command comes before those that it interferes with. -/
theorem pairwise_before (undisturbed : C.Undisturbed) (some' : C.numBuff isSvm ≠ 0) :
    (C.fillCommand isSvm :: C.afterFill isSvm).Pairwise fun c d =>
      Commute Command.body (AgreeOn (C.cells isSvm)) c d ∨ C.After d.tag c.tag := by
  refine List.pairwise_cons.mpr ⟨fun d mem => Or.inr ?_, List.pairwise_append.mpr ⟨?_, ?_, ?_⟩⟩
  · rcases mem_afterFill_iff.mp mem with ⟨index, indexLt, rfl⟩ | rfl | rfl
    · exact (after_parts indexLt).1
    · exact read_after some'
    · exact (after_format some').trans (read_after some')
  · refine List.pairwise_of_forall_mem_list fun c mem d mem' => Or.inl ?_
    obtain ⟨index, indexLt, rfl⟩ := mem_performClBufferChecks_iff.mp mem
    obtain ⟨j, jLt, rfl⟩ := mem_performClBufferChecks_iff.mp mem'
    exact parts_commute undisturbed indexLt jLt
  · exact List.pairwise_pair.mpr (Or.inr (after_format some'))
  · intro c mem d mem'
    obtain ⟨index, indexLt, rfl⟩ := mem_performClBufferChecks_iff.mp mem
    rcases List.mem_cons.mp mem' with rfl | mem'
    · exact Or.inr (after_read indexLt)
    · rw [List.mem_singleton.mp mem']
      exact Or.inr ((after_format some').trans (after_read indexLt))

/-! ## What a run leaves -/

/-- The results that were filled stay so until the kernel of the application is done. -/
theorem filled (undisturbed : C.Undisturbed) (some' : C.numBuff isSvm ≠ 0) {memory : PartsMemory}
    {m : Machine PartsTag PartsMemory}
    (runs : Runs C.inOrder (begin memory C.pending C.verifyOnGpu) m) (done : .fill isSvm ∈ m.done)
    (unchecked : ∀ index < 2 * C.numBuff isSvm, .parts (isSvm, index) ∉ m.done) :
    ∀ i < 2 * C.numBuff isSvm, m.memory (.result (isSvm, i)) = INT_MAX := by
  have one : AgreeOn {c | ∃ i < 2 * C.numBuff isSvm, c = .result (isSvm, i)} m.memory
      ((C.fillCommand isSvm).body memory) := by
    refine runs.settled (agreeOn_equivalence _) distinct_script
      (List.mem_append_right _ (mem_enqueues_iff.mpr (.fill some'))) done ?_ ?_
    · rintro memory' memory'' - c' ⟨i, iLt, rfl⟩
      exact (if_pos ⟨rfl, iLt⟩).trans (if_pos ⟨rfl, iLt⟩).symm
    · intro c mem other isDone memory'
      rcases List.mem_append.mp mem with mem | mem
      · rintro c' ⟨i, -, rfl⟩
        exact (undisturbed.unaware c mem memory' (isSvm, i)).1
      · have issued := mem_enqueues_iff.mp mem
        refine (issued.footprint undisturbed).hidden (Set.disjoint_left.mpr ?_) memory'
        rintro c' ⟨i, iLt, rfl⟩ written
        cases issued with
        | fill _ =>
            obtain ⟨j, -, same⟩ := written
            rw [(Prod.mk.inj (PartsCell.result.inj same)).1] at other
            exact other rfl
        | parts indexLt =>
            rcases written with ⟨o, -, k, -, same⟩ | same
            · contradiction
            · obtain ⟨rfl, rfl⟩ := Prod.mk.inj (PartsCell.result.inj same)
              exact unchecked _ indexLt isDone
        | read _ =>
            obtain ⟨j, -, same⟩ := written
            contradiction
        | format _ =>
            obtain ⟨j, same⟩ := written
            contradiction
        | finish => exact written
  intro i iLt
  exact (one _ ⟨i, iLt, rfl⟩).trans (if_pos ⟨rfl, iLt⟩)

/-- What is not of a kind writes nothing that its check looks at. -/
theorem disjoint_of_issued (undisturbed : C.Undisturbed) (issued : C.Issued c)
    (other : c ∉ C.fillCommand isSvm :: C.afterFill isSvm) :
    Disjoint (C.cells isSvm) (C.writes c.tag) := by
  have inTail : ∀ {d}, (∃ index < 2 * C.numBuff isSvm, d = C.partsCommand isSvm index) ∨
      d = C.readCommand isSvm ∨ d = C.formatCommand isSvm →
      d ∈ C.fillCommand isSvm :: C.afterFill isSvm :=
    fun mem => List.mem_cons_of_mem _ (mem_afterFill_iff.mpr mem)
  cases isKind : kindOf c.tag with
  | none =>
      cases issued with
      | finish => exact Set.disjoint_empty _
      | _ => contradiction
  | some isSvm' =>
      have differ : isSvm ≠ isSvm' := by
        rintro rfl
        cases issued with
        | @fill i _ =>
            obtain rfl : i = isSvm := Option.some.inj isKind
            exact other List.mem_cons_self
        | @parts i index indexLt =>
            obtain rfl : i = isSvm := Option.some.inj isKind
            exact other (inTail (Or.inl ⟨index, indexLt, rfl⟩))
        | @read i _ =>
            obtain rfl : i = isSvm := Option.some.inj isKind
            exact other (inTail (Or.inr (Or.inl rfl)))
        | @format i _ =>
            obtain rfl : i = isSvm := Option.some.inj isKind
            exact other (inTail (Or.inr (Or.inr rfl)))
        | finish => contradiction
      exact (disjoint_cells undisturbed differ).mono_right (writes_subset isKind)

/-- The check of a kind of object is a protocol behind the pending commands. -/
theorem protocol (undisturbed : C.Undisturbed) (some' : C.numBuff isSvm ≠ 0) :
    Protocol C.inOrder C.pending C.verifyOnGpu (AgreeOn (C.cells isSvm)) C.evt
      (C.fillCommand isSvm) (C.afterFill isSvm) := by
  constructor
  case distinct => exact distinct_script
  case once => exact nodup_afterFill some'
  case enqueued => exact fun c mem => mem_enqueues_iff.mpr (issued_of_mem some' mem)
  case behind => exact fun c mem => after_evt some' mem
  case unaware =>
    intro c mem notEvt notNeeded memory
    have unaware := undisturbed.unaware c mem memory
    rintro (a | i | i) inside
    · obtain ⟨o, oMem, k, kLt, rfl⟩ := inside
      exact undisturbed.alone c mem notEvt notNeeded memory o (mem_objects oMem) k kLt
    · exact (unaware i).1
    · exact (unaware i).2
  case hidden =>
    intro c mem other memory
    have issued := mem_enqueues_iff.mp mem
    exact (issued.footprint undisturbed).hidden (disjoint_of_issued undisturbed issued other) memory
  case respects =>
    intro c mem memory memory' same
    exact ((issued_of_mem some' mem).footprint undisturbed).respects
      (reads_subset (kindOf_of_mem_afterFill mem)) same
  case ordered => exact pairwise_before undisturbed some'

/-- When the callback has run, the check of a kind of object has left what its commands
leave one after the other. -/
theorem serial_afterFill (undisturbed : C.Undisturbed) (some' : C.numBuff isSvm ≠ 0)
    {memory : PartsMemory} {s s' m : Machine PartsTag PartsMemory}
    (runs : Runs C.inOrder (begin memory C.pending C.verifyOnGpu) s)
    (executed : step C.inOrder s (.execute C.evt) = some s') (runs' : Runs C.inOrder s' m)
    (done : .format isSvm ∈ m.done) : AgreeOn (C.cells isSvm) m.memory (inTurn Command.body
      (if .fill isSvm ∈ s'.done then C.afterFill isSvm
        else C.fillCommand isSvm :: C.afterFill isSvm) s'.memory) := by
  refine (protocol undisturbed some').serial (agreeOn_equivalence _) runs executed runs' done ?_
  exact fun c mem => (format_after some' mem).imp (congrArg Command.tag) id

end PartsCheck

end Clarmor
