import Clarmor.Check.ImageRuns

/-!
# The verdict of the checks of images

Whatever order the device takes, each image sends its first changed canary byte to a
result, and all canaries are in place.  Behind each other the images have a result each;
with a launch each they all have the first one.
-/

namespace Clarmor

open Word Store Reduce Items Queues

namespace ImageCheck

variable {C : ImageCheck} {i : Nat} {o : CheckedImage}

/-! ## What the commands leave -/

theorem inTurn_unwritten (undisturbed : C.Undisturbed) {steps : List (Command ImageTag ImageMemory)}
    (issued : ∀ c ∈ steps, C.Issued c) {c : ImageCell}
    (unwritten : ∀ d ∈ steps, c ∉ C.writes d.tag) (m : ImageMemory) :
    inTurn Command.body steps m c = m c := by
  have footprints : ∀ d ∈ steps, Footprint d.body (C.reads d.tag) (C.writes d.tag) :=
    fun d mem => (issued d mem).footprint undisturbed
  exact @inTurn_keeps _ _ _ Command.body (fun d => C.reads d.tag) (fun d => C.writes d.tag) steps
    footprints c unwritten m

/-- The canary bytes of an image, in their places among the copies. -/
theorem copyList_copied (undisturbed : C.Undisturbed) (isImage : C.images[i]? = some o) {k : Nat}
    (kLt : k < o.canaryLen) (m : ImageMemory) :
    inTurn Command.body C.copyList m (.copied (C.buffer i, C.offset i + k)) =
      m (.texel (o.canaryCell k)) := by
  have fits := undisturbed.image isImage
  have room := offset_room undisturbed isImage
  refine @inTurn_settles _ _ _ Command.body C.copyList
    (fun m' => m' (.texel (o.canaryCell k)) = m (.texel (o.canaryCell k))) _ _ ?_ ?_ ?_ m rfl
  · intro c mem m' kept
    obtain ⟨j, o', isImage', w, wMem, rfl⟩ := mem_copyList_iff.mp mem
    rcases copyCommand_brings undisturbed isImage' wMem with ⟨-, idle⟩ | ⟨t, -, -, brings⟩
    · rw [idle]
      exact kept
    · rw [brings.keeps m' _ fun _ _ => ImageCell.noConfusion]
      exact kept
  · intro c mem m' kept
    obtain ⟨j, o', isImage', w, wMem, rfl⟩ := mem_copyList_iff.mp mem
    rcases copyCommand_brings undisturbed isImage' wMem with ⟨-, idle⟩ | ⟨t, -, -, brings⟩
    · exact Or.inr (by rw [idle]; rfl)
    · by_cases brought : ∃ k' ∈ bytesOf o' t,
          ImageCell.copied (C.buffer i, C.offset i + k) = .copied (C.buffer j, C.offset j + k')
      · obtain ⟨k', inside, same⟩ := brought
        obtain ⟨rfl, rfl⟩ := place_inj undisturbed isImage isImage' kLt (brings.inside k' inside)
          (ImageCell.copied.inj same)
        obtain rfl := Option.some.inj (isImage.symm.trans isImage')
        exact Or.inl ((brings.brings m' k inside).trans kept)
      · push Not at brought
        exact Or.inr (brings.keeps m' _ brought)
  · rw [CheckedImage.canaryLen_eq fits] at kLt
    obtain ⟨t, tMem, n, nLt, rfl⟩ := CheckedImage.exists_transfer kLt
    have isTransfer := List.mem_map_of_mem (f := Transfer.shift (C.offset i)) tMem
    rw [← CheckedImage.copyImageCanaries_transfers fits room] at isTransfer
    obtain ⟨w, wMem, event⟩ := List.mem_filterMap.mp isTransfer
    refine ⟨C.copyCommand i o w, mem_copyList_iff.mpr ⟨i, o, isImage, w, wMem, rfl⟩,
      fun m' kept => ?_⟩
    rcases copyCommand_brings undisturbed isImage wMem with ⟨idle, -⟩ | ⟨u, -, event', brings⟩
    · rw [idle] at event
      contradiction
    · rw [event'] at event
      obtain ⟨boxes, segments⟩ := Transfer.mk.inj (Option.some.inj event)
      refine (brings.brings m' _ ?_).trans kept
      rw [bytesOf, boxes, Nat.add_left_cancel segments]
      exact ⟨Nat.le_add_right _ _, Nat.add_lt_add_left nLt _⟩

/-- The repairs leave canary bytes. -/
theorem mendList_mended (undisturbed : C.Undisturbed) (mends : C.errorEnv = false)
    (isImage : C.images[i]? = some o) {k : Nat} (kLt : k < o.canaryLen) (m : ImageMemory) :
    inTurn Command.body C.mendList m (.texel (o.canaryCell k)) = POISON_FILL := by
  have fits := undisturbed.image isImage
  refine @inTurn_settles _ _ _ Command.body C.mendList (fun _ => True) _ _ ?_ ?_ ?_ m trivial
  · exact fun _ _ _ _ => trivial
  · intro c mem m' _
    obtain ⟨-, j, o', isImage', n, w, isWrite, rfl⟩ := mem_mendList_iff.mp mem
    have repairs := mendCommand_repairs undisturbed isImage' isWrite
    by_cases repaired : ∃ k' ∈ bytesIn o' w.box,
        ImageCell.texel (o.canaryCell k) = .texel (o'.canaryCell k')
    · obtain ⟨k', inside, same⟩ := repaired
      rw [ImageCell.texel.inj same]
      exact Or.inl (repairs.repairs m' k' inside)
    · push Not at repaired
      exact Or.inr (repairs.keeps m' _ repaired)
  · have inLayout := kLt
    rw [CheckedImage.canaryLen_eq fits] at inLayout
    obtain ⟨w, wMem, inBox⟩ := (CheckedImage.covered_iff_isCanaryPixel fits _).mpr
      (CheckedImage.canaryAt_isCanaryPixel fits.pixels inLayout).1
    obtain ⟨n, isWrite⟩ := List.getElem?_of_mem wMem
    refine ⟨C.mendCommand i o n w, mem_mendList_iff.mpr ⟨mends, i, o, isImage, n, w, isWrite, rfl⟩,
      fun m' _ => ?_⟩
    exact (mendCommand_repairs undisturbed isImage isWrite).repairs m' k ⟨kLt, inBox⟩

/-! ## The launches -/

/-- A launch finds a change of an image in some copies. -/
def Finds (lens : List Nat) (b : Nat) (m : ImageMemory) (j x : Nat) : Prop :=
  ∃ len, lens[j]? = some len ∧
    ∃ k < len, m (.copied (b, (lens.take j).sum + k)) ≠ POISON_FILL ∧ k ≤ x

/-- A result is the least change that was found. -/
theorem checkImages_le_iff (s : Schedule Nat Nat) {lens : List Nat} (small : lens.sum < 4294967296)
    (b : Nat) (m : ImageMemory) {j x : Nat} :
    (checkImages s lens b m (.result j) : Nat) ≤ x ↔
      (m (.result j) : Nat) ≤ x ∨ Finds lens b m j x := by
  have perm : (imageAtomics s lens fun a => m (.copied (b, a))).Perm
      ((List.range lens.sum).filterMap
        (findCorruptionImage POISON_FILL (findCanaryEnds lens) fun a => m (.copied (b, a)))) := by
    rw [imageAtomics, totalCanaryLen_eq small]
    exact (s.atomics_perm _).trans ((s.items_perm _).filterMap _)
  change runAtomics (imageAtomics s lens fun a => m (.copied (b, a)))
    (fun j => m (.result j)) j ≤ x ↔ _
  rw [runAtomics_perm perm, runAtomics_apply, minAll_le_iff]
  refine or_congr Iff.rfl ?_
  simp only [List.mem_map, List.mem_filter, List.mem_filterMap, List.mem_range, decide_eq_true_eq]
  constructor
  · rintro ⟨v, ⟨⟨j', v'⟩, ⟨⟨tid, tidLt, sent⟩, here⟩, rfl⟩, le⟩
    obtain rfl : j' = j := here
    have inside : j' < lens.length := findCorruptionImage_lt sent
    have isImage : lens[j']? = some lens[j'] := List.getElem?_eq_getElem inside
    obtain ⟨⟨kLt, rfl⟩, differs⟩ :=
      (findCorruptionImage_eq_some_iff small isImage tidLt).mp sent
    exact ⟨_, isImage, v', kLt, differs, le⟩
  · rintro ⟨len, isImage, k, kLt, differs, le⟩
    have inside := take_sum_add_le isImage
    exact ⟨k, ⟨(j, k), ⟨⟨(lens.take j).sum + k, by omega,
      (findCorruptionImage_eq_some_iff small isImage (by omega)).mpr ⟨⟨kLt, rfl⟩, differs⟩⟩, rfl⟩,
        rfl⟩, le⟩

/-- Launches one after the other find what each of them finds. -/
theorem inTurn_checks_le_iff {steps : List (Command ImageTag ImageMemory)} {j x : Nat}
    {found : Command ImageTag ImageMemory → Prop} {B : Nat × Nat → UInt8}
    (each : ∀ c ∈ steps, ∀ m : ImageMemory, (∀ a, m (.copied a) = B a) →
      (∀ a, c.body m (.copied a) = B a) ∧
        ((c.body m (.result j) : Nat) ≤ x ↔ (m (.result j) : Nat) ≤ x ∨ found c))
    {m : ImageMemory} (copies : ∀ a, m (.copied a) = B a) :
    (inTurn Command.body steps m (.result j) : Nat) ≤ x ↔
      (m (.result j) : Nat) ≤ x ∨ ∃ c ∈ steps, found c := by
  induction steps generalizing m with
  | nil => simp
  | cons c steps ih =>
      obtain ⟨kept, finds⟩ := each c List.mem_cons_self m copies
      rw [inTurn_cons, ih (fun d mem => each d (List.mem_cons_of_mem c mem)) kept, finds, or_assoc,
        List.exists_mem_cons_iff]

/-- The result that an image sends its changes to. -/
def resultCell (C : ImageCheck) (i : Nat) : Nat := if C.single then 0 else i

/-- The first changed canary byte of an image. -/
def change (C : ImageCheck) (before : Nat × Point × Nat → UInt8) (i : Nat) : Option Nat :=
  C.images[i]?.bind fun o => o.change before

/-- The least of the changes that come to a result. -/
def report (C : ImageCheck) (before : Nat × Point × Nat → UInt8) (j : Nat) : Option Nat :=
  (((List.range C.numImages).filter fun i => C.resultCell i = j).filterMap (C.change before)).min?

/-- The copies hold the canaries of all images. -/
def Copied (C : ImageCheck) (before : Nat × Point × Nat → UInt8) (m : ImageMemory) : Prop :=
  ∀ i o, C.images[i]? = some o → ∀ k < o.canaryLen,
    m (.copied (C.buffer i, C.offset i + k)) = before (o.canaryCell k)

/-- A bad canary byte of an image lies at or before some place. -/
def Changed (C : ImageCheck) (before : Nat × Point × Nat → UInt8) (i x : Nat) : Prop :=
  ∃ o, C.images[i]? = some o ∧ ∃ k < o.canaryLen, before (o.canaryCell k) ≠ POISON_FILL ∧ k ≤ x

theorem changed_iff {before : Nat × Point × Nat → UInt8} {x : Nat} :
    C.Changed before i x ↔ ∃ k, C.change before i = some k ∧ k ≤ x := by
  rw [Changed, change]
  cases C.images[i]? with
  | none => simp
  | some o =>
      rw [Option.bind_some]
      constructor
      · rintro ⟨o', same, k, kLt, differs, le⟩
        obtain rfl := Option.some.inj same
        cases search : (List.range o.canaryLen).find? fun k =>
            before (o.canaryCell k) ≠ POISON_FILL with
        | none =>
            have clean := List.find?_eq_none.mp search k (List.mem_range.mpr kLt)
            exact absurd (decide_eq_true differs) clean
        | some first =>
            refine ⟨first, search, ?_⟩
            obtain ⟨-, -, least⟩ := find?_range_iff.mp search
            by_contra gt
            exact least k (by omega) differs
      · rintro ⟨k, search, le⟩
        obtain ⟨kLt, differs, -⟩ := find?_range_iff.mp search
        exact ⟨o, rfl, k, kLt, differs, le⟩

theorem change_lt (undisturbed : C.Undisturbed) {before : Nat × Point × Nat → UInt8} {k : Nat}
    (changed : C.change before i = some k) : k < INT_MAX := by
  obtain ⟨o, isImage, search⟩ := Option.bind_eq_some_iff.mp changed
  have fits := undisturbed.image isImage
  obtain ⟨kLt, -, -⟩ := find?_range_iff.mp search
  rw [CheckedImage.canaryLen_eq fits] at kLt
  have top : INT_MAX = 2147483647 := rfl
  have small := fits.canaries
  omega

/-- The launches find the changes of all images. -/
theorem checkCommands_le_iff (undisturbed : C.Undisturbed) {before : Nat × Point × Nat → UInt8}
    {m : ImageMemory} (copied : C.Copied before m) {j x : Nat} :
    (inTurn Command.body C.checkCommands m (.result j) : Nat) ≤ x ↔
      (m (.result j) : Nat) ≤ x ∨ ∃ i, C.resultCell i = j ∧ C.Changed before i x := by
  rw [checkCommands]
  cases strategy : C.single with
  | true =>
      have own : ∀ i, C.buffer i = i ∧ C.offset i = 0 ∧ C.resultCell i = 0 := fun i =>
        ⟨if_pos strategy, if_pos strategy, if_pos strategy⟩
      rw [if_pos rfl, @inTurn_checks_le_iff _ j x (fun c => ∃ i o, C.images[i]? = some o ∧
        c = C.checkOne i o ∧ 0 = j ∧ C.Changed before i x)
          (fun a => m (.copied a)) ?_ m fun _ => rfl]
      · refine or_congr Iff.rfl ⟨?_, ?_⟩
        · rintro ⟨-, -, i, o, -, -, here, changed⟩
          exact ⟨i, (own i).2.2.trans here, changed⟩
        · rintro ⟨i, here, changed⟩
          rw [(own i).2.2] at here
          obtain ⟨o, isImage, -⟩ := id changed
          exact ⟨C.checkOne i o, mem_perImage_iff.mpr ⟨i, o, isImage, List.mem_singleton_self _⟩,
            i, o, isImage, rfl, here, changed⟩
      · intro c mem m' copies
        obtain ⟨i, o, isImage, mem⟩ := mem_perImage_iff.mp mem
        rw [List.mem_singleton.mp mem]
        refine ⟨copies, (checkImages_le_iff (C.schedule i) ?_ (C.buffer i) m').trans
          (or_congr Iff.rfl ?_)⟩
        · have fits := undisturbed.image isImage
          rw [List.sum_singleton, CheckedImage.canaryLen_eq fits]
          exact fits.canaries.trans (by decide)
        · have copiedHere := copied i o isImage
          rw [(own i).1, (own i).2.1] at copiedHere
          constructor
          · rintro ⟨len, isLen, k, kLt, differs, le⟩
            cases j with
            | zero =>
                obtain rfl := Option.some.inj isLen
                rw [copies, List.take_zero, List.sum_nil, (own i).1, copiedHere k kLt] at differs
                exact ⟨i, o, isImage, rfl, rfl, o, isImage, k, kLt, differs, le⟩
            | succ j => contradiction
          · rintro ⟨i', o', isImage', same, rfl, o'', isImage'', k, kLt, differs, le⟩
            obtain rfl : i = i' := ImageTag.check.inj (congrArg Command.tag same)
            obtain rfl := Option.some.inj (isImage.symm.trans isImage'')
            refine ⟨o.canaryLen, rfl, k, kLt, ?_, le⟩
            rw [copies, List.take_zero, List.sum_nil, (own i).1, copiedHere k kLt]
            exact differs
  | false =>
      have shared : ∀ i, C.buffer i = 0 ∧ C.resultCell i = i := fun i =>
        ⟨if_neg (by rw [strategy]; decide), if_neg (by rw [strategy]; decide)⟩
      rw [if_neg Bool.false_ne_true, inTurn_cons, inTurn_nil]
      refine (checkImages_le_iff (C.schedule 0) ?_ 0 m).trans (or_congr Iff.rfl ?_)
      · exact (undisturbed.few strategy).trans (by decide)
      · constructor
        · rintro ⟨len, isLen, k, kLt, differs, le⟩
          rw [lens, List.getElem?_map] at isLen
          obtain ⟨o, isImage, rfl⟩ := Option.map_eq_some_iff.mp isLen
          have copiedHere := copied j o isImage k kLt
          rw [(shared j).1, offset_eq undisturbed isImage strategy] at copiedHere
          rw [copiedHere] at differs
          exact ⟨j, (shared j).2, o, isImage, k, kLt, differs, le⟩
        · rintro ⟨i, here, o, isImage, k, kLt, differs, le⟩
          obtain rfl := (shared i).2.symm.trans here
          have copiedHere := copied i o isImage k kLt
          rw [(shared i).1, offset_eq undisturbed isImage strategy] at copiedHere
          refine ⟨o.canaryLen, lens_getElem? isImage, k, kLt, ?_, le⟩
          rw [copiedHere]
          exact differs

/-! ## What the read leaves -/

/-- The changes that come to a result. -/
theorem mem_changes_iff {before : Nat × Point × Nat → UInt8} {j y : Nat} :
    y ∈ ((List.range C.numImages).filter fun i => C.resultCell i = j).filterMap
      (C.change before) ↔ ∃ i, C.resultCell i = j ∧ C.change before i = some y := by
  simp only [List.mem_filterMap, List.mem_filter, List.mem_range, decide_eq_true_eq]
  constructor
  · rintro ⟨i, ⟨-, here⟩, changed⟩
    exact ⟨i, here, changed⟩
  · rintro ⟨i, here, changed⟩
    -- an image with a change is one of the check
    obtain ⟨o, isImage, -⟩ := Option.bind_eq_some_iff.mp changed
    exact ⟨i, ⟨(List.getElem?_eq_some_iff.mp isImage).1, here⟩, changed⟩

theorem exists_change_iff {before : Nat × Point × Nat → UInt8} {j x : Nat} :
    (∃ y ∈ ((List.range C.numImages).filter fun i => C.resultCell i = j).filterMap
      (C.change before), y ≤ x) ↔ ∃ i, C.resultCell i = j ∧ C.Changed before i x := by
  simp only [mem_changes_iff, changed_iff]
  constructor
  · rintro ⟨y, ⟨i, here, changed⟩, le⟩
    exact ⟨i, here, y, changed, le⟩
  · rintro ⟨i, here, y, changed, le⟩
    exact ⟨y, ⟨i, here, changed⟩, le⟩

/-- The launches leave the reports in the results. -/
theorem checkCommands_report (undisturbed : C.Undisturbed) {before : Nat × Point × Nat → UInt8}
    {m : ImageMemory} (copied : C.Copied before m) {j : Nat}
    (filled : m (.result j) = INT_MAX) :
    reported (inTurn Command.body C.checkCommands m (.result j)) = C.report before j := by
  refine reported_eq_min? (fun y mem => ?_) ?_ fun x below => ?_
  · obtain ⟨i, -, changed⟩ := List.mem_filterMap.mp mem
    exact change_lt undisturbed changed
  · exact (checkCommands_le_iff undisturbed copied).mpr (Or.inl filled.le)
  · rw [exists_change_iff]
    refine (checkCommands_le_iff undisturbed copied).trans (or_iff_right ?_)
    rw [filled]
    exact not_le.mpr below

/-- The results are those of a memory, and the canaries are in place, or left as they
were. -/
structure Verified (C : ImageCheck) (before : Nat × Point × Nat → UInt8) (after : ImageMemory) :
    Prop where
  reports : ∀ j < C.numImages, reported (after (.firstChange j)) = C.report before j
  canaries : ∀ o ∈ C.images, ∀ p, IsCanaryPixel o.desc p → ∀ b < o.pixel,
    after (.texel (o.store, p, b)) = if C.errorEnv then before (o.store, p, b) else POISON_FILL

/-- A canary byte after the commands. -/
theorem afterFill_canary (undisturbed : C.Undisturbed) (isImage : C.images[i]? = some o) {k : Nat}
    (kLt : k < o.canaryLen) (m : ImageMemory) :
    inTurn Command.body C.afterFill m (.texel (o.canaryCell k)) =
      if C.errorEnv then m (.texel (o.canaryCell k)) else POISON_FILL := by
  have some' := images_ne_nil isImage
  have issued : ∀ c ∈ C.afterFill, C.Issued c := fun c mem =>
    issued_of_mem some' (List.mem_cons_of_mem _ mem)
  have copies : ∀ m, inTurn Command.body C.copyList m (.texel (o.canaryCell k)) =
      m (.texel (o.canaryCell k)) := by
    refine inTurn_unwritten undisturbed (fun c mem => issued c (List.mem_append_left _ mem))
      fun d mem written => ?_
    obtain ⟨i, o, -, w, -, rfl⟩ := mem_copyList_iff.mp mem
    exact absurd (layerOf_copiedCells written) (by decide : (0 : Nat) ≠ 1)
  have checks : ∀ m, inTurn Command.body (C.checkCommands ++ [C.readCommand]) m
      (.texel (o.canaryCell k)) = m (.texel (o.canaryCell k)) := by
    refine inTurn_unwritten undisturbed (fun c mem =>
      issued c (List.mem_append_right _ (List.mem_append_right _ mem))) fun d mem written => ?_
    rcases List.mem_append.mp mem with mem | mem
    · obtain ⟨-, ⟨i, o, -, isTag⟩, -⟩ := mem_checkCommands some' mem
      rw [isTag] at written
      exact absurd (layerOf_results written) (by decide : (0 : Nat) ≠ 2)
    · rw [List.mem_singleton.mp mem] at written
      obtain ⟨j, -, same⟩ := written
      contradiction
  rw [afterFill, inTurn_append, inTurn_append, checks]
  cases keeps : C.errorEnv with
  | true => rw [mendList, if_pos keeps, inTurn_nil, copies, if_pos rfl]
  | false => exact mendList_mended undisturbed keeps isImage kLt _

/-- The commands one after the other. -/
theorem verified_inTurn (undisturbed : C.Undisturbed) (some' : C.images ≠ []) {m : ImageMemory}
    (filled : ∀ j < C.numImages, m (.result j) = INT_MAX) :
    C.Verified m.texels (inTurn Command.body C.afterFill m) := by
  have issued : ∀ c ∈ C.afterFill, C.Issued c := fun c mem =>
    issued_of_mem some' (List.mem_cons_of_mem _ mem)
  have mends : ∀ m c, layerOf c ≠ 0 → inTurn Command.body C.mendList m c = m c := by
    intro m c unmended
    refine inTurn_unwritten undisturbed (fun d mem =>
      issued d (List.mem_append_right _ (List.mem_append_left _ mem))) (fun d mem written => ?_) m
    obtain ⟨-, i, o, -, n, w, -, rfl⟩ := mem_mendList_iff.mp mem
    exact unmended (layerOf_canaryTexels written)
  constructor
  · intro j jLt
    have copied : C.Copied m.texels
        (inTurn Command.body C.mendList (inTurn Command.body C.copyList m)) := by
      intro i o isImage k kLt
      refine (mends _ (.copied _) (by decide : (1 : Nat) ≠ 0)).trans ?_
      exact copyList_copied undisturbed isImage kLt m
    have stays : inTurn Command.body C.mendList (inTurn Command.body C.copyList m) (.result j) =
        INT_MAX := by
      refine (mends _ (.result j) (by decide : (2 : Nat) ≠ 0)).trans ?_
      rw [← filled j jLt]
      refine inTurn_unwritten undisturbed (fun d mem => issued d (List.mem_append_left _ mem))
        (fun d mem written => ?_) m
      obtain ⟨i, o, -, w, -, rfl⟩ := mem_copyList_iff.mp mem
      exact absurd (layerOf_copiedCells written) (by decide : (2 : Nat) ≠ 1)
    rw [afterFill, inTurn_append, inTurn_append, inTurn_append, ← checkCommands_report undisturbed
      copied stays]
    exact congrArg reported (if_pos jLt)
  · intro o mem p isCanary b bLt
    have fits := undisturbed.fits o mem
    obtain ⟨i, isImage⟩ := List.getElem?_of_mem mem
    obtain ⟨k, kLt, place⟩ := CheckedImage.exists_canaryAt isCanary bLt
    rw [← CheckedImage.canaryLen_eq fits] at kLt
    have canary := afterFill_canary undisturbed isImage kLt m
    rw [CheckedImage.canaryCell, place] at canary
    exact canary

/-- What is done and was not pending was issued by the check. -/
theorem issued_of_done (undisturbed : C.Undisturbed) (some' : C.images ≠ []) {memory : ImageMemory}
    {m : Machine ImageTag ImageMemory}
    (runs : Runs C.inOrder (begin memory C.pending C.verifyClImages) m) {t : ImageTag}
    (done : t ∈ m.done) (own : ∀ n, t ≠ .pending n) : ∃ c, C.Issued c ∧ c.tag = t := by
  obtain ⟨c, mem, named⟩ := List.mem_map.mp ((lawful undisturbed runs).known _ done)
  rcases List.mem_append.mp ((lawful undisturbed runs).mem_script mem) with isPending | mem
  · obtain ⟨n, pending⟩ := C.isPending c isPending
    exact absurd (named.symm.trans pending) (own n)
  · exact ⟨c, (mem_enqueues_iff some').mp mem, named⟩

/-- The fill of the results is done, or it comes first. -/
theorem verified_afterFill (undisturbed : C.Undisturbed) (some' : C.images ≠ [])
    {memory : ImageMemory} {s s' : Machine ImageTag ImageMemory}
    (runs : Runs C.inOrder (begin memory C.pending C.verifyClImages) s)
    (executed : step C.inOrder s (.execute C.evt) = some s') :
    C.Verified s'.memory.texels (inTurn Command.body
      (if .fill ∈ s'.done then C.afterFill else C.fillCommand :: C.afterFill) s'.memory) := by
  have toS' : Runs C.inOrder (begin memory C.pending C.verifyClImages) s' :=
    runs.tail trivial executed
  split_ifs with fillDone
  · refine verified_inTurn undisturbed some'
      (filled undisturbed some' toS' fillDone fun i isDone => ?_)
    obtain ⟨c, issued, isTag⟩ := issued_of_done undisturbed some' toS' isDone
      fun n => ImageTag.noConfusion
    rcases mem_order_of_issued issued with mem | none
    · rcases List.mem_cons.mp mem with rfl | mem
      · contradiction
      · refine (lawful undisturbed toS').not_yet executed (after_evt undisturbed some' mem) ?_
        rw [isTag]
        exact isDone
    · rw [isTag] at none
      exact Set.eq_empty_iff_forall_notMem.mp none (.result 0) ⟨0, rfl⟩
  · rw [inTurn_cons]
    exact @verified_inTurn C undisturbed some' (fillImageResults C.numImages s'.memory)
      fun j jLt => if_pos jLt

/-- A verdict is about cells of the check. -/
theorem Verified.congr (undisturbed : C.Undisturbed) {before : Nat × Point × Nat → UInt8}
    {m m' : ImageMemory} (verified : C.Verified before m) (same : AgreeOn C.cells m' m) :
    C.Verified before m' := by
  refine ⟨fun j jLt => ?_, fun o mem p isCanary b bLt => ?_⟩
  · rw [← verified.reports j jLt, same (.firstChange j) trivial]
  · rw [← verified.canaries o mem p isCanary b bLt]
    obtain ⟨k, kLt, place⟩ := CheckedImage.exists_canaryAt isCanary bLt
    rw [← CheckedImage.canaryLen_eq (undisturbed.fits o mem)] at kLt
    refine same _ ⟨o, mem, k, kLt, ?_⟩
    rw [CheckedImage.canaryCell, place]

/-! ## All runs -/

/-- A command of the check changes nothing but what it looks at. -/
theorem step_keeps (undisturbed : C.Undisturbed) {memory : ImageMemory}
    {s s' : Machine ImageTag ImageMemory} {t : ImageTag}
    (runs : Runs C.inOrder (begin memory C.pending C.verifyClImages) s)
    (executed : step C.inOrder s (.execute t) = some s') (own : t ∉ C.pending.map Command.tag)
    {c : ImageCell} (outside : c ∉ C.cells) : s'.memory c = s.memory c := by
  obtain ⟨d, mem, rfl, -, rfl⟩ := execute_eq_some executed
  rcases List.mem_append.mp ((lawful undisturbed runs).mem_script mem) with isPending | mem
  · exact absurd (List.mem_map_of_mem isPending) own
  · by_cases some' : C.images = []
    · rw [verifyClImages, if_pos some', enqueues_nil] at mem
      exact absurd mem List.not_mem_nil
    · have issued := (mem_enqueues_iff some').mp mem
      exact (issued.footprint undisturbed).keeps s.memory c fun written =>
        outside (writes_subset _ written)

theorem images_ne_nil_of_read (undisturbed : C.Undisturbed) {memory : ImageMemory}
    {m : Machine ImageTag ImageMemory}
    (runs : Runs C.inOrder (begin memory C.pending C.verifyClImages) m)
    (done : .read ∈ m.done) : C.images ≠ [] := by
  intro none
  obtain ⟨c, mem, isRead⟩ := List.mem_map.mp ((lawful undisturbed runs).known _ done)
  have inScript := (lawful undisturbed runs).mem_script mem
  rw [verifyClImages, if_pos none, enqueues_nil, List.append_nil] at inScript
  obtain ⟨n, named⟩ := C.isPending c inScript
  rw [named] at isRead
  contradiction

/-- A verdict is about the memory when the kernel of the application was done. -/
theorem verified_of_read (undisturbed : C.Undisturbed) {memory : ImageMemory}
    {s s' m : Machine ImageTag ImageMemory}
    (runs : Runs C.inOrder (begin memory C.pending C.verifyClImages) s)
    (executed : step C.inOrder s (.execute C.evt) = some s') (runs' : Runs C.inOrder s' m)
    (done : .read ∈ m.done) : C.Verified s'.memory.texels m.memory := by
  have some' := images_ne_nil_of_read undisturbed ((runs.tail trivial executed).trans runs') done
  exact (verified_afterFill undisturbed some' runs executed).congr undisturbed
    (serial_afterFill undisturbed some' runs executed runs' done)

/-- The promise of a check of images to a run. -/
structure Completes (C : ImageCheck) (memory : ImageMemory) (m : Machine ImageTag ImageMemory) :
    Prop where
  ends : ∃ m', Runs C.inOrder m m' ∧ m'.host = [] ∧ ∀ c ∈ C.script, c.tag ∈ m'.done
  verified : .read ∈ m.done → ∃ s s',
    Runs C.inOrder (begin memory C.pending C.verifyClImages) s ∧
      step C.inOrder s (.execute C.evt) = some s' ∧ Runs C.inOrder s' m ∧
        C.Verified s'.memory.texels m.memory
  /-- A command of the check changes nothing but what it looks at. -/
  keeps : ∀ t m', t ∉ C.pending.map Command.tag → step C.inOrder m (.execute t) = some m' →
    ∀ c ∉ C.cells, m'.memory c = m.memory c

/-- Every run can come to its end.  What is read then are the least changes that come to
the results, from when the kernel of the application was done. -/
theorem images_of_run (undisturbed : C.Undisturbed) {memory : ImageMemory}
    {m : Machine ImageTag ImageMemory}
    (runs : Runs C.inOrder (begin memory C.pending C.verifyClImages) m) : C.Completes memory m := by
  refine ⟨(lawful undisturbed runs).drains (distinct_script undisturbed)
    (orderly_script undisturbed) supplied_verifyClImages, fun done => ?_,
    fun t m' own executed c outside => step_keeps undisturbed runs executed own outside⟩
  have some' := images_ne_nil_of_read undisturbed runs done
  have isLast : C.readCommand ∈ C.afterFill :=
    mem_afterFill_iff.mpr (Or.inr (Or.inr (Or.inr rfl)))
  have evtDone : C.evt ∈ m.done :=
    ((lawful undisturbed runs).after done (after_evt undisturbed some' isLast)).subset
      (List.mem_cons_of_mem _ (List.mem_singleton_self _))
  obtain ⟨s, s', first, executed, rest⟩ := runs.executed_at List.not_mem_nil evtDone
  exact ⟨s, s', first, executed, rest, verified_of_read undisturbed first executed rest done⟩

/-! ## Whose changes are reported -/

theorem report_eq_some_iff {before : Nat × Point × Nat → UInt8} {j k : Nat} :
    C.report before j = some k ↔ (∃ i, C.resultCell i = j ∧ C.change before i = some k) ∧
      ∀ i y, C.resultCell i = j → C.change before i = some y → k ≤ y := by
  rw [report, List.min?_eq_some_iff, mem_changes_iff]
  refine and_congr Iff.rfl ?_
  constructor
  · exact fun least i y here changed => least y (mem_changes_iff.mpr ⟨i, here, changed⟩)
  · intro least y mem
    obtain ⟨i, here, changed⟩ := mem_changes_iff.mp mem
    exact least i y here changed

/-- A result that only the changes of its own image come to. -/
theorem report_eq_change {before : Nat × Point × Nat → UInt8} {j : Nat}
    (own : ∀ i k, C.resultCell i = j → C.change before i = some k → i = j)
    (here : ∀ k, C.change before j = some k → C.resultCell j = j) :
    C.report before j = C.change before j := by
  apply Option.ext
  intro k
  rw [report_eq_some_iff]
  constructor
  · rintro ⟨⟨i, isCell, changed⟩, -⟩
    rwa [own i k isCell changed] at changed
  · intro changed
    refine ⟨⟨j, here k changed, changed⟩, fun i y isCell changed' => ?_⟩
    rw [own i y isCell changed', changed] at changed'
    exact (Option.some.inj changed').le

/-- Every image has its own change reported, if the copies lie behind each other.
Otherwise it has as long as no image but the first is changed. -/
theorem report_own_iff {before : Nat × Point × Nat → UInt8} :
    (∀ i < C.numImages, C.report before i = C.change before i) ↔
      C.single = false ∨ ∀ i < C.numImages, i ≠ 0 → C.change before i = none := by
  cases strategy : C.single with
  | false =>
      have own : ∀ i, C.resultCell i = i := fun i => if_neg (by rw [strategy]; decide)
      refine iff_of_true (fun i _ => report_eq_change (fun j _ here _ => ?_) fun _ _ => own i)
        (Or.inl rfl)
      exact (own j).symm.trans here
  | true =>
      have shared : ∀ i, C.resultCell i = 0 := fun i => if_pos strategy
      rw [or_iff_right Bool.noConfusion]
      constructor
      · intro same i iLt later
        rw [← same i iLt]
        cases found : C.report before i with
        | none => rfl
        | some k =>
            obtain ⟨⟨j, here, -⟩, -⟩ := report_eq_some_iff.mp found
            exact absurd (here.symm.trans (shared j)) later
      · intro clean i iLt
        have first : ∀ j k, C.change before j = some k → j = 0 := by
          intro j k changed
          by_contra later
          obtain ⟨o, isImage, -⟩ := Option.bind_eq_some_iff.mp changed
          rw [clean j (List.getElem?_eq_some_iff.mp isImage).1 later] at changed
          contradiction
        refine report_eq_change (fun j k here changed => ?_) fun k changed => ?_
        · rw [first j k changed, ← here, shared]
        · rw [shared, first i k changed]

theorem Verified.reports_iff {before : Nat × Point × Nat → UInt8} {m : ImageMemory}
    (verified : C.Verified before m) :
    (∀ i < C.numImages, reported (m (.firstChange i)) = C.change before i) ↔
      C.single = false ∨ ∀ i < C.numImages, i ≠ 0 → C.change before i = none := by
  rw [← report_own_iff]
  refine forall_congr' fun i => imp_congr_right fun iLt => ?_
  rw [verified.reports i iLt]

/-- What has been read in a run are the changes of the images themselves, when they were
copied behind each other or no image but the first was changed. -/
theorem reports_own_iff (undisturbed : C.Undisturbed) {memory : ImageMemory}
    {s s' m : Machine ImageTag ImageMemory}
    (runs : Runs C.inOrder (begin memory C.pending C.verifyClImages) s)
    (executed : step C.inOrder s (.execute C.evt) = some s') (runs' : Runs C.inOrder s' m)
    (done : .read ∈ m.done) :
    (∀ i < C.numImages, reported (m.memory (.firstChange i)) = C.change s'.memory.texels i) ↔
      C.single = false ∨ ∀ i < C.numImages, i ≠ 0 → C.change s'.memory.texels i = none :=
  (verified_of_read undisturbed runs executed runs' done).reports_iff

end ImageCheck

/-- A memory with canaries everywhere. -/
def ImageMemory.canaries : ImageMemory
  | .texel _ | .copied _ => POISON_FILL
  | .result _ | .firstChange _ => (0 : Nat)

/-- Writes behind the second of two rows. -/
def writeBehindRow (m : ImageMemory) : ImageMemory
  | .texel a => if a = (1, ⟨3, 0, 0⟩, 1) then 7 else m (.texel a)
  | .copied a => m (.copied a)
  | .result i => m (.result i)
  | .firstChange i => m (.firstChange i)

/-- A kernel that does so. -/
def overflowImages : Command ImageTag ImageMemory := ⟨.pending 0, 0, [], writeBehindRow⟩

theorem overflowImages_isPending : ∀ c ∈ [overflowImages], ∃ n, c.tag = .pending n := by
  intro c mem
  rw [List.mem_singleton.mp mem]
  exact ⟨0, rfl⟩

theorem overflowImages_orderly : Orderly [overflowImages] := by
  intro c mem t wait
  rw [List.mem_singleton.mp mem] at wait
  exact absurd wait List.not_mem_nil

/-- The kernel, and a check of both rows after it. -/
def overflowingImages (single : Bool) : ImageCheck where
  images := [rowImage 0, rowImage 1]
  single := single
  schedule := fun _ => Schedule.inOrder Nat Nat
  queue := 0
  fillQueue := fun i => i
  inOrder := fun _ => false
  errorEnv := false
  checkerTime := false
  nvidia := false
  behind := fun _ => 0
  pending := [overflowImages]
  evt := .pending 0
  isPending := overflowImages_isPending
  distinct := List.nodup_singleton _
  orderly := overflowImages_orderly
  launched := List.mem_singleton_self _

theorem overflowingImages_undisturbed (single : Bool) : (overflowingImages single).Undisturbed where
  fits := by
    intro o mem
    rcases List.mem_cons.mp mem with rfl | mem
    · exact rowImage_fits 0
    · rw [List.mem_singleton.mp mem]
      exact rowImage_fits 1
  few := fun _ =>
    (by decide : ([rowImage 0, rowImage 1].map CheckedImage.canaryLen).sum < 2147483648)
  apart := (by decide : ([rowImage 0, rowImage 1].map CheckedImage.store).Nodup)
  unaware := by
    intro c mem m
    rw [List.mem_singleton.mp mem]
    exact ⟨fun _ => rfl, fun _ => ⟨rfl, rfl⟩⟩
  alone := by
    intro c mem other
    rw [List.mem_singleton.mp mem] at other
    exact absurd rfl other

/-- The kernel is done first. -/
theorem overflowingImages_executed (single : Bool) : step (overflowingImages single).inOrder
    (begin ImageMemory.canaries (overflowingImages single).pending
      (overflowingImages single).verifyClImages) (.execute (.pending 0)) =
    some { begin ImageMemory.canaries (overflowingImages single).pending
        (overflowingImages single).verifyClImages with
      memory := writeBehindRow .canaries
      done := [.pending 0] } := rfl

/-- The check is completed after the kernel. -/
theorem overflowingImages_read (single : Bool) : ∃ m, Runs (overflowingImages single).inOrder
    { begin ImageMemory.canaries (overflowingImages single).pending
        (overflowingImages single).verifyClImages with
      memory := writeBehindRow .canaries
      done := [.pending 0] } m ∧ .read ∈ m.done := by
  have undisturbed := overflowingImages_undisturbed single
  have some' : (overflowingImages single).images ≠ [] := List.cons_ne_nil _ _
  have executed : Runs (overflowingImages single).inOrder (begin ImageMemory.canaries
      (overflowingImages single).pending (overflowingImages single).verifyClImages) _ :=
    .tail .refl trivial (overflowingImages_executed single)
  obtain ⟨m, runs, -, done⟩ := (ImageCheck.lawful undisturbed executed).drains
    (ImageCheck.distinct_script undisturbed) (ImageCheck.orderly_script undisturbed)
    ImageCheck.supplied_verifyClImages
  exact ⟨m, runs, done (overflowingImages single).readCommand
    (List.mem_append_right _ ((ImageCheck.mem_enqueues_iff some').mpr .read))⟩

/-- The check behind each other ends with the results read. -/
theorem ImageCheck.images_of_run_overflowing : ∃ m,
    Runs (overflowingImages false).inOrder (begin .canaries (overflowingImages false).pending
      (overflowingImages false).verifyClImages) m ∧ m.host = [] ∧ .read ∈ m.done ∧
        (overflowingImages false).Completes .canaries m := by
  have undisturbed := overflowingImages_undisturbed false
  obtain ⟨m, runs, host, done⟩ := (ImageCheck.images_of_run undisturbed .refl).ends
  have some' : (overflowingImages false).images ≠ [] := List.cons_ne_nil _ _
  refine ⟨m, runs, host, ?_, ImageCheck.images_of_run undisturbed runs⟩
  exact done (overflowingImages false).readCommand
    (List.mem_append_right _ ((ImageCheck.mem_enqueues_iff some').mpr .read))

/-- With a launch each, the change of the second row is not reported as its own. -/
theorem ImageCheck.reports_own_iff_overflowing : ∃ m,
    Runs (overflowingImages true).inOrder (begin .canaries (overflowingImages true).pending
      (overflowingImages true).verifyClImages) m ∧ .read ∈ m.done ∧
        ¬ ∀ i < 2, reported (m.memory (.firstChange i)) =
          (overflowingImages true).change (writeBehindRow .canaries).texels i := by
  have executed := overflowingImages_executed true
  obtain ⟨m, runs', read⟩ := overflowingImages_read true
  have toS' : Runs (overflowingImages true).inOrder (begin ImageMemory.canaries
    (overflowingImages true).pending (overflowingImages true).verifyClImages) _ :=
      .tail .refl trivial executed
  refine ⟨m, toS'.trans runs', read, fun own => ?_⟩
  have when := (ImageCheck.reports_own_iff (overflowingImages_undisturbed true) .refl executed
    runs' read).mp own
  rcases when with apart | clean
  · contradiction
  · have second := clean 1 (by decide) (by decide)
    exact absurd second (by decide)

end Clarmor
