import Clarmor.Check.ImageProtocol

/-!
# Runs of the checks of images

The transfers of an image can change places, and so can its repairs, since each byte has
one value to get.  Launches can change places, since minima do not depend on their order.
All other commands for an image are ordered by their events.
-/

namespace Clarmor

open Word Store Reduce Items Queues

namespace ImageCheck

variable {C : ImageCheck} {i j : Nat} {o o' : CheckedImage}

/-! ## What the commands read and write -/

/-- The canary bytes of an image. -/
def canaryTexels (C : ImageCheck) (i : Nat) : Set ImageCell :=
  {c | ∃ o, C.images[i]? = some o ∧ ∃ k < o.canaryLen, c = .texel (o.canaryCell k)}

/-- Their copies. -/
def copiedCells (C : ImageCheck) (i : Nat) : Set ImageCell :=
  {c | ∃ o, C.images[i]? = some o ∧ ∃ k < o.canaryLen, c = .copied (C.buffer i, C.offset i + k)}

/-- What a command reads. -/
def reads (C : ImageCheck) : ImageTag → Set ImageCell
  | .copy i _ => C.canaryTexels i ∪ C.copiedCells i
  | .mend i _ => C.canaryTexels i
  | .check i => {c | ∃ a, c = .copied (C.buffer i, a)} ∪ {c | ∃ j, c = .result j}
  | .read => {c | ∃ j < C.numImages, c = .result j}
  | _ => ∅

/-- What a command writes. -/
def writes (C : ImageCheck) : ImageTag → Set ImageCell
  | .fill => {c | ∃ j < C.numImages, c = .result j}
  | .copy i _ => C.copiedCells i
  | .mend i _ => C.canaryTexels i
  | .check _ => {c | ∃ j, c = .result j}
  | .read => {c | ∃ j < C.numImages, c = .firstChange j}
  | _ => ∅

/-- What a check looks at. -/
def cells (C : ImageCheck) : Set ImageCell := fun
  | .texel a => ∃ o ∈ C.images, ∃ k < o.canaryLen, a = o.canaryCell k
  | _ => True

/-! ## Transfers -/

/-- A transfer brings canary bytes to their places. -/
structure Brings (C : ImageCheck) (i : Nat) (o : CheckedImage) (ks : Set Nat)
    (f : ImageMemory → ImageMemory) : Prop where
  inside : ∀ k ∈ ks, k < o.canaryLen
  brings : ∀ m, ∀ k ∈ ks, f m (.copied (C.buffer i, C.offset i + k)) = m (.texel (o.canaryCell k))
  keeps : ∀ m c, (∀ k ∈ ks, c ≠ .copied (C.buffer i, C.offset i + k)) → f m c = m c

/-- The bytes of a transfer in the flat array. -/
def bytesOf (o : CheckedImage) (t : Transfer) : Set Nat :=
  {k | t.segment ≤ k ∧ k < t.segment + t.box.volume * o.pixel}

theorem copyCommand_brings (undisturbed : C.Undisturbed) (isImage : C.images[i]? = some o)
    {w : SlotWrite} (mem : w ∈ copyImageCanaries .machine o.memObj (C.offset i)) :
    (w.event = .userEvent ∧ (C.copyCommand i o w).body = id) ∨
      ∃ t ∈ (expandedDims o.desc).canaryTransfers o.pixel,
        w.event = .transfer (t.shift (C.offset i)) ∧
          C.Brings i o (bytesOf o t) (C.copyCommand i o w).body := by
  have fits := undisturbed.image isImage
  have room := offset_room undisturbed isImage
  cases event : w.event with
  | userEvent =>
      refine Or.inl ⟨rfl, ?_⟩
      rw [copyCommand, event]
  | transfer u =>
      have isTransfer : u ∈ transfers (copyImageCanaries .machine o.memObj (C.offset i)) := by
        refine List.mem_filterMap.mpr ⟨w, mem, ?_⟩
        rw [event]
      rw [CheckedImage.copyImageCanaries_transfers fits room] at isTransfer
      obtain ⟨t, tMem, rfl⟩ := List.mem_map.mp isTransfer
      refine Or.inr ⟨t, tMem, rfl, ?_⟩
      have body : (C.copyCommand i o w).body =
          copyTexels o (C.buffer i) (t.shift (C.offset i)) := by
        rw [copyCommand, event]
      have last := CheckedImage.transfer_le tMem
      rw [body]
      refine ⟨fun k inside => ?_, fun m k inside => ?_, fun m c outside => ?_⟩
      · rw [CheckedImage.canaryLen_eq fits]
        exact lt_of_lt_of_le inside.2 last
      · obtain ⟨lower, upper⟩ := inside
        obtain ⟨n, rfl⟩ := Nat.exists_eq_add_of_le lower
        have nLt : n < t.box.volume * o.pixel := Nat.lt_of_add_lt_add_left upper
        have place : C.offset i + (t.segment + n) - (C.offset i + t.segment) = n := by omega
        have isBrought : C.offset i + t.segment ≤ C.offset i + (t.segment + n) ∧
            C.offset i + (t.segment + n) < C.offset i + t.segment + t.box.volume * o.pixel :=
          ⟨by omega, by omega⟩
        have cell : o.canaryCell (t.segment + n) =
            (o.store, t.box.point (n / o.pixel), n % o.pixel) := by
          rw [CheckedImage.canaryCell, CheckedImage.canaryAt_of_mem tMem nLt]
        refine (if_pos ⟨rfl, isBrought⟩).trans ?_
        rw [cell]
        dsimp only [Transfer.shift]
        rw [place]
        rfl
      · cases c with
        | copied a =>
            refine if_neg fun inside => ?_
            obtain ⟨isBuffer, lower, upper⟩ := inside
            dsimp only [Transfer.shift] at lower upper
            refine outside (a.2 - C.offset i) ⟨by omega, by omega⟩ ?_
            rw [← isBuffer, Nat.add_sub_cancel' (by omega)]
        | _ => rfl

theorem Brings.footprint {ks : Set Nat} {f : ImageMemory → ImageMemory}
    (brings : C.Brings i o ks f) (isImage : C.images[i]? = some o) :
    Footprint f (C.canaryTexels i ∪ C.copiedCells i) (C.copiedCells i) := by
  constructor
  · refine fun m c outside => brings.keeps m c fun k inside same => outside ?_
    exact ⟨o, isImage, k, brings.inside k inside, same⟩
  · intro m m' same c written
    by_cases brought : ∃ k ∈ ks, c = .copied (C.buffer i, C.offset i + k)
    · obtain ⟨k, inside, rfl⟩ := brought
      rw [brings.brings m k inside, brings.brings m' k inside]
      exact same _ (Or.inl ⟨o, isImage, k, brings.inside k inside, rfl⟩)
    · push Not at brought
      rw [brings.keeps m c brought, brings.keeps m' c brought]
      exact same c (Or.inr written)

/-- Transfers of one image can change places. -/
theorem Brings.commute {ks ks' : Set Nat} {f g : ImageMemory → ImageMemory}
    (brings : C.Brings i o ks f) (brings' : C.Brings i o ks' g) (m : ImageMemory) :
    f (g m) = g (f m) := by
  have texels : ∀ {ks : Set Nat} {f : ImageMemory → ImageMemory}, C.Brings i o ks f → ∀ m a,
      f m (.texel a) = m (.texel a) := fun brings m a => brings.keeps m _ fun k _ => by simp
  funext c
  by_cases first : ∃ k ∈ ks, c = .copied (C.buffer i, C.offset i + k)
  · obtain ⟨k, inside, rfl⟩ := first
    rw [brings.brings _ k inside, texels brings']
    by_cases second : k ∈ ks'
    · rw [brings'.brings _ k second, texels brings]
    · rw [brings'.keeps, brings.brings m k inside]
      intro k' inside' same
      have same' := (Prod.mk.inj (ImageCell.copied.inj same)).2
      obtain rfl : k = k' := by omega
      exact second inside'
  · push Not at first
    rw [brings.keeps _ c first]
    by_cases second : ∃ k ∈ ks', c = .copied (C.buffer i, C.offset i + k)
    · obtain ⟨k, inside, rfl⟩ := second
      rw [brings'.brings m k inside, brings'.brings _ k inside, texels brings]
    · push Not at second
      rw [brings'.keeps m c second, brings'.keeps _ c second, brings.keeps m c first]

/-! ## Repairs -/

/-- A write of the repair puts canary bytes in place. -/
structure Repairs (o : CheckedImage) (ks : Set Nat) (f : ImageMemory → ImageMemory) : Prop where
  inside : ∀ k ∈ ks, k < o.canaryLen
  repairs : ∀ m, ∀ k ∈ ks, f m (.texel (o.canaryCell k)) = POISON_FILL
  keeps : ∀ m c, (∀ k ∈ ks, c ≠ .texel (o.canaryCell k)) → f m c = m c

/-- The canary bytes in a box. -/
def bytesIn (o : CheckedImage) (box : Box) : Set Nat :=
  {k | k < o.canaryLen ∧ box.Mem (o.canaryAt k).1}

theorem mendCommand_repairs (undisturbed : C.Undisturbed) (isImage : C.images[i]? = some o)
    {n : Nat} {w : RepairWrite} (isWrite : (repairWrites o.dims)[n]? = some w) :
    Repairs o (bytesIn o w.box) (C.mendCommand i o n w).body := by
  have fits := undisturbed.image isImage
  have mem := List.mem_of_getElem? isWrite
  have source := CheckedImage.repair_sources fits w mem
  have enough : ∀ (p : Point) b, w.box.Mem p → b < o.pixel →
      w.box.index p * o.pixel + b < w.source := fun p b inBox bLt =>
    lt_of_lt_of_le (Box.mul_add_lt (Box.index_lt inBox) bLt) source
  refine ⟨fun k inside => inside.1, fun m k inside => ?_, fun m c outside => ?_⟩
  · have kLt := inside.1
    rw [CheckedImage.canaryLen_eq fits] at kLt
    have bLt := (CheckedImage.canaryAt_isCanaryPixel fits.pixels kLt).2
    exact (if_pos ⟨rfl, inside.2, bLt⟩).trans (if_pos (enough _ _ inside.2 bLt))
  · cases c with
    | texel a =>
        refine if_neg fun written => ?_
        obtain ⟨isStore, inBox, bLt⟩ := written
        have isCanary : IsCanaryPixel o.desc a.2.1 :=
          (CheckedImage.covered_iff_isCanaryPixel fits _).mp ⟨w, mem, inBox⟩
        obtain ⟨k, kLt, place⟩ := CheckedImage.exists_canaryAt isCanary bLt
        refine outside k ⟨?_, ?_⟩ ?_
        · rw [CheckedImage.canaryLen_eq fits]
          exact kLt
        · rw [place]
          exact inBox
        · rw [CheckedImage.canaryCell, place, ← isStore]
    | _ => rfl

theorem Repairs.footprint {ks : Set Nat} {f : ImageMemory → ImageMemory} (repairs : Repairs o ks f)
    (isImage : C.images[i]? = some o) : Footprint f (C.canaryTexels i) (C.canaryTexels i) := by
  constructor
  · refine fun m c outside => repairs.keeps m c fun k inside same => outside ?_
    exact ⟨o, isImage, k, repairs.inside k inside, same⟩
  · intro m m' same c written
    by_cases repaired : ∃ k ∈ ks, c = .texel (o.canaryCell k)
    · obtain ⟨k, inside, rfl⟩ := repaired
      rw [repairs.repairs m k inside, repairs.repairs m' k inside]
    · push Not at repaired
      rw [repairs.keeps m c repaired, repairs.keeps m' c repaired]
      exact same c written

/-- Writes of the repair of one image can change places. -/
theorem Repairs.commute {ks ks' : Set Nat} {f g : ImageMemory → ImageMemory}
    (repairs : Repairs o ks f) (repairs' : Repairs o ks' g) (m : ImageMemory) :
    f (g m) = g (f m) := by
  funext c
  by_cases first : ∃ k ∈ ks, c = .texel (o.canaryCell k)
  · obtain ⟨k, inside, rfl⟩ := first
    rw [repairs.repairs _ k inside]
    by_cases second : ∃ k' ∈ ks', ImageCell.texel (o.canaryCell k) = .texel (o.canaryCell k')
    · obtain ⟨k', inside', same⟩ := second
      rw [ImageCell.texel.inj same, repairs'.repairs _ k' inside']
    · push Not at second
      rw [repairs'.keeps _ _ second, repairs.repairs m k inside]
  · push Not at first
    rw [repairs.keeps _ c first]
    by_cases second : ∃ k ∈ ks', c = .texel (o.canaryCell k)
    · obtain ⟨k, inside, rfl⟩ := second
      rw [repairs'.repairs m k inside, repairs'.repairs _ k inside]
    · push Not at second
      rw [repairs'.keeps m c second, repairs'.keeps _ c second, repairs.keeps m c first]

/-! ## Launches -/

theorem checkImages_footprint (s : Schedule Nat Nat) (lens : List Nat) (i : Nat) :
    Footprint (checkImages s lens (C.buffer i)) (C.reads (.check i)) (C.writes (.check i)) := by
  constructor
  · intro m c outside
    cases c with
    | result j => exact absurd ⟨j, rfl⟩ outside
    | _ => rfl
  · rintro m m' same c ⟨j, rfl⟩
    have copies : (fun a => m (.copied (C.buffer i, a))) =
        fun a => m' (.copied (C.buffer i, a)) := funext fun a => same _ (Or.inl ⟨a, rfl⟩)
    have results : (fun k => m (.result k)) = fun k => m' (.result k) :=
      funext fun k => same _ (Or.inr ⟨k, rfl⟩)
    change runAtomics (imageAtomics s lens fun a => m (.copied (C.buffer i, a)))
      (fun k => m (.result k)) j = runAtomics (imageAtomics s lens fun a =>
        m' (.copied (C.buffer i, a))) (fun k => m' (.result k)) j
    rw [copies, results]

/-- Launches can change places. -/
theorem checkImages_commute (s s' : Schedule Nat Nat) (lens lens' : List Nat) (b b' : Nat)
    (m : ImageMemory) : checkImages s lens b (checkImages s' lens' b' m) =
      checkImages s' lens' b' (checkImages s lens b m) := by
  funext c
  cases c with
  | result j =>
      change runAtomics (imageAtomics s lens fun a => m (.copied (b, a)))
        (runAtomics (imageAtomics s' lens' fun a => m (.copied (b', a))) fun k => m (.result k)) j =
          runAtomics (imageAtomics s' lens' fun a => m (.copied (b', a)))
            (runAtomics (imageAtomics s lens fun a => m (.copied (b, a))) fun k => m (.result k)) j
      rw [runAtomics, runAtomics, runAtomics, runAtomics, ← List.foldl_append, ← List.foldl_append]
      exact congrFun (runAtomics_perm List.perm_append_comm _) j
  | _ => rfl

/-! ## Footprints -/

theorem Issued.footprint (undisturbed : C.Undisturbed) {c : Command ImageTag ImageMemory}
    (issued : C.Issued c) : Footprint c.body (C.reads c.tag) (C.writes c.tag) := by
  have idle : Footprint (id : ImageMemory → ImageMemory) ∅ ∅ :=
    ⟨fun _ _ _ => rfl, fun _ _ _ _ mem => absurd mem (Set.notMem_empty _)⟩
  cases issued with
  | fill =>
      constructor
      · intro m c outside
        cases c with
        | result j => exact if_neg fun jLt => outside ⟨j, jLt, rfl⟩
        | _ => rfl
      · rintro m m' - c ⟨j, jLt, rfl⟩
        exact (if_pos jLt).trans (if_pos jLt).symm
  | @copy i o w isImage mem =>
      rcases copyCommand_brings undisturbed isImage mem with ⟨-, idle⟩ | ⟨t, -, -, brings⟩
      · rw [idle]
        exact ⟨fun _ _ _ => rfl, fun m m' same c mem => same c (Or.inr mem)⟩
      · exact brings.footprint isImage
  | mend mends isImage isWrite =>
      exact (mendCommand_repairs undisturbed isImage isWrite).footprint isImage
  | @checkOne i o single isImage => exact checkImages_footprint (C.schedule i) [o.canaryLen] i
  | checkAll copying =>
      have first := @checkImages_footprint C (C.schedule 0) C.lens 0
      rwa [buffer, copying, if_neg Bool.false_ne_true] at first
  | read =>
      constructor
      · intro m c outside
        cases c with
        | firstChange j => exact if_neg fun jLt => outside ⟨j, jLt, rfl⟩
        | _ => rfl
      · rintro m m' same c ⟨j, jLt, rfl⟩
        refine (if_pos jLt).trans (Eq.trans ?_ (if_pos jLt).symm)
        exact same _ ⟨j, jLt, rfl⟩
  | copyFinish _ => exact idle
  | mendFinish _ _ => exact idle
  | mendMarker _ => exact idle
  | finish _ => exact idle

/-! ## Commands that touch the same cells -/

/-- Pixels, copies and results are different cells. -/
def layerOf : ImageCell → Nat
  | .texel _ => 0
  | .copied _ => 1
  | .result _ => 2
  | .firstChange _ => 3

theorem disjoint_of_layer {s t : Set ImageCell} {n : Nat} (inLayer : ∀ c ∈ s, layerOf c = n)
    (others : ∀ c ∈ t, layerOf c ≠ n) : Disjoint s t :=
  Set.disjoint_left.mpr fun c mem mem' => others c mem' (inLayer c mem)

theorem layerOf_canaryTexels {c : ImageCell} (mem : c ∈ C.canaryTexels i) : layerOf c = 0 := by
  obtain ⟨o, -, k, -, rfl⟩ := mem
  rfl

theorem layerOf_copiedCells {c : ImageCell} (mem : c ∈ C.copiedCells i) : layerOf c = 1 := by
  obtain ⟨o, -, k, -, rfl⟩ := mem
  rfl

theorem layerOf_results {c : ImageCell} (mem : c ∈ {c | ∃ j, c = ImageCell.result j}) :
    layerOf c = 2 := by
  obtain ⟨j, rfl⟩ := mem
  rfl

theorem store_inj (undisturbed : C.Undisturbed) (isImage : C.images[i]? = some o)
    (isImage' : C.images[j]? = some o') (same : o.store = o'.store) : i = j := by
  obtain ⟨iLt, -⟩ := List.getElem?_eq_some_iff.mp isImage
  have iLt' : i < (C.images.map CheckedImage.store).length := by
    rw [List.length_map]
    exact iLt
  refine (List.getElem?_inj iLt' undisturbed.apart).mp ?_
  rw [List.getElem?_map, List.getElem?_map, isImage, isImage', Option.map_some, Option.map_some,
    same]

theorem disjoint_canaryTexels (undisturbed : C.Undisturbed) (differ : i ≠ j) :
    Disjoint (C.canaryTexels i) (C.canaryTexels j) := by
  rw [Set.disjoint_left]
  rintro c ⟨o, isImage, k, -, rfl⟩ ⟨o', isImage', k', -, same⟩
  have stores := (Prod.mk.inj (ImageCell.texel.inj same)).1
  exact differ (store_inj undisturbed isImage isImage' stores)

theorem take_sum_le {lens : List Nat} {len : Nat} (isImage : lens[i]? = some len) (before : i < j) :
    (lens.take i).sum + len ≤ (lens.take j).sum := by
  have inside : (lens.take j)[i]? = some len := by
    rw [List.getElem?_take_of_lt before, isImage]
  have le := take_sum_add_le inside
  rwa [List.take_take, Nat.min_eq_left (Nat.le_of_lt before)] at le

/-- The copies of two images do not overlap. -/
theorem place_inj (undisturbed : C.Undisturbed) (isImage : C.images[i]? = some o)
    (isImage' : C.images[j]? = some o') {k k' : Nat} (kLt : k < o.canaryLen)
    (kLt' : k' < o'.canaryLen)
    (same : (C.buffer i, C.offset i + k) = (C.buffer j, C.offset j + k')) : i = j ∧ k = k' := by
  obtain ⟨sameBuffer, samePlace⟩ := Prod.mk.inj same
  cases strategy : C.single with
  | true =>
      rw [buffer, buffer, strategy, if_pos rfl, if_pos rfl] at sameBuffer
      rw [offset, offset, strategy, if_pos rfl, if_pos rfl] at samePlace
      omega
  | false =>
      rw [offset_eq undisturbed isImage strategy,
        offset_eq undisturbed isImage' strategy] at samePlace
      rcases Nat.lt_trichotomy i j with before | rfl | after
      · have le := take_sum_le (lens_getElem? isImage) before
        omega
      · omega
      · have le := take_sum_le (lens_getElem? isImage') after
        omega

theorem disjoint_copiedCells (undisturbed : C.Undisturbed) (differ : i ≠ j) :
    Disjoint (C.copiedCells i) (C.copiedCells j) := by
  rw [Set.disjoint_left]
  rintro c ⟨o, isImage, k, kLt, rfl⟩ ⟨o', isImage', k', kLt', same⟩
  exact differ (place_inj undisturbed isImage isImage' kLt kLt' (ImageCell.copied.inj same)).1

/-! ## What waits for what -/

abbrev After (C : ImageCheck) (t needed : ImageTag) : Prop :=
  Relation.TransGen (Needs C.inOrder C.script) t needed

variable {c d : Command ImageTag ImageMemory}

theorem images_ne_nil (isImage : C.images[i]? = some o) : C.images ≠ [] := by
  rintro none
  rw [none] at isImage
  contradiction

theorem image_zero (some' : C.images ≠ []) : ∃ o, C.images[0]? = some o :=
  image_of_lt (List.length_pos_of_ne_nil some')

theorem needs_of_wait {t : ImageTag} (some' : C.images ≠ []) (issued : C.Issued d)
    (wait : t ∈ d.waits) : Needs C.inOrder C.script d.tag t :=
  ⟨d, List.mem_append_right _ ((mem_enqueues_iff some').mpr issued), rfl, Or.inl wait⟩

theorem copy_after {w : SlotWrite} (isImage : C.images[i]? = some o)
    (mem : w ∈ copyImageCanaries .machine o.memObj (C.offset i)) : C.After (.copy i w.slot) C.evt :=
  .single (needs_of_wait (images_ne_nil isImage) (.copy isImage mem) (List.mem_singleton_self _))

/-- The marker behind the transfers waits for each of them. -/
theorem copyFinish_after (undisturbed : C.Undisturbed) {w : SlotWrite}
    (isImage : C.images[i]? = some o)
    (mem : w ∈ copyImageCanaries .machine o.memObj (C.offset i)) :
    C.After (.copyFinish i) (.copy i w.slot) := by
  refine .single (needs_of_wait (images_ne_nil isImage) (.copyFinish isImage) ?_)
  refine List.mem_map_of_mem ?_
  rw [← copyTransfers_slot undisturbed isImage]
  exact List.mem_map_of_mem mem

theorem mend_after {n : Nat} {w : RepairWrite} (mends : C.errorEnv = false)
    (isImage : C.images[i]? = some o) (isWrite : (repairWrites o.dims)[n]? = some w) :
    C.After (.mend i n) (.copyFinish i) :=
  .single (needs_of_wait (images_ne_nil isImage) (.mend mends isImage isWrite)
    (List.mem_singleton_self _))

/-- The marker behind the repair is on the queue of the repair. -/
theorem mendFinish_after {n : Nat} {w : RepairWrite} (mends : C.errorEnv = false)
    (isImage : C.images[i]? = some o) (isWrite : (repairWrites o.dims)[n]? = some w) :
    C.After (.mendFinish i) (.mend i n) := by
  refine .single (needs_of_wait (images_ne_nil isImage) (.mendFinish mends isImage) ?_)
  refine List.mem_map.mpr ⟨C.mendCommand i o n w, List.mem_filter.mpr ⟨?_, ?_⟩, rfl⟩
  · exact List.mem_append_right _ (mem_mendWrites_iff.mpr ⟨n, w, isWrite, rfl⟩)
  · exact decide_eq_true rfl

/-- So it comes after the transfers, since there is something to repair. -/
theorem mendFinish_after_copyFinish (undisturbed : C.Undisturbed) (mends : C.errorEnv = false)
    (isImage : C.images[i]? = some o) : C.After (.mendFinish i) (.copyFinish i) := by
  have some' := CheckedImage.repairWrites_ne_nil (undisturbed.image isImage)
  obtain ⟨w, isWrite⟩ : ∃ w, (repairWrites o.dims)[0]? = some w :=
    ⟨_, List.getElem?_eq_getElem (List.length_pos_of_ne_nil some')⟩
  exact (mendFinish_after mends isImage isWrite).trans (mend_after mends isImage isWrite)

/-- The launch for an image. -/
theorem check_after (undisturbed : C.Undisturbed) (isImage : C.images[i]? = some o) :
    C.After (.check (C.buffer i)) .fill ∧ C.After (.check (C.buffer i)) (.copyFinish i) := by
  have some' := images_ne_nil isImage
  obtain ⟨iLt, -⟩ := List.getElem?_eq_some_iff.mp isImage
  cases strategy : C.single with
  | true =>
      rw [buffer, strategy, if_pos rfl]
      have issued : C.Issued (C.checkOne i o) := .checkOne strategy isImage
      refine ⟨.single (needs_of_wait some' issued List.mem_cons_self), ?_⟩
      cases keeps : C.errorEnv with
      | true =>
          refine .single (needs_of_wait some' issued ?_)
          rw [checkOne, keeps, if_pos rfl]
          exact List.mem_cons_of_mem _ (List.mem_singleton_self _)
      | false =>
          have waits : Needs C.inOrder C.script (.check i) (.mendFinish i) := by
            refine needs_of_wait some' issued ?_
            rw [checkOne, keeps, if_neg Bool.false_ne_true]
            exact List.mem_cons_of_mem _ (List.mem_singleton_self _)
          exact (Relation.TransGen.single waits).trans
            (mendFinish_after_copyFinish undisturbed keeps isImage)
  | false =>
      rw [buffer, strategy, if_neg Bool.false_ne_true]
      have issued : C.Issued C.checkAll := .checkAll strategy
      exact ⟨.single (needs_of_wait some' issued
        (List.mem_append_right _ (List.mem_singleton_self _))),
        .single (needs_of_wait some' issued
          (List.mem_append_left _ (List.mem_map_of_mem (List.mem_range.mpr iLt))))⟩

/-- The read waits for the launches and for the repairs. -/
theorem read_after_check (isImage : C.images[i]? = some o) :
    C.After .read (.check (C.buffer i)) := by
  have some' := images_ne_nil isImage
  obtain ⟨iLt, -⟩ := List.getElem?_eq_some_iff.mp isImage
  cases strategy : C.single with
  | true =>
      refine .single (needs_of_wait some' .read ?_)
      rw [readCommand, strategy, if_pos rfl, buffer, strategy, if_pos rfl]
      exact List.mem_map_of_mem (List.mem_range.mpr iLt)
  | false =>
      have read : Needs C.inOrder C.script .read .finish := by
        refine needs_of_wait some' .read ?_
        rw [readCommand, strategy, if_neg Bool.false_ne_true]
        exact List.mem_singleton_self _
      rw [buffer, strategy, if_neg Bool.false_ne_true]
      exact (Relation.TransGen.single read).tail (needs_of_wait some' (.finish strategy)
        (List.mem_cons_of_mem _ (List.mem_singleton_self _)))

theorem read_after_mendFinish (mends : C.errorEnv = false) (isImage : C.images[i]? = some o) :
    C.After .read (.mendFinish i) := by
  have some' := images_ne_nil isImage
  obtain ⟨iLt, -⟩ := List.getElem?_eq_some_iff.mp isImage
  cases strategy : C.single with
  | true =>
      have check := read_after_check isImage
      rw [buffer, strategy, if_pos rfl] at check
      refine check.tail (needs_of_wait some' (.checkOne strategy isImage) ?_)
      rw [checkOne, mends, if_neg Bool.false_ne_true]
      exact List.mem_cons_of_mem _ (List.mem_singleton_self _)
  | false =>
      have read : Needs C.inOrder C.script .read .finish := by
        refine needs_of_wait some' .read ?_
        rw [readCommand, strategy, if_neg Bool.false_ne_true]
        exact List.mem_singleton_self _
      have finish : Needs C.inOrder C.script .finish .mendMarker :=
        needs_of_wait some' (.finish strategy) List.mem_cons_self
      refine ((Relation.TransGen.single read).tail finish).tail
        (needs_of_wait some' (.mendMarker strategy) ?_)
      rw [mendMarker, mends, if_neg Bool.false_ne_true]
      exact List.mem_map_of_mem (List.mem_range.mpr iLt)

/-! ## One order for all runs -/

/-- The transfers, without their markers. -/
def copyList (C : ImageCheck) : List (Command ImageTag ImageMemory) := C.perImage C.copyTransfers

/-- The repairs, without their markers. -/
def mendList (C : ImageCheck) : List (Command ImageTag ImageMemory) :=
  if C.errorEnv then [] else C.perImage C.mendWrites

/-- The commands after the fill, the transfers before all repairs. -/
def afterFill (C : ImageCheck) : List (Command ImageTag ImageMemory) :=
  C.copyList ++ (C.mendList ++ (C.checkCommands ++ [C.readCommand]))

theorem mem_copyList_iff : c ∈ C.copyList ↔ ∃ i o, C.images[i]? = some o ∧
    ∃ w ∈ copyImageCanaries .machine o.memObj (C.offset i), c = C.copyCommand i o w := by
  simp only [copyList, mem_perImage_iff, copyTransfers, List.mem_map, eq_comm]

theorem mem_mendList_iff : c ∈ C.mendList ↔ C.errorEnv = false ∧
    ∃ i o, C.images[i]? = some o ∧
      ∃ n w, (repairWrites o.dims)[n]? = some w ∧ c = C.mendCommand i o n w := by
  rw [mendList]
  split_ifs with keeps
  · simp [keeps]
  · rw [and_iff_right (Bool.eq_false_of_not_eq_true keeps)]
    simp only [mem_perImage_iff, mem_mendWrites_iff]

/-- A launch, with an image that it is for. -/
theorem mem_checkCommands (some' : C.images ≠ []) (mem : c ∈ C.checkCommands) :
    C.Issued c ∧ (∃ i o, C.images[i]? = some o ∧ c.tag = .check (C.buffer i)) ∧
      ∃ s lens b, c.body = checkImages s lens b := by
  rw [checkCommands] at mem
  split_ifs at mem with single
  · obtain ⟨i, o, isImage, mem⟩ := mem_perImage_iff.mp mem
    rw [List.mem_singleton.mp mem]
    refine ⟨.checkOne single isImage, ⟨i, o, isImage, ?_⟩, _, _, _, rfl⟩
    rw [buffer, if_pos single]
    rfl
  · rw [List.mem_singleton.mp mem]
    have copying := Bool.eq_false_of_not_eq_true single
    obtain ⟨o, isImage⟩ := image_zero some'
    refine ⟨.checkAll copying, ⟨0, o, isImage, ?_⟩, _, _, _, rfl⟩
    rw [buffer, if_neg single]
    rfl

theorem mem_afterFill_iff : c ∈ C.afterFill ↔
    c ∈ C.copyList ∨ c ∈ C.mendList ∨ c ∈ C.checkCommands ∨ c = C.readCommand := by
  rw [afterFill]
  simp

theorem issued_of_mem (some' : C.images ≠ []) (mem : c ∈ C.fillCommand :: C.afterFill) :
    C.Issued c := by
  rcases List.mem_cons.mp mem with rfl | mem
  · exact .fill
  · rcases mem_afterFill_iff.mp mem with mem | mem | mem | rfl
    · obtain ⟨i, o, isImage, w, wMem, rfl⟩ := mem_copyList_iff.mp mem
      exact .copy isImage wMem
    · obtain ⟨mends, i, o, isImage, n, w, isWrite, rfl⟩ := mem_mendList_iff.mp mem
      exact .mend mends isImage isWrite
    · exact (mem_checkCommands some' mem).1
    · exact .read

/-- Everything but the fill waits for the kernel of the application. -/
theorem after_evt (undisturbed : C.Undisturbed) (some' : C.images ≠ []) (mem : c ∈ C.afterFill) :
    C.After c.tag C.evt := by
  have copied : ∀ i o, C.images[i]? = some o → C.After (.copyFinish i) C.evt := by
    intro i o isImage
    obtain ⟨w, isTransfer⟩ := CheckedImage.exists_copyImageCanaries (undisturbed.image isImage)
      (offset_room undisturbed isImage)
    exact (copyFinish_after undisturbed isImage isTransfer).trans (copy_after isImage isTransfer)
  have checked : ∀ i o, C.images[i]? = some o → C.After (.check (C.buffer i)) C.evt :=
    fun i o isImage => (check_after undisturbed isImage).2.trans (copied i o isImage)
  rcases mem_afterFill_iff.mp mem with mem | mem | mem | rfl
  · obtain ⟨i, o, isImage, w, wMem, rfl⟩ := mem_copyList_iff.mp mem
    exact copy_after isImage wMem
  · obtain ⟨mends, i, o, isImage, n, w, isWrite, rfl⟩ := mem_mendList_iff.mp mem
    exact (mend_after mends isImage isWrite).trans (copied i o isImage)
  · obtain ⟨-, ⟨i, o, isImage, isTag⟩, -⟩ := mem_checkCommands some' mem
    rw [isTag]
    exact checked i o isImage
  · obtain ⟨o, isImage⟩ := image_zero some'
    exact (read_after_check isImage).trans (checked 0 o isImage)

/-- The read comes last. -/
theorem read_after (undisturbed : C.Undisturbed) (some' : C.images ≠ [])
    (mem : c ∈ C.fillCommand :: C.afterFill) : c = C.readCommand ∨ C.After .read c.tag := by
  have copied : ∀ i o, C.images[i]? = some o → C.After .read (.copyFinish i) :=
    fun i o isImage => (read_after_check isImage).trans (check_after undisturbed isImage).2
  rcases List.mem_cons.mp mem with rfl | mem
  · obtain ⟨o, isImage⟩ := image_zero some'
    exact Or.inr ((read_after_check isImage).trans (check_after undisturbed isImage).1)
  rcases mem_afterFill_iff.mp mem with mem | mem | mem | rfl
  · obtain ⟨i, o, isImage, w, wMem, rfl⟩ := mem_copyList_iff.mp mem
    exact Or.inr ((copied i o isImage).trans (copyFinish_after undisturbed isImage wMem))
  · obtain ⟨mends, i, o, isImage, n, w, isWrite, rfl⟩ := mem_mendList_iff.mp mem
    exact Or.inr ((read_after_mendFinish mends isImage).trans
      (mendFinish_after mends isImage isWrite))
  · obtain ⟨-, ⟨i, o, isImage, isTag⟩, -⟩ := mem_checkCommands some' mem
    rw [isTag]
    exact Or.inr (read_after_check isImage)
  · exact Or.inl rfl

theorem nodup_copyList (undisturbed : C.Undisturbed) : (C.copyList.map Command.tag).Nodup := by
  refine nodup_perImage (fun i o isImage => ?_) fun i o isImage t mem => ?_
  · rw [copyTransfers_tags undisturbed isImage]
    exact List.nodup_range.map fun j k same => (ImageTag.copy.inj same).2
  · rw [copyTransfers_tags undisturbed isImage] at mem
    obtain ⟨slot, -, rfl⟩ := List.mem_map.mp mem
    rfl

theorem nodup_mendList : (C.mendList.map Command.tag).Nodup := by
  rw [mendList]
  split_ifs
  · exact List.nodup_nil
  · refine nodup_perImage (fun i o isImage => ?_) fun i o isImage t mem => ?_
    · rw [mendWrites_tags]
      exact List.nodup_range.map fun j k same => (ImageTag.mend.inj same).2
    · rw [mendWrites_tags] at mem
      obtain ⟨n, -, rfl⟩ := List.mem_map.mp mem
      rfl

theorem nodup_checkCommands : (C.checkCommands.map Command.tag).Nodup := by
  rw [checkCommands]
  split_ifs
  · refine nodup_perImage (fun i o isImage => List.nodup_singleton _) fun i o isImage t mem => ?_
    rw [List.mem_singleton.mp mem]
    rfl
  · exact List.nodup_singleton _

theorem nodup_afterFill (undisturbed : C.Undisturbed) (some' : C.images ≠ []) :
    (C.fillCommand :: C.afterFill).Nodup := by
  have copies : ∀ t ∈ C.copyList.map Command.tag, ∃ i slot, t = .copy i slot := by
    intro t mem
    obtain ⟨c, cMem, rfl⟩ := List.mem_map.mp mem
    obtain ⟨i, o, -, w, -, rfl⟩ := mem_copyList_iff.mp cMem
    exact ⟨i, w.slot, rfl⟩
  have mends : ∀ t ∈ C.mendList.map Command.tag, ∃ i n, t = .mend i n := by
    intro t mem
    obtain ⟨c, cMem, rfl⟩ := List.mem_map.mp mem
    obtain ⟨-, i, o, -, n, w, -, rfl⟩ := mem_mendList_iff.mp cMem
    exact ⟨i, n, rfl⟩
  have checks : ∀ t ∈ C.checkCommands.map Command.tag, ∃ i, t = .check i := by
    intro t mem
    obtain ⟨c, cMem, rfl⟩ := List.mem_map.mp mem
    obtain ⟨-, ⟨i, o, -, isTag⟩, -⟩ := mem_checkCommands some' cMem
    exact ⟨_, isTag⟩
  apply List.Nodup.of_map Command.tag
  rw [List.map_cons, afterFill, List.map_append, List.map_append, List.map_append]
  refine List.nodup_cons.mpr ⟨fun mem => ?_, (nodup_copyList undisturbed).append
    (nodup_mendList.append (nodup_checkCommands.append (List.nodup_singleton _) ?_) ?_) ?_⟩
  · rcases List.mem_append.mp mem with mem | mem
    · obtain ⟨i, slot, same⟩ := copies _ mem
      contradiction
    · rcases List.mem_append.mp mem with mem | mem
      · obtain ⟨i, n, same⟩ := mends _ mem
        contradiction
      · rcases List.mem_append.mp mem with mem | mem
        · obtain ⟨i, same⟩ := checks _ mem
          contradiction
        · exact absurd (List.mem_singleton.mp mem) ImageTag.noConfusion
  · intro t mem mem'
    obtain ⟨i, rfl⟩ := checks t mem
    exact absurd (List.mem_singleton.mp mem') ImageTag.noConfusion
  · intro t mem mem'
    obtain ⟨i, n, rfl⟩ := mends t mem
    rcases List.mem_append.mp mem' with mem' | mem'
    · obtain ⟨i, same⟩ := checks _ mem'
      contradiction
    · exact absurd (List.mem_singleton.mp mem') ImageTag.noConfusion
  · intro t mem mem'
    obtain ⟨i, slot, rfl⟩ := copies t mem
    rcases List.mem_append.mp mem' with mem' | mem'
    · obtain ⟨i, n, same⟩ := mends _ mem'
      contradiction
    · rcases List.mem_append.mp mem' with mem' | mem'
      · obtain ⟨i, same⟩ := checks _ mem'
        contradiction
      · exact absurd (List.mem_singleton.mp mem') ImageTag.noConfusion

/-- A command commutes with a later one, or comes before it. -/
abbrev Before (C : ImageCheck) (c d : Command ImageTag ImageMemory) : Prop :=
  Commute Command.body (AgreeOn C.cells) c d ∨ C.After d.tag c.tag

theorem before_of_eq (commutes : ∀ m, c.body (d.body m) = d.body (c.body m)) : C.Before c d := by
  refine Or.inl fun m => ?_
  rw [commutes m]
  exact (agreeOn_equivalence _).refl _

/-- Commands that touch different cells. -/
theorem before_of_disjoint (undisturbed : C.Undisturbed) (issued : C.Issued c)
    (issued' : C.Issued d) (writesApart : Disjoint (C.writes c.tag) (C.writes d.tag))
    (readsApart : Disjoint (C.reads c.tag) (C.writes d.tag))
    (readsApart' : Disjoint (C.reads d.tag) (C.writes c.tag)) : C.Before c d :=
  before_of_eq ((issued.footprint undisturbed).commute (issued'.footprint undisturbed) writesApart
    readsApart readsApart')

/-- The fill comes before the launches and the read. -/
theorem before_fill (undisturbed : C.Undisturbed) (some' : C.images ≠ []) (mem : d ∈ C.afterFill) :
    C.Before C.fillCommand d := by
  have issued' := issued_of_mem some' (List.mem_cons_of_mem _ mem)
  have results : ∀ c ∈ C.writes .fill, layerOf c = 2 := by
    rintro c ⟨j, -, rfl⟩
    rfl
  rcases mem_afterFill_iff.mp mem with mem | mem | mem | rfl
  · obtain ⟨i, o, isImage, w, wMem, rfl⟩ := mem_copyList_iff.mp mem
    refine before_of_disjoint undisturbed .fill issued' (disjoint_of_layer results fun c mem => ?_)
      (Set.empty_disjoint _) (disjoint_of_layer results fun c mem => ?_).symm
    · rw [layerOf_copiedCells mem]
      decide
    · rcases mem with mem | mem
      · rw [layerOf_canaryTexels mem]
        decide
      · rw [layerOf_copiedCells mem]
        decide
  · obtain ⟨mends, i, o, isImage, n, w, isWrite, rfl⟩ := mem_mendList_iff.mp mem
    refine before_of_disjoint undisturbed .fill issued' (disjoint_of_layer results fun c mem => ?_)
      (Set.empty_disjoint _) (disjoint_of_layer results fun c mem => ?_).symm <;>
    · rw [layerOf_canaryTexels mem]
      decide
  · obtain ⟨-, ⟨i, o, isImage, isTag⟩, -⟩ := mem_checkCommands some' mem
    refine Or.inr ?_
    rw [isTag]
    exact (check_after undisturbed isImage).1
  · obtain ⟨o, isImage⟩ := image_zero some'
    exact Or.inr ((read_after_check isImage).trans (check_after undisturbed isImage).1)

/-- A transfer comes before the repair of its image and before its launch. -/
theorem before_copy (undisturbed : C.Undisturbed) {w : SlotWrite}
    (isImage : C.images[i]? = some o)
    (wMem : w ∈ copyImageCanaries .machine o.memObj (C.offset i)) (mem : d ∈ C.afterFill) :
    C.Before (C.copyCommand i o w) d := by
  have some' := images_ne_nil isImage
  have issued : C.Issued (C.copyCommand i o w) := .copy isImage wMem
  have issued' := issued_of_mem some' (List.mem_cons_of_mem _ mem)
  have copied := copyFinish_after undisturbed isImage wMem
  have apart : ∀ {s : Set ImageCell}, (∀ c ∈ s, layerOf c ≠ 1) → Disjoint (C.copiedCells i) s :=
    fun others => disjoint_of_layer (fun c => layerOf_copiedCells) others
  rcases mem_afterFill_iff.mp mem with mem | mem | mem | rfl
  · obtain ⟨j, o', isImage', w', wMem', rfl⟩ := mem_copyList_iff.mp mem
    by_cases same : i = j
    · obtain rfl := same
      obtain rfl := Option.some.inj (isImage.symm.trans isImage')
      refine before_of_eq fun m => ?_
      rcases copyCommand_brings undisturbed isImage wMem with ⟨-, idle⟩ | ⟨t, -, -, brings⟩
      · rw [idle]
        rfl
      · rcases copyCommand_brings undisturbed isImage wMem' with ⟨-, idle⟩ | ⟨t', -, -, brings'⟩
        · rw [idle]
          rfl
        · exact brings.commute brings' m
    · have texels : ∀ {i j}, Disjoint (C.canaryTexels i) (C.copiedCells j) := fun {i j} =>
        disjoint_of_layer (fun c => layerOf_canaryTexels) fun c mem => by
          rw [layerOf_copiedCells mem]
          decide
      exact before_of_disjoint undisturbed issued issued' (disjoint_copiedCells undisturbed same)
        (Set.disjoint_union_left.mpr ⟨texels, disjoint_copiedCells undisturbed same⟩)
        (Set.disjoint_union_left.mpr ⟨texels, (disjoint_copiedCells undisturbed same).symm⟩)
  · obtain ⟨mends, j, o', isImage', n, w', isWrite, rfl⟩ := mem_mendList_iff.mp mem
    by_cases same : i = j
    · obtain rfl := same
      exact Or.inr ((mend_after mends isImage' isWrite).trans copied)
    · have texels : ∀ j, ∀ c ∈ C.canaryTexels j, layerOf c ≠ 1 := fun j c mem => by
        rw [layerOf_canaryTexels mem]
        decide
      exact before_of_disjoint undisturbed issued issued' (apart (texels j))
        (Set.disjoint_union_left.mpr ⟨disjoint_canaryTexels undisturbed same, apart (texels j)⟩)
        (apart (texels j)).symm
  · obtain ⟨-, ⟨j, o', isImage', isTag⟩, -⟩ := mem_checkCommands some' mem
    by_cases same : C.buffer i = C.buffer j
    · refine Or.inr ?_
      rw [isTag, ← same]
      exact (check_after undisturbed isImage).2.trans copied
    · have results : ∀ c ∈ {c | ∃ k, c = ImageCell.result k}, layerOf c ≠ 1 := fun c mem => by
        rw [layerOf_results mem]
        decide
      have single : C.single = true := by
        by_contra copying
        exact same (by rw [buffer, buffer, if_neg copying, if_neg copying])
      have own : ∀ j, C.buffer j = j := fun j => if_pos single
      refine before_of_disjoint undisturbed issued issued' ?_ ?_ ?_ <;> rw [isTag]
      · exact apart results
      · refine Set.disjoint_union_left.mpr ⟨disjoint_of_layer (fun c => layerOf_canaryTexels)
          fun c mem => ?_, apart results⟩
        rw [layerOf_results mem]
        decide
      · refine Set.disjoint_union_left.mpr ⟨?_, (apart results).symm⟩
        rw [Set.disjoint_left]
        rintro c ⟨a, rfl⟩ ⟨o'', -, k, -, same'⟩
        have buffers := (Prod.mk.inj (ImageCell.copied.inj same')).1
        rw [own (C.buffer j)] at buffers
        exact same buffers.symm
  · exact Or.inr ((read_after_check isImage).trans
      ((check_after undisturbed isImage).2.trans copied))

/-- Repairs touch what neither launches nor the read touch. -/
theorem before_mend (undisturbed : C.Undisturbed) {n : Nat} {w : RepairWrite}
    (mends : C.errorEnv = false) (isImage : C.images[i]? = some o)
    (isWrite : (repairWrites o.dims)[n]? = some w)
    (mem : d ∈ C.mendList ++ (C.checkCommands ++ [C.readCommand])) :
    C.Before (C.mendCommand i o n w) d := by
  have some' := images_ne_nil isImage
  have issued : C.Issued (C.mendCommand i o n w) := .mend mends isImage isWrite
  have issued' := issued_of_mem some' (List.mem_cons_of_mem _ (List.mem_append_right _ mem))
  have apart : ∀ {s : Set ImageCell}, (∀ c ∈ s, layerOf c ≠ 0) → Disjoint (C.canaryTexels i) s :=
    fun others => disjoint_of_layer (fun c => layerOf_canaryTexels) others
  rcases List.mem_append.mp mem with mem | mem
  · obtain ⟨-, j, o', isImage', n', w', isWrite', rfl⟩ := mem_mendList_iff.mp mem
    by_cases same : i = j
    · obtain rfl := same
      obtain rfl := Option.some.inj (isImage.symm.trans isImage')
      exact before_of_eq ((mendCommand_repairs undisturbed isImage isWrite).commute
        (mendCommand_repairs undisturbed isImage isWrite'))
    · have texels := disjoint_canaryTexels undisturbed same
      exact before_of_disjoint undisturbed issued issued' texels texels texels.symm
  · rcases List.mem_append.mp mem with mem | mem
    · obtain ⟨-, ⟨j, o', isImage', isTag⟩, -⟩ := mem_checkCommands some' mem
      have results : ∀ c ∈ {c | ∃ k, c = ImageCell.result k}, layerOf c ≠ 0 := fun c mem => by
        rw [layerOf_results mem]
        decide
      refine before_of_disjoint undisturbed issued issued' ?_ ?_ ?_ <;> rw [isTag]
      · exact apart results
      · exact apart results
      · refine Set.disjoint_union_left.mpr ⟨(apart ?_).symm, (apart results).symm⟩
        rintro c ⟨a, rfl⟩
        exact (by decide : 1 ≠ 0)
    · rw [List.mem_singleton.mp mem]
      refine before_of_disjoint undisturbed issued .read (apart ?_) (apart ?_) (apart ?_).symm
      · rintro c ⟨k, -, rfl⟩
        exact (by decide : 3 ≠ 0)
      · rintro c ⟨k, -, rfl⟩
        exact (by decide : 3 ≠ 0)
      · rintro c ⟨k, -, rfl⟩
        exact (by decide : 2 ≠ 0)

/-- Every command comes before those that it interferes with. -/
theorem pairwise_before (undisturbed : C.Undisturbed) (some' : C.images ≠ []) :
    (C.fillCommand :: C.afterFill).Pairwise C.Before := by
  refine List.pairwise_cons.mpr ⟨fun d mem => before_fill undisturbed some' mem,
    List.pairwise_append.mpr ⟨?_, List.pairwise_append.mpr ⟨?_,
      List.pairwise_append.mpr ⟨?_, List.pairwise_singleton _ _, ?_⟩, ?_⟩, ?_⟩⟩
  · refine List.pairwise_of_forall_mem_list fun c mem d mem' => ?_
    obtain ⟨i, o, isImage, w, wMem, rfl⟩ := mem_copyList_iff.mp mem
    exact before_copy undisturbed isImage wMem (List.mem_append_left _ mem')
  · refine List.pairwise_of_forall_mem_list fun c mem d mem' => ?_
    obtain ⟨mends, i, o, isImage, n, w, isWrite, rfl⟩ := mem_mendList_iff.mp mem
    exact before_mend undisturbed mends isImage isWrite (List.mem_append_left _ mem')
  · refine List.pairwise_of_forall_mem_list fun c mem d mem' => before_of_eq fun m => ?_
    obtain ⟨-, -, s, lens, b, isLaunch⟩ := mem_checkCommands some' mem
    obtain ⟨-, -, s', lens', b', isLaunch'⟩ := mem_checkCommands some' mem'
    rw [isLaunch, isLaunch']
    exact checkImages_commute s s' lens lens' b b' m
  · intro c mem d mem'
    obtain ⟨-, ⟨i, o, isImage, isTag⟩, -⟩ := mem_checkCommands some' mem
    refine Or.inr ?_
    rw [List.mem_singleton.mp mem', isTag]
    exact read_after_check isImage
  · intro c mem d mem'
    obtain ⟨mends, i, o, isImage, n, w, isWrite, rfl⟩ := mem_mendList_iff.mp mem
    exact before_mend undisturbed mends isImage isWrite (List.mem_append_right _ mem')
  · intro c mem d mem'
    obtain ⟨i, o, isImage, w, wMem, rfl⟩ := mem_copyList_iff.mp mem
    exact before_copy undisturbed isImage wMem (List.mem_append_right _ mem')

/-! ## What a run leaves -/

/-- The results that were filled stay so until a launch. -/
theorem filled (undisturbed : C.Undisturbed) (some' : C.images ≠ []) {memory : ImageMemory}
    {m : Machine ImageTag ImageMemory}
    (runs : Runs C.inOrder (begin memory C.pending C.verifyClImages) m) (done : .fill ∈ m.done)
    (unchecked : ∀ i, .check i ∉ m.done) :
    ∀ i < C.numImages, m.memory (.result i) = INT_MAX := by
  have one : AgreeOn {c | ∃ i < C.numImages, c = .result i} m.memory
      (C.fillCommand.body memory) := by
    refine runs.settled (agreeOn_equivalence _) (distinct_script undisturbed)
      (List.mem_append_right _ ((mem_enqueues_iff some').mpr .fill)) done ?_ ?_
    · rintro memory' memory'' - c' ⟨i, iLt, rfl⟩
      exact (if_pos iLt).trans (if_pos iLt).symm
    · intro c mem other isDone memory'
      rcases List.mem_append.mp mem with mem | mem
      · rintro c' ⟨i, -, rfl⟩
        exact ((undisturbed.unaware c mem memory').2 i).1
      · have issued := (mem_enqueues_iff some').mp mem
        refine (issued.footprint undisturbed).hidden (Set.disjoint_left.mpr ?_) memory'
        rintro c' ⟨i, -, rfl⟩ written
        cases issued with
        | fill => exact other rfl
        | copy _ _ => exact absurd (layerOf_copiedCells written) (by decide : (2 : Nat) ≠ 1)
        | mend _ _ _ => exact absurd (layerOf_canaryTexels written) (by decide : (2 : Nat) ≠ 0)
        | checkOne _ _ => exact unchecked _ isDone
        | checkAll _ => exact unchecked _ isDone
        | read =>
            obtain ⟨j, -, same⟩ := written
            contradiction
        | copyFinish _ => exact written
        | mendFinish _ _ => exact written
        | mendMarker _ => exact written
        | finish _ => exact written
  intro i iLt
  exact (one _ ⟨i, iLt, rfl⟩).trans (if_pos iLt)

theorem canaryTexels_subset : C.canaryTexels i ⊆ C.cells := by
  rintro c ⟨o, isImage, k, kLt, rfl⟩
  exact ⟨o, List.mem_of_getElem? isImage, k, kLt, rfl⟩

theorem copiedCells_subset : C.copiedCells i ⊆ C.cells := by
  rintro c ⟨o, -, k, -, rfl⟩
  trivial

/-- A check looks at what its commands read and write. -/
theorem reads_subset (t : ImageTag) : C.reads t ⊆ C.cells := by
  cases t with
  | copy => exact Set.union_subset canaryTexels_subset copiedCells_subset
  | mend => exact canaryTexels_subset
  | check =>
      refine Set.union_subset ?_ ?_ <;>
      · rintro c ⟨a, rfl⟩
        trivial
  | read =>
      rintro c ⟨j, -, rfl⟩
      trivial
  | _ => exact Set.empty_subset _

theorem writes_subset (t : ImageTag) : C.writes t ⊆ C.cells := by
  cases t with
  | copy => exact copiedCells_subset
  | mend => exact canaryTexels_subset
  | check =>
      rintro c ⟨j, rfl⟩
      trivial
  | fill | read =>
      rintro c ⟨j, -, rfl⟩
      trivial
  | _ => exact Set.empty_subset _

/-- A command that is not in the order writes nothing. -/
theorem mem_order_of_issued (issued : C.Issued c) :
    c ∈ C.fillCommand :: C.afterFill ∨ C.writes c.tag = ∅ := by
  have inTail : ∀ {c}, c ∈ C.copyList ∨ c ∈ C.mendList ∨ c ∈ C.checkCommands ∨
      c = C.readCommand → c ∈ C.fillCommand :: C.afterFill ∨ C.writes c.tag = ∅ :=
    fun mem => Or.inl (List.mem_cons_of_mem _ (mem_afterFill_iff.mpr mem))
  cases issued with
  | fill => exact Or.inl List.mem_cons_self
  | copy isImage mem => exact inTail (Or.inl (mem_copyList_iff.mpr ⟨_, _, isImage, _, mem, rfl⟩))
  | mend mends isImage isWrite =>
      exact inTail (Or.inr (Or.inl (mem_mendList_iff.mpr
        ⟨mends, _, _, isImage, _, _, isWrite, rfl⟩)))
  | checkOne single isImage =>
      refine inTail (Or.inr (Or.inr (Or.inl ?_)))
      rw [checkCommands, if_pos single]
      exact mem_perImage_iff.mpr ⟨_, _, isImage, List.mem_singleton_self _⟩
  | checkAll copying =>
      refine inTail (Or.inr (Or.inr (Or.inl ?_)))
      rw [checkCommands, copying, if_neg Bool.false_ne_true]
      exact List.mem_singleton_self _
  | read => exact inTail (Or.inr (Or.inr (Or.inr rfl)))
  | _ => exact Or.inr rfl

/-- The check is a protocol behind the pending commands. -/
theorem protocol (undisturbed : C.Undisturbed) (some' : C.images ≠ []) :
    Protocol C.inOrder C.pending C.verifyClImages (AgreeOn C.cells) C.evt C.fillCommand
      C.afterFill := by
  constructor
  case distinct => exact distinct_script undisturbed
  case once => exact nodup_afterFill undisturbed some'
  case enqueued => exact fun c mem => (mem_enqueues_iff some').mpr (issued_of_mem some' mem)
  case behind => exact fun c mem => after_evt undisturbed some' mem
  case unaware =>
    intro c mem notEvt notNeeded memory
    have unaware := undisturbed.unaware c mem memory
    rintro (a | a | i | i) inside
    · obtain ⟨o, oMem, k, kLt, rfl⟩ := inside
      have fits := undisturbed.fits o oMem
      rw [CheckedImage.canaryLen_eq fits] at kLt
      obtain ⟨isCanary, bLt⟩ := CheckedImage.canaryAt_isCanaryPixel fits.pixels kLt
      exact undisturbed.alone c mem notEvt notNeeded memory o oMem _ isCanary _ bLt
    · exact unaware.1 a
    · exact (unaware.2 i).1
    · exact (unaware.2 i).2
  case hidden =>
    intro c mem other memory
    have issued := (mem_enqueues_iff some').mp mem
    refine (issued.footprint undisturbed).hidden ?_ memory
    rw [(mem_order_of_issued issued).resolve_left other]
    exact Set.disjoint_empty _
  case respects =>
    intro c mem memory memory' same
    exact ((issued_of_mem some' mem).footprint undisturbed).respects (reads_subset _) same
  case ordered => exact pairwise_before undisturbed some'

/-- When the results are read, the check has left what its commands leave one after the
other. -/
theorem serial_afterFill (undisturbed : C.Undisturbed) (some' : C.images ≠ [])
    {memory : ImageMemory} {s s' m : Machine ImageTag ImageMemory}
    (runs : Runs C.inOrder (begin memory C.pending C.verifyClImages) s)
    (executed : step C.inOrder s (.execute C.evt) = some s') (runs' : Runs C.inOrder s' m)
    (done : .read ∈ m.done) : AgreeOn C.cells m.memory (inTurn Command.body
      (if .fill ∈ s'.done then C.afterFill else C.fillCommand :: C.afterFill) s'.memory) := by
  refine (protocol undisturbed some').serial (agreeOn_equivalence _) runs executed runs' done ?_
  exact fun c mem => (read_after undisturbed some' mem).imp (congrArg Command.tag) id

end ImageCheck

end Clarmor
