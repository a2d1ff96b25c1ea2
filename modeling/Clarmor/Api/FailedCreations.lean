import Clarmor.Wrapper.ImageCalls
import Clarmor.Wrapper.Placement
import Clarmor.Api.Transfers

/-!
# Creations that the runtime refuses

The counters are raised before the real creation, and nothing takes them back.  An
image that is to be written after its creation is written even where there is none,
and its description is entered under `NULL`.
-/

namespace Clarmor

open Word Store

/-- The creations with their arguments; an image has a format besides its call. -/
inductive Creation where
  | buffer (size : Nat)
  | image (format : ImageFormat) (call : ImageCall)
deriving DecidableEq, Repr

namespace Creation

variable (env : Env) (w : Wrapper) (context : Handle) (flags : MemFlags) (hostPtr : Nat)

/-- The creation in the wrapper. -/
def run : Creation → Option (Handle × ClStatus × Wrapper)
  | .buffer size => clCreateBuffer env w context flags size hostPtr
  | .image format call => call.run env w context flags format hostPtr

/-- The description that an image creation hands to the runtime's part. -/
def imageDescription (format : ImageFormat) (call : ImageCall) : MemObj :=
  if call.plain flags then imageTemp context flags format call.desc
  else call.canariedTemp context flags format

/-- The result of the real `CreateBuffer`, where it is called: a buffer without bytes
is refused before, and preparing the contents may fault. -/
def realCreateBuffer (size : Nat) : Option (Handle × ClStatus × Runtime) :=
  if size = 0 then none
  else if flags.useHostPtr then
    some (w.rt.createBuffer env context (bufferFlags flags) size (hostData w.host hostPtr))
  else if env.calloc w.callocs then
    (fillBufferCopy (bufferFlags flags) size (hostData w.host hostPtr)).map fun fillPtr =>
      w.rt.createBuffer env context { bufferFlags flags with copyHostPtr := true }
        (u64 (size + POISON_REGIONS * POISON_FILL_LENGTH)) (some fillPtr.get)
  else some (w.rt.createBuffer env context (bufferFlags flags) size none)

/-- The contents that an image creation has at hand. -/
def imageContents (format : ImageFormat) (call : ImageCall) : Option (Option HostArea) :=
  if call.plain flags then some (hostArea w.host hostPtr)
  else
    (flatImageData (expandImage (imageTemp context flags format call.desc)) w.host hostPtr).map
      fun fillPtr => some ⟨none, fillPtr.get⟩

/-- The result of the real `CreateImage`, `CreateImage2D` or `CreateImage3D`. -/
def realCreateImage (format : ImageFormat) (call : ImageCall) :
    Option (Handle × ClStatus × Runtime) :=
  let temp := imageDescription context flags format call
  (imageContents w context flags hostPtr format call).map fun fillPtr =>
    if temp.flags.copyHostPtr then
      w.rt.createImage env context { temp.flags with copyHostPtr := false } format
        (call.passed temp) none
    else w.rt.createImage env context temp.flags format (call.passed temp) fillPtr

/-- The result of the real creation. -/
def real : Creation → Option (Handle × ClStatus × Runtime)
  | .buffer size => realCreateBuffer env w context flags hostPtr size
  | .image format call => realCreateImage env w context flags hostPtr format call

end Creation

/-- The counters are values of `uint64_t` variables. -/
structure MemStats.Valid (s : MemStats) : Prop where
  totalUser : SizeT s.totalUser
  currentUser : SizeT s.currentUser
  totalOverhead : SizeT s.totalOverhead
  currentOverhead : SizeT s.currentOverhead

/-- The high-water marks are up to date. -/
def MemStats.Raised (s : MemStats) : Prop :=
  s.currentUser ≤ s.highUser ∧ s.currentOverhead ≤ s.highOverhead

/-- A failed creation leaves no trace and is reported. -/
def LeavesNoTrace (env : Env) (w : Wrapper) (context : Handle) (flags : MemFlags) (hostPtr : Nat)
    (creation : Creation) (error : ClError) : Prop :=
  ∃ w', creation.run env w context flags hostPtr = some (NULL, some error, w') ∧
    w'.table = w.table ∧ w'.stats = w.stats

/-- The process goes on after the creation of an image failed: nothing is to be
written, or the error is one of the two that are noticed. -/
def Survives (flags : MemFlags) (call : ImageCall) (error : ClError) : Prop :=
  (call.plain flags = true ∧ flags.copyHostPtr = false) ∨
    (call.keepStatus = true ∧
      (error = .imageFormatNotSupported ∨ error = .invalidImageFormatDescriptor))

/-- Nothing is counted: the counters are off, or the sizes are zero. -/
def Uncounted (w : Wrapper) (context : Handle) (flags : MemFlags) (format : ImageFormat)
    (call : ImageCall) : Prop :=
  w.statsOn = false ∨
    (w.internalCreate = true ∨ (imageTemp context flags format call.desc).size = 0) ∧
      (Creation.imageDescription context flags format call).size = 0 ∧ w.stats.Raised

/-- A failed creation can leave no trace: a buffer is not counted, or an image is
neither counted nor written, and something else is entered under `NULL` already. -/
def NothingToUndo (w : Wrapper) (context : Handle) (flags : MemFlags) (error : ClError) :
    Creation → Prop
  | .buffer _ => w.statsOn = false
  | .image format call =>
      Survives flags call error ∧ (w.table.find NULL).isSome ∧
        Uncounted w context flags format call

/-! ## Counters -/

section Counters

variable {s : MemStats} {internal : Bool} {m n : Nat}

theorem add_eq_iff {t : Nat} (tLt : SizeT t) (nLt : SizeT n) : u64 (t + n) = t ↔ n = 0 := by
  unfold SizeT at tLt nLt
  unfold u64
  omega

/-- Raising the marks after a change restores the counters only when there was no
change. -/
theorem MemStats.raise_eq_iff {t : MemStats}
    (marks : t.highUser = s.highUser ∧ t.highOverhead = s.highOverhead) :
    t.raise = s ↔ t = s ∧ s.Raised := by
  obtain ⟨sameUser, sameOverhead⟩ := marks
  rw [MemStats.Raised]
  cases s
  cases t
  simp only [MemStats.raise, MemStats.mk.injEq] at *
  omega

theorem MemStats.allocate_marks : (s.allocate internal n).highUser = s.highUser ∧
    (s.allocate internal n).highOverhead = s.highOverhead := by
  cases internal <;> exact ⟨rfl, rfl⟩

theorem MemStats.addOverhead_marks :
    ((s.allocate internal n).addOverhead m).highUser = s.highUser ∧
      ((s.allocate internal n).addOverhead m).highOverhead = s.highOverhead :=
  s.allocate_marks

/-- An allocation is not counted when it has no bytes. -/
theorem MemStats.allocate_eq_iff (valid : s.Valid) (nLt : SizeT n) :
    s.allocate internal n = s ↔ n = 0 := by
  obtain ⟨totalUser, currentUser, totalOverhead, currentOverhead⟩ := valid
  cases s
  cases internal <;>
    simp only [MemStats.allocate, Bool.false_eq_true, if_false, if_true, MemStats.mk.injEq,
      and_true, true_and, add_eq_iff totalUser nLt, add_eq_iff currentUser nLt,
      add_eq_iff totalOverhead nLt, add_eq_iff currentOverhead nLt, and_self]

/-- Counting the bytes around an allocation makes up for its own where both count as
overhead. -/
theorem MemStats.addOverhead_eq_iff (valid : s.Valid) (mLt : SizeT m) (nLt : SizeT n) :
    (s.allocate internal n).addOverhead (sub64 m n) = s ↔
      (internal = true ∨ n = 0) ∧ m = 0 := by
  obtain ⟨totalUser, currentUser, totalOverhead, currentOverhead⟩ := valid
  have together : ∀ t, u64 (u64 (t + n) + sub64 m n) = u64 (t + m) := by
    intro t
    unfold SizeT at mLt nLt
    unfold sub64 u64
    omega
  cases internal with
  | true =>
      cases s
      simp only [MemStats.allocate, MemStats.addOverhead, if_true, MemStats.mk.injEq, together,
        and_true, true_and, true_or, add_eq_iff totalOverhead mLt, add_eq_iff currentOverhead mLt,
        and_self]
  | false =>
      have differenceLt : SizeT (sub64 m n) := Nat.mod_lt _ (by decide)
      have zero : n = 0 → (sub64 m n = 0 ↔ m = 0) := by
        rintro rfl
        unfold SizeT at mLt
        unfold sub64 u64
        omega
      cases s
      simp only [MemStats.allocate, MemStats.addOverhead, Bool.false_eq_true, if_false,
        MemStats.mk.injEq, and_true, true_and, false_or, add_eq_iff totalUser nLt,
        add_eq_iff currentUser nLt, add_eq_iff totalOverhead differenceLt,
        add_eq_iff currentOverhead differenceLt, and_self]
      constructor
      · rintro ⟨empty, -, same⟩
        exact ⟨empty, (zero empty).mp same⟩
      · rintro ⟨empty, same⟩
        exact ⟨empty, empty, (zero empty).mpr same⟩

/-- Nothing is counted where the counters are off or the changes restore them. -/
theorem Wrapper.count_stats_eq_iff {w : Wrapper} {f : MemStats → MemStats} :
    (w.count f).stats = w.stats ↔ w.statsOn = false ∨ f w.stats = w.stats := by
  cases on : w.statsOn <;> simp [Wrapper.count, on]

end Counters

section

variable {env : Env} {w : Wrapper} {context : Handle} {flags : MemFlags} {hostPtr : Nat}
  {error : ClError} {rt : Runtime}

theorem createBacking_failed (w : Wrapper) (size hostPtr : Nat) {flags : MemFlags} {sizeAug : Nat}
    {data : Option (Nat → UInt8)}
    (failed : w.rt.createBuffer env context flags sizeAug data = (NULL, some error, rt)) :
    createBacking env w context flags size sizeAug hostPtr data =
      some (NULL, some error, { w with rt := rt }) := by
  rw [createBacking, failed]
  simp [enterBuffer]

/-- A failed creation that returns with its counters changed. -/
structure Returned (env : Env) (w : Wrapper) (context : Handle) (flags : MemFlags) (hostPtr : Nat)
    (creation : Creation) (error : ClError) (table : Table Handle MemObj)
    (change : MemStats → MemStats) : Prop where
  ran : ∃ w', creation.run env w context flags hostPtr = some (NULL, some error, w') ∧
    w'.table = table ∧ w'.stats = (w.count change).stats

/-- It leaves no trace where table and counters are the same. -/
theorem Returned.leavesNoTrace_iff {creation : Creation} {table : Table Handle MemObj}
    {change : MemStats → MemStats}
    (returned : Returned env w context flags hostPtr creation error table change) :
    LeavesNoTrace env w context flags hostPtr creation error ↔
      table = w.table ∧ (w.statsOn = false ∨ change w.stats = w.stats) := by
  obtain ⟨w', ran, rfl, stats⟩ := returned
  rw [← Wrapper.count_stats_eq_iff, ← stats]
  constructor
  · rintro ⟨w'', ran', traceless⟩
    rw [ran, Option.some.injEq, Prod.mk.injEq, Prod.mk.injEq] at ran'
    rwa [ran'.2.2]
  · exact fun traceless => ⟨w', ran, traceless⟩

/-- A failed buffer leaves the table alone, but it has been counted. -/
theorem leavesNoTrace_buffer_iff {size : Nat} (valid : w.stats.Valid) (sizeLt : SizeT size)
    (failed : Creation.realCreateBuffer env w context flags hostPtr size =
      some (NULL, some error, rt)) :
    LeavesNoTrace env w context flags hostPtr (.buffer size) error ↔ w.statsOn = false := by
  have once : size ≠ 0 → ¬ (w.stats.allocate w.internalCreate size).raise = w.stats := by
    intro notEmpty
    rw [MemStats.raise_eq_iff MemStats.allocate_marks, MemStats.allocate_eq_iff valid sizeLt]
    exact fun same => notEmpty same.1
  rw [Creation.realCreateBuffer] at failed
  split_ifs at failed with empty own allocated
  · have returned : Returned env w context flags hostPtr (.buffer size) error w.table fun s =>
        (s.allocate w.internalCreate size).raise := by
      constructor
      rw [Creation.run, clCreateBuffer, if_neg empty]
      dsimp only
      rw [if_pos (by exact own)]
      refine ⟨_, createBacking_failed _ size hostPtr (Option.some.inj failed), rfl, ?_⟩
      cases on : w.statsOn <;> simp [Wrapper.count, on]
    exact returned.leavesNoTrace_iff.trans ((and_iff_right rfl).trans (or_iff_left (once empty)))
  · obtain ⟨fillPtr, filled, failed⟩ := Option.map_eq_some_iff.mp failed
    have overhead : sub64 (u64 (size + POISON_REGIONS * POISON_FILL_LENGTH)) size =
        POISON_REGIONS * POISON_FILL_LENGTH := by
      rw [Nat.add_comm size, sub64_u64_add]
      exact u64_of_lt (by decide)
    have reduced : SizeT (u64 (size + POISON_REGIONS * POISON_FILL_LENGTH)) :=
      Nat.mod_lt _ (by decide)
    have twice : ¬ ((w.stats.allocate w.internalCreate size).addOverhead
        (POISON_REGIONS * POISON_FILL_LENGTH)).raise = w.stats := by
      rw [MemStats.raise_eq_iff MemStats.addOverhead_marks, ← overhead,
        MemStats.addOverhead_eq_iff valid reduced sizeLt]
      exact fun same => fillBufferCopy_sized filled same.1.2
    have returned : Returned env w context flags hostPtr (.buffer size) error w.table fun s =>
        ((s.allocate w.internalCreate size).addOverhead
          (POISON_REGIONS * POISON_FILL_LENGTH)).raise := by
      constructor
      rw [Creation.run, clCreateBuffer, if_neg empty]
      dsimp only
      rw [if_neg (by exact own), Wrapper.count_callocs, if_pos allocated, Wrapper.count_host,
        filled, Option.bind_some]
      refine ⟨_, createBacking_failed _ size hostPtr failed, rfl, ?_⟩
      cases on : w.statsOn <;> simp [Wrapper.count, on]
    exact returned.leavesNoTrace_iff.trans ((and_iff_right rfl).trans (or_iff_left twice))
  · have returned : Returned env w context flags hostPtr (.buffer size) error w.table fun s =>
        (s.allocate w.internalCreate size).raise := by
      constructor
      rw [Creation.run, clCreateBuffer, if_neg empty]
      dsimp only
      rw [if_neg (by exact own), Wrapper.count_callocs, if_neg allocated]
      refine ⟨_, createBacking_failed _ size hostPtr (Option.some.inj failed), rfl, ?_⟩
      cases on : w.statsOn <;> simp [Wrapper.count, on]
    exact returned.leavesNoTrace_iff.trans ((and_iff_right rfl).trans (or_iff_left (once empty)))

/-! ## Images -/

/-- The runtime's part of a failed creation: it returns where nothing is to be
written or the error is noticed, and ends the process elsewhere. -/
theorem createImageObject_failed {rt' : Runtime} {temp : MemObj} {passed : ImageDesc}
    {fillPtr : Option HostArea} {keepStatus : Bool} (null : rt.objects.find NULL = none)
    (unnamed : temp.handle = NULL)
    (failed : (if temp.flags.copyHostPtr then
        rt.createImage env temp.context { temp.flags with copyHostPtr := false } temp.imageFormat
          passed none
      else rt.createImage env temp.context temp.flags temp.imageFormat passed fillPtr) =
        (NULL, some error, rt')) :
    if temp.flags.copyHostPtr = false ∨ (keepStatus = true ∧
        (error = .imageFormatNotSupported ∨ error = .invalidImageFormatDescriptor)) then
      ∃ c, createImageObject env rt temp passed fillPtr keepStatus = some c ∧ c.ret = NULL ∧
        c.status = some error ∧ c.temp.handle = NULL
    else createImageObject env rt temp passed fillPtr keepStatus = none := by
  unfold createImageObject
  dsimp only
  by_cases copies : temp.flags.copyHostPtr = true
  · rw [if_pos copies] at failed
    rw [if_pos copies, failed]
    dsimp only
    have unwritten : ∀ box data, rt'.writeImage NULL box data = none := by
      intro box data
      rcases Runtime.createImage_cases failed with ⟨-, -, objects⟩ | ⟨-, created⟩
      · rw [Runtime.writeImage, objects, null, Option.bind_none]
      · exact absurd rfl created.notNull
    cases keepStatus with
    | false =>
        rw [if_neg (by simp [copies]), if_neg (by simp), if_neg (by simp)]
        cases fillPtr <;> simp [unwritten]
    | true =>
        simp only [copies, Bool.true_eq_false, false_or, true_and, if_true, Option.some.injEq]
        split_ifs with noticed
        · exact ⟨_, rfl, rfl, rfl, rfl⟩
        · cases fillPtr <;> simp [unwritten]
  · rw [if_neg copies] at failed
    rw [if_neg copies, failed, if_pos (Or.inl (by simpa using copies))]
    exact ⟨_, rfl, rfl, rfl, unnamed⟩

theorem insert_eq_iff {table : Table Handle MemObj} {k : Handle} {m : MemObj} :
    table.insert k m = table ↔ (table.find k).isSome := by
  constructor
  · intro same
    rw [← same, Table.find_insert, if_pos rfl]
    rfl
  · intro present
    ext j
    rw [Table.find_insert]
    split_ifs with here
    · obtain ⟨v, found⟩ := Option.isSome_iff_exists.mp present
      rw [here, found, Option.getD_some]
    · rfl

/-- A failed image leaves no trace where the process goes on, `NULL` is a key already
and the changes of the counters restore them. -/
theorem leavesNoTrace_of_object (change : MemStats → MemStats) {format : ImageFormat}
    {call : ImageCall} {counted : Wrapper} {temp : MemObj} {passed : ImageDesc}
    {fillPtr : Option HostArea} (null : w.rt.objects.find NULL = none)
    (unnamed : temp.handle = NULL)
    (failed : (if temp.flags.copyHostPtr then
        w.rt.createImage env temp.context { temp.flags with copyHostPtr := false } temp.imageFormat
          passed none
      else w.rt.createImage env temp.context temp.flags temp.imageFormat passed fillPtr) =
        (NULL, some error, rt))
    (run : call.run env w context flags format hostPtr =
      (createImageObject env w.rt temp passed fillPtr call.keepStatus).map
        (enterImage counted flags hostPtr))
    (table : counted.table = w.table) (stats : counted.stats = (w.count change).stats) :
    LeavesNoTrace env w context flags hostPtr (.image format call) error ↔
      (temp.flags.copyHostPtr = false ∨ (call.keepStatus = true ∧
        (error = .imageFormatNotSupported ∨ error = .invalidImageFormatDescriptor))) ∧
        (w.table.find NULL).isSome ∧ (w.statsOn = false ∨ change w.stats = w.stats) := by
  have object := @createImageObject_failed env error w.rt rt temp passed fillPtr call.keepStatus
    null unnamed failed
  split_ifs at object with survives
  · obtain ⟨c, made, ret, status, handle⟩ := object
    have returned : Returned env w context flags hostPtr (.image format call) error
        (clMemInsert w.table
          { c.temp with
            hostPtr := if flags.useHostPtr then hostPtr else NULL
            refCount := 1
            detectorInternalBuffer := false }) change := by
      constructor
      rw [Creation.run, run, made, Option.map_some, enterImage, ret, status, table]
      exact ⟨_, rfl, rfl, stats⟩
    rw [returned.leavesNoTrace_iff, clMemInsert, handle, insert_eq_iff]
    exact (and_iff_right survives).symm
  · rw [object, Option.map_none] at run
    refine iff_of_false ?_ fun traceless => survives traceless.1
    rintro ⟨w', ran, -⟩
    rw [Creation.run, run] at ran
    contradiction

/-- A failed image leaves no trace exactly where there is nothing to undo. -/
theorem leavesNoTrace_image_iff {format : ImageFormat} {call : ImageCall}
    (null : w.rt.objects.find NULL = none) (valid : w.stats.Valid)
    (failed : Creation.realCreateImage env w context flags hostPtr format call =
      some (NULL, some error, rt)) :
    LeavesNoTrace env w context flags hostPtr (.image format call) error ↔
      NothingToUndo w context flags error (.image format call) := by
  obtain ⟨fillPtr, contents, failed⟩ := Option.map_eq_some_iff.mp failed
  have sizeLt : SizeT (imageTemp context flags format call.desc).size :=
    Nat.mod_lt _ (by decide)
  rw [NothingToUndo, Survives, Uncounted]
  have run : call.run env w context flags format hostPtr = _ := call.run_eq
  cases plain : call.plain flags with
  | true =>
      rw [Creation.imageContents, if_pos plain, Option.some.injEq] at contents
      obtain rfl := contents
      simp only [Creation.imageDescription, if_pos plain] at failed ⊢
      rw [createImageCommon, if_pos plain] at run
      refine (leavesNoTrace_of_object (fun s => (s.allocate w.internalCreate
        (imageTemp context flags format call.desc).size).raise) null rfl failed run rfl ?_).trans ?_
      · cases on : w.statsOn <;> simp [Wrapper.count, on]
      · rw [MemStats.raise_eq_iff MemStats.allocate_marks, MemStats.allocate_eq_iff valid sizeLt]
        simp only [true_and]
        refine and_congr_right fun _ => and_congr_right fun _ => or_congr_right ?_
        exact ⟨fun h => ⟨Or.inr h.1, h⟩, And.right⟩
  | false =>
      rw [Creation.imageContents, if_neg (by simp [plain])] at contents
      obtain ⟨blk, filled, rfl⟩ := Option.map_eq_some_iff.mp contents
      simp only [Creation.imageDescription, if_neg (show ¬ call.plain flags = true by simp [plain])]
        at failed ⊢
      have expandedLt : SizeT (expandImage (imageTemp context flags format call.desc)).size :=
        Nat.mod_lt _ (by decide)
      have size : (call.canariedTemp context flags format).size =
          (expandImage (imageTemp context flags format call.desc)).size := by
        cases call <;> rfl
      have unnamed : (call.canariedTemp context flags format).handle = NULL := by
        cases call <;> rfl
      have same : (call.canariedTemp context flags format).context = context := by
        cases call <;> rfl
      have refused : (if (call.canariedTemp context flags format).flags.copyHostPtr then
            w.rt.createImage env (call.canariedTemp context flags format).context
              { (call.canariedTemp context flags format).flags with copyHostPtr := false }
              (call.canariedTemp context flags format).imageFormat
              (call.passed (call.canariedTemp context flags format)) none
          else
            w.rt.createImage env (call.canariedTemp context flags format).context
              (call.canariedTemp context flags format).flags
              (call.canariedTemp context flags format).imageFormat
              (call.passed (call.canariedTemp context flags format)) (some ⟨none, blk.get⟩)) =
            (NULL, some error, rt) := by
        rw [ImageCall.canariedTemp_imageFormat, same]
        exact failed
      rw [createImageCommon, if_neg (by simp [plain])] at run
      dsimp only [Wrapper.count_host, Wrapper.count_rt] at run
      rw [filled, Option.bind_some] at run
      refine (leavesNoTrace_of_object (fun s => ((s.allocate w.internalCreate
        (imageTemp context flags format call.desc).size).addOverhead
          (sub64 (expandImage (imageTemp context flags format call.desc)).size
            (imageTemp context flags format call.desc).size)).raise) null unnamed refused run
            rfl ?_).trans ?_
      · cases on : w.statsOn <;> simp [Wrapper.count, on]
      · rw [MemStats.raise_eq_iff MemStats.addOverhead_marks,
          MemStats.addOverhead_eq_iff valid expandedLt sizeLt, size]
        simp only [ImageCall.canariedTemp_copyHostPtr, Bool.true_eq_false, false_or, false_and,
          Bool.false_eq_true, and_assoc]

/-- The size of a buffer is a `size_t` value. -/
def Creation.Sized : Creation → Prop
  | .buffer size => SizeT size
  | .image .. => True

/-- A failed creation leaves no trace exactly where there is nothing to undo. -/
theorem failed_creation_traceless_iff {creation : Creation} (null : w.rt.objects.find NULL = none)
    (valid : w.stats.Valid) (sized : creation.Sized)
    (failed : creation.real env w context flags hostPtr = some (NULL, some error, rt)) :
    LeavesNoTrace env w context flags hostPtr creation error ↔
      NothingToUndo w context flags error creation := by
  cases creation with
  | buffer size => exact leavesNoTrace_buffer_iff valid sized failed
  | image format call => exact leavesNoTrace_image_iff null valid failed

end

/-- A runtime that refuses every creation. -/
def refuseAll (error : ClError) : Env := ⟨fun _ => .refused error, countedSizes, fun _ => true⟩

/-- An image of 3 by 2 pixels. -/
def refusedImage : Creation :=
  .image ⟨.rgba, .unsignedInt8⟩ (.image2D 3 2 0)

/-- The format of an image was refused, and its description is entered under `NULL`. -/
def refusedOnce : Wrapper :=
  ((refusedImage.run (refuseAll .imageFormatNotSupported) (Wrapper.initial (fun _ => 5) false)
    7 {} NULL).map fun made => made.2.2).getD (Wrapper.initial (fun _ => 5) false)

/-- A buffer that is not counted, and an image that is refused a second time. -/
theorem failed_creation_traceless_twice :
    LeavesNoTrace (refuseAll .outOfResources) (Wrapper.initial (fun _ => 5) false) 7 {} NULL
        (.buffer 16) .outOfResources ∧
      LeavesNoTrace (refuseAll .imageFormatNotSupported) refusedOnce 7 {} NULL refusedImage
        .imageFormatNotSupported := by
  have zero : SizeT 0 := by
    unfold SizeT
    decide
  have sized : (Creation.buffer 16).Sized := by
    unfold Creation.Sized SizeT
    decide
  have sizedImage : refusedImage.Sized := trivial
  have valid : refusedOnce.stats.Valid := ⟨zero, zero, zero, zero⟩
  refine ⟨(failed_creation_traceless_iff rfl ⟨zero, zero, zero, zero⟩ sized rfl).mpr rfl,
    (failed_creation_traceless_iff rfl valid sizedImage rfl).mpr ?_⟩
  exact ⟨Or.inr ⟨rfl, Or.inl rfl⟩, rfl, Or.inl rfl⟩

/-- An image that the runtime has no resources for ends the process; a buffer of 16
bytes stays counted. -/
theorem failed_creation_traces :
    (∃ rt, Creation.real (refuseAll .outOfResources) (Wrapper.initial (fun _ => 5) false) 7 {} NULL
        (.image ⟨.rgba, .unsignedInt8⟩ (.image ⟨.image1D, 3, 0, 0, 0, 0, 0, 0, 0, NULL⟩)) =
          some (NULL, some .outOfResources, rt)) ∧
      ImageCall.run (refuseAll .outOfResources) (Wrapper.initial (fun _ => 5) false) 7 {}
        ⟨.rgba, .unsignedInt8⟩ NULL (.image ⟨.image1D, 3, 0, 0, 0, 0, 0, 0, 0, NULL⟩) = none ∧
      (clCreateBuffer (refuseAll .outOfResources) (Wrapper.initial (fun _ => 5) true) 7 {} 16
        NULL).map (fun made => made.2.2.stats.totalUser) = some 16 ∧
      ¬ LeavesNoTrace (refuseAll .outOfResources) (Wrapper.initial (fun _ => 5) false) 7 {} NULL
        (.image ⟨.rgba, .unsignedInt8⟩ (.image ⟨.image1D, 3, 0, 0, 0, 0, 0, 0, 0, NULL⟩))
        .outOfResources := by
  refine ⟨⟨_, rfl⟩, rfl, rfl, ?_⟩
  rintro ⟨w', ran, -⟩
  have ends : Creation.run (refuseAll .outOfResources) (Wrapper.initial (fun _ => 5) false) 7 {}
      NULL (.image ⟨.rgba, .unsignedInt8⟩ (.image ⟨.image1D, 3, 0, 0, 0, 0, 0, 0, 0, NULL⟩)) =
        none := rfl
  rw [ends] at ran
  contradiction

end Clarmor
