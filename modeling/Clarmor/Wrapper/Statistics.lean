import Clarmor.Wrapper.SvmBases
import Clarmor.Wrapper.Tracking

/-!
# Memory-overhead statistics

The counters behind `STATS_MEM_OVERHEAD` against a ledger of the live
allocations.  An allocation is entered with its owner, the bytes that were
asked for and the canary bytes around them; it leaves the ledger when the last
reference goes or the memory is freed.
-/

namespace Clarmor

open Word Store

/-! ## The ledger -/

/-- A live allocation: the handle of a memory object or a pointer to shared
virtual memory, whether the detector itself made it, the bytes asked for and the
canary bytes. -/
structure Allocation where
  shared : Bool
  key : Nat
  internal : Bool
  requested : Nat
  canaries : Nat
deriving DecidableEq, Repr

namespace Allocation

/-- What an allocation adds to the memory of the application. -/
def userBytes (a : Allocation) : Nat := if a.internal then 0 else a.requested

/-- What an allocation adds to the overhead: canaries, and all of it when it is the
detector's own. -/
def overheadBytes (a : Allocation) : Nat :=
  if a.internal then a.requested + a.canaries else a.canaries

end Allocation

/-- Bytes of the application's live allocations. -/
def userSum (ledger : List Allocation) : Nat := (ledger.map Allocation.userBytes).sum

/-- Bytes of canaries and of the detector's own live allocations. -/
def overheadSum (ledger : List Allocation) : Nat := (ledger.map Allocation.overheadBytes).sum

@[simp]
theorem userSum_cons (a : Allocation) (ledger : List Allocation) :
    userSum (a :: ledger) = a.userBytes + userSum ledger :=
  List.sum_cons

@[simp]
theorem overheadSum_cons (a : Allocation) (ledger : List Allocation) :
    overheadSum (a :: ledger) = a.overheadBytes + overheadSum ledger :=
  List.sum_cons

/-- The key of an allocation among both kinds. -/
def Allocation.name (a : Allocation) : Bool × Nat := (a.shared, a.key)

/-- Strike an allocation from the ledger. -/
def strike (ledger : List Allocation) (name : Bool × Nat) : List Allocation :=
  ledger.filter fun a => a.name ≠ name

theorem mem_strike {ledger : List Allocation} {name : Bool × Nat} {a : Allocation} :
    a ∈ strike ledger name ↔ a ∈ ledger ∧ a.name ≠ name := by
  simp [strike]

/-- Striking the one allocation of a name takes its bytes off both sums. -/
theorem sums_strike {ledger : List Allocation} {a : Allocation} (mem : a ∈ ledger)
    (distinct : (ledger.map Allocation.name).Nodup) :
    userSum (strike ledger a.name) + a.userBytes = userSum ledger ∧
      overheadSum (strike ledger a.name) + a.overheadBytes = overheadSum ledger := by
  induction ledger with
  | nil => simp at mem
  | cons b rest ih =>
      rw [List.map_cons, List.nodup_cons] at distinct
      obtain ⟨new, distinct⟩ := distinct
      rcases List.mem_cons.mp mem with rfl | mem
      · have untouched : strike rest a.name = rest := by
          apply List.filter_eq_self.mpr
          intro b bMem
          have ne : b.name ≠ a.name := fun same => new (same ▸ List.mem_map_of_mem bMem)
          simpa using ne
        have struck : strike (a :: rest) a.name = rest := by
          rw [strike, List.filter_cons_of_neg (by simp)]
          exact untouched
        rw [struck, userSum_cons, overheadSum_cons]
        omega
      · have ne : b.name ≠ a.name := fun same => new (same ▸ List.mem_map_of_mem mem)
        have struck : strike (b :: rest) a.name = b :: strike rest a.name := by
          rw [strike, List.filter_cons_of_pos (by simpa using ne)]
          rfl
        obtain ⟨user, overhead⟩ := ih mem distinct
        rw [struck, userSum_cons, overheadSum_cons, userSum_cons, overheadSum_cons]
        omega

theorem bytes_le_sums {ledger : List Allocation} {a : Allocation} (mem : a ∈ ledger) :
    a.userBytes ≤ userSum ledger ∧ a.overheadBytes ≤ overheadSum ledger :=
  ⟨List.single_le_sum (by simp) _ (List.mem_map_of_mem mem),
    List.single_le_sum (by simp) _ (List.mem_map_of_mem mem)⟩

/-! ## The counters -/

namespace MemStats

/-- The counters of current memory are `uint64_t` values. -/
structure InRange (s : MemStats) : Prop where
  user : s.currentUser < 18446744073709551616
  overhead : s.currentOverhead < 18446744073709551616

/-- The counters follow a new allocation. -/
structure Charges (s s' : MemStats) (a : Allocation) : Prop where
  user : s'.currentUser = u64 (s.currentUser + a.userBytes)
  overhead : s'.currentOverhead = u64 (s.currentOverhead + a.overheadBytes)
  highUser : s'.highUser = max s.highUser s'.currentUser
  highOverhead : s'.highOverhead = max s.highOverhead s'.currentOverhead

/-- The counters follow the end of an allocation. -/
structure Refunds (s s' : MemStats) (a : Allocation) : Prop where
  user : s'.currentUser = s.currentUser - a.userBytes
  overhead : s'.currentOverhead = s.currentOverhead - a.overheadBytes
  highUser : s'.highUser = s.highUser
  highOverhead : s'.highOverhead = s.highOverhead

theorem u64_u64_add (m n : Nat) : u64 (u64 m + n) = u64 (m + n) :=
  Nat.mod_add_mod _ _ _

theorem u64_add_congr {m n : Nat} (same : u64 m = u64 n) (k : Nat) : u64 (k + m) = u64 (k + n) :=
  Nat.ModEq.add_left k same

/-- The counters see sizes as `size_t` values. -/
theorem charges_plain {s : MemStats} (range : s.InRange) (key : Nat) {size requested : Nat}
    (same : u64 size = u64 requested) (internal : Bool) :
    Charges s (s.allocate internal size).raise ⟨false, key, internal, requested, 0⟩ := by
  obtain ⟨user, overhead⟩ := range
  cases internal <;> constructor <;>
    simp [allocate, raise, Allocation.userBytes, Allocation.overheadBytes, u64_of_lt user,
      u64_of_lt overhead, u64_add_congr same]

theorem charges_canaried {s : MemStats} (range : s.InRange) (key : Nat)
    {size requested border canaries : Nat} (same : u64 size = u64 requested)
    (sameBorder : u64 border = u64 canaries) (internal : Bool) :
    Charges s ((s.allocate internal size).addOverhead border).raise
      ⟨false, key, internal, requested, canaries⟩ := by
  obtain ⟨user, overhead⟩ := range
  cases internal <;> constructor <;>
    simp [allocate, addOverhead, raise, Allocation.userBytes, Allocation.overheadBytes,
      u64_of_lt user, u64_u64_add, u64_add_congr same, u64_add_congr sameBorder, ← Nat.add_assoc]

theorem charges_svm {s : MemStats} (range : s.InRange) (key requested : Nat) (internal : Bool) :
    Charges s (s.allocateSvm internal requested).raise
      ⟨true, key, internal, requested, POISON_REGIONS * POISON_FILL_LENGTH⟩ := by
  obtain ⟨user, overhead⟩ := range
  cases internal <;> constructor <;>
    simp [allocateSvm, raise, Allocation.userBytes, Allocation.overheadBytes, u64_of_lt user]

/-- The counters have room for what an allocation takes back. -/
structure Covers (s : MemStats) (a : Allocation) : Prop where
  range : s.InRange
  user : a.userBytes ≤ s.currentUser
  overhead : a.overheadBytes ≤ s.currentOverhead

/-- Releasing this description takes back exactly what the allocation added. -/
def PaysBack (m : MemObj) (a : Allocation) : Prop :=
  ∀ s : MemStats, s.Covers a → Refunds s (s.free a.internal m) a

theorem paysBack_plain {m : MemObj} (noCanary : m.hasCanary = false) {key requested : Nat}
    (size : m.size = requested ∨ (m.size = u64 requested ∧ m.isImage = true)) {internal : Bool}
    (owner : internal = true → m.isImage = true) :
    PaysBack m ⟨false, key, internal, requested, 0⟩ := by
  intro s covers
  obtain ⟨⟨userLt, overheadLt⟩, user, overhead⟩ := covers
  cases internal with
  | false =>
      simp only [Allocation.userBytes, Bool.false_eq_true, if_false] at user
      have exact : m.size = requested := by
        rcases size with exact | ⟨reduced, -⟩
        · exact exact
        · rw [reduced, u64_of_lt (by omega)]
      constructor <;>
        simp [free, noCanary, Allocation.userBytes, Allocation.overheadBytes, exact,
          sub64_of_le userLt user]
  | true =>
      have image := owner rfl
      simp only [Allocation.overheadBytes, if_true, Nat.add_zero] at overhead
      have exact : m.size = requested := by
        rcases size with exact | ⟨reduced, -⟩
        · exact exact
        · rw [reduced, u64_of_lt (by omega)]
      constructor <;>
        simp [free, image, Allocation.userBytes, Allocation.overheadBytes, exact,
          sub64_of_le overheadLt overhead]

theorem paysBack_buffer {m : MemObj} (canary : m.hasCanary = true) (buffer : m.isImage = false)
    (key : Nat) (internal : Bool) :
    PaysBack m ⟨false, key, internal, m.size, POISON_REGIONS * POISON_FILL_LENGTH⟩ := by
  intro s covers
  obtain ⟨⟨userLt, overheadLt⟩, user, overhead⟩ := covers
  cases internal with
  | false =>
      simp only [Allocation.userBytes, Bool.false_eq_true, if_false] at user
      simp only [Allocation.overheadBytes, Bool.false_eq_true, if_false] at overhead
      constructor <;>
        simp [free, canary, buffer, Allocation.userBytes, Allocation.overheadBytes,
          sub64_of_le userLt user, sub64_of_le overheadLt overhead]
  | true =>
      simp only [Allocation.overheadBytes, if_true] at overhead
      have first : sub64 s.currentOverhead m.size = s.currentOverhead - m.size :=
        sub64_of_le overheadLt (by omega)
      have second : sub64 (s.currentOverhead - m.size) (POISON_REGIONS * POISON_FILL_LENGTH) =
          s.currentOverhead - m.size - POISON_REGIONS * POISON_FILL_LENGTH :=
        sub64_of_le (by omega) (by omega)
      constructor <;>
        simp [free, buffer, Allocation.userBytes, Allocation.overheadBytes, first, second,
          Nat.sub_sub]

end MemStats

/-- The bytes of an image whose pixels have `d` bytes. -/
def imageBytes (desc : ImageDesc) (d : Nat) : Nat :=
  desc.imageWidth * desc.imageHeight * desc.imageDepth * desc.imageArraySize * d

/-- The canary bytes of an image whose pixels have `d` bytes. -/
def imageCanaryBytes (desc : ImageDesc) (d : Nat) : Nat :=
  imageBytes (expandLastDimForFill (standardDesc desc)) d - imageBytes (standardDesc desc) d

theorem imageSize_eq (desc : ImageDesc) (format : ImageFormat) :
    imageSize desc format = u64 (imageBytes desc (getImageDataSize format)) :=
  rfl

/-- Expanding an image makes no extent smaller. -/
theorem imageBytes_le_expand (desc : ImageDesc) (d : Nat) :
    imageBytes (standardDesc desc) d ≤
      imageBytes (expandLastDimForFill (standardDesc desc)) d := by
  unfold imageBytes
  cases type : desc.imageType <;> simp only [expandLastDimForFill, standardDesc, type] <;>
    gcongr <;> exact Nat.le_add_right _ _

namespace MemStats

theorem sub64_add_border (n : Nat) : sub64 (n + 16) 16 = u64 n := by
  unfold sub64 u64
  omega

theorem u64_prod (w h d a k : Nat) :
    u64 (u64 w * u64 h * u64 d * u64 a * k) = u64 (w * h * d * a * k) := by
  have residue : ∀ n, u64 n ≡ n [MOD 18446744073709551616] := fun n => Nat.mod_modEq n _
  exact ((((residue w).mul (residue h)).mul (residue d)).mul (residue a)).mul_right k

/-- What `free` reads of an expanded descriptor. -/
structure ExpandedFrom (m : MemObj) (desc : ImageDesc) : Prop where
  isImage : m.isImage = true
  hasCanary : m.hasCanary = true
  imageWidth : m.imageDesc.imageWidth = (expandLastDimForFill (standardDesc desc)).imageWidth
  imageHeight : m.imageDesc.imageHeight = (expandLastDimForFill (standardDesc desc)).imageHeight
  imageDepth : m.imageDesc.imageDepth = (expandLastDimForFill (standardDesc desc)).imageDepth
  imageArraySize :
    m.imageDesc.imageArraySize = (expandLastDimForFill (standardDesc desc)).imageArraySize

/-- The release finds the application's extents of an expanded image. -/
theorem free_expanded {s : MemStats} {m : MemObj} {desc : ImageDesc}
    (expanded : ExpandedFrom m desc) :
    s.free false m =
      { s with
        currentUser := sub64 s.currentUser (imageSize (standardDesc desc) m.imageFormat)
        currentOverhead :=
          sub64 s.currentOverhead
            (sub64 m.size (imageSize (standardDesc desc) m.imageFormat)) } := by
  obtain ⟨image, canary, width, height, depth, arraySize⟩ := expanded
  have one : u64 1 = 1 := by decide
  have members : (if m.imageDesc.imageArraySize > 1 then
        if m.imageDesc.imageHeight > 1 then sub64 m.imageDesc.imageArraySize IMAGE_POISON_DEPTH
        else sub64 m.imageDesc.imageArraySize IMAGE_POISON_HEIGHT
      else m.imageDesc.imageArraySize) = u64 (standardDesc desc).imageArraySize := by
    rw [height, arraySize]
    cases type : desc.imageType <;>
      simp [expandLastDimForFill, standardDesc, type, one, IMAGE_POISON_HEIGHT, IMAGE_POISON_DEPTH,
        sub64_add_border]
  have columns : (if m.imageDesc.imageWidth > 1 then
        sub64 m.imageDesc.imageWidth IMAGE_POISON_WIDTH else m.imageDesc.imageWidth) =
      u64 (standardDesc desc).imageWidth := by
    rw [width]
    cases type : desc.imageType <;>
      simp [expandLastDimForFill, standardDesc, type, IMAGE_POISON_WIDTH, sub64_add_border]
  have rows : (if m.imageDesc.imageHeight > 1 then
        sub64 m.imageDesc.imageHeight IMAGE_POISON_HEIGHT else m.imageDesc.imageHeight) =
      u64 (standardDesc desc).imageHeight := by
    rw [height]
    cases type : desc.imageType <;>
      simp [expandLastDimForFill, standardDesc, type, one, IMAGE_POISON_HEIGHT, sub64_add_border]
  have slices : (if m.imageDesc.imageDepth > 1 then
        sub64 m.imageDesc.imageDepth IMAGE_POISON_DEPTH else m.imageDesc.imageDepth) =
      u64 (standardDesc desc).imageDepth := by
    rw [depth]
    cases type : desc.imageType <;>
      simp [expandLastDimForFill, standardDesc, type, one, IMAGE_POISON_DEPTH, sub64_add_border]
  simp only [free, Bool.false_eq_true, if_false, canary, Bool.not_true, image, if_true, members,
    columns, rows, slices, u64_prod]
  rfl

/-- An expanded image pays back what it was charged for, with either owner. -/
theorem paysBack_expanded {m : MemObj} {desc : ImageDesc} (expanded : ExpandedFrom m desc)
    (size : m.size = imageSize (expandLastDimForFill (standardDesc desc)) m.imageFormat)
    (key : Nat) (internal : Bool) :
    PaysBack m
      ⟨false, key, internal, imageBytes (standardDesc desc) (getImageDataSize m.imageFormat),
        imageCanaryBytes desc (getImageDataSize m.imageFormat)⟩ := by
  have asked := imageSize_eq (standardDesc desc) m.imageFormat
  rw [imageSize_eq] at size
  generalize getImageDataSize m.imageFormat = d at asked size ⊢
  have larger := imageBytes_le_expand desc d
  intro s covers
  obtain ⟨⟨userLt, overheadLt⟩, user, overhead⟩ := covers
  cases internal with
  | false =>
      simp only [Allocation.userBytes, Bool.false_eq_true, if_false] at user
      simp only [Allocation.overheadBytes, Bool.false_eq_true, if_false, imageCanaryBytes]
        at overhead
      have requested : imageSize (standardDesc desc) m.imageFormat =
          imageBytes (standardDesc desc) d := by
        rw [asked, u64_of_lt (by omega)]
      have canaries : sub64 m.size (imageSize (standardDesc desc) m.imageFormat) =
          imageCanaryBytes desc d := by
        rw [requested, size, imageCanaryBytes]
        unfold sub64 u64
        omega
      rw [free_expanded expanded, canaries, requested]
      constructor <;>
        simp [Allocation.userBytes, Allocation.overheadBytes, sub64_of_le userLt user,
          sub64_of_le overheadLt overhead, imageCanaryBytes]
  | true =>
      simp only [Allocation.overheadBytes, if_true, imageCanaryBytes] at overhead
      have whole : imageBytes (standardDesc desc) d +
          (imageBytes (expandLastDimForFill (standardDesc desc)) d -
            imageBytes (standardDesc desc) d) =
          imageBytes (expandLastDimForFill (standardDesc desc)) d := by
        omega
      rw [whole] at overhead
      rw [u64_of_lt (by omega)] at size
      constructor <;>
        simp [free, expanded.isImage, Allocation.userBytes, Allocation.overheadBytes, size,
          imageCanaryBytes, whole, sub64_of_le overheadLt overhead]

end MemStats

/-! ## Creations -/

/-- The runtime answers the next creation with a usable handle. -/
def Runtime.Grants (env : Env) (rt : Runtime) : Prop :=
  ∃ h, env.reply rt.creations = .granted h ∧ h ≠ NULL ∧ rt.objects.find h = none

theorem Runtime.createBuffer_of_grants {env : Env} {rt : Runtime} (grants : rt.Grants env)
    {context : Handle} {flags : MemFlags} {size : Nat} {data : Option (Nat → UInt8)}
    (sized : size ≠ 0) (accepted : hostPtrError flags data = false) :
    (rt.createBuffer env context flags size data).1 ≠ NULL := by
  obtain ⟨h, reply, notNull, fresh⟩ := grants
  unfold createBuffer
  rw [if_neg sized, if_neg (by simp [accepted])]
  cases data <;> simp [grant, reply, notNull, fresh]

/-- What the wrapper keeps when it creates a backing buffer. -/
theorem createBacking_frame {env : Env} {w w' : Wrapper} {context handle : Handle}
    {flags : MemFlags} {size sizeAug hostPtr : Nat} {data : Option (Nat → UInt8)}
    {err : ClStatus}
    (made : createBacking env w context flags size sizeAug hostPtr data = some (handle, err, w')) :
    w'.stats = w.stats ∧ w'.statsOn = w.statsOn ∧ w'.svm = w.svm := by
  have entered : ∀ {rt ret main status result},
      enterBuffer { w with rt := rt } ret main context flags size hostPtr status = result →
      result.2.2.stats = w.stats ∧ result.2.2.statsOn = w.statsOn ∧ result.2.2.svm = w.svm := by
    rintro rt ret main status result rfl
    unfold enterBuffer
    split_ifs <;> exact ⟨rfl, rfl, rfl⟩
  unfold createBacking at made
  rcases main : w.rt.createBuffer env context flags sizeAug data with ⟨mainBuff, status, rt⟩
  rw [main] at made
  dsimp only at made
  split_ifs at made with own
  · rcases sub : rt.createSubBuffer env mainBuff POISON_FILL_LENGTH size with ⟨ret, subErr, rt'⟩
    rw [sub] at made
    cases subErr with
    | none => exact entered (Option.some.inj made)
    | some error => simp at made
  · exact entered (Option.some.inj made)

/-- A granted backing buffer gives a handle. -/
theorem createBacking_of_granted {env : Env} {w w' : Wrapper} {context handle : Handle}
    {flags : MemFlags} {size sizeAug hostPtr : Nat} {data : Option (Nat → UInt8)}
    {err : ClStatus} (granted : (w.rt.createBuffer env context flags sizeAug data).1 ≠ NULL)
    (made : createBacking env w context flags size sizeAug hostPtr data = some (handle, err, w')) :
    handle ≠ NULL := by
  rcases createBacking_cases made with ⟨rfl, failed, -⟩ | ⟨-, creation, -⟩ | ⟨-, main, backing, -⟩
  · intro _
    unfold createBacking at made
    rcases main : w.rt.createBuffer env context flags sizeAug data with ⟨mainBuff, status, rt⟩
    rw [main] at made granted
    dsimp only at made granted
    split_ifs at made with own
    · rcases sub : rt.createSubBuffer env mainBuff POISON_FILL_LENGTH size with ⟨ret, subErr, rt'⟩
      rw [sub] at made
      cases subErr with
      | some error => simp at made
      | none =>
          simp only [enterBuffer] at made
          split_ifs at made
          all_goals
            simp only [Option.some.injEq, Prod.mk.injEq] at made
            exact failed made.2.1.symm
    · simp only [enterBuffer, if_neg granted, Option.some.injEq, Prod.mk.injEq] at made
      exact granted made.1
  · exact creation.notNull
  · obtain ⟨between, -, sub⟩ := backing.backed
    exact sub.notNull

/-- A creation enters an object and counts it as an allocation. -/
structure Booked (w w' : Wrapper) (a : Allocation) : Prop where
  charges : w.stats.Charges w'.stats a
  statsOn : w'.statsOn = true
  svm : w'.svm = w.svm
  entry : ∃ m, w'.table = clMemInsert w.table m ∧ m.handle = a.key ∧ m.isSub = false ∧
    MemStats.PaysBack m a
  named : a.name = (false, a.key)
  fresh : w.rt.objects.find a.key = none

/-- The bytes around a buffer. -/
def bufferCanaryBytes (flags : MemFlags) : Nat :=
  if flags.useHostPtr then 0 else POISON_REGIONS * POISON_FILL_LENGTH

/-- What the environment has to supply for a buffer. -/
def BufferGranted (env : Env) (w : Wrapper) (flags : MemFlags) (hostPtr : Nat) : Prop :=
  w.rt.Grants env ∧ if flags.useHostPtr then hostPtr ≠ NULL else env.calloc w.callocs = true

/-- A buffer that is granted is counted; the detector's own buffers are not put
into the application's memory. -/
theorem clCreateBuffer_booked {env : Env} {w w' : Wrapper} {context handle : Handle}
    {flags : MemFlags} {size hostPtr : Nat} {err : ClStatus} (on : w.statsOn = true)
    (range : w.stats.InRange) (sized : size ≠ 0) (granted : BufferGranted env w flags hostPtr)
    (owner : w.internalCreate = true → flags.useHostPtr = false)
    (made : clCreateBuffer env w context flags size hostPtr = some (handle, err, w')) :
    handle ≠ NULL ∧
      Booked w w' ⟨false, handle, w.internalCreate, size, bufferCanaryBytes flags⟩ := by
  have use : (bufferFlags flags).useHostPtr = flags.useHostPtr := rfl
  obtain ⟨grants, supplied⟩ := granted
  have outcome := clCreateBuffer_cases made
  unfold clCreateBuffer at made
  dsimp only at made
  rw [if_neg sized] at made
  cases host : flags.useHostPtr with
  | true =>
      rw [if_pos (use.trans host)] at made
      rw [if_pos host] at supplied
      have accepted :
          Runtime.hostPtrError (bufferFlags flags) (hostData w.host hostPtr) = false := by
        simp [Runtime.hostPtrError, hostData, supplied, use, host]
      have notNull : handle ≠ NULL := by
        refine createBacking_of_granted ?_ made
        exact @Runtime.createBuffer_of_grants env w.rt grants _ _ _ _ sized accepted
      obtain ⟨stats, statsOn, svm⟩ := createBacking_frame made
      rcases outcome with ⟨null, -⟩ | ⟨-, created, table⟩ | ⟨own, -⟩
      · exact absurd null notNull
      · rw [bufferObject, if_pos (use.trans host)] at table
        refine ⟨notNull, ?_, statsOn.trans on, svm, ⟨_, table, rfl, rfl, ?_⟩, rfl, created.fresh⟩
        · rw [stats, bufferCanaryBytes, if_pos host]
          simp only [Wrapper.count, on, if_true]
          exact MemStats.charges_plain range handle rfl w.internalCreate
        · rw [bufferCanaryBytes, if_pos host]
          refine MemStats.paysBack_plain rfl (Or.inl rfl) fun internal => ?_
          rw [owner internal] at host
          simp at host
      · rw [own] at host
        simp at host
  | false =>
      rw [if_neg (by simp [use, host])] at made
      rw [host, if_neg (by simp)] at supplied
      rw [Wrapper.count_callocs, if_pos supplied] at made
      obtain ⟨fillPtr, filled, made⟩ := Option.bind_eq_some_iff.mp made
      have sizedAug := fillBufferCopy_sized filled
      generalize u64 (size + POISON_REGIONS * POISON_FILL_LENGTH) = sizeAug at made sizedAug
      have accepted : Runtime.hostPtrError { bufferFlags flags with copyHostPtr := true }
          (some fillPtr.get) = false := by
        simp [Runtime.hostPtrError]
      have notNull : handle ≠ NULL := by
        refine createBacking_of_granted ?_ made
        exact @Runtime.createBuffer_of_grants env w.rt grants _ _ _ _ sizedAug accepted
      obtain ⟨stats, statsOn, svm⟩ := createBacking_frame made
      rcases outcome with ⟨null, -⟩ | ⟨plain, -⟩ | ⟨-, mainBuff, _, -, backing, table⟩
      · exact absurd null notNull
      · rw [plain] at host
        simp at host
      · rw [bufferObject, if_neg (by simp [use, host])] at table
        refine ⟨notNull, ?_, statsOn.trans on, svm, ⟨_, table, rfl, rfl, ?_⟩, rfl, backing.fresh⟩
        · rw [stats, bufferCanaryBytes, if_neg (by simp [host])]
          simp only [Wrapper.count, on, if_true]
          exact MemStats.charges_canaried range handle rfl rfl w.internalCreate
        · rw [bufferCanaryBytes, if_neg (by simp [host])]
          exact MemStats.paysBack_buffer rfl rfl handle w.internalCreate

/-- The canary bytes that an image creation adds. -/
def imageBorderBytes (desc : ImageDesc) (d : Nat) (plain : Bool) : Nat :=
  if plain then 0 else imageCanaryBytes desc d

/-- An image whose contents are copied is counted. -/
theorem createImageCommon_booked {env : Env} {w w' : Wrapper} {context handle : Handle}
    {flags : MemFlags} {format : ImageFormat} {desc : ImageDesc} {hostPtr d : Nat}
    {plain keepStatus : Bool} {canaried : MemObj → MemObj} {passed : MemObj → ImageDesc}
    {err : ClStatus} (on : w.statsOn = true) (range : w.stats.InRange)
    (null : w.rt.objects.find NULL = none) (sets : SetsHandle env w flags plain keepStatus)
    (pixel : d = getImageDataSize format)
    (keeps : ∀ t : MemObj, ∃ row slice, canaried t =
      { t with imageDesc :=
          { t.imageDesc with imageRowPitch := row, imageSlicePitch := slice } })
    (made : createImageCommon env w flags (imageTemp context flags format desc) hostPtr plain
      keepStatus canaried passed = some (handle, err, w')) :
    handle ≠ NULL ∧ Booked w w' ⟨false, handle, w.internalCreate,
      imageBytes (standardDesc desc) d, imageBorderBytes desc d plain⟩ := by
  subst pixel
  obtain ⟨copies, accepted⟩ := sets
  have requested : u64 (imageSize (standardDesc desc) format) =
      u64 (imageBytes (standardDesc desc) (getImageDataSize format)) := Nat.mod_mod _ _
  unfold createImageCommon at made
  dsimp only at made
  cases plain with
  | true =>
      rw [if_pos rfl] at made
      obtain ⟨c, object, entered⟩ := Option.map_eq_some_iff.mp made
      obtain ⟨temp, creation⟩ :=
        createImageObject_cases null (copies.resolve_right (by simp)) accepted object
      simp only [enterImage, Prod.mk.injEq] at entered
      obtain ⟨rfl, -, rfl⟩ := entered
      refine ⟨creation.notNull, ?_, on, rfl, ⟨_, rfl, ?_, ?_, ?_⟩, rfl, creation.fresh⟩
      · simp only [Wrapper.count, on, if_true, imageBorderBytes]
        exact MemStats.charges_plain range c.ret requested w.internalCreate
      · rw [temp]
      · rw [temp]
        rfl
      · rw [temp]
        exact MemStats.paysBack_plain rfl (Or.inr ⟨rfl, rfl⟩) fun _ => rfl
  | false =>
      rw [if_neg (by simp)] at made
      obtain ⟨fillPtr, -, made⟩ := Option.bind_eq_some_iff.mp made
      obtain ⟨c, object, entered⟩ := Option.map_eq_some_iff.mp made
      obtain ⟨row, slice, keeps⟩ := keeps
        { expandImage (imageTemp context flags format desc) with
          flags := { flags with copyHostPtr := true }
          hasCanary := true }
      rw [keeps] at object
      obtain ⟨temp, creation⟩ := createImageObject_cases null rfl accepted object
      simp only [enterImage, Prod.mk.injEq] at entered
      obtain ⟨rfl, -, rfl⟩ := entered
      have larger := imageBytes_le_expand desc (getImageDataSize format)
      have border : u64 (sub64 (imageSize (expandLastDimForFill (standardDesc desc)) format)
          (imageSize (standardDesc desc) format)) =
            u64 (imageCanaryBytes desc (getImageDataSize format)) := by
        rw [imageSize_eq, imageSize_eq, imageCanaryBytes]
        generalize getImageDataSize format = d at larger ⊢
        generalize imageBytes (standardDesc desc) d = m at larger ⊢
        generalize imageBytes (expandLastDimForFill (standardDesc desc)) d = n at larger ⊢
        unfold sub64 u64
        omega
      refine ⟨creation.notNull, ?_, on, rfl, ⟨_, rfl, ?_, ?_, ?_⟩, rfl, creation.fresh⟩
      · simp only [Wrapper.count, on, if_true, imageBorderBytes, Bool.false_eq_true, if_false]
        exact MemStats.charges_canaried range c.ret requested border w.internalCreate
      · rw [temp]
      · rw [temp]
        rfl
      · rw [temp]
        exact MemStats.paysBack_expanded ⟨rfl, rfl, rfl, rfl, rfl, rfl⟩ rfl c.ret w.internalCreate

/-! ## Calls that count nothing, and releases -/

/-- The entries of two tables differ in reference counts at most. -/
def Recounted (table table' : Table Handle MemObj) : Prop :=
  ∀ h, (table'.find h).map (fun m => { m with refCount := 0 }) =
    (table.find h).map fun m => { m with refCount := 0 }

theorem Recounted.find {table table' : Table Handle MemObj} (same : Recounted table table')
    {h : Handle} {m : MemObj} (found : table.find h = some m) :
    ∃ n, table'.find h = some { m with refCount := n } := by
  have here := same h
  rw [found, Option.map_some] at here
  obtain ⟨m', found', equal⟩ := Option.map_eq_some_iff.mp here
  refine ⟨m'.refCount, ?_⟩
  rw [found']
  congr 1
  cases m
  cases m'
  simp only [MemObj.mk.injEq] at equal ⊢
  tauto

theorem Recounted.symm {table table' : Table Handle MemObj} (same : Recounted table table') :
    Recounted table' table :=
  fun h => (same h).symm

/-- A retain changes reference counts only. -/
theorem clRetainMemObject_frame (w : Wrapper) (h : Handle) :
    (clRetainMemObject w h).2.stats = w.stats ∧ (clRetainMemObject w h).2.statsOn = w.statsOn ∧
      (clRetainMemObject w h).2.svm = w.svm ∧
      Recounted w.table (clRetainMemObject w h).2.table := by
  have recounted : Recounted w.table
      (w.table.modify h fun m => { m with refCount := u32 (m.refCount + 1) }) := by
    intro j
    rw [Table.find_modify]
    split_ifs with here
    · rw [here, Option.map_map]
      rfl
    · rfl
  unfold clRetainMemObject
  rcases first : w.rt.retain h with ⟨err, rt⟩
  cases w.table.find h with
  | none => exact ⟨rfl, rfl, rfl, recounted⟩
  | some m =>
      dsimp only
      split_ifs
      · rcases second : rt.retain m.mainBuff with ⟨err', rt'⟩
        exact ⟨rfl, rfl, rfl, recounted⟩
      · exact ⟨rfl, rfl, rfl, recounted⟩

theorem releaseObjects_frame (w : Wrapper) (h mainBuff : Handle) :
    (releaseObjects w h mainBuff).2.stats = w.stats ∧
      (releaseObjects w h mainBuff).2.statsOn = w.statsOn ∧
      (releaseObjects w h mainBuff).2.svm = w.svm ∧
      (releaseObjects w h mainBuff).2.table = w.table := by
  unfold releaseObjects
  rcases first : w.rt.release h with ⟨err, rt⟩
  dsimp only
  split_ifs
  · rcases second : rt.release mainBuff with ⟨err', rt'⟩
    exact ⟨rfl, rfl, rfl, rfl⟩
  · exact ⟨rfl, rfl, rfl, rfl⟩

/-- The counters after a release: the last one takes the object off. -/
theorem releaseEntry_stats {w : Wrapper} {h : Handle} {m : MemObj} (on : w.statsOn = true)
    {n : Nat} (next : sub32 m.refCount 1 = n) :
    (releaseEntry w h m).stats =
        (if n = 0 then w.stats.free w.internalCreate m else w.stats) ∧
      (releaseEntry w h m).statsOn = true ∧ (releaseEntry w h m).svm = w.svm := by
  simp only [releaseEntry, next]
  split_ifs with last
  · refine ⟨?_, on, rfl⟩
    simp only [Wrapper.count, on, if_true]
    rfl
  · exact ⟨rfl, on, rfl⟩

/-- A sub-buffer is entered without being counted. -/
theorem clCreateSubBuffer_frame {env : Env} {w w' : Wrapper} {buffer handle : Handle}
    {flags : MemFlags} {origin size : Nat} {err : ClStatus}
    (made : clCreateSubBuffer env w buffer flags origin size = some (handle, err, w')) :
    w'.stats = w.stats ∧ w'.statsOn = w.statsOn ∧ w'.svm = w.svm ∧
      (w'.table = w.table ∨
        ∃ m, w'.table = w.table.insert handle m ∧ m.isSub = true ∧
          w.rt.objects.find handle = none) := by
  unfold clCreateSubBuffer at made
  obtain ⟨superBuff, found, made⟩ := Option.bind_eq_some_iff.mp made
  dsimp only at made
  rcases sub : w.rt.createSubBuffer env
      (if superBuff.hasCanary then superBuff.mainBuff else buffer)
      (if superBuff.hasCanary then u64 (origin + POISON_FILL_LENGTH) else origin) size with
    ⟨ret, status, rt⟩
  rw [sub] at made
  dsimp only at made
  obtain ⟨-, ⟨rfl, -, -⟩ | ⟨-, window, owner, -, -, -, creation⟩⟩ :=
    Runtime.createSubBuffer_cases sub
  · rw [if_pos rfl] at made
    simp only [Option.some.injEq, Prod.mk.injEq] at made
    obtain ⟨rfl, rfl, rfl⟩ := made
    exact ⟨rfl, rfl, rfl, Or.inl rfl⟩
  · rw [if_neg creation.notNull] at made
    simp only [Option.some.injEq, Prod.mk.injEq] at made
    obtain ⟨rfl, rfl, rfl⟩ := made
    exact ⟨rfl, rfl, rfl, Or.inr ⟨_, rfl, rfl, creation.fresh⟩⟩

/-! ## Runs -/

/-- A call of a thread, with its `internal_create` flag and whether it is the detector that
makes the call. -/
inductive StatCall where
  | mem (internal detector : Bool) (call : ApiCall)
  | svm (internal detector : Bool) (call : SvmCall)

/-- The wrapper, what is held of it, the ledger and the largest sums so far. -/
structure StatSystem where
  s : SvmState
  app : Table Handle AppObject
  svmApp : Table Nat SvmHeld
  ledger : List Allocation
  peakUser : Nat
  peakOverhead : Nat

/-- The allocation that a creation of the detector or of the application asks for, if it
gets this handle; an image has the pixels of the runtime. -/
def ApiCall.allocation (call : ApiCall) (pixels : PixelSizes) (detector : Bool) (key : Nat) :
    Option Allocation :=
  match call with
  | .createBuffer _ flags size _ => some ⟨false, key, detector, size, bufferCanaryBytes flags⟩
  | .createImage _ flags format desc _ =>
      some ⟨false, key, detector, imageBytes (standardDesc desc) (pixels.size format),
        imageBorderBytes desc (pixels.size format) (flags.useHostPtr || desc.buffer != NULL)⟩
  | .createImage2D _ flags format width height rowPitch _ =>
      let desc : ImageDesc := ⟨.image2D, width, height, 1, 1, rowPitch, 0, 0, 0, NULL⟩
      some ⟨false, key, detector, imageBytes (standardDesc desc) (pixels.size format),
        imageBorderBytes desc (pixels.size format) flags.useHostPtr⟩
  | .createImage3D _ flags format width height depth rowPitch slicePitch _ =>
      let desc : ImageDesc := ⟨.image3D, width, height, depth, 1, rowPitch, slicePitch, 0, 0, NULL⟩
      some ⟨false, key, detector, imageBytes (standardDesc desc) (pixels.size format),
        imageBorderBytes desc (pixels.size format) flags.useHostPtr⟩
  | .createSubBuffer .. | .retain _ | .release _ => none

/-- The handle that a creation returns. -/
def ApiCall.returned (call : ApiCall) (env : Env) (w : Wrapper) : Option Handle :=
  match call with
  | .createBuffer context flags size hostPtr =>
      (clCreateBuffer env w context flags size hostPtr).map Prod.fst
  | .createImage context flags format desc hostPtr =>
      (clCreateImage env w context flags format desc hostPtr).map Prod.fst
  | .createImage2D context flags format width height rowPitch hostPtr =>
      (clCreateImage2D env w context flags format width height rowPitch hostPtr).map Prod.fst
  | .createImage3D context flags format width height depth rowPitch slicePitch hostPtr =>
      (clCreateImage3D env w context flags format width height depth rowPitch slicePitch
        hostPtr).map Prod.fst
  | .createSubBuffer .. | .retain _ | .release _ => none

/-- The ledger after a call on memory objects: a handle that was returned is
entered, and one whose last reference went is struck. -/
def bookMem (env : Env) (w : Wrapper) (detector : Bool) (ledger : List Allocation)
    (call : ApiCall) (app' : Table Handle AppObject) : List Allocation :=
  match call with
  | .release h => if (app'.find h).isNone then strike ledger (false, h) else ledger
  | _ =>
      match call.returned env w with
      | none => ledger
      | some h =>
          if h = NULL then ledger
          else (call.allocation env.pixels detector h).toList ++ ledger

/-- The ledger after a call on shared virtual memory. -/
def bookSvm (env : SvmEnv) (s : SvmState) (detector : Bool) (ledger : List Allocation) :
    SvmCall → List Allocation
  | .alloc context flags size alignment =>
      let ret := (clSVMAlloc env s context flags size alignment).1
      if ret = NULL then ledger
      else ⟨true, ret, detector, size, POISON_REGIONS * POISON_FILL_LENGTH⟩ :: ledger
  | .free _ p => strike ledger (true, p)
  | .enqueueFree _ ps => ps.foldl (fun l p => strike l (true, p)) ledger

namespace StatSystem

/-- The start of a process that keeps the statistics. -/
def initial (host : Nat → UInt8) : StatSystem :=
  ⟨SvmState.initial host true, Table.empty, Table.empty, [], 0, 0⟩

/-- The wrapper as a thread with this flag sees it. -/
def flagged (sys : StatSystem) (internal : Bool) : Wrapper :=
  { sys.s.w with internalCreate := internal }

/-- The memory objects, for a thread with this flag. -/
def mem (sys : StatSystem) (internal : Bool) : System := ⟨sys.flagged internal, sys.app⟩

/-- Shared virtual memory, for a thread with this flag. -/
def svm (sys : StatSystem) (internal : Bool) : SvmSystem :=
  ⟨{ sys.s with w := sys.flagged internal }, sys.svmApp⟩

/-- Move on to a new state and ledger, and remember the largest sums. -/
def settle (sys : StatSystem) (s : SvmState) (app : Table Handle AppObject)
    (svmApp : Table Nat SvmHeld) (ledger : List Allocation) : StatSystem :=
  ⟨s, app, svmApp, ledger, max sys.peakUser (userSum ledger),
    max sys.peakOverhead (overheadSum ledger)⟩

/-- One call. -/
def step (env : Env) (svmEnv : SvmEnv) (sys : StatSystem) : StatCall → Option StatSystem
  | .mem internal detector call =>
      ((sys.mem internal).step env call).map fun t =>
        sys.settle { sys.s with w := t.w } t.app sys.svmApp
          (bookMem env (sys.flagged internal) detector sys.ledger call t.app)
  | .svm internal detector call =>
      ((sys.svm internal).step svmEnv call).map fun t =>
        sys.settle t.s sys.app t.app
          (bookSvm svmEnv (sys.svm internal).s detector sys.ledger call)

/-- The counters are the sums of the ledger, and the high-water marks the largest
ones so far. -/
structure Conserved (sys : StatSystem) : Prop where
  user : sys.s.w.stats.currentUser = userSum sys.ledger
  overhead : sys.s.w.stats.currentOverhead = overheadSum sys.ledger
  highUser : sys.s.w.stats.highUser = sys.peakUser
  highOverhead : sys.s.w.stats.highOverhead = sys.peakOverhead

/-- The sums still fit the counters with this allocation. -/
def Fits (ledger : List Allocation) (a : Allocation) : Prop :=
  userSum (a :: ledger) < 18446744073709551616 ∧
    overheadSum (a :: ledger) < 18446744073709551616

theorem fits_key {ledger : List Allocation} {shared internal : Bool} {key requested canaries : Nat}
    (h : Nat) :
    Fits ledger ⟨shared, key, internal, requested, canaries⟩ ↔
      Fits ledger ⟨shared, h, internal, requested, canaries⟩ :=
  Iff.rfl

/-- The runtime or the cache has shared virtual memory for an allocation. -/
def SvmGranted (env : SvmEnv) (s : SvmState) (context : Handle) (flags : SvmFlags)
    (size alignment : Nat) : Prop :=
  flags.atomics = false ∧
    ((flags.fineGrainBuffer = true ∧
        (s.fg.findFreeSvm context (u64 (size + POISON_REGIONS * POISON_FILL_LENGTH))
          alignment).isSome) ∨
      (env.alloc s.rt.allocs ≠ NULL ∧ s.rt.live.find (env.alloc s.rt.allocs) = none))

/-- The calls that the counters follow: creations succeed and are flagged as internal when
the detector makes them and only then, its own buffers are not put into application memory,
`getImageDataSize` knows the formats of images, a last release is not that of a sub-buffer
and is flagged as the owner's, and shared virtual memory is not freed on a queue. -/
def Accounted (env : Env) (svmEnv : SvmEnv) (sys : StatSystem) : StatCall → Prop
  | .mem internal detector call =>
      (sys.mem internal).Sound env call ∧
        (∀ a, call.allocation env.pixels internal NULL = some a →
          detector = internal ∧ Fits sys.ledger a) ∧
        match call with
        | .createBuffer _ flags size hostPtr =>
            size = 0 ∨ (BufferGranted env sys.s.w flags hostPtr ∧
              (internal = true → flags.useHostPtr = false))
        | .createImage _ _ format .. | .createImage2D _ _ format ..
        | .createImage3D _ _ format .. =>
            env.pixels.size format = getImageDataSize format
        | .release h => ∀ o m, sys.app.find h = some o → o.refs = 1 →
            sys.s.w.table.find h = some m →
              m.isSub = false ∧ ∀ a ∈ sys.ledger, a.name = (false, h) → a.internal = internal
        | _ => True
  | .svm internal detector call =>
      (sys.svm internal).Translates call ∧
        match call with
        | .alloc context flags size alignment =>
            detector = internal ∧ SvmGranted svmEnv sys.s context flags size alignment ∧
              Fits sys.ledger
                ⟨true, NULL, internal, size, POISON_REGIONS * POISON_FILL_LENGTH⟩
        | .free _ p => ∀ a ∈ sys.ledger, a.name = (true, p) → a.internal = internal
        | .enqueueFree .. => True

/-- The entries of the tables and of the ledger correspond. -/
structure Ledger (table : Table Handle MemObj) (svm : OrderedMap Nat SvmObj)
    (ledger : List Allocation) : Prop where
  distinct : (ledger.map Allocation.name).Nodup
  memEntry : ∀ a ∈ ledger, a.shared = false →
    ∃ m, table.find a.key = some m ∧ MemStats.PaysBack m a
  memBooked : ∀ h m, table.find h = some m → m.isSub = false →
    ∃ a ∈ ledger, a.name = (false, h)
  svmEntry : ∀ a ∈ ledger, a.shared = true → ∃ m, svm.find a.key = some m ∧
    m.size = a.requested ∧ a.canaries = POISON_REGIONS * POISON_FILL_LENGTH
  svmBooked : ∀ p m, svm.find p = some m → ∃ a ∈ ledger, a.name = (true, p)

namespace Ledger

variable {table table' : Table Handle MemObj} {svm : OrderedMap Nat SvmObj}
  {ledger : List Allocation}

theorem empty : Ledger Table.empty OrderedMap.empty [] := by
  constructor <;> simp

/-- Reference counts do not matter to the ledger. -/
theorem recount (inv : Ledger table svm ledger) (same : Recounted table table') :
    Ledger table' svm ledger := by
  constructor
  case distinct => exact inv.distinct
  case memEntry =>
    intro a mem kind
    obtain ⟨m, found, pays⟩ := inv.memEntry a mem kind
    obtain ⟨n, found'⟩ := same.find found
    exact ⟨_, found', pays⟩
  case memBooked =>
    intro h m found main
    obtain ⟨n, found'⟩ := same.symm.find found
    exact inv.memBooked h _ found' main
  case svmEntry => exact inv.svmEntry
  case svmBooked => exact inv.svmBooked

/-- An entry that the ledger does not list, under a fresh key. -/
theorem enterSub (inv : Ledger table svm ledger) {h : Handle} {m : MemObj}
    (fresh : table.find h = none) (sub : m.isSub = true) :
    Ledger (table.insert h m) svm ledger := by
  constructor
  case distinct => exact inv.distinct
  case memEntry =>
    intro a mem kind
    obtain ⟨m', found, pays⟩ := inv.memEntry a mem kind
    refine ⟨m', ?_, pays⟩
    rw [Table.find_insert_of_ne ?_, found]
    rintro here
    rw [here, fresh] at found
    simp at found
  case memBooked =>
    intro j m' found main
    by_cases here : j = h
    · subst here
      rw [Table.find_insert_fresh fresh, Option.some.injEq] at found
      rw [← found, sub] at main
      simp at main
    · rw [Table.find_insert_of_ne here] at found
      exact inv.memBooked j m' found main
  case svmEntry => exact inv.svmEntry
  case svmBooked => exact inv.svmBooked

/-- A new memory object and its allocation. -/
theorem enterMem (inv : Ledger table svm ledger) {a : Allocation} {m : MemObj}
    (kind : a.shared = false) (fresh : table.find a.key = none) (pays : MemStats.PaysBack m a) :
    Ledger (table.insert a.key m) svm (a :: ledger) := by
  have unlisted : a.name ∉ ledger.map Allocation.name := by
    intro listed
    obtain ⟨b, mem, same⟩ := List.mem_map.mp listed
    simp only [Allocation.name, Prod.mk.injEq] at same
    obtain ⟨m', found, -⟩ := inv.memEntry b mem (same.1.trans kind)
    rw [same.2, fresh] at found
    simp at found
  constructor
  case distinct =>
    rw [List.map_cons, List.nodup_cons]
    exact ⟨unlisted, inv.distinct⟩
  case memEntry =>
    intro b mem kind'
    rcases List.mem_cons.mp mem with rfl | mem
    · exact ⟨m, Table.find_insert_fresh fresh, pays⟩
    · obtain ⟨m', found, pays'⟩ := inv.memEntry b mem kind'
      refine ⟨m', ?_, pays'⟩
      rw [Table.find_insert_of_ne ?_, found]
      intro here
      rw [here, fresh] at found
      simp at found
  case memBooked =>
    intro j m' found main
    by_cases here : j = a.key
    · exact ⟨a, List.mem_cons_self, by rw [Allocation.name, kind, here]⟩
    · rw [Table.find_insert_of_ne here] at found
      obtain ⟨b, mem, named⟩ := inv.memBooked j m' found main
      exact ⟨b, List.mem_cons_of_mem a mem, named⟩
  case svmEntry =>
    intro b mem kind'
    rcases List.mem_cons.mp mem with rfl | mem
    · rw [kind] at kind'
      simp at kind'
    · exact inv.svmEntry b mem kind'
  case svmBooked =>
    intro p m' found
    obtain ⟨b, mem, named⟩ := inv.svmBooked p m' found
    exact ⟨b, List.mem_cons_of_mem a mem, named⟩

/-- The end of a memory object and of its allocation. -/
theorem leaveMem (inv : Ledger table svm ledger) {h : Handle} (gone : table'.find h = none)
    (others : ∀ j, j ≠ h → table'.find j = table.find j) :
    Ledger table' svm (strike ledger (false, h)) := by
  constructor
  case distinct => exact inv.distinct.sublist (List.filter_sublist.map _)
  case memEntry =>
    intro a mem kind
    obtain ⟨mem, ne⟩ := mem_strike.mp mem
    obtain ⟨m, found, pays⟩ := inv.memEntry a mem kind
    refine ⟨m, ?_, pays⟩
    rw [others a.key fun here => ne (by rw [Allocation.name, kind, here]), found]
  case memBooked =>
    intro j m found main
    have ne : j ≠ h := by
      rintro rfl
      rw [gone] at found
      simp at found
    rw [others j ne] at found
    obtain ⟨a, mem, named⟩ := inv.memBooked j m found main
    refine ⟨a, mem_strike.mpr ⟨mem, ?_⟩, named⟩
    rw [named]
    simpa using ne
  case svmEntry =>
    intro a mem kind
    exact inv.svmEntry a (mem_strike.mp mem).1 kind
  case svmBooked =>
    intro p m found
    obtain ⟨a, mem, named⟩ := inv.svmBooked p m found
    refine ⟨a, mem_strike.mpr ⟨mem, ?_⟩, named⟩
    rw [named]
    simp

/-- New shared virtual memory and its allocation. -/
theorem enterSvm (inv : Ledger table svm ledger) {p : Nat} {m : SvmObj} {internal : Bool}
    (fresh : svm.find p = none) :
    Ledger table (svm.insert p m)
      (⟨true, p, internal, m.size, POISON_REGIONS * POISON_FILL_LENGTH⟩ :: ledger) := by
  constructor
  case distinct =>
    rw [List.map_cons, List.nodup_cons]
    refine ⟨fun listed => ?_, inv.distinct⟩
    obtain ⟨b, mem, same⟩ := List.mem_map.mp listed
    simp only [Allocation.name, Prod.mk.injEq] at same
    obtain ⟨m', found, -⟩ := inv.svmEntry b mem same.1
    rw [same.2, fresh] at found
    simp at found
  case memEntry =>
    intro a mem kind
    rcases List.mem_cons.mp mem with rfl | mem
    · simp at kind
    · exact inv.memEntry a mem kind
  case memBooked =>
    intro h m' found main
    obtain ⟨a, mem, named⟩ := inv.memBooked h m' found main
    exact ⟨a, List.mem_cons_of_mem _ mem, named⟩
  case svmEntry =>
    intro a mem kind
    rcases List.mem_cons.mp mem with rfl | mem
    · refine ⟨m, ?_, rfl, rfl⟩
      rw [OrderedMap.find_insert_fresh fresh, if_pos rfl]
    · obtain ⟨m', found, others⟩ := inv.svmEntry a mem kind
      refine ⟨m', ?_, others⟩
      rw [OrderedMap.find_insert_fresh fresh, if_neg ?_, found]
      intro here
      rw [here, fresh] at found
      simp at found
  case svmBooked =>
    intro q m' found
    by_cases here : q = p
    · exact ⟨_, List.mem_cons_self, by rw [Allocation.name, here]⟩
    · rw [OrderedMap.find_insert_fresh fresh, if_neg here] at found
      obtain ⟨a, mem, named⟩ := inv.svmBooked q m' found
      exact ⟨a, List.mem_cons_of_mem _ mem, named⟩

/-- The end of shared virtual memory and of its allocation. -/
theorem leaveSvm (inv : Ledger table svm ledger) (p : Nat) :
    Ledger table (svm.remove p) (strike ledger (true, p)) := by
  constructor
  case distinct => exact inv.distinct.sublist (List.filter_sublist.map _)
  case memEntry =>
    intro a mem kind
    exact inv.memEntry a (mem_strike.mp mem).1 kind
  case memBooked =>
    intro h m found main
    obtain ⟨a, mem, named⟩ := inv.memBooked h m found main
    refine ⟨a, mem_strike.mpr ⟨mem, ?_⟩, named⟩
    rw [named]
    simp
  case svmEntry =>
    intro a mem kind
    obtain ⟨mem, ne⟩ := mem_strike.mp mem
    obtain ⟨m, found, others⟩ := inv.svmEntry a mem kind
    refine ⟨m, ?_, others⟩
    rw [OrderedMap.find_remove, if_neg fun here => ne (by rw [Allocation.name, kind, here]), found]
  case svmBooked =>
    intro q m found
    rw [OrderedMap.find_remove] at found
    split_ifs at found with here
    obtain ⟨a, mem, named⟩ := inv.svmBooked q m found
    refine ⟨a, mem_strike.mpr ⟨mem, ?_⟩, named⟩
    rw [named]
    simpa using here

end Ledger

/-- The counters against a ledger and the largest sums so far. -/
structure Counted (stats : MemStats) (ledger : List Allocation) (peakUser peakOverhead : Nat) :
    Prop where
  user : stats.currentUser = userSum ledger
  overhead : stats.currentOverhead = overheadSum ledger
  highUser : stats.highUser = peakUser
  highOverhead : stats.highOverhead = peakOverhead
  userPeak : userSum ledger ≤ peakUser
  overheadPeak : overheadSum ledger ≤ peakOverhead
  range : stats.InRange

namespace Counted

variable {stats stats' : MemStats} {ledger : List Allocation} {peakUser peakOverhead : Nat}

theorem keep (inv : Counted stats ledger peakUser peakOverhead) :
    Counted stats ledger (max peakUser (userSum ledger))
      (max peakOverhead (overheadSum ledger)) := by
  rw [max_eq_left inv.userPeak, max_eq_left inv.overheadPeak]
  exact inv

/-- The sums of the ledger do not depend on the key of an allocation. -/
theorem charge (inv : Counted stats ledger peakUser peakOverhead) {a : Allocation}
    (fits : Fits ledger a) (charges : stats.Charges stats' a) :
    Counted stats' (a :: ledger) (max peakUser (userSum (a :: ledger)))
      (max peakOverhead (overheadSum (a :: ledger))) := by
  obtain ⟨userFits, overheadFits⟩ := fits
  have user : stats'.currentUser = userSum (a :: ledger) := by
    rw [charges.user, inv.user, Nat.add_comm, ← userSum_cons, u64_of_lt userFits]
  have overhead : stats'.currentOverhead = overheadSum (a :: ledger) := by
    rw [charges.overhead, inv.overhead, Nat.add_comm, ← overheadSum_cons, u64_of_lt overheadFits]
  constructor
  case user => exact user
  case overhead => exact overhead
  case highUser => rw [charges.highUser, inv.highUser, user]
  case highOverhead => rw [charges.highOverhead, inv.highOverhead, overhead]
  case userPeak => exact le_max_right _ _
  case overheadPeak => exact le_max_right _ _
  case range => exact ⟨by rw [user]; exact userFits, by rw [overhead]; exact overheadFits⟩

theorem covers (inv : Counted stats ledger peakUser peakOverhead) {a : Allocation}
    (mem : a ∈ ledger) : stats.Covers a := by
  obtain ⟨user, overhead⟩ := bytes_le_sums mem
  exact ⟨inv.range, by rw [inv.user]; exact user, by rw [inv.overhead]; exact overhead⟩

theorem refund (inv : Counted stats ledger peakUser peakOverhead) {a : Allocation}
    (mem : a ∈ ledger) (distinct : (ledger.map Allocation.name).Nodup)
    (refunds : stats.Refunds stats' a) :
    Counted stats' (strike ledger a.name) (max peakUser (userSum (strike ledger a.name)))
      (max peakOverhead (overheadSum (strike ledger a.name))) := by
  obtain ⟨userStruck, overheadStruck⟩ := sums_strike mem distinct
  have userPeak := inv.userPeak
  have overheadPeak := inv.overheadPeak
  have userLt := inv.range.user
  have overheadLt := inv.range.overhead
  rw [inv.user] at userLt
  rw [inv.overhead] at overheadLt
  rw [max_eq_left (by omega), max_eq_left (by omega)]
  have user : stats'.currentUser = userSum (strike ledger a.name) := by
    rw [refunds.user, inv.user]
    omega
  have overhead : stats'.currentOverhead = overheadSum (strike ledger a.name) := by
    rw [refunds.overhead, inv.overhead]
    omega
  constructor
  case user => exact user
  case overhead => exact overhead
  case highUser => rw [refunds.highUser, inv.highUser]
  case highOverhead => rw [refunds.highOverhead, inv.highOverhead]
  case userPeak => omega
  case overheadPeak => omega
  case range => exact ⟨by rw [user]; omega, by rw [overhead]; omega⟩

end Counted

/-- The invariant of runs. -/
structure Inv (sys : StatSystem) : Prop where
  on : sys.s.w.statsOn = true
  tracking : Tracking sys.s.w.table sys.s.w.rt.objects sys.app
  bases : SvmSystem.Inv ⟨sys.s, sys.svmApp⟩
  ledger : Ledger sys.s.w.table sys.s.w.svm sys.ledger
  counted : Counted sys.s.w.stats sys.ledger sys.peakUser sys.peakOverhead

theorem Inv.conserved {sys : StatSystem} (inv : sys.Inv) : sys.Conserved :=
  ⟨inv.counted.user, inv.counted.overhead, inv.counted.highUser, inv.counted.highOverhead⟩

theorem inv_initial (host : Nat → UInt8) : (initial host).Inv where
  on := rfl
  tracking := Tracking.empty
  bases := SvmSystem.inv_initial host true
  ledger := Ledger.empty
  counted := ⟨rfl, rfl, rfl, rfl, le_refl _, le_refl _,
    (by decide : 0 < 18446744073709551616), (by decide : 0 < 18446744073709551616)⟩

section Memory

variable {env : Env} {sys : StatSystem} {internal : Bool} {w' : Wrapper}
  {app' : Table Handle AppObject}

/-- Shared virtual memory does not notice calls on memory objects. -/
theorem Inv.bases_mem (inv : sys.Inv) (svm : w'.svm = sys.s.w.svm) :
    SvmSystem.Inv ⟨{ sys.s with w := w' }, sys.svmApp⟩ := by
  refine ⟨?_, inv.bases.real⟩
  dsimp only
  rw [svm]
  exact inv.bases.lending

/-- A call that counts nothing. -/
theorem Inv.quiet (inv : sys.Inv) (tracking : Tracking w'.table w'.rt.objects app')
    (stats : w'.stats = sys.s.w.stats) (statsOn : w'.statsOn = sys.s.w.statsOn)
    (svm : w'.svm = sys.s.w.svm) (ledger : Ledger w'.table sys.s.w.svm sys.ledger) :
    (sys.settle { sys.s with w := w' } app' sys.svmApp sys.ledger).Inv where
  on := statsOn.trans inv.on
  tracking := tracking
  bases := inv.bases_mem svm
  ledger := by
    dsimp only [settle]
    rw [svm]
    exact ledger
  counted := by
    dsimp only [settle]
    rw [stats]
    exact inv.counted.keep

/-- A creation that is booked. -/
theorem Inv.enter (inv : sys.Inv) {a : Allocation}
    (tracking : Tracking w'.table w'.rt.objects app') (booked : Booked (sys.flagged internal) w' a)
    (fits : Fits sys.ledger a) :
    (sys.settle { sys.s with w := w' } app' sys.svmApp (a :: sys.ledger)).Inv := by
  obtain ⟨charges, on, svm, ⟨m, table, handle, -, pays⟩, named, fresh⟩ := booked
  have kind : a.shared = false := by
    rw [Allocation.name, Prod.mk.injEq] at named
    exact named.1
  have unknown : sys.s.w.table.find a.key = none :=
    (inv.tracking.known a.key).mpr (inv.tracking.free_of_fresh fresh)
  refine ⟨on, tracking, inv.bases_mem svm, ?_, inv.counted.charge fits charges⟩
  dsimp only [settle]
  rw [svm, table, clMemInsert, handle]
  exact inv.ledger.enterMem kind unknown pays

/-- A creation whose result is booked when there is a handle. -/
theorem Inv.receive (inv : sys.Inv) {request : AppObject}
    {result : Option (Handle × ClStatus × Wrapper)} {t : System} {a : Nat → Allocation}
    (stepped : result.map ((sys.mem internal).receive request) = some t) (tracking : t.Inv)
    (booked : ∀ h err w', result = some (h, err, w') → h ≠ NULL ∧
      Booked (sys.flagged internal) w' (a h))
    (fits : ∀ h, Fits sys.ledger (a h)) :
    ∃ h, result.map Prod.fst = some h ∧ h ≠ NULL ∧
      (sys.settle { sys.s with w := t.w } t.app sys.svmApp (a h :: sys.ledger)).Inv := by
  obtain ⟨⟨h, err, w'⟩, made, rfl⟩ := Option.map_eq_some_iff.mp stepped
  obtain ⟨notNull, booked⟩ := booked h err w' made
  exact ⟨h, by rw [made]; rfl, notNull, inv.enter tracking booked (fits h)⟩

/-- The last release of an object takes its allocation off. -/
theorem Inv.leave (inv : sys.Inv) {h : Handle} {m : MemObj} {a : Allocation}
    (found : sys.s.w.table.find h = some m) (mem : a ∈ sys.ledger) (named : a.name = (false, h))
    (owner : a.internal = internal) (tracking : Tracking w'.table w'.rt.objects app')
    (stats : w'.stats = sys.s.w.stats.free internal m) (statsOn : w'.statsOn = true)
    (svm : w'.svm = sys.s.w.svm) (gone : w'.table.find h = none)
    (others : ∀ j, j ≠ h → w'.table.find j = sys.s.w.table.find j) :
    (sys.settle { sys.s with w := w' } app' sys.svmApp (strike sys.ledger (false, h))).Inv := by
  rw [Allocation.name, Prod.mk.injEq] at named
  obtain ⟨kind, key⟩ := named
  obtain ⟨m', found', pays⟩ := inv.ledger.memEntry a mem kind
  rw [key, found, Option.some.injEq] at found'
  subst found'
  have refunds := pays _ (inv.counted.covers mem)
  rw [owner, ← stats] at refunds
  refine ⟨statsOn, tracking, inv.bases_mem svm, ?_, ?_⟩
  · dsimp only [settle]
    rw [svm]
    exact inv.ledger.leaveMem gone others
  · have counted := inv.counted.refund mem inv.ledger.distinct refunds
    have struck : strike sys.ledger a.name = strike sys.ledger (false, h) := by
      rw [Allocation.name, kind, key]
    rw [struck] at counted
    exact counted

/-- A handle without an entry is not in the ledger. -/
theorem Inv.strike_unknown (inv : sys.Inv) {h : Handle} (unknown : sys.s.w.table.find h = none) :
    strike sys.ledger (false, h) = sys.ledger := by
  apply List.filter_eq_self.mpr
  intro a mem
  have ne : a.name ≠ (false, h) := by
    intro named
    rw [Allocation.name, Prod.mk.injEq] at named
    obtain ⟨m, found, -⟩ := inv.ledger.memEntry a mem named.1
    rw [named.2, unknown] at found
    simp at found
  simpa using ne

/-- A release keeps the invariant. -/
theorem Inv.release (inv : sys.Inv) {h : Handle} {t : System}
    (last : ∀ o m, sys.app.find h = some o → o.refs = 1 → sys.s.w.table.find h = some m →
      m.isSub = false ∧ ∀ a ∈ sys.ledger, a.name = (false, h) → a.internal = internal)
    (stepped : (sys.mem internal).step env (.release h) = some t) :
    (sys.settle { sys.s with w := t.w } t.app sys.svmApp
      (bookMem env (sys.flagged internal) internal sys.ledger (.release h) t.app)).Inv := by
  rw [System.step] at stepped
  split_ifs at stepped with may
  have sameApp : (sys.mem internal).app = sys.app := rfl
  rcases ran : clReleaseMemObject (sys.mem internal).w h with ⟨err, w'⟩
  rw [ran, sameApp] at stepped
  change clReleaseMemObject (sys.flagged internal) h = (err, w') at ran
  cases held : sys.app.find h with
  | none =>
      have unknown : sys.s.w.table.find h = none := (inv.tracking.known h).mpr held
      have dead : sys.s.w.rt.objects.find h = none := by
        simpa [System.mayPass, mem, flagged, held] using may
      have unfolded : clReleaseMemObject (sys.flagged internal) h =
          (some .invalidMemObject, sys.flagged internal) := by
        rw [clReleaseMemObject]
        simp [flagged, unknown, releaseObjects, Runtime.release_of_dead dead]
      rw [unfolded, Prod.mk.injEq] at ran
      obtain ⟨rfl, rfl⟩ := ran
      rw [← Option.some.inj stepped]
      have book : bookMem env (sys.flagged internal) internal sys.ledger (.release h) sys.app =
          sys.ledger := by
        simp [bookMem, held, inv.strike_unknown unknown]
      dsimp only
      rw [book]
      exact inv.quiet inv.tracking rfl rfl rfl inv.ledger
  | some o =>
      obtain ⟨m, found⟩ := inv.tracking.entry_of_held held
      obtain ⟨count, positive, small⟩ := inv.tracking.counted h m o found held
      have next : sub32 m.refCount 1 = o.refs - 1 := by rw [count, sub32_of_le small positive]
      obtain ⟨rfl, tracking'⟩ :=
        clReleaseMemObject_tracking (w := sys.flagged internal) inv.tracking held ran
      rw [← Option.some.inj stepped]
      obtain ⟨stats, statsOn, svm⟩ :=
        releaseEntry_stats (w := sys.flagged internal) (h := h) inv.on next
      obtain ⟨-, entries⟩ := releaseEntry_cases (w := sys.flagged internal) found next
      have foundFlagged : (sys.flagged internal).table.find h = some m := found
      obtain ⟨sameStats, sameOn, sameSvm, sameTable⟩ :=
        releaseObjects_frame (releaseEntry (sys.flagged internal) h m) h m.mainBuff
      simp only [clReleaseMemObject, foundFlagged] at ran
      rw [ran] at sameStats sameOn sameSvm sameTable
      dsimp only at sameStats sameOn sameSvm sameTable ⊢
      rw [← sameTable] at entries
      by_cases lastOne : o.refs = 1
      · have gone : (released sys.app h).find h = none := by
          simp [released, held, lastOne]
        obtain ⟨main, owner⟩ := last o m held lastOne found
        obtain ⟨a, aMem, named⟩ := inv.ledger.memBooked h m found main
        have book : bookMem env (sys.flagged internal) internal sys.ledger (.release h)
            (released sys.app h) = strike sys.ledger (false, h) := by
          simp [bookMem, gone]
        rw [book]
        refine inv.leave found aMem named (owner a aMem named) tracking' ?_ ?_ ?_ ?_ ?_
        · rw [sameStats, stats, if_pos (by omega)]
          rfl
        · rw [sameOn, statsOn]
        · rw [sameSvm, svm]
          rfl
        · rw [entries, if_pos rfl, if_pos (by omega)]
        · intro j ne
          rw [entries, if_neg ne]
          rfl
      · have stays : ((released sys.app h).find h).isNone = false := by
          have more : ¬ o.refs ≤ 1 := by omega
          simp [released, held, more]
        have book : bookMem env (sys.flagged internal) internal sys.ledger (.release h)
            (released sys.app h) = sys.ledger := by
          simp [bookMem, stays]
        rw [book]
        refine inv.quiet tracking' ?_ ?_ ?_ (inv.ledger.recount fun j => ?_)
        · rw [sameStats, stats, if_neg (by omega)]
          rfl
        · rw [sameOn, statsOn, inv.on]
        · rw [sameSvm, svm]
          rfl
        · rw [entries]
          split_ifs with here last
          · omega
          · rw [here, found]
            rfl
          · rfl

/-- A retain keeps the invariant. -/
theorem Inv.retain (inv : sys.Inv) {h : Handle} {t : System} (tracking : t.Inv)
    (stepped : (sys.mem internal).step env (.retain h) = some t) :
    (sys.settle { sys.s with w := t.w } t.app sys.svmApp sys.ledger).Inv := by
  obtain ⟨stats, statsOn, svm, recounted⟩ := clRetainMemObject_frame (sys.flagged internal) h
  have same : t.w = (clRetainMemObject (sys.flagged internal) h).2 := by
    rw [System.step] at stepped
    split_ifs at stepped
    change _ = (clRetainMemObject (sys.mem internal).w h).2
    rcases ran : clRetainMemObject (sys.mem internal).w h with ⟨_ | error, w'⟩ <;>
      rw [ran] at stepped <;> rw [← Option.some.inj stepped]
  rw [← same] at stats statsOn svm recounted
  exact inv.quiet tracking stats statsOn svm (inv.ledger.recount recounted)

/-- The creation of a sub-buffer keeps the invariant. -/
theorem Inv.createSubBuffer (inv : sys.Inv) {buffer : Handle} {flags : MemFlags}
    {origin size : Nat} {t : System} (tracking : t.Inv)
    (stepped : (sys.mem internal).step env (.createSubBuffer buffer flags origin size) = some t) :
    (sys.settle { sys.s with w := t.w } t.app sys.svmApp sys.ledger).Inv := by
  rw [System.step] at stepped
  obtain ⟨parent, -, stepped⟩ := Option.bind_eq_some_iff.mp stepped
  obtain ⟨⟨h, err, w'⟩, made, rfl⟩ := Option.map_eq_some_iff.mp stepped
  obtain ⟨stats, statsOn, svm, entered⟩ := clCreateSubBuffer_frame made
  refine inv.quiet tracking stats statsOn svm ?_
  rcases entered with table | ⟨m, table, sub, fresh⟩
  · dsimp only [System.receive]
    rw [table]
    exact inv.ledger
  · dsimp only [System.receive]
    rw [table]
    exact inv.ledger.enterSub
      ((inv.tracking.known h).mpr (inv.tracking.free_of_fresh fresh)) sub

theorem bookMem_created (call : ApiCall) {h : Handle} (creation : ∀ j, call ≠ .release j)
    (returned : call.returned env (sys.flagged internal) = some h) (notNull : h ≠ NULL) :
    bookMem env (sys.flagged internal) internal sys.ledger call app' =
      (call.allocation env.pixels internal h).toList ++ sys.ledger := by
  cases call with
  | release j => exact absurd rfl (creation j)
  | retain => simp [ApiCall.returned] at returned
  | createSubBuffer => simp [ApiCall.returned] at returned
  | createBuffer => simp [bookMem, returned, notNull]
  | createImage => simp [bookMem, returned, notNull]
  | createImage2D => simp [bookMem, returned, notNull]
  | createImage3D => simp [bookMem, returned, notNull]

/-- The ledger names the owner of a creation as the flag does when the two agree. -/
theorem bookMem_owned {detector : Bool} {w : Wrapper} {ledger : List Allocation} (call : ApiCall)
    (owned : ∀ a, call.allocation env.pixels internal NULL = some a → detector = internal) :
    bookMem env w detector ledger call app' = bookMem env w internal ledger call app' := by
  cases call with
  | createSubBuffer | retain | release => rfl
  | createBuffer | createImage | createImage2D | createImage3D => rw [owned _ rfl]

/-- Every accounted call on memory objects keeps the invariant. -/
theorem Inv.mem_step {svmEnv : SvmEnv} (inv : sys.Inv) {detector : Bool} {call : ApiCall}
    {t : System} (accounted : sys.Accounted env svmEnv (.mem internal detector call))
    (stepped : (sys.mem internal).step env call = some t) :
    (sys.settle { sys.s with w := t.w } t.app sys.svmApp
      (bookMem env (sys.flagged internal) detector sys.ledger call t.app)).Inv := by
  obtain ⟨sound, owned, accounted⟩ := accounted
  have fits : ∀ a, call.allocation env.pixels internal NULL = some a → Fits sys.ledger a :=
    fun a asked => (owned a asked).2
  rw [bookMem_owned call fun a asked => (owned a asked).1]
  have tracking : t.Inv := System.inv_step (s := sys.mem internal) inv.tracking sound stepped
  have range : (sys.flagged internal).stats.InRange := inv.counted.range
  cases call with
  | createBuffer context flags size hostPtr =>
      by_cases sized : size = 0
      · subst sized
        have result : clCreateBuffer env (sys.flagged internal) context flags 0 hostPtr =
            some (NULL, some .invalidBufferSize, sys.flagged internal) := by
          rw [clCreateBuffer, if_pos rfl]
        have book : bookMem env (sys.flagged internal) internal sys.ledger
            (.createBuffer context flags 0 hostPtr) t.app = sys.ledger := by
          simp [bookMem, ApiCall.returned, result]
        have unchanged : t.w = sys.flagged internal := by
          have stepped' : (clCreateBuffer env (sys.flagged internal) context flags 0 hostPtr).map
            ((sys.mem internal).receive (bufferRequest context flags 0)) = some t := stepped
          rw [result] at stepped'
          rw [← Option.some.inj stepped']
          rfl
        rw [book]
        have tracking' : Tracking t.w.table t.w.rt.objects t.app := tracking
        rw [unchanged] at tracking' ⊢
        exact inv.quiet tracking' rfl rfl rfl inv.ledger
      · obtain ⟨granted, owner⟩ := accounted.resolve_left sized
        obtain ⟨h, returned, notNull, inv'⟩ := inv.receive (a := fun h =>
            ⟨false, h, internal, size, bufferCanaryBytes flags⟩) stepped tracking
          (fun h err w' made => clCreateBuffer_booked (w := sys.flagged internal) inv.on range sized
            granted owner made)
          (fun h => (fits_key h).mp (fits _ rfl))
        rw [bookMem_created (.createBuffer context flags size hostPtr) (by simp) returned notNull]
        exact inv'
  | createSubBuffer buffer flags origin size => exact inv.createSubBuffer tracking stepped
  | createImage context flags format desc hostPtr =>
      obtain ⟨h, returned, notNull, inv'⟩ := inv.receive (a := fun h =>
          ⟨false, h, internal, imageBytes (standardDesc desc) (env.pixels.size format),
            imageBorderBytes desc (env.pixels.size format)
              (flags.useHostPtr || desc.buffer != NULL)⟩)
        stepped tracking
        (fun h err w' made => createImageCommon_booked (w := sys.flagged internal) inv.on range
          inv.tracking.null sound accounted (fun t => ⟨0, 0, rfl⟩) made)
        (fun h => (fits_key h).mp (fits _ rfl))
      rw [bookMem_created (.createImage context flags format desc hostPtr) (by simp) returned
        notNull]
      exact inv'
  | createImage2D context flags format width height rowPitch hostPtr =>
      obtain ⟨h, returned, notNull, inv'⟩ := inv.receive (a := fun h =>
          ⟨false, h, internal, imageBytes (standardDesc
            ⟨.image2D, width, height, 1, 1, rowPitch, 0, 0, 0, NULL⟩) (env.pixels.size format),
            imageBorderBytes ⟨.image2D, width, height, 1, 1, rowPitch, 0, 0, 0, NULL⟩
              (env.pixels.size format) flags.useHostPtr⟩) stepped tracking
        (fun h err w' made => createImageCommon_booked (w := sys.flagged internal) inv.on range
          inv.tracking.null sound accounted
          (fun t => ⟨t.imageDesc.imageRowPitch, t.imageDesc.imageSlicePitch, rfl⟩) made)
        (fun h => (fits_key h).mp (fits _ rfl))
      rw [bookMem_created
        (.createImage2D context flags format width height rowPitch hostPtr)
        (by simp) returned notNull]
      exact inv'
  | createImage3D context flags format width height depth rowPitch slicePitch hostPtr =>
      obtain ⟨h, returned, notNull, inv'⟩ := inv.receive (a := fun h =>
          ⟨false, h, internal, imageBytes (standardDesc
            ⟨.image3D, width, height, depth, 1, rowPitch, slicePitch, 0, 0, NULL⟩)
              (env.pixels.size format),
            imageBorderBytes ⟨.image3D, width, height, depth, 1, rowPitch, slicePitch, 0, 0, NULL⟩
              (env.pixels.size format) flags.useHostPtr⟩) stepped tracking
        (fun h err w' made => createImageCommon_booked (w := sys.flagged internal) inv.on range
          inv.tracking.null sound accounted
          (fun t => ⟨t.imageDesc.imageRowPitch, t.imageDesc.imageSlicePitch, rfl⟩) made)
        (fun h => (fits_key h).mp (fits _ rfl))
      rw [bookMem_created
        (.createImage3D context flags format width height depth rowPitch slicePitch hostPtr)
        (by simp) returned notNull]
      exact inv'
  | retain h => exact inv.retain tracking stepped
  | release h => exact inv.release accounted stepped

end Memory

section Shared

variable {env : SvmEnv} {s s' : SvmState} {app : Table Nat SvmHeld} {context : Handle}
  {flags : SvmFlags} {size alignment : Nat}

theorem svmAlloc_of_granted {rt : SvmRuntime} {n : Nat} (notNull : env.alloc rt.allocs ≠ NULL)
    (fresh : rt.live.find (env.alloc rt.allocs) = none) :
    (rt.svmAlloc env context flags n).1 ≠ NULL := by
  simp [SvmRuntime.svmAlloc, notNull, fresh]

theorem internalSVMAlloc_of_granted (inv : Lending s.w.svm s.fg s.rt.live app)
    (granted : SvmGranted env s context flags size alignment) :
    (internalSVMAlloc env s context flags (u64 (size + POISON_REGIONS * POISON_FILL_LENGTH))
      alignment).1 ≠ NULL := by
  obtain ⟨supported, supplied⟩ := granted
  generalize u64 (size + POISON_REGIONS * POISON_FILL_LENGTH) = sizeAug at supplied ⊢
  rw [internalSVMAlloc, if_neg (by simp [supported])]
  cases fine : flags.fineGrainBuffer with
  | true =>
      rw [if_pos rfl]
      dsimp only
      cases search : s.fg.findFreeSvm context sizeAug alignment with
      | some found =>
          obtain ⟨base, fg⟩ := found
          obtain ⟨r, mem, rfl, -⟩ := FgCache.findFreeSvm_cases search
          exact (inv.idle context r mem).2.1
      | none =>
          rw [search] at supplied
          obtain ⟨notNull, fresh⟩ := supplied.resolve_left (by simp)
          have answered : (s.rt.svmAlloc env context
              { readWrite := true, fineGrainBuffer := true } sizeAug).1 ≠ NULL :=
            svmAlloc_of_granted notNull fresh
          rcases real : s.rt.svmAlloc env context
            { readWrite := true, fineGrainBuffer := true } sizeAug with ⟨ret, rt⟩
          rw [real] at answered
          dsimp only at answered ⊢
          rw [if_pos answered]
          exact answered
  | false =>
      rw [if_neg (by simp)]
      obtain ⟨notNull, fresh⟩ := supplied.resolve_left (by simp [fine])
      exact svmAlloc_of_granted notNull fresh

/-- Granted shared virtual memory is counted. -/
theorem clSVMAlloc_booked {ret : Nat} (inv : Lending s.w.svm s.fg s.rt.live app)
    (on : s.w.statsOn = true) (range : s.w.stats.InRange)
    (granted : SvmGranted env s context flags size alignment)
    (ran : clSVMAlloc env s context flags size alignment = (ret, s')) :
    ret ≠ NULL ∧ s'.w.table = s.w.table ∧ s'.w.rt = s.w.rt ∧ s'.w.statsOn = true ∧
      s.w.stats.Charges s'.w.stats
        ⟨true, ret, s.w.internalCreate, size, POISON_REGIONS * POISON_FILL_LENGTH⟩ ∧
      ∃ m : SvmObj, s'.w.svm = s.w.svm.insert ret m ∧ m.size = size ∧ s.w.svm.find ret = none := by
  rw [clSVMAlloc] at ran
  dsimp only at ran
  have counted : ((s.w.count fun c => c.allocateSvm s.w.internalCreate size).count
      MemStats.raise).stats = (s.w.stats.allocateSvm s.w.internalCreate size).raise := by
    simp [Wrapper.count, on]
  generalize wCounted : ((s.w.count fun c => c.allocateSvm s.w.internalCreate size).count
    MemStats.raise) = w at ran counted
  have frame : w.svm = s.w.svm ∧ w.table = s.w.table ∧ w.rt = s.w.rt ∧ w.statsOn = true := by
    rw [← wCounted]
    exact ⟨rfl, rfl, rfl, on⟩
  obtain ⟨svm, table, rt, statsOn⟩ := frame
  have lending : Lending w.svm s.fg s.rt.live app := by
    rw [svm]
    exact inv
  have notNull : (internalSVMAlloc env { s with w := w } context flags
      (u64 (size + POISON_REGIONS * POISON_FILL_LENGTH)) alignment).1 ≠ NULL :=
    internalSVMAlloc_of_granted (s := { s with w := w }) lending granted
  rcases inner : internalSVMAlloc env { s with w := w } context flags
    (u64 (size + POISON_REGIONS * POISON_FILL_LENGTH)) alignment with ⟨base, t⟩
  rw [inner] at ran notNull
  dsimp only at ran notNull
  obtain ⟨sameW, -, answer⟩ := internalSVMAlloc_cases (s := { s with w := w }) lending inner
  rw [if_neg notNull, Prod.mk.injEq] at ran
  obtain ⟨rfl, rfl⟩ := ran
  obtain ⟨null, -⟩ | ⟨-, unheld, -⟩ := answer
  · exact absurd null notNull
  · dsimp only at sameW
    have key : s.w.svm.find (base + POISON_FILL_LENGTH) = none := inv.known _ unheld
    rw [sameW]
    refine ⟨by simp [POISON_FILL_LENGTH, NULL], table, rt, statsOn, ?_,
      ⟨base + POISON_FILL_LENGTH, base, context, size, false⟩, ?_, rfl, key⟩
    · dsimp only
      rw [counted]
      exact MemStats.charges_svm range _ size s.w.internalCreate
    · dsimp only [clSvmMemInsert]
      rw [svm]

/-- Freed shared virtual memory is taken off. -/
theorem freeSvm_refunds {stats : MemStats} {a : Allocation} (covers : stats.Covers a)
    (canaries : a.canaries = POISON_REGIONS * POISON_FILL_LENGTH) :
    stats.Refunds (stats.freeSvm a.internal a.requested) a := by
  obtain ⟨⟨userLt, overheadLt⟩, user, overhead⟩ := covers
  rw [Allocation.overheadBytes] at overhead
  rw [Allocation.userBytes] at user
  cases internal : a.internal with
  | false =>
      rw [internal, if_neg (by simp)] at user overhead
      rw [canaries] at overhead
      constructor <;>
        simp [MemStats.freeSvm, Allocation.userBytes, Allocation.overheadBytes, internal, canaries,
          sub64_of_le userLt user, sub64_of_le overheadLt overhead]
  | true =>
      rw [internal, if_pos rfl, canaries] at overhead
      constructor <;>
        simp [MemStats.freeSvm, Allocation.userBytes, Allocation.overheadBytes, internal, canaries,
          sub64_of_le overheadLt overhead]

/-- What freeing a known pointer does to the wrapper. -/
theorem clSVMFree_frame {p : Nat} {m : SvmObj} (on : s.w.statsOn = true) (notNull : p ≠ NULL)
    (found : s.w.svm.find p = some m) :
    (clSVMFree s context p).w.table = s.w.table ∧ (clSVMFree s context p).w.rt = s.w.rt ∧
      (clSVMFree s context p).w.statsOn = true ∧
      (clSVMFree s context p).w.stats = s.w.stats.freeSvm s.w.internalCreate m.size ∧
      (clSVMFree s context p).w.svm = s.w.svm.remove p := by
  rw [clSVMFree, if_neg notNull, found]
  dsimp only
  have counted : (s.w.count fun c => c.freeSvm s.w.internalCreate m.size).stats =
      s.w.stats.freeSvm s.w.internalCreate m.size := by
    simp [Wrapper.count, on]
  split_ifs
  · exact ⟨rfl, rfl, on, counted, rfl⟩
  · rcases s.fg.clSvmFgFree context m.mainBuff with ⟨_ | _, fg⟩ <;>
      exact ⟨rfl, rfl, on, counted, rfl⟩

end Shared

/-- Every accounted call on shared virtual memory keeps the invariant. -/
theorem Inv.svm_step {env : Env} {svmEnv : SvmEnv} {sys : StatSystem} {internal detector : Bool}
    (inv : sys.Inv) {call : SvmCall} {t : SvmSystem}
    (accounted : sys.Accounted env svmEnv (.svm internal detector call))
    (stepped : (sys.svm internal).step svmEnv call = some t) :
    (sys.settle t.s sys.app t.app
      (bookSvm svmEnv (sys.svm internal).s detector sys.ledger call)).Inv := by
  obtain ⟨translates, accounted⟩ := accounted
  have basesBefore : (sys.svm internal).Inv := ⟨inv.bases.lending, inv.bases.real⟩
  have bases : t.Inv := SvmSystem.inv_step basesBefore translates stepped
  have on : (sys.svm internal).s.w.statsOn = true := inv.on
  have range : (sys.svm internal).s.w.stats.InRange := inv.counted.range
  cases call with
  | alloc context flags size alignment =>
      obtain ⟨rfl, granted, fits⟩ := accounted
      rcases ran : clSVMAlloc svmEnv (sys.svm detector).s context flags size alignment
        with ⟨ret, s'⟩
      rw [SvmSystem.step, ran] at stepped
      obtain ⟨notNull, table, rt, statsOn, charges, m, svm, sized, fresh⟩ :=
        clSVMAlloc_booked basesBefore.lending on range granted ran
      rw [← Option.some.inj stepped] at bases ⊢
      have book : bookSvm svmEnv (sys.svm detector).s detector sys.ledger
          (.alloc context flags size alignment) =
          ⟨true, ret, detector, m.size, POISON_REGIONS * POISON_FILL_LENGTH⟩ :: sys.ledger := by
        simp [bookSvm, ran, notNull, sized]
      rw [book]
      constructor
      case on => exact statsOn
      case tracking =>
        dsimp only [settle]
        rw [table, rt]
        exact inv.tracking
      case bases => exact bases
      case ledger =>
        dsimp only [settle]
        rw [table, svm]
        exact inv.ledger.enterSvm fresh
      case counted =>
        rw [sized]
        exact inv.counted.charge ((fits_key ret).mp fits) charges
  | free context p =>
      rw [SvmSystem.step] at stepped
      split_ifs at stepped with mayFree
      rw [← Option.some.inj stepped] at bases ⊢
      by_cases null : p = NULL
      · subst null
        have unchanged : clSVMFree (sys.svm internal).s context NULL = (sys.svm internal).s := by
          rw [clSVMFree, if_pos rfl]
        have unlisted : strike sys.ledger (true, NULL) = sys.ledger := by
          apply List.filter_eq_self.mpr
          intro a mem
          have ne : a.name ≠ (true, NULL) := by
            intro named
            rw [Allocation.name, Prod.mk.injEq] at named
            obtain ⟨m, found, -⟩ := inv.ledger.svmEntry a mem named.1
            rw [named.2, inv.bases.lending.known NULL inv.bases.lending.null_free] at found
            simp at found
          simpa using ne
        rw [unchanged] at bases ⊢
        refine ⟨inv.on, inv.tracking, bases, ?_, ?_⟩
        · dsimp only [settle, bookSvm]
          rw [unlisted]
          exact inv.ledger
        · dsimp only [settle, bookSvm]
          rw [unlisted]
          exact inv.counted.keep
      · obtain ⟨h, held⟩ := Option.isSome_iff_exists.mp (mayFree.resolve_left null)
        obtain ⟨m, -, found, -⟩ := inv.bases.lending.held p h held
        have foundFlagged : (sys.svm internal).s.w.svm.find p = some m := found
        obtain ⟨table, rt, statsOn, stats, svm⟩ :=
          @clSVMFree_frame _ context p m on null foundFlagged
        obtain ⟨a, mem, named⟩ := inv.ledger.svmBooked p m found
        have kind := named
        rw [Allocation.name, Prod.mk.injEq] at kind
        obtain ⟨m', found', sized, canaries⟩ := inv.ledger.svmEntry a mem kind.1
        rw [kind.2] at found'
        obtain rfl : m = m' := Option.some.inj (found.symm.trans found')
        have refunds := freeSvm_refunds (inv.counted.covers mem) canaries
        rw [accounted a mem named, ← sized] at refunds
        constructor
        case on => exact statsOn
        case tracking =>
          dsimp only [settle]
          rw [table, rt]
          exact inv.tracking
        case bases => exact bases
        case ledger =>
          dsimp only [settle, bookSvm]
          rw [table, svm]
          exact inv.ledger.leaveSvm p
        case counted =>
          dsimp only [settle, bookSvm]
          rw [stats, ← named]
          exact inv.counted.refund mem inv.ledger.distinct refunds
  | enqueueFree context ps =>
      obtain rfl : ps = [] := translates
      rw [SvmSystem.step, if_pos (by simp)] at stepped
      rw [← Option.some.inj stepped] at bases ⊢
      exact ⟨inv.on, inv.tracking, bases, inv.ledger, inv.counted.keep⟩

/-- Every accounted call keeps the invariant. -/
theorem inv_step {env : Env} {svmEnv : SvmEnv} {sys sys' : StatSystem} {call : StatCall}
    (inv : sys.Inv) (accounted : sys.Accounted env svmEnv call)
    (stepped : sys.step env svmEnv call = some sys') : sys'.Inv := by
  cases call with
  | mem internal detector call =>
      obtain ⟨t, ran, rfl⟩ := Option.map_eq_some_iff.mp stepped
      exact inv.mem_step accounted ran
  | svm internal detector call =>
      obtain ⟨t, ran, rfl⟩ := Option.map_eq_some_iff.mp stepped
      exact inv.svm_step accounted ran

/-- In every run of accounted calls the counters are the sums of the ledger. -/
theorem conserved_of_run {env : Env} {svmEnv : SvmEnv} {host : Nat → UInt8} {sys : StatSystem}
    (run : Run.Reach (step env svmEnv) (Accounted env svmEnv) (initial host) sys) :
    sys.Conserved := by
  have inv : sys.Inv := run.invariant (inv_initial host) fun _ _ _ inv ok stepped =>
    inv_step inv ok stepped
  exact inv.conserved

/-- A runtime that creates nothing. -/
def refuseAll : Env := ⟨fun _ => .refused .outOfResources, countedSizes, fun _ => true⟩

/-- A buffer, an image and shared virtual memory of the application and a buffer of the
detector; the application's buffer and its shared virtual memory are given back. -/
theorem conserved_of_run_buffer :
    ∃ sys, sys.ledger = [⟨false, 5, false, 12, 64⟩, ⟨false, 4, true, 40, 8192⟩] ∧
      sys.peakUser = 115 ∧
      Run.Reach (step grantAll SvmSystem.megabytes) (Accounted grantAll SvmSystem.megabytes)
        (initial (fun _ => 5)) sys ∧
      sys.Conserved := by
  have start : Run.Reach (step grantAll SvmSystem.megabytes)
      (Accounted grantAll SvmSystem.megabytes) (initial (fun _ => 5)) (initial (fun _ => 5)) :=
    .refl
  have first := start.getD (.mem false false (.createBuffer 7 {} 3 NULL))
    (by
      refine ⟨trivial, fun a made => ?_, .inr ⟨⟨⟨1, rfl, by decide, rfl⟩, rfl⟩, by simp⟩⟩
      obtain rfl := Option.some.inj made
      exact ⟨rfl, by decide +kernel, by decide +kernel⟩)
    (by decide +kernel)
  have second := first.getD (.mem true true (.createBuffer 7 {} 40 NULL))
    (by
      refine ⟨trivial, fun a made => ?_, .inr ⟨⟨⟨3, rfl, by decide, rfl⟩, rfl⟩, by simp⟩⟩
      obtain rfl := Option.some.inj made
      exact ⟨rfl, by decide +kernel, by decide +kernel⟩)
    (by decide +kernel)
  have image := second.getD (.mem false false (.createImage 7 {} ⟨.rgba, .unsignedInt8⟩
      ⟨.image1D, 3, 0, 0, 0, 0, 0, 0, 0, NULL⟩ NULL))
    (by
      refine ⟨⟨Or.inr (by decide), by simp⟩, fun a made => ?_, by decide⟩
      obtain rfl := Option.some.inj made
      exact ⟨rfl, by decide +kernel, by decide +kernel⟩)
    (by decide +kernel)
  have third := image.getD (.svm false false (.alloc 7 {} 100 0))
    ⟨trivial, rfl, ⟨rfl, .inr ⟨by decide +kernel, rfl⟩⟩, by decide +kernel, by decide +kernel⟩
    (by decide +kernel)
  have freed := third.getD (.svm false false (.free 7 1052672))
    (by
      refine ⟨fun h held => ?_, by decide +kernel⟩
      obtain rfl := Option.some.inj
        (held.symm.trans (by decide +kernel : _ = some (⟨7, false⟩ : SvmHeld)))
      rfl)
    (by decide +kernel)
  have released := freed.getD (.mem false false (.release 2))
    (by
      refine ⟨trivial, by simp [ApiCall.allocation], fun o m held last found => ⟨?_, ?_⟩⟩
      · have main := congrArg (Option.map MemObj.isSub) found
        exact Option.some.inj (main.symm.trans (by decide +kernel))
      · decide +kernel)
    (by decide +kernel)
  exact ⟨_, by decide +kernel, by decide +kernel, released, conserved_of_run released⟩

/-- A refused creation stays counted, and a buffer that the detector makes before it sets
the flag is counted as the application's. -/
theorem not_conserved_refused :
    (∃ sys, Run.Reach (step refuseAll SvmSystem.megabytes) (fun _ _ => True)
        (initial (fun _ => 5)) sys ∧
      sys.ledger = [] ∧ sys.s.w.stats.currentUser = 3 ∧ ¬ sys.Conserved) ∧
    ∃ sys, Run.Reach (step grantAll SvmSystem.megabytes) (fun _ _ => True)
        (initial (fun _ => 5)) sys ∧
      sys.ledger = [⟨false, 2, true, 4, 8192⟩] ∧ sys.s.w.stats.currentUser = 4 ∧
      ¬ sys.Conserved := by
  constructor
  · have first : Run.Reach (step refuseAll SvmSystem.megabytes) (fun _ _ => True)
        (initial (fun _ => 5)) _ :=
      .tail (a := .mem false false (.createBuffer 7 {} 3 NULL)) .refl trivial rfl
    refine ⟨_, first, rfl, rfl, fun conserved => ?_⟩
    have user : 3 = 0 := conserved.user
    exact absurd user (by decide)
  · have first : Run.Reach (step grantAll SvmSystem.megabytes) (fun _ _ => True)
        (initial (fun _ => 5)) _ :=
      .tail (a := .mem false true (.createBuffer 7 {} 4 NULL)) .refl trivial rfl
    refine ⟨_, first, rfl, rfl, fun conserved => ?_⟩
    have user : 4 = 0 := conserved.user
    exact absurd user (by decide)

end StatSystem

end Clarmor

