import Clarmor.Check.Mend

/-!
# Where the canaries of a buffer lie

A buffer that `clCreateBuffer` puts into a backing buffer of its own has a
canary on either side of the application's bytes.  The creation, the two checks
and the repair agree on the second canary as long as its offset is not cut off.
-/

namespace Clarmor

open Word Store
open Clarmor.Runtime (Created)

/-! ## What a creation does -/

/-- A backing buffer, and the handed-out range of it. -/
structure OwnBacking (rt rt' : Runtime) (handle mainBuff context : Handle) (size sizeAug : Nat)
    (data : Option (Nat → UInt8)) : Prop where
  backed : ∃ between,
    Created rt between mainBuff (.buffer ⟨rt.creations, 0, sizeAug⟩ false) context ∧
    Created between rt' handle (.buffer ⟨rt.creations, POISON_FILL_LENGTH, size⟩ true) context
  inside : POISON_FILL_LENGTH + size ≤ sizeAug
  bytes : ∀ host, data = some host → rt'.bytes rt.creations = host

section OwnBacking

variable {rt rt' : Runtime} {handle mainBuff context : Handle} {size sizeAug : Nat}
  {data : Option (Nat → UInt8)}

/-- The handed-out range is not the backing buffer. -/
theorem OwnBacking.differ (own : OwnBacking rt rt' handle mainBuff context size sizeAug data) :
    mainBuff ≠ handle := by
  rintro rfl
  obtain ⟨between, main, sub⟩ := own.backed
  have fresh := sub.fresh
  rw [main.objects, Table.find_insert_fresh main.fresh] at fresh
  simp at fresh

/-- Its handle is new. -/
theorem OwnBacking.fresh (own : OwnBacking rt rt' handle mainBuff context size sizeAug data) :
    rt.objects.find handle = none := by
  have differ := own.differ
  obtain ⟨between, main, sub⟩ := own.backed
  have fresh := sub.fresh
  rwa [main.objects, Table.find_insert_of_ne differ.symm] at fresh

end OwnBacking

/-- The three outcomes of a creation that returns: no buffer, the application's
own memory, and a backing buffer. -/
theorem createBacking_cases {env : Env} {w w' : Wrapper} {context handle : Handle}
    {flags : MemFlags} {size sizeAug hostPtr : Nat} {data : Option (Nat → UInt8)}
    {err : ClStatus}
    (made : createBacking env w context flags size sizeAug hostPtr data = some (handle, err, w')) :
    (handle = NULL ∧ err ≠ none ∧ w'.table = w.table ∧ w'.rt.objects = w.rt.objects) ∨
      (flags.useHostPtr = true ∧
        Created w.rt w'.rt handle (.buffer ⟨w.rt.creations, 0, sizeAug⟩ false) context ∧
        w'.table =
          clMemInsert w.table (bufferObject handle handle context flags size hostPtr)) ∨
      (flags.useHostPtr = false ∧ ∃ mainBuff,
        OwnBacking w.rt w'.rt handle mainBuff context size sizeAug data ∧
        w'.table =
          clMemInsert w.table (bufferObject handle mainBuff context flags size hostPtr)) := by
  unfold createBacking at made
  rcases main : w.rt.createBuffer env context flags sizeAug data with ⟨mainBuff, status, rt⟩
  rw [main] at made
  simp only at made
  rcases Runtime.createBuffer_cases main with
    ⟨rfl, failed, objects⟩ | ⟨rfl, -, created, bytes⟩
  · rw [if_neg (by simp), enterBuffer, if_pos rfl] at made
    simp only [Option.some.injEq, Prod.mk.injEq] at made
    obtain ⟨rfl, rfl, rfl⟩ := made
    exact Or.inl ⟨rfl, failed, rfl, objects⟩
  · cases own : flags.useHostPtr with
    | true =>
        rw [if_neg (by simp [own]), enterBuffer, if_neg created.notNull] at made
        simp only [Option.some.injEq, Prod.mk.injEq] at made
        obtain ⟨rfl, rfl, rfl⟩ := made
        exact Or.inr (Or.inl ⟨rfl, created, rfl⟩)
    | false =>
        rw [if_pos ⟨created.notNull, own⟩] at made
        rcases sub : rt.createSubBuffer env mainBuff POISON_FILL_LENGTH size with
          ⟨ret, subStatus, rt'⟩
        rw [sub] at made
        obtain ⟨sameBytes, ⟨-, failed, -⟩ |
            ⟨rfl, window, parent, found, kind, inside, subCreated⟩⟩ :=
          Runtime.createSubBuffer_cases sub
        · cases subStatus with
          | none => exact absurd rfl failed
          | some error => simp at made
        · rw [created.objects, Table.find_insert_fresh created.fresh, Option.some.injEq] at found
          subst found
          simp only [RtKind.buffer.injEq, and_true] at kind
          subst kind
          simp only [enterBuffer, if_neg subCreated.notNull, Option.some.injEq,
            Prod.mk.injEq] at made
          obtain ⟨rfl, rfl, rfl⟩ := made
          refine Or.inr (Or.inr ⟨rfl, mainBuff, ⟨⟨rt, created, ?_⟩, inside, ?_⟩, rfl⟩)
          · simpa using subCreated
          · intro host same
            rw [← bytes host same]
            exact congrFun sameBytes _

/-- The three outcomes of `clCreateBuffer`. -/
theorem clCreateBuffer_cases {env : Env} {w w' : Wrapper} {context handle : Handle}
    {flags : MemFlags} {size hostPtr : Nat} {err : ClStatus}
    (made : clCreateBuffer env w context flags size hostPtr = some (handle, err, w')) :
    (handle = NULL ∧ err ≠ none ∧ w'.table = w.table ∧ w'.rt.objects = w.rt.objects) ∨
      (flags.useHostPtr = true ∧
        Created w.rt w'.rt handle (.buffer ⟨w.rt.creations, 0, size⟩ false) context ∧
        w'.table = clMemInsert w.table
          (bufferObject handle handle context (bufferFlags flags) size hostPtr)) ∨
      (flags.useHostPtr = false ∧ ∃ mainBuff fillPtr,
        fillBufferCopy (bufferFlags flags) size (hostData w.host hostPtr) = some fillPtr ∧
        OwnBacking w.rt w'.rt handle mainBuff context size
          (u64 (size + POISON_REGIONS * POISON_FILL_LENGTH)) (some fillPtr.get) ∧
        w'.table = clMemInsert w.table
          (bufferObject handle mainBuff context { bufferFlags flags with copyHostPtr := true }
            size hostPtr)) := by
  have use : (bufferFlags flags).useHostPtr = flags.useHostPtr := rfl
  unfold clCreateBuffer at made
  dsimp only at made
  split_ifs at made with empty host allocated
  · simp only [Option.some.injEq, Prod.mk.injEq] at made
    obtain ⟨rfl, rfl, rfl⟩ := made
    exact Or.inl ⟨rfl, by simp, rfl, rfl⟩
  · rcases createBacking_cases made with failed | plain | ⟨own, -⟩
    · exact Or.inl failed
    · exact Or.inr (Or.inl plain)
    · exact absurd (own.symm.trans host) (by decide)
  · obtain ⟨fillPtr, filled, made⟩ := Option.bind_eq_some_iff.mp made
    rcases createBacking_cases made with failed | ⟨plain, -⟩ | ⟨own, mainBuff, backing, entered⟩
    · exact Or.inl failed
    · exact absurd plain host
    · exact Or.inr (Or.inr ⟨own, mainBuff, fillPtr, filled, backing, entered⟩)
  · rcases createBacking_cases made with failed | ⟨plain, -⟩ | ⟨own, mainBuff, backing, -⟩
    · exact Or.inl failed
    · exact absurd plain host
    · exact absurd backing.inside (by simp [POISON_FILL_LENGTH])

/-! ## The prepared contents -/

/-- The bytes that a new buffer is to hold. -/
def initialByte (host : Nat → UInt8) (flags : MemFlags) (hostPtr a : Nat) : UInt8 :=
  if flags.copyHostPtr then host (hostPtr + a) else 0

/-- The prepared contents: the second canary is written last. -/
theorem fillBufferCopy_get {flags : MemFlags} {host : Nat → UInt8} {size hostPtr a : Nat}
    {fillPtr : Block UInt8}
    (filled : fillBufferCopy flags size (hostData host hostPtr) = some fillPtr) :
    fillPtr.get a =
      if canaryOffset size ≤ a ∧ a < canaryOffset size + POISON_FILL_LENGTH then POISON_FILL
      else if a < POISON_FILL_LENGTH then POISON_FILL
      else if a < POISON_FILL_LENGTH + size then
        initialByte host flags hostPtr (a - POISON_FILL_LENGTH)
      else 0 := by
  have offset : u32 (POISON_FILL_LENGTH + size) = canaryOffset size := by
    rw [canaryOffset, u32_u32_add, Nat.add_comm]
  unfold fillBufferCopy at filled
  obtain ⟨before, filledBefore, filled⟩ := Option.bind_eq_some_iff.mp filled
  obtain ⟨-, rfl⟩ := Block.fill_eq_some filledBefore
  obtain ⟨copied, copying, filledAfter⟩ := Option.bind_eq_some_iff.mp filled
  obtain ⟨-, rfl⟩ := Block.fill_eq_some filledAfter
  dsimp only
  rw [offset]
  by_cases after : canaryOffset size ≤ a ∧ a < canaryOffset size + POISON_FILL_LENGTH
  · rw [if_pos after, fill_inside after.1 after.2]
  · rw [if_neg after, fill_outside (by omega)]
    cases copy : flags.copyHostPtr with
    | true =>
        rw [if_pos copy, hostData] at copying
        split_ifs at copying with null
        · simp at copying
        · rw [Option.bind_some] at copying
          obtain ⟨-, rfl⟩ := Block.blit_eq_some copying
          dsimp only
          by_cases front : a < POISON_FILL_LENGTH
          · rw [if_pos front, blit_outside (Or.inl front), fill_inside (Nat.zero_le a) (by omega)]
          · by_cases data : a < POISON_FILL_LENGTH + size
            · rw [if_neg front, if_pos data, blit_inside (by omega) data, Nat.zero_add,
                initialByte, if_pos copy]
            · rw [if_neg front, if_neg data, blit_outside (by omega), fill_outside (by omega),
                Block.replicate_get]
    | false =>
        rw [if_neg (by simp [copy]), Option.some.injEq] at copying
        subst copying
        dsimp only
        by_cases front : a < POISON_FILL_LENGTH
        · rw [if_pos front, fill_inside (Nat.zero_le a) (by omega)]
        · rw [if_neg front, fill_outside (by omega), Block.replicate_get]
          simp [initialByte, copy]

/-- Contents can only be prepared where the size with canaries has not wrapped to zero. -/
theorem fillBufferCopy_sized {flags : MemFlags} {size : Nat} {data : Option (Nat → UInt8)}
    {fillPtr : Block UInt8} (filled : fillBufferCopy flags size data = some fillPtr) :
    u64 (size + POISON_REGIONS * POISON_FILL_LENGTH) ≠ 0 := by
  unfold fillBufferCopy at filled
  obtain ⟨first, before, -⟩ := Option.bind_eq_some_iff.mp filled
  obtain ⟨fits, -⟩ := Block.fill_eq_some before
  intro empty
  rw [Block.replicate, empty, POISON_FILL_LENGTH] at fits
  exact absurd fits (by decide)

/-! ## Placement -/

/-- No entry outlives the object it describes. -/
def Wrapper.KeysLive (w : Wrapper) : Prop :=
  ∀ k m, w.table.find k = some m → k ≠ NULL → (w.rt.objects.find k).isSome

/-- A handle that no object has is no key either. -/
theorem Wrapper.KeysLive.not_key {w : Wrapper} {handle : Handle} (live : w.KeysLive)
    (fresh : w.rt.objects.find handle = none) (handed : handle ≠ NULL) :
    w.table.find handle = none := by
  by_contra tracked
  obtain ⟨m, found⟩ := Option.ne_none_iff_exists'.mp tracked
  have alive := live handle m found handed
  rw [fresh] at alive
  simp at alive

/-- A buffer as the detector needs it: the canaries surround the bytes that the
application sees, and the checks and the repair address the canaries. -/
structure BufferPlaced (w : Wrapper) (handle : Handle) (size : Nat) (data : Nat → UInt8)
    (m : MemObj) (store : Nat) : Prop where
  entry : w.table.find handle = some m
  backing : w.rt.window m.mainBuff =
    some ⟨store, 0, size + POISON_REGIONS * POISON_FILL_LENGTH⟩
  middle : w.rt.window handle = some ⟨store, POISON_FILL_LENGTH, size⟩
  before : ∀ a < POISON_FILL_LENGTH, w.rt.bytes store a = POISON_FILL
  contents : ∀ a < size, w.rt.bytes store (POISON_FILL_LENGTH + a) = data a
  after : ∀ a < POISON_FILL_LENGTH, w.rt.bytes store (POISON_FILL_LENGTH + size + a) = POISON_FILL
  reads : ∀ i, ((readClMemRegions i m).map RegionCopy.source).Perm (canaryRanges size)
  copies : ∀ i, ((copyClMemRegions i m).map RegionCopy.source).Perm (canaryRanges size)
  mends : (mendRegions m.size).Perm (canaryRanges size)

/-- No canary range meets the application's bytes. -/
theorem canaryRanges_off_data {size : Nat} {r : Nat × Nat} {a : Nat}
    (member : r ∈ canaryRanges size) (inside : r.1 ≤ a ∧ a < r.1 + r.2) :
    a < POISON_FILL_LENGTH ∨ POISON_FILL_LENGTH + size ≤ a := by
  simp only [canaryRanges, List.mem_cons, List.not_mem_nil, or_false] at member
  rcases member with rfl | rfl <;> simp only at inside <;> omega

/-- The host check addresses the second canary with a `uint32_t`. -/
theorem BufferPlaced.size_lt {w : Wrapper} {handle : Handle} {size store : Nat}
    {data : Nat → UInt8} {m : MemObj} (placed : BufferPlaced w handle size data m store) :
    size + 4096 < 4294967296 := by
  have addressed : (POISON_FILL_LENGTH + size, POISON_FILL_LENGTH) ∈
      (readClMemRegions 0 m).map RegionCopy.source :=
    (placed.reads 0).mem_iff.mpr (by simp [canaryRanges])
  rw [map_source_readClMemRegions] at addressed
  simp only [List.mem_cons, Prod.mk.injEq, and_true, List.not_mem_nil, or_false] at addressed
  have reduced : canaryOffset m.size < 4294967296 := u32_lt _
  simp only [POISON_FILL_LENGTH] at addressed
  omega

/-- `clCreateBuffer` places the canaries exactly when the `uint32_t` offset of
the second one is not cut off. -/
theorem clCreateBuffer_placed_iff {env : Env} {w w' : Wrapper} {context handle : Handle}
    {flags : MemFlags} {size hostPtr : Nat} {err : ClStatus} (live : w.KeysLive)
    (own : flags.useHostPtr = false) (fits : size + 8192 < 18446744073709551616)
    (made : clCreateBuffer env w context flags size hostPtr = some (handle, err, w'))
    (handed : handle ≠ NULL) :
    (∃ m store, BufferPlaced w' handle size (initialByte w.host flags hostPtr) m store) ↔
      size + 4096 < 4294967296 := by
  rcases clCreateBuffer_cases made with ⟨null, -⟩ | ⟨plain, -⟩ |
    ⟨-, mainBuff, fillPtr, filled, backed, table⟩
  · exact absurd null handed
  · simp [own] at plain
  have differ := backed.differ
  have notKey := live.not_key backed.fresh handed
  obtain ⟨⟨between, main, sub⟩, -, bytes⟩ := backed
  have aug : u64 (size + POISON_REGIONS * POISON_FILL_LENGTH) =
      size + POISON_REGIONS * POISON_FILL_LENGTH := u64_of_lt fits
  have entry : w'.table.find handle = some (bufferObject handle mainBuff context
      { bufferFlags flags with copyHostPtr := true } size hostPtr) := by
    rw [table, clMemInsert]
    simp only [bufferObject, bufferFlags, own, Bool.false_eq_true, if_false]
    exact Table.find_insert_fresh notKey
  have backing : w'.rt.window mainBuff =
      some ⟨w.rt.creations, 0, size + POISON_REGIONS * POISON_FILL_LENGTH⟩ := by
    rw [Runtime.window, sub.objects, Table.find_insert_of_ne differ, main.objects,
      Table.find_insert_fresh main.fresh, aug]
    rfl
  have middle : w'.rt.window handle = some ⟨w.rt.creations, POISON_FILL_LENGTH, size⟩ := by
    rw [Runtime.window, sub.objects, Table.find_insert_fresh sub.fresh]
    rfl
  have stored : ∀ a, w'.rt.bytes w.rt.creations a = fillPtr.get a := by
    intro a
    rw [bytes _ rfl]
  constructor
  · rintro ⟨m, store, placed⟩
    exact placed.size_lt
  · intro small
    have offset := canaryOffset_eq_iff.mpr small
    refine ⟨_, w.rt.creations, entry, ?_, middle, ?_, ?_, ?_, ?_, ?_, ?_⟩
    · simpa [bufferObject, bufferFlags, own] using backing
    · intro a aLt
      rw [stored, fillBufferCopy_get filled, offset, if_neg (by omega), if_pos aLt]
    · intro a aLt
      rw [stored, fillBufferCopy_get filled, offset, if_neg (by omega), if_neg (by omega),
        if_pos (by omega), Nat.add_sub_cancel_left]
      rfl
    · intro a aLt
      rw [stored, fillBufferCopy_get filled, offset, if_pos (by omega)]
    · intro i
      rw [map_source_readClMemRegions]
      simp [bufferObject, bufferFlags, own, offset, canaryRanges]
    · intro i
      rw [map_source_copyClMemRegions]
      simp [bufferObject, bufferFlags, own, offset, canaryRanges]
    · simp only [mendRegions, bufferObject, bufferFlags, own, Bool.false_eq_true, if_false, offset]
      exact List.Perm.swap _ _ _

/-- A runtime that grants every creation, with the handles in order. -/
def grantAll : Env := ⟨fun n => .granted (n + 1), countedSizes, fun _ => true⟩

theorem keysLive_initial (host : Nat → UInt8) (statsOn : Bool) :
    (Wrapper.initial host statsOn).KeysLive := by
  intro k m found
  simp [Wrapper.initial] at found

/-- Three bytes copied from the application's memory. -/
theorem clCreateBuffer_placed_three :
    ∃ w', clCreateBuffer grantAll (Wrapper.initial (fun _ => 5) false) 7 { copyHostPtr := true }
        3 100 = some (2, none, w') ∧
      ((∃ m store, BufferPlaced w' 2 3 (initialByte (fun _ => 5) { copyHostPtr := true } 100) m
        store) ↔ 3 + 4096 < 4294967296) := by
  refine ⟨_, rfl, ?_⟩
  exact @clCreateBuffer_placed_iff grantAll (Wrapper.initial (fun _ => 5) false) _ 7 2
    { copyHostPtr := true } 3 100 none (keysLive_initial _ _) rfl (by decide) rfl (by decide)

/-- In a buffer of `2 ^ 32` bytes the second canary overwrites the first bytes
of the data, and its own place stays empty. -/
theorem clCreateBuffer_not_placed :
    ∃ w', clCreateBuffer grantAll (Wrapper.initial (fun _ => 5) false) 7 {} 4294967296 NULL =
        some (2, none, w') ∧
      ¬ ∃ m store, BufferPlaced w' 2 4294967296 (initialByte (fun _ => 5) {} NULL) m store := by
  refine ⟨_, rfl, ?_⟩
  rintro ⟨m, store, placed⟩
  exact absurd placed.size_lt (by decide)

end Clarmor
