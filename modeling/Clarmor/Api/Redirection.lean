import Clarmor.Wrapper.Placement
import Clarmor.Api.Transfers

/-!
# Requests that are redirected to the backing buffer

A sub-buffer of a canaried buffer, and a mapping of one, are made on the backing
buffer, 4096 bytes further on.  The runtime compares the range with the backing
buffer, which is 8192 bytes longer than the application's.
-/

namespace Clarmor

open Word
open Clarmor.Runtime (Created)

/-- `EnqueueMapBuffer`: the range of the storage that is mapped, unless it is not
one of the buffer. -/
def Runtime.mapBuffer (rt : Runtime) (handle : Handle) (offset size : Nat) : Option Window :=
  (rt.window handle).bind fun window =>
    if size = 0 then none
    else if window.size < offset + size then none
    else some ⟨window.store, window.origin + offset, size⟩

/-- `clEnqueueMapBuffer`. -/
def clEnqueueMapBuffer (w : Wrapper) (buffer : Handle) (offset size : Nat) : Option Window :=
  match w.table.find buffer with
  | none => w.rt.mapBuffer buffer offset size
  | some m1 =>
      if m1.mainBuff ≠ NULL then
        w.rt.mapBuffer m1.mainBuff (u64 (offset + POISON_FILL_LENGTH)) size
      else w.rt.mapBuffer buffer offset size

/-- The runtime accepts a range of an object of size `s`. -/
def InRange (s offset size : Nat) : Prop := size ≠ 0 ∧ offset + size ≤ s

/-- A window lies in the application's part of the backing buffer. -/
def BetweenCanaries (s : Nat) (window : Window) : Prop :=
  POISON_FILL_LENGTH ≤ window.origin ∧
    window.origin + window.size ≤ POISON_FILL_LENGTH + s

/-- A canaried buffer whose backing buffer is live, in a runtime that accepts
every range of it. -/
structure Backed (env : Env) (w : Wrapper) (buffer : Handle) (m1 : MemObj) (store : Nat) :
    Prop where
  tracked : w.table.find buffer = some m1
  hasCanary : m1.hasCanary = true
  mainBuff : m1.mainBuff ≠ NULL
  backing : ∃ parent, w.rt.objects.find m1.mainBuff = some parent ∧
    parent.kind = .buffer ⟨store, 0, m1.size + POISON_REGIONS * POISON_FILL_LENGTH⟩ false
  sizeLt : SizeT (m1.size + POISON_REGIONS * POISON_FILL_LENGTH)
  accepts : ∃ handle, env.reply w.rt.creations = .granted handle ∧ handle ≠ NULL ∧
    w.rt.objects.find handle = none

/-- A sub-buffer is created. -/
def SubBufferMade (env : Env) (w : Wrapper) (buffer : Handle) (flags : MemFlags)
    (origin size : Nat) : Prop :=
  ∃ ret w', clCreateSubBuffer env w buffer flags origin size = some (ret, none, w')

/-- Both requests succeed exactly for ranges of the application's buffer, and stay
between its canaries. -/
structure NeverWidens (env : Env) (w : Wrapper) (buffer : Handle) (s : Nat) (flags : MemFlags)
    (offset size : Nat) : Prop where
  sub : SubBufferMade env w buffer flags offset size ↔ InRange s offset size
  subInside : ∀ ret w', clCreateSubBuffer env w buffer flags offset size = some (ret, none, w') →
    ∃ window, w'.rt.window ret = some window ∧ BetweenCanaries s window
  map : (clEnqueueMapBuffer w buffer offset size).isSome ↔ InRange s offset size
  mapInside : ∀ window, clEnqueueMapBuffer w buffer offset size = some window →
    BetweenCanaries s window

/-- A range that is none of the application's buffer, but one of the backing buffer
once it is moved. -/
def FallsIntoSlack (s offset size : Nat) : Prop :=
  size ≠ 0 ∧ s < offset + size ∧
    u64 (offset + POISON_FILL_LENGTH) + size ≤ s + POISON_REGIONS * POISON_FILL_LENGTH

section

variable {env : Env} {w : Wrapper} {buffer : Handle} {m1 : MemObj} {store : Nat}
  {flags : MemFlags} {offset size : Nat}

/-- The range that the runtime is asked for. -/
def Moved (s offset size : Nat) : Prop :=
  size ≠ 0 ∧
    u64 (offset + POISON_FILL_LENGTH) + size ≤ s + POISON_REGIONS * POISON_FILL_LENGTH

/-- The moved range is accepted for the right ranges exactly outside the slack. -/
theorem moved_iff_inRange_iff {s : Nat} (sizeLt : SizeT (s + POISON_REGIONS * POISON_FILL_LENGTH)) :
    (Moved s offset size ↔ InRange s offset size) ↔ ¬ FallsIntoSlack s offset size := by
  have lengths : POISON_FILL_LENGTH = 4096 ∧ POISON_REGIONS * POISON_FILL_LENGTH = 8192 :=
    ⟨rfl, rfl⟩
  unfold SizeT at sizeLt
  rw [Moved, InRange, FallsIntoSlack, lengths.2, lengths.1]
  rw [lengths.2] at sizeLt
  by_cases inside : offset + size ≤ s
  · have small : u64 (offset + 4096) = offset + 4096 := u64_of_lt (by omega)
    rw [small]
    omega
  · omega

theorem Backed.window (backed : Backed env w buffer m1 store) :
    w.rt.window m1.mainBuff =
      some ⟨store, 0, m1.size + POISON_REGIONS * POISON_FILL_LENGTH⟩ := by
  obtain ⟨parent, found, kind⟩ := backed.backing
  rw [Runtime.window, found, Option.bind_some, kind]
  rfl

/-- What mapping a canaried buffer asks the runtime for. -/
theorem Backed.map_eq_some_iff (backed : Backed env w buffer m1 store) {window : Window} :
    clEnqueueMapBuffer w buffer offset size = some window ↔
      Moved m1.size offset size ∧ ⟨store, u64 (offset + POISON_FILL_LENGTH), size⟩ = window := by
  simp only [clEnqueueMapBuffer, backed.tracked, if_pos backed.mainBuff, Runtime.mapBuffer,
    backed.window, Option.bind_some, Moved, Nat.zero_add]
  by_cases empty : size = 0
  · simp [empty]
  · rw [if_neg empty]
    by_cases outside : m1.size + POISON_REGIONS * POISON_FILL_LENGTH <
        u64 (offset + POISON_FILL_LENGTH) + size
    · simp [outside, outside.not_ge]
    · simp [empty, outside, not_lt.mp outside]

/-- What making a sub-buffer of a canaried buffer asks the runtime for. -/
theorem Backed.sub_iff (backed : Backed env w buffer m1 store) :
    (∀ ret w', clCreateSubBuffer env w buffer flags offset size = some (ret, none, w') →
      Moved m1.size offset size ∧
        w'.rt.window ret = some ⟨store, u64 (offset + POISON_FILL_LENGTH), size⟩) ∧
      (Moved m1.size offset size → SubBufferMade env w buffer flags offset size) := by
  obtain ⟨parent, found, kind⟩ := backed.backing
  obtain ⟨handle, reply, notNull, free⟩ := backed.accepts
  constructor
  · intro ret w' made
    simp only [clCreateSubBuffer, backed.tracked, Option.bind_some, backed.hasCanary, if_true]
      at made
    cases sub : w.rt.createSubBuffer env m1.mainBuff (u64 (offset + POISON_FILL_LENGTH)) size with
    | mk h rest =>
        obtain ⟨status, rt⟩ := rest
        rw [sub] at made
        obtain ⟨-, ⟨-, failed, -⟩ | ⟨-, window, parent', found', kind', fits, created⟩⟩ :=
          Runtime.createSubBuffer_cases sub
        · dsimp only at made
          split_ifs at made
          all_goals
            simp only [Option.some.injEq, Prod.mk.injEq] at made
            exact absurd made.2.1 failed
        · dsimp only at made
          rw [if_neg created.notNull] at made
          simp only [Option.some.injEq, Prod.mk.injEq] at made
          obtain ⟨rfl, -, rfl⟩ := made
          rw [found, Option.some.injEq] at found'
          rw [← found', kind] at kind'
          obtain ⟨rfl, -⟩ := RtKind.buffer.inj kind'
          have positive : size ≠ 0 := by
            rintro rfl
            simp only [Runtime.createSubBuffer, found, kind, if_true, Bool.false_eq_true,
              if_false, Prod.mk.injEq] at sub
            exact created.notNull sub.1.symm
          refine ⟨⟨positive, fits⟩, ?_⟩
          simp only [Runtime.window, created.objects, Table.find_insert_fresh created.fresh,
            Option.bind_some, RtKind.window, Nat.zero_add]
  · rintro ⟨positive, fits⟩
    have answered : w.rt.createSubBuffer env m1.mainBuff (u64 (offset + POISON_FILL_LENGTH)) size =
        w.rt.grant env (.buffer ⟨store, 0 + u64 (offset + POISON_FILL_LENGTH), size⟩ true)
          parent.context := by
      simp only [Runtime.createSubBuffer, found, kind, Bool.false_eq_true, if_false,
        if_neg positive, if_neg fits.not_gt]
    simp only [Runtime.grant, reply, free, notNull, Option.isSome_none, Bool.false_eq_true,
      or_self, if_false] at answered
    rw [SubBufferMade]
    simp only [clCreateSubBuffer, backed.tracked, Option.bind_some, backed.hasCanary, if_true,
      answered, if_neg notNull, Option.some.injEq, Prod.mk.injEq]
    exact ⟨handle, _, rfl, trivial, rfl⟩

/-- A redirected request never widens what the application reaches exactly where
its range does not fall into the slack of the backing buffer. -/
theorem neverWidens_iff (backed : Backed env w buffer m1 store) :
    NeverWidens env w buffer m1.size flags offset size ↔ ¬ FallsIntoSlack m1.size offset size := by
  obtain ⟨subOf, ofSub⟩ := @Backed.sub_iff env w buffer m1 store flags offset size backed
  rw [← moved_iff_inRange_iff backed.sizeLt]
  have mapped : (clEnqueueMapBuffer w buffer offset size).isSome ↔ Moved m1.size offset size := by
    rw [Option.isSome_iff_exists]
    constructor
    · rintro ⟨window, map⟩
      exact (backed.map_eq_some_iff.mp map).1
    · intro moved
      exact ⟨_, backed.map_eq_some_iff.mpr ⟨moved, rfl⟩⟩
  have inside : InRange m1.size offset size →
      BetweenCanaries m1.size ⟨store, u64 (offset + POISON_FILL_LENGTH), size⟩ := by
    rintro ⟨-, fits⟩
    have sizeLt := backed.sizeLt
    have lengths : POISON_FILL_LENGTH = 4096 ∧ POISON_REGIONS * POISON_FILL_LENGTH = 8192 :=
      ⟨rfl, rfl⟩
    unfold SizeT at sizeLt
    rw [BetweenCanaries, lengths.1, u64_of_lt (by omega)]
    dsimp only
    omega
  constructor
  · intro never
    exact mapped.symm.trans never.map
  · intro exact
    constructor
    case sub =>
      rw [← exact]
      constructor
      · rintro ⟨ret, w', made⟩
        exact (subOf ret w' made).1
      · exact ofSub
    case subInside =>
      intro ret w' made
      obtain ⟨moved, window⟩ := subOf ret w' made
      exact ⟨_, window, inside (exact.mp moved)⟩
    case map => exact mapped.trans exact
    case mapInside =>
      intro window map
      obtain ⟨moved, rfl⟩ := backed.map_eq_some_iff.mp map
      exact inside (exact.mp moved)

end

/-- A buffer that has just been created is backed, as long as the runtime goes on
granting. -/
theorem clCreateBuffer_backed {env : Env} {w w' : Wrapper} {context handle : Handle}
    {flags : MemFlags} {size hostPtr : Nat} {err : ClStatus} (live : w.KeysLive)
    (own : flags.useHostPtr = false) (fits : SizeT (size + POISON_REGIONS * POISON_FILL_LENGTH))
    (made : clCreateBuffer env w context flags size hostPtr = some (handle, err, w'))
    (handed : handle ≠ NULL)
    (accepts : ∃ next, env.reply w'.rt.creations = .granted next ∧ next ≠ NULL ∧
      w'.rt.objects.find next = none) :
    ∃ m1, m1.size = size ∧ Backed env w' handle m1 w.rt.creations := by
  rcases clCreateBuffer_cases made with ⟨null, -⟩ | ⟨plain, -⟩ |
    ⟨-, mainBuff, fillPtr, -, backed, table⟩
  · exact absurd null handed
  · simp [own] at plain
  have differ := backed.differ
  have notKey := live.not_key backed.fresh handed
  obtain ⟨⟨between, main, sub⟩, -, -⟩ := backed
  have backing : w'.rt.objects.find mainBuff =
      some ⟨.buffer ⟨w.rt.creations, 0, size + POISON_REGIONS * POISON_FILL_LENGTH⟩ false,
        context, 1⟩ := by
    rw [sub.objects, Table.find_insert_of_ne differ, main.objects,
      Table.find_insert_fresh main.fresh, u64_of_lt fits]
  have entered : w'.table.find handle = some
      { handle := handle, context := context,
        flags := { bufferFlags flags with copyHostPtr := true }, size := size,
        mainBuff := mainBuff, hostPtr := NULL, hasCanary := true, refCount := 1 } := by
    rw [table, clMemInsert, bufferObject, if_neg (by simp [bufferFlags, own])]
    exact Table.find_insert_fresh notKey
  exact ⟨_, rfl, entered, rfl, main.notNull, ⟨_, backing, rfl⟩, fits, accepts⟩

/-- A buffer of 16 bytes. -/
theorem neverWidens_iff_inside :
    ∃ w', clCreateBuffer grantAll (Wrapper.initial (fun _ => 5) false) 7 {} 16 NULL =
        some (2, none, w') ∧
      (NeverWidens grantAll w' 2 16 {} 8 8 ↔ ¬ FallsIntoSlack 16 8 8) := by
  refine ⟨_, rfl, ?_⟩
  obtain ⟨m1, size, backed⟩ := @clCreateBuffer_backed grantAll _ _ 7 2 {} 16 NULL none
    (keysLive_initial (fun _ => 5) false) rfl (by unfold SizeT; decide) rfl (by decide)
    ⟨3, rfl, by decide, rfl⟩
  have exact := @neverWidens_iff grantAll _ 2 m1 _ {} 8 8 backed
  rwa [size] at exact

/-- The 8 bytes after the end of a buffer of 16 bytes: the runtime makes a
sub-buffer of them, in the canary. -/
theorem not_neverWidens_end :
    ∃ w', clCreateBuffer grantAll (Wrapper.initial (fun _ => 5) false) 7 {} 16 NULL =
        some (2, none, w') ∧
      SubBufferMade grantAll w' 2 {} 16 8 ∧
      clEnqueueMapBuffer w' 2 16 8 = some ⟨0, 4112, 8⟩ ∧
      ¬ NeverWidens grantAll w' 2 16 {} 16 8 := by
  refine ⟨_, rfl, ⟨_, _, rfl⟩, rfl, ?_⟩
  intro never
  obtain ⟨-, within⟩ := never.mapInside ⟨0, 4112, 8⟩ rfl
  exact absurd within (by decide)

end Clarmor
