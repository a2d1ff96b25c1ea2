import Clarmor.Wrapper.Tracking

/-!
# Lifetimes of backing buffers

One reference of the application stands for one reference of the handle, one of
the hidden backing buffer and one count of the table entry.  The three move
together as long as the `uint32_t` count of the entry does not wrap.
-/

namespace Clarmor

open Word

namespace System

/-- The calls on buffers and references. -/
def BufferCall (_ : System) : ApiCall → Prop
  | .createBuffer .. | .createSubBuffer .. | .retain _ | .release _ => True
  | .createImage .. | .createImage2D .. | .createImage3D .. => False

/-- The same, with fewer than `2 ^ 32` references to every object. -/
def CountedCall (s : System) : ApiCall → Prop
  | .createBuffer .. | .createSubBuffer .. | .release _ => True
  | .retain memobj => ∀ o, s.app.find memobj = some o → o.refs + 1 < 4294967296
  | .createImage .. | .createImage2D .. | .createImage3D .. => False

/-- Releasing the handle and then its backing buffer releases live objects. -/
def ReleasesLive (s : System) (h : Handle) (m : MemObj) : Prop :=
  (s.w.rt.release h).1 = none ∧
    (m.mainBuff ≠ NULL → ((s.w.rt.release h).2.release m.mainBuff).1 = none)

/-- Every count of an object is the application's. -/
structure Balanced (s : System) : Prop where
  known : ∀ h, (s.w.table.find h).isSome = (s.app.find h).isSome
  entry : ∀ h m o, s.w.table.find h = some m → s.app.find h = some o → m.refCount = o.refs
  handle : ∀ h o, s.app.find h = some o →
    ∃ obj, s.w.rt.objects.find h = some obj ∧ obj.refs = o.refs
  backing : ∀ h m o, s.w.table.find h = some m → s.app.find h = some o → m.isImage = false →
    m.hasCanary = true → ∃ main, s.w.rt.objects.find m.mainBuff = some main ∧ main.refs = o.refs
  releases : ∀ h m, s.w.table.find h = some m → s.ReleasesLive h m

theorem Inv.balanced {s : System} (inv : s.Inv) : s.Balanced where
  known := by
    intro h
    rw [Bool.eq_iff_iff, Option.isSome_iff_ne_none, Option.isSome_iff_ne_none, ne_eq, ne_eq,
      inv.known h]
  entry := fun h m o found held => (inv.counted h m o found held).1
  handle := inv.object
  backing := fun h m o found held image canary =>
    inv.backing h m o found held (inv.backed h m found image canary)
  releases := by
    intro h m found
    obtain ⟨o, held⟩ := inv.held_of_entry found
    obtain ⟨obj, live, -⟩ := inv.object h o held
    obtain ⟨ok, after⟩ := release_objects live
    refine ⟨ok, fun backed => ?_⟩
    obtain ⟨main, mainLive, -⟩ := inv.backing h m o found held backed
    refine (@release_objects _ _ main ?_).1
    rw [after, if_neg (inv.backing_ne found backed held).symm, mainLive]

/-- In every run in which no object gets `2 ^ 32` references, a backing buffer
lives exactly as long as its handle. -/
theorem balanced_of_run {env : Env} {host : Nat → UInt8} {statsOn : Bool} {s : System}
    (run : Run.Reach (step env) CountedCall (initial host statsOn) s) : s.Balanced := by
  have sound : ∀ (t : System) call, CountedCall t call → t.Sound env call := by
    intro t call counted
    cases call with
    | createBuffer => trivial
    | createSubBuffer => trivial
    | createImage => exact counted.elim
    | createImage2D => exact counted.elim
    | createImage3D => exact counted.elim
    | retain => exact counted
    | release => trivial
  exact (inv_of_run (run.mono sound)).balanced

/-- Two canaried buffers; the first one is retained, released and released for the last time,
the second one stays with two references. -/
theorem balanced_of_run_retained :
    ∃ s, s.app.find 2 = none ∧ s.w.rt.objects.find 1 = none ∧
      s.app.find 4 = some ⟨false, 5, 7, true, 2⟩ ∧
      Run.Reach (step grantAll) CountedCall (initial (fun _ => 5) false) s ∧ s.Balanced := by
  have first : Run.Reach (step grantAll) CountedCall (initial (fun _ => 5) false) _ :=
    .tail (a := .createBuffer 7 {} 3 NULL) .refl trivial rfl
  have retained : Run.Reach (step grantAll) CountedCall (initial (fun _ => 5) false) _ :=
    .tail (a := .retain 2) first
      (fun o held => by
        obtain rfl : (⟨false, 3, 7, true, 1⟩ : AppObject) = o := Option.some.inj held
        decide) rfl
  have second : Run.Reach (step grantAll) CountedCall (initial (fun _ => 5) false) _ :=
    .tail (a := .createBuffer 7 {} 5 NULL) retained trivial rfl
  have released : Run.Reach (step grantAll) CountedCall (initial (fun _ => 5) false) _ :=
    .tail (a := .release 2) second trivial rfl
  have again : Run.Reach (step grantAll) CountedCall (initial (fun _ => 5) false) _ :=
    .tail (a := .retain 4) released
      (fun o held => by
        obtain rfl : (⟨false, 5, 7, true, 1⟩ : AppObject) = o := Option.some.inj held
        decide) rfl
  have last : Run.Reach (step grantAll) CountedCall (initial (fun _ => 5) false) _ :=
    .tail (a := .release 2) again trivial rfl
  exact ⟨_, rfl, rfl, rfl, last, balanced_of_run last⟩

/-- One more retain of a buffer in the application's memory. -/
theorem step_retain_plain (env : Env) {s : System} {h : Handle} {m : MemObj} {o : AppObject}
    {obj : RtObject} (found : s.w.table.find h = some m) (held : s.app.find h = some o)
    (live : s.w.rt.objects.find h = some obj) (plain : m.mainBuff = NULL) :
    ∃ s', s.step env (.retain h) = some s' ∧
      s'.w.table.find h = some { m with refCount := u32 (m.refCount + 1) } ∧
      s'.app.find h = some { o with refs := o.refs + 1 } ∧
      s'.w.rt.objects.find h = some { obj with refs := obj.refs + 1 } := by
  have ran : clRetainMemObject s.w h = (none, { s.w with
      table := s.w.table.modify h fun m => { m with refCount := u32 (m.refCount + 1) }
      rt := { s.w.rt with
        objects := s.w.rt.objects.modify h fun o => { o with refs := o.refs + 1 } } }) := by
    simp [clRetainMemObject, found, Runtime.retain_of_live live, plain]
  refine ⟨⟨(clRetainMemObject s.w h).2, retained s.app h⟩, ?_⟩
  rw [step, if_pos (by simp [mayPass, held]), ran]
  refine ⟨rfl, ?_, ?_, ?_⟩
  · simp only [Table.find_modify_self, found]
    rfl
  · simp only [retained, Table.find_modify_self, held]
    rfl
  · simp only [Table.find_modify_self, live]
    rfl

/-- After `n` retains the entry counts modulo `2 ^ 32`. -/
theorem exists_retained (n : Nat) :
    ∃ s m o obj, Run.Reach (step grantAll) BufferCall (initial (fun _ => 5) false) s ∧
      s.w.table.find 1 = some m ∧ m.mainBuff = NULL ∧ m.refCount = u32 (n + 1) ∧
      s.app.find 1 = some o ∧ o.refs = n + 1 ∧ s.w.rt.objects.find 1 = some obj := by
  induction n with
  | zero =>
      have first : Run.Reach (step grantAll) BufferCall (initial (fun _ => 5) false) _ :=
        .tail (a := .createBuffer 7 { useHostPtr := true } 3 100) .refl trivial rfl
      exact ⟨_, _, _, _, first, rfl, rfl, rfl, rfl, rfl, rfl⟩
  | succ n ih =>
      obtain ⟨s, m, o, obj, run, found, plain, count, held, refs, live⟩ := ih
      obtain ⟨s', stepped, found', held', live'⟩ :=
        step_retain_plain grantAll found held live plain
      refine ⟨s', _, _, _, run.tail (a := .retain 1) trivial stepped, found', plain, ?_, held', ?_,
        live'⟩
      · simp only [count, u32_u32_add]
      · simp only [refs]

/-- After one creation and `2 ^ 32 - 1` retains the entry counts no reference. -/
theorem not_balanced_wrap :
    ∃ s, Run.Reach (step grantAll) BufferCall (initial (fun _ => 5) false) s ∧
      ¬ s.Balanced := by
  obtain ⟨s, m, o, obj, run, found, -, count, held, refs, -⟩ := exists_retained 4294967295
  refine ⟨s, run, fun balanced => ?_⟩
  have equal := balanced.entry 1 m o found held
  rw [count, refs] at equal
  exact absurd equal (by decide)

end System

end Clarmor
