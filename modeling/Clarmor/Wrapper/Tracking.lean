import Clarmor.Library.Run
import Clarmor.Wrapper.Placement

/-!
# The memory-object table over whole runs

What the application holds is kept beside the wrapper: for every handle it was
given, the object it asked for and its references.  In a run whose image
creations set the handle, the table has an entry for exactly these handles, and
the references of the hidden backing buffers follow those of their handles.
-/

namespace Clarmor

open Word
open Clarmor.Runtime (Created)

/-! ## The application's view -/

/-- An object as the application asked for it, and its references. -/
structure AppObject where
  isImage : Bool
  size : Nat
  context : Handle
  hasCanary : Bool
  refs : Nat
deriving DecidableEq, Repr

/-- A description is that of the object under this handle. -/
structure MemObj.Describes (m : MemObj) (handle : Handle) (o : AppObject) : Prop where
  handle : m.handle = handle
  isImage : m.isImage = o.isImage
  size : m.size = o.size
  context : m.context = o.context
  hasCanary : m.hasCanary = o.hasCanary

/-- The table, the runtime's objects and the application's view belong together:
the table has an entry for what is held, with the reference count of the
application, and a backing buffer is referenced as its handle is. -/
structure Tracking (table : Table Handle MemObj) (objects : Table Handle RtObject)
    (app : Table Handle AppObject) : Prop where
  known : ∀ h, table.find h = none ↔ app.find h = none
  entry : ∀ h m o, table.find h = some m → app.find h = some o → m.Describes h o
  counted : ∀ h m o, table.find h = some m → app.find h = some o →
    m.refCount = o.refs ∧ 0 < o.refs ∧ o.refs < 4294967296
  object : ∀ h o, app.find h = some o → ∃ obj, objects.find h = some obj ∧ obj.refs = o.refs
  backing : ∀ h m o, table.find h = some m → app.find h = some o → m.mainBuff ≠ NULL →
    ∃ obj, objects.find m.mainBuff = some obj ∧ obj.refs = o.refs
  backed : ∀ h m, table.find h = some m → m.isImage = false → m.hasCanary = true →
    m.mainBuff ≠ NULL
  hidden : ∀ h m, table.find h = some m → m.mainBuff ≠ NULL → app.find m.mainBuff = none
  apart : ∀ h h' m m', table.find h = some m → table.find h' = some m' → m.mainBuff ≠ NULL →
    m.mainBuff = m'.mainBuff → h = h'
  null : objects.find NULL = none

namespace Tracking

variable {table : Table Handle MemObj} {objects : Table Handle RtObject}
  {app : Table Handle AppObject}

theorem empty : Tracking Table.empty Table.empty Table.empty := by
  constructor <;> simp

theorem held_of_entry (inv : Tracking table objects app) {h : Handle} {m : MemObj}
    (found : table.find h = some m) : ∃ o, app.find h = some o := by
  apply Option.ne_none_iff_exists'.mp
  intro free
  rw [(inv.known h).mpr free] at found
  simp at found

theorem entry_of_held (inv : Tracking table objects app) {h : Handle} {o : AppObject}
    (held : app.find h = some o) : ∃ m, table.find h = some m := by
  apply Option.ne_none_iff_exists'.mp
  intro free
  rw [(inv.known h).mp free] at held
  simp at held

/-- A handle that the runtime does not use is held by nobody. -/
theorem free_of_fresh (inv : Tracking table objects app) {h : Handle}
    (fresh : objects.find h = none) : app.find h = none := by
  by_contra held
  obtain ⟨o, held⟩ := Option.ne_none_iff_exists'.mp held
  obtain ⟨obj, live, -⟩ := inv.object h o held
  rw [fresh] at live
  simp at live

/-- Nor is it the backing buffer of anything. -/
theorem not_backing_of_fresh (inv : Tracking table objects app) {h j : Handle} {m : MemObj}
    (fresh : objects.find h = none) (found : table.find j = some m) (backed : m.mainBuff ≠ NULL) :
    m.mainBuff ≠ h := by
  rintro rfl
  obtain ⟨o, held⟩ := inv.held_of_entry found
  obtain ⟨obj, live, -⟩ := inv.backing j m o found held backed
  rw [fresh] at live
  simp at live

/-- `NULL` is never held. -/
theorem null_free (inv : Tracking table objects app) : app.find NULL = none :=
  inv.free_of_fresh inv.null

/-- A new object that nobody holds yet changes nothing. -/
theorem grow (inv : Tracking table objects app) {h : Handle} (obj : RtObject) (notNull : h ≠ NULL)
    (fresh : objects.find h = none) : Tracking table (objects.insert h obj) app where
  known := inv.known
  entry := inv.entry
  counted := inv.counted
  object := by
    intro j o held
    obtain ⟨obj', live, refs⟩ := inv.object j o held
    refine ⟨obj', ?_, refs⟩
    rw [Table.find_insert_of_ne]
    · exact live
    · rintro rfl
      rw [fresh] at live
      simp at live
  backing := by
    intro j m o found held backed
    obtain ⟨obj', live, refs⟩ := inv.backing j m o found held backed
    exact ⟨obj', by rw [Table.find_insert_of_ne (inv.not_backing_of_fresh fresh found backed)];
                    exact live, refs⟩
  backed := inv.backed
  hidden := inv.hidden
  apart := inv.apart
  null := by
    rw [Table.find_insert_of_ne notNull.symm]
    exact inv.null

/-- Hand a new object to the application. -/
theorem hand (inv : Tracking table objects app) {h : Handle} {m : MemObj} {o : AppObject}
    {obj : RtObject} (notNull : h ≠ NULL) (fresh : objects.find h = none) (objRefs : obj.refs = 1)
    (describes : m.Describes h o) (refCount : m.refCount = 1) (refs : o.refs = 1)
    (backed : m.isImage = false → m.hasCanary = true → m.mainBuff ≠ NULL)
    (backing : m.mainBuff ≠ NULL → app.find m.mainBuff = none ∧
      (∃ main, objects.find m.mainBuff = some main ∧ main.refs = 1) ∧
      ∀ j m', table.find j = some m' → m'.mainBuff ≠ m.mainBuff) :
    Tracking (table.insert h m) (objects.insert h obj) (app.insert h o) := by
  have free : app.find h = none := inv.free_of_fresh fresh
  have notKey : table.find h = none := (inv.known h).mpr free
  have grown := inv.grow obj notNull fresh
  have away : m.mainBuff ≠ NULL → m.mainBuff ≠ h := by
    rintro backed rfl
    obtain ⟨-, ⟨main, live, -⟩, -⟩ := backing backed
    rw [fresh] at live
    simp at live
  constructor
  · intro j
    by_cases here : j = h
    · subst here
      rw [Table.find_insert_fresh notKey, Table.find_insert_fresh free]
      simp
    · rw [Table.find_insert_of_ne here, Table.find_insert_of_ne here]
      exact inv.known j
  · intro j m' o' found held
    by_cases here : j = h
    · subst here
      rw [Table.find_insert_fresh notKey, Option.some.injEq] at found
      rw [Table.find_insert_fresh free, Option.some.injEq] at held
      rw [← found, ← held]
      exact describes
    · rw [Table.find_insert_of_ne here] at found held
      exact inv.entry j m' o' found held
  · intro j m' o' found held
    by_cases here : j = h
    · subst here
      rw [Table.find_insert_fresh notKey, Option.some.injEq] at found
      rw [Table.find_insert_fresh free, Option.some.injEq] at held
      rw [← found, ← held, refCount, refs]
      decide
    · rw [Table.find_insert_of_ne here] at found held
      exact inv.counted j m' o' found held
  · intro j o' held
    by_cases here : j = h
    · subst here
      rw [Table.find_insert_fresh free, Option.some.injEq] at held
      exact ⟨obj, Table.find_insert_fresh fresh, by rw [← held, objRefs, refs]⟩
    · rw [Table.find_insert_of_ne here] at held
      exact grown.object j o' held
  · intro j m' o' found held backed
    by_cases here : j = h
    · subst here
      rw [Table.find_insert_fresh notKey, Option.some.injEq] at found
      rw [Table.find_insert_fresh free, Option.some.injEq] at held
      subst found held
      obtain ⟨-, ⟨main, live, one⟩, -⟩ := backing backed
      exact ⟨main, by rw [Table.find_insert_of_ne (away backed)]; exact live, by rw [one, refs]⟩
    · rw [Table.find_insert_of_ne here] at found held
      exact grown.backing j m' o' found held backed
  · intro j m' found
    by_cases here : j = h
    · subst here
      rw [Table.find_insert_fresh notKey, Option.some.injEq] at found
      rw [← found]
      exact backed
    · rw [Table.find_insert_of_ne here] at found
      exact inv.backed j m' found
  · intro j m' found backed
    by_cases here : j = h
    · subst here
      rw [Table.find_insert_fresh notKey, Option.some.injEq] at found
      subst found
      rw [Table.find_insert_of_ne (away backed)]
      exact (backing backed).1
    · rw [Table.find_insert_of_ne here] at found
      rw [Table.find_insert_of_ne (inv.not_backing_of_fresh fresh found backed)]
      exact inv.hidden j m' found backed
  · intro j j' m' m'' found found' backed same
    by_cases here : j = h
    · by_cases here' : j' = h
      · rw [here, here']
      · subst here
        rw [Table.find_insert_fresh notKey, Option.some.injEq] at found
        rw [Table.find_insert_of_ne here'] at found'
        subst found
        exact absurd same.symm ((backing backed).2.2 j' m'' found')
    · by_cases here' : j' = h
      · subst here'
        rw [Table.find_insert_of_ne here] at found
        rw [Table.find_insert_fresh notKey, Option.some.injEq] at found'
        subst found'
        exact absurd same ((backing (same ▸ backed)).2.2 j m' found)
      · rw [Table.find_insert_of_ne here] at found
        rw [Table.find_insert_of_ne here'] at found'
        exact inv.apart j j' m' m'' found found' backed same
  · exact grown.null

/-- The backing buffer of an entry is no handle of the application. -/
theorem backing_ne (inv : Tracking table objects app) {h j : Handle} {m : MemObj} {o : AppObject}
    (found : table.find h = some m) (backed : m.mainBuff ≠ NULL) (held : app.find j = some o) :
    j ≠ m.mainBuff := by
  rintro rfl
  rw [inv.hidden h m found backed] at held
  simp at held

/-- Give an object, its entry and its backing buffer the same new count. -/
theorem recount (inv : Tracking table objects app) {h : Handle} {m : MemObj} {o : AppObject}
    {n : Nat} (found : table.find h = some m) (held : app.find h = some o) (positive : 0 < n)
    (small : n < 4294967296) {table' : Table Handle MemObj} {objects' : Table Handle RtObject}
    {app' : Table Handle AppObject}
    (tableIs : ∀ j, table'.find j =
      if j = h then some { m with refCount := n } else table.find j)
    (appIs : ∀ j, app'.find j = if j = h then some { o with refs := n } else app.find j)
    (objectsAre : ∀ j, objects'.find j =
      if j = h ∨ (m.mainBuff ≠ NULL ∧ j = m.mainBuff) then
        (objects.find j).map fun obj => { obj with refs := n }
      else objects.find j) :
    Tracking table' objects' app' := by
  constructor
  · intro j
    rw [tableIs, appIs]
    split_ifs with here
    · simp
    · exact inv.known j
  · intro j m' o' found' held'
    rw [tableIs] at found'
    rw [appIs] at held'
    split_ifs at found' held' with here
    · subst here
      rw [← Option.some.inj found', ← Option.some.inj held']
      have d := inv.entry j m o found held
      exact ⟨d.handle, d.isImage, d.size, d.context, d.hasCanary⟩
    · exact inv.entry j m' o' found' held'
  · intro j m' o' found' held'
    rw [tableIs] at found'
    rw [appIs] at held'
    split_ifs at found' held' with here
    · rw [← Option.some.inj found', ← Option.some.inj held']
      exact ⟨rfl, positive, small⟩
    · exact inv.counted j m' o' found' held'
  · intro j o' held'
    rw [appIs] at held'
    split_ifs at held' with here
    · subst here
      obtain ⟨obj, live, -⟩ := inv.object j o held
      refine ⟨{ obj with refs := n }, ?_, ?_⟩
      · rw [objectsAre, if_pos (Or.inl rfl), live]
        rfl
      · rw [← Option.some.inj held']
    · obtain ⟨obj, live, refs⟩ := inv.object j o' held'
      refine ⟨obj, ?_, refs⟩
      rw [objectsAre, if_neg]
      · exact live
      · rintro (same | ⟨backed, same⟩)
        · exact here same
        · exact inv.backing_ne found backed held' same
  · intro j m' o' found' held' backed
    rw [tableIs] at found'
    rw [appIs] at held'
    split_ifs at found' held' with here
    · subst here
      rw [← Option.some.inj found'] at backed ⊢
      obtain ⟨obj, live, -⟩ := inv.backing j m o found held backed
      refine ⟨{ obj with refs := n }, ?_, ?_⟩
      · rw [objectsAre, if_pos (Or.inr ⟨backed, rfl⟩), live]
        rfl
      · rw [← Option.some.inj held']
    · obtain ⟨obj, live, refs⟩ := inv.backing j m' o' found' held' backed
      refine ⟨obj, ?_, refs⟩
      rw [objectsAre, if_neg]
      · exact live
      · rintro (same | ⟨backed', same⟩)
        · exact inv.backing_ne found' backed held same.symm
        · exact here (inv.apart j h m' m found' found backed same)
  · intro j m' found'
    rw [tableIs] at found'
    split_ifs at found' with here
    · subst here
      rw [← Option.some.inj found']
      exact inv.backed j m found
    · exact inv.backed j m' found'
  · intro j m' found' backed
    rw [tableIs] at found'
    rw [appIs]
    split_ifs at found' with here
    · subst here
      rw [← Option.some.inj found'] at backed ⊢
      rw [if_neg (inv.backing_ne found backed held).symm]
      exact inv.hidden j m found backed
    · rw [if_neg (inv.backing_ne found' backed held).symm]
      exact inv.hidden j m' found' backed
  · intro j j' m' m'' found' found'' backed same
    rw [tableIs] at found' found''
    split_ifs at found' found'' with here here' here'
    · rw [here, here']
    · rw [← Option.some.inj found'] at backed same
      exact here.trans (inv.apart h j' m m'' found found'' backed same)
    · rw [← Option.some.inj found''] at same
      exact (inv.apart j h m' m found' found backed same).trans here'.symm
    · exact inv.apart j j' m' m'' found' found'' backed same
  · rw [objectsAre]
    split_ifs
    · rw [inv.null]
      rfl
    · exact inv.null

/-- Drop the last reference of an object, and with it its entry and its backing
buffer. -/
theorem forget (inv : Tracking table objects app) {h : Handle} {m : MemObj} {o : AppObject}
    (found : table.find h = some m) (held : app.find h = some o)
    {objects' : Table Handle RtObject}
    (objectsAre : ∀ j, objects'.find j =
      if j = h ∨ (m.mainBuff ≠ NULL ∧ j = m.mainBuff) then none else objects.find j) :
    Tracking (table.remove h) objects' (app.remove h) := by
  have stays : ∀ {j : Handle} {v : MemObj}, (table.remove h).find j = some v →
      j ≠ h ∧ table.find j = some v := by
    intro j v found'
    rw [Table.find_remove] at found'
    split_ifs at found' with here
    exact ⟨here, found'⟩
  have keeps : ∀ {j : Handle} {v : AppObject}, (app.remove h).find j = some v →
      j ≠ h ∧ app.find j = some v := by
    intro j v held'
    rw [Table.find_remove] at held'
    split_ifs at held' with here
    exact ⟨here, held'⟩
  constructor
  · intro j
    rw [Table.find_remove, Table.find_remove]
    split_ifs
    · simp
    · exact inv.known j
  · intro j m' o' found' held'
    exact inv.entry j m' o' (stays found').2 (keeps held').2
  · intro j m' o' found' held'
    exact inv.counted j m' o' (stays found').2 (keeps held').2
  · intro j o' held'
    obtain ⟨other, held'⟩ := keeps held'
    obtain ⟨obj, live, refs⟩ := inv.object j o' held'
    refine ⟨obj, ?_, refs⟩
    rw [objectsAre, if_neg]
    · exact live
    · rintro (same | ⟨backed, same⟩)
      · exact other same
      · exact inv.backing_ne found backed held' same
  · intro j m' o' found' held' backed
    obtain ⟨other, found'⟩ := stays found'
    obtain ⟨obj, live, refs⟩ := inv.backing j m' o' found' (keeps held').2 backed
    refine ⟨obj, ?_, refs⟩
    rw [objectsAre, if_neg]
    · exact live
    · rintro (same | ⟨-, same⟩)
      · exact inv.backing_ne found' backed held same.symm
      · exact other (inv.apart j h m' m found' found backed same)
  · intro j m' found'
    exact inv.backed j m' (stays found').2
  · intro j m' found' backed
    have hidden := inv.hidden j m' (stays found').2 backed
    rw [Table.find_remove]
    split_ifs
    · rfl
    · exact hidden
  · intro j j' m' m'' found' found'' backed same
    exact inv.apart j j' m' m'' (stays found').2 (stays found'').2 backed same
  · rw [objectsAre]
    split_ifs
    · rfl
    · exact inv.null

end Tracking

/-! ## References -/

/-- The application's references after a successful retain. -/
def retained (app : Table Handle AppObject) (h : Handle) : Table Handle AppObject :=
  app.modify h fun o => { o with refs := o.refs + 1 }

/-- The application's references after a successful release. -/
def released (app : Table Handle AppObject) (h : Handle) : Table Handle AppObject :=
  match app.find h with
  | none => app
  | some o =>
      if o.refs ≤ 1 then app.remove h else app.modify h fun o => { o with refs := o.refs - 1 }

theorem clRetainMemObject_tracking {w w' : Wrapper} {app : Table Handle AppObject} {h : Handle}
    {o : AppObject} {err : ClStatus} (inv : Tracking w.table w.rt.objects app)
    (held : app.find h = some o) (room : o.refs + 1 < 4294967296)
    (ran : clRetainMemObject w h = (err, w')) :
    err = none ∧ Tracking w'.table w'.rt.objects (retained app h) := by
  obtain ⟨m, found⟩ := inv.entry_of_held held
  obtain ⟨obj, live, objRefs⟩ := inv.object h o held
  obtain ⟨count, -, -⟩ := inv.counted h m o found held
  have next : u32 (m.refCount + 1) = o.refs + 1 := by rw [count, u32_of_lt room]
  have tableIs : ∀ j,
      (w.table.modify h fun m => { m with refCount := u32 (m.refCount + 1) }).find j =
      if j = h then some { m with refCount := o.refs + 1 } else w.table.find j := by
    intro j
    rw [Table.find_modify, found, Option.map_some, next]
  have appIs : ∀ j, (retained app h).find j =
      if j = h then some { o with refs := o.refs + 1 } else app.find j := by
    intro j
    rw [retained, Table.find_modify, held, Option.map_some]
  unfold clRetainMemObject at ran
  simp only [found, Runtime.retain_of_live live] at ran
  by_cases backed : m.mainBuff ≠ NULL
  · obtain ⟨main, mainLive, mainRefs⟩ := inv.backing h m o found held backed
    have apart : m.mainBuff ≠ h := (inv.backing_ne found backed held).symm
    have mainLive' : (w.rt.objects.modify h fun o => { o with refs := o.refs + 1 }).find
        m.mainBuff = some main := by rw [Table.find_modify_of_ne apart, mainLive]
    rw [if_pos backed, Runtime.retain_of_live mainLive'] at ran
    simp only [Prod.mk.injEq] at ran
    obtain ⟨rfl, rfl⟩ := ran
    refine ⟨rfl, inv.recount found held (by omega) room tableIs appIs ?_⟩
    intro j
    by_cases here : j = h
    · subst here
      rw [if_pos (Or.inl rfl), Table.find_modify_of_ne apart.symm, Table.find_modify_self, live]
      simp [objRefs]
    · by_cases there : j = m.mainBuff
      · subst there
        rw [if_pos (Or.inr ⟨backed, rfl⟩), Table.find_modify_self, mainLive', mainLive]
        simp [mainRefs]
      · rw [if_neg fun hit => hit.elim here fun back => there back.2,
          Table.find_modify_of_ne there, Table.find_modify_of_ne here]
  · rw [if_neg backed] at ran
    simp only [Prod.mk.injEq] at ran
    obtain ⟨rfl, rfl⟩ := ran
    refine ⟨rfl, inv.recount found held (by omega) room tableIs appIs ?_⟩
    intro j
    by_cases here : j = h
    · subst here
      rw [if_pos (Or.inl rfl), Table.find_modify_self, live]
      simp [objRefs]
    · rw [if_neg fun hit => hit.elim here fun back => backed back.1,
        Table.find_modify_of_ne here]

/-- The runtime's objects after a release of a live object. -/
theorem release_objects {rt : Runtime} {h : Handle} {obj : RtObject}
    (live : rt.objects.find h = some obj) :
    (rt.release h).1 = none ∧ ∀ j, (rt.release h).2.objects.find j =
      if j = h then (if obj.refs ≤ 1 then none else some { obj with refs := obj.refs - 1 })
      else rt.objects.find j := by
  by_cases last : obj.refs ≤ 1
  · rw [Runtime.release_of_last live last]
    refine ⟨rfl, fun j => ?_⟩
    rw [Table.find_remove, if_pos last]
  · rw [Runtime.release_of_shared live (by omega)]
    refine ⟨rfl, fun j => ?_⟩
    rw [Table.find_modify, if_neg last, live, Option.map_some]

/-- The entry after a release: gone with the last reference, else counted down. -/
theorem releaseEntry_cases {w : Wrapper} {h : Handle} {m : MemObj} {n : Nat}
    (found : w.table.find h = some m) (next : sub32 m.refCount 1 = n) :
    (releaseEntry w h m).rt = w.rt ∧ ∀ j, (releaseEntry w h m).table.find j =
      if j = h then (if n = 0 then none else some { m with refCount := n })
      else w.table.find j := by
  simp only [releaseEntry, next]
  split_ifs with last
  · exact ⟨rfl, fun j => Table.find_remove _ _ _⟩
  · refine ⟨rfl, fun j => ?_⟩
    rw [Table.find_modify, found]
    rfl

/-- The objects after the releases of a handle and of its backing buffer. -/
theorem releaseObjects_objects {e w' : Wrapper} {h mainBuff : Handle} {n : Nat} {err : ClStatus}
    {obj : RtObject} (live : e.rt.objects.find h = some obj) (objRefs : obj.refs = n)
    (backing : mainBuff ≠ NULL → mainBuff ≠ h ∧
      ∃ main, e.rt.objects.find mainBuff = some main ∧ main.refs = n)
    (ran : releaseObjects e h mainBuff = (err, w')) :
    err = none ∧ w'.table = e.table ∧
      ∀ j, w'.rt.objects.find j =
        if j = h ∨ (mainBuff ≠ NULL ∧ j = mainBuff) then
          (if n ≤ 1 then none
            else (e.rt.objects.find j).map fun obj => { obj with refs := n - 1 })
        else e.rt.objects.find j := by
  obtain ⟨ok, after⟩ := release_objects live
  simp only [releaseObjects] at ran
  rcases first : e.rt.release h with ⟨firstErr, rt⟩
  rw [first] at ok after ran
  simp only at ok after ran
  by_cases backed : mainBuff ≠ NULL
  · obtain ⟨apart, main, mainLive, mainRefs⟩ := backing backed
    have mainLive' : rt.objects.find mainBuff = some main := by
      rw [after, if_neg apart, mainLive]
    obtain ⟨ok', after'⟩ := release_objects mainLive'
    rcases second : rt.release mainBuff with ⟨secondErr, rt'⟩
    rw [second] at ok' after'
    simp only at ok' after'
    simp only [if_pos backed, second, Prod.mk.injEq] at ran
    obtain ⟨rfl, rfl⟩ := ran
    refine ⟨ok', rfl, fun j => ?_⟩
    rw [after', after]
    by_cases here : j = h
    · subst here
      rw [if_neg apart.symm, if_pos rfl, if_pos (Or.inl rfl), live, objRefs]
      rfl
    · by_cases there : j = mainBuff
      · subst there
        rw [if_pos rfl, if_pos (Or.inr ⟨backed, rfl⟩), mainLive, mainRefs]
        rfl
      · rw [if_neg there, if_neg here,
          if_neg fun hit => hit.elim here fun back => there back.2]
  · simp only [if_neg backed, Prod.mk.injEq] at ran
    obtain ⟨rfl, rfl⟩ := ran
    refine ⟨ok, rfl, fun j => ?_⟩
    rw [after]
    by_cases here : j = h
    · subst here
      rw [if_pos rfl, if_pos (Or.inl rfl), live, objRefs]
      rfl
    · rw [if_neg here, if_neg fun hit => hit.elim here fun back => backed back.1]

theorem clReleaseMemObject_tracking {w w' : Wrapper} {app : Table Handle AppObject} {h : Handle}
    {o : AppObject} {err : ClStatus} (inv : Tracking w.table w.rt.objects app)
    (held : app.find h = some o) (ran : clReleaseMemObject w h = (err, w')) :
    err = none ∧ Tracking w'.table w'.rt.objects (released app h) := by
  obtain ⟨m, found⟩ := inv.entry_of_held held
  obtain ⟨count, positive, small⟩ := inv.counted h m o found held
  have next : sub32 m.refCount 1 = o.refs - 1 := by rw [count, sub32_of_le small positive]
  obtain ⟨obj, live, objRefs⟩ := inv.object h o held
  obtain ⟨rtSame, entries⟩ := releaseEntry_cases found next
  rw [clReleaseMemObject, found] at ran
  rw [← rtSame] at live
  obtain ⟨ok, table, objectsAre⟩ := releaseObjects_objects live objRefs
    (fun backed => ⟨(inv.backing_ne found backed held).symm, by
      rw [rtSame]
      exact inv.backing h m o found held backed⟩) ran
  rw [rtSame] at objectsAre
  rw [← table] at entries
  refine ⟨ok, ?_⟩
  by_cases last : o.refs ≤ 1
  · have gone : w'.table = w.table.remove h := by
      ext1 j
      rw [entries, if_pos (by omega : o.refs - 1 = 0), Table.find_remove]
    have forgotten : released app h = app.remove h := by
      simp [released, held, last]
    rw [gone, forgotten]
    apply inv.forget found held
    intro j
    rw [objectsAre, if_pos last]
  · have kept : ∀ j, w'.table.find j =
        if j = h then some { m with refCount := o.refs - 1 } else w.table.find j := by
      intro j
      rw [entries, if_neg (by omega : ¬ o.refs - 1 = 0)]
    have counted : ∀ j, (released app h).find j =
        if j = h then some { o with refs := o.refs - 1 } else app.find j := by
      intro j
      simp only [released, held, if_neg last, Table.find_modify]
      rfl
    apply inv.recount found held (by omega) (by omega) kept counted
    intro j
    rw [objectsAre, if_neg last]

/-! ## Creations -/

/-- The application's view after a creation returned this handle. -/
def received (app : Table Handle AppObject) (h : Handle) (o : AppObject) :
    Table Handle AppObject :=
  if h = NULL then app else app.insert h o

/-- The object that a call of `clCreateBuffer` asks for. -/
def bufferRequest (context : Handle) (flags : MemFlags) (size : Nat) : AppObject :=
  { isImage := false, size := size, context := context, hasCanary := !flags.useHostPtr, refs := 1 }

/-- The object that a call of `clCreateSubBuffer` asks for. -/
def subBufferRequest (context : Handle) (size : Nat) : AppObject :=
  { isImage := false, size := size, context := context, hasCanary := false, refs := 1 }

/-- The object that an image creation asks for; `plain` tells whether the
application's memory is used as it is. -/
def imageRequest (context : Handle) (format : ImageFormat) (desc : ImageDesc) (plain : Bool) :
    AppObject :=
  { isImage := true
    size := imageSize
      (if plain then standardDesc desc else expandLastDimForFill (standardDesc desc)) format
    context := context
    hasCanary := !plain
    refs := 1 }

/-- A new object without a backing buffer is handed to the application. -/
theorem Tracking.created {table : Table Handle MemObj} {rt rt' : Runtime}
    {app : Table Handle AppObject} (inv : Tracking table rt.objects app) {h context : Handle}
    {kind : RtKind} (creation : Created rt rt' h kind context) {m : MemObj} {o : AppObject}
    (describes : m.Describes h o) (refCount : m.refCount = 1) (refs : o.refs = 1)
    (unbacked : m.mainBuff = NULL) (bare : o.isImage = true ∨ o.hasCanary = false) :
    Tracking (clMemInsert table m) rt'.objects (received app h o) := by
  rw [received, if_neg creation.notNull, creation.objects, clMemInsert, describes.handle]
  refine inv.hand creation.notNull creation.fresh rfl describes refCount refs ?_
    fun backed => absurd unbacked backed
  intro image canary
  rw [describes.isImage] at image
  rw [describes.hasCanary] at canary
  rcases bare with isImage | noCanary
  · simp [isImage] at image
  · simp [noCanary] at canary

/-- A new object that the wrapper keeps to itself. -/
theorem Tracking.grown {table : Table Handle MemObj} {rt rt' : Runtime}
    {app : Table Handle AppObject} (inv : Tracking table rt.objects app) {h context : Handle}
    {kind : RtKind} (creation : Created rt rt' h kind context) :
    Tracking table rt'.objects app := by
  rw [creation.objects]
  exact inv.grow _ creation.notNull creation.fresh

theorem clCreateBuffer_tracking {env : Env} {w w' : Wrapper} {app : Table Handle AppObject}
    {context h : Handle} {flags : MemFlags} {size hostPtr : Nat} {err : ClStatus}
    (inv : Tracking w.table w.rt.objects app)
    (made : clCreateBuffer env w context flags size hostPtr = some (h, err, w')) :
    Tracking w'.table w'.rt.objects (received app h (bufferRequest context flags size)) := by
  rcases clCreateBuffer_cases made with ⟨rfl, -, table, objects⟩ | ⟨plain, creation, table⟩ |
    ⟨own, mainBuff, fillPtr, -, ⟨⟨between, main, sub⟩, -, -⟩, table⟩
  · rw [received, if_pos rfl, table, objects]
    exact inv
  · have use : (bufferFlags flags).useHostPtr = true := plain
    rw [table]
    refine inv.created creation ?_ ?_ rfl ?_ (Or.inr (by simp [bufferRequest, plain]))
    · rw [bufferObject, if_pos use]
      exact ⟨rfl, rfl, rfl, rfl, by simp [bufferRequest, plain]⟩
    · rw [bufferObject, if_pos use]
    · rw [bufferObject, if_pos use]
  · have entry : bufferObject h mainBuff context
        { bufferFlags flags with copyHostPtr := true } size hostPtr =
        { handle := h, context := context,
          flags := { bufferFlags flags with copyHostPtr := true }, size := size,
          mainBuff := mainBuff, hostPtr := NULL, hasCanary := true, refCount := 1 } := by
      simp [bufferObject, bufferFlags, own]
    have grown := inv.grown main
    rw [received, if_neg sub.notNull, table, sub.objects, clMemInsert, entry]
    have mainLive : between.objects.find mainBuff =
        some ⟨.buffer ⟨w.rt.creations, 0, u64 (size + POISON_REGIONS * POISON_FILL_LENGTH)⟩ false,
          context, 1⟩ := by
      rw [main.objects, Table.find_insert_fresh main.fresh]
    refine grown.hand sub.notNull sub.fresh rfl ⟨rfl, rfl, rfl, rfl, ?_⟩ rfl rfl
      (fun _ _ => main.notNull) fun _ => ⟨inv.free_of_fresh main.fresh, ⟨_, mainLive, rfl⟩, ?_⟩
    · simp [bufferRequest, own]
    · intro j m found same
      exact inv.not_backing_of_fresh main.fresh found (same ▸ main.notNull) same

theorem clCreateSubBuffer_tracking {env : Env} {w w' : Wrapper} {app : Table Handle AppObject}
    {buffer h : Handle} {flags : MemFlags} {origin size : Nat} {err : ClStatus} {parent : AppObject}
    (inv : Tracking w.table w.rt.objects app) (held : app.find buffer = some parent)
    (made : clCreateSubBuffer env w buffer flags origin size = some (h, err, w')) :
    Tracking w'.table w'.rt.objects (received app h (subBufferRequest parent.context size)) := by
  unfold clCreateSubBuffer at made
  obtain ⟨superBuff, found, made⟩ := Option.bind_eq_some_iff.mp made
  have context := (inv.entry buffer superBuff parent found held).context
  dsimp only at made
  rcases sub : w.rt.createSubBuffer env
      (if superBuff.hasCanary then superBuff.mainBuff else buffer)
      (if superBuff.hasCanary then u64 (origin + POISON_FILL_LENGTH) else origin) size with
    ⟨ret, status, rt⟩
  rw [sub] at made
  dsimp only at made
  obtain ⟨-, ⟨rfl, -, objects⟩ | ⟨-, window, owner, -, -, -, creation⟩⟩ :=
    Runtime.createSubBuffer_cases sub
  · rw [if_pos rfl] at made
    simp only [Option.some.injEq, Prod.mk.injEq] at made
    obtain ⟨rfl, rfl, rfl⟩ := made
    rw [received, if_pos rfl]
    dsimp only
    rw [objects]
    exact inv
  · rw [if_neg creation.notNull] at made
    simp only [Option.some.injEq, Prod.mk.injEq] at made
    obtain ⟨rfl, rfl, rfl⟩ := made
    exact inv.created creation ⟨rfl, rfl, rfl, context, rfl⟩ rfl rfl rfl (Or.inr rfl)

/-- Where contents are copied, the handle is set, unless the creation fails with
a format error that the caller looks at. -/
theorem createImageObject_cases {env : Env} {rt : Runtime} {temp : MemObj} {passed : ImageDesc}
    {fillPtr : Option HostArea} {keepStatus : Bool} {c : ImageCreation}
    (null : rt.objects.find NULL = none) (copies : temp.flags.copyHostPtr = true)
    (accepted : keepStatus = true →
      env.reply rt.creations ≠ .refused .imageFormatNotSupported ∧
        env.reply rt.creations ≠ .refused .invalidImageFormatDescriptor)
    (made : createImageObject env rt temp passed fillPtr keepStatus = some c) :
    c.temp = { temp with flags := { temp.flags with copyHostPtr := false }, handle := c.ret } ∧
      Created rt c.rt c.ret (rt.newImage env { temp.flags with copyHostPtr := false }
        temp.imageFormat passed none) temp.context := by
  unfold createImageObject at made
  rw [if_pos copies] at made
  dsimp only at made
  rcases image : rt.createImage env temp.context { temp.flags with copyHostPtr := false }
      temp.imageFormat passed none with ⟨ret, status, rt'⟩
  rw [image] at made
  dsimp only at made
  have notFormat : ¬ ((if keepStatus then status else none) = some .imageFormatNotSupported ∨
      (if keepStatus then status else none) = some .invalidImageFormatDescriptor) := by
    cases keepStatus with
    | false => simp
    | true =>
        obtain ⟨supported, valid⟩ := accepted rfl
        simp only [if_true]
        rintro (rfl | rfl)
        · rcases Runtime.createImage_status image with impossible | impossible | refused
          · simp at impossible
          · simp at impossible
          · exact supported refused
        · rcases Runtime.createImage_status image with impossible | impossible | refused
          · simp at impossible
          · simp at impossible
          · exact valid refused
  rw [if_neg notFormat] at made
  obtain ⟨written, write, made⟩ := Option.bind_eq_some_iff.mp made
  obtain ⟨data, -, write⟩ := Option.bind_eq_some_iff.mp write
  obtain ⟨objects, live⟩ := Runtime.writeImage_objects write
  rw [← Option.some.inj made]
  refine ⟨rfl, ?_⟩
  rcases Runtime.createImage_cases image with ⟨rfl, -, unchanged⟩ | ⟨-, creation⟩
  · rw [unchanged, null] at live
    simp at live
  · exact ⟨creation.notNull, creation.fresh, objects.trans creation.objects⟩

/-- The condition of the shared body: the copying branch is taken, and the runtime
accepts the format where its answer is looked at. -/
def SetsHandle (env : Env) (w : Wrapper) (flags : MemFlags) (plain keepStatus : Bool) : Prop :=
  (flags.copyHostPtr = true ∨ plain = false) ∧
    (keepStatus = true →
      env.reply w.rt.creations ≠ .refused .imageFormatNotSupported ∧
        env.reply w.rt.creations ≠ .refused .invalidImageFormatDescriptor)

theorem createImageCommon_tracking {env : Env} {w w' : Wrapper} {app : Table Handle AppObject}
    {context h : Handle} {flags : MemFlags} {format : ImageFormat} {desc : ImageDesc}
    {hostPtr : Nat} {plain keepStatus : Bool} {canaried : MemObj → MemObj}
    {passed : MemObj → ImageDesc} {err : ClStatus} (inv : Tracking w.table w.rt.objects app)
    (sets : SetsHandle env w flags plain keepStatus)
    (keeps : ∀ t : MemObj, ∃ d, canaried t = { t with imageDesc := d })
    (made : createImageCommon env w flags (imageTemp context flags format desc) hostPtr plain
      keepStatus canaried passed = some (h, err, w')) :
    Tracking w'.table w'.rt.objects (received app h (imageRequest context format desc plain)) := by
  obtain ⟨copies, accepted⟩ := sets
  unfold createImageCommon at made
  dsimp only at made
  cases plain with
  | true =>
      rw [if_pos rfl] at made
      obtain ⟨c, object, entered⟩ := Option.map_eq_some_iff.mp made
      obtain ⟨temp, creation⟩ :=
        createImageObject_cases inv.null (copies.resolve_right (by simp)) accepted object
      simp only [enterImage, Prod.mk.injEq] at entered
      obtain ⟨rfl, -, rfl⟩ := entered
      refine inv.created creation ?_ rfl rfl ?_ (Or.inl rfl)
      · rw [temp]
        exact ⟨rfl, rfl, rfl, rfl, rfl⟩
      · rw [temp]
        rfl
  | false =>
      rw [if_neg (by simp)] at made
      obtain ⟨fillPtr, -, made⟩ := Option.bind_eq_some_iff.mp made
      obtain ⟨c, object, entered⟩ := Option.map_eq_some_iff.mp made
      obtain ⟨d, keeps⟩ := keeps
        { expandImage (imageTemp context flags format desc) with
          flags := { flags with copyHostPtr := true }
          hasCanary := true }
      rw [keeps] at object
      obtain ⟨temp, creation⟩ := createImageObject_cases inv.null rfl accepted object
      simp only [enterImage, Prod.mk.injEq] at entered
      obtain ⟨rfl, -, rfl⟩ := entered
      refine inv.created creation ?_ rfl rfl ?_ (Or.inl rfl)
      · rw [temp]
        exact ⟨rfl, rfl, rfl, rfl, rfl⟩
      · rw [temp]
        rfl

/-! ## Runs -/

/-- The calls that create, retain and release memory objects. -/
inductive ApiCall where
  | createBuffer (context : Handle) (flags : MemFlags) (size hostPtr : Nat)
  | createSubBuffer (buffer : Handle) (flags : MemFlags) (origin size : Nat)
  | createImage (context : Handle) (flags : MemFlags) (format : ImageFormat) (desc : ImageDesc)
      (hostPtr : Nat)
  | createImage2D (context : Handle) (flags : MemFlags) (format : ImageFormat)
      (imageWidth imageHeight imageRowPitch hostPtr : Nat)
  | createImage3D (context : Handle) (flags : MemFlags) (format : ImageFormat)
      (imageWidth imageHeight imageDepth imageRowPitch imageSlicePitch hostPtr : Nat)
  | retain (memobj : Handle)
  | release (memobj : Handle)

/-- The wrapper and the application's view of its objects. -/
structure System where
  w : Wrapper
  app : Table Handle AppObject

namespace System

/-- The start of a process. -/
def initial (host : Nat → UInt8) (statsOn : Bool) : System :=
  ⟨Wrapper.initial host statsOn, Table.empty⟩

/-- The application passes handles that it holds, or that are no object's. -/
def mayPass (s : System) (h : Handle) : Bool :=
  (s.app.find h).isSome || (s.w.rt.objects.find h).isNone

/-- Take the result of a creation. -/
def receive (s : System) (request : AppObject) (result : Handle × ClStatus × Wrapper) : System :=
  ⟨result.2.2, received s.app result.1 request⟩

/-- One call of the application; no state where the process ends. -/
def step (env : Env) (s : System) : ApiCall → Option System
  | .createBuffer context flags size hostPtr =>
      (clCreateBuffer env s.w context flags size hostPtr).map
        (s.receive (bufferRequest context flags size))
  | .createSubBuffer buffer flags origin size =>
      (s.app.find buffer).bind fun parent =>
      (clCreateSubBuffer env s.w buffer flags origin size).map
        (s.receive (subBufferRequest parent.context size))
  | .createImage context flags format desc hostPtr =>
      (clCreateImage env s.w context flags format desc hostPtr).map
        (s.receive (imageRequest context format desc (flags.useHostPtr || desc.buffer != NULL)))
  | .createImage2D context flags format imageWidth imageHeight imageRowPitch hostPtr =>
      (clCreateImage2D env s.w context flags format imageWidth imageHeight imageRowPitch
        hostPtr).map
        (s.receive (imageRequest context format
          ⟨.image2D, imageWidth, imageHeight, 1, 1, imageRowPitch, 0, 0, 0, NULL⟩
          flags.useHostPtr))
  | .createImage3D context flags format imageWidth imageHeight imageDepth imageRowPitch
      imageSlicePitch hostPtr =>
      (clCreateImage3D env s.w context flags format imageWidth imageHeight imageDepth imageRowPitch
        imageSlicePitch hostPtr).map
        (s.receive (imageRequest context format
          ⟨.image3D, imageWidth, imageHeight, imageDepth, 1, imageRowPitch, imageSlicePitch, 0, 0,
            NULL⟩
          flags.useHostPtr))
  | .retain memobj =>
      if s.mayPass memobj then
        match clRetainMemObject s.w memobj with
        | (none, w) => some ⟨w, retained s.app memobj⟩
        | (some _, w) => some ⟨w, s.app⟩
      else none
  | .release memobj =>
      if s.mayPass memobj then
        match clReleaseMemObject s.w memobj with
        | (none, w) => some ⟨w, released s.app memobj⟩
        | (some _, w) => some ⟨w, s.app⟩
      else none

/-- The calls that keep the table right: image creations that set the handle, and
retains that do not exhaust a reference count. -/
def Sound (env : Env) (s : System) : ApiCall → Prop
  | .createImage _ flags _ desc _ =>
      SetsHandle env s.w flags (flags.useHostPtr || desc.buffer != NULL) false
  | .createImage2D _ flags _ _ _ _ _ => SetsHandle env s.w flags flags.useHostPtr true
  | .createImage3D _ flags _ _ _ _ _ _ _ => SetsHandle env s.w flags flags.useHostPtr true
  | .retain memobj => ∀ o, s.app.find memobj = some o → o.refs + 1 < 4294967296
  | _ => True

/-- The table has an entry for what the application holds, under the right key and
with the right description, and none under `NULL`. -/
def Tracked (s : System) : Prop :=
  (∀ h o, s.app.find h = some o → ∃ m, s.w.table.find h = some m ∧ m.Describes h o) ∧
    s.w.table.find NULL = none

/-- The invariant of runs. -/
def Inv (s : System) : Prop := Tracking s.w.table s.w.rt.objects s.app

theorem Inv.tracked {s : System} (inv : s.Inv) : s.Tracked := by
  refine ⟨fun h o held => ?_, (inv.known NULL).mpr inv.null_free⟩
  obtain ⟨m, found⟩ := inv.entry_of_held held
  exact ⟨m, found, inv.entry h m o found held⟩

/-- In particular no entry outlives its object. -/
theorem Inv.keysLive {s : System} (inv : s.Inv) : s.w.KeysLive := by
  intro k m found _
  obtain ⟨o, held⟩ := inv.held_of_entry found
  obtain ⟨obj, live, -⟩ := inv.object k o held
  simp [live]

/-- A creation that keeps the tables related keeps the invariant. -/
theorem inv_receive {s s' : System} {request : AppObject}
    {result : Option (Handle × ClStatus × Wrapper)}
    (stepped : result.map (s.receive request) = some s')
    (tracking : ∀ h err w', result = some (h, err, w') →
      Tracking w'.table w'.rt.objects (received s.app h request)) : s'.Inv := by
  obtain ⟨⟨h, err, w'⟩, made, rfl⟩ := Option.map_eq_some_iff.mp stepped
  exact tracking h err w' made

/-- Every sound call keeps the invariant. -/
theorem inv_step {env : Env} {s s' : System} {call : ApiCall} (inv : s.Inv)
    (sound : s.Sound env call) (stepped : s.step env call = some s') : s'.Inv := by
  cases call with
  | createBuffer context flags size hostPtr =>
      exact inv_receive stepped fun h err w' made => clCreateBuffer_tracking inv made
  | createSubBuffer buffer flags origin size =>
      obtain ⟨parent, held, stepped⟩ := Option.bind_eq_some_iff.mp stepped
      exact inv_receive stepped fun h err w' made => clCreateSubBuffer_tracking inv held made
  | createImage context flags format desc hostPtr =>
      exact inv_receive stepped fun h err w' made =>
        createImageCommon_tracking inv sound (fun t => ⟨_, rfl⟩) made
  | createImage2D context flags format imageWidth imageHeight imageRowPitch hostPtr =>
      exact inv_receive stepped fun h err w' made =>
        createImageCommon_tracking inv sound (fun t => ⟨t.imageDesc, rfl⟩) made
  | createImage3D context flags format imageWidth imageHeight imageDepth imageRowPitch
      imageSlicePitch hostPtr =>
      exact inv_receive stepped fun h err w' made =>
        createImageCommon_tracking inv sound (fun t => ⟨t.imageDesc, rfl⟩) made
  | retain memobj =>
      rw [step] at stepped
      split_ifs at stepped with may
      rcases ran : clRetainMemObject s.w memobj with ⟨err, w'⟩
      rw [ran] at stepped
      cases held : s.app.find memobj with
      | some o =>
          obtain ⟨rfl, tracking⟩ := clRetainMemObject_tracking inv held (sound o held) ran
          rw [← Option.some.inj stepped]
          exact tracking
      | none =>
          have dead : s.w.rt.objects.find memobj = none := by simpa [mayPass, held] using may
          have unknown : s.w.table.find memobj = none := (inv.known memobj).mpr held
          have unchanged : s.w.table.modify memobj
              (fun m => { m with refCount := u32 (m.refCount + 1) }) = s.w.table := by
            ext j
            rw [Table.find_modify]
            split_ifs with here
            · rw [here, unknown]
              rfl
            · rfl
          simp only [clRetainMemObject, unknown, Runtime.retain_of_dead dead, unchanged,
            Prod.mk.injEq] at ran
          obtain ⟨rfl, rfl⟩ := ran
          rw [← Option.some.inj stepped]
          exact inv
  | release memobj =>
      rw [step] at stepped
      split_ifs at stepped with may
      rcases ran : clReleaseMemObject s.w memobj with ⟨err, w'⟩
      rw [ran] at stepped
      cases held : s.app.find memobj with
      | some o =>
          obtain ⟨rfl, tracking⟩ := clReleaseMemObject_tracking inv held ran
          rw [← Option.some.inj stepped]
          exact tracking
      | none =>
          have dead : s.w.rt.objects.find memobj = none := by simpa [mayPass, held] using may
          have unknown : s.w.table.find memobj = none := (inv.known memobj).mpr held
          rw [clReleaseMemObject, unknown] at ran
          simp only [releaseObjects, Runtime.release_of_dead dead, ne_eq, not_true_eq_false,
            if_false, Prod.mk.injEq] at ran
          obtain ⟨rfl, rfl⟩ := ran
          rw [← Option.some.inj stepped]
          exact inv

theorem inv_initial (host : Nat → UInt8) (statsOn : Bool) : (initial host statsOn).Inv :=
  Tracking.empty

/-- In every run of sound calls the invariant holds throughout. -/
theorem inv_of_run {env : Env} {host : Nat → UInt8} {statsOn : Bool} {s : System}
    (run : Run.Reach (step env) (Sound env) (initial host statsOn) s) : s.Inv :=
  run.invariant (inv_initial host statsOn) fun _ _ _ inv sound stepped =>
    inv_step inv sound stepped

end System

end Clarmor
