import Clarmor.Launch.ClonedDescriptions
import Clarmor.Launch.CloneOrder
import Clarmor.Library.Loop

/-!
# What a cloned launch leaves in memory

`createPoisonedKernel` copies the contents of every memory object that it replaces,
the clone runs on the copies, and `copyKernelBuffers` copies back.  Which objects are
copied is read from the descriptions of both kernels.  After a launch the memory is
what the kernel itself would have left, up to the new objects.

The commands that the launch waits for are complete, and no image is replaced.
-/

namespace Clarmor

open Access

variable {A : Type} [DecidableEq A]

/-! ## Kernels -/

/-- Arguments that a kernel cannot tell apart: they differ in the handles of memory
objects, and two of these are the same in one where they are in the other. -/
structure Alike (params : List Param) (args args' : Nat → Option RuntimeArg) : Prop where
  same : ∀ i, args i = args' i ∨ ∃ param h h', params[i]? = some param ∧ param.isObject ∧
    args i = some (.memory SIZEOF_MEM (some h)) ∧ args' i = some (.memory SIZEOF_MEM (some h'))
  aliased : ∀ i j param param', params[i]? = some param → param.isObject →
    params[j]? = some param' → param'.isObject → (args i = args j ↔ args' i = args' j)

/-- What a kernel does with its memory objects, for given arguments. -/
structure KernelCode (params : List Param) where
  body : (Nat → Option RuntimeArg) → Program Nat UInt8
  blind : ∀ args args', Alike params args args' → body args = body args'

/-- The handle among the bytes of an argument. -/
def RuntimeArg.bytes : RuntimeArg → Option Handle
  | .memory _ value => value
  | .svm _ => none

/-- The memory object that an argument passes to the runtime. -/
def passedObject (kern : RuntimeKernel) (i : Nat) : Option Handle :=
  if (kern.params[i]?).any Param.isObject then (kern.args i).bind RuntimeArg.bytes else none

/-- Where the bytes of an argument lie. -/
def argPlace (place : Handle → Nat → A) (kern : RuntimeKernel) (i : Nat) : Nat → A :=
  place ((passedObject kern i).getD NULL)

/-- How many there are. -/
def argBytes (size : Handle → Nat) (kern : RuntimeKernel) (i : Nat) : Nat :=
  ((passedObject kern i).map size).getD 0

/-! ## The launch -/

/-- The system, with the contents of memory. -/
structure LaunchState (A : Type) where
  sys : ArgSystem
  memory : A → UInt8

namespace LaunchState

open ArgSystem KernelState

/-- One turn of the loop of `createPoisonedKernel`, with the copy of the contents. -/
def setCloneArg (place : Handle → Nat → A) (args : List KernelArg) (clone : Handle) (i : Nat)
    (objects : List MemObj) (st : LaunchState A) : Option (List MemObj × LaunchState A) :=
  (st.sys.setCloneArg args clone i objects).bind fun next =>
  if isNew args i then
    (args[i]?.bind KernelArg.buffer).bind fun old =>
    objects.head?.bind fun object =>
    if old.isImage then none
    else
      some (next.1, ⟨next.2,
        copyCells (place old.handle) (place object.handle) old.size st.memory⟩)
  else some (next.1, ⟨next.2, st.memory⟩)

/-- The loop. -/
def setCloneArgs (place : Handle → Nat → A) (args : List KernelArg) (clone : Handle) :
    List Nat → List MemObj → LaunchState A → Option (LaunchState A)
  | [], _, st => some st
  | i :: rest, objects, st =>
      (st.setCloneArg place args clone i objects).bind fun next =>
      setCloneArgs place args clone rest next.1 next.2

/-- `createPoisonedKernel`, with the kernel that it returns. -/
def createPoisonedKernel (place : Handle → Nat → A) (kernel clone : Handle)
    (objects : List MemObj) (st : LaunchState A) : Option (Handle × LaunchState A) :=
  (st.sys.s.kinfoFind kernel).bind fun info =>
  (st.sys.kernels.find kernel).bind fun kern =>
  if info.argList.entries.map Prod.fst = List.range kern.params.length ∧
      ∀ e ∈ info.argList.entries, (st.sys.s.argHandle e.2).isSome then
    let args := resolved st.sys.s info
    if needInternalBuffer args then
      (st.sys.clCreateKernel clone kern.params).bind fun sys =>
      (setCloneArgs place args clone (List.range kern.params.length) objects
        ⟨sys, st.memory⟩).map fun st => (clone, st)
    else some (kernel, st)
  else none

/-- `runNDRangeKernel`. -/
def runNDRangeKernel {params : List Param} (place : Handle → Nat → A) (code : KernelCode params)
    (kernel : Handle) (st : LaunchState A) : Option (LaunchState A) :=
  (st.sys.kernels.find kernel).map fun kern =>
    { st with memory := (code.body kern.args).exec (argPlace place kern) st.memory }

/-- One turn of the loop of `copyKernelBuffers`. -/
def copyKernelBuffer (place : Handle → Nat → A) (s : KernelState) (toInfo fromInfo : KernelInfo)
    (dupe : List Nat) (i : Nat) (memory : A → UInt8) : Option (A → UInt8) :=
  (fromInfo.argList.find i).bind fun fromArg =>
  (toInfo.argList.find i).bind fun toArg =>
  if dupe[i]? = some i then
    match fromArg.buffer, toArg.buffer with
    | some p1, some p2 =>
        if p1 = p2 then some memory
        else
          (s.memobjs.find p1).bind fun m1 =>
          (s.memobjs.find p2).bind fun m2 =>
          if m1.isImage then none
          else
            let size := if m1.size > m2.size then m2.size else m1.size
            some (copyCells (place m1.handle) (place m2.handle) size memory)
    | _, _ => some memory
  else some memory

/-- `copyKernelBuffers`. -/
def copyKernelBuffers (place : Handle → Nat → A) (toKernel fromKernel : Handle) (dupe : List Nat)
    (st : LaunchState A) : Option (LaunchState A) :=
  (st.sys.kernels.find fromKernel).bind fun kern =>
  (st.sys.s.kinfoFind fromKernel).bind fun fromInfo =>
  (st.sys.s.kinfoFind toKernel).bind fun toInfo =>
  (Loop.loop kern.params.length (copyKernelBuffer place st.sys.s toInfo fromInfo dupe)
    st.memory).map fun memory => { st with memory := memory }

/-- `kernelLaunchFunc`, up to the copies back. -/
def kernelLaunchFunc {params : List Param} (place : Handle → Nat → A) (code : KernelCode params)
    (kernel clone : Handle) (objects : List MemObj) (st : LaunchState A) :
    Option (LaunchState A) :=
  (st.sys.s.kinfoFind kernel).bind fun kinfo =>
  let dupe := findDuplicates (resolved st.sys.s kinfo)
  (st.createPoisonedKernel place kernel clone objects).bind fun temp =>
  (temp.2.runNDRangeKernel place code temp.1).bind fun st =>
  if temp.1 ≠ kernel then st.copyKernelBuffers place kernel temp.1 dupe else some st

/-! ## The new objects -/

/-- The place of the object of an argument among the new objects. -/
def rank (kargs : List KernelArg) (i : Nat) : Nat :=
  ((List.range i).filter (isNew kargs)).length

/-- The description of the object that argument `i` had. -/
def oldObject (kargs : List KernelArg) (i : Nat) : Option MemObj :=
  kargs[i]?.bind KernelArg.buffer

variable {place : Handle → Nat → A} {size : Handle → Nat} {kargs : List KernelArg}
  {objects rest rest' : List MemObj} {i j : Nat}

theorem rank_succ : rank kargs (i + 1) = rank kargs i + if isNew kargs i then 1 else 0 := by
  rw [rank, List.range_succ, List.filter_append, List.length_append, rank, List.filter_singleton]
  cases isNew kargs i <;> rfl

theorem rank_lt (new : isNew kargs i) (iLt : i < j) : rank kargs i < rank kargs j := by
  induction j with
  | zero => exact absurd iLt (Nat.not_lt_zero i)
  | succ j ih =>
      rw [rank_succ]
      rcases Nat.lt_succ_iff_lt_or_eq.mp iLt with before | rfl
      · exact (ih before).trans_le (Nat.le_add_right _ _)
      · rw [new, if_pos rfl]
        exact Nat.lt_succ_self _

/-- Different arguments get different objects. -/
theorem eq_of_rank (new : isNew kargs i) (new' : isNew kargs j)
    (same : rank kargs i = rank kargs j) : i = j := by
  rcases lt_trichotomy i j with before | rfl | after
  · exact absurd same (rank_lt new before).ne
  · rfl
  · exact absurd same (rank_lt new' after).ne'

theorem index_of_handle {object object' : MemObj} (distinct : (objects.map MemObj.handle).Nodup)
    (here : objects[i]? = some object) (here' : objects[j]? = some object')
    (same : object.handle = object'.handle) : i = j := by
  have handles : ∀ {i : Nat} {object : MemObj}, objects[i]? = some object →
      (objects.map MemObj.handle)[i]? = some object.handle := by
    intro i object here
    rw [List.getElem?_map, here]
    rfl
  obtain ⟨inside, -⟩ := List.getElem?_eq_some_iff.mp (handles here)
  refine (List.getElem?_inj inside distinct).mp ?_
  rw [handles here, handles here', same]

theorem isNew_iff : isNew kargs i = true ↔ firstUse kargs i = i ∧
    ∃ karg, kargs[i]? = some karg ∧ karg.isReplaced = true := by
  rw [isNew, Bool.and_eq_true, decide_eq_true_eq]
  cases kargs[i]? <;> simp

theorem exists_oldObject (new : isNew kargs i) :
    ∃ m, oldObject kargs i = some m ∧ m.hasCanary = false := by
  obtain ⟨-, karg, isArg, replaced⟩ := isNew_iff.mp new
  obtain ⟨m, isObject, -, noCanary⟩ := KernelArg.isReplaced_iff.mp replaced
  exact ⟨m, by rw [oldObject, isArg]; exact isObject, noCanary⟩

/-- The objects of a launch do not overlap, and a new object has the size of the one
that it takes the place of. -/
structure Storage (place : Handle → Nat → A) (size : Handle → Nat) (kargs : List KernelArg)
    (objects : List MemObj) (handles : Handle → Prop) : Prop where
  apart : ∀ h h', handles h → handles h' → ∀ o o', o < size h → o' < size h' →
    place h o = place h' o' → h = h' ∧ o = o'
  old : ∀ i m, oldObject kargs i = some m → m.hasCanary = false →
    handles m.handle ∧ size m.handle = m.size ∧ m.isImage = false
  new : ∀ object ∈ objects, handles object.handle ∧ size object.handle = object.size ∧
    object.isImage = false
  fits : ∀ i m object, isNew kargs i → oldObject kargs i = some m →
    objects[rank kargs i]? = some object → object.size = m.size

/-- The cells of the new objects. -/
def newCells (place : Handle → Nat → A) (objects : List MemObj) : Set A :=
  {a | ∃ object ∈ objects, ∃ o < object.size, place object.handle o = a}

/-! ## The copies in -/

/-- What a kernel of the runtime has for an argument. -/
def argAt (sys : ArgSystem) (kernel : Handle) (i : Nat) : Option RuntimeArg :=
  (sys.kernels.find kernel).bind fun kern => kern.args i

/-- Some turns of the loop have copied. -/
structure Copied (place : Handle → Nat → A) (start : LaunchState A) (kargs : List KernelArg)
    (objects : List MemObj) (clone : Handle) (i : Nat) (rest : List MemObj)
    (st : LaunchState A) : Prop where
  left : rest = objects.drop (rank kargs i)
  kept : ∀ p m, start.sys.s.memobjs.find p = some m → st.sys.s.memobjs.find p = some m
  others : ∀ k ≠ clone, st.sys.s.kinfoFind k = start.sys.s.kinfoFind k
  new : ∀ j < i, isNew kargs j → ∃ object p, objects[rank kargs j]? = some object ∧
    argAt st.sys clone j = some (.memory SIZEOF_MEM (some object.handle)) ∧
    objectAt (st.sys.s.argsOf clone) j = some p ∧ start.sys.s.memobjs.find p = none ∧
    st.sys.s.memobjs.find p = some { object with refCount := 1, detectorInternalBuffer := true }
  again : ∀ j < i, firstUse kargs j = j → ∀ m p, oldObject kargs j = some m → m.hasCanary →
    start.sys.s.clMemAlloc.find m.handle = some p → objectAt (st.sys.s.argsOf clone) j = some p
  repeated : ∀ j < i, firstUse kargs j ≠ j →
    argAt st.sys clone j = argAt st.sys clone (firstUse kargs j)
  copied : ∀ j < i, isNew kargs j → ∀ object m, objects[rank kargs j]? = some object →
    oldObject kargs j = some m → ∀ o < m.size,
      st.memory (place object.handle o) = start.memory (place m.handle o)
  outside : ∀ a ∉ newCells place objects, st.memory a = start.memory a

omit [DecidableEq A] in
/-- Only the descriptions and the memory matter in the first state. -/
theorem Copied.restart {start start' st : LaunchState A} {clone : Handle}
    (copied : Copied place start kargs objects clone i rest st)
    (same : start.sys.s = start'.sys.s) (memory : start.memory = start'.memory) :
    Copied place start' kargs objects clone i rest st := by
  obtain ⟨left, kept, others, new, again, repeated, isCopy, outside⟩ := copied
  rw [same] at kept others new again
  rw [memory] at isCopy outside
  exact ⟨left, kept, others, new, again, repeated, isCopy, outside⟩

/-- What setting an argument changes. -/
structure SetOne (sys sys' : ArgSystem) (kernel : Handle) (i : Nat) (arg : RuntimeArg) : Prop where
  args : ∀ j, argAt sys' kernel j = if j = i then some arg else argAt sys kernel j
  objects : ∀ j, objectAt (sys'.s.argsOf kernel) j =
    if j = i then (entryOf sys.s arg).buffer else objectAt (sys.s.argsOf kernel) j
  memobjs : sys'.s.memobjs = sys.s.memobjs
  others : ∀ k ≠ kernel, sys'.s.kinfoFind k = sys.s.kinfoFind k

variable {sys sys' : ArgSystem} {kernel clone : Handle} {arg : RuntimeArg}
  {start st st' : LaunchState A} {params : List Param}

theorem setOne (inv : Inv sys) (set : sys.setRuntimeArg kernel i arg = some sys') :
    SetOne sys sys' kernel i arg := by
  have sets := inv.setRuntimeArg set
  have entered := enterArg_spec inv.coherent kernel i (entryOf sys.s arg)
  obtain ⟨kern, isKern, isKern'⟩ := sets.here
  constructor
  · intro j
    rw [argAt, isKern', argAt, isKern, Option.bind_some, Option.bind_some]
    exact Function.update_apply ..
  · intro j
    rw [setRuntimeArg_s set, objectAt, find_argsOf_enterArg inv.coherent]
    split_ifs <;> rfl
  · rw [setRuntimeArg_s set, entered.memobjs]
  · rw [setRuntimeArg_s set]
    exact entered.others

omit [DecidableEq A] in
/-- A turn without a new object. -/
theorem Copied.set (copied : Copied place start kargs objects clone i rest st) (inv : Inv st.sys)
    (old : isNew kargs i = false)
    (repeated : firstUse kargs i ≠ i → argAt st.sys clone (firstUse kargs i) = some arg)
    (again : firstUse kargs i = i → ∀ m p, oldObject kargs i = some m → m.hasCanary →
      start.sys.s.clMemAlloc.find m.handle = some p →
        (entryOf st.sys.s arg).buffer = some p)
    (set : st.sys.setRuntimeArg clone i arg = some sys') :
    Copied place start kargs objects clone (i + 1) rest ⟨sys', st.memory⟩ := by
  have one := setOne inv set
  have earlier : ∀ j < i, argAt sys' clone j = argAt st.sys clone j := fun j jLt => by
    rw [one.args, if_neg jLt.ne]
  have notNew : ∀ j < i + 1, isNew kargs j = true → j < i := by
    intro j jLt new
    rcases Nat.lt_succ_iff_lt_or_eq.mp jLt with before | rfl
    · exact before
    · rw [old] at new
      contradiction
  constructor
  case left => rw [rank_succ, old, if_neg Bool.false_ne_true, Nat.add_zero, copied.left]
  case kept =>
    rw [one.memobjs]
    exact copied.kept
  case others => exact fun k other => (one.others k other).trans (copied.others k other)
  case new =>
    intro j jLt new
    have before := notNew j jLt new
    rw [earlier j before, one.objects, if_neg before.ne, one.memobjs]
    exact copied.new j before new
  case repeated =>
    intro j jLt notFirst
    rcases Nat.lt_succ_iff_lt_or_eq.mp jLt with before | rfl
    · rw [earlier j before, earlier _ ((firstUse_le kargs j).trans_lt before)]
      exact copied.repeated j before notFirst
    · rw [one.args, if_pos rfl, earlier _ (lt_of_le_of_ne (firstUse_le kargs j) notFirst),
        repeated notFirst]
  case again =>
    intro j jLt first m p isObject canary listed
    rw [one.objects]
    rcases Nat.lt_succ_iff_lt_or_eq.mp jLt with before | rfl
    · rw [if_neg before.ne]
      exact copied.again j before first m p isObject canary listed
    · rw [if_pos rfl]
      exact again first m p isObject canary listed
  case copied => exact fun j jLt new => copied.copied j (notNew j jLt new) new
  case outside => exact copied.outside

/-- A turn with a new object. -/
theorem Copied.create {handles : Handle → Prop} {object : MemObj} {s : KernelState} {m : MemObj}
    (copied : Copied place start kargs objects clone i (object :: rest) st) (inv : Inv st.sys)
    (storage : Storage place size kargs objects handles)
    (unknown : ∀ object ∈ objects, ∀ j m, oldObject kargs j = some m → m.handle ≠ object.handle)
    (distinct : (objects.map MemObj.handle).Nodup) (new : isNew kargs i)
    (isOld : oldObject kargs i = some m) (created : st.sys.s.createInternal object = some s)
    (set : setRuntimeArg { st.sys with s := s } clone i
      (.memory SIZEOF_MEM (some object.handle)) = some sys') :
    Copied place start kargs objects clone (i + 1) rest
      ⟨sys', copyCells (place m.handle) (place object.handle) m.size st.memory⟩ := by
  have room := inv.coherent.memBelow st.sys.s.nextAddress (le_refl _)
  rw [createInternal] at created
  split_ifs at created with usable
  obtain rfl := Option.some.inj created
  have quiet := @quiet_clMemInsert st.sys.s (fun k => (st.sys.kernels.find k).isSome)
    { object with refCount := 1, detectorInternalBuffer := true } inv.coherent inv.entered usable.2
  have one := setOne (inv.quiet quiet) set
  obtain ⟨first, -⟩ := isNew_iff.mp new
  have here : objects[rank kargs i]? = some object := by
    have head := congrArg List.head? copied.left
    rw [List.head?_cons, List.head?_drop] at head
    exact head.symm
  have mem : object ∈ objects := List.mem_of_getElem? here
  have isSize := storage.fits i m object new isOld here
  have noCanary : m.hasCanary = false := by
    obtain ⟨m', isOld', noCanary⟩ := exists_oldObject new
    rw [isOld, Option.some.injEq] at isOld'
    rw [isOld', noCanary]
  obtain ⟨isHandle, oldSize, -⟩ := storage.old i m isOld noCanary
  obtain ⟨isHandle', newSize, -⟩ := storage.new object mem
  have grown : ∀ p m', st.sys.s.memobjs.find p = some m' → sys'.s.memobjs.find p = some m' := by
    intro p m' found
    have other : p ≠ st.sys.s.nextAddress := by
      rintro rfl
      rw [room] at found
      contradiction
    rw [one.memobjs]
    exact (Table.find_insert_of_ne other).trans found
  have earlier : ∀ j < i, argAt sys' clone j = argAt st.sys clone j := fun j jLt => by
    rw [one.args, if_neg jLt.ne]
    rfl
  obtain ⟨isCopy, others⟩ := @copyCells_spec A _ m.size (place m.handle) (place object.handle)
    st.memory fun o o' oLt oLt' same => (storage.apart _ _ isHandle' isHandle' o o'
      (by omega) (by omega) same).2
  constructor
  case left =>
    rw [rank_succ, new, if_pos rfl, ← List.drop_drop, ← copied.left]
    rfl
  case kept => exact fun p m' found => grown p m' (copied.kept p m' found)
  case others => exact fun k other => (one.others k other).trans (copied.others k other)
  case new =>
    intro j jLt new'
    rcases Nat.lt_succ_iff_lt_or_eq.mp jLt with before | rfl
    · obtain ⟨object', p, isObject, given, leads, fresh, found⟩ := copied.new j before new'
      refine ⟨object', p, isObject, (earlier j before).trans given, ?_, fresh, grown p _ found⟩
      rw [one.objects, if_neg before.ne]
      exact leads
    · refine ⟨object, st.sys.s.nextAddress, here, by rw [one.args, if_pos rfl], ?_, ?_, ?_⟩
      · rw [one.objects, if_pos rfl]
        exact memArg_buffer (Table.find_insert_fresh usable.2)
      · cases found : start.sys.s.memobjs.find st.sys.s.nextAddress with
        | none => rfl
        | some m' =>
            rw [copied.kept _ m' found] at room
            contradiction
      · rw [one.memobjs]
        exact Table.find_insert_fresh room
  case repeated =>
    intro j jLt notFirst
    rcases Nat.lt_succ_iff_lt_or_eq.mp jLt with before | rfl
    · rw [earlier j before, earlier _ ((firstUse_le kargs j).trans_lt before)]
      exact copied.repeated j before notFirst
    · exact absurd first notFirst
  case again =>
    intro j jLt first m' p isObject canary listed
    rcases Nat.lt_succ_iff_lt_or_eq.mp jLt with before | rfl
    · rw [one.objects, if_neg before.ne]
      exact copied.again j before first m' p isObject canary listed
    · rw [isOld, Option.some.injEq] at isObject
      rw [← isObject, noCanary] at canary
      contradiction
  case copied =>
    intro j jLt new' object' m' isObject' isOld' o oLt
    rcases Nat.lt_succ_iff_lt_or_eq.mp jLt with before | rfl
    · have size' := storage.fits j m' object' new' isOld' isObject'
      obtain ⟨isHandle'', newSize', -⟩ := storage.new object' (List.mem_of_getElem? isObject')
      refine (others _ fun o' oLt' same => ?_).trans
        (copied.copied j before new' object' m' isObject' isOld' o oLt)
      obtain ⟨sameHandle, -⟩ :=
        storage.apart _ _ isHandle' isHandle'' o' o (by omega) (by omega) same
      exact (rank_lt new' before).ne' (index_of_handle distinct here isObject' sameHandle)
    · obtain rfl := Option.some.inj (here.symm.trans isObject')
      obtain rfl := Option.some.inj (isOld.symm.trans isOld')
      refine (isCopy o oLt).trans (copied.outside _ ?_)
      rintro ⟨object', mem', o', oLt', same⟩
      obtain ⟨isHandle'', newSize', -⟩ := storage.new object' mem'
      obtain ⟨sameHandle, -⟩ :=
        storage.apart _ _ isHandle'' isHandle o' o (by omega) (by omega) same
      exact unknown object' mem' j m isOld sameHandle.symm
  case outside =>
    intro a isOutside
    exact (others a fun o oLt same => isOutside ⟨object, mem, o, by omega, same⟩).trans
      (copied.outside a isOutside)

omit [DecidableEq A] in
/-- The description of a first use has what the clone was given. -/
theorem argAt_firstUse {info : KernelInfo} {entry : ArgEntry}
    (cloned : Cloned start.sys kargs clone params i sys)
    (separate : ∀ karg ∈ kargs, karg.buffer.isSome → karg.svmBuffer = none)
    (notFirst : firstUse kargs i ≠ i) (found : sys.s.kinfoFind clone = some info)
    (isEntry : info.argList.find (firstUse kargs i) = some entry) :
    argAt sys clone (firstUse kargs i) = some (.memory entry.size entry.value) := by
  have earlier : firstUse kargs i < i := lt_of_le_of_ne (firstUse_le kargs i) notFirst
  obtain ⟨kern, isKern, -, before, -⟩ := cloned.isClone
  obtain ⟨arg, given, karg, isArg, gets⟩ := before _ earlier
  obtain ⟨kern', arg', isKern', given', describes⟩ :=
    cloned.inv.tracks clone info found _ entry isEntry
  rw [isKern, Option.some.injEq] at isKern'
  rw [← isKern', given, Option.some.injEq] at given'
  rw [firstUse_firstUse] at isArg
  rw [argAt, isKern, Option.bind_some, given]
  rw [← given'] at describes
  cases arg with
  | memory size value => rw [describes.1, describes.2.1]
  | svm pointer =>
      -- a memory object is never passed as an SVM pointer
      obtain ⟨h, passes⟩ : ∃ h, bufferAt kargs i = some h := by
        rw [← Option.ne_none_iff_exists']
        exact fun none => notFirst (firstUse_of_none none)
      have passes' := (firstUse_of_some passes).2.1
      rw [bufferAt, isArg, Option.bind_some, KernelArg.bufferHandle,
        Option.map_eq_some_iff] at passes'
      obtain ⟨m, isObject, -⟩ := passes'
      have noSvm := separate karg (List.mem_of_getElem? isArg) (by rw [isObject]; rfl)
      rw [cloneArg, noSvm, isObject] at gets
      dsimp only at gets
      rcases gets with again | ⟨-, handle, -, same⟩
      · split_ifs at again
        exact absurd (Option.some.inj again) RuntimeArg.noConfusion
      · contradiction

section Loop

variable {handles : Handle → Prop} (storage : Storage place size kargs objects handles)
  (unknown : ∀ object ∈ objects, ∀ j m, oldObject kargs j = some m → m.handle ≠ object.handle)
  (distinct : (objects.map MemObj.handle).Nodup)
  (separate : ∀ karg ∈ kargs, karg.buffer.isSome → karg.svmBuffer = none)

include storage unknown distinct separate

/-- One turn, with its copy. -/
theorem copied_turn (cloned : Cloned start.sys kargs clone params i st.sys)
    (copied : Copied place start kargs objects clone i rest st)
    (ran : st.sys.setCloneArg kargs clone i rest = some (rest', sys')) :
    ∃ memory, st.setCloneArg place kargs clone i rest = some (rest', ⟨sys', memory⟩) ∧
      Copied place start kargs objects clone (i + 1) rest' ⟨sys', memory⟩ := by
  have inv := cloned.inv
  cases cloneTurn_of_run ran with
  | @again karg _ _ _ isArg first again set =>
      have old : isNew kargs i = false := by
        rw [← Bool.not_eq_true, isNew_iff]
        rintro ⟨-, karg', isArg', replaced⟩
        obtain rfl := Option.some.inj (isArg.symm.trans isArg')
        rw [← cloneArg_eq_none_iff, again] at replaced
        contradiction
      refine ⟨st.memory, ?_, copied.set inv old (fun notFirst => absurd first notFirst)
        (fun _ m p isOld canary listed => ?_) set⟩
      · rw [LaunchState.setCloneArg, ran, Option.bind_some, if_neg (by rw [old]; decide)]
      · rw [oldObject, isArg, Option.bind_some] at isOld
        have noSvm := separate karg (List.mem_of_getElem? isArg) (by rw [isOld]; rfl)
        rw [cloneArg, noSvm, isOld] at again
        dsimp only at again
        rw [if_pos canary, Option.some.injEq] at again
        rw [← again]
        exact memArg_buffer (cloned.grows _ p listed)
  | @new karg object s _ _ isArg first new created set =>
      have isNew' : isNew kargs i = true :=
        isNew_iff.mpr ⟨first, karg, isArg, cloneArg_eq_none_iff.mp new⟩
      obtain ⟨m, isOld, noCanary⟩ := exists_oldObject isNew'
      refine ⟨_, ?_, copied.create inv storage unknown distinct isNew' isOld created set⟩
      have notImage := (storage.old i m isOld noCanary).2.2
      rw [oldObject] at isOld
      rw [LaunchState.setCloneArg, ran, Option.bind_some, if_pos isNew', isOld, Option.bind_some,
        List.head?_cons, Option.bind_some, if_neg (by rw [notImage]; decide)]
  | repeated notFirst found isEntry set =>
      have old : isNew kargs i = false := by
        rw [isNew, decide_eq_false notFirst, Bool.false_and]
      refine ⟨st.memory, ?_, copied.set inv old (fun _ => ?_)
        (fun first => absurd first notFirst) set⟩
      · rw [LaunchState.setCloneArg, ran, Option.bind_some, if_neg (by rw [old]; decide)]
      · exact argAt_firstUse cloned separate notFirst found isEntry

/-- The loop, with its copies. -/
theorem copied_loop {n : Nat} (cloned : Cloned start.sys kargs clone params i st.sys)
    (copied : Copied place start kargs objects clone i rest st)
    (ran : ArgSystem.setCloneArgs kargs clone (List.range' i n) rest st.sys = some sys') :
    ∃ rest' memory, st.setCloneArgs place kargs clone (List.range' i n) rest =
        some ⟨sys', memory⟩ ∧
      Copied place start kargs objects clone (i + n) rest' ⟨sys', memory⟩ := by
  induction n generalizing i rest st with
  | zero =>
      obtain rfl := Option.some.inj ran
      exact ⟨rest, st.memory, rfl, copied⟩
  | succ n ih =>
      rw [List.range'_succ, ArgSystem.setCloneArgs] at ran
      obtain ⟨⟨objects', next⟩, turned, ran⟩ := Option.bind_eq_some_iff.mp ran
      obtain ⟨memory, turned', copied'⟩ :=
        copied_turn storage unknown distinct separate cloned copied turned
      obtain ⟨rest', memory', looped, final⟩ :=
        @ih objects' (i + 1) ⟨next, memory⟩ (cloned.turn separate turned) copied' ran
      refine ⟨rest', memory', ?_, ?_⟩
      · rw [List.range'_succ, LaunchState.setCloneArgs, turned']
        exact looped
      · rwa [Nat.add_right_comm, Nat.add_assoc] at final

end Loop

/-! ## What the clone is given -/

/-- The object that takes the place of another one. -/
def replacement (kargs : List KernelArg) (objects : List MemObj) (h : Handle) : Handle :=
  (((List.range kargs.length).find? fun i => isNew kargs i && bufferAt kargs i = some h).bind
    fun i => objects[rank kargs i]?).elim h MemObj.handle

theorem bufferAt_eq : bufferAt kargs i = (oldObject kargs i).map MemObj.handle := by
  rw [bufferAt, oldObject, Option.map_bind]
  rfl

/-- The first uses of one object are one. -/
theorem eq_of_new {h : Handle} (new : isNew kargs i) (new' : isNew kargs j)
    (passes : bufferAt kargs i = some h) (passes' : bufferAt kargs j = some h) : i = j := by
  rw [← (isNew_iff.mp new).1, ← (isNew_iff.mp new').1, firstUse_congr passes passes']

theorem replacement_new {m object : MemObj} (new : isNew kargs i)
    (isOld : oldObject kargs i = some m) (here : objects[rank kargs i]? = some object) :
    replacement kargs objects m.handle = object.handle := by
  have passes : bufferAt kargs i = some m.handle := by rw [bufferAt_eq, isOld, Option.map_some]
  obtain ⟨-, karg, isArg, -⟩ := isNew_iff.mp new
  have found : ((List.range kargs.length).find? fun j =>
      isNew kargs j && bufferAt kargs j = some m.handle) = some i := by
    cases search : (List.range kargs.length).find? fun j =>
        isNew kargs j && bufferAt kargs j = some m.handle with
    | none =>
        have iLt := (List.getElem?_eq_some_iff.mp isArg).1
        have absent := List.find?_eq_none.mp search i (List.mem_range.mpr iLt)
        rw [new, passes] at absent
        simp at absent
    | some j =>
        have both := List.find?_some search
        rw [Bool.and_eq_true, decide_eq_true_eq] at both
        rw [eq_of_new both.1 new both.2 passes]
  rw [replacement, found, Option.bind_some, here]
  rfl

theorem replacement_old {h : Handle}
    (kept : ∀ i, isNew kargs i = true → bufferAt kargs i ≠ some h) :
    replacement kargs objects h = h := by
  have absent : ((List.range kargs.length).find? fun j =>
      isNew kargs j && bufferAt kargs j = some h) = none := by
    refine List.find?_eq_none.mpr fun j _ => ?_
    rw [Bool.and_eq_true, decide_eq_true_eq]
    exact fun both => kept j both.1 both.2
  rw [replacement, absent]
  rfl

variable {info : KernelInfo} {kern kern' : RuntimeKernel}

/-- The objects that are replaced, from the descriptions of the kernel. -/
theorem oldObject_resolved (ready : Ready sys kernel info kern) (inv : Inv sys) :
    oldObject (resolved sys.s info) i = (objectAt info.argList i).bind sys.s.memobjs.find := by
  rw [oldObject, objectAt]
  cases isArg : (resolved sys.s info)[i]? with
  | none =>
      rw [List.getElem?_eq_none_iff, ready.length] at isArg
      cases found : info.argList.find i with
      | none => rfl
      | some entry => exact absurd (ready.index_lt found) (Nat.not_lt.mpr isArg)
  | some karg =>
      obtain ⟨entry, arg, found, rfl, -⟩ := ready.at_index inv isArg
      rw [found]
      rfl

/-- An argument that is an object leads to its description. -/
theorem passed_object (ready : Ready sys kernel info kern) (inv : Inv sys) {h : Handle}
    {p : Address} (passes : passedObject kern i = some h)
    (leads : objectAt info.argList i = some p) :
    ∃ param m, kern.params[i]? = some param ∧ param.isObject ∧
      kern.args i = some (.memory SIZEOF_MEM (some h)) ∧ sys.s.memobjs.find p = some m ∧
      m.handle = h ∧ oldObject (resolved sys.s info) i = some m := by
  obtain ⟨m, found⟩ := ready.object_live leads
  obtain ⟨entry, isEntry, buffer⟩ := Option.bind_eq_some_iff.mp leads
  obtain ⟨kern'', arg, isKern, given, describes⟩ :=
    inv.tracks kernel info ready.described i entry isEntry
  obtain rfl := Option.some.inj (ready.isKernel.symm.trans isKern)
  obtain ⟨rfl, -⟩ := Ready.memory_of_buffer describes buffer found
  rw [passedObject, given] at passes
  split_ifs at passes with any
  obtain ⟨param, isParam, isObject⟩ := (Option.any_eq_true _ _).mp any
  refine ⟨param, m, isParam, isObject, ?_, found, Option.some.inj passes, ?_⟩
  · rw [given, Option.some.inj passes]
  · rw [oldObject_resolved ready inv, leads, Option.bind_some, found]

/-- There is one description of a handle. -/
theorem description_unique (inv : Inv sys) {p p' : Address} {m m' : MemObj}
    (found : sys.s.memobjs.find p = some m) (found' : sys.s.memobjs.find p' = some m')
    (same : m.handle = m'.handle) : p = p' ∧ m = m' := by
  have listed := inv.entered p m found
  rw [same, inv.entered p' m' found', Option.some.injEq] at listed
  rw [← listed, found', Option.some.injEq] at found
  exact ⟨listed.symm, found.symm⟩

/-- The new objects are none of those that are replaced. -/
theorem unknown_of_creates {n : Nat} (inv : Inv sys) (ready : Ready sys kernel info kern)
    (creates : Creates sys.s objects n) : ∀ object ∈ objects, ∀ j m,
      oldObject (resolved sys.s info) j = some m → m.handle ≠ object.handle := by
  intro object mem j m isOld same
  rw [oldObject_resolved ready inv] at isOld
  obtain ⟨p, -, found⟩ := Option.bind_eq_some_iff.mp isOld
  have fresh := (creates.fresh object mem).2
  rw [← same, inv.entered p m found] at fresh
  contradiction

/-- A description of an object belongs to an argument that passes it. -/
theorem passes_of_object (ready : Ready sys kernel info kern) (inv : Inv sys) {p : Address}
    {m : MemObj} {param : Param} (isParam : kern.params[i]? = some param)
    (isObject : param.isObject) (leads : objectAt info.argList i = some p)
    (found : sys.s.memobjs.find p = some m) :
    kern.args i = some (.memory SIZEOF_MEM (some m.handle)) ∧
      passedObject kern i = some m.handle := by
  obtain ⟨entry, isEntry, buffer⟩ := Option.bind_eq_some_iff.mp leads
  obtain ⟨kern'', arg, isKern, given, describes⟩ :=
    inv.tracks kernel info ready.described i entry isEntry
  obtain rfl := Option.some.inj (ready.isKernel.symm.trans isKern)
  obtain ⟨rfl, -⟩ := Ready.memory_of_buffer describes buffer found
  refine ⟨given, ?_⟩
  rw [passedObject, isParam, Option.any_some, if_pos isObject, given]
  rfl

/-- A kernel that has to be cloned, and can be.  All the objects that it passes are
described, and the clone gets every other argument again. -/
structure Replaceable (place : Handle → Nat → A) (size : Handle → Nat) (handles : Handle → Prop)
    (sys : ArgSystem) (kernel clone : Handle) (objects : List MemObj) (info : KernelInfo)
    (kern : RuntimeKernel) : Prop extends Clonable sys kernel clone objects info kern where
  known : ∀ i h, passedObject kern i = some h →
    handles h ∧ ∃ p, objectAt info.argList i = some p
  again : SetAgain sys.s info kern
  storage : Storage place size (resolved sys.s info) objects handles

/-- A replaced object and its replacement, or an object that is kept. -/
theorem replacement_cases (length : objects.length = (replacedArgs kargs).length) (h : Handle) :
    (∃ f m object, isNew kargs f ∧ oldObject kargs f = some m ∧ m.handle = h ∧
      objects[rank kargs f]? = some object ∧ replacement kargs objects h = object.handle) ∨
    (∀ i, isNew kargs i = true → bufferAt kargs i ≠ some h) ∧ replacement kargs objects h = h := by
  by_cases kept : ∀ i, isNew kargs i = true → bufferAt kargs i ≠ some h
  · exact Or.inr ⟨kept, replacement_old kept⟩
  · push Not at kept
    obtain ⟨f, new, passes⟩ := kept
    rw [bufferAt_eq] at passes
    obtain ⟨m, isOld, same⟩ := Option.map_eq_some_iff.mp passes
    obtain ⟨-, karg, isArg, -⟩ := isNew_iff.mp new
    have inRange : rank kargs f < objects.length := by
      rw [length]
      exact rank_lt new (List.getElem?_eq_some_iff.mp isArg).1
    have here := List.getElem?_eq_getElem inRange
    refine Or.inl ⟨f, m, _, new, isOld, same, here, ?_⟩
    rw [← same]
    exact replacement_new new isOld here

/-- The clone is ready, and the contents are copied. -/
structure Replaced (place : Handle → Nat → A) (start : LaunchState A) (kernel clone : Handle)
    (objects : List MemObj) (info : KernelInfo) (kern kern' : RuntimeKernel)
    (st : LaunchState A) : Prop where
  copied : ∃ rest, Copied place start (resolved start.sys.s info) objects clone kern.params.length
    rest st
  isClone : st.sys.kernels.find clone = some kern'
  described : ∀ j < kern.params.length, ∃ info' entry, st.sys.s.kinfoFind clone = some info' ∧
    info'.argList.find j = some entry
  params : kern'.params = kern.params
  same : ∀ i, ¬ CanaryLess start.sys.s info kern i → kern'.args i = kern.args i

variable {handles : Handle → Prop}

/-- `createPoisonedKernel` for such a kernel. -/
theorem replaced_of_replaceable (inv : Inv start.sys)
    (replaceable : Replaceable place size handles start.sys kernel clone objects info kern) :
    ∃ kern' st, start.createPoisonedKernel place kernel clone objects = some (clone, st) ∧
      Replaced place start kernel clone objects info kern kern' st := by
  have ready := replaceable.toReady
  obtain ⟨sys', kern', ran, -, isClone, same⟩ :=
    runsWith_of_setAgain inv replaceable.toClonable replaceable.again
  rw [ready.createPoisonedKernel_eq, if_pos replaceable.needs] at ran
  obtain ⟨begun, created, ran⟩ := Option.bind_eq_some_iff.mp ran
  obtain ⟨cloned, isStart, -⟩ := inv.beginClone (resolved start.sys.s info) created
  have final := ready.cloned inv created ran
  have unknown := unknown_of_creates inv ready replaceable.creates
  have none : Copied place ⟨begun, start.memory⟩ (resolved start.sys.s info) objects clone 0
      objects ⟨begun, start.memory⟩ := by
    constructor
    case left => rfl
    case kept => exact fun _ _ => id
    case others => exact fun _ _ => rfl
    case outside => exact fun _ _ => rfl
    all_goals exact fun j jLt => absurd jLt (Nat.not_lt_zero j)
  rw [List.range_eq_range'] at ran
  obtain ⟨rest, memory, looped, copied⟩ := copied_loop replaceable.storage unknown
    replaceable.creates.nodup (ready.separate inv) cloned none ran
  rw [Nat.zero_add] at copied
  obtain ⟨kern'', isClone', params', -⟩ := final.isClone
  rw [isClone, Option.some.injEq] at isClone'
  refine ⟨kern', ⟨sys', memory⟩, ?_, ⟨rest, ?_⟩, isClone, final.described, isClone' ▸ params', same⟩
  · rw [createPoisonedKernel, ready.described, Option.bind_some, ready.isKernel, Option.bind_some,
      if_pos ⟨ready.complete, ready.live⟩]
    dsimp only
    rw [if_pos replaceable.needs, created, Option.bind_some, List.range_eq_range', looped]
    rfl
  · exact copied.restart isStart rfl

section Replaced

variable (inv : Inv start.sys)
  (replaceable : Replaceable place size handles start.sys kernel clone objects info kern)
  (replaced : Replaced place start kernel clone objects info kern kern' st)

include inv replaceable

omit [DecidableEq A] in
/-- An object that is passed is described. -/
theorem described_of_passed {h : Handle} (passes : passedObject kern i = some h) :
    ∃ p, start.sys.s.clMemAlloc.find h = some p := by
  obtain ⟨-, p, leads⟩ := replaceable.known i h passes
  obtain ⟨param, m, -, -, -, found, rfl, -⟩ :=
    passed_object replaceable.toReady inv passes leads
  exact ⟨p, inv.entered p m found⟩

omit [DecidableEq A] in
/-- A new object is not passed. -/
theorem ne_of_passed {h : Handle} {object : MemObj} (passes : passedObject kern i = some h)
    (mem : object ∈ objects) : object.handle ≠ h := by
  rintro rfl
  obtain ⟨p, listed⟩ := described_of_passed inv replaceable passes
  rw [(replaceable.creates.fresh object mem).2] at listed
  contradiction

omit [DecidableEq A] in
/-- Different objects are replaced by different ones. -/
theorem replacement_injective {h h' : Handle} (passes : passedObject kern i = some h)
    (passes' : passedObject kern j = some h')
    (same : replacement (resolved start.sys.s info) objects h =
      replacement (resolved start.sys.s info) objects h') : h = h' := by
  rcases replacement_cases replaceable.creates.length h with
    ⟨f, m, object, new, isOld, rfl, here, isNew⟩ | ⟨-, isNew⟩ <;>
  rcases replacement_cases replaceable.creates.length h' with
    ⟨f', m', object', new', isOld', rfl, here', isNew'⟩ | ⟨-, isNew'⟩ <;>
  rw [isNew, isNew'] at same
  · have ranks := index_of_handle replaceable.creates.nodup here here' same
    obtain rfl := eq_of_rank new new' ranks
    rw [Option.some.inj (isOld.symm.trans isOld')]
  · exact absurd same (ne_of_passed inv replaceable passes' (List.mem_of_getElem? here))
  · exact absurd same.symm (ne_of_passed inv replaceable passes (List.mem_of_getElem? here'))
  · exact same

omit [DecidableEq A] inv in
/-- A replacement has the size of the object. -/
theorem replacement_stored {h : Handle} (passes : passedObject kern i = some h) :
    handles (replacement (resolved start.sys.s info) objects h) ∧
      size (replacement (resolved start.sys.s info) objects h) = size h := by
  rcases replacement_cases replaceable.creates.length h with
    ⟨f, m, object, new, isOld, rfl, here, isNew⟩ | ⟨-, isNew⟩
  · obtain ⟨m', isOld', noCanary⟩ := exists_oldObject new
    rw [isOld, Option.some.injEq] at isOld'
    obtain ⟨isHandle, isSize, -⟩ := replaceable.storage.new object (List.mem_of_getElem? here)
    obtain ⟨-, oldSize, -⟩ := replaceable.storage.old f m isOld (isOld' ▸ noCanary)
    rw [isNew, isSize, oldSize]
    exact ⟨isHandle, replaceable.storage.fits f m object new isOld here⟩
  · rw [isNew]
    exact ⟨(replaceable.known i h passes).1, rfl⟩

include replaced

omit [DecidableEq A] in
/-- The clone gets a replacement for every object, and everything else again. -/
theorem replaced_arg (i : Nat) : (passedObject kern i = none ∧ kern'.args i = kern.args i) ∨
    ∃ param h, kern.params[i]? = some param ∧ param.isObject ∧ passedObject kern i = some h ∧
      kern.args i = some (.memory SIZEOF_MEM (some h)) ∧ kern'.args i =
        some (.memory SIZEOF_MEM (some (replacement (resolved start.sys.s info) objects h))) := by
  have ready := replaceable.toReady
  cases passes : passedObject kern i with
  | none =>
      refine Or.inl ⟨rfl, replaced.same i ?_⟩
      rintro ⟨param, entry, p, m, isParam, isObject, isEntry, buffer, found, -⟩
      have leads : objectAt info.argList i = some p := by
        rw [objectAt, isEntry, Option.bind_some, buffer]
      rw [(passes_of_object ready inv isParam isObject leads found).2] at passes
      contradiction
  | some h =>
      obtain ⟨-, p, leads⟩ := replaceable.known i h passes
      obtain ⟨param, m, isParam, isObject, given, found, rfl, isOld⟩ :=
        passed_object ready inv passes leads
      refine Or.inr ⟨param, m.handle, isParam, isObject, rfl, given, ?_⟩
      cases canary : m.hasCanary with
      | true =>
          rw [replaced.same i, given, replacement_old]
          · intro j new passes'
            obtain ⟨m', isOld', noCanary⟩ := exists_oldObject new
            rw [bufferAt_eq, isOld', Option.map_some, Option.some.injEq] at passes'
            rw [oldObject_resolved ready inv] at isOld'
            obtain ⟨p', -, found'⟩ := Option.bind_eq_some_iff.mp isOld'
            rw [(description_unique inv found' found passes').2, canary] at noCanary
            contradiction
          · rintro ⟨-, entry, p', m', -, -, isEntry, buffer, found', noCanary⟩
            rw [objectAt, isEntry, Option.bind_some, buffer, Option.some.injEq] at leads
            rw [leads, found, Option.some.injEq] at found'
            rw [← found', canary] at noCanary
            contradiction
      | false =>
          -- the first use has a new object, and so has this one
          have isFirst : bufferAt (resolved start.sys.s info) i = some m.handle := by
            rw [bufferAt_eq, isOld, Option.map_some]
          obtain ⟨first_le, isFirst, -⟩ := firstUse_of_some isFirst
          rw [bufferAt_eq] at isFirst
          obtain ⟨m', isOld', same⟩ := Option.map_eq_some_iff.mp isFirst
          obtain ⟨p', -, found'⟩ := Option.bind_eq_some_iff.mp
            ((oldObject_resolved ready inv).symm.trans isOld')
          obtain ⟨-, rfl⟩ := description_unique inv found' found same
          obtain ⟨karg, isArg, isBuffer⟩ := Option.bind_eq_some_iff.mp isOld'
          have new : isNew (resolved start.sys.s info)
              (firstUse (resolved start.sys.s info) i) := by
            refine isNew_iff.mpr ⟨firstUse_firstUse _ _, karg, isArg, ?_⟩
            exact KernelArg.isReplaced_iff.mpr ⟨m', isBuffer, ready.separate inv karg
              (List.mem_of_getElem? isArg) (by rw [isBuffer]; rfl), canary⟩
          have iLt := (List.getElem?_eq_some_iff.mp isParam).1
          obtain ⟨rest, copied⟩ := replaced.copied
          obtain ⟨object, -, here, gets, -⟩ := copied.new _ (first_le.trans_lt iLt) new
          rw [replacement_new new isOld' here]
          have shared : argAt st.sys clone i = some (.memory SIZEOF_MEM (some object.handle)) := by
            by_cases first : firstUse (resolved start.sys.s info) i = i
            · rwa [first] at gets
            · rw [copied.repeated i iLt first, gets]
          rwa [argAt, replaced.isClone, Option.bind_some] at shared

omit [DecidableEq A] in
/-- The objects that the clone passes. -/
theorem passedObject_replaced (i : Nat) : passedObject kern' i =
    (passedObject kern i).map (replacement (resolved start.sys.s info) objects) := by
  rcases replaced_arg inv replaceable replaced i with
    ⟨passes, again⟩ | ⟨param, h, isParam, isObject, passes, -, given⟩
  · rw [passes, passedObject, replaced.params, again]
    exact passes
  · rw [passes, passedObject, replaced.params, isParam, Option.any_some, if_pos isObject, given]
    rfl

omit [DecidableEq A] in
/-- The kernel cannot tell the clone's arguments from its own. -/
theorem alike_of_replaced : Alike kern.params kern.args kern'.args := by
  have passed : ∀ {i param h}, kern.params[i]? = some param → param.isObject →
      kern.args i = some (.memory SIZEOF_MEM (some h)) → passedObject kern i = some h := by
    intro i param h isParam isObject given
    rw [passedObject, isParam, Option.any_some, if_pos isObject, given]
    rfl
  constructor
  · intro i
    rcases replaced_arg inv replaceable replaced i with
      ⟨-, again⟩ | ⟨param, h, isParam, isObject, -, given, given'⟩
    · exact Or.inl again.symm
    · exact Or.inr ⟨param, h, _, isParam, isObject, given, given'⟩
  · intro i j param param' isParam isObject isParam' isObject'
    rcases replaced_arg inv replaceable replaced i with
      ⟨none, again⟩ | ⟨-, h, -, -, passes, given, gets⟩ <;>
    rcases replaced_arg inv replaceable replaced j with
      ⟨none', again'⟩ | ⟨-, h', -, -, passes', given', gets'⟩
    · rw [again, again']
    · refine iff_of_false (fun same => ?_) fun same => ?_
      · rw [passed isParam isObject (same.trans given')] at none
        contradiction
      · rw [passed isParam isObject (again.symm.trans (same.trans gets'))] at none
        contradiction
    · refine iff_of_false (fun same => ?_) fun same => ?_
      · rw [passed isParam' isObject' (same.symm.trans given)] at none'
        contradiction
      · rw [passed isParam' isObject' (again'.symm.trans (same.symm.trans gets))] at none'
        contradiction
    · rw [given, given', gets, gets']
      constructor
      · intro same
        simp only [Option.some.injEq, RuntimeArg.memory.injEq, true_and] at same
        rw [same]
      · intro same
        simp only [Option.some.injEq, RuntimeArg.memory.injEq, true_and] at same
        rw [replacement_injective inv replaceable passes passes' same]

omit [DecidableEq A] in
/-- A byte of an argument is a byte of an object, and of its replacement. -/
theorem argByte {o : Nat} (oLt : o < argBytes size kern i) : ∃ h, passedObject kern i = some h ∧
    o < size h ∧ argPlace place kern i = place h ∧ argPlace place kern' i =
      place (replacement (resolved start.sys.s info) objects h) := by
  rw [argBytes] at oLt
  cases passes : passedObject kern i with
  | none =>
      rw [passes] at oLt
      exact absurd oLt (Nat.not_lt_zero o)
  | some h =>
      rw [passes] at oLt
      have passes' := passedObject_replaced inv replaceable replaced i
      rw [passes, Option.map_some] at passes'
      refine ⟨h, rfl, oLt, ?_, ?_⟩
      · rw [argPlace, passes, Option.getD_some]
      · rw [argPlace, passes', Option.getD_some]

omit [DecidableEq A] in
theorem sameAliasing_of_replaced : Program.SameAliasing (argBytes size kern)
    (argPlace place kern) (argPlace place kern') := by
  intro i o j o' oLt oLt'
  obtain ⟨h, passes, below, isPlace, isPlace'⟩ := argByte inv replaceable replaced oLt
  obtain ⟨k, passes', below', atPlace, atPlace'⟩ := argByte inv replaceable replaced oLt'
  obtain ⟨isHandle, sameSize⟩ := replacement_stored replaceable passes
  obtain ⟨isHandle', sameSize'⟩ := replacement_stored replaceable passes'
  rw [isPlace, isPlace', atPlace, atPlace']
  constructor
  · intro same
    obtain ⟨rfl, rfl⟩ := replaceable.storage.apart h k (replaceable.known i h passes).1
      (replaceable.known j k passes').1 o o' below below' same
    rfl
  · intro same
    obtain ⟨sameHandle, rfl⟩ := replaceable.storage.apart _ _ isHandle isHandle' o o'
      (sameSize.symm ▸ below) (sameSize'.symm ▸ below') same
    rw [replacement_injective inv replaceable passes passes' sameHandle]

omit [DecidableEq A] replaced in
/-- No cell of an object that is passed is a cell of a new one. -/
theorem not_mem_newCells {h : Handle} {o : Nat} (passes : passedObject kern i = some h)
    (oLt : o < size h) : place h o ∉ newCells place objects := by
  rintro ⟨object, mem, o', oLt', same⟩
  obtain ⟨isHandle, isSize, -⟩ := replaceable.storage.new object mem
  exact ne_of_passed inv replaceable passes mem (replaceable.storage.apart _ _ isHandle
    (replaceable.known i h passes).1 o' o (isSize.symm ▸ oLt') oLt same).1

omit [DecidableEq A] in
theorem agree_of_replaced : Program.Agree (argBytes size kern) (argPlace place kern)
    (argPlace place kern') start.memory st.memory := by
  intro i o oLt
  obtain ⟨h, passes, below, isPlace, isPlace'⟩ := argByte inv replaceable replaced oLt
  obtain ⟨rest, copied⟩ := replaced.copied
  rw [isPlace, isPlace']
  rcases replacement_cases replaceable.creates.length h with
    ⟨f, m, object, new, isOld, rfl, here, isNew⟩ | ⟨-, isNew⟩
  · obtain ⟨m', isOld', noCanary⟩ := exists_oldObject new
    rw [isOld, Option.some.injEq] at isOld'
    obtain ⟨-, isSize, -⟩ := replaceable.storage.old f m isOld (isOld' ▸ noCanary)
    obtain ⟨-, karg, isArg, -⟩ := isNew_iff.mp new
    have fLt : f < kern.params.length := by
      rw [← replaceable.toReady.length]
      exact (List.getElem?_eq_some_iff.mp isArg).1
    rw [isNew]
    exact (copied.copied f fLt new object m here isOld o (isSize ▸ below)).symm
  · rw [isNew]
    exact (copied.outside _ (not_mem_newCells inv replaceable passes below)).symm

end Replaced

/-! ## The copies back -/

/-- Some turns of the loop have copied back what the clone left in `memory`. -/
structure CopiedBack (place : Handle → Nat → A) (kargs : List KernelArg) (objects : List MemObj)
    (memory : A → UInt8) (i : Nat) (memory' : A → UInt8) : Prop where
  copied : ∀ j < i, isNew kargs j → ∀ object m, objects[rank kargs j]? = some object →
    oldObject kargs j = some m → ∀ o < m.size,
      memory' (place m.handle o) = memory (place object.handle o)
  outside : ∀ a, (∀ j < i, isNew kargs j → ∀ m, oldObject kargs j = some m →
    ∀ o < m.size, place m.handle o ≠ a) → memory' a = memory a

section CopyBack

variable {memory memory' : A → UInt8} (storage : Storage place size kargs objects handles)
  (unknown : ∀ object ∈ objects, ∀ j m, oldObject kargs j = some m → m.handle ≠ object.handle)

omit [DecidableEq A] in
/-- A turn without a new object. -/
theorem CopiedBack.skip (back : CopiedBack place kargs objects memory i memory')
    (old : isNew kargs i = false) : CopiedBack place kargs objects memory (i + 1) memory' := by
  have notNew : ∀ j < i + 1, isNew kargs j = true → j < i := by
    intro j jLt new
    rcases Nat.lt_succ_iff_lt_or_eq.mp jLt with before | rfl
    · exact before
    · rw [old] at new
      contradiction
  constructor
  · exact fun j jLt new => back.copied j (notNew j jLt new) new
  · exact fun a apart => back.outside a fun j jLt => apart j (Nat.lt_succ_of_lt jLt)

include storage unknown

/-- A turn with a new object. -/
theorem CopiedBack.copy {object m : MemObj} (back : CopiedBack place kargs objects memory i memory')
    (new : isNew kargs i) (here : objects[rank kargs i]? = some object)
    (isOld : oldObject kargs i = some m) : CopiedBack place kargs objects memory (i + 1)
      (copyCells (place object.handle) (place m.handle) m.size memory') := by
  have oldOf : ∀ j m, isNew kargs j = true → oldObject kargs j = some m →
      handles m.handle ∧ size m.handle = m.size := by
    intro j m new isOld
    obtain ⟨m', isOld', noCanary⟩ := exists_oldObject new
    rw [isOld, Option.some.injEq] at isOld'
    obtain ⟨isHandle, isSize, -⟩ := storage.old j m isOld (isOld' ▸ noCanary)
    exact ⟨isHandle, isSize⟩
  obtain ⟨isHandle, oldSize⟩ := oldOf i m new isOld
  obtain ⟨isHandle', newSize, -⟩ := storage.new object (List.mem_of_getElem? here)
  have isSize := storage.fits i m object new isOld here
  obtain ⟨isCopy, others⟩ := @copyCells_spec A _ m.size (place object.handle) (place m.handle)
    memory' fun o o' oLt oLt' same => (storage.apart _ _ isHandle isHandle o o'
      (by omega) (by omega) same).2
  constructor
  · intro j jLt new' object' m' here' isOld' o oLt
    rcases Nat.lt_succ_iff_lt_or_eq.mp jLt with before | rfl
    · obtain ⟨isHandle'', oldSize'⟩ := oldOf j m' new' isOld'
      refine (others _ fun o' oLt' same => ?_).trans
        (back.copied j before new' object' m' here' isOld' o oLt)
      obtain ⟨sameHandle, -⟩ :=
        storage.apart _ _ isHandle isHandle'' o' o (by omega) (by omega) same
      refine before.ne' (@eq_of_new kargs i j m.handle new new' ?_ ?_)
      · rw [bufferAt_eq, isOld, Option.map_some]
      · rw [bufferAt_eq, isOld', Option.map_some, sameHandle]
    · obtain rfl := Option.some.inj (here.symm.trans here')
      obtain rfl := Option.some.inj (isOld.symm.trans isOld')
      refine (isCopy o oLt).trans (back.outside _ fun j jLt' new'' m' isOld'' o' oLt' same => ?_)
      obtain ⟨isHandle'', oldSize'⟩ := oldOf j m' new'' isOld''
      obtain ⟨sameHandle, -⟩ :=
        storage.apart _ _ isHandle'' isHandle' o' o (by omega) (by omega) same
      exact unknown object (List.mem_of_getElem? here) j m' isOld'' sameHandle
  · intro a apart
    refine (others a fun o oLt => apart i (Nat.lt_succ_self i) new m isOld o oLt).trans
      (back.outside a fun j jLt => apart j (Nat.lt_succ_of_lt jLt))

end CopyBack

section Launch

variable (inv : Inv start.sys)
  (replaceable : Replaceable place size handles start.sys kernel clone objects info kern)
  (replaced : Replaced place start kernel clone objects info kern kern' st)

include inv replaceable replaced

/-- One turn. -/
theorem copyBack_turn {info' : KernelInfo} {memory memory' : A → UInt8}
    (isInfo' : st.sys.s.kinfoFind clone = some info') (iLt : i < kern.params.length)
    (back : CopiedBack place (resolved start.sys.s info) objects memory i memory') :
    ∃ memory'', copyKernelBuffer place st.sys.s info info'
        (findDuplicates (resolved start.sys.s info)) i memory' = some memory'' ∧
      CopiedBack place (resolved start.sys.s info) objects memory (i + 1) memory'' := by
  have ready := replaceable.toReady
  obtain ⟨rest, copied⟩ := replaced.copied
  obtain ⟨_, entry', found, isEntry'⟩ := replaced.described i iLt
  obtain rfl := Option.some.inj (isInfo'.symm.trans found)
  have iLt' : i < (resolved start.sys.s info).length := ready.length.symm ▸ iLt
  have isArg := List.getElem?_eq_getElem iLt'
  obtain ⟨entry, -, isEntry, -⟩ := ready.at_index inv isArg
  have leads : objectAt info.argList i = entry.buffer := by
    rw [objectAt, isEntry, Option.bind_some]
  have leads' : objectAt (st.sys.s.argsOf clone) i = entry'.buffer := by
    rw [objectAt, find_argsOf, isInfo', Option.bind_some, isEntry', Option.bind_some]
  rw [copyKernelBuffer, isEntry', Option.bind_some, isEntry, Option.bind_some,
    findDuplicates_getElem? iLt']
  by_cases first : firstUse (resolved start.sys.s info) i = i
  · rw [if_pos (congrArg some first)]
    cases isOld : oldObject (resolved start.sys.s info) i with
    | none =>
        have noObject : entry.buffer = none := by
          rw [← leads, ← Option.not_isSome_iff_eq_none, ready.objectAt_isSome inv, bufferAt_eq,
            isOld]
          exact Bool.false_ne_true
        have old : isNew (resolved start.sys.s info) i = false := by
          rw [← Bool.not_eq_true]
          intro new
          obtain ⟨m, isOld', -⟩ := exists_oldObject new
          rw [isOld] at isOld'
          contradiction
        refine ⟨memory', ?_, back.skip old⟩
        rw [noObject]
        cases entry'.buffer <;> rfl
    | some m =>
        obtain ⟨p2, isObject, isMem⟩ := Option.bind_eq_some_iff.mp
          ((oldObject_resolved ready inv).symm.trans isOld)
        rw [isObject] at leads
        cases canary : m.hasCanary with
        | true =>
            have old : isNew (resolved start.sys.s info) i = false := by
              rw [← Bool.not_eq_true]
              intro new
              obtain ⟨m', isOld', noCanary⟩ := exists_oldObject new
              rw [isOld, Option.some.injEq] at isOld'
              rw [← isOld', canary] at noCanary
              contradiction
            have same := copied.again i iLt first m p2 isOld canary (inv.entered p2 m isMem)
            refine ⟨memory', ?_, back.skip old⟩
            rw [← leads, ← leads', same]
            exact if_pos rfl
        | false =>
            obtain ⟨karg, isArg', isBuffer⟩ := Option.bind_eq_some_iff.mp isOld
            have new : isNew (resolved start.sys.s info) i :=
              isNew_iff.mpr ⟨first, karg, isArg', KernelArg.isReplaced_iff.mpr ⟨m, isBuffer,
                ready.separate inv karg (List.mem_of_getElem? isArg') (by rw [isBuffer]; rfl),
                canary⟩⟩
            obtain ⟨object, p1, here, -, leads'', fresh, isMem'⟩ := copied.new i iLt new
            obtain ⟨-, -, notImage⟩ := replaceable.storage.new object (List.mem_of_getElem? here)
            have isSize := replaceable.storage.fits i m object new isOld here
            have other : p1 ≠ p2 := by
              rintro rfl
              rw [isMem] at fresh
              contradiction
            refine ⟨_, ?_, back.copy replaceable.storage
              (unknown_of_creates inv ready replaceable.creates) new here isOld⟩
            rw [← leads, ← leads', leads'']
            dsimp only
            rw [if_neg other, isMem', Option.bind_some, copied.kept p2 m isMem, Option.bind_some,
              notImage, if_neg Bool.false_ne_true, isSize, if_neg (lt_irrefl _)]
  · have old : isNew (resolved start.sys.s info) i = false := by
      rw [isNew, decide_eq_false first, Bool.false_and]
    exact ⟨memory', if_neg fun same => first (Option.some.inj same), back.skip old⟩

/-- `copyKernelBuffers` after the clone. -/
theorem copiedBack_of_replaced (memory : A → UInt8) : ∃ memory',
    copyKernelBuffers place kernel clone (findDuplicates (resolved start.sys.s info))
      { st with memory := memory } = some ⟨st.sys, memory'⟩ ∧
    CopiedBack place (resolved start.sys.s info) objects memory kern.params.length memory' := by
  have ready := replaceable.toReady
  obtain ⟨rest, copied⟩ := replaced.copied
  have apart : kernel ≠ clone := by
    rintro rfl
    exact Option.some_ne_none kern (ready.isKernel.symm.trans replaceable.fresh.2)
  have isInfo : st.sys.s.kinfoFind kernel = some info :=
    (copied.others kernel apart).trans ready.described
  obtain ⟨karg, isKarg, -⟩ := List.any_eq_true.mp replaceable.needs
  have nonempty : 0 < kern.params.length := by
    rw [← ready.length]
    exact List.length_pos_of_mem isKarg
  obtain ⟨info', -, isInfo', -⟩ := replaced.described 0 nonempty
  obtain ⟨memory', looped, back⟩ := @Loop.loop_total _
    (copyKernelBuffer place st.sys.s info info' (findDuplicates (resolved start.sys.s info)))
    (CopiedBack place (resolved start.sys.s info) objects memory) kern.params.length memory
    ⟨fun j jLt => absurd jLt (Nat.not_lt_zero j), fun _ _ => rfl⟩
    fun i iLt memory' back => copyBack_turn inv replaceable replaced isInfo' iLt back
  refine ⟨memory', ?_, back⟩
  rw [copyKernelBuffers, replaced.isClone, Option.bind_some, isInfo', Option.bind_some, isInfo,
    Option.bind_some, replaced.params, looped]
  rfl

/-- A cloned launch.  In the memory of the replaced objects there is what the clone
left in the new ones, and in the other objects what it left there. -/
theorem launched_of_replaced (code : KernelCode kern.params)
    (inBounds : (code.body kern.args).InBounds (argBytes size kern) (argPlace place kern)
      start.memory) {memory : A → UInt8}
    (back : CopiedBack place (resolved start.sys.s info) objects
      ((code.body kern'.args).exec (argPlace place kern') st.memory) kern.params.length memory) :
    ∀ a ∉ newCells place objects,
      memory a = (code.body kern.args).exec (argPlace place kern) start.memory a := by
  have ready := replaceable.toReady
  obtain ⟨inBounds', agree⟩ := Program.exec_agree
    (sameAliasing_of_replaced inv replaceable replaced)
    (agree_of_replaced inv replaceable replaced) inBounds
  rw [← code.blind _ _ (alike_of_replaced inv replaceable replaced)] at back
  -- an object that is replaced is an argument, and both kernels agree on its bytes
  have wasPassed : ∀ f m, isNew (resolved start.sys.s info) f = true →
      oldObject (resolved start.sys.s info) f = some m →
      f < kern.params.length ∧ passedObject kern f = some m.handle ∧ size m.handle = m.size := by
    intro f m new isOld
    obtain ⟨m', isOld', noCanary⟩ := exists_oldObject new
    rw [isOld, Option.some.injEq] at isOld'
    obtain ⟨-, isSize, -⟩ := replaceable.storage.old f m isOld (isOld' ▸ noCanary)
    obtain ⟨p, leads, isMem⟩ := Option.bind_eq_some_iff.mp
      ((oldObject_resolved ready inv).symm.trans isOld)
    obtain ⟨entry, isEntry, buffer⟩ := Option.bind_eq_some_iff.mp leads
    obtain ⟨param, isParam, isObject⟩ :=
      replaceable.again.objects f entry p m isEntry buffer isMem (isOld' ▸ noCanary)
    exact ⟨(List.getElem?_eq_some_iff.mp isParam).1,
      (passes_of_object ready inv isParam isObject leads isMem).2, isSize⟩
  have bytes : ∀ {i h}, passedObject kern i = some h → argBytes size kern i = size h := by
    intro i h passes
    rw [argBytes, passes, Option.map_some, Option.getD_some]
  have atPlace : ∀ {i h}, passedObject kern i = some h → argPlace place kern i = place h := by
    intro i h passes
    rw [argPlace, passes, Option.getD_some]
  intro a outside
  by_cases wasReplaced : ∃ f m, isNew (resolved start.sys.s info) f = true ∧
      oldObject (resolved start.sys.s info) f = some m ∧ ∃ o < m.size, place m.handle o = a
  · obtain ⟨f, m, new, isOld, o, oLt, rfl⟩ := wasReplaced
    obtain ⟨fLt, passes, isSize⟩ := wasPassed f m new isOld
    obtain ⟨rest, copied⟩ := replaced.copied
    obtain ⟨object, -, here, -⟩ := copied.new f fLt new
    have oLt' : o < argBytes size kern f := by
      rw [bytes passes, isSize]
      exact oLt
    have same := agree f o oLt'
    obtain ⟨h, passes', -, -, isPlace'⟩ := argByte inv replaceable replaced oLt'
    rw [passes, Option.some.injEq] at passes'
    rw [isPlace', atPlace passes, ← passes', replacement_new new isOld here] at same
    rw [same]
    exact back.copied f fLt new object m here isOld o oLt
  · push Not at wasReplaced
    rw [back.outside a fun j _ new m isOld o oLt => wasReplaced j m new isOld o oLt]
    by_cases named : ∃ i o, o < argBytes size kern i ∧ argPlace place kern i o = a
    · -- an object that is kept
      obtain ⟨i, o, oLt, rfl⟩ := named
      have same := agree i o oLt
      obtain ⟨h, passes, below, isPlace, isPlace'⟩ := argByte inv replaceable replaced oLt
      rw [isPlace, isPlace'] at same
      rw [isPlace] at wasReplaced ⊢
      rcases replacement_cases replaceable.creates.length h with
        ⟨f, m, object, new, isOld, rfl, -, -⟩ | ⟨-, kept⟩
      · rw [(wasPassed f m new isOld).2.2] at below
        exact absurd rfl (wasReplaced f m new isOld o below)
      · rw [kept] at same
        exact same.symm
    · push Not at named
      obtain ⟨rest, copied⟩ := replaced.copied
      rw [Program.exec_frame inBounds named, Program.exec_frame inBounds' ?_,
        copied.outside a outside]
      intro i o oLt reached
      obtain ⟨h, passes, below, isPlace, isPlace'⟩ := argByte inv replaceable replaced oLt
      rw [isPlace'] at reached
      rcases replacement_cases replaceable.creates.length h with
        ⟨f, m, object, new, isOld, rfl, here, isNew⟩ | ⟨-, kept⟩
      · obtain ⟨-, isSize, -⟩ := replaceable.storage.new object (List.mem_of_getElem? here)
        have fits := replaceable.storage.fits f m object new isOld here
        rw [(wasPassed f m new isOld).2.2, ← fits] at below
        rw [isNew] at reached
        exact outside ⟨object, List.mem_of_getElem? here, o, below, reached⟩
      · rw [kept, ← isPlace] at reached
        exact named i o oLt reached

end Launch

/-- A launch, whether the kernel is cloned or not. -/
theorem launched_of_ready (inv : Inv start.sys) (ready : Ready start.sys kernel info kern)
    (replaceable : needInternalBuffer (resolved start.sys.s info) →
      Replaceable place size handles start.sys kernel clone objects info kern)
    (code : KernelCode kern.params)
    (inBounds : (code.body kern.args).InBounds (argBytes size kern) (argPlace place kern)
      start.memory) :
    ∃ st, start.kernelLaunchFunc place code kernel clone objects = some st ∧
      ∀ a ∉ newCells place objects,
        st.memory a = (code.body kern.args).exec (argPlace place kern) start.memory a := by
  rw [kernelLaunchFunc, ready.described, Option.bind_some]
  cases needs : needInternalBuffer (resolved start.sys.s info) with
  | true =>
      have replaceable := replaceable needs
      obtain ⟨kern', st, created, replaced⟩ := replaced_of_replaceable inv replaceable
      obtain ⟨memory, copies, back⟩ := copiedBack_of_replaced inv replaceable replaced
        ((code.body kern'.args).exec (argPlace place kern') st.memory)
      have other : clone ≠ kernel := by
        rintro rfl
        exact Option.some_ne_none kern (ready.isKernel.symm.trans replaceable.fresh.2)
      refine ⟨⟨st.sys, memory⟩, ?_,
        launched_of_replaced inv replaceable replaced code inBounds back⟩
      rw [created, Option.bind_some, runNDRangeKernel, replaced.isClone, Option.map_some,
        Option.bind_some]
      dsimp only
      rw [if_pos other]
      exact copies
  | false =>
      have same : start.createPoisonedKernel place kernel clone objects = some (kernel, start) := by
        rw [createPoisonedKernel, ready.described, Option.bind_some, ready.isKernel,
          Option.bind_some, if_pos ⟨ready.complete, ready.live⟩]
        dsimp only
        rw [needs, if_neg Bool.false_ne_true]
      refine ⟨⟨start.sys, (code.body kern.args).exec (argPlace place kern) start.memory⟩, ?_,
        fun _ _ => rfl⟩
      rw [same, Option.bind_some, runNDRangeKernel, ready.isKernel, Option.map_some,
        Option.bind_some]
      dsimp only
      rw [if_neg fun differs => differs rfl]

/-- In every run, a launch leaves in memory what its kernel leaves when it runs on its own
objects, whether the kernel is cloned or not; only the cells of the new objects may differ. -/
theorem kernelLaunchFunc_of_run (run : Run.Reach step (fun _ _ => True) initial start.sys)
    (ready : Ready start.sys kernel info kern)
    (replaceable : needInternalBuffer (resolved start.sys.s info) →
      Replaceable place size handles start.sys kernel clone objects info kern)
    (code : KernelCode kern.params)
    (inBounds : (code.body kern.args).InBounds (argBytes size kern) (argPlace place kern)
      start.memory) :
    ∃ st, start.kernelLaunchFunc place code kernel clone objects = some st ∧
      ∀ a ∉ newCells place objects,
        st.memory a = (code.body kern.args).exec (argPlace place kern) start.memory a :=
  launched_of_ready (inv_of_run run) ready replaceable code inBounds

/-- One memory object is created. -/
theorem creates_single {s : KernelState} {object : MemObj} (notNull : object.handle ≠ NULL)
    (unused : s.clMemAlloc.find object.handle = none) : Creates s [object] 1 := by
  refine ⟨rfl, List.nodup_singleton _, fun object' mem => ?_⟩
  rw [List.mem_singleton.mp mem]
  exact ⟨notNull, unused⟩

theorem not_mem_newCells_single {object : MemObj} {h : Handle} {o : Nat}
    (other : h ≠ object.handle) : (h, o) ∉ newCells Prod.mk [object] := by
  rintro ⟨object', mem, o', -, same⟩
  rw [List.mem_singleton.mp mem] at same
  exact other (Prod.mk.inj same).1.symm

/-- A kernel that gets one buffer twice, and copies a byte of it when it does. -/
def sharedCode : KernelCode [.pointer, .pointer, .pointer] where
  body args :=
    if args 0 = args 2 then .load 2 0 fun byte => .store 0 1 byte (.store 1 0 byte .done)
    else .done
  blind args args' alike := by
    simp only [alike.aliased 0 2 .pointer .pointer rfl rfl rfl rfl]

/-- A buffer without canary, one with canaries, and a kernel that gets the first one twice. -/
def sharedCalls : List ArgCall :=
  [.createMem { handle := 11, size := 2 },
    .createMem { handle := 12, size := 1, hasCanary := true },
    .createKernel 3 [.pointer, .pointer, .pointer],
    .setArg 3 0 8 (some 11), .setArg 3 1 8 (some 12), .setArg 3 2 8 (some 11)]

/-- A clone of this kernel can be made. -/
theorem replaceable_shared : ∃ sys info args, Run.Reach step (fun _ _ => True) initial sys ∧
    Replaceable Prod.mk (fun h => if h = 12 then 1 else 2) (fun h => h ∈ [11, 12, 21]) sys 3 4
      [{ handle := 21, size := 2, hasCanary := true }] info ⟨[.pointer, .pointer, .pointer], args⟩ ∧
    args 0 = some (.memory SIZEOF_MEM (some 11)) ∧ args 1 = some (.memory SIZEOF_MEM (some 12)) ∧
    args 2 = some (.memory SIZEOF_MEM (some 11)) := by
  have run : Run.Reach step (fun _ _ => True) initial _ := Run.reach_of_foldlM sharedCalls rfl
  refine ⟨_, _, _, run, ⟨⟨⟨rfl, rfl, rfl, by decide⟩, by decide, ⟨by decide, rfl⟩,
    creates_single (by decide) rfl⟩, ?_, ⟨?_, ?_⟩, ?_⟩, rfl, rfl, rfl⟩
  · intro i h passes
    rcases i with _ | _ | _ | i
    · obtain rfl := Option.some.inj passes
      exact ⟨by decide, _, rfl⟩
    · obtain rfl := Option.some.inj passes
      exact ⟨by decide, _, rfl⟩
    · obtain rfl := Option.some.inj passes
      exact ⟨by decide, _, rfl⟩
    · contradiction
  · intro i pointer given
    rcases i with _ | _ | _ | i
    · exact absurd (Option.some.inj given) RuntimeArg.noConfusion
    · exact absurd (Option.some.inj given) RuntimeArg.noConfusion
    · exact absurd (Option.some.inj given) RuntimeArg.noConfusion
    · contradiction
  · intro i entry p m isEntry _ _ _
    rcases i with _ | _ | _ | i
    · exact ⟨.pointer, rfl, rfl⟩
    · exact ⟨.pointer, rfl, rfl⟩
    · exact ⟨.pointer, rfl, rfl⟩
    · contradiction
  · constructor
    · intro h h' _ _ o o' _ _ same
      exact Prod.mk.inj same
    · intro i m isOld noCanary
      rcases i with _ | _ | _ | i
      · obtain rfl := Option.some.inj isOld
        decide
      · obtain rfl := Option.some.inj isOld
        contradiction
      · obtain rfl := Option.some.inj isOld
        decide
      · contradiction
    · intro object mem
      rw [List.mem_singleton.mp mem]
      decide
    · intro i m object new isOld here
      rcases i with _ | _ | _ | i
      · obtain rfl := Option.some.inj isOld
        obtain rfl := Option.some.inj here
        rfl
      · contradiction
      · contradiction
      · contradiction

/-- The byte is in both buffers after the launch of a clone. -/
theorem kernelLaunchFunc_of_run_shared :
    ∃ sys memory st, Run.Reach step (fun _ _ => True) initial sys ∧
      (⟨sys, memory⟩ : LaunchState (Handle × Nat)).kernelLaunchFunc Prod.mk sharedCode 3 4
        [{ handle := 21, size := 2, hasCanary := true }] = some st ∧
      memory (11, 0) = 7 ∧ st.memory (11, 1) = 7 ∧ st.memory (12, 0) = 7 := by
  obtain ⟨sys, info, args, run, replaceable, first, second, third⟩ := replaceable_shared
  have passed : ∀ i h, i < 3 → args i = some (.memory SIZEOF_MEM (some h)) →
      passedObject ⟨[.pointer, .pointer, .pointer], args⟩ i = some h := by
    intro i h iLt given
    rw [passedObject]
    dsimp only
    rw [given]
    interval_cases i <;> rfl
  have body : sharedCode.body args =
      .load 2 0 fun byte => .store 0 1 byte (.store 1 0 byte .done) :=
    if_pos (first.trans third.symm)
  have buffer := passed 0 11 (by decide) first
  have canaried := passed 1 12 (by decide) second
  have again := passed 2 11 (by decide) third
  obtain ⟨st, launched, same⟩ := @kernelLaunchFunc_of_run (Handle × Nat) _ Prod.mk
    (fun h => if h = 12 then 1 else 2) [{ handle := 21, size := 2, hasCanary := true }] 3 4
    ⟨sys, fun a => if a = (11, 0) then 7 else 0⟩ info _ (fun h => h ∈ [11, 12, 21]) run
    replaceable.toReady (fun _ => replaceable) sharedCode (by
      rw [body]
      simp [Program.InBounds, argBytes, buffer, canaried, again])
  refine ⟨sys, _, st, run, launched, rfl, ?_, ?_⟩
  · rw [same _ (not_mem_newCells_single (by decide)), body]
    simp [Program.exec, argPlace, buffer, canaried, again]
  · rw [same _ (not_mem_newCells_single (by decide)), body]
    simp [Program.exec, argPlace, buffer, canaried, again]

end LaunchState

end Clarmor
