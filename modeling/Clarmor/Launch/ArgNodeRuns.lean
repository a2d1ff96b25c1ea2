import Clarmor.Launch.ArgNodeCalls
import Clarmor.Launch.ClonedDescriptions

/-!
# Runs on the nodes of the argument lists

The descriptions of the kernels, and the heap with their lists, through the same calls.
The lists are those of the descriptions, nothing is read or freed that is not
allocated, and what no list has any more was left by `delPoisonKernel`.
-/

namespace Clarmor

open Word

open LinkedList (addresses)

namespace KernelState

variable {s : KernelState} {kernel k : Handle} {i j : Nat}

theorem kinfoFind_of_unlisted (unlisted : s.kernList.find k = none) : s.kinfoFind k = none := by
  rw [kinfoFind, unlisted, Option.bind_none]

theorem kinfoFind_enterArg (coherent : s.Coherent) (entry : ArgEntry) :
    (s.enterArg kernel i entry).kinfoFind k = if k = kernel then
      some (((s.kinfoFind k).getD ⟨kernel, OrderedMap.empty, 1⟩).setArg i entry)
      else s.kinfoFind k := by
  cases listed : s.kernList.find kernel with
  | some p =>
      obtain ⟨info, found, -⟩ := coherent.listed kernel p listed
      rw [enterArg_of_listed listed, kinfoFind_modify coherent]
      split_ifs with here
      · rw [here, kinfoFind_eq_some listed found]
        rfl
      · rfl
  | none =>
      have coherent' := @kinfoInsert_coherent s ⟨kernel, OrderedMap.empty, 1⟩ coherent listed
      have listed' : (s.kinfoInsert ⟨kernel, OrderedMap.empty, 1⟩).kernList.find kernel =
          some s.nextAddress := Table.find_insert_fresh listed
      rw [enterArg_of_unlisted listed, enterArg_of_listed listed', kinfoFind_modify coherent',
        kinfoFind_insert coherent listed]
      split_ifs with here
      · rw [here, kinfoFind_of_unlisted listed]
        rfl
      · rfl

theorem kinfoFind_clRetainKernel (coherent : s.Coherent) :
    (s.clRetainKernel kernel).kinfoFind k = if k = kernel then
      some ((s.kinfoFind k).elim ⟨kernel, OrderedMap.empty, 2⟩ fun info =>
        { info with refCount := u32 (info.refCount + 1) })
      else s.kinfoFind k := by
  rw [clRetainKernel]
  cases listed : s.kernList.find kernel with
  | some p =>
      obtain ⟨info, found, -⟩ := coherent.listed kernel p listed
      dsimp only
      rw [kinfoFind_modify coherent]
      split_ifs with here
      · rw [here, kinfoFind_eq_some listed found]
        rfl
      · rfl
  | none =>
      dsimp only
      rw [kinfoFind_insert coherent listed]
      split_ifs with here
      · rw [here, kinfoFind_of_unlisted listed]
        rfl
      · rfl

theorem kinfoFind_clReleaseKernel (coherent : s.Coherent) :
    (s.clReleaseKernel kernel).kinfoFind k = if k = kernel then
      (s.kinfoFind k).bind fun info => if sub32 info.refCount 1 = 0 then none
        else some { info with refCount := sub32 info.refCount 1 }
      else s.kinfoFind k := by
  rw [clReleaseKernel]
  cases listed : s.kernList.find kernel with
  | none =>
      dsimp only
      split_ifs with here
      · rw [here, kinfoFind_of_unlisted listed, Option.bind_none]
      · rfl
  | some p =>
      obtain ⟨info, found, -⟩ := coherent.listed kernel p listed
      dsimp only
      rw [found]
      dsimp only
      split_ifs with last here here
      · rw [kinfoFind_remove coherent listed, if_pos here, here, kinfoFind_eq_some listed found,
          Option.bind_some, if_pos last]
      · rw [kinfoFind_remove coherent listed, if_neg here]
      · rw [kinfoFind_modify coherent, if_pos here, here, kinfoFind_eq_some listed found,
          Option.bind_some, if_neg last, Option.map_some]
      · rw [kinfoFind_modify coherent, if_neg here]

theorem kinfoFind_clRetainMemObject (memobj : Handle) :
    (s.clRetainMemObject memobj).kinfoFind k = s.kinfoFind k := by
  rw [clRetainMemObject]
  cases s.clMemAlloc.find memobj <;> rfl

theorem kinfoFind_clReleaseMemObject (memobj : Handle) :
    (s.clReleaseMemObject memobj).kinfoFind k = s.kinfoFind k := by
  rw [clReleaseMemObject]
  cases s.clMemAlloc.find memobj with
  | none => rfl
  | some p =>
      dsimp only
      cases s.memobjs.find p with
      | none => rfl
      | some m =>
          dsimp only
          split_ifs <;> rfl

theorem kinfoFind_clSVMFree (svmPointer : Nat) :
    (s.clSVMFree svmPointer).kinfoFind k = s.kinfoFind k := by
  rw [clSVMFree]
  cases s.clSvmMemAlloc.find svmPointer <;> rfl

theorem kinfoFind_releaseInternal (m1 : Option Address) :
    (s.releaseInternal m1).kinfoFind k = s.kinfoFind k := by
  rw [releaseInternal]
  cases s.internalObject m1 with
  | none => rfl
  | some object => exact kinfoFind_clReleaseMemObject object.handle

theorem releaseInternal_coherent (coherent : s.Coherent) (m1 : Option Address) :
    (s.releaseInternal m1).Coherent := by
  rw [releaseInternal]
  cases s.internalObject m1 with
  | none => exact coherent
  | some object => exact (clReleaseMemObject_spec coherent object.handle).1

theorem kinfoFind_delPoisonArg (coherent : s.Coherent) (dupe : List Nat) :
    (s.delPoisonArg kernel dupe i).kinfoFind k = if dupe[i]? = some i ∧ k = kernel then
      (s.kinfoFind k).map fun info => { info with argList := info.argList.remove i }
      else s.kinfoFind k := by
  rw [delPoisonArg]
  by_cases turn : dupe[i]? = some i
  · have removed : (s.kargRemove kernel i).kinfoFind k = if k = kernel then
        (s.kinfoFind k).map fun info => { info with argList := info.argList.remove i }
        else s.kinfoFind k := by
      rw [kargRemove, kinfoFind_modify coherent]
    simp only [turn, true_and, ← removed]
    exact kinfoFind_releaseInternal _
  · rw [if_neg turn, if_neg fun both => turn both.1]

theorem delPoisonArg_coherent (coherent : s.Coherent) (dupe : List Nat) :
    (s.delPoisonArg kernel dupe i).Coherent := by
  rw [delPoisonArg]
  split_ifs
  · have removed : (s.kargRemove kernel i).Coherent := kinfoModify_coherent coherent fun _ => rfl
    exact releaseInternal_coherent removed _
  · exact coherent

theorem clRetainKernel_coherent (coherent : s.Coherent) : (s.clRetainKernel kernel).Coherent := by
  rw [clRetainKernel]
  cases listed : s.kernList.find kernel with
  | none => exact kinfoInsert_coherent coherent listed
  | some p => exact kinfoModify_coherent coherent fun _ => rfl

theorem clReleaseKernel_coherent (coherent : s.Coherent) :
    (s.clReleaseKernel kernel).Coherent := by
  rw [clReleaseKernel]
  cases listed : s.kernList.find kernel with
  | none => exact coherent
  | some p =>
      dsimp only
      cases s.kernInfos.find p with
      | none => exact coherent
      | some info =>
          dsimp only
          split_ifs
          · exact kinfoRemove_coherent coherent listed
          · exact kinfoModify_coherent coherent fun _ => rfl

end KernelState

namespace ArgHeap

variable {h h' h'' : ArgHeap} {lists : Handle → List (Address × ArgNode)}
  {loose loose' : Set Address} {p q : Address} {item : ArgNode} {k : Handle}

/-! ## The descriptions -/

/-- The lists of the heap are those of the descriptions. -/
structure Represents (h : ArgHeap) (lists : Handle → List (Address × ArgNode)) (s : KernelState) :
    Prop where
  refCount : ∀ k, (h.kinfoFind k).map KernelNode.refCount =
    (s.kinfoFind k).map KernelInfo.refCount
  args : ∀ k j entry, (s.argsOf k).find j = some entry ↔
    ∃ e ∈ lists k, key e = j ∧ h.entryOf e.2 = entry

variable {s : KernelState} {lists' : Handle → List (Address × ArgNode)}

theorem Represents.sets {kernel : Handle} {i : Nat} {entry : ArgEntry}
    (represents : Represents h lists s) (coherent : s.Coherent)
    (sets : Sets h h' lists lists' loose kernel i entry) :
    Represents h' lists' (s.enterArg kernel i entry) := by
  have entered := KernelState.enterArg_spec coherent kernel i entry
  constructor
  · intro k
    rw [sets.refCount, represents.refCount, KernelState.kinfoFind_enterArg coherent]
    split_ifs
    · cases s.kinfoFind k <;> rfl
    · rfl
  · intro k j entry'
    rw [sets.entries, ← represents.args]
    by_cases here : k = kernel
    · subst here
      rw [KernelState.find_argsOf_enterArg coherent]
      simp only [true_and]
      split_ifs
      · rw [Option.some.injEq, eq_comm]
      · rfl
    · rw [if_neg fun both => here both.1, KernelState.argsOf, entered.others k here,
        KernelState.argsOf]

/-- The lists and the counts stay where the descriptions of the kernels do. -/
theorem Represents.congr {s' : KernelState} (represents : Represents h lists s)
    (same : ∀ k, s'.kinfoFind k = s.kinfoFind k) : Represents h lists s' := by
  constructor
  · exact fun k => (represents.refCount k).trans (by rw [same])
  · intro k j entry
    rw [KernelState.argsOf, same]
    exact represents.args k j entry

/-- A kernel is known to the heap when it has a description. -/
theorem Represents.isListed (represents : Represents h lists s)
    (known : (s.kinfoFind k).isSome) : ∃ q, h.kernList.find k = some q := by
  cases isListed : h.kernList.find k with
  | some q => exact ⟨q, rfl⟩
  | none =>
      have counts := represents.refCount k
      rw [kinfoFind, isListed, Option.bind_none, Option.map_none] at counts
      rw [Option.map_eq_none_iff.mp counts.symm] at known
      contradiction

theorem clRetainKernel_spec (layout : Layout h lists loose) (represents : Represents h lists s)
    (coherent : s.Coherent) (kernel : Handle) : ∃ h', h.clRetainKernel kernel = some h' ∧
      Layout h' lists loose ∧ Represents h' lists (s.clRetainKernel kernel) := by
  have counts := represents.refCount kernel
  rw [clRetainKernel]
  cases isListed : h.kernList.find kernel with
  | none =>
      obtain ⟨layout', -, isInfo, others⟩ := kinfoInsert_spec layout isListed 2
      rw [kinfoFind, isListed, Option.bind_none, Option.map_none] at counts
      have unknown := Option.map_eq_none_iff.mp counts.symm
      refine ⟨_, rfl, layout', fun k => ?_, fun k j entry => ?_⟩
      · rw [KernelState.kinfoFind_clRetainKernel coherent]
        split_ifs with here
        · rw [here, isInfo, unknown]
          rfl
        · rw [others k here, represents.refCount]
      · have kept : ((s.clRetainKernel kernel).argsOf k).find j = (s.argsOf k).find j := by
          rw [KernelState.argsOf, KernelState.kinfoFind_clRetainKernel coherent,
            KernelState.argsOf]
          split_ifs with here
          · rw [here, unknown]
            rfl
          · rfl
        rw [kept]
        exact represents.args k j entry
  | some q =>
      obtain ⟨info, isInfo, -⟩ := layout.links.listed kernel q isListed
      obtain ⟨layout', isCount⟩ := setCount_spec layout isListed fun n => u32 (n + 1)
      refine ⟨h.setCount q fun n => u32 (n + 1), ?_, layout', fun k => ?_, fun k j entry => ?_⟩
      · dsimp only
        rw [isInfo, Option.map_some]
        rfl
      · rw [isCount, KernelState.kinfoFind_clRetainKernel coherent]
        split_ifs with here
        · rw [here]
          rw [kinfoFind, isListed, Option.bind_some, isInfo] at counts ⊢
          obtain ⟨info', found, same⟩ := Option.map_eq_some_iff.mp counts.symm
          rw [found]
          simp [same]
        · exact represents.refCount k
      · have kept : ((s.clRetainKernel kernel).argsOf k).find j = (s.argsOf k).find j := by
          rw [KernelState.argsOf, KernelState.kinfoFind_clRetainKernel coherent,
            KernelState.argsOf]
          split_ifs with here
          · rw [here]
            cases s.kinfoFind kernel <;> rfl
          · rfl
        rw [kept]
        exact represents.args k j entry

theorem clReleaseKernel_spec (layout : Layout h lists loose) (represents : Represents h lists s)
    (coherent : s.Coherent) (kernel : Handle) : ∃ h' lists',
      h.clReleaseKernel kernel = some h' ∧ Layout h' lists' loose ∧
        Represents h' lists' (s.clReleaseKernel kernel) := by
  have counts := represents.refCount kernel
  have others : ∀ k j, k ≠ kernel →
      ((s.clReleaseKernel kernel).argsOf k).find j = (s.argsOf k).find j := by
    intro k j other
    rw [KernelState.argsOf, KernelState.kinfoFind_clReleaseKernel coherent, if_neg other,
      KernelState.argsOf]
  rw [clReleaseKernel]
  cases isListed : h.kernList.find kernel with
  | none =>
      rw [kinfoFind, isListed, Option.bind_none, Option.map_none] at counts
      have unknown := Option.map_eq_none_iff.mp counts.symm
      refine ⟨h, lists, rfl, layout, represents.congr fun k => ?_⟩
      rw [KernelState.kinfoFind_clReleaseKernel coherent]
      split_ifs with here
      · rw [here, unknown, Option.bind_none]
      · rfl
  | some q =>
      obtain ⟨info, isInfo, -⟩ := layout.links.listed kernel q isListed
      rw [kinfoFind, isListed, Option.bind_some, isInfo] at counts
      obtain ⟨info', found, same⟩ := Option.map_eq_some_iff.mp counts.symm
      dsimp only
      rw [isInfo, Option.bind_some]
      by_cases last : sub32 info.refCount 1 = 0
      · rw [if_pos last]
        obtain ⟨h', ran, layout', isKernel, kept⟩ := kinfoDelete_spec layout isListed
        have gone : (s.clReleaseKernel kernel).kinfoFind kernel = none := by
          rw [KernelState.kinfoFind_clReleaseKernel coherent, if_pos rfl, found, Option.bind_some,
            if_pos (by rw [same]; exact last)]
        refine ⟨h', _, ran, layout', fun k => ?_, fun k j entry => ?_⟩
        · rw [isKernel]
          split_ifs with here
          · rw [here, gone]
            rfl
          · rw [represents.refCount, KernelState.kinfoFind_clReleaseKernel coherent, if_neg here]
        · by_cases here : k = kernel
          · rw [here, Function.update_self, KernelState.argsOf, gone]
            refine iff_of_false (Option.some_ne_none entry).symm ?_
            rintro ⟨e, mem, -⟩
            exact List.not_mem_nil mem
          · rw [others k j here, represents.args, Function.update_of_ne here]
            refine exists_congr fun e => and_congr_right fun mem => ?_
            rw [kept k here e mem]
      · rw [if_neg last]
        obtain ⟨layout', isCount⟩ := setCount_spec layout isListed fun n => sub32 n 1
        refine ⟨h.setCount q fun n => sub32 n 1, lists, rfl, layout', fun k => ?_,
          fun k j entry => ?_⟩
        · rw [isCount, KernelState.kinfoFind_clReleaseKernel coherent]
          split_ifs with here
          · rw [here, found, Option.bind_some, same, if_neg last, kinfoFind, isListed,
              Option.bind_some, isInfo, Option.map_some, Option.map_some]
          · exact represents.refCount k
        · have stays : ((s.clReleaseKernel kernel).argsOf k).find j = (s.argsOf k).find j := by
            by_cases here : k = kernel
            · rw [here, KernelState.argsOf, KernelState.kinfoFind_clReleaseKernel coherent,
                if_pos rfl, found, Option.bind_some, same, if_neg last, KernelState.argsOf, found,
                Option.elim_some, Option.elim_some]
            · exact others k j here
          rw [stays]
          exact represents.args k j entry

/-- The argument of a kernel that `karg_find` leads to. -/
def argOf (h : ArgHeap) (kernel : Handle) (i : Nat) : Option (Option ArgEntry) :=
  match h.kernList.find kernel with
  | none => some none
  | some info =>
      (h.kargFind info i).bind fun found =>
      match found with
      | none => some none
      | some p => (h.itemAt p).map fun item => some (h.entryOf item)

/-- A search for an index in the list of a kernel leads to this argument. -/
def Holds (h : ArgHeap) (place : Handle × Nat) (p : Address) : Prop :=
  ∃ info, h.kernList.find place.1 = some info ∧ h.kargFind info place.2 = some (some p)

theorem holds_iff (layout : Layout h lists loose) {place : Handle × Nat} :
    h.Holds place p ↔ ∃ item, (p, item) ∈ lists place.1 ∧ item.handle = place.2 := by
  obtain ⟨k, i⟩ := place
  constructor
  · rintro ⟨q, isListed, found⟩
    rw [kargFind_spec layout isListed, Option.some.injEq] at found
    obtain ⟨e, isFound, rfl⟩ := Option.map_eq_some_iff.mp found
    have isIndex : key e = i := by simpa using List.find?_some isFound
    exact ⟨e.2, List.mem_of_find?_eq_some isFound, isIndex⟩
  · rintro ⟨item, mem, rfl⟩
    cases isListed : h.kernList.find k with
    | none =>
        rw [layout.links.unlisted k isListed] at mem
        exact absurd mem List.not_mem_nil
    | some q =>
        refine ⟨q, isListed, ?_⟩
        rw [kargFind_spec layout isListed, Option.some.injEq]
        cases found : (lists k).find? fun e => key e = item.handle with
        | none =>
            have absent := List.find?_eq_none.mp found (p, item) mem
            simp [key] at absent
        | some e =>
            have same : key e = item.handle := by simpa using List.find?_some found
            rw [(layout.links.increasing k).key_injective (List.mem_of_find?_eq_some found) mem
              same]
            rfl

/-- An argument has one place: in the list of one kernel, under one index. -/
theorem Holds.unique (layout : Layout h lists loose) {place place' : Handle × Nat}
    (holds : h.Holds place p) (holds' : h.Holds place' p) : place = place' := by
  obtain ⟨item, mem, isIndex⟩ := (holds_iff layout).mp holds
  obtain ⟨item', mem', isIndex'⟩ := (holds_iff layout).mp holds'
  obtain rfl : item = item' :=
    Option.some.inj ((layout.itemAt mem).symm.trans (layout.itemAt mem'))
  refine Prod.ext ?_ (isIndex.symm.trans isIndex')
  exact layout.links.apart _ _ p (List.mem_map_of_mem mem) (List.mem_map_of_mem mem')

theorem existsUnique_holds_iff (layout : Layout h lists loose) :
    (∃! place, h.Holds place p) ↔ ∃ k, p ∈ addresses (lists k) := by
  constructor
  · rintro ⟨place, holds, -⟩
    obtain ⟨item, mem, -⟩ := (holds_iff layout).mp holds
    exact ⟨place.1, List.mem_map_of_mem mem⟩
  · rintro ⟨k, mem⟩
    obtain ⟨item, mem⟩ := LinkedList.mem_addresses.mp mem
    have holds : h.Holds (k, item.handle) p := (holds_iff layout).mpr ⟨item, mem, rfl⟩
    exact ⟨_, holds, fun place holds' => holds'.unique layout holds⟩

/-- What `karg_find` leads to is the description. -/
theorem argOf_eq (layout : Layout h lists loose) (represents : Represents h lists s)
    (kernel : Handle) (i : Nat) : h.argOf kernel i = some ((s.argsOf kernel).find i) := by
  have isArg := represents.args kernel i
  rw [argOf]
  cases isListed : h.kernList.find kernel with
  | none =>
      rw [layout.links.unlisted kernel isListed] at isArg
      cases found : (s.argsOf kernel).find i with
      | none => rfl
      | some entry =>
          obtain ⟨e, mem, -⟩ := (isArg entry).mp found
          exact absurd mem List.not_mem_nil
  | some q =>
      dsimp only
      rw [kargFind_spec layout isListed, Option.bind_some]
      cases search : (lists kernel).find? fun e => key e = i with
      | none =>
          cases found : (s.argsOf kernel).find i with
          | none => rfl
          | some entry =>
              obtain ⟨e, mem, isKey, -⟩ := (isArg entry).mp found
              have absent := List.find?_eq_none.mp search e mem
              simp [isKey] at absent
      | some e =>
          have mem := List.mem_of_find?_eq_some search
          have isKey : key e = i := by simpa using List.find?_some search
          rw [(isArg _).mpr ⟨e, mem, isKey, rfl⟩, Option.map_some]
          dsimp only
          rw [layout.itemAt mem, Option.map_some]

end ArgHeap

/-! ## Runs -/

/-- The descriptions, the heap, and the arguments that no list has any more. -/
structure ArgNodeSystem where
  s : KernelState
  h : ArgHeap
  lost : List Address

/-- The calls that make and drop descriptions, and the turns of `delPoisonKernel`. -/
inductive ArgNodeCall where
  | createMem (item : MemObj)
  | retainMem (memobj : Handle)
  | releaseMem (memobj : Handle)
  | createSvm (item : SvmObj)
  | freeSvm (svmPointer : Nat)
  | setArg (kernel : Handle) (argIndex argSize : Nat) (argValue : Option Nat)
  | setSvmArg (kernel : Handle) (argIndex argValue : Nat)
  | retainKernel (kernel : Handle)
  | releaseKernel (kernel : Handle)
  | delPoisonArg (delKern : Handle) (dupe : List Nat) (i : Nat)

namespace ArgNodeSystem

open ArgHeap

/-- The start of a process. -/
def initial : ArgNodeSystem := ⟨KernelState.initial, ArgHeap.initial, []⟩

/-- One call.  There is no result when it reads or frees what is not allocated. -/
def step (st : ArgNodeSystem) : ArgNodeCall → Option ArgNodeSystem
  | .createMem item => some { st with s := st.s.clMemInsert item }
  | .retainMem memobj => some { st with s := st.s.clRetainMemObject memobj }
  | .releaseMem memobj => some { st with s := st.s.clReleaseMemObject memobj }
  | .createSvm item => some { st with s := st.s.clSvmMemInsert item }
  | .freeSvm svmPointer => some { st with s := st.s.clSVMFree svmPointer }
  | .setArg kernel argIndex argSize argValue =>
      (st.h.clSetKernelArg kernel argIndex argSize argValue
        (st.s.memArg argSize argValue).buffer).map fun h =>
          { st with s := st.s.clSetKernelArg kernel argIndex argSize argValue, h := h }
  | .setSvmArg kernel argIndex argValue =>
      (st.h.clSetKernelArgSVMPointer kernel argIndex argValue
        (st.s.clSvmMemFind argValue)).map fun h =>
          { st with s := st.s.clSetKernelArgSVMPointer kernel argIndex argValue, h := h }
  | .retainKernel kernel =>
      (st.h.clRetainKernel kernel).map fun h =>
        { st with s := st.s.clRetainKernel kernel, h := h }
  | .releaseKernel kernel =>
      (st.h.clReleaseKernel kernel).map fun h =>
        { st with s := st.s.clReleaseKernel kernel, h := h }
  | .delPoisonArg delKern dupe i =>
      (st.h.delPoisonArg delKern dupe i).map fun r =>
        ⟨st.s.delPoisonArg delKern dupe i, r.2, r.1 ++ st.lost⟩

/-- A new object has a handle of its own, and a clone that is cleaned up is known. -/
def Legal (st : ArgNodeSystem) : ArgNodeCall → Prop
  | .createMem item => st.s.clMemAlloc.find item.handle = none
  | .createSvm item => st.s.clSvmMemAlloc.find item.handle = none
  | .delPoisonArg delKern dupe i => dupe[i]? = some i → (st.s.kinfoFind delKern).isSome
  | _ => True

/-- The call unlinks an argument without memory object, and does not delete it. -/
def Loses (st : ArgNodeSystem) : ArgNodeCall → Prop
  | .delPoisonArg delKern dupe i => dupe[i]? = some i ∧
      ∃ entry, (st.s.argsOf delKern).find i = some entry ∧ entry.buffer = none
  | _ => False

/-- The heap has what the descriptions say, and no argument was lost twice. -/
structure Inv (st : ArgNodeSystem) : Prop where
  coherent : st.s.Coherent
  lostOnce : st.lost.Nodup
  shape : ∃ lists, Layout st.h lists {p | p ∈ st.lost} ∧ Represents st.h lists st.s

/-- What a maintainer sees of it: the searches, the counts, and who has what is allocated.
Whatever is allocated has one owner; an argument that was lost has none. -/
structure Sound (st : ArgNodeSystem) : Prop where
  found : ∀ kernel i, st.h.argOf kernel i = some ((st.s.argsOf kernel).find i)
  counted : ∀ kernel, (st.h.kinfoFind kernel).map KernelNode.refCount =
    (st.s.kinfoFind kernel).map KernelInfo.refCount
  args : ∀ p, (st.h.args.find p).isSome ↔ (∃! place, st.h.Holds place p) ∨ p ∈ st.lost
  lost : ∀ p ∈ st.lost, ∀ place, ¬ st.h.Holds place p
  lostOnce : st.lost.Nodup
  values : ∀ v, (st.h.values.find v).isSome ↔ ∃! p, st.h.valueAt p = some v
  kernels : ∀ q, (st.h.kernInfos.find q).isSome ↔ ∃! k, st.h.kernList.find k = some q

variable {st st' : ArgNodeSystem} {call : ArgNodeCall}

theorem Inv.sound (inv : Inv st) : Sound st := by
  obtain ⟨-, lostOnce, lists, layout, represents⟩ := inv
  constructor
  case lostOnce => exact lostOnce
  case found => exact argOf_eq layout represents
  case counted => exact represents.refCount
  case args =>
    intro p
    rw [layout.links.live, existsUnique_holds_iff layout, or_comm]
    rfl
  case lost =>
    intro p mem place holds
    obtain ⟨item, mem', -⟩ := (holds_iff layout).mp holds
    exact layout.links.free place.1 p mem (List.mem_map_of_mem mem')
  case values =>
    intro v
    constructor
    · intro isSome
      obtain ⟨p, isValue⟩ := layout.values.owner v isSome
      exact ⟨p, isValue, fun p' isValue' => layout.values.single p' p v isValue' isValue⟩
    · rintro ⟨p, isValue, -⟩
      exact layout.values.owned p v isValue
  case kernels =>
    intro q
    constructor
    · intro isSome
      obtain ⟨info, found⟩ := Option.isSome_iff_exists.mp isSome
      have isListed := layout.links.entered q info found
      exact ⟨_, isListed, fun k isListed' => layout.handle_unique isListed' isListed⟩
    · rintro ⟨k, isListed, -⟩
      obtain ⟨info, found, -⟩ := layout.links.listed k q isListed
      rw [found]
      rfl

theorem inv_initial : Inv initial := by
  refine ⟨KernelState.coherent_initial, List.nodup_nil, fun _ => [], ?_, ?_⟩
  · constructor
    · constructor
      case listed => intros; contradiction
      case unlisted => exact fun _ _ => rfl
      case entered => intros; contradiction
      case increasing => exact fun _ => List.Pairwise.nil
      case apart => exact fun _ _ _ mem => absurd mem List.not_mem_nil
      case free => exact fun _ _ mem => absurd mem List.not_mem_nil
      case live =>
        intro p
        refine iff_of_false Bool.false_ne_true ?_
        rintro (mem | ⟨k, mem⟩)
        · exact List.not_mem_nil mem
        · exact List.not_mem_nil mem
    · constructor
      · intros; contradiction
      · intros; contradiction
      · intros; contradiction
    · exact ⟨fun _ _ => rfl, fun _ _ => rfl, fun _ _ => rfl⟩
  · refine ⟨fun _ => rfl, fun k j entry => ?_⟩
    refine iff_of_false (Option.some_ne_none entry).symm ?_
    rintro ⟨e, mem, -⟩
    exact List.not_mem_nil mem

/-- A call that leaves the kernels and the heap alone. -/
theorem Inv.memory {s' : KernelState} (inv : Inv st) (coherent : s'.Coherent)
    (same : ∀ k, s'.kinfoFind k = st.s.kinfoFind k) : Inv { st with s := s' } := by
  obtain ⟨-, lostOnce, lists, layout, represents⟩ := inv
  exact ⟨coherent, lostOnce, lists, layout, represents.congr same⟩

/-- A call that sets an argument. -/
theorem Inv.sets {kernel : Handle} {i : Nat} {entry : ArgEntry} {result : Option ArgHeap}
    (inv : Inv st) (sets : ∀ lists, Layout st.h lists {p | p ∈ st.lost} →
      ∃ h' lists', result = some h' ∧
        Sets st.h h' lists lists' {p | p ∈ st.lost} kernel i entry) :
    ∃ h', result = some h' ∧ Inv { st with s := st.s.enterArg kernel i entry, h := h' } := by
  obtain ⟨coherent, lostOnce, lists, layout, represents⟩ := inv
  obtain ⟨h', lists', isHeap, set⟩ := sets lists layout
  exact ⟨h', isHeap, (KernelState.enterArg_spec coherent kernel i entry).coherent, lostOnce,
    lists', set.layout, represents.sets coherent set⟩

theorem Inv.clRetainKernel (inv : Inv st) (kernel : Handle) :
    ∃ h', st.h.clRetainKernel kernel = some h' ∧
      Inv { st with s := st.s.clRetainKernel kernel, h := h' } := by
  obtain ⟨coherent, lostOnce, lists, layout, represents⟩ := inv
  obtain ⟨h', isHeap, layout', represents'⟩ := clRetainKernel_spec layout represents coherent kernel
  exact ⟨h', isHeap, KernelState.clRetainKernel_coherent coherent, lostOnce, lists, layout',
    represents'⟩

theorem Inv.clReleaseKernel (inv : Inv st) (kernel : Handle) :
    ∃ h', st.h.clReleaseKernel kernel = some h' ∧
      Inv { st with s := st.s.clReleaseKernel kernel, h := h' } := by
  obtain ⟨coherent, lostOnce, lists, layout, represents⟩ := inv
  obtain ⟨h', lists', isHeap, layout', represents'⟩ :=
    clReleaseKernel_spec layout represents coherent kernel
  exact ⟨h', isHeap, KernelState.clReleaseKernel_coherent coherent, lostOnce, lists', layout',
    represents'⟩

open Classical in
/-- One turn of `delPoisonKernel`, and how many arguments no list has any more after it. -/
theorem Inv.delPoisonArg {delKern : Handle} {dupe : List Nat} {i : Nat} (inv : Inv st)
    (legal : Legal st (.delPoisonArg delKern dupe i)) :
    ∃ lost h', st.h.delPoisonArg delKern dupe i = some (lost, h') ∧
      Inv ⟨st.s.delPoisonArg delKern dupe i, h', lost ++ st.lost⟩ ∧
      lost.length = if Loses st (.delPoisonArg delKern dupe i) then 1 else 0 := by
  obtain ⟨coherent, lostOnce, lists, layout, represents⟩ := inv
  have coherent' := @KernelState.delPoisonArg_coherent st.s delKern i coherent dupe
  have kernels : ∀ k, (st.s.delPoisonArg delKern dupe i).kinfoFind k = _ := fun k =>
    KernelState.kinfoFind_delPoisonArg coherent dupe
  by_cases turn : dupe[i]? = some i
  · obtain ⟨q, isListed⟩ := represents.isListed (legal turn)
    obtain ⟨lost, h', lists', ran, layout', counts, entries, ⟨once, new⟩, isLost⟩ :=
      delPoisonArg_spec layout isListed dupe i
    have once' : (lost ++ st.lost).Nodup :=
      List.nodup_append.mpr ⟨once, lostOnce, fun p mem p' mem' same => new p mem (same ▸ mem')⟩
    refine ⟨lost, h', ran, ⟨coherent', once', lists', ?_, fun k => ?_, fun k j entry => ?_⟩, ?_⟩
    · have same : {p | p ∈ lost ++ st.lost} = {p | p ∈ lost ∨ p ∈ st.lost} := by
        simp only [List.mem_append]
      rw [same]
      exact layout'
    · rw [counts, represents.refCount, kernels]
      split_ifs
      · cases st.s.kinfoFind k <;> rfl
      · rfl
    · rw [entries, ← represents.args, KernelState.argsOf, KernelState.argsOf, kernels]
      by_cases here : k = delKern
      · rw [if_pos ⟨turn, here⟩]
        cases st.s.kinfoFind k with
        | none =>
            refine iff_of_false (Option.some_ne_none entry).symm ?_
            rintro ⟨-, isArg⟩
            exact Option.some_ne_none entry isArg.symm
        | some info =>
            dsimp only [Option.map_some, Option.elim_some]
            rw [OrderedMap.find_remove]
            by_cases isIndex : j = i
            · rw [if_pos isIndex]
              exact iff_of_false (Option.some_ne_none entry).symm fun both =>
                both.1 ⟨turn, here, isIndex⟩
            · rw [if_neg isIndex, and_iff_right fun all => isIndex all.2.2]
      · rw [if_neg fun both => here both.2, and_iff_right fun all => here all.2.1]
    · rw [isLost]
      refine if_congr (and_congr_right fun _ => ?_) rfl rfl
      constructor
      · rintro ⟨e, mem, isIndex, noBuffer⟩
        exact ⟨st.h.entryOf e.2, (represents.args _ _ _).mpr ⟨e, mem, isIndex, rfl⟩, noBuffer⟩
      · rintro ⟨entry, isArg, noBuffer⟩
        obtain ⟨e, mem, isIndex, rfl⟩ := (represents.args _ _ _).mp isArg
        exact ⟨e, mem, isIndex, noBuffer⟩
  · have stays : st.h.delPoisonArg delKern dupe i = some ([], st.h) := if_neg turn
    refine ⟨[], st.h, stays, ⟨coherent', lostOnce, lists, layout,
      represents.congr fun k => ?_⟩, ?_⟩
    · rw [kernels, if_neg fun both => turn both.1]
    · rw [if_neg fun loses => turn loses.1, List.length_nil]

open Classical in
/-- Every call has a result, and one kind of them loses an argument. -/
theorem inv_step (inv : Inv st) (legal : Legal st call) : ∃ st', step st call = some st' ∧
    Inv st' ∧ st'.lost.length = st.lost.length + if Loses st call then 1 else 0 := by
  have coherent := inv.coherent
  have none_lost : ∀ {loses : Prop}, ¬ loses →
      st.lost.length = st.lost.length + if loses then 1 else 0 := by
    intro loses not
    rw [if_neg not, Nat.add_zero]
  cases call with
  | createMem item =>
      have created := (KernelState.clMemInsert_spec coherent legal).1
      exact ⟨_, rfl, inv.memory created fun _ => rfl, none_lost id⟩
  | retainMem memobj =>
      have retained := (KernelState.clRetainMemObject_spec coherent memobj).1
      exact ⟨_, rfl, inv.memory retained fun _ => KernelState.kinfoFind_clRetainMemObject memobj,
        none_lost id⟩
  | releaseMem memobj =>
      have released := (KernelState.clReleaseMemObject_spec coherent memobj).1
      exact ⟨_, rfl, inv.memory released fun _ => KernelState.kinfoFind_clReleaseMemObject memobj,
        none_lost id⟩
  | createSvm item =>
      have created := (KernelState.clSvmMemInsert_spec coherent legal).1
      exact ⟨_, rfl, inv.memory created fun _ => rfl, none_lost id⟩
  | freeSvm svmPointer =>
      have freed := (KernelState.clSVMFree_spec coherent svmPointer).1
      exact ⟨_, rfl, inv.memory freed fun _ => KernelState.kinfoFind_clSVMFree svmPointer,
        none_lost id⟩
  | setArg kernel argIndex argSize argValue =>
      obtain ⟨h', isHeap, inv'⟩ := inv.sets fun lists layout =>
        clSetKernelArg_spec layout kernel argIndex argSize argValue
          (st.s.memArg argSize argValue).buffer
      refine ⟨_, ?_, inv', none_lost id⟩
      rw [step, isHeap]
      rfl
  | setSvmArg kernel argIndex argValue =>
      obtain ⟨h', isHeap, inv'⟩ := inv.sets fun lists layout =>
        clSetKernelArgSVMPointer_spec layout kernel argIndex argValue (st.s.clSvmMemFind argValue)
      refine ⟨_, ?_, inv', none_lost id⟩
      rw [step, isHeap]
      rfl
  | retainKernel kernel =>
      obtain ⟨h', isHeap, inv'⟩ := inv.clRetainKernel kernel
      exact ⟨_, by rw [step, isHeap, Option.map_some], inv', none_lost id⟩
  | releaseKernel kernel =>
      obtain ⟨h', isHeap, inv'⟩ := inv.clReleaseKernel kernel
      exact ⟨_, by rw [step, isHeap, Option.map_some], inv', none_lost id⟩
  | delPoisonArg delKern dupe i =>
      obtain ⟨lost, h', isHeap, inv', count⟩ := inv.delPoisonArg legal
      refine ⟨_, by rw [step, isHeap, Option.map_some], inv', ?_⟩
      rw [List.length_append, count, Nat.add_comm]

theorem inv_of_run (run : Run.Reach step Legal initial st) : Inv st := by
  refine run.invariant inv_initial fun st call st'' inv legal ran => ?_
  obtain ⟨st', isStep, inv', -⟩ := inv_step inv legal
  rw [isStep, Option.some.injEq] at ran
  rw [← ran]
  exact inv'

open Classical in
/-- After every run the lists in the heap are the descriptions, every argument, block and
kernel that is allocated has one owner or was lost, and the next call reads and frees
only what is allocated; it loses an argument just when `delPoisonKernel` unlinks one that
has no memory object. -/
theorem sound_of_run (run : Run.Reach step Legal initial st) : Sound st ∧
    ∀ call, Legal st call → ∃ st', step st call = some st' ∧
      st'.lost.length = st.lost.length + if Loses st call then 1 else 0 := by
  refine ⟨(inv_of_run run).sound, fun call legal => ?_⟩
  obtain ⟨st', isStep, -, count⟩ := inv_step (inv_of_run run) legal
  exact ⟨st', isStep, count⟩

/-- The argument of a value that is set twice is lost. -/
theorem sound_of_run_lost : ∃ st, Sound st ∧
    (st.s.argsOf 7).find 0 = some ⟨4, some 6, none, none⟩ ∧
    ∃ st', step st (.delPoisonArg 7 [0] 0) = some st' ∧
      st'.lost.length = st.lost.length + 1 := by
  let twice := (step initial (.setArg 7 0 4 (some 5))).bind fun st =>
    step st (.setArg 7 0 4 (some 6))
  obtain ⟨st, isState⟩ := Option.isSome_iff_exists.mp (rfl : twice.isSome = true)
  have isArg : twice.map (fun st => (st.s.argsOf 7).find 0) =
      some (some ⟨4, some 6, none, none⟩) := rfl
  have isKernel : twice.map (fun st => (st.s.kinfoFind 7).isSome) = some true := rfl
  rw [isState, Option.map_some, Option.some.injEq] at isArg isKernel
  obtain ⟨st₁, first, second⟩ := Option.bind_eq_some_iff.mp isState
  have legal : ∀ st value, Legal st (.setArg 7 0 4 value) := fun _ _ => trivial
  have once : Run.Reach step Legal initial st₁ := .tail .refl (legal _ _) first
  obtain ⟨sound, next⟩ := sound_of_run (once.tail (legal _ _) second)
  obtain ⟨st', isStep, count⟩ := next (.delPoisonArg 7 [0] 0) fun _ => isKernel
  rw [if_pos ⟨rfl, ⟨4, some 6, none, none⟩, isArg, rfl⟩] at count
  exact ⟨st, sound, isArg, st', isStep, count⟩

end ArgNodeSystem

end Clarmor
