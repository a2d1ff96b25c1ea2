import Clarmor.Library.SortedList
import Clarmor.Launch.Arguments
import Clarmor.Wrapper.Kernels

/-!
# Lists of kernel arguments

The arguments of a kernel are a linked list that is sorted by the index.  Setting
an argument unlinks the description that is there and links a new one, so that
every index that was set has one description, of its last call.  The walks of
`findDuplicates` count positions; when all arguments are set these are the
indices.
-/

namespace Clarmor

/-- `karg_insert`. -/
def kargInsert (argList : List KernelArg) (item : KernelArg) : List KernelArg :=
  SortedList.insert KernelArg.handle item argList

/-- `karg_remove`. -/
def kargRemove (argList : List KernelArg) (handle : Nat) : Option KernelArg × List KernelArg :=
  SortedList.remove KernelArg.handle handle argList

/-- `karg_find`. -/
def kargFind (argList : List KernelArg) (handle : Nat) : Option KernelArg :=
  SortedList.find KernelArg.handle handle argList

/-- The end of `clSetKernelArg`: a description that was unlinked is used again. -/
def setArg (argList : List KernelArg) (memAlloc : Table Handle MemObj) (argIndex argSize : Nat)
    (argValue : Option Nat) : List KernelArg :=
  let (removed, argList) := kargRemove argList argIndex
  let argTemp := removed.getD ⟨argIndex, 0, none, none, none⟩
  let argTemp := { argTemp with
    size := argSize
    value := argValue
    buffer := none
    svmBuffer := none }
  let argTemp := if argSize = SIZEOF_MEM then
      { argTemp with buffer := argValue.bind memAlloc.find }
    else argTemp
  kargInsert argList argTemp

/-- The end of `clSetKernelArgSVMPointer`: the description is always a new one. -/
def setArgSvmPointer (argList : List KernelArg) (svmAlloc : OrderedMap Nat SvmObj)
    (argIndex argValue : Nat) : List KernelArg :=
  let (_, argList) := kargRemove argList argIndex
  kargInsert argList ⟨argIndex, 0, some argValue, none, clSvmMemFind svmAlloc argValue⟩

/-- A call that sets an argument of a kernel and that the runtime accepts, with
the memory objects and regions that are known at the time. -/
inductive SetArgCall where
  | setKernelArg (memAlloc : Table Handle MemObj) (argIndex argSize : Nat)
      (argValue : Option Nat)
  | setKernelArgSvmPointer (svmAlloc : OrderedMap Nat SvmObj) (argIndex argValue : Nat)

namespace SetArgCall

/-- The argument that a call sets. -/
def argIndex : SetArgCall → Nat
  | setKernelArg _ argIndex _ _ => argIndex
  | setKernelArgSvmPointer _ argIndex _ => argIndex

/-- The description of a call. -/
def description : SetArgCall → KernelArg
  | setKernelArg memAlloc argIndex argSize argValue =>
      ⟨argIndex, argSize, argValue,
        if argSize = SIZEOF_MEM then argValue.bind memAlloc.find else none, none⟩
  | setKernelArgSvmPointer svmAlloc argIndex argValue =>
      ⟨argIndex, 0, some argValue, none, clSvmMemFind svmAlloc argValue⟩

/-- What a call does to the argument list; a null pointer is refused. -/
def run (argList : List KernelArg) : SetArgCall → Option (List KernelArg)
  | setKernelArg memAlloc argIndex argSize argValue =>
      some (setArg argList memAlloc argIndex argSize argValue)
  | setKernelArgSvmPointer svmAlloc argIndex argValue =>
      if argValue = NULL then none
      else some (setArgSvmPointer argList svmAlloc argIndex argValue)

/-- The last call for an argument. -/
def last (calls : List SetArgCall) (index : Nat) : Option SetArgCall :=
  calls.reverse.find? fun call => call.argIndex = index

@[simp]
theorem description_handle (call : SetArgCall) : call.description.handle = call.argIndex := by
  cases call <;> rfl

theorem last_concat (calls : List SetArgCall) (call : SetArgCall) (index : Nat) :
    last (calls ++ [call]) index =
      if call.argIndex = index then some call else last calls index := by
  rw [last, List.reverse_append, List.reverse_singleton, List.singleton_append, List.find?_cons]
  by_cases here : call.argIndex = index <;> simp [here, last]

theorem last_argIndex {calls : List SetArgCall} {call : SetArgCall} {index : Nat}
    (isLast : last calls index = some call) : call.argIndex = index := by
  simpa using List.find?_some isLast

end SetArgCall

/-! ## Duplicates -/

/-- The inner loop of `findDuplicates`; there is no result when the list ends
before the count. -/
def findEarlier (handle : Handle) : (count j : Nat) → List KernelArg → Option (Option Nat)
  | 0, _, _ => some none
  | _ + 1, _, [] => none
  | count + 1, j, argItr2 :: next =>
      if argItr2.bufferHandle = some handle then some (some j)
      else findEarlier handle count (j + 1) next

/-- The entry that the outer loop of `findDuplicates` makes for argument `i`. -/
def dupeEntry (args : List KernelArg) (i : Nat) (argItr : KernelArg) : Option Nat :=
  match argItr.bufferHandle with
  | none => some i
  | some handle => (findEarlier handle i 0 args).map fun found : Option Nat => found.getD i

/-- The outer loop of `findDuplicates`, from argument `i`. -/
def findDuplicatesFrom (args : List KernelArg) : (count i : Nat) → List KernelArg →
    Option (List Nat)
  | 0, _, _ => some []
  | _ + 1, _, [] => none
  | count + 1, i, argItr :: next =>
      (dupeEntry args i argItr).bind fun dupe =>
        (findDuplicatesFrom args count (i + 1) next).map fun rest => dupe :: rest

/-- `findDuplicates` as it walks a linked list. -/
def walkDuplicates (nargs : Nat) (args : List KernelArg) : Option (List Nat) :=
  findDuplicatesFrom args nargs 0 args

/-- Every argument stands for itself, or for the first one with its object. -/
structure Canonical (nargs : Nat) (args : List KernelArg) (dupe : List Nat) : Prop where
  length : dupe.length = nargs
  le : ∀ i d : Nat, dupe[i]? = some d → d ≤ i
  idempotent : ∀ i d : Nat, dupe[i]? = some d → dupe[d]? = some d
  own : ∀ i d : Nat, dupe[i]? = some d → bufferAt args i = none → d = i
  same : ∀ (i j d e : Nat) (handle handle' : Handle), dupe[i]? = some d → dupe[j]? = some e →
    bufferAt args i = some handle → bufferAt args j = some handle' →
    (d = e ↔ handle = handle')

/-- The list of the arguments of a kernel after some calls. -/
structure ArgListKept (calls : List SetArgCall) (argList : List KernelArg) : Prop where
  increasing : argList.Pairwise fun a b => a.handle < b.handle
  once : ∀ index, argList.filter (fun a => a.handle = index) =
    ((SetArgCall.last calls index).map SetArgCall.description).toList
  found : ∀ index, kargFind argList index =
    (SetArgCall.last calls index).map SetArgCall.description
  all : ∀ n, (∀ i < n, (SetArgCall.last calls i).isSome) →
    (∀ i < n, argList[i]? = (SetArgCall.last calls i).map SetArgCall.description) ∧
      ∃ dupe, walkDuplicates n argList = some dupe ∧ Canonical n argList dupe

variable {args argList argList' : List KernelArg} {calls : List SetArgCall} {call : SetArgCall}

theorem findEarlier_eq {handle : Handle} (count j : Nat) (rest : List KernelArg)
    (enough : count ≤ rest.length) :
    findEarlier handle count j rest = some (((List.range count).find? fun k =>
      bufferAt rest k = some handle).map (j + ·)) := by
  induction count generalizing j rest with
  | zero => rfl
  | succ count ih =>
      cases rest with
      | nil => simp at enough
      | cons argItr2 next =>
          have shifted : ∀ k, bufferAt (argItr2 :: next) (k + 1) = bufferAt next k := fun _ => rfl
          have first : bufferAt (argItr2 :: next) 0 = argItr2.bufferHandle := rfl
          rw [findEarlier, List.range_succ_eq_map, List.find?_cons, List.find?_map, first]
          by_cases same : argItr2.bufferHandle = some handle
          · simp [same]
          · rw [if_neg same, ih (j + 1) next (by simpa using enough)]
            simp only [same, decide_false, Option.map_map]
            simp only [Function.comp_def, shifted]
            congr 2
            funext k
            omega

theorem findDuplicatesFrom_eq (count i : Nat) (rest : List KernelArg)
    (suffix : rest = args.drop i) (enough : i + count ≤ args.length) :
    findDuplicatesFrom args count i rest =
      some ((List.range' i count).map (firstUse args)) := by
  induction count generalizing i rest with
  | zero => rfl
  | succ count ih =>
      have iLt : i < args.length := by omega
      rw [List.drop_eq_getElem_cons iLt] at suffix
      subst suffix
      have here : bufferAt args i = args[i].bufferHandle := by
        rw [bufferAt, List.getElem?_eq_getElem iLt]
        rfl
      have entry : dupeEntry args i args[i] = some (firstUse args i) := by
        rw [dupeEntry, firstUse, here]
        cases args[i].bufferHandle with
        | none => rfl
        | some handle =>
            dsimp only
            rw [findEarlier_eq i 0 args iLt.le]
            simp
      rw [findDuplicatesFrom, entry, ih (i + 1) _ rfl (by omega), List.range'_succ]
      rfl

/-- The walk finds the first uses. -/
theorem walkDuplicates_eq {n : Nat} (enough : n ≤ args.length) :
    walkDuplicates n args = some ((List.range n).map (firstUse args)) := by
  rw [walkDuplicates, findDuplicatesFrom_eq n 0 args rfl (by omega), List.range_eq_range']

/-- On a list of all arguments the walk gives the list of duplicates. -/
theorem walkDuplicates_length (args : List KernelArg) :
    walkDuplicates args.length args = some (findDuplicates args) :=
  walkDuplicates_eq (le_refl _)

/-- First uses are canonical. -/
theorem canonical_firstUse {n : Nat} :
    Canonical n args ((List.range n).map (firstUse args)) := by
  have entry : ∀ {i d : Nat}, ((List.range n).map (firstUse args))[i]? = some d →
      i < n ∧ d = firstUse args i := by
    intro i d isEntry
    rw [List.getElem?_map, Option.map_eq_some_iff] at isEntry
    obtain ⟨k, at', rfl⟩ := isEntry
    obtain ⟨iLt, rfl⟩ := List.getElem?_eq_some_iff.mp at'
    simp only [List.length_range] at iLt
    exact ⟨iLt, by simp⟩
  constructor
  case length => simp
  case le =>
    intro i d isEntry
    rw [(entry isEntry).2]
    exact firstUse_le args i
  case idempotent =>
    intro i d isEntry
    obtain ⟨iLt, rfl⟩ := entry isEntry
    have dLt : firstUse args i < n := (firstUse_le args i).trans_lt iLt
    rw [List.getElem?_map, List.getElem?_range dLt, Option.map_some, firstUse_firstUse]
  case own =>
    intro i d isEntry passes
    rw [(entry isEntry).2, firstUse_of_none passes]
  case same =>
    intro i j d e handle handle' isEntry isEntry' passes passes'
    rw [(entry isEntry).2, (entry isEntry').2, firstUse_eq_iff, passes, passes']
    constructor
    · rintro (rfl | ⟨h, same, same'⟩)
      · rw [passes] at passes'
        exact Option.some.inj passes'
      · exact (Option.some.inj same).trans (Option.some.inj same').symm
    · rintro rfl
      exact Or.inr ⟨handle, rfl, rfl⟩

/-! ## Setting arguments -/

theorem kargRemove_handle {handle : Nat} {a : KernelArg}
    (removed : (kargRemove argList handle).1 = some a) : a.handle = handle := by
  induction argList with
  | nil => simp [kargRemove, SortedList.remove] at removed
  | cons lp next ih =>
      rw [kargRemove, SortedList.remove] at removed
      split at removed
      case isTrue same => rw [← Option.some.inj removed, same]
      case isFalse =>
        split at removed
        · simp at removed
        · exact ih removed

/-- The call unlinks the description of its argument and links its own. -/
theorem SetArgCall.run_eq (ran : call.run argList = some argList') :
    argList' = kargInsert (kargRemove argList call.argIndex).2 call.description := by
  cases call with
  | setKernelArg memAlloc argIndex argSize argValue =>
      obtain rfl := Option.some.inj ran
      have handle : ((kargRemove argList argIndex).1.getD
          ⟨argIndex, 0, none, none, none⟩).handle = argIndex := by
        cases removed : (kargRemove argList argIndex).1 with
        | none => rfl
        | some a => exact kargRemove_handle removed
      rw [setArg, SetArgCall.argIndex, SetArgCall.description]
      dsimp only
      rw [handle]
      split <;> rfl
  | setKernelArgSvmPointer svmAlloc argIndex argValue =>
      rw [SetArgCall.run] at ran
      split at ran
      · contradiction
      · exact (Option.some.inj ran).symm

/-- The keys increase, and the members are the descriptions of the last calls. -/
structure ArgListInv (calls : List SetArgCall) (argList : List KernelArg) : Prop where
  increasing : SortedList.Increasing KernelArg.handle argList
  mem : ∀ a, a ∈ argList ↔
    (SetArgCall.last calls a.handle).map SetArgCall.description = some a

theorem argListInv_nil : ArgListInv [] [] :=
  ⟨List.Pairwise.nil, fun a => by simp [SetArgCall.last]⟩

/-- A call keeps the invariant. -/
theorem ArgListInv.step (inv : ArgListInv calls argList)
    (ran : call.run argList = some argList') : ArgListInv (calls ++ [call]) argList' := by
  have same := call.description_handle
  rw [SetArgCall.run_eq ran]
  refine ⟨inv.increasing.replace same, fun a => ?_⟩
  rw [kargInsert, kargRemove, inv.increasing.mem_replace same, inv.mem,
    SetArgCall.last_concat, same]
  by_cases here : call.argIndex = a.handle
  · simp [here, eq_comm]
  · rw [if_neg here, or_iff_right, and_iff_left (Ne.symm here)]
    rintro rfl
    exact here same.symm

theorem ArgListInv.run (inv : ArgListInv calls argList) {more : List SetArgCall}
    (ran : more.foldlM SetArgCall.run argList = some argList') :
    ArgListInv (calls ++ more) argList' := by
  induction more generalizing calls argList with
  | nil =>
      obtain rfl := Option.some.inj ran
      simpa using inv
  | cons call more ih =>
      rw [List.foldlM_cons] at ran
      obtain ⟨next, first, ran⟩ := Option.bind_eq_some_iff.mp ran
      simpa using ih (inv.step first) ran

/-- The description of the last call for an argument is in the list. -/
theorem ArgListInv.mem_of_last (inv : ArgListInv calls argList) {index : Nat}
    (isLast : SetArgCall.last calls index = some call) :
    call.description ∈ argList ∧ call.description.handle = index := by
  have handle : call.description.handle = index := by
    rw [call.description_handle, SetArgCall.last_argIndex isLast]
  refine ⟨?_, handle⟩
  rw [inv.mem, handle, isLast]
  rfl

theorem ArgListInv.filter_eq (inv : ArgListInv calls argList) (index : Nat) :
    argList.filter (fun a => a.handle = index) =
      ((SetArgCall.last calls index).map SetArgCall.description).toList := by
  cases isLast : SetArgCall.last calls index with
  | none =>
      refine List.filter_eq_nil_iff.mpr fun a mem here => ?_
      have handle : a.handle = index := by simpa using here
      rw [inv.mem, handle, isLast] at mem
      contradiction
  | some call =>
      obtain ⟨mem, handle⟩ := inv.mem_of_last isLast
      have only : ∀ a ∈ argList,
          decide (a.handle = index) = decide (a = call.description) := by
        intro a aMem
        rw [decide_eq_decide]
        constructor
        · exact fun here => inv.increasing.key_injective aMem mem (here.trans handle.symm)
        · rintro rfl
          exact handle
      have nodup : argList.Nodup := inv.increasing.imp fun less same => by
        rw [same] at less
        exact less.false
      rw [List.filter_congr only, List.filter_eq, List.count_eq_one_of_mem nodup mem]
      rfl

theorem ArgListInv.kargFind_eq (inv : ArgListInv calls argList) (index : Nat) :
    kargFind argList index = (SetArgCall.last calls index).map SetArgCall.description := by
  rw [kargFind, inv.increasing.find_eq, ← List.head?_filter, inv.filter_eq]
  cases SetArgCall.last calls index <;> rfl

/-- When the first `n` arguments are set they are the first elements. -/
theorem ArgListInv.getElem?_eq (inv : ArgListInv calls argList) {n : Nat}
    (set : ∀ i < n, (SetArgCall.last calls i).isSome) (i : Nat) (iLt : i < n) :
    argList[i]? = (SetArgCall.last calls i).map SetArgCall.description := by
  have all : ∀ j < n, ∃ a ∈ argList, a.handle = j := by
    intro j jLt
    obtain ⟨call, isLast⟩ := Option.isSome_iff_exists.mp (set j jLt)
    exact ⟨call.description, inv.mem_of_last isLast⟩
  obtain ⟨a, here, handle⟩ := inv.increasing.getElem?_of_all all i iLt
  have mem := (inv.mem a).mp (List.mem_of_getElem? here)
  rw [here, ← handle, mem]

/-- After every sequence of calls the list is sorted and duplicates are canonical. -/
theorem argListKept_of_run (ran : calls.foldlM SetArgCall.run [] = some argList) :
    ArgListKept calls argList := by
  have inv : ArgListInv calls argList := by simpa using argListInv_nil.run ran
  constructor
  case increasing => exact inv.increasing
  case once => exact inv.filter_eq
  case found => exact inv.kargFind_eq
  case all =>
    intro n set
    have here := inv.getElem?_eq set
    have enough : n ≤ argList.length := by
      rcases Nat.eq_zero_or_pos n with rfl | pos
      · exact Nat.zero_le _
      · obtain ⟨call, isLast⟩ := Option.isSome_iff_exists.mp (set (n - 1) (by omega))
        have last := here (n - 1) (by omega)
        rw [isLast] at last
        have bound := (List.getElem?_eq_some_iff.mp last).1
        omega
    exact ⟨here, _, walkDuplicates_eq enough, canonical_firstUse⟩

/-- Calls that pass one memory object as the arguments `0` and `2`, and set
argument `1` twice. -/
def repeatedArg : List SetArgCall :=
  let memAlloc : Table Handle MemObj := Table.empty.insert 11 { handle := 11, size := 64 }
  [.setKernelArg memAlloc 2 8 (some 11), .setKernelArg memAlloc 1 4 (some 11),
    .setKernelArg memAlloc 0 8 (some 11), .setKernelArgSvmPointer OrderedMap.empty 1 4096]

theorem argListKept_of_run_repeatedArg : ∃ argList,
    repeatedArg.foldlM SetArgCall.run [] = some argList ∧
      walkDuplicates 3 argList = some [0, 1, 0] ∧ ArgListKept repeatedArg argList :=
  ⟨_, rfl, by decide, argListKept_of_run rfl⟩

/-! ## The lists as ordered maps -/

/-- Linking and unlinking by index is what the ordered map of a `kernel_info` does. -/
theorem KernelInfo.setArg_entries (info : KernelInfo) (argIndex : Nat) (arg : ArgEntry) :
    (info.setArg argIndex arg).argList.entries =
      SortedList.insert Prod.fst (argIndex, arg)
        (SortedList.remove Prod.fst argIndex info.argList.entries).2 := by
  have increasing : SortedList.Increasing Prod.fst info.argList.entries := info.argList.sorted
  have removed : (info.argList.remove argIndex).entries =
      (SortedList.remove Prod.fst argIndex info.argList.entries).2 := increasing.remove_snd.symm
  have absent : (info.argList.remove argIndex).find argIndex = none := by
    rw [OrderedMap.find_remove, if_pos rfl]
  have left : SortedList.Increasing Prod.fst (info.argList.remove argIndex).entries :=
    (info.argList.remove argIndex).sorted
  have new : ∀ e ∈ (info.argList.remove argIndex).entries, e.1 ≠ argIndex := by
    intro e mem
    simpa using (List.mem_filter.mp mem).2
  rw [KernelInfo.setArg, OrderedMap.insert, ← removed]
  simp only [absent, Option.isSome_none, Bool.false_eq_true, if_false]
  rw [@SortedList.Increasing.insert_eq _ _ _ _ _ (argIndex, arg) left new]

end Clarmor
