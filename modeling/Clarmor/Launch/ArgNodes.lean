import Clarmor.Library.LinkedList
import Clarmor.Wrapper.Kernels

/-!
# The nodes of the argument lists

The `kernel_arg` of an argument is a node of a linked list, and its value is a block of
its own; both are allocated when the argument is set, and freed with it.  The lists lie
in a heap here, where a read, a write or a `free` of memory that is not allocated has
no result.  Allocations succeed, and no address is used twice.
-/

namespace Clarmor

open Word

/-- `kernel_arg`, up to the pointer to the next one. -/
structure ArgNode where
  handle : Nat
  size : Nat
  value : Option Address
  buffer : Option Address
  svmBuffer : Option Address

/-- `kernel_info`, with the head of its list. -/
structure KernelNode where
  handle : Handle
  argList : Option Address
  refCount : Nat

/-- The heap: the arguments, the blocks with their values, the kernels, and the map
behind `get_kern_list`. -/
structure ArgHeap where
  args : LinkedList.Nodes ArgNode
  values : Table Address Nat
  kernInfos : Table Address KernelNode
  kernList : Table Handle Address
  nextAddress : Address

namespace ArgHeap

/-- The start of a process. -/
def initial : ArgHeap := ⟨Table.empty, Table.empty, Table.empty, Table.empty, 0⟩

/-- More turns than a list has nodes. -/
def fuel (h : ArgHeap) : Nat := h.nextAddress + 1

/-! ## Memory -/

/-- `calloc` of a `kernel_arg`, with its index. -/
def callocArg (h : ArgHeap) (argIndex : Nat) : Address × ArgHeap :=
  (h.nextAddress, { h with
    args := h.args.insert h.nextAddress ⟨⟨argIndex, 0, none, none, none⟩, none⟩
    nextAddress := h.nextAddress + 1 })

/-- `calloc` of a block, with what is copied into it. -/
def callocValue (h : ArgHeap) (value : Nat) : Address × ArgHeap :=
  (h.nextAddress, { h with
    values := h.values.insert h.nextAddress value
    nextAddress := h.nextAddress + 1 })

/-- `free` of the value of an argument, if there is one. -/
def freeValue (h : ArgHeap) : Option Address → Option ArgHeap
  | none => some h
  | some v => (h.values.find v).map fun _ => { h with values := h.values.remove v }

/-- `free` of an argument. -/
def freeArg (h : ArgHeap) (p : Address) : Option ArgHeap :=
  (h.args.find p).map fun _ => { h with args := h.args.remove p }

/-- Assignments to fields of an argument. -/
def setItem (h : ArgHeap) (p : Address) (f : ArgNode → ArgNode) : Option ArgHeap :=
  (h.args.find p).map fun _ =>
    { h with args := h.args.modify p fun node => { node with item := f node.item } }

/-! ## Lists of arguments -/

/-- The nodes, and the head of the list of a kernel. -/
def setList (h : ArgHeap) (info : Address) (args : LinkedList.Nodes ArgNode)
    (argList : Option Address) : ArgHeap :=
  { h with
    args := args
    kernInfos := h.kernInfos.modify info fun node => { node with argList := argList } }

/-- `karg_insert` into the list of a kernel. -/
def kargInsert (h : ArgHeap) (info item : Address) : Option ArgHeap :=
  (h.kernInfos.find info).bind fun node =>
  (LinkedList.insert ArgNode.handle h.fuel h.args node.argList item).map fun r =>
    h.setList info r.1 r.2

/-- `karg_remove` from the list of a kernel. -/
def kargRemove (h : ArgHeap) (info : Address) (handle : Nat) :
    Option (Option Address × ArgHeap) :=
  (h.kernInfos.find info).bind fun node =>
  (LinkedList.remove ArgNode.handle h.fuel h.args node.argList handle).map fun r =>
    (r.1, h.setList info r.2.1 r.2.2)

/-- `karg_find` in the list of a kernel. -/
def kargFind (h : ArgHeap) (info : Address) (handle : Nat) : Option (Option Address) :=
  (h.kernInfos.find info).bind fun node =>
    LinkedList.find ArgNode.handle h.args handle h.fuel node.argList

/-- `karg_delete`. -/
def kargDelete (h : ArgHeap) (item : Address) : Option ArgHeap :=
  (h.args.find item).bind fun node =>
  (h.freeValue node.item.value).bind fun h => h.freeArg item

/-! ## Kernels -/

/-- `kinfo_insert` of a new description. -/
def kinfoInsert (h : ArgHeap) (kernel : Handle) (refCount : Nat) : Address × ArgHeap :=
  (h.nextAddress, { h with
    kernInfos := h.kernInfos.insert h.nextAddress ⟨kernel, none, refCount⟩
    kernList := h.kernList.insert kernel h.nextAddress
    nextAddress := h.nextAddress + 1 })

/-- The loop of `kinfo_delete`. -/
def kinfoDeleteArgs : Nat → Option Address → ArgHeap → Option ArgHeap
  | 0, _, _ => none
  | _ + 1, none, h => some h
  | fuel + 1, some lp, h =>
      (h.args.find lp).bind fun node => (h.kargDelete lp).bind (kinfoDeleteArgs fuel node.next)

/-- `kinfo_delete`. -/
def kinfoDelete (h : ArgHeap) (info : Address) : Option ArgHeap :=
  (h.kernInfos.find info).bind fun node =>
  (kinfoDeleteArgs h.fuel node.argList h).map fun h =>
    { h with kernInfos := h.kernInfos.remove info }

/-- The description of a kernel, which is made when the first argument is set. -/
def kinfoOf (h : ArgHeap) (kernel : Handle) : Address × ArgHeap :=
  match h.kernList.find kernel with
  | none => h.kinfoInsert kernel 1
  | some info => (info, h)

/-- A value is copied into a block, and the fields are set. -/
def fillArg (h : ArgHeap) (p : Address) (argValue : Option Nat)
    (f : Option Address → ArgNode → ArgNode) : Option ArgHeap :=
  match argValue with
  | none => h.setItem p (f none)
  | some value => (h.callocValue value).2.setItem p (f (some (h.callocValue value).1))

/-- The end of `clSetKernelArg`: a description that was unlinked is used again. -/
def clSetKernelArg (h : ArgHeap) (kernel : Handle) (argIndex argSize : Nat)
    (argValue : Option Nat) (buffer : Option Address) : Option ArgHeap :=
  let kernTemp := (h.kinfoOf kernel).1
  ((h.kinfoOf kernel).2.kargRemove kernTemp argIndex).bind fun r =>
  (match r.1 with
    | some argTemp =>
        (r.2.args.find argTemp).bind fun node =>
        (r.2.freeValue node.item.value).bind fun h =>
        (h.setItem argTemp fun arg => { arg with value := none }).map fun h => (argTemp, h)
    | none => some (r.2.callocArg argIndex)).bind fun new =>
  (new.2.fillArg new.1 argValue fun value arg =>
    ⟨arg.handle, argSize, value, buffer, none⟩).bind fun h => h.kargInsert kernTemp new.1

/-- The end of `clSetKernelArgSVMPointer`: a description that was unlinked is freed. -/
def clSetKernelArgSVMPointer (h : ArgHeap) (kernel : Handle) (argIndex argValue : Nat)
    (svmBuffer : Option Address) : Option ArgHeap :=
  let kernTemp := (h.kinfoOf kernel).1
  ((h.kinfoOf kernel).2.kargRemove kernTemp argIndex).bind fun r =>
  (match r.1 with
    | some argTemp => r.2.kargDelete argTemp
    | none => some r.2).bind fun h =>
  ((h.callocArg argIndex).2.fillArg (h.callocArg argIndex).1 (some argValue) fun value arg =>
    ⟨arg.handle, arg.size, value, none, svmBuffer⟩).bind fun h' =>
  h'.kargInsert kernTemp (h.callocArg argIndex).1

/-- `clRetainKernel`. -/
def clRetainKernel (h : ArgHeap) (kernel : Handle) : Option ArgHeap :=
  match h.kernList.find kernel with
  | none => some (h.kinfoInsert kernel 2).2
  | some info => (h.kernInfos.find info).map fun _ =>
      { h with kernInfos := h.kernInfos.modify info fun node =>
          { node with refCount := u32 (node.refCount + 1) } }

/-- `clReleaseKernel`; the runtime is not told. -/
def clReleaseKernel (h : ArgHeap) (kernel : Handle) : Option ArgHeap :=
  match h.kernList.find kernel with
  | none => some h
  | some info => (h.kernInfos.find info).bind fun node =>
      if sub32 node.refCount 1 = 0 then
        ({ h with kernList := h.kernList.remove kernel }).kinfoDelete info
      else some { h with kernInfos := h.kernInfos.modify info fun node =>
          { node with refCount := sub32 node.refCount 1 } }

/-- One turn of the loop of `delPoisonKernel`, with the node that no list has any more:
an argument without memory object is unlinked and not deleted. -/
def delPoisonArg (h : ArgHeap) (delKern : Handle) (dupe : List Nat) (i : Nat) :
    Option (List Address × ArgHeap) :=
  if dupe[i]? = some i then
    (h.kernList.find delKern).bind fun info =>
    (h.kargRemove info i).bind fun r =>
    match r.1 with
    | none => some ([], r.2)
    | some delKernArg =>
        (r.2.args.find delKernArg).bind fun node =>
        match node.item.buffer with
        | none => some ([delKernArg], r.2)
        | some _ => (r.2.kargDelete delKernArg).map fun h => ([], h)
  else some ([], h)

/-! ## What lies in the heap -/

/-- The argument at an address. -/
def itemAt (h : ArgHeap) (p : Address) : Option ArgNode := (h.args.find p).map LinkedList.Node.item

/-- The block of the argument at an address. -/
def valueAt (h : ArgHeap) (p : Address) : Option Address := (h.itemAt p).bind ArgNode.value

/-- The description that an argument is. -/
def entryOf (h : ArgHeap) (item : ArgNode) : ArgEntry :=
  ⟨item.size, item.value.bind h.values.find, item.buffer, item.svmBuffer⟩

/-- The index of an argument in a list. -/
def key (e : Address × ArgNode) : Nat := e.2.handle

open LinkedList (Chain addresses addresses_cons SameItems)

/-- Every kernel has the chain of its list, and every argument is in one list or loose. -/
structure Links (h : ArgHeap) (lists : Handle → List (Address × ArgNode)) (loose : Set Address) :
    Prop where
  listed : ∀ k q, h.kernList.find k = some q → ∃ info, h.kernInfos.find q = some info ∧
    info.handle = k ∧ Chain h.args info.argList (lists k)
  unlisted : ∀ k, h.kernList.find k = none → lists k = []
  entered : ∀ q info, h.kernInfos.find q = some info → h.kernList.find info.handle = some q
  increasing : ∀ k, SortedList.Increasing key (lists k)
  apart : ∀ k k' p, p ∈ addresses (lists k) → p ∈ addresses (lists k') → k = k'
  free : ∀ k, ∀ p ∈ loose, p ∉ addresses (lists k)
  live : ∀ p, (h.args.find p).isSome ↔ p ∈ loose ∨ ∃ k, p ∈ addresses (lists k)

/-- Every block is the value of one argument. -/
structure Values (h : ArgHeap) : Prop where
  owned : ∀ p v, h.valueAt p = some v → (h.values.find v).isSome
  owner : ∀ v, (h.values.find v).isSome → ∃ p, h.valueAt p = some v
  single : ∀ p p' v, h.valueAt p = some v → h.valueAt p' = some v → p = p'

/-- The addresses from the next one on were not used yet. -/
structure Below (h : ArgHeap) : Prop where
  args : ∀ p, h.nextAddress ≤ p → h.args.find p = none
  values : ∀ p, h.nextAddress ≤ p → h.values.find p = none
  kernInfos : ∀ p, h.nextAddress ≤ p → h.kernInfos.find p = none

structure Layout (h : ArgHeap) (lists : Handle → List (Address × ArgNode)) (loose : Set Address) :
    Prop where
  links : Links h lists loose
  values : Values h
  below : Below h

/-- The kernels and the arguments, up to one argument, are as before. -/
structure Keeps (h h' : ArgHeap) (p : Address) : Prop where
  kernList : h'.kernList = h.kernList
  counts : ∀ q, (h'.kernInfos.find q).map (fun node => (node.handle, node.refCount)) =
    (h.kernInfos.find q).map fun node => (node.handle, node.refCount)
  items : ∀ q ≠ p, h'.itemAt q = h.itemAt q
  entries : ∀ q ≠ p, ∀ item, h.itemAt q = some item → h'.entryOf item = h.entryOf item

/-- One argument and its block change. -/
structure Changes (h h' : ArgHeap) (p : Address) : Prop where
  kernInfos : h'.kernInfos = h.kernInfos
  kernList : h'.kernList = h.kernList
  args : ∀ q ≠ p, h'.args.find q = h.args.find q
  values : ∀ v, h.valueAt p ≠ some v → h'.valueAt p ≠ some v → h'.values.find v = h.values.find v
  freed : ∀ v, h.valueAt p = some v → h'.valueAt p ≠ some v → h'.values.find v = none
  filled : ∀ v, h'.valueAt p = some v → h.values.find v = none ∧ (h'.values.find v).isSome
  below : Below h'

variable {h h' h'' : ArgHeap} {lists : Handle → List (Address × ArgNode)}
  {loose loose' : Set Address} {p q : Address} {item : ArgNode} {k : Handle}

theorem Keeps.trans (keeps : Keeps h h' p) (keeps' : Keeps h' h'' p) : Keeps h h'' p := by
  constructor
  · rw [keeps'.kernList, keeps.kernList]
  · exact fun q => (keeps'.counts q).trans (keeps.counts q)
  · exact fun q other => (keeps'.items q other).trans (keeps.items q other)
  · intro q other item isItem
    have isItem' := (keeps.items q other).trans isItem
    rw [keeps'.entries q other item isItem', keeps.entries q other item isItem]

theorem valueAt_of_itemAt (isItem : h.itemAt p = some item) : h.valueAt p = item.value := by
  rw [valueAt, isItem, Option.bind_some]

theorem Changes.itemAt (changes : Changes h h' p) (other : q ≠ p) : h'.itemAt q = h.itemAt q := by
  rw [ArgHeap.itemAt, changes.args q other, ArgHeap.itemAt]

theorem Changes.valueAt (changes : Changes h h' p) (other : q ≠ p) :
    h'.valueAt q = h.valueAt q := by
  rw [ArgHeap.valueAt, changes.itemAt other, ArgHeap.valueAt]

/-- The block of another argument stays. -/
theorem Changes.find_value (changes : Changes h h' p) (values : Values h) {v : Address}
    (other : q ≠ p) (isValue : h.valueAt q = some v) : h'.values.find v = h.values.find v := by
  refine changes.values v (fun same => other (values.single q p v isValue same)) fun same => ?_
  have fresh := (changes.filled v same).1
  have owned := values.owned q v isValue
  rw [fresh] at owned
  contradiction

theorem Changes.values_spec (changes : Changes h h' p) (values : Values h) : Values h' := by
  constructor
  · intro q v isValue
    by_cases here : q = p
    · exact (changes.filled v (here ▸ isValue)).2
    · rw [changes.valueAt here] at isValue
      rw [changes.find_value values here isValue]
      exact values.owned q v isValue
  · intro v isSome
    by_cases new : h'.valueAt p = some v
    · exact ⟨p, new⟩
    · by_cases old : h.valueAt p = some v
      · rw [changes.freed v old new] at isSome
        contradiction
      · rw [changes.values v old new] at isSome
        obtain ⟨q, isValue⟩ := values.owner v isSome
        have other : q ≠ p := by
          rintro rfl
          exact old isValue
        exact ⟨q, (changes.valueAt other).trans isValue⟩
  · have notNew : ∀ q v, q ≠ p → h'.valueAt q = some v → h'.valueAt p ≠ some v := by
      intro q v other isValue new
      rw [changes.valueAt other] at isValue
      have owned := values.owned q v isValue
      rw [(changes.filled v new).1] at owned
      contradiction
    intro q q' v isValue isValue'
    by_cases here : q = p
    · by_cases here' : q' = p
      · rw [here, here']
      · exact absurd (here ▸ isValue) (notNew q' v here' isValue')
    · by_cases here' : q' = p
      · exact absurd (here' ▸ isValue') (notNew q v here isValue)
      · rw [changes.valueAt here] at isValue
        rw [changes.valueAt here'] at isValue'
        exact values.single q q' v isValue isValue'

/-- A change of a loose argument. -/
theorem Changes.layout (changes : Changes h h' p) (layout : Layout h lists loose)
    (outside : ∀ k, p ∉ addresses (lists k))
    (isLoose : ∀ q, q ∈ loose' ↔ if q = p then (h'.args.find p).isSome = true else q ∈ loose) :
    Layout h' lists loose' ∧ Keeps h h' p := by
  obtain ⟨links, values, -⟩ := layout
  have same : ∀ k, ∀ q ∈ addresses (lists k), q ≠ p := by
    rintro k q mem rfl
    exact outside k mem
  refine ⟨⟨?_, changes.values_spec values, changes.below⟩, ?_⟩
  · constructor
    · intro k q isListed
      rw [changes.kernList] at isListed
      obtain ⟨info, isInfo, isHandle, chain⟩ := links.listed k q isListed
      refine ⟨info, changes.kernInfos ▸ isInfo, isHandle, chain.congr fun q mem => ?_⟩
      exact changes.args q (same k q mem)
    · rw [changes.kernList]
      exact links.unlisted
    · rw [changes.kernInfos, changes.kernList]
      exact links.entered
    · exact links.increasing
    · exact links.apart
    · intro k q isLoose' mem
      rw [isLoose, if_neg (same k q mem)] at isLoose'
      exact links.free k q isLoose' mem
    · intro q
      rw [isLoose]
      split_ifs with here
      · rw [here]
        constructor
        · exact Or.inl
        · rintro (isSome | ⟨k, mem⟩)
          · exact isSome
          · exact absurd mem (outside k)
      · rw [changes.args q here]
        exact links.live q
  · constructor
    · exact changes.kernList
    · rw [changes.kernInfos]
      exact fun _ => rfl
    · exact fun q => changes.itemAt
    · intro q other item isItem
      rw [entryOf, entryOf]
      cases isValue : item.value with
      | none => rfl
      | some v =>
          rw [Option.bind_some, Option.bind_some, changes.find_value values other]
          rw [valueAt_of_itemAt isItem, isValue]

/-! ## Loose arguments -/

theorem itemAt_eq_none (isNone : h.args.find p = none) : h.itemAt p = none := by
  rw [itemAt, isNone, Option.map_none]

/-- A loose argument is on no list, and it is there. -/
theorem Layout.loose_live (layout : Layout h lists loose) (isLoose : p ∈ loose) :
    (∀ k, p ∉ addresses (lists k)) ∧ ∃ node, h.args.find p = some node :=
  ⟨fun k => layout.links.free k p isLoose,
    Option.isSome_iff_exists.mp ((layout.links.live p).mpr (Or.inl isLoose))⟩

/-- A new argument. -/
theorem callocArg_spec (layout : Layout h lists loose) (argIndex : Nat) :
    Layout (h.callocArg argIndex).2 lists (insert (h.callocArg argIndex).1 loose) ∧
      Keeps h (h.callocArg argIndex).2 (h.callocArg argIndex).1 ∧
      (h.callocArg argIndex).2.itemAt (h.callocArg argIndex).1 =
        some ⟨argIndex, 0, none, none, none⟩ ∧
      ∀ k, (h.callocArg argIndex).1 ∉ addresses (lists k) := by
  have room := layout.below.args h.nextAddress (le_refl _)
  have isItem : (h.callocArg argIndex).2.itemAt h.nextAddress =
      some ⟨argIndex, 0, none, none, none⟩ := by
    rw [itemAt, callocArg]
    dsimp only
    rw [Table.find_insert_fresh room, Option.map_some]
  have noValue : h.valueAt h.nextAddress = none := by
    rw [valueAt, itemAt_eq_none room, Option.bind_none]
  have noValue' := valueAt_of_itemAt isItem
  have outside : ∀ k, h.nextAddress ∉ addresses (lists k) := by
    intro k mem
    have isSome := (layout.links.live _).mpr (Or.inr ⟨k, mem⟩)
    rw [room] at isSome
    contradiction
  have changes : Changes h (h.callocArg argIndex).2 h.nextAddress := by
    constructor
    case kernInfos => rfl
    case kernList => rfl
    case args => exact fun q other => Table.find_insert_of_ne other
    case values => exact fun _ _ _ => rfl
    case freed =>
      rw [noValue]
      exact fun v none => absurd none (Option.some_ne_none v).symm
    case filled =>
      rw [noValue']
      exact fun v none => absurd none (Option.some_ne_none v).symm
    case below =>
      constructor
      · intro q above
        have other : q ≠ h.nextAddress := (Nat.lt_of_succ_le above).ne'
        exact (Table.find_insert_of_ne other).trans
          (layout.below.args q (Nat.le_of_succ_le above))
      · exact fun q above => layout.below.values q (Nat.le_of_succ_le above)
      · exact fun q above => layout.below.kernInfos q (Nat.le_of_succ_le above)
  have joins : ∀ q, q ∈ insert h.nextAddress loose ↔
      if q = h.nextAddress then ((h.callocArg argIndex).2.args.find h.nextAddress).isSome = true
      else q ∈ loose := by
    intro q
    split_ifs with here
    · rw [here, callocArg, Table.find_insert_fresh room]
      exact iff_of_true (Set.mem_insert _ _) rfl
    · exact Set.mem_insert_iff.trans (or_iff_right here)
  obtain ⟨layout', keeps⟩ := changes.layout layout outside joins
  exact ⟨layout', keeps, isItem, outside⟩

/-- The block of an argument is there when it is freed. -/
theorem freeValue_spec (values : Values h) (p : Address) :
    ∃ h', h.freeValue (h.valueAt p) = some h' ∧ h' = { h with values := h'.values } ∧
      (∀ v, h.valueAt p ≠ some v → h'.values.find v = h.values.find v) ∧
      ∀ v, h.valueAt p = some v → h'.values.find v = none := by
  cases isValue : h.valueAt p with
  | none =>
      exact ⟨h, rfl, rfl, fun _ _ => rfl, fun v none => absurd none (Option.some_ne_none v).symm⟩
  | some v =>
      obtain ⟨value, found⟩ := Option.isSome_iff_exists.mp (values.owned p v isValue)
      refine ⟨{ h with values := h.values.remove v }, ?_, rfl, fun w other => ?_, fun w same => ?_⟩
      · rw [freeValue, found, Option.map_some]
      · exact Table.find_remove_of_ne fun same => other (congrArg some same.symm)
      · rw [← Option.some.inj same]
        exact Table.find_remove_self _ _

/-- `karg_delete` of a loose argument. -/
theorem kargDelete_spec (layout : Layout h lists loose) (isLoose : p ∈ loose) :
    ∃ h', h.kargDelete p = some h' ∧ Layout h' lists (loose \ {p}) ∧ Keeps h h' p := by
  obtain ⟨outside, node, found⟩ := layout.loose_live isLoose
  have isValue : h.valueAt p = node.item.value := by
    rw [valueAt, itemAt, found, Option.map_some, Option.bind_some]
  obtain ⟨h₁, freed, same, others, gone⟩ := freeValue_spec layout.values p
  have found₁ : h₁.args.find p = some node := by
    rw [same]
    exact found
  have ran : h.kargDelete p = some { h₁ with args := h₁.args.remove p } := by
    rw [kargDelete, found, Option.bind_some, ← isValue, freed, Option.bind_some, freeArg, found₁,
      Option.map_some]
  have noValue : ({ h₁ with args := h₁.args.remove p } : ArgHeap).valueAt p = none := by
    rw [valueAt, itemAt_eq_none (Table.find_remove_self _ _), Option.bind_none]
  refine ⟨_, ran, Changes.layout ?_ layout outside fun q => ?_⟩
  · constructor
    case kernInfos => rw [same]
    case kernList => rw [same]
    case args =>
      intro q other
      refine (Table.find_remove_of_ne other).trans ?_
      rw [same]
    case values => exact fun v old _ => others v old
    case freed => exact fun v old _ => gone v old
    case filled =>
      rw [noValue]
      exact fun v none => absurd none (Option.some_ne_none v).symm
    case below =>
      rw [same]
      constructor
      · intro q above
        refine (Table.find_remove _ _ _).trans ?_
        split_ifs
        · rfl
        · exact layout.below.args q above
      · intro q above
        by_cases old : h.valueAt p = some q
        · exact gone q old
        · exact (others q old).trans (layout.below.values q above)
      · exact layout.below.kernInfos
  · split_ifs with here
    · rw [here]
      refine iff_of_false (fun mem => mem.2 rfl) ?_
      rw [Table.find_remove_self]
      exact Bool.false_ne_true
    · exact ⟨fun mem => mem.1, fun mem => ⟨mem, here⟩⟩

/-- An argument that is used again loses its value. -/
theorem dropValue_spec (layout : Layout h lists loose) (isLoose : p ∈ loose)
    (isItem : h.itemAt p = some item) : ∃ h₁ h', h.freeValue item.value = some h₁ ∧
      h₁.setItem p (fun arg => { arg with value := none }) = some h' ∧ Layout h' lists loose ∧
      Keeps h h' p ∧ h'.itemAt p = some { item with value := none } := by
  obtain ⟨outside, node, found⟩ := layout.loose_live isLoose
  obtain ⟨h₁, freed, same, others, gone⟩ := freeValue_spec layout.values p
  rw [valueAt_of_itemAt isItem] at freed
  rw [itemAt, found, Option.map_some, Option.some.injEq] at isItem
  have found₁ : h₁.args.find p = some node := by
    rw [same]
    exact found
  refine ⟨h₁, _, freed, by rw [setItem, found₁, Option.map_some], ?_⟩
  have isItem' : ({ h₁ with args := h₁.args.modify p fun node =>
      { node with item := { node.item with value := none } } } : ArgHeap).itemAt p =
        some { item with value := none } := by
    rw [itemAt, Table.find_modify_self, found₁, Option.map_some, Option.map_some, isItem]
  have noValue := valueAt_of_itemAt isItem'
  have changes : Changes h { h₁ with args := h₁.args.modify p fun node =>
      { node with item := { node.item with value := none } } } p := by
    constructor
    case kernInfos => rw [same]
    case kernList => rw [same]
    case args =>
      intro q other
      refine (Table.find_modify_of_ne other).trans ?_
      rw [same]
    case values => exact fun v old _ => others v old
    case freed => exact fun v old _ => gone v old
    case filled =>
      rw [noValue]
      exact fun v none => absurd none (Option.some_ne_none v).symm
    case below =>
      rw [same]
      constructor
      · intro q above
        refine (Table.find_modify _ _ _ _).trans ?_
        split_ifs with here
        · rw [← here, layout.below.args q above, Option.map_none]
        · exact layout.below.args q above
      · intro q above
        by_cases old : h.valueAt p = some q
        · exact gone q old
        · exact (others q old).trans (layout.below.values q above)
      · exact layout.below.kernInfos
  obtain ⟨layout', keeps⟩ := changes.layout layout outside fun q => by
    split_ifs with here
    · rw [here]
      refine iff_of_true isLoose ?_
      rw [Table.find_modify_self, found₁]
      rfl
    · exact Iff.rfl
  exact ⟨layout', keeps, isItem'⟩

/-- A loose argument without value gets one, and its fields. -/
theorem fillArg_spec (layout : Layout h lists loose) (isLoose : p ∈ loose)
    (isItem : h.itemAt p = some item) (noValue : item.value = none) (argValue : Option Nat)
    {f : Option Address → ArgNode → ArgNode} (keepsValue : ∀ v arg, (f v arg).value = v) :
    ∃ h' v, h.fillArg p argValue f = some h' ∧ Layout h' lists loose ∧ Keeps h h' p ∧
      h'.itemAt p = some (f v item) ∧ v.bind h'.values.find = argValue := by
  obtain ⟨outside, node, found⟩ := layout.loose_live isLoose
  have none := valueAt_of_itemAt isItem
  rw [noValue] at none
  rw [itemAt, found, Option.map_some, Option.some.injEq] at isItem
  have modified : ∀ (values : Table Address Nat) (nextAddress : Address) (v : Option Address),
      ({ h with
        args := h.args.modify p fun node => { node with item := f v node.item }
        values := values
        nextAddress := nextAddress } : ArgHeap).itemAt p = some (f v item) := by
    intro values nextAddress v
    rw [itemAt, Table.find_modify_self, found, Option.map_some, Option.map_some, isItem]
  have argsBelow : ∀ v q, h.nextAddress ≤ q → (h.args.modify p fun node =>
      { node with item := f v node.item }).find q = Option.none := by
    intro v q above
    rw [Table.find_modify]
    split_ifs with here
    · rw [← here, layout.below.args q above, Option.map_none]
    · exact layout.below.args q above
  have stays : ∀ v q, q ∈ loose ↔ if q = p then ((h.args.modify p fun node =>
      { node with item := f v node.item }).find p).isSome = true else q ∈ loose := by
    intro v q
    split_ifs with here
    · rw [here, Table.find_modify_self, found]
      exact iff_of_true isLoose rfl
    · exact Iff.rfl
  cases argValue with
  | none =>
      have isItem' := modified h.values h.nextAddress Option.none
      have isValue' := valueAt_of_itemAt isItem'
      rw [keepsValue] at isValue'
      have changes : Changes h
          { h with
            args := h.args.modify p fun node => { node with item := f Option.none node.item } }
          p := by
        constructor
        case kernInfos => rfl
        case kernList => rfl
        case args => exact fun q other => Table.find_modify_of_ne other
        case values => exact fun _ _ _ => rfl
        case freed =>
          rw [none]
          exact fun v same => absurd same (Option.some_ne_none v).symm
        case filled =>
          rw [isValue']
          exact fun v same => absurd same (Option.some_ne_none v).symm
        case below => exact ⟨argsBelow Option.none, layout.below.values, layout.below.kernInfos⟩
      obtain ⟨layout', keeps⟩ := changes.layout layout outside (stays Option.none)
      refine ⟨_, Option.none, ?_, layout', keeps, isItem', rfl⟩
      rw [fillArg, setItem, found, Option.map_some]
  | some value =>
      have room := layout.below.values h.nextAddress (le_refl _)
      have isItem' := modified (h.values.insert h.nextAddress value) (h.nextAddress + 1)
        (some h.nextAddress)
      have isValue' := valueAt_of_itemAt isItem'
      rw [keepsValue] at isValue'
      have changes : Changes h { h with
          args := h.args.modify p fun node => { node with item := f (some h.nextAddress) node.item }
          values := h.values.insert h.nextAddress value
          nextAddress := h.nextAddress + 1 } p := by
        constructor
        case kernInfos => rfl
        case kernList => rfl
        case args => exact fun q other => Table.find_modify_of_ne other
        case values =>
          intro v _ new
          rw [isValue', ne_eq, Option.some.injEq] at new
          exact Table.find_insert_of_ne (Ne.symm new)
        case freed =>
          rw [none]
          exact fun v same => absurd same (Option.some_ne_none v).symm
        case filled =>
          intro v same
          rw [isValue', Option.some.injEq] at same
          rw [← same]
          refine ⟨room, ?_⟩
          rw [Table.find_insert_fresh room]
          rfl
        case below =>
          constructor
          · exact fun q above => argsBelow _ q (Nat.le_of_succ_le above)
          · intro q above
            have other : q ≠ h.nextAddress := (Nat.lt_of_succ_le above).ne'
            exact (Table.find_insert_of_ne other).trans
              (layout.below.values q (Nat.le_of_succ_le above))
          · exact fun q above => layout.below.kernInfos q (Nat.le_of_succ_le above)
      obtain ⟨layout', keeps⟩ := changes.layout layout outside (stays (some h.nextAddress))
      refine ⟨_, some h.nextAddress, ?_, layout', keeps, isItem', Table.find_insert_fresh room⟩
      rw [fillArg, callocValue, setItem]
      dsimp only
      rw [found, Option.map_some]

/-! ## The lists -/

theorem Layout.length_lt (layout : Layout h lists loose) (isListed : h.kernList.find k = some q) :
    (lists k).length < h.fuel := by
  obtain ⟨info, -, -, chain⟩ := layout.links.listed k q isListed
  exact Nat.lt_succ_of_le (chain.length_le layout.below.args)

/-- The list of a kernel is linked anew. -/
structure Relinked (h : ArgHeap) (lists : Handle → List (Address × ArgNode)) (loose : Set Address)
    (k : Handle) (info : KernelNode) (q : Address) (nodes : LinkedList.Nodes ArgNode)
    (argList : Option Address) (l : List (Address × ArgNode)) (touched : List Address)
    (loose' : Set Address) : Prop where
  isListed : h.kernList.find k = some q
  isInfo : h.kernInfos.find q = some info
  leaves : LinkedList.Leaves h.args nodes argList l touched
  within : ∀ p ∈ touched, p ∈ loose ∨ p ∈ addresses (lists k)
  increasing : SortedList.Increasing key l
  moved : ∀ p, p ∈ loose' ∨ p ∈ addresses l ↔ p ∈ loose ∨ p ∈ addresses (lists k)
  disjoint : ∀ p ∈ loose', p ∉ addresses l

section Relinked

variable {info : KernelNode} {nodes : LinkedList.Nodes ArgNode} {argList : Option Address}
  {l : List (Address × ArgNode)} {touched : List Address}

theorem isSome_of_sameItems {nodes nodes' : LinkedList.Nodes ArgNode}
    (same : SameItems nodes nodes') (p : Address) :
    (nodes'.find p).isSome = (nodes.find p).isSome := by
  rw [← Option.isSome_map (f := LinkedList.Node.item), same p, Option.isSome_map]

theorem Relinked.links (relinked : Relinked h lists loose k info q nodes argList l touched loose')
    (links : Links h lists loose) :
    Links (h.setList q nodes argList) (Function.update lists k l) loose' := by
  obtain ⟨isListed, isInfo, leaves, within, increasing, moved, disjoint⟩ := relinked
  have isHandle : info.handle = k := by
    obtain ⟨info', isInfo', isHandle, -⟩ := links.listed k q isListed
    rw [Option.some.inj (isInfo.symm.trans isInfo'), isHandle]
  have apart : ∀ k' p, k' ≠ k → p ∈ addresses (lists k') →
      ¬ (p ∈ loose ∨ p ∈ addresses (lists k)) := by
    rintro k' p other mem (isLoose | mem')
    · exact links.free k' p isLoose mem
    · exact other (links.apart k' k p mem mem')
  have mem_update : ∀ k' p, p ∈ addresses (Function.update lists k l k') ↔
      if k' = k then p ∈ addresses l else p ∈ addresses (lists k') := by
    intro k' p
    rw [Function.update_apply]
    split_ifs <;> rfl
  constructor
  case listed =>
    intro k' q' isListed'
    obtain ⟨info', isInfo', isHandle', chain⟩ := links.listed k' q' isListed'
    by_cases here : k' = k
    · subst here
      obtain rfl := Option.some.inj (isListed.symm.trans isListed')
      refine ⟨⟨info'.handle, argList, info'.refCount⟩, ?_, isHandle', ?_⟩
      · exact (Table.find_modify_self _ _ _).trans (by rw [isInfo', Option.map_some])
      · rw [Function.update_self]
        exact leaves.chain
    · have other : q' ≠ q := by
        rintro rfl
        obtain rfl := Option.some.inj (isInfo.symm.trans isInfo')
        exact here (isHandle'.symm.trans isHandle)
      refine ⟨info', (Table.find_modify_of_ne other).trans isInfo', isHandle', ?_⟩
      rw [Function.update_of_ne here]
      refine chain.congr fun p mem => leaves.frame p fun isTouched => ?_
      exact apart k' p here mem (within p isTouched)
  case unlisted =>
    intro k' unlisted
    have other : k' ≠ k := by
      rintro rfl
      rw [setList, isListed] at unlisted
      contradiction
    rw [Function.update_of_ne other]
    exact links.unlisted k' unlisted
  case entered =>
    intro q' info' isInfo'
    rw [setList, Table.find_modify] at isInfo'
    split_ifs at isInfo' with here
    · rw [isInfo, Option.map_some, Option.some.injEq] at isInfo'
      rw [← isInfo', here]
      exact links.entered q info isInfo
    · exact links.entered q' info' isInfo'
  case increasing =>
    intro k'
    rw [Function.update_apply]
    split_ifs
    · exact increasing
    · exact links.increasing k'
  case apart =>
    intro k' k'' p mem mem'
    rw [mem_update] at mem mem'
    split_ifs at mem mem' with here here' here'
    · rw [here, here']
    · exact absurd ((moved p).mp (Or.inr mem)) (apart k'' p here' mem')
    · exact absurd ((moved p).mp (Or.inr mem')) (apart k' p here mem)
    · exact links.apart k' k'' p mem mem'
  case free =>
    intro k' p isLoose mem
    rw [mem_update] at mem
    split_ifs at mem with here
    · exact disjoint p isLoose mem
    · exact apart k' p here mem ((moved p).mp (Or.inl isLoose))
  case live =>
    intro p
    rw [setList, isSome_of_sameItems leaves.items, links.live]
    constructor
    · intro lies
      by_cases here : p ∈ loose ∨ p ∈ addresses (lists k)
      · refine ((moved p).mpr here).imp id fun mem => ⟨k, ?_⟩
        rwa [Function.update_self]
      · rcases lies with isLoose | ⟨k', mem⟩
        · exact absurd (Or.inl isLoose) here
        · refine Or.inr ⟨k', ?_⟩
          rw [mem_update, if_neg]
          · exact mem
          · rintro rfl
            exact here (Or.inr mem)
    · rintro (isLoose | ⟨k', mem⟩)
      · exact ((moved p).mp (Or.inl isLoose)).imp id fun mem => ⟨k, mem⟩
      · rw [mem_update] at mem
        split_ifs at mem
        · exact ((moved p).mp (Or.inr mem)).imp id fun mem => ⟨k, mem⟩
        · exact Or.inr ⟨k', mem⟩

theorem Relinked.layout
    (relinked : Relinked h lists loose k info q nodes argList l touched loose')
    (layout : Layout h lists loose) :
    Layout (h.setList q nodes argList) (Function.update lists k l) loose' ∧
      ∀ other, Keeps h (h.setList q nodes argList) other := by
  have items := relinked.leaves.items
  have sameValue : ∀ p, (h.setList q nodes argList).valueAt p = h.valueAt p :=
    fun p => congrArg (Option.bind · ArgNode.value) (items p)
  refine ⟨⟨relinked.links layout.links, ?_, ?_⟩, fun other => ⟨rfl, fun q' => ?_,
    fun p _ => items p, fun _ _ _ _ => rfl⟩⟩
  · obtain ⟨owned, owner, single⟩ := layout.values
    constructor
    · exact fun p v isValue => owned p v ((sameValue p).symm.trans isValue)
    · intro v found
      obtain ⟨p, isValue⟩ := owner v found
      exact ⟨p, (sameValue p).trans isValue⟩
    · exact fun p p' v isValue isValue' => single p p' v
        ((sameValue p).symm.trans isValue) ((sameValue p').symm.trans isValue')
  · constructor
    · intro p above
      rw [← Option.not_isSome_iff_eq_none, setList, isSome_of_sameItems items,
        layout.below.args p above]
      exact Bool.false_ne_true
    · exact layout.below.values
    · intro p above
      rw [setList, Table.find_modify]
      split_ifs with here
      · rw [← here, layout.below.kernInfos p above, Option.map_none]
      · exact layout.below.kernInfos p above
  · rw [setList, Table.find_modify]
    split_ifs with here
    · rw [here, Option.map_map]
      rfl
    · rfl

end Relinked

/-- `karg_remove`: the argument is loose then. -/
theorem kargRemove_spec (layout : Layout h lists loose) (isListed : h.kernList.find k = some q)
    (handle : Nat) : ∃ h', h.kargRemove q handle =
        some ((SortedList.remove key handle (lists k)).1.map Prod.fst, h') ∧
      Layout h' (Function.update lists k (SortedList.remove key handle (lists k)).2)
        {p | p ∈ loose ∨ (SortedList.remove key handle (lists k)).1.map Prod.fst = some p} ∧
      (∀ other, Keeps h h' other) ∧ ∀ p, h'.itemAt p = h.itemAt p := by
  obtain ⟨info, isInfo, -, chain⟩ := layout.links.listed k q isListed
  obtain ⟨nodes, argList, ran, leaves⟩ := @LinkedList.remove_spec _ _ _ ArgNode.handle h.args
    info.argList (lists k) handle h.fuel (layout.length_lt isListed) chain
  have increasing := layout.links.increasing k
  have perm : (addresses (lists k)).Perm
      ((SortedList.remove key handle (lists k)).1.toList.map Prod.fst ++
        addresses (SortedList.remove key handle (lists k)).2) := by
    have mapped := (@SortedList.remove_perm _ _ _ key (lists k) handle).map Prod.fst
    rwa [List.map_append] at mapped
  have mem_toList : ∀ p, p ∈ (SortedList.remove key handle (lists k)).1.toList.map Prod.fst ↔
      (SortedList.remove key handle (lists k)).1.map Prod.fst = some p := by
    intro p
    cases (SortedList.remove key handle (lists k)).1 <;> simp [eq_comm]
  have relinked : Relinked h lists loose k info q nodes argList
      (SortedList.remove key handle (lists k)).2 (addresses (lists k))
      {p | p ∈ loose ∨ (SortedList.remove key handle (lists k)).1.map Prod.fst = some p} := by
    constructor
    case isListed => exact isListed
    case isInfo => exact isInfo
    case leaves => exact leaves
    case within => exact fun p => Or.inr
    case increasing =>
      rw [increasing.remove_snd]
      exact increasing.filter _
    case moved =>
      intro p
      rw [perm.mem_iff, List.mem_append, mem_toList, Set.mem_ofPred_eq, or_assoc]
    case disjoint =>
      rintro p (isLoose | isRemoved) mem
      · exact layout.links.free k p isLoose (perm.mem_iff.mpr (List.mem_append_right _ mem))
      · have disjoint := (List.nodup_append.mp (perm.nodup_iff.mp chain.nodup)).2.2
        exact disjoint p ((mem_toList p).mpr isRemoved) p mem rfl
  obtain ⟨layout', keeps⟩ := relinked.layout layout
  refine ⟨_, ?_, layout', keeps, leaves.items⟩
  rw [kargRemove, isInfo, Option.bind_some, ran, Option.map_some]
  rfl

/-- `karg_insert` of a loose argument, with an index that is not in the list. -/
theorem kargInsert_spec (layout : Layout h lists loose) (isListed : h.kernList.find k = some q)
    (isLoose : p ∈ loose) (isItem : h.itemAt p = some item)
    (new : ∀ e ∈ lists k, key e ≠ item.handle) : ∃ h', h.kargInsert q p = some h' ∧
      Layout h' (Function.update lists k (SortedList.insert key (p, item) (lists k)))
        (loose \ {p}) ∧ (∀ other, Keeps h h' other) ∧ h'.values = h.values := by
  obtain ⟨info, isInfo, -, chain⟩ := layout.links.listed k q isListed
  obtain ⟨node, found, rfl⟩ := Option.map_eq_some_iff.mp isItem
  have outside := layout.links.free k p isLoose
  obtain ⟨nodes, argList, ran, leaves⟩ := @LinkedList.insert_spec _ _ _ ArgNode.handle h.args
    info.argList (lists k) p h.fuel node (layout.length_lt isListed) found chain outside
  have perm : (addresses (SortedList.insert key (p, node.item) (lists k))).Perm
      (p :: addresses (lists k)) :=
    (@SortedList.insert_perm _ _ _ key (lists k) (p, node.item)).map Prod.fst
  have relinked : Relinked h lists loose k info q nodes argList
      (SortedList.insert key (p, node.item) (lists k)) (p :: addresses (lists k))
      (loose \ {p}) := by
    constructor
    case isListed => exact isListed
    case isInfo => exact isInfo
    case leaves => exact leaves
    case within =>
      intro p' mem
      rcases List.mem_cons.mp mem with rfl | mem
      · exact Or.inl isLoose
      · exact Or.inr mem
    case increasing => exact (layout.links.increasing k).insert new
    case moved =>
      intro p'
      rw [perm.mem_iff, List.mem_cons, Set.mem_sdiff, Set.mem_singleton_iff]
      constructor
      · rintro (⟨isLoose', -⟩ | rfl | mem)
        · exact Or.inl isLoose'
        · exact Or.inl isLoose
        · exact Or.inr mem
      · rintro (isLoose' | mem)
        · by_cases here : p' = p
          · exact Or.inr (Or.inl here)
          · exact Or.inl ⟨isLoose', here⟩
        · exact Or.inr (Or.inr mem)
    case disjoint =>
      rintro p' ⟨isLoose', other⟩ mem
      rcases List.mem_cons.mp (perm.mem_iff.mp mem) with here | mem
      · exact other here
      · exact layout.links.free k p' isLoose' mem
  obtain ⟨layout', keeps⟩ := relinked.layout layout
  refine ⟨_, ?_, layout', keeps, rfl⟩
  rw [kargInsert, isInfo, Option.bind_some, ran, Option.map_some]

/-- `karg_find` finds the argument with the index. -/
theorem kargFind_spec (layout : Layout h lists loose) (isListed : h.kernList.find k = some q)
    (handle : Nat) : h.kargFind q handle =
      some (((lists k).find? fun e => key e = handle).map Prod.fst) := by
  obtain ⟨info, isInfo, -, chain⟩ := layout.links.listed k q isListed
  rw [kargFind, isInfo, Option.bind_some, ← (layout.links.increasing k).find_eq]
  exact LinkedList.find_spec (layout.length_lt isListed) chain

end ArgHeap

end Clarmor
