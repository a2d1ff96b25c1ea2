import Clarmor.Library.Loop
import Clarmor.Launch.Arguments
import Clarmor.Wrapper.Kernels

/-!
# The arrays for the checkers

`verifyBufferInBounds` goes through the arguments of the kernel that ran twice:
it counts the buffers and the images, allocates one array for the buffers and the
regions of shared virtual memory and one for the images, and fills them.  Only the
first use of a repeated memory object counts, and an SVM pointer among the
arguments stands for all regions that are not the detector's own.

The duplicates are those of the kernel that the application launched; the
arguments may be those of its clone.
-/

namespace Clarmor

open Word

/-- The counters of the first pass over the arguments. -/
structure CheckCounts where
  numBuffs : Nat
  numImgs : Nat
  hasSVM : Bool
deriving DecidableEq, Repr

/-- The arrays, and how much of them is filled.  An array that was not allocated
is empty. -/
structure CheckArrays where
  bufferPtrs : List Handle
  imagePtrs : List Handle
  numBuffs : Nat
  numSVM : Nat
  numImgs : Nat
deriving DecidableEq, Repr

/-- An assignment to an element of an array; outside it is a fault. -/
def setAt (l : List Handle) (i : Nat) (v : Handle) : Option (List Handle) :=
  if i < l.length then some (l.set i v) else none

namespace KernelState

variable (s : KernelState) (args : OrderedMap Nat ArgEntry) (dupe : List Nat)

/-- The memory object behind argument `i`, when it is a first use. -/
def firstObject (i : Nat) : Option Address :=
  if dupe[i]? = some i then (args.find i).bind ArgEntry.buffer else none

/-- The first pass at argument `i`.  A description that was freed is a fault. -/
def countArg (i : Nat) (c : CheckCounts) : Option CheckCounts :=
  match firstObject args dupe i with
  | some p =>
      (s.memobjs.find p).map fun m1 =>
        if m1.isImage then { c with numImgs := u32 (c.numImgs + 1) }
        else { c with numBuffs := u32 (c.numBuffs + 1) }
  | none =>
      if dupe[i]? = some i ∧ (args.find i).any fun arg => arg.svmBuffer.isSome then
        some { c with hasSVM := true }
      else some c

/-- The regions that an iteration with `cl_svm_mem_next` from a pointer on finds. -/
def svmWalk : Nat → Nat → List SvmObj
  | 0, _ => []
  | fuel + 1, handle =>
      match (s.clSvmMemAlloc.next handle).bind fun e => s.svmobjs.find e.2 with
      | none => []
      | some svmIter => svmIter :: svmWalk fuel svmIter.handle

/-- All regions. -/
def svmRegions : List SvmObj := s.svmWalk s.clSvmMemAlloc.entries.length NULL

/-- The number of regions that are not the detector's. -/
def countSvm : Nat :=
  s.svmRegions.foldl (fun n m => if m.detectorInternalBuffer then n else u32 (n + 1)) 0

/-- The second pass at argument `i`. -/
def fillArg (i : Nat) (a : CheckArrays) : Option CheckArrays :=
  match firstObject args dupe i with
  | some p =>
      (s.memobjs.find p).bind fun m1 =>
        if m1.isImage then
          if a.imagePtrs ≠ [] then
            (setAt a.imagePtrs a.numImgs m1.handle).map fun ptrs =>
              { a with imagePtrs := ptrs, numImgs := u32 (a.numImgs + 1) }
          else some a
        else if a.bufferPtrs ≠ [] then
          (setAt a.bufferPtrs a.numBuffs m1.handle).map fun ptrs =>
            { a with bufferPtrs := ptrs, numBuffs := u32 (a.numBuffs + 1) }
        else some a
  | none => some a

/-- The regions behind the buffers. -/
def fillSvm (totalBuffs totalSVM : Nat) : List SvmObj → CheckArrays → Option CheckArrays
  | [], a => some a
  | svmIter :: rest, a =>
      if a.bufferPtrs ≠ [] ∧ a.numSVM < totalSVM then
        if svmIter.detectorInternalBuffer then fillSvm totalBuffs totalSVM rest a
        else
          (setAt a.bufferPtrs (u32 (totalBuffs + a.numSVM)) svmIter.handle).bind fun ptrs =>
          fillSvm totalBuffs totalSVM rest
            { a with bufferPtrs := ptrs, numSVM := u32 (a.numSVM + 1) }
      else some a

/-- The first part of `verifyBufferInBounds`: the counts. -/
def checkCounts (nargs : Nat) : Option CheckCounts :=
  Loop.loop nargs (s.countArg args dupe) ⟨0, 0, false⟩

/-- `verifyBufferInBounds` up to the choice of a checker. -/
def checkArrays (nargs : Nat) : Option CheckArrays :=
  (s.checkCounts args dupe nargs).bind fun c =>
  let totalSVM := if c.hasSVM then s.countSvm else 0
  let arrays : CheckArrays :=
    ⟨List.replicate (u32 (c.numBuffs + totalSVM)) NULL, List.replicate c.numImgs NULL, 0, 0, 0⟩
  (Loop.loop nargs (s.fillArg args dupe) arrays).bind fun a =>
  if c.hasSVM then fillSvm c.numBuffs totalSVM s.svmRegions a
  else some a

/-! ## What the passes have in common -/

/-- The memory objects that count, by their first uses among the first arguments. -/
def firstObjects (n : Nat) : List MemObj :=
  (List.range n).filterMap fun i => (firstObject args dupe i).bind s.memobjs.find

/-- The handles of those that are buffers. -/
def bufferHandles (n : Nat) : List Handle :=
  ((s.firstObjects args dupe n).filter fun m => !m.isImage).map MemObj.handle

/-- The handles of those that are images. -/
def imageHandles (n : Nat) : List Handle :=
  ((s.firstObjects args dupe n).filter MemObj.isImage).map MemObj.handle

/-- The regions that the application may have reached. -/
def svmHandles : List Handle :=
  (s.svmRegions.filter fun m => !m.detectorInternalBuffer).map SvmObj.handle

/-- An SVM pointer is among the first arguments. -/
def PassesSvm (n : Nat) : Prop :=
  ∃ i < n, firstObject args dupe i = none ∧ dupe[i]? = some i ∧
    (args.find i).any fun arg => arg.svmBuffer.isSome

instance (n : Nat) : Decidable (PassesSvm args dupe n) :=
  inferInstanceAs (Decidable (∃ i < n, _ ∧ _))

variable {s args dupe} {nargs i n : Nat}

theorem setAt_first {done : List Handle} {v : Handle} :
    setAt (done ++ List.replicate (n + 1) NULL) done.length v =
      some ((done ++ [v]) ++ List.replicate n NULL) := by
  rw [setAt, if_pos (by simp), List.set_append_right _ _ (le_refl _), Nat.sub_self,
    List.replicate_succ, List.set_cons_zero, List.append_assoc, List.singleton_append]

theorem firstObjects_succ : s.firstObjects args dupe (n + 1) =
    s.firstObjects args dupe n ++
      ((firstObject args dupe n).bind s.memobjs.find).toList := by
  rw [firstObjects, List.range_succ, List.filterMap_append]
  cases found : (firstObject args dupe n).bind s.memobjs.find with
  | none => simp [firstObjects, found]
  | some m => simp [firstObjects, found]

theorem bufferHandles_succ {p : Address} {m : MemObj} (first : firstObject args dupe n = some p)
    (found : s.memobjs.find p = some m) : s.bufferHandles args dupe (n + 1) =
      if m.isImage then s.bufferHandles args dupe n
      else s.bufferHandles args dupe n ++ [m.handle] := by
  rw [bufferHandles, firstObjects_succ, first, Option.bind_some, found, Option.toList_some,
    List.filter_append, List.map_append]
  cases image : m.isImage with
  | true => simp [bufferHandles, image]
  | false => simp [bufferHandles, image]

theorem imageHandles_succ {p : Address} {m : MemObj} (first : firstObject args dupe n = some p)
    (found : s.memobjs.find p = some m) : s.imageHandles args dupe (n + 1) =
      if m.isImage then s.imageHandles args dupe n ++ [m.handle]
      else s.imageHandles args dupe n := by
  rw [imageHandles, firstObjects_succ, first, Option.bind_some, found, Option.toList_some,
    List.filter_append, List.map_append]
  cases image : m.isImage with
  | true => simp [imageHandles, image]
  | false => simp [imageHandles, image]

theorem handles_succ_of_none (first : firstObject args dupe n = none) :
    s.bufferHandles args dupe (n + 1) = s.bufferHandles args dupe n ∧
      s.imageHandles args dupe (n + 1) = s.imageHandles args dupe n := by
  have same : s.firstObjects args dupe (n + 1) = s.firstObjects args dupe n := by
    rw [firstObjects_succ, first]
    simp
  rw [bufferHandles, imageHandles, same]
  exact ⟨rfl, rfl⟩

theorem handles_length_le : (s.bufferHandles args dupe n).length ≤ n ∧
    (s.imageHandles args dupe n).length ≤ n := by
  have objects : (s.firstObjects args dupe n).length ≤ n := by
    have filtered := List.length_filterMap_le
      (fun i => (firstObject args dupe i).bind s.memobjs.find) (List.range n)
    rwa [List.length_range] at filtered
  rw [bufferHandles, imageHandles, List.length_map, List.length_map]
  exact ⟨(List.length_filter_le _ _).trans objects, (List.length_filter_le _ _).trans objects⟩

/-- The handles among the first arguments stay at the front. -/
theorem bufferHandles_append (le : i ≤ n) :
    ∃ rest, s.bufferHandles args dupe n = s.bufferHandles args dupe i ++ rest := by
  obtain ⟨k, rfl⟩ := Nat.exists_eq_add_of_le le
  rw [bufferHandles, firstObjects, List.range_add, List.filterMap_append, List.filter_append,
    List.map_append]
  exact ⟨_, rfl⟩

theorem imageHandles_append (le : i ≤ n) :
    ∃ rest, s.imageHandles args dupe n = s.imageHandles args dupe i ++ rest := by
  obtain ⟨k, rfl⟩ := Nat.exists_eq_add_of_le le
  rw [imageHandles, firstObjects, List.range_add, List.filterMap_append, List.filter_append,
    List.map_append]
  exact ⟨_, rfl⟩

/-! ## The counting pass -/

/-- The descriptions behind the first uses are there. -/
def FirstLive (s : KernelState) (args : OrderedMap Nat ArgEntry) (dupe : List Nat) : Prop :=
  ∀ i p, firstObject args dupe i = some p → (s.memobjs.find p).isSome

/-- The counters after some arguments. -/
structure Counts (s : KernelState) (args : OrderedMap Nat ArgEntry) (dupe : List Nat) (i : Nat)
    (c : CheckCounts) : Prop where
  buffs : c.numBuffs = (s.bufferHandles args dupe i).length
  imgs : c.numImgs = (s.imageHandles args dupe i).length
  svm : c.hasSVM = true ↔ PassesSvm args dupe i

theorem passesSvm_succ : PassesSvm args dupe (i + 1) ↔ PassesSvm args dupe i ∨
    firstObject args dupe i = none ∧ dupe[i]? = some i ∧
      (args.find i).any fun arg => arg.svmBuffer.isSome := by
  constructor
  · rintro ⟨j, jLt, passes⟩
    rcases Nat.lt_succ_iff_lt_or_eq.mp jLt with earlier | rfl
    · exact Or.inl ⟨j, earlier, passes⟩
    · exact Or.inr passes
  · rintro (⟨j, jLt, passes⟩ | passes)
    · exact ⟨j, Nat.lt_succ_of_lt jLt, passes⟩
    · exact ⟨i, Nat.lt_succ_self i, passes⟩

theorem counts_step {c c' : CheckCounts} (iLt : i + 1 < 4294967296)
    (counts : Counts s args dupe i c) (counted : s.countArg args dupe i c = some c') :
    Counts s args dupe (i + 1) c' := by
  obtain ⟨buffs, imgs, svm⟩ := counts
  have lengths := @handles_length_le s args dupe i
  rw [countArg] at counted
  cases first : firstObject args dupe i with
  | some p =>
      rw [first] at counted
      obtain ⟨m, found, rfl⟩ := Option.map_eq_some_iff.mp counted
      have notSvm : PassesSvm args dupe (i + 1) ↔ PassesSvm args dupe i := by
        rw [passesSvm_succ, first]
        simp
      cases image : m.isImage with
      | true =>
          rw [if_pos rfl]
          constructor
          case buffs => rw [bufferHandles_succ first found, image, if_pos rfl, buffs]
          case imgs =>
            rw [imageHandles_succ first found, image, if_pos rfl, imgs, List.length_append,
              List.length_singleton, u32_of_lt (by omega)]
          case svm => exact svm.trans notSvm.symm
      | false =>
          rw [if_neg Bool.false_ne_true]
          constructor
          case buffs =>
            rw [bufferHandles_succ first found, image, if_neg Bool.false_ne_true, buffs,
              List.length_append, List.length_singleton, u32_of_lt (by omega)]
          case imgs =>
            rw [imageHandles_succ first found, image, if_neg Bool.false_ne_true, imgs]
          case svm => exact svm.trans notSvm.symm
  | none =>
      obtain ⟨sameBuffs, sameImgs⟩ := @handles_succ_of_none s args dupe i first
      rw [first] at counted
      dsimp only at counted
      split_ifs at counted with passes
      · obtain rfl := Option.some.inj counted
        refine ⟨sameBuffs ▸ buffs, sameImgs ▸ imgs, ?_⟩
        rw [passesSvm_succ]
        simp [first, passes]
      · obtain rfl := Option.some.inj counted
        refine ⟨sameBuffs ▸ buffs, sameImgs ▸ imgs, ?_⟩
        rw [passesSvm_succ, svm]
        simp [passes]

/-- The regions are counted in 32 bits. -/
theorem countSvm_eq : s.countSvm = u32 s.svmHandles.length := by
  have folded : ∀ (l : List SvmObj) (n : Nat),
      l.foldl (fun n m => if m.detectorInternalBuffer then n else u32 (n + 1)) (u32 n) =
        u32 (n + (l.filter fun m => !m.detectorInternalBuffer).length) := by
    intro l
    induction l with
    | nil => simp
    | cons m l ih =>
        intro n
        cases internal : m.detectorInternalBuffer with
        | true => simpa [internal] using ih n
        | false =>
            have next := ih (n + 1)
            simp only [List.foldl_cons, internal, if_neg Bool.false_ne_true, u32_u32_add]
            rw [next]
            simp [internal, Nat.add_assoc, Nat.add_comm 1]
  have whole := folded s.svmRegions 0
  rw [Nat.zero_add] at whole
  rw [countSvm, svmHandles, List.length_map]
  exact whole

/-- What the counting pass counts. -/
theorem checkCounts_spec {c : CheckCounts} (few : nargs < 4294967296)
    (counted : s.checkCounts args dupe nargs = some c) : Counts s args dupe nargs c := by
  apply Loop.loop_invariant (Counts s args dupe) counted
  · refine ⟨rfl, rfl, ?_⟩
    simp [PassesSvm]
  · intro i iLt c c' counts step
    exact counts_step (by omega) counts step

/-- No description is missing when the pass comes to it. -/
theorem checkCounts_isSome (live : FirstLive s args dupe) :
    ∃ c, s.checkCounts args dupe nargs = some c := by
  obtain ⟨c, counted, -⟩ := Loop.loop_total (s.countArg args dupe) (fun _ _ => True)
    (s := ⟨0, 0, false⟩) (n := nargs) trivial fun i _ c _ => by
      rw [countArg]
      cases first : firstObject args dupe i with
      | some p =>
          obtain ⟨m, found⟩ := Option.isSome_iff_exists.mp (live i p first)
          dsimp only
          rw [found]
          exact ⟨_, rfl, trivial⟩
      | none =>
          dsimp only
          split_ifs
          · exact ⟨_, rfl, trivial⟩
          · exact ⟨_, rfl, trivial⟩
  exact ⟨c, counted⟩

end KernelState

end Clarmor
