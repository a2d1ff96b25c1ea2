import Clarmor.Launch.CheckArrays

/-!
# How the arrays are filled

The second pass over the arguments writes the elements that the first one counted,
and the regions of shared virtual memory come behind the buffers.  The counters and
the length of the array are 32 bits wide, so that the passes agree up to that width.
-/

namespace Clarmor.KernelState

open Word

variable {s : KernelState} {args : OrderedMap Nat ArgEntry} {dupe : List Nat} {nargs i : Nat}

/-- The regions that are checked: all that the application may have reached, when an
SVM pointer is among the arguments. -/
def svmChecked (s : KernelState) (args : OrderedMap Nat ArgEntry) (dupe : List Nat) (n : Nat) :
    List Handle :=
  if PassesSvm args dupe n then s.svmHandles else []

/-! ## The regions -/

theorem svmWalk_eq (coherent : s.Coherent) (fuel handle : Nat) :
    s.svmWalk fuel handle =
      (s.clSvmMemAlloc.walk fuel handle).filterMap fun e => s.svmobjs.find e.2 := by
  induction fuel generalizing handle with
  | zero => rfl
  | succ fuel ih =>
      rw [svmWalk, OrderedMap.walk]
      cases found : s.clSvmMemAlloc.next handle with
      | none => rfl
      | some e =>
          have listed : s.clSvmMemAlloc.find e.1 = some e.2 :=
            OrderedMap.find_eq_some_iff.mpr (List.mem_of_find?_eq_some found)
          obtain ⟨m, isRegion, same⟩ := coherent.svm e.1 e.2 listed
          rw [Option.bind_some, isRegion]
          dsimp only
          rw [List.filterMap_cons, isRegion, same, ih]

/-- The iteration finds the regions of the table. -/
theorem svmRegions_eq (coherent : s.Coherent) (noNull : s.clSvmMemAlloc.find NULL = none) :
    s.svmRegions = s.clSvmMemAlloc.entries.filterMap fun e => s.svmobjs.find e.2 := by
  have above : s.clSvmMemAlloc.above NULL = s.clSvmMemAlloc.entries := by
    refine List.filter_eq_self.mpr fun e mem => ?_
    have ne : e.1 ≠ NULL := by
      intro null
      have listed := OrderedMap.find_eq_some_iff.mpr (show (e.1, e.2) ∈ _ from mem)
      rw [null, noNull] at listed
      contradiction
    exact decide_eq_true (Nat.pos_of_ne_zero ne)
  rw [svmRegions, svmWalk_eq coherent,
    OrderedMap.walk_eq_above _ (OrderedMap.above_length_le _ _), above]

/-- A region is found when its description is in the table. -/
theorem mem_svmRegions_iff (coherent : s.Coherent) (noNull : s.clSvmMemAlloc.find NULL = none)
    {m : SvmObj} : m ∈ s.svmRegions ↔
      ∃ p, s.clSvmMemAlloc.find m.handle = some p ∧ s.svmobjs.find p = some m := by
  rw [svmRegions_eq coherent noNull, List.mem_filterMap]
  constructor
  · rintro ⟨e, mem, isRegion⟩
    have listed := OrderedMap.find_eq_some_iff.mpr (show (e.1, e.2) ∈ _ from mem)
    obtain ⟨m', isRegion', same⟩ := coherent.svm e.1 e.2 listed
    rw [isRegion, Option.some.injEq] at isRegion'
    rw [isRegion', same]
    exact ⟨e.2, listed, by rw [isRegion, isRegion']⟩
  · rintro ⟨p, listed, isRegion⟩
    exact ⟨(m.handle, p), OrderedMap.find_eq_some_iff.mp listed, isRegion⟩

/-- No handle is found twice. -/
theorem svmRegions_nodup (coherent : s.Coherent) (noNull : s.clSvmMemAlloc.find NULL = none) :
    (s.svmRegions.map SvmObj.handle).Nodup := by
  have handles : s.svmRegions.map SvmObj.handle = s.clSvmMemAlloc.entries.map Prod.fst := by
    rw [svmRegions_eq coherent noNull, List.map_filterMap]
    have each : ∀ e ∈ s.clSvmMemAlloc.entries,
        (s.svmobjs.find e.2).map SvmObj.handle = some e.1 := by
      intro e mem
      obtain ⟨m, isRegion, same⟩ :=
        coherent.svm e.1 e.2 (OrderedMap.find_eq_some_iff.mpr mem)
      rw [isRegion, Option.map_some, same]
    rw [List.filterMap_congr each]
    exact congrFun (@List.filterMap_eq_map _ _ Prod.fst) _
  rw [handles]
  exact s.clSvmMemAlloc.keys_nodup

/-! ## The filling pass -/

/-- The handles that an array of some length takes; there is no array of length `0`. -/
def placed (room : Nat) (handles : List Handle) : List Handle := if room = 0 then [] else handles

/-- The arrays when the pass has come to argument `i`: there is room for `room`
buffers and regions and `imgs` images. -/
structure Filled (s : KernelState) (args : OrderedMap Nat ArgEntry) (dupe : List Nat)
    (room imgs i : Nat) (a : CheckArrays) : Prop where
  bufferPtrs : a.bufferPtrs = placed room (s.bufferHandles args dupe i) ++
    List.replicate (room - (placed room (s.bufferHandles args dupe i)).length) NULL
  imagePtrs : a.imagePtrs = s.imageHandles args dupe i ++
    List.replicate (imgs - (s.imageHandles args dupe i).length) NULL
  numBuffs : a.numBuffs = (placed room (s.bufferHandles args dupe i)).length
  numImgs : a.numImgs = (s.imageHandles args dupe i).length
  numSVM : a.numSVM = 0

/-- The next element of an array that has room for it. -/
theorem setAt_next {done : List Handle} {room : Nat} {v : Handle}
    (fits : done.length + 1 ≤ room) :
    setAt (done ++ List.replicate (room - done.length) NULL) done.length v =
      some ((done ++ [v]) ++ List.replicate (room - (done ++ [v]).length) NULL) := by
  have split : room - done.length = room - (done.length + 1) + 1 := by omega
  rw [split, setAt_first, List.length_append, List.length_singleton]

theorem append_replicate_ne_nil {done : List Handle} {room : Nat} (fits : done.length < room) :
    done ++ List.replicate (room - done.length) NULL ≠ [] := by
  intro empty
  have length := congrArg List.length empty
  simp only [List.length_append, List.length_replicate, List.length_nil] at length
  omega

/-- An argument whose object there is room for, or no array at all. -/
theorem Filled.step {room imgs : Nat} {a : CheckArrays} (live : FirstLive s args dupe)
    (iLt : i + 1 < 4294967296) (filled : Filled s args dupe room imgs i a)
    (fits : room = 0 ∨ (s.bufferHandles args dupe (i + 1)).length ≤ room)
    (imgsFit : (s.imageHandles args dupe (i + 1)).length ≤ imgs) :
    ∃ a', s.fillArg args dupe i a = some a' ∧ Filled s args dupe room imgs (i + 1) a' := by
  obtain ⟨bufferPtrs, imagePtrs, numBuffs, numImgs, numSVM⟩ := filled
  have lengths := @handles_length_le s args dupe i
  rw [fillArg]
  cases first : firstObject args dupe i with
  | none =>
      obtain ⟨sameBuffs, sameImgs⟩ := @handles_succ_of_none s args dupe i first
      exact ⟨a, rfl, by rw [sameBuffs]; exact bufferPtrs, by rw [sameImgs]; exact imagePtrs,
        by rw [sameBuffs]; exact numBuffs, by rw [sameImgs]; exact numImgs, numSVM⟩
  | some p =>
      obtain ⟨m, found⟩ := Option.isSome_iff_exists.mp (live i p first)
      have buffers := bufferHandles_succ first found
      have images := imageHandles_succ first found
      dsimp only
      rw [found, Option.bind_some]
      cases image : m.isImage with
      | true =>
          rw [image, if_pos rfl] at buffers images
          rw [images, List.length_append, List.length_singleton] at imgsFit
          have nonempty := append_replicate_ne_nil (Nat.lt_of_succ_le imgsFit)
          rw [if_pos rfl, imagePtrs, if_pos nonempty, numImgs, setAt_next imgsFit]
          refine ⟨_, rfl, ?_⟩
          constructor <;> simp only [buffers, images]
          case bufferPtrs => exact bufferPtrs
          case numBuffs => exact numBuffs
          case numImgs =>
            rw [List.length_append, List.length_singleton, u32_of_lt (by omega)]
          case numSVM => exact numSVM
      | false =>
          rw [image, if_neg Bool.false_ne_true] at buffers images
          rw [if_neg Bool.false_ne_true]
          by_cases noArray : room = 0
          · -- without an array the buffer is skipped
            subst noArray
            have empty : a.bufferPtrs = [] := by simpa [placed] using bufferPtrs
            rw [if_neg (not_not_intro empty)]
            exact ⟨a, rfl, by simpa [placed] using bufferPtrs, by rw [images]; exact imagePtrs,
              by simpa [placed] using numBuffs, by rw [images]; exact numImgs, numSVM⟩
          · replace fits := fits.resolve_left noArray
            rw [buffers, List.length_append, List.length_singleton] at fits
            have all : ∀ handles, placed room handles = handles := fun _ => if_neg noArray
            rw [all] at bufferPtrs numBuffs
            have nonempty := append_replicate_ne_nil (Nat.lt_of_succ_le fits)
            rw [bufferPtrs, if_pos nonempty, numBuffs, setAt_next fits]
            refine ⟨_, rfl, ?_⟩
            constructor <;> simp only [buffers, images, all]
            case imagePtrs => exact imagePtrs
            case numBuffs =>
              rw [List.length_append, List.length_singleton, u32_of_lt (by omega)]
            case numImgs => exact numImgs
            case numSVM => exact numSVM

/-- A buffer behind the end of the array is a fault. -/
theorem Filled.outside {room imgs : Nat} {a : CheckArrays} (live : FirstLive s args dupe)
    (array : room ≠ 0) (filled : Filled s args dupe room imgs i a)
    (full : (s.bufferHandles args dupe i).length ≤ room)
    (exceeds : room < (s.bufferHandles args dupe (i + 1)).length) :
    s.fillArg args dupe i a = none := by
  rw [fillArg]
  cases first : firstObject args dupe i with
  | none =>
      rw [(@handles_succ_of_none s args dupe i first).1] at exceeds
      omega
  | some p =>
      obtain ⟨m, found⟩ := Option.isSome_iff_exists.mp (live i p first)
      have buffers := bufferHandles_succ first found
      dsimp only
      rw [found, Option.bind_some]
      cases image : m.isImage with
      | true =>
          rw [image, if_pos rfl] at buffers
          rw [buffers] at exceeds
          omega
      | false =>
          rw [image, if_neg Bool.false_ne_true] at buffers
          rw [buffers, List.length_append, List.length_singleton] at exceeds
          have all : ∀ handles, placed room handles = handles := fun _ => if_neg array
          have ptrs := filled.bufferPtrs
          have numBuffs := filled.numBuffs
          rw [all] at ptrs numBuffs
          have length : a.bufferPtrs.length = room := by
            rw [ptrs, List.length_append, List.length_replicate]
            omega
          have nonempty : a.bufferPtrs ≠ [] := by
            intro empty
            rw [empty] at length
            exact array length.symm
          rw [if_neg Bool.false_ne_true, if_pos nonempty, setAt,
            if_neg (by rw [length, numBuffs]; omega)]
          rfl

/-- The regions fill the elements that are left. -/
theorem fillSvm_eq {buffs done : List Handle} {left : Nat} {rest : List SvmObj} {a : CheckArrays}
    (ptrs : a.bufferPtrs = (buffs ++ done) ++ List.replicate left NULL)
    (numSVM : a.numSVM = done.length)
    (small : buffs.length + (done.length + left) < 4294967296)
    (enough : left ≤ ((rest.filter fun m => !m.detectorInternalBuffer).map SvmObj.handle).length) :
    fillSvm buffs.length (done.length + left) rest a = some { a with
      bufferPtrs := (buffs ++ done) ++
        ((rest.filter fun m => !m.detectorInternalBuffer).map SvmObj.handle).take left
      numSVM := done.length + left } := by
  induction rest generalizing done left a with
  | nil =>
      obtain rfl : left = 0 := by simpa using enough
      rw [fillSvm]
      simp only [List.replicate_zero, List.append_nil] at ptrs
      simp [← ptrs, ← numSVM]
  | cons m rest ih =>
      cases left with
      | zero =>
          have full : ¬ (a.bufferPtrs ≠ [] ∧ a.numSVM < done.length + 0) := by
            rw [numSVM]
            omega
          rw [fillSvm, if_neg full]
          simp only [List.replicate_zero, List.append_nil] at ptrs
          simp [← ptrs, ← numSVM]
      | succ left =>
          have room : a.bufferPtrs ≠ [] ∧ a.numSVM < done.length + (left + 1) := by
            refine ⟨fun empty => ?_, by omega⟩
            rw [ptrs] at empty
            simp [List.replicate_succ] at empty
          rw [fillSvm, if_pos room]
          cases internal : m.detectorInternalBuffer with
          | true =>
              have filtered : ((m :: rest).filter fun m => !m.detectorInternalBuffer) =
                  rest.filter fun m => !m.detectorInternalBuffer := by simp [internal]
              rw [filtered] at enough ⊢
              exact ih ptrs numSVM small enough
          | false =>
              have filtered : ((m :: rest).filter fun m => !m.detectorInternalBuffer) =
                  m :: rest.filter fun m => !m.detectorInternalBuffer := by simp [internal]
              rw [filtered, List.map_cons, List.length_cons] at enough
              rw [filtered, List.map_cons, List.take_succ_cons]
              have index : u32 (buffs.length + a.numSVM) = (buffs ++ done).length := by
                rw [List.length_append, numSVM, u32_of_lt (by omega)]
              have next := @ih (done ++ [m.handle]) left { a with
                  bufferPtrs := (buffs ++ (done ++ [m.handle])) ++ List.replicate left NULL
                  numSVM := done.length + 1 } rfl (by simp) (by simp; omega) (by omega)
              rw [if_neg Bool.false_ne_true, index, ptrs, setAt_first, Option.bind_some, numSVM,
                u32_of_lt (show done.length + 1 < 4294967296 by omega)]
              have total : done.length + (left + 1) = (done ++ [m.handle]).length + left := by
                rw [List.length_append, List.length_singleton]
                omega
              rw [total, List.append_assoc buffs, next]
              simp

/-! ## The whole function -/

/-- The number of elements of the array for buffers and regions, before it is cut to
32 bits. -/
def arrayLength (s : KernelState) (args : OrderedMap Nat ArgEntry) (dupe : List Nat) (n : Nat) :
    Nat :=
  (s.bufferHandles args dupe n).length + u32 (s.svmChecked args dupe n).length

/-- The regions that are counted, when there is an array for them. -/
def svmCounted (s : KernelState) (args : OrderedMap Nat ArgEntry) (dupe : List Nat) (n : Nat) :
    List Handle :=
  placed (u32 (s.arrayLength args dupe n))
    ((s.svmChecked args dupe n).take (u32 (s.svmChecked args dupe n).length))

/-- What `verifyBufferInBounds` hands to a checker. -/
def arraysFor (s : KernelState) (args : OrderedMap Nat ArgEntry) (dupe : List Nat) (n : Nat) :
    CheckArrays :=
  let buffers := placed (u32 (s.arrayLength args dupe n)) (s.bufferHandles args dupe n)
  ⟨buffers ++ s.svmCounted args dupe n, s.imageHandles args dupe n, buffers.length,
    (s.svmCounted args dupe n).length, (s.imageHandles args dupe n).length⟩

theorem filled_start {room imgs : Nat} : Filled s args dupe room imgs 0
    ⟨List.replicate room NULL, List.replicate imgs NULL, 0, 0, 0⟩ := by
  constructor <;> simp [bufferHandles, imageHandles, firstObjects, placed]

/-- The filling pass when there is room for all buffers, or no array. -/
theorem fillArgs_eq {room imgs : Nat} (few : nargs < 4294967296) (live : FirstLive s args dupe)
    (fits : room = 0 ∨ (s.bufferHandles args dupe nargs).length ≤ room)
    (imgsFit : (s.imageHandles args dupe nargs).length ≤ imgs) :
    ∃ a, Loop.loop nargs (s.fillArg args dupe)
        ⟨List.replicate room NULL, List.replicate imgs NULL, 0, 0, 0⟩ = some a ∧
      Filled s args dupe room imgs nargs a := by
  apply Loop.loop_total (s.fillArg args dupe) (Filled s args dupe room imgs) filled_start
  intro i iLt a filled
  obtain ⟨buffers, isPrefix⟩ := @bufferHandles_append s args dupe (i + 1) nargs iLt
  obtain ⟨images, isPrefix'⟩ := @imageHandles_append s args dupe (i + 1) nargs iLt
  rw [isPrefix, List.length_append] at fits
  rw [isPrefix', List.length_append] at imgsFit
  exact filled.step live (by omega) (by omega) (by omega)

/-- The filling pass when some buffer is behind the end of the array. -/
theorem fillArgs_eq_none {room imgs : Nat} (few : nargs < 4294967296)
    (live : FirstLive s args dupe) (array : room ≠ 0)
    (exceeds : room < (s.bufferHandles args dupe nargs).length)
    (imgsFit : (s.imageHandles args dupe nargs).length ≤ imgs) :
    Loop.loop nargs (s.fillArg args dupe)
      ⟨List.replicate room NULL, List.replicate imgs NULL, 0, 0, 0⟩ = none := by
  have some_exceeds : ∃ i, room < (s.bufferHandles args dupe (i + 1)).length := by
    cases nargs with
    | zero => simp [bufferHandles, firstObjects] at exceeds
    | succ n => exact ⟨n, exceeds⟩
  have first := Nat.find_spec some_exceeds
  have before := fun j (jLt : j < Nat.find some_exceeds) => Nat.find_min some_exceeds jLt
  have inside : Nat.find some_exceeds < nargs := by
    by_contra outside
    obtain ⟨n, rfl⟩ : ∃ n, nargs = n + 1 := Nat.exists_eq_succ_of_ne_zero (by
      rintro rfl
      simp [bufferHandles, firstObjects] at exceeds)
    exact before n (by omega) exceeds
  have images : ∀ i ≤ nargs, (s.imageHandles args dupe i).length ≤ imgs := by
    intro i le
    obtain ⟨rest, isPrefix⟩ := @imageHandles_append s args dupe i nargs le
    rw [isPrefix, List.length_append] at imgsFit
    omega
  apply Loop.loop_eq_none (Filled s args dupe room imgs) inside filled_start
  · intro j jLt r r' filled stepped
    have fits := not_lt.mp (before j jLt)
    obtain ⟨a', stepped', filled'⟩ :=
      filled.step live (by omega) (Or.inr fits) (images (j + 1) (by omega))
    rw [stepped, Option.some.injEq] at stepped'
    exact stepped' ▸ filled'
  · intro r filled
    refine filled.outside live array ?_ first
    cases least : Nat.find some_exceeds with
    | zero => simp [bufferHandles, firstObjects]
    | succ j => exact not_lt.mp (before j (by omega))

/-- The counters of a launch. -/
theorem counts_eq {c : CheckCounts} (counts : Counts s args dupe nargs c) :
    (if c.hasSVM then s.countSvm else 0) = u32 (s.svmChecked args dupe nargs).length := by
  rw [svmChecked, countSvm_eq]
  by_cases passes : PassesSvm args dupe nargs
  · rw [if_pos (counts.svm.mpr passes), if_pos passes]
  · rw [if_neg (counts.svm.not.mpr passes), if_neg passes]
    rfl

/-- The first pass decides the lengths of the arrays. -/
theorem checkArrays_unfold (few : nargs < 4294967296) (live : FirstLive s args dupe) :
    s.checkArrays args dupe nargs = (Loop.loop nargs (s.fillArg args dupe)
      ⟨List.replicate (u32 (s.arrayLength args dupe nargs)) NULL,
        List.replicate (s.imageHandles args dupe nargs).length NULL, 0, 0, 0⟩).bind fun a =>
      if PassesSvm args dupe nargs then
        fillSvm (s.bufferHandles args dupe nargs).length
          (u32 (s.svmChecked args dupe nargs).length) s.svmRegions a
      else some a := by
  obtain ⟨c, counted⟩ : ∃ c, s.checkCounts args dupe nargs = some c :=
    checkCounts_isSome live
  have counts := checkCounts_spec few counted
  rw [checkArrays, counted, Option.bind_some]
  dsimp only
  rw [counts_eq counts, counts.buffs, counts.imgs, arrayLength]
  by_cases passes : PassesSvm args dupe nargs
  · simp only [counts.svm.mpr passes, passes, if_true]
  · have absent : c.hasSVM = false := by simpa using counts.svm.not.mpr passes
    simp only [absent, passes, Bool.false_eq_true, if_false]

/-- The arrays of a pass that wrote no region. -/
theorem Filled.arrays_eq {a : CheckArrays}
    (filled : Filled s args dupe (u32 (s.arrayLength args dupe nargs))
      (s.imageHandles args dupe nargs).length nargs a)
    (ptrs : a.bufferPtrs = placed (u32 (s.arrayLength args dupe nargs))
      (s.bufferHandles args dupe nargs))
    (counted : s.svmCounted args dupe nargs = []) : a = s.arraysFor args dupe nargs := by
  have images : a.imagePtrs = s.imageHandles args dupe nargs := by simpa using filled.imagePtrs
  rw [arraysFor, counted]
  obtain ⟨bufferPtrs, imagePtrs, numBuffs, numSVM, numImgs⟩ := a
  obtain rfl := ptrs
  obtain rfl := images
  obtain rfl := filled.numBuffs
  obtain rfl := filled.numSVM
  obtain rfl := filled.numImgs
  simp

/-- The regions behind the buffers. -/
theorem fillSvm_filled {a : CheckArrays} (passes : PassesSvm args dupe nargs)
    (room : s.arrayLength args dupe nargs ≤ 4294967296)
    (filled : Filled s args dupe (u32 (s.arrayLength args dupe nargs))
      (s.imageHandles args dupe nargs).length nargs a) :
    fillSvm (s.bufferHandles args dupe nargs).length (u32 (s.svmChecked args dupe nargs).length)
      s.svmRegions a = some (s.arraysFor args dupe nargs) := by
  have checked : s.svmChecked args dupe nargs = s.svmHandles := if_pos passes
  by_cases noArray : u32 (s.arrayLength args dupe nargs) = 0
  · have none : ∀ handles, placed (u32 (s.arrayLength args dupe nargs)) handles = [] :=
      fun _ => if_pos noArray
    have ptrs := filled.bufferPtrs
    rw [none, noArray] at ptrs
    have stops : fillSvm (s.bufferHandles args dupe nargs).length
        (u32 (s.svmChecked args dupe nargs).length) s.svmRegions a = some a := by
      cases s.svmRegions with
      | nil => rfl
      | cons m rest =>
          rw [fillSvm, if_neg fun both => both.1 ptrs]
    rw [stops, filled.arrays_eq (ptrs.trans (none _).symm) (none _)]
  · have all : ∀ handles, placed (u32 (s.arrayLength args dupe nargs)) handles = handles :=
      fun _ => if_neg noArray
    have small : s.arrayLength args dupe nargs < 4294967296 := by
      refine lt_of_le_of_ne room fun wraps => noArray ?_
      rw [wraps]
      rfl
    have ptrs := filled.bufferPtrs
    rw [all, u32_of_lt small, arrayLength, Nat.add_sub_cancel_left, checked] at ptrs
    rw [arrayLength, checked] at small
    have filledSvm := @fillSvm_eq (s.bufferHandles args dupe nargs) [] (u32 s.svmHandles.length)
      s.svmRegions a (by simpa using ptrs) filled.numSVM (by simpa using small) (u32_le _)
    simp only [List.length_nil, Nat.zero_add] at filledSvm
    have numBuffs := filled.numBuffs
    rw [all] at numBuffs
    have images : a.imagePtrs = s.imageHandles args dupe nargs := by simpa using filled.imagePtrs
    rw [checked, filledSvm, arraysFor, svmCounted, checked]
    simp only [all]
    rw [images, numBuffs, filled.numImgs, List.length_take, Nat.min_eq_left (u32_le _)]
    simp [svmHandles]

/-- The passes agree when the length of the array fits in 32 bits, and as long as
there is no array. -/
theorem checkArrays_eq (few : nargs < 4294967296) (live : FirstLive s args dupe)
    (room : s.arrayLength args dupe nargs ≤ 4294967296) :
    s.checkArrays args dupe nargs = some (s.arraysFor args dupe nargs) := by
  have fits : u32 (s.arrayLength args dupe nargs) = 0 ∨
      (s.bufferHandles args dupe nargs).length ≤ u32 (s.arrayLength args dupe nargs) := by
    rcases room.lt_or_eq with small | wraps
    · rw [u32_of_lt small]
      exact Or.inr (Nat.le_add_right _ _)
    · rw [wraps]
      exact Or.inl rfl
  obtain ⟨a, ran, filled⟩ := @fillArgs_eq s args dupe nargs _ _ few live fits (le_refl _)
  rw [checkArrays_unfold few live, ran, Option.bind_some]
  by_cases passes : PassesSvm args dupe nargs
  · rw [if_pos passes, fillSvm_filled passes room filled]
  · have unchecked : s.svmChecked args dupe nargs = [] := if_neg passes
    have counted : s.svmCounted args dupe nargs = [] := by
      rw [svmCounted, unchecked, placed]
      split <;> rfl
    have ptrs := filled.bufferPtrs
    have none_left : u32 (s.arrayLength args dupe nargs) - (placed
        (u32 (s.arrayLength args dupe nargs)) (s.bufferHandles args dupe nargs)).length = 0 := by
      rw [placed]
      split
      case isTrue noArray => omega
      case isFalse =>
        have le := u32_le (s.arrayLength args dupe nargs)
        have length : s.arrayLength args dupe nargs =
            (s.bufferHandles args dupe nargs).length := by
          rw [arrayLength, unchecked]
          rfl
        omega
    rw [none_left] at ptrs
    rw [List.replicate_zero, List.append_nil] at ptrs
    rw [if_neg passes, filled.arrays_eq ptrs counted]

/-- A longer array is cut so short that a buffer does not fit. -/
theorem checkArrays_eq_none (few : nargs < 4294967296) (live : FirstLive s args dupe)
    (exceeds : 4294967296 < s.arrayLength args dupe nargs) :
    s.checkArrays args dupe nargs = none := by
  have buffers := (@handles_length_le s args dupe nargs).1
  have regions := u32_lt (s.svmChecked args dupe nargs).length
  have length : s.arrayLength args dupe nargs = (s.bufferHandles args dupe nargs).length +
      u32 (s.svmChecked args dupe nargs).length := rfl
  have cut : u32 (s.arrayLength args dupe nargs) =
      s.arrayLength args dupe nargs - 4294967296 := by
    unfold u32
    omega
  have short : u32 (s.arrayLength args dupe nargs) <
      (s.bufferHandles args dupe nargs).length := by
    omega
  rw [checkArrays_unfold few live, fillArgs_eq_none few live (by omega) short (le_refl _)]
  rfl

end Clarmor.KernelState
