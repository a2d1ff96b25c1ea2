import Clarmor.MetaData.Kernel

/-!
# Repeated and replaced arguments

`findDuplicates` sends an argument to the first one that passes the same memory
object, and every other argument to itself.  A kernel with a memory object
without canary among its arguments is cloned, and the clone gets a new object in
the place of each of these.  All arguments of the kernel are set, so that the
list of descriptions is indexed by the arguments.
-/

namespace Clarmor

/-- The memory object that argument `i` passes. -/
def bufferAt (args : List KernelArg) (i : Nat) : Option Handle :=
  args[i]?.bind KernelArg.bufferHandle

/-- The entry of `dupe` for argument `i`. -/
def firstUse (args : List KernelArg) (i : Nat) : Nat :=
  match bufferAt args i with
  | none => i
  | some handle => ((List.range i).find? fun j => bufferAt args j = some handle).getD i

/-- `findDuplicates`. -/
def findDuplicates (args : List KernelArg) : List Nat :=
  (List.range args.length).map (firstUse args)

variable {args : List KernelArg} {i j : Nat}

theorem firstUse_of_none (none : bufferAt args i = none) : firstUse args i = i := by
  rw [firstUse, none]

/-- The first use of a memory object passes it, and no earlier argument does. -/
theorem firstUse_of_some {h : Handle} (passes : bufferAt args i = some h) :
    firstUse args i ≤ i ∧ bufferAt args (firstUse args i) = some h ∧
      ∀ j < firstUse args i, bufferAt args j ≠ some h := by
  rw [firstUse, passes]
  dsimp only
  cases found : (List.range i).find? fun j => bufferAt args j = some h with
  | none =>
      refine ⟨le_refl _, passes, fun j jLt same => ?_⟩
      have absent := List.find?_eq_none.mp found j (List.mem_range.mpr jLt)
      simp [same] at absent
  | some j =>
      obtain ⟨same, as, bs, split, before⟩ := List.find?_eq_some_iff_append.mp found
      have jLt : j < i := List.mem_range.mp (List.mem_of_find?_eq_some found)
      refine ⟨jLt.le, by simpa using same, fun k kLt same' => ?_⟩
      have prefixed : as = List.range j := by
        have length : as.length = j := by
          have at' : (List.range i)[as.length]? = some j := by
            rw [split]
            simp
          obtain ⟨bound, value⟩ := List.getElem?_eq_some_iff.mp at'
          simpa using value
        have taken : as = (List.range i).take as.length := by
          rw [split]
          simp
        rw [taken, length, List.take_range, Nat.min_eq_left jLt.le]
      have member : k ∈ as := by
        rw [prefixed]
        exact List.mem_range.mpr kLt
      have missed := before k member
      simp [same'] at missed

theorem firstUse_le (args : List KernelArg) (i : Nat) : firstUse args i ≤ i := by
  cases passes : bufferAt args i with
  | none => rw [firstUse_of_none passes]
  | some h => exact (firstUse_of_some passes).1

/-- Arguments that pass the same memory object have the same first use. -/
theorem firstUse_congr {h : Handle} (passes : bufferAt args i = some h)
    (passes' : bufferAt args j = some h) : firstUse args i = firstUse args j := by
  obtain ⟨-, here, least⟩ := firstUse_of_some passes
  obtain ⟨-, here', least'⟩ := firstUse_of_some passes'
  rcases lt_trichotomy (firstUse args i) (firstUse args j) with before | same | after
  · exact absurd here (least' _ before)
  · exact same
  · exact absurd here' (least _ after)

/-- A first use is its own first use. -/
theorem firstUse_firstUse (args : List KernelArg) (i : Nat) :
    firstUse args (firstUse args i) = firstUse args i := by
  cases passes : bufferAt args i with
  | none =>
      rw [firstUse_of_none passes, firstUse_of_none passes]
  | some h => exact firstUse_congr (firstUse_of_some passes).2.1 passes

/-- Two arguments have one first use only if they are one or pass one object. -/
theorem firstUse_eq_iff : firstUse args i = firstUse args j ↔
    i = j ∨ ∃ h, bufferAt args i = some h ∧ bufferAt args j = some h := by
  constructor
  · intro same
    cases passes : bufferAt args i with
    | none =>
        cases passes' : bufferAt args j with
        | none =>
            rw [firstUse_of_none passes, firstUse_of_none passes'] at same
            exact Or.inl same
        | some h =>
            rw [firstUse_of_none passes] at same
            have here := (firstUse_of_some passes').2.1
            rw [← same, passes] at here
            contradiction
    | some h =>
        cases passes' : bufferAt args j with
        | none =>
            rw [firstUse_of_none passes'] at same
            have here := (firstUse_of_some passes).2.1
            rw [same, passes'] at here
            contradiction
        | some h' =>
            have here := (firstUse_of_some passes).2.1
            rw [same, (firstUse_of_some passes').2.1, Option.some.injEq] at here
            exact Or.inr ⟨h, rfl, congrArg some here⟩
  · rintro (rfl | ⟨h, passes, passes'⟩)
    · rfl
    · exact firstUse_congr passes passes'

/-- The entry of a list of duplicates. -/
theorem findDuplicates_getElem? (iLt : i < args.length) :
    (findDuplicates args)[i]? = some (firstUse args i) := by
  rw [findDuplicates, List.getElem?_map, List.getElem?_range iLt]
  rfl

/-! ## Replaced arguments -/

/-- `needInternalBuffer` of `createPoisonedKernel`. -/
def needInternalBuffer (args : List KernelArg) : Bool :=
  args.any fun a => a.buffer.any fun m => !m.hasCanary

/-- The case of `createPoisonedKernel` that makes a new memory object. -/
def KernelArg.isReplaced (a : KernelArg) : Bool :=
  a.svmBuffer.isNone && a.buffer.any fun m => !m.hasCanary

theorem KernelArg.isReplaced_iff {a : KernelArg} : a.isReplaced ↔
    ∃ m, a.buffer = some m ∧ a.svmBuffer = none ∧ m.hasCanary = false := by
  rw [isReplaced, Bool.and_eq_true, Option.isNone_iff_eq_none]
  cases a.buffer with
  | none => simp
  | some m => simp

/-- The arguments for which `createPoisonedKernel` makes a new memory object. -/
def replacedArgs (args : List KernelArg) : List Nat :=
  (List.range args.length).filter fun i =>
    firstUse args i = i && args[i]?.any KernelArg.isReplaced

theorem replacedArgs_nodup (args : List KernelArg) : (replacedArgs args).Nodup :=
  List.nodup_range.filter _

theorem firstUse_of_replaced (mem : i ∈ replacedArgs args) : firstUse args i = i := by
  have both := (List.mem_filter.mp mem).2
  rw [Bool.and_eq_true, decide_eq_true_eq] at both
  exact both.1

end Clarmor
