import Clarmor.Library.Table
import Clarmor.Wrapper.Kernels

/-!
# Kernel arguments of the OpenCL runtime

The documented behaviour of the real `SetKernelArg` and `SetKernelArgSVMPointer`:
an argument is checked against the declaration of its parameter, and what was
accepted is what the kernel runs with.
-/

namespace Clarmor

/-- The declaration of a parameter of a kernel. -/
inductive Param where
  | value (size : Nat)
  | localMemory
  | pointer
  | image
deriving DecidableEq, Repr

/-- What was given for a parameter: bytes, a size alone, or an SVM pointer. -/
inductive RuntimeArg where
  | memory (size : Nat) (value : Option Nat)
  | svm (pointer : Nat)
deriving DecidableEq, Repr

/-- A parameter that takes memory objects. -/
def Param.isObject : Param → Bool
  | .pointer => true
  | .image => true
  | .value _ => false
  | .localMemory => false

/-- The sizes and values that a parameter takes. -/
def Param.takesMemory : Param → Nat → Bool → Bool
  | .value size, argSize, given => argSize = size && given
  | .localMemory, argSize, given => 0 < argSize && !given
  | .pointer, argSize, _ => argSize = SIZEOF_MEM
  | .image, argSize, given => argSize = SIZEOF_MEM && given

/-- What a parameter takes.  The runtime looks at the size and whether a value is
given, not at the value. -/
def Param.takes (param : Param) : RuntimeArg → Bool
  | .memory argSize argValue => param.takesMemory argSize argValue.isSome
  | .svm _ => param = .pointer

/-- A kernel: its parameters, and the arguments that were set. -/
structure RuntimeKernel where
  params : List Param
  args : Nat → Option RuntimeArg

namespace RuntimeKernel

/-- A kernel that was just created. -/
def create (params : List Param) : RuntimeKernel := ⟨params, fun _ => none⟩

/-- `SetKernelArg` and `SetKernelArgSVMPointer`. -/
def setKernelArg (kernel : RuntimeKernel) (argIndex : Nat) (arg : RuntimeArg) :
    Option RuntimeKernel :=
  if (kernel.params[argIndex]?).any fun param => param.takes arg then
    some { kernel with args := Function.update kernel.args argIndex (some arg) }
  else none

/-- Every argument that is set is one that its parameter takes. -/
def Typed (kernel : RuntimeKernel) : Prop :=
  ∀ i arg, kernel.args i = some arg → ∃ param, kernel.params[i]? = some param ∧ param.takes arg

theorem typed_create (params : List Param) : (create params).Typed := by
  intro i arg isArg
  contradiction

variable {kernel kernel' : RuntimeKernel} {i : Nat} {arg : RuntimeArg}

/-- An argument that is accepted is the argument from then on, and the others
stay. -/
theorem setKernelArg_eq_some_iff : kernel.setKernelArg i arg = some kernel' ↔
    (∃ param, kernel.params[i]? = some param ∧ param.takes arg) ∧
      kernel' = { kernel with args := Function.update kernel.args i (some arg) } := by
  have isTaken : ((kernel.params[i]?).any fun param => param.takes arg) = true ↔
      ∃ param, kernel.params[i]? = some param ∧ param.takes arg := by
    cases kernel.params[i]? with
    | none => simp
    | some param => simp
  rw [setKernelArg]
  split_ifs with taken
  · rw [Option.some.injEq]
    exact ⟨fun same => ⟨isTaken.mp taken, same.symm⟩, fun both => both.2.symm⟩
  · simp only [false_iff]
    exact fun both => taken (isTaken.mpr both.1)

theorem Typed.setKernelArg (typed : kernel.Typed) (set : kernel.setKernelArg i arg = some kernel') :
    kernel'.Typed := by
  obtain ⟨taken, rfl⟩ := setKernelArg_eq_some_iff.mp set
  intro j arg' isArg
  by_cases here : j = i
  · subst here
    simp only [Function.update_self, Option.some.injEq] at isArg
    rw [← isArg]
    exact taken
  · simp only [Function.update_of_ne here] at isArg
    exact typed j arg' isArg

end RuntimeKernel

end Clarmor
