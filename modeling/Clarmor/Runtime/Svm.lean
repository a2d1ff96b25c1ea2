import Clarmor.Runtime.Memory

/-!
# Shared virtual memory of the OpenCL runtime

The documented behaviour of the real `SVMAlloc`, `SVMFree` and
`EnqueueSVMFree`.  Which pointer an allocation returns, or that it returns
none, is left to an environment, except that a returned pointer is not that of
a live allocation.  The runtime remembers every pointer it was given to free,
with the allocation that started there at that time.
-/

namespace Clarmor

/-- The bits of `cl_svm_mem_flags` that the wrapper reads or changes. -/
structure SvmFlags where
  readWrite : Bool := false
  writeOnly : Bool := false
  readOnly : Bool := false
  fineGrainBuffer : Bool := false
  atomics : Bool := false
deriving DecidableEq, Repr

/-- The pointers that the successive allocations return. -/
structure SvmEnv where
  alloc : Nat → Nat

/-- A live allocation. -/
structure SvmAlloc where
  context : Handle
  size : Nat
  fineGrain : Bool
deriving DecidableEq, Repr

/-- The runtime's allocations, by their first byte, and what it was told to
free. -/
structure SvmRuntime where
  live : Table Nat SvmAlloc
  allocs : Nat
  freed : List (Nat × Option SvmAlloc)

namespace SvmRuntime

/-- The runtime before any allocation. -/
def initial : SvmRuntime := ⟨Table.empty, 0, []⟩

/-- `SVMAlloc`. -/
def svmAlloc (rt : SvmRuntime) (env : SvmEnv) (context : Handle) (flags : SvmFlags) (size : Nat) :
    Nat × SvmRuntime :=
  let base := env.alloc rt.allocs
  if base = NULL ∨ (rt.live.find base).isSome then (NULL, { rt with allocs := rt.allocs + 1 })
  else
    (base, { rt with
      allocs := rt.allocs + 1
      live := rt.live.insert base ⟨context, size, flags.fineGrainBuffer⟩ })

/-- `SVMFree` of one pointer. -/
def svmFree (rt : SvmRuntime) (ptr : Nat) : SvmRuntime :=
  { rt with
    live := rt.live.remove ptr
    freed := (ptr, rt.live.find ptr) :: rt.freed }

/-- `EnqueueSVMFree`. -/
def enqueueSvmFree (rt : SvmRuntime) (ptrs : List Nat) : SvmRuntime :=
  ptrs.foldl svmFree rt

/-- An allocation either enters a fresh base or changes nothing that is live. -/
theorem svmAlloc_cases {rt rt' : SvmRuntime} {env : SvmEnv} {context : Handle} {flags : SvmFlags}
    {size ret : Nat} (allocated : rt.svmAlloc env context flags size = (ret, rt')) :
    rt'.freed = rt.freed ∧
      ((ret = NULL ∧ rt'.live = rt.live) ∨
        (ret ≠ NULL ∧ rt.live.find ret = none ∧
          rt'.live = rt.live.insert ret ⟨context, size, flags.fineGrainBuffer⟩)) := by
  simp only [svmAlloc] at allocated
  split at allocated
  · simp only [Prod.mk.injEq] at allocated
    obtain ⟨rfl, rfl⟩ := allocated
    exact ⟨rfl, Or.inl ⟨rfl, rfl⟩⟩
  · rename_i usable
    simp only [Prod.mk.injEq] at allocated
    obtain ⟨rfl, rfl⟩ := allocated
    rw [not_or, Option.not_isSome_iff_eq_none] at usable
    exact ⟨rfl, Or.inr ⟨usable.1, usable.2, rfl⟩⟩

end SvmRuntime

end Clarmor
