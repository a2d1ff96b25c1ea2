import Clarmor.Runtime.Svm
import Clarmor.Wrapper.MemObjects

/-!
# The intercepted calls on shared virtual memory

`clSVMAlloc` allocates two canaries more than the application asked for and
hands out the pointer behind the first one.  Fine-grained allocations are never
given back to the runtime: they are cached per context and reused.
-/

namespace Clarmor

open Word

/-- `fg_svm_region`. -/
structure FgRegion where
  base : Nat
  flags : SvmFlags
  size : Nat
  alignment : Nat
deriving DecidableEq, Repr

/-- The fine-grained regions in use, by context and base, and the free ones of
each context, in increasing order of their size. -/
structure FgCache where
  allocatedFgSvms : Handle → Table Nat FgRegion
  freeFgSvms : Handle → List FgRegion

namespace FgCache

/-- The caches at the start of a process. -/
def initial : FgCache := ⟨fun _ => Table.empty, fun _ => []⟩

/-- Enter a region in use. -/
def use (fg : FgCache) (context : Handle) (r : FgRegion) : FgCache :=
  { fg with
    allocatedFgSvms :=
      Function.update fg.allocatedFgSvms context ((fg.allocatedFgSvms context).insert r.base r) }

/-- `cl_svm_fg_alloc`. -/
def clSvmFgAlloc (fg : FgCache) (context base : Nat) (flags : SvmFlags) (size alignment : Nat) :
    FgCache :=
  fg.use context ⟨base, flags, size, alignment⟩

/-- Insertion into a multimap by size, behind the regions of the same size. -/
def insertBySize (r : FgRegion) (free : List FgRegion) : List FgRegion :=
  free.takeWhile (fun q => q.size ≤ r.size) ++ r :: free.dropWhile fun q => q.size ≤ r.size

/-- Move a region that is in use to the free ones. -/
def retire (fg : FgCache) (context base : Nat) (r : FgRegion) : FgCache :=
  { allocatedFgSvms :=
      Function.update fg.allocatedFgSvms context ((fg.allocatedFgSvms context).remove base)
    freeFgSvms := Function.update fg.freeFgSvms context (insertBySize r (fg.freeFgSvms context)) }

/-- `cl_svm_fg_free`; the result tells whether the base was not in use. -/
def clSvmFgFree (fg : FgCache) (context base : Nat) : Bool × FgCache :=
  match (fg.allocatedFgSvms context).find base with
  | none => (true, fg)
  | some temp => (false, fg.retire context base temp)

/-- Take a free region into use again. -/
def reuse (fg : FgCache) (context : Handle) (r : FgRegion) : FgCache :=
  { allocatedFgSvms := (fg.use context r).allocatedFgSvms
    freeFgSvms := Function.update fg.freeFgSvms context ((fg.freeFgSvms context).erase r) }

@[simp]
theorem use_freeFgSvms (fg : FgCache) (context : Handle) (r : FgRegion) :
    (fg.use context r).freeFgSvms = fg.freeFgSvms :=
  rfl

@[simp]
theorem reuse_allocatedFgSvms (fg : FgCache) (context : Handle) (r : FgRegion) :
    (fg.reuse context r).allocatedFgSvms = (fg.use context r).allocatedFgSvms :=
  rfl

theorem reuse_freeFgSvms_self (fg : FgCache) (context : Handle) (r : FgRegion) :
    (fg.reuse context r).freeFgSvms context = (fg.freeFgSvms context).erase r := by
  simp [reuse]

theorem reuse_freeFgSvms_of_ne {fg : FgCache} {context c : Handle} {r : FgRegion}
    (ne : c ≠ context) : (fg.reuse context r).freeFgSvms c = fg.freeFgSvms c := by
  simp [reuse, ne]

/-- `find_free_svm`: the first free region that is large enough and has the
alignment asked for. -/
def findFreeSvm (fg : FgCache) (context size alignment : Nat) : Option (Nat × FgCache) :=
  let free := fg.freeFgSvms context
  match (free.dropWhile fun q => q.size < size).find? fun q => q.alignment = alignment with
  | none => none
  | some temp => some (temp.base, fg.reuse context temp)

end FgCache

/-- The wrapper, its caches of fine-grained regions and the runtime's shared
virtual memory. -/
structure SvmState where
  w : Wrapper
  fg : FgCache
  rt : SvmRuntime

/-- The start of a process. -/
def SvmState.initial (host : Nat → UInt8) (statsOn : Bool) : SvmState :=
  ⟨Wrapper.initial host statsOn, FgCache.initial, SvmRuntime.initial⟩

namespace MemStats

/-- Count an allocation of shared virtual memory with its canaries. -/
def allocateSvm (s : MemStats) (internalCreate : Bool) (size : Nat) : MemStats :=
  if internalCreate then
    { s with
      totalOverhead := u64 (s.totalOverhead + (size + POISON_REGIONS * POISON_FILL_LENGTH))
      currentOverhead := u64 (s.currentOverhead + (size + POISON_REGIONS * POISON_FILL_LENGTH)) }
  else
    { s with
      totalUser := u64 (s.totalUser + size)
      currentUser := u64 (s.currentUser + size)
      totalOverhead := u64 (s.totalOverhead + POISON_REGIONS * POISON_FILL_LENGTH)
      currentOverhead := u64 (s.currentOverhead + POISON_REGIONS * POISON_FILL_LENGTH) }

/-- Take freed shared virtual memory off the counters. -/
def freeSvm (s : MemStats) (internalCreate : Bool) (size : Nat) : MemStats :=
  if internalCreate then
    { s with
      currentOverhead := sub64 s.currentOverhead (size + POISON_REGIONS * POISON_FILL_LENGTH) }
  else
    { s with
      currentUser := sub64 s.currentUser size
      currentOverhead := sub64 s.currentOverhead (POISON_REGIONS * POISON_FILL_LENGTH) }

end MemStats

/-- `internalSVMAlloc`. -/
def internalSVMAlloc (env : SvmEnv) (s : SvmState) (context : Handle) (flags : SvmFlags)
    (size alignment : Nat) : Nat × SvmState :=
  if flags.atomics then (NULL, s)
  else if flags.fineGrainBuffer then
    let flags : SvmFlags := { readWrite := true, fineGrainBuffer := true }
    match s.fg.findFreeSvm context size alignment with
    | some (base, fg) => (base, { s with fg := fg })
    | none =>
        match s.rt.svmAlloc env context flags size with
        | (ret, rt) =>
            if ret ≠ NULL then
              (ret, { s with rt := rt, fg := s.fg.clSvmFgAlloc context ret flags size alignment })
            else (ret, { s with rt := rt })
  else
    match s.rt.svmAlloc env context flags size with
    | (ret, rt) => (ret, { s with rt := rt })

/-- `cl_svm_mem_insert`. -/
def clSvmMemInsert (table : OrderedMap Nat SvmObj) (item : SvmObj) : OrderedMap Nat SvmObj :=
  table.insert item.handle item

/-- `clSVMAlloc`. -/
def clSVMAlloc (env : SvmEnv) (s : SvmState) (context : Handle) (flags : SvmFlags)
    (size alignment : Nat) : Nat × SvmState :=
  let w := (s.w.count fun c => c.allocateSvm s.w.internalCreate size).count MemStats.raise
  let sizeAug := u64 (size + POISON_REGIONS * POISON_FILL_LENGTH)
  match internalSVMAlloc env { s with w := w } context flags sizeAug alignment with
  | (ret, s) =>
      if ret = NULL then (NULL, s)
      else
        let userPtr := ret + POISON_FILL_LENGTH
        (userPtr, { s with w := { s.w with
          svm := clSvmMemInsert s.w.svm
            { handle := userPtr, mainBuff := ret, context := context, size := size } } })

/-- `clSVMFree`. -/
def clSVMFree (s : SvmState) (context svmPointer : Nat) : SvmState :=
  if svmPointer = NULL then s
  else
    match s.w.svm.find svmPointer with
    | none => s
    | some temp =>
        let w := s.w.count fun c => c.freeSvm s.w.internalCreate temp.size
        let w := { w with svm := w.svm.remove svmPointer }
        let mainSvm := temp.mainBuff
        if mainSvm = NULL then { s with w := w }
        else
          match s.fg.clSvmFgFree context mainSvm with
          | (true, fg) => { w := w, fg := fg, rt := s.rt.svmFree mainSvm }
          | (false, fg) => { s with w := w, fg := fg }

/-- One pointer of `clEnqueueSVMFree`; its description is dropped, and the cache
is asked about the application's pointer. -/
def dropSvmPointer (context : Handle) (s : SvmState) (svmPointer : Nat) : SvmState :=
  { s with
    w := { s.w with svm := s.w.svm.remove svmPointer }
    fg := (s.fg.clSvmFgFree context svmPointer).2 }

/-- `clEnqueueSVMFree` on a queue of a context. -/
def clEnqueueSVMFree (s : SvmState) (context : Handle) (svmPointers : List Nat) : SvmState :=
  let s := svmPointers.foldl (dropSvmPointer context) s
  { s with rt := s.rt.enqueueSvmFree svmPointers }

end Clarmor
