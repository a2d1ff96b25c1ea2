import Clarmor.Api.Transfers
import Clarmor.Check.Mend
import Clarmor.Wrapper.Svm

/-!
# Pointers into shared virtual memory

`cl_svm_mem_find` looks for the region that a pointer lies in: of the regions
that start at or below the pointer it takes the last one, and accepts that up to
one byte past its end.  `clEnqueueSVMMap` moves the pointer to the start of the
region's allocation.
-/

namespace Clarmor

open Word

/-! ## Lookup -/

/-- A change of the table behind `get_cl_svm_mem_alloc`. -/
inductive SvmTableCall where
  | insert (item : SvmObj)
  | remove (handle : Nat)

/-- `cl_svm_mem_insert` and `cl_svm_mem_remove`. -/
def SvmTableCall.run (table : OrderedMap Nat SvmObj) : SvmTableCall → OrderedMap Nat SvmObj
  | .insert item => clSvmMemInsert table item
  | .remove handle => table.remove handle

/-- The table after a sequence of changes. -/
def svmTableOf (calls : List SvmTableCall) : OrderedMap Nat SvmObj :=
  calls.foldl SvmTableCall.run OrderedMap.empty

/-- A pointer into a region. -/
def SvmObj.Contains (r : SvmObj) (p : Nat) : Prop := r.handle ≤ p ∧ p < r.handle + r.size

instance (r : SvmObj) (p : Nat) : Decidable (r.Contains p) :=
  inferInstanceAs (Decidable (_ ∧ _))

/-- Every region is listed under its base. -/
def KeyedByBase (table : OrderedMap Nat SvmObj) : Prop := ∀ e ∈ table.entries, e.1 = e.2.handle

/-- No pointer lies in two regions. -/
def DisjointRanges (table : OrderedMap Nat SvmObj) : Prop :=
  ∀ e ∈ table.entries, ∀ e' ∈ table.entries, ∀ p, e.2.Contains p → e'.2.Contains p → e = e'

/-- The lookup of a pointer gives the region that contains it, and nothing when
there is none. -/
structure FindsRegion (table : OrderedMap Nat SvmObj) (p : Nat) : Prop where
  region : ∀ r, clSvmMemFind table p = some r ↔
    (∃ k, (k, r) ∈ table.entries) ∧ r.Contains p
  none : (∀ e ∈ table.entries, ¬ e.2.Contains p) → clSvmMemFind table p = none

/-- The pointer is one byte past the end of the last region that starts at or
below it. -/
def PastEnd (table : OrderedMap Nat SvmObj) (p : Nat) : Prop :=
  ∃ e ∈ table.entries, e.2.handle + e.2.size = p ∧ ∀ e' ∈ table.entries, e'.1 ≤ p → e'.1 ≤ e.1

/-- A region without bytes starts between the base of the pointer's region and
the pointer. -/
def BehindEmpty (table : OrderedMap Nat SvmObj) (p : Nat) : Prop :=
  ∃ e ∈ table.entries, ∃ e' ∈ table.entries, e.2.Contains p ∧ e'.2.size = 0 ∧ e.1 < e'.1 ∧
    e'.1 ≤ p

theorem keyedByBase_run {table : OrderedMap Nat SvmObj} (keyed : KeyedByBase table)
    (call : SvmTableCall) : KeyedByBase (call.run table) := by
  intro e mem
  cases call with
  | insert item =>
      by_cases present : (table.find item.handle).isSome
      · simp only [SvmTableCall.run, clSvmMemInsert, OrderedMap.insert, if_pos present] at mem
        exact keyed e mem
      · simp only [SvmTableCall.run, clSvmMemInsert, OrderedMap.insert, if_neg present] at mem
        rcases List.mem_append.mp mem with mem | mem
        · exact keyed e (List.mem_of_mem_filter mem)
        · rcases List.mem_cons.mp mem with rfl | mem
          · rfl
          · exact keyed e (List.mem_of_mem_filter mem)
  | remove handle => exact keyed e (List.mem_of_mem_filter mem)

theorem keyedByBase_svmTableOf (calls : List SvmTableCall) : KeyedByBase (svmTableOf calls) := by
  have kept : ∀ table, KeyedByBase table → KeyedByBase (calls.foldl SvmTableCall.run table) := by
    induction calls with
    | nil => exact fun _ keyed => keyed
    | cons call rest ih => exact fun table keyed => ih _ (keyedByBase_run keyed call)
  apply kept
  intro e mem
  cases mem

/-- The lookup in terms of the last region that starts at or below the pointer. -/
theorem clSvmMemFind_eq {table : OrderedMap Nat SvmObj} {p : Nat} (keyed : KeyedByBase table) :
    clSvmMemFind table p =
      (table.upTo p).bind fun e => if p ≤ e.2.handle + e.2.size then some e.2 else none := by
  rw [clSvmMemFind]
  change (table.upTo p).bind _ = _
  cases last : table.upTo p with
  | none => rfl
  | some e =>
      obtain ⟨mem, le, -⟩ := OrderedMap.upTo_eq_some_iff.mp last
      rw [keyed e mem] at le
      simp only [Option.bind_some, gt_iff_lt, if_neg le.not_gt]
      by_cases inside : p ≤ e.2.handle + e.2.size
      · rw [if_pos inside, if_neg]
        omega
      · rw [if_neg inside, if_pos]
        omega

/-- A region that contains the pointer is the last one before it. -/
theorem upTo_of_contains {table : OrderedMap Nat SvmObj} {p : Nat} {e : Nat × SvmObj}
    (keyed : KeyedByBase table) (disjoint : DisjointRanges table)
    (notBehind : ¬ BehindEmpty table p)
    (mem : e ∈ table.entries) (contains : e.2.Contains p) : table.upTo p = some e := by
  obtain ⟨lower, upper⟩ := contains
  rw [OrderedMap.upTo_eq_some_iff]
  refine ⟨mem, by rw [keyed e mem]; exact lower, fun e' mem' le => ?_⟩
  by_contra later
  rw [not_le] at later
  have base := keyed e mem
  have base' := keyed e' mem'
  by_cases empty : e'.2.size = 0
  · exact notBehind ⟨e, mem, e', mem', ⟨lower, upper⟩, empty, later, le⟩
  · have inBoth := disjoint e mem e' mem' e'.1 ⟨by omega, by omega⟩ ⟨by omega, by omega⟩
    rw [inBoth] at later
    exact lt_irrefl _ later

/-- The lookup is right exactly for pointers that are not one past the end of the
last region before them, and not behind a region without bytes. -/
theorem findsRegion_iff_of_keyed {table : OrderedMap Nat SvmObj} {p : Nat}
    (keyed : KeyedByBase table) (disjoint : DisjointRanges table) :
    FindsRegion table p ↔ ¬ PastEnd table p ∧ ¬ BehindEmpty table p := by
  have lookup := clSvmMemFind_eq (p := p) keyed
  constructor
  · intro finds
    constructor
    · rintro ⟨e, mem, past, greatest⟩
      have le : e.1 ≤ p := by
        rw [keyed e mem]
        omega
      have last : table.upTo p = some e := OrderedMap.upTo_eq_some_iff.mpr ⟨mem, le, greatest⟩
      rw [last, Option.bind_some, if_pos past.ge] at lookup
      obtain ⟨-, -, below⟩ := (finds.region e.2).mp lookup
      omega
    · rintro ⟨e, mem, e', mem', contains, -, lt, le⟩
      have found := (finds.region e.2).mpr ⟨⟨e.1, mem⟩, contains⟩
      rw [found] at lookup
      obtain ⟨e'', last, isRegion⟩ := Option.bind_eq_some_iff.mp lookup.symm
      obtain ⟨mem'', -, greatest⟩ := OrderedMap.upTo_eq_some_iff.mp last
      split_ifs at isRegion
      have same : e''.1 = e.1 := by
        rw [keyed e'' mem'', keyed e mem, Option.some.inj isRegion]
      have := greatest e' mem' le
      omega
  · rintro ⟨notPast, notBehind⟩
    have region : ∀ r, clSvmMemFind table p = some r ↔
        (∃ k, (k, r) ∈ table.entries) ∧ r.Contains p := by
      intro r
      rw [lookup]
      constructor
      · intro found
        obtain ⟨e, last, isRegion⟩ := Option.bind_eq_some_iff.mp found
        obtain ⟨mem, le, greatest⟩ := OrderedMap.upTo_eq_some_iff.mp last
        split_ifs at isRegion with inside
        rw [← Option.some.inj isRegion]
        rw [keyed e mem] at le
        refine ⟨⟨e.1, mem⟩, le, ?_⟩
        rcases Nat.lt_or_ge p (e.2.handle + e.2.size) with below | past
        · exact below
        · exact absurd ⟨e, mem, le_antisymm past inside, greatest⟩ notPast
      · rintro ⟨⟨k, mem⟩, contains⟩
        rw [upTo_of_contains keyed disjoint notBehind mem contains, Option.bind_some,
          if_pos contains.2.le]
    refine ⟨region, fun outside => ?_⟩
    cases found : clSvmMemFind table p with
    | none => rfl
    | some r =>
        obtain ⟨⟨k, mem⟩, contains⟩ := (region r).mp found
        exact absurd contains (outside (k, r) mem)

/-- In every table that insertions and removals build. -/
theorem findsRegion_iff (calls : List SvmTableCall) (p : Nat)
    (disjoint : DisjointRanges (svmTableOf calls)) :
    FindsRegion (svmTableOf calls) p ↔
      ¬ PastEnd (svmTableOf calls) p ∧ ¬ BehindEmpty (svmTableOf calls) p :=
  findsRegion_iff_of_keyed (keyedByBase_svmTableOf calls) disjoint

/-- A region of sixteen bytes at 8192. -/
def sixteenBytes : SvmObj := { handle := 8192, mainBuff := 4096, context := 1, size := 16 }

theorem disjointRanges_sixteenBytes : DisjointRanges (svmTableOf [.insert sixteenBytes]) := by
  intro e mem e' mem' p _ _
  have all : (svmTableOf [.insert sixteenBytes]).entries = [(8192, sixteenBytes)] := by decide
  rw [all, List.mem_singleton] at mem mem'
  rw [mem, mem']

/-- A pointer into it. -/
theorem findsRegion_iff_inside :
    FindsRegion (svmTableOf [.insert sixteenBytes]) 8200 ↔
      ¬ PastEnd (svmTableOf [.insert sixteenBytes]) 8200 ∧
        ¬ BehindEmpty (svmTableOf [.insert sixteenBytes]) 8200 :=
  findsRegion_iff [.insert sixteenBytes] 8200 disjointRanges_sixteenBytes

/-- The pointer one past its end, which lies in the canary, is taken for one into
it. -/
theorem not_findsRegion_end :
    clSvmMemFind (svmTableOf [.insert sixteenBytes]) 8208 = some sixteenBytes ∧
      ¬ sixteenBytes.Contains 8208 ∧ DisjointRanges (svmTableOf [.insert sixteenBytes]) ∧
      ¬ FindsRegion (svmTableOf [.insert sixteenBytes]) 8208 := by
  have found : clSvmMemFind (svmTableOf [.insert sixteenBytes]) 8208 = some sixteenBytes := by
    decide
  have outside : ¬ sixteenBytes.Contains 8208 := by decide
  exact ⟨found, outside, disjointRanges_sixteenBytes, fun finds =>
    outside ((finds.region sixteenBytes).mp found).2⟩

/-! ## Mapping -/

/-- The bits of `cl_map_flags`. -/
structure MapFlags where
  read : Bool := false
  write : Bool := false
  writeInvalidateRegion : Bool := false
deriving DecidableEq, Repr

/-- The range that reaches the runtime, and the memory after the call. -/
structure SvmMapping where
  start : Nat
  len : Nat
  host : Nat → UInt8

/-- `clEnqueueSVMMap`. -/
def clEnqueueSVMMap (table : OrderedMap Nat SvmObj) (host : Nat → UInt8) (mapFlags : MapFlags)
    (svmPtr size : Nat) : SvmMapping :=
  let m1 := clSvmMemFind table svmPtr
  let mainSvm := m1.elim svmPtr SvmObj.mainBuff
  let sizeAug := m1.elim size fun _ => u64 (size + POISON_FILL_LENGTH)
  { start := mainSvm
    len := sizeAug
    host :=
      if mapFlags.writeInvalidateRegion then
        Store.fill host mainSvm POISON_FILL_LENGTH POISON_FILL
      else host }

/-- The bytes of a region's allocation. -/
def SvmObj.Allocation (r : SvmObj) (a : Nat) : Prop :=
  r.mainBuff ≤ a ∧ a < r.mainBuff + (r.size + POISON_REGIONS * POISON_FILL_LENGTH)

/-- The bytes of a region's canary. -/
def SvmObj.Canary (r : SvmObj) (a : Nat) : Prop :=
  ∃ range ∈ canaryRanges r.size, r.mainBuff + range.1 ≤ a ∧ a < r.mainBuff + range.1 + range.2

/-- A table as `clSVMAlloc` leaves it: the regions lie behind the first canary of
allocations that are apart and in the address space. -/
structure Allocated (table : OrderedMap Nat SvmObj) : Prop where
  keyed : KeyedByBase table
  base : ∀ e ∈ table.entries, e.2.handle = e.2.mainBuff + POISON_FILL_LENGTH
  addressable : ∀ e ∈ table.entries,
    e.2.mainBuff + (e.2.size + POISON_REGIONS * POISON_FILL_LENGTH) < 18446744073709551616
  apart : ∀ e ∈ table.entries, ∀ e' ∈ table.entries, ∀ a, e.2.Allocation a → e'.2.Allocation a →
    e = e'

/-- Mapping gives the application what it asked for and leaves its data alone. -/
structure MapsFaithfully (table : OrderedMap Nat SvmObj) (mapFlags : MapFlags) (p size : Nat) :
    Prop where
  covers : ∀ host a, p ≤ a → a < p + size →
    (clEnqueueSVMMap table host mapFlags p size).start ≤ a ∧
      a < (clEnqueueSVMMap table host mapFlags p size).start +
        (clEnqueueSVMMap table host mapFlags p size).len
  inside : ∀ host, ∀ e ∈ table.entries, e.2.Contains p → ∀ a,
    (clEnqueueSVMMap table host mapFlags p size).start ≤ a →
    a < (clEnqueueSVMMap table host mapFlags p size).start +
      (clEnqueueSVMMap table host mapFlags p size).len → e.2.Allocation a
  unmodified : ∀ host a, (∀ e ∈ table.entries, e.2.Contains p → ¬ e.2.Canary a) →
    (clEnqueueSVMMap table host mapFlags p size).host a = host a

/-- The base of a region is mapped, no further than to the end of its allocation;
what lies in no region is not invalidated. -/
def MapsAtBase (table : OrderedMap Nat SvmObj) (mapFlags : MapFlags) (p size : Nat) : Prop :=
  match clSvmMemFind table p with
  | none => mapFlags.writeInvalidateRegion = false
  | some r =>
      if r.Contains p then size = 0 ∨ (p = r.handle ∧ size ≤ r.size + POISON_FILL_LENGTH)
      else
        mapFlags.writeInvalidateRegion = false ∧
          (size = 0 ∨ (p = r.handle ∧ size + POISON_FILL_LENGTH < 18446744073709551616))

namespace Allocated

variable {table : OrderedMap Nat SvmObj} {p : Nat} {e : Nat × SvmObj}

/-- A pointer into a region, or one past its end, is in its allocation. -/
theorem allocation (allocated : Allocated table) (mem : e ∈ table.entries)
    (lower : e.2.handle ≤ p) (upper : p ≤ e.2.handle + e.2.size) : e.2.Allocation p := by
  have base := allocated.base e mem
  have lengths : POISON_FILL_LENGTH = 4096 ∧ POISON_REGIONS * POISON_FILL_LENGTH = 8192 :=
    ⟨rfl, rfl⟩
  rw [SvmObj.Allocation]
  omega

theorem disjointRanges (allocated : Allocated table) : DisjointRanges table :=
  fun e mem e' mem' p contains contains' => allocated.apart e mem e' mem' p
    (allocated.allocation mem contains.1 contains.2.le)
    (allocated.allocation mem' contains'.1 contains'.2.le)

theorem not_behindEmpty (allocated : Allocated table) : ¬ BehindEmpty table p := by
  rintro ⟨e, mem, e', mem', contains, empty, lt, le⟩
  have base := allocated.keyed e mem
  have base' := allocated.keyed e' mem'
  have same := allocated.apart e mem e' mem' e'.1
    (allocated.allocation mem (by omega) (by have := contains.2; omega))
    (allocated.allocation mem' (by omega) (by omega))
  rw [same] at lt
  exact lt_irrefl _ lt

theorem find_of_contains (allocated : Allocated table) (mem : e ∈ table.entries)
    (contains : e.2.Contains p) : clSvmMemFind table p = some e.2 := by
  rw [clSvmMemFind_eq allocated.keyed, upTo_of_contains allocated.keyed allocated.disjointRanges
    allocated.not_behindEmpty mem contains, Option.bind_some, if_pos contains.2.le]

theorem of_find {r : SvmObj} (allocated : Allocated table) (found : clSvmMemFind table p = some r) :
    ∃ e ∈ table.entries, e.2 = r ∧ r.handle ≤ p ∧ p ≤ r.handle + r.size := by
  rw [clSvmMemFind_eq allocated.keyed] at found
  obtain ⟨e, last, isRegion⟩ := Option.bind_eq_some_iff.mp found
  obtain ⟨mem, le, -⟩ := OrderedMap.upTo_eq_some_iff.mp last
  split_ifs at isRegion with upper
  obtain rfl := Option.some.inj isRegion
  rw [allocated.keyed e mem] at le
  exact ⟨e, mem, rfl, le, upper⟩

end Allocated

section Mapping

variable {table : OrderedMap Nat SvmObj} {mapFlags : MapFlags} {p size : Nat} {r : SvmObj}

/-- The end of the mapped range: the length has room for one canary only, unless
it wraps around. -/
theorem covers_iff (aligned : r.handle = r.mainBuff + POISON_FILL_LENGTH) (lower : r.handle ≤ p)
    (sizeLt : size < 18446744073709551616) :
    (∀ a, p ≤ a → a < p + size →
      r.mainBuff ≤ a ∧ a < r.mainBuff + u64 (size + POISON_FILL_LENGTH)) ↔
      size = 0 ∨ (p = r.handle ∧ size + POISON_FILL_LENGTH < 18446744073709551616) := by
  have length : POISON_FILL_LENGTH = 4096 := rfl
  rw [length] at aligned ⊢
  constructor
  · intro covers
    by_cases empty : size = 0
    · exact Or.inl empty
    · right
      obtain ⟨-, last⟩ := covers (p + size - 1) (by omega) (by omega)
      by_cases small : size + 4096 < 18446744073709551616
      · rw [u64_of_lt small] at last
        exact ⟨by omega, small⟩
      · have wrapped : u64 (size + 4096) = size + 4096 - 18446744073709551616 := by
          unfold u64
          omega
        rw [wrapped] at last
        omega
  · rintro (rfl | ⟨rfl, small⟩) a low high
    · omega
    · rw [u64_of_lt small]
      omega

/-- The canary in front of a region is what the invalidation overwrites. -/
theorem fill_mainBuff_outside {host : Nat → UInt8} {a : Nat} (outside : ¬ r.Canary a) :
    Store.fill host r.mainBuff POISON_FILL_LENGTH POISON_FILL a = host a := by
  apply Store.fill_outside
  by_contra inside
  apply outside
  refine ⟨(0, POISON_FILL_LENGTH), List.mem_cons_self, ?_⟩
  dsimp only
  omega

theorem fill_start (start : Nat) :
    Store.fill (fun _ => 0) start POISON_FILL_LENGTH POISON_FILL start ≠ 0 := by
  rw [Store.fill_inside (le_refl _) (Nat.lt_add_of_pos_right (by decide))]
  decide

/-- What the region of a pointer is, where a search finds one. -/
theorem Allocated.eq_of_contains (allocated : Allocated table)
    (found : clSvmMemFind table p = some r) {e : Nat × SvmObj} (mem : e ∈ table.entries)
    (contains : e.2.Contains p) : e.2 = r := by
  rw [allocated.find_of_contains mem contains] at found
  exact Option.some.inj found

/-- A pointer into no region is mapped as the application asks, and must not be
invalidated. -/
theorem mapsFaithfully_of_unknown (unknown : ∀ e ∈ table.entries, ¬ e.2.Contains p)
    (found : clSvmMemFind table p = none) :
    MapsFaithfully table mapFlags p size ↔ mapFlags.writeInvalidateRegion = false := by
  constructor
  · intro faithful
    by_contra invalidates
    rw [Bool.not_eq_false] at invalidates
    have kept := faithful.unmodified (fun _ => 0) p fun e mem contains =>
      absurd contains (unknown e mem)
    simp only [clEnqueueSVMMap, found, invalidates, if_true] at kept
    exact fill_start p kept
  · intro harmless
    constructor
    case covers =>
      intro host a low high
      simp only [clEnqueueSVMMap, found]
      exact ⟨low, high⟩
    case inside => exact fun host e mem contains => absurd contains (unknown e mem)
    case unmodified =>
      intro host a _
      simp [clEnqueueSVMMap, harmless]

/-- A pointer one past the end of a region is taken for one into it. -/
theorem mapsFaithfully_of_end (unknown : ∀ e ∈ table.entries, ¬ e.2.Contains p)
    (found : clSvmMemFind table p = some r)
    (aligned : r.handle = r.mainBuff + POISON_FILL_LENGTH) (lower : r.handle ≤ p)
    (sizeLt : size < 18446744073709551616) :
    MapsFaithfully table mapFlags p size ↔ mapFlags.writeInvalidateRegion = false ∧
      (size = 0 ∨ (p = r.handle ∧ size + POISON_FILL_LENGTH < 18446744073709551616)) := by
  have covered := @covers_iff p size r aligned lower sizeLt
  constructor
  · intro faithful
    have covers := faithful.covers fun _ => 0
    simp only [clEnqueueSVMMap, found, Option.elim_some] at covers
    refine ⟨?_, covered.mp covers⟩
    by_contra invalidates
    rw [Bool.not_eq_false] at invalidates
    have kept := faithful.unmodified (fun _ => 0) r.mainBuff fun e' mem' contains' =>
      absurd contains' (unknown e' mem')
    simp only [clEnqueueSVMMap, found, invalidates, if_true, Option.elim_some] at kept
    exact fill_start _ kept
  · rintro ⟨harmless, atBase⟩
    constructor
    case covers =>
      intro host
      simp only [clEnqueueSVMMap, found, Option.elim_some]
      exact covered.mpr atBase
    case inside => exact fun host e' mem' contains' => absurd contains' (unknown e' mem')
    case unmodified =>
      intro host a _
      simp [clEnqueueSVMMap, harmless]

/-- A mapping that stays in the allocation of its region. -/
theorem mapsFaithfully_of_base (allocated : Allocated table)
    (found : clSvmMemFind table p = some r)
    (aligned : r.handle = r.mainBuff + POISON_FILL_LENGTH)
    (room : r.mainBuff + (r.size + POISON_REGIONS * POISON_FILL_LENGTH) < 18446744073709551616)
    (known : ∃ e ∈ table.entries, e.2 = r ∧ e.2.Contains p)
    (atBase : size = 0 ∨ (p = r.handle ∧ size ≤ r.size + POISON_FILL_LENGTH)) :
    MapsFaithfully table mapFlags p size := by
  have lengths : POISON_FILL_LENGTH = 4096 ∧ POISON_REGIONS * POISON_FILL_LENGTH = 8192 :=
    ⟨rfl, rfl⟩
  obtain ⟨e, mem, rfl, contains⟩ := known
  have small : size + 4096 < 18446744073709551616 := by
    rcases atBase with rfl | ⟨-, short⟩
    · decide
    · omega
  constructor
  case covers =>
    intro host
    simp only [clEnqueueSVMMap, found, Option.elim_some]
    apply (covers_iff aligned contains.1 (by omega)).mpr
    rcases atBase with empty | ⟨base, -⟩
    · exact Or.inl empty
    · exact Or.inr ⟨base, small⟩
  case inside =>
    intro host e' mem' contains' a low high
    rw [allocated.eq_of_contains found mem' contains']
    simp only [clEnqueueSVMMap, found, Option.elim_some] at low high
    rw [lengths.1, u64_of_lt small] at high
    rw [SvmObj.Allocation]
    rcases atBase with rfl | ⟨-, short⟩
    · omega
    · omega
  case unmodified =>
    intro host a outside
    simp only [clEnqueueSVMMap, found, Option.elim_some]
    split_ifs
    · exact fill_mainBuff_outside (outside e mem contains)
    · rfl

/-- A mapping into a region that covers what was asked for, and stays in the allocation. -/
theorem atBase_of_mapsFaithfully (faithful : MapsFaithfully table mapFlags p size)
    {e : Nat × SvmObj} (mem : e ∈ table.entries) (contains : e.2.Contains p)
    (found : clSvmMemFind table p = some e.2)
    (aligned : e.2.handle = e.2.mainBuff + POISON_FILL_LENGTH)
    (sizeLt : size < 18446744073709551616) :
    size = 0 ∨ (p = e.2.handle ∧ size ≤ e.2.size + POISON_FILL_LENGTH) := by
  have lengths : POISON_FILL_LENGTH = 4096 ∧ POISON_REGIONS * POISON_FILL_LENGTH = 8192 :=
    ⟨rfl, rfl⟩
  have covers := faithful.covers fun _ => 0
  simp only [clEnqueueSVMMap, found, Option.elim_some] at covers
  rcases (covers_iff aligned contains.1 sizeLt).mp covers with empty | ⟨base, small⟩
  · exact Or.inl empty
  · right
    refine ⟨base, ?_⟩
    by_contra tooLong
    -- the last byte that is mapped
    have inside := faithful.inside (fun _ => 0) e mem contains (e.2.mainBuff + size + 4095)
    simp only [clEnqueueSVMMap, found, Option.elim_some, u64_of_lt small,
      SvmObj.Allocation] at inside
    omega

/-- A mapping is faithful exactly where it starts at the base of its region and
ends in the allocation, or invalidates nothing of an unknown region. -/
theorem mapsFaithfully_iff (allocated : Allocated table) (sizeLt : SizeT size) :
    MapsFaithfully table mapFlags p size ↔ MapsAtBase table mapFlags p size := by
  unfold SizeT at sizeLt
  cases found : clSvmMemFind table p with
  | none =>
      have unknown : ∀ e ∈ table.entries, ¬ e.2.Contains p := by
        intro e mem contains
        rw [allocated.find_of_contains mem contains] at found
        contradiction
      simp only [MapsAtBase, found]
      exact mapsFaithfully_of_unknown unknown found
  | some r =>
      obtain ⟨e, mem, rfl, lower, -⟩ := allocated.of_find found
      have aligned := allocated.base e mem
      by_cases contains : e.2.Contains p
      · simp only [MapsAtBase, found, if_pos contains]
        constructor
        · exact fun faithful => atBase_of_mapsFaithfully faithful mem contains found aligned sizeLt
        · exact fun atBase => mapsFaithfully_of_base allocated found aligned
            (allocated.addressable e mem) ⟨e, mem, rfl, contains⟩ atBase
      · have unknown : ∀ e' ∈ table.entries, ¬ e'.2.Contains p := by
          intro e' mem' contains'
          rw [allocated.eq_of_contains found mem' contains'] at contains'
          exact contains contains'
        simp only [MapsAtBase, found, if_neg contains]
        exact mapsFaithfully_of_end unknown found aligned lower sizeLt

end Mapping

theorem allocated_sixteenBytes : Allocated (svmTableOf [.insert sixteenBytes]) := by
  have all : (svmTableOf [.insert sixteenBytes]).entries = [(8192, sixteenBytes)] := by decide
  constructor
  case keyed => exact keyedByBase_svmTableOf _
  case base =>
    intro e mem
    rw [all, List.mem_singleton] at mem
    rw [mem]
    rfl
  case addressable =>
    intro e mem
    rw [all, List.mem_singleton] at mem
    rw [mem]
    decide
  case apart =>
    intro e mem e' mem' _ _ _
    rw [all, List.mem_singleton] at mem mem'
    rw [mem, mem']

/-- All sixteen bytes. -/
theorem mapsFaithfully_iff_base :
    MapsFaithfully (svmTableOf [.insert sixteenBytes]) { writeInvalidateRegion := true } 8192 16 ↔
      MapsAtBase (svmTableOf [.insert sixteenBytes]) { writeInvalidateRegion := true } 8192 16 :=
  mapsFaithfully_iff allocated_sixteenBytes (by unfold SizeT; decide)

/-- Eight bytes from the middle on: the mapped range ends where they start.  At an
unknown pointer the invalidation overwrites what is there. -/
theorem not_mapsFaithfully :
    ¬ MapsFaithfully (svmTableOf [.insert sixteenBytes]) { write := true } 8200 8 ∧
      ¬ MapsFaithfully OrderedMap.empty { writeInvalidateRegion := true } 8192 16 := by
  constructor
  · intro faithful
    obtain ⟨-, last⟩ := faithful.covers (fun _ => 0) 8207 (by decide) (by decide)
    exact absurd last (by decide)
  · intro faithful
    have kept := faithful.unmodified (fun _ => 0) 8192 fun e mem => by cases mem
    exact absurd kept (by decide)

end Clarmor
