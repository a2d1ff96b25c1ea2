import Clarmor.Library.Run
import Clarmor.Wrapper.Placement

/-!
# The check on the host

`verify_cl_mem` reads the two canary regions of every buffer into one array,
`cpu_parse_canary` looks for the first byte in an image of the two regions that
is not a canary byte, and a buffer with such a byte is reported and repaired.

Over a sequence of launches an overflow is put down to the launch that caused it,
as long as the array of no launch is longer than a 32-bit count of bytes.
-/

namespace Clarmor

open Word Store

/-- `divide_ceiling`. -/
def divideCeiling (a b : Nat) : Nat := if a % b = 0 then a / b else u32 (a / b + 1)

/-- `cpu_parse_canary`: the first word that is not a canary word is gone through
byte by byte, and the search ends with it. -/
def cpuParseCanary (checkLen : Nat) (mapPtr : Nat → UInt8) : Option Nat :=
  ((List.range (divideCeiling checkLen 4)).find? fun p => leWord mapPtr p ≠ poisonFill_32b).bind
    fun p =>
      ((List.range 4).find? fun q =>
        mapPtr (4 * p + q) ≠ POISON_FILL ∧ 4 * p + q < checkLen).map fun q => 4 * p + q

/-- One call of `overflowError`: the buffer and `bad_byte`. -/
structure Overflow where
  buffer : Handle
  badByte : Nat
deriving DecidableEq, Repr

/-- The distance that is printed: not negative past the end, negative before the
start. -/
def Overflow.pos (o : Overflow) : Int := toInt32 o.badByte - POISON_FILL_LENGTH

/-- One turn of the loop of `read_cl_mem_canaries`.  An unknown buffer ends the
process, and a read past the end of the array is a fault. -/
def readCanary (w : Wrapper) (bufferPtrs : List Handle) (i : Nat) (canaries : Block UInt8) :
    Option (Block UInt8) :=
  (bufferPtrs[i]?.bind w.table.find).bind fun m1 =>
    (readClMemRegions i m1).foldlM (fun canaries c =>
      (w.rt.readBuffer m1.mainBuff c.src c.len).bind fun data =>
        canaries.blit c.dst data 0 c.len) canaries

/-- The array of `verify_cl_mem` after the reads.  What `malloc` left in it does
not matter. -/
def readClMemCanaries (w : Wrapper) (bufferPtrs : List Handle) : Option (Block UInt8) :=
  Loop.loop bufferPtrs.length (readCanary w bufferPtrs)
    (Block.replicate (u32 (POISON_FILL_LENGTH * POISON_REGIONS * bufferPtrs.length)) 0)

/-- The parse of one buffer, and its repair. -/
def checkClMem (canaries : Block UInt8) (bufferPtrs : List Handle) (i : Nat)
    (s : List Overflow × Wrapper) : Option (List Overflow × Wrapper) :=
  (bufferPtrs[i]?.bind s.2.table.find).bind fun m1 =>
    let thisCanary := u32 (i * (POISON_REGIONS * POISON_FILL_LENGTH))
    match cpuParseCanary (POISON_REGIONS * POISON_FILL_LENGTH) fun a =>
        canaries.get (thisCanary + a) with
    | none => some s
    | some badByte =>
        (mendCanaryRegion s.2 m1.handle).map fun w => (s.1 ++ [⟨m1.handle, badByte⟩], w)

/-- `verify_cl_mem`: the reports, and the state after the repairs. -/
def verifyClMem (w : Wrapper) (bufferPtrs : List Handle) : Option (List Overflow × Wrapper) :=
  if bufferPtrs = [] then some ([], w)
  else
    (readClMemCanaries w bufferPtrs).bind fun canaries =>
      Loop.loop bufferPtrs.length (checkClMem canaries bufferPtrs) ([], w)

/-! ## The search for a byte -/

theorem poisonFill_32b_eq : poisonFill_32b = splat POISON_FILL := rfl

theorem divideCeiling_four {len : Nat} (small : len < 4294967296) :
    len ≤ 4 * divideCeiling len 4 ∧ 4 * divideCeiling len 4 < len + 4 := by
  rw [divideCeiling]
  split_ifs with whole
  · omega
  · rw [u32_of_lt (by omega)]
    omega

/-- The first index below a bound with a property. -/
theorem find?_range_iff {n k : Nat} {p : Nat → Prop} [DecidablePred p] :
    ((List.range n).find? fun j => p j) = some k ↔ k < n ∧ p k ∧ ∀ j < k, ¬ p j := by
  rw [List.find?_range_eq_some, List.mem_range, decide_eq_true_eq]
  have before : (∀ j < k, (!decide (p j)) = true) ↔ ∀ j < k, ¬ p j := by simp
  rw [before]
  tauto

/-- The search finds the first byte that is not a canary byte. -/
theorem cpuParseCanary_eq_some_iff {len badByte : Nat} {m : Nat → UInt8}
    (small : len < 4294967296) : cpuParseCanary len m = some badByte ↔
      badByte < len ∧ m badByte ≠ POISON_FILL ∧ ∀ k < badByte, m k = POISON_FILL := by
  obtain ⟨covers, tight⟩ := divideCeiling_four small
  have intact : ∀ p, leWord m p = poisonFill_32b ↔ ∀ q < 4, m (4 * p + q) = POISON_FILL :=
    fun p => by rw [poisonFill_32b_eq, leWord_eq_splat_iff]
  rw [cpuParseCanary, Option.bind_eq_some_iff]
  constructor
  · rintro ⟨p, found, inWord⟩
    obtain ⟨q, foundByte, rfl⟩ := Option.map_eq_some_iff.mp inWord
    obtain ⟨-, -, wordsBefore⟩ := find?_range_iff.mp found
    obtain ⟨qLt, ⟨bad, inside⟩, bytesBefore⟩ := find?_range_iff.mp foundByte
    refine ⟨inside, bad, fun k kLt => ?_⟩
    by_cases earlier : k < 4 * p
    · have byte := (intact (k / 4)).mp (not_ne_iff.mp (wordsBefore (k / 4) (by omega))) (k % 4)
        (by omega)
      rwa [Nat.div_add_mod] at byte
    · have byte := bytesBefore (k - 4 * p) (by omega)
      rw [show 4 * p + (k - 4 * p) = k by omega] at byte
      by_contra differs
      exact byte ⟨differs, by omega⟩
  · rintro ⟨inside, bad, before⟩
    have here : 4 * (badByte / 4) + badByte % 4 = badByte := Nat.div_add_mod badByte 4
    refine ⟨badByte / 4, find?_range_iff.mpr ⟨by omega, fun word => ?_, fun j jLt => ?_⟩, ?_⟩
    · have byte := (intact (badByte / 4)).mp word (badByte % 4) (by omega)
      rw [here] at byte
      exact bad byte
    · rw [not_ne_iff, intact]
      exact fun q qLt => before (4 * j + q) (by omega)
    · refine Option.map_eq_some_iff.mpr ⟨badByte % 4, find?_range_iff.mpr ⟨by omega, ?_, ?_⟩, here⟩
      · rw [here]
        exact ⟨bad, inside⟩
      · rintro q qLt ⟨differs, -⟩
        exact differs (before (4 * (badByte / 4) + q) (by omega))

/-- It finds nothing among canary bytes. -/
theorem cpuParseCanary_eq_none_iff {len : Nat} {m : Nat → UInt8} (small : len < 4294967296) :
    cpuParseCanary len m = none ↔ ∀ k < len, m k = POISON_FILL := by
  constructor
  · intro none
    by_contra some
    have exists_bad : ∃ k, k < len ∧ m k ≠ POISON_FILL := by simpa using some
    have found := (cpuParseCanary_eq_some_iff small).mpr
      ⟨(Nat.find_spec exists_bad).1, (Nat.find_spec exists_bad).2, fun k kLt => by
        by_contra bad
        have inside := (Nat.find_spec exists_bad).1
        exact Nat.find_min exists_bad kLt ⟨by omega, bad⟩⟩
    rw [none] at found
    contradiction
  · intro clean
    cases found : cpuParseCanary len m with
    | none => rfl
    | some badByte =>
        obtain ⟨inside, bad, -⟩ := (cpuParseCanary_eq_some_iff small).mp found
        exact absurd (clean badByte inside) bad

/-! ## Launches -/

/-- A launch: the buffers among its arguments, and the bytes that the kernel leaves
in the canary regions of each, by their place in the backing buffer. -/
structure KernelRun where
  args : List Handle
  wrote : Handle → Nat → UInt8

/-- Overwrite the two canary regions of a buffer. -/
def writeCanaries (rt : Runtime) (m1 : MemObj) (new : Nat → UInt8) : Option Runtime :=
  (mendRegions m1.size).foldlM
    (fun rt r => rt.writeBuffer m1.mainBuff r.1 r.2 fun a => new (r.1 + a)) rt

/-- The kernel runs. -/
def runKernel (w : Wrapper) (run : KernelRun) : Option Wrapper :=
  run.args.foldlM (fun w b =>
    (w.table.find b).bind fun m1 =>
      (writeCanaries w.rt m1 (run.wrote b)).map fun rt => { w with rt := rt }) w

/-- A launch with its check. -/
def launchChecked (w : Wrapper) (run : KernelRun) : Option (List Overflow × Wrapper) :=
  (runKernel w run).bind fun w => verifyClMem w run.args

/-- The place in the backing buffer of a byte of the image of the two regions. -/
def canaryCell (size k : Nat) : Nat :=
  if k < POISON_FILL_LENGTH then k else canaryOffset size + (k - POISON_FILL_LENGTH)

/-- A byte of the image of the two canary regions of a buffer. -/
def Wrapper.canaryAt (w : Wrapper) (b : Handle) (k : Nat) : Option UInt8 :=
  (w.table.find b).bind fun m1 =>
    (w.rt.window m1.mainBuff).map fun window =>
      w.rt.bytes window.store (window.origin + canaryCell m1.size k)

/-- All bytes of the image are canary bytes. -/
def Wrapper.Intact (w : Wrapper) (b : Handle) : Prop :=
  ∀ k < POISON_REGIONS * POISON_FILL_LENGTH, w.canaryAt b k = some POISON_FILL

/-- The first byte of the image that is not a canary byte. -/
def Wrapper.FirstChanged (w : Wrapper) (b : Handle) (k : Nat) : Prop :=
  k < POISON_REGIONS * POISON_FILL_LENGTH ∧ w.canaryAt b k ≠ some POISON_FILL ∧
    ∀ j < k, w.canaryAt b j = some POISON_FILL

/-- A buffer with canaries in a backing buffer. -/
structure Canaried (w : Wrapper) (b : Handle) (m1 : MemObj) (window : Window) : Prop where
  listed : w.table.find b = some m1
  handle : m1.handle = b
  plain : m1.isImage = false
  backing : w.rt.window m1.mainBuff = some window
  room : m1.size + POISON_REGIONS * POISON_FILL_LENGTH ≤ window.size

/-- Buffers with canaries, each in a storage of its own. -/
structure Armed (w : Wrapper) (buffers : List Handle) : Prop where
  own : ∀ b ∈ buffers, ∃ m1 window, Canaried w b m1 window
  apart : ∀ b ∈ buffers, ∀ b' ∈ buffers, b ≠ b' → ∀ m1 m1' window window',
    Canaried w b m1 window → Canaried w b' m1' window' → window.store ≠ window'.store

/-- The overflows of a launch are put down to it, each once and at its lowest byte,
and repaired. -/
def Attributed (buffers : List Handle) (w : Wrapper) (run : KernelRun) : Prop :=
  ∃ left reports w', runKernel w run = some left ∧
    launchChecked w run = some (reports, w') ∧
    (∀ b k, ⟨b, k⟩ ∈ reports ↔ b ∈ run.args ∧ left.FirstChanged b k) ∧
    (reports.map Overflow.buffer).Nodup ∧
    (∀ o ∈ reports, o.pos = (o.badByte : Int) - POISON_FILL_LENGTH) ∧
    ∀ b ∈ buffers, w'.Intact b

/-- A launch of a kernel on some of the buffers. -/
def TakesSome (buffers : List Handle) (_ : Wrapper) (run : KernelRun) : Prop :=
  run.args.Nodup ∧ ∀ b ∈ run.args, b ∈ buffers

/-! ## Overwriting canary regions -/

variable {w w' : Wrapper} {b : Handle} {m1 : MemObj} {window : Window} {buffers : List Handle}

theorem Canaried.canaryAt (own : Canaried w b m1 window) (k : Nat) :
    w.canaryAt b k = some (w.rt.bytes window.store (window.origin + canaryCell m1.size k)) := by
  rw [Wrapper.canaryAt, own.listed, Option.bind_some, own.backing, Option.map_some]

theorem Canaried.unique {m1' : MemObj} {window' : Window} (own : Canaried w b m1 window)
    (own' : Canaried w b m1' window') : m1' = m1 ∧ window' = window := by
  obtain rfl := Option.some.inj (own.listed.symm.trans own'.listed)
  exact ⟨rfl, Option.some.inj (own'.backing.symm.trans own.backing)⟩

/-- Buffers stay where they are when neither the table nor the objects change. -/
theorem Canaried.congr (own : Canaried w b m1 window) (table : w'.table = w.table)
    (objects : w'.rt.objects = w.rt.objects) : Canaried w' b m1 window where
  listed := by rw [table, own.listed]
  handle := own.handle
  plain := own.plain
  backing := by
    rw [← own.backing, Runtime.window, Runtime.window, objects]
  room := own.room

theorem Armed.congr (armed : Armed w buffers) (table : w'.table = w.table)
    (objects : w'.rt.objects = w.rt.objects) : Armed w' buffers where
  own := by
    intro b mem
    obtain ⟨m1, window, own⟩ := armed.own b mem
    exact ⟨m1, window, own.congr table objects⟩
  apart := by
    intro b mem b' mem' differ m1 m1' window window' own own'
    exact armed.apart b mem b' mem' differ m1 m1' window window'
      (own.congr table.symm objects.symm) (own'.congr table.symm objects.symm)

/-- Writing a canary region of a buffer. -/
theorem writeBuffer_spec {rt : Runtime} {handle : Handle} {off : Nat} {new : Nat → UInt8}
    (backing : rt.window handle = some window) (fits : off + POISON_FILL_LENGTH ≤ window.size) :
    ∃ rt', rt.writeBuffer handle off POISON_FILL_LENGTH (fun a => new (off + a)) = some rt' ∧
      rt'.objects = rt.objects ∧ (∀ store ≠ window.store, rt'.bytes store = rt.bytes store) ∧
      ∀ a, rt'.bytes window.store (window.origin + a) =
        if off ≤ a ∧ a < off + POISON_FILL_LENGTH then new a
        else rt.bytes window.store (window.origin + a) := by
  refine ⟨_, Runtime.writeBuffer_of_window backing fits, rfl,
    fun store other => Function.update_of_ne other _ _, fun a => ?_⟩
  dsimp only
  rw [Function.update_self]
  split_ifs with inside
  · rw [blit_inside (by omega) (by omega)]
    congr 1
    omega
  · exact blit_outside (by omega)

theorem writeCanaries_spec {rt : Runtime} {new : Nat → UInt8}
    (backing : rt.window m1.mainBuff = some window)
    (room : m1.size + POISON_REGIONS * POISON_FILL_LENGTH ≤ window.size) :
    ∃ rt', writeCanaries rt m1 new = some rt' ∧ rt'.objects = rt.objects ∧
      (∀ store ≠ window.store, rt'.bytes store = rt.bytes store) ∧
      ∀ k < POISON_REGIONS * POISON_FILL_LENGTH,
        rt'.bytes window.store (window.origin + canaryCell m1.size k) =
          new (canaryCell m1.size k) := by
  have below := canaryOffset_le m1.size
  simp only [POISON_REGIONS, POISON_FILL_LENGTH] at room below
  obtain ⟨rt₁, first, objects₁, others₁, bytes₁⟩ :=
    @writeBuffer_spec window rt m1.mainBuff (canaryOffset m1.size) new backing
      (by simp only [POISON_FILL_LENGTH]; omega)
  have backing₁ : rt₁.window m1.mainBuff = some window := by
    rw [← backing, Runtime.window, Runtime.window, objects₁]
  obtain ⟨rt₂, second, objects₂, others₂, bytes₂⟩ :=
    @writeBuffer_spec window rt₁ m1.mainBuff 0 new backing₁
      (by simp only [POISON_FILL_LENGTH]; omega)
  refine ⟨rt₂, ?_, objects₂.trans objects₁,
    fun store other => (others₂ store other).trans (others₁ store other), fun k kLt => ?_⟩
  · simp only [writeCanaries, mendRegions, List.foldlM_cons, List.foldlM_nil,
      Option.bind_eq_bind, first, Option.bind_some, second]
    rfl
  · rw [bytes₂]
    split_ifs with front
    · rfl
    · rw [bytes₁, if_pos]
      simp only [POISON_FILL_LENGTH, POISON_REGIONS] at kLt
      by_cases before : k < 4096
      · simp [canaryCell, POISON_FILL_LENGTH, before] at front
      · rw [canaryCell, POISON_FILL_LENGTH, if_neg before]
        omega

/-- What overwriting the canaries of one buffer does to all. -/
structure Overwritten (buffers : List Handle) (w w' : Wrapper) (b : Handle)
    (new : Nat → UInt8) : Prop where
  table : w'.table = w.table
  objects : w'.rt.objects = w.rt.objects
  here : ∀ m1 window, Canaried w b m1 window → ∀ k < POISON_REGIONS * POISON_FILL_LENGTH,
    w'.canaryAt b k = some (new (canaryCell m1.size k))
  others : ∀ b' ∈ buffers, b' ≠ b → ∀ k, w'.canaryAt b' k = w.canaryAt b' k

theorem overwritten_of_writeCanaries {rt : Runtime} {new : Nat → UInt8}
    (armed : Armed w buffers) (mem : b ∈ buffers) (own : Canaried w b m1 window)
    (wrote : writeCanaries w.rt m1 new = some rt) :
    Overwritten buffers w { w with rt := rt } b new := by
  obtain ⟨rt', wrote', objects, others, bytes⟩ := @writeCanaries_spec m1 window w.rt new
    own.backing own.room
  obtain rfl := Option.some.inj (wrote.symm.trans wrote')
  constructor
  case table => rfl
  case objects => exact objects
  case here =>
    intro m1' window' own' k kLt
    obtain ⟨rfl, rfl⟩ := own.unique own'
    have own₁ : Canaried { w with rt := rt } b m1' window' := own.congr rfl objects
    rw [own₁.canaryAt, bytes k kLt]
  case others =>
    intro b' mem' other k
    obtain ⟨m1', window', own'⟩ := armed.own b' mem'
    have own₁ : Canaried { w with rt := rt } b' m1' window' := own'.congr rfl objects
    have apart := armed.apart b' mem' b mem other m1' m1 window' window own' own
    rw [own₁.canaryAt, own'.canaryAt, others window'.store apart]

/-- The repair of a buffer. -/
theorem mendCanaryRegion_spec (armed : Armed w buffers) (mem : b ∈ buffers) :
    ∃ w', mendCanaryRegion w b = some w' ∧ Overwritten buffers w w' b fun _ => POISON_FILL := by
  obtain ⟨m1, window, own⟩ := armed.own b mem
  obtain ⟨rt, wrote, -⟩ := @writeCanaries_spec m1 window w.rt (fun _ => POISON_FILL)
    own.backing own.room
  have filled : fillRegions w.rt m1.mainBuff (mendRegions m1.size) = some rt := wrote
  refine ⟨_, ?_, overwritten_of_writeCanaries armed mem own wrote⟩
  rw [mendCanaryRegion, own.listed]
  dsimp only
  rw [own.plain, if_neg Bool.false_ne_true, filled]
  rfl

/-- What a kernel leaves: its bytes in the canary regions of its arguments, and
those of all other buffers as they were. -/
structure Ran (buffers args : List Handle) (wrote : Handle → Nat → UInt8) (w left : Wrapper) :
    Prop where
  table : left.table = w.table
  objects : left.rt.objects = w.rt.objects
  passed : ∀ b ∈ args, ∀ m1 window, Canaried w b m1 window →
    ∀ k < POISON_REGIONS * POISON_FILL_LENGTH,
      left.canaryAt b k = some (wrote b (canaryCell m1.size k))
  others : ∀ b ∈ buffers, b ∉ args → ∀ k, left.canaryAt b k = w.canaryAt b k

theorem runKernel_spec {args : List Handle} {wrote : Handle → Nat → UInt8}
    (armed : Armed w buffers) (nodup : args.Nodup) (known : ∀ b ∈ args, b ∈ buffers) :
    ∃ left, runKernel w ⟨args, wrote⟩ = some left ∧ Ran buffers args wrote w left := by
  induction args generalizing w with
  | nil => exact ⟨w, rfl, rfl, rfl, by simp, fun _ _ _ _ => rfl⟩
  | cons b rest ih =>
      obtain ⟨apart, nodup⟩ := List.nodup_cons.mp nodup
      have mem := known b List.mem_cons_self
      obtain ⟨m1, window, own⟩ := armed.own b mem
      obtain ⟨rt, wrote₁, -⟩ := @writeCanaries_spec m1 window w.rt (wrote b) own.backing own.room
      have first := overwritten_of_writeCanaries armed mem own wrote₁
      obtain ⟨left, ran, later⟩ := ih (armed.congr first.table first.objects) nodup
        fun b' mem' => known b' (List.mem_cons_of_mem b mem')
      refine ⟨left, ?_, later.table.trans first.table, later.objects.trans first.objects, ?_, ?_⟩
      · rw [runKernel, List.foldlM_cons, own.listed, Option.bind_some, wrote₁]
        exact ran
      · intro b' mem' m1' window' own' k kLt
        rcases List.mem_cons.mp mem' with rfl | mem'
        · rw [later.others b' mem apart]
          exact first.here m1' window' own' k kLt
        · exact later.passed b' mem' m1' window' (own'.congr first.table first.objects) k kLt
      · intro b' mem' other k
        rw [List.mem_cons, not_or] at other
        rw [later.others b' mem' other.2, first.others b' mem' other.1]

/-! ## The array of the host -/

/-- The array has room for all canaries exactly when they are few. -/
theorem canariesLen_eq (n : Nat) :
    u32 (POISON_FILL_LENGTH * POISON_REGIONS * n) = 8192 * (n % 524288) := by
  change 8192 * n % (8192 * 524288) = _
  exact Nat.mul_mod_mul_left 8192 n 524288

/-- The images of the first buffers are in the array. -/
structure HoldsImages (w : Wrapper) (bufferPtrs : List Handle) (i : Nat) (canaries : Block UInt8) :
    Prop where
  len : canaries.len = 8192 * bufferPtrs.length
  image : ∀ j < i, ∀ b, bufferPtrs[j]? = some b → ∀ k < POISON_REGIONS * POISON_FILL_LENGTH,
    w.canaryAt b k = some (canaries.get (8192 * j + k))

theorem readCanary_spec {bufferPtrs : List Handle} {i : Nat} {canaries : Block UInt8}
    (few : bufferPtrs.length < 524288) (iLt : i < bufferPtrs.length) (armed : Armed w buffers)
    (known : ∀ b ∈ bufferPtrs, b ∈ buffers) (holds : HoldsImages w bufferPtrs i canaries) :
    ∃ canaries', readCanary w bufferPtrs i canaries = some canaries' ∧
      HoldsImages w bufferPtrs (i + 1) canaries' := by
  obtain ⟨m1, window, own⟩ := armed.own bufferPtrs[i] (known _ (List.getElem_mem iLt))
  have isPtr : bufferPtrs[i]? = some bufferPtrs[i] := List.getElem?_eq_getElem iLt
  have below := canaryOffset_le m1.size
  have room := own.room
  have len := holds.len
  simp only [POISON_REGIONS, POISON_FILL_LENGTH] at room below
  have start : u32 (i * POISON_REGIONS * POISON_FILL_LENGTH) = 8192 * i := by
    rw [u32_of_lt (by simp only [POISON_REGIONS, POISON_FILL_LENGTH]; omega), POISON_REGIONS,
      POISON_FILL_LENGTH]
    omega
  have front := @Runtime.readBuffer_of_window w.rt m1.mainBuff window 0 POISON_FILL_LENGTH
    own.backing (by simp only [POISON_FILL_LENGTH]; omega)
  have back := @Runtime.readBuffer_of_window w.rt m1.mainBuff window (canaryOffset m1.size)
    POISON_FILL_LENGTH own.backing (by simp only [POISON_FILL_LENGTH]; omega)
  obtain ⟨canaries', copied, len', bytes⟩ := @Block.blit_blit _ canaries (8192 * i)
    POISON_FILL_LENGTH 0 0 (fun a => w.rt.bytes window.store (window.origin + 0 + a))
    (fun a => w.rt.bytes window.store (window.origin + canaryOffset m1.size + a))
    (by simp only [POISON_FILL_LENGTH]; omega)
  have read : readCanary w bufferPtrs i canaries = some canaries' := by
    rw [← copied]
    simp only [readCanary, isPtr, Option.bind_some, own.listed, readClMemRegions, start,
      List.foldlM_cons, List.foldlM_nil, Option.bind_eq_bind, front, back]
    exact Option.bind_congr fun b _ => Option.bind_fun_some _
  refine ⟨_, read, len'.trans len, fun j jLt b isPtr' k kLt => ?_⟩
  have inside : k < 8192 := kLt
  rw [bytes]
  rcases Nat.lt_succ_iff_lt_or_eq.mp jLt with earlier | rfl
  · rw [if_neg (by omega), if_neg (by omega)]
    exact holds.image j earlier b isPtr' k kLt
  · obtain rfl := Option.some.inj (isPtr.symm.trans isPtr')
    rw [own.canaryAt, canaryCell, POISON_FILL_LENGTH]
    by_cases before : k < 4096
    · rw [if_pos before, if_pos ⟨by omega, by omega⟩,
        show 0 + (8192 * j + k - 8192 * j) = k by omega, Nat.add_zero]
    · rw [if_neg before, if_neg (by omega), if_pos ⟨by omega, by omega⟩,
        show 0 + (8192 * j + k - (8192 * j + 4096)) = k - 4096 by omega, Nat.add_assoc]

/-- With few buffers the array gets all images. -/
theorem readClMemCanaries_spec {bufferPtrs : List Handle} (few : bufferPtrs.length < 524288)
    (armed : Armed w buffers) (known : ∀ b ∈ bufferPtrs, b ∈ buffers) :
    ∃ canaries, readClMemCanaries w bufferPtrs = some canaries ∧
      HoldsImages w bufferPtrs bufferPtrs.length canaries := by
  apply Loop.loop_total _ (HoldsImages w bufferPtrs)
  · refine ⟨?_, by simp⟩
    rw [Block.replicate_len, canariesLen_eq, Nat.mod_eq_of_lt few]
  · intro i iLt canaries holds
    exact readCanary_spec few iLt armed known holds

/-- A turn keeps the length of the array and writes inside it. -/
theorem readCanary_inside {bufferPtrs : List Handle} {i : Nat} {canaries canaries' : Block UInt8}
    (read : readCanary w bufferPtrs i canaries = some canaries') :
    canaries'.len = canaries.len ∧
      u32 (i * POISON_REGIONS * POISON_FILL_LENGTH) + POISON_FILL_LENGTH ≤ canaries.len := by
  rw [readCanary] at read
  obtain ⟨m1, -, read⟩ := Option.bind_eq_some_iff.mp read
  simp only [readClMemRegions, List.foldlM_cons, List.foldlM_nil, Option.bind_eq_bind] at read
  obtain ⟨canaries₁, first, read⟩ := Option.bind_eq_some_iff.mp read
  obtain ⟨canaries₂, second, read⟩ := Option.bind_eq_some_iff.mp read
  obtain rfl := Option.some.inj read
  obtain ⟨front, -, first⟩ := Option.bind_eq_some_iff.mp first
  obtain ⟨back, -, second⟩ := Option.bind_eq_some_iff.mp second
  obtain ⟨inside, rfl⟩ := Block.blit_eq_some first
  obtain ⟨-, rfl⟩ := Block.blit_eq_some second
  exact ⟨rfl, inside⟩

/-- With more of them a read goes past its end. -/
theorem readClMemCanaries_eq_none {bufferPtrs : List Handle}
    (many : 524288 ≤ bufferPtrs.length) : readClMemCanaries w bufferPtrs = none := by
  have below : bufferPtrs.length % 524288 < 524288 := Nat.mod_lt _ (by decide)
  apply Loop.loop_eq_none (fun _ canaries => canaries.len = 8192 * (bufferPtrs.length % 524288))
    (lt_of_lt_of_le below many)
  · rw [Block.replicate_len, canariesLen_eq]
  · intro j _ canaries canaries' len read
    rw [(readCanary_inside read).1, len]
  · intro canaries len
    cases read : readCanary w bufferPtrs (bufferPtrs.length % 524288) canaries with
    | none => rfl
    | some canaries' =>
        have inside := (readCanary_inside read).2
        simp only [POISON_REGIONS, POISON_FILL_LENGTH] at inside
        rw [u32_of_lt (by omega)] at inside
        omega

/-! ## The parse -/

/-- After the parse of some buffers: they are reported when they had changed, and
intact; the others are as they were left. -/
structure Parsed (buffers bufferPtrs : List Handle) (left : Wrapper) (i : Nat)
    (s : List Overflow × Wrapper) : Prop where
  table : s.2.table = left.table
  objects : s.2.rt.objects = left.rt.objects
  reported : ∀ b k, ⟨b, k⟩ ∈ s.1 ↔ b ∈ bufferPtrs.take i ∧ left.FirstChanged b k
  once : List.Sublist (s.1.map Overflow.buffer) (bufferPtrs.take i)
  intact : ∀ b ∈ bufferPtrs.take i, s.2.Intact b
  others : ∀ b ∈ buffers, b ∉ bufferPtrs.take i → ∀ k, s.2.canaryAt b k = left.canaryAt b k

theorem checkClMem_spec {left : Wrapper} {bufferPtrs : List Handle} {canaries : Block UInt8}
    {i : Nat} {s : List Overflow × Wrapper} (few : bufferPtrs.length < 524288)
    (nodup : bufferPtrs.Nodup) (iLt : i < bufferPtrs.length) (armed : Armed left buffers)
    (known : ∀ b ∈ bufferPtrs, b ∈ buffers)
    (holds : HoldsImages left bufferPtrs bufferPtrs.length canaries)
    (parsed : Parsed buffers bufferPtrs left i s) :
    ∃ s', checkClMem canaries bufferPtrs i s = some s' ∧
      Parsed buffers bufferPtrs left (i + 1) s' := by
  obtain ⟨b, isPtr⟩ : ∃ b, bufferPtrs[i]? = some b := ⟨_, List.getElem?_eq_getElem iLt⟩
  have mem : b ∈ buffers := known b (List.mem_of_getElem? isPtr)
  have longer : bufferPtrs.take (i + 1) = bufferPtrs.take i ++ [b] := by
    rw [List.take_add_one, isPtr, Option.toList_some]
  have apart : b ∉ bufferPtrs.take i := by
    have prefixed := (List.take_sublist (i + 1) bufferPtrs).nodup nodup
    rw [longer, List.nodup_append] at prefixed
    intro earlier
    exact prefixed.2.2 b earlier b (List.mem_singleton_self b) rfl
  have armed' : Armed s.2 buffers := armed.congr parsed.table parsed.objects
  obtain ⟨m1, window, own⟩ := armed'.own b mem
  have start : u32 (i * (POISON_REGIONS * POISON_FILL_LENGTH)) = 8192 * i := by
    rw [u32_of_lt (by simp only [POISON_REGIONS, POISON_FILL_LENGTH]; omega), POISON_REGIONS,
      POISON_FILL_LENGTH]
    omega
  have image := holds.image i iLt b isPtr
  have small : POISON_REGIONS * POISON_FILL_LENGTH < 4294967296 := by decide
  have intactBefore : ∀ b' ∈ bufferPtrs.take i, b' ≠ b := fun b' earlier same =>
    apart (same ▸ earlier)
  simp only [checkClMem, isPtr, Option.bind_some, own.listed, start]
  cases found : cpuParseCanary (POISON_REGIONS * POISON_FILL_LENGTH) fun a =>
      canaries.get (8192 * i + a) with
  | none =>
      have clean := (cpuParseCanary_eq_none_iff small).mp found
      have unchanged : ∀ k, ¬ left.FirstChanged b k := by
        rintro k ⟨kLt, differs, -⟩
        rw [image k kLt, clean k kLt] at differs
        exact differs rfl
      refine ⟨s, rfl, parsed.table, parsed.objects, fun b' k => ?_, ?_, ?_, ?_⟩
      · rw [parsed.reported, longer, List.mem_append, List.mem_singleton]
        constructor
        · rintro ⟨earlier, changed⟩
          exact ⟨Or.inl earlier, changed⟩
        · rintro ⟨earlier | rfl, changed⟩
          · exact ⟨earlier, changed⟩
          · exact absurd changed (unchanged k)
      · rw [longer]
        exact parsed.once.trans (List.sublist_append_left _ _)
      · intro b' mem'
        rw [longer, List.mem_append, List.mem_singleton] at mem'
        rcases mem' with earlier | rfl
        · exact parsed.intact b' earlier
        · intro k kLt
          rw [parsed.others b' mem apart, image k kLt, clean k kLt]
      · intro b' mem' other k
        rw [longer, List.mem_append, not_or] at other
        exact parsed.others b' mem' other.1 k
  | some badByte =>
      obtain ⟨inside, bad, before⟩ := (cpuParseCanary_eq_some_iff small).mp found
      obtain ⟨w', mended, filled⟩ := mendCanaryRegion_spec armed' mem
      have changed : ∀ k, left.FirstChanged b k ↔ k = badByte := by
        intro k
        constructor
        · rintro ⟨kLt, differs, same⟩
          rw [image k kLt, ne_eq, Option.some.injEq] at differs
          rcases lt_trichotomy k badByte with earlier | here | later
          · exact absurd (before k earlier) differs
          · exact here
          · have clean := same badByte later
            rw [image badByte inside, Option.some.injEq] at clean
            exact absurd clean bad
        · rintro rfl
          refine ⟨inside, ?_, fun j jLt => ?_⟩
          · rw [image k inside, ne_eq, Option.some.injEq]
            exact bad
          · rw [image j (jLt.trans inside), before j jLt]
      rw [own.handle, mended]
      refine ⟨_, rfl, filled.table.trans parsed.table, filled.objects.trans parsed.objects,
        fun b' k => ?_, ?_, ?_, ?_⟩
      · dsimp only
        rw [List.mem_append, List.mem_singleton, parsed.reported, longer, List.mem_append,
          List.mem_singleton, Overflow.mk.injEq]
        constructor
        · rintro (⟨earlier, changed'⟩ | ⟨rfl, rfl⟩)
          · exact ⟨Or.inl earlier, changed'⟩
          · exact ⟨Or.inr rfl, (changed k).mpr rfl⟩
        · rintro ⟨earlier | rfl, changed'⟩
          · exact Or.inl ⟨earlier, changed'⟩
          · exact Or.inr ⟨rfl, (changed k).mp changed'⟩
      · dsimp only
        rw [longer, List.map_append]
        exact parsed.once.append (List.Sublist.refl _)
      · intro b' mem' k kLt
        rw [longer, List.mem_append, List.mem_singleton] at mem'
        rcases mem' with earlier | rfl
        · have known' := known b' (List.mem_of_mem_take earlier)
          exact (filled.others b' known' (intactBefore b' earlier) k).trans
            (parsed.intact b' earlier k kLt)
        · exact filled.here m1 window own k kLt
      · intro b' mem' other k
        rw [longer, List.mem_append, List.mem_singleton, not_or] at other
        exact (filled.others b' mem' other.2 k).trans (parsed.others b' mem' other.1 k)

/-- A check of few buffers reports those that were changed, and repairs them. -/
theorem verifyClMem_spec {left : Wrapper} {bufferPtrs : List Handle}
    (few : bufferPtrs.length < 524288) (nodup : bufferPtrs.Nodup) (armed : Armed left buffers)
    (known : ∀ b ∈ bufferPtrs, b ∈ buffers) :
    ∃ s, verifyClMem left bufferPtrs = some s ∧
      Parsed buffers bufferPtrs left bufferPtrs.length s := by
  have start : Parsed buffers bufferPtrs left 0 ([], left) :=
    ⟨rfl, rfl, by simp, List.nil_sublist _, by simp, fun _ _ _ _ => rfl⟩
  rw [verifyClMem]
  split_ifs with none
  · rw [none] at start ⊢
    exact ⟨_, rfl, start⟩
  · obtain ⟨canaries, read, holds⟩ := readClMemCanaries_spec few armed known
    rw [read, Option.bind_some]
    exact Loop.loop_total _ (Parsed buffers bufferPtrs left) start fun i iLt s parsed =>
      checkClMem_spec few nodup iLt armed known holds parsed

theorem verifyClMem_eq_none {left : Wrapper} {bufferPtrs : List Handle}
    (many : 524288 ≤ bufferPtrs.length) : verifyClMem left bufferPtrs = none := by
  have some : bufferPtrs ≠ [] := by
    rintro rfl
    contradiction
  rw [verifyClMem, if_neg some, readClMemCanaries_eq_none many]
  rfl

/-! ## Sequences of launches -/

/-- Before every launch the canaries are there. -/
structure Guarded (buffers : List Handle) (w : Wrapper) : Prop where
  armed : Armed w buffers
  intact : ∀ b ∈ buffers, w.Intact b

theorem attributed_of_few {run : KernelRun} (guarded : Guarded buffers w)
    (takes : TakesSome buffers w run) (few : run.args.length < 524288) :
    Attributed buffers w run ∧ ∀ reports w', launchChecked w run = some (reports, w') →
      Guarded buffers w' := by
  obtain ⟨args, wrote⟩ := run
  obtain ⟨nodup, known⟩ := takes
  obtain ⟨left, ran, kernel⟩ := @runKernel_spec w buffers args wrote guarded.armed nodup known
  have armed := guarded.armed.congr kernel.table kernel.objects
  obtain ⟨⟨reports, w'⟩, verified, parsed⟩ := verifyClMem_spec few nodup armed known
  have launched : launchChecked w ⟨args, wrote⟩ = some (reports, w') := by
    rw [launchChecked, ran]
    exact verified
  have whole : args.take args.length = args := List.take_length
  have intact : ∀ b ∈ buffers, w'.Intact b := by
    intro b mem
    by_cases passed : b ∈ args
    · exact parsed.intact b (whole.symm ▸ passed)
    · intro k kLt
      rw [parsed.others b mem (whole.symm ▸ passed), kernel.others b mem passed]
      exact guarded.intact b mem k kLt
  constructor
  · refine ⟨left, reports, w', ran, launched, fun b k => ?_, parsed.once.nodup ?_, ?_, intact⟩
    · rw [parsed.reported, whole]
    · rwa [whole]
    · rintro ⟨b, k⟩ mem
      obtain ⟨-, kLt, -⟩ := (parsed.reported b k).mp mem
      simp only [POISON_REGIONS, POISON_FILL_LENGTH] at kLt
      rw [Overflow.pos, toInt32_of_lt (by dsimp only; omega)]
  · intro reports₁ w₁ launched₁
    obtain ⟨rfl, rfl⟩ := Prod.mk.inj (Option.some.inj (launched.symm.trans launched₁))
    exact ⟨armed.congr parsed.table parsed.objects, intact⟩

theorem length_lt_of_launched {run : KernelRun} {s : List Overflow × Wrapper}
    (launched : launchChecked w run = some s) : run.args.length < 524288 := by
  obtain ⟨left, -, verified⟩ := Option.bind_eq_some_iff.mp launched
  by_contra many
  rw [verifyClMem_eq_none (not_lt.mp many)] at verified
  contradiction

/-- A new buffer has its canaries, and they are intact: what the launches keep begins here. -/
theorem canaried_of_clCreateBuffer {env : Env} {context handle : Handle} {flags : MemFlags}
    {size hostPtr : Nat} (keysLive : w.KeysLive)
    (own : flags.useHostPtr = false)
    (made : clCreateBuffer env w context flags size hostPtr = some (handle, none, w')) :
    (∃ m1 window, Canaried w' handle m1 window) ∧ w'.Intact handle := by
  rcases clCreateBuffer_cases made with ⟨-, failed, -⟩ | ⟨host, -⟩ |
    ⟨-, mainBuff, fillPtr, filled, backing, entered⟩
  · exact absurd rfl failed
  · rw [own] at host
    contradiction
  · have differ := backing.differ
    have fresh := backing.fresh
    have bytes := backing.bytes fillPtr.get rfl
    have inside := backing.inside
    obtain ⟨between, main, sub⟩ := backing.backed
    have entry : w'.table.find handle = some (bufferObject handle mainBuff context
        { bufferFlags flags with copyHostPtr := true } size hostPtr) := by
      rw [entered, clMemInsert]
      simp only [bufferObject, bufferFlags, own, Bool.false_eq_true, if_false]
      exact Table.find_insert_fresh (keysLive.not_key fresh sub.notNull)
    have window : w'.rt.window mainBuff =
        some ⟨w.rt.creations, 0, u64 (size + POISON_REGIONS * POISON_FILL_LENGTH)⟩ := by
      rw [Runtime.window, sub.objects, Table.find_insert_of_ne differ, main.objects,
        Table.find_insert_fresh main.fresh]
      rfl
    have canaried : Canaried w' handle (bufferObject handle mainBuff context
        { bufferFlags flags with copyHostPtr := true } size hostPtr)
        ⟨w.rt.creations, 0, u64 (size + POISON_REGIONS * POISON_FILL_LENGTH)⟩ := by
      refine ⟨entry, ?_, ?_, ?_, ?_⟩
      · simp [bufferObject, bufferFlags, own]
      · simp [bufferObject, bufferFlags, own]
      · simpa [bufferObject, bufferFlags, own] using window
      · simp only [bufferObject, bufferFlags, own, Bool.false_eq_true, if_false, u64,
          POISON_REGIONS, POISON_FILL_LENGTH] at inside ⊢
        omega
    refine ⟨⟨_, _, canaried⟩, fun k kLt => ?_⟩
    simp only [POISON_REGIONS, POISON_FILL_LENGTH] at kLt
    have isSize : (bufferObject handle mainBuff context
        { bufferFlags flags with copyHostPtr := true } size hostPtr).size = size := by
      simp [bufferObject, bufferFlags, own]
    rw [canaried.canaryAt, isSize]
    dsimp only
    rw [bytes, fillBufferCopy_get filled, Nat.zero_add]
    by_cases front : k < 4096
    · rw [canaryCell, POISON_FILL_LENGTH, if_pos front]
      simp [front]
    · rw [canaryCell, POISON_FILL_LENGTH, if_neg front, if_pos (by omega)]

/-- In a sequence of launches every launch has its overflows put down to it exactly
when it has fewer than `2 ^ 19` buffers. -/
theorem attributed_iff {w₀ : Wrapper} {run : KernelRun} (guarded : Guarded buffers w₀)
    (launches : Run.Reach (fun w run => (launchChecked w run).map Prod.snd) (TakesSome buffers)
      w₀ w) (takes : TakesSome buffers w run) :
    Attributed buffers w run ↔ run.args.length < 524288 := by
  have before : Guarded buffers w := by
    refine launches.invariant guarded fun t run t' guarded takes step => ?_
    obtain ⟨⟨reports, t''⟩, launched, rfl⟩ := Option.map_eq_some_iff.mp step
    exact (attributed_of_few guarded takes (length_lt_of_launched launched)).2 _ _ launched
  constructor
  · rintro ⟨-, reports, w', -, launched, -⟩
    exact length_lt_of_launched launched
  · exact fun few => (attributed_of_few before takes few).1

/-- The handles of `n` buffers. -/
def oddHandles (n : Nat) : List Handle := (List.range n).map fun i : Nat => (2 * i + 1 : Nat)

/-- Buffers of one byte; the backing buffer of each has the next handle. -/
def manyBuffers (n : Nat) : Wrapper :=
  { Wrapper.initial (fun _ => 0) false with
    table := fun h =>
      if h % 2 = 1 ∧ h < 2 * n then
        some { handle := h, mainBuff := h + 1, size := 1, hasCanary := true }
      else none
    rt :=
      { Runtime.initial with
        objects := fun h =>
          if h = NULL ∨ 2 * n < h then none
          else if h % 2 = 1 then some ⟨.buffer ⟨h + 1, POISON_FILL_LENGTH, 1⟩ true, 7, 1⟩
          else some ⟨.buffer ⟨h, 0, 8193⟩ false, 7, 1⟩
        bytes := fun _ _ => POISON_FILL } }

theorem guarded_manyBuffers (n : Nat) : Guarded (oddHandles n) (manyBuffers n) := by
  have own : ∀ b ∈ oddHandles n, Canaried (manyBuffers n) b
      { handle := b, mainBuff := b + 1, size := 1, hasCanary := true } ⟨b + 1, 0, 8193⟩ := by
    intro b mem
    obtain ⟨i, iLt, rfl⟩ := List.mem_map.mp mem
    rw [List.mem_range] at iLt
    have odd : (2 * i + 1) % 2 = 1 := by omega
    have below : 2 * i + 1 < 2 * n := by omega
    refine ⟨if_pos ⟨odd, below⟩, rfl, rfl, ?_, ?_⟩
    rotate_left
    · simp only [POISON_REGIONS, POISON_FILL_LENGTH]
      omega
    have live : (manyBuffers n).rt.objects.find (2 * i + 1 + 1) =
        some ⟨.buffer ⟨2 * i + 1 + 1, 0, 8193⟩ false, 7, 1⟩ := by
      have usable : ¬ (2 * i + 1 + 1 = 0 ∨ 2 * n < 2 * i + 1 + 1) := by omega
      have even : ¬ (2 * i + 1 + 1) % 2 = 1 := by omega
      exact (if_neg usable).trans (if_neg even)
    rw [Runtime.window, live]
    rfl
  refine ⟨⟨fun b mem => ⟨_, _, own b mem⟩, ?_⟩, fun b mem k _ => ?_⟩
  · intro b mem b' mem' differ m1 m1' window window' own₁ own₂
    obtain ⟨-, rfl⟩ := (own b mem).unique own₁
    obtain ⟨-, rfl⟩ := (own b' mem').unique own₂
    exact fun same => differ (Nat.succ_injective same)
  · rw [(own b mem).canaryAt]
    rfl

theorem takesSome_manyBuffers (n : Nat) :
    TakesSome (oddHandles n) (manyBuffers n) ⟨oddHandles n, fun _ _ => 0⟩ := by
  refine ⟨List.nodup_range.map fun i j same => ?_, fun b mem => mem⟩
  have same : (2 * i + 1 : Nat) = 2 * j + 1 := same
  omega

theorem oddHandles_length (n : Nat) : (oddHandles n).length = n := by
  rw [oddHandles, List.length_map, List.length_range]

/-- The third launch on two buffers; the first writes over both of them, and the second over
one. -/
theorem attributed_iff_three : ∃ w₁ w₂ reports₁ reports₂,
    launchChecked (manyBuffers 2) ⟨oddHandles 2, fun _ _ => 0⟩ = some (reports₁, w₁) ∧
      launchChecked w₁ ⟨[3], fun _ _ => 1⟩ = some (reports₂, w₂) ∧
      Attributed (oddHandles 2) w₂ ⟨oddHandles 2, fun _ _ => 2⟩ := by
  have both : ∀ w wrote, TakesSome (oddHandles 2) w ⟨oddHandles 2, wrote⟩ :=
    fun _ _ => ⟨(takesSome_manyBuffers 2).1, fun _ mem => mem⟩
  have second : ∀ w wrote, TakesSome (oddHandles 2) w ⟨[3], wrote⟩ := by
    refine fun _ _ => ⟨List.nodup_singleton 3, fun b mem => ?_⟩
    rw [List.mem_singleton.mp mem]
    decide
  obtain ⟨⟨-, reports₁, w₁, -, launched₁, -⟩, guarded₁⟩ := attributed_of_few
    (guarded_manyBuffers 2) (both _ fun _ _ => 0) (by decide)
  obtain ⟨⟨-, reports₂, w₂, -, launched₂, -⟩, -⟩ := attributed_of_few
    (guarded₁ reports₁ w₁ launched₁) (second _ fun _ _ => 1) (by dsimp only; decide)
  have first : Run.Reach (fun w run => (launchChecked w run).map Prod.snd)
      (TakesSome (oddHandles 2)) (manyBuffers 2) w₁ :=
    .tail .refl (both _ fun _ _ => 0) (by rw [launched₁]; rfl)
  have next : Run.Reach (fun w run => (launchChecked w run).map Prod.snd)
      (TakesSome (oddHandles 2)) (manyBuffers 2) w₂ :=
    first.tail (second _ fun _ _ => 1) (by rw [launched₂]; rfl)
  exact ⟨w₁, w₂, reports₁, reports₂, launched₁, launched₂,
    (attributed_iff (guarded_manyBuffers 2) next (both _ fun _ _ => 2)).mpr (by decide)⟩

/-- A launch with `2 ^ 19` buffers writes past the end of an empty array. -/
theorem not_attributed : ∃ buffers w run, Guarded buffers w ∧ TakesSome buffers w run ∧
    run.args.length = 524288 ∧ ¬ Attributed buffers w run := by
  obtain ⟨n, isN⟩ : ∃ n, n = 524288 := ⟨_, rfl⟩
  refine ⟨oddHandles n, manyBuffers n, ⟨oddHandles n, fun _ _ => 0⟩, guarded_manyBuffers n,
    takesSome_manyBuffers n, (oddHandles_length n).trans isN, ?_⟩
  rintro ⟨-, reports, w', -, launched, -⟩
  have few := length_lt_of_launched launched
  rw [oddHandles_length, isN] at few
  exact lt_irrefl _ few

end Clarmor
