import Clarmor.Check.HostCheck
import Clarmor.Library.Loop

/-!
# The loops of the host check

`cpu_parse_canary` compares words first and goes through the bytes of the first word
that differs.  Its array need not end with a whole word, so up to three bytes behind
the canaries are compared, too; they are never reported.

The calls that it makes are those for the byte that the search of the host check finds.
-/

namespace Clarmor

open Word Loop

/-- The environment variables that a scan reads. -/
structure ScanEnv where
  printBacktrace : Bool
  exitOnError : Bool
deriving DecidableEq, Repr

/-- The calls of `cpu_parse_canary`. -/
inductive ScanCall where
  | overflowError (buffer : Handle) (badByte : Nat) (backtrace : Bool)
  | printDupeWarning
  | exit
  | mendCanaryRegion (buffer : Handle)
deriving DecidableEq, Repr

/-- The calls for a bad byte; `optionalKillOnOverflow` may end the process. -/
def reportByte (env : ScanEnv) (buffer : Handle) (badByte : Nat) : List ScanCall :=
  [.overflowError buffer (u32 badByte) env.printBacktrace, .printDupeWarning] ++
    if env.exitOnError then [.exit] else [.mendCanaryRegion buffer]

/-- The reports among the calls. -/
def reports (calls : List ScanCall) : List Overflow :=
  calls.filterMap fun
    | .overflowError buffer badByte _ => some ⟨buffer, badByte⟩
    | _ => none

/-- A byte of the array at `map_ptr`; what is behind the array cannot be read. -/
def mapByte (map : List UInt8) (a : Nat) : UInt8 := map.getD a 0

/-- The `p`-th word of the array. -/
def mapWord (map : List UInt8) (p : Nat) : Option Nat :=
  if 4 * p + 4 ≤ map.length then some (leWord (mapByte map) p) else none

/-- One turn of the inner loop. -/
def scanByte (env : ScanEnv) (buffer : Handle) (checkLen : Nat) (map : List UInt8) (p q : Nat)
    (calls : List ScanCall) : Option (List ScanCall × Bool) :=
  map[4 * p + q]?.map fun byte =>
    if byte ≠ POISON_FILL ∧ 4 * p + q < checkLen then
      (calls ++ reportByte env buffer (4 * p + q), true)
    else (calls, false)

/-- One turn of the outer loop; it ends with the first word that differs. -/
def scanWord (env : ScanEnv) (buffer : Handle) (checkLen : Nat) (map : List UInt8) (p : Nat)
    (calls : List ScanCall) : Option (List ScanCall × Bool) :=
  (mapWord map p).bind fun word =>
    if word = poisonFill_32b then some (calls, false)
    else (loopBreak 4 (scanByte env buffer checkLen map p) calls).map fun r => (r.1, true)

/-- The calls of `cpu_parse_canary`, in their order. -/
def cpuParseCanaryCalls (env : ScanEnv) (buffer : Handle) (checkLen : Nat) (map : List UInt8) :
    Option (List ScanCall) :=
  (loopBreak (divideCeiling checkLen 4) (scanWord env buffer checkLen map) []).map Prod.fst

variable {env : ScanEnv} {buffer : Handle} {checkLen badByte p : Nat} {map : List UInt8}

theorem reports_reportByte (env : ScanEnv) (buffer : Handle) (badByte : Nat) :
    reports (reportByte env buffer badByte) = [⟨buffer, u32 badByte⟩] := by
  cases env with
  | mk printBacktrace exitOnError => cases exitOnError <;> rfl

/-- The first byte of a word that is reported. -/
def badByteOf (checkLen : Nat) (map : List UInt8) (p : Nat) : Option Nat :=
  (List.range 4).find? fun q => mapByte map (4 * p + q) ≠ POISON_FILL ∧ 4 * p + q < checkLen

/-- The inner loop is a search in the bytes of the word. -/
theorem scanWord_eq (inside : 4 * p + 4 ≤ map.length) :
    scanWord env buffer checkLen map p [] =
      some (if leWord (mapByte map) p = poisonFill_32b then ([], false)
        else ((badByteOf checkLen map p).elim []
          fun q => reportByte env buffer (4 * p + q), true)) := by
  rw [scanWord, mapWord, if_pos inside, Option.bind_some]
  split_ifs with intact
  · rfl
  · rw [loopBreak_eq_find
      (fun q => mapByte map (4 * p + q) ≠ POISON_FILL ∧ 4 * p + q < checkLen)
      (fun q => reportByte env buffer (4 * p + q)), Option.map_some, badByteOf]
    · cases (List.range 4).find? fun q =>
        decide (mapByte map (4 * p + q) ≠ POISON_FILL ∧ 4 * p + q < checkLen) <;> rfl
    · intro q qLt
      have isByte : map[4 * p + q]? = some (mapByte map (4 * p + q)) := by
        rw [mapByte, List.getD_eq_getElem?_getD, List.getElem?_eq_getElem (by omega)]
        rfl
      rw [scanByte, isByte, Option.map_some]
      congr 1
      simp only [decide_eq_true_eq, List.nil_append]

/-- The calls are those for the byte that the search finds. -/
theorem cpuParseCanaryCalls_eq (readable : 4 * divideCeiling checkLen 4 ≤ map.length) :
    cpuParseCanaryCalls env buffer checkLen map =
      some ((cpuParseCanary checkLen (mapByte map)).elim [] (reportByte env buffer)) := by
  rw [cpuParseCanaryCalls, loopBreak_eq_find (fun p => leWord (mapByte map) p ≠ poisonFill_32b)
    (fun p => (badByteOf checkLen map p).elim [] fun q => reportByte env buffer (4 * p + q)),
    Option.map_some, cpuParseCanary]
  · cases (List.range (divideCeiling checkLen 4)).find? fun p =>
      decide (leWord (mapByte map) p ≠ poisonFill_32b) with
    | none => rfl
    | some p =>
        rw [Option.bind_some, Option.elim_some, ← badByteOf]
        cases badByteOf checkLen map p <;> rfl
  · intro p pLt
    rw [scanWord_eq (by omega)]
    congr 1
    simp only [decide_eq_true_eq, ne_eq, ite_not]

/-! ## Exactness -/

variable {canary padding : List UInt8}

/-- The places of the bytes that are no canary bytes. -/
def changedAt (canary : List UInt8) : Set Nat :=
  {k | ∃ byte, canary[k]? = some byte ∧ byte ≠ POISON_FILL}

theorem mem_changedAt_iff {k : Nat} (kLt : k < canary.length) :
    k ∈ changedAt canary ↔ mapByte (canary ++ padding) k ≠ POISON_FILL := by
  have isByte : canary[k]? = some (mapByte (canary ++ padding) k) := by
    rw [mapByte, List.getD_eq_getElem?_getD, List.getElem?_append_left kLt,
      List.getElem?_eq_getElem kLt]
    rfl
  constructor
  · rintro ⟨byte, here, differs⟩
    rw [isByte] at here
    rwa [Option.some.inj here]
  · exact fun differs => ⟨_, isByte, differs⟩

theorem changedAt_lt {k : Nat} (changed : k ∈ changedAt canary) : k < canary.length := by
  obtain ⟨byte, here, -⟩ := changed
  exact (List.getElem?_eq_some_iff.mp here).1

/-- The search finds the first changed byte, whatever is behind the canaries. -/
theorem cpuParseCanary_isLeast_iff (small : canary.length < 4294967296) :
    cpuParseCanary canary.length (mapByte (canary ++ padding)) = some badByte ↔
      IsLeast (changedAt canary) badByte := by
  rw [cpuParseCanary_eq_some_iff small]
  constructor
  · rintro ⟨inside, differs, before⟩
    refine ⟨(mem_changedAt_iff inside).mpr differs, fun k changed => ?_⟩
    by_contra earlier
    exact (mem_changedAt_iff (changedAt_lt changed)).mp changed (before k (not_le.mp earlier))
  · rintro ⟨changed, least⟩
    have inside := changedAt_lt changed
    refine ⟨inside, (mem_changedAt_iff inside).mp changed, fun k kLt => ?_⟩
    by_contra differs
    have earlier := least ((mem_changedAt_iff (kLt.trans inside)).mpr differs)
    exact absurd kLt (not_lt.mpr earlier)

theorem cpuParseCanary_intact_iff (small : canary.length < 4294967296) :
    cpuParseCanary canary.length (mapByte (canary ++ padding)) = none ↔
      ∀ byte ∈ canary, byte = POISON_FILL := by
  rw [cpuParseCanary_eq_none_iff small]
  constructor
  · intro clean byte mem
    obtain ⟨k, here⟩ := List.mem_iff_getElem?.mp mem
    by_contra differs
    have changed : k ∈ changedAt canary := ⟨byte, here, differs⟩
    have inside := changedAt_lt changed
    exact (@mem_changedAt_iff canary padding k inside).mp changed (clean k inside)
  · intro clean k kLt
    by_contra differs
    obtain ⟨byte, here, differs⟩ := (mem_changedAt_iff kLt).mpr differs
    exact differs (clean byte (List.mem_of_getElem? here))

/-- The host check of a canary of any length makes no report when all bytes are canary
bytes, and one report, of the first byte that is none, otherwise.  It reads the canary
and the bytes that fill up its last word, and nothing behind them. -/
theorem cpuParseCanaryCalls_exact (env : ScanEnv) (buffer : Handle)
    (small : canary.length < 4294967296) (whole : 4 ∣ canary.length + padding.length) :
    ∃ calls, cpuParseCanaryCalls env buffer canary.length (canary ++ padding) = some calls ∧
      ((∀ byte ∈ canary, byte = POISON_FILL) → reports calls = []) ∧
      ((∃ byte ∈ canary, byte ≠ POISON_FILL) →
        ∃ badByte, reports calls = [⟨buffer, badByte⟩] ∧ IsLeast (changedAt canary) badByte) := by
  obtain ⟨-, tight⟩ := divideCeiling_four small
  have readable : 4 * divideCeiling canary.length 4 ≤ (canary ++ padding).length := by
    rw [List.length_append]
    omega
  refine ⟨_, cpuParseCanaryCalls_eq readable, fun clean => ?_, ?_⟩
  · rw [(cpuParseCanary_intact_iff small).mpr clean]
    rfl
  · rintro ⟨byte, mem, differs⟩
    cases found : cpuParseCanary canary.length (mapByte (canary ++ padding)) with
    | none => exact absurd ((cpuParseCanary_intact_iff small).mp found byte mem) differs
    | some badByte =>
        have least := (cpuParseCanary_isLeast_iff small).mp found
        have inside := changedAt_lt least.1
        refine ⟨badByte, ?_, least⟩
        rw [Option.elim_some, reports_reportByte, u32_of_lt (by omega)]

/-- A canary of five bytes whose last byte is wrong, in front of three wrong bytes. -/
theorem cpuParseCanaryCalls_exact_five :
    ∃ calls, cpuParseCanaryCalls ⟨false, false⟩ 7 5 ([0xC2, 0xC2, 0xC2, 0xC2, 1] ++ [2, 3, 4]) =
        some calls ∧
      ((∀ byte ∈ [(0xC2 : UInt8), 0xC2, 0xC2, 0xC2, 1], byte = POISON_FILL) →
        reports calls = []) ∧
      ((∃ byte ∈ [(0xC2 : UInt8), 0xC2, 0xC2, 0xC2, 1], byte ≠ POISON_FILL) →
        ∃ badByte, reports calls = [⟨7, badByte⟩] ∧
          IsLeast (changedAt [0xC2, 0xC2, 0xC2, 0xC2, 1]) badByte) :=
  @cpuParseCanaryCalls_exact [0xC2, 0xC2, 0xC2, 0xC2, 1] [2, 3, 4] ⟨false, false⟩ 7 (by decide)
    (by decide)

/-- Wrong bytes behind the canary are not reported. -/
example : cpuParseCanaryCalls ⟨false, false⟩ 7 5 [0xC2, 0xC2, 0xC2, 0xC2, 0xC2, 2, 3, 4] =
    some [] := by decide

end Clarmor
