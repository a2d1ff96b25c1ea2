import Mathlib

/-!
# Counted loops that may fail

`loop n body` runs `body 0`, ..., `body (n - 1)` in this order on a state and
stops at the first failure.  The rules below are the invariant rules of the
loop: a total one, which also gives that the loop does not fail, and a partial
one, for loops that are known to have succeeded.

Loops that end by a test and loops that end by a break have rules of their own.
-/

namespace Clarmor.Loop

universe u v

variable {σ : Type u}

/-- Run `body i` for `i` from `0` to `n - 1`, stopping at the first failure. -/
def loop : Nat → (Nat → σ → Option σ) → σ → Option σ
  | 0, _, s => some s
  | n + 1, body, s => (loop n body s).bind (body n)

@[simp]
theorem loop_zero (body : Nat → σ → Option σ) (s : σ) : loop 0 body s = some s :=
  rfl

theorem loop_succ (n : Nat) (body : Nat → σ → Option σ) (s : σ) :
    loop (n + 1) body s = (loop n body s).bind (body n) :=
  rfl

/-- A loop whose body handles the entries of a list handles all of these entries. -/
theorem loop_flatMap {τ : Type v} (f : σ → τ → Option σ) (entries : Nat → List τ) (n : Nat)
    (s : σ) : loop n (fun i s => (entries i).foldlM f s) s =
      ((List.range n).flatMap entries).foldlM f s := by
  induction n with
  | zero => rfl
  | succ n ih =>
      rw [loop_succ, ih, List.range_succ, List.flatMap_append, List.foldlM_append]
      simp

/-- A loop whose body handles one entry. -/
theorem loop_map {τ : Type v} (f : σ → τ → Option σ) (entry : Nat → τ) (n : Nat) (s : σ) :
    loop n (fun i s => f s (entry i)) s = ((List.range n).map entry).foldlM f s := by
  induction n with
  | zero => rfl
  | succ n ih =>
      rw [loop_succ, ih, List.range_succ, List.map_append, List.foldlM_append]
      simp

/-- Total invariant rule: a body that re-establishes the invariant at every
index makes the loop succeed and establish it at the end. -/
theorem loop_total (body : Nat → σ → Option σ) (Inv : Nat → σ → Prop) {n : Nat} {s : σ}
    (base : Inv 0 s)
    (step : ∀ i < n, ∀ t, Inv i t → ∃ t', body i t = some t' ∧ Inv (i + 1) t') :
    ∃ t, loop n body s = some t ∧ Inv n t := by
  induction n with
  | zero => exact ⟨s, rfl, base⟩
  | succ n ih =>
      obtain ⟨t, ran, inv⟩ := ih fun i iLt => step i (by omega)
      obtain ⟨t', stepped, inv'⟩ := step n (by omega) t inv
      exact ⟨t', by rw [loop_succ, ran]; exact stepped, inv'⟩

/-- Partial invariant rule, for a loop that is known to have succeeded. -/
theorem loop_invariant {body : Nat → σ → Option σ} (Inv : Nat → σ → Prop) {n : Nat} {s t : σ}
    (ran : loop n body s = some t) (base : Inv 0 s)
    (step : ∀ i < n, ∀ r r', Inv i r → body i r = some r' → Inv (i + 1) r') : Inv n t := by
  induction n generalizing t with
  | zero =>
      cases ran
      exact base
  | succ n ih =>
      rw [loop_succ] at ran
      obtain ⟨r, first, last⟩ := Option.bind_eq_some_iff.mp ran
      exact step n (by omega) r t
        (ih first fun i iLt => step i (by omega)) last

/-- A loop whose body fails at some index, whatever state reaches it, fails. -/
theorem loop_eq_none {body : Nat → σ → Option σ} (Inv : Nat → σ → Prop) {n i : Nat} {s : σ}
    (iLt : i < n) (base : Inv 0 s)
    (step : ∀ j < i, ∀ r r', Inv j r → body j r = some r' → Inv (j + 1) r')
    (fails : ∀ r, Inv i r → body i r = none) : loop n body s = none := by
  induction n with
  | zero => omega
  | succ n ih =>
      rw [loop_succ]
      by_cases here : i = n
      · subst here
        cases ran : loop i body s with
        | none => rfl
        | some r => exact fails r (loop_invariant Inv ran base step)
      · rw [ih (by omega)]
        rfl

/-! ## Loops with a test -/

/-- Run `body` as long as `test` holds.  At most `fuel` tests are made, and running
out of them is a failure, too. -/
def loopWhile : Nat → (σ → Option Bool) → (σ → Option σ) → σ → Option σ
  | 0, _, _, _ => none
  | fuel + 1, test, body, s =>
      (test s).bind fun go => if go then (body s).bind (loopWhile fuel test body) else some s

theorem loopWhile_succ (fuel : Nat) (test : σ → Option Bool) (body : σ → Option σ) (s : σ) :
    loopWhile (fuel + 1) test body s =
      (test s).bind fun go => if go then (body s).bind (loopWhile fuel test body) else some s :=
  rfl

/-- Total rule: a loop that goes through `n` given states, and whose test fails in
the last of them, ends there. -/
theorem loopWhile_eq_some {test : σ → Option Bool} {body : σ → Option σ} (state : Nat → σ)
    {n fuel : Nat} (enough : n < fuel)
    (turn : ∀ i < n, test (state i) = some true ∧ body (state i) = some (state (i + 1)))
    (stop : test (state n) = some false) :
    loopWhile fuel test body (state 0) = some (state n) := by
  induction n generalizing state fuel with
  | zero =>
      obtain ⟨fuel, rfl⟩ := Nat.exists_eq_succ_of_ne_zero (Nat.ne_zero_of_lt enough)
      rw [loopWhile_succ, stop]
      rfl
  | succ n ih =>
      obtain ⟨fuel, rfl⟩ := Nat.exists_eq_succ_of_ne_zero (Nat.ne_zero_of_lt enough)
      obtain ⟨goes, next⟩ := turn 0 (Nat.succ_pos n)
      rw [loopWhile_succ, goes, Option.bind_some, if_pos rfl, next, Option.bind_some]
      exact ih (fun i => state (i + 1)) (by omega) (fun i iLt => turn (i + 1) (by omega)) stop

/-- A loop whose body fails in the last of `n` given states fails, however many tests
it may make. -/
theorem loopWhile_eq_none {test : σ → Option Bool} {body : σ → Option σ} (state : Nat → σ)
    {n fuel : Nat}
    (turn : ∀ i < n, test (state i) = some true ∧ body (state i) = some (state (i + 1)))
    (goes : test (state n) = some true) (fails : body (state n) = none) :
    loopWhile fuel test body (state 0) = none := by
  induction n generalizing state fuel with
  | zero =>
      cases fuel with
      | zero => rfl
      | succ fuel =>
          rw [loopWhile_succ, goes, Option.bind_some, if_pos rfl, fails]
          rfl
  | succ n ih =>
      cases fuel with
      | zero => rfl
      | succ fuel =>
          obtain ⟨first, next⟩ := turn 0 (Nat.succ_pos n)
          rw [loopWhile_succ, first, Option.bind_some, if_pos rfl, next, Option.bind_some]
          exact ih (fun i => state (i + 1)) (fun i iLt => turn (i + 1) (by omega)) goes fails

/-! ## Loops with a break -/

/-- Run `body i` for `i` from `0` to `n - 1` until one of them breaks, which is the
second component of its result. -/
def loopBreak : Nat → (Nat → σ → Option (σ × Bool)) → σ → Option (σ × Bool)
  | 0, _, s => some (s, false)
  | n + 1, body, s => (loopBreak n body s).bind fun r => if r.2 then some r else body n r.1

theorem loopBreak_succ (n : Nat) (body : Nat → σ → Option (σ × Bool)) (s : σ) :
    loopBreak (n + 1) body s =
      (loopBreak n body s).bind fun r => if r.2 then some r else body n r.1 :=
  rfl

/-- A loop that leaves the state alone until it breaks is a search. -/
theorem loopBreak_eq_find {body : Nat → σ → Option (σ × Bool)} {n : Nat} {s : σ}
    (breaks : Nat → Bool) (found : Nat → σ)
    (turn : ∀ i < n, body i s = some (if breaks i then (found i, true) else (s, false))) :
    loopBreak n body s =
      some (((List.range n).find? breaks).elim (s, false) fun i => (found i, true)) := by
  induction n with
  | zero => rfl
  | succ n ih =>
      rw [loopBreak_succ, ih fun i iLt => turn i (by omega), Option.bind_some, List.range_succ,
        List.find?_append]
      cases (List.range n).find? breaks with
      | some i => rfl
      | none =>
          have last := turn n (Nat.lt_succ_self n)
          cases here : breaks n with
          | false => simpa [here] using last
          | true => simpa [here] using last

end Clarmor.Loop
