import Mathlib

/-!
# Load and store programs

A program accesses cells named by an argument and an offset.  A placement says
where each argument's cells lie in a memory.  Running the same program under
two placements that alias the same names, from memories with the same named
contents, leaves the same named contents, and changes no cell that is not
named.
-/

namespace Clarmor.Access

universe u v w x

/-- A finite program of loads and stores; what it does next may depend on the
values it has loaded. -/
inductive Program (ι : Type u) (β : Type v) where
  | done : Program ι β
  | load (arg : ι) (offset : Nat) (next : β → Program ι β) : Program ι β
  | store (arg : ι) (offset : Nat) (value : β) (next : Program ι β) : Program ι β

variable {ι : Type u} {β : Type v} {A : Type w} {B : Type x} [DecidableEq A] [DecidableEq B]

namespace Program

/-- Run a program in a memory under a placement. -/
def exec (place : ι → Nat → A) : Program ι β → (A → β) → A → β
  | done, m => m
  | load arg offset next, m => exec place (next (m (place arg offset))) m
  | store arg offset value next, m =>
      exec place next (Function.update m (place arg offset) value)

/-- Every access the program makes when it runs from `m` stays below the size
of its argument. -/
def InBounds (size : ι → Nat) (place : ι → Nat → A) : Program ι β → (A → β) → Prop
  | done, _ => True
  | load arg offset next, m =>
      offset < size arg ∧ InBounds size place (next (m (place arg offset))) m
  | store arg offset value next, m =>
      offset < size arg ∧
        InBounds size place next (Function.update m (place arg offset) value)

/-- A cell no argument names keeps its value. -/
theorem exec_frame {size : ι → Nat} {place : ι → Nat → A} {prog : Program ι β} {m : A → β}
    {a : A} (inBounds : prog.InBounds size place m)
    (unnamed : ∀ arg offset, offset < size arg → place arg offset ≠ a) :
    prog.exec place m a = m a := by
  induction prog generalizing m with
  | done => rfl
  | load arg offset next ih => exact ih _ inBounds.2
  | store arg offset value next ih =>
      rw [exec, ih inBounds.2]
      exact Function.update_of_ne (unnamed arg offset inBounds.1).symm _ _

/-- Two placements alias the same names. -/
def SameAliasing (size : ι → Nat) (p : ι → Nat → A) (q : ι → Nat → B) : Prop :=
  ∀ i o j o', o < size i → o' < size j → (p i o = p j o' ↔ q i o = q j o')

/-- Two memories have the same named contents. -/
def Agree (size : ι → Nat) (p : ι → Nat → A) (q : ι → Nat → B) (m : A → β) (n : B → β) : Prop :=
  ∀ i o, o < size i → m (p i o) = n (q i o)

/-- Storing one value under one name keeps the named contents equal. -/
theorem Agree.store {size : ι → Nat} {p : ι → Nat → A} {q : ι → Nat → B} {m : A → β} {n : B → β}
    {arg : ι} {offset : Nat} (agree : Agree size p q m n) (aliased : SameAliasing size p q)
    (below : offset < size arg) (value : β) :
    Agree size p q (Function.update m (p arg offset) value)
      (Function.update n (q arg offset) value) := by
  intro i o oLt
  by_cases same : p i o = p arg offset
  · have sameQ := (aliased i o arg offset oLt below).mp same
    rw [same, sameQ, Function.update_self, Function.update_self]
  · have differQ : q i o ≠ q arg offset :=
      fun sameQ => same ((aliased i o arg offset oLt below).mpr sameQ)
    rw [Function.update_of_ne same, Function.update_of_ne differQ]
    exact agree i o oLt

/-- Simulation of one run by the other. -/
theorem exec_agree {size : ι → Nat} {p : ι → Nat → A} {q : ι → Nat → B} {prog : Program ι β}
    {m : A → β} {n : B → β} (aliased : SameAliasing size p q) (agree : Agree size p q m n)
    (inBounds : prog.InBounds size p m) :
    prog.InBounds size q n ∧ Agree size p q (prog.exec p m) (prog.exec q n) := by
  induction prog generalizing m n with
  | done => exact ⟨trivial, agree⟩
  | load arg offset next ih =>
      obtain ⟨below, rest⟩ := inBounds
      have loaded : m (p arg offset) = n (q arg offset) := agree arg offset below
      obtain ⟨restQ, after⟩ := ih _ agree rest
      refine ⟨⟨below, ?_⟩, ?_⟩
      · rw [← loaded]
        exact restQ
      · simp only [exec]
        rw [← loaded]
        exact after
  | store arg offset value next ih =>
      obtain ⟨below, rest⟩ := inBounds
      obtain ⟨restQ, after⟩ := ih (agree.store aliased below value) rest
      exact ⟨⟨below, restQ⟩, after⟩

end Program

end Clarmor.Access
