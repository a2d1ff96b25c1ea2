import Mathlib

/-!
# Runs of partial labelled steps

A system is a partial step function on states and labels.  `Reach` collects
the states that a run visits when every step it takes satisfies a side
condition; an invariant of such steps holds in every state of such a run.
-/

namespace Clarmor.Run

universe u v

variable {σ : Type u} {α : Type v}

/-- States reached from `start` by steps that satisfy `ok`. -/
inductive Reach (step : σ → α → Option σ) (ok : σ → α → Prop) (start : σ) : σ → Prop
  | refl : Reach step ok start start
  | tail {s s' : σ} {a : α} : Reach step ok start s → ok s a → step s a = some s' →
      Reach step ok start s'

/-- Runs compose. -/
theorem Reach.trans {step : σ → α → Option σ} {ok : σ → α → Prop} {start s t : σ}
    (first : Reach step ok start s) (second : Reach step ok s t) : Reach step ok start t := by
  induction second with
  | refl => exact first
  | tail _ allowed stepped ih => exact .tail ih allowed stepped

/-- An invariant of the allowed steps holds in every state a run reaches. -/
theorem Reach.invariant {step : σ → α → Option σ} {ok : σ → α → Prop} {start s : σ}
    {Inv : σ → Prop} (reach : Reach step ok start s) (base : Inv start)
    (preserved : ∀ t a t', Inv t → ok t a → step t a = some t' → Inv t') : Inv s := by
  induction reach with
  | refl => exact base
  | tail _ allowed stepped ih => exact preserved _ _ _ ih allowed stepped

/-- A run of steps that satisfy the stronger condition satisfies the weaker one. -/
theorem Reach.mono {step : σ → α → Option σ} {ok ok' : σ → α → Prop} {start s : σ}
    (reach : Reach step ok start s) (weaker : ∀ t a, ok t a → ok' t a) :
    Reach step ok' start s := by
  induction reach with
  | refl => exact .refl
  | tail _ allowed stepped ih => exact .tail ih (weaker _ _ allowed) stepped

/-- A step that is possible extends a run by the state it leaves. -/
theorem Reach.getD {step : σ → α → Option σ} {ok : σ → α → Prop} {start s : σ}
    (reach : Reach step ok start s) (a : α) (allowed : ok s a) (possible : (step s a).isSome) :
    Reach step ok start ((step s a).getD s) := by
  obtain ⟨t, stepped⟩ := Option.isSome_iff_exists.mp possible
  rw [stepped]
  exact .tail reach allowed stepped

/-- A list of labels that can be taken one after the other is a run. -/
theorem reach_of_foldlM {step : σ → α → Option σ} {start s : σ} (labels : List α)
    (ran : labels.foldlM step start = some s) : Reach step (fun _ _ => True) start s := by
  induction labels generalizing start with
  | nil =>
      obtain rfl := Option.some.inj ran
      exact .refl
  | cons a rest ih =>
      rw [List.foldlM_cons] at ran
      obtain ⟨t, stepped, ran⟩ := Option.bind_eq_some_iff.mp ran
      exact Reach.trans (.tail .refl trivial stepped) (ih ran)

end Clarmor.Run
