/-
Holo.Lib.Runs — runs of a system whose steps carry labels.

Main results:
* `Run.invariant`: what holds at the start and is kept by every step holds at the end;
* `Run.imp`: a run under a stronger step relation is one under a weaker.
-/
import Mathlib.Data.List.Induction
import Mathlib.Tactic.Common

namespace Holo.Lib

open List

variable {σ α : Type}

/-- From the first state the steps with these labels, in this order, lead to the last. -/
inductive Run (step : σ → α → σ → Prop) : σ → List α → σ → Prop where
  | nil {s : σ} : Run step s [] s
  | snoc {s s' s'' : σ} {labels : List α} {a : α} :
      Run step s labels s' → step s' a s'' → Run step s (labels ++ [a]) s''

variable {step step' : σ → α → σ → Prop} {s s' s'' : σ} {labels : List α} {a : α}

/-- **Invariants.** -/
theorem Run.invariant (I : σ → Prop) (h0 : I s)
    (hstep : ∀ s a s', I s → step s a s' → I s') (h : Run step s labels s') : I s' := by
  induction h with
  | nil => exact h0
  | snoc _ hlast ih => exact hstep _ _ _ ih hlast

theorem Run.imp (himp : ∀ s a s', step s a s' → step' s a s') (h : Run step s labels s') :
    Run step' s labels s' := by
  induction h with
  | nil => exact .nil
  | snoc _ hlast ih => exact .snoc ih (himp _ _ _ hlast)

theorem Run.single (h : step s a s') : Run step s [a] s' := .snoc .nil h

theorem run_of_foldlM {next : σ → α → Option σ} {Q : σ → α → Prop} {labels : List α} {s s' : σ}
    (hQ : ∀ s, ∀ a ∈ labels, Q s a) (h : labels.foldlM next s = some s') :
    Run (fun s a s' => next s a = some s' ∧ Q s a) s labels s' := by
  induction labels using reverseRecOn generalizing s' with
  | nil =>
    cases h
    exact .nil
  | append_singleton labels a ih =>
    rw [foldlM_append] at h
    obtain ⟨mid, hmid, hlast⟩ := Option.bind_eq_some_iff.mp h
    have hstep : next mid a = some s' := by simpa using hlast
    refine .snoc (ih (fun s b hb => hQ s b (mem_append_left _ hb)) hmid) ⟨hstep, ?_⟩
    exact hQ mid a (mem_append_right _ (mem_singleton_self a))

end Holo.Lib
