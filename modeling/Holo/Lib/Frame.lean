/-
Holo.Lib.Frame — what a program leaves alone.

`Preserves part m`: whatever `m` does, and whether it fails or not, this part of the state is
as it was.  `Ignores put m` is more: the program does not look at that part either, so that
it runs alike whatever the part is set to.

Main results:
* `Preserves.bind`, `Ignores.bind`, `Ignores.read`: programs that are put together;
* `Ignores.zoom`: a program on another part of the state;
* `Ignores.preserves`: what a program does not look at it leaves alone.
-/
import Holo.Lib.Program

namespace Holo.Lib

open Program

variable {ε σ α β γ : Type} {part : σ → γ}
variable {m m' : Program ε σ α} {f : α → Program ε σ β} {c : Prop} {body : β → Program ε σ Unit}

/-- The program leaves this part of the state as it was. -/
def Preserves (part : σ → γ) (m : Program ε σ α) : Prop := ∀ s, part (m s).2 = part s

namespace Preserves

theorem pure (a : α) : Preserves part (Pure.pure a : Program ε σ α) := fun _ => rfl

theorem get : Preserves part (Program.get : Program ε σ σ) := fun _ => rfl

theorem modify {f : σ → σ} (h : ∀ s, part (f s) = part s) :
    Preserves part (Program.modify f : Program ε σ Unit) := h

theorem bind (hm : Preserves part m) (hf : ∀ a, Preserves part (f a)) :
    Preserves part (m >>= f) := by
  intro s
  have hs := hm s
  rw [run_bind]
  rcases hms : m s with ⟨a | e, s'⟩
  · rw [hms] at hs
    exact hs
  · rw [hms] at hs
    exact (hf _ s').trans hs

theorem attempt (hm : Preserves part m) : Preserves part (Program.attempt m) :=
  hm

theorem ite [Decidable c] (h : Preserves part m) (h' : Preserves part m') :
    Preserves part (if c then m else m') := by
  split
  · exact h
  · exact h'

end Preserves

/-- The program runs alike, and to the same result, whatever a part of the state is set to. -/
def Ignores (put : σ → γ → σ) (m : Program ε σ α) : Prop :=
  ∀ s c, m (put s c) = ((m s).1, put (m s).2 c)

namespace Ignores

variable {put : σ → γ → σ}

theorem pure (a : α) : Ignores put (Pure.pure a : Program ε σ α) := fun _ _ => rfl

theorem throw (e : ε) : Ignores put (Program.throw e : Program ε σ α) := fun _ _ => rfl

theorem modify {f : σ → σ} (h : ∀ s c, f (put s c) = put (f s) c) :
    Ignores put (Program.modify f : Program ε σ Unit) := by
  intro s c
  rw [run_modify, run_modify, h]

theorem check (bad : Prop) [Decidable bad] (e : ε) :
    Ignores put (Program.check bad e : Program ε σ Unit) := by
  unfold Program.check
  split
  · exact throw e
  · exact pure ()

theorem bind (hm : Ignores put m) (hf : ∀ a, Ignores put (f a)) : Ignores put (m >>= f) := by
  intro s c
  rw [run_bind, run_bind, hm s c]
  rcases m s with ⟨e | a, s'⟩
  · rfl
  · exact hf a s' c

theorem read {f : σ → Program ε σ α} (h : ∀ s c, f (put s c) = f s)
    (hf : ∀ s, Ignores put (f s)) : Ignores put (Program.get >>= f) := by
  intro s c
  show f (put s c) (put s c) = _
  rw [h]
  exact hf s s c

theorem attempt (hm : Ignores put m) : Ignores put (Program.attempt m) := by
  intro s c
  unfold Program.attempt
  rw [hm s c]

theorem zoom {τ ε' : Type} {view : τ → σ} {set : τ → σ → τ} {rename : ε → ε'} {put : τ → γ → τ}
    (hview : ∀ t c, view (put t c) = view t) (hset : ∀ t c s, set (put t c) s = put (set t s) c)
    (m : Program ε σ α) : Ignores put (Program.zoom view set rename m) := by
  intro t c
  unfold Program.zoom
  rw [hview]
  rcases m (view t) with ⟨e | a, s⟩
  · dsimp only
    rw [hset]
  · dsimp only
    rw [hset]

theorem forEach {l : List β} (h : ∀ b, Ignores put (body b)) :
    Ignores put (Program.forEach l body) := by
  induction l with
  | nil => exact pure ()
  | cons b bs ih => exact bind (h b) fun _ => ih

theorem ite [Decidable c] (h : Ignores put m) (h' : Ignores put m') :
    Ignores put (if c then m else m') := by
  split
  · exact h
  · exact h'

/-- **What a program does not look at it leaves alone.** -/
theorem preserves (h : Ignores put m) (hput : ∀ s c, part (put s c) = c)
    (hself : ∀ s, put s (part s) = s) : Preserves part m := by
  intro s
  have hrun := congrArg Prod.snd (h s (part s))
  rw [hself] at hrun
  exact (congrArg part hrun).trans (hput _ _)

end Ignores

end Holo.Lib
