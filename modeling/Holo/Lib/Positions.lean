/-
Holo.Lib.Positions — a map from the keys of a list to their positions.

Main results:
* `buildPositions_exact`: built from a list without repeated keys, the map is exact;
* `ExactPositions.push`: putting one more element at the end.
-/
import Mathlib.Data.List.Induction
import Mathlib.Data.List.Nodup
import Mathlib.Logic.Function.Basic

namespace Holo.Lib

open Function List

variable {R : Type}

/-- The map of a list: a later element takes the place of an earlier one of the same key. -/
def buildPositions (key : R → Nat) (l : List R) : Nat → Option Nat :=
  l.zipIdx.foldl (fun m p => update m (key p.1) (some p.2)) fun _ => none

/-- The map has exactly the keys of the list, each at its position. -/
def ExactPositions (key : R → Nat) (l : List R) (m : Nat → Option Nat) : Prop :=
  ∀ k i, m k = some i ↔ ∃ r, l[i]? = some r ∧ key r = k

theorem buildPositions_concat (key : R → Nat) (l : List R) (r : R) : buildPositions key (l ++ [r]) =
      update (buildPositions key l) (key r) (some l.length) := by
  unfold buildPositions
  rw [zipIdx_append, foldl_append]
  simp

variable {key : R → Nat} {l : List R}

/-- **One more element at the end.** -/
theorem ExactPositions.push {m : Nat → Option Nat} (h : ExactPositions key l m) {r : R}
    (hfresh : ∀ x ∈ l, key x ≠ key r) :
    ExactPositions key (l ++ [r]) (update m (key r) (some l.length)) := by
  intro k i
  by_cases hk : k = key r
  · subst hk
    rw [update_self]
    constructor
    · intro hi
      cases hi
      exact ⟨r, by simp, rfl⟩
    intro hx
    obtain ⟨x, hx, hkey⟩ := hx
    rcases Nat.lt_trichotomy i l.length with hlt | heq | hgt
    · rw [getElem?_append_left hlt] at hx
      exact absurd hkey (hfresh x (mem_of_getElem? hx))
    · rw [heq]
    · rw [getElem?_eq_none (by simp; omega)] at hx
      cases hx
  rw [update_of_ne hk, h k i]
  constructor
  · intro hx
    obtain ⟨x, hx, hkey⟩ := hx
    have hlt : i < l.length := (List.getElem?_eq_some_iff.mp hx).1
    exact ⟨x, by rw [getElem?_append_left hlt, hx], hkey⟩
  intro hx
  obtain ⟨x, hx, hkey⟩ := hx
  rcases Nat.lt_trichotomy i l.length with hlt | heq | hgt
  · rw [getElem?_append_left hlt] at hx
    exact ⟨x, hx, hkey⟩
  · -- the new element has another key
    subst heq
    have hxr : x = r := by simpa using hx.symm
    exact absurd (hxr ▸ hkey).symm hk
  · rw [getElem?_eq_none (by simp; omega)] at hx
    cases hx

/-- **The map of a list is exact** if no key is repeated. -/
theorem buildPositions_exact (h : (l.map key).Nodup) :
    ExactPositions key l (buildPositions key l) := by
  induction l using reverseRecOn with
  | nil =>
    intro k i
    simp [buildPositions]
  | append_singleton l r ih =>
    rw [map_append, nodup_append] at h
    obtain ⟨hl, -, hdisj⟩ := h
    rw [buildPositions_concat]
    refine (ih hl).push fun x hx => ?_
    exact hdisj (key x) (mem_map_of_mem hx) (key r) (by simp)

end Holo.Lib
