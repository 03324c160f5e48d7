/-
Holo.Lib.Extents — items laid out one behind the other.

`place size p l` gives every item of `l` its position: the first stands at `p`, each other
where the one before it ends.

Main results:
* `mem_place`: every item lies between the start and the end of the layout;
* `mem_place_split`: what lies before an item, the item, and what lies behind it.
-/
import Mathlib.Tactic.Common

namespace Holo.Lib

open List

variable {α : Type} {size : α → Nat}

/-- Every item with its position. -/
def place (size : α → Nat) : Nat → List α → List (Nat × α)
  | _, [] => []
  | p, a :: l => (p, a) :: place size (p + size a) l

/-- The room all items take. -/
def total (size : α → Nat) : List α → Nat
  | [] => 0
  | a :: l => size a + total size l

@[simp] theorem total_nil : total size [] = 0 := rfl

@[simp] theorem total_cons (a : α) (l : List α) : total size (a :: l) = size a + total size l := rfl

@[simp] theorem total_append (l m : List α) :
    total size (l ++ m) = total size l + total size m := by
  induction l with
  | nil => simp
  | cons a l ih => simp [ih, Nat.add_assoc]

theorem place_append (l : List α) : ∀ (p : Nat) (m : List α),
      place size p (l ++ m) = place size p l ++ place size (p + total size l) m := by
  induction l with
  | nil => exact fun _ _ => rfl
  | cons a l ih =>
    intro p m
    simp only [cons_append, place, ih, total_cons, Nat.add_assoc]

/-- **Every item lies within the layout.** -/
theorem mem_place (l : List α) :
    ∀ {p q : Nat} {a : α}, (q, a) ∈ place size p l → p ≤ q ∧ q + size a ≤ p + total size l := by
  induction l with
  | nil =>
    intro p q a h
    exact absurd h (by simp [place])
  | cons b l ih =>
    intro p q a h
    rw [total_cons]
    rcases mem_cons.mp h with h | h
    · obtain ⟨rfl, rfl⟩ := Prod.mk.inj h
      omega
    · have := ih h
      omega

theorem mem_of_mem_place {l : List α} : ∀ {p q : Nat} {a : α}, (q, a) ∈ place size p l → a ∈ l := by
  induction l with
  | nil =>
    intro p q a h
    exact absurd h (by simp [place])
  | cons b l ih =>
    intro p q a h
    rcases mem_cons.mp h with h | h
    · rw [(Prod.mk.inj h).2]
      exact mem_cons_self
    · exact mem_cons_of_mem b (ih h)

/-- **Before, at and behind an item.** -/
theorem mem_place_split {pre post : List α} {p q : Nat} {a x : α} :
    (q, x) ∈ place size p (pre ++ a :: post) ↔
      (q, x) ∈ place size p pre ∨ (q = p + total size pre ∧ x = a) ∨
        (q, x) ∈ place size (p + total size pre + size a) post := by
  rw [place_append, mem_append, place, mem_cons, Prod.mk.injEq]

end Holo.Lib
