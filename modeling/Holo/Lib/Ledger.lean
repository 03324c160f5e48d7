/-
Holo.Lib.Ledger — amounts held under numbers.

A ledger is a table of numbered entries.  `amountBelow n amount entries` adds up an amount of the
entries with a number below `n`; the amount may depend on the number.

Main results:
* `amountBelow_update`: one entry is changed, put in or taken out;
* `amountBelow_fresh`: an entry under the next number;
* `amountBelow_mono`: no entry counts for more.
-/
import Mathlib.Algebra.BigOperators.Group.Finset.Piecewise
import Mathlib.Algebra.Order.BigOperators.Group.Finset

namespace Holo.Lib

variable {A B : Type} {n i : Nat}

/-- What an entry that may be missing counts for. -/
def amountOf (amount : Nat → A → Nat) (i : Nat) (entry : Option A) : Nat := entry.elim 0 (amount i)

/-- The amounts of all entries below `n`. -/
def amountBelow (n : Nat) (amount : Nat → A → Nat) (entries : Nat → Option A) : Nat :=
  ∑ i ∈ Finset.range n, amountOf amount i (entries i)

section

variable (amount : Nat → A → Nat)

@[simp] theorem amountOf_some (i : Nat) (a : A) : amountOf amount i (some a) = amount i a := rfl

/-- **One entry is changed.** -/
theorem amountBelow_update (entries : Nat → Option A) (hi : i < n) (entry : Option A) :
    amountBelow n amount (Function.update entries i entry) + amountOf amount i (entries i) =
      amountBelow n amount entries + amountOf amount i entry := by
  have hmem : i ∈ Finset.range n := Finset.mem_range.mpr hi
  have hrest : ∑ j ∈ (Finset.range n).erase i,
        amountOf amount j (Function.update entries i entry j) =
      ∑ j ∈ (Finset.range n).erase i, amountOf amount j (entries j) := by
    refine Finset.sum_congr rfl fun j hj => ?_
    rw [Function.update_of_ne (Finset.ne_of_mem_erase hj)]
  unfold amountBelow
  rw [← Finset.add_sum_erase _ _ hmem,
      ← Finset.add_sum_erase _ (fun j => amountOf amount j (entries j)) hmem,
    hrest, Function.update_self]
  omega

/-- **An entry under the next number.** -/
theorem amountBelow_fresh (entries : Nat → Option A) (entry : Option A) :
    amountBelow (n + 1) amount (Function.update entries n entry) =
      amountBelow n amount entries + amountOf amount n entry := by
  unfold amountBelow
  rw [Finset.sum_range_succ, Function.update_self]
  congr 1
  refine Finset.sum_congr rfl fun j hj => ?_
  rw [Function.update_of_ne (Finset.mem_range.mp hj).ne]

end

variable {entries : Nat → Option A} {a : Nat → A → Nat}

/-- **No entry counts for more.** -/
theorem amountBelow_mono {amount : Nat → A → Nat} {amount' : Nat → B → Nat}
    {entries' : Nat → Option B}
    (h : ∀ i < n, amountOf amount i (entries i) ≤ amountOf amount' i (entries' i)) :
    amountBelow n amount entries ≤ amountBelow n amount' entries' :=
  Finset.sum_le_sum fun i hi => h i (Finset.mem_range.mp hi)

/-- **Two amounts together**, entry by entry. -/
theorem amountBelow_add_le {C D : Type} {b : Nat → B → Nat} {c : Nat → C → Nat} {d : Nat → D → Nat}
    {e : Nat → Option A} {f : Nat → Option B} {g : Nat → Option C} {k : Nat → Option D}
    (h : ∀ i < n, amountOf a i (e i) + amountOf b i (f i) ≤
      amountOf c i (g i) + amountOf d i (k i)) :
    amountBelow n a e + amountBelow n b f ≤ amountBelow n c g + amountBelow n d k := by
  unfold amountBelow
  rw [← Finset.sum_add_distrib, ← Finset.sum_add_distrib]
  exact Finset.sum_le_sum fun i hi => h i (Finset.mem_range.mp hi)

/-- **One entry counts no more.** -/
theorem amountBelow_le_add {a b : Nat → A → Nat} (i : Nat)
    (h : ∀ j < n, j ≠ i → amountOf a j (entries j) ≤ amountOf b j (entries j)) :
    amountBelow n a entries ≤ amountOf a i (entries i) + amountBelow n b entries := by
  have hsum : amountBelow n a entries ≤ ∑ j ∈ Finset.range n,
      ((if i = j then amountOf a i (entries i) else 0) + amountOf b j (entries j)) := by
    refine Finset.sum_le_sum fun j hj => ?_
    by_cases hij : i = j
    · subst hij
      rw [if_pos rfl]
      exact Nat.le_add_right _ _
    · rw [if_neg hij, Nat.zero_add]
      exact h j (Finset.mem_range.mp hj) (Ne.symm hij)
  rw [Finset.sum_add_distrib, Finset.sum_ite_eq] at hsum
  refine hsum.trans (Nat.add_le_add_right ?_ _)
  split
  · exact le_rfl
  · exact Nat.zero_le _

theorem amountBelow_eq_zero (h : ∀ j < n, amountOf a j (entries j) = 0) :
    amountBelow n a entries = 0 :=
  Finset.sum_eq_zero fun j hj => h j (Finset.mem_range.mp hj)

end Holo.Lib
