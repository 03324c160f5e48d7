/-
Holo.Lib.Ranks — where a number stands in an ordered list of numbers.

The rank of `p` is how many entries lie below it.  In an ordered list the entries below `p`
are the first ones, so that a search forward from `p` finds the entry at the rank of `p` and a
search backward the one before it.

Main results:
* `filter_lt_eq_take`, `filter_le_eq_drop`: the entries below a number, and the others;
* `find_eq_rank`, `findBack_eq_rank`: what the two searches find;
* `rank_entry`, `rank_behind`: the rank of an entry, and of a number behind it.
-/
import Mathlib.Data.List.Basic
import Mathlib.Data.List.Count

namespace Holo.Lib

open List

/-- How many entries lie below `p`. -/
def rank (l : List Nat) (p : Nat) : Nat := l.countP (· < p)

variable {l : List Nat} {p q i m : Nat}

theorem rank_le_length (l : List Nat) (p : Nat) : rank l p ≤ l.length := countP_le_length

theorem rank_eq_zero (h : ∀ x ∈ l, p ≤ x) : rank l p = 0 := by
  refine countP_eq_zero.mpr ?_
  intro x hx
  have hle := h x hx
  simpa using hle

theorem rank_cons (a : Nat) : rank (a :: l) p = rank l p + if a < p then 1 else 0 := by
  unfold rank
  rw [countP_cons]
  simp

section

variable (hs : l.Pairwise (· ≤ ·))
include hs

/-- **The entries below a number are the first ones.** -/
theorem filter_lt_eq_take (p : Nat) : l.filter (· < p) = l.take (rank l p) := by
  induction l with
  | nil => rfl
  | cons a l ih =>
    obtain ⟨ha, hl⟩ := pairwise_cons.mp hs
    rw [rank_cons]
    by_cases hlt : a < p
    · rw [filter_cons_of_pos (by simpa using hlt), if_pos hlt, take_succ_cons, ih hl]
    · have hzero : rank l p = 0 :=
          rank_eq_zero fun x hx => Nat.le_trans (Nat.le_of_not_lt hlt) (ha x hx)
      rw [filter_cons_of_neg (by simpa using hlt), if_neg hlt, ih hl, hzero]
      rfl

theorem filter_le_eq_drop (p : Nat) : l.filter (p ≤ ·) = l.drop (rank l p) := by
  induction l with
  | nil => rfl
  | cons a l ih =>
    obtain ⟨ha, hl⟩ := pairwise_cons.mp hs
    rw [rank_cons]
    by_cases hlt : a < p
    · rw [filter_cons_of_neg (by simpa using hlt), if_pos hlt, drop_succ_cons, ih hl]
    · have hzero : rank l p = 0 :=
          rank_eq_zero fun x hx => Nat.le_trans (Nat.le_of_not_lt hlt) (ha x hx)
      rw [filter_cons_of_pos (by simpa using hlt), if_neg hlt, ih hl, hzero]
      rfl

/-- **A search forward** finds the entry at the rank. -/
theorem find_eq_rank (p : Nat) : l.find? (p ≤ ·) = l[rank l p]? := by
  rw [← head?_filter, filter_le_eq_drop hs, head?_drop]

/-- **A search backward** finds the entry before the rank. -/
theorem findBack_eq_rank (hpos : 0 < rank l p) : l.reverse.find? (· < p) = l[rank l p - 1]? := by
  have hle := rank_le_length l p
  rw [← head?_filter, filter_reverse, filter_lt_eq_take hs, head?_reverse,
    getLast?_eq_getElem?, length_take, Nat.min_eq_left hle,
    getElem?_take_of_lt (by omega)]

end

section

variable (hs : l.Pairwise (· < ·)) (hi : l[i]? = some m)
include hs hi

/-- The rank of a number between an entry and those above it. -/
theorem rank_from_entry (hle : m ≤ q)
    (hbefore : ∀ x ∈ l, m < x → q ≤ x) : rank l q = i + if m < q then 1 else 0 := by
  induction l generalizing i with
  | nil => cases hi
  | cons a l ih =>
    obtain ⟨ha, hl⟩ := pairwise_cons.mp hs
    rw [rank_cons]
    cases i with
    | zero =>
      obtain rfl : a = m := by simpa using hi
      have hzero : rank l q = 0 :=
        rank_eq_zero fun x hx => hbefore x (mem_cons_of_mem _ hx) (ha x hx)
      rw [hzero]
    | succ i =>
      have hi' : l[i]? = some m := by simpa using hi
      have ham : a < m := ha m (mem_of_getElem? hi')
      rw [ih hl hi' fun x hx => hbefore x (mem_cons_of_mem _ hx),
        if_pos (Nat.lt_of_lt_of_le ham hle)]
      omega

/-- **The rank behind an entry.** -/
theorem rank_behind (hlt : m < q) (hbefore : ∀ x ∈ l, m < x → q ≤ x) : rank l q = i + 1 := by
  rw [rank_from_entry hs hi (Nat.le_of_lt hlt) hbefore, if_pos hlt]

/-- **The rank of an entry** is its place. -/
theorem rank_entry : rank l m = i := by
  rw [rank_from_entry hs hi (Nat.le_refl m) fun _ _ => Nat.le_of_lt, if_neg (Nat.lt_irrefl m)]
  rfl

end

theorem countP_lt_countP {P Q : Nat → Bool} (himp : ∀ x, P x = true → Q x = true) (hm : m ∈ l)
    (hQ : Q m = true) (hP : P m = false) : l.countP P < l.countP Q := by
  have hboth : l.countP P = (l.filter Q).countP P := by
    rw [countP_filter]
    refine countP_congr fun x _ => ?_
    rw [Bool.and_eq_true]
    exact ⟨fun hx => ⟨hx, himp x hx⟩, And.left⟩
  rw [hboth, countP_eq_length_filter (p := Q)]
  exact countP_lt_length_iff.mpr ⟨m, mem_filter.mpr ⟨hm, hQ⟩, hP⟩

end Holo.Lib
