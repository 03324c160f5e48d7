/-
Holo.Lib.Assoc — association lists: what a lookup finds after entries were set or left out.

Main results:
* `lookup_filter_of_key`: a filter that keeps all the entries of a key;
* `lookup_setEntry_self`, `lookup_setEntry_of_ne`: a lookup after an entry was set;
* `lookup_eq_some_iff_mem`: an entry of a list with one entry a key is found;
* `foldl_update_eq`, `lastUpdate_eq_iff`: updates of which the last one counts.
-/
import Mathlib.Data.List.Nodup

namespace Holo.Lib

open List

variable {κ β : Type} [DecidableEq κ]

variable {p : κ × β → Bool} {k : κ} {l : List (κ × β)}

theorem lookup_filter_of_key (h : ∀ v, p (k, v) = true) :
    ∀ l : List (κ × β), (l.filter p).lookup k = l.lookup k
  | [] => rfl
  | (k', v) :: l => by
    have ih := lookup_filter_of_key h l
    by_cases hk : k = k'
    · subst hk
      rw [filter_cons_of_pos (h v), lookup_cons_self, lookup_cons_self]
    have hne : (k == k') = false := by simpa using hk
    rw [lookup_cons, hne, ← ih]
    by_cases hp : p (k', v) = true
    · rw [filter_cons_of_pos hp, lookup_cons, hne]
    · rw [filter_cons_of_neg hp]

/-- The list with one entry for `k`, its value `v`. -/
def setEntry (l : List (κ × β)) (k : κ) (v : β) : List (κ × β) :=
  (k, v) :: l.filter fun e => decide (e.1 ≠ k)

/-- The list without an entry for `k`. -/
def dropEntry (l : List (κ × β)) (k : κ) : List (κ × β) := l.filter fun e => decide (e.1 ≠ k)

theorem lookup_dropEntry_of_ne {k k' : κ} (h : k' ≠ k) (l : List (κ × β)) :
    (dropEntry l k).lookup k' = l.lookup k' :=
  lookup_filter_of_key (fun v => by simpa using h) l

@[simp] theorem lookup_setEntry_self (l : List (κ × β)) (k : κ) (v : β) :
    (setEntry l k v).lookup k = some v :=
  lookup_cons_self

theorem lookup_setEntry_of_ne {k k' : κ} (h : k' ≠ k) (l : List (κ × β)) (v : β) :
    (setEntry l k v).lookup k' = l.lookup k' := by
  have hne : (k' == k) = false := by simpa using h
  rw [setEntry, lookup_cons, hne]
  exact lookup_dropEntry_of_ne h l

/-! ## Lists with one entry a key. -/

theorem lookup_eq_some_iff_mem (hnd : (l.map Prod.fst).Nodup) {a : κ} {b : β} :
    l.lookup a = some b ↔ (a, b) ∈ l := by
  have hmem : ∀ {c : β}, l.lookup a = some c → (a, c) ∈ l := by
    intro c hc
    obtain ⟨l1, l2, rfl, -⟩ := lookup_eq_some_iff.mp hc
    simp
  refine ⟨hmem, fun hb => ?_⟩
  cases hlook : l.lookup a with
  | none =>
    have := lookup_eq_none_iff.mp hlook (a, b) hb
    simp at this
  | some c =>
    have heq : (a, c) = (a, b) := inj_on_of_nodup_map hnd (hmem hlook) hb rfl
    rw [(Prod.mk.inj heq).2]

omit [DecidableEq κ] in
theorem nodup_keys_filter (h : (l.map Prod.fst).Nodup) : ((l.filter p).map Prod.fst).Nodup :=
  h.sublist (filter_sublist.map Prod.fst)

theorem nodup_keys_setEntry (h : (l.map Prod.fst).Nodup) (k : κ) (v : β) :
    ((setEntry l k v).map Prod.fst).Nodup := by
  rw [setEntry, map_cons, nodup_cons]
  refine ⟨?_, nodup_keys_filter h⟩
  intro hmem
  obtain ⟨e, he, hk⟩ := mem_map.mp hmem
  exact absurd hk (by simpa using (mem_filter.mp he).2)

/-! ## Updates of which the last one counts. -/

section Updates

variable {A P : Type}

/-- The value after the updates of a list, if each overwrites the ones before. -/
def lastUpdate (q : P → Bool) (g : A → P → A) (a : A) (l : List P) : A :=
  ((l.filter q).getLast?.map (g a)).getD a

theorem foldl_update_eq {q : P → Bool} {g : A → P → A} (hg : ∀ a p p', g (g a p) p' = g a p')
    (a : A) (l : List P) :
    l.foldl (fun a p => if q p = true then g a p else a) a = lastUpdate q g a l := by
  induction l generalizing a with
  | nil => rfl
  | cons p l ih =>
    rw [foldl_cons, ih]
    unfold lastUpdate
    by_cases hp : q p = true
    · rw [if_pos hp, filter_cons_of_pos hp, getLast?_cons]
      cases (l.filter q).getLast? with
      | none => rfl
      | some p' => exact hg a p p'
    · rw [if_neg hp, filter_cons_of_neg hp]

/-- **Updates leave a value as it was** exactly when the last one gives it that value. -/
theorem lastUpdate_eq_iff {q : P → Bool} {g : A → P → A} {a : A} {l : List P} :
    lastUpdate q g a l = a ↔ ∀ p, (l.filter q).getLast? = some p → a = g a p := by
  unfold lastUpdate
  cases (l.filter q).getLast? with
  | none => simp
  | some p =>
    constructor
    · intro h p' hp'
      cases hp'
      exact h.symm
    · exact fun h => (h p rfl).symm

end Updates

end Holo.Lib
