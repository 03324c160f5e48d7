/-
Holo.Lib.RecordLog — append-only record logs and the sorted tables built from them.

A log is a list of records; a later record SUPERSEDES an earlier one with the same key.
`latest` is the table a reader builds.  Tables are kept sorted by a number, searched with
the standard library's binary search, and extended in place.

Main results:
* `latest_append`, `mem_latest_append`: what appending to a log does to its table;
* `latest_keys_nodup`, `latest_of_nodup`: keys of a table are unique;
* `modifyFirst_perm_latest`: so is replacing an entry in place;
* `insertByKey_perm`, `insertByKey_sorted`, `sortByKey_perm`, `sortByKey_sorted`;
* `binarySearch_of_mem`: binary search finds an entry of a strictly
  sorted table.
-/
import Mathlib.Data.List.Sort
import Mathlib.Data.List.Nodup

namespace Holo.Lib

open List

variable {R : Type}
variable {α : Type} {p : α → Bool} {f : α → α}

/-! ## §1. The latest record of each key. -/

/-- The records no later record of the log supersedes, in log order. -/
def latest (key : R → Nat) : List R → List R
  | [] => []
  | r :: rest =>
    if rest.any (fun x => key x == key r) then latest key rest else r :: latest key rest

variable {key : R → Nat}

theorem mem_of_mem_latest {r : R} : ∀ {log : List R}, r ∈ latest key log → r ∈ log
  | [], h => by simp [latest] at h
  | x :: rest, h => by
    rw [latest] at h
    split at h
    next => exact mem_cons_of_mem _ (mem_of_mem_latest h)
    next =>
      rcases mem_cons.mp h with rfl | h
      · exact mem_cons_self
      · exact mem_cons_of_mem _ (mem_of_mem_latest h)

/-- Appending to the log: the new records win, the old ones that share no key stay. -/
theorem latest_append (key : R → Nat) : ∀ a b : List R, latest key (a ++ b) =
      (latest key a).filter (fun x => !b.any (fun y => key y == key x)) ++ latest key b
  | [], b => by simp [latest]
  | x :: a, b => by
    rw [cons_append, latest, latest, any_append, latest_append key a b]
    cases ha : a.any (fun y => key y == key x) with
    | true => simp
    | false =>
      cases hb : b.any (fun y => key y == key x) with
      | true | false => simp [hb]

@[simp] theorem latest_nil (key : R → Nat) : latest key [] = [] := rfl

@[simp] theorem latest_singleton (key : R → Nat) (r : R) : latest key [r] = [r] := rfl

theorem exists_mem_latest (key : R → Nat) {r : R} : ∀ {log : List R}, r ∈ log →
    ∃ r' ∈ latest key log, key r' = key r
  | x :: rest, h => by
    rw [latest]
    by_cases hany : rest.any (fun y => key y == key x) = true
    · rw [if_pos hany]
      rcases mem_cons.mp h with rfl | h
      · obtain ⟨y, hy, hkey⟩ := any_eq_true.mp hany
        obtain ⟨r', hr', hk⟩ := exists_mem_latest key hy
        exact ⟨r', hr', by rw [hk]; simpa using hkey⟩
      · exact exists_mem_latest key h
    · rw [if_neg hany]
      rcases mem_cons.mp h with rfl | h
      · exact ⟨r, mem_cons_self, rfl⟩
      · obtain ⟨r', hr', hk⟩ := exists_mem_latest key h
        exact ⟨r', mem_cons_of_mem _ hr', hk⟩

/-- **Each key occurs once in the table.** -/
theorem latest_keys_nodup (key : R → Nat) : ∀ log : List R, ((latest key log).map key).Nodup
  | [] => by simp
  | x :: rest => by
    rw [latest]
    split
    next => exact latest_keys_nodup key rest
    next hany =>
      rw [map_cons, nodup_cons]
      refine ⟨?_, latest_keys_nodup key rest⟩
      grind [mem_of_mem_latest]

theorem latest_of_nodup : ∀ {log : List R}, (log.map key).Nodup → latest key log = log
  | [], _ => rfl
  | x :: rest, h => by
    rw [map_cons, nodup_cons] at h
    have hany : ¬ rest.any (fun y => key y == key x) = true := by grind
    rw [latest, if_neg hany, latest_of_nodup h.2]

variable {l a b : List R} {r : R}

/-- Membership after an append: a new record, or an old entry no new record supersedes. -/
theorem mem_latest_append (hb : (b.map key).Nodup) : r ∈ latest key (a ++ b) ↔
      r ∈ b ∨ (r ∈ latest key a ∧ ∀ y ∈ b, key y ≠ key r) := by
  rw [latest_append, mem_append, mem_filter, latest_of_nodup hb]
  constructor
  · grind
  grind

/-- A table whose new record has a fresh key just grows. -/
theorem latest_append_fresh (h : ∀ x ∈ a, key x ≠ key r) :
    latest key (a ++ [r]) = latest key a ++ [r] := by
  rw [latest_append, latest_singleton]
  congr 1
  apply filter_eq_self.mpr
  intro x hx
  have := h x (mem_of_mem_latest hx)
  simpa using Ne.symm this

/-! ## §2. Replacing an entry in place. -/

/-- Change the first element that satisfies `p` (`iter_mut().find(..)`). -/
def modifyFirst {α : Type} (p : α → Bool) (f : α → α) : List α → List α
  | [] => []
  | a :: as => if p a then f a :: as else a :: modifyFirst p f as

theorem mem_modifyFirst {x : α} : ∀ {l : List α},
    x ∈ modifyFirst p f l → x ∈ l ∨ ∃ y ∈ l, p y = true ∧ x = f y
  | [], h => by simp [modifyFirst] at h
  | a :: as, h => by
    rw [modifyFirst] at h
    split at h
    next hp =>
      grind
    next =>
      rcases mem_cons.mp h with rfl | h
      · exact .inl mem_cons_self
      · rcases mem_modifyFirst h with h | ⟨y, hy, hp, hx⟩
        · exact .inl (mem_cons_of_mem _ h)
        · exact .inr ⟨y, mem_cons_of_mem _ hy, hp, hx⟩

/-- An element stays in the list, as it was or changed. -/
theorem mem_or_mem_modifyFirst (f : α → α) {x : α} : ∀ {l : List α},
    x ∈ l → x ∈ modifyFirst p f l ∨ (p x = true ∧ f x ∈ modifyFirst p f l)
  | a :: as, h => by
    rw [modifyFirst]
    by_cases hp : p a = true
    · grind
    rw [if_neg hp]
    rcases mem_cons.mp h with rfl | h
    · exact .inl mem_cons_self
    · exact (mem_or_mem_modifyFirst f h).imp (mem_cons_of_mem _)
        (fun ⟨hpx, hx⟩ => ⟨hpx, mem_cons_of_mem _ hx⟩)

/-- Where the replaced entry stands. -/
theorem modifyFirst_eq_append (f : α → α) : ∀ {l : List α},
    l.any p = true → ∃ as y bs, l = as ++ y :: bs ∧ p y = true ∧ (∀ a ∈ as, p a = false) ∧
      modifyFirst p f l = as ++ f y :: bs
  | a :: l, h => by
    rw [modifyFirst]
    by_cases ha : p a = true
    · exact ⟨[], a, l, rfl, ha, by simp, by rw [if_pos ha]; rfl⟩
    have hl : l.any p = true := by simpa [ha] using h
    obtain ⟨as, y, bs, heq, hy, has, hmod⟩ := modifyFirst_eq_append f hl
    grind

/-- A change that keeps `g` keeps the list of all `g`. -/
theorem map_modifyFirst {β : Type} {g : α → β}
    (h : ∀ a, p a = true → g (f a) = g a) : ∀ l : List α, (modifyFirst p f l).map g = l.map g
  | [] => rfl
  | a :: as => by
    rw [modifyFirst]
    split
    next hp => rw [map_cons, h a hp, map_cons]
    next => rw [map_cons, map_modifyFirst h as, map_cons]

theorem exists_mem_modifyFirst : ∀ {l : List α},
    l.any p = true → ∃ y ∈ l, p y = true ∧ f y ∈ modifyFirst p f l
  | a :: as, h => by
    rw [modifyFirst]
    by_cases hp : p a = true
    · rw [if_pos hp]
      exact ⟨a, mem_cons_self, hp, mem_cons_self⟩
    · rw [if_neg hp]
      have has : as.any p = true := by simpa [hp] using h
      obtain ⟨y, hy, hpy, hmem⟩ := exists_mem_modifyFirst has
      exact ⟨y, mem_cons_of_mem _ hy, hpy, mem_cons_of_mem _ hmem⟩

/-- Replacing the entry of a key in a table is putting the new entry over it. -/
theorem modifyFirst_perm (key : R → Nat) {r : R} : ∀ {l : List R}, (l.map key).Nodup →
    key r ∈ l.map key → (modifyFirst (fun x => decide (key x = key r)) (fun _ => r) l).Perm
      (r :: l.filter (fun x => decide (key x ≠ key r)))
  | a :: as, hnd, hmem => by
    rw [map_cons, nodup_cons] at hnd
    rw [modifyFirst]
    by_cases ha : key a = key r
    · have hrest : as.filter (fun x => decide (key x ≠ key r)) = as := by simp_all
      simp only [ha, decide_true, if_true, ne_eq, not_true_eq_false, decide_false,
        Bool.false_eq_true, not_false_eq_true, filter_cons_of_neg]
      rw [hrest]
    have hmem' : key r ∈ as.map key := by grind
    have ih := modifyFirst_perm key hnd.2 hmem'
    simp only [ha, decide_false, Bool.false_eq_true, if_false, ne_eq, not_false_eq_true,
      decide_true, filter_cons_of_pos]
    exact (ih.cons a).trans (Perm.swap r a _)

/-- A table kept by replacing in place is the table of the log. -/
theorem modifyFirst_perm_latest {l log : List R} (h : l.Perm (latest key log))
    (hmem : key r ∈ l.map key) : (modifyFirst (fun x => decide (key x = key r)) (fun _ => r) l).Perm
      (latest key (log ++ [r])) := by
  have hnd : (l.map key).Nodup := (h.map key).nodup_iff.mpr (latest_keys_nodup key log)
  refine (modifyFirst_perm key hnd hmem).trans ?_
  rw [latest_append, latest_singleton]
  refine ((perm_append_singleton r _).symm).trans (Perm.append_right _ ?_)
  grind

/-- Each new record in the place of the entry with its key. -/
def replaceAll (key : R → Nat) (updated l : List R) : List R :=
  updated.foldl (fun rs next =>
    modifyFirst (fun x => decide (key x = key next)) (fun _ => next) rs) l

/-- **Replacing entries in place** is putting the new records over the table. -/
theorem replaceAll_perm : ∀ (updated : List R) {l log : List R},
    l.Perm (latest key log) → (∀ u ∈ updated, key u ∈ l.map key) →
    (replaceAll key updated l).Perm (latest key (log ++ updated))
  | [], l, log, h, _ => by simpa [replaceAll] using h
  | u :: us, l, log, h, hmem => by
    have hu := hmem u mem_cons_self
    have hkeys : (modifyFirst (fun x => decide (key x = key u)) (fun _ => u) l).map key =
        l.map key :=
      map_modifyFirst (fun a ha => by simpa [eq_comm] using ha) l
    have hrest := replaceAll_perm us (modifyFirst_perm_latest h hu)
      (fun x hx => by rw [hkeys]; exact hmem x (mem_cons_of_mem _ hx))
    rw [append_assoc, singleton_append] at hrest
    exact hrest

/-! ## §3. Tables sorted by a number. -/

/-- Sorted by `key`, equal keys allowed. -/
def SortedBy (key : R → Nat) (l : List R) : Prop := l.Pairwise (fun a b => key a ≤ key b)

/-- A stable sort. -/
def sortByKey (key : R → Nat) (l : List R) : List R := l.insertionSort (fun a b => key a ≤ key b)

theorem sortByKey_perm (key : R → Nat) (l : List R) : (sortByKey key l).Perm l :=
  perm_insertionSort _ l

theorem sortByKey_sorted (key : R → Nat) (l : List R) : SortedBy key (sortByKey key l) := by
  exact pairwise_insertionSort _ l

/-- Two sorted tables with the same entries, no key twice, are the same. -/
theorem SortedBy.eq_of_perm (ha : SortedBy key a) (hb : SortedBy key b) (hp : a.Perm b)
    (hnd : (a.map key).Nodup) : a = b := by
  refine Perm.eq_of_pairwise (fun x y hx hy hxy hyx => ?_) ha hb hp
  exact inj_on_of_nodup_map hnd hx (hp.mem_iff.mpr hy) (le_antisymm hxy hyx)

/-- Two sorted lists of numbers with the same members as often are the same. -/
theorem SortedBy.eq_of_perm_id {a b : List Nat} (ha : SortedBy id a) (hb : SortedBy id b)
    (hp : a.Perm b) : a = b :=
  Perm.eq_of_pairwise (fun _ _ _ _ hxy hyx => le_antisymm hxy hyx) ha hb hp

theorem sortByKey_eq_self (h : SortedBy key l) : sortByKey key l = l := by
  exact List.Pairwise.insertionSort_eq h

/-- Insert behind all entries with a key at most the new one; at the end without a search
when the last entry allows it. -/
def insertByKey (key : R → Nat) (r : R) (l : List R) : List R :=
  if l.getLast?.all (fun x => key x ≤ key r) then l ++ [r]
  else l.takeWhile (fun x => key x ≤ key r) ++ r :: l.dropWhile (fun x => key x ≤ key r)

theorem insertByKey_perm (key : R → Nat) (r : R) (l : List R) :
    (insertByKey key r l).Perm (r :: l) := by
  unfold insertByKey
  split
  next => exact perm_append_singleton r l
  next =>
    refine perm_middle.trans ?_
    rw [takeWhile_append_dropWhile]

theorem SortedBy.le_getLast (h : SortedBy key l) {x y : R} (hx : x ∈ l)
    (hlast : l.getLast? = some y) : key x ≤ key y := by
  obtain ⟨front, rfl⟩ := getLast?_eq_some_iff.mp hlast
  rcases mem_append.mp hx with hx | hx
  · exact (pairwise_append.mp h).2.2 x hx y (by simp)
  · rw [mem_singleton.mp hx]

theorem SortedBy.append (ha : SortedBy key a) (hb : SortedBy key b)
    (hab : ∀ x ∈ a, ∀ y ∈ b, key x ≤ key y) : SortedBy key (a ++ b) :=
  pairwise_append.mpr ⟨ha, hb, hab⟩

variable {p : R → Bool}

/-- What a sorted list drops up to a bound is followed only by entries beyond the bound. -/
theorem SortedBy.not_of_mem_dropWhile (hp : ∀ a b, key a ≤ key b → p b = true → p a = true) :
    ∀ {l : List R},
    SortedBy key l → ∀ x ∈ l.dropWhile p, p x = false
  | [], _, x, hx => by simp at hx
  | y :: l, h, x, hx => by
    rw [dropWhile_cons] at hx
    split at hx
    next => exact SortedBy.not_of_mem_dropWhile hp (pairwise_cons.mp h).2 x hx
    next hy =>
      rcases mem_cons.mp hx with rfl | hx
      · simpa using hy
      · by_contra hcon
        exact hy (hp y x ((pairwise_cons.mp h).1 x hx) (by simpa using hcon))

variable {k : Nat} {x : R}

theorem SortedBy.lt_of_mem_dropWhile (h : SortedBy key l) (x : R)
    (hx : x ∈ l.dropWhile (fun x => key x ≤ k)) : k < key x := by
  have := h.not_of_mem_dropWhile (p := fun x => decide (key x ≤ k))
    (fun a b hab hb => by simp only [decide_eq_true_eq] at hb ⊢; omega) x hx
  simpa using this

/-- What a sorted list takes up to a bound is all that is within the bound. -/
theorem SortedBy.mem_takeWhile (h : SortedBy key l) (hx : x ∈ l) (hk : key x ≤ k) :
    x ∈ l.takeWhile (fun x => key x ≤ k) := by
  rw [← takeWhile_append_dropWhile (l := l) (p := fun x => decide (key x ≤ k))] at hx
  rcases mem_append.mp hx with hx | hx
  · exact hx
  · have := h.lt_of_mem_dropWhile x hx
    omega

theorem SortedBy.le_of_mem_dropWhile (h : SortedBy key l) (x : R)
    (hx : x ∈ l.dropWhile (fun x => key x < k)) : k ≤ key x := by
  have := h.not_of_mem_dropWhile (p := fun x => decide (key x < k))
    (fun a b hab hb => by simp only [decide_eq_true_eq] at hb ⊢; omega) x hx
  simpa using this

theorem insertByKey_sorted (h : SortedBy key l) : SortedBy key (insertByKey key r l) := by
  unfold insertByKey
  split
  next hlast =>
    refine h.append (pairwise_singleton _ _) ?_
    intro x hx y hy
    rw [mem_singleton.mp hy]
    cases hl : l.getLast? with
    | none =>
      rw [getLast?_eq_none_iff.mp hl] at hx
      simp at hx
    | some z =>
      rw [hl] at hlast
      exact le_trans (h.le_getLast hx hl) (by simpa using hlast)
  next =>
    have hfront : SortedBy key (l.takeWhile (fun x => key x ≤ key r)) :=
      h.sublist (takeWhile_sublist _)
    have hback : SortedBy key (l.dropWhile (fun x => key x ≤ key r)) :=
      h.sublist (dropWhile_sublist _)
    have hle : ∀ x ∈ l.takeWhile (fun x => key x ≤ key r), key x ≤ key r := by grind [all_takeWhile]
    have hlt := h.lt_of_mem_dropWhile (k := key r)
    refine hfront.append (pairwise_cons.mpr ⟨fun y hy => (hlt y hy).le, hback⟩) ?_
    grind

/-- The first record of its kind comes before the others of it. -/
theorem rel_of_find {r : R → R → Prop} (hrefl : ∀ a, r a a) (hs : l.Pairwise r) {a x : R}
    (ha : l.find? p = some a) (hx : x ∈ l) (hp : p x = true) : r a x := by
  obtain ⟨-, as, bs, rfl, has⟩ := find?_eq_some_iff_append.mp ha
  rcases mem_append.mp hx with hx | hx
  · have := has x hx
    simp [hp] at this
  rcases mem_cons.mp hx with rfl | hx
  · exact hrefl x
  · exact rel_of_pairwise_cons (pairwise_append.mp hs).2.1 hx

theorem SortedBy.le_of_find (hs : SortedBy key l) {a x : R} (ha : l.find? p = some a) (hx : x ∈ l)
    (hp : p x = true) : key a ≤ key x :=
  rel_of_find (r := fun a b => key a ≤ key b) (fun _ => le_rfl) hs ha hx hp

theorem SortedBy.le_of_find_reverse (hs : SortedBy key l) {a x : R}
    (ha : l.reverse.find? p = some a) (hx : x ∈ l) (hp : p x = true) : key x ≤ key a :=
  rel_of_find (r := fun a b => key b ≤ key a) (fun _ => le_rfl) (pairwise_reverse.mpr hs) ha
    (mem_reverse.mpr hx) hp

/-! ## §4. Binary search. -/

/-- The loop of `slice::binary_search_by`: halve the range `[base, base + size)`. -/
def bsearchLoop (keyAt : Nat → Nat) (k : Nat) : Nat → Nat → Nat → Nat
  | 0, base, _ => base
  | fuel + 1, base, size =>
    if size ≤ 1 then base
    else
      let half := size / 2
      let mid := base + half
      bsearchLoop keyAt k fuel (if keyAt mid > k then base else mid) (size - half)

/-- `binary_search_by_key`: the place of an entry with key `k`, or the place where one would
stand. -/
def binarySearchByKey (key : R → Nat) (l : List R) (k : Nat) : Except Nat Nat :=
  let keys := l.map key
  let base := bsearchLoop (fun i => keys.getD i 0) k l.length 0 l.length
  match keys[base]? with
  | none => .error 0
  | some found => if found = k then .ok base else .error (if found < k then base + 1 else base)

/-- `binary_search_by_key(..).ok()`. -/
def binarySearch (key : R → Nat) (l : List R) (k : Nat) : Option Nat :=
  (binarySearchByKey key l k).toOption

/-- The keys before the place are smaller than `k`, those behind it are greater. -/
def Separates (keys : List Nat) (k place : Nat) : Prop :=
  place < keys.length ∧ ∀ j x, keys[j]? = some x → (j < place → x < k) ∧ (place < j → k < x)

/-- **The loop ends at a place that separates** a strictly sorted table: what lies outside of the
range is smaller before it and greater behind it. -/
theorem bsearchLoop_separates {keys : List Nat} (hs : keys.Pairwise (· < ·)) (k : Nat) :
    ∀ (fuel base size : Nat), size ≤ fuel + 1 → 0 < size → base + size ≤ keys.length →
    (∀ j x, keys[j]? = some x → (j < base → x < k) ∧ (base + size ≤ j → k < x)) →
    Separates keys k (bsearchLoop (fun j => keys.getD j 0) k fuel base size)
  | 0, base, size, hfuel, _, _, hout => by
    rw [bsearchLoop]
    exact ⟨by omega, fun j x hj => ⟨(hout j x hj).1, fun hlt => (hout j x hj).2 (by omega)⟩⟩
  | fuel + 1, base, size, hfuel, _, hlen, hout => by
    rw [bsearchLoop]
    by_cases hsize : size ≤ 1
    · rw [if_pos hsize]
      exact ⟨by omega, fun j x hj => ⟨(hout j x hj).1, fun hlt => (hout j x hj).2 (by omega)⟩⟩
    rw [if_neg hsize]
    have hmid : base + size / 2 < keys.length := by omega
    have hget : keys.getD (base + size / 2) 0 = keys[base + size / 2] := by
      rw [getD_eq_getElem?_getD, getElem?_eq_getElem hmid, Option.getD_some]
    simp only [hget]
    -- the middle key decides on which side the search goes on
    by_cases hgt : keys[base + size / 2] > k
    · rw [if_pos hgt]
      refine bsearchLoop_separates hs k fuel base _ (by omega) (by omega) (by omega) fun j x hj =>
        ⟨(hout j x hj).1, fun hle => ?_⟩
      obtain ⟨hjl, rfl⟩ := List.getElem?_eq_some_iff.mp hj
      rcases Nat.eq_or_lt_of_le (show base + size / 2 ≤ j by omega) with rfl | hlt
      · exact hgt
      · exact hgt.trans (pairwise_iff_getElem.mp hs _ _ hmid hjl hlt)
    · rw [if_neg hgt]
      refine bsearchLoop_separates hs k fuel _ _ (by omega) (by omega) (by omega) fun j x hj =>
        ⟨fun hlt => ?_, fun hle => (hout j x hj).2 (by omega)⟩
      obtain ⟨hjl, rfl⟩ := List.getElem?_eq_some_iff.mp hj
      exact (pairwise_iff_getElem.mp hs _ _ hjl hmid hlt).trans_le (Nat.le_of_not_lt hgt)

/-- What binary search returns is an entry with the key. -/
theorem binarySearchByKey_ok {k i : Nat} (h : binarySearchByKey key l k = .ok i) :
    ∃ x, l[i]? = some x ∧ key x = k := by
  unfold binarySearchByKey at h
  dsimp only at h
  split at h
  next => cases h
  next found hfound =>
    split at h
    next heq =>
      cases h
      obtain ⟨x, hx, rfl⟩ := Option.map_eq_some_iff.mp (getElem?_map.symm.trans hfound)
      exact ⟨x, hx, heq⟩
    next => cases h

/-- **Where no entry has the key**, the smaller ones are those before the place. -/
theorem binarySearchByKey_error (hs : (l.map key).Pairwise (· < ·)) {k n : Nat}
    (h : binarySearchByKey key l k = .error n) :
    n ≤ l.length ∧ ∀ j x, l[j]? = some x → (j < n → key x < k) ∧ (n ≤ j → k < key x) := by
  rcases l.length.eq_zero_or_pos with hnil | hpos
  · cases List.length_eq_zero_iff.mp hnil
    cases h
    exact ⟨le_rfl, fun j x hj => by cases hj⟩
  obtain ⟨hlen, hsep⟩ := bsearchLoop_separates hs k l.length 0 l.length (Nat.le_succ _) hpos
    (by simp) fun j x hj => ⟨fun hlt => absurd hlt j.not_lt_zero, fun hle => by
      rw [getElem?_eq_none (by simpa using hle)] at hj
      cases hj⟩
  unfold binarySearchByKey at h
  dsimp only at h
  generalize bsearchLoop _ k l.length 0 l.length = place at h hsep hlen
  rw [getElem?_eq_getElem hlen] at h
  dsimp only at h
  rw [length_map] at hlen
  split at h
  next => cases h
  next hne =>
    cases h
    refine ⟨by split <;> omega, fun j x hj => ?_⟩
    have hkey : (l.map key)[j]? = some (key x) := by rw [getElem?_map, hj]; rfl
    obtain ⟨hbefore, hbehind⟩ := hsep j _ hkey
    -- the loop has settled every other place; the key at this one was compared last
    rcases Nat.lt_trichotomy j place with hjp | rfl | hjp
    · exact ⟨fun _ => hbefore hjp, fun hle => by split at hle <;> omega⟩
    · obtain ⟨_, hfound⟩ := List.getElem?_eq_some_iff.mp hkey
      rw [hfound] at hne ⊢
      split <;> omega
    · exact ⟨fun hjn => by split at hjn <;> omega, fun _ => hbehind hjp⟩

/-- **Binary search finds an entry of a strictly sorted table.** -/
theorem binarySearch_of_mem (hs : (l.map key).Pairwise (· < ·)) (hx : x ∈ l) :
    ∃ i, binarySearch key l (key x) = some i ∧ l[i]? = some x := by
  unfold binarySearch
  cases hres : binarySearchByKey key l (key x) with
  | ok i =>
    obtain ⟨y, hy, hkey⟩ := binarySearchByKey_ok hres
    cases inj_on_of_nodup_map (hs.imp Nat.ne_of_lt) (mem_of_getElem? hy) hx hkey
    exact ⟨i, rfl, hy⟩
  | error n =>
    obtain ⟨j, hj⟩ := getElem?_of_mem hx
    obtain ⟨hbefore, hfrom⟩ := (binarySearchByKey_error hs hres).2 j x hj
    rcases Nat.lt_or_ge j n with hlt | hge
    · exact absurd (hbefore hlt) (lt_irrefl _)
    · exact absurd (hfrom hge) (lt_irrefl _)

theorem binarySearch_some {k i : Nat} (h : binarySearch key l k = some i) :
    ∃ x, l[i]? = some x ∧ key x = k := by
  unfold binarySearch at h
  cases hres : binarySearchByKey key l k with
  | error n =>
    rw [hres] at h
    cases h
  | ok j =>
    rw [hres] at h
    cases h
    exact binarySearchByKey_ok hres

end Holo.Lib
