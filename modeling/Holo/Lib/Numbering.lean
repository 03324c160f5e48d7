/-
Holo.Lib.Numbering — numbers for the objects on a strip.

A strip holds spans, which cover some positions, and marks, which lie at one.  A numbering
tells the number of a position and the place of a number.  It is right if the number of a
boundary counts the objects before it, leads back to it, and no number leads into a span.

Main results:
* `numbers_by_rank_iff`: counting the sorted starts is right on a tiled strip only;
* `numbers_by_size_iff`: dividing by a size is right on a strip of cells of that size only.
-/
import Mathlib.Data.List.Count
import Mathlib.Data.List.Dedup
import Mathlib.Data.List.GetD
import Mathlib.Data.List.Pairwise
import Mathlib.Data.List.Perm.Lattice
import Mathlib.Data.List.Sort

namespace Holo.Lib

open Function List

/-! ## §1. Lines. -/

/-- Spans, with start and length, marks, and the end of the strip. -/
structure Strip where
  spans : List (Nat × Nat)
  marks : List Nat
  stop : Nat

section

variable (l : Strip) (p : Nat)

/-- Spans do not overlap, and everything lies before the end. -/
structure Strip.Sound : Prop where
  ordered : l.spans.Pairwise fun a b => a.1 + a.2 ≤ b.1
  pos : ∀ b ∈ l.spans, 0 < b.2
  below : ∀ b ∈ l.spans, b.1 + b.2 ≤ l.stop
  marksBelow : ∀ m ∈ l.marks, m < l.stop

/-- Where objects start. -/
def Strip.starts : List Nat := l.spans.map Prod.fst ++ l.marks

/-- The position lies inside no span. -/
def Strip.Outside : Prop := ∀ b ∈ l.spans, ¬ (b.1 < p ∧ p < b.1 + b.2)

/-- The strip or an object starts or ends here, and the position is not inside a span. -/
def Strip.Boundary : Prop :=
  (p = 0 ∨ p = l.stop ∨ p ∈ l.starts ∨ ∃ b ∈ l.spans, p = b.1 + b.2) ∧ l.Outside p

/-- How many objects lie before a position. -/
def Strip.preceding : Nat :=
  l.spans.countP (fun b => b.1 + b.2 ≤ p) + l.marks.countP (· < p)

/-- A numbering is right, for the numbers up to a limit. -/
structure Strip.NumbersBy (limit : Nat) (number place : Nat → Nat) : Prop where
  counts : ∀ p, l.Boundary p → number p = l.preceding p
  returns : ∀ p, l.Boundary p → place (number p) = p
  lands : ∀ n ≤ limit, place n ≤ l.stop → l.Boundary (place n)

end

variable {b : Nat × Nat} {k : Nat}

section

variable {l : Strip} {p : Nat}

theorem Strip.mem_starts : p ∈ l.starts ↔ (∃ b ∈ l.spans, b.1 = p) ∨ p ∈ l.marks := by
  unfold starts
  rw [mem_append, mem_map]

section

variable (h : l.Sound)
include h

theorem Strip.Sound.starts_lt (hp : p ∈ l.starts) : p < l.stop := by
  rcases Strip.mem_starts.mp hp with ⟨b, hb, rfl⟩ | hm
  · have hpos := h.pos b hb
    have hbelow := h.below b hb
    omega
  · exact h.marksBelow p hm

theorem Strip.Sound.boundary_le (hp : l.Boundary p) : p ≤ l.stop := by
  rcases hp.1 with rfl | rfl | hs | ⟨b, hb, rfl⟩
  · exact Nat.zero_le _
  · exact le_rfl
  · exact (h.starts_lt hs).le
  · exact h.below b hb

/-- Two spans are the same, or one ends before the other starts. -/
theorem Strip.Sound.apart {a : Nat × Nat} (ha : a ∈ l.spans) (hb : b ∈ l.spans) :
    a = b ∨ a.1 + a.2 ≤ b.1 ∨ b.1 + b.2 ≤ a.1 := by
  by_cases heq : a = b
  · exact .inl heq
  have : Std.Symm fun a b : Nat × Nat => a.1 + a.2 ≤ b.1 ∨ b.1 + b.2 ≤ a.1 :=
    ⟨fun _ _ hor => hor.symm⟩
  have hall : l.spans.Pairwise fun a b => a.1 + a.2 ≤ b.1 ∨ b.1 + b.2 ≤ a.1 :=
    h.ordered.imp fun hle => .inl hle
  exact .inr (hall.forall ha hb heq)

theorem Strip.Sound.outside_start (hb : b ∈ l.spans) : l.Outside b.1 := by
  intro a ha hin
  rcases h.apart ha hb with rfl | hle | hle
  · omega
  · omega
  · omega

theorem Strip.Sound.outside_end (hb : b ∈ l.spans) : l.Outside (b.1 + b.2) := by
  intro a ha hin
  rcases h.apart ha hb with rfl | hle | hle
  · omega
  · omega
  · omega

omit h in
theorem Strip.Sound.boundary_zero : l.Boundary 0 :=
  ⟨.inl rfl, fun _ _ hin => absurd hin.1 (Nat.not_lt_zero _)⟩

theorem Strip.Sound.boundary_stop : l.Boundary l.stop :=
  ⟨.inr (.inl rfl), fun b hb hin => absurd hin.2 (not_lt.mpr (h.below b hb))⟩

theorem Strip.Sound.boundary_start (hb : b ∈ l.spans) : l.Boundary b.1 :=
  ⟨.inr (.inr (.inl (Strip.mem_starts.mpr (.inl ⟨b, hb, rfl⟩)))), h.outside_start hb⟩

theorem Strip.Sound.boundary_end (hb : b ∈ l.spans) : l.Boundary (b.1 + b.2) :=
  ⟨.inr (.inr (.inr ⟨b, hb, rfl⟩)), h.outside_end hb⟩

/-- **Outside the spans, an object lies before a position if it starts before it.** -/
theorem Strip.preceding_eq (hp : l.Outside p) : l.preceding p = l.starts.countP (· < p) := by
  unfold preceding starts
  rw [countP_append, countP_map]
  congr 1
  refine countP_congr fun b hb => ?_
  have hpos := h.pos b hb
  have hout := hp b hb
  simp only [decide_eq_true_eq, comp]
  omega

theorem Strip.preceding_stop : l.preceding l.stop = l.starts.length := by
  rw [Strip.preceding_eq h h.boundary_stop.2]
  exact countP_eq_length.mpr fun p hp => by simpa using h.starts_lt hp

end

end

/-! ## §2. Numbers by rank. -/

variable {R : List Nat} {p : Nat}

/-- An element of an increasing list stands where as many elements are smaller. -/
theorem getElem?_countP_lt (h : R.Pairwise (· < ·)) (hp : p ∈ R) :
    R[R.countP (· < p)]? = some p := by
  induction R with
  | nil => cases hp
  | cons a R ih =>
    obtain ⟨hhead, htail⟩ := pairwise_cons.mp h
    grind

/-- The starts, sorted, each once. -/
def Strip.points (l : Strip) : List Nat := (l.starts.insertionSort (· ≤ ·)).dedup

/-- The number of a position: how many points lie before it. -/
def Strip.rank (l : Strip) (p : Nat) : Nat :=
  if l.stop ≤ p then l.points.length else l.points.countP (· < p)

/-- The place of a number: the point with this number, behind the last the end of the strip,
and then `beyond`. -/
def Strip.select (l : Strip) (beyond n : Nat) : Nat :=
  if n = l.points.length then l.stop else l.points.getD n beyond

/-- Objects follow each other without gaps, and no two start at one position. -/
structure Strip.Tiled (l : Strip) : Prop where
  distinct : l.starts.Nodup
  marksOutside : ∀ m ∈ l.marks, l.Outside m
  first : 0 < l.stop → 0 ∈ l.starts
  next : ∀ b ∈ l.spans, b.1 + b.2 < l.stop → b.1 + b.2 ∈ l.starts

variable {l : Strip} {limit beyond : Nat}

theorem Strip.mem_points : p ∈ l.points ↔ p ∈ l.starts := by
  unfold points
  rw [mem_dedup, mem_insertionSort]

theorem Strip.points_increase (l : Strip) : l.points.Pairwise (· < ·) := by
  have hsorted : l.points.Pairwise (· ≤ ·) :=
    (pairwise_insertionSort (· ≤ ·) l.starts).sublist (dedup_sublist _)
  have hnodup : l.points.Pairwise (· ≠ ·) := nodup_dedup _
  exact (hsorted.and hnodup).imp fun hpair => lt_of_le_of_ne hpair.1 hpair.2

theorem Strip.points_perm (h : l.starts.Nodup) : l.points.Perm l.starts := by
  have hperm := perm_insertionSort (· ≤ ·) l.starts
  unfold points
  rw [(hperm.nodup_iff.mpr h).dedup]
  exact hperm

/-- As many points as starts: no two objects start at one position. -/
theorem Strip.nodup_starts (h : l.points.length = l.starts.length) : l.starts.Nodup := by
  have hperm := perm_insertionSort (· ≤ ·) l.starts
  have hself : l.points = l.starts.insertionSort (· ≤ ·) :=
    (dedup_sublist _).eq_of_length (h.trans hperm.length_eq.symm)
  exact hperm.nodup_iff.mp (hself ▸ nodup_dedup _)

theorem Strip.rank_stop (l : Strip) : l.rank l.stop = l.points.length := if_pos le_rfl

theorem Strip.rank_le (l : Strip) (p : Nat) : l.rank p ≤ l.points.length := by
  grind [rank]

theorem Strip.length_points_le (h : l.Sound) : l.points.length ≤ l.stop := by
  have hsub : l.points ⊆ range l.stop := by
    intro p hp
    exact mem_range.mpr (h.starts_lt (Strip.mem_points.mp hp))
  have hle := (subperm_of_subset (nodup_dedup _) hsub).length_le
  rwa [length_range] at hle

/-- The place of the number of a point is the point. -/
theorem Strip.select_rank (h : l.Sound) (hp : p ∈ l.starts) : l.select beyond (l.rank p) = p := by
  have hget := getElem?_countP_lt l.points_increase (Strip.mem_points.mpr hp)
  have hlt := (List.getElem?_eq_some_iff.mp hget).1
  unfold select rank
  rw [if_neg (not_le.mpr (h.starts_lt hp)), if_neg hlt.ne, getD_eq_getElem?_getD, hget]
  rfl

/-- A place of a number that is not at the end is a point, or `beyond`. -/
theorem Strip.select_cases (l : Strip) (beyond n : Nat) :
    l.select beyond n = l.stop ∨ l.select beyond n ∈ l.starts ∨
      l.points.length < n ∧ l.select beyond n = beyond := by
  unfold select
  by_cases heq : n = l.points.length
  · exact .inl (if_pos heq)
  rw [if_neg heq]
  by_cases hlt : n < l.points.length
  · refine .inr (.inl (Strip.mem_points.mp ?_))
    rw [getD_eq_getElem _ _ hlt]
    exact getElem_mem hlt
  · refine .inr (.inr ⟨by omega, ?_⟩)
    rw [getD_eq_default _ _ (by omega)]

/-- On a tiled strip every boundary before the end is a point. -/
theorem Strip.Tiled.mem_starts_of_boundary (ht : l.Tiled) (hp : l.Boundary p) (hlt : p < l.stop) :
    p ∈ l.starts := by
  rcases hp.1 with rfl | rfl | hs | ⟨b, hb, rfl⟩
  · exact ht.first hlt
  · exact absurd hlt (lt_irrefl _)
  · exact hs
  · exact ht.next b hb hlt

theorem Strip.Tiled.boundary_of_mem (ht : l.Tiled) (h : l.Sound) (hp : p ∈ l.starts) :
    l.Boundary p := by
  refine ⟨.inr (.inr (.inl hp)), ?_⟩
  rcases Strip.mem_starts.mp hp with ⟨b, hb, rfl⟩ | hm
  · exact h.outside_start hb
  · exact ht.marksOutside p hm

/-- A right numbering by rank leads back to every boundary, so that there is a point. -/
theorem Strip.mem_starts_of_returns (hlt : p < l.stop) (hback : l.select beyond (l.rank p) = p) :
    p ∈ l.starts := by
  have hle := l.rank_le p
  rcases l.select_cases beyond (l.rank p) with hstop | hmem | ⟨hgt, -⟩
  · omega
  · rwa [hback] at hmem
  · omega

/-- **Counting the sorted starts is right on a tiled strip only.** -/
theorem Strip.numbers_by_rank_iff (h : l.Sound) (hbeyond : l.stop ≤ beyond)
    (hlimit : l.stop ≤ limit) : l.NumbersBy limit l.rank (l.select beyond) ↔ l.Tiled := by
  constructor
  · intro hn
    have hend := hn.counts _ h.boundary_stop
    rw [Strip.rank_stop, Strip.preceding_stop h] at hend
    refine ⟨Strip.nodup_starts hend, fun m hm => ?_, fun hpos => ?_, fun b hb hlt => ?_⟩
    · -- the number of a mark leads to it
      have hmem : m ∈ l.starts := Strip.mem_starts.mpr (.inr hm)
      have hback : l.select beyond (l.rank m) = m := Strip.select_rank h hmem
      have hrank : l.rank m ≤ limit :=
        (l.rank_le m).trans ((Strip.length_points_le h).trans hlimit)
      have hland := hn.lands _ hrank
      rw [hback] at hland
      exact (hland (h.starts_lt hmem).le).2
    · exact Strip.mem_starts_of_returns hpos (hn.returns 0 Strip.Sound.boundary_zero)
    · exact Strip.mem_starts_of_returns hlt (hn.returns _ (h.boundary_end hb))
  intro ht
  refine ⟨fun p hp => ?_, fun p hp => ?_, fun n _ hle => ?_⟩
  · rcases (h.boundary_le hp).lt_or_eq with hlt | rfl
    · rw [Strip.preceding_eq h hp.2]
      have hrank : l.rank p = l.points.countP (· < p) := if_neg (not_le.mpr hlt)
      rw [hrank]
      exact (Strip.points_perm ht.distinct).countP_eq _
    · rw [Strip.rank_stop, Strip.preceding_stop h]
      exact (Strip.points_perm ht.distinct).length_eq
  · rcases (h.boundary_le hp).lt_or_eq with hlt | rfl
    · exact Strip.select_rank h (ht.mem_starts_of_boundary hp hlt)
    · rw [Strip.rank_stop]
      exact if_pos rfl
  · rcases l.select_cases beyond n with hstop | hmem | ⟨-, hout⟩
    · rw [hstop]
      exact h.boundary_stop
    · exact ht.boundary_of_mem h hmem
    · have heq : l.select beyond n = l.stop := by omega
      rw [heq]
      exact h.boundary_stop

/-! ## §3. Numbers by size. -/

/-- The strip is cut into cells of one size, with one object in each. -/
structure Strip.Grid (l : Strip) (size : Nat) : Prop where
  sizes : ∀ b ∈ l.spans, b.2 = size
  whole : size ∣ l.stop
  cells : l.starts.Perm ((range (l.stop / size)).map (· * size))

/-- The elements below `a + 1` are those below `a`, and `a`. -/
theorem countP_lt_succ (q : List Nat) (a : Nat) :
    q.countP (· < a + 1) = q.countP (· < a) + q.count a := by
  induction q with
  | nil => rfl
  | cons b q ih =>
    rw [countP_cons, countP_cons, count_cons, ih]
    rcases Nat.lt_trichotomy b a with hlt | rfl | hgt
    · simp [hlt, hlt.ne, Nat.lt_succ_of_lt hlt]
      omega
    · simp
      omega
    · simp [hgt.ne', not_lt.mpr hgt.le, not_lt.mpr (Nat.succ_le_of_lt hgt)]

/-- A list that has `k` elements below `k`, for every `k` up to its length. -/
theorem perm_range_of_countP {q : List Nat} {n : Nat} (hlt : ∀ a ∈ q, a < n)
    (hcount : ∀ k ≤ n, q.countP (· < k) = k) : q.Perm (range n) := by
  -- one element for each number: the numbers below `a + 1` are those below `a`, and `a`
  have hcell : ∀ a < n, q.count a = 1 := by
    intro a ha
    have hlow := hcount a ha.le
    have hhigh := hcount (a + 1) ha
    have hsplit := countP_lt_succ q a
    omega
  have hnodup : q.Nodup := by grind
  grind

section

variable {size bound : Nat}

section

variable (hg : l.Grid size)
include hg

/-- In a grid every object starts at a multiple of the size. -/
theorem Strip.Grid.mem_starts : p ∈ l.starts ↔ ∃ k < l.stop / size, k * size = p := by
  rw [hg.cells.mem_iff, mem_map]
  simp only [mem_range]

theorem Strip.Grid.stop_eq : l.stop / size * size = l.stop :=
  Nat.div_mul_cancel hg.whole

/-- No multiple of the size lies inside a span. -/
theorem Strip.Grid.outside (k : Nat) : l.Outside (k * size) := by
  intro b hb hin
  obtain ⟨j, -, hj⟩ := hg.mem_starts.mp (Strip.mem_starts.mpr (.inl ⟨b, hb, rfl⟩))
  rw [hg.sizes b hb, ← hj] at hin
  have hlow : j < k := Nat.lt_of_mul_lt_mul_right hin.1
  have hhigh : (j + 1) * size ≤ k * size := Nat.mul_le_mul_right _ hlow
  rw [Nat.succ_mul] at hhigh
  omega

theorem Strip.Grid.boundary (hk : k ≤ l.stop / size) : l.Boundary (k * size) := by
  refine ⟨?_, hg.outside k⟩
  rcases hk.lt_or_eq with hlt | rfl
  · exact .inr (.inr (.inl (hg.mem_starts.mpr ⟨k, hlt, rfl⟩)))
  · exact .inr (.inl hg.stop_eq)

/-- In a grid every boundary is a multiple of the size. -/
theorem Strip.Grid.multiple (hp : l.Boundary p) : ∃ k ≤ l.stop / size, p = k * size := by
  rcases hp.1 with rfl | rfl | hs | ⟨b, hb, rfl⟩
  · exact ⟨0, Nat.zero_le _, (Nat.zero_mul _).symm⟩
  · exact ⟨_, le_rfl, hg.stop_eq.symm⟩
  · obtain ⟨k, hk, rfl⟩ := hg.mem_starts.mp hs
    exact ⟨k, hk.le, rfl⟩
  · obtain ⟨k, hk, hstart⟩ := hg.mem_starts.mp (Strip.mem_starts.mpr (.inl ⟨b, hb, rfl⟩))
    refine ⟨k + 1, hk, ?_⟩
    rw [hg.sizes b hb, ← hstart, Nat.succ_mul]

omit hg in
theorem countP_lt_range {n : Nat} (hk : k ≤ n) : (range n).countP (· < k) = k := by
  induction n, hk using Nat.le_induction with
  | base => exact (countP_eq_length.mpr (by simp)).trans length_range
  | succ n hkn ih =>
    rw [range_succ, countP_append, ih]
    simp [not_lt.mpr hkn]

/-- In a grid as many objects lie before a boundary as sizes fit before it. -/
theorem Strip.Grid.preceding (h : l.Sound) (hsize : 0 < size)
    (hk : k ≤ l.stop / size) : l.preceding (k * size) = k := by
  rw [Strip.preceding_eq h (hg.outside k), hg.cells.countP_eq, countP_map]
  grind [countP_congr, Nat.mul_lt_mul_right, countP_lt_range]

end

/-- If the boundaries are the multiples of a size, the spans have this size. -/
theorem Strip.sizes_of_multiples (h : l.Sound) (hsize : 0 < size)
    (hmul : ∀ p, l.Boundary p → size ∣ p)
    (hall : ∀ k, k * size ≤ l.stop → l.Boundary (k * size)) (hb : b ∈ l.spans) : b.2 = size := by
  obtain ⟨j, hj⟩ := hmul _ (h.boundary_start hb)
  obtain ⟨c, hc⟩ := (Nat.dvd_add_right ⟨j, hj⟩).mp (hmul _ (h.boundary_end hb))
  have hpos := h.pos b hb
  have hbelow := h.below b hb
  rcases Nat.lt_trichotomy c 1 with hzero | rfl | hmore
  · obtain rfl : c = 0 := by omega
    omega
  · rw [hc, Nat.mul_one]
  -- otherwise the next multiple of the size lies inside the span
  have hlong : size * 2 ≤ b.2 := hc ▸ Nat.mul_le_mul_left size hmore
  have hnext : (j + 1) * size = b.1 + size := by rw [hj, Nat.succ_mul, Nat.mul_comm]
  have hin := (hall (j + 1) (by omega)).2 b hb
  omega

/-- With one object in each cell, a mark lies in no span. -/
theorem Strip.outside_of_cells (h : l.Sound) (hsize : 0 < size)
    (hmul : ∀ p, l.Boundary p → size ∣ p) (hsizes : ∀ b ∈ l.spans, b.2 = size)
    (hnodup : (l.starts.map (· / size)).Nodup) {m : Nat} (hm : m ∈ l.marks) : l.Outside m := by
  intro b hb hin
  obtain ⟨j, hj⟩ := hmul _ (h.boundary_start hb)
  have hcell : m / size = b.1 / size := by
    rw [hj, Nat.mul_div_cancel_left _ hsize]
    refine Nat.div_eq_of_lt_le ?_ ?_
    · rw [Nat.mul_comm]
      omega
    · grind
  unfold starts at hnodup
  rw [map_append, nodup_append] at hnodup
  exact hnodup.2.2 _ (mem_map_of_mem (mem_map_of_mem hb)) _ (mem_map_of_mem hm) hcell.symm

/-- **Dividing by a size is right on a strip of cells of that size only.** -/
theorem Strip.numbers_by_size_iff (h : l.Sound) (hsize : 0 < size) (hbound : l.stop ≤ bound)
    (hlimit : l.stop ≤ limit) :
    l.NumbersBy limit (· / size) (fun n => min (n * size) bound) ↔ l.Grid size := by
  constructor
  swap
  · intro hg
    refine ⟨fun p hp => ?_, fun p hp => ?_, fun n _ hle => ?_⟩
    · obtain ⟨k, hk, rfl⟩ := hg.multiple hp
      rw [hg.preceding h hsize hk]
      exact Nat.mul_div_cancel _ hsize
    · obtain ⟨k, hk, rfl⟩ := hg.multiple hp
      have hle := (h.boundary_le hp).trans hbound
      simp [hsize, hle]
    · rcases le_total (n * size) bound with hin | hout
      · rw [min_eq_left hin] at hle ⊢
        exact hg.boundary ((Nat.le_div_iff_mul_le hsize).mpr hle)
      · rw [min_eq_right hout] at hle ⊢
        obtain rfl : bound = l.stop := le_antisymm hle hbound
        exact h.boundary_stop
  intro hn
  have hmul : ∀ p, l.Boundary p → size ∣ p := by
    intro p hp
    have hback : min (p / size * size) bound = p := hn.returns p hp
    have hle := Nat.div_mul_le_self p size
    exact ⟨p / size, by rw [Nat.mul_comm]; omega⟩
  have hall : ∀ k, k * size ≤ l.stop → l.Boundary (k * size) := by
    intro k hk
    have hkk : k ≤ k * size := Nat.le_mul_of_pos_right k hsize
    have hland := hn.lands k (by omega)
    have hmin : min (k * size) bound = k * size := min_eq_left (by omega)
    rw [hmin] at hland
    exact hland hk
  have hsizes : ∀ b ∈ l.spans, b.2 = size := fun b hb =>
    Strip.sizes_of_multiples h hsize hmul hall hb
  have hwhole : size ∣ l.stop := hmul _ h.boundary_stop
  -- one object in each cell
  have hcells : (l.starts.map (· / size)).Perm (range (l.stop / size)) := by
    refine perm_range_of_countP ?_ ?_
    · intro a ha
      obtain ⟨p, hp, rfl⟩ := mem_map.mp ha
      exact Nat.div_lt_div_of_lt_of_dvd hwhole (h.starts_lt hp)
    intro k hk
    have hle : k * size ≤ l.stop := (Nat.le_div_iff_mul_le hsize).mp hk
    have hbk := hall k hle
    have hcount : k * size / size = l.preceding (k * size) := hn.counts _ hbk
    rw [Nat.mul_div_cancel _ hsize, Strip.preceding_eq h hbk.2] at hcount
    grind [countP_map, countP_congr, Nat.div_lt_iff_lt_mul]
  have hstarts : ∀ p ∈ l.starts, size ∣ p := by
    intro p hp
    refine hmul p ⟨.inr (.inr (.inl hp)), ?_⟩
    rcases Strip.mem_starts.mp hp with ⟨b, hb, rfl⟩ | hm
    · exact h.outside_start hb
    · exact Strip.outside_of_cells h hsize hmul hsizes (hcells.nodup_iff.mpr nodup_range) hm
  refine ⟨hsizes, hwhole, ?_⟩
  have hself : (l.starts.map (· / size)).map (· * size) = l.starts := by
    rw [map_map]
    exact (map_congr_left fun p hp => Nat.div_mul_cancel (hstarts p hp)).trans (map_id _)
  rw [← hself]
  exact hcells.map _

end

end Holo.Lib
