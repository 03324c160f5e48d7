/-
Holo.Lib.Cells — rows of cells with addresses, each empty or with one label in it.

A row is an ordered map from addresses to cells: its cells stand in the order of their
addresses, one cell an address.

Main results:
* `Row.find_put_self`, `Row.find_put_of_ne`: what is found after a cell was set;
* `Row.put_find`: setting a cell to what it holds changes nothing;
* `Row.labels_split`: the labels of a row, apart from one cell.
-/
import Mathlib.Data.List.Perm.Basic
import Mathlib.Data.List.Nodup

namespace Holo.Lib

open List

/-- A cell: its address, its label, and what else is noted about it. -/
structure Cell (α β : Type) where
  addr : Nat
  label : Option α
  tag : β
  deriving Repr, DecidableEq

variable {α β : Type} {a b : Nat} {label label' : Option α} {tag tag' : β} {c : Cell α β}

namespace Cell

/-- The cell with an address. -/
def find (cs : List (Cell α β)) (a : Nat) : Option (Cell α β) := cs.find? fun c => c.addr = a

/-- The row with the cell at an address set. -/
def put (cs : List (Cell α β)) (a : Nat) (label : Option α) (tag : β) : List (Cell α β) :=
  cs.map fun c => if c.addr = a then ⟨a, label, tag⟩ else c

/-- The labels in a row. -/
def labels (cs : List (Cell α β)) : List α := cs.filterMap Cell.label

variable {cs : List (Cell α β)}

theorem find_addr (h : find cs a = some c) : c.addr = a := by
  have hc := find?_some h
  simpa using hc

theorem find_mem (h : find cs a = some c) : c ∈ cs := mem_of_find?_eq_some h

@[simp] theorem addrs_put : (put cs a label tag).map Cell.addr = cs.map Cell.addr := by
  unfold put
  rw [map_map]
  apply map_congr_left
  intro c _
  simp only [Function.comp]
  split
  · next h => exact h.symm
  · rfl

theorem find_cons : find (c :: cs) a = if c.addr = a then some c else find cs a := by
  unfold find
  by_cases h : c.addr = a <;> simp [h]

theorem put_cons : put (c :: cs) a label tag =
    (if c.addr = a then ⟨a, label, tag⟩ else c) :: put cs a label tag := rfl

theorem labels_cons : labels (c :: cs) = c.label.toList ++ labels cs := by
  unfold labels
  cases hl : c.label <;> simp [hl]

theorem put_of_not_mem (h : a ∉ cs.map Cell.addr) : put cs a label tag = cs := by
  conv_rhs => rw [← map_id cs]
  apply map_congr_left
  intro d hd
  rw [if_neg fun heq => h (mem_map.mpr ⟨d, hd, heq⟩)]
  rfl

theorem find_put_self (h : find cs a = some c) :
    find (put cs a label tag) a = some ⟨a, label, tag⟩ := by
  induction cs with
  | nil => cases h
  | cons d cs ih =>
    grind [find_cons, put_cons]

theorem find_put_of_ne (hne : b ≠ a) : find (put cs a label tag) b = find cs b := by
  induction cs with
  | nil => rfl
  | cons d cs ih =>
    rw [put_cons, find_cons, find_cons, ih]
    by_cases hd : d.addr = a
    · have hda : d.addr ≠ b := by
        rw [hd]
        exact hne.symm
      rw [if_pos hd, if_neg hne.symm, if_neg hda]
    · rw [if_neg hd]

theorem find_put_eq_none : find (put cs a label tag) b = none ↔ find cs b = none := by
  by_cases hb : b = a
  swap
  · rw [find_put_of_ne hb]
  subst hb
  cases hf : find cs b with
  | none =>
    refine ⟨fun _ => rfl, fun _ => ?_⟩
    unfold find at hf ⊢
    rw [find?_eq_none] at hf ⊢
    intro c hc
    obtain ⟨d, hd, rfl⟩ := mem_map.mp hc
    grind
  | some c => simp [find_put_self hf]

/-- The list with a cell added in its place, or in place of the one with its address. -/
def insert (c : Cell α β) : List (Cell α β) → List (Cell α β)
  | [] => [c]
  | d :: cs =>
    if c.addr < d.addr then c :: d :: cs
    else if c.addr = d.addr then c :: cs
    else d :: insert c cs

theorem mem_addrs_insert (x : Nat) :
    x ∈ (insert c cs).map Cell.addr ↔ x = c.addr ∨ x ∈ cs.map Cell.addr := by
  induction cs with
  | nil => simp [insert]
  | cons d cs ih =>
    grind [insert]

theorem length_insert : (insert c cs).length ≤ cs.length + 1 := by
  induction cs with
  | nil => exact Nat.le_refl 1
  | cons d cs ih =>
    grind [insert]

theorem insert_sorted (h : (cs.map Cell.addr).Pairwise (· < ·)) :
    ((insert c cs).map Cell.addr).Pairwise (· < ·) := by
  induction cs with
  | nil => simp [insert]
  | cons d cs ih =>
    rw [map_cons, pairwise_cons] at h
    unfold insert
    split
    · next hlt =>
      refine pairwise_cons.mpr ⟨?_, pairwise_cons.mpr h⟩
      grind
    split
    · simp_all
    next hlt hne =>
    refine pairwise_cons.mpr ⟨?_, ih h.2⟩
    grind [mem_addrs_insert]

theorem find_insert_of_ne (hne : b ≠ c.addr) : find (insert c cs) b = find cs b := by
  induction cs with
  | nil =>
    rw [insert, find_cons, if_neg hne.symm]
  | cons d cs ih =>
    unfold insert
    split
    · rw [find_cons, if_neg hne.symm]
    split
    · next heq =>
      have hd : d.addr ≠ b := by
        rw [← heq]
        exact hne.symm
      rw [find_cons, if_neg hne.symm, find_cons, if_neg hd]
    · rw [find_cons, find_cons, ih]

theorem find_eq_none_iff : find cs a = none ↔ a ∉ cs.map Cell.addr := by
  unfold find
  rw [find?_eq_none, mem_map]
  constructor
  · intro h hmem
    obtain ⟨d, hd, hda⟩ := hmem
    exact h d hd (by simpa using hda)
  · intro h d hd hda
    exact h ⟨d, hd, by simpa using hda⟩

theorem labels_insert (h : find cs c.addr = none) :
    (labels (insert c cs)).Perm (c.label.toList ++ labels cs) := by
  induction cs with
  | nil => exact .of_eq labels_cons
  | cons d cs ih =>
    rw [find_cons] at h
    unfold insert
    split
    · exact .of_eq labels_cons
    split
    · next _ heq => simp [heq] at h
    next hne =>
    rw [if_neg (Ne.symm hne)] at h
    rw [labels_cons, labels_cons]
    refine ((ih h).append_left _).trans ?_
    rw [← append_assoc, ← append_assoc]
    exact perm_append_comm.append_right _

theorem insert_eq_put (hs : (cs.map Cell.addr).Pairwise (· < ·)) (h : find cs c.addr ≠ none) :
    insert c cs = put cs c.addr c.label c.tag := by
  induction cs with
  | nil => exact absurd rfl h
  | cons d cs ih =>
    rw [map_cons, pairwise_cons] at hs
    rw [find_cons] at h
    unfold insert
    split
    · next hlt =>
      -- every address of the row lies behind
      rw [if_neg (Nat.ne_of_gt hlt)] at h
      refine absurd (find_eq_none_iff.mpr ?_) h
      intro hmem
      have := hs.1 _ hmem
      omega
    split
    · next heq =>
      have hnot : c.addr ∉ cs.map Cell.addr := by grind
      rw [put_cons, if_pos heq.symm, put_of_not_mem hnot]
    grind [put_cons]

/-- The labels of a list of cells, apart from those of one cell. -/
theorem labels_split (hd : (cs.map Cell.addr).Nodup) (h : find cs a = some c) :
    ∃ rest, (labels cs).Perm (c.label.toList ++ rest) ∧
      ∀ label tag, (labels (put cs a label tag)).Perm (label.toList ++ rest) := by
  induction cs with
  | nil => cases h
  | cons d cs ih =>
    rw [find_cons] at h
    rw [map_cons, nodup_cons] at hd
    -- addresses are distinct, so that `put` changes this cell only
    by_cases hda : d.addr = a
    · rw [if_pos hda] at h
      cases h
      refine ⟨labels cs, .of_eq labels_cons, ?_⟩
      intro label tag
      rw [hda] at hd
      rw [put_cons, if_pos hda, labels_cons, put_of_not_mem hd.1]
    rw [if_neg hda] at h
    obtain ⟨rest, hlabels, hput⟩ := ih hd.2 h
    refine ⟨d.label.toList ++ rest, ?_, ?_⟩
    · rw [labels_cons]
      refine (hlabels.append_left _).trans ?_
      rw [← append_assoc, ← append_assoc]
      exact perm_append_comm.append_right _
    intro label tag
    rw [put_cons, if_neg hda, labels_cons]
    refine ((hput label tag).append_left _).trans ?_
    rw [← append_assoc, ← append_assoc]
    exact perm_append_comm.append_right _

end Cell

/-! ## Rows. -/

/-- Cells in the order of their addresses. -/
structure Row (α β : Type) where
  cells : List (Cell α β)
  sorted : (cells.map Cell.addr).Pairwise (· < ·)
  deriving Repr, DecidableEq

namespace Row

/-- The cell with an address. -/
def find (r : Row α β) (a : Nat) : Option (Cell α β) := Cell.find r.cells a

/-- The row with the cell at an address set. -/
def put (r : Row α β) (a : Nat) (label : Option α) (tag : β) : Row α β where
  cells := Cell.put r.cells a label tag
  sorted := by
    rw [Cell.addrs_put]
    exact r.sorted

/-- No cells. -/
def empty : Row α β := ⟨[], Pairwise.nil⟩

/-- The row with a cell added, or put in place of the one with its address. -/
def insert (r : Row α β) (a : Nat) (label : Option α) (tag : β) : Row α β :=
  ⟨Cell.insert ⟨a, label, tag⟩ r.cells, Cell.insert_sorted r.sorted⟩

/-- The label at an address. -/
def labelAt (r : Row α β) (a : Nat) : Option α := (r.find a).bind Cell.label

/-- The labels in a row. -/
def labels (r : Row α β) : List α := Cell.labels r.cells

/-- What is in each cell, in order. -/
def values (r : Row α β) : List (Option α) := r.cells.map Cell.label

/-- A row with the same addresses. -/
def mapCells (r : Row α β) (f : Cell α β → Option α × β) : Row α β where
  cells := r.cells.map fun c => ⟨c.addr, (f c).1, (f c).2⟩
  sorted := by
    rw [map_map]
    exact r.sorted

variable {r : Row α β}

theorem ext {r r' : Row α β} (h : r.cells = r'.cells) : r = r' := by
  cases r
  cases h
  rfl

theorem nodup_addrs (r : Row α β) : (r.cells.map Cell.addr).Nodup :=
  r.sorted.imp fun h => Nat.ne_of_lt h

theorem find_put_self (h : r.find a = some c) : (r.put a label tag).find a = some ⟨a, label, tag⟩ :=
  Cell.find_put_self h

theorem find_put_of_ne (hne : b ≠ a) : (r.put a label tag).find b = r.find b :=
  Cell.find_put_of_ne hne

theorem find_put_eq_none : (r.put a label tag).find b = none ↔ r.find b = none :=
  Cell.find_put_eq_none

theorem find_insert_of_ne (hne : b ≠ a) : (r.insert a label tag).find b = r.find b :=
  Cell.find_insert_of_ne hne

theorem labels_insert (h : r.find a = none) :
    (r.insert a label tag).labels.Perm (label.toList ++ r.labels) :=
  Cell.labels_insert h

theorem insert_eq_put (h : r.find a ≠ none) : r.insert a label tag = r.put a label tag :=
  ext (Cell.insert_eq_put r.sorted h)

theorem put_put : (r.put a label tag).put a label' tag' = r.put a label' tag' := by
  refine ext ?_
  unfold put Cell.put
  dsimp only
  rw [map_map]
  apply map_congr_left
  intro c _
  by_cases hc : c.addr = a
  · simp [hc]
  · simp [hc]

theorem put_comm (hne : a ≠ b) : (r.put a label tag).put b label' tag' =
    (r.put b label' tag').put a label tag := by
  refine ext ?_
  unfold put Cell.put
  dsimp only
  rw [map_map, map_map]
  apply map_congr_left
  intro c _
  by_cases hca : c.addr = a
  · have hcb : c.addr ≠ b := by
      rw [hca]
      exact hne
    simp [hca, hne]
  · by_cases hcb : c.addr = b
    · simp [hcb, hne.symm]
    · simp [hca, hcb]

theorem eq_of_find (h : r.find a = some c) {d : Cell α β} (hd : d ∈ r.cells) (hda : d.addr = a) :
    d = c := by
  refine inj_on_of_nodup_map r.nodup_addrs hd (Cell.find_mem h) ?_
  rw [hda, Cell.find_addr h]

theorem find_of_mem (hc : c ∈ r.cells) : r.find c.addr = some c := by
  cases hf : r.find c.addr with
  | none => exact absurd (mem_map_of_mem hc) (Cell.find_eq_none_iff.mp hf)
  | some d => rw [eq_of_find hf hc rfl]

theorem labelAt_of_mem (hc : c ∈ r.cells) : r.labelAt c.addr = c.label := by
  unfold labelAt
  rw [find_of_mem hc]
  rfl

theorem labelAt_insert_of_ne (hne : b ≠ a) : (r.insert a label tag).labelAt b = r.labelAt b := by
  unfold labelAt
  rw [find_insert_of_ne hne]

theorem labelAt_put_self (h : r.find a = some c) : (r.put a label tag).labelAt a = label := by
  unfold labelAt
  rw [find_put_self h]
  rfl

theorem labelAt_put_of_ne (hne : b ≠ a) : (r.put a label tag).labelAt b = r.labelAt b := by
  unfold labelAt
  rw [find_put_of_ne hne]

theorem mem_labels_iff {l : α} : l ∈ r.labels ↔ ∃ a, r.labelAt a = some l := by
  unfold labels Cell.labels
  rw [mem_filterMap]
  constructor
  · intro h
    obtain ⟨c, hc, hl⟩ := h
    exact ⟨c.addr, (labelAt_of_mem hc).trans hl⟩
  intro h
  obtain ⟨a, ha⟩ := h
  cases hf : r.find a with
  | none => simp [labelAt, hf] at ha
  | some c => exact ⟨c, Cell.find_mem hf, by simpa [labelAt, hf] using ha⟩

/-- **A cell set to what it holds.** -/
theorem put_find (h : r.find a = some c) : r.put a c.label c.tag = r := by
  refine ext ?_
  conv_rhs => rw [← map_id r.cells]
  apply map_congr_left
  intro d hmem
  split
  · next hda =>
    rw [← eq_of_find h hmem hda, ← hda]
    rfl
  · rfl

/-- **The labels of a row**, apart from those of one cell. -/
theorem labels_split (h : r.find a = some c) : ∃ rest, r.labels.Perm (c.label.toList ++ rest) ∧
      ∀ label tag, (r.put a label tag).labels.Perm (label.toList ++ rest) :=
  Cell.labels_split r.nodup_addrs h

theorem addr_unique (hnd : r.labels.Nodup) {l : α} (ha : r.labelAt a = some l)
    (hb : r.labelAt b = some l) : a = b := by
  by_contra hne
  cases hf : r.find a with
  | none => simp [labelAt, hf] at ha
  | some c =>
    have hcl : c.label = some l := by simpa [labelAt, hf] using ha
    obtain ⟨rest, hlabels, hput⟩ := labels_split hf
    rw [hcl] at hlabels
    -- the label is in the row without the one at `a` too
    have hmem : l ∈ (r.put a none c.tag).labels :=
      mem_labels_iff.mpr ⟨b, (labelAt_put_of_ne (Ne.symm hne)).trans hb⟩
    have hrest : l ∈ rest := (hput none c.tag).mem_iff.mp hmem
    exact (nodup_cons.mp (hlabels.nodup_iff.mp hnd)).1 hrest

end Row

end Holo.Lib
