/-
Holo.Changer.Inventory — the elements of a medium changer and the media in them.

A changer has storage slots, import/export ports and drives; each is empty or holds one
medium, known by its label.  A port notes whether its medium was put there by the picker, a
drive where its medium came from.  An address is looked up among the slots, then among the
ports, then among the drives.

Main results:
* `take_eq`, `place_eq`: taking and placing a medium, by what is at the address;
* `setElement_marked_iff`: a medium put back where it was: only a port's mark can change;
* `eq_of_elementAt`: one element a label;
* `labels_emptied`, `labels_placed`: the labels without, and with, a medium.
-/
import Holo.Lib.Cells

namespace Holo.Changer

open Lib List Row

/-! ## §1. Elements. -/

/-- The changer's part of `TapeState`. -/
structure Inventory (Label : Type) where
  slots : Row Label Unit
  /-- `changer_ie_ports` with `changer_ie_impexp`. -/
  ports : Row Label Bool
  /-- `changer_drives` with `changer_drive_sources`. -/
  drives : Row Label (Option Nat)
  deriving Repr, DecidableEq

structure ChangerMedium (Label : Type) where
  label : Label
  sourceSlot : Option Nat
  deriving Repr, DecidableEq

variable {Label : Type}

section

variable (inv : Inventory Label) (address : Nat)

def changerTakeMedium : Option (ChangerMedium Label × Inventory Label) :=
  match inv.slots.find address with
  | some entry => entry.label.map fun label =>
    (⟨label, some address⟩, { inv with slots := inv.slots.put address none () })
  | none =>
    match inv.ports.find address with
    | some entry => entry.label.map fun label =>
      (⟨label, some address⟩, { inv with ports := inv.ports.put address none false })
    | none =>
      match inv.drives.find address with
      | some entry => entry.label.map fun label =>
        (⟨label, entry.tag⟩, { inv with drives := inv.drives.put address none none })
      | none => none

/-- `changer_place_medium`; `none` is the error. -/
def changerPlaceMedium [DecidableEq Label] (inv : Inventory Label) (address : Nat)
    (medium : ChangerMedium Label) : Option (Inventory Label) :=
  match inv.slots.find address with
  | some entry =>
    match entry.label with
    | none => some { inv with slots := inv.slots.put address (some medium.label) () }
    | some label => if label = medium.label then some inv else none
  | none =>
    match inv.ports.find address with
    | some entry =>
      match entry.label with
      | none => some { inv with ports := inv.ports.put address (some medium.label) true }
      | some _ => none
    | none =>
      match inv.drives.find address with
      | some entry =>
        match entry.label with
        | none =>
          some { inv with
            drives := inv.drives.put address (some medium.label) medium.sourceSlot }
        | some _ => none
      | none => none

def changerHasElement : Bool :=
  (inv.slots.find address).isSome || (inv.ports.find address).isSome ||
    (inv.drives.find address).isSome

/-- The labels in the changer. -/
def Inventory.labels (inv : Inventory Label) : List Label :=
  inv.slots.labels ++ inv.ports.labels ++ inv.drives.labels

/-! ## §2. One element. -/

/-- The element with an address: what is in it. -/
def elementAt : Option (Option Label) :=
  match inv.slots.find address with
  | some entry => some entry.label
  | none =>
    match inv.ports.find address with
    | some entry => some entry.label
    | none => (inv.drives.find address).map Cell.label

/-- Where a medium at an address is said to come from. -/
def sourceOf : Option Nat :=
  match inv.slots.find address with
  | some _ => some address
  | none =>
    match inv.ports.find address with
    | some _ => some address
    | none => (inv.drives.find address).bind Cell.tag

/-- The flag of the port with an address. -/
def flagOf : Bool :=
  match inv.ports.find address with
  | some entry => entry.tag
  | none => true

/-- The element with an address set: its label, and its flag or source. -/
def setElement (label : Option Label) (impexp : Bool) (source : Option Nat) : Inventory Label :=
  match inv.slots.find address with
  | some _ => { inv with slots := inv.slots.put address label () }
  | none =>
    match inv.ports.find address with
    | some _ => { inv with ports := inv.ports.put address label impexp }
    | none => { inv with drives := inv.drives.put address label source }

/-- The kind of an element. -/
inductive Kind where
  | slot | port | drive
  deriving Repr, DecidableEq

/-- The kind of the element with an address, if there is one. -/
def kindAt : Option Kind :=
  if (inv.slots.find address).isSome then some .slot
  else if (inv.ports.find address).isSome then some .port
  else if (inv.drives.find address).isSome then some .drive
  else none

end

/-- The row in which an address is found: the slots come first, then the ports. -/
inductive Found (inv : Inventory Label) (a : Nat) : Kind → Prop
  | slot {c : Cell Label Unit} (hs : inv.slots.find a = some c) : Found inv a .slot
  | port {c : Cell Label Bool} (hs : inv.slots.find a = none) (hp : inv.ports.find a = some c) :
    Found inv a .port
  | drive {c : Cell Label (Option Nat)} (hs : inv.slots.find a = none)
    (hp : inv.ports.find a = none) (hd : inv.drives.find a = some c) : Found inv a .drive

theorem found_of_kindAt {inv : Inventory Label} {a : Nat} {k : Kind} (h : kindAt inv a = some k) :
    Found inv a k := by
  unfold kindAt at h
  cases hs : inv.slots.find a with
  | some c =>
    rw [hs] at h
    cases h
    exact .slot hs
  | none =>
    cases hp : inv.ports.find a with
    | some c =>
      rw [hs, hp] at h
      cases h
      exact .port hs hp
    | none =>
      cases hd : inv.drives.find a with
      | some c =>
        rw [hs, hp, hd] at h
        cases h
        exact .drive hs hp hd
      | none => simp [hs, hp, hd] at h

section

variable (inv : Inventory Label) (address : Nat)

/-- A port with a medium that is not flagged as put there by the picker. -/
def Unmarked : Prop :=
  kindAt inv address = some .port ∧ (elementAt inv address).join.isSome ∧
    flagOf inv address = false

instance : Decidable (Unmarked inv address) :=
  inferInstanceAs (Decidable (_ ∧ _ ∧ _))

end

variable {inv inv' : Inventory Label} {a b : Nat} {label : Option Label} {impexp : Bool}
  {source : Option Nat} {medium : ChangerMedium Label}

/-- **Taking a medium**, by what is at the address. -/
theorem take_eq (inv : Inventory Label) (a : Nat) :
    changerTakeMedium inv a = (elementAt inv a).join.map fun label =>
      (⟨label, sourceOf inv a⟩, setElement inv a none false none) := by
  unfold changerTakeMedium elementAt sourceOf setElement
  cases hs : inv.slots.find a with
  | some entry => rfl
  | none =>
    grind

/-- **Placing a medium**, by what is at the address. -/
theorem place_eq [DecidableEq Label] (inv : Inventory Label) (a : Nat)
    (medium : ChangerMedium Label) :
    changerPlaceMedium inv a medium = match elementAt inv a with
      | none => none
      | some none => some (setElement inv a (some medium.label) true medium.sourceSlot)
      | some (some label) =>
        if kindAt inv a = some .slot ∧ label = medium.label then some inv else none := by
  unfold changerPlaceMedium elementAt setElement kindAt
  cases hs : inv.slots.find a with
  | some entry =>
    grind
  | none =>
    cases hp : inv.ports.find a with
    | some entry =>
      grind
    | none =>
      grind

/-! ## §3. Elements that are set. -/

theorem elementAt_set_self (h : elementAt inv a ≠ none) :
    elementAt (setElement inv a label impexp source) a = some label := by
  unfold elementAt setElement at *
  cases hs : inv.slots.find a with
  | some entry => simp [find_put_self hs]
  | none =>
    cases hp : inv.ports.find a with
    | some entry => simp [hs, find_put_self hp]
    | none =>
      cases hd : inv.drives.find a with
      | some entry => simp [hs, hp, find_put_self hd]
      | none => simp [hs, hp, hd] at h

theorem elementAt_set_of_ne (hne : b ≠ a) :
    elementAt (setElement inv a label impexp source) b = elementAt inv b := by
  unfold elementAt setElement
  cases hs : inv.slots.find a with
  | some entry => simp [find_put_of_ne hne]
  | none =>
    cases hp : inv.ports.find a with
    | some | none => simp [find_put_of_ne hne]

theorem elementAt_set (inv : Inventory Label) (a b : Nat) (label : Option Label) (impexp : Bool)
    (source : Option Nat) : elementAt (setElement inv a label impexp source) b =
      if b = a then (elementAt inv a).map fun _ => label else elementAt inv b := by
  by_cases hb : b = a
  swap
  · rw [if_neg hb]
    exact elementAt_set_of_ne hb
  subst hb
  rw [if_pos rfl]
  cases hel : elementAt inv b with
  | some content => exact elementAt_set_self (by rw [hel]; simp)
  | none =>
    -- there is no element to set
    unfold elementAt setElement at *
    cases hs : inv.slots.find b with
    | some entry => simp [hs] at hel
    | none =>
      cases hp : inv.ports.find b with
      | some entry => simp [hs, hp] at hel
      | none =>
        cases hd : inv.drives.find b with
        | some entry => simp [hs, hp, hd] at hel
        | none =>
          have hnone : (inv.drives.put b label source).find b = none :=
            find_put_eq_none.mpr hd
          simp [hs, hp, hnone]

theorem sourceOf_set_of_ne (hne : b ≠ a) :
    sourceOf (setElement inv a label impexp source) b = sourceOf inv b := by
  unfold sourceOf setElement
  cases hs : inv.slots.find a with
  | some entry => simp [find_put_of_ne hne]
  | none =>
    cases hp : inv.ports.find a with
    | some | none => simp [find_put_of_ne hne]

theorem kindAt_set : kindAt (setElement inv a label impexp source) b = kindAt inv b := by
  have hsome : ∀ {β : Type} {r : Row Label β} {l : Option Label} {t : β},
      ((r.put a l t).find b).isSome = (r.find b).isSome := by
    intro β r l t
    have hiff : (r.put a l t).find b = none ↔ r.find b = none := find_put_eq_none
    cases hf : r.find b with
    | none => simp [hiff.mpr hf]
    | some c =>
      cases hf' : (r.put a l t).find b with
      | none =>
        rw [hiff.mp hf'] at hf
        cases hf
      | some _ => rfl
  unfold kindAt setElement
  cases hs : inv.slots.find a with
  | some entry => simp [hsome]
  | none =>
    cases hp : inv.ports.find a with
    | some | none => simp [hsome]

variable {label' : Option Label} {impexp' : Bool} {source' : Option Nat} {l : Label}

theorem setElement_comm (hne : a ≠ b) :
    setElement (setElement inv a label impexp source) b label' impexp' source' =
      setElement (setElement inv b label' impexp' source') a label impexp source := by
  unfold setElement
  cases hsa : inv.slots.find a <;> cases hsb : inv.slots.find b <;>
    cases hpa : inv.ports.find a <;> cases hpb : inv.ports.find b <;>
    simp [find_put_of_ne hne, find_put_of_ne hne.symm, hsa, hsb, hpa, hpb, put_comm hne]

theorem setElement_set :
    setElement (setElement inv a label impexp source) a label' impexp' source' =
      setElement inv a label' impexp' source' := by
  unfold setElement
  cases hs : inv.slots.find a with
  | some entry => simp [find_put_self hs, put_put]
  | none =>
    cases hp : inv.ports.find a with
    | some entry => simp [hs, find_put_self hp, put_put]
    | none => simp [hs, hp, put_put]

theorem setElement_self (h : elementAt inv a = some label) :
    setElement inv a label (flagOf inv a) (sourceOf inv a) = inv := by
  unfold setElement elementAt sourceOf flagOf at *
  cases hs : inv.slots.find a with
  | some entry =>
    rw [hs] at h
    cases h
    rw [put_find hs]
  | none =>
    rw [hs] at h
    cases hp : inv.ports.find a with
    | some entry =>
      rw [hp] at h
      cases h
      rw [put_find hp]
    | none =>
      rw [hp] at h
      cases hd : inv.drives.find a with
      | some entry =>
        rw [hd] at h
        cases h
        simp only [Option.bind_some]
        rw [put_find hd]
      | none =>
        rw [hd] at h
        cases h

/-- **A medium marked as put there by the picker**: only a port without the mark changes. -/
theorem setElement_marked_iff (h : elementAt inv a = some label) (hl : label.isSome) :
    setElement inv a label true (sourceOf inv a) = inv ↔ ¬ Unmarked inv a := by
  have hjoin : (elementAt inv a).join.isSome := by
    rw [h]
    exact hl
  have hself := setElement_self h
  unfold Unmarked
  simp only [hjoin, true_and]
  by_cases hflag : flagOf inv a = false
  swap
  · grind
  by_cases hkind : kindAt inv a = some .port
  · -- the port's flag is set
    simp only [hkind, hflag, and_self, not_true_eq_false, iff_false]
    intro heq
    rw [← heq] at hflag
    unfold flagOf setElement at hflag
    cases found_of_kindAt hkind with
    | port hs hp => simp [hs, hp, find_put_self hp] at hflag
  simp only [hkind, false_and, not_false_eq_true, iff_true]
  -- the flag is only read for a port
  conv_rhs => rw [← hself]
  unfold setElement
  cases hs : inv.slots.find a with
  | some _ => rfl
  | none =>
    cases hp : inv.ports.find a with
    | some _ => simp [kindAt, hs, hp] at hkind
    | none => rfl

theorem perm_front {p q r x rest : List Label} (hx : x.Perm (q ++ rest)) :
    (p ++ x ++ r).Perm (q ++ (p ++ rest ++ r)) := by
  calc (p ++ x ++ r).Perm (p ++ (q ++ rest) ++ r) := (hx.append_left p).append_right r
    _ = (p ++ q) ++ (rest ++ r) := by simp
    List.Perm _ ((q ++ p) ++ (rest ++ r)) := perm_append_comm.append_right _
    _ = q ++ (p ++ rest ++ r) := by simp

/-- **The labels**, apart from those of one element. -/
theorem labels_split (h : elementAt inv a = some label) :
    ∃ rest, inv.labels.Perm (label.toList ++ rest) ∧ ∀ label impexp source,
        (setElement inv a label impexp source).labels.Perm (label.toList ++ rest) := by
  -- the element is in the first row that has its address
  unfold elementAt at h
  unfold setElement Inventory.labels
  cases hs : inv.slots.find a with
  | some entry =>
    rw [hs] at h
    cases h
    obtain ⟨rest, hlabels, hput⟩ := labels_split hs
    refine ⟨rest ++ inv.ports.labels ++ inv.drives.labels, ?_, fun l _ _ => ?_⟩
    · rw [append_assoc, append_assoc rest]
      exact perm_front (p := []) hlabels
    · dsimp only
      rw [append_assoc, append_assoc rest]
      exact perm_front (p := []) (hput l ())
  | none =>
    rw [hs] at h
    cases hp : inv.ports.find a with
    | some entry =>
      rw [hp] at h
      cases h
      obtain ⟨rest, hlabels, hput⟩ := labels_split hp
      exact ⟨inv.slots.labels ++ rest ++ inv.drives.labels, perm_front hlabels,
        fun l impexp _ => perm_front (hput l impexp)⟩
    | none =>
      rw [hp] at h
      cases hd : inv.drives.find a with
      | some entry =>
        rw [hd] at h
        cases h
        obtain ⟨rest, hlabels, hput⟩ := labels_split hd
        refine ⟨inv.slots.labels ++ inv.ports.labels ++ rest ++ [], ?_, fun l _ source => ?_⟩
        · have hperm := perm_front (p := inv.slots.labels ++ inv.ports.labels) (r := []) hlabels
          rwa [append_nil] at hperm
        · have hperm := perm_front (p := inv.slots.labels ++ inv.ports.labels) (r := [])
            (hput l source)
          rwa [append_nil] at hperm
      | none =>
        rw [hd] at h
        cases h

/-- Two media in the inventory are in one element only if they have one label. -/
theorem eq_of_elementAt (hnd : inv.labels.Nodup) (ha : elementAt inv a = some (some l))
    (hb : elementAt inv b = some (some l)) : a = b := by
  by_contra hne
  obtain ⟨rest, hlabels, hset⟩ := labels_split ha
  -- the label is in the inventory without the one at `a` too
  have hb' : elementAt (setElement inv a none false none) b = some (some l) := by
    rw [elementAt_set_of_ne (Ne.symm hne)]
    exact hb
  obtain ⟨rest', hlabels', _⟩ := labels_split hb'
  have hmem : l ∈ rest := by grind
  have hnd' : (l :: rest).Nodup := hlabels.nodup_iff.mp hnd
  exact (nodup_cons.mp hnd').1 hmem

/-! ## §4. Media taken and placed. -/

section

variable (inv : Inventory Label) (address : Nat)

/-- There is a medium at the address. -/
def Full : Prop :=
  (elementAt inv address).join.isSome = true

instance : Decidable (Full inv address) :=
  inferInstanceAs (Decidable (_ = _))

end

theorem full_iff : Full inv a ↔ ∃ l, elementAt inv a = some (some l) := by
  unfold Full
  cases h : elementAt inv a with
  | none => simp
  | some content => cases content <;> simp

/-- The inventory with an element made empty. -/
def emptied (inv : Inventory Label) (address : Nat) : Inventory Label :=
  setElement inv address none false none

theorem take_full (h : elementAt inv a = some (some l)) :
    changerTakeMedium inv a = some (⟨l, sourceOf inv a⟩, emptied inv a) := by
  rw [take_eq, h]
  rfl

theorem take_of_not_full (h : ¬ Full inv a) : changerTakeMedium inv a = none := by
  simp_all [Full, take_eq]

/-- **The labels without the medium** that was taken. -/
theorem labels_emptied (h : elementAt inv a = some (some l)) :
    inv.labels.Perm (l :: (emptied inv a).labels) := by
  obtain ⟨rest, hlabels, hset⟩ := labels_split h
  exact hlabels.trans ((hset none false none).symm.cons _)

/-- **The labels with the medium** that was placed. -/
theorem labels_placed (h : elementAt inv a = some none) :
    (setElement inv a (some l) impexp source).labels.Perm (l :: inv.labels) := by
  obtain ⟨rest, hlabels, hset⟩ := labels_split h
  exact (hset _ _ _).trans (hlabels.symm.cons _)

variable [DecidableEq Label]

theorem place_empty (h : elementAt inv a = some none) : changerPlaceMedium inv a medium =
      some (setElement inv a (some medium.label) true medium.sourceSlot) := by
  rw [place_eq, h]

theorem place_none (h : elementAt inv a = none) : changerPlaceMedium inv a medium = none := by
  rw [place_eq, h]

theorem place_full (h : elementAt inv a = some (some l)) (hne : l ≠ medium.label) :
    changerPlaceMedium inv a medium = none := by
  rw [place_eq, h]
  exact if_neg fun hc => hne hc.2

/-! ## §5. Places. -/

section Places

omit [DecidableEq Label]

variable {k k' : Kind}

/-- The labels in the elements of a kind. -/
def labelsIn (inv : Inventory Label) : Kind → List Label
  | .slot => inv.slots.labels
  | .port => inv.ports.labels
  | .drive => inv.drives.labels

/-- The label in the element of a kind with an address. -/
def labelIn (inv : Inventory Label) : Kind → Nat → Option Label
  | .slot => inv.slots.labelAt
  | .port => inv.ports.labelAt
  | .drive => inv.drives.labelAt

theorem mem_labelsIn_iff : l ∈ labelsIn inv k ↔ ∃ a, labelIn inv k a = some l := by
  cases k with
  | slot | port | drive => exact mem_labels_iff

theorem elementAt_of_kindAt (h : kindAt inv a = some k) :
    elementAt inv a = some (labelIn inv k a) := by
  unfold elementAt
  cases found_of_kindAt h with
  | slot hs => simp [labelIn, Row.labelAt, hs]
  | port hs hp => simp [labelIn, Row.labelAt, hs, hp]
  | drive hs hp hd => simp [labelIn, Row.labelAt, hs, hp, hd]

theorem kindAt_of_elementAt (h : elementAt inv a ≠ none) : ∃ k, kindAt inv a = some k := by
  unfold elementAt at h
  unfold kindAt
  cases hs : inv.slots.find a with
  | some entry => exact ⟨.slot, by simp⟩
  | none =>
    cases hp : inv.ports.find a with
    | some entry => exact ⟨.port, by simp⟩
    | none =>
      cases hd : inv.drives.find a with
      | some entry => exact ⟨.drive, by simp⟩
      | none => simp [hs, hp, hd] at h

/-- **What is where** once an element was set. -/
theorem labelIn_set (h : kindAt inv a = some k) :
    labelIn (setElement inv a label impexp source) k' b =
      if k' = k ∧ b = a then label else labelIn inv k' b := by
  have hput : ∀ {β : Type} {r : Row Label β} {t : β} {c : Cell Label β}, r.find a = some c →
      (r.put a label t).labelAt b = if b = a then label else r.labelAt b := by
    intro β r t c hc
    by_cases hb : b = a
    · rw [if_pos hb, hb]
      exact labelAt_put_self hc
    · rw [if_neg hb]
      exact labelAt_put_of_ne hb
  unfold setElement
  cases found_of_kindAt h with
  | slot hs => cases k' <;> simp [labelIn, hput hs, hs]
  | port hs hp => cases k' <;> simp [labelIn, hput hp, hs, hp]
  | drive hs hp hd => cases k' <;> simp [labelIn, hput hd, hs, hp]

/-- **One place a label.** -/
theorem place_unique (hnd : inv.labels.Nodup) (h : labelIn inv k a = some l)
    (h' : labelIn inv k' b = some l) : k = k' ∧ a = b := by
  have hm := mem_labelsIn_iff.mpr ⟨a, h⟩
  have hm' := mem_labelsIn_iff.mpr ⟨b, h'⟩
  unfold Inventory.labels at hnd
  rw [nodup_append, nodup_append] at hnd
  obtain ⟨⟨hs, hp, hsp⟩, hd, hspd⟩ := hnd
  cases k with
  | slot =>
    cases k' with
    | slot => exact ⟨rfl, addr_unique hs h h'⟩
    | port => exact absurd rfl (hsp l hm l hm')
    | drive => exact absurd rfl (hspd l (mem_append_left _ hm) l hm')
  | port =>
    cases k' with
    | slot => exact absurd rfl (hsp l hm' l hm)
    | port => exact ⟨rfl, addr_unique hp h h'⟩
    | drive => exact absurd rfl (hspd l (mem_append_right _ hm) l hm')
  | drive =>
    cases k' with
    | slot => exact absurd rfl (hspd l (mem_append_left _ hm') l hm)
    | port => exact absurd rfl (hspd l (mem_append_right _ hm') l hm)
    | drive => exact ⟨rfl, addr_unique hd h h'⟩

end Places

end Holo.Changer
