/-
Holo.Changer.Moves — MOVE MEDIUM and EXCHANGE MEDIUM.

Both take media out of their elements and place them again, then put what is in a port into
the vault and write the shared files.

Main results:
* `labels_finishMove`: the media in the ports go to the vault, none is lost;
* `media_conserved_iff`: a move conserves the media, an exchange does unless a medium it took
  cannot be placed again;
* `exchange_loses_medium`: an exchange with a second destination that does not exist.
-/
import Holo.Changer.Files
import Holo.Drive.Cdb

namespace Holo.Changer

open Lib Storage Drive List

/-! ## §1. The commands. -/

/-- The replies of MOVE MEDIUM and EXCHANGE MEDIUM. -/
inductive ChangerReply where
  | good
  /-- `invalid_field_in_cdb_response`. -/
  | invalidField
  /-- `invalid_element_address_response`. -/
  | invalidElementAddress
  /-- `source_element_empty_response`. -/
  | sourceElementEmpty
  /-- `destination_element_full_response`. -/
  | destinationElementFull
  deriving Repr, DecidableEq

/-- What a command answers, the inventory it leaves and the files it replaces. -/
structure Outcome (Label : Type) where
  reply : ChangerReply
  inventory : Inventory Label
  writes : List (FileWrite Label)
  deriving Repr, DecidableEq

variable {Label : Type} [DecidableEq Label]

/-- A label put into the vault, once. -/
def exportLabel (exported : List Label) (label : Label) : List Label :=
  if label ∈ exported then exported else exported ++ [label]

section

variable (cfg : ChangerConfig) (files : SharedFiles Label) (inv : Inventory Label)

def autoArchiveIeMediaToVault : Inventory Label × List (FileWrite Label) :=
  if !sharedChangerInventoryEnabled cfg files then (inv, [])
  else
    let exported := inv.ports.labels.foldl exportLabel files.vaultLabels
    let ports := inv.ports.mapCells fun c => (none, if c.label.isSome then false else c.tag)
    if inv.ports.cells.any fun c => c.label.isSome then
      ({ inv with ports := ports }, [.ie ports.values, .vault exported])
    else (inv, [])

/-- The end of a move that was made: the ports' media go to the vault, the files are written. -/
def finishMove : Outcome Label :=
  let archived := autoArchiveIeMediaToVault cfg files inv
  ⟨.good, archived.1, archived.2 ++
    syncChangerInventoryToShared cfg (files.replaced archived.2) archived.1 ++
    syncChangerMountToShared cfg archived.1⟩

/-- The answer when there is no medium to take. -/
def nothingTaken (source : Nat) : Outcome Label :=
  if changerHasElement inv source then ⟨.sourceElementEmpty, inv, []⟩
  else ⟨.invalidElementAddress, inv, []⟩

section

variable (address : Nat) (cdb : Bytes)

/-- A placement whose failure is ignored, as in `let _ = changer_place_medium(..)`. -/
def placeBack (medium : ChangerMedium Label) :
    Inventory Label := (changerPlaceMedium inv address medium).getD inv

/-- A medium placed back, if there is one. -/
def placeBackIf : Option (ChangerMedium Label) → Inventory Label
  | some medium => placeBack inv address medium
  | none => inv

/-- `changer_take_medium`, with the inventory also when nothing was taken. -/
def takeIf : Option (ChangerMedium Label) × Inventory Label :=
  match changerTakeMedium inv address with
  | some (medium, inv) => (some medium, inv)
  | none => (none, inv)

/-- `move_medium_changer`, once the addresses are read. -/
def moveBetween (source destination : Nat) : Outcome Label :=
  if source = destination then ⟨.good, inv, []⟩
  else
    match changerTakeMedium inv source with
    | none => nothingTaken inv source
    | some (medium, taken) =>
      match changerPlaceMedium taken destination medium with
      | some placed => finishMove cfg files placed
      | none =>
        -- rollback source on destination failure
        let back := placeBack taken source medium
        if changerHasElement back destination then ⟨.destinationElementFull, back, []⟩
        else ⟨.invalidElementAddress, back, []⟩

def moveMediumChanger : Outcome Label :=
  if cdb.length < 8 then ⟨.invalidField, inv, []⟩
  else moveBetween cfg files inv (readBe16 cdb 4) (readBe16 cdb 6)

/-- The exchange once the medium of the source is in the first destination: the one that was
there goes to the second, the one that was in the second to the source. -/
def exchangeRest (placed : Inventory Label)
    (source destination2 : Nat) (first second : Option (ChangerMedium Label)) : Outcome Label :=
  match first.elim (some placed) (changerPlaceMedium placed destination2) with
  -- what was placed stays where it is
  | none => ⟨.invalidElementAddress, placed, []⟩
  | some placed =>
    match second.elim (some placed) (changerPlaceMedium placed source) with
    | none => ⟨.invalidElementAddress, placed, []⟩
    | some placed => finishMove cfg files placed

/-- The exchange once the medium of the source is taken. -/
def exchangeTaken (taken : Inventory Label)
    (source destination1 destination2 : Nat) (medium : ChangerMedium Label) : Outcome Label :=
  let first := takeIf taken destination1
  let second := takeIf first.2 destination2
  match changerPlaceMedium second.2 destination1 medium with
  | some placed => exchangeRest cfg files placed source destination2 first.1 second.1
  | none =>
    let back := placeBack second.2 source medium
    let back := placeBackIf back destination1 first.1
    let back := placeBackIf back destination2 second.1
    ⟨.invalidElementAddress, back, []⟩

/-- `exchange_medium_changer`, once the addresses are read. -/
def exchangeBetween (source destination1 destination2 : Nat) : Outcome Label :=
  if source = destination1 ∧ destination1 = destination2 then ⟨.good, inv, []⟩
  else
    match changerTakeMedium inv source with
    | none => nothingTaken inv source
    | some (medium, taken) =>
      exchangeTaken cfg files taken source destination1 destination2 medium

def exchangeMediumChanger : Outcome Label :=
  if cdb.length < 10 then ⟨.invalidField, inv, []⟩
  else exchangeBetween cfg files inv (readBe16 cdb 4) (readBe16 cdb 6) (readBe16 cdb 8)

end

/-! ## §2. The media in the library. -/

/-- The labels in the elements and in the vault. -/
def libraryLabels (files : SharedFiles Label) : List Label :=
  inv.labels ++ files.vaultLabels

/-- The answer is about the source or a destination. -/
def ChangerReply.aboutElement : ChangerReply → Bool
  | .invalidElementAddress | .sourceElementEmpty | .destinationElementFull => true
  | .good | .invalidField => false

/-- **No medium is lost, none is there twice**: after GOOD the media are those from before, each
in one place; after an answer about an element nothing has changed. -/
structure Conserved (o : Outcome Label) : Prop where
  labels : o.reply = .good →
    ∀ l, l ∈ libraryLabels o.inventory (files.replaced o.writes) ↔ l ∈ libraryLabels inv files
  once : o.reply = .good → (libraryLabels o.inventory (files.replaced o.writes)).Nodup
  unchanged : o.reply.aboutElement = true → o.inventory = inv ∧ o.writes = []

end

variable {cfg : ChangerConfig} {files : SharedFiles Label} {inv inv' : Inventory Label}
  {o : Outcome Label} {s d d1 d2 : Nat}

theorem foldl_exportLabel {labels exported : List Label} (h : (exported ++ labels).Nodup) :
    labels.foldl exportLabel exported = exported ++ labels := by
  induction labels generalizing exported with
  | nil => simp
  | cons l labels ih =>
    grind [exportLabel]

omit [DecidableEq Label] in
theorem labels_mapCells_none {β : Type} (r : Row Label β) (f : Cell Label β → β) :
    (r.mapCells fun c => (none, f c)).labels = [] := by
  unfold Row.labels Row.mapCells Cell.labels
  rw [filterMap_map]
  exact filterMap_eq_nil_iff.mpr fun _ _ => rfl

section

variable (hnd : (libraryLabels inv files).Nodup)
include hnd

/-- The labels of the ports are not in the vault yet. -/
theorem foldl_exportLabel_ports : inv.ports.labels.foldl exportLabel files.vaultLabels =
      files.vaultLabels ++ inv.ports.labels := by
  refine foldl_exportLabel ?_
  refine Nodup.sublist ?_ (perm_append_comm.nodup_iff.mp hnd)
  exact (sublist_append_right _ _).trans (sublist_append_left _ _) |>.append_left _

theorem labels_autoArchive (cfg : ChangerConfig) :
    (libraryLabels (autoArchiveIeMediaToVault cfg files inv).1
      (files.replaced (autoArchiveIeMediaToVault cfg files inv).2)).Perm
      (libraryLabels inv files) := by
  unfold autoArchiveIeMediaToVault
  by_cases hen : sharedChangerInventoryEnabled cfg files = true
  swap
  · rw [Bool.not_eq_true] at hen
    rw [hen]
    exact Perm.refl _
  rw [hen]
  simp only [Bool.not_true, Bool.false_eq_true, if_false]
  split
  swap
  · exact Perm.refl _
  unfold libraryLabels Inventory.labels
  rw [labels_mapCells_none, append_nil]
  show (inv.slots.labels ++ inv.drives.labels ++
    inv.ports.labels.foldl exportLabel files.vaultLabels).Perm _
  rw [foldl_exportLabel_ports hnd]
  calc (inv.slots.labels ++ inv.drives.labels ++ (files.vaultLabels ++ inv.ports.labels)).Perm
        (inv.slots.labels ++ inv.drives.labels ++ (inv.ports.labels ++ files.vaultLabels)) :=
      perm_append_comm.append_left _
    _ = inv.slots.labels ++ (inv.drives.labels ++ inv.ports.labels) ++ files.vaultLabels := by
      simp
    List.Perm _ (inv.slots.labels ++ (inv.ports.labels ++ inv.drives.labels) ++
        files.vaultLabels) := (perm_append_comm.append_left _).append_right _
    _ = _ := by simp

omit hnd in
omit [DecidableEq Label] in
theorem vault_syncs (files : SharedFiles Label) (inv : Inventory Label) :
    ∀ w ∈ syncChangerInventoryToShared cfg files inv ++ syncChangerMountToShared cfg inv,
      ∀ labels, w ≠ .vault labels := by
  intro w hw labels heq
  subst heq
  rcases mem_append.mp hw with hw | hw
  · unfold syncChangerInventoryToShared at hw
    split at hw <;> simp at hw
  · obtain ⟨b, _, hb⟩ := mem_map.mp hw
    cases hb

/-- **A move that was made** loses no medium. -/
theorem labels_finishMove (cfg : ChangerConfig) :
    (libraryLabels (finishMove cfg files inv).inventory
      (files.replaced (finishMove cfg files inv).writes)).Perm (libraryLabels inv files) := by
  refine Perm.trans (.of_eq ?_) (labels_autoArchive hnd cfg)
  unfold finishMove libraryLabels SharedFiles.vaultLabels
  dsimp only
  rw [append_assoc, replaced_append, vault_replaced (vault_syncs _ _)]

theorem conserved_finish
    (h : inv'.labels.Perm inv.labels) : Conserved files inv (finishMove cfg files inv') := by
  have hlib : (libraryLabels inv' files).Perm (libraryLabels inv files) := h.append_right _
  have hperm := (labels_finishMove (hlib.nodup_iff.mpr hnd) cfg).trans hlib
  refine ⟨fun _ l => hperm.mem_iff, fun _ => hperm.nodup_iff.mpr hnd, ?_⟩
  intro habout
  cases habout

section

omit [DecidableEq Label]

theorem conserved_same (reply : ChangerReply) : Conserved files inv ⟨reply, inv, []⟩ :=
  ⟨fun _ _ => Iff.rfl, fun _ => hnd, fun _ => ⟨rfl, rfl⟩⟩

omit hnd in
theorem conserved_check_iff {reply : ChangerReply} (h : reply.aboutElement = true) :
    Conserved files inv ⟨reply, inv', []⟩ ↔ inv' = inv := by
  refine ⟨fun hc => (hc.unchanged h).1, ?_⟩
  intro heq
  have hgood : reply ≠ .good := by
    intro hreply
    rw [hreply] at h
    cases h
  exact ⟨fun hr => absurd hr hgood, fun hr => absurd hr hgood, fun _ => ⟨heq, rfl⟩⟩

theorem conserved_nothingTaken : Conserved files inv (nothingTaken inv s) := by
  grind [nothingTaken, conserved_same]

/-! ## §3. MOVE MEDIUM. -/

/-- A move that puts its medium back into a port, and marks it there. -/
def MoveMarks (inv : Inventory Label) (source destination : Nat) : Prop :=
  source ≠ destination ∧ Unmarked inv source ∧ elementAt inv destination ≠ some none

omit hnd in
theorem Unmarked.full (h : Unmarked inv s) : Full inv s := h.2.1

theorem nodup_labels : inv.labels.Nodup :=
  (nodup_append.mp hnd).1

end

end

variable {l : Label}

omit [DecidableEq Label] in
theorem elementAt_emptied_self (h : elementAt inv s = some (some l)) :
    elementAt (emptied inv s) s = some none := by
  unfold emptied
  rw [elementAt_set, if_pos rfl, h]
  rfl

omit [DecidableEq Label] in
theorem elementAt_emptied_of_ne (h : d ≠ s) : elementAt (emptied inv s) d = elementAt inv d :=
  elementAt_set_of_ne h

theorem placeBack_emptied (h : elementAt inv s = some (some l)) :
    placeBack (emptied inv s) s ⟨l, sourceOf inv s⟩ =
      setElement inv s (some l) true (sourceOf inv s) := by
  unfold placeBack
  rw [place_empty (elementAt_emptied_self h)]
  exact setElement_set

/-- A medium cannot be placed on another one, or where there is no element. -/
theorem place_refused {source : Option Nat} (hnd : inv.labels.Nodup) (hsd : s ≠ d)
    (hl : elementAt inv s = some (some l)) (hd : elementAt inv d ≠ some none) :
    changerPlaceMedium (emptied inv s) d ⟨l, source⟩ = none := by
  have hsame : elementAt (emptied inv s) d = elementAt inv d :=
    elementAt_emptied_of_ne hsd.symm
  cases hel : elementAt inv d with
  | none => exact place_none (hsame.trans hel)
  | some content =>
    cases content with
    | none => exact absurd hel hd
    | some l' =>
      grind [place_full, eq_of_elementAt]

/-- **A move**, by what is at its destination. -/
theorem moveBetween_conserved_iff (hnd : (libraryLabels inv files).Nodup) :
    Conserved files inv (moveBetween cfg files inv s d) ↔ ¬ MoveMarks inv s d := by
  unfold moveBetween MoveMarks
  by_cases hsd : s = d
  · rw [if_pos hsd]
    exact iff_of_true (conserved_same hnd _) fun h => h.1 hsd
  rw [if_neg hsd]
  by_cases hfull : Full inv s
  swap
  · rw [take_of_not_full hfull]
    exact iff_of_true (conserved_nothingTaken hnd) fun h => hfull h.2.1.full
  obtain ⟨l, hl⟩ := full_iff.mp hfull
  rw [take_full hl]
  dsimp only
  have hd : elementAt (emptied inv s) d = elementAt inv d :=
    elementAt_emptied_of_ne (Ne.symm hsd)
  by_cases hempty : elementAt inv d = some none
  · rw [place_empty (hd.trans hempty)]
    refine iff_of_true (conserved_finish hnd ?_) fun h => h.2.2 hempty
    exact (labels_placed (hd.trans hempty)).trans (labels_emptied hl).symm
  -- the destination is full, or there is none: the medium goes back
  rw [place_refused (nodup_labels hnd) hsd hl hempty]
  dsimp only
  rw [placeBack_emptied hl]
  have hiff : setElement inv s (some l) true (sourceOf inv s) = inv ↔
      ¬ (s ≠ d ∧ Unmarked inv s ∧ elementAt inv d ≠ some none) := by
    rw [setElement_marked_iff hl rfl]
    simp [hsd, hempty]
  split
  · exact (conserved_check_iff rfl).trans hiff
  · exact (conserved_check_iff rfl).trans hiff

/-! ## §4. EXCHANGE MEDIUM. -/

section

variable (inv : Inventory Label) (source destination1 destination2 : Nat)

/-- An exchange that takes a medium it cannot place again: the one of the first destination, if
the second is the same element or none at all, and the one of the second destination, if the
medium of the source stays where it is. -/
def Strands : Prop :=
  Full inv source ∧ destination2 ≠ source ∧
    (source = destination1 ∧ Full inv destination2 ∨
      source ≠ destination1 ∧ Full inv destination1 ∧
        (destination2 = destination1 ∨ elementAt inv destination2 = none))

/-- An exchange that puts its media back, and marks one of them in its port. -/
def ExchangeMarks : Prop :=
  Full inv source ∧ elementAt inv destination1 = none ∧
    (Unmarked inv source ∨ Unmarked inv destination2)

end

section

omit [DecidableEq Label]

theorem takeIf_full (h : elementAt inv s = some (some l)) :
    takeIf inv s = (some ⟨l, sourceOf inv s⟩, emptied inv s) := by
  unfold takeIf
  rw [take_full h]

theorem takeIf_of_not_full (h : ¬ Full inv s) : takeIf inv s = (none, inv) := by
  unfold takeIf
  rw [take_of_not_full h]

theorem not_full_emptied_self : ¬ Full (emptied inv s) s := by
  unfold Full emptied
  rw [elementAt_set, if_pos rfl]
  cases elementAt inv s <;> simp

theorem full_emptied_of_ne (h : d ≠ s) : Full (emptied inv s) d ↔ Full inv d := by
  unfold Full
  rw [elementAt_emptied_of_ne h]

end

section Exchange

variable {l1 l2 : Label}

section

variable (hl : elementAt inv s = some (some l))
include hl

/-- The source is the first destination: its medium stays, and the one of the second destination
has nowhere to go. -/
theorem exchange_in_place (hnd : (libraryLabels inv files).Nodup) (hd2 : d2 ≠ s) :
    Conserved files inv (exchangeTaken cfg files (emptied inv s) s s d2 ⟨l, sourceOf inv s⟩) ↔
      ¬ Full inv d2 := by
  unfold exchangeTaken
  rw [takeIf_of_not_full not_full_emptied_self]
  dsimp only
  by_cases hfull : Full inv d2
  swap
  · rw [takeIf_of_not_full (mt (full_emptied_of_ne hd2).mp hfull)]
    rw [place_empty (elementAt_emptied_self hl)]
    refine iff_of_true (conserved_finish hnd ?_) hfull
    exact (labels_placed (elementAt_emptied_self hl)).trans (labels_emptied hl).symm
  obtain ⟨l2, hl2⟩ := full_iff.mp hfull
  have hl2' : elementAt (emptied inv s) d2 = some (some l2) :=
    (elementAt_emptied_of_ne hd2).trans hl2
  have hempty : elementAt (emptied (emptied inv s) d2) s = some none := by
    rw [elementAt_emptied_of_ne hd2.symm]
    exact elementAt_emptied_self hl
  rw [takeIf_full hl2', place_empty hempty]
  dsimp only [exchangeRest, Option.elim]
  have hlne : l ≠ l2 := by
    intro heq
    subst heq
    exact hd2 (eq_of_elementAt (nodup_labels hnd) hl2 hl)
  have hon : elementAt (setElement (emptied (emptied inv s) d2) s (some l) true (sourceOf inv s))
      s = some (some l) := elementAt_set_self (by rw [hempty]; simp)
  rw [place_full hon hlne]
  refine iff_of_false ?_ (not_not_intro hfull)
  rw [conserved_check_iff rfl]
  -- the second destination is empty now
  grind [elementAt_emptied_self, elementAt_set_of_ne]

omit [DecidableEq Label] in
theorem setElement_marked_both_iff (hne : s ≠ d) (hl2 : elementAt inv d = some (some l2)) :
    setElement (setElement inv s (some l) true (sourceOf inv s)) d (some l2) true
      (sourceOf inv d) = inv ↔ ¬ (Unmarked inv s ∨ Unmarked inv d) := by
  rw [not_or, ← setElement_marked_iff hl rfl, ← setElement_marked_iff hl2 rfl]
  constructor
  · intro heq
    -- marking either one again changes nothing
    have hs := congrArg (setElement · s (some l) true (sourceOf inv s)) heq
    have hd := congrArg (setElement · d (some l2) true (sourceOf inv d)) heq
    rw [setElement_comm hne.symm, setElement_set, heq] at hs
    rw [setElement_set, heq] at hd
    exact ⟨hs.symm, hd.symm⟩
  · intro h
    rw [h.1, h.2]

/-- There is no first destination: the media go back. -/
theorem exchange_nowhere (hd1 : elementAt inv d1 = none) :
    Conserved files inv (exchangeTaken cfg files (emptied inv s) s d1 d2 ⟨l, sourceOf inv s⟩) ↔
      ¬ (Unmarked inv s ∨ Unmarked inv d2) := by
  have hne1 : d1 ≠ s := by
    intro heq
    rw [heq, hl] at hd1
    cases hd1
  have hnone : elementAt (emptied inv s) d1 = none := (elementAt_emptied_of_ne hne1).trans hd1
  have hfull1 : ¬ Full (emptied inv s) d1 := by
    rw [full_iff, hnone]
    simp
  unfold exchangeTaken
  rw [takeIf_of_not_full hfull1]
  dsimp only
  by_cases hfull : d2 ≠ s ∧ Full inv d2
  swap
  · have hfull2 : ¬ Full (emptied inv s) d2 := by grind [not_full_emptied_self, full_emptied_of_ne]
    have hmarks : Unmarked inv s ∨ Unmarked inv d2 ↔ Unmarked inv s := by
      refine or_iff_left_of_imp ?_
      intro h
      by_cases hds : d2 = s
      · rwa [hds] at h
      · exact absurd ⟨hds, h.full⟩ hfull
    rw [takeIf_of_not_full hfull2, place_none hnone]
    dsimp only [placeBackIf]
    rw [placeBack_emptied hl, conserved_check_iff rfl, setElement_marked_iff hl rfl, hmarks]
  obtain ⟨hne2, hfull⟩ := hfull
  obtain ⟨l2, hl2⟩ := full_iff.mp hfull
  have hl2' : elementAt (emptied inv s) d2 = some (some l2) :=
    (elementAt_emptied_of_ne hne2).trans hl2
  have hne12 : d1 ≠ d2 := by grind
  have hsource : sourceOf (emptied inv s) d2 = sourceOf inv d2 := sourceOf_set_of_ne hne2
  rw [takeIf_full hl2', place_none ((elementAt_emptied_of_ne hne12).trans hnone), hsource]
  dsimp only [placeBackIf]
  -- the source's medium goes back to its element, which is empty, then the other one
  have hback : placeBack (emptied (emptied inv s) d2) s ⟨l, sourceOf inv s⟩ =
      emptied (setElement inv s (some l) true (sourceOf inv s)) d2 := by
    have hempty : elementAt (emptied (emptied inv s) d2) s = some none :=
      (elementAt_emptied_of_ne hne2.symm).trans (elementAt_emptied_self hl)
    unfold placeBack
    rw [place_empty hempty]
    unfold emptied
    rw [Option.getD_some, setElement_comm hne2, setElement_set]
  have hempty : elementAt (emptied (setElement inv s (some l) true (sourceOf inv s)) d2) d2 =
      some none := elementAt_emptied_self ((elementAt_set_of_ne hne2).trans hl2)
  rw [hback, conserved_check_iff rfl]
  unfold placeBack
  rw [place_empty hempty]
  unfold emptied
  rw [Option.getD_some, setElement_set]
  exact setElement_marked_both_iff hl hne2.symm hl2

/-- The first destination is empty: there is room for every medium. -/
theorem exchange_into_empty (hnd : (libraryLabels inv files).Nodup)
    (hd1 : elementAt inv d1 = some none) :
    Conserved files inv (exchangeTaken cfg files (emptied inv s) s d1 d2 ⟨l, sourceOf inv s⟩) := by
  have hne1 : d1 ≠ s := by
    intro heq
    rw [heq, hl] at hd1
    cases hd1
  have hempty : elementAt (emptied inv s) d1 = some none :=
    (elementAt_emptied_of_ne hne1).trans hd1
  have hfull1 : ¬ Full (emptied inv s) d1 := by
    rw [full_iff, hempty]
    simp
  unfold exchangeTaken
  rw [takeIf_of_not_full hfull1]
  dsimp only
  -- the second destination: its medium goes to `s`, if it has one
  by_cases hfull : Full (emptied inv s) d2
  swap
  · rw [takeIf_of_not_full hfull]
    rw [place_empty hempty]
    refine conserved_finish hnd ?_
    exact (labels_placed hempty).trans (labels_emptied hl).symm
  obtain ⟨l2, hl2⟩ := full_iff.mp hfull
  have hne2 : d2 ≠ s := by
    intro heq
    rw [heq] at hfull
    exact not_full_emptied_self hfull
  have hne12 : d1 ≠ d2 := by grind
  have hempty' : elementAt (emptied (emptied inv s) d2) d1 = some none :=
    (elementAt_emptied_of_ne hne12).trans hempty
  have hs : elementAt (setElement (emptied (emptied inv s) d2) d1 (some l) true
      (sourceOf inv s)) s = some none := by
    rw [elementAt_set_of_ne hne1.symm, elementAt_emptied_of_ne hne2.symm]
    exact elementAt_emptied_self hl
  rw [takeIf_full hl2, place_empty hempty']
  dsimp only [exchangeRest, Option.elim]
  rw [place_empty hs]
  refine conserved_finish hnd ?_
  calc (setElement _ s (some l2) true _).labels.Perm
        (l2 :: l :: (emptied (emptied inv s) d2).labels) :=
      (labels_placed hs).trans ((labels_placed hempty').cons l2)
    List.Perm _ (l :: l2 :: (emptied (emptied inv s) d2).labels) := .swap ..
    List.Perm _ (l :: (emptied inv s).labels) := (labels_emptied hl2).symm.cons l
    List.Perm _ inv.labels := (labels_emptied hl).symm

/-- There is a medium in the first destination: it needs an element to go to. -/
theorem exchange_into_full (hnd : (libraryLabels inv files).Nodup) (hne1 : d1 ≠ s)
    (hl1 : elementAt inv d1 = some (some l1)) :
    Conserved files inv (exchangeTaken cfg files (emptied inv s) s d1 d2 ⟨l, sourceOf inv s⟩) ↔
      ¬ (d2 ≠ s ∧ (d2 = d1 ∨ elementAt inv d2 = none)) := by
  have hl1' : elementAt (emptied inv s) d1 = some (some l1) :=
    (elementAt_emptied_of_ne hne1).trans hl1
  set inv₂ := emptied (emptied inv s) d1
  have hlne : l ≠ l1 := by
    intro heq
    subst heq
    exact hne1 (eq_of_elementAt (nodup_labels hnd) hl1 hl)
  have hempty1 : elementAt inv₂ d1 = some none := elementAt_emptied_self hl1'
  have hemptys : elementAt inv₂ s = some none :=
    (elementAt_emptied_of_ne hne1.symm).trans (elementAt_emptied_self hl)
  have htaken : inv.labels.Perm (l :: l1 :: inv₂.labels) :=
    (labels_emptied hl).trans ((labels_emptied hl1').cons l)
  unfold exchangeTaken
  rw [takeIf_full hl1']
  dsimp only
  by_cases hother : Full inv₂ d2
  · -- three media change places
    obtain ⟨l2, hl2⟩ := full_iff.mp hother
    have hne2 : d2 ≠ s := by grind
    have hne12 : d2 ≠ d1 := by grind
    have hinv : elementAt inv d2 = some (some l2) := by
      rwa [elementAt_emptied_of_ne hne12, elementAt_emptied_of_ne hne2] at hl2
    have hat1 : elementAt (emptied inv₂ d2) d1 = some none :=
      (elementAt_emptied_of_ne hne12.symm).trans hempty1
    set inv₃ := setElement (emptied inv₂ d2) d1 (some l) true (sourceOf inv s)
    have hat2 : elementAt inv₃ d2 = some none :=
      (elementAt_set_of_ne hne12).trans (elementAt_emptied_self hl2)
    have hats : elementAt (setElement inv₃ d2 (some l1) true (sourceOf (emptied inv s) d1)) s =
        some none := by
      rw [elementAt_set_of_ne hne2.symm, elementAt_set_of_ne hne1.symm,
        elementAt_emptied_of_ne hne2.symm]
      exact hemptys
    rw [takeIf_full hl2, place_empty hat1]
    dsimp only [exchangeRest, Option.elim]
    rw [place_empty hat2]
    dsimp only
    rw [place_empty hats]
    refine iff_of_true (conserved_finish hnd ?_) ?_
    · refine (labels_placed hats).trans
        ((((labels_placed hat2).trans ((labels_placed hat1).cons l1)).cons l2).trans ?_)
      refine Perm.trans ?_ (htaken.trans (((labels_emptied hl2).cons l1).cons l)).symm
      exact (reverse_perm [l, l1, l2]).append_right _
    intro h
    rcases h.2 with h1 | h2
    · exact hne12 h1
    · rw [hinv] at h2
      cases h2
  rw [takeIf_of_not_full hother, place_empty hempty1]
  dsimp only [exchangeRest, Option.elim]
  set inv₃ := setElement inv₂ d1 (some l) true (sourceOf inv s)
  have hplaced : inv₃.labels.Perm (l :: inv₂.labels) := labels_placed hempty1
  have hon : elementAt inv₃ d1 = some (some l) := elementAt_set_self (by rw [hempty1]; simp)
  by_cases hbad : d2 ≠ s ∧ (d2 = d1 ∨ elementAt inv d2 = none)
  · -- the medium of the first destination cannot be placed
    have hplace : changerPlaceMedium inv₃ d2 ⟨l1, sourceOf (emptied inv s) d1⟩ = none := by
      rcases hbad.2 with heq | hnone
      · rw [heq]
        exact place_full hon hlne
      have hne12 : d2 ≠ d1 := by
        intro heq
        rw [heq, hl1] at hnone
        cases hnone
      refine place_none ?_
      rw [elementAt_set_of_ne hne12, elementAt_emptied_of_ne hne12, elementAt_emptied_of_ne hbad.1]
      exact hnone
    rw [hplace, conserved_check_iff rfl]
    grind
  -- it goes to the source, or to an empty element
  have hat2 : elementAt inv₃ d2 = some none := by
    by_cases hds : d2 = s
    · rw [hds, elementAt_set_of_ne hne1.symm]
      exact hemptys
    have hne12 : d2 ≠ d1 := fun heq => hbad ⟨hds, .inl heq⟩
    have hnone : elementAt inv d2 ≠ none := fun heq => hbad ⟨hds, .inr heq⟩
    rw [full_emptied_of_ne hne12, full_emptied_of_ne hds, full_iff] at hother
    rw [elementAt_set_of_ne hne12, elementAt_emptied_of_ne hne12, elementAt_emptied_of_ne hds]
    cases hel : elementAt inv d2 with
    | none => exact absurd hel hnone
    | some content =>
      cases content with
      | none => rfl
      | some l2 => exact absurd ⟨l2, hel⟩ hother
  rw [place_empty hat2]
  refine iff_of_true (conserved_finish hnd ?_) hbad
  exact ((labels_placed hat2).trans (hplaced.cons l1)).trans ((Perm.swap l l1 _).trans htaken.symm)

end

end Exchange

/-- **An exchange** conserves the media unless it strands or marks one. -/
theorem exchangeBetween_conserved_iff (hnd : (libraryLabels inv files).Nodup) :
    Conserved files inv (exchangeBetween cfg files inv s d1 d2) ↔
      ¬ (Strands inv s d1 d2 ∨ ExchangeMarks inv s d1 d2) := by
  unfold exchangeBetween
  by_cases hall : s = d1 ∧ d1 = d2
  · rw [if_pos hall]
    refine iff_of_true (conserved_same hnd _) ?_
    intro h
    rcases h with h | h
    · exact h.2.1 (hall.1.trans hall.2).symm
    · obtain ⟨l, hl⟩ := full_iff.mp h.1
      have hnone := h.2.1
      rw [← hall.1, hl] at hnone
      cases hnone
  rw [if_neg hall]
  by_cases hfull : Full inv s
  swap
  · rw [take_of_not_full hfull]
    refine iff_of_true (conserved_nothingTaken hnd) ?_
    intro h
    rcases h with h | h
    · exact hfull h.1
    · exact hfull h.1
  obtain ⟨l, hl⟩ := full_iff.mp hfull
  rw [take_full hl]
  unfold Strands ExchangeMarks
  -- the medium of `s` is taken: the rest depends on the first destination
  by_cases hs1 : s = d1
  · subst hs1
    have hd2 : d2 ≠ s := fun heq => hall ⟨rfl, heq.symm⟩
    rw [exchange_in_place hl hnd hd2]
    simp [hfull, hd2, hl]
  cases hel : elementAt inv d1 with
  | none =>
    have hfull1 : ¬ Full inv d1 := by
      rw [full_iff, hel]
      simp
    rw [exchange_nowhere hl hel]
    simp [hs1, hfull, hfull1]
  | some content =>
    cases content with
    | none =>
      have hfull1 : ¬ Full inv d1 := by
        rw [full_iff, hel]
        simp
      refine iff_of_true (exchange_into_empty hl hnd hel) ?_
      simp [hs1, hfull1]
    | some l1 =>
      have hfull1 : Full inv d1 := full_iff.mpr ⟨l1, hel⟩
      rw [exchange_into_full hl hnd (Ne.symm hs1) hel]
      simp [hs1, hfull, hfull1]

/-! ## §5. Every command. -/

/-- The commands that move media. -/
inductive ChangerCommand where
  | moveMedium (cdb : Bytes)
  | exchangeMedium (cdb : Bytes)
  deriving Repr, DecidableEq

namespace ChangerCommand

/-- What the command does. -/
def run (cfg : ChangerConfig) (files : SharedFiles Label) (inv : Inventory Label) :
    ChangerCommand → Outcome Label
  | moveMedium cdb => moveMediumChanger cfg files inv cdb
  | exchangeMedium cdb => exchangeMediumChanger cfg files inv cdb

/-- The command strands a medium, or marks one that it puts back into a port. -/
def Disturbs (inv : Inventory Label) : ChangerCommand → Prop
  | moveMedium cdb => 8 ≤ cdb.length ∧ MoveMarks inv (readBe16 cdb 4) (readBe16 cdb 6)
  | exchangeMedium cdb => 10 ≤ cdb.length ∧
      (Strands inv (readBe16 cdb 4) (readBe16 cdb 6) (readBe16 cdb 8) ∨
        ExchangeMarks inv (readBe16 cdb 4) (readBe16 cdb 6) (readBe16 cdb 8))

end ChangerCommand

/-- **Every MOVE MEDIUM and EXCHANGE MEDIUM** conserves the media of the library, unless it
disturbs one of them. -/
theorem media_conserved_iff (cfg : ChangerConfig) (files : SharedFiles Label)
    (inv : Inventory Label) (hnd : (libraryLabels inv files).Nodup) (c : ChangerCommand) :
    Conserved files inv (c.run cfg files inv) ↔ ¬ c.Disturbs inv := by
  cases c with
  | moveMedium cdb =>
    show Conserved files inv (moveMediumChanger cfg files inv cdb) ↔ ¬ (8 ≤ cdb.length ∧ _)
    grind [moveMediumChanger, conserved_same, moveBetween_conserved_iff]
  | exchangeMedium cdb =>
    show Conserved files inv (exchangeMediumChanger cfg files inv cdb) ↔ ¬ (10 ≤ cdb.length ∧ _)
    grind [exchangeMediumChanger, conserved_same, exchangeBetween_conserved_iff]

/-- `default_changer_slots`, `default_changer_ie_ports` and `default_changer_drives`; `vtl n` is
the label `VTL` with the six digits of `n`. -/
def defaultInventory (vtl : Nat → Label) : Inventory Label where
  slots := ⟨(range 16).map fun i =>
    ⟨0x0400 + i, if i < 10 then some (vtl (i + 1)) else none, ()⟩, by
      rw [map_map]
      exact pairwise_lt_range.map _ fun a b h => Nat.add_lt_add_left h _⟩
  ports := ⟨[⟨0x0300, none, false⟩], pairwise_singleton _ _⟩
  drives := ⟨[⟨0x0100, none, none⟩], pairwise_singleton _ _⟩

/-- A library with one drive and no shared file yet. -/
def oneDrive : ChangerConfig where
  separated := true
  bindings := [(0x0100, "library__drive")]
  nonempty := cons_ne_nil _ _
  sorted := pairwise_singleton _ _
  ownFiles := fun _ => nodup_singleton _

/-- No shared file yet. -/
def noFiles : SharedFiles Nat := ⟨none, none, none, []⟩

/-- EXCHANGE MEDIUM between the first two slots, its second destination 0x0500. -/
def exchangedToNowhere : Outcome Nat :=
  exchangeMediumChanger oneDrive noFiles (defaultInventory id)
    [0xA6, 0, 0, 0, 0x04, 0x00, 0x04, 0x01, 0x05, 0x00, 0, 0]

/-- MOVE MEDIUM from the first slot to the drive. -/
def loadFirstSlot : ChangerCommand :=
  .moveMedium [0xA5, 0, 0, 0, 0x04, 0x00, 0x01, 0x00, 0, 0, 0, 0]

theorem media_conserved_load :
    Conserved noFiles (defaultInventory id) (loadFirstSlot.run oneDrive noFiles
      (defaultInventory id)) :=
  (media_conserved_iff oneDrive noFiles (defaultInventory id) (by decide) loadFirstSlot).mpr
    (by unfold loadFirstSlot ChangerCommand.Disturbs MoveMarks; decide)

/-- **A medium is lost**: the first destination's is taken, there is no second destination, and
the answer is that the element address is invalid. -/
theorem exchange_loses_medium :
    (libraryLabels (defaultInventory id) noFiles).Nodup ∧
      2 ∈ libraryLabels (defaultInventory id) noFiles ∧
      exchangedToNowhere.reply = .invalidElementAddress ∧
      2 ∉ libraryLabels exchangedToNowhere.inventory
        (noFiles.replaced exchangedToNowhere.writes) ∧
      ¬ Conserved noFiles (defaultInventory id) exchangedToNowhere := by
  have hreply : exchangedToNowhere.reply = .invalidElementAddress := by decide
  refine ⟨by decide, by decide, hreply, by decide, ?_⟩
  intro h
  have hsame := (h.unchanged (by rw [hreply]; rfl)).1
  exact absurd hsame (by decide)

end Holo.Changer
