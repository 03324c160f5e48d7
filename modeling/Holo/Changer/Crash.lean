/-
Holo.Changer.Crash — a process that stops while it writes the files of a MOVE MEDIUM.

The files are replaced one by one: the ports and the vault, if a medium goes to the vault, then
the slots, the ports, and the state file of each drive.  After a crash the files replaced so far
are new, the others are as before.

Main results:
* `between_of_prefix`: the files after any number of replacements;
* `move_survives_crash_iff`: the moves that lose no label and show none twice, wherever the
  process stops;
* `load_crash_loses_label`: a cartridge taken from a slot to a drive.
-/
import Holo.Changer.Restart

namespace Holo.Changer

open Lib Storage Drive List

variable {Label : Type} [DecidableEq Label]
variable {bs : List (Nat × String)} {cfg : ChangerConfig} {files F : SharedFiles Label}
  {inv : Inventory Label} {s d a : Nat} {ks kd k : Kind} {l x : Label}
  {ws : List (FileWrite Label)}

/-! ## §1. Consistent files. -/

section

variable (cfg : ChangerConfig) (vtl : Nat → Label) (files : SharedFiles Label)

/-- The labels in any of the files. -/
def recordedLabels : List Label :=
  fileLabels cfg files ++ files.vaultLabels

/-- The files as a changer that is started takes them.  A file of the slots or the ports that is
missing leaves the changer with the elements it starts with, so these stand for its lines. -/
def SharedFiles.filled : SharedFiles Label :=
  { files with
    slots := some (files.slots.getD (defaultInventory vtl).slots.values)
    ie := some (files.ie.getD (defaultInventory vtl).ports.values) }

/-- The files of a library with every label in one place, and the inventory read from them.  It
is stated of files that exist; others are `filled` before it is asked of them. -/
structure Consistent (inv : Inventory Label) : Prop where
  separated : cfg.separated = true
  slots : ∃ values, files.slots = some values ∧ Counted values ∧
    inv.slots = loadElements 0x0400 (fun _ => ()) values
  ports : ∃ values, files.ie = some values ∧ Counted values ∧
    inv.ports = loadElements 0x0300 Option.isSome values
  addrs : driveAddrs inv = cfg.bindings.map Prod.fst
  drives : Matches cfg files inv
  once : (recordedLabels cfg files).Nodup

/-- What a crash may leave: every label is in a file, and the changer that is started again shows
none twice. -/
structure Survives (labels : List Label) (files : SharedFiles Label) : Prop where
  recorded : ∀ l ∈ labels, l ∈ recordedLabels cfg (files.filled vtl)
  once : (syncChanger cfg files (defaultInventory vtl)).labels.Nodup

/-- **A crash after any of the replacements.** -/
def SurvivesCrash (writes : List (FileWrite Label)) : Prop :=
  ∀ ws, ws <+: writes →
    Survives cfg vtl (recordedLabels cfg (files.filled vtl)) (files.replaced ws)

end

/-- The moves whose files are replaced in a safe order: those that move nothing, and, while the
ports are empty, those that do not take a cartridge from a slot to a drive or from a drive to
one with a higher address. -/
def SafeOrder (inv : Inventory Label) (source destination : Nat) : Prop :=
  source = destination ∨ ¬ Full inv source ∨ elementAt inv destination ≠ some none ∨
    inv.ports.labels = [] ∧ kindAt inv destination ≠ some .drive ∨
    inv.ports.labels = [] ∧ kindAt inv source = some .drive ∧ destination < source

variable {β : Type} {f : Nat → Option Label}

/-! ## §2. Files that are missing. -/

section Missing

variable (vtl : Nat → Label)

omit [DecidableEq Label] in
/-- A file that is replaced is there afterwards, whether it was missing or not. -/
theorem filled_replaced (ws : List (FileWrite Label)) (files : SharedFiles Label) :
    (files.replaced ws).filled vtl = (files.filled vtl).replaced ws := by
  induction ws generalizing files with
  | nil => rfl
  | cons w ws ih =>
    have hone : (w.apply files).filled vtl = w.apply (files.filled vtl) := by
      cases w with
      | slots | ie | vault | state => rfl
    unfold SharedFiles.replaced at ih ⊢
    rw [foldl_cons, foldl_cons, ih, hone]

omit [DecidableEq Label] in
/-- The lines that stand for a missing file read as the elements the changer starts with. -/
theorem loadElements_default :
    loadElements 0x0400 (fun _ => ()) (defaultInventory vtl).slots.values =
        (defaultInventory vtl).slots ∧
      loadElements 0x0300 Option.isSome (defaultInventory vtl).ports.values =
        (defaultInventory vtl).ports := by
  refine ⟨?_, rfl⟩
  rw [Row.mk.injEq]
  unfold loadElements Row.values defaultInventory
  simp [range_succ, Row.insert, Cell.insert, Row.empty]

/-- The changer that is started does not see whether a file is missing or has these lines. -/
theorem syncChanger_filled : syncChanger cfg (files.filled vtl) (defaultInventory vtl) =
    syncChanger cfg files (defaultInventory vtl) := by
  have hread : syncChangerInventoryFromShared (files.filled vtl)
      (ensureChangerDriveTopology cfg (defaultInventory vtl)) =
        syncChangerInventoryFromShared files
          (ensureChangerDriveTopology cfg (defaultInventory vtl)) := by
    obtain ⟨hslots, hports⟩ := loadElements_default vtl
    unfold SharedFiles.filled syncChangerInventoryFromShared syncChangerIeFromShared
      syncChangerSlotsFromShared ensureChangerDriveTopology
    cases files.slots with
    | none =>
      cases files.ie with
      | none => simp only [Option.getD_none, hslots, hports]
      | some ports => simp only [Option.getD_none, Option.getD_some, hslots]
    | some slots =>
      cases files.ie with
      | none => simp only [Option.getD_none, Option.getD_some, hports]
      | some ports => rfl
  unfold syncChanger
  rw [hread]
  rfl

theorem survivesCrash_filled : SurvivesCrash cfg vtl (files.filled vtl) ws ↔
    SurvivesCrash cfg vtl files ws := by
  refine forall₂_congr fun ws' _ => ?_
  rw [← filled_replaced]
  constructor
  · intro h
    exact ⟨h.recorded, by rw [← syncChanger_filled]; exact h.once⟩
  · intro h
    exact ⟨h.recorded, by rw [syncChanger_filled]; exact h.once⟩

/-- A library that writes its files writes them whether they are there or not. -/
theorem moveMediumChanger_filled (hsep : cfg.separated = true) (cdb : Bytes) :
    moveMediumChanger cfg (files.filled vtl) inv cdb = moveMediumChanger cfg files inv cdb := by
  have hfinish : ∀ inv : Inventory Label,
      finishMove cfg (files.filled vtl) inv = finishMove cfg files inv := by
    intro inv
    simp [finishMove, autoArchiveIeMediaToVault, sharedChangerInventoryEnabled,
      syncChangerInventoryToShared, hsep, SharedFiles.vaultLabels, SharedFiles.filled]
  unfold moveMediumChanger moveBetween
  simp only [hfinish]

end Missing

section Facts

omit [DecidableEq Label]

theorem mem_recordedLabels : l ∈ recordedLabels cfg files ↔ l ∈ lineLabels files.slots ∨
    l ∈ lineLabels files.ie ∨ (∃ b ∈ cfg.bindings, files.named b.2 = some l) ∨
      l ∈ files.vaultLabels := by
  unfold recordedLabels fileLabels
  simp only [mem_append, mem_filterMap, or_assoc]

theorem lineLabels_values (r : Row Label β) : lineLabels (some r.values) = r.labels := by
  unfold lineLabels Row.values Row.labels Cell.labels
  rw [Option.getD_some, filterMap_map]
  rfl

section

variable (h : Consistent cfg files inv)
include h

theorem Consistent.filled (vtl : Nat → Label) : files.filled vtl = files := by
  obtain ⟨slots, hslots, _, _⟩ := h.slots
  obtain ⟨ports, hports, _, _⟩ := h.ports
  unfold SharedFiles.filled
  rw [hslots, hports, Option.getD_some, Option.getD_some, ← hslots, ← hports]

theorem Consistent.slots_perm : inv.slots.labels.Perm (lineLabels files.slots) := by
  obtain ⟨values, hfile, hcounted, hrow⟩ := h.slots
  rw [hrow, hfile]
  exact labels_loadElements_of_counted hcounted

theorem Consistent.ports_perm : inv.ports.labels.Perm (lineLabels files.ie) := by
  obtain ⟨values, hfile, hcounted, hrow⟩ := h.ports
  rw [hrow, hfile]
  exact labels_loadElements_of_counted hcounted

/-- The files record what is in the elements and in the vault. -/
theorem Consistent.perm : (libraryLabels inv files).Perm (recordedLabels cfg files) := by
  unfold libraryLabels recordedLabels Inventory.labels fileLabels
  rw [h.drives.labels]
  exact ((h.slots_perm.append h.ports_perm).append_right _).append_right _

theorem Consistent.nodup : (libraryLabels inv files).Nodup :=
  h.perm.nodup_iff.mpr h.once

/-- A drive with an address has a file. -/
theorem Consistent.binding (ha : inv.drives.labelAt a = some l) : ∃ b ∈ cfg.bindings, b.1 = a ∧
      files.named b.2 = some l := by
  obtain ⟨key, hb, hl⟩ := ((matches_iff_mounted h.addrs).mp h.drives a l).mp ha
  exact ⟨(a, key), hb, rfl, hl⟩

/-- A label in an element is on no other file. -/
theorem Consistent.place (ha : labelIn inv k a = some l) :
    (l ∈ lineLabels files.slots ↔ k = .slot) ∧ (l ∈ lineLabels files.ie ↔ k = .port) ∧
      (∀ b ∈ cfg.bindings, files.named b.2 = some l ↔ k = .drive ∧ b.1 = a) ∧
      l ∉ files.vaultLabels := by
  have hnd := nodup_labels h.nodup
  -- a label is in one place only
  have hkind : ∀ k', l ∈ labelsIn inv k' ↔ k = k' := by
    intro k'
    rw [mem_labelsIn_iff]
    constructor
    · grind [place_unique]
    · intro heq
      subst heq
      exact ⟨a, ha⟩
  refine ⟨h.slots_perm.mem_iff.symm.trans (hkind .slot), h.ports_perm.mem_iff.symm.trans
    (hkind .port), ?_, ?_⟩
  · intro b hb
    rw [← h.drives.named hb]
    constructor
    · intro hl
      have hplace : labelIn inv .drive b.1 = some l := hl
      exact ⟨(place_unique hnd ha hplace).1, (place_unique hnd ha hplace).2.symm⟩
    · intro heq
      obtain ⟨rfl, rfl⟩ := heq
      exact ha
  · intro hv
    have hmem : l ∈ inv.labels := by
      have hin : l ∈ labelsIn inv k := mem_labelsIn_iff.mpr ⟨a, ha⟩
      cases k with
      | slot => exact mem_append_left _ (mem_append_left _ hin)
      | port => exact mem_append_left _ (mem_append_right _ hin)
      | drive => exact mem_append_right _ hin
    exact (nodup_append.mp h.nodup).2.2 l hmem l hv rfl

end

end Facts

/-! ## §3. The replacements of a move. -/

/-- The inventory with a medium moved. -/
def moved (inv : Inventory Label) (source destination : Nat) (label : Label) : Inventory Label :=
  setElement (emptied inv source) destination (some label) true (sourceOf inv source)

/-- A move is made, or nothing is written. -/
theorem moveBetween_cases (cfg : ChangerConfig) (files : SharedFiles Label)
    {inv : Inventory Label} (hnd : inv.labels.Nodup) (s d : Nat) :
    (moveBetween cfg files inv s d).writes = [] ∧
        (s = d ∨ ¬ Full inv s ∨ elementAt inv d ≠ some none) ∨
      s ≠ d ∧ elementAt inv d = some none ∧ ∃ l, elementAt inv s = some (some l) ∧
        moveBetween cfg files inv s d = finishMove cfg files (moved inv s d l) := by
  unfold moveBetween
  by_cases hsd : s = d
  · rw [if_pos hsd]
    exact .inl ⟨rfl, .inl hsd⟩
  rw [if_neg hsd]
  by_cases hfull : Full inv s
  swap
  · left
    rw [take_of_not_full hfull]
    refine ⟨?_, .inr (.inl hfull)⟩
    unfold nothingTaken
    dsimp only
    split
    · rfl
    · rfl
  obtain ⟨l, hl⟩ := full_iff.mp hfull
  rw [take_full hl]
  dsimp only
  have hd : elementAt (emptied inv s) d = elementAt inv d :=
    elementAt_emptied_of_ne (Ne.symm hsd)
  -- the medium is in hand: it is placed, or put back with nothing written
  by_cases hempty : elementAt inv d = some none
  · refine .inr ⟨hsd, hempty, l, hl, ?_⟩
    rw [place_empty (hd.trans hempty)]
    rfl
  left
  refine ⟨?_, .inr (.inr hempty)⟩
  rw [place_refused hnd hsd hl hempty]
  dsimp only
  split
  · rfl
  · rfl

omit [DecidableEq Label] in
theorem labelIn_moved {ks kd k : Kind} (hs : kindAt inv s = some ks) (hd : kindAt inv d = some kd) :
    labelIn (moved inv s d l) k a =
      if k = kd ∧ a = d then some l else if k = ks ∧ a = s then none else labelIn inv k a := by
  have hd' : kindAt (emptied inv s) d = some kd := by
    unfold emptied
    rw [kindAt_set]
    exact hd
  unfold moved
  rw [labelIn_set hd']
  unfold emptied
  rw [labelIn_set hs]

omit [DecidableEq Label] in
theorem any_isSome_iff (r : Row Label β) :
    (r.cells.any fun c => c.label.isSome) = true ↔ r.labels ≠ [] := by
  unfold Row.labels Cell.labels
  rw [any_eq_true, Ne, filterMap_eq_nil_iff]
  constructor
  · grind
  intro h
  by_contra hnot
  refine h fun c hc => ?_
  simp_all

/-- The ports once their media are in the vault. -/
def cleared (inv : Inventory Label) : Row Label Bool :=
  inv.ports.mapCells fun c => (none, if c.label.isSome then false else c.tag)

/-- The replacements of a move that leaves the ports empty. -/
theorem finish_writes_of_empty (hsep : cfg.separated = true) (h : inv.ports.labels = []) :
    (finishMove cfg files inv).writes = .slots inv.slots.values :: .ie inv.ports.values ::
      syncChangerMountToShared cfg inv := by
  have hany : (inv.ports.cells.any fun c => c.label.isSome) = false := by
    rw [← Bool.not_eq_true, any_isSome_iff]
    exact fun hne => hne h
  have harchive : autoArchiveIeMediaToVault cfg files inv = (inv, []) := by
    unfold autoArchiveIeMediaToVault
    rw [hany]
    simp
  unfold finishMove
  rw [harchive]
  unfold syncChangerInventoryToShared
  rw [hsep]
  rfl

theorem finish_writes_of_full (hsep : cfg.separated = true) (h : inv.ports.labels ≠ []) :
    (finishMove cfg files inv).writes = .ie (cleared inv).values ::
      .vault (inv.ports.labels.foldl exportLabel files.vaultLabels) :: .slots inv.slots.values ::
      .ie (cleared inv).values :: syncChangerMountToShared cfg inv := by
  have hany := (any_isSome_iff inv.ports).mpr h
  have harchive : autoArchiveIeMediaToVault cfg files inv = ({ inv with ports := cleared inv },
      [.ie (cleared inv).values,
        .vault (inv.ports.labels.foldl exportLabel files.vaultLabels)]) := by
    unfold autoArchiveIeMediaToVault sharedChangerInventoryEnabled
    rw [hany, hsep]
    rfl
  unfold finishMove
  rw [harchive]
  unfold syncChangerInventoryToShared
  rw [hsep]
  rfl

section

omit [DecidableEq Label]

/-- **The state files** after some of them were written. -/
theorem named_replaced_states (hkeys : (bs.map Prod.snd).Nodup) (files : SharedFiles Label) :
    (∀ b ∈ bs, (files.replaced (bs.map fun b => .state b.2 (f b.1))).named b.2 = f b.1) ∧
      ∀ key, key ∉ bs.map Prod.snd →
        (files.replaced (bs.map fun b => .state b.2 (f b.1))).named key = files.named key := by
  induction bs generalizing files with
  | nil => exact ⟨fun b hb => absurd hb not_mem_nil, fun _ _ => rfl⟩
  | cons b bs ih =>
    rw [map_cons, nodup_cons] at hkeys
    obtain ⟨hin, hout⟩ := ih hkeys.2 ((FileWrite.state b.2 (f b.1)).apply files)
    have hself : ((FileWrite.state b.2 (f b.1)).apply files).named b.2 = f b.1 := by
      simp [FileWrite.apply, SharedFiles.named, SharedFiles.stateOf]
    have hother : ∀ key, key ≠ b.2 →
        ((FileWrite.state b.2 (f b.1)).apply files).named key = files.named key := by
      intro key hne
      simp [FileWrite.apply, SharedFiles.named, SharedFiles.stateOf, lookup_setEntry_of_ne hne]
    constructor
    · intro b' hb'
      rcases mem_cons.mp hb' with rfl | hb'
      · exact (hout _ hkeys.1).trans hself
      · exact hin b' hb'
    · intro key hkey
      rw [map_cons, mem_cons, not_or] at hkey
      exact (hout key hkey.2).trans (hother key hkey.1)

theorem replaced_states (bs : List (Nat × String)) (files : SharedFiles Label) :
    (files.replaced (bs.map fun b => .state b.2 (f b.1))).slots = files.slots ∧
      (files.replaced (bs.map fun b => .state b.2 (f b.1))).ie = files.ie ∧
      (files.replaced (bs.map fun b => .state b.2 (f b.1))).vault = files.vault := by
  induction bs generalizing files with
  | nil => exact ⟨rfl, rfl, rfl⟩
  | cons b bs ih => exact ih ((FileWrite.state b.2 (f b.1)).apply files)

/-! ## §4. The files after some replacements. -/

/-- The new vault and the new slots are written. -/
structure SlotsWritten (files : SharedFiles Label) (inv : Inventory Label)
    (F : SharedFiles Label) : Prop where
  slots : lineLabels F.slots = inv.slots.labels
  vault : F.vaultLabels = files.vaultLabels ++ inv.ports.labels

/-- **The files in the middle of a move** that ends with `inv`: the slots are not replaced before
the vault, nor a state file before the slots, nor one before those of lower addresses. -/
structure Between (cfg : ChangerConfig) (files : SharedFiles Label) (inv : Inventory Label)
    (F : SharedFiles Label) : Prop where
  present : F.slots.isSome = true ∧ F.ie.isSome = true
  slots : lineLabels F.slots = lineLabels files.slots ∨ SlotsWritten files inv F
  ie : lineLabels F.ie = lineLabels files.ie ∨ lineLabels F.ie = []
  vault : files.vaultLabels ⊆ F.vaultLabels
  states : ∃ bs rest, cfg.bindings = bs ++ rest ∧ (bs ≠ [] → SlotsWritten files inv F) ∧
    (∀ b ∈ bs, F.named b.2 = inv.drives.labelAt b.1) ∧ ∀ b ∈ rest, F.named b.2 = files.named b.2

theorem between_of_states (hpresent : F.slots.isSome = true ∧ F.ie.isSome = true)
    (hslots : lineLabels F.slots = lineLabels files.slots ∨ SlotsWritten files inv F)
    (hie : lineLabels F.ie = lineLabels files.ie ∨ lineLabels F.ie = [])
    (hvault : files.vaultLabels ⊆ F.vaultLabels) (hstates : F.states = files.states) :
    Between cfg files inv F := by
  refine ⟨hpresent, hslots, hie, hvault, [], cfg.bindings, rfl, fun h => absurd rfl h, ?_, ?_⟩
  · intro b hb
    cases hb
  · intro b _
    unfold SharedFiles.named SharedFiles.stateOf
    rw [hstates]

theorem between_writing_states (hsep : cfg.separated = true)
    (hbs : bs <+: cfg.bindings) (hpresent : F.slots.isSome = true ∧ F.ie.isSome = true)
    (hslots : SlotsWritten files inv F) (hie : lineLabels F.ie = [])
    (hstates : F.states = files.states) :
    Between cfg files inv (F.replaced (bs.map fun b => .state b.2 (inv.drives.labelAt b.1))) := by
  obtain ⟨rest, hrest⟩ := hbs
  -- each drive has its own file, so that one replacement is one binding
  have hkeys : ((bs ++ rest).map Prod.snd).Nodup := by
    rw [hrest]
    exact cfg.ownFiles hsep
  rw [map_append, nodup_append] at hkeys
  obtain ⟨hs, hi, hv⟩ := replaced_states bs (f := inv.drives.labelAt) F
  obtain ⟨hin, hout⟩ := named_replaced_states (f := inv.drives.labelAt) hkeys.1 F
  have hwritten : SlotsWritten files inv
      (F.replaced (bs.map fun b => .state b.2 (inv.drives.labelAt b.1))) := by
    refine ⟨?_, ?_⟩
    · rw [hs]
      exact hslots.slots
    · unfold SharedFiles.vaultLabels
      rw [hv]
      exact hslots.vault
  refine ⟨?_, .inr hwritten, .inr ?_, ?_, bs, rest, hrest.symm, fun _ => hwritten, hin, ?_⟩
  · rw [hs, hi]
    exact hpresent
  · rw [hi]
    exact hie
  · rw [hwritten.vault]
    exact subset_append_left _ _
  intro b hb
  have hkey : b.2 ∉ bs.map Prod.snd := fun hmem =>
    hkeys.2.2 b.2 hmem b.2 (mem_map_of_mem hb) rfl
  rw [hout b.2 hkey]
  unfold SharedFiles.named SharedFiles.stateOf
  rw [hstates]

end

/-- **Every prefix of the replacements** of a move. -/
theorem between_of_prefix (hsep : cfg.separated = true)
    (hpresent : files.slots.isSome = true ∧ files.ie.isSome = true)
    (hnd : (libraryLabels inv files).Nodup) (h : ws <+: (finishMove cfg files inv).writes) :
    Between cfg files inv (files.replaced ws) := by
  by_cases hports : inv.ports.labels = []
  · rw [finish_writes_of_empty hsep hports] at h
    have hwritten : ∀ {F : SharedFiles Label}, F.slots = some inv.slots.values →
        F.vault = files.vault → SlotsWritten files inv F := by
      intro F hs hv
      refine ⟨by rw [hs, lineLabels_values], ?_⟩
      unfold SharedFiles.vaultLabels
      rw [hv, hports, append_nil]
    have hie : lineLabels (some inv.ports.values) = [] := by rw [lineLabels_values, hports]
    -- slots, ports, then the state files: one case for each point to stop at
    rcases prefix_cons_iff.mp h with rfl | ⟨ws1, rfl, h1⟩
    · exact between_of_states hpresent (.inl rfl) (.inl rfl) (Subset.refl _) rfl
    rcases prefix_cons_iff.mp h1 with rfl | ⟨ws2, rfl, h2⟩
    · exact between_of_states ⟨rfl, hpresent.2⟩ (.inr (hwritten rfl rfl)) (.inl rfl)
        (Subset.refl _) rfl
    obtain ⟨bs, hbs, rfl⟩ := prefix_map_iff.mp h2
    exact between_writing_states
      (F := { files with slots := some inv.slots.values, ie := some inv.ports.values }) hsep hbs
      ⟨rfl, rfl⟩ (hwritten rfl rfl) hie rfl
  rw [finish_writes_of_full hsep hports] at h
  have hvault : ∀ {F : SharedFiles Label}, F.vault = some (files.vaultLabels ++ inv.ports.labels) →
      F.vaultLabels = files.vaultLabels ++ inv.ports.labels := by
    intro F hv
    unfold SharedFiles.vaultLabels
    rw [hv]
    rfl
  have hwritten : ∀ {F : SharedFiles Label}, F.slots = some inv.slots.values →
      F.vault = some (files.vaultLabels ++ inv.ports.labels) → SlotsWritten files inv F :=
    fun hs hv => ⟨by rw [hs, lineLabels_values], hvault hv⟩
  have hie : lineLabels (some (cleared inv).values) = [] := by
    rw [lineLabels_values]
    exact labels_mapCells_none _ _
  rw [foldl_exportLabel_ports hnd] at h
  -- the ports are cleared before the vault is written, the slots come behind both
  rcases prefix_cons_iff.mp h with rfl | ⟨ws1, rfl, h1⟩
  · exact between_of_states hpresent (.inl rfl) (.inl rfl) (Subset.refl _) rfl
  rcases prefix_cons_iff.mp h1 with rfl | ⟨ws2, rfl, h2⟩
  · exact between_of_states ⟨hpresent.1, rfl⟩ (.inl rfl) (.inr hie) (Subset.refl _) rfl
  rcases prefix_cons_iff.mp h2 with rfl | ⟨ws3, rfl, h3⟩
  · exact between_of_states ⟨hpresent.1, rfl⟩ (.inl rfl) (.inr hie) (subset_append_left _ _) rfl
  rcases prefix_cons_iff.mp h3 with rfl | ⟨ws4, rfl, h4⟩
  · exact between_of_states ⟨rfl, rfl⟩ (.inr (hwritten rfl rfl)) (.inr hie)
      (subset_append_left _ _) rfl
  obtain ⟨bs, hbs, rfl⟩ := prefix_map_iff.mp h4
  exact between_writing_states (F := ⟨some inv.slots.values, some (cleared inv).values,
      some (files.vaultLabels ++ inv.ports.labels), files.states⟩) hsep hbs ⟨rfl, rfl⟩
    (hwritten rfl rfl) hie rfl

/-! ## §5. A move that is made. -/

/-- A move that is made: where the medium is taken from and where it goes. -/
structure Made (inv : Inventory Label) (s d : Nat) (ks kd : Kind) (l : Label) : Prop where
  nodup : inv.labels.Nodup
  kindSource : kindAt inv s = some ks
  kindDest : kindAt inv d = some kd
  source : labelIn inv ks s = some l
  dest : labelIn inv kd d = none

section Made

omit [DecidableEq Label]

theorem made_of_elements (hnd : inv.labels.Nodup) (hs : elementAt inv s = some (some l))
    (hd : elementAt inv d = some none) : ∃ ks kd, Made inv s d ks kd l := by
  have hsome : elementAt inv s ≠ none ∧ elementAt inv d ≠ none := by
    rw [hs, hd]
    simp
  obtain ⟨ks, hks⟩ := kindAt_of_elementAt hsome.1
  obtain ⟨kd, hkd⟩ := kindAt_of_elementAt hsome.2
  rw [elementAt_of_kindAt hks] at hs
  rw [elementAt_of_kindAt hkd] at hd
  exact ⟨ks, kd, hnd, hks, hkd, Option.some.inj hs, Option.some.inj hd⟩

section

variable (h : Made inv s d ks kd l)
include h

theorem Made.at_dest : labelIn (moved inv s d l) kd d = some l := by
  rw [labelIn_moved h.kindSource h.kindDest, if_pos ⟨rfl, rfl⟩]

theorem Made.only_dest (hx : labelIn (moved inv s d l) k a = some l) : k = kd ∧ a = d := by
  rw [labelIn_moved h.kindSource h.kindDest] at hx
  split at hx
  · next heq => exact heq
  · split at hx
    · cases hx
    · next hne => exact absurd (place_unique h.nodup hx h.source) hne

theorem Made.others (hx : labelIn inv k a = some x)
    (hne : ¬ (k = ks ∧ a = s)) : labelIn (moved inv s d l) k a = some x := by
  rw [labelIn_moved h.kindSource h.kindDest, if_neg, if_neg hne]
  · exact hx
  · intro heq
    rw [heq.1, heq.2, h.dest] at hx
    cases hx

theorem Made.before (hx : labelIn (moved inv s d l) k a = some x)
    (hne : ¬ (k = kd ∧ a = d)) : labelIn inv k a = some x ∧ ¬ (k = ks ∧ a = s) := by
  simp_all [labelIn_moved, h.kindSource, h.kindDest]

/-- The medium that leaves an element is the one that is moved. -/
theorem Made.eq_source (hx : labelIn inv k a = some x) (heq : k = ks ∧ a = s) : x = l := by
  rw [heq.1, heq.2, h.source] at hx
  exact (Option.some.inj hx).symm

theorem Made.labels_perm : (moved inv s d l).labels.Perm inv.labels := by
  have hs : elementAt inv s = some (some l) := by rw [elementAt_of_kindAt h.kindSource, h.source]
  have hd : elementAt inv d = some none := by rw [elementAt_of_kindAt h.kindDest, h.dest]
  have hne : d ≠ s := by
    intro heq
    rw [heq, hs] at hd
    cases hd
  have hempty : elementAt (emptied inv s) d = some none := (elementAt_emptied_of_ne hne).trans hd
  exact (labels_placed hempty).trans (labels_emptied hs).symm

omit h in
/-- A drive has an address of the bindings. -/
theorem mem_driveAddrs_of_kindAt (h : kindAt inv a = some .drive) : a ∈ driveAddrs inv := by
  by_contra hnot
  have hnone : inv.drives.find a = none := Cell.find_eq_none_iff.mpr hnot
  cases found_of_kindAt h with
  | drive _ _ hd => simp [hnone] at hd

/-- **The label is recorded** where the medium is, once its file is written. -/
theorem Made.recorded_dest (hkd : kd ≠ .drive)
    (hw : SlotsWritten files (moved inv s d l) F) : l ∈ recordedLabels cfg F := by
  rw [mem_recordedLabels]
  have hin := mem_labelsIn_iff.mpr ⟨d, h.at_dest⟩
  cases kd with
  | slot =>
    left
    rw [hw.slots]
    exact hin
  | port =>
    right; right; right
    rw [hw.vault]
    exact mem_append_right _ hin
  | drive => exact absurd rfl hkd

end

/-- Of two drives the one with the lower address is written first. -/
theorem lower_first {rest : List (Nat × String)} (hsplit : cfg.bindings = bs ++ rest)
    {b b' : Nat × String} (hb : b ∈ bs) (hb' : b' ∈ cfg.bindings) (hlt : b'.1 < b.1) : b' ∈ bs := by
  rw [hsplit, mem_append] at hb'
  rcases hb' with hb' | hb'
  · exact hb'
  · have hsorted := cfg.sorted
    grind

end Made

omit [DecidableEq Label] in
/-- Every label is in a file between the replacements of a move in a safe order. -/
theorem recorded_between (hc : Consistent cfg files inv) (h : Made inv s d ks kd l)
    (hports : inv.ports.labels = []) (hsafe : kd ≠ .drive ∨ ks = .drive ∧ d < s)
    (hB : Between cfg files (moved inv s d l) F) :
    ∀ x ∈ recordedLabels cfg files, x ∈ recordedLabels cfg F := by
  intro x hx
  rw [mem_recordedLabels] at hx
  rcases hx with hx | hx | hx | hx
  · -- in a slot: it stays there, or its file is written after that of the destination
    rcases hB.slots with heq | hw
    · rw [mem_recordedLabels, heq]
      exact .inl hx
    obtain ⟨a, ha⟩ := mem_labelsIn_iff (k := .slot).mp (hc.slots_perm.mem_iff.mpr hx)
    by_cases hsrc : Kind.slot = ks ∧ a = s
    · rw [h.eq_source ha hsrc]
      refine h.recorded_dest ?_ hw
      grind
    · rw [mem_recordedLabels, hw.slots]
      exact .inl (mem_labelsIn_iff (k := .slot).mpr ⟨a, h.others ha hsrc⟩)
  · -- the ports are empty
    rw [← hc.ports_perm.mem_iff, hports] at hx
    cases hx
  · obtain ⟨b, hb, hx⟩ := hx
    obtain ⟨bs, rest, hsplit, hwritten, hin, hout⟩ := hB.states
    have ha : labelIn inv .drive b.1 = some x := (hc.drives.named hb).trans hx
    rw [hsplit, mem_append] at hb
    rcases hb with hbs | hrest
    swap
    · grind [mem_recordedLabels]
    have hw := hwritten (ne_nil_of_mem hbs)
    by_cases hsrc : Kind.drive = ks ∧ b.1 = s
    swap
    · rw [mem_recordedLabels]
      right; right; left
      refine ⟨b, by rw [hsplit]; exact mem_append_left _ hbs, ?_⟩
      rw [hin b hbs]
      exact h.others ha hsrc
    rw [h.eq_source ha hsrc]
    by_cases hkd : kd = .drive
    swap
    · exact h.recorded_dest hkd hw
    -- the drive it goes to has a lower address, its file is written already
    have hlt : d < s := by grind
    have hkind := h.kindDest
    rw [hkd] at hkind
    have haddr := mem_driveAddrs_of_kindAt hkind
    rw [hc.addrs] at haddr
    obtain ⟨b', hb', rfl⟩ := mem_map.mp haddr
    have hb'bs := lower_first hsplit hbs hb' (by rw [hsrc.2]; exact hlt)
    rw [mem_recordedLabels]
    right; right; left
    refine ⟨b', hb', ?_⟩
    rw [hin b' hb'bs]
    have hdest := h.at_dest
    rw [hkd] at hdest
    exact hdest
  · rw [mem_recordedLabels]
    exact .inr (.inr (.inr (hB.vault hx)))

/-- **A move in a safe order** survives a crash. -/
theorem survives_of_safe (vtl : Nat → Label) (hc : Consistent cfg files inv)
    (h : Made inv s d ks kd l) (hports : inv.ports.labels = [])
    (hsafe : kd ≠ .drive ∨ ks = .drive ∧ d < s) :
    SurvivesCrash cfg vtl files (finishMove cfg files (moved inv s d l)).writes := by
  intro ws hws
  obtain ⟨slots, hslots, _, _⟩ := hc.slots
  obtain ⟨ports, hie, _, _⟩ := hc.ports
  have hnd : (libraryLabels (moved inv s d l) files).Nodup :=
    (h.labels_perm.append_right _).nodup_iff.mpr hc.nodup
  have hB := between_of_prefix hc.separated ⟨by rw [hslots]; rfl, by rw [hie]; rfl⟩ hnd hws
  refine ⟨?_, ?_⟩
  · rw [filled_replaced, hc.filled]
    exact recorded_between hc h hports hsafe hB
  obtain ⟨slots', hslots'⟩ := Option.isSome_iff_exists.mp hB.present.1
  obtain ⟨ports', hports'⟩ := Option.isSome_iff_exists.mp hB.present.2
  refine restart_nodup vtl hslots' hports' ?_
  have hs : slots'.filterMap id = lineLabels (files.replaced ws).slots := by
    rw [hslots']
    rfl
  have hp : ports'.filterMap id = lineLabels (files.replaced ws).ie := by
    rw [hports']
    rfl
  -- no label is on a line of the ports
  have hpnil : lineLabels (files.replaced ws).ie = [] := by
    rcases hB.ie with heq | heq
    · rw [heq]
      have hperm := hc.ports_perm
      rw [hports] at hperm
      exact nil_perm.mp hperm
    · exact heq
  rw [hs, hp, hpnil, append_nil]
  rcases hB.slots with heq | hw
  · rw [heq]
    refine hc.slots_perm.nodup_iff.mp ?_
    exact (nodup_append.mp (nodup_append.mp h.nodup).1).1
  · rw [hw.slots]
    have hmoved := h.labels_perm.nodup_iff.mpr h.nodup
    exact (nodup_append.mp (nodup_append.mp hmoved).1).1

/-! ## §6. A move in another order. -/

section Unsafe

variable (vtl : Nat → Label)

section

variable (hc : Consistent cfg files inv)
include hc

omit [DecidableEq Label] in
theorem Consistent.recorded (ha : labelIn inv k a = some l) : l ∈ recordedLabels cfg files := by
  have hin : l ∈ labelsIn inv k := mem_labelsIn_iff.mpr ⟨a, ha⟩
  rw [mem_recordedLabels]
  cases k with
  | slot => exact .inl (hc.slots_perm.mem_iff.mp hin)
  | port => exact .inr (.inl (hc.ports_perm.mem_iff.mp hin))
  | drive =>
    obtain ⟨b, hb, _, hl⟩ := hc.binding ha
    exact .inr (.inr (.inl ⟨b, hb, hl⟩))

theorem not_survives (ws : List (FileWrite Label)) {writes : List (FileWrite Label)}
    (hws : ws <+: writes) (hl : l ∈ recordedLabels cfg files)
    (hslots : l ∉ lineLabels (files.replaced ws).slots)
    (hie : l ∉ lineLabels (files.replaced ws).ie)
    (hstates : ∀ b ∈ cfg.bindings, (files.replaced ws).named b.2 ≠ some l)
    (hvault : l ∉ (files.replaced ws).vaultLabels) : ¬ SurvivesCrash cfg vtl files writes := by
  intro h
  have hrec := (h ws hws).recorded l (by rw [hc.filled]; exact hl)
  rw [filled_replaced, hc.filled, mem_recordedLabels] at hrec
  rcases hrec with hin | hin | ⟨b, hb, hin⟩ | hin
  · exact hslots hin
  · exact hie hin
  · exact hstates b hb hin
  · exact hvault hin

/-- A port is full, and one is full after the move: its file is cleared before the vault is
written. -/
theorem unsafe_ports {after : Inventory Label}
    (hports : inv.ports.labels ≠ []) (hafter : after.ports.labels ≠ []) :
    ¬ SurvivesCrash cfg vtl files (finishMove cfg files after).writes := by
  obtain ⟨x, hx⟩ := exists_mem_of_ne_nil _ hports
  obtain ⟨a, ha⟩ := mem_labelsIn_iff (k := .port).mp hx
  obtain ⟨hs, _, hb, hv⟩ := hc.place ha
  rw [finish_writes_of_full hc.separated hafter]
  refine not_survives vtl hc [.ie (cleared after).values] (by simp) (hc.recorded ha) ?_ ?_ ?_ hv
  · intro hin
    cases hs.mp hin
  · show x ∉ lineLabels (some (cleared after).values)
    rw [lineLabels_values, cleared, labels_mapCells_none]
    exact not_mem_nil
  · intro b hbb hl
    cases ((hb b hbb).mp hl).1

omit hc in
omit [DecidableEq Label] in
theorem length_slots_set {impexp : Bool} {source : Option Nat} {label : Option Label} (a : Nat) :
    (setElement inv a label impexp source).slots.cells.length = inv.slots.cells.length := by
  unfold setElement
  split
  · exact length_map _
  · split
    · rfl
    · rfl

omit [DecidableEq Label] in
theorem Consistent.length_slots (s d : Nat) : (moved inv s d l).slots.values.length ≤ 65536 := by
  obtain ⟨values, _, _, hrow⟩ := hc.slots
  unfold Row.values moved emptied
  rw [length_map, length_slots_set, length_slots_set, hrow]
  exact length_loadElements

/-- The medium of a port goes to a slot: for a moment it is in both files. -/
theorem unsafe_port_to_slot (h : Made inv s d .port .slot l)
    (hafter : (moved inv s d l).ports.labels = []) :
    ¬ SurvivesCrash cfg vtl files (finishMove cfg files (moved inv s d l)).writes := by
  obtain ⟨ports, hie, hcounted, _⟩ := hc.ports
  obtain ⟨_, hp, hb, _⟩ := hc.place h.source
  rw [finish_writes_of_empty hc.separated hafter]
  intro hsurv
  have honce := (hsurv [.slots (moved inv s d l).slots.values] (by simp)).once
  have hslots : (files.replaced [.slots (moved inv s d l).slots.values]).slots =
      some (moved inv s d l).slots.values := rfl
  have hie' : (files.replaced [.slots (moved inv s d l).slots.values]).ie = some ports := hie
  refine restart_twice (l := l) vtl hslots hie' ?_ ?_ ?_ honce
  · rw [take_of_length_le (hc.length_slots s d)]
    have hin : l ∈ lineLabels (some (moved inv s d l).slots.values) := by
      rw [lineLabels_values]
      exact mem_labelsIn_iff (k := .slot).mpr ⟨d, h.at_dest⟩
    exact hin
  · have hin : l ∈ lineLabels files.ie := hp.mpr rfl
    have hrest : (ports.drop 65536).filterMap id = [] := hcounted
    grind [lineLabels, take_append_drop]
  · intro b hbb hl
    cases ((hb b hbb).mp hl).1

omit hc in
omit [DecidableEq Label] in
/-- A medium that went to a drive is on no line of the slots. -/
theorem Made.not_in_slots (h : Made inv s d ks .drive l) :
    l ∉ lineLabels (some (moved inv s d l).slots.values) := by
  rw [lineLabels_values]
  intro hin
  obtain ⟨a, ha⟩ := mem_labelsIn_iff (k := .slot).mp hin
  cases (h.only_dest ha).1

/-- The medium goes to a drive from a slot or a port: the file it leaves is written first. -/
theorem unsafe_to_drive (h : Made inv s d ks .drive l)
    (hks : ks ≠ .drive) (hafter : (moved inv s d l).ports.labels = []) :
    ¬ SurvivesCrash cfg vtl files (finishMove cfg files (moved inv s d l)).writes := by
  obtain ⟨_, _, hb, hv⟩ := hc.place h.source
  rw [finish_writes_of_empty hc.separated hafter]
  refine not_survives vtl hc [.slots (moved inv s d l).slots.values,
    .ie (moved inv s d l).ports.values] (by simp) (hc.recorded h.source) h.not_in_slots ?_ ?_ hv
  · show l ∉ lineLabels (some (moved inv s d l).ports.values)
    rw [lineLabels_values, hafter]
    exact not_mem_nil
  · intro b hbb hl
    exact hks ((hb b hbb).mp hl).1

/-- The medium goes to a drive with a higher address. -/
theorem unsafe_to_higher_drive (h : Made inv s d .drive .drive l)
    (hlt : s < d) (hafter : (moved inv s d l).ports.labels = []) :
    ¬ SurvivesCrash cfg vtl files (finishMove cfg files (moved inv s d l)).writes := by
  obtain ⟨_, _, hb, hv⟩ := hc.place h.source
  rw [finish_writes_of_empty hc.separated hafter]
  -- the process stops when the state file of the source is written
  obtain ⟨bs, hbs, hbsa, _⟩ := hc.binding h.source
  obtain ⟨pre, post, hsplit⟩ := append_of_mem hbs
  have hsorted := cfg.sorted
  have hkeys := cfg.ownFiles hc.separated
  have hsplit' : cfg.bindings = (pre ++ [bs]) ++ post := by
    rw [hsplit]
    simp
  rw [hsplit', map_append, pairwise_append] at hsorted
  rw [hsplit', map_append, nodup_append] at hkeys
  have hle : ∀ b ∈ pre ++ [bs], b.1 ≤ s := by
    intro b hbmem
    rw [mem_append, mem_singleton] at hbmem
    rcases hbmem with hbmem | rfl
    · grind
    · omega
  let F : SharedFiles Label :=
    { files with
      slots := some (moved inv s d l).slots.values
      ie := some (moved inv s d l).ports.values }
  obtain ⟨hfs, hfi, hfv⟩ := replaced_states (pre ++ [bs]) (f := (moved inv s d l).drives.labelAt) F
  obtain ⟨hin, hout⟩ := named_replaced_states (f := (moved inv s d l).drives.labelAt) hkeys.1 F
  refine not_survives vtl hc (.slots (moved inv s d l).slots.values ::
    .ie (moved inv s d l).ports.values :: (pre ++ [bs]).map fun b =>
      .state b.2 ((moved inv s d l).drives.labelAt b.1)) ?_ (hc.recorded h.source) ?_ ?_ ?_ ?_
  · unfold syncChangerMountToShared
    rw [hsplit']
    simp
  · show l ∉ lineLabels (F.replaced _).slots
    rw [hfs]
    exact h.not_in_slots
  · show l ∉ lineLabels (F.replaced _).ie
    grind [lineLabels_values]
  · intro b hbb hl
    rw [hsplit', mem_append] at hbb
    rcases hbb with hbb | hbb
    · -- written: the medium is in the drive with the higher address only
      have hlabel : labelIn (moved inv s d l) .drive b.1 = some l := (hin b hbb).symm.trans hl
      have := (h.only_dest hlabel).2
      have := hle b hbb
      omega
    -- not written yet: the medium was in the source only
    have hkey : b.2 ∉ (pre ++ [bs]).map Prod.snd := fun hmem =>
      hkeys.2.2 b.2 hmem b.2 (mem_map_of_mem hbb) rfl
    have hnamed : files.named b.2 = some l := (hout b.2 hkey).symm.trans hl
    grind [mem_map_of_mem]
  · show l ∉ (F.replaced _).vaultLabels
    unfold SharedFiles.vaultLabels
    rw [hfv]
    exact hv

end

end Unsafe

/-! ## §7. Every move. -/

/-- **A move that is made** survives a crash exactly if its files are replaced in a safe order. -/
theorem made_survives_iff (vtl : Nat → Label) (hc : Consistent cfg files inv)
    (h : Made inv s d ks kd l) (hsd : s ≠ d) :
    SurvivesCrash cfg vtl files (finishMove cfg files (moved inv s d l)).writes ↔
      inv.ports.labels = [] ∧ (kd ≠ .drive ∨ ks = .drive ∧ d < s) := by
  constructor
  swap
  · intro hsafe
    exact survives_of_safe vtl hc h hsafe.1 hsafe.2
  intro hsurv
  -- what is in a port after the move was there before, or is the medium that was moved
  have hafter : inv.ports.labels = [] → kd ≠ .port → (moved inv s d l).ports.labels = [] := by
    intro hports hkd
    rw [eq_nil_iff_forall_not_mem]
    intro x hx
    obtain ⟨a, ha⟩ := mem_labelsIn_iff (k := .port).mp hx
    have hbefore := (h.before ha fun heq => hkd heq.1.symm).1
    have hin : x ∈ inv.ports.labels := mem_labelsIn_iff (k := .port).mpr ⟨a, hbefore⟩
    rw [hports] at hin
    cases hin
  by_cases hports : inv.ports.labels = []
  · refine ⟨hports, ?_⟩
    by_contra hnot
    rw [not_or, not_ne_iff] at hnot
    obtain ⟨rfl, hks⟩ := hnot
    grind [unsafe_to_higher_drive, unsafe_to_drive]
  exfalso
  by_cases hempty : (moved inv s d l).ports.labels = []
  swap
  · exact unsafe_ports vtl hc hports hempty hsurv
  -- the only medium in the ports is the one that was moved
  obtain ⟨x, hx⟩ := exists_mem_of_ne_nil _ hports
  obtain ⟨a, ha⟩ := mem_labelsIn_iff (k := .port).mp hx
  have hks : Kind.port = ks := by
    by_contra hne
    have hin : x ∈ (moved inv s d l).ports.labels :=
      mem_labelsIn_iff (k := .port).mpr ⟨a, h.others ha fun heq => hne heq.1⟩
    rw [hempty] at hin
    cases hin
  subst hks
  cases kd with
  | slot => exact unsafe_port_to_slot vtl hc h hempty hsurv
  | port =>
    have hin : l ∈ (moved inv s d l).ports.labels :=
      mem_labelsIn_iff (k := .port).mpr ⟨d, h.at_dest⟩
    rw [hempty] at hin
    cases hin
  | drive => exact unsafe_to_drive vtl hc h (by decide) hempty hsurv

/-- **A crash during a MOVE MEDIUM** leaves every label in a file, and the changer shows none
twice, exactly if nothing is moved or the files are replaced in a safe order.  The files of the
slots and the ports may be missing before the move. -/
theorem move_survives_crash_iff (cfg : ChangerConfig) (vtl : Nat → Label)
    (files : SharedFiles Label) (inv : Inventory Label)
    (hc : Consistent cfg (files.filled vtl) inv) (cdb : Bytes) :
    SurvivesCrash cfg vtl files (moveMediumChanger cfg files inv cdb).writes ↔
      cdb.length < 8 ∨ SafeOrder inv (readBe16 cdb 4) (readBe16 cdb 6) := by
  -- from here on the files are there
  rw [← survivesCrash_filled, ← moveMediumChanger_filled vtl hc.separated]
  generalize files.filled vtl = files at hc ⊢
  have hnothing : SurvivesCrash cfg vtl files [] := by
    intro ws hws
    rw [prefix_nil.mp hws]
    obtain ⟨slots, hslots, _, _⟩ := hc.slots
    obtain ⟨ports, hports, _, _⟩ := hc.ports
    refine ⟨fun _ hl => hl, restart_nodup vtl hslots hports ?_⟩
    have hlines := (nodup_append.mp (nodup_append.mp hc.once).1).1
    rw [hslots, hports] at hlines
    exact hlines
  unfold moveMediumChanger
  by_cases hlen : cdb.length < 8
  · rw [if_pos hlen]
    exact iff_of_true hnothing (.inl hlen)
  rw [if_neg hlen]
  generalize readBe16 cdb 4 = s
  generalize readBe16 cdb 6 = d
  rw [or_iff_right hlen]
  have hnd := nodup_labels hc.nodup
  rcases moveBetween_cases cfg files hnd s d with ⟨hwrites, hwhy⟩ | ⟨hsd, hd, l, hl, heq⟩
  · rw [hwrites]
    refine iff_of_true hnothing ?_
    rcases hwhy with h | h | h
    · exact .inl h
    · exact .inr (.inl h)
    · exact .inr (.inr (.inl h))
  · obtain ⟨ks, kd, hmade⟩ := made_of_elements hnd hl hd
    have hfull : Full inv s := full_iff.mpr ⟨l, hl⟩
    rw [heq, made_survives_iff vtl hc hmade hsd]
    unfold SafeOrder
    simp [hsd, hfull, hd, hmade.kindDest, hmade.kindSource, and_or_left]

/-- What a changer that is started shows of some files. -/
def shownOf (files : SharedFiles Nat) : Inventory Nat :=
  syncChanger oneDrive files (defaultInventory id)

/-- The files of the first cartridge in a slot, with a port and a drive. -/
theorem consistent_oneCartridge : Consistent oneDrive oneCartridge (shownOf oneCartridge) where
  separated := rfl
  slots := ⟨[some 1, none], rfl, rfl, by decide⟩
  ports := ⟨[none], rfl, rfl, by decide⟩
  addrs := by decide
  drives := by unfold Matches; decide
  once := by decide

/-- No file yet: the changer has the elements it starts with. -/
theorem consistent_noFiles : Consistent oneDrive (noFiles.filled id) (shownOf noFiles) where
  separated := rfl
  slots := ⟨(defaultInventory id).slots.values, rfl, by unfold Counted; decide, by decide⟩
  ports := ⟨[none], rfl, rfl, by decide⟩
  addrs := by decide
  drives := by unfold Matches; decide
  once := by decide

/-- MOVE MEDIUM from the first slot to the second, and to the eleventh of a changer without
files. -/
theorem move_survives_crash_slots :
    SurvivesCrash oneDrive id oneCartridge
      (moveMediumChanger oneDrive oneCartridge (shownOf oneCartridge)
        [0xA5, 0, 0, 0, 0x04, 0x00, 0x04, 0x01, 0, 0, 0, 0]).writes ∧
    SurvivesCrash oneDrive id noFiles
      (moveMediumChanger oneDrive noFiles (shownOf noFiles)
        [0xA5, 0, 0, 0, 0x04, 0x00, 0x04, 0x0A, 0, 0, 0, 0]).writes :=
  ⟨(move_survives_crash_iff oneDrive id oneCartridge _ consistent_oneCartridge _).mpr
      (.inr (.inr (.inr (.inr (.inl (by decide)))))),
    (move_survives_crash_iff oneDrive id noFiles _ consistent_noFiles _).mpr
      (.inr (.inr (.inr (.inr (.inl (by decide))))))⟩

/-- MOVE MEDIUM from the slot to the drive. -/
def loadWrites : List (FileWrite Nat) :=
  (moveMediumChanger oneDrive oneCartridge (shownOf oneCartridge)
    [0xA5, 0, 0, 0, 0x04, 0x00, 0x01, 0x00, 0, 0, 0, 0]).writes

/-- **A cartridge taken from a slot to a drive**: when the slots' file is written, and nothing
else yet, no file names it. -/
theorem load_crash_loses_label : Consistent oneDrive oneCartridge (shownOf oneCartridge) ∧
    loadWrites = [.slots [none, none], .ie [none], .state "library__drive" (some 1)] ∧
    1 ∈ recordedLabels oneDrive oneCartridge ∧
    1 ∉ recordedLabels oneDrive (oneCartridge.replaced [.slots [none, none]]) ∧
    ¬ SurvivesCrash oneDrive id oneCartridge loadWrites := by
  have hwrites : loadWrites =
      [.slots [none, none], .ie [none], .state "library__drive" (some 1)] := by decide
  have hgone : 1 ∉ recordedLabels oneDrive (oneCartridge.replaced [.slots [none, none]]) := by
    decide
  refine ⟨consistent_oneCartridge, hwrites, by decide, hgone, ?_⟩
  intro h
  exact hgone ((h [.slots [none, none]] (by decide)).recorded 1 (by decide))

end Holo.Changer
