/-
Holo.Changer.Sync — the changer's inventory as the shared files give it.

Before each command the changer reads the slots and the ports from their files, and compares
what is in each drive with the drive's state file: a cartridge the file does not name goes back
to a slot, the one it names is taken from where it is.

Main results:
* `labels_loadElements`: the elements read from a file hold its labels;
* `matches_iff_mounted`: the drives match their files exactly if a label is in a drive when the
  drive's file names it.
-/
import Holo.Changer.Moves

namespace Holo.Changer

open Lib List

variable {Label : Type}

/-! ## §1. Elements from a file. -/

/-- The elements that the lines of a file stand for: at least one, and as many as a `u16` counts;
the addresses are `u16` too. -/
def loadElements {β : Type} (start : Nat) (tag : Option Label → β) (values : List (Option Label)) :
    Row Label β :=
  (range (min (max values.length 1) 65536)).foldl (fun row idx =>
    row.insert ((start + idx) % 65536) values[idx]?.join (tag values[idx]?.join)) Row.empty

section

variable (files : SharedFiles Label) (inv : Inventory Label)

def syncChangerSlotsFromShared : Inventory Label :=
  match files.slots with
  | none => inv
  | some slots => { inv with slots := loadElements 0x0400 (fun _ => ()) slots }

def syncChangerIeFromShared : Inventory Label :=
  match files.ie with
  | none => inv
  | some ports => { inv with ports := loadElements 0x0300 Option.isSome ports }

def syncChangerInventoryFromShared :
    Inventory Label := syncChangerIeFromShared files (syncChangerSlotsFromShared files inv)

end

def ensureChangerDriveTopology (cfg : ChangerConfig) (inv : Inventory Label) : Inventory Label where
  slots := inv.slots
  ports := inv.ports
  drives :=
    { cells := cfg.bindings.map fun b =>
        ⟨b.1, inv.drives.labelAt b.1, (inv.drives.find b.1).bind Cell.tag⟩
      sorted := by
        rw [map_map]
        exact cfg.sorted }

/-! ## §2. The drives. -/

variable [DecidableEq Label] {cfg : ChangerConfig} {files : SharedFiles Label}
  {inv : Inventory Label} {slots ports : List (Option Label)}

section

variable (cfg : ChangerConfig) (files : SharedFiles Label) (inv : Inventory Label)

section

variable (address : Nat) (label : Label)

/-- `remove_changer_medium_label`: where the medium was, and the inventory without it. -/
def removeChangerMediumLabel (targetDrive : Nat) : Option Nat × Inventory Label :=
  match inv.slots.cells.find? fun c => c.label = some label with
  | some c => (some c.addr, { inv with slots := inv.slots.put c.addr none () })
  | none =>
    match inv.ports.cells.find? fun c => c.label = some label with
    | some c => (some c.addr, { inv with ports := inv.ports.put c.addr none false })
    | none =>
      match inv.drives.cells.find? fun c => c.addr ≠ targetDrive ∧ c.label = some label with
      | some c => (c.tag, { inv with drives := inv.drives.put c.addr none none })
      | none => (none, inv)

/-- The first empty slot. -/
def emptySlot : Option Nat :=
  (inv.slots.cells.find? fun c => c.label.isNone).map Cell.addr

/-- `restore_changer_medium_label`: back to the slot it came from, or to the first empty one. -/
def restoreChangerMediumLabel (sourceSlot : Option Nat) : Inventory Label :=
  let own := sourceSlot.bind fun slot =>
    (inv.slots.find slot).bind fun c => if c.label.isNone then some slot else none
  match own.or (emptySlot inv) with
  | some slot => { inv with slots := inv.slots.put slot (some label) () }
  | none => inv

/-- A label put into a drive, from wherever it is. -/
def mountLabel : Inventory Label :=
  let removed := removeChangerMediumLabel inv label address
  { removed.2 with drives := removed.2.drives.insert address (some label) removed.1 }

/-- A drive made empty. -/
def clearDrive : Inventory Label :=
  { inv with drives := inv.drives.insert address none none }

end

/-- One drive of the loop of `sync_changer_mount_from_shared`. -/
def syncDriveElement (b : Nat × String) : Inventory Label :=
  match files.stateOf b.2 with
  | .unreadable => inv
  | .cartridge desired =>
    let current := inv.drives.labelAt b.1
    let source := (inv.drives.find b.1).bind Cell.tag
    if current = desired then inv
    else
      match desired, current with
      | some label, some old =>
        let inv := restoreChangerMediumLabel (removeChangerMediumLabel inv old b.1).2 old source
        mountLabel inv b.1 label
      | some label, none => mountLabel inv b.1 label
      | none, some old => clearDrive (restoreChangerMediumLabel inv old source) b.1
      | none, none => clearDrive inv b.1

def syncChangerMountFromShared : Inventory Label :=
  if !cfg.separated then inv else cfg.bindings.foldl (syncDriveElement files) inv

/-- What the changer does before each command. -/
def syncChanger : Inventory Label :=
  syncChangerMountFromShared cfg files
    (syncChangerInventoryFromShared files (ensureChangerDriveTopology cfg inv))

/-! ## §3. Agreement with the files. -/

/-- The labels on the lines of a file. -/
def lineLabels (file : Option (List (Option Label))) : List Label := (file.getD []).filterMap id

/-- The labels in the files of the slots, the ports and the drives. -/
def fileLabels : List Label :=
  lineLabels files.slots ++ lineLabels files.ie ++ cfg.bindings.filterMap fun b => files.named b.2

/-- Every label is on one of the lines that a `u16` counts. -/
def Counted (values : List (Option Label)) : Prop := (values.drop 65536).filterMap id = []

/-- The drives are those of the bindings, with what their files name. -/
def Matches : Prop :=
  inv.drives.cells.map (fun c => (c.addr, c.label)) =
    cfg.bindings.map fun b => (b.1, files.named b.2)

end

/-! ## §4. What is read from a file. -/

section Load

omit [DecidableEq Label]

variable {β : Type} {start : Nat} {tag : Option Label → β} {values : List (Option Label)}

/-- The first `n` elements of a file. -/
def loadUpTo (start : Nat) (tag : Option Label → β) (values : List (Option Label)) (n : Nat) :
    Row Label β :=
  (range n).foldl (fun row idx =>
    row.insert ((start + idx) % 65536) values[idx]?.join (tag values[idx]?.join)) Row.empty

theorem loadUpTo_succ (n : Nat) : loadUpTo start tag values (n + 1) =
    (loadUpTo start tag values n).insert ((start + n) % 65536) values[n]?.join
      (tag values[n]?.join) := by
  unfold loadUpTo
  rw [range_succ, foldl_append]
  rfl

theorem find_loadUpTo {n m : Nat} (hnm : n ≤ m) (hm : m < 65536) :
    (loadUpTo start tag values n).find ((start + m) % 65536) = none := by
  induction n with
  | zero => rfl
  | succ n ih =>
    grind [loadUpTo_succ, Row.find_insert_of_ne]

theorem labels_loadUpTo {n : Nat} (hn : n ≤ 65536) :
    (loadUpTo start tag values n).labels.Perm ((values.take n).filterMap id) := by
  induction n with
  | zero => exact Perm.nil
  | succ n ih =>
    rw [loadUpTo_succ]
    refine (Row.labels_insert (find_loadUpTo (le_refl n) (by omega))).trans ?_
    -- the line that was read is the last of those taken
    have hlast : (values.take (n + 1)).filterMap id =
        (values.take n).filterMap id ++ (values[n]?.join).toList := by
      rw [take_add_one, filterMap_append]
      cases hv : values[n]? with
      | none => rfl
      | some v => cases v <;> rfl
    rw [hlast]
    exact ((ih (by omega)).append_left _).trans perm_append_comm

theorem length_loadUpTo (n : Nat) : (loadUpTo start tag values n).cells.length ≤ n := by
  induction n with
  | zero => exact le_refl 0
  | succ n ih =>
    rw [loadUpTo_succ]
    exact le_trans Cell.length_insert (Nat.succ_le_succ ih)

/-- There are as many elements as a `u16` counts. -/
theorem length_loadElements : (loadElements start tag values).cells.length ≤ 65536 :=
  le_trans (length_loadUpTo _) (Nat.min_le_right _ _)

/-- **The elements read from a file** hold its labels, as far as a `u16` counts. -/
theorem labels_loadElements :
    (loadElements start tag values).labels.Perm ((values.take 65536).filterMap id) := by
  have hperm : (loadElements start tag values).labels.Perm
      ((values.take (min (max values.length 1) 65536)).filterMap id) :=
    labels_loadUpTo (Nat.min_le_right _ _)
  grind [take_of_length_le]

theorem labels_loadElements_of_counted (h : Counted values) :
    (loadElements start tag values).labels.Perm (values.filterMap id) := by
  refine labels_loadElements.trans (.of_eq ?_)
  conv_rhs => rw [← take_append_drop 65536 values, filterMap_append, h, append_nil]

end Load

/-! ## §5. The addresses of the drives. -/

variable {a : Nat} {bs : List (Nat × String)} {b : Nat × String}

section Drives

variable {label : Label} {target : Nat} {source : Option Nat}

/-- The addresses of the drives. -/
def driveAddrs (inv : Inventory Label) : List Nat := inv.drives.cells.map Cell.addr

theorem driveAddrs_remove : driveAddrs (removeChangerMediumLabel inv label target).2 =
    driveAddrs inv := by
  unfold removeChangerMediumLabel driveAddrs
  split
  · rfl
  split
  · rfl
  · split
    · exact Cell.addrs_put
    · rfl

omit [DecidableEq Label] in
theorem addrs_insert {r : Row Label (Option Nat)} {l : Option Label}
    (h : a ∈ r.cells.map Cell.addr) :
    (r.insert a l source).cells.map Cell.addr = r.cells.map Cell.addr := by
  have hfind : r.find a ≠ none := fun hnone => Cell.find_eq_none_iff.mp hnone h
  rw [Row.insert_eq_put hfind]
  exact Cell.addrs_put

theorem driveAddrs_mountLabel (h : a ∈ driveAddrs inv) :
    driveAddrs (mountLabel inv a label) = driveAddrs inv := by
  have haddrs : driveAddrs (removeChangerMediumLabel inv label a).2 = driveAddrs inv :=
    driveAddrs_remove
  rw [← haddrs] at h
  exact (addrs_insert h).trans haddrs

omit [DecidableEq Label] in
theorem driveAddrs_topology : driveAddrs (ensureChangerDriveTopology cfg inv) =
    cfg.bindings.map Prod.fst := by
  unfold driveAddrs ensureChangerDriveTopology
  rw [map_map]
  rfl

section

omit [DecidableEq Label]

/-! ## §6. Drives with what their files name. -/

theorem Matches.named (h : Matches cfg files inv) (hb : b ∈ cfg.bindings) :
    inv.drives.labelAt b.1 = files.named b.2 := by
  have hmem : (b.1, files.named b.2) ∈ inv.drives.cells.map fun c => (c.addr, c.label) := by
    rw [h]
    exact mem_map_of_mem (f := fun b => (b.1, files.named b.2)) hb
  grind [Row.labelAt_of_mem]

/-- The drives match their files if each of them does. -/
theorem matches_of_label (haddrs : driveAddrs inv = cfg.bindings.map Prod.fst)
    (h : ∀ b ∈ cfg.bindings, inv.drives.labelAt b.1 = files.named b.2) : Matches cfg files inv := by
  let entryAt (a : Nat) : Nat × Option Label := (a, inv.drives.labelAt a)
  calc inv.drives.cells.map (fun c => (c.addr, c.label))
      = (inv.drives.cells.map Cell.addr).map entryAt := by
        grind [map_congr_left, Row.labelAt_of_mem]
    _ = (cfg.bindings.map Prod.fst).map entryAt := by
        rw [← haddrs]
        rfl
    _ = cfg.bindings.map fun b => (b.1, files.named b.2) := by
        grind [map_congr_left]

end

theorem key_unique {cfg : ChangerConfig} {b b' : Nat × String} (hb : b ∈ cfg.bindings)
    (hb' : b' ∈ cfg.bindings) (h : b.1 = b'.1) : b = b' := by
  have hnodup : (cfg.bindings.map Prod.fst).Nodup := cfg.sorted.imp fun h => ne_of_lt h
  exact inj_on_of_nodup_map hnodup hb hb' h

omit [DecidableEq Label] in
/-- **The drives match their files** exactly if a label is in a drive when its file names it. -/
theorem matches_iff_mounted (haddrs : driveAddrs inv = cfg.bindings.map Prod.fst) :
    Matches cfg files inv ↔ ∀ addr l, inv.drives.labelAt addr = some l ↔
      ∃ key, (addr, key) ∈ cfg.bindings ∧ files.named key = some l := by
  constructor
  · intro h addr l
    constructor
    swap
    · intro hkey
      obtain ⟨key, hb, hl⟩ := hkey
      exact (h.named hb).trans hl
    intro hl
    have hmem : addr ∈ cfg.bindings.map Prod.fst := by
      rw [← haddrs]
      by_contra hnone
      simp [Row.labelAt, Row.find, Cell.find_eq_none_iff.mpr hnone] at hl
    obtain ⟨b, hb, hba⟩ := mem_map.mp hmem
    refine ⟨b.2, by rw [← hba]; exact hb, ?_⟩
    rw [← h.named hb, hba]
    exact hl
  · intro h
    refine matches_of_label haddrs fun b hb => ?_
    refine Option.ext fun l => ?_
    rw [h]
    constructor
    · intro hkey
      obtain ⟨key, hb', hl⟩ := hkey
      rw [← key_unique hb' hb rfl]
      exact hl
    · intro hl
      exact ⟨b.2, hb, hl⟩

end Drives

/-! ## §7. When the inventory agrees with the files. -/

section

omit [DecidableEq Label]

theorem loaded_eq (hslots : files.slots = some slots) (hports : files.ie = some ports) :
    syncChangerInventoryFromShared files inv =
      ⟨loadElements 0x0400 (fun _ => ()) slots, loadElements 0x0300 Option.isSome ports,
        inv.drives⟩ := by
  unfold syncChangerInventoryFromShared syncChangerIeFromShared syncChangerSlotsFromShared
  rw [hslots, hports]

theorem Matches.labels (h : Matches cfg files inv) :
    inv.drives.labels = cfg.bindings.filterMap fun b => files.named b.2 := by
  have hsnd := congrArg (List.filterMap Prod.snd) h
  rw [filterMap_map, filterMap_map] at hsnd
  exact hsnd

end

/-! ## §8. Drives without a cartridge of the past. -/

omit [DecidableEq Label] in
theorem labelAt_topology (hb : b ∈ cfg.bindings) :
    (ensureChangerDriveTopology cfg inv).drives.labelAt b.1 = inv.drives.labelAt b.1 := by
  let cell : Cell Label (Option Nat) :=
    ⟨b.1, inv.drives.labelAt b.1, (inv.drives.find b.1).bind Cell.tag⟩
  have hmem : cell ∈ (ensureChangerDriveTopology cfg inv).drives.cells :=
    mem_map.mpr ⟨b, hb, rfl⟩
  exact Row.labelAt_of_mem hmem

/-- A slot with the first cartridge, an empty slot, an empty port and an empty drive. -/
def oneCartridge : SharedFiles Nat where
  slots := some [some 1, none]
  ie := some [none]
  vault := none
  states := [("library__drive", .cartridge none)]

end Holo.Changer
