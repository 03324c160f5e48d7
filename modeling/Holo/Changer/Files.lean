/-
Holo.Changer.Files — the files a changer shares with its drives and the control plane.

The slots, the import/export ports and the vault have one file each, every drive has a state
file that names its cartridge.  A file is replaced as a whole, by a rename.  The changer reads
them before each command and writes what a command changed.
-/
import Holo.Changer.Inventory
import Holo.Lib.Assoc

namespace Holo.Changer

open Lib List

/-- What a drive's state file says. -/
inductive StateFile (Label : Type) where
  /-- It cannot be read. -/
  | unreadable
  /-- It names the cartridge in the drive, or none; so does a file that is missing. -/
  | cartridge (label : Option Label)
  deriving Repr, DecidableEq

/-- The files of a changer; `none` is one that is missing. -/
structure SharedFiles (Label : Type) where
  slots : Option (List (Option Label))
  ie : Option (List (Option Label))
  vault : Option (List Label)
  /-- The state files of the drives, by their keys. -/
  states : List (String × StateFile Label)
  deriving Repr, DecidableEq

/-- How a changer is set up. -/
structure ChangerConfig where
  /-- The media state key has the separator: it names a library and a drive. -/
  separated : Bool
  /-- `changer_drive_state_bindings`: the address of each drive and the key of its file. -/
  bindings : List (Nat × String)
  /-- There is a drive. -/
  nonempty : bindings ≠ []
  /-- The drives have consecutive addresses. -/
  sorted : (bindings.map Prod.fst).Pairwise (· < ·)
  /-- With the separator in the key each drive has its own file. -/
  ownFiles : separated = true → (bindings.map Prod.snd).Nodup

/-- A file replaced. -/
inductive FileWrite (Label : Type) where
  | slots (values : List (Option Label))
  | ie (values : List (Option Label))
  | vault (labels : List Label)
  | state (key : String) (label : Option Label)
  deriving Repr, DecidableEq

variable {Label : Type}

section

variable (cfg : ChangerConfig) (files : SharedFiles Label) (inv : Inventory Label)

/-- The labels in the vault, as `read_shared_changer_vault` finds them. -/
def SharedFiles.vaultLabels : List Label := files.vault.getD []

/-- `read_shared_loaded_cartridge_fresh`. -/
def SharedFiles.stateOf (key : String) : StateFile Label :=
  (files.states.lookup key).getD (.cartridge none)

/-- The cartridge a state file names. -/
def SharedFiles.named (key : String) : Option Label :=
  match files.stateOf key with
  | .unreadable => none
  | .cartridge label => label

/-- The files after one was replaced. -/
def FileWrite.apply : FileWrite Label → SharedFiles Label
  | .slots values => { files with slots := some values }
  | .ie values => { files with ie := some values }
  | .vault labels => { files with vault := some labels }
  | .state key label => { files with states := setEntry files.states key (.cartridge label) }

/-- The files after some were replaced, in order. -/
def SharedFiles.replaced (writes : List (FileWrite Label)) :
    SharedFiles Label := writes.foldl FileWrite.apply files

def sharedChangerInventoryEnabled : Bool :=
  cfg.separated || files.slots.isSome || files.ie.isSome || files.vault.isSome

def syncChangerInventoryToShared : List (FileWrite Label) :=
  if !cfg.separated && files.slots.isNone && files.ie.isNone then []
  else [.slots inv.slots.values, .ie inv.ports.values]

def syncChangerMountToShared : List (FileWrite Label) :=
  cfg.bindings.map fun b => .state b.2 (inv.drives.labelAt b.1)

end

theorem replaced_append (files : SharedFiles Label) (ws ws' : List (FileWrite Label)) :
    files.replaced (ws ++ ws') = (files.replaced ws).replaced ws' := foldl_append

theorem vault_replaced {ws : List (FileWrite Label)} (h : ∀ w ∈ ws, ∀ labels, w ≠ .vault labels)
    (files : SharedFiles Label) : (files.replaced ws).vault = files.vault := by
  induction ws generalizing files with
  | nil => rfl
  | cons w ws ih =>
    have hrest := ih (fun v hv => h v (mem_cons_of_mem w hv)) (w.apply files)
    unfold SharedFiles.replaced at hrest ⊢
    rw [foldl_cons, hrest]
    cases w with
    | vault labels => exact absurd rfl (h _ mem_cons_self labels)
    | slots | ie | state => rfl

end Holo.Changer
