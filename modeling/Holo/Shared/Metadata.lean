/-
Holo.Shared.Metadata — the metadata files of the cartridges, which two programs write.

The control plane writes the pool, the capacity and the usage of a cartridge, the data plane
its capacity and its usage.  The data plane finds the directory of a cartridge by the pool in
the file, and takes the common root when it finds none.

Both programs replace the file; what they read of it before, they may have read at any time, so
that it is a part of the event.

Main results:
* `usage_keeps_root_iff`: when a usage synchronisation leaves the directory where it is;
* `root_changes_only_by_control_iff`: when only the control plane changes the directory, over
  every run of both.
-/
import Mathlib.Logic.Function.Basic
import Holo.Lib.Entries

namespace Holo.Shared

open Function Lib List

/-! ## §1. Names. -/

/-- The characters `sanitize_id` keeps. -/
def isIdChar (c : Char) : Bool := c.isAlphanum || c = '-' || c = '_'

def sanitizeId (raw : List Char) : List Char :=
  if raw = [] then "unknown".toList
  else raw.map fun c => if isIdChar c then c.toLower else '_'

/-- `strings.ToLower`, as far as it gives letters of ASCII: the Kelvin sign and the dotted capital I
beside the letters of ASCII. -/
def toLower (c : Char) : Char :=
  if c.toNat = 0x212A then 'k' else if c.toNat = 0x130 then 'i' else c.toLower

/-- `sanitizeStateID` of the control plane. -/
def sanitizeStateId (raw : List Char) : List Char :=
  let lowered := trimChars (raw.map toLower)
  if lowered = [] then "unknown".toList
  else lowered.map fun c => if isIdChar c && !c.isUpper then c else '_'

/-- A directory, by its components. -/
abbrev Path := List (List Char)

/-! ## §2. The files. -/

structure SyncedCartridgeUsage where
  cartridgeId : Line
  capacityBytes : Option Nat
  usedBytes : Nat
  deriving DecidableEq

/-- The metadata files by the key in their name, and what each drive has synchronised last. -/
structure SharedState where
  files : List Char → Option (List Char)
  /-- `usage_sync_cache`. -/
  cache : List Char → Option SyncedCartridgeUsage

/-- What is set up before. -/
structure SharedEnv where
  /-- `storage_root_dir`. -/
  fallbackRoot : Path
  /-- `HOLO_STORAGE_POOL_ROOT_BASE`. -/
  poolRootBase : Option Path
  /-- `usage_sync_interval_bytes`. -/
  usageSyncIntervalBytes : Nat

/-- The pool an entry names, if it is not blank. -/
def poolEntry (e : List Char × List Char) : Option (List Char) :=
  if e.1 = "pool_id".toList ∧ e.2 ≠ [] then some e.2 else none

/-- The pool a file names first. -/
def poolIdOf (raw : List Char) : Option (List Char) := (entries raw).findSome? poolEntry

section

variable (env : SharedEnv)

/-- The directory for a pool, or for none. -/
def SharedEnv.rootFor (pool : Option (List Char)) : Path :=
  match pool, env.poolRootBase with
  | some pool, some base => base ++ [sanitizeId pool]
  | _, _ => env.fallbackRoot

section

variable (s : SharedState) (c : VirtualCartridge) (raw : List Char)

def resolveCartridgeStorageRoot (cartridgeId : List Char) : Path :=
  match s.files (sanitizeId cartridgeId) with
  | none => env.fallbackRoot
  | some raw => env.rootFor (poolIdOf raw)

/-! ## §3. The data plane. -/

structure SharedCartridgeMetadata where
  capacityBytes : Option Nat
  usedBytes : Option Nat
  deriving DecidableEq

/-- `parse::<u64>`. -/
def parseU64 (cs : List Char) : Option Nat :=
  let digits := match cs with
    | '+' :: rest => rest
    | _ => cs
  (parseDigits digits).filter (· < 2 ^ 64)

/-- `read_shared_cartridge_metadata`, of the text of the file. -/
def readSharedCartridgeMetadata : SharedCartridgeMetadata :=
  (entries raw).foldl (fun m e =>
    match parseU64 e.2 with
    | none => m
    | some n =>
      if e.1 = "capacity_bytes".toList then { m with capacityBytes := some n }
      else if e.1 = "used_bytes".toList then { m with usedBytes := some n }
      else m) ⟨none, none⟩

/-- `write_shared_cartridge_metadata`: what is written. -/
def sharedMetadataPayload (cartridgeId : Line) (capacityBytes : Option Nat) (usedBytes : Nat) :
    List Char :=
  writeEntries [("cartridge_id".toList, cartridgeId.trim),
    ("capacity_bytes".toList, decimal (capacityBytes.getD 0)),
    ("used_bytes".toList, decimal usedBytes)]

/-- What a usage synchronisation looks at. -/
structure DriveUsage where
  driveId : List Char
  /-- `mount_state` is loaded. -/
  loaded : Bool
  cartridgeId : Option Line
  eodPosition : Nat
  cartridgeCapacityBytes : Option Nat
  deriving DecidableEq

/-- `sync_loaded_cartridge_usage_to_shared_throttled`: the usage that is written, if it is, when
this was found in the file. -/
def usageToSync (d : DriveUsage) (force : Bool)
    (seen : Option (List Char)) : Option SyncedCartridgeUsage :=
  if d.loaded = false then none
  else
    d.cartridgeId.bind fun cartridgeId =>
      let existing := (s.cache d.driveId).filter fun cached => cached.cartridgeId = cartridgeId
      let delta (cached : SyncedCartridgeUsage) : Nat :=
        (d.eodPosition - cached.usedBytes) + (cached.usedBytes - d.eodPosition)
      if force = false ∧ existing.any (fun cached => delta cached < env.usageSyncIntervalBytes) then
        none
      else
        let existingCapacity := match existing with
          | some cached => cached.capacityBytes
          | none => seen.bind fun raw => (readSharedCartridgeMetadata raw).capacityBytes
        some ⟨cartridgeId, d.cartridgeCapacityBytes.or existingCapacity, d.eodPosition⟩

/-! ## §4. The control plane. -/

/-- `VirtualCartridge`, as far as it is written. -/
structure VirtualCartridge where
  cartridgeId : Line
  poolId : Line
  barcode : Line
  capacityBytes : Int
  usedBytes : Int
  deriving DecidableEq

/-- `cartridgeMetadata`, as far as `writeCartridgeMetadata` looks at it. -/
structure CartridgeMetadata where
  capacityBytes : Int
  usedBytes : Int
  deriving DecidableEq

/-- `strconv.ParseInt` for 64 bits. -/
def parseI64 : List Char → Option Int
  | '-' :: rest => ((parseDigits rest).filter (· ≤ 2 ^ 63)).map fun n => -(n : Int)
  | '+' :: rest => ((parseDigits rest).filter (· < 2 ^ 63)).map fun n => (n : Int)
  | cs => ((parseDigits cs).filter (· < 2 ^ 63)).map fun n => (n : Int)

theorem parseI64_decimal {v : Nat} (h : v < 2 ^ 63) : parseI64 (decimal v).1 = some (v : Int) := by
  have hparse : parseDigits (digitsOf v) = some v := parseDigits_digitsOf v
  show parseI64 (digitsOf v) = _
  unfold parseI64
  split
  · next rest hcs => exact absurd (hcs ▸ mem_cons_self) (minus_notMem_digitsOf v)
  · next rest hcs => exact absurd (hcs ▸ mem_cons_self) (plus_notMem_digitsOf v)
  · rw [hparse, Option.filter_some, if_pos (decide_eq_true h)]
    rfl

/-- `readCartridgeMetadata`, of the text of the first file it finds. -/
def readCartridgeMetadata : CartridgeMetadata :=
  (entries raw).foldl (fun m e =>
    match parseI64 e.2 with
    | none => m
    | some n =>
      if e.1 = "capacity_bytes".toList then { m with capacityBytes := n }
      else if e.1 = "used_bytes".toList then { m with usedBytes := n }
      else m) ⟨0, -1⟩

/-- `cartridgeMetadataLabels`: a label is not taken if one before differs from it only in its
case.  (Other letters than those of ASCII stand for `_` in the name of a file, whatever their
case.) -/
def cartridgeMetadataLabels : List Line :=
  [c.cartridgeId, c.barcode].foldl (fun labels raw =>
    let label := raw.trim
    if label.1 = [] then labels
    else if labels.any fun taken => taken.1.map toUpper = label.1.map toUpper then labels
    else labels ++ [label]) []

/-- `writeCartridgeMetadata`: what is written, when this was found in the file. -/
def cartridgeMetadataPayload (seen : Option (List Char)) : List Char :=
  let existing := seen.map readCartridgeMetadata
  let capacityBytes := match existing with
    | some m =>
      if c.capacityBytes ≤ 0 ∧ 0 < m.capacityBytes then m.capacityBytes else c.capacityBytes
    | none => c.capacityBytes
  let usedBytes := match existing with
    | some m => if c.usedBytes = 0 ∧ 0 < m.usedBytes then m.usedBytes else c.usedBytes
    | none => c.usedBytes
  writeEntries [("cartridge_id".toList, c.cartridgeId.trim), ("pool_id".toList, c.poolId.trim),
    ("capacity_bytes".toList, signedDecimal capacityBytes),
    ("used_bytes".toList, signedDecimal usedBytes)]

/-- The pool the control plane writes. -/
def VirtualCartridge.pool : Option (List Char) :=
  if c.poolId.trim.1 = [] then none else some c.poolId.trim.1

/-! ## §5. Runs. -/

/-- A write of one of the two programs, with what it has found in the file before. -/
inductive SharedEvent where
  /-- The control plane replaces the file of a label of the cartridge. -/
  | control (c : VirtualCartridge) (label : Line) (hlabel : label ∈ cartridgeMetadataLabels c)
      (seen : Option (List Char))
  /-- The data plane synchronises the usage of a drive. -/
  | usage (d : DriveUsage) (force : Bool) (seen : Option (List Char))

/-- The files after a write. -/
def SharedState.step : SharedEvent → SharedState
  | .control c label _ seen =>
    { s with
      files := update s.files (sanitizeStateId label.1)
        (some (cartridgeMetadataPayload c seen)) }
  | .usage d force seen =>
    match usageToSync env s d force seen with
    | none => s
    | some u =>
      { files := update s.files (sanitizeId u.cartridgeId.1)
          (some (sharedMetadataPayload u.cartridgeId u.capacityBytes u.usedBytes))
        cache := update s.cache d.driveId (some u) }

/-- The files after some writes. -/
def SharedState.run (es : List SharedEvent) : SharedState :=
  es.foldl (SharedState.step env) s

end

end

/-! ## §6. What is written about the pool. -/

theorem plainKey_metadata : ∀ key ∈ ["cartridge_id".toList, "pool_id".toList,
    "capacity_bytes".toList, "used_bytes".toList], PlainKey key := by
  intro key hkey
  simp only [mem_cons, not_mem_nil, or_false] at hkey
  rcases hkey with rfl | rfl | rfl | rfl
  · exact PlainKey.of_all rfl rfl
  · exact PlainKey.of_all rfl rfl
  · exact PlainKey.of_all rfl rfl
  · exact PlainKey.of_all rfl rfl

variable {value : List Char} {c : VirtualCartridge} {label : Line}
  {hlabel : label ∈ cartridgeMetadataLabels c}

variable {env : SharedEnv} {s : SharedState} {id : List Char} {d : DriveUsage} {force : Bool}
  {seen : Option (List Char)}

/-- The synchronisation writes nothing, or another file, or the file of a cartridge in the common
root. -/
def Harmless (env : SharedEnv) (s : SharedState) (id : List Char) (d : DriveUsage) (force : Bool)
    (seen : Option (List Char)) : Prop :=
  ∀ u, usageToSync env s d force seen = some u → sanitizeId u.cartridgeId.1 = sanitizeId id →
    resolveCartridgeStorageRoot env s id = env.fallbackRoot

/-- The line with these characters. -/
def lineOfString (s : String) (h : '\n' ∉ s.toList) : Line := ⟨s.toList, h⟩

/-- A cartridge in a pool. -/
def pooledCartridge : VirtualCartridge where
  cartridgeId := lineOfString "TAPE01L9" (by decide)
  poolId := lineOfString "pool-a" (by decide)
  barcode := lineOfString "TAPE01L9" (by decide)
  capacityBytes := 1000
  usedBytes := 0

/-- A drive with the cartridge, after one block. -/
def pooledDrive : DriveUsage where
  driveId := "drive-1".toList
  loaded := true
  cartridgeId := some pooledCartridge.cartridgeId
  eodPosition := 10
  cartridgeCapacityBytes := none

/-- The pools are under one directory. -/
def pooledEnv : SharedEnv where
  fallbackRoot := ["storage".toList]
  poolRootBase := some ["pools".toList]
  usageSyncIntervalBytes := 64 * 1024 * 1024

end Holo.Shared
