/-
Holo.Storage.Metadata — errors, machine-integer arithmetic, budgets and the checkpoint page.

The storage code works on `u64`/`u32` values with explicit SATURATING and CHECKED
operations; they are kept here as operations on `Nat`.  The checkpoint page is the
one file that says whether the layout is `Clean` or needs recovery (`Dirty`).

Main result: `preflightMaintenanceMetadata_ok_iff`, what the size preflight accepts.
-/
import Holo.Lib.Bytes

namespace Holo.Storage

open Lib

/-! ## §1. Errors. -/

/-- `StorageError`.  The text of an I/O error and the payloads that only feed a log line
are not carried. -/
inductive StorageError where
  | io
  | spaceExhausted
  | corrupt (msg : String)
  | versionMismatch (expected got : Nat)
  | notFound (msg : String)
  | conflict (msg : String)
  | metadataBudgetExceeded
  | cancelled
  | internal (msg : String)
  deriving Repr, DecidableEq

/-! ## §2. Saturating and checked machine arithmetic. -/

/-- `u64::MAX`. -/
def u64Max : Nat := 2 ^ 64 - 1

/-- `u32::MAX`. -/
def u32Max : Nat := 2 ^ 32 - 1

/-- `u64::saturating_add`. -/
def satAdd64 (a b : Nat) : Nat := min (a + b) u64Max

/-- `u32::saturating_add`. -/
def satAdd32 (a b : Nat) : Nat := min (a + b) u32Max

/-- `u64::checked_add`. -/
def checkedAdd64 (a b : Nat) : Option Nat := if a + b ≤ u64Max then some (a + b) else none

/-- `u32::checked_add`. -/
def checkedAdd32 (a b : Nat) : Option Nat := if a + b ≤ u32Max then some (a + b) else none

theorem satAdd64_eq {a b : Nat} (h : a + b ≤ u64Max) : satAdd64 a b = a + b := Nat.min_eq_left h

theorem satAdd64_le (a b : Nat) : satAdd64 a b ≤ u64Max := Nat.min_le_right _ _

theorem checkedAdd64_eq_some {a b c : Nat} (h : checkedAdd64 a b = some c) :
    c = a + b ∧ a + b ≤ u64Max := by
  grind [checkedAdd64]

/-! ## §3. The metadata budgets. -/

/-- `MAX_MAINTENANCE_METADATA_BYTES`: 8 MiB. -/
def maxMaintenanceMetadataBytes : Nat := 8 * 1024 * 1024

def maxMaintenanceMetadataRecords : Nat := 65536

/-- `MAX_LIVE_METADATA_ESTIMATE_BYTES`: 64 MiB. -/
def maxLiveMetadataEstimateBytes : Nat := 64 * 1024 * 1024

def checkedMetadataRecordCount (count : Nat) : Except StorageError Nat :=
  if count > maxMaintenanceMetadataRecords then .error .metadataBudgetExceeded else .ok count

/-- The loop of `preflight_maintenance_metadata`: every existing file within the per-file
bound, sizes summed. -/
def preflightSizes : List (Option Nat) → Nat → Except StorageError Nat
  | [], total => .ok total
  | none :: rest, total => preflightSizes rest total
  | some len :: rest, total =>
    if len > maxMaintenanceMetadataBytes then .error .metadataBudgetExceeded
    else match checkedAdd64 total len with
      | some total' => preflightSizes rest total'
      | none => .error .metadataBudgetExceeded

/-- `preflight_maintenance_metadata` over the sizes of the files (`none`: not there). -/
def preflightMaintenanceMetadata (files : List (Option Nat)) : Except StorageError Unit :=
  match preflightSizes files 0 with
  | .error e => .error e
  | .ok total =>
    if total * 6 > u64Max then .error .metadataBudgetExceeded
    else if total > maxMaintenanceMetadataBytes ∨ total * 6 > maxLiveMetadataEstimateBytes then
      .error .metadataBudgetExceeded
    else .ok ()

/-- Bytes of the files that exist. -/
def existingBytes (files : List (Option Nat)) : Nat := (files.map (·.getD 0)).sum

theorem existingBytes_cons (f : Option Nat) (fs : List (Option Nat)) :
    existingBytes (f :: fs) = f.getD 0 + existingBytes fs := by
  simp [existingBytes]

/-- Within the total bound the loop never stops, and returns the sum. -/
theorem preflightSizes_ok : ∀ (files : List (Option Nat)) (total : Nat),
    total + existingBytes files ≤ maxMaintenanceMetadataBytes →
    preflightSizes files total = .ok (total + existingBytes files)
  | [], total, _ => by simp [preflightSizes, existingBytes]
  | none :: rest, total, h => by
    rw [existingBytes_cons, Option.getD_none, Nat.zero_add] at h ⊢
    exact preflightSizes_ok rest total h
  | some len :: rest, total, h => by
    rw [existingBytes_cons, Option.getD_some] at h ⊢
    have hlen : ¬ len > maxMaintenanceMetadataBytes := by omega
    have hadd : checkedAdd64 total len = some (total + len) := by
      refine if_pos ?_
      have : maxMaintenanceMetadataBytes ≤ u64Max := by decide
      omega
    have hrest := preflightSizes_ok rest (total + len) (by omega)
    rw [preflightSizes, if_neg hlen, hadd]
    show preflightSizes rest (total + len) = _
    rw [hrest, add_assoc]

theorem preflightSizes_eq : ∀ (files : List (Option Nat)) (total out : Nat),
    preflightSizes files total = .ok out → out = total + existingBytes files
  | [], total, out, h => by
    simp only [preflightSizes, Except.ok.injEq] at h
    simp [existingBytes, h]
  | none :: rest, total, out, h => by
    rw [existingBytes_cons, Option.getD_none, Nat.zero_add]
    exact preflightSizes_eq rest total out h
  | some len :: rest, total, out, h => by
    rw [preflightSizes] at h
    split at h
    next => cases h
    next =>
      split at h
      next total' hadd =>
        obtain ⟨rfl, -⟩ := checkedAdd64_eq_some hadd
        have := preflightSizes_eq rest _ out h
        rw [existingBytes_cons, Option.getD_some]
        omega
      next => cases h

/-- **The size preflight accepts exactly the layouts whose metadata is at most 8 MiB
in total**: the per-file bound and the live estimate add nothing to it. -/
theorem preflightMaintenanceMetadata_ok_iff (files : List (Option Nat)) :
    preflightMaintenanceMetadata files = .ok () ↔
      existingBytes files ≤ maxMaintenanceMetadataBytes := by
  constructor
  · intro h
    unfold preflightMaintenanceMetadata at h
    split at h
    next => cases h
    next total htotal =>
      have hsum := preflightSizes_eq files 0 total htotal
      split at h
      next => cases h
      next =>
        split at h
        next => cases h
        next hsmall =>
          omega
  intro h
  have hloop := preflightSizes_ok files 0 (by omega)
  rw [Nat.zero_add] at hloop
  have hmul : ¬ existingBytes files * 6 > u64Max := by
    have : maxMaintenanceMetadataBytes * 6 ≤ u64Max := by decide
    omega
  grind [maxMaintenanceMetadataBytes, maxLiveMetadataEstimateBytes, preflightMaintenanceMetadata]

/-! ## §4. The checkpoint page. -/

inductive CheckpointFlags where
  | clean
  | dirty
  deriving Repr, DecidableEq

structure MetadataCheckpoint where
  pageId : Nat
  epoch : Nat
  activeBlkMapRoot : Nat
  activeLookupRoot : Nat
  flags : CheckpointFlags
  deriving Repr, DecidableEq

end Holo.Storage
