/-
Holo.Tape.Mount — putting a cartridge into the drive and taking it out.

The functions of `mount_bridge.rs`.  The drive's index of the tape is not kept on disk: a
mount rebuilds it from the block map, the list of filemarks and the block mode a drive has
after a mount.
-/
import Holo.Tape.Commands

namespace Holo.Tape

open Lib Program Storage

def maxFilemarks : Nat := 1000000

def loadFilemarks (d : Disk) : Except StorageError (List Nat) :=
  match d.runtime.filemarks with
  | none => .ok []
  | some marks =>
    if filemarksLen marks > 8 + maxFilemarks * 8 then
      .error (.corrupt "filemarks state exceeds maximum supported size")
    else .ok marks

section

variable (env : TapeEnv) (step : Nat) (s : TapeState)

/-- The filemarks a record tells of: so many, so far apart, right before its block. -/
def inferredFilemarks (r : BlkMapRecord) (missing : Nat) : List Nat :=
  let first := r.logicalStart - min (missing * step) u64Max
  (List.range missing).map fun i => satAdd64 first (i * step)

/-- What the loop of `hydrate_runtime_from_layout` carries along. -/
structure Hydration where
  filemarks : List Nat
  observedFilemarks : Nat
  blockStarts : List Nat
  blockLengths : List (Nat × Nat)
  eodPosition : Nat
  deriving Repr, DecidableEq

/-- The loop body of `hydrate_runtime_from_layout`. -/
def Hydration.add (h : Hydration) (r : BlkMapRecord) : Hydration :=
  let missing := if h.filemarks = [] then r.filemarkCount - h.observedFilemarks else 0
  { filemarks := if 0 < missing then inferredFilemarks step r missing else h.filemarks
    observedFilemarks := if 0 < missing then r.filemarkCount else h.observedFilemarks
    blockStarts :=
      if r.logicalStart ∈ h.blockLengths.map Prod.fst then h.blockStarts
      else h.blockStarts ++ [r.logicalStart]
    blockLengths :=
      insertByKey Prod.fst (r.logicalStart, r.logicalLen)
        (h.blockLengths.filter fun b => b.1 ≠ r.logicalStart)
    eodPosition := max h.eodPosition r.logicalEnd }

/-- The drive's state from what is on disk. -/
def TapeState.hydrated (records : List BlkMapRecord) (marks : List Nat)
    (retention : Option RetentionPolicy) : TapeState :=
  let step := logicalPositionStep s
  let active := sortByKey (·.logicalStart) (records.filter (·.isActive))
  let h := active.foldl (Hydration.add step) ⟨sortByKey id marks, 0, [], [], 0⟩
  { s with
    currentPosition := 0
    eodPosition :=
      match h.filemarks.max? with
      | none => h.eodPosition
      | some last => max h.eodPosition (satAdd64 last step)
    filemarks := h.filemarks
    blockStarts := sortByKey id h.blockStarts
    blockLengths := h.blockLengths
    retentionPolicy := retention.getD s.retentionPolicy }

def hydrateRuntimeFromLayout : TapeM Unit := do
  let _ ← onLayout (recoverDirtyState env.storage)
  let records ← onLayout (loadBlkMapRecords env.storage)
  let marks ← onLayout (do
    let w ← get
    ofExcept (loadFilemarks w.disk))
  let t ← get
  modifyTape fun s => s.hydrated records marks t.world.disk.runtime.retention

/-- `attach_cartridge`: the drive is as it was if the cartridge cannot be mounted. -/
def attachCartridge : TapeM Unit := do
  let s ← tapeState
  check (s.mountState ≠ .empty) .invalidTransition
  let _ ← onLayout loadLayout
  let result ← attempt (do
    mount env
    hydrateRuntimeFromLayout env)
  match result with
  | .ok _ => return ()
  | .error e =>
    modifyTape fun _ => s
    throw e

/-- The drive's state once the cartridge is out. -/
def TapeState.unmounted : TapeState :=
  { s.forgotten with
    mountState := .empty
    activeLayout := false
    requiresRecovery := false
    blockMode := .default
    retentionPolicy := noRetention
    reservationState := .default
    partitionRuntime := .default
    cartridgeCapacityBytes := none
    usageCounters := zeroUsage
    usageCountersDirtyOps := 0 }

def unmount : TapeM Unit := do
  let _ ← attempt (persistUsageCounters env)
  modifyTape TapeState.unmounted

def detachCartridge : TapeM Unit := do
  let s ← tapeState
  if s.activeLayout then
    if s.requiresRecovery then onLayout discardLayoutCaches
    else
      let _ ← onLayout (flushPendingWrites env.storage)
      persistUsageCounters env
      onLayout discardLayoutCaches
    unmount env
  else unmount env

end

end Holo.Tape
