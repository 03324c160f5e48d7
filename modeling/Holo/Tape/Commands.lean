/-
Holo.Tape.Commands — the tape commands of `command_chain.rs`.

Each command first checks whether it may run; a check that fails leaves everything as it
was.  The commands that write then run a body under `finish_write_command`: if the body
fails, the drive asks for recovery and the caches of the layout are dropped.
-/
import Holo.Tape.State

namespace Holo.Tape

open Lib Program Storage

/-! ## §1. Checks. -/

def ensureLoaded : TapeM Unit := do
  let s ← tapeState
  check (s.mountState = .empty) (.notReady "no media loaded")

/-- `ensure_recovery_complete`, which is also `ensure_write_ready`. -/
def ensureRecoveryComplete : TapeM Unit := do
  let s ← tapeState
  check (s.requiresRecovery = true) .recoveryRequired

/-- The layout of the mounted cartridge. -/
def ensureLayout : TapeM Unit := do
  let s ← tapeState
  check (s.activeLayout = false) (.notReady "active layout missing")

def validatePayloadLen (len : Nat) : TapeM Unit :=
  check (u32Max < len) (.invalidArgument s!"payload too large for u32 length field: {len} bytes")

def defaultInitiator : String := "initiator-default"

def ensureReservationAccess (s : TapeState) (initiator : String) : Except TapeError Unit :=
  if initiator.toList.all Char.isWhitespace then
    .error (.invalidArgument "initiator id must not be empty")
  else
    match s.reservationState.activeOwner with
    | none => .ok ()
    | some owner =>
      if owner ≠ initiator then .error (.reservationConflict s!"reservation owner is {owner}")
      else .ok ()

def enforceProtectedAccess (initiator : Option String) : TapeM Unit := do
  let s ← tapeState
  ofExcept (ensureReservationAccess s (initiator.getD defaultInitiator))
  check (s.retentionPolicy.isWormMedia = true ∧ s.retentionPolicy.retentionLocked = true)
    .wormWriteProtected

def enforceWormAppendOnly : TapeM Unit := do
  let s ← tapeState
  check (s.retentionPolicy.isWormMedia = true ∧ s.currentPosition < s.eodPosition)
    .wormWriteProtected

def enforceWormEraseAllowed : TapeM Unit := do
  let s ← tapeState
  check (s.retentionPolicy.isWormMedia = true ∧
      (0 < s.eodPosition ∨ s.blockStarts ≠ [] ∨ s.filemarks ≠ []))
    .wormWriteProtected

def activePartitionCapacityLimit (s : TapeState) : Option Nat :=
  let partitionCount := min (max (s.partitionRuntime.addlPartitionsDefined + 1) 1) 4
  let activeIdx := min s.partitionRuntime.activePartition (partitionCount - 1)
  let configured := s.partitionRuntime.partitionSizesBytes.getD activeIdx 0
  match s.cartridgeCapacityBytes with
  | some capacity => if configured = 0 then some capacity else some (min capacity configured)
  | none => if configured = 0 then none else some configured

def ensureCapacityAvailable (bytesToAdvance : Nat) : TapeM Unit := do
  let s ← tapeState
  match activePartitionCapacityLimit s with
  | none => return ()
  | some limit => check (limit < satAdd64 s.currentPosition bytesToAdvance) .volumeOverflow

/-- `acquire_space_admission`, with the error its callers make of a refusal. -/
def acquireSpaceAdmission (env : TapeEnv) (refused : TapeError) : TapeM Unit := do
  let t ← get
  modify fun t => { t with requests := t.requests + 1 }
  check (env.admits t.requests = false) refused

/-- `finish_write_command` around the body of a command. -/
def finishWriteCommand (body : TapeM Unit) : TapeM Unit := do
  let result ← attempt body
  match result with
  | .ok _ => return ()
  | .error e =>
    modifyTape fun s => { s with requiresRecovery := true }
    onLayout discardLayoutCaches
    throw e

/-! ## §2. Files beside the layout. -/

def persistFilemarks (env : Env) (marks : List Nat) : StorageM Unit :=
  atomicStep env fun _ d => { d with runtime := { d.runtime with filemarks := some marks } }

def persistRetentionState (env : Env) (policy : RetentionPolicy) : StorageM Unit :=
  atomicStep env fun _ d => { d with runtime := { d.runtime with retention := some policy } }

section

variable (env : TapeEnv)

def persistUsageCounters : TapeM Unit := do
  let s ← tapeState
  if s.activeLayout then
    onLayout (atomicStep env.storage fun _ d =>
      { d with runtime := { d.runtime with usage := some s.usageCounters } })
    modifyTape fun s => { s with usageCountersDirtyOps := 0 }
  else return ()

/-- One more operation in the usage counters, written out every so often. -/
def recordUsage (count : UsageCounters → UsageCounters) : TapeM Unit := do
  modifyTape fun s =>
    { s with
      usageCounters := count s.usageCounters
      usageCountersDirtyOps := satAdd32 s.usageCountersDirtyOps 1 }
  let s ← tapeState
  if env.usagePersistEvery ≤ s.usageCountersDirtyOps then persistUsageCounters env
  else return ()

def recordWriteUsage (bytes : Nat) : TapeM Unit :=
  recordUsage env fun c =>
    { c with
      lifetimeWriteOps := satAdd64 c.lifetimeWriteOps 1
      lifetimeBytesWritten := satAdd64 c.lifetimeBytesWritten bytes }

def recordReadUsage (bytes : Nat) : TapeM Unit :=
  recordUsage env fun c =>
    { c with
      lifetimeReadOps := satAdd64 c.lifetimeReadOps 1
      lifetimeBytesRead := satAdd64 c.lifetimeBytesRead bytes }

def recordFilemarkUsage (count : Nat) : TapeM Unit :=
  recordUsage env fun c =>
    { c with lifetimeFilemarkOps := satAdd64 c.lifetimeFilemarkOps count }

/-! ## §3. Writing blocks. -/

def tapeWriteOptions (s : TapeState) : WriteOptions where
  dedupEnabled := env.tapeDedupEnabled
  preferredCodec := if s.dataCompressionEnabled then .lz4 else .none
  forceSync := false
  payloadChecksumEnabled := env.tapePayloadChecksumEnabled

end

def recordBlock (start length : Nat) (s : TapeState) : TapeState :=
  if start ∈ s.blockLengths.map Prod.fst then
    { s with
      blockLengths := s.blockLengths.map fun b => if b.1 = start then (start, length) else b }
  else
    let append := match s.blockStarts.getLast? with
      | none => true
      | some last => decide (last < start)
    { s with
      blockStarts :=
        if append then s.blockStarts ++ [start]
        else if start ∈ s.blockStarts then s.blockStarts
        else insertByKey id start s.blockStarts
      blockLengths := insertByKey Prod.fst (start, length) s.blockLengths }

/-- The loop of `truncate_tail_before_write`. -/
def unmapTail (env : Env) : Nat → Nat → Nat → StorageM Unit
  | 0, _, _ => return ()
  | fuel + 1, start, remaining =>
    if remaining = 0 then return ()
    else do
      let span := min remaining u32Max
      let _ ← runUnmap env start span
      unmapTail env fuel (satAdd64 start span) (remaining - span)

/-- What the drive keeps of its index when the tape is cut off at `point`. -/
def TapeState.cutAt (s : TapeState) (point : Nat) : TapeState :=
  let lengths := s.blockLengths.filter fun b => satAdd64 b.1 b.2 ≤ point
  { s with
    filemarks := s.filemarks.filter (· < point)
    blockLengths := lengths
    blockStarts := s.blockStarts.filter (· ∈ lengths.map Prod.fst) }

section

variable (env : TapeEnv)

def truncateTailBeforeWrite : TapeM Unit := do
  let s ← tapeState
  if s.eodPosition ≤ s.currentPosition then return ()
  else if s.currentPosition = 0 then
    onLayout (resetLayoutForOverwrite env.storage)
    modifyTape TapeState.forgotten
    onLayout (persistFilemarks env.storage [])
  else
    let remaining := s.eodPosition - s.currentPosition
    onLayout (unmapTail env.storage remaining s.currentPosition remaining)
    modifyTape fun s => s.cutAt s.currentPosition
    let s ← tapeState
    onLayout (persistFilemarks env.storage s.filemarks)
    modifyTape fun s => { s with eodPosition := s.currentPosition }

/-- How a body that writes blocks begins: the number of filemarks its blocks are written
behind. -/
def openTail : TapeM Nat := do
  let _ ← onLayout (markCheckpointDirty env.storage)
  truncateTailBeforeWrite env
  let s ← tapeState
  validatePayloadLen s.filemarks.length
  return s.filemarks.length

/-- The error of a position past the last one. -/
def positionOverflow : TapeError := .storage (.internal "tape position overflow")

section

variable (payload : Bytes) (s : TapeState) (mark : Nat)

/-- One block written at the current position. -/
def writeBlock (filemarkCount : Nat) : TapeM Unit := do
  let s ← tapeState
  let _ ← onLayout (writeLogicalBlock env.storage s.currentPosition payload filemarkCount
    (tapeWriteOptions env s) none)
  modifyTape (recordBlock s.currentPosition payload.length)
  match checkedAdd64 s.currentPosition payload.length with
  | none => throw positionOverflow
  | some position =>
    modifyTape fun s =>
      { s with currentPosition := position, eodPosition := max s.eodPosition position }
    recordWriteUsage env payload.length

def writeData (initiator : Option String) : TapeM Unit := do
  ensureLoaded
  ensureRecoveryComplete
  validatePayloadLen payload.length
  let s ← tapeState
  if payload = [] then
    if s.blockMode.mode = .variable then return ()
    else throw (.invalidArgument "write payload cannot be empty")
  else
    enforceProtectedAccess initiator
    enforceWormAppendOnly
    check (s.blockMode.mode = .fixed ∧ s.blockMode.fixedBlockSize ≠ payload.length)
      (.fixedBlockSizeMismatch s.blockMode.fixedBlockSize payload.length)
    ensureLayout
    ensureCapacityAvailable payload.length
    acquireSpaceAdmission env
      (.physicalWriteAdmission (if s.blockMode.mode = .fixed then 1 else payload.length))
    finishWriteCommand do
      let filemarkCount ← openTail env
      writeBlock env payload filemarkCount

/-- `payload.chunks(size)`. -/
def chunks (size : Nat) : Nat → Bytes → List Bytes
  | 0, _ => []
  | fuel + 1, payload =>
    if payload = [] then [] else payload.take size :: chunks size fuel (payload.drop size)

def writeFixedBlocks (blockSize : Nat) (initiator : Option String) : TapeM Unit := do
  ensureLoaded
  ensureRecoveryComplete
  check (payload = [] ∨ blockSize = 0 ∨ payload.length % blockSize ≠ 0)
    (.invalidArgument "fixed-block write payload must contain complete blocks")
  validatePayloadLen blockSize
  let s ← tapeState
  check (s.blockMode.mode ≠ .fixed ∨ s.blockMode.fixedBlockSize ≠ blockSize)
    (.fixedBlockSizeMismatch s.blockMode.fixedBlockSize blockSize)
  enforceProtectedAccess initiator
  enforceWormAppendOnly
  ensureLayout
  ensureCapacityAvailable payload.length
  check (u32Max < payload.length / blockSize) (.invalidArgument "write too large")
  acquireSpaceAdmission env (.physicalWriteAdmission (payload.length / blockSize))
  finishWriteCommand do
    let filemarkCount ← openTail env
    forEach (chunks blockSize payload.length payload) fun chunk =>
      writeBlock env chunk filemarkCount

/-! ## §4. Reading blocks. -/

/-- The points of the tape after `mark`: block starts, filemarks and the end of data. -/
def pointsAfter : List Nat :=
  (s.blockStarts ++ s.filemarks ++ [s.eodPosition]).filter (mark < ·)

def positionAfterFilemark : Nat :=
  (pointsAfter s mark).min?.getD s.eodPosition

end

/-- `+=` on a position. -/
def wrapAdd64 (a b : Nat) : Nat := (a + b) % 2 ^ 64

/-- The error of a position without a block. -/
def noBlockMapped (position : Nat) : TapeError :=
  .notFound s!"no block mapped at logical position {position}"

def readData : TapeM Bytes := do
  ensureLoaded
  ensureRecoveryComplete
  ensureLayout
  let s ← tapeState
  if s.currentPosition ∈ s.filemarks then
    modifyTape fun s =>
      { s with currentPosition := positionAfterFilemark s s.currentPosition }
    throw (.filemarkDetected 0 [])
  else
    let read ← onLayout (readLogicalBlock env.storage s.currentPosition)
    match read with
    | none => throw (noBlockMapped s.currentPosition)
    | some r =>
      check (s.blockMode.mode = .fixed ∧ s.blockMode.fixedBlockSize ≠ r.logicalLen)
        (.fixedBlockSizeMismatch s.blockMode.fixedBlockSize r.logicalLen)
      modifyTape fun s => { s with currentPosition := wrapAdd64 s.currentPosition r.logicalLen }
      recordReadUsage env r.logicalLen
      return r.payload

end

/-- The error of a block that does not start where it is read. -/
def misplacedBlock (start position : Nat) : TapeError :=
  .notFound s!"prefetched block mapped at logical position {start}, expected {position}"

/-- The loop of `read_fixed_blocks`: what is still to be transferred and what was read. -/
def readFixedLoop (env : TapeEnv) (blockSize : Nat) : Nat → Bytes → TapeM Bytes
  | 0, out => return out
  | left + 1, out => do
    let s ← tapeState
    if s.currentPosition ∈ s.filemarks then
      modifyTape fun s =>
        { s with currentPosition := positionAfterFilemark s s.currentPosition }
      throw (.filemarkDetected (min (left + 1) u32Max) out)
    else
      let read ← onLayout (readLogicalBlock env.storage s.currentPosition)
      match read with
      | none => throw (noBlockMapped s.currentPosition)
      | some r =>
        check (r.logicalStart ≠ s.currentPosition)
          (misplacedBlock r.logicalStart s.currentPosition)
        check (r.logicalLen ≠ blockSize) (.fixedBlockSizeMismatch blockSize r.logicalLen)
        modifyTape fun s => { s with currentPosition := satAdd64 s.currentPosition r.logicalLen }
        recordReadUsage env r.logicalLen
        readFixedLoop env blockSize left (out ++ r.payload)

section

variable (env : TapeEnv) (count : Int) (s : TapeState)

def readFixedBlocks (blockSize transferBlocks : Nat) : TapeM Bytes := do
  ensureLoaded
  ensureRecoveryComplete
  validatePayloadLen blockSize
  check (transferBlocks = 0 ∨ blockSize = 0)
    (.invalidArgument "fixed-block read requires a non-empty transfer")
  let s ← tapeState
  check (s.blockMode.mode ≠ .fixed ∨ s.blockMode.fixedBlockSize ≠ blockSize)
    (.fixedBlockSizeMismatch s.blockMode.fixedBlockSize blockSize)
  ensureLayout
  readFixedLoop env blockSize transferBlocks []

/-! ## §5. Filemarks and positions. -/

/-- `logical_position_step`, which is also `runtime_filemark_step`. -/
def logicalPositionStep : Nat :=
  if s.blockMode.mode = .fixed ∧ 0 < s.blockMode.fixedBlockSize then s.blockMode.fixedBlockSize
  else 1

/-- The error of filemarks past the last position. -/
def filemarkOverflow : TapeError := .storage (.internal "filemark position overflow")

/-- The loop of `write_filemarks`. -/
def pushFilemarks (step : Nat) : Nat → TapeM Unit
  | 0 => return ()
  | count + 1 => do
    let s ← tapeState
    modifyTape fun s => { s with filemarks := s.filemarks ++ [s.currentPosition] }
    match checkedAdd64 s.currentPosition step with
    | none => throw filemarkOverflow
    | some position =>
      modifyTape fun s => { s with currentPosition := position }
      pushFilemarks step count

def writeFilemarks (count : Nat) (initiator : Option String) : TapeM Unit := do
  ensureLoaded
  ensureRecoveryComplete
  if count = 0 then recordFilemarkUsage env 0
  else
    enforceProtectedAccess initiator
    enforceWormAppendOnly
    let s ← tapeState
    let step := logicalPositionStep s
    check (u64Max < step * count) filemarkOverflow
    ensureCapacityAvailable (step * count)
    ensureLayout
    check (u64Max < s.filemarks.length * 8 + count * 8)
      (.storage (.internal "filemark estimate overflow"))
    acquireSpaceAdmission env .physicalFilemarkAdmission
    finishWriteCommand do
      let _ ← onLayout (flushPendingWrites env.storage)
      let _ ← onLayout (markCheckpointDirty env.storage)
      pushFilemarks step count
      modifyTape fun s => { s with eodPosition := max s.eodPosition s.currentPosition }
      let s ← tapeState
      onLayout (persistFilemarks env.storage s.filemarks)
      recordFilemarkUsage env count

section

variable (points : List Nat) (current : Nat) (mode : EraseMode)

def nextPoint : Option Nat := points.find? (current < ·)

def previousPoint : Option Nat :=
  points.reverse.find? (· < current)

/-- A position moved `count` times, as long as there is somewhere to go. -/
def moveTimes (move : Nat → Option Nat) : Nat → Nat → Option Nat
  | 0, position => some position
  | count + 1, position =>
    match move position with
    | none => none
    | some next => moveTimes move count next

inductive SpaceBranch where
  | blocks | filemarks | endOfData
  deriving Repr, DecidableEq

/-- The position a move ends at, or the error of a move that does not. -/
def settle (target : Option Nat) (e : TapeError) : TapeM Unit :=
  match target with
  | none => throw e
  | some position => modifyTape fun s => { s with currentPosition := position }

/-- `-count` of a signed 64-bit number: the least one has no negation. -/
def checkedNeg64 (count : Int) : Option Int := if count = -2 ^ 63 then none else some (-count)

/-- `-count` as the loops of `space` compute it: without overflow checks the least number stays
what it is, and a loop up to it is empty. -/
def wrapNeg64 (count : Int) : Int := (checkedNeg64 count).getD count

/-- `space` over blocks. -/
def spaceBlocks : TapeM Unit := do
  let s ← tapeState
  if count = 0 then return ()
  else if s.blockStarts = [] then
    if 0 < count then
      throw (.notFound "SPACE blocks encountered EOD before any recorded block")
    else throw (.outOfRange "SPACE blocks before BOT")
  else if 0 < count then
    settle (moveTimes (nextPoint s.blockStarts) count.toNat s.currentPosition)
      (.notFound "SPACE blocks encountered EOD")
  else
    settle (moveTimes (previousPoint s.blockStarts) (wrapNeg64 count).toNat s.currentPosition)
      (.outOfRange "SPACE blocks before BOT")

/-- `space` over filemarks. -/
def spaceFilemarks : TapeM Unit := do
  let s ← tapeState
  let marks := sortByKey id s.filemarks
  if count = 0 then return ()
  else if s.filemarks = [] then throw (.outOfRange "SPACE filemarks has no filemarks")
  else if 0 < count then
    settle (moveTimes (fun p => (marks.find? (p ≤ ·)).map (positionAfterFilemark s)) count.toNat
      s.currentPosition) (.outOfRange "SPACE filemarks beyond EOD")
  else
    settle (moveTimes (previousPoint marks) (wrapNeg64 count).toNat s.currentPosition)
      (.outOfRange "SPACE filemarks before BOT")

/-- `space` to the end of data. -/
def spaceEndOfData : TapeM Unit :=
  if count = 0 ∨ count = 1 then modifyTape fun s => { s with currentPosition := s.eodPosition }
  else if count = -1 then modifyTape fun s => { s with currentPosition := 0 }
  else throw (.outOfRange s!"SPACE EOD count {count} out of supported range")

def space (branch : SpaceBranch) (count : Int) : TapeM Unit := do
  ensureLoaded
  match branch with
  | .blocks => spaceBlocks count
  | .filemarks => spaceFilemarks count
  | .endOfData => spaceEndOfData count

def isAddressablePosition (target : Nat) : Bool :=
  if s.eodPosition < target then false
  else if s.blockMode.mode = .variable then true
  else if target = 0 ∨ target = s.eodPosition ∨ target ∈ s.blockLengths.map Prod.fst ∨
      target ∈ s.filemarks then true
  else if 0 < s.blockMode.fixedBlockSize then decide (target % s.blockMode.fixedBlockSize = 0)
  else false

def locate (target : Nat) : TapeM Unit := do
  ensureLoaded
  let s ← tapeState
  check (s.eodPosition < target) (.outOfRange s!"locate target {target} beyond eod {s.eodPosition}")
  check (isAddressablePosition s target = false)
    (.outOfRange s!"locate target {target} is not an addressable position")
  modifyTape fun s => { s with currentPosition := target }

def rewindMedia : TapeM Unit := do
  ensureLoaded
  let s ← tapeState
  if s.activeLayout then
    let _ ← onLayout (flushPendingWrites env.storage)
    modifyTape fun s => { s with currentPosition := 0 }
  else modifyTape fun s => { s with currentPosition := 0 }

def setBlockModeFixed (blockSize : Nat) : TapeM Unit := do
  ensureLoaded
  check (blockSize = 0) (.invalidArgument "fixed block size must be > 0")
  modifyTape fun s => { s with blockMode := ⟨.fixed, blockSize⟩ }

def setBlockModeVariable : TapeM Unit := do
  ensureLoaded
  modifyTape fun s => { s with blockMode := ⟨.variable, 0⟩ }

def setWormPolicy (isWormMedia retentionLocked : Bool) : TapeM Unit := do
  ensureLoaded
  check (retentionLocked = true ∧ isWormMedia = false)
    (.invalidArgument "retention lock requires worm media")
  let s ← tapeState
  check (s.retentionPolicy.retentionLocked = true ∧ retentionLocked = false) .wormWriteProtected
  modifyTape fun s => { s with retentionPolicy := ⟨isWormMedia, retentionLocked⟩ }
  if s.activeLayout then
    onLayout (persistRetentionState env.storage ⟨isWormMedia, retentionLocked⟩)
  else return ()

/-! ## §6. Mounting and erasing. -/

/-- The drive's state once a cartridge is in. -/
def TapeState.mounted (usage : UsageCounters) : TapeState :=
  { s.forgotten with
    mountState := .loaded
    activeLayout := true
    requiresRecovery := false
    blockMode := .default
    retentionPolicy := noRetention
    reservationState := .default
    partitionRuntime := .default
    cartridgeCapacityBytes := none
    usageCounters :=
      { usage with
        loadCount := satAdd64 usage.loadCount 1
        volumeChangeReference := satAdd64 usage.volumeChangeReference 1 }
    usageCountersDirtyOps := 0 }

def mount : TapeM Unit := do
  let t ← get
  modifyTape fun s => s.mounted (t.world.disk.runtime.usage.getD zeroUsage)
  let _ ← attempt (persistUsageCounters env)
  return ()

inductive EraseMode where
  | short | long
  deriving Repr, DecidableEq

/-- The layout directory removed and `initialize_layout`. -/
def recreateLayout (env : Env) : StorageM Unit := do
  discardLayoutCaches
  atomicStep env fun now _ => Disk.fresh env now
  let _ ← loadLayout
  return ()

/-- How `erase_media` empties the layout. -/
def emptyLayout : TapeM Unit :=
  match mode with
  | .short => onLayout (resetLayoutForOverwrite env.storage)
  | .long => do
    onLayout (recreateLayout env.storage)
    onLayout (resetLayoutForOverwrite env.storage)

def eraseMedia (initiator : Option String) : TapeM Unit := do
  ensureLoaded
  enforceProtectedAccess initiator
  enforceWormEraseAllowed
  ensureLayout
  ensureRecoveryComplete
  acquireSpaceAdmission env (.storage .spaceExhausted)
  let kept ← tapeState
  finishWriteCommand do
    emptyLayout env mode
    mount env
    modifyTape fun s =>
      { s with
        partitionRuntime := kept.partitionRuntime
        cartridgeCapacityBytes := kept.cartridgeCapacityBytes
        retentionPolicy := kept.retentionPolicy }
    let s ← tapeState
    onLayout (persistFilemarks env.storage s.filemarks)
    onLayout (persistRetentionState env.storage s.retentionPolicy)

end

end

end Holo.Tape
