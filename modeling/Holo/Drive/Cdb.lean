/-
Holo.Drive.Cdb — the commands a drive takes from its initiators.

`dispatchRawCdb` is the dispatcher of `cdb_server.rs`: it checks the CDB, sets up the
partitions, gives the CDB to one of the handlers of `cdb_drive.rs`, to the reader and writer
of fixed blocks, or decodes it to a core command.  The handlers that only report something
answer `info`, and leave the medium alone.
-/
import Holo.Drive.Partitions
import Holo.Tape.Runs

namespace Holo.Drive

open Lib Program Storage Tape

/-! ## §1. Fields of a CDB. -/

section

variable (b : Bytes) (off : Nat)

def readBe16 : Nat := byteAt b off * 256 + byteAt b (off + 1)

def readBe24 : Nat := readBe16 b off * 256 + byteAt b (off + 2)

def readBe32 : Nat := readBe16 b off * 65536 + readBe16 b (off + 2)

def readBe64 : Nat := readBe32 b off * 2 ^ 32 + readBe32 b (off + 4)

end

/-- The signed number with these bits. -/
def signExtend (width n : Nat) : Int := if n < 2 ^ (width - 1) then n else (n : Int) - 2 ^ width

def expectedCdbLength (opcode : Nat) : Option Nat :=
  match opcode >>> 5 with
  | 0 => some 6
  | 1 => some 10
  | 2 => some 10
  | 4 => some 16
  | 5 => some 12
  | _ => none

def validateCdbStructure (cdb : Bytes) : Bool :=
  if cdb.length ∈ [6, 10, 12, 16] then
    match expectedCdbLength (byteAt cdb 0) with
    | some expected => decide (cdb.length = expected)
    | none => true
  else false

/-! ## §2. Replies. -/

/-- `CdbResponse`. -/
inductive Reply where
  /-- GOOD status and the data. -/
  | good (data : Bytes)
  /-- The answer of a handler that only reports. -/
  | info
  /-- CHECK CONDITION with this sense. -/
  | check (key asc ascq : Nat)
  /-- CHECK CONDITION with the sense of an error. -/
  | failed (e : TapeError)
  deriving Repr, DecidableEq

/-- What the state file of the drive says. -/
inductive SharedMedia where
  /-- It cannot be read. -/
  | unreadable
  /-- It names no cartridge. -/
  | empty
  /-- It names the cartridge. -/
  | cartridge
  deriving Repr, DecidableEq

/-- The drive a CDB is sent to. -/
structure DriveEnv where
  tape : TapeEnv
  profile : DriveProfile
  /-- `configured_initiator`. -/
  configuredInitiator : String
  /-- `data_compression_allowed`. -/
  dataCompressionAllowed : Bool
  /-- The capacity in the shared metadata of the cartridge. -/
  sharedCapacityBytes : Option Nat

/-- The default drive profile, with no variable set and no shared metadata. -/
def DriveEnv.standard : DriveEnv where
  tape := .standard
  profile := ⟨2500 * 1024 * 1024 * 1024, 3⟩
  configuredInitiator := defaultInitiator
  dataCompressionAllowed := true
  sharedCapacityBytes := none

/-- A program of the tape layer, its error made a reply. -/
def replying (m : TapeM Reply) : TapeM Reply := do
  let result ← attempt m
  match result with
  | .ok reply => return reply
  | .error e => return .failed e

section

variable (env : DriveEnv) (payload : Bytes) (kind : ModeSelectKind)

def executeWithSense (c : CoreCommand) : TapeM Reply :=
  replying do
    let data ← execute env.tape c
    return .good data

/-- `invalid_field_in_cdb_response`. -/
def invalidFieldInCdb : Reply := .check 0x05 0x24 0x00

/-- The answer of a drive without a medium. -/
def mediumNotPresent : Reply := .check 0x02 0x3A 0x00

/-! ## §3. Handlers. -/

section

variable (cdb : Bytes) (page : ModePage) (s : TapeState)

def formatMediumDrive : TapeM Reply := do
  let s ← tapeState
  if s.mountState ≠ .loaded then return mediumNotPresent
  else if s.currentPosition ≠ 0 then return .check 0x05 0x3B 0x0C
  else
    modifyTape (ensurePartitionRuntimeInitialized env.profile)
    let s ← tapeState
    match applyFormatMediumLayout env.profile (byteAt cdb 2 &&& 0x0F) s with
    | none => return .check 0x05 0x26 0x00
    | some runtime =>
      -- the index is cleared, the files of the layout stay as they are
      modifyTape fun s =>
        { s.forgotten with partitionRuntime := { runtime with activePartition := 0 } }
      return .good []

inductive ModeSelectKind where
  | mode6 | mode10
  deriving Repr, DecidableEq

def driveMaxBlockSize : Nat := 8 * 1024 * 1024

/-- A mode page of a parameter list: its code, whether it has a subpage, and its bytes. -/
structure ModePage where
  code : Nat
  subPage : Bool
  bytes : Bytes
  deriving Repr, DecidableEq

/-- The pages of a parameter list, up to one that is cut short. -/
def modePages : Nat → Bytes → List ModePage
  | 0, _ => []
  | fuel + 1, rest =>
    let subPage := decide (byteAt rest 0 &&& 0x40 ≠ 0)
    let pageLen := if subPage then 4 + readBe16 rest 2 else 2 + byteAt rest 1
    if rest.length ≤ 1 ∨ (subPage = true ∧ rest.length < 4) ∨ rest.length < pageLen then []
    else ⟨byteAt rest 0 &&& 0x3F, subPage, rest.take pageLen⟩ :: modePages fuel (rest.drop pageLen)

/-- A medium partition page. -/
def ModePage.setsPartitions : Bool :=
  decide (page.code = 0x11 ∧ page.subPage = false ∧ 8 ≤ page.bytes.length)

/-- One mode page that MODE SELECT sets; the others are skipped. -/
def ModePage.apply : Option TapeState :=
  if page.code = 0x0F ∧ page.subPage = false ∧ 4 ≤ page.bytes.length then
    some { s with
      dataCompressionEnabled :=
        env.dataCompressionAllowed && decide (byteAt page.bytes 2 &&& 0x80 ≠ 0) }
  else if page.setsPartitions = true then applyMediumPartitionModePage env.profile page.bytes s
  else some s

/-- The loop of `apply_mode_select_payload_drive`: a page that is refused ends it, with the
pages before it set. -/
def applyModePages (env : DriveEnv) : List ModePage → TapeM Bool
  | [] => return true
  | page :: pages => do
    let s ← tapeState
    match page.apply env s with
    | none => return false
    | some s' =>
      modifyTape fun _ => s'
      applyModePages env pages

/-- The length of the header of a parameter list. -/
def ModeSelectKind.header : ModeSelectKind → Nat
  | .mode6 => 4
  | .mode10 => 8

/-- The length of the block descriptor of a parameter list. -/
def ModeSelectKind.descriptorLength : ModeSelectKind → Nat
  | .mode6 => byteAt payload 3
  | .mode10 => readBe16 payload 6

/-- The pages of a parameter list behind its header and its block descriptor. -/
def selectedPages : List ModePage :=
  modePages payload.length (payload.drop (kind.header + kind.descriptorLength payload))

/-- `apply_mode_select_payload_drive`. -/
def applyModeSelectPayload : TapeM Bool := do
  if payload.length < kind.header then return false
  else if kind.descriptorLength payload = 0 then applyModePages env (selectedPages payload kind)
  else if payload.length < kind.header + kind.descriptorLength payload ∨
      kind.descriptorLength payload < 8 then return false
  else
    let blockLength := readBe24 payload (kind.header + 5)
    if driveMaxBlockSize < blockLength then return false
    else
      modifyTape fun s =>
        { s with blockMode := if blockLength = 0 then ⟨.variable, 0⟩ else ⟨.fixed, blockLength⟩ }
      applyModePages env (selectedPages payload kind)

/-- The length of the parameter list of a MODE SELECT. -/
def ModeSelectKind.listLength : ModeSelectKind → Nat
  | .mode6 => byteAt cdb 4
  | .mode10 => readBe16 cdb 7

/-- `mode_select_6_drive` and `mode_select_10_drive`. -/
def modeSelectDrive (cdb dataOut : Bytes) : TapeM Reply := do
  if kind = .mode10 ∧ cdb.length < 9 then return invalidFieldInCdb
  else if kind.listLength cdb = 0 then return .good []
  else if dataOut.length < kind.listLength cdb then return invalidFieldInCdb
  else
    let ok ← applyModeSelectPayload env (dataOut.take (kind.listLength cdb)) kind
    return if ok then .good [] else invalidFieldInCdb

def applySharedCartridgeMetadata : TapeState :=
  match env.sharedCapacityBytes with
  | none => s
  | some capacity => applyMediumCapacityOverride capacity s

/-- `load_unload_drive`: a LOAD to an empty drive takes what the state file names. -/
def loadUnloadDrive (shared : SharedMedia) : TapeM Reply := do
  let control := byteAt cdb 4
  let s ← tapeState
  if control &&& 0x04 ≠ 0 then return invalidFieldInCdb
  else if control &&& 0x01 ≠ 0 then
    if s.mountState = .loaded then
      modifyTape fun s => { s with currentPosition := 0 }
      return .good []
    else
      match shared with
      | .unreadable | .empty => return mediumNotPresent
      | .cartridge =>
        let attached ← attempt (attachCartridge env.tape)
        match attached with
        | .error _ => return mediumNotPresent
        | .ok _ =>
          modifyTape (applySharedCartridgeMetadata env)
          return .good []
  else if s.mountState ≠ .loaded ∨ control &&& 0x08 ≠ 0 then return .good []
  else
    replying do
      detachCartridge env.tape
      return .good []

end

/-- The sense of a block that cannot be verified. -/
def unrecoveredRead : Reply := .check 0x03 0x11 0x00

/-- The block `verify_blocks_at_position` compares: where it starts, its length and its bytes. -/
def verifyRead : TapeM (Option (Nat × Nat × Bytes)) := do
  let s ← tapeState
  if s.activeLayout then
    let read ← attempt (onLayout (readLogicalBlock env.tape.storage s.currentPosition))
    match read with
    | .ok (some r) => return some (r.logicalStart, r.logicalLen, r.payload)
    | _ => return none
  else
    return (s.blockLengths.find? fun b => b.1 = s.currentPosition).map fun b => (b.1, b.2, [])

end

/-- The loop of `verify_blocks_at_position`: what is left of the data to compare with. -/
def verifyBlocks (env : DriveEnv) (byteCompare : Bool) : Nat → Bytes → TapeM Reply
  | 0, left => return if byteCompare = true ∧ left ≠ [] then invalidFieldInCdb else .good []
  | count + 1, left => do
    let s ← tapeState
    let read ← verifyRead env
    match read with
    | none => return unrecoveredRead
    | some (start, len, payload) =>
      if start ≠ s.currentPosition then return unrecoveredRead
      else if byteCompare = true ∧ left.length < len then return invalidFieldInCdb
      else if byteCompare = true ∧ payload ≠ left.take len then return .check 0x0E 0x1D 0x00
      else
        modifyTape fun s => { s with currentPosition := satAdd64 s.currentPosition len }
        let counted ← attempt (recordReadUsage env.tape len)
        match counted with
        | .error _ => return .check 0x03 0x44 0x00
        | .ok _ => verifyBlocks env byteCompare count (if byteCompare then left.drop len else left)

section

variable (env : DriveEnv)

section

variable (s : TapeState) (cdb dataOut : Bytes) (initiator : String)

def verify6Drive : TapeM Reply := do
  let s ← tapeState
  let flags := byteAt cdb 1
  let transferLen := readBe24 cdb 2
  if s.mountState ≠ .loaded then return mediumNotPresent
  else if cdb.length < 6 then return invalidFieldInCdb
  else if 7 < flags then return invalidFieldInCdb
  else if flags &&& 0x02 ≠ 0 ∧ flags &&& 0x04 ≠ 0 then return invalidFieldInCdb
  else if transferLen = 0 then return .good []
  else if flags &&& 0x02 ≠ 0 then executeWithSense env (.space .filemarks transferLen)
  else
    verifyBlocks env (decide (flags &&& 0x04 ≠ 0))
      (if flags &&& 0x01 ≠ 0 then transferLen else 1) dataOut

def space16Drive (cdb : Bytes) : TapeM Reply :=
  let count := signExtend 64 (readBe64 cdb 4)
  if cdb.length < 16 then return invalidFieldInCdb
  else
    match byteAt cdb 1 &&& 0x0F with
    | 0x00 => executeWithSense env (.space .blocks count)
    | 0x01 => executeWithSense env (.space .filemarks count)
    | 0x03 => executeWithSense env (.space .endOfData count)
    | _ => return invalidFieldInCdb

/-- `fixed_block_size`, which is also `fixed_block_size_bytes`. -/
def fixedBlockSize (s : TapeState) : Option Nat :=
  if s.blockMode.mode = .fixed ∧ 0 < s.blockMode.fixedBlockSize then
    some s.blockMode.fixedBlockSize
  else none

def variableBlockAddressPoints : List Nat :=
  (sortByKey id (s.blockStarts ++ s.filemarks)).dedup

def transportLogicalToInternalOffset (logicalBlock : Nat) : Nat :=
  match fixedBlockSize s with
  | some size => satMul64 logicalBlock size
  | none =>
    let points := variableBlockAddressPoints s
    if logicalBlock = points.length then s.eodPosition
    else points.getD logicalBlock (satAdd64 s.eodPosition 1)

def locate16Drive (cdb : Bytes) : TapeM Reply := do
  let s ← tapeState
  if cdb.length < 16 then return invalidFieldInCdb
  else executeWithSense env (.locate (transportLogicalToInternalOffset s (readBe64 cdb 4)))

/-- The CDBs that only report something, or set what no command looks at: READ BLOCK LIMITS,
SET CAPACITY, RESERVE and RELEASE, INQUIRY, MODE SENSE, diagnostics, PREVENT MEDIUM REMOVAL,
READ POSITION, READ BUFFER, REPORT DENSITY, LOG SELECT and SENSE, PERSISTENT RESERVE IN,
ALLOW OVERWRITE, REPORT LUNS, REPORT TIMESTAMP, READ and WRITE ATTRIBUTE, and READ MEDIA
SERIAL NUMBER. -/
def reporting : List Nat :=
  [0x05, 0x0B, 0x16, 0x17, 0x12, 0x1A, 0x1C, 0x1D, 0x1E, 0x34, 0x3C, 0x44, 0x4C, 0x4D, 0x56, 0x57,
    0x5E, 0x5A, 0x82, 0xA0, 0xA3, 0x8C, 0x8D, 0xAB]

/-- `dispatch_drive_discovery_cdb_with_context`, apart from PERSISTENT RESERVE OUT. -/
def dispatchDriveDiscovery (shared : SharedMedia) : Option (TapeM Reply) :=
  if byteAt cdb 0 ∈ reporting then some (return .info)
  else
    match byteAt cdb 0 with
    | 0x04 => some (formatMediumDrive env cdb)
    | 0x13 => some (verify6Drive env cdb dataOut)
    | 0x15 => some (modeSelectDrive env .mode6 cdb dataOut)
    | 0x1B => some (loadUnloadDrive env cdb shared)
    | 0x55 => some (modeSelectDrive env .mode10 cdb dataOut)
    | 0x91 => some (space16Drive env cdb)
    | 0x92 => some (locate16Drive env cdb)
    | _ => none

/-! ## §4. Blocks. -/

def isDataWriteOpcode (opcode : Nat) : Bool := decide (opcode = 0x0A ∨ opcode = 0x8A)

def isFixedBlockTransfer (cdb : Bytes) : Bool := decide (byteAt cdb 1 &&& 0x01 ≠ 0)

def writeTransferBlocks (cdb : Bytes) : Nat :=
  if byteAt cdb 0 = 0x0A then if byteAt cdb 4 = 0 then 256 else byteAt cdb 4
  else readBe32 cdb 10

def readTransferBlocks (cdb : Bytes) : Nat :=
  if byteAt cdb 0 = 0x08 then if readBe24 cdb 2 = 0 then 256 else readBe24 cdb 2
  else readBe32 cdb 10

/-- The transfer length the probes look at. -/
def probeLength (cdb : Bytes) : Nat :=
  if byteAt cdb 0 = 0x0A then byteAt cdb 4 else readBe32 cdb 10

/-- `is_legacy_empty_write_probe` or `is_legacy_single_byte_write_probe`. -/
def isLegacyWriteProbe : Bool :=
  decide (isDataWriteOpcode (byteAt cdb 0) = true ∧ s.mountState = .loaded ∧
    s.currentPosition = 0 ∧ s.eodPosition = 0 ∧ isFixedBlockTransfer cdb = true ∧
    probeLength cdb = 1 ∧
    (dataOut = [] ∨
      dataOut.length = 1 ∧ s.blockMode.mode = .fixed ∧ 1 < s.blockMode.fixedBlockSize))

def projectedWriteBytes : Nat :=
  match fixedBlockSize s with
  | none => dataOut.length
  | some size =>
    if writeTransferBlocks cdb = 0 then dataOut.length
    else satMul64 (writeTransferBlocks cdb) size

/-- `dispatch_fixed_block_io_with_context`: the command it runs, or its answer. -/
def fixedBlockCommand (s : TapeState) : Option (Except Reply CoreCommand) :=
  if isFixedBlockTransfer cdb = false then none
  else
    match fixedBlockSize s with
    | none => none
    | some size =>
      if isDataWriteOpcode (byteAt cdb 0) = true then
        if writeTransferBlocks cdb = 0 ∨
            satMul64 (writeTransferBlocks cdb) size ≠ dataOut.length then
          some (.error invalidFieldInCdb)
        else some (.ok (.writeFixedBlocks dataOut size (some initiator)))
      else if byteAt cdb 0 = 0x08 ∨ byteAt cdb 0 = 0x88 then
        if readTransferBlocks cdb = 0 then some (.error invalidFieldInCdb)
        else some (.ok (.readFixedBlocks size (readTransferBlocks cdb)))
      else none

/-- `decode_cdb_to_command`, for the CDBs that no handler has taken. -/
def decodeCdbToCommand : Option CoreCommand :=
  match byteAt cdb 0 with
  | 0x01 => some .rewind
  | 0x08 => some .readData
  | 0x88 => some .readData
  | 0x0A => some (.writeData dataOut (some env.configuredInitiator))
  | 0x8A => some (.writeData dataOut (some env.configuredInitiator))
  | 0x10 => some (.writeFilemarks (if 5 ≤ cdb.length then readBe24 cdb 2 else 1)
      (some env.configuredInitiator))
  | 0x11 =>
    if cdb.length < 6 then none
    else
      match byteAt cdb 1 &&& 0x07 with
      | 0x00 => some (.space .blocks (signExtend 24 (readBe24 cdb 2)))
      | 0x01 => some (.space .filemarks (signExtend 24 (readBe24 cdb 2)))
      | 0x03 => some (.space .endOfData (signExtend 24 (readBe24 cdb 2)))
      | _ => none
  | 0x19 => some (.erase (if byteAt cdb 1 &&& 0x01 ≠ 0 then .long else .short)
      (some env.configuredInitiator))
  | 0x2B =>
    if cdb.length < 9 then none
    else some (.locate (transportLogicalToInternalOffset s (readBe32 cdb 3)))
  | _ => none

/-! ## §5. The dispatcher. -/

/-- What a CDB that is not for one of the handlers asks for, or the answer to it. -/
def mediumCommand (s : TapeState) : Except Reply CoreCommand :=
  if isLegacyWriteProbe s cdb dataOut = true then .error (.good [])
  else if isDataWriteOpcode (byteAt cdb 0) = true ∧ s.mountState = .loaded ∧
      activePartitionCapacityBytes env.profile s <
        satAdd64 s.currentPosition (projectedWriteBytes s cdb dataOut) then
    .error (.check 0x0D 0x00 0x00)
  else
    match fixedBlockCommand cdb dataOut initiator s with
    | some command => command
    | none =>
      match decodeCdbToCommand env s cdb dataOut with
      | none => .error invalidFieldInCdb
      | some c => .ok c

/-- A CDB that is not for one of the handlers. -/
def dispatchMedium : TapeM Reply := do
  let s ← tapeState
  match mediumCommand env cdb dataOut initiator s with
  | .error reply => return reply
  | .ok c => executeWithSense env c

/-- `dispatch_raw_cdb_with_context_inner` for a drive, apart from PERSISTENT RESERVE OUT. -/
def dispatchRawCdb (shared : SharedMedia) : TapeM Reply := do
  let s ← tapeState
  if cdb = [] ∨ validateCdbStructure cdb = false then return invalidFieldInCdb
  else if byteAt cdb 0 = 0x00 then
    return if s.mountState = .loaded then .good [] else mediumNotPresent
  else if byteAt cdb 0 = 0x03 then return .info
  else
    modifyTape (ensurePartitionRuntimeInitialized env.profile)
    match dispatchDriveDiscovery env cdb dataOut shared with
    | some m => m
    | none => dispatchMedium env cdb dataOut initiator

end

end

/-! ## §6. What a CDB is decoded to. -/

variable {env : DriveEnv} {cdb dataOut : Bytes} {initiator : String} {s : TapeState}
  {c : CoreCommand}

/-- A CDB that is no READ and no WRITE comes to what it is decoded to. -/
theorem mediumCommand_of_no_transfer (hwrite : isDataWriteOpcode (byteAt cdb 0) = false)
    (hread : ¬ (byteAt cdb 0 = 0x08 ∨ byteAt cdb 0 = 0x88))
    (hdec : decodeCdbToCommand env s cdb dataOut = some c) :
    mediumCommand env cdb dataOut initiator s = .ok c := by
  have hprobe : isLegacyWriteProbe s cdb dataOut = false := by
    simp [isLegacyWriteProbe, hwrite]
  have hfixed : fixedBlockCommand cdb dataOut initiator s = none := by
    unfold fixedBlockCommand
    split
    · rfl
    split
    · rfl
    rw [if_neg (ne_true_of_eq_false hwrite)]
  unfold mediumCommand
  rw [if_neg (ne_true_of_eq_false hprobe), if_neg (by simp [hwrite]), hfixed, hdec]

variable {t : TapeWorld}

/-- The drive once its partitions are set up. -/
def prepared (env : DriveEnv) (t : TapeWorld) : TapeWorld :=
  t.setTape (ensurePartitionRuntimeInitialized env.profile t.tape)

theorem replying_spec {m : TapeM Reply} {Q : Reply → TapeWorld → Prop}
    (h : wp m Q (fun e t' => Q (.failed e) t') t) : wp (replying m) Q (fun _ _ => False) t := by
  simp [replying, h]

/-- Without a cartridge no core command does anything. -/
theorem execute_empty (env : DriveEnv) (hempty : t.tape.mountState = .empty) (c : CoreCommand) :
    ∃ e, execute env.tape c t = (.error e, t) := by
  have hload : ensureLoaded t = (.error (.notReady "no media loaded"), t) := by
    have hstate : tapeState t = (.ok t.tape, t) := rfl
    unfold ensureLoaded
    rw [run_bind_ok hstate]
    unfold check
    rw [if_pos hempty]
    rfl
  have hdata : ∀ {m : TapeM Unit}, (∃ f : Unit → TapeM Unit, m = ensureLoaded >>= f) →
      ∃ e, noData m t = (.error e, t) := by
    intro m hm
    obtain ⟨f, rfl⟩ := hm
    exact ⟨_, run_bind_error (run_bind_error hload)⟩
  cases c with
  | readData | readFixedBlocks => exact ⟨_, run_bind_error hload⟩
  | space branch count => exact hdata ⟨_, rfl⟩
  | _ => exact hdata ⟨_, rfl⟩

end Holo.Drive
