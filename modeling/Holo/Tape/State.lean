/-
Holo.Tape.State — the state of one tape drive and its cartridge.

A `TapeState` holds what the drive keeps in memory about the mounted cartridge: the
position, the end of data, the filemarks, the starts and lengths of the blocks, the block
mode, the retention policy, the reservation, the partitions.  A `TapeWorld` puts it next
to the cartridge's layout, which the storage functions work on.
-/
import Holo.Storage.Recovery

namespace Holo.Tape

open Lib Program Storage

/-! ## §1. The drive. -/

inductive MountState where
  | empty | loaded | busy | error
  deriving Repr, DecidableEq

inductive BlockMode where
  | variable | fixed
  deriving Repr, DecidableEq

structure BlockModeProfile where
  mode : BlockMode
  fixedBlockSize : Nat
  deriving Repr, DecidableEq

/-- The block mode of a drive after a mount. -/
def BlockModeProfile.default : BlockModeProfile := ⟨.fixed, 256 * 1024⟩

structure PartitionRuntime where
  partitionUnits : Nat
  addlPartitionsDefined : Nat
  fdp : Nat
  mediumFmtRecognition : Nat
  partitionSizeUnits : List Nat
  partitionSizesBytes : List Nat
  activePartition : Nat
  deriving Repr, DecidableEq

/-- The partitions of a drive after a mount. -/
def PartitionRuntime.default : PartitionRuntime where
  partitionUnits := 9
  addlPartitionsDefined := 0
  fdp := 156
  mediumFmtRecognition := 3
  partitionSizeUnits := [0, 0, 0, 0]
  partitionSizesBytes := [0, 0, 0, 0]
  activePartition := 0

/-- `ReservationState`; `registrations` has one entry an initiator. -/
structure ReservationState where
  generation : Nat
  registrations : List (String × Nat)
  activeOwner : Option String
  activeKey : Option Nat
  deriving Repr, DecidableEq

/-- The reservations of a drive after a mount. -/
def ReservationState.default : ReservationState := ⟨0, [], none, none⟩

/-- The retention policy of a drive after a mount. -/
def noRetention : RetentionPolicy := ⟨false, false⟩

/-- The counters of a cartridge that has none on disk. -/
def zeroUsage : UsageCounters := ⟨0, 0, 0, 0, 0, 0, 0⟩

/-- `TapeState`.  One cartridge is in play, so that its id and the paths of its layout are
just there or not; `blockLengths` is ordered by start, as the map of the source is. -/
structure TapeState where
  mountState : MountState
  currentPosition : Nat
  eodPosition : Nat
  filemarks : List Nat
  blockStarts : List Nat
  blockLengths : List (Nat × Nat)
  activeLayout : Bool
  requiresRecovery : Bool
  blockMode : BlockModeProfile
  dataCompressionEnabled : Bool
  retentionPolicy : RetentionPolicy
  reservationState : ReservationState
  partitionRuntime : PartitionRuntime
  cartridgeCapacityBytes : Option Nat
  usageCounters : UsageCounters
  usageCountersDirtyOps : Nat
  deriving Repr, DecidableEq

def TapeState.new (compression : Bool) : TapeState where
  mountState := .empty
  currentPosition := 0
  eodPosition := 0
  filemarks := []
  blockStarts := []
  blockLengths := []
  activeLayout := false
  requiresRecovery := false
  blockMode := .default
  dataCompressionEnabled := compression
  retentionPolicy := noRetention
  reservationState := .default
  partitionRuntime := .default
  cartridgeCapacityBytes := none
  usageCounters := zeroUsage
  usageCountersDirtyOps := 0

/-- The blocks the drive knows. -/
def TapeState.forgotten (t : TapeState) : TapeState :=
  { t with
    currentPosition := 0, eodPosition := 0, filemarks := [], blockStarts := [],
    blockLengths := [] }

/-! ## §2. Errors, world and programs. -/

/-- `TapeError`, as far as the modelled commands return it. -/
inductive TapeError where
  | invalidTransition
  | notReady (reason : String)
  | recoveryRequired
  | invalidArgument (reason : String)
  | fixedBlockSizeMismatch (expected actual : Nat)
  | filemarkDetected (residue : Nat) (partialData : Bytes)
  | notFound (what : String)
  | outOfRange (what : String)
  | volumeOverflow
  | wormWriteProtected
  | reservationConflict (reason : String)
  | invalidReservationKey (reason : String)
  | invalidReservationRelease (reason : String)
  | storage (e : StorageError)
  | physicalWriteAdmission (requestedUnits : Nat)
  | physicalFilemarkAdmission
  deriving Repr, DecidableEq

/-- What the tape commands depend on beside the storage layer. -/
structure TapeEnv where
  storage : Env
  /-- `HOLO_TAPE_DEDUP_ENABLED`. -/
  tapeDedupEnabled : Bool
  /-- `HOLO_TAPE_PAYLOAD_CHECKSUM_ENABLED`. -/
  tapePayloadChecksumEnabled : Bool
  /-- `HOLO_TAPE_COMPRESSION_ENABLED`. -/
  tapeCompressionEnabled : Bool
  /-- `usage_counter_persist_every_ops`. -/
  usagePersistEvery : Nat
  /-- Whether the n-th request for space is granted. -/
  admits : Nat → Bool

/-- The settings when no variable is set; every request for space is granted. -/
def TapeEnv.standard : TapeEnv where
  storage := Env.standard
  tapeDedupEnabled := true
  tapePayloadChecksumEnabled := true
  tapeCompressionEnabled := true
  usagePersistEvery := 1024
  admits _ := true

/-- A drive and its cartridge. -/
structure TapeWorld where
  tape : TapeState
  world : World
  /-- Requests for space so far. -/
  requests : Nat

/-- The programs of the tape layer. -/
abbrev TapeM := Program TapeError TapeWorld

/-- The world with another cartridge state. -/
def TapeWorld.setWorld (t : TapeWorld) (w : World) : TapeWorld := { t with world := w }

/-- The world with another drive state. -/
def TapeWorld.setTape (t : TapeWorld) (s : TapeState) : TapeWorld := { t with tape := s }

@[simp] theorem TapeWorld.world_setWorld (t : TapeWorld) (w : World) :
    (t.setWorld w).world = w := rfl

@[simp] theorem TapeWorld.tape_setWorld (t : TapeWorld) (w : World) :
    (t.setWorld w).tape = t.tape := rfl

@[simp] theorem TapeWorld.tape_setTape (t : TapeWorld) (s : TapeState) :
    (t.setTape s).tape = s := rfl

/-- A storage function called by a tape command. -/
def onLayout {α : Type} (m : StorageM α) : TapeM α :=
  zoom TapeWorld.world TapeWorld.setWorld TapeError.storage m

/-- The drive's state. -/
def tapeState : TapeM TapeState := do
  let t ← get
  return t.tape

/-- Change the drive's state. -/
def modifyTape (f : TapeState → TapeState) : TapeM Unit := modify fun t => t.setTape (f t.tape)

variable {E : TapeError → TapeWorld → Prop} {t : TapeWorld}

@[simp] theorem wp_onLayout {α : Type} {m : StorageM α} {Q : α → TapeWorld → Prop} :
    wp (onLayout m) Q E t ↔
      wp m (fun a w => Q a (t.setWorld w)) (fun e w => E (.storage e) (t.setWorld w)) t.world :=
  wp_zoom

@[simp] theorem wp_tapeState {Q : TapeState → TapeWorld → Prop} :
    wp tapeState Q E t ↔ Q t.tape t := Iff.rfl

theorem run_tapeState_bind {α : Type} (f : TapeState → TapeM α) (t : TapeWorld) :
    (tapeState >>= f) t = f t.tape t :=
  rfl

@[simp] theorem wp_modifyTape {f : TapeState → TapeState} {Q : Unit → TapeWorld → Prop} :
    wp (modifyTape f) Q E t ↔ Q () (t.setTape (f t.tape)) := Iff.rfl

end Holo.Tape
