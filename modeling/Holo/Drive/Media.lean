/-
Holo.Drive.Media — a CDB as the server answers it: the drive first follows the shared state
of its library, then the CDB is dispatched.

The state file of the drive names the cartridge that is to be in it.  The file is looked at
before every CDB to a loaded drive that transfers no data, and by TEST UNIT READY on an empty
drive; a cartridge that is no longer named is taken out, one that is named is mounted.
-/
import Holo.Drive.Reservation

namespace Holo.Drive

open Lib Program Storage Tape

section

variable (env : DriveEnv) (shared : SharedMedia) (opcode : Nat)

def isDataTransferOpcode : Bool :=
  decide (opcode ∈ [0x08, 0x88, 0x0A, 0x8A])

def driveOpcodeRequiresMediaSync (s : TapeState) : Bool :=
  decide (s.mountState = .loaded ∧ isDataTransferOpcode opcode = false ∨
    s.mountState = .empty ∧ opcode = 0x00)

def syncDriveMountFromShared : TapeM Unit := do
  let s ← tapeState
  match shared with
  | .unreadable => throw (.storage (.internal "shared media state could not be read"))
  | .empty => if s.activeLayout then detachCartridge env.tape else return ()
  | .cartridge =>
    if s.activeLayout then return ()
    else do
      attachCartridge env.tape
      modifyTape (applySharedCartridgeMetadata env)

/-- The media sync in front of a CDB. -/
def mediaSync : TapeM Unit := do
  let s ← tapeState
  if driveOpcodeRequiresMediaSync opcode s then syncDriveMountFromShared env shared else return ()

section

variable (cdb dataOut : Bytes) (initiator : String)

/-- A CDB behind the media sync. -/
def dispatchSynced : TapeM Reply :=
  if byteAt cdb 0 = 0x5F then do
    modifyTape (ensurePartitionRuntimeInitialized env.profile)
    persistentReserveOutDrive cdb dataOut initiator
  else dispatchRawCdb env cdb dataOut initiator shared

/-- `dispatch_raw_cdb_with_context_inner` for a drive. -/
def dispatchDriveCdb : TapeM Reply :=
  if cdb = [] ∨ validateCdbStructure cdb = false then return invalidFieldInCdb
  else
    replying do
      mediaSync env shared (byteAt cdb 0)
      dispatchSynced env shared cdb dataOut initiator

end

end

end Holo.Drive
