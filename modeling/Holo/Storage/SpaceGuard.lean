/-
Holo.Storage.SpaceGuard — space for writes, kept free among processes.

Before a command writes, it takes the lock of the filesystem, probes the free space, goes
through the reservation files of the other writers and makes one of its own, of the bytes it
may need.  A reservation file is locked by its writer; who finds one that is not locked removes
it.  A writer gives its reservation up by removing the file, without the lock of the
filesystem; a process that dies loses its locks.

The free space is probed BEFORE the reservations are added up.  A writer that consumes its
space and gives its reservation up in between is counted neither as space nor as a reservation.

The model: `GuardState.step` over `GuardEvent`; what is promised, `GuardState.promised`; what
every state keeps, `GuardInv`; what writers have to keep to, `InTime`.
-/
import Holo.Lib.Ledger
import Holo.Storage.Metadata

namespace Holo.Storage.Space

open Lib Storage

/-! ## §1. Estimates. -/

def spaceReserveBytes : Nat := 64 * 1024 * 1024

def blobRecordOverhead : Nat := 24 + 59 + 40 + 52

def segmentOverhead : Nat := 96 + 4

/-- A number that fits into a `u64`. -/
def checked (n : Nat) : Option Nat := if n ≤ u64Max then some n else none

def roundUpToAllocationUnit (bytes unit : Nat) : Option Nat :=
  if unit = 0 then none
  else if bytes = 0 then some 0
  else if bytes % unit = 0 then some bytes
  else checked (bytes + (unit - bytes % unit))

/-- What a command asks room for. -/
structure WriteRequest where
  payloadBytes : Nat
  blobCount : Nat
  touchedSegments : Nat
  metadataTemporaryBytes : Nat
  deriving Repr, DecidableEq

def estimateWritePeakBytes (request : WriteRequest) (unit : Nat) : Option Nat := do
  let payload ← roundUpToAllocationUnit request.payloadBytes unit
  let records ← checked (request.blobCount * blobRecordOverhead)
  let segments ← checked (request.touchedSegments * segmentOverhead)
  let metadata ← roundUpToAllocationUnit request.metadataTemporaryBytes unit
  checked (payload + records + segments + metadata)

def ensureCapacity (available peakExtra reserve : Nat) : Bool :=
  decide (peakExtra + reserve ≤ u64Max ∧ peakExtra + reserve ≤ available)

/-! ## §2. Writers and files. -/

variable {W P : Type}

/-- A reservation file. -/
structure Reservation (W : Type) where
  /-- The bytes reserved, once they are written. -/
  content : Option Nat
  /-- What its writer has consumed of them. -/
  consumed : Nat
  /-- Who holds the lock of the file. -/
  owner : Option W
  deriving Repr, DecidableEq

/-- Where a writer is in `acquire_space_admission`, or after it. -/
inductive Phase where
  | idle
  /-- It has the lock of the filesystem. -/
  | locked (request : WriteRequest)
  | probed (peak available : Nat)
  /-- `active_reservation_bytes`: the files to go through, those it has counted, and their sum. -/
  | scanning (peak available : Nat) (todo counted : List Nat) (inFlight : Nat)
  /-- There is room. -/
  | cleared (peak : Nat)
  /-- `reserve`: the file exists, is locked, is written. -/
  | created (peak id : Nat)
  | held (peak id : Nat)
  | written (id : Nat)
  /-- It has its reservation, and gave the lock of the filesystem back. -/
  | admitted (id : Nat)
  | dead
  deriving Repr, DecidableEq

/-- The filesystem and its writers.  A file keeps its number: `create_new` never takes the name of
a file that exists. -/
structure GuardState (W : Type) where
  free : Nat
  lock : Option W
  files : Nat → Option (Reservation W)
  nextId : Nat
  phase : W → Phase

/-- A step of a writer, the death of a process, or space that became free. -/
inductive GuardEvent (W P : Type) where
  | acquire (w : W) (request : WriteRequest)
  | probe (w : W)
  /-- `read_dir`, which gives the files in some order. -/
  | list (w : W) (order : List Nat)
  | scan (w : W)
  | decide (w : W)
  | create (w : W)
  | lockFile (w : W)
  | write (w : W)
  | finish (w : W)
  | consume (w : W) (bytes : Nat)
  | release (w : W)
  /-- An operation on the filesystem failed. -/
  | abort (w : W)
  | die (p : P)
  | freed (bytes : Nat)

/-- The files there are. -/
def GuardState.listing (s : GuardState W) : List Nat :=
  (List.range s.nextId).filter fun i => (s.files i).isSome

section

variable [DecidableEq W] [DecidableEq P]

section

variable (s : GuardState W) (w : W)

/-- A writer goes on. -/
def GuardState.enter (phase : Phase) : GuardState W :=
  { s with phase := Function.update s.phase w phase }

/-- A file is changed, or removed. -/
def GuardState.setFile (i : Nat) (file : Option (Reservation W)) : GuardState W :=
  { s with files := Function.update s.files i file }

/-- The locks some writers hold are gone. -/
def GuardState.unlock (who : W → Bool) : GuardState W :=
  { s with
    lock := s.lock.filter fun w => !who w
    files := fun i => (s.files i).map fun r =>
      if r.owner.any who = true then { r with owner := none } else r }

/-- The admission fails: all that was open is closed. -/
def GuardState.abandon : GuardState W :=
  (s.unlock fun w' => decide (w' = w)).enter w .idle

/-- One file of `active_reservation_bytes`. -/
def GuardState.scanFile (peak available i : Nat)
    (todo counted : List Nat) (inFlight : Nat) : GuardState W :=
  match s.files i with
  | none => s.enter w (.scanning peak available todo counted inFlight)
  | some r =>
    match r.owner with
    | none => (s.setFile i none).enter w (.scanning peak available todo counted inFlight)
    | some _ =>
      match r.content with
      | none => s.abandon w
      | some bytes =>
        if inFlight + bytes ≤ u64Max then
          s.enter w (.scanning peak available todo (i :: counted) (inFlight + bytes))
        else s.abandon w

/-- The room for a write. -/
def GuardState.decideRoom (peak available inFlight : Nat) : GuardState W :=
  if inFlight + peak ≤ u64Max ∧ ensureCapacity available (inFlight + peak) spaceReserveBytes = true
  then s.enter w (.cleared peak) else s.abandon w

end

/-- One step: `acquire_space_admission` piece by piece, and what writers do with a reservation. -/
def GuardState.step (proc : W → P) (unit : Nat) (s : GuardState W) :
    GuardEvent W P → Option (GuardState W)
  | .acquire w request =>
    if s.phase w = .idle ∧ s.lock = none then
      some { s.enter w (.locked request) with lock := some w }
    else none
  | .probe w =>
    match s.phase w with
    | .locked request =>
      match checked s.free, estimateWritePeakBytes request unit with
      | some available, some peak => some (s.enter w (.probed peak available))
      | _, _ => some (s.abandon w)
    | _ => none
  | .list w order =>
    match s.phase w with
    | .probed peak available =>
      if order.Perm s.listing then some (s.enter w (.scanning peak available order [] 0)) else none
    | _ => none
  | .scan w =>
    match s.phase w with
    | .scanning peak available (i :: todo) counted inFlight =>
      some (s.scanFile w peak available i todo counted inFlight)
    | _ => none
  | .decide w =>
    match s.phase w with
    | .scanning peak available [] _ inFlight => some (s.decideRoom w peak available inFlight)
    | _ => none
  | .create w =>
    match s.phase w with
    | .cleared peak =>
      some { (s.setFile s.nextId (some ⟨none, 0, none⟩)).enter w (.created peak s.nextId) with
        nextId := s.nextId + 1 }
    | _ => none
  | .lockFile w =>
    match s.phase w with
    | .created peak i =>
      some ((s.setFile i ((s.files i).map fun r => { r with owner := some w })).enter w
        (.held peak i))
    | _ => none
  | .write w =>
    match s.phase w with
    | .held peak i =>
      some ((s.setFile i ((s.files i).map fun r => { r with content := some peak })).enter w
        (.written i))
    | _ => none
  | .finish w =>
    match s.phase w with
    | .written i => some { s.enter w (.admitted i) with lock := none }
    | _ => none
  | .consume w bytes =>
    match s.phase w with
    | .admitted i =>
      match s.files i with
      | some r =>
        -- what the writers are asked to keep to
        if r.consumed + bytes ≤ r.content.getD 0 ∧ bytes ≤ s.free then
          some { s.setFile i (some { r with consumed := r.consumed + bytes }) with
            free := s.free - bytes }
        else none
      | none => none
    | _ => none
  | .release w =>
    match s.phase w with
    | .admitted i => some ((s.setFile i none).enter w .idle)
    | _ => none
  | .abort w =>
    match s.phase w with
    | .locked _ | .probed _ _ | .scanning _ _ _ _ _ | .cleared _ | .created _ _ | .held _ _ =>
      some (s.abandon w)
    | _ => none
  | .die p =>
    some { s.unlock (fun w => decide (proc w = p)) with
      phase := fun w => if proc w = p then .dead else s.phase w }
  | .freed bytes => some { s with free := s.free + bytes }

end

/-! ## §3. What is promised. -/

section

variable (s : GuardState W) (i : Nat) (r : Reservation W)

/-- What a reservation that is locked has not consumed yet. -/
def Reservation.rest : Nat :=
  if r.owner.isSome = true then r.content.getD 0 - r.consumed else 0

/-- The bytes of a reservation that is locked. -/
def Reservation.held : Nat :=
  if r.owner.isSome = true then r.content.getD 0 else 0

/-- The parts of all live reservations that are not consumed yet. -/
def GuardState.promised : Nat :=
  amountBelow s.nextId (fun _ r => r.rest) s.files

/-- The bytes of the live reservations among some. -/
def GuardState.heldBy (q : Nat → Bool) : Nat :=
  amountBelow s.nextId (fun i r => if q i = true then r.held else 0) s.files

/-- **The margin**: beyond what is promised, the reserve is free. -/
def GuardState.Margin : Prop := spaceReserveBytes + s.promised ≤ s.free

/-- What an admission has seen, and what it may conclude from it. -/
def GuardState.Snapshot : Phase → Prop
  | .probed _ available => available + s.promised ≤ s.free + s.heldBy fun _ => true
  | .scanning _ available todo _ inFlight =>
    todo.Nodup ∧ available + s.promised ≤ s.free + inFlight + s.heldBy fun i => decide (i ∈ todo)
  | .cleared peak | .created peak _ | .held peak _ => spaceReserveBytes + s.promised + peak ≤ s.free
  | _ => True

/-- A writer between the lock of the filesystem and its release. -/
def Phase.Admitting : Phase → Prop
  | .idle | .admitted _ | .dead => False
  | _ => True

/-- The file an owner has. -/
def Phase.Owns : Phase → Prop
  | .held _ j | .written j | .admitted j => j = i
  | _ => False

/-- The file a writer has made. -/
def Phase.HasFile : Phase → Prop
  | .created _ j | .held _ j | .written j | .admitted j => j = i
  | _ => False

/-- The file of a writer: from its creation to its release. -/
def FileOf (files : Nat → Option (Reservation W)) (w : W) : Phase → Prop
  | .created _ i => ∃ r, files i = some r ∧ r.owner = none ∧ r.content = none
  | .held _ i => ∃ r, files i = some r ∧ r.owner = some w ∧ r.content = none
  | .written i | .admitted i => ∃ r, files i = some r ∧ r.owner = some w
  | _ => True

/-- What holds in every state; where writers are careful, what admissions have seen still holds. -/
structure GuardInv (careful : Prop) (s : GuardState W) : Prop where
  ids : ∀ i r, s.files i = some r → i < s.nextId
  owner : ∀ i r w, s.files i = some r → r.owner = some w → (s.phase w).Owns i
  file : ∀ w, FileOf s.files w (s.phase w)
  consumed : ∀ i r, s.files i = some r → r.consumed ≤ r.content.getD 0
  lock : ∀ w, (s.phase w).Admitting → s.lock = some w
  holder : ∀ w, s.lock = some w → (s.phase w).Admitting
  snapshot : careful → ∀ w, s.Snapshot (s.phase w)

/-- The files an admission has not gone through since its probe. -/
def Phase.Pending : Phase → Prop
  | .probed _ _ => True
  | .scanning _ _ todo _ _ => i ∈ todo
  | _ => False

/-- The files the admission in progress has not gone through since its probe. -/
def GuardState.Unscanned : Prop := ∃ w, (s.phase w).Pending i

end

/-- **In time**: no reservation that was used is given up before it is scanned. -/
def InTime (proc : W → P) (s : GuardState W) : GuardEvent W P → Prop
  | .release w => ∀ i r, s.files i = some r → r.owner = some w → s.Unscanned i → r.consumed = 0
  | .die p => ∀ i r w, s.files i = some r → r.owner = some w → proc w = p → s.Unscanned i →
      r.consumed = 0
  | _ => True

end Holo.Storage.Space
