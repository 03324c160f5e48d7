/-
Holo.Drive.Partitions — how a drive divides a cartridge into partitions.

The functions of `cdb_drive.rs` that work on the partition runtime of a drive: its first
setup, the medium partition mode page of MODE SELECT, and the layout that FORMAT MEDIUM
makes of it.  None of them looks at the medium.
-/
import Holo.Tape.State

namespace Holo.Drive

open Lib Storage Tape

/-- `DeviceIdentityProfile`, as far as partitions depend on it. -/
structure DriveProfile where
  /-- `native_capacity_bytes_for_profile`. -/
  nativeCapacityBytes : Nat
  /-- `max_additional_partitions_for_profile`. -/
  maxAdditionalPartitions : Nat
  deriving Repr, DecidableEq

/-- `u64::saturating_mul`. -/
def satMul64 (a b : Nat) : Nat := min (a * b) u64Max

/-- `u16::MAX`, which asks for all the room that is left. -/
def u16Max : Nat := 2 ^ 16 - 1

/-- A byte of a CDB or of a parameter list, zero where there is none. -/
def byteAt (b : Bytes) (i : Nat) : Nat := (b.getD i 0).toNat

def normalizedPartitionUnits (rawUnits : Nat) : Nat :=
  if rawUnits &&& 0x0F < 9 then 9 else rawUnits &&& 0x0F

def partitionUnitBytes (units : Nat) : Option Nat :=
  if units < 9 then none
  else if 12 < units - 9 then none
  else some ((1024 * 1024 * 1024) <<< (units - 9))

def partitionSizeToUnits (sizeBytes units : Nat) : Nat :=
  match partitionUnitBytes units with
  | none => 0
  | some unitSize =>
    if sizeBytes = 0 then 0 else min (satAdd64 sizeBytes (unitSize - 1) / unitSize) u16Max

section

variable (p : PartitionRuntime) (capacity : Nat) (profile : DriveProfile)

section

variable (page : Bytes) (s : TapeState)

/-- `medium_capacity_bytes_for_state`. -/
def mediumCapacityBytes : Nat :=
  match s.cartridgeCapacityBytes with
  | none => profile.nativeCapacityBytes
  | some capacity => if 0 < capacity then capacity else profile.nativeCapacityBytes

/-- One partition that takes the whole medium. -/
def wholeMedium : PartitionRuntime :=
  { p with
    partitionUnits := 9
    addlPartitionsDefined := 0
    partitionSizeUnits := [partitionSizeToUnits capacity 9, 0, 0, 0]
    partitionSizesBytes := [capacity, 0, 0, 0] }

/-- One partition with the mode page fields of a drive that was just set up. -/
def unpartitioned : PartitionRuntime :=
  { wholeMedium p capacity with fdp := 0x9C, mediumFmtRecognition := 0x03, activePartition := 0 }

def ensurePartitionRuntimeInitialized : TapeState :=
  if s.partitionRuntime.partitionSizesBytes.getD 0 0 ≠ 0 then s
  else
    { s with
      partitionRuntime := unpartitioned s.partitionRuntime (mediumCapacityBytes profile s) }

def applyMediumCapacityOverride : TapeState :=
  if capacity = 0 then s
  else if s.partitionRuntime.addlPartitionsDefined = 0 then
    { s with
      cartridgeCapacityBytes := some capacity
      partitionRuntime := unpartitioned s.partitionRuntime capacity }
  else { s with cartridgeCapacityBytes := some capacity }

def activePartitionCapacityBytes : Nat :=
  let count := min (max (s.partitionRuntime.addlPartitionsDefined + 1) 1) 4
  let idx := min s.partitionRuntime.activePartition (count - 1)
  let configured := s.partitionRuntime.partitionSizesBytes.getD idx 0
  if configured = 0 then mediumCapacityBytes profile s else configured

def parsePartitionSizes (addlPartitionsDefined : Nat) : Option (List Nat) :=
  let count := addlPartitionsDefined + 1
  if 4 < count then none
  else if page.length < 8 + count * 2 then none
  else some ((List.range 4).map fun i =>
    if i < count then byteAt page (8 + i * 2) * 256 + byteAt page (8 + i * 2 + 1) else 0)

/-- The loop of `validate_partition_definition`: whether a size that fills the medium was seen,
and the sum of the others. -/
def sumPartitionSizes (unitSize : Nat) : Nat → Bool → Nat → List Nat → Option (Bool × Nat)
  | _, seen, total, [] => some (seen, total)
  | idx, seen, total, raw :: rest =>
    if raw = u16Max then
      if seen = true ∨ 1 < idx then none
      else sumPartitionSizes unitSize (idx + 1) true total rest
    else sumPartitionSizes unitSize (idx + 1) seen (satAdd64 total (satMul64 unitSize raw)) rest

def validatePartitionDefinition
    (partitionUnits addlPartitionsDefined : Nat) (partitionSizes : List Nat) : Bool :=
  if profile.maxAdditionalPartitions < addlPartitionsDefined then false
  else if partitionUnits ≠ 0 ∧ partitionUnits < 9 then false
  else if partitionUnits = 0 ∧ 1 < addlPartitionsDefined then false
  else if partitionUnits = 0 then true
  else
    match partitionUnitBytes partitionUnits with
    | none => false
    | some unitSize =>
      match sumPartitionSizes unitSize 0 false 0
          (partitionSizes.take (addlPartitionsDefined + 1)) with
      | none => false
      | some (true, total) => decide (total < capacity)
      | some (false, total) => decide (total ≤ capacity)

def applyMediumPartitionModePage : Option TapeState :=
  if page.length < 8 then none
  else
    match parsePartitionSizes page (byteAt page 3) with
    | none => none
    | some sizes =>
      if (byteAt page 4 >>> 3) &&& 0x03 ≠ 0x03 then none
      else if validatePartitionDefinition (mediumCapacityBytes profile s) profile
          (byteAt page 6 &&& 0x0F) (byteAt page 3) sizes = false then none
      else
        some { s with
          partitionRuntime :=
            { s.partitionRuntime with
              partitionUnits :=
                if byteAt page 6 &&& 0x0F = 0 then 0 else normalizedPartitionUnits (byteAt page 6)
              addlPartitionsDefined := byteAt page 3
              fdp := byteAt page 4
              mediumFmtRecognition := byteAt page 5
              partitionSizeUnits := sizes } }

end

/-- Sizes in bytes from sizes in units; the index of the last one that fills the medium. -/
def partitionSizesInBytes (unitSize capacity : Nat) (sizes : List Nat) : Option (List Nat) :=
  let bytes := sizes.map fun raw => if raw = u16Max then 0 else satMul64 unitSize raw
  let total := bytes.foldl satAdd64 0
  match sizes.zipIdx.foldl (fun last p => if p.1 = u16Max then some p.2 else last) none with
  | some fill =>
    if capacity ≤ total then none else some (bytes.set fill (capacity - total))
  | none =>
    if capacity < total then none
    else if total < capacity then
      some (bytes.set 0 (satAdd64 (bytes.getD 0 0) (capacity - total)))
    else some bytes

/-- The partitions FORMAT MEDIUM makes: how many more than one, and their sizes. -/
def formatPartitionSizes (p : PartitionRuntime) : Option (Nat × List Nat) :=
  let units := p.partitionUnits &&& 0x0F
  if (p.fdp >>> 7) &&& 0x01 ≠ 0 then
    -- fixed data partitions
    let first := satMul64 capacity 95 / 100
    some (1, [first, capacity - first])
  else if units = 0 then
    if p.addlPartitionsDefined = 0 then some (p.addlPartitionsDefined, [capacity])
    else
      let asked := p.partitionSizeUnits.getD 0 0
      let percent := if asked = 0 ∨ 100 < asked then 50 else asked
      let first := satMul64 capacity percent / 100
      some (p.addlPartitionsDefined, [first, capacity - first])
  else
    match partitionUnitBytes units with
    | none => none
    | some unitSize =>
      (partitionSizesInBytes unitSize capacity
        (p.partitionSizeUnits.take (p.addlPartitionsDefined + 1))).map fun bytes =>
          (p.addlPartitionsDefined, bytes)

/-- `apply_format_medium_layout`, once the partition runtime is set up. -/
def applyFormatMediumLayout (format : Nat) (s : TapeState) : Option PartitionRuntime :=
  let p := s.partitionRuntime
  let capacity := mediumCapacityBytes profile s
  if format = 0 then some (wholeMedium p capacity)
  else if validatePartitionDefinition capacity profile (p.partitionUnits &&& 0x0F)
      p.addlPartitionsDefined p.partitionSizeUnits = false then none
  else if profile.maxAdditionalPartitions < p.addlPartitionsDefined then none
  else if (p.fdp >>> 5) &&& 0x07 = 0 then none
  else
    match formatPartitionSizes capacity p with
    | none => none
    | some (addl, bytes) =>
      let units := normalizedPartitionUnits (p.partitionUnits &&& 0x0F)
      let count := min (addl + 1) 4
      some { p with
        partitionUnits := units
        addlPartitionsDefined := addl
        partitionSizesBytes := bytes ++ List.replicate (4 - bytes.length) 0
        partitionSizeUnits := (List.range 4).map fun i =>
          if i < count then partitionSizeToUnits (bytes.getD i 0) units else 0 }

end

theorem ensurePartition_eq (profile : DriveProfile) (s : TapeState) :
    ∃ p, ensurePartitionRuntimeInitialized profile s = { s with partitionRuntime := p } := by
  unfold ensurePartitionRuntimeInitialized
  split
  · exact ⟨s.partitionRuntime, rfl⟩
  · exact ⟨_, rfl⟩

end Holo.Drive
