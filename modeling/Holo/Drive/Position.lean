/-
Holo.Drive.Position — READ POSITION and LOCATE.

A host knows the positions of a tape by numbers.  The drive keeps byte positions: in fixed
block mode it divides by the current block size, in variable mode it counts the starts of the
blocks and the filemarks.

Main results:
* `locate_reply`: what LOCATE answers, and where it leaves the tape;
* `positions_numbered_iff`: on which tapes the numbers are right.
-/
import Holo.Drive.Cdb
import Holo.Lib.Frame
import Holo.Lib.Numbering
import Holo.Lib.Wire

namespace Holo.Drive

open Lib Program Storage Tape List

/-! ## §1. READ POSITION. -/

structure PositionReport where
  currentPosition : Nat
  eodPosition : Nat
  fileNumber : Nat
  setNumber : Nat
  filemarkCount : Nat
  nextFilemark : Option Nat
  earlyWarning : Bool
  deriving Repr, DecidableEq

/-- `early_warning_window`, which nothing sets to another value. -/
def earlyWarningWindow : Nat := 8

section

variable (s : TapeState) (cdb : Bytes) (report : PositionReport)

def earlyWarningActive : Bool :=
  let count := min (max (s.partitionRuntime.addlPartitionsDefined + 1) 1) 4
  let idx := min s.partitionRuntime.activePartition (count - 1)
  let capacity := s.partitionRuntime.partitionSizesBytes.getD idx 0
  decide (capacity ≠ 0 ∧ capacity - max earlyWarningWindow 1 ≤ s.currentPosition)

def readPosition : TapeM PositionReport := do
  ensureLoaded
  let s ← tapeState
  validatePayloadLen s.filemarks.length
  return {
    currentPosition := s.currentPosition
    eodPosition := s.eodPosition
    fileNumber := s.filemarks.countP (· < s.currentPosition)
    setNumber := 0
    filemarkCount := s.filemarks.length
    nextFilemark := (s.filemarks.filter (s.currentPosition ≤ ·)).min?
    earlyWarning := earlyWarningActive s }

def transportInternalOffsetToLogical (currentPosition : Nat) : Nat :=
  match fixedBlockSize s with
  | some size => currentPosition / size
  | none =>
    let points := variableBlockAddressPoints s
    if s.eodPosition ≤ currentPosition then points.length else points.countP (· < currentPosition)

def readPositionFlags : UInt8 :=
  (if report.currentPosition = 0 then 0x80 else 0) ||| (if report.earlyWarning then 0x40 else 0)

section

variable (activePartition reported : Nat)

def readPositionShortResponse : Bytes :=
  [readPositionFlags report, UInt8.ofNat activePartition, 0, 0] ++
    beBytes 4 (min reported u32Max) ++ beBytes 4 (min reported u32Max) ++ [0, 0, 0, 0] ++
    beBytes 4 0

def readPositionLongResponse : Bytes :=
  [readPositionFlags report, 0, 0, 0] ++ beBytes 4 activePartition ++ beBytes 8 reported ++
    beBytes 8 report.fileNumber ++ beBytes 8 report.setNumber

def readPositionExtendedResponse : Bytes :=
  [readPositionFlags report, UInt8.ofNat activePartition] ++ beBytes 2 0x1C ++ [0, 0, 0, 0] ++
    beBytes 8 reported ++ beBytes 8 reported ++ beBytes 8 0

end

/-- The service action of a READ POSITION. -/
def positionForm : Nat := byteAt cdb 1 &&& 0x1F

def readPositionAllocationLength : Nat :=
  match positionForm cdb with
  | 0x00 => 20
  | 0x06 => 32
  | 0x08 => min 32 (readBe16 cdb 7)
  | _ => 20

def readPositionResponseBytes (activePartition : Nat) : Bytes :=
  let reported := transportInternalOffsetToLogical s report.currentPosition
  let out :=
    match positionForm cdb with
    | 0x06 => readPositionLongResponse report activePartition reported
    | 0x08 => readPositionExtendedResponse report activePartition reported
    | _ => readPositionShortResponse report activePartition reported
  out.take (readPositionAllocationLength cdb)

def readPositionDrive : TapeM Reply :=
  if positionForm cdb ∈ [0x00, 0x06, 0x08] then
    replying do
      let report ← readPosition
      let s ← tapeState
      return .good (readPositionResponseBytes s cdb report s.partitionRuntime.activePartition)
  else return invalidFieldInCdb

end

/-- The dispatcher on a READ POSITION, with the reply it gives as `info`. -/
def dispatchReadPosition (env : DriveEnv) (cdb : Bytes) : TapeM Reply := do
  if cdb = [] ∨ validateCdbStructure cdb = false then return invalidFieldInCdb
  else
    modifyTape (ensurePartitionRuntimeInitialized env.profile)
    readPositionDrive cdb

variable {env : DriveEnv} {t : TapeWorld} {bs : List Block}

theorem readPositionDrive_stays (cdb : Bytes) (t : TapeWorld) :
    (readPositionDrive cdb t).2 = t := by
  have hcheck : ∀ (bad : Prop) [Decidable bad] (e : TapeError),
      Preserves id (check bad e : TapeM Unit) := by
    intro bad _ e t
    unfold check
    split <;> rfl
  have htape : Preserves id tapeState := .bind .get fun _ => .pure _
  have hread : Preserves id readPosition :=
    .bind (.bind htape fun _ => hcheck _ _) fun _ => .bind htape fun _ =>
      .bind (hcheck _ _) fun _ => .pure _
  have hreply : Preserves id (readPositionDrive cdb) := by
    refine .ite (.bind (.attempt (.bind hread fun _ => .bind htape fun _ => .pure _))
      fun result => ?_) (.pure _)
    split
    · exact .pure _
    · exact .pure _
  exact hreply t

/-- **`dispatchRawCdb` agrees**: on a READ POSITION it leaves the drive as this dispatcher does, and
of the reply it tells that it is a report. -/
theorem dispatchRawCdb_readPosition {cdb : Bytes} (hop : byteAt cdb 0 = 0x34) (dataOut : Bytes)
    (initiator : String) (shared : SharedMedia) :
    dispatchRawCdb env cdb dataOut initiator shared t =
      (.ok (if cdb = [] ∨ validateCdbStructure cdb = false then invalidFieldInCdb else .info),
        (dispatchReadPosition env cdb t).2) := by
  unfold dispatchRawCdb dispatchReadPosition
  rw [run_tapeState_bind]
  split
  · rfl
  · have hstays := readPositionDrive_stays cdb (prepared env t)
    simp [hop, dispatchDriveDiscovery, reporting, run_bind, modifyTape]
    exact hstays.symm

/-- A READ POSITION whose reply has a position: the extended form may be cut off before it. -/
def AsksPosition (cdb : Bytes) : Prop :=
  validateCdbStructure cdb = true ∧ byteAt cdb 0 = 0x34 ∧
    (positionForm cdb = 0x00 ∨ positionForm cdb = 0x06 ∨
      positionForm cdb = 0x08 ∧ 16 ≤ readBe16 cdb 7)

/-- The position in the reply to a READ POSITION. -/
def reportedNumber (cdb data : Bytes) : Nat :=
  if positionForm cdb = 0x00 then readBe32 data 4 else readBe64 data 8

/-! ## §2. Fields of a reply. -/

theorem byteAt_take {a : Bytes} {i n : Nat} (h : i < n) : byteAt (a.take n) i = byteAt a i := by
  unfold byteAt
  rw [getD_eq_getElem?_getD, getD_eq_getElem?_getD, getElem?_take_of_lt h]

variable {n : Nat}

theorem readBe64_take {a : Bytes} (h : 16 ≤ n) : readBe64 (a.take n) 8 = readBe64 a 8 := by
  unfold readBe64 readBe32 readBe16
  rw [byteAt_take (by omega), byteAt_take (by omega), byteAt_take (by omega),
    byteAt_take (by omega), byteAt_take (by omega), byteAt_take (by omega),
    byteAt_take (by omega), byteAt_take (by omega)]

/-- The short form has room for four bytes. -/
theorem readBe32_short (report : PositionReport) (a n : Nat) :
    readBe32 ((readPositionShortResponse report a n).take 20) 4 = min n u32Max := by
  have hle : min n u32Max ≤ u32Max := min_le_right _ _
  unfold readPositionShortResponse
  generalize min n u32Max = k at *
  simp only [readBe32, readBe16, byteAt, beBytes, leBytes, reverse_cons, reverse_nil,
    nil_append, cons_append, take_succ_cons, getD_cons_succ,
    getD_cons_zero, UInt8.toNat_ofNat']
  unfold u32Max at hle
  omega

theorem readBe64_long (report : PositionReport) (a : Nat) (hn : n ≤ u64Max) :
    readBe64 (readPositionLongResponse report a n) 8 = n := by
  simp only [readPositionLongResponse, readBe64, readBe32, readBe16, byteAt, beBytes, leBytes,
    reverse_cons, reverse_nil, nil_append, cons_append,
    getD_cons_succ, getD_cons_zero, UInt8.toNat_ofNat']
  unfold u64Max at hn
  omega

theorem readBe64_extended (report : PositionReport) (a : Nat) (hn : n ≤ u64Max) :
    readBe64 (readPositionExtendedResponse report a n) 8 = n := by
  simp only [readPositionExtendedResponse, readBe64, readBe32, readBe16, byteAt, beBytes, leBytes,
    reverse_cons, reverse_nil, nil_append, cons_append,
    getD_cons_succ, getD_cons_zero, UInt8.toNat_ofNat']
  unfold u64Max at hn
  omega

/-! ## §3. The reply to a READ POSITION. -/

theorem prepared_tape (env : DriveEnv) (t : TapeWorld) :
    ∃ partitions, (prepared env t).tape = { t.tape with partitionRuntime := partitions } :=
  ensurePartition_eq env.profile t.tape

/-- The number READ POSITION gives for the position of the tape. -/
def positionNumber (s : TapeState) (cdb : Bytes) : Nat :=
  let number := transportInternalOffsetToLogical s s.currentPosition
  if positionForm cdb = 0x00 then min number u32Max else number

variable {s : TapeState} {cdb : Bytes}

theorem reportedNumber_response (report : PositionReport) (a : Nat) (hasks : AsksPosition cdb)
    (hcur : report.currentPosition = s.currentPosition)
    (hnum : transportInternalOffsetToLogical s s.currentPosition ≤ u64Max) :
    reportedNumber cdb (readPositionResponseBytes s cdb report a) = positionNumber s cdb := by
  unfold readPositionResponseBytes reportedNumber positionNumber readPositionAllocationLength
  rw [hcur]
  rcases hasks.2.2 with hform | hform | ⟨hform, hroom⟩
  · simp only [hform, if_true]
    exact readBe32_short _ _ _
  · simp only [hform]
    rw [if_neg (by decide), if_neg (by decide), readBe64_take (by decide), readBe64_long _ _ hnum]
  grind [readBe64_take, readBe64_extended]

/-- **What READ POSITION answers.** -/
theorem readPosition_reply {cdb : Bytes} (hloaded : t.tape.mountState ≠ .empty)
    (hasks : AsksPosition cdb)
    (hnum : transportInternalOffsetToLogical t.tape t.tape.currentPosition ≤ u64Max) :
    wp (dispatchReadPosition env cdb) (fun r t' => t' = prepared env t ∧
        (t.tape.filemarks.length ≤ u32Max → ∃ data, r = .good data) ∧
        ∀ data, r = .good data → reportedNumber cdb data = positionNumber t.tape cdb)
      (fun _ _ => False) t := by
  obtain ⟨hvalid, hop, hforms⟩ := hasks
  have hne : ¬ (cdb = [] ∨ validateCdbStructure cdb = false) := by
    rw [hvalid, not_or]
    refine ⟨fun hnil => ?_, by decide⟩
    rw [hnil] at hvalid
    cases hvalid
  have hform : positionForm cdb ∈ [0x00, 0x06, 0x08] := by grind
  obtain ⟨partitions, hprep⟩ := prepared_tape env t
  unfold dispatchReadPosition readPositionDrive
  rw [if_neg hne, wp_bind, wp_modifyTape, if_pos hform]
  refine replying_spec ?_
  have htape : t.setTape (ensurePartitionRuntimeInitialized env.profile t.tape) =
    prepared env t := rfl
  rw [htape, wp_bind]
  refine guard_ensureLoaded.bind_of_refuse (fun hno => absurd ?_ hno) (fun _ => ?_)
  · rw [hprep]
    exact hloaded
  refine (guard_validatePayloadLen _).bind_of_refuse (fun hlong _ => ?_) (fun _ => ?_)
  · grind
  rw [wp_pure, wp_bind, wp_tapeState, wp_pure]
  refine ⟨rfl, fun _ => ⟨_, rfl⟩, fun data hdata => ?_⟩
  obtain rfl := Reply.good.inj hdata
  -- setting up the partitions does not change what is counted
  have hsame : positionNumber (prepared env t).tape cdb = positionNumber t.tape cdb := by
    rw [hprep]
    rfl
  rw [← hsame]
  refine reportedNumber_response _ _ ⟨hvalid, hop, hforms⟩ rfl ?_
  rw [hprep]
  exact hnum

/-! ## §4. The reply to a LOCATE. -/

/-- The number in a LOCATE(10) or LOCATE(16). -/
def locateOperand (cdb : Bytes) : Option Nat :=
  if validateCdbStructure cdb = false then none
  else if byteAt cdb 0 = 0x2B then some (readBe32 cdb 3)
  else if byteAt cdb 0 = 0x92 then some (readBe64 cdb 4)
  else none

/-- The tape at a position. -/
def positioned (t : TapeWorld) (p : Nat) : TapeWorld :=
  t.setTape { t.tape with currentPosition := p }

theorem byteAt_lt (b : Bytes) (i : Nat) : byteAt b i < 256 := UInt8.toNat_lt _

theorem readBe32_lt (b : Bytes) (off : Nat) : readBe32 b off < 2 ^ 32 := by
  grind [byteAt_lt, readBe32, readBe16]

theorem readBe64_lt (b : Bytes) (off : Nat) : readBe64 b off < 2 ^ 64 := by
  grind [readBe32_lt, readBe64]

theorem locateOperand_le (h : locateOperand cdb = some n) : n ≤ u64Max := by
  have hshort := readBe32_lt cdb 3
  have hlong := readBe64_lt cdb 4
  unfold locateOperand at h
  unfold u64Max
  split at h
  next => cases h
  next =>
    split at h
    next =>
      cases h
      omega
    grind

/-- The CDB of a LOCATE(16). -/
def locate16Cdb (n : Nat) : Bytes := [0x92, 0, 0, 0] ++ beBytes 8 n ++ [0, 0, 0, 0]

theorem locateOperand_locate16Cdb (hn : n ≤ u64Max) : locateOperand (locate16Cdb n) = some n := by
  have hop : byteAt (locate16Cdb n) 0 = 0x92 := rfl
  have hlen : (locate16Cdb n).length = 16 := by simp [locate16Cdb]
  have hvalid : validateCdbStructure (locate16Cdb n) = true := by
    unfold validateCdbStructure
    rw [hlen, hop]
    decide
  have hread : readBe64 (locate16Cdb n) 4 = n := by
    simp only [locate16Cdb, readBe64, readBe32, readBe16, byteAt, beBytes, leBytes,
      reverse_cons, reverse_nil, nil_append, cons_append,
      getD_cons_succ, getD_cons_zero, UInt8.toNat_ofNat']
    unfold u64Max at hn
    omega
  unfold locateOperand
  rw [hvalid, hop, hread]
  rfl

/-- The LOCATE went to its target, or was refused. -/
def Located (t t' : TapeWorld) (target : Nat) (r : Reply) : Prop :=
  (target ≤ t.tape.eodPosition ∧ isAddressablePosition t.tape target = true ∧ r = .good [] ∧
      t' = positioned t target) ∨
    (¬ (target ≤ t.tape.eodPosition ∧ isAddressablePosition t.tape target = true) ∧
      (∃ e, r = .failed e) ∧ t' = t)

theorem executeWithSense_locate (hloaded : t.tape.mountState ≠ .empty) (target : Nat) :
    wp (executeWithSense env (.locate target)) (fun r t' => Located t t' target r)
      (fun _ _ => False) t := by
  refine replying_spec ?_
  rw [wp_bind]
  refine wp_noData ?_
  refine guard_ensureLoaded.bind_of_pass hloaded ?_
  refine (Guard.check _ _).bind_of_refuse (fun hbeyond e => .inr ⟨fun hin => ?_, ⟨e, rfl⟩, rfl⟩)
    (fun hle => ?_)
  · exact hbeyond (not_lt.mpr hin.1)
  refine (Guard.check _ _).bind_of_refuse (fun hno e => .inr ⟨fun hin => ?_, ⟨e, rfl⟩, rfl⟩)
    (fun hyes => ?_)
  · exact hno (by rw [hin.2]; decide)
  · exact .inl ⟨not_lt.mp hle, by simpa using hyes, rfl, rfl⟩

theorem length_of_valid {k : Nat} (hvalid : ¬ validateCdbStructure cdb = false)
    (hk : expectedCdbLength (byteAt cdb 0) = some k) : cdb.length = k := by
  grind [validateCdbStructure]

variable {dataOut : Bytes} {initiator : String} {shared : SharedMedia}

theorem mediumCommand_locate (hop : byteAt cdb 0 = 0x2B) (hlen : cdb.length = 10) :
    mediumCommand env cdb dataOut initiator s =
      .ok (.locate (transportLogicalToInternalOffset s (readBe32 cdb 3))) := by
  apply mediumCommand_of_no_transfer
  · simp [isDataWriteOpcode, hop]
  · simp [hop]
  · simp [decodeCdbToCommand, hop, hlen]

/-- **What LOCATE answers, and where it leaves the tape.** -/
theorem locate_reply (hloaded : t.tape.mountState ≠ .empty) (hop : locateOperand cdb = some n) :
    wp (dispatchRawCdb env cdb dataOut initiator shared)
      (fun r t' => Located (prepared env t) t' (transportLogicalToInternalOffset t.tape n) r)
      (fun _ _ => False) t := by
  obtain ⟨partitions, hprep⟩ := prepared_tape env t
  have hloaded' : (prepared env t).tape.mountState ≠ .empty := by
    rw [hprep]
    exact hloaded
  have hplace : ∀ k, transportLogicalToInternalOffset (prepared env t).tape k =
      transportLogicalToInternalOffset t.tape k := by
    intro k
    rw [hprep]
    rfl
  have hprepared : t.setTape (ensurePartitionRuntimeInitialized env.profile t.tape) =
    prepared env t := rfl
  unfold locateOperand at hop
  split at hop
  next => cases hop
  next hvalid =>
    have hne : ¬ (cdb = [] ∨ validateCdbStructure cdb = false) := by
      refine not_or.mpr ⟨fun hnil => hvalid ?_, hvalid⟩
      rw [hnil]
      decide
    unfold dispatchRawCdb
    rw [wp_bind, wp_tapeState, if_neg hne]
    -- LOCATE(10) is decoded to a command, LOCATE(16) has a handler of its own
    split at hop
    next h2B =>
      cases hop
      rw [h2B, if_neg (by decide), if_neg (by decide), wp_bind, wp_modifyTape]
      have hdisc : dispatchDriveDiscovery env cdb dataOut shared = none := by
        unfold dispatchDriveDiscovery
        rw [h2B]
        rfl
      have hlen : cdb.length = 10 := length_of_valid hvalid (by rw [h2B]; rfl)
      have hcmd : mediumCommand env cdb dataOut initiator (prepared env t).tape =
          .ok (.locate (transportLogicalToInternalOffset t.tape (readBe32 cdb 3))) := by
        rw [mediumCommand_locate h2B hlen, hplace]
      rw [hdisc]
      unfold dispatchMedium
      rw [wp_bind, wp_tapeState, hprepared, hcmd]
      exact executeWithSense_locate hloaded' _
    next =>
      split at hop
      next h92 =>
        cases hop
        rw [h92, if_neg (by decide), if_neg (by decide), wp_bind, wp_modifyTape]
        have hdisc : dispatchDriveDiscovery env cdb dataOut shared =
            some (locate16Drive env cdb) := by
          unfold dispatchDriveDiscovery
          rw [h92]
          rfl
        have hlen : cdb.length = 16 := length_of_valid hvalid (by rw [h92]; rfl)
        rw [hdisc]
        unfold locate16Drive
        rw [wp_bind, wp_tapeState, hprepared, if_neg (by omega), hplace]
        exact executeWithSense_locate hloaded' _
      next => cases hop

/-! ## §5. The objects on a tape. -/

/-- The blocks and the filemarks, up to the end of data. -/
def objectStrip (s : TapeState) : Strip := ⟨s.blockLengths, s.filemarks, s.eodPosition⟩

variable {p : Nat}

theorem not_inside (h : (objectStrip s).Boundary p) {b : Nat × Nat} (hb : b ∈ s.blockLengths) :
    ¬ (b.1 < p ∧ p < b.1 + b.2) := h.2 b hb

section

variable (h : Tracked env.tape t bs)
include h

theorem objectStrip_sound : (objectStrip t.tape).Sound := by
  have hspans : (objectStrip t.tape).spans = lengthsOf bs := h.lengths
  constructor
  case ordered =>
    rw [hspans]
    exact pairwise_map.mpr h.recorded.ordered
  case pos =>
    intro b hb
    rw [hspans] at hb
    obtain ⟨c, hc, rfl⟩ := mem_map.mp hb
    exact length_pos_iff.mpr (h.recorded.payload_ne h.diskInv hc)
  case below =>
    intro b hb
    rw [hspans] at hb
    obtain ⟨c, hc, rfl⟩ := mem_map.mp hb
    exact h.blocksEnd c hc
  case marksBelow => exact h.marksEnd

/-- The address points of variable mode are the points of the strip. -/
theorem variableBlockAddressPoints_eq :
    variableBlockAddressPoints t.tape = (objectStrip t.tape).points := by
  have hstarts : t.tape.blockStarts = t.tape.blockLengths.map Prod.fst := by
    rw [h.starts, h.lengths]
    unfold lengthsOf
    rw [map_map]
    rfl
  unfold variableBlockAddressPoints Strip.points Strip.starts objectStrip
  rw [hstarts]
  rfl

/-- READ POSITION and LOCATE number the objects, by rank or by size. -/
theorem transport_variable (hmode : fixedBlockSize t.tape = none) :
    transportInternalOffsetToLogical t.tape = (objectStrip t.tape).rank ∧
      transportLogicalToInternalOffset t.tape =
        (objectStrip t.tape).select (satAdd64 t.tape.eodPosition 1) := by
  constructor
  · funext p
    unfold transportInternalOffsetToLogical Strip.rank
    rw [hmode, ← variableBlockAddressPoints_eq h]
    rfl
  · funext n
    unfold transportLogicalToInternalOffset Strip.select
    rw [hmode, ← variableBlockAddressPoints_eq h]
    rfl

omit h in
theorem transport_fixed {size : Nat} (hmode : fixedBlockSize s = some size) :
    transportInternalOffsetToLogical s = (· / size) ∧
      transportLogicalToInternalOffset s = fun n => min (n * size) u64Max := by
  grind [transportInternalOffsetToLogical, transportLogicalToInternalOffset, satMul64]

omit h in
theorem fixedBlockSize_some {size : Nat} (h : fixedBlockSize s = some size) :
    0 < size ∧ s.blockMode.fixedBlockSize = size := by
  grind [fixedBlockSize]

omit h in
/-- The objects follow each other without a gap; in fixed block mode each has the block size. -/
structure Laid (s : TapeState) : Prop where
  tiled : fixedBlockSize s = none → (objectStrip s).Tiled
  cells : ∀ size, fixedBlockSize s = some size → (objectStrip s).Grid size

/-- **The numbers are right if the objects are laid so.** -/
theorem numbersBy_iff :
    (objectStrip t.tape).NumbersBy u64Max (transportInternalOffsetToLogical t.tape)
      (transportLogicalToInternalOffset t.tape) ↔ Laid t.tape := by
  have hsound := objectStrip_sound h
  have hstop : (objectStrip t.tape).stop ≤ u64Max := h.eod
  cases hmode : fixedBlockSize t.tape with
  | none =>
    have hbeyond : (objectStrip t.tape).stop ≤ satAdd64 t.tape.eodPosition 1 :=
      le_min (Nat.le_succ _) hstop
    rw [(transport_variable h hmode).1, (transport_variable h hmode).2,
      Strip.numbers_by_rank_iff hsound hbeyond hstop]
    refine ⟨fun ht => ⟨fun _ => ht, fun size hsize => ?_⟩, fun hl => hl.tiled hmode⟩
    rw [hmode] at hsize
    cases hsize
  | some size =>
    rw [(transport_fixed hmode).1, (transport_fixed hmode).2,
      Strip.numbers_by_size_iff hsound (fixedBlockSize_some hmode).1 hstop hstop]
    refine ⟨fun hg => ⟨fun hnone => ?_, fun size' hsize => ?_⟩, fun hl => hl.cells size hmode⟩
    · rw [hmode] at hnone
      cases hnone
    · rw [hmode] at hsize
      cases hsize
      exact hg

/-- The number of a position fits into eight bytes. -/
theorem transportInternalOffsetToLogical_le (hp : p ≤ u64Max) :
    transportInternalOffsetToLogical t.tape p ≤ u64Max := by
  cases hmode : fixedBlockSize t.tape with
  | none =>
    rw [(transport_variable h hmode).1]
    exact (Strip.rank_le _ _).trans ((Strip.length_points_le (objectStrip_sound h)).trans h.eod)
  | some size =>
    rw [(transport_fixed hmode).1]
    exact (Nat.div_le_self p size).trans hp

/-- LOCATE may go to every place of a number. -/
theorem isAddressablePosition_place
    (hle : transportLogicalToInternalOffset t.tape n ≤ t.tape.eodPosition) :
    isAddressablePosition t.tape (transportLogicalToInternalOffset t.tape n) = true := by
  have heod := h.eod
  unfold isAddressablePosition
  rw [if_neg (not_lt.mpr hle)]
  split
  next => rfl
  next hfixed =>
    split
    next => rfl
    next hno =>
      push Not at hno
      cases hmode : fixedBlockSize t.tape with
      | none =>
        -- fixed block mode without a size: a place is an object, or the end of data
        have hplace := congrFun (transport_variable h hmode).2 n
        rcases (objectStrip t.tape).select_cases (satAdd64 t.tape.eodPosition 1) n with
          hstop | hmem | ⟨-, hbeyond⟩
        · exact absurd (hplace.trans hstop) hno.2.1
        · rw [← hplace] at hmem
          rcases Strip.mem_starts.mp hmem with hspan | hmark
          · exact absurd (mem_map.mpr hspan) hno.2.2.1
          · exact absurd hmark hno.2.2.2
        grind [satAdd64]
      | some size =>
        obtain ⟨hpos, hsize⟩ := fixedBlockSize_some hmode
        have hplace := congrFun (transport_fixed hmode).2 n
        rw [hsize, if_pos hpos, decide_eq_true_eq, hplace]
        rw [hplace] at hle hno
        rcases le_total (n * size) u64Max with hin | hout
        · rw [min_eq_left hin]
          exact Nat.mul_mod_left _ _
        · rw [min_eq_right hout] at hle hno
          omega

/-! ## §6. Numbers and positions. -/

section

omit h

/-- READ POSITION and LOCATE do what they should, on this tape. -/
structure PositionsNumbered (env : DriveEnv) (t : TapeWorld) : Prop where
  /-- At a boundary READ POSITION reports how many blocks and filemarks precede it. -/
  reported : ∀ p, (objectStrip t.tape).Boundary p → ∀ cdb, AsksPosition cdb →
    ∃ data t', dispatchReadPosition env cdb (positioned t p) = (.ok (.good data), t') ∧
      reportedNumber cdb data = (objectStrip t.tape).preceding p
  /-- A LOCATE to the number, from anywhere, ends at the boundary again. -/
  restored : ∀ p, (objectStrip t.tape).Boundary p → ∀ cdb data t', AsksPosition cdb →
    dispatchReadPosition env cdb (positioned t p) = (.ok (.good data), t') →
    ∀ q ≤ t.tape.eodPosition, ∀ locateCdb dataOut initiator shared,
      locateOperand locateCdb = some (reportedNumber cdb data) →
      ∀ r t'',
        dispatchRawCdb env locateCdb dataOut initiator shared (positioned t q) = (.ok r, t'') →
        r = .good [] ∧ t''.tape.currentPosition = p
  /-- Any LOCATE ends at a boundary, or fails and leaves the position. -/
  landed : ∀ q ≤ t.tape.eodPosition, ∀ cdb dataOut initiator shared,
    (locateOperand cdb).isSome = true →
    ∀ r t', dispatchRawCdb env cdb dataOut initiator shared (positioned t q) = (.ok r, t') →
      (r = .good [] ∧ (objectStrip t.tape).Boundary t'.tape.currentPosition) ∨
        (r ≠ .good [] ∧ t'.tape.currentPosition = q)

/-- The READ POSITION of the short form. -/
def shortFormCdb : Bytes := [0x34, 0x00, 0, 0, 0, 0, 0, 0, 0, 0]

/-- The READ POSITION of the long form. -/
def longFormCdb : Bytes := [0x34, 0x06, 0, 0, 0, 0, 0, 0, 0, 0]

theorem asksPosition_shortForm : AsksPosition shortFormCdb := ⟨rfl, rfl, .inl rfl⟩

theorem asksPosition_longForm : AsksPosition longFormCdb := ⟨rfl, rfl, .inr (.inl rfl)⟩

end

theorem Tracked.positioned (hp : p ≤ t.tape.eodPosition) :
    Tracked env.tape (positioned t p) bs := (h.moved (hp.trans h.eod)).tracked

/-- A LOCATE on a mounted cartridge: to the place of its number, or not at all. -/
theorem located_cases {q n : Nat} (hq : q ≤ t.tape.eodPosition)
    (hop : locateOperand cdb = some n) {r : Reply} {t' : TapeWorld}
    (hrun : dispatchRawCdb env cdb dataOut initiator shared (positioned t q) = (.ok r, t')) :
    (transportLogicalToInternalOffset t.tape n ≤ t.tape.eodPosition ∧ r = .good [] ∧
        t'.tape.currentPosition = transportLogicalToInternalOffset t.tape n) ∨
      (t.tape.eodPosition < transportLogicalToInternalOffset t.tape n ∧ r ≠ .good [] ∧
        t'.tape.currentPosition = q) := by
  have htr := Tracked.positioned h hq
  obtain ⟨partitions, hprep⟩ := prepared_tape env (positioned t q)
  have hloc := (locate_reply htr.loaded hop).of_ok hrun
  rcases hloc with ⟨hle, -, hr, rfl⟩ | ⟨hno, ⟨e, hr⟩, rfl⟩
  · rw [hprep] at hle
    exact .inl ⟨hle, hr, rfl⟩
  refine .inr ⟨not_le.mp fun hle => hno ⟨?_, ?_⟩, by rw [hr]; simp, by rw [hprep]; rfl⟩
  · rw [hprep]
    exact hle
  · rw [hprep]
    exact isAddressablePosition_place htr hle

/-- The number READ POSITION reports at a position. -/
theorem reported_cases {p : Nat} (hp : p ≤ t.tape.eodPosition)
    {cdb : Bytes} (hasks : AsksPosition cdb) :
    ∃ r, dispatchReadPosition env cdb (positioned t p) = (.ok r, prepared env (positioned t p)) ∧
      (t.tape.filemarks.length ≤ u32Max → ∃ data, r = .good data) ∧
      ∀ data, r = .good data → reportedNumber cdb data =
          if positionForm cdb = 0x00 then min (transportInternalOffsetToLogical t.tape p) u32Max
          else transportInternalOffsetToLogical t.tape p := by
  have htr := Tracked.positioned h hp
  have hnum := transportInternalOffsetToLogical_le h (hp.trans h.eod)
  obtain ⟨r, t', hrun, rfl, hgood, hdata⟩ :=
    (@readPosition_reply env (Drive.positioned t p) cdb htr.loaded hasks hnum).exists_ok
  exact ⟨r, hrun, hgood, hdata⟩

omit h in
theorem PositionsNumbered.numbersBy (hn : PositionsNumbered env t) (h : Tracked env.tape t bs) :
    (objectStrip t.tape).NumbersBy u64Max (transportInternalOffsetToLogical t.tape)
      (transportLogicalToInternalOffset t.tape) := by
  have hle : ∀ {p}, (objectStrip t.tape).Boundary p → p ≤ t.tape.eodPosition :=
    fun hp => (objectStrip_sound h).boundary_le hp
  -- the reply in the long form has the number in full
  have hlong : ∀ p, (objectStrip t.tape).Boundary p → ∃ data t',
      dispatchReadPosition env longFormCdb (positioned t p) = (.ok (.good data), t') ∧
      reportedNumber longFormCdb data = transportInternalOffsetToLogical t.tape p := by
    intro p hp
    obtain ⟨data, t', hrun, -⟩ := hn.reported p hp longFormCdb asksPosition_longForm
    obtain ⟨r, hrun', -, hdata⟩ := reported_cases h (hle hp) asksPosition_longForm
    rw [hrun] at hrun'
    obtain rfl : Reply.good data = r := Except.ok.inj (congrArg Prod.fst hrun')
    exact ⟨data, t', hrun, (hdata data rfl).trans (if_neg (by decide))⟩
  have hanswer : ∀ (cdb : Bytes) (u : TapeWorld) {n : Nat}, u.tape.mountState ≠ .empty →
      locateOperand cdb = some n →
      ∃ r u', dispatchRawCdb env cdb [] "" .cartridge u = (.ok r, u') := by
    intro cdb u n hloaded hop
    obtain ⟨r, u', hrun, -⟩ := (locate_reply hloaded hop).exists_ok
    exact ⟨r, u', hrun⟩
  refine ⟨fun p hp => ?_, fun p hp => ?_, fun n hlimit hplace => ?_⟩
  · obtain ⟨data, t', hrun, hnum⟩ := hlong p hp
    obtain ⟨data', t'', hrun', hcount⟩ := hn.reported p hp longFormCdb asksPosition_longForm
    grind
  · obtain ⟨data, t', hrun, hnum⟩ := hlong p hp
    have hop : locateOperand (locate16Cdb (transportInternalOffsetToLogical t.tape p)) =
        some (reportedNumber longFormCdb data) := by
      rw [hnum]
      exact locateOperand_locate16Cdb (transportInternalOffsetToLogical_le h ((hle hp).trans h.eod))
    obtain ⟨r, u, hlocate⟩ := hanswer _ (positioned t 0) h.loaded hop
    obtain ⟨hr, hcur⟩ := hn.restored p hp longFormCdb data t' asksPosition_longForm hrun 0
      (Nat.zero_le _) _ [] "" .cartridge hop r u hlocate
    rcases located_cases h (Nat.zero_le _) hop hlocate with ⟨-, -, hat⟩ | ⟨-, hbad, -⟩
    · rw [hnum] at hat
      exact hat.symm.trans hcur
    · exact absurd hr hbad
  · have hop := locateOperand_locate16Cdb hlimit
    obtain ⟨r, u, hlocate⟩ := hanswer _ (positioned t 0) h.loaded hop
    have hland := hn.landed 0 (Nat.zero_le _) _ [] "" .cartridge (by rw [hop]; rfl) r u hlocate
    rcases located_cases h (Nat.zero_le _) hop hlocate with ⟨-, hr, hat⟩ | ⟨hbeyond, -, -⟩
    · rw [hat] at hland
      exact hland.elim And.right fun hbad => absurd hr hbad.1
    · exact absurd hbeyond (not_lt.mpr hplace)

omit h in
/-- The short form can report the number of every object. -/
theorem PositionsNumbered.few (hn : PositionsNumbered env t) (h : Tracked env.tape t bs) :
    (objectStrip t.tape).starts.length ≤ u32Max := by
  have hsound := objectStrip_sound h
  obtain ⟨data, t', hrun, hcount⟩ :=
    hn.reported _ hsound.boundary_stop shortFormCdb asksPosition_shortForm
  obtain ⟨r, hrun', -, hdata⟩ :=
    @reported_cases env t bs h (objectStrip t.tape).stop le_rfl _ asksPosition_shortForm
  rw [hrun] at hrun'
  obtain rfl : Reply.good data = r := Except.ok.inj (congrArg Prod.fst hrun')
  have hnum := (hdata data rfl).trans (if_pos rfl)
  grind [Strip.preceding_stop]

/-- The numbers and the room for them make the positions numbered. -/
theorem positionsNumbered_of
    (hby : (objectStrip t.tape).NumbersBy u64Max (transportInternalOffsetToLogical t.tape)
      (transportLogicalToInternalOffset t.tape))
    (hfew : (objectStrip t.tape).starts.length ≤ u32Max) : PositionsNumbered env t := by
  have hsound := objectStrip_sound h
  have hle : ∀ {p}, (objectStrip t.tape).Boundary p → p ≤ t.tape.eodPosition :=
    fun hp => hsound.boundary_le hp
  -- every form has room for the number of a boundary
  have hreport : ∀ p, (objectStrip t.tape).Boundary p → ∀ cdb data, AsksPosition cdb → ∀ t',
      dispatchReadPosition env cdb (positioned t p) = (.ok (.good data), t') →
      reportedNumber cdb data = transportInternalOffsetToLogical t.tape p := by
    intro p hp cdb data hasks t' hrun
    obtain ⟨r, hrun', -, hdata⟩ := reported_cases h (hle hp) hasks
    rw [hrun] at hrun'
    obtain rfl : Reply.good data = r := Except.ok.inj (congrArg Prod.fst hrun')
    have hsmall : transportInternalOffsetToLogical t.tape p ≤ u32Max := by
      rw [hby.counts p hp, Strip.preceding_eq hsound hp.2]
      exact countP_le_length.trans hfew
    rw [hdata data rfl, min_eq_left hsmall, ite_self]
  constructor
  case reported =>
    intro p hp cdb hasks
    obtain ⟨r, hrun, hgood, -⟩ := reported_cases h (hle hp) hasks
    obtain ⟨data, rfl⟩ := hgood (le_trans (by
      simp [Strip.starts, objectStrip]) hfew)
    exact ⟨data, _, hrun, (hreport p hp cdb data hasks _ hrun).trans (hby.counts p hp)⟩
  case restored =>
    intro p hp cdb data t' hasks hrun q hq locateCdb dataOut initiator shared hop r t'' hlocate
    rw [hreport p hp cdb data hasks t' hrun] at hop
    have hback := hby.returns p hp
    grind [located_cases]
  case landed =>
    intro q hq cdb dataOut initiator shared hsome r t' hlocate
    obtain ⟨n, hop⟩ := Option.isSome_iff_exists.mp hsome
    rcases located_cases h hq hop hlocate with ⟨hin, hr, hat⟩ | ⟨-, hr, hat⟩
    · refine .inl ⟨hr, ?_⟩
      rw [hat]
      exact hby.lands n (locateOperand_le hop) hin
    · exact .inr ⟨hr, hat⟩

end

/-- **On which tapes the numbers are right.**  In every session, with any changes of the block
mode and remounts: exactly where the objects follow each other without a gap, each of the
block size in fixed block mode, and there are no more than four bytes can count. -/
theorem positions_numbered_iff {t₀ : TapeWorld} {actions : List Action}
    (hlaw : env.tape.storage.codecs.Lawful) (hhits : env.tape.HitsVerified)
    (hmount : FreshMount env.tape t₀) (hrun : Run (WithinStep env.tape) t₀ actions t) :
    PositionsNumbered env t ↔
      Laid t.tape ∧ t.tape.blockLengths.length + t.tape.filemarks.length ≤ u32Max := by
  obtain ⟨⟨bs, h⟩, -⟩ := session_mounted hlaw hhits hmount hrun
  have hlen : (objectStrip t.tape).starts.length =
      t.tape.blockLengths.length + t.tape.filemarks.length := by
    unfold Strip.starts objectStrip
    rw [length_append, length_map]
  rw [← hlen, ← numbersBy_iff h]
  exact ⟨fun hn => ⟨hn.numbersBy h, hn.few h⟩, fun hn => positionsNumbered_of h hn.1 hn.2⟩

/-- The positions of a block and a filemark are numbered. -/
theorem positions_numbered_block_mark : PositionsNumbered .standard blockAndMark := by
  have hmark : WithinStep .standard oneBlock (.command (.writeFilemarks 1 none)) blockAndMark :=
    .command (by decide +kernel) trivial
  have hstrip : objectStrip blockAndMark.tape = ⟨[(0, 3)], [3], 4⟩ := by
    have hlengths : blockAndMark.tape.blockLengths = [(0, 3)] := by decide +kernel
    have hmarks : blockAndMark.tape.filemarks = [3] := by decide +kernel
    have heod : blockAndMark.tape.eodPosition = 4 := by decide +kernel
    unfold objectStrip
    rw [hlengths, hmarks, heod]
  have hrun := Run.snoc run_oneBlock hmark
  have hfew :
      blockAndMark.tape.blockLengths.length + blockAndMark.tape.filemarks.length ≤ u32Max := by
    decide +kernel
  have hmode' : fixedBlockSize blockAndMark.tape = none := by decide +kernel
  have hlaid : Laid blockAndMark.tape := by
    refine ⟨fun _ => ?_, fun size hsize => ?_⟩
    · rw [hstrip]
      exact ⟨by decide, by unfold Strip.Outside; decide, by decide, by decide⟩
    · rw [hmode'] at hsize
      cases hsize
  exact (@positions_numbered_iff .standard blockAndMark blankMounted _
    Codecs.stored_lawful (.inl rfl) blankMounted_freshMount hrun).mpr ⟨hlaid, hfew⟩

/-- A block of three bytes, and then fixed block mode of two bytes. -/
def mixedModes : TapeWorld := afterCommands .standard oneBlock [.setBlockModeFixed 2]

/-- LOCATE to object 1 of it. -/
def locatedAtOne : Except TapeError Reply × TapeWorld :=
  dispatchRawCdb .standard (locate16Cdb 1) [] "" .cartridge mixedModes

/-- **LOCATE to the number of the end of data ends inside the block.** -/
theorem locate_ends_inside_block : FreshMount .standard blankMounted ∧
    Run (WithinStep .standard) blankMounted [.command .setBlockModeVariable,
      .command (.writeData [1, 2, 3] none), .command (.setBlockModeFixed 2)] mixedModes ∧
    mixedModes.tape.currentPosition = mixedModes.tape.eodPosition ∧
    (∃ data, (dispatchReadPosition .standard longFormCdb mixedModes).1.toOption =
      some (.good data) ∧ reportedNumber longFormCdb data = 1) ∧
    locatedAtOne.1.toOption = some (.good []) ∧ locatedAtOne.2.tape.currentPosition = 2 ∧
    (0, 3) ∈ mixedModes.tape.blockLengths ∧ ¬ PositionsNumbered .standard mixedModes := by
  have hfixed : WithinStep .standard oneBlock (.command (.setBlockModeFixed 2)) mixedModes :=
    .command (by decide +kernel) trivial
  have hgood : locatedAtOne.1.toOption = some (.good []) := by decide +kernel
  have hpos : locatedAtOne.2.tape.currentPosition = 2 := by decide +kernel
  have hin : ((0, 3) : Nat × Nat) ∈ mixedModes.tape.blockLengths := by decide +kernel
  refine ⟨blankMounted_freshMount, .snoc run_oneBlock hfixed,
    by decide +kernel,
    ⟨readPositionLongResponse ⟨3, 3, 0, 0, 0, none, false⟩ 0 1, by decide +kernel,
      by decide⟩, hgood, hpos, hin, fun hn => ?_⟩
  have hat : ∀ t, positioned t t.tape.currentPosition = t := fun _ => rfl
  have hend : mixedModes.tape.currentPosition ≤ mixedModes.tape.eodPosition := by decide +kernel
  have hop : (locateOperand (locate16Cdb 1)).isSome = true := by decide
  have hland := hn.landed _ hend (locate16Cdb 1) [] "" .cartridge hop _ _
    (by rw [hat]; exact run_eq_of_toOption hgood)
  rcases hland with ⟨-, hboundary⟩ | ⟨hbad, -⟩
  · unfold locatedAtOne at hpos
    rw [hpos] at hboundary
    exact not_inside hboundary hin (by decide)
  · exact hbad rfl

end Holo.Drive
