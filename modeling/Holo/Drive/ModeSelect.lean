/-
Holo.Drive.ModeSelect — what a MODE SELECT that is refused has already set.

`apply_mode_select_payload_drive` sets the buffered mode, the block mode and the fields of
each page as it reads them, so that a parameter list that is refused at its block descriptor
or at a page has set what stands before.  Whether a page is refused depends on its bytes and
on the capacity of the medium only, which no page changes: the pages that are set are those
in front of the first one that is refused.

Main results:
* `modeSelectDrive_eq`: the block mode, compression and partitions are those of
  `modeSelectDrive`;
* `applyPages_eq`: the pages that are set;
* `modeSelect_atomic_iff`: a MODE SELECT that is refused leaves the settings as they were
  exactly when its header, its block descriptor and these pages say what was set already.
-/
import Holo.Drive.Cdb
import Holo.Lib.Assoc

namespace Holo.Drive

open Lib Program Storage Tape List

/-! ## §1. The command. -/

/-- The drive with the fields of `TapeState` that only MODE SENSE and MODE SELECT look at. -/
structure ModeState where
  tape : TapeState
  bufferedMode : Bool
  selectDataCompressionAlgorithm : Bool
  earlyWarningWindow : Nat
  deriving Repr, DecidableEq

/-- A device configuration page. -/
def ModePage.configures (page : ModePage) : Bool :=
  decide (page.code = 0x10 ∧ page.subPage = false ∧ 16 ≤ page.bytes.length)

/-- A data compression page. -/
def ModePage.compresses (page : ModePage) : Bool :=
  decide (page.code = 0x0F ∧ page.subPage = false ∧ 4 ≤ page.bytes.length)

/-- SEW, synchronize at early warning, in a device configuration page. -/
def ModePage.sew (page : ModePage) : Bool := decide (byteAt page.bytes 10 &&& 0x08 ≠ 0)

/-- The compression algorithm in a device configuration page. -/
def ModePage.algorithm (page : ModePage) : Bool := decide (byteAt page.bytes 14 ≠ 0)

section

variable (env : DriveEnv) (payload : Bytes) (kind : ModeSelectKind)

/-- The compression in a data compression page. -/
def ModePage.compression (page : ModePage) : Bool :=
  env.dataCompressionAllowed && decide (byteAt page.bytes 2 &&& 0x80 ≠ 0)

/-- One mode page, with all it sets, unless it is refused. -/
def ModePage.applyTo (page : ModePage) (s : ModeState) : Option ModeState :=
  if page.configures = true then
    some { s with
      earlyWarningWindow := if page.sew = true then 8 else s.earlyWarningWindow
      selectDataCompressionAlgorithm := page.algorithm }
  else if page.compresses = true then
    some { s with tape := { s.tape with dataCompressionEnabled := page.compression env } }
  else if page.setsPartitions = true then
    (applyMediumPartitionModePage env.profile page.bytes s.tape).map fun tape =>
      { s with tape := tape }
  else some s

/-- The loop over the pages: whether all were accepted, and the drive. -/
def applyPages (env : DriveEnv) : List ModePage → ModeState → Bool × ModeState
  | [], s => (true, s)
  | page :: pages, s =>
    match page.applyTo env s with
    | none => (false, s)
    | some s' => applyPages env pages s'

/-- The buffered mode in the device specific parameter of a parameter list. -/
def ModeSelectKind.buffered : Bool :=
  let deviceSpecificParameter := byteAt payload (if kind = .mode6 then 2 else 3)
  decide ((deviceSpecificParameter >>> 4) &&& 0x07 ≠ 0)

/-- The block length in the block descriptor of a parameter list. -/
def ModeSelectKind.blockLength : Nat := readBe24 payload (kind.header + 5)

/-- The block mode of a block length. -/
def blockLengthMode (blockLength : Nat) : BlockModeProfile :=
  if blockLength = 0 then ⟨.variable, 0⟩ else ⟨.fixed, blockLength⟩

/-- The drive with another block mode. -/
def ModeState.withBlockMode (s : ModeState) (mode : BlockModeProfile) : ModeState :=
  { s with tape := { s.tape with blockMode := mode } }

section

variable (cdb dataOut : Bytes) (s : ModeState)

/-- `apply_mode_select_payload_drive`, with all it sets. -/
def setModeSelectPayload : Bool × ModeState :=
  let buffered := { s with bufferedMode := kind.buffered payload }
  if payload.length < kind.header then (false, s)
  else if kind.descriptorLength payload = 0 then
    applyPages env (selectedPages payload kind) buffered
  else if payload.length < kind.header + kind.descriptorLength payload ∨
      kind.descriptorLength payload < 8 then (false, buffered)
  else if driveMaxBlockSize < kind.blockLength payload then (false, buffered)
  else
    applyPages env (selectedPages payload kind)
      (buffered.withBlockMode (blockLengthMode (kind.blockLength payload)))

/-- `mode_select_6_drive` and `mode_select_10_drive`: the reply and the drive. -/
def modeSelect : Reply × ModeState :=
  if kind = .mode10 ∧ cdb.length < 9 then (invalidFieldInCdb, s)
  else if kind.listLength cdb = 0 then (.good [], s)
  else if dataOut.length < kind.listLength cdb then (invalidFieldInCdb, s)
  else
    let result := setModeSelectPayload env (dataOut.take (kind.listLength cdb)) kind s
    (if result.1 then .good [] else invalidFieldInCdb, result.2)

end

end

/-! ## §2. The part of it that `modeSelectDrive` has. -/

theorem ModePage.apply_eq (env : DriveEnv) (page : ModePage) (s : ModeState) :
    page.apply env s.tape = (page.applyTo env s).map ModeState.tape := by
  unfold ModePage.apply ModePage.applyTo
  by_cases hconf : page.configures = true
  · have hcode := (of_decide_eq_true hconf).1
    rw [if_pos hconf, if_neg (by simp [hcode]), if_neg (by simp [setsPartitions, hcode])]
    rfl
  rw [if_neg hconf]
  unfold compresses
  simp only [decide_eq_true_eq]
  split
  · rfl
  split
  · rw [Option.map_map]
    exact Option.map_id'.symm
  · rfl

variable (env : DriveEnv) (kind : ModeSelectKind) (t : TapeWorld) (s : ModeState)

theorem applyModePages_eq (pages : List ModePage) :
    ∀ s : ModeState, applyModePages env pages (t.setTape s.tape) =
      (.ok (applyPages env pages s).1, t.setTape (applyPages env pages s).2.tape) := by
  induction pages with
  | nil => exact fun _ => rfl
  | cons page pages ih =>
    intro s
    unfold applyModePages applyPages
    have hstate : tapeState (t.setTape s.tape) = (.ok s.tape, t.setTape s.tape) := rfl
    rw [run_bind_ok hstate, page.apply_eq]
    cases page.applyTo env s with
    | none => rfl
    | some s' => exact ih s'

theorem applyModeSelectPayload_eq (payload : Bytes) :
    applyModeSelectPayload env payload kind (t.setTape s.tape) =
      (.ok (setModeSelectPayload env payload kind s).1,
        t.setTape (setModeSelectPayload env payload kind s).2.tape) := by
  unfold applyModeSelectPayload setModeSelectPayload
  split
  · rfl
  split
  · exact applyModePages_eq env t _ { s with bufferedMode := kind.buffered payload }
  split
  · rfl
  dsimp only
  by_cases hmax : driveMaxBlockSize < readBe24 payload (kind.header + 5)
  · have hmax' : driveMaxBlockSize < kind.blockLength payload := hmax
    rw [if_pos hmax, if_pos hmax']
    rfl
  · have hmax' : ¬ driveMaxBlockSize < kind.blockLength payload := hmax
    rw [if_neg hmax, if_neg hmax']
    exact applyModePages_eq env t _ (ModeState.withBlockMode
      { s with bufferedMode := kind.buffered payload } (blockLengthMode (kind.blockLength payload)))

/-- **A MODE SELECT and its settings** do the same to the tape. -/
theorem modeSelectDrive_eq (cdb dataOut : Bytes) :
    modeSelectDrive env kind cdb dataOut (t.setTape s.tape) =
      (.ok (modeSelect env kind cdb dataOut s).1,
        t.setTape (modeSelect env kind cdb dataOut s).2.tape) := by
  unfold modeSelectDrive modeSelect
  split
  · rfl
  split
  · rfl
  split
  · rfl
  · rw [run_bind_ok (applyModeSelectPayload_eq env kind t s _)]
    rfl

/-! ## §3. The pages that are set. -/

/-- What a medium partition page is refused for. -/
def partitionPageAccepted (profile : DriveProfile) (capacity : Nat) (page : Bytes) : Bool :=
  match parsePartitionSizes page (byteAt page 3) with
  | none => false
  | some sizes => decide ((byteAt page 4 >>> 3) &&& 0x03 = 0x03) &&
      validatePartitionDefinition capacity profile (byteAt page 6 &&& 0x0F) (byteAt page 3) sizes

/-- A page is refused only if it is a medium partition page. -/
def ModePage.accepted (page : ModePage) : Bool := !page.setsPartitions ||
  partitionPageAccepted env.profile (mediumCapacityBytes env.profile s.tape) page.bytes

/-- The partitions a medium partition page asks for. -/
def pagePartitions (p : PartitionRuntime) (page : ModePage) : PartitionRuntime :=
  { p with
    partitionUnits :=
      if byteAt page.bytes 6 &&& 0x0F = 0 then 0 else normalizedPartitionUnits (byteAt page.bytes 6)
    addlPartitionsDefined := byteAt page.bytes 3
    fdp := byteAt page.bytes 4
    mediumFmtRecognition := byteAt page.bytes 5
    partitionSizeUnits := (parsePartitionSizes page.bytes (byteAt page.bytes 3)).getD [] }

/-- What an accepted page sets, field by field. -/
def ModeState.set (s : ModeState) (page : ModePage) : ModeState where
  tape := { s.tape with
    dataCompressionEnabled :=
      if page.compresses = true then page.compression env else s.tape.dataCompressionEnabled
    partitionRuntime :=
      if page.setsPartitions = true then pagePartitions s.tape.partitionRuntime page
      else s.tape.partitionRuntime }
  bufferedMode := s.bufferedMode
  selectDataCompressionAlgorithm :=
    if page.configures = true then page.algorithm else s.selectDataCompressionAlgorithm
  earlyWarningWindow :=
    if page.configures = true ∧ page.sew = true then 8 else s.earlyWarningWindow

theorem applyMediumPartitionModePage_eq {page : ModePage} (hsets : page.setsPartitions = true) :
    applyMediumPartitionModePage env.profile page.bytes s.tape =
      if page.accepted env s = true
      then some { s.tape with partitionRuntime := pagePartitions s.tape.partitionRuntime page }
      else none := by
  have hlen : ¬ page.bytes.length < 8 := not_lt.mpr (of_decide_eq_true hsets).2.2
  unfold applyMediumPartitionModePage ModePage.accepted partitionPageAccepted pagePartitions
  rw [if_neg hlen, hsets]
  cases parsePartitionSizes page.bytes (byteAt page.bytes 3) with
  | none => rfl
  | some sizes =>
    by_cases hfdp : (byteAt page.bytes 4 >>> 3) &&& 0x03 = 0x03
    · cases hvalid : validatePartitionDefinition (mediumCapacityBytes env.profile s.tape)
          env.profile (byteAt page.bytes 6 &&& 0x0F) (byteAt page.bytes 3) sizes
      · simp [hfdp, hvalid]
      · simp [hfdp, hvalid]
    · simp [hfdp]

/-- **One page**: accepted or refused by its bytes and the capacity. -/
theorem ModePage.applyTo_eq (page : ModePage) : page.applyTo env s =
      if page.accepted env s = true then some (s.set env page) else none := by
  -- a page is of one kind at most, by its code
  have hkinds : (page.configures = true → page.compresses = false ∧ page.setsPartitions = false) ∧
      (page.compresses = true → page.setsPartitions = false) := by
    constructor
    · intro h
      have hcode := (of_decide_eq_true h).1
      exact ⟨by simp [compresses, hcode], by simp [setsPartitions, hcode]⟩
    · intro h
      have hcode := (of_decide_eq_true h).1
      simp [setsPartitions, hcode]
  unfold applyTo ModeState.set
  by_cases hconf : page.configures = true
  · obtain ⟨hcomp, hsets⟩ := hkinds.1 hconf
    simp [hconf, hcomp, hsets, accepted]
  by_cases hcomp : page.compresses = true
  · have hsets := hkinds.2 hcomp
    simp [hconf, hcomp, hsets, accepted]
  by_cases hsets : page.setsPartitions = true
  · rw [if_neg hconf, if_neg hcomp, if_pos hsets, applyMediumPartitionModePage_eq env s hsets]
    unfold accepted
    simp only [hconf, hcomp, hsets, if_true]
    split <;> rfl
  · simp [hconf, hcomp, hsets, accepted]

/-- No page changes the capacity the others are checked against. -/
theorem accepted_set (page : ModePage) :
    ModePage.accepted env (s.set env page) = ModePage.accepted env s := rfl

/-- **The pages that are set** are those before the first one that is refused. -/
theorem applyPages_eq (pages : List ModePage) : ∀ s : ModeState,
    applyPages env pages s =
      (pages.all (ModePage.accepted env s),
        (pages.takeWhile (ModePage.accepted env s)).foldl (ModeState.set env) s) := by
  induction pages with
  | nil => exact fun _ => rfl
  | cons page pages ih =>
    intro s
    unfold applyPages
    rw [page.applyTo_eq]
    by_cases hacc : page.accepted env s = true
    · rw [if_pos hacc, all_cons, takeWhile_cons_of_pos hacc, hacc, Bool.true_and, foldl_cons]
      dsimp only
      rw [ih, accepted_set]
    · rw [if_neg hacc, all_cons, takeWhile_cons_of_neg hacc]
      simp [hacc]

/-! ## §4. What a refused MODE SELECT leaves. -/

/-- The settings that MODE SELECT can change are the same. -/
structure SameModes (s s' : ModeState) : Prop where
  buffered : s'.bufferedMode = s.bufferedMode
  blockMode : s'.tape.blockMode = s.tape.blockMode
  window : s'.earlyWarningWindow = s.earlyWarningWindow
  algorithm : s'.selectDataCompressionAlgorithm = s.selectDataCompressionAlgorithm
  compression : s'.tape.dataCompressionEnabled = s.tape.dataCompressionEnabled
  partitions : s'.tape.partitionRuntime = s.tape.partitionRuntime

/-- The pages set nothing new: where the last page of a kind asks for something, the drive has
it already. -/
structure PagesSetAlready (pages : List ModePage) : Prop where
  window : ∀ page, (pages.filter fun page => page.configures && page.sew).getLast? = some page →
    s.earlyWarningWindow = 8
  algorithm : ∀ page, (pages.filter (·.configures)).getLast? = some page →
    s.selectDataCompressionAlgorithm = page.algorithm
  compression : ∀ page, (pages.filter (·.compresses)).getLast? = some page →
    s.tape.dataCompressionEnabled = page.compression env
  partitions : ∀ page, (pages.filter (·.setsPartitions)).getLast? = some page →
    s.tape.partitionRuntime = pagePartitions s.tape.partitionRuntime page

theorem field_foldl_set {A : Type} (field : ModeState → A) {q : ModePage → Bool}
    {g : A → ModePage → A}
    (hset : ∀ s page, field (s.set env page) = if q page = true then g (field s) page else field s)
    (hlast : ∀ a p p', g (g a p) p' = g a p') (pages : List ModePage) :
    field (pages.foldl (ModeState.set env) s) = lastUpdate q g (field s) pages := by
  rw [← foldl_update_eq hlast]
  exact (foldl_hom field fun s page => (hset s page).symm).symm

/-- The block descriptor is refused. -/
def ModeSelectKind.descriptorRefused (payload : Bytes) : Bool :=
  decide (kind.descriptorLength payload ≠ 0 ∧
    (payload.length < kind.header + kind.descriptorLength payload ∨
      kind.descriptorLength payload < 8 ∨ driveMaxBlockSize < kind.blockLength payload))

/-- The drive once header and block descriptor are read. -/
def ModeState.headed (payload : Bytes) : ModeState :=
  { s with
    bufferedMode := kind.buffered payload
    tape := { s.tape with
      blockMode := if kind.descriptorLength payload = 0 then s.tape.blockMode
        else blockLengthMode (kind.blockLength payload) } }

/-- **What header, block descriptor and pages leave as it was.** -/
theorem sameModes_iff (payload : Bytes) (pages : List ModePage) :
    SameModes s (pages.foldl (ModeState.set env) (s.headed kind payload)) ↔
      s.bufferedMode = kind.buffered payload ∧
        (kind.descriptorLength payload ≠ 0 →
          s.tape.blockMode = blockLengthMode (kind.blockLength payload)) ∧
        PagesSetAlready env s pages := by
  -- a field is what the last page that sets it says, or what the header left
  have hfield := fun {A : Type} (field : ModeState → A) {q : ModePage → Bool}
    {g : A → ModePage → A} hset hlast =>
      field_foldl_set env (s.headed kind payload) field (q := q) (g := g) hset hlast pages
  have hnone : ∀ {A : Type} (a : A),
      lastUpdate (fun _ : ModePage => false) (fun a _ => a) a pages = a :=
    fun a => lastUpdate_eq_iff.mpr fun _ _ => rfl
  -- no page sets the buffered mode or the block mode
  have hbuffered := (hfield (·.bufferedMode) (fun _ _ => rfl) (fun _ _ _ => rfl)).trans (hnone _)
  have hblock := (hfield (·.tape.blockMode) (fun _ _ => rfl) (fun _ _ _ => rfl)).trans (hnone _)
  have hwindow := hfield (·.earlyWarningWindow) (q := fun page => page.configures && page.sew)
    (g := fun _ _ => 8) (fun s page => by simp [ModeState.set]) (fun _ _ _ => rfl)
  have halgorithm := hfield (·.selectDataCompressionAlgorithm) (q := (·.configures))
    (g := fun _ => ModePage.algorithm) (fun _ _ => rfl) (fun _ _ _ => rfl)
  have hcompression := hfield (·.tape.dataCompressionEnabled) (q := (·.compresses))
    (g := fun _ => ModePage.compression env) (fun _ _ => rfl) (fun _ _ _ => rfl)
  have hpartitions := hfield (·.tape.partitionRuntime) (q := (·.setsPartitions))
    (g := pagePartitions) (fun _ _ => rfl) (fun _ _ _ => rfl)
  constructor
  · intro hsame
    refine ⟨(hbuffered.symm.trans hsame.buffered).symm, fun hdesc => ?_, ?_, ?_, ?_, ?_⟩
    · have hmode := hblock.symm.trans hsame.blockMode
      dsimp only [ModeState.headed] at hmode
      rw [if_neg hdesc] at hmode
      exact hmode.symm
    · exact lastUpdate_eq_iff.mp (hwindow.symm.trans hsame.window)
    · exact lastUpdate_eq_iff.mp (halgorithm.symm.trans hsame.algorithm)
    · exact lastUpdate_eq_iff.mp (hcompression.symm.trans hsame.compression)
    · exact lastUpdate_eq_iff.mp (hpartitions.symm.trans hsame.partitions)
  · intro hset
    obtain ⟨hbuf, hdesc, hpages⟩ := hset
    refine ⟨hbuffered.trans hbuf.symm, hblock.trans ?_, ?_, ?_, ?_, ?_⟩
    · dsimp only [ModeState.headed]
      split
      · rfl
      · next hne => exact (hdesc hne).symm
    · exact hwindow.trans (lastUpdate_eq_iff.mpr hpages.window)
    · exact halgorithm.trans (lastUpdate_eq_iff.mpr hpages.algorithm)
    · exact hcompression.trans (lastUpdate_eq_iff.mpr hpages.compression)
    · exact hpartitions.trans (lastUpdate_eq_iff.mpr hpages.partitions)

/-- **A parameter list**: refused at its header, at its block descriptor or at a page. -/
theorem setModeSelectPayload_eq (payload : Bytes) (hheader : kind.header ≤ payload.length) :
    setModeSelectPayload env payload kind s =
      if kind.descriptorRefused payload = true then
        (false, { s with bufferedMode := kind.buffered payload })
      else
        ((selectedPages payload kind).all (ModePage.accepted env s),
          ((selectedPages payload kind).takeWhile (ModePage.accepted env s)).foldl
            (ModeState.set env) (s.headed kind payload)) := by
  unfold setModeSelectPayload
  rw [if_neg (not_lt.mpr hheader)]
  -- the branches of the source: no descriptor, a short one, too large a block, or taken
  by_cases hdesc : kind.descriptorLength payload = 0
  · have hok : kind.descriptorRefused payload = false := by
      simp [ModeSelectKind.descriptorRefused, hdesc]
    have hheaded : s.headed kind payload = { s with bufferedMode := kind.buffered payload } := by
      simp [ModeState.headed, hdesc]
    rw [if_pos hdesc, hok, if_neg (by simp), hheaded]
    exact applyPages_eq env _ _
  rw [if_neg hdesc]
  by_cases hshort : payload.length < kind.header + kind.descriptorLength payload ∨
      kind.descriptorLength payload < 8
  · rw [if_pos hshort, if_pos]
    exact decide_eq_true ⟨hdesc, hshort.imp_right .inl⟩
  rw [if_neg hshort]
  by_cases hmax : driveMaxBlockSize < kind.blockLength payload
  · rw [if_pos hmax, if_pos]
    exact decide_eq_true ⟨hdesc, .inr (.inr hmax)⟩
  have hok : ¬ kind.descriptorRefused payload = true := by
    intro hrefused
    rcases (of_decide_eq_true hrefused).2 with hlen | hlen | hlen
    · exact hshort (.inl hlen)
    · exact hshort (.inr hlen)
    · exact hmax hlen
  have hheaded : s.headed kind payload = ModeState.withBlockMode
      { s with bufferedMode := kind.buffered payload }
      (blockLengthMode (kind.blockLength payload)) := by
    simp [ModeState.headed, ModeState.withBlockMode, hdesc]
  rw [if_neg hmax, if_neg hok, hheaded]
  exact applyPages_eq env _ _

/-- The command reads its parameter list, which holds the header. -/
def ModeSelectKind.ReadsHeader (cdb dataOut : Bytes) : Prop :=
  ¬ (kind = .mode10 ∧ cdb.length < 9) ∧ kind.listLength cdb ≠ 0 ∧
    kind.listLength cdb ≤ dataOut.length ∧ kind.header ≤ kind.listLength cdb

/-- If the list is refused at its block descriptor, its header says what was set; if it is refused
at a page, header, block descriptor and the pages before that one do. -/
def SetsNothingNew (payload : Bytes) : Prop :=
  if kind.descriptorRefused payload = true then s.bufferedMode = kind.buffered payload
  else
    (∃ page ∈ selectedPages payload kind, page.accepted env s = false) →
      s.bufferedMode = kind.buffered payload ∧
        (kind.descriptorLength payload ≠ 0 →
          s.tape.blockMode = blockLengthMode (kind.blockLength payload)) ∧
        PagesSetAlready env s ((selectedPages payload kind).takeWhile (ModePage.accepted env s))

/-- **When a refused MODE SELECT changes nothing**: if it is refused before its header is read, or
if all that stands before the place where it is refused was set already. -/
theorem modeSelect_atomic_iff (cdb dataOut : Bytes) :
    ((modeSelect env kind cdb dataOut s).1 ≠ .good [] →
        SameModes s (modeSelect env kind cdb dataOut s).2) ↔
      (kind.ReadsHeader cdb dataOut →
        SetsNothingNew env kind s (dataOut.take (kind.listLength cdb))) := by
  have hrefl : SameModes s s := ⟨rfl, rfl, rfl, rfl, rfl, rfl⟩
  unfold modeSelect
  split
  · next hshort => exact iff_of_true (fun _ => hrefl) (fun hreads => absurd hshort hreads.1)
  next hcdb =>
  split
  · next hzero => exact iff_of_true (fun _ => hrefl) (fun hreads => absurd hzero hreads.2.1)
  next hne =>
  split
  · next hless =>
    exact iff_of_true (fun _ => hrefl) (fun hreads => absurd hless (not_lt.mpr hreads.2.2.1))
  next henough =>
  have hlen : (dataOut.take (kind.listLength cdb)).length = kind.listLength cdb := by
    rw [length_take]
    omega
  by_cases hheader : kind.header ≤ kind.listLength cdb
  swap
  · have hnone : setModeSelectPayload env (dataOut.take (kind.listLength cdb)) kind s =
        (false, s) := by
      unfold setModeSelectPayload
      rw [if_pos (by rw [hlen]; omega)]
    rw [hnone]
    exact iff_of_true (fun _ => hrefl) (fun hreads => absurd hreads.2.2.2 hheader)
  have hreads : kind.ReadsHeader cdb dataOut := ⟨hcdb, hne, not_lt.mp henough, hheader⟩
  rw [setModeSelectPayload_eq env kind s _ (hlen.symm ▸ hheader), forall_prop_of_true hreads]
  unfold SetsNothingNew
  split
  · -- refused at the block descriptor
    constructor
    · intro hsame
      exact (hsame (by simp [invalidFieldInCdb])).buffered.symm
    · exact fun hbuf _ => ⟨hbuf.symm, rfl, rfl, rfl, rfl, rfl⟩
  · dsimp only
    rw [← sameModes_iff env kind s]
    refine imp_congr_left ?_
    cases hall : (selectedPages (dataOut.take (kind.listLength cdb)) kind).all
        (ModePage.accepted env s)
    · refine iff_of_true (by simp [invalidFieldInCdb]) ?_
      simpa using hall
    · refine iff_of_false (by simp) ?_
      simpa using hall

/-- A list that sets the variable block mode, with a medium partition page that is refused. -/
def variableThenPartitions : Bytes :=
  [0, 0, 0x10, 8, 0, 0, 0, 0, 0, 0, 0, 0, 0x11, 6, 0, 0, 0, 0, 0, 0]

/-- The drive with a blank cartridge as the dispatcher gives it to the handler.  A drive starts
with the compression algorithm selected; a mount sets the buffered mode and the window. -/
def mountedMode : ModeState where
  tape := ensurePartitionRuntimeInitialized DriveEnv.standard.profile blankMounted.tape
  bufferedMode := true
  selectDataCompressionAlgorithm := true
  earlyWarningWindow := 8

theorem refused_mode_select_sets_block_mode :
    (modeSelect .standard .mode6 [0x15, 0x10, 0, 0, 20, 0] variableThenPartitions mountedMode).1 =
        invalidFieldInCdb ∧
      mountedMode.tape.blockMode = ⟨.fixed, 262144⟩ ∧
      (modeSelect .standard .mode6 [0x15, 0x10, 0, 0, 20, 0] variableThenPartitions
        mountedMode).2.tape.blockMode = ⟨.variable, 0⟩ := by
  decide +kernel

end Holo.Drive
