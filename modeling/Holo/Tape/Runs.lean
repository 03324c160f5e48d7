/-
Holo.Tape.Runs — runs of tape commands, and the index they leave.

`CoreCommand` are the commands of `commands_core.rs` that work on the medium, and the two
commands for several fixed blocks.  `IndexWellFormed` is what the drive's index should be:
filemarks in order between the blocks, nothing behind the end of data, and the blocks those
of the block map.  Every command keeps it that meets `Orderly`: filemarks are only written
at the end of data, and a READ does not begin inside a block.

Main results:
* `execute_outcome`: what one command does;
* `session_mounted`: sessions keep track of the blocks;
* `well_formed_run`: orderly sessions keep the index well formed.
-/
import Holo.Lib.Runs
import Holo.Tape.Reload

namespace Holo.Tape

open Lib Program Storage List

variable {env : TapeEnv} {t t' : TapeWorld} {bs : List Block}

/-! ## §1. Commands. -/

/-- `CoreCommand`, as far as it works on the medium, and the commands for fixed blocks. -/
inductive CoreCommand where
  | writeData (payload : Bytes) (initiator : Option String)
  | writeFixedBlocks (payload : Bytes) (blockSize : Nat) (initiator : Option String)
  | writeFilemarks (count : Nat) (initiator : Option String)
  | readData
  | readFixedBlocks (blockSize transferBlocks : Nat)
  | space (branch : SpaceBranch) (count : Int)
  | locate (target : Nat)
  | rewind
  | erase (mode : EraseMode) (initiator : Option String)
  | setBlockModeFixed (blockSize : Nat)
  | setBlockModeVariable
  | setWormPolicy (isWormMedia retentionLocked : Bool)
  deriving Repr, DecidableEq

/-- A command without data to return. -/
def noData (m : TapeM Unit) : TapeM Bytes := do
  m
  return []

/-- `execute`, and the data it returns. -/
def execute (env : TapeEnv) : CoreCommand → TapeM Bytes
  | .writeData payload initiator => noData (writeData env payload initiator)
  | .writeFixedBlocks payload blockSize initiator =>
    noData (writeFixedBlocks env payload blockSize initiator)
  | .writeFilemarks count initiator => noData (writeFilemarks env count initiator)
  | .readData => readData env
  | .readFixedBlocks blockSize transferBlocks => readFixedBlocks env blockSize transferBlocks
  | .space branch count => noData (space branch count)
  | .locate target => noData (locate target)
  | .rewind => noData (rewindMedia env)
  | .erase mode initiator => noData (eraseMedia env mode initiator)
  | .setBlockModeFixed blockSize => noData (setBlockModeFixed blockSize)
  | .setBlockModeVariable => noData setBlockModeVariable
  | .setWormPolicy isWormMedia retentionLocked =>
    noData (setWormPolicy env isWormMedia retentionLocked)

variable {Q : Bytes → TapeWorld → Prop} {E : TapeError → TapeWorld → Prop} {p : Nat}

theorem wp_noData {m : TapeM Unit} (h : wp m (fun _ t' => Q [] t') E t) : wp (noData m) Q E t := by
  simp [noData, h]

/-- A command was executed, successfully or not, and the drive does not ask for recovery. -/
def CoreStep (env : TapeEnv) (t : TapeWorld) (c : CoreCommand) (t' : TapeWorld) : Prop :=
  (execute env c t).2 = t' ∧ t'.tape.requiresRecovery = false

/-! ## §2. A well-formed index. -/

/-- **The drive's index is well formed.** -/
structure IndexWellFormed (t : TapeWorld) : Prop where
  /-- Filemarks are strictly increasing. -/
  marksIncrease : t.tape.filemarks.Pairwise (· < ·)
  /-- `block_starts` are the keys of `block_lengths`, sorted. -/
  startsAreKeys : t.tape.blockStarts = t.tape.blockLengths.map Prod.fst
  startsIncrease : t.tape.blockStarts.Pairwise (· < ·)
  /-- Block extents are disjoint. -/
  disjoint : t.tape.blockLengths.Pairwise fun a b => a.1 + a.2 ≤ b.1
  /-- No filemark lies inside a block. -/
  marksOutside : ∀ m ∈ t.tape.filemarks, ∀ b ∈ t.tape.blockLengths, ¬ (b.1 ≤ m ∧ m < b.1 + b.2)
  /-- Blocks and filemarks lie below the end of data. -/
  blocksBelow : ∀ b ∈ t.tape.blockLengths, b.1 + b.2 ≤ t.tape.eodPosition
  marksBelow : ∀ m ∈ t.tape.filemarks, m < t.tape.eodPosition
  /-- The position is at most the end of data. -/
  currentBelow : t.tape.currentPosition ≤ t.tape.eodPosition
  /-- `block_lengths` is the map of the active records on disk. -/
  onDisk : ∀ start length, (start, length) ∈ t.tape.blockLengths ↔
    ∃ r ∈ t.world.disk.active, r.logicalStart = start ∧ r.logicalLen = length

/-- What a tracked index needs to be well formed. -/
structure WellPlaced (t : TapeWorld) (bs : List Block) : Prop where
  sorted : t.tape.filemarks.Pairwise (· < ·)
  outside : ∀ m ∈ t.tape.filemarks, ∀ b ∈ bs, ¬ b.Around m
  current : t.tape.currentPosition ≤ t.tape.eodPosition

theorem WellPlaced.frame (h : WellPlaced t bs) (hmarks : t'.tape.filemarks = t.tape.filemarks)
    (hcur : t'.tape.currentPosition ≤ t'.tape.eodPosition) : WellPlaced t' bs :=
  ⟨hmarks ▸ h.sorted, hmarks ▸ h.outside, hcur⟩

theorem Tracked.indexWellFormed (h : Tracked env t bs) (hwp : WellPlaced t bs) :
    IndexWellFormed t := by
  have hkeys : t.tape.blockStarts = t.tape.blockLengths.map Prod.fst := by
    rw [h.starts, h.lengths]
    unfold lengthsOf
    rw [map_map]
    rfl
  have hmem : ∀ x ∈ t.tape.blockLengths, ∃ b ∈ bs, x = (b.start, b.payload.length) := by
    intro x hx
    rw [h.lengths] at hx
    obtain ⟨b, hb, rfl⟩ := mem_map.mp hx
    exact ⟨b, hb, rfl⟩
  constructor
  case marksIncrease => exact hwp.sorted
  case startsAreKeys => exact hkeys
  case startsIncrease =>
    rw [h.starts]
    exact pairwise_map.mpr (h.recorded.ascending h.diskInv)
  case disjoint =>
    rw [h.lengths]
    exact pairwise_map.mpr h.recorded.ordered
  case marksOutside =>
    intro m hm x hx
    obtain ⟨b, hb, rfl⟩ := hmem x hx
    exact hwp.outside m hm b hb
  case blocksBelow =>
    intro x hx
    obtain ⟨b, hb, rfl⟩ := hmem x hx
    exact h.blocksEnd b hb
  case marksBelow => exact h.marksEnd
  case currentBelow => exact hwp.current
  -- the index is that of the blocks, and the blocks are the active records
  case onDisk =>
    intro start length
    rw [h.lengths]
    constructor
    · intro hx
      obtain ⟨b, hb, heq⟩ := mem_map.mp hx
      obtain ⟨r, hr, hold⟩ := (h.recorded.mem b).mpr hb
      obtain ⟨rfl, rfl⟩ := Prod.mk.inj heq
      exact ⟨r, hr, hold.start_eq, hold.len_eq⟩
    intro hout
    obtain ⟨r, hr, hs, hl⟩ := hout
    obtain ⟨b, hb, hbs, hbl, -⟩ := h.diskInv.exists_block hr
    refine mem_map.mpr ⟨b, (h.recorded.mem b).mp hb, ?_⟩
    rw [hbs, hbl, hs, hl]

/-! ## §3. What one command does. -/

/-- Where a READ may end. -/
def ReadEnds (t : TapeWorld) (bs : List Block) (p : Nat) : Prop :=
  p = t.tape.currentPosition ∨
    (t.tape.currentPosition ∈ t.tape.filemarks ∧
      p = positionAfterFilemark t.tape t.tape.currentPosition) ∨
    ∃ b ∈ bs, b.Around t.tape.currentPosition ∧
      p = wrapAdd64 t.tape.currentPosition b.payload.length

/-- The retention policy was set, in the drive and maybe on disk. -/
structure PolicySet (t t' : TapeWorld) (policy : RetentionPolicy) : Prop where
  tape : t'.tape = { t.tape with retentionPolicy := policy }
  world : ∃ r, Beside t.world t'.world { t.world.disk.runtime with retention := r }

/-- What a command did that does not ask for recovery. -/
inductive Outcome (env : TapeEnv) (t t' : TapeWorld) (bs : List Block) : CoreCommand → Prop where
  | counted {c : CoreCommand} : Counted t t' → Outcome env t t' bs c
  | wroteData {payload : Bytes} {i : Option String} : payload ≠ [] →
      Wrote env t t' bs [payload] → Outcome env t t' bs (.writeData payload i)
  | wroteFixed {payload : Bytes} {size : Nat} {i : Option String} :
      Wrote env t t' bs (chunks size payload.length payload) →
      Outcome env t t' bs (.writeFixedBlocks payload size i)
  | marked {count : Nat} {i : Option String} : 0 < count → Marked env t t' bs count →
      Outcome env t t' bs (.writeFilemarks count i)
  | read {p : Nat} : ReadEnds t bs p → Moved env t t' bs p → Outcome env t t' bs .readData
  | moved {c : CoreCommand} : MovedWithin env t t' bs → Outcome env t t' bs c
  | rewound : Rewound env t t' bs → Outcome env t t' bs .rewind
  | erased {mode : EraseMode} {i : Option String} : Erased env t t' →
      Outcome env t t' bs (.erase mode i)
  | blockMode {c : CoreCommand} {profile : BlockModeProfile} :
      t' = t.setTape { t.tape with blockMode := profile } → Outcome env t t' bs c
  | policy {worm locked : Bool} : PolicySet t t' ⟨worm, locked⟩ →
      Outcome env t t' bs (.setWormPolicy worm locked)

/-- The limits within which a command does what it should: blocks that can be read back,
data segments whose names have six digits, and a REWIND that can flush. -/
def Within (env : TapeEnv) (t : TapeWorld) : CoreCommand → Prop
  | .writeData payload _ => Storable t.tape payload ∧ SmallAtStart t
  | .writeFixedBlocks payload blockSize _ =>
      (∀ p ∈ chunks blockSize payload.length payload, Storable t.tape p) ∧
      SmallAtStart t
  | .rewind => ∃ a, (execute env .rewind t).1 = .ok a
  | .erase _ _ => SmallSegs t.world.disk
  | _ => True

variable {c : CoreCommand}

/-- **What a command does**: one of the outcomes, or the drive asks for recovery. -/
theorem execute_outcome (hlaw : env.storage.codecs.Lawful) (hhits : env.HitsVerified)
    (h : Tracked env t bs) (hin : Within env t c) :
    wp (execute env c) (fun _ t' => Outcome env t t' bs c)
      (fun _ t' => Outcome env t t' bs c ∨ Broken t') t := by
  have hstay : ∀ {t' : TapeWorld}, t' = t → Outcome env t t' bs c := by
    intro t' ht
    rw [ht]
    exact .counted (Refused.refl t).counted
  have hfailed : ∀ {t' : TapeWorld} {P : Prop}, Refused t t' ∨ Broken t' ∧ P →
      Outcome env t t' bs c ∨ Broken t' := by
    intro t' P hfail
    rcases hfail with hr | ⟨hbroken, -⟩
    · exact .inl (.counted hr.counted)
    · exact .inr hbroken
  -- command by command, from the specification of its function
  cases c with
  | writeData payload initiator =>
    refine wp_noData (wp_mono (writeData_spec h hlaw hhits hin.1 hin.2) ?_ fun _ _ => hfailed)
    intro _ t' hw
    rcases hw with ⟨-, ht⟩ | ⟨hne, hw⟩
    · exact hstay ht
    · exact .wroteData hne hw
  | writeFixedBlocks payload blockSize initiator =>
    exact wp_noData (wp_mono (writeFixedBlocks_spec h hlaw hhits hin.1 hin.2)
      (fun _ _ hw => .wroteFixed hw) fun _ _ => hfailed)
  | writeFilemarks count initiator =>
    refine wp_noData (wp_mono (writeFilemarks_spec h) ?_ ?_)
    · intro _ t' hw
      rcases hw with ⟨-, hc⟩ | ⟨hpos, hm⟩
      · exact .counted hc
      · exact .marked hpos hm
    intro _ t' hout
    obtain ⟨hfail, -⟩ := hout
    rcases hfail with hc | ⟨hbroken, -⟩
    · exact .inl (.counted hc)
    · exact .inr hbroken
  | readData =>
    refine wp_mono (readData_spec h) ?_ ?_
    · intro _ t' hread
      obtain ⟨b, hb, haround, -, hmove⟩ := hread.exists_block
      exact .read (.inr (.inr ⟨b, hb, haround, rfl⟩)) hmove
    · intro _ t' hstop
      obtain ⟨p, hmove, hp⟩ := hstop.moved h
      exact .inl (.read hp hmove)
  | readFixedBlocks blockSize transferBlocks =>
    exact wp_mono (readFixedBlocks_spec h) (fun _ _ hm => .moved hm)
      (fun _ _ hm => .inl (.moved hm))
  | space branch count =>
    exact wp_noData (wp_mono (space_spec h) (fun _ _ hm => .moved hm)
      (fun _ _ ht => .inl (hstay ht)))
  | locate target =>
    exact wp_noData (wp_mono (locate_spec h) (fun _ _ hm => .moved ⟨_, hm.2, fun _ => hm.1⟩)
      (fun _ _ ht => .inl (hstay ht)))
  | rewind =>
    obtain ⟨a, ha⟩ := hin
    have hspec : wp (execute env .rewind) (fun _ t' => Rewound env t t' bs) _ t :=
      wp_noData (rewindMedia_spec h)
    refine wp_of_run (fun _ t' hrun => .rewound (hspec.of_ok hrun)) (fun e t' hrun => ?_)
    rw [hrun] at ha
    cases ha
  | erase mode initiator =>
    exact wp_noData (wp_mono (eraseMedia_spec h hin) (fun _ _ he => .erased he)
      fun _ _ hf => hfailed hf.1)
  | setBlockModeFixed blockSize =>
    exact wp_noData (wp_mono setBlockModeFixed_spec (fun _ _ hm => .blockMode hm.2)
      (fun _ _ ht => .inl (hstay ht)))
  | setBlockModeVariable =>
    exact wp_noData (wp_mono setBlockModeVariable_spec (fun _ _ hm => .blockMode hm)
      (fun _ _ ht => .inl (hstay ht)))
  | setWormPolicy isWormMedia retentionLocked =>
    refine wp_noData (wp_mono setWormPolicy_spec (fun _ _ hs => .policy ⟨hs.1, hs.2⟩) ?_)
    intro _ t' hs
    rcases hs with ht | hs
    · exact .inl (hstay ht)
    · exact .inl (.policy ⟨hs.1, hs.2⟩)

theorem PolicySet.tracked {policy : RetentionPolicy} (hp : PolicySet t t' policy)
    (h : Tracked env t bs) : Tracked env t' bs := by
  obtain ⟨r, hb⟩ := hp.world
  have hinv := hb.layoutInv h.inv
  refine h.frame ?_ ?_ hinv (h.recorded.sameFiles hb.sameFiles h.diskInv hinv.ok.disk) ?_
  · rw [hp.tape]
    exact ⟨rfl, rfl, rfl, rfl, rfl, rfl⟩
  · rw [hp.tape]
    exact h.current
  · rw [hb.runtime]

/-- **The drive's index stays that of the cartridge.** -/
theorem Outcome.tracked (ho : Outcome env t t' bs c) (h : Tracked env t bs) :
    ∃ bs', Tracked env t' bs' := by
  cases ho with
  | counted hc => exact ⟨bs, h.afterCount hc⟩
  | wroteData _ hw | wroteFixed hw => exact ⟨_, hw.tracked⟩
  | marked _ hm | read _ hm => exact ⟨bs, hm.tracked⟩
  | moved hm =>
    obtain ⟨p, hmove, -⟩ := hm
    exact ⟨bs, hmove.tracked⟩
  | rewound hr => exact ⟨bs, hr.tracked⟩
  | erased he => exact ⟨[], he.tracked⟩
  | blockMode ht =>
    rw [ht]
    exact ⟨bs, h.setTape ⟨rfl, rfl, rfl, rfl, rfl, rfl⟩ h.current⟩
  | policy hp => exact ⟨bs, hp.tracked h⟩

/-! ## §4. Order. -/

/-- The cartridge holds some blocks, and the index of the drive is well formed. -/
def InOrder (env : TapeEnv) (t : TapeWorld) : Prop :=
  ∃ bs, Tracked env t bs ∧ WellPlaced t bs

/-- The commands that keep an index well formed: filemarks go to the end of data, and READ
does not begin inside a block. -/
def Orderly (t : TapeWorld) : CoreCommand → Prop
  | .writeFilemarks count _ => count = 0 ∨ t.tape.eodPosition ≤ t.tape.currentPosition
  | .readData => ∀ b ∈ t.tape.blockLengths,
      ¬ (b.1 < t.tape.currentPosition ∧ t.tape.currentPosition < b.1 + b.2)
  | _ => True

theorem mem_blocksFrom {marks : Nat} (payloads : List Bytes) :
    ∀ {start : Nat} {b : Block}, b ∈ blocksFrom marks start payloads → start ≤ b.start := by
  induction payloads with
  | nil =>
    intro start b hb
    exact absurd hb (by simp [blocksFrom])
  | cons p ps ih =>
    intro start b hb
    rcases mem_cons.mp hb with rfl | hb
    · exact le_rfl
    · exact (Nat.le_add_right _ _).trans (ih hb)

theorem Wrote.inOrder {payloads : List Bytes} (hw : Wrote env t t' bs payloads)
    (hwp : WellPlaced t bs) : InOrder env t' := by
  refine ⟨_, hw.tracked, ?_, ?_, hw.eod.ge⟩
  · rw [hw.filemarks]
    exact hwp.sorted.filter _
  intro m hm b hb haround
  rw [hw.filemarks] at hm
  obtain ⟨hm, hlt⟩ := mem_filter.mp hm
  have hlt : m < t.tape.currentPosition := of_decide_eq_true hlt
  rcases mem_append.mp hb with hb | hb
  · exact hwp.outside m hm b (mem_blocksBefore.mp hb).1 haround
  · -- the new blocks lie behind every mark that is left
    have := mem_blocksFrom payloads hb
    have := haround.1
    omega

theorem marksFrom_sorted {step : Nat} (hstep : 0 < step) (count : Nat) :
    ∀ {position : Nat}, (marksFrom step position count).Pairwise (· < ·) := by
  induction count with
  | zero =>
    intro position
    exact Pairwise.nil
  | succ count ih =>
    intro position
    refine pairwise_cons.mpr ⟨fun m hm => ?_, ih⟩
    have := (mem_marksFrom hstep count hm).1
    omega

theorem Marked.inOrder {count : Nat} (hm : Marked env t t' bs count) (h : Tracked env t bs)
    (hwp : WellPlaced t bs) (hend : t.tape.eodPosition ≤ t.tape.currentPosition) :
    InOrder env t' := by
  have hstep := logicalPositionStep_pos t.tape
  refine ⟨bs, hm.tracked, ?_, ?_, ?_⟩
  · rw [hm.filemarks, pairwise_append]
    refine ⟨hwp.sorted, marksFrom_sorted hstep count, fun a ha b hb => ?_⟩
    have hlt := h.marksEnd a ha
    have hge := (mem_marksFrom hstep count hb).1
    omega
  · intro m hmem b hb haround
    rw [hm.filemarks] at hmem
    rcases mem_append.mp hmem with hmem | hmem
    · exact hwp.outside m hmem b hb haround
    · have hge := (mem_marksFrom hstep count hmem).1
      have hle := h.blocksEnd b hb
      have := haround.2
      omega
  · rw [hm.eod]
    exact le_max_right _ _

theorem Moved.inOrder (hm : Moved env t t' bs p) (hwp : WellPlaced t bs)
    (hp : p ≤ t.tape.eodPosition) : InOrder env t' := by
  refine ⟨bs, hm.tracked, hwp.frame hm.sameIndex.filemarks ?_⟩
  rw [hm.current, hm.sameIndex.eodPosition]
  exact hp

theorem MovedWithin.inOrder (hm : MovedWithin env t t' bs) (hwp : WellPlaced t bs) :
    InOrder env t' := by
  obtain ⟨p, hmove, hp⟩ := hm
  exact hmove.inOrder hwp (hp hwp.current)

theorem Counted.inOrder (hc : Counted t t') (h : Tracked env t bs) (hwp : WellPlaced t bs) :
    InOrder env t' := by
  refine ⟨bs, h.afterCount hc, hwp.frame hc.sameIndex.filemarks ?_⟩
  rw [hc.current, hc.sameIndex.eodPosition]
  exact hwp.current

theorem Tracked.wrapAdd_start (h : Tracked env t bs) {b : Block} (hb : b ∈ bs)
    (hstart : b.start = t.tape.currentPosition) :
    wrapAdd64 t.tape.currentPosition b.payload.length = b.stop := by
  have hle : b.stop ≤ u64Max := (h.blocksEnd b hb).trans h.eod
  unfold Block.stop at hle
  unfold wrapAdd64 Block.stop
  unfold u64Max at hle
  omega

theorem ReadEnds.le_eod (hp : ReadEnds t bs p) (h : Tracked env t bs) (hwp : WellPlaced t bs)
    (hord : Orderly t .readData) : p ≤ t.tape.eodPosition := by
  rcases hp with rfl | ⟨hm, rfl⟩ | ⟨b, hb, haround, rfl⟩
  · exact hwp.current
  · exact (positionAfterFilemark_spec t.tape (h.marksEnd _ hm)).2.1
  have hno := hord (b.start, b.payload.length) (by
    rw [h.lengths]
    exact mem_map.mpr ⟨b, hb, rfl⟩)
  have hstart : b.start = t.tape.currentPosition := by
    by_contra hne
    exact hno ⟨lt_of_le_of_ne haround.1 hne, haround.2⟩
  rw [h.wrapAdd_start hb hstart]
  exact h.blocksEnd b hb

/-- **One orderly command keeps an index in order.** -/
theorem Outcome.inOrder (ho : Outcome env t t' bs c) (h : Tracked env t bs) (hwp : WellPlaced t bs)
    (hord : Orderly t c) : InOrder env t' := by
  cases ho with
  | counted hc => exact hc.inOrder h hwp
  | wroteData _ hw | wroteFixed hw => exact hw.inOrder hwp
  | marked hpos hm => exact hm.inOrder h hwp (hord.resolve_left (pos_iff_ne_zero.mp hpos))
  | read hp hm => exact hm.inOrder hwp (hp.le_eod h hwp hord)
  | moved hm => exact hm.inOrder hwp
  | rewound hr =>
    refine ⟨bs, hr.tracked, hwp.frame (by rw [hr.tape]) ?_⟩
    rw [hr.tape]
    exact Nat.zero_le _
  | erased he =>
    refine ⟨[], he.tracked, ?_, fun m _ b hb => absurd hb (by simp), ?_⟩
    · rw [he.filemarks]
      exact Pairwise.nil
    · rw [he.current]
      exact Nat.zero_le _
  | blockMode ht =>
    rw [ht]
    exact ⟨bs, h.setTape ⟨rfl, rfl, rfl, rfl, rfl, rfl⟩ h.current, hwp.frame rfl hwp.current⟩
  | policy hp =>
    refine ⟨bs, hp.tracked h, hwp.frame (by rw [hp.tape]) ?_⟩
    rw [hp.tape]
    exact hwp.current

/-! ## §5. Sessions. -/

/-- What happens to a cartridge: a command, or taking it out and putting it back in. -/
inductive Action where
  | command (c : CoreCommand)
  | reload
  deriving Repr, DecidableEq

section

variable (env : TapeEnv) (t : TapeWorld) (a : Action)

/-- Take the cartridge out and put it back in. -/
def reload : TapeM Unit := do
  detachCartridge env
  attachCartridge env

/-- An action was done, and the drive does not ask for recovery: a command may have failed,
taking the cartridge out and putting it in may not. -/
def ActionStep : Action → TapeWorld → Prop
  | .command c, t' => CoreStep env t c t'
  | .reload, t' => reload env t = (.ok (), t')

/-- An action within the limits. -/
def WithinStep (t' : TapeWorld) : Prop :=
  ActionStep env t a t' ∧ ∀ c, a = .command c → Within env t c

/-- An action within the limits that keeps an index well formed. -/
def OrderlyStep (t' : TapeWorld) : Prop :=
  WithinStep env t a t' ∧ ∀ c, a = .command c → Orderly t c

end

theorem WithinStep.command (hready : (execute env c t).2.tape.requiresRecovery = false)
    (hin : Within env t c) : WithinStep env t (.command c) (execute env c t).2 := by
  refine ⟨⟨rfl, hready⟩, fun c' hc => ?_⟩
  cases hc
  exact hin

theorem OrderlyStep.command (hready : (execute env c t).2.tape.requiresRecovery = false)
    (hin : Within env t c) (hord : Orderly t c) :
    OrderlyStep env t (.command c) (execute env c t).2 := by
  refine ⟨.command hready hin, fun c' hc => ?_⟩
  cases hc
  exact hord

/-- A blank cartridge was put into an empty drive. -/
def FreshMount (env : TapeEnv) (t : TapeWorld) : Prop :=
  ∃ compression faults requests,
    attachCartridge env ⟨TapeState.new compression,
      { World.fresh env.storage with faults := faults }, requests⟩ = (.ok (), t)

theorem shelved_fresh (env : TapeEnv) (compression : Bool) (faults : List Fault) (requests : Nat) :
    Shelved env ⟨TapeState.new compression, { World.fresh env.storage with faults := faults },
      requests⟩ [] [] := by
  have hblank := Disk.fresh_blank env.storage (env.storage.clock 0)
  exact ⟨rfl, rfl, hblank.crashInv, rfl, .blank hblank.active, .refl _,
    fun m hm => absurd hm (by simp), fun b hb => absurd hb (by simp)⟩

theorem Attached.inOrder {marks : List Nat} (h : Attached env t t' bs marks)
    (hsorted : marks.Pairwise (· < ·)) (houtside : ∀ m ∈ marks, ∀ b ∈ bs, ¬ b.Around m) :
    InOrder env t' := by
  have hmarks : t'.tape.filemarks = marks :=
    h.filemarks.trans (sortByKey_eq_self (hsorted.imp le_of_lt))
  refine ⟨bs, h.tracked, ?_, ?_, ?_⟩
  · rw [hmarks]
    exact hsorted
  · rw [hmarks]
    exact houtside
  · rw [h.current]
    exact Nat.zero_le _

theorem FreshMount.attached (h : FreshMount env t) : ∃ t0, Attached env t0 t [] [] := by
  obtain ⟨compression, faults, requests, hrun⟩ := h
  exact ⟨_, (attachCartridge_spec (shelved_fresh env compression faults requests)).of_ok hrun⟩

/-- **Taking a cartridge out and putting it back in.** -/
theorem reload_spec (h : Tracked env t bs) (hready : t.tape.requiresRecovery = false) :
    wp (reload env)
      (fun _ t' => ∃ t1, Detached env t t1 bs ∧ Attached env t1 t' bs t.tape.filemarks)
      (fun _ _ => True) t := by
  unfold reload
  rw [wp_bind]
  refine wp_mono (detachCartridge_spec h (by rw [hready]; simp)) ?_ (fun _ _ _ => trivial)
  intro _ t1 hdet
  exact wp_mono (attachCartridge_spec hdet.shelved) (fun _ t2 hatt => ⟨t1, hdet, hatt⟩)
    (fun _ _ _ => trivial)

section

variable {a : Action} (hlaw : env.storage.codecs.Lawful) (hhits : env.HitsVerified)
include hlaw hhits

/-- A command that did not ask for recovery had one of the outcomes. -/
theorem CoreStep.outcome (h : Tracked env t bs) (hin : Within env t c)
    (hstep : CoreStep env t c t') :
    Outcome env t t' bs c := by
  obtain ⟨hrun, hready⟩ := hstep
  have hspec := execute_outcome hlaw hhits h hin
  rcases hout : execute env c t with ⟨r, t1⟩
  rw [hout] at hrun
  subst hrun
  cases r with
  | ok _ => exact hspec.of_ok hout
  | error _ =>
    rcases hspec.of_error hout with ho | hbroken
    · exact ho
    · rw [hbroken.recovery] at hready
      cases hready

omit hlaw hhits in
/-- The drive is mounted, does not ask for recovery and knows the blocks of its cartridge. -/
def Mounted (env : TapeEnv) (t : TapeWorld) : Prop :=
  (∃ bs, Tracked env t bs) ∧ t.tape.requiresRecovery = false

theorem WithinStep.mounted (h : Mounted env t) (hstep : WithinStep env t a t') :
    Mounted env t' := by
  obtain ⟨⟨bs, htr⟩, hready⟩ := h
  obtain ⟨hact, hin⟩ := hstep
  cases a with
  | command c => exact ⟨(CoreStep.outcome hlaw hhits htr (hin c rfl) hact).tracked htr, hact.2⟩
  | reload =>
    obtain ⟨t1, -, hatt⟩ := (reload_spec htr hready).of_ok hact
    exact ⟨⟨bs, hatt.tracked⟩, hatt.recovery⟩

/-- **Every session** that does not ask for recovery keeps track of the blocks. -/
theorem session_mounted {actions : List Action} (hmount : FreshMount env t)
    (hrun : Run (WithinStep env) t actions t') : Mounted env t' := by
  obtain ⟨t0, hatt⟩ := hmount.attached
  exact hrun.invariant (Mounted env) ⟨⟨[], hatt.tracked⟩, hatt.recovery⟩
    (fun _ _ _ h hstep => hstep.mounted hlaw hhits h)

omit hlaw hhits in
/-- **One orderly action keeps an index in order.** -/
theorem OrderlyStep.inOrder (hlaw : env.storage.codecs.Lawful) (hhits : env.HitsVerified)
    (h : InOrder env t ∧ t.tape.requiresRecovery = false) (hstep : OrderlyStep env t a t') :
    InOrder env t' ∧ t'.tape.requiresRecovery = false := by
  obtain ⟨⟨bs, htr, hwp⟩, hready⟩ := h
  obtain ⟨⟨hact, hin⟩, hord⟩ := hstep
  cases a with
  | command c =>
    have ho := CoreStep.outcome hlaw hhits htr (hin c rfl) hact
    exact ⟨ho.inOrder htr hwp (hord c rfl), hact.2⟩
  | reload =>
    obtain ⟨t1, -, hatt⟩ := (reload_spec htr hready).of_ok hact
    exact ⟨hatt.inOrder hwp.sorted hwp.outside, hatt.recovery⟩

/-- **The index stays well formed** in every session whose filemarks are written at the end of
data and whose READs do not begin inside a block. -/
theorem well_formed_run {actions : List Action} (hmount : FreshMount env t)
    (hrun : Run (OrderlyStep env) t actions t') : IndexWellFormed t' := by
  obtain ⟨t₀, hatt⟩ := hmount.attached
  have hstart : InOrder env t ∧ t.tape.requiresRecovery = false :=
    ⟨hatt.inOrder Pairwise.nil (fun m hm => absurd hm (by simp)), hatt.recovery⟩
  have hinv := hrun.invariant (fun t => InOrder env t ∧ t.tape.requiresRecovery = false)
    hstart (fun _ _ _ h hstep => hstep.inOrder hlaw hhits h)
  obtain ⟨bs, htr, hwp⟩ := hinv.1
  exact htr.indexWellFormed hwp

end

/-! ## §6. A filemark over a block. -/

/-- A blank cartridge beside an empty drive, with the settings the program has by default. -/
def blankCartridge : TapeWorld := ⟨TapeState.new true, World.fresh TapeEnv.standard.storage, 0⟩

/-- The blank cartridge in the drive. -/
def blankMounted : TapeWorld := (attachCartridge .standard blankCartridge).2

theorem blankMounted_freshMount : FreshMount TapeEnv.standard blankMounted :=
  ⟨true, [], 0, Program.run_eq_of_isOk (by decide +kernel)⟩

/-- The drive after some commands. -/
def afterCommands (env : TapeEnv) (t : TapeWorld) (cs : List CoreCommand) : TapeWorld :=
  cs.foldl (fun t c => (execute env c t).2) t

/-- Commands that never ask for recovery are a run. -/
theorem run_afterCommands (cs : List CoreCommand)
    (hready : ∀ k ≤ cs.length, (afterCommands env t (cs.take k)).tape.requiresRecovery = false) :
    Run (ActionStep env) t (cs.map .command) (afterCommands env t cs) := by
  induction cs using reverseRecOn with
  | nil => exact .nil
  | append_singleton cs c ih =>
    have hlast := hready (cs ++ [c]).length le_rfl
    rw [take_length] at hlast
    unfold afterCommands at hlast ⊢
    rw [map_append, foldl_append] at *
    refine .snoc (ih fun k hk => ?_) ⟨rfl, hlast⟩
    have hk' := hready k (by simp; omega)
    rwa [take_append_of_le_length hk] at hk'

/-- The blank cartridge in variable mode. -/
def variableMode : TapeWorld := afterCommands .standard blankMounted [.setBlockModeVariable]

/-- A block of three bytes on it. -/
def oneBlock : TapeWorld := afterCommands .standard variableMode [.writeData [1, 2, 3] none]

/-- The tape at the start of the block. -/
def oneBlockRewound : TapeWorld := afterCommands .standard oneBlock [.rewind]

/-- A filemark behind the block. -/
def blockAndMark : TapeWorld := afterCommands .standard oneBlock [.writeFilemarks 1 none]

theorem run_oneBlock : Run (WithinStep .standard) blankMounted
    [.command .setBlockModeVariable, .command (.writeData [1, 2, 3] none)] oneBlock := by
  have hmode : WithinStep .standard blankMounted (.command .setBlockModeVariable) variableMode :=
    .command (by decide +kernel) trivial
  have hfirst : WithinStep .standard variableMode (.command (.writeData [1, 2, 3] none)) oneBlock :=
    .command (by decide +kernel) ⟨.inr (by decide), fun _ => .of_keys (by decide +kernel)⟩
  exact .snoc (.snoc .nil hmode) hfirst

/-- A second block, of two bytes. -/
def twoBlocks : TapeWorld := afterCommands .standard oneBlock [.writeData [4, 5] none]

theorem run_twoBlocks : Run (WithinStep .standard) blankMounted
    [.command .setBlockModeVariable, .command (.writeData [1, 2, 3] none),
      .command (.writeData [4, 5] none)] twoBlocks := by
  have hsecond : WithinStep .standard oneBlock (.command (.writeData [4, 5] none)) twoBlocks :=
    .command (by decide +kernel) ⟨.inr (by decide), fun _ => .of_keys (by decide +kernel)⟩
  exact .snoc run_oneBlock hsecond

/-- **A filemark written at the start of a block lies inside it.** -/
theorem filemark_over_block_ill_formed : ∃ t, Run (ActionStep .standard) blankMounted
        [.command .setBlockModeVariable, .command (.writeData [1, 2, 3] none),
          .command .rewind, .command (.writeFilemarks 1 none)] t ∧
      FreshMount TapeEnv.standard blankMounted ∧ ¬ IndexWellFormed t := by
  refine ⟨_, run_afterCommands [.setBlockModeVariable, .writeData [1, 2, 3] none, .rewind,
    .writeFilemarks 1 none] (by decide +kernel), blankMounted_freshMount, fun h => ?_⟩
  exact h.marksOutside 0 (by decide +kernel) (0, 3) (by decide +kernel) (by decide)

/-- A block and a filemark after it. -/
theorem well_formed_run_block_mark : IndexWellFormed blockAndMark := by
  have hmode : OrderlyStep .standard blankMounted (.command .setBlockModeVariable) variableMode :=
    .command (by decide +kernel) trivial trivial
  have hwrite : OrderlyStep .standard variableMode (.command (.writeData [1, 2, 3] none))
      oneBlock :=
    .command (by decide +kernel) ⟨.inr (by decide), fun _ => .of_keys (by decide +kernel)⟩ trivial
  have hmark : OrderlyStep .standard oneBlock (.command (.writeFilemarks 1 none)) blockAndMark :=
    .command (by decide +kernel) trivial (.inr (by decide +kernel))
  exact well_formed_run Codecs.stored_lawful (.inl rfl) blankMounted_freshMount
    (.snoc (.snoc (.snoc .nil hmode) hwrite) hmark)

end Holo.Tape
