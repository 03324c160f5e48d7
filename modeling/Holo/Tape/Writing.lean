/-
Holo.Tape.Writing — what the commands that write blocks do.

A write cuts the tape off at the current position and puts its block there, so that
afterwards the blocks are those that ended before the position, then the new one.

Main results:
* `truncateTailBeforeWrite_spec`: the tail is gone, on disk and in the drive's index;
* `writeBlock_spec`: one block behind the others;
* `writeData_spec`, `writeFixedBlocks_spec`: the two commands.
-/
import Holo.Storage.UnmapExact
import Holo.Tape.Tracked

namespace Holo.Tape

open Lib Program Storage List

variable {env : TapeEnv} {t : TapeWorld} {bs : List Block}

/-! ## §1. Cutting the index. -/

/-- The blocks that end at a position or before it. -/
def blocksBefore (bs : List Block) (point : Nat) : List Block := bs.filter (·.stop ≤ point)

variable {t1 : TapeWorld} {initiator : Option String} {point : Nat} {b : Block}

theorem mem_blocksBefore : b ∈ blocksBefore bs point ↔ b ∈ bs ∧ b.stop ≤ point := by
  unfold blocksBefore
  rw [mem_filter, decide_eq_true_eq]

theorem blocksBefore_eq_self (h : ∀ b ∈ bs, b.stop ≤ point) : blocksBefore bs point = bs :=
  filter_eq_self.mpr (fun b hb => decide_eq_true (h b hb))

section

variable (h : Tracked env t bs)
include h

theorem Tracked.blocksBefore_zero : blocksBefore bs 0 = [] := by
  refine filter_eq_nil_iff.mpr (fun b hb hle => ?_)
  have hlt := h.start_lt hb
  have hle : b.stop ≤ 0 := by simpa using hle
  omega

theorem Tracked.lengths_cutAt (point : Nat) :
    (t.tape.cutAt point).blockLengths = lengthsOf (blocksBefore bs point) := by
  show t.tape.blockLengths.filter _ = _
  rw [h.lengths]
  unfold lengthsOf blocksBefore
  rw [filter_map]
  congr 1
  refine filter_congr (fun b hb => ?_)
  show decide (satAdd64 b.start b.payload.length ≤ point) = _
  rw [satAdd64_eq ((h.blocksEnd b hb).trans h.eod)]
  rfl

theorem Tracked.starts_cutAt (point : Nat) :
    (t.tape.cutAt point).blockStarts = (blocksBefore bs point).map Block.start := by
  have hlen := h.lengths_cutAt point
  show t.tape.blockStarts.filter (· ∈ (t.tape.cutAt point).blockLengths.map Prod.fst) = _
  rw [hlen, h.starts, filter_map]
  congr 1
  refine filter_congr (fun b hb => ?_)
  -- a start is kept exactly if its own block is
  have hkey : (lengthsOf (blocksBefore bs point)).map Prod.fst =
      (blocksBefore bs point).map Block.start := by
    unfold lengthsOf
    rw [map_map]
    rfl
  show decide (b.start ∈ (lengthsOf (blocksBefore bs point)).map Prod.fst) = _
  rw [hkey]
  refine decide_eq_decide.mpr ⟨fun hmem => ?_, fun hle => ?_⟩
  · obtain ⟨a, ha, hs⟩ := mem_map.mp hmem
    obtain ⟨hab, hle⟩ := mem_blocksBefore.mp ha
    rw [← h.recorded.eq_of_start h.diskInv hab hb hs]
    exact hle
  · exact mem_map.mpr ⟨b, mem_blocksBefore.mpr ⟨hb, hle⟩, rfl⟩

omit h in
/-- The drive's state once the tape is cut off at the current position. -/
def TapeState.truncated (s : TapeState) : TapeState :=
  { s.cutAt s.currentPosition with eodPosition := min s.eodPosition s.currentPosition }

omit h in
theorem TapeState.truncated_eq (s : TapeState) : s.truncated = { s with
    filemarks := (s.cutAt s.currentPosition).filemarks
    blockLengths := (s.cutAt s.currentPosition).blockLengths
    blockStarts := (s.cutAt s.currentPosition).blockStarts
    eodPosition := min s.eodPosition s.currentPosition } := rfl

theorem Tracked.truncated_of_end
    (hend : t.tape.eodPosition ≤ t.tape.currentPosition) : t.tape.truncated = t.tape := by
  have hblocks : blocksBefore bs t.tape.currentPosition = bs :=
    blocksBefore_eq_self (fun b hb => (h.blocksEnd b hb).trans hend)
  have hlen := h.lengths_cutAt t.tape.currentPosition
  have hst := h.starts_cutAt t.tape.currentPosition
  rw [hblocks, ← h.lengths] at hlen
  rw [hblocks, ← h.starts] at hst
  have hmarks : (t.tape.cutAt t.tape.currentPosition).filemarks = t.tape.filemarks :=
    filter_eq_self.mpr (fun m hm => decide_eq_true ((h.marksEnd m hm).trans_le hend))
  have heod : min t.tape.eodPosition t.tape.currentPosition = t.tape.eodPosition :=
    min_eq_left hend
  rw [TapeState.truncated_eq, hlen, hst, hmarks, heod]

theorem Tracked.truncated_of_zero (hzero : t.tape.currentPosition = 0) :
    t.tape.truncated = t.tape.forgotten := by
  have hlen := h.lengths_cutAt 0
  have hst := h.starts_cutAt 0
  rw [h.blocksBefore_zero] at hlen hst
  have hmarks : (t.tape.cutAt 0).filemarks = [] :=
    filter_eq_nil_iff.mpr (fun m _ => by simp)
  rw [TapeState.truncated_eq, hzero, hlen, hst, hmarks, Nat.min_zero, ← hzero]
  rw [TapeState.forgotten, ← hzero]
  rfl

end

theorem marksBefore_filter {marks : List Nat} {p q : Nat} (h : p ≤ q) :
    marksBefore (marks.filter (· < q)) p = marksBefore marks p := by
  grind [marksBefore, countP_filter]

variable {w : World}

/-- **A tape cut off at the current position is tracked** once its blocks are gone. -/
theorem Tracked.truncated (h : Tracked env t bs) (hinv : LayoutInv env.storage w)
    (hrec : Recorded env.storage w.disk (blocksBefore bs t.tape.currentPosition))
    (hmarks : w.disk.runtime.filemarks.getD [] = t.tape.truncated.filemarks) :
    Tracked env ((t.setTape t.tape.truncated).setWorld w)
      (blocksBefore bs t.tape.currentPosition) where
  loaded := h.loaded
  layout := h.layout
  inv := hinv
  recorded := hrec
  starts := h.starts_cutAt _
  lengths := h.lengths_cutAt _
  blocksEnd := by
    intro b hb
    obtain ⟨hmem, hle⟩ := mem_blocksBefore.mp hb
    exact le_min (h.blocksEnd b hmem) hle
  marksEnd := by
    intro m hm
    obtain ⟨hmem, hlt⟩ := mem_filter.mp hm
    exact lt_min (h.marksEnd m hmem) (of_decide_eq_true hlt)
  eod := (min_le_left _ _).trans h.eod
  current := h.current
  persisted := .of_eq hmarks
  -- the filemarks that are cut off lie behind the blocks that stay
  counted := by
    intro b hb
    obtain ⟨hmem, hle⟩ := mem_blocksBefore.mp hb
    have hlt := h.start_lt hmem
    show b.marks ≤ marksBefore (t.tape.filemarks.filter (· < t.tape.currentPosition)) b.start
    rw [marksBefore_filter (by omega)]
    exact h.counted b hmem

/-! ## §2. Cutting the tape. -/

/-- The tail up to `stop` is unmapped. -/
structure TailUnmapped (env : Env) (w w' : World) (bs : List Block) (start remaining : Nat) :
    Prop where
  inv : LayoutInv env w'
  recorded : Recorded env w'.disk
    (bs.filter fun b => ¬ (0 < remaining ∧ start < b.stop ∧ b.start < start + remaining))
  checkpoint : w'.disk.checkpoint = w.disk.checkpoint
  continues : Continues w w'

theorem TailUnmapped.refl {env : Env} {start : Nat} (hinv : LayoutInv env w)
    (hrec : Recorded env w.disk bs) : TailUnmapped env w w bs start 0 := by
  refine ⟨hinv, ?_, rfl, .refl w⟩
  rw [filter_eq_self.mpr (fun b _ => by simp)]
  exact hrec

/-- Unmapping a range and then the range behind it unmaps both. -/
theorem TailUnmapped.cons {env : Env} {w w1 w2 : World} {start span remaining : Nat}
    (hinv : LayoutInv env w) (hrec : Recorded env w.disk bs) (hspan : 0 < span)
    (hdone : UnmapDone env w w1 start (satAdd64 start span))
    (htail : TailUnmapped env w1 w2
      (bs.filter fun b => ¬ (start < b.stop ∧ b.start < start + span)) (start + span) remaining) :
    TailUnmapped env w w2 bs start (span + remaining) := by
  have hun := hdone.done.unmapped
  have hfirst : Continues w w1 := ⟨by rw [hun.runtime], hdone.done.faults⟩
  refine ⟨htail.inv, ?_, htail.checkpoint.trans hdone.done.checkpoint, hfirst.trans htail.continues⟩
  have hrec2 := htail.recorded
  rw [filter_filter] at hrec2
  -- a block that meets the whole range meets the first part or reaches into the second
  rw [show bs.filter (fun b => ¬ (0 < span + remaining ∧ start < b.stop ∧
      b.start < start + (span + remaining))) = _ from
    filter_congr (fun b hb => ?_)]
  · exact hrec2
  · have hlt := hrec.start_lt hinv.ok.disk hb
    grind

theorem unmapTail_spec {env : Env} (fuel : Nat) :
    ∀ {w : World} {bs : List Block} {start remaining : Nat}, LayoutInv env w →
      Recorded env w.disk bs → remaining ≤ fuel → start + remaining ≤ u64Max →
      wp (unmapTail env fuel start remaining) (fun _ w' => TailUnmapped env w w' bs start remaining)
        (fun _ w' => w'.disk.checkpoint = w.disk.checkpoint) w := by
  -- each turn unmaps at least one byte, so that `remaining` turns are enough
  induction fuel with
  | zero =>
    intro w bs start remaining hinv hrec hfuel _
    obtain rfl : remaining = 0 := by omega
    exact .refl hinv hrec
  | succ fuel ih =>
    intro w bs start remaining hinv hrec hfuel hfit
    unfold unmapTail
    rw [wp_ite]
    constructor
    · intro hzero
      subst hzero
      exact .refl hinv hrec
    intro hpos
    have hspan : 0 < min remaining u32Max := by
      have hmax : 0 < u32Max := by decide
      omega
    have hle : min remaining u32Max ≤ remaining := min_le_left _ _
    simp only [wp_bind]
    refine wp_mono (runUnmap_spec hinv.ok _ _) ?_ (fun _ _ hfail => hfail.checkpoint)
    rintro _ w1 ⟨hdone, -⟩
    have hinv1 := hdone.layoutInv hinv
    have hck := hdone.done.checkpoint
    have hnext : satAdd64 start (min remaining u32Max) = start + min remaining u32Max :=
      satAdd64_eq (by omega)
    have hun := hdone.done.unmapped
    rw [hnext] at hun
    have hrec1 := hrec.unmapped hun hinv.ok.disk hinv1.ok.disk
    rw [hnext]
    refine wp_mono (ih hinv1 hrec1 (by omega) (by omega)) ?_ (fun _ _ h => h.trans hck)
    intro _ w2 htail
    have hall := TailUnmapped.cons hinv hrec hspan hdone htail
    rwa [Nat.add_sub_cancel' hle] at hall

theorem persistFilemarks_spec {env : Env} (marks : List Nat) : wp (persistFilemarks env marks)
      (fun _ w' => Beside w w' { w.disk.runtime with filemarks := some marks })
      (fun _ w' => w.faults ≠ [] ∧ ∃ rt, Beside w w' rt) w :=
  wp_atomicStep (.stepped _ _) (fun hf => ⟨hf, _, .stepped_same _⟩)
    (fun hf => ⟨hf, _, .stepped _ _⟩)

/-- The tape is cut off at the current position. -/
structure Truncated (env : TapeEnv) (t t' : TapeWorld) (bs : List Block) : Prop where
  tape : t'.tape = t.tape.truncated
  tracked : Tracked env t' (blocksBefore bs t.tape.currentPosition)
  same : t.tape.eodPosition ≤ t.tape.currentPosition → t' = t
  continues : Continues t.world t'.world

/-- At the start of the tape, where it is emptied, the names of the segments have six digits. -/
def SmallAtStart (t : TapeWorld) : Prop := t.tape.currentPosition = 0 → SmallSegs t.world.disk

/-- **Cutting the tape.** -/
theorem truncateTailBeforeWrite_spec (h : Tracked env t bs)
    (hdirty : t.world.disk.checkpoint.flags ≠ .clean)
    (hsmall : SmallAtStart t) :
    wp (truncateTailBeforeWrite env) (fun _ t' => Truncated env t t' bs)
      (fun _ t' => CleanOk t'.world.disk ∧ t.tape.currentPosition < t.tape.eodPosition) t := by
  unfold truncateTailBeforeWrite
  simp only [wp_bind, wp_tapeState]
  rw [wp_ite]
  refine ⟨fun hend => ?_, fun hend => ?_⟩
  · -- nothing behind the position
    refine ⟨(h.truncated_of_end hend).symm, ?_, fun _ => rfl, .refl _⟩
    rw [blocksBefore_eq_self (fun b hb => (h.blocksEnd b hb).trans hend)]
    exact h
  have hlt : t.tape.currentPosition < t.tape.eodPosition := by omega
  -- both ways of cutting end with the filemarks that are left
  have hfinish : ∀ {w1 : World} {s : TapeState}, LayoutInv env.storage w1 →
      Recorded env.storage w1.disk (blocksBefore bs t.tape.currentPosition) →
      Continues t.world w1 → t.tape.truncated = s →
      wp (persistFilemarks env.storage s.filemarks)
        (fun _ w2 => Truncated env t ((t.setTape s).setWorld w2) bs)
        (fun _ w2 => CleanOk w2.disk ∧ t.tape.currentPosition < t.tape.eodPosition) w1 := by
    intro w1 s hinv hrec hcont htape
    refine wp_then (persistFilemarks_spec _) ?_ ?_
    · intro _ w2 hout
      obtain ⟨-, rt, hb⟩ := hout
      exact ⟨(hb.layoutInv hinv).crashInv.clean, hlt⟩
    intro _ w2 hb
    have hinv2 := hb.layoutInv hinv
    subst htape
    refine ⟨rfl, h.truncated hinv2 (hrec.sameFiles hb.sameFiles hinv.ok.disk hinv2.ok.disk) ?_,
      fun hle => absurd hle hend, hcont.trans (hb.continues rfl)⟩
    rw [hb.runtime]
    rfl
  rw [wp_ite]
  refine ⟨fun hzero => ?_, fun hpos => ?_⟩
  · -- at the beginning of the tape the layout starts over
    simp only [wp_bind, wp_onLayout, wp_modifyTape]
    refine wp_then (resetLayoutForOverwrite_spec h.inv.ok (hsmall hzero)) ?_ ?_
    · intro _ w1 hout
      obtain ⟨-, hcut⟩ := hout
      refine ⟨fun hclean => ?_, hlt⟩
      rcases hcut.clean hclean with hd | hblank
      · exact absurd (hd ▸ hclean) hdirty
      · exact hblank.consistent
    intro _ w1 hreset
    refine hfinish hreset.inv ?_ ⟨by rw [hreset.runtime], hreset.faults⟩ (h.truncated_of_zero hzero)
    rw [hzero, h.blocksBefore_zero]
    exact .blank hreset.blank.active
  simp only [wp_bind, wp_onLayout, wp_modifyTape, wp_tapeState]
  have hfit : t.tape.currentPosition + (t.tape.eodPosition - t.tape.currentPosition) ≤ u64Max := by
    have := h.eod
    omega
  refine wp_then (unmapTail_spec _ h.inv h.recorded le_rfl hfit) ?_ ?_
  · intro _ w1 hck
    refine ⟨fun hclean => ?_, hlt⟩
    rw [show (t.setWorld w1).world.disk.checkpoint = t.world.disk.checkpoint from hck] at hclean
    exact absurd hclean hdirty
  intro _ w1 htail
  have hblocks : Recorded env.storage w1.disk (blocksBefore bs t.tape.currentPosition) := by
    have hrec := htail.recorded
    rwa [show bs.filter _ = blocksBefore bs t.tape.currentPosition from
      filter_congr (fun b hb => ?_)] at hrec
    have h1 := h.start_lt hb
    have h2 := h.blocksEnd b hb
    refine decide_eq_decide.mpr ?_
    omega
  refine hfinish (s := { t.tape.cutAt t.tape.currentPosition with
    eodPosition := t.tape.currentPosition }) htail.inv hblocks htail.continues ?_
  unfold TapeState.truncated
  rw [min_eq_right hlt.le]

/-! ## §3. One block. -/

/-- Dedup hits are compared with the payload, or there are none. -/
def TapeEnv.HitsVerified (env : TapeEnv) : Prop :=
  env.storage.verifyDedupHits = true ∨ env.tapeDedupEnabled = false

theorem TapeEnv.HitsVerified.hitsMatch (h : env.HitsVerified) (d : Disk) (s : TapeState)
    (payload : Bytes) : HitsMatch env.storage d (tapeWriteOptions env s) payload := by
  rcases h with hverify | hoff
  · exact .of_verify hverify d _ payload
  · intro hon
    have hon : env.tapeDedupEnabled = true := hon
    rw [hoff] at hon
    cases hon

/-- What the drive would store of a payload can be read back. -/
def Storable (s : TapeState) (payload : Bytes) : Prop :=
  s.dataCompressionEnabled = false ∨ payload.length ≤ maxDecompressedPayloadLen

variable {payload : Bytes} {marks : Nat}

theorem Storable.decodable {s : TapeState} (h : Storable s payload) :
    Decodable (tapeWriteOptions env s) payload := by
  rcases h with hoff | hle
  · left
    show (if s.dataCompressionEnabled then _ else _) = _
    rw [hoff]
    rfl
  · exact .inr hle

/-- The drive's state with one more block at the current position. -/
def TapeState.withBlock (s : TapeState) (length : Nat) : TapeState :=
  let r := recordBlock s.currentPosition length s
  { r with
    currentPosition := s.currentPosition + length
    eodPosition := max r.eodPosition (s.currentPosition + length) }

theorem eodPosition_withBlock (s : TapeState) (length : Nat) :
    (s.withBlock length).eodPosition = max s.eodPosition (s.currentPosition + length) := by
  show max (recordBlock s.currentPosition length s).eodPosition _ = _
  unfold recordBlock
  split
  next => rfl
  next => rfl

theorem SameSettings.withBlock (s : TapeState) (length : Nat) :
    SameSettings s (s.withBlock length) := by
  unfold TapeState.withBlock recordBlock
  split
  next => exact ⟨rfl, rfl, rfl, rfl, rfl, rfl, rfl, rfl, rfl⟩
  next => exact ⟨rfl, rfl, rfl, rfl, rfl, rfl, rfl, rfl, rfl⟩

theorem filemarks_withBlock (s : TapeState) (length : Nat) :
    (s.withBlock length).filemarks = s.filemarks := by
  unfold TapeState.withBlock recordBlock
  split
  next => rfl
  next => rfl

/-- Behind the last block, the index grows at its end. -/
theorem recordBlock_at_end (h : Tracked env t bs)
    (hend : t.tape.eodPosition ≤ t.tape.currentPosition) (length : Nat) :
    recordBlock t.tape.currentPosition length t.tape = { t.tape with
        blockStarts := t.tape.blockStarts ++ [t.tape.currentPosition]
        blockLengths := t.tape.blockLengths ++ [(t.tape.currentPosition, length)] } := by
  have hbefore : ∀ b ∈ bs, b.start < t.tape.currentPosition := fun b hb =>
    (h.start_lt hb).trans_le ((h.blocksEnd b hb).trans hend)
  have hnew : t.tape.currentPosition ∉ t.tape.blockLengths.map Prod.fst := by
    rw [h.lengths]
    intro hmem
    obtain ⟨x, hx, hs⟩ := mem_map.mp hmem
    obtain ⟨b, hb, rfl⟩ := mem_map.mp hx
    have hlt := hbefore b hb
    omega
  have hlast : ∀ last, t.tape.blockStarts.getLast? = some last → last < t.tape.currentPosition := by
    intro last hl
    rw [h.starts] at hl
    obtain ⟨b, hb, rfl⟩ := mem_map.mp (mem_of_getLast? hl)
    exact hbefore b hb
  have hins : insertByKey Prod.fst (t.tape.currentPosition, length) t.tape.blockLengths =
      t.tape.blockLengths ++ [(t.tape.currentPosition, length)] := by
    unfold insertByKey
    rw [if_pos]
    rw [Option.all_eq_true]
    intro x hx
    rw [h.lengths] at hx
    obtain ⟨b, hb, rfl⟩ := mem_map.mp (mem_of_getLast? hx)
    exact decide_eq_true (hbefore b hb).le
  grind [recordBlock]

theorem marksBefore_eq_length {marks : List Nat} {p : Nat} (h : ∀ m ∈ marks, m < p) :
    marksBefore marks p = marks.length := by
  unfold marksBefore
  rw [countP_eq_length]
  exact fun m hm => decide_eq_true (h m hm)

/-- **The tape with one more block at its end.** -/
theorem Tracked.withBlock (h : Tracked env t bs)
    (hend : t.tape.eodPosition ≤ t.tape.currentPosition)
    (hfit : t.tape.currentPosition + payload.length ≤ u64Max)
    (hcount : marks ≤ t.tape.filemarks.length) (hinv : LayoutInv env.storage w)
    (hadd : Added env.storage t.world.disk w.disk t.tape.currentPosition payload marks) :
    Tracked env ((t.setTape (t.tape.withBlock payload.length)).setWorld w)
      (bs ++ [⟨t.tape.currentPosition, payload, marks⟩]) := by
  have hrec := recordBlock_at_end h hend payload.length
  have hmem : ∀ b ∈ bs ++ [⟨t.tape.currentPosition, payload, marks⟩], b ∈ bs ∨
      b = ⟨t.tape.currentPosition, payload, marks⟩ := by simp
  have hmarks := filemarks_withBlock t.tape payload.length
  have hset := SameSettings.withBlock t.tape payload.length
  constructor
  case loaded =>
    exact fun he => h.loaded (hset.mountState.symm.trans he)
  case layout => exact hset.activeLayout.trans h.layout
  case inv => exact hinv
  case recorded =>
    exact h.recorded.added hadd h.diskInv hinv.ok.disk (fun b hb => (h.blocksEnd b hb).trans hend)
  case starts =>
    simp [TapeState.withBlock, h.starts, hrec]
  case lengths =>
    show (t.tape.withBlock payload.length).blockLengths = _
    unfold TapeState.withBlock lengthsOf
    rw [hrec, h.lengths, map_append]
    rfl
  case blocksEnd =>
    intro b hb
    show b.stop ≤ (t.tape.withBlock payload.length).eodPosition
    rw [eodPosition_withBlock]
    rcases hmem b hb with hb | rfl
    · exact (h.blocksEnd b hb).trans (le_max_left _ _)
    · exact le_max_right _ _
  case marksEnd =>
    intro m hm
    have hm : m ∈ t.tape.filemarks := hmarks ▸ hm
    show m < (t.tape.withBlock payload.length).eodPosition
    rw [eodPosition_withBlock]
    exact (h.marksEnd m hm).trans_le (le_max_left _ _)
  case eod =>
    rw [TapeWorld.tape_setWorld, TapeWorld.tape_setTape, eodPosition_withBlock]
    exact max_le h.eod hfit
  case current => exact hfit
  case persisted =>
    simp [hadd.runtime, h.persisted, hmarks]
  case counted =>
    -- the new block is at the end, behind every filemark
    intro b hb
    rw [TapeWorld.tape_setWorld, TapeWorld.tape_setTape, hmarks]
    rcases hmem b hb with hb | rfl
    · exact h.counted b hb
    · show marks ≤ marksBefore t.tape.filemarks t.tape.currentPosition
      rw [marksBefore_eq_length (fun m hm => (h.marksEnd m hm).trans_le hend)]
      exact hcount

/-- Why writing a block fails with nothing failing under it. -/
def BlockRefused (env : TapeEnv) (t : TapeWorld) (d' : Disk) (payload : Bytes) : Prop :=
  t.world.faults = [] → WriteRefused env.storage t.world d' t.tape.currentPosition payload
    (tapeWriteOptions env t.tape) none

/-- The block is on the tape. -/
structure BlockWritten (env : TapeEnv) (t t' : TapeWorld) (bs : List Block) (payload : Bytes)
    (marks : Nat) : Prop where
  tracked : Tracked env t' (bs ++ [⟨t.tape.currentPosition, payload, marks⟩])
  current : t'.tape.currentPosition = t.tape.currentPosition + payload.length
  eod : t'.tape.eodPosition = t'.tape.currentPosition
  filemarks : t'.tape.filemarks = t.tape.filemarks
  settings : SameSettings t.tape t'.tape
  continues : Continues t.world t'.world

/-- **Writing one block** at the end of the tape. -/
theorem writeBlock_spec (h : Tracked env t bs) (hend : t.tape.eodPosition ≤ t.tape.currentPosition)
    (hfit : t.tape.currentPosition + payload.length ≤ u64Max) (hne : payload ≠ [])
    (hcount : marks ≤ t.tape.filemarks.length) (hlaw : env.storage.codecs.Lawful)
    (hhits : env.HitsVerified) (hsto : Storable t.tape payload) :
    wp (writeBlock env payload marks) (fun _ t' => BlockWritten env t t' bs payload marks)
      (fun _ t' => CleanOk t'.world.disk ∧ BlockRefused env t t'.world.disk payload) t := by
  unfold writeBlock
  simp only [wp_bind, wp_tapeState, wp_onLayout]
  refine wp_then (writeLogicalBlock_spec h.inv.ok h.inv.covered hlaw ⟨hne, hfit⟩ hsto.decodable
    (hhits.hitsMatch _ _ _)) ?_ ?_
  · intro _ w hfail
    refine ⟨fun hclean => ?_, hfail.reason⟩
    rcases hfail.clean hclean with hd | hcons
    · have hd : w.disk = t.world.disk := hd
      show Consistent w.disk
      rw [hd]
      refine h.cleanOk ?_
      rw [← hd]
      exact hclean
    · exact hcons
  intro _ w hout
  obtain ⟨hinv, hadd, hfaults⟩ := hout
  have hpos : checkedAdd64 t.tape.currentPosition payload.length =
      some (t.tape.currentPosition + payload.length) := if_pos hfit
  rw [hpos]
  simp only [wp_bind, wp_modifyTape]
  have htr := h.withBlock hend hfit hcount hinv hadd
  refine wp_mono recordUsage_spec ?_ ?_
  swap
  · intro _ t' hout
    obtain ⟨hf, hc⟩ := hout
    refine ⟨(htr.afterCount hc).cleanOk, fun hnil => ?_⟩
    -- counting fails only by a fault, and none was left
    have hsub : w.faults ⊆ [] := hnil ▸ hfaults
    exact absurd (subset_nil.mp hsub) hf
  intro _ t' hc
  have hfirst : Continues t.world w := ⟨by rw [hadd.runtime], hfaults⟩
  have heod : t'.tape.eodPosition = max t.tape.eodPosition
      (t.tape.currentPosition + payload.length) :=
    hc.sameIndex.eodPosition.trans (eodPosition_withBlock _ _)
  have hcur : t'.tape.currentPosition = t.tape.currentPosition + payload.length := hc.current
  refine ⟨htr.afterCount hc, hcur, ?_, hc.sameIndex.filemarks.trans (filemarks_withBlock _ _),
    (SameSettings.withBlock _ _).trans hc.sameSettings, hfirst.trans hc.continues⟩
  omega

/-- A position past the last one is never reached. -/
theorem writeBlock_overflow (hover : ¬ t.tape.currentPosition + payload.length ≤ u64Max) :
    wp (writeBlock env payload marks) (fun _ _ => False) (fun _ _ => True) t := by
  unfold writeBlock
  simp only [wp_bind, wp_tapeState, wp_onLayout]
  refine wp_mono (wp_true _) (fun _ w _ => ?_) (fun _ _ _ => trivial)
  have hnone : checkedAdd64 t.tape.currentPosition payload.length = none := if_neg hover
  rw [hnone]
  exact trivial

/-! ## §4. Several blocks. -/

/-- The blocks of these payloads, one behind the other. -/
def blocksFrom (marks : Nat) : Nat → List Bytes → List Block
  | _, [] => []
  | start, p :: ps => ⟨start, p, marks⟩ :: blocksFrom marks (start + p.length) ps

/-- The blocks are on the tape. -/
structure BlocksWritten (env : TapeEnv) (t t' : TapeWorld) (bs : List Block)
    (payloads : List Bytes) (marks : Nat) : Prop where
  tracked : Tracked env t' (bs ++ blocksFrom marks t.tape.currentPosition payloads)
  current : t'.tape.currentPosition = t.tape.currentPosition + payloads.flatten.length
  eod : t'.tape.eodPosition ≤ t'.tape.currentPosition
  ends : payloads ≠ [] → t'.tape.eodPosition = t'.tape.currentPosition
  filemarks : t'.tape.filemarks = t.tape.filemarks
  settings : SameSettings t.tape t'.tape
  continues : Continues t.world t'.world

theorem Storable.sameSettings {s s' : TapeState} (h : Storable s payload)
    (hset : SameSettings s s') :
    Storable s' payload := by
  unfold Storable
  rw [hset.dataCompressionEnabled]
  exact h

/-- **Writing blocks one behind the other.** -/
theorem writeBlocks_spec (hlaw : env.storage.codecs.Lawful) (hhits : env.HitsVerified)
    (payloads : List Bytes) :
    ∀ {t : TapeWorld} {bs : List Block}, Tracked env t bs →
      t.tape.eodPosition ≤ t.tape.currentPosition →
      (∀ p ∈ payloads, p ≠ [] ∧ Storable t.tape p) → marks ≤ t.tape.filemarks.length →
      wp (forEach payloads fun p => writeBlock env p marks)
        (fun _ t' => BlocksWritten env t t' bs payloads marks)
        (fun _ t' => t.tape.currentPosition + payloads.flatten.length ≤ u64Max →
          CleanOk t'.world.disk) t := by
  induction payloads with
  | nil =>
    intro t bs h hend _ _
    refine ⟨?_, rfl, hend, fun hne => absurd rfl hne, rfl, .refl _, .refl _⟩
    rw [blocksFrom, append_nil]
    exact h
  | cons p ps ih =>
    intro t bs h hend hps hcount
    have hlen : (p :: ps).flatten.length = p.length + ps.flatten.length := by
      rw [flatten_cons, length_append]
    obtain ⟨hne, hsto⟩ := hps p mem_cons_self
    rw [forEach, wp_bind]
    by_cases hfit : t.tape.currentPosition + p.length ≤ u64Max
    swap
    · refine wp_mono (writeBlock_overflow hfit) (fun _ _ hfalse => hfalse.elim) ?_
      intro _ t' _ hall
      omega
    refine wp_mono (writeBlock_spec h hend hfit hne hcount hlaw hhits hsto) ?_
      (fun _ _ hcut _ => hcut.1)
    intro _ t1 hw
    have hps1 : ∀ q ∈ ps, q ≠ [] ∧ Storable t1.tape q := fun q hq =>
      ⟨(hps q (mem_cons_of_mem p hq)).1, (hps q (mem_cons_of_mem p hq)).2.sameSettings hw.settings⟩
    refine wp_then (ih hw.tracked hw.eod.le hps1 (hw.filemarks ▸ hcount)) ?_ ?_
    · intro _ t' hclean hall
      refine hclean ?_
      rw [hw.current]
      omega
    intro _ t' hws
    refine ⟨?_, ?_, hws.eod, fun _ => ?_, hws.filemarks.trans hw.filemarks,
      hw.settings.trans hws.settings, hw.continues.trans hws.continues⟩
    · have htr := hws.tracked
      rw [append_assoc, hw.current] at htr
      exact htr
    · rw [hws.current, hw.current, hlen]
      omega
    -- with no further block the last one ends the tape
    cases ps with
    | nil =>
      have hend' := hws.eod
      have hlast := hws.tracked.blocksEnd ⟨t.tape.currentPosition, p, marks⟩ (by simp)
      have hcur : t'.tape.currentPosition = t.tape.currentPosition + p.length := by
        rw [hws.current, hw.current]
        rfl
      have hlast : t.tape.currentPosition + p.length ≤ t'.tape.eodPosition := hlast
      omega
    | cons q qs => exact hws.ends (by simp)

/-! ## §5. The commands. -/

theorem Tracked.marked (h : Tracked env t bs) {c : MetadataCheckpoint}
    (hput : CheckpointPut t.world w c) (hdirty : c.flags = .dirty) :
    Tracked env (t.setWorld w) bs := by
  have hflags : w.disk.checkpoint.flags = .dirty := by
    rw [hput.disk]
    exact hdirty
  refine h.world ⟨h.inv.ok.putCheckpoint hput, h.inv.covered.putCheckpoint hput, ?_⟩ ?_ ?_
  · simp [hflags]
  · rw [hput.disk]
    exact (SameFiles.refl _).putCheckpoint c
  · rw [hput.disk]
    rfl

/-- The tape is open for writing at the current position. -/
structure Opened (env : TapeEnv) (t t' : TapeWorld) (bs : List Block) (marks : Nat) : Prop where
  tape : t'.tape = t.tape.truncated
  tracked : Tracked env t' (blocksBefore bs t.tape.currentPosition)
  marks : marks = t'.tape.filemarks.length
  put : t.tape.eodPosition ≤ t.tape.currentPosition → ∃ c, CheckpointPut t.world t'.world c
  continues : Continues t.world t'.world

theorem openTail_spec (h : Tracked env t bs)
    (hsmall : SmallAtStart t) :
    wp (openTail env) (fun marks t' => Opened env t t' bs marks)
      (fun _ t' => CleanOk t'.world.disk ∧ (t.world.faults = [] →
        t.tape.eodPosition ≤ t.tape.currentPosition → u32Max < t.tape.filemarks.length)) t := by
  unfold openTail
  simp only [wp_bind, wp_onLayout]
  refine wp_then (markCheckpointDirty_spec h.inv.ok.checkpoint) ?_ ?_
  · intro _ w hout
    obtain ⟨hne, hd⟩ := hout
    refine ⟨fun hclean => ?_, fun hnil => absurd hnil hne⟩
    have hclean : w.disk.checkpoint.flags = .clean := hclean
    show Consistent w.disk
    rcases hd with hd | hd
    · rw [hd]
      exact h.cleanOk (hd ▸ hclean)
    · rw [hd] at hclean
      exact absurd hclean (by simp [Disk.putCheckpoint, MetadataCheckpoint.next])
  intro c w hout
  obtain ⟨hput, hdirty⟩ := hout
  have h1 := h.marked hput hdirty
  have hflags : (t.setWorld w).world.disk.checkpoint.flags ≠ .clean := by
    show w.disk.checkpoint.flags ≠ .clean
    rw [hput.disk]
    show c.flags ≠ .clean
    rw [hdirty]
    simp
  have hsmall1 : SmallAtStart (t.setWorld w) := by
    intro hzero s f hf
    have hf : w.disk.segs.lookup s = some f := hf
    rw [hput.disk] at hf
    exact hsmall hzero s f hf
  -- from here the checkpoint is dirty, and what lies behind may be unmapped
  refine wp_then (truncateTailBeforeWrite_spec h1 hflags hsmall1) ?_ ?_
  · intro _ t1 hcut
    exact ⟨hcut.1, fun _ hend => absurd hend (not_le.mpr hcut.2)⟩
  intro _ t1 htr
  unfold validatePayloadLen
  simp only [wp_tapeState, wp_check, wp_pure]
  constructor
  · intro hbig
    refine ⟨htr.tracked.cleanOk, fun _ hend => ?_⟩
    rw [htr.same hend] at hbig
    exact hbig
  intro _
  have hfirst : Continues t.world w := ⟨by rw [hput.disk]; rfl, hput.faults⟩
  refine ⟨htr.tape, htr.tracked, rfl, fun hend => ⟨c, ?_⟩, hfirst.trans htr.continues⟩
  rw [htr.same hend]
  exact hput

/-- The blocks of a write are on the tape, behind what was before the position. -/
structure Wrote (env : TapeEnv) (t t' : TapeWorld) (bs : List Block) (payloads : List Bytes) :
    Prop where
  tracked : Tracked env t' (blocksBefore bs t.tape.currentPosition ++
    blocksFrom t'.tape.filemarks.length t.tape.currentPosition payloads)
  filemarks : t'.tape.filemarks = t.tape.filemarks.filter (· < t.tape.currentPosition)
  current : t'.tape.currentPosition = t.tape.currentPosition + payloads.flatten.length
  eod : t'.tape.eodPosition = t'.tape.currentPosition
  settings : SameSettings t.tape t'.tape
  unlocked : ¬ t.tape.Locked
  appends : Appends t.tape
  ready : t.tape.requiresRecovery ≠ true
  nonempty : payloads ≠ [] ∧ ∀ p ∈ payloads, p ≠ []
  continues : Continues t.world t'.world

theorem Opened.current (h : Opened env t t1 bs marks) :
    t1.tape.currentPosition = t.tape.currentPosition := by
  rw [h.tape]
  rfl

theorem Opened.settings (h : Opened env t t1 bs marks) : SameSettings t.tape t1.tape := by
  rw [h.tape]
  exact ⟨rfl, rfl, rfl, rfl, rfl, rfl, rfl, rfl, rfl⟩

theorem Opened.written {t1 t' : TapeWorld} (h : Opened env t t1 bs marks) {payloads : List Bytes}
    (hne : payloads ≠ [] ∧ ∀ p ∈ payloads, p ≠ [])
    (hw : BlocksWritten env t1 t' (blocksBefore bs t.tape.currentPosition) payloads marks)
    (hunlocked : ¬ t.tape.Locked) (happends : Appends t.tape)
    (hready : t.tape.requiresRecovery ≠ true) : Wrote env t t' bs payloads := by
  refine ⟨?_, ?_, ?_, hw.ends hne.1, h.settings.trans hw.settings, hunlocked, happends, hready,
    hne, h.continues.trans hw.continues⟩
  · have htr := hw.tracked
    rwa [h.current, h.marks, ← hw.filemarks] at htr
  · rw [hw.filemarks, h.tape]
    rfl
  · rw [hw.current, h.current]

theorem Opened.eod_le (h : Opened env t t1 bs marks) :
    t1.tape.eodPosition ≤ t1.tape.currentPosition := by
  rw [h.tape]
  exact min_le_right _ _

/-- Why a write of one block fails, if it needs no truncation and nothing fails under it. -/
def WriteStopped (env : TapeEnv) (t : TapeWorld) (d' : Disk) (payload : Bytes) : Prop :=
  t.world.faults = [] → t.tape.eodPosition ≤ t.tape.currentPosition →
    t.tape.currentPosition + payload.length ≤ u64Max → u32Max < t.tape.filemarks.length ∨
      ∃ w c, CheckpointPut t.world w c ∧ WriteRefused env.storage w d' t.tape.currentPosition
        payload (tapeWriteOptions env t.tape) none

/-- What the body of a failed WRITE leaves on disk. -/
structure WriteLeft (env : TapeEnv) (t : TapeWorld) (payload : Bytes) (d : Disk) : Prop where
  clean : t.tape.currentPosition + payload.length ≤ u64Max → CleanOk d
  stopped : WriteStopped env t d payload

/-- **The body of WRITE.** -/
theorem writeData_body_spec (h : Tracked env t bs) (hne : payload ≠ [])
    (hlaw : env.storage.codecs.Lawful) (hhits : env.HitsVerified) (hsto : Storable t.tape payload)
    (hsmall : SmallAtStart t)
    (hallowed : ¬ t.tape.Locked) (happends : Appends t.tape)
    (hready : t.tape.requiresRecovery ≠ true) :
    wp (do
        let filemarkCount ← openTail env
        writeBlock env payload filemarkCount)
      (fun _ t' => Wrote env t t' bs [payload])
      (fun _ t' => WriteLeft env t payload t'.world.disk) t := by
  rw [wp_bind]
  refine wp_then (openTail_spec h hsmall) ?_ ?_
  · intro _ t' hout
    obtain ⟨hclean, hreason⟩ := hout
    exact ⟨fun _ => hclean, fun hnil hend _ => .inl (hreason hnil hend)⟩
  intro marks t1 hopen
  have hcur := hopen.current
  have hset := hopen.settings
  -- the position would pass the last one: the block is not written
  by_cases hfit : t1.tape.currentPosition + payload.length ≤ u64Max
  swap
  · rw [hcur] at hfit
    refine wp_mono (writeBlock_overflow (by rw [hcur]; exact hfit))
      (fun _ _ hfalse => hfalse.elim) ?_
    intro _ t' _
    exact ⟨fun hle => absurd hle hfit, fun _ _ hle => absurd hle hfit⟩
  refine wp_mono (writeBlock_spec hopen.tracked hopen.eod_le hfit hne hopen.marks.le hlaw
    hhits (hsto.sameSettings hset)) ?_ ?_
  · intro _ t' hw
    refine hopen.written ⟨by simp, by simpa using hne⟩ ⟨hw.tracked, ?_, hw.eod.le,
      fun _ => hw.eod, hw.filemarks, hw.settings, hw.continues⟩ hallowed happends hready
    rw [hw.current]
    simp
  intro _ t' hout
  obtain ⟨hclean, hreason⟩ := hout
  refine ⟨fun _ => hclean, fun hnil hend _ => .inr ?_⟩
  obtain ⟨c, hput⟩ := hopen.put hend
  have hnil1 : t1.world.faults = [] := subset_nil.mp (hnil ▸ hput.faults)
  have hopts : tapeWriteOptions env t1.tape = tapeWriteOptions env t.tape := by
    unfold tapeWriteOptions
    rw [hset.dataCompressionEnabled]
  have href := hreason hnil1
  rw [hcur, hopts] at href
  exact ⟨t1.world, c, hput, href⟩

/-- **WRITE**: the block is on the tape, or nothing happened, or the drive asks for recovery. -/
theorem writeData_spec (h : Tracked env t bs) (hlaw : env.storage.codecs.Lawful)
    (hhits : env.HitsVerified) (hsto : Storable t.tape payload)
    (hsmall : SmallAtStart t) :
    wp (writeData env payload initiator)
      (fun _ t' => (payload = [] ∧ t' = t) ∨ payload ≠ [] ∧ Wrote env t t' bs [payload])
      (fun _ t' => Refused t t' ∨ Broken t' ∧ WriteLeft env t payload t'.world.disk) t := by
  have hstay : ∀ e : TapeError, Refused t t ∨ Broken t ∧ WriteLeft env t payload t.world.disk :=
    fun _ => .inl (.refl t)
  refine guard_ensureLoaded.bind hstay (fun _ => ?_)
  refine guard_ensureRecoveryComplete.bind hstay (fun hready => ?_)
  refine (guard_validatePayloadLen _).bind hstay (fun _ => ?_)
  simp only [wp_bind, wp_tapeState]
  rw [wp_ite]
  constructor
  -- an empty payload asks nobody and writes nothing
  · intro hnil
    rw [wp_ite]
    exact ⟨fun _ => .inl ⟨hnil, rfl⟩, fun _ => .inl (.refl t)⟩
  intro hne
  refine (guard_enforceProtectedAccess initiator).bind hstay (fun hallowed => ?_)
  refine guard_enforceWormAppendOnly.bind hstay (fun happends => ?_)
  refine (Guard.check _ _).bind hstay (fun _ => ?_)
  refine guard_ensureLayout.bind hstay (fun _ => ?_)
  refine (guard_ensureCapacityAvailable _).bind hstay (fun _ => ?_)
  refine wp.bind acquireSpaceAdmission_spec ?_ (fun _ _ hr => .inl hr.1)
  rintro _ _ rfl
  have h1 := h.asked
  have hbody := writeData_body_spec h1 hne hlaw hhits hsto hsmall hallowed.2 happends hready
  refine wp_mono (finishWriteCommand_spec (P := WriteLeft env _ payload) hbody) ?_ ?_
  · intro _ t' hw
    exact .inr ⟨hne, hw.tracked, hw.filemarks, hw.current, hw.eod, hw.settings, hw.unlocked,
      hw.appends, hw.ready, hw.nonempty, hw.continues⟩
  · intro _ t' hout
    obtain ⟨hbroken, hleft⟩ := hout
    exact .inr ⟨hbroken, hleft.clean, hleft.stopped⟩

theorem chunks_ne_nil {size fuel : Nat} (hsize : 0 < size) :
    ∀ {payload : Bytes}, ∀ p ∈ chunks size fuel payload, p ≠ [] := by
  induction fuel with
  | zero =>
    intro payload p hp
    exact absurd hp (by simp [chunks])
  | succ fuel ih =>
    intro payload p hp
    unfold chunks at hp
    split at hp
    next => cases hp
    next hne =>
      rcases mem_cons.mp hp with rfl | hp
      · intro htake
        simp_all
      · exact ih p hp

theorem flatten_chunks {size : Nat} (hsize : 0 < size) (fuel : Nat) :
    ∀ {payload : Bytes}, payload.length ≤ fuel → (chunks size fuel payload).flatten = payload := by
  induction fuel with
  | zero =>
    intro payload hlen
    obtain rfl : payload = [] := eq_nil_of_length_eq_zero (by omega)
    rfl
  | succ fuel ih =>
    intro payload hlen
    unfold chunks
    split
    next hnil => exact hnil.symm
    next hne =>
      rw [flatten_cons, ih (by rw [length_drop]; omega)]
      exact take_append_drop size payload

/-- **WRITE of several fixed blocks.** -/
theorem writeFixedBlocks_spec (h : Tracked env t bs) {blockSize : Nat}
    (hlaw : env.storage.codecs.Lawful) (hhits : env.HitsVerified)
    (hsto : ∀ p ∈ chunks blockSize payload.length payload, Storable t.tape p)
    (hsmall : SmallAtStart t) :
    wp (writeFixedBlocks env payload blockSize initiator)
      (fun _ t' => Wrote env t t' bs (chunks blockSize payload.length payload))
      (fun _ t' => Refused t t' ∨ Broken t' ∧
        (t.tape.currentPosition + payload.length ≤ u64Max → CleanOk t'.world.disk)) t := by
  have hstay : ∀ e : TapeError, Refused t t ∨ Broken t ∧
      (t.tape.currentPosition + payload.length ≤ u64Max → CleanOk t.world.disk) :=
    fun _ => .inl (.refl t)
  -- the checks, in their order: each one refuses with nothing changed
  refine guard_ensureLoaded.bind hstay (fun _ => ?_)
  refine guard_ensureRecoveryComplete.bind hstay (fun hready => ?_)
  refine (Guard.check _ _).bind hstay (fun hwhole => ?_)
  refine (guard_validatePayloadLen _).bind hstay (fun _ => ?_)
  refine (Guard.check _ _).bind hstay (fun _ => ?_)
  refine (guard_enforceProtectedAccess initiator).bind hstay (fun hallowed => ?_)
  refine guard_enforceWormAppendOnly.bind hstay (fun happends => ?_)
  refine guard_ensureLayout.bind hstay (fun _ => ?_)
  refine (guard_ensureCapacityAvailable _).bind hstay (fun _ => ?_)
  refine (Guard.check _ _).bind hstay (fun _ => ?_)
  refine wp.bind acquireSpaceAdmission_spec ?_ (fun _ _ hr => .inl hr.1)
  rintro _ _ rfl
  have h1 := h.asked
  have hsize : 0 < blockSize := by omega
  have hflat : (chunks blockSize payload.length payload).flatten = payload :=
    flatten_chunks hsize _ le_rfl
  have hne : chunks blockSize payload.length payload ≠ [] := by grind
  -- a failure from here on leaves a drive that asks for recovery
  refine wp_mono (finishWriteCommand_spec
    (P := fun d => t.tape.currentPosition + payload.length ≤ u64Max → CleanOk d) ?_)
    (fun _ _ hq => hq) (fun _ _ hE => .inr hE)
  rw [wp_bind]
  refine wp_mono (openTail_spec h1 hsmall) ?_ (fun _ _ hcut _ => hcut.1)
  intro marks t2 hopen
  refine wp_mono (writeBlocks_spec hlaw hhits _ hopen.tracked hopen.eod_le
    (fun p hp => ⟨chunks_ne_nil hsize p hp, (hsto p hp).sameSettings hopen.settings⟩)
    hopen.marks.le) ?_ ?_
  · intro _ t' hw
    have hwrote := hopen.written ⟨hne, chunks_ne_nil hsize⟩ hw hallowed.2 happends hready
    exact ⟨hwrote.tracked, hwrote.filemarks, hwrote.current, hwrote.eod, hwrote.settings,
      hwrote.unlocked, hwrote.appends, hwrote.ready, hwrote.nonempty, hwrote.continues⟩
  · intro _ t' hclean hfit
    refine hclean ?_
    rw [hflat, hopen.current]
    exact hfit

end Holo.Tape
