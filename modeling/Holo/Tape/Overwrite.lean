/-
Holo.Tape.Overwrite — writing in the middle of a tape.

Where a command writes below the end of data, the tape should end behind what it wrote: what
ended before stays, and nothing else does.  WRITE cuts the tape off at the current position;
it leaves a filemark that begins before the position and reaches over it.  WRITE FILEMARKS does
not cut the tape off at all.

Main results:
* `overwrite_iff`: when exactly the tail is replaced, now and after a reload;
* `filemark_keeps_tail`: a filemark written at the start of a block leaves the block.
-/
import Holo.Tape.Runs

namespace Holo.Tape

open Lib Program Storage List

variable {env : TapeEnv} {t t' : TapeWorld} {bs : List Block}
variable {c : CoreCommand}

/-! ## §1. The tail. -/

/-- The filemarks that end at the current position or before it. -/
def marksEnded (t : TapeWorld) : List Nat :=
  t.tape.filemarks.filter fun m =>
    decide (positionAfterFilemark t.tape m ≤ t.tape.currentPosition)

/-- The payloads of the blocks a command writes. -/
def CoreCommand.payloads : CoreCommand → List Bytes
  | .writeData payload _ => [payload]
  | .writeFixedBlocks payload blockSize _ => chunks blockSize payload.length payload
  | _ => []

/-- The filemarks a command writes at the current position. -/
def CoreCommand.newMarks (s : TapeState) : CoreCommand → List Nat
  | .writeFilemarks count _ => marksFrom (logicalPositionStep s) s.currentPosition count
  | _ => []

/-- WRITE, or WRITE FILEMARKS with a positive count. -/
def CoreCommand.Writes : CoreCommand → Prop
  | .writeData payload _ => payload ≠ []
  | .writeFixedBlocks _ _ _ => True
  | .writeFilemarks count _ => 0 < count
  | _ => False

section

variable (env : TapeEnv) (t t' : TapeWorld) (bs : List Block)

/-- From the position on, the tape holds what the command wrote and nothing else; before it, what
it held. -/
structure TailReplaced (c : CoreCommand) : Prop where
  blocks : ∃ n, Tracked env t' (blocksBefore bs t.tape.currentPosition ++
    blocksFrom n t.tape.currentPosition c.payloads)
  marks : t'.tape.filemarks.Perm (marksEnded t ++ c.newMarks t.tape)

/-- The tail is replaced, also for who takes the cartridge out and puts it in again. -/
def Overwrites (c : CoreCommand) : Prop :=
  TailReplaced env t t' bs c ∧
    ∀ t'', reload env t' = (.ok (), t'') → TailReplaced env t t'' bs c

end

/-- Where the commands replace the tail: a WRITE if no filemark reaches over the position, a
WRITE FILEMARKS if nothing does or follows. -/
def CutsClean (t : TapeWorld) (bs : List Block) : CoreCommand → Prop
  | .writeFilemarks _ _ => (∀ b ∈ bs, b.stop ≤ t.tape.currentPosition) ∧
      ∀ m ∈ t.tape.filemarks, positionAfterFilemark t.tape m ≤ t.tape.currentPosition
  | _ => ∀ m ∈ t.tape.filemarks, m < t.tape.currentPosition →
      positionAfterFilemark t.tape m ≤ t.tape.currentPosition

theorem mem_marksEnded {m : Nat} : m ∈ marksEnded t ↔
    m ∈ t.tape.filemarks ∧ positionAfterFilemark t.tape m ≤ t.tape.currentPosition := by
  unfold marksEnded
  rw [mem_filter, decide_eq_true_eq]

/-- A filemark that ends before the position begins before it. -/
theorem Tracked.lt_of_ended (h : Tracked env t bs) {m : Nat} (hm : m ∈ t.tape.filemarks)
    (hend : positionAfterFilemark t.tape m ≤ t.tape.currentPosition) : m < t.tape.currentPosition :=
  (positionAfterFilemark_spec t.tape (h.marksEnd m hm)).1.trans_le hend

/-- **The tail stays replaced** after a reload. -/
theorem TailReplaced.reloaded (h : TailReplaced env t t' bs c)
    (hready : t'.tape.requiresRecovery = false) {t'' : TapeWorld}
    (hreload : reload env t' = (.ok (), t'')) : TailReplaced env t t'' bs c := by
  obtain ⟨n, htr⟩ := h.blocks
  obtain ⟨t1, -, hatt⟩ := (reload_spec htr hready).of_ok hreload
  refine ⟨⟨n, hatt.tracked⟩, ?_⟩
  rw [hatt.filemarks]
  exact (sortByKey_perm id _).trans h.marks

/-! ## §2. Writing blocks. -/

theorem Wrote.replaced_iff (hw : Wrote env t t' bs c.payloads)
    (h : Tracked env t bs) (hmarks : c.newMarks t.tape = []) :
    TailReplaced env t t' bs c ↔ ∀ m ∈ t.tape.filemarks, m < t.tape.currentPosition →
      positionAfterFilemark t.tape m ≤ t.tape.currentPosition := by
  constructor
  · intro hrep m hm hlt
    have hperm := hrep.marks
    rw [hmarks, append_nil, hw.filemarks] at hperm
    have hmem : m ∈ t.tape.filemarks.filter (· < t.tape.currentPosition) :=
      mem_filter.mpr ⟨hm, by simpa using hlt⟩
    exact (mem_marksEnded.mp (hperm.mem_iff.mp hmem)).2
  intro hclean
  refine ⟨⟨_, hw.tracked⟩, ?_⟩
  have hsame : t.tape.filemarks.filter (· < t.tape.currentPosition) = marksEnded t := by
    refine filter_congr fun m hm => ?_
    rw [decide_eq_decide]
    exact ⟨hclean m hm, fun hend => h.lt_of_ended hm hend⟩
  rw [hmarks, append_nil, hw.filemarks, hsame]

/-! ## §3. Writing filemarks. -/

/-- The blocks of a cartridge are determined. -/
theorem Tracked.mem_of_tracked {bs' : List Block} (h : Tracked env t bs) (h' : Tracked env t bs')
    {b : Block} (hb : b ∈ bs) : b ∈ bs' :=
  (h'.recorded.mem b).mp ((h.recorded.mem b).mpr hb)

theorem Marked.replaced_iff {count : Nat} {i : Option String} (hm : Marked env t t' bs count) :
    TailReplaced env t t' bs (.writeFilemarks count i) ↔
      CutsClean t bs (.writeFilemarks count i) := by
  have hnew : CoreCommand.newMarks t.tape (.writeFilemarks count i) =
      marksFrom (logicalPositionStep t.tape) t.tape.currentPosition count := rfl
  constructor
  · intro hrep
    obtain ⟨n, htr⟩ := hrep.blocks
    refine ⟨fun b hb => ?_, fun m hmem => ?_⟩
    · have hmem := hm.tracked.mem_of_tracked htr hb
      simp only [CoreCommand.payloads, blocksFrom, append_nil] at hmem
      exact (mem_blocksBefore.mp hmem).2
    · -- the new marks are the same on both sides
      have hperm := hrep.marks
      rw [hnew, hm.filemarks, perm_append_right_iff] at hperm
      exact (mem_marksEnded.mp (hperm.mem_iff.mp hmem)).2
  · intro hclean
    obtain ⟨hblocks, hmarks⟩ := hclean
    have hall : marksEnded t = t.tape.filemarks := by
      exact filter_eq_self.mpr fun m hmem => by simpa using hmarks m hmem
    refine ⟨⟨0, ?_⟩, ?_⟩
    · simp only [CoreCommand.payloads, blocksFrom, append_nil]
      rw [blocksBefore_eq_self hblocks]
      exact hm.tracked
    · rw [hall, hnew, hm.filemarks]

/-! ## §4. Sessions. -/

theorem execute_writes (hlaw : env.storage.codecs.Lawful) (hhits : env.HitsVerified)
    (h : Tracked env t bs) (hin : Within env t c) (hwrites : c.Writes)
    {out : Bytes} (hok : execute env c t = (.ok out, t')) :
    (TailReplaced env t t' bs c ↔ CutsClean t bs c) ∧
      t'.tape.requiresRecovery = t.tape.requiresRecovery := by
  cases c with
  | writeData payload i =>
    have hspec : wp (execute env (.writeData payload i)) (fun _ t' =>
        (payload = [] ∧ t' = t) ∨ payload ≠ [] ∧ Wrote env t t' bs [payload]) _ t :=
      wp_noData (writeData_spec h hlaw hhits hin.1 hin.2)
    rcases hspec.of_ok hok with ⟨hnil, -⟩ | ⟨-, hw⟩
    · exact absurd hnil hwrites
    · have hw : Wrote env t t' bs (CoreCommand.payloads (.writeData payload i)) := hw
      exact ⟨hw.replaced_iff h rfl, hw.settings.requiresRecovery⟩
  | writeFixedBlocks payload size i =>
    have hspec : wp (execute env (.writeFixedBlocks payload size i)) (fun _ t' =>
        Wrote env t t' bs (CoreCommand.payloads (.writeFixedBlocks payload size i))) _ t :=
      wp_noData (writeFixedBlocks_spec h hlaw hhits hin.1 hin.2)
    have hw := hspec.of_ok hok
    exact ⟨hw.replaced_iff h rfl, hw.settings.requiresRecovery⟩
  | writeFilemarks count i =>
    have hspec : wp (execute env (.writeFilemarks count i)) (fun _ t' =>
        (count = 0 ∧ Counted t t') ∨ 0 < count ∧ Marked env t t' bs count) _ t :=
      wp_noData (writeFilemarks_spec h)
    rcases hspec.of_ok hok with ⟨hzero, -⟩ | ⟨-, hm⟩
    · exact absurd hzero (pos_iff_ne_zero.mp hwrites)
    · exact ⟨hm.replaced_iff, hm.settings.requiresRecovery⟩
  | _ => exact absurd hwrites id

/-- **When exactly the tail is replaced.**  In every session, by every WRITE and WRITE FILEMARKS
that succeeds, wherever the tape stands. -/
theorem overwrite_iff {t₀ : TapeWorld} {actions : List Action}
    (hlaw : env.storage.codecs.Lawful) (hhits : env.HitsVerified) (hmount : FreshMount env t₀)
    (hrun : Run (WithinStep env) t₀ actions t) (h : Tracked env t bs) {c : CoreCommand}
    (hin : Within env t c) (hwrites : c.Writes) {out : Bytes}
    (hok : execute env c t = (.ok out, t')) :
    Overwrites env t t' bs c ↔ CutsClean t bs c := by
  obtain ⟨hiff, hsame⟩ := execute_writes hlaw hhits h hin hwrites hok
  have hready : t'.tape.requiresRecovery = false := by
    rw [hsame]
    exact (session_mounted hlaw hhits hmount hrun).2
  constructor
  · exact fun hover => hiff.mp hover.1
  · intro hclean
    have hrep := hiff.mpr hclean
    exact ⟨hrep, fun t'' hreload => hrep.reloaded hready hreload⟩

/-- Two blocks of three and two bytes, and the tape at the second. -/
def atSecondBlock : TapeWorld := afterCommands .standard twoBlocks [.locate 3]

/-- The second block is written over. -/
theorem overwrite_second_block : ∃ bs, Tracked .standard atSecondBlock bs ∧
    atSecondBlock.tape.currentPosition < atSecondBlock.tape.eodPosition ∧
    Overwrites .standard atSecondBlock (execute .standard (.writeData [6] none) atSecondBlock).2 bs
      (.writeData [6] none) := by
  have hlocate : WithinStep .standard twoBlocks (.command (.locate 3)) atSecondBlock :=
    .command (by decide +kernel) trivial
  have hrun := Run.snoc run_twoBlocks hlocate
  obtain ⟨⟨bs, htr⟩, -⟩ :=
    session_mounted Codecs.stored_lawful (.inl rfl) blankMounted_freshMount hrun
  have hok : execute .standard (.writeData [6] none) atSecondBlock =
      (.ok [], (execute .standard (.writeData [6] none) atSecondBlock).2) :=
    Program.run_eq_of_toOption (by decide +kernel)
  have hin : Within .standard atSecondBlock (.writeData [6] none) :=
    ⟨.inr (by decide), fun _ => .of_keys (by decide +kernel)⟩
  refine ⟨bs, htr, by decide +kernel, (overwrite_iff Codecs.stored_lawful (.inl rfl)
    blankMounted_freshMount hrun htr hin (cons_ne_nil _ _) hok).mpr ?_⟩
  show ∀ m ∈ atSecondBlock.tape.filemarks, m < atSecondBlock.tape.currentPosition →
    positionAfterFilemark atSecondBlock.tape m ≤ atSecondBlock.tape.currentPosition
  decide +kernel

/-- **A filemark written at the start of a block leaves the block.** -/
theorem filemark_keeps_tail : ∃ t' bs, FreshMount .standard blankMounted ∧
    Run (WithinStep .standard) blankMounted [.command .setBlockModeVariable,
      .command (.writeData [1, 2, 3] none), .command .rewind] oneBlockRewound ∧
    Tracked .standard oneBlockRewound bs ∧
    oneBlockRewound.tape.currentPosition < oneBlockRewound.tape.eodPosition ∧
    execute .standard (.writeFilemarks 1 none) oneBlockRewound = (.ok [], t') ∧
    t'.tape.filemarks = [0] ∧ t'.tape.blockLengths = [(0, 3)] ∧
    ¬ TailReplaced .standard oneBlockRewound t' bs (.writeFilemarks 1 none) := by
  have hrewind : WithinStep .standard oneBlock (.command .rewind) oneBlockRewound :=
    .command (by decide +kernel) ⟨[], by decide +kernel⟩
  have hrun := Run.snoc run_oneBlock hrewind
  obtain ⟨⟨bs, htr⟩, -⟩ :=
    session_mounted Codecs.stored_lawful (.inl rfl) blankMounted_freshMount hrun
  have hok : execute .standard (.writeFilemarks 1 none) oneBlockRewound =
      (.ok [], (execute .standard (.writeFilemarks 1 none) oneBlockRewound).2) :=
    Program.run_eq_of_toOption (by decide +kernel)
  refine ⟨_, bs, blankMounted_freshMount, hrun, htr, by decide +kernel, hok, by decide +kernel,
    by decide +kernel, fun hrep => ?_⟩
  -- what a replaced tail leaves of the blocks ends before the start of the tape
  obtain ⟨n, htr'⟩ := hrep.blocks
  have hlengths := htr'.lengths
  have hmem : ((0, 3) : Nat × Nat) ∈
      (execute .standard (.writeFilemarks 1 none) oneBlockRewound).2.tape.blockLengths := by
    decide +kernel
  rw [hlengths] at hmem
  obtain ⟨b, hb, hpair⟩ := mem_map.mp hmem
  have hb : b ∈ blocksBefore bs oneBlockRewound.tape.currentPosition := by
    simpa [CoreCommand.payloads, blocksFrom] using hb
  have hstop : b.stop ≤ oneBlockRewound.tape.currentPosition := (mem_blocksBefore.mp hb).2
  have hzero : oneBlockRewound.tape.currentPosition = 0 := by decide +kernel
  have hlen : b.payload.length = 3 := congrArg Prod.snd hpair
  unfold Block.stop at hstop
  omega

end Holo.Tape
