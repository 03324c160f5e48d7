/-
Holo.Tape.Moving — what the commands that read, move and set do.

None of them changes a block or a filemark.  `Moved` says that a command only changed the
position, besides counting itself.

Main results:
* `readData_spec`: READ returns the block around the position, or says why not;
* `readFixedBlocks_spec`, `space_spec`, `locate_spec`, `rewindMedia_spec`
  — where the other commands end.
-/
import Holo.Tape.Marking

namespace Holo.Tape

open Lib Program Storage List

variable {env : TapeEnv} {t t' : TapeWorld} {bs : List Block}
variable {p mark : Nat} {t1 t2 : TapeWorld} {e : TapeError}

/-! ## §1. Moving. -/

/-- The command only moved, and was counted. -/
structure Moved (env : TapeEnv) (t t' : TapeWorld) (bs : List Block) (position : Nat) : Prop where
  tracked : Tracked env t' bs
  tape : ∃ c n, t'.tape = { t.tape with
    currentPosition := position, usageCounters := c, usageCountersDirtyOps := n }
  disk : ∃ u, t'.world.disk = { t.world.disk with
    runtime := { t.world.disk.runtime with usage := u } }
  faults : t'.world.faults ⊆ t.world.faults

theorem Moved.current (h : Moved env t t' bs p) : t'.tape.currentPosition = p := by
  obtain ⟨c, n, htape⟩ := h.tape
  rw [htape]

theorem Moved.sameIndex (h : Moved env t t' bs p) : SameIndex t.tape t'.tape := by
  obtain ⟨c, n, htape⟩ := h.tape
  rw [htape]
  exact ⟨rfl, rfl, rfl, rfl, rfl, rfl⟩

theorem Moved.sameSettings (h : Moved env t t' bs p) : SameSettings t.tape t'.tape := by
  obtain ⟨c, n, htape⟩ := h.tape
  rw [htape]
  exact ⟨rfl, rfl, rfl, rfl, rfl, rfl, rfl, rfl, rfl⟩

variable {t3 : TapeWorld} {Q : Bytes → TapeWorld → Prop} {E : TapeError → TapeWorld → Prop}
  {blockSize : Nat} {move : Nat → Option Nat}

theorem Moved.trans {q : Nat} (h : Moved env t1 t2 bs p) (h' : Moved env t2 t3 bs q) :
    Moved env t1 t3 bs q := by
  obtain ⟨c, n, htape⟩ := h.tape
  obtain ⟨c', n', htape'⟩ := h'.tape
  obtain ⟨u, hdisk⟩ := h.disk
  obtain ⟨u', hdisk'⟩ := h'.disk
  exact ⟨h'.tracked, ⟨c', n', by rw [htape', htape]⟩, ⟨u', by rw [hdisk', hdisk]⟩,
    fun _ hx => h.faults (h'.faults hx)⟩

theorem Tracked.moved (h : Tracked env t bs) (hp : p ≤ u64Max) :
    Moved env t (t.setTape { t.tape with currentPosition := p }) bs p :=
  ⟨h.setTape ⟨rfl, rfl, rfl, rfl, rfl, rfl⟩ hp, ⟨_, _, rfl⟩, ⟨_, rfl⟩, Subset.refl _⟩

theorem Tracked.stayed (h : Tracked env t bs) : Moved env t t bs t.tape.currentPosition :=
  h.moved h.current

theorem Tracked.looked (h : Tracked env t bs) {w : World} (hread : CacheRead t.world w) :
    Moved env t (t.setWorld w) bs t.tape.currentPosition := by
  refine ⟨h.cacheRead hread, ⟨_, _, rfl⟩, ⟨t.world.disk.runtime.usage, hread.disk⟩, ?_⟩
  show w.faults ⊆ _
  rw [hread.faults]
  exact Subset.refl _

theorem Moved.counted (h : Moved env t t1 bs p) (hc : Counted t1 t2) : Moved env t t2 bs p := by
  obtain ⟨c, n, htape⟩ := hc.tape
  obtain ⟨u, hb⟩ := hc.world
  refine h.trans ⟨h.tracked.afterCount hc, ⟨c, n, ?_⟩, ⟨u, hb.disk⟩, hb.faults⟩
  rw [htape, ← h.current]

/-! ## §2. Behind a filemark. -/

/-- The position after a filemark is the first point behind it, if there is one. -/
theorem positionAfterFilemark_least {s : TapeState} (h : pointsAfter s mark ≠ []) :
    positionAfterFilemark s mark ∈ pointsAfter s mark ∧
      ∀ p ∈ pointsAfter s mark, positionAfterFilemark s mark ≤ p := by
  unfold positionAfterFilemark
  cases hmin : (pointsAfter s mark).min? with
  | none => exact absurd (min?_eq_none_iff.mp hmin) h
  | some p => exact min?_eq_some_iff.mp hmin

theorem eodPosition_mem_pointsAfter (s : TapeState) (hm : mark < s.eodPosition) :
    s.eodPosition ∈ pointsAfter s mark := by
  unfold pointsAfter
  rw [mem_filter]
  exact ⟨by simp, decide_eq_true hm⟩

theorem positionAfterFilemark_mem (s : TapeState) (hm : mark < s.eodPosition) :
    positionAfterFilemark s mark ∈ pointsAfter s mark :=
  (positionAfterFilemark_least (ne_nil_of_mem (eodPosition_mem_pointsAfter s hm))).1

/-- **The next point behind a filemark** lies no further than the end of data. -/
theorem positionAfterFilemark_spec (s : TapeState) (hm : mark < s.eodPosition) :
    mark < positionAfterFilemark s mark ∧ positionAfterFilemark s mark ≤ s.eodPosition ∧
      ∀ p ∈ pointsAfter s mark, positionAfterFilemark s mark ≤ p := by
  have heod := eodPosition_mem_pointsAfter s hm
  obtain ⟨hmem, hle⟩ := positionAfterFilemark_least (ne_nil_of_mem heod)
  obtain ⟨-, hlt⟩ := mem_filter.mp hmem
  exact ⟨of_decide_eq_true hlt, hle _ heod, hle⟩

/-! ## §3. Reading. -/

/-- Why a READ returned nothing. -/
inductive ReadStopped (env : TapeEnv) (t : TapeWorld) (bs : List Block) :
    TapeError → TapeWorld → Prop where
  | recovery : t.tape.requiresRecovery = true → ReadStopped env t bs .recoveryRequired t
  | mark {t' : TapeWorld} : t.tape.currentPosition ∈ t.tape.filemarks →
      Moved env t t' bs (positionAfterFilemark t.tape t.tape.currentPosition) →
      ReadStopped env t bs (.filemarkDetected 0 []) t'
  | nothing {t' : TapeWorld} : t.tape.currentPosition ∉ t.tape.filemarks →
      (∀ b ∈ bs, ¬ b.Around t.tape.currentPosition) →
      Moved env t t' bs t.tape.currentPosition →
      ReadStopped env t bs (noBlockMapped t.tape.currentPosition) t'
  | mismatch {t' : TapeWorld} {b : Block} : t.tape.currentPosition ∉ t.tape.filemarks → b ∈ bs →
      b.Around t.tape.currentPosition → t.tape.blockMode.mode = .fixed →
      t.tape.blockMode.fixedBlockSize ≠ b.payload.length →
      Moved env t t' bs t.tape.currentPosition →
      ReadStopped env t bs
        (.fixedBlockSizeMismatch t.tape.blockMode.fixedBlockSize b.payload.length) t'
  | storage {e : StorageError} {t' : TapeWorld} : ReadRefused t.world.disk →
      Moved env t t' bs t.tape.currentPosition →
      ReadStopped env t bs (.storage e) t'
  | counting {e : TapeError} {t' : TapeWorld} {b : Block} : t.world.faults ≠ [] → b ∈ bs →
      b.Around t.tape.currentPosition →
      Moved env t t' bs (wrapAdd64 t.tape.currentPosition b.payload.length) →
      ReadStopped env t bs e t'

/-- What a READ of one block returns and where it ends. -/
structure ReadBlock (env : TapeEnv) (t t' : TapeWorld) (bs : List Block) (payload : Bytes) :
    Prop where
  ready : t.tape.requiresRecovery ≠ true
  unmarked : t.tape.currentPosition ∉ t.tape.filemarks
  exists_block : ∃ b ∈ bs, b.Around t.tape.currentPosition ∧ payload = b.payload ∧
    Moved env t t' bs (wrapAdd64 t.tape.currentPosition b.payload.length)

theorem wrapAdd64_le (a b : Nat) : wrapAdd64 a b ≤ u64Max := by
  unfold wrapAdd64 u64Max
  omega

/-- **READ.** -/
theorem readData_spec (h : Tracked env t bs) :
    wp (readData env) (fun payload t' => ReadBlock env t t' bs payload)
      (fun e t' => ReadStopped env t bs e t') t := by
  unfold readData
  unfold ensureLoaded ensureRecoveryComplete ensureLayout
  simp only [wp_bind, wp_tapeState, wp_check]
  refine ⟨fun hempty => absurd hempty h.loaded, fun _ => ⟨fun hrec => .recovery hrec,
    fun hready => ⟨fun hno => absurd (h.layout.symm.trans hno) (by simp), fun _ => ?_⟩⟩⟩
  rw [wp_ite]
  constructor
  · -- a filemark stands here: step behind it
    intro hmark
    have hpos := positionAfterFilemark_spec t.tape (h.marksEnd _ hmark)
    exact .mark hmark (h.moved (hpos.2.1.trans h.eod))
  intro hmark
  simp only [wp_bind, wp_onLayout]
  refine wp_then (readLogicalBlock_spec h.inv.ok _) ?_ ?_
  · intro _ w hout
    obtain ⟨hread, hbad⟩ := hout
    exact .storage hbad (h.looked hread)
  intro res w hout
  obtain ⟨hread, hshows, hlen⟩ := hout
  have hlook := h.looked hread
  have hcases := h.recorded.shows h.diskInv hshows
  cases res with
  | none =>
    rcases hcases with ⟨-, hno⟩ | ⟨b, -, hsome, -⟩
    · exact .nothing hmark hno hlook
    · cases hsome
  | some r =>
    rcases hcases with ⟨hnone, -⟩ | ⟨b, hb, hsome, haround⟩
    · cases hnone
    have hpair := Option.some.inj hsome
    have hpay : r.payload = b.payload := congrArg Prod.snd hpair
    have hrlen : r.logicalLen = b.payload.length := by rw [hlen r rfl, hpay]
    simp only [wp_bind, wp_check]
    constructor
    · intro hout
      obtain ⟨hfixed, hsize⟩ := hout
      rw [hrlen] at hsize ⊢
      exact .mismatch hmark hb haround hfixed hsize hlook
    intro _
    simp only [wp_modifyTape]
    have hmove := hlook.trans (hlook.tracked.moved
      (wrapAdd64_le t.tape.currentPosition r.logicalLen))
    rw [hrlen] at hmove ⊢
    refine wp_mono recordUsage_spec ?_ ?_
    · intro _ t' hc
      exact ⟨hready, hmark, b, hb, haround, hpay, hmove.counted hc⟩
    intro _ t' hout
    obtain ⟨hf, hc⟩ := hout
    refine .counting ?_ hb haround (hmove.counted hc)
    have hf : w.faults ≠ [] := hf
    rwa [hread.faults] at hf

theorem ReadStopped.moved (h : ReadStopped env t bs e t')
    (htr : Tracked env t bs) : ∃ p, Moved env t t' bs p ∧ (p = t.tape.currentPosition ∨
      (t.tape.currentPosition ∈ t.tape.filemarks ∧
        p = positionAfterFilemark t.tape t.tape.currentPosition) ∨
      ∃ b ∈ bs, b.Around t.tape.currentPosition ∧
        p = wrapAdd64 t.tape.currentPosition b.payload.length) := by
  cases h with
  | recovery _ => exact ⟨_, htr.stayed, .inl rfl⟩
  | mark hm hmove => exact ⟨_, hmove, .inr (.inl ⟨hm, rfl⟩)⟩
  | nothing _ _ hmove | mismatch _ _ _ _ _ hmove | storage _ hmove => exact ⟨_, hmove, .inl rfl⟩
  | counting _ hb haround hmove => exact ⟨_, hmove, .inr (.inr ⟨_, hb, haround, rfl⟩)⟩

/-- The command moved, and not past the end of data. -/
def MovedWithin (env : TapeEnv) (t t' : TapeWorld) (bs : List Block) : Prop :=
  ∃ p, Moved env t t' bs p ∧ (t.tape.currentPosition ≤ t.tape.eodPosition →
    p ≤ t.tape.eodPosition)

theorem MovedWithin.trans (h : Moved env t1 t2 bs p) (hp : p ≤ t1.tape.eodPosition)
    (h' : MovedWithin env t2 t3 bs) : MovedWithin env t1 t3 bs := by
  obtain ⟨q, hmove, hq⟩ := h'
  rw [h.current, h.sameIndex.eodPosition] at hq
  exact ⟨q, h.trans hmove, fun _ => hq hp⟩

/-- What a command that moves or reads reports. -/
inductive Condition where
  | good | filemark | endOfData | failed
  deriving Repr, DecidableEq

/-- What an error means to the initiator. -/
def TapeError.condition : TapeError → Condition
  | .filemarkDetected _ _ => .filemark
  | .notFound _ => .endOfData
  | _ => .failed

/-- Why a READ of one fixed block returned nothing. -/
inductive FixedStopped (env : TapeEnv) (t : TapeWorld) (bs : List Block) (size : Nat) :
    TapeError → TapeWorld → Prop where
  | mark {e : TapeError} {t' : TapeWorld} : t.tape.currentPosition ∈ t.tape.filemarks →
      e.condition = .filemark →
      Moved env t t' bs (positionAfterFilemark t.tape t.tape.currentPosition) →
      FixedStopped env t bs size e t'
  | nothing {e : TapeError} {t' : TapeWorld} : t.tape.currentPosition ∉ t.tape.filemarks →
      (∀ b ∈ bs, ¬ b.Around t.tape.currentPosition) → e.condition = .endOfData →
      Moved env t t' bs t.tape.currentPosition → FixedStopped env t bs size e t'
  | unfit {e : TapeError} {t' : TapeWorld} {b : Block} :
      t.tape.currentPosition ∉ t.tape.filemarks → b ∈ bs → b.Around t.tape.currentPosition →
      (b.start = t.tape.currentPosition → b.payload.length ≠ size) →
      FixedStopped env t bs size e t'
  | storage {e : TapeError} {t' : TapeWorld} : ReadRefused t.world.disk ∨ t.world.faults ≠ [] →
      FixedStopped env t bs size e t'

/-- **One turn of the loop** of a READ of fixed blocks: it stops, or it has read the block that
starts here. -/
theorem readFixedLoop_succ {size left : Nat} {out : Bytes} (h : Tracked env t bs)
    (hQ : ∀ b ∈ bs, ∀ t', t.tape.currentPosition ∉ t.tape.filemarks →
      b.start = t.tape.currentPosition → Moved env t t' bs b.stop →
          wp (readFixedLoop env size left (out ++ b.payload)) Q E t')
    (hE : ∀ e t', FixedStopped env t bs size e t' → MovedWithin env t t' bs → E e t') :
    wp (readFixedLoop env size (left + 1) out) Q E t := by
  unfold readFixedLoop
  simp only [wp_bind, wp_tapeState]
  rw [wp_ite]
  constructor
  · intro hmark
    have hpos := positionAfterFilemark_spec t.tape (h.marksEnd _ hmark)
    have hmove := h.moved (hpos.2.1.trans h.eod)
    exact hE _ _ (.mark hmark rfl hmove) ⟨_, hmove, fun _ => hpos.2.1⟩
  intro hmark
  simp only [wp_bind, wp_onLayout]
  refine wp_then (readLogicalBlock_spec h.inv.ok _) ?_ ?_
  · intro _ w hout
    obtain ⟨hread, hbad⟩ := hout
    exact hE _ _ (.storage (.inl hbad)) ⟨_, h.looked hread, fun hle => hle⟩
  intro res w hout
  obtain ⟨hread, hshows, hlen⟩ := hout
  have hlook := h.looked hread
  have hcases := h.recorded.shows h.diskInv hshows
  have hstay : MovedWithin env t (t.setWorld w) bs := ⟨_, hlook, fun hle => hle⟩
  cases res with
  | none =>
    rcases hcases with ⟨-, hno⟩ | ⟨b, -, hsome, -⟩
    · exact hE _ _ (.nothing hmark hno rfl hlook) hstay
    · cases hsome
  | some r =>
    rcases hcases with ⟨hnone, -⟩ | ⟨b, hb, hsome, haround⟩
    · cases hnone
    have hpair := Option.some.inj hsome
    have hstart : r.logicalStart = b.start := congrArg Prod.fst hpair
    have hpay : r.payload = b.payload := congrArg Prod.snd hpair
    have hrlen : r.logicalLen = b.payload.length := by rw [hlen r rfl, hpay]
    simp only [wp_bind, wp_check]
    refine ⟨fun hplace => ?_, fun hplace => ⟨fun hsize => ?_, fun _ => ?_⟩⟩
    · exact hE _ _ (.unfit hmark hb haround fun hs => absurd (hstart.trans hs) hplace) hstay
    · exact hE _ _ (.unfit hmark hb haround fun _ => hrlen ▸ hsize) hstay
    simp only [wp_modifyTape]
    -- the block starts here, so that reading it ends where it ends
    have hcur : b.start = t.tape.currentPosition := hstart.symm.trans (not_not.mp hplace)
    have hstop : satAdd64 t.tape.currentPosition r.logicalLen = b.stop := by
      rw [← hcur, hrlen]
      exact satAdd64_eq ((h.blocksEnd b hb).trans h.eod)
    have hend := h.blocksEnd b hb
    have hmove := hlook.trans (hlook.tracked.moved (hend.trans h.eod))
    rw [← hstop] at hmove
    refine wp_mono recordUsage_spec ?_ ?_
    · intro _ t1 hc
      rw [hpay]
      exact hQ b hb t1 hmark hcur (hstop ▸ hmove.counted hc)
    intro _ t1 hout
    obtain ⟨hf, hc⟩ := hout
    have hf : w.faults ≠ [] := hf
    rw [hread.faults] at hf
    exact hE _ _ (.storage (.inr hf)) ⟨_, hmove.counted hc, fun _ => hstop ▸ hend⟩

theorem readFixedLoop_spec (blockSize : Nat) (left : Nat) :
    ∀ {t : TapeWorld} {out : Bytes}, Tracked env t bs →
      wp (readFixedLoop env blockSize left out) (fun _ t' => MovedWithin env t t' bs)
        (fun _ t' => MovedWithin env t t' bs) t := by
  induction left with
  | zero =>
    intro t out h
    exact ⟨_, h.stayed, fun hle => hle⟩
  | succ left ih =>
    intro t out h
    refine readFixedLoop_succ h ?_ (fun _ _ _ hmoved => hmoved)
    intro b hb t1 _ _ hmoved
    have hrest : ∀ t', MovedWithin env t1 t' bs → MovedWithin env t t' bs :=
      fun _ => .trans hmoved (h.blocksEnd b hb)
    exact wp_mono (ih hmoved.tracked) (fun _ => hrest) (fun _ => hrest)

section

variable (h : Tracked env t bs)
include h

/-- **READ of several fixed blocks.** -/
theorem readFixedBlocks_spec {blockSize transferBlocks : Nat} :
    wp (readFixedBlocks env blockSize transferBlocks) (fun _ t' => MovedWithin env t t' bs)
      (fun _ t' => MovedWithin env t t' bs) t := by
  have hstay : ∀ e : TapeError, MovedWithin env t t bs := fun _ => ⟨_, h.stayed, fun hle => hle⟩
  refine guard_ensureLoaded.bind hstay (fun _ => ?_)
  refine guard_ensureRecoveryComplete.bind hstay (fun _ => ?_)
  refine (guard_validatePayloadLen _).bind hstay (fun _ => ?_)
  refine (Guard.check _ _).bind hstay (fun _ => ?_)
  refine (Guard.check _ _).bind hstay (fun _ => ?_)
  refine guard_ensureLayout.bind hstay (fun _ => ?_)
  exact readFixedLoop_spec blockSize transferBlocks h

/-! ## §4. Spacing and locating. -/

omit h in
/-- Where a repeated move ends, it was there before or one of the moves led there. -/
theorem moveTimes_spec {P : Nat → Prop} (h : ∀ p q, move p = some q → P q) (count : Nat) :
    ∀ {p q : Nat}, moveTimes move count p = some q → q = p ∨ P q := by
  induction count with
  | zero =>
    intro p q hq
    exact .inl (Option.some.inj hq).symm
  | succ count ih =>
    intro p q hq
    unfold moveTimes at hq
    cases hmove : move p with
    | none =>
      rw [hmove] at hq
      cases hq
    | some r =>
      grind

omit h in
theorem wp_settle {target : Option Nat} {Q : Unit → TapeWorld → Prop}
    (hQ : ∀ p, target = some p → Q () (t.setTape { t.tape with currentPosition := p }))
    (hE : E e t) :
    wp (settle target e) Q E t := by
  cases target with
  | none => exact hE
  | some p => exact hQ p rfl

theorem settle_spec {count : Nat} (hmove : ∀ p q, move p = some q → q ≤ t.tape.eodPosition) :
    wp (settle (moveTimes move count t.tape.currentPosition) e)
      (fun _ t' => MovedWithin env t t' bs) (fun _ t' => t' = t) t := by
  refine wp_settle (fun p hp => ?_) rfl
  rcases moveTimes_spec hmove count hp with rfl | hle
  · exact ⟨_, h.moved h.current, fun hle => hle⟩
  · exact ⟨_, h.moved (hle.trans h.eod), fun _ => hle⟩

theorem Tracked.start_le_eod (hp : p ∈ t.tape.blockStarts) : p ≤ t.tape.eodPosition := by
  rw [h.starts] at hp
  obtain ⟨b, hb, rfl⟩ := mem_map.mp hp
  exact (h.start_lt hb).le.trans (h.blocksEnd b hb)

/-- **SPACE** stays within the tape, and an error leaves everything as it was. -/
theorem space_spec {branch : SpaceBranch} {count : Int} :
    wp (space branch count) (fun _ t' => MovedWithin env t t' bs) (fun _ t' => t' = t) t := by
  have hstay : MovedWithin env t t bs := ⟨_, h.stayed, fun hle => hle⟩
  have hmarks : ∀ m ∈ sortByKey id t.tape.filemarks, m < t.tape.eodPosition := fun m hm =>
    h.marksEnd m ((sortByKey_perm id t.tape.filemarks).mem_iff.mp hm)
  refine guard_ensureLoaded.bind (fun _ => rfl) (fun _ => ?_)
  -- every move leads to a start, a filemark or the end of data
  cases branch with
  | blocks =>
    unfold spaceBlocks
    simp only [wp_bind, wp_tapeState, wp_ite]
    refine ⟨fun _ => hstay, fun _ => ⟨fun _ => ⟨fun _ => rfl, fun _ => rfl⟩, fun _ =>
      ⟨fun _ => settle_spec h ?_, fun _ => settle_spec h ?_⟩⟩⟩
    · intro p q hq
      exact h.start_le_eod (mem_of_find?_eq_some hq)
    · intro p q hq
      exact h.start_le_eod (mem_reverse.mp (mem_of_find?_eq_some hq))
  | filemarks =>
    unfold spaceFilemarks
    simp only [wp_bind, wp_tapeState, wp_ite]
    refine ⟨fun _ => hstay, fun _ => ⟨fun _ => rfl, fun _ =>
      ⟨fun _ => settle_spec h ?_, fun _ => settle_spec h ?_⟩⟩⟩
    · intro p q hq
      obtain ⟨m, hm, rfl⟩ := Option.map_eq_some_iff.mp hq
      exact (positionAfterFilemark_spec t.tape (hmarks m (mem_of_find?_eq_some hm))).2.1
    · intro p q hq
      exact (hmarks q (mem_reverse.mp (mem_of_find?_eq_some hq))).le
  | endOfData =>
    unfold spaceEndOfData
    simp only [wp_ite]
    refine ⟨fun _ => ⟨_, h.moved h.eod, fun _ => le_rfl⟩, fun _ => ⟨fun _ => ?_, fun _ => rfl⟩⟩
    exact ⟨_, h.moved (Nat.zero_le _), fun _ => Nat.zero_le _⟩

/-- **LOCATE** goes where it is told if that is on the tape. -/
theorem locate_spec {target : Nat} :
    wp (locate target) (fun _ t' => target ≤ t.tape.eodPosition ∧ Moved env t t' bs target)
      (fun _ t' => t' = t) t := by
  refine guard_ensureLoaded.bind (fun _ => rfl) (fun _ => ?_)
  refine (Guard.check _ _).bind (fun _ => rfl) (fun hle => ?_)
  refine (Guard.check _ _).bind (fun _ => rfl) (fun _ => ?_)
  have hle : target ≤ t.tape.eodPosition := not_lt.mp hle
  exact ⟨hle, h.moved (hle.trans h.eod)⟩

/-! ## §5. Rewinding and setting. -/

omit h in
/-- The tape is at its beginning and everything is flushed. -/
structure Rewound (env : TapeEnv) (t t' : TapeWorld) (bs : List Block) : Prop where
  tracked : Tracked env t' bs
  tape : t'.tape = { t.tape with currentPosition := 0 }
  clean : t'.world.disk.checkpoint.flags = .clean
  runtime : t'.world.disk.runtime = t.world.disk.runtime
  faults : t'.world.faults ⊆ t.world.faults

/-- **REWIND** flushes first, and stays where it is if that fails. -/
theorem rewindMedia_spec : wp (rewindMedia env) (fun _ t' => Rewound env t t' bs)
      (fun _ t' => t'.tape = t.tape ∧ CrashInv env.storage t'.world.disk ∧
        (t.world.faults = [] → ¬ t.world.disk.segIndex.index.Loadable)) t := by
  unfold rewindMedia ensureLoaded
  simp only [wp_bind, wp_tapeState, wp_check]
  refine ⟨fun hempty => absurd hempty h.loaded, fun _ => ?_⟩
  rw [wp_ite]
  refine ⟨fun _ => ?_, fun hno => absurd h.layout hno⟩
  simp only [wp_bind, wp_onLayout, wp_modifyTape]
  refine wp_mono (flush_spec h) ?_ (fun _ _ hcut => ⟨rfl, hcut⟩)
  intro _ w hout
  obtain ⟨hw, hclean, hrt, hfaults⟩ := hout
  exact ⟨hw.setTape ⟨rfl, rfl, rfl, rfl, rfl, rfl⟩ (Nat.zero_le _), rfl, hclean, hrt, hfaults⟩

end

theorem setBlockModeFixed_spec : wp (setBlockModeFixed blockSize) (fun _ t' => 0 < blockSize ∧
        t' = t.setTape { t.tape with blockMode := ⟨.fixed, blockSize⟩ })
      (fun _ t' => t' = t) t := by
  refine guard_ensureLoaded.bind (fun _ => rfl) (fun _ => ?_)
  refine (Guard.check _ _).bind (fun _ => rfl) (fun hpos => ?_)
  exact ⟨Nat.pos_of_ne_zero hpos, rfl⟩

theorem setBlockModeVariable_spec :
    wp setBlockModeVariable (fun _ t' => t' = t.setTape { t.tape with blockMode := ⟨.variable, 0⟩ })
      (fun _ t' => t' = t) t := by
  exact guard_ensureLoaded.bind (fun _ => rfl) (fun _ => rfl)

/-- Setting the retention policy changes the policy, in the drive and maybe on disk. -/
theorem setWormPolicy_spec {isWormMedia retentionLocked : Bool} :
    wp (setWormPolicy env isWormMedia retentionLocked)
      (fun _ t' => t'.tape = { t.tape with retentionPolicy := ⟨isWormMedia, retentionLocked⟩ } ∧
        ∃ r, Beside t.world t'.world { t.world.disk.runtime with retention := r })
      (fun _ t' => t' = t ∨
        t'.tape = { t.tape with retentionPolicy := ⟨isWormMedia, retentionLocked⟩ } ∧
        ∃ r, Beside t.world t'.world { t.world.disk.runtime with retention := r }) t := by
  refine guard_ensureLoaded.bind (fun _ => .inl rfl) (fun _ => ?_)
  refine (Guard.check _ _).bind (fun _ => .inl rfl) (fun _ => ?_)
  refine (Guard.check _ _).bind (fun _ => .inl rfl) (fun _ => ?_)
  rw [wp_bind, wp_modifyTape, wp_ite]
  constructor
  · intro _
    rw [wp_onLayout]
    refine wp_atomicStep ?_ (fun _ => .inr ?_) (fun _ => .inr ?_)
    · exact ⟨rfl, _, .stepped _ _⟩
    · exact ⟨rfl, _, .stepped_same _⟩
    · exact ⟨rfl, _, .stepped _ _⟩
  · intro _
    exact ⟨rfl, _, .refl _⟩

end Holo.Tape
