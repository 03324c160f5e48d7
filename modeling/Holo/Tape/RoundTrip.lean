/-
Holo.Tape.RoundTrip — what was written is what is read.

Objects, blocks and filemarks, are written one behind the other: a block takes its length, a
filemark one block of the mode it was written in, or one byte in variable mode.  READ finds
the next object from the positions of the others.  `WrittenOut` says what writing leaves,
`Laid` what READ will meet, and `Indexed.laid_from` leads from the one to the other, whatever
the end of data a mount assumes.

Main results:
* `written_out`: what a run of commands that write leaves on the tape;
* `readAll_spec`: READs return the objects in order and then the end of data;
* `round_trip_iff`: written objects are read back, now and after a reload, iff the
  cartridge is within the limits of the loaders.
-/
import Holo.Lib.Extents
import Holo.Tape.Remount
import Holo.Tape.Spacing

namespace Holo.Tape

open Lib Program Storage List

variable {env : TapeEnv} {t t' : TapeWorld} {bs : List Block}

/-! ## §1. Objects. -/

/-- What is on a tape. -/
inductive TapeObject where
  | block (payload : Bytes)
  | mark
  deriving Repr, DecidableEq

/-- An object and the room it takes. -/
inductive Item where
  | block (payload : Bytes)
  | mark (step : Nat)
  deriving Repr, DecidableEq

/-- The room an item takes. -/
def Item.size : Item → Nat
  | .block payload => payload.length
  | .mark step => step

/-- The object of an item. -/
def Item.object : Item → TapeObject
  | .block payload => .block payload
  | .mark _ => .mark

/-- What READs from a position meet: the objects, and then nothing. -/
inductive Laid (s : TapeState) (bs : List Block) : Nat → List TapeObject → Prop where
  | done {p : Nat} : p ∉ s.filemarks → (∀ b ∈ bs, ¬ b.Around p) → Laid s bs p []
  | block {p : Nat} {b : Block} {rest : List TapeObject} : p ∉ s.filemarks → b ∈ bs →
      b.start = p → Laid s bs b.stop rest → Laid s bs p (.block b.payload :: rest)
  | mark {p : Nat} {rest : List TapeObject} : p ∈ s.filemarks →
      Laid s bs (positionAfterFilemark s p) rest → Laid s bs p (.mark :: rest)

/-! ## §2. From positions to READs. -/

/-- The drive's index is that of items laid out from the beginning of the tape. -/
structure Indexed (s : TapeState) (bs : List Block) (items : List Item) : Prop where
  starts : s.blockStarts = bs.map Block.start
  blocks : ∀ q payload, (q, .block payload) ∈ place Item.size 0 items ↔
    ∃ b ∈ bs, b.start = q ∧ b.payload = payload
  marks : ∀ q, q ∈ s.filemarks ↔ ∃ step, (q, .mark step) ∈ place Item.size 0 items
  positive : ∀ i ∈ items, 0 < i.size
  below : ∀ q i, (q, i) ∈ place Item.size 0 items → q < s.eodPosition
  stops : ∀ b ∈ bs, b.stop ≤ s.eodPosition

variable {p q : Nat}

variable {items : List Item} {s : TapeState} {os : List TapeObject} {c : CoreCommand}
  {t1 : TapeWorld} {size : Nat} {w : World} {i : Item} {b : Bool}

variable {pre post : List Item}

theorem Indexed.pos_of_mem (h : Indexed s bs items) (hi : (q, i) ∈ place Item.size 0 items) :
    0 < i.size := by
  refine h.positive i ?_
  exact mem_of_mem_place hi

theorem Indexed.at_eq (h : Indexed s bs (pre ++ i :: post)) {x : Item}
    (hx : (total Item.size pre, x) ∈ place Item.size 0 (pre ++ i :: post)) : x = i := by
  have hpos := h.pos_of_mem hx
  have hi := h.positive i (by simp)
  rcases mem_place_split.mp hx with hpre | ⟨-, heq⟩ | hpost
  · have := mem_place pre hpre
    omega
  · exact heq
  · have := mem_place post hpost
    omega

theorem Indexed.laid_end (h : Indexed s bs items) (hp : total Item.size items ≤ p) :
    Laid s bs p [] := by
  refine .done (fun hmark => ?_) (fun b hb haround => ?_)
  · obtain ⟨step, hmem⟩ := (h.marks p).mp hmark
    have hpos := h.pos_of_mem hmem
    have := mem_place items hmem
    omega
  · have hmem := (h.blocks b.start b.payload).mpr ⟨b, hb, rfl, rfl⟩
    have hle : b.start + b.payload.length ≤ 0 + total Item.size items := (mem_place items hmem).2
    have hlt : p < b.start + b.payload.length := haround.2
    omega

/-- Every point of the tape behind a filemark lies behind the room it takes. -/
theorem Indexed.point_ge {step : Nat} (h : Indexed s bs (pre ++ .mark step :: post))
    (hpost : post ≠ []) (hq : q ∈ pointsAfter s (total Item.size pre)) :
    total Item.size pre + step ≤ q := by
  obtain ⟨hmem, hlt⟩ := mem_filter.mp hq
  have hlt : total Item.size pre < q := of_decide_eq_true hlt
  -- the items that start behind the filemark's position are those that follow it
  have hitem : ∀ i, (q, i) ∈ place Item.size 0 (pre ++ .mark step :: post) →
      total Item.size pre + step ≤ q := by
    intro i hi
    rcases mem_place_split.mp hi with hpre | ⟨heq, -⟩ | hbehind
    · have := mem_place pre hpre
      omega
    · omega
    · have hge := (mem_place post hbehind).1
      have : Item.size (.mark step) = step := rfl
      omega
  rcases mem_append.mp hmem with hmem | hmem
  · rcases mem_append.mp hmem with hstart | hmark
    · rw [h.starts] at hstart
      obtain ⟨b, hb, rfl⟩ := mem_map.mp hstart
      exact hitem _ ((h.blocks b.start b.payload).mpr ⟨b, hb, rfl, rfl⟩)
    · obtain ⟨step', hm⟩ := (h.marks q).mp hmark
      exact hitem _ hm
  -- the end of data lies behind the next item
  obtain ⟨a, post', rfl⟩ := exists_cons_of_ne_nil hpost
  rw [mem_singleton.mp hmem]
  refine (h.below (total Item.size pre + step) a ?_).le
  rw [mem_place_split]
  refine .inr (.inr ?_)
  rw [Nat.zero_add]
  exact mem_cons_self

/-- **Behind a filemark** comes the next item, or the end of data. -/
theorem Indexed.positionAfterFilemark_eq {step : Nat}
    (h : Indexed s bs (pre ++ .mark step :: post)) (hpost : post ≠ []) :
    positionAfterFilemark s (total Item.size pre) = total Item.size pre + step := by
  have hstep : 0 < step := h.positive (.mark step) (by simp)
  have hmark : (total Item.size pre, .mark step) ∈
      place Item.size 0 (pre ++ .mark step :: post) := by
    rw [mem_place_split]
    exact .inr (.inl ⟨by omega, rfl⟩)
  have hlt := h.below _ _ hmark
  have hge := h.point_ge hpost (positionAfterFilemark_mem s hlt)
  refine le_antisymm ((positionAfterFilemark_spec s hlt).2.2 _ ?_) hge
  -- the item behind the filemark is the next point
  obtain ⟨a, post', rfl⟩ := exists_cons_of_ne_nil hpost
  have hnext : (total Item.size pre + step, a) ∈
      place Item.size 0 (pre ++ .mark step :: a :: post') := by
    rw [mem_place_split]
    refine .inr (.inr ?_)
    rw [Nat.zero_add]
    exact mem_cons_self
  unfold pointsAfter
  rw [mem_filter]
  refine ⟨?_, by simpa using hstep⟩
  cases a with
  | block payload =>
    obtain ⟨b, hb, hs, -⟩ := (h.blocks _ payload).mp hnext
    rw [h.starts]
    exact mem_append_left _ (mem_append_left _ (mem_map.mpr ⟨b, hb, hs⟩))
  | mark step' =>
    exact mem_append_left _ (mem_append_right _ ((h.marks _).mpr ⟨step', hnext⟩))

/-- Behind the last filemark, if nothing follows, is the end of data. -/
theorem Indexed.positionAfterFilemark_last {step : Nat} (h : Indexed s bs (pre ++ [.mark step])) :
    positionAfterFilemark s (total Item.size pre) = s.eodPosition := by
  have hmark : (total Item.size pre, .mark step) ∈ place Item.size 0 (pre ++ [.mark step]) := by
    rw [mem_place_split]
    exact .inr (.inl ⟨by omega, rfl⟩)
  obtain ⟨hmem, hlt⟩ := mem_filter.mp (positionAfterFilemark_mem s (h.below _ _ hmark))
  have hlt := of_decide_eq_true hlt
  -- no item starts further behind
  have hitem : ∀ {q : Nat} {i : Item}, (q, i) ∈ place Item.size 0 (pre ++ [.mark step]) →
      q ≤ total Item.size pre := by
    intro q i hi
    rcases mem_place_split.mp hi with hpre | ⟨heq, -⟩ | hbehind
    · have := mem_place pre hpre
      omega
    · omega
    · exact absurd hbehind (by simp [place])
  rcases mem_append.mp hmem with hmem | hmem
  swap
  · exact mem_singleton.mp hmem
  exfalso
  rcases mem_append.mp hmem with hstart | hm
  · rw [h.starts] at hstart
    obtain ⟨b, hb, hs⟩ := mem_map.mp hstart
    have := hitem ((h.blocks b.start b.payload).mpr ⟨b, hb, rfl, rfl⟩)
    omega
  · obtain ⟨step', hm⟩ := (h.marks _).mp hm
    have := hitem hm
    omega

theorem Indexed.laid_eod (h : Indexed s bs items) : Laid s bs s.eodPosition [] := by
  refine .done (fun hmark => ?_) (fun b hb haround => ?_)
  · obtain ⟨step, hmem⟩ := (h.marks _).mp hmark
    exact absurd (h.below _ _ hmem) (lt_irrefl _)
  · exact absurd haround.2 (not_lt.mpr (h.stops b hb))

/-- **READs from the beginning meet the items in order.** -/
theorem Indexed.laid_from (post : List Item) : ∀ pre : List Item, Indexed s bs (pre ++ post) →
      Laid s bs (total Item.size pre) (post.map Item.object) := by
  induction post with
  | nil =>
    intro pre h
    rw [append_nil] at h
    exact h.laid_end le_rfl
  | cons i post ih =>
    intro pre h
    have hat : (total Item.size pre, i) ∈ place Item.size 0 (pre ++ i :: post) := by
      rw [mem_place_split]
      exact .inr (.inl ⟨by omega, rfl⟩)
    have hsplit : pre ++ i :: post = (pre ++ [i]) ++ post := by simp
    have hrest := ih (pre ++ [i]) (hsplit ▸ h)
    have hnext : total Item.size (pre ++ [i]) = total Item.size pre + i.size := by simp
    rw [hnext] at hrest
    cases i with
    | block payload =>
      obtain ⟨b, hb, hs, rfl⟩ := (h.blocks _ payload).mp hat
      refine .block (fun hmark => ?_) hb hs ?_
      · obtain ⟨step, hm⟩ := (h.marks _).mp hmark
        exact absurd (h.at_eq hm) (by simp)
      have hstop : b.stop = total Item.size pre + Item.size (.block b.payload) := by
        unfold Block.stop
        rw [hs]
        rfl
      rw [hstop]
      exact hrest
    | mark step =>
      refine .mark ((h.marks _).mpr ⟨step, hat⟩) ?_
      by_cases hpost : post = []
      · -- nothing follows: the filemark is left at the end of data
        subst hpost
        rw [h.positionAfterFilemark_last]
        exact h.laid_eod
      · rw [h.positionAfterFilemark_eq hpost]
        exact hrest

/-! ## §3. Writing. -/

/-- The objects a command writes. -/
def CoreCommand.objects : CoreCommand → List TapeObject
  | .writeData payload _ => if payload = [] then [] else [.block payload]
  | .writeFixedBlocks payload size _ => (chunks size payload.length payload).map .block
  | .writeFilemarks count _ => replicate count .mark
  | _ => []

section

variable (env : TapeEnv) (t : TapeWorld)

/-- The commands that write objects or set the block mode, with blocks of a length that can be
read back. -/
def Admissible : CoreCommand → Prop
  | .writeData payload _ => Storable t.tape payload
  | .writeFixedBlocks payload size _ =>
      ∀ p ∈ chunks size payload.length payload, Storable t.tape p
  | .writeFilemarks _ _ => True
  | .setBlockModeFixed _ => True
  | .setBlockModeVariable => True
  | _ => False

/-- A command that writes or sets the block mode succeeds. -/
def WriteStep (c : CoreCommand) (t' : TapeWorld) : Prop :=
  Admissible t c ∧ ∃ data, execute env c t = (.ok data, t')

/-- The items were written one behind the other, and the drive is behind the last. -/
structure WrittenOut (bs : List Block) (items : List Item) : Prop where
  tracked : Tracked env t bs
  ready : t.tape.requiresRecovery = false
  indexed : Indexed t.tape bs items
  current : t.tape.currentPosition = total Item.size items
  eod : t.tape.eodPosition = total Item.size items
  small : items = [] → SmallSegs t.world.disk

end

/-- **The index of a longer tape.** -/
theorem WrittenOut.indexed_append {bs' : List Block} {items new : List Item}
    (h : WrittenOut env t bs items) (htr : Tracked env t' bs')
    (heod : t'.tape.eodPosition = total Item.size (items ++ new)) (hpos : ∀ i ∈ new, 0 < i.size)
    (hblocks : ∀ q payload, (∃ b ∈ bs', b.start = q ∧ b.payload = payload) ↔
      (∃ b ∈ bs, b.start = q ∧ b.payload = payload) ∨
        (q, .block payload) ∈ place Item.size (total Item.size items) new)
    (hmarks : ∀ q, q ∈ t'.tape.filemarks ↔ q ∈ t.tape.filemarks ∨
      ∃ step, (q, .mark step) ∈ place Item.size (total Item.size items) new) :
    Indexed t'.tape bs' (items ++ new) := by
  -- an item is old and where it was, or new and behind the old ones
  have hmem : ∀ q i, (q, i) ∈ place Item.size 0 (items ++ new) ↔ (q, i) ∈ place Item.size 0 items ∨
        (q, i) ∈ place Item.size (total Item.size items) new := by
    intro q i
    rw [place_append, mem_append, Nat.zero_add]
  have hall : ∀ i ∈ items ++ new, 0 < i.size := by
    intro i hi
    rcases mem_append.mp hi with hi | hi
    · exact h.indexed.positive i hi
    · exact hpos i hi
  constructor
  case starts => exact htr.starts
  case blocks =>
    intro q payload
    rw [hmem, h.indexed.blocks]
    exact (hblocks q payload).symm
  case marks =>
    intro q
    rw [hmarks, h.indexed.marks]
    simp only [hmem, exists_or]
  case positive => exact hall
  case below =>
    intro q i hi
    have hle := (mem_place _ hi).2
    have hi0 := hall i (mem_of_mem_place hi)
    omega
  case stops => exact htr.blocksEnd

theorem mem_place_blocks (marks : Nat) (payloads : List Bytes) :
    ∀ {start q : Nat} {i : Item}, (q, i) ∈ place Item.size start (payloads.map .block) ↔
      ∃ b ∈ blocksFrom marks start payloads, b.start = q ∧ i = .block b.payload := by
  induction payloads with
  | nil =>
    intro start q i
    simp [place, blocksFrom]
  | cons p ps ih =>
    intro start q i
    rw [map_cons, place, mem_cons, ih, blocksFrom, exists_mem_cons_iff, Prod.mk.injEq, eq_comm]
    rfl

theorem mem_place_marks {step : Nat} (count : Nat) : ∀ {start q : Nat} {i : Item},
      (q, i) ∈ place Item.size start (replicate count (.mark step)) ↔
        q ∈ marksFrom step start count ∧ i = .mark step := by
  induction count with
  | zero =>
    intro start q i
    simp [place, marksFrom]
  | succ count ih =>
    intro start q i
    rw [replicate_succ, place, mem_cons, ih, marksFrom, mem_cons, Prod.mk.injEq, or_and_right]
    rfl

theorem total_blocks (payloads : List Bytes) :
    total Item.size (payloads.map .block) = payloads.flatten.length := by
  induction payloads with
  | nil => rfl
  | cons p ps ih =>
    rw [map_cons, total_cons, ih, flatten_cons, length_append]
    rfl

theorem total_marks (step count : Nat) :
    total Item.size (replicate count (.mark step)) = step * count := by
  induction count with
  | zero => rfl
  | succ count ih =>
    rw [replicate_succ, total_cons, ih, Nat.mul_succ, add_comm]
    rfl

/-- **After a write.** -/
theorem WrittenOut.wrote {payloads : List Bytes} (h : WrittenOut env t bs items)
    (hw : Wrote env t t' bs payloads) :
    ∃ bs', WrittenOut env t' bs' (items ++ payloads.map .block) := by
  have hend : t.tape.eodPosition = t.tape.currentPosition := h.eod.trans h.current.symm
  -- written at the end of data: nothing is cut off
  have hbefore : blocksBefore bs t.tape.currentPosition = bs :=
    blocksBefore_eq_self (fun b hb => hend ▸ h.tracked.blocksEnd b hb)
  have htr := hw.tracked
  rw [hbefore] at htr
  have hcur : t'.tape.currentPosition = total Item.size (items ++ payloads.map .block) := by
    rw [hw.current, h.current, total_append, total_blocks]
  have heod := hw.eod.trans hcur
  refine ⟨_, htr, hw.settings.requiresRecovery.trans h.ready,
    h.indexed_append htr heod ?_ ?_ ?_, hcur, heod, ?_⟩
  · intro i hi
    obtain ⟨p, hp, rfl⟩ := mem_map.mp hi
    exact length_pos_iff.mpr (hw.nonempty.2 p hp)
  · intro q payload
    rw [mem_place_blocks t'.tape.filemarks.length payloads, ← h.current]
    constructor
    · grind
    grind
  · intro q
    rw [hw.filemarks, mem_filter]
    constructor
    · grind
    intro hor
    rcases hor with hq | ⟨step, hm⟩
    · exact ⟨hq, decide_eq_true (hend ▸ h.tracked.marksEnd q hq)⟩
    · obtain ⟨b, -, -, hi⟩ := (mem_place_blocks 0 payloads).mp hm
      cases hi
  simp [hw.nonempty]

/-- **After filemarks.** -/
theorem WrittenOut.marked {count : Nat} (h : WrittenOut env t bs items) (hpos : 0 < count)
    (hm : Marked env t t' bs count) :
    ∃ step, WrittenOut env t' bs (items ++ replicate count (.mark step)) := by
  have hstep := logicalPositionStep_pos t.tape
  have hcur : t'.tape.currentPosition = total Item.size
      (items ++ replicate count (.mark (logicalPositionStep t.tape))) := by
    rw [hm.current, h.current, total_append, total_marks]
  have heod : t'.tape.eodPosition = total Item.size
      (items ++ replicate count (.mark (logicalPositionStep t.tape))) := by
    rw [hm.eod, hcur, h.eod, total_append]
    omega
  refine ⟨_, hm.tracked, hm.settings.requiresRecovery.trans h.ready,
    h.indexed_append hm.tracked heod ?_ ?_ ?_, hcur, heod, ?_⟩
  · intro i hi
    rw [eq_of_mem_replicate hi]
    exact hstep
  · intro q payload
    rw [mem_place_marks]
    constructor
    · exact fun hb => .inl hb
    · intro hor
      rcases hor with hb | ⟨-, hi⟩
      · exact hb
      · cases hi
  · intro q
    rw [hm.filemarks, mem_append, h.current]
    grind [mem_place_marks]
  · intro hnil
    rw [append_eq_nil_iff, replicate_eq_nil_iff] at hnil
    omega

theorem WrittenOut.frame (h : WrittenOut env t bs items) (htr : Tracked env t' bs)
    (hsame : SameIndex t.tape t'.tape) (hcur : t'.tape.currentPosition = t.tape.currentPosition)
    (hready : t'.tape.requiresRecovery = t.tape.requiresRecovery)
    (hsegs : t'.world.disk.segs = t.world.disk.segs) : WrittenOut env t' bs items where
  tracked := htr
  ready := hready.trans h.ready
  indexed :=
    { starts := htr.starts
      blocks := h.indexed.blocks
      marks := hsame.filemarks ▸ h.indexed.marks
      positive := h.indexed.positive
      below := hsame.eodPosition ▸ h.indexed.below
      stops := htr.blocksEnd }
  current := hcur.trans h.current
  eod := hsame.eodPosition.trans h.eod
  small := by
    intro hnil s f hf
    rw [hsegs] at hf
    exact h.small hnil s f hf

theorem WrittenOut.counted (h : WrittenOut env t bs items) (hc : Counted t t') :
    WrittenOut env t' bs items := by
  obtain ⟨u, hb⟩ := hc.world
  refine h.frame (h.tracked.afterCount hc) hc.sameIndex hc.current
    hc.sameSettings.requiresRecovery ?_
  rw [hb.disk]

theorem map_object_blocks (payloads : List Bytes) :
    (payloads.map Item.block).map Item.object = payloads.map .block := by
  rw [map_map]
  rfl

/-- **One command that writes** adds its objects. -/
theorem WrittenOut.step (hlaw : env.storage.codecs.Lawful) (hhits : env.HitsVerified)
    (h : WrittenOut env t bs items) (hstep : WriteStep env t c t') :
    ∃ bs' new, WrittenOut env t' bs' (items ++ new) ∧ new.map Item.object = c.objects := by
  obtain ⟨hadm, data, hrun⟩ := hstep
  have hnone : WrittenOut env t' bs items → c.objects = [] → ∃ bs' new,
      WrittenOut env t' bs' (items ++ new) ∧ new.map Item.object = c.objects := by
    intro hw hobj
    refine ⟨bs, [], ?_, hobj.symm⟩
    rw [append_nil]
    exact hw
  have hsmall : SmallAtStart t := by
    intro hzero
    refine h.small ?_
    -- items take room, so that at the beginning of the tape there are none
    cases items with
    | nil => rfl
    | cons i rest =>
      have hpos := h.indexed.positive i mem_cons_self
      have hcur := h.current
      rw [total_cons] at hcur
      omega
  have hmode : ∀ mode, t' = t.setTape { t.tape with blockMode := mode } →
      WrittenOut env t' bs items := by
    rintro mode rfl
    have hsame : SameIndex t.tape { t.tape with blockMode := mode } :=
      ⟨rfl, rfl, rfl, rfl, rfl, rfl⟩
    exact h.frame (h.tracked.setTape hsame h.tracked.current) hsame rfl rfl rfl
  cases c with
  | writeData payload initiator =>
    have hspec : wp (execute env (.writeData payload initiator)) (fun _ t' =>
        (payload = [] ∧ t' = t) ∨ payload ≠ [] ∧ Wrote env t t' bs [payload]) _ t :=
      wp_noData (writeData_spec h.tracked hlaw hhits hadm hsmall)
    rcases hspec.of_ok hrun with ⟨hnil, rfl⟩ | ⟨hne, hw⟩
    · exact hnone h (if_pos hnil)
    · obtain ⟨bs', hw'⟩ := h.wrote hw
      exact ⟨bs', _, hw', (map_object_blocks _).trans (if_neg hne).symm⟩
  | writeFixedBlocks payload size initiator =>
    have hspec : wp (execute env (.writeFixedBlocks payload size initiator)) (fun _ t' =>
        Wrote env t t' bs (chunks size payload.length payload)) _ t :=
      wp_noData (writeFixedBlocks_spec h.tracked hlaw hhits hadm hsmall)
    obtain ⟨bs', hw'⟩ := h.wrote (hspec.of_ok hrun)
    exact ⟨bs', _, hw', map_object_blocks _⟩
  | writeFilemarks count initiator =>
    have hspec : wp (execute env (.writeFilemarks count initiator)) (fun _ t' =>
        (count = 0 ∧ Counted t t') ∨ 0 < count ∧ Marked env t t' bs count) _ t :=
      wp_noData (writeFilemarks_spec h.tracked)
    rcases hspec.of_ok hrun with ⟨hzero, hc⟩ | ⟨hpos, hm⟩
    · exact hnone (h.counted hc) (by rw [hzero]; rfl)
    · obtain ⟨step, hm'⟩ := h.marked hpos hm
      exact ⟨bs, _, hm', map_replicate⟩
  | setBlockModeFixed size =>
    have hspec : wp (execute env (.setBlockModeFixed size)) (fun _ t' => 0 < size ∧
        t' = t.setTape { t.tape with blockMode := ⟨.fixed, size⟩ }) _ t :=
      wp_noData setBlockModeFixed_spec
    exact hnone (hmode _ (hspec.of_ok hrun).2) rfl
  | setBlockModeVariable =>
    have hspec : wp (execute env .setBlockModeVariable) (fun _ t' =>
        t' = t.setTape { t.tape with blockMode := ⟨.variable, 0⟩ }) _ t :=
      wp_noData setBlockModeVariable_spec
    exact hnone (hmode _ (hspec.of_ok hrun)) rfl
  | _ => exact absurd hadm (by simp [Admissible])

theorem FreshMount.writtenOut (h : FreshMount env t) : WrittenOut env t [] [] := by
  obtain ⟨compression, faults, requests, hrun⟩ := h
  have hatt := (attachCartridge_spec (shelved_fresh env compression faults requests)).of_ok hrun
  have hmarks : t.tape.filemarks = [] := hatt.filemarks
  have heod : t.tape.eodPosition = 0 := hatt.eod
  refine ⟨hatt.tracked, hatt.recovery, ⟨hatt.tracked.starts, ?_, ?_, ?_, ?_, ?_⟩, hatt.current,
    heod, fun _ => ?_⟩
  · intro q payload
    simp [place]
  · intro q
    rw [hmarks]
    simp [place]
  · intro i hi
    cases hi
  · intro q i hi
    exact absurd hi (by simp [place])
  · intro b hb
    cases hb
  · obtain ⟨rt, hdisk⟩ := hatt.disk
    rw [hdisk]
    exact (Disk.fresh_blank env.storage (env.storage.clock 0)).smallSegs

/-- **What a run of commands that write leaves** on a blank tape. -/
theorem written_out {t0 : TapeWorld} {cs : List CoreCommand} (hlaw : env.storage.codecs.Lawful)
    (hhits : env.HitsVerified) (hmount : FreshMount env t0) (hrun : Run (WriteStep env) t0 cs t) :
    ∃ bs items, WrittenOut env t bs items ∧ items.map Item.object = cs.flatMap (·.objects) := by
  induction hrun with
  | nil => exact ⟨[], [], hmount.writtenOut, rfl⟩
  | snoc _ hlast ih =>
    obtain ⟨bs, items, hw, hobj⟩ := ih
    obtain ⟨bs', new, hw', hnew⟩ := hw.step hlaw hhits hlast
    grind

/-! ## §4. Reading. -/

/-- How one object is read. -/
inductive ReadMode where
  | anySize
  | fixed (size : Nat)
  deriving Repr, DecidableEq

/-- One READ of one object. -/
def readOne (env : TapeEnv) : ReadMode → TapeM Bytes
  | .anySize => do
    setBlockModeVariable
    readData env
  | .fixed size => do
    setBlockModeFixed size
    readFixedBlocks env size 1

/-- What a READ shows the initiator. -/
inductive Seen where
  | block (payload : Bytes)
  | filemark | endOfData | failed
  deriving Repr, DecidableEq

/-- What the result of a READ shows. -/
def seen : Except TapeError Bytes → Seen
  | .ok payload => .block payload
  | .error e =>
    match e.condition with
    | .filemark => .filemark
    | .endOfData => .endOfData
    | _ => .failed

/-- One READ after the other, whatever they report. -/
def readAll (env : TapeEnv) : List ReadMode → TapeM (List Seen)
  | [] => return []
  | m :: ms => do
    let r ← attempt (readOne env m)
    let rest ← readAll env ms
    return seen r :: rest

/-- What a READ of the object should show. -/
def TapeObject.shown : TapeObject → Seen
  | .block payload => .block payload
  | .mark => .filemark

/-- A block size that can be set. -/
def ReadMode.Usable : ReadMode → Prop
  | .anySize => True
  | .fixed size => 0 < size ∧ size ≤ u32Max

/-- The mode reads the object: variable, or the fixed size of the block. -/
def ReadMode.Suits (m : ReadMode) : TapeObject → Prop
  | .block payload => m.Usable ∧ ∀ size, m = .fixed size → size = payload.length
  | .mark => m.Usable

/-- A mode for every object, and one for the READ that finds no more. -/
inductive SuitAll : List ReadMode → List TapeObject → Prop where
  | done {m : ReadMode} : m.Usable → SuitAll [m] []
  | next {m : ReadMode} {ms : List ReadMode} {o : TapeObject} {os : List TapeObject} :
      m.Suits o → SuitAll ms os → SuitAll (m :: ms) (o :: os)

/-- The drive stands at a position with the index it had. -/
structure StandsAt (env : TapeEnv) (s : TapeState) (bs : List Block) (p : Nat)
    (t : TapeWorld) : Prop where
  tracked : Tracked env t bs
  same : SameIndex s t.tape
  current : t.tape.currentPosition = p
  ready : t.tape.requiresRecovery = false
  calm : t.world.faults = []
  files : ¬ ReadRefused t.world.disk

theorem StandsAt.moved (h : StandsAt env s bs p t) (hm : Moved env t t' bs q) :
    StandsAt env s bs q t' := by
  have hsame := hm.sameIndex
  obtain ⟨u, hdisk⟩ := hm.disk
  refine ⟨hm.tracked, h.same.trans hsame, hm.current,
      hm.sameSettings.requiresRecovery.trans h.ready,
    subset_nil.mp (h.calm ▸ hm.faults), ?_⟩
  rw [hdisk]
  exact h.files

theorem StandsAt.setMode (h : StandsAt env s bs p t) (profile : BlockModeProfile) :
    StandsAt env s bs p (t.setTape { t.tape with blockMode := profile }) := by
  have hsame : SameIndex t.tape { t.tape with blockMode := profile } :=
    ⟨rfl, rfl, rfl, rfl, rfl, rfl⟩
  exact ⟨h.tracked.setTape hsame h.tracked.current, h.same.trans hsame, h.current, h.ready, h.calm,
    h.files⟩

/-- What a READ at a position returns: the block there, a filemark, or nothing; in fixed mode a
block may not fit. -/
inductive ReadAt (env : TapeEnv) (s : TapeState) (bs : List Block) (p : Nat) (m : ReadMode) :
    Except TapeError Bytes → TapeWorld → Prop where
  | block {b : Block} {t' : TapeWorld} : p ∉ s.filemarks → b ∈ bs → b.Around p →
      (b.start = p → StandsAt env s bs b.stop t') → ReadAt env s bs p m (.ok b.payload) t'
  | mark {e : TapeError} {t' : TapeWorld} : p ∈ s.filemarks → e.condition = .filemark →
      StandsAt env s bs (positionAfterFilemark s p) t' → ReadAt env s bs p m (.error e) t'
  | nothing {e : TapeError} {t' : TapeWorld} : p ∉ s.filemarks → (∀ b ∈ bs, ¬ b.Around p) →
      e.condition = .endOfData → StandsAt env s bs p t' → ReadAt env s bs p m (.error e) t'
  | unfit {e : TapeError} {b : Block} {t' : TapeWorld} {size : Nat} : m = .fixed size →
      p ∉ s.filemarks → b ∈ bs → b.Around p → (b.start = p → b.payload.length ≠ size) →
      ReadAt env s bs p m (.error e) t'

/-- **A READ in variable mode.** -/
theorem readOne_anySize (h : StandsAt env s bs p t) :
    wp (readOne env .anySize) (fun out t' => ReadAt env s bs p .anySize (.ok out) t')
      (fun e t' => ReadAt env s bs p .anySize (.error e) t') t := by
  unfold readOne setBlockModeVariable
  rw [wp_bind]
  refine guard_ensureLoaded.bind_of_pass h.tracked.loaded ?_
  rw [wp_modifyTape]
  have h1 := h.setMode ⟨.variable, 0⟩
  have hp := h1.current
  have hmarks := h1.same.filemarks
  refine wp_mono (readData_spec h1.tracked) ?_ ?_
  · intro out t' hread
    obtain ⟨b, hb, haround, rfl, hmove⟩ := hread.exists_block
    have hun := hread.unmarked
    rw [hmarks, hp] at hun
    rw [hp] at haround
    refine .block hun hb haround (fun hs => ?_)
    rw [h1.tracked.wrapAdd_start hb (hs.trans hp.symm)] at hmove
    exact h1.moved hmove
  intro e t' hstop
  -- variable mode has no mismatch, and the files of the cartridge read
  cases hstop with
  | recovery hrec =>
    rw [h1.ready] at hrec
    cases hrec
  | mark hmark hmove =>
    rw [hmarks, hp] at hmark
    rw [hp, positionAfterFilemark_congr h1.same] at hmove
    exact .mark hmark rfl (h1.moved hmove)
  | nothing hmark hno hmove =>
    rw [hmarks, hp] at hmark
    rw [hp] at hno hmove
    exact .nothing hmark hno rfl (h1.moved hmove)
  | mismatch _ _ _ hfixed _ _ => cases hfixed
  | storage hbad _ => exact absurd hbad h1.files
  | counting hf _ _ _ => exact absurd h1.calm hf

/-- **One block in fixed mode.** -/
theorem readFixedLoop_one (h : Tracked env t bs) : wp (readFixedLoop env size 1 [])
      (fun out t' => ∃ b ∈ bs, t.tape.currentPosition ∉ t.tape.filemarks ∧
        b.start = t.tape.currentPosition ∧ out = b.payload ∧ Moved env t t' bs b.stop)
      (fun e t' => FixedStopped env t bs size e t') t := by
  refine readFixedLoop_succ h ?_ (fun _ _ hstop _ => hstop)
  intro b hb t' hmark hcur hmoved
  exact ⟨b, hb, hmark, hcur, rfl, hmoved⟩

/-- **A READ of one block in fixed mode.** -/
theorem readOne_fixed (h : StandsAt env s bs p t) (hsize : 0 < size ∧ size ≤ u32Max) :
    wp (readOne env (.fixed size)) (fun out t' => ReadAt env s bs p (.fixed size) (.ok out) t')
      (fun e t' => ReadAt env s bs p (.fixed size) (.error e) t') t := by
  unfold readOne setBlockModeFixed
  rw [wp_bind]
  refine guard_ensureLoaded.bind_of_pass h.tracked.loaded ?_
  refine (Guard.check _ _).bind_of_pass (by omega) ?_
  have h1 := h.setMode ⟨.fixed, size⟩
  have hp := h1.current
  have hmarks := h1.same.filemarks
  -- a READ of one block of this size passes every check
  refine guard_ensureLoaded.bind_of_pass h1.tracked.loaded ?_
  refine guard_ensureRecoveryComplete.bind_of_pass (by rw [h1.ready]; simp) ?_
  refine (guard_validatePayloadLen _).bind_of_pass (by omega) ?_
  refine (Guard.check _ _).bind_of_pass (by omega) ?_
  refine (Guard.check _ _).bind_of_pass (by simp) ?_
  refine guard_ensureLayout.bind_of_refuse
    (fun hno _ => absurd h1.tracked.layout (by simpa using hno)) (fun _ => ?_)
  refine wp_mono (readFixedLoop_one h1.tracked) ?_ ?_
  · intro out t' hout
    obtain ⟨b, hb, hun, hs, hout, hmove⟩ := hout
    rw [hmarks, hp] at hun
    subst hout
    rw [hp] at hs
    have hlt := h1.tracked.start_lt hb
    exact .block hun hb ⟨hs.le, hs ▸ hlt⟩ (fun _ => h1.moved hmove)
  intro e t' hstop
  cases hstop with
  | mark hmark hcond hmove =>
    rw [hmarks, hp] at hmark
    rw [hp, positionAfterFilemark_congr h1.same] at hmove
    exact .mark hmark hcond (h1.moved hmove)
  | nothing hmark hno hcond hmove =>
    rw [hmarks, hp] at hmark
    rw [hp] at hno hmove
    exact .nothing hmark hno hcond (h1.moved hmove)
  | unfit hmark hb haround hno =>
    rw [hmarks, hp] at hmark
    rw [hp] at haround hno
    exact .unfit rfl hmark hb haround hno
  | storage hbad =>
    rcases hbad with hbad | hbad
    · exact absurd hbad h1.files
    · exact absurd h1.calm hbad

/-- **A READ in a mode that can be set.** -/
theorem readOne_spec {m : ReadMode} (h : StandsAt env s bs p t) (hm : m.Usable) :
    wp (attempt (readOne env m)) (fun r t' => ReadAt env s bs p m r t') (fun _ _ => False) t := by
  rw [wp_attempt]
  cases m with
  | anySize => exact readOne_anySize h
  | fixed size => exact readOne_fixed h hm

/-- **READs return the objects in order, and then the end of data.** -/
theorem readAll_spec {ms : List ReadMode} (hsuit : SuitAll ms os) :
    ∀ {p : Nat} {t : TapeWorld}, Laid s bs p os → StandsAt env s bs p t →
      wp (readAll env ms) (fun out _ => out = os.map TapeObject.shown ++ [.endOfData])
        (fun _ _ => False) t := by
  -- along the modes of the READs; `Laid` says what is ahead of the position
  induction hsuit with
  | @done m hm =>
    intro p t hlaid h
    unfold readAll
    rw [wp_bind]
    refine wp_mono (readOne_spec h hm) ?_ (fun _ _ hf => hf)
    intro r t' hread
    show [seen r] = _
    cases hlaid with
    | done hmark hno =>
      cases hread with
      | block _ hb haround _ | unfit _ _ hb haround _ => exact absurd haround (hno _ hb)
      | mark hmark' _ _ => exact absurd hmark' hmark
      | nothing _ _ hcond _ => simp [seen, hcond]
  | @next m ms o os hm _ ih =>
    intro p t hlaid h
    unfold readAll
    rw [wp_bind]
    cases hlaid with
    | @block _ b _ hmark hb hs hrest =>
      obtain ⟨hus, hlen⟩ := hm
      have haround : b.Around p := ⟨hs.le, hs ▸ h.tracked.start_lt hb⟩
      refine wp_mono (readOne_spec h hus) ?_ (fun _ _ hf => hf)
      intro r t' hread
      rw [wp_bind]
      cases hread with
      | block _ hb' haround' hstands =>
        obtain rfl := h.tracked.recorded.eq_of_around hb' hb haround' haround
        refine wp_mono (ih hrest (hstands hs)) ?_ (fun _ _ hf => hf)
        intro out t'' hout
        show _ :: out = _
        rw [hout]
        rfl
      | mark hmark' _ _ => exact absurd hmark' hmark
      | nothing _ hno _ _ => exact absurd haround (hno b hb)
      | unfit hfixed _ hb' haround' hno =>
        -- a fixed size that is not the length of the block does not suit it
        obtain rfl := h.tracked.recorded.eq_of_around hb' hb haround' haround
        exact absurd (hlen _ hfixed).symm (hno hs)
    | mark hmark hrest =>
      refine wp_mono (readOne_spec h hm) ?_ (fun _ _ hf => hf)
      intro r t' hread
      rw [wp_bind]
      cases hread with
      | block hmark' _ _ _ | nothing hmark' _ _ _ | unfit _ hmark' _ _ _ =>
          exact absurd hmark hmark'
      | mark _ hcond hstands =>
        refine wp_mono (ih hrest hstands) ?_ (fun _ _ hf => hf)
        simp [seen, TapeObject.shown, hcond]

/-! ## §5. There and back. -/

section

variable (env : TapeEnv) (t : TapeWorld) (os : List TapeObject)

/-- REWIND, and one READ after the other. -/
def readBack (ms : List ReadMode) : TapeM (List Seen) := do
  rewindMedia env
  readAll env ms

/-- The tape is read back: whatever modes suit its objects, READs from the beginning show them in
order and then the end of data. -/
def ReadsBack : Prop :=
  ∀ ms, SuitAll ms os →
    ∃ t', readBack env ms t = (.ok (os.map TapeObject.shown ++ [.endOfData]), t')

/-- The tape is read back, now and after it was taken out and put in again. -/
def RoundTrip : Prop :=
  ReadsBack env t os ∧ ∃ t', reload env t = (.ok (), t') ∧ ReadsBack env t' os

/-- The cartridge in the drive is within the limits of the loaders of a mount, and its lookup log
within those of the loader of a READ. -/
def Rereadable : Prop :=
  WithinLimits t ∧ t.world.disk.lookup.Loadable lookupLog

end

theorem Indexed.remounted (h : Indexed s bs items) (htr : Tracked env t bs)
    (hmarks : ∀ q, q ∈ t.tape.filemarks ↔ q ∈ s.filemarks) :
    Indexed t.tape bs items where
  starts := htr.starts
  blocks := h.blocks
  marks q := (hmarks q).trans (h.marks q)
  positive := h.positive
  below := by
    intro q i hi
    cases i with
    | block payload =>
      obtain ⟨b, hb, rfl, -⟩ := (h.blocks q payload).mp hi
      exact (htr.start_lt hb).trans_le (htr.blocksEnd b hb)
    | mark step => exact htr.marksEnd q ((hmarks q).mpr ((h.marks q).mpr ⟨step, hi⟩))
  stops := htr.blocksEnd

/-- REWIND, if the flush succeeds. -/
theorem rewindMedia_flushed (h : Tracked env t bs)
    (hflush : flushPendingWrites env.storage t.world = (.ok b, w)) :
    rewindMedia env t = (.ok (), (t.setWorld w).setTape { t.tape with currentPosition := 0 }) := by
  have hload : ensureLoaded t = (.ok (), t) := guard_ensureLoaded.pass t h.loaded
  have hrun : onLayout (flushPendingWrites env.storage) t = (.ok b, t.setWorld w) := by
    unfold onLayout zoom
    rw [hflush]
  unfold rewindMedia
  rw [run_bind_ok hload]
  show (if t.tape.activeLayout then _ else _ : TapeM Unit) t = _
  rw [if_pos h.layout, run_bind_ok hrun]
  rfl

/-- **A tape whose files are accepted is read back.** -/
theorem readsBack_of_flush (h : Tracked env t bs) (hindexed : Indexed t.tape bs items)
    (hready : t.tape.requiresRecovery = false) (hcalm : t.world.faults = [])
    (hflush : flushPendingWrites env.storage t.world = (.ok b, w)) (hfiles : ¬ ReadRefused w.disk) :
    ReadsBack env t (items.map Item.object) := by
  have hrun := rewindMedia_flushed h hflush
  have hrew := (rewindMedia_spec h).of_ok hrun
  have hidx : Indexed { t.tape with currentPosition := 0 } bs items :=
    hindexed.remounted hrew.tracked (fun q => Iff.rfl)
  have hstands : StandsAt env { t.tape with currentPosition := 0 } bs 0
      ((t.setWorld w).setTape { t.tape with currentPosition := 0 }) :=
    ⟨hrew.tracked, .refl _, rfl, hready, subset_nil.mp (hcalm ▸ hrew.faults), hfiles⟩
  intro ms hsuit
  have hlaid : Laid _ bs 0 (items.map Item.object) := Indexed.laid_from items [] hidx
  obtain ⟨out, t', hread, rfl⟩ := (readAll_spec hsuit hlaid hstands).exists_ok
  exact ⟨t', (run_bind_ok hrun).trans hread⟩

/-- A lookup log that cannot be loaded, and is not in memory. -/
structure Unlocatable (w : World) : Prop where
  cold : lookupSlot.cache w.mem = none
  bad : ¬ w.disk.lookup.Loadable lookupLog

theorem readData_unlocatable (h : Unlocatable t.world) : wp (readData env) (fun _ _ => False)
      (fun e t' => t'.world = t.world ∧ e.condition ≠ .endOfData) t := by
  unfold readData ensureLoaded ensureRecoveryComplete ensureLayout
  simp only [wp_bind, wp_tapeState, wp_check]
  refine ⟨fun _ => ⟨trivial, by simp [TapeError.condition]⟩, fun _ => ⟨fun _ => ⟨trivial, ?_⟩,
    fun _ => ⟨fun _ => ⟨trivial, ?_⟩, fun _ => ?_⟩⟩⟩
  · simp [TapeError.condition]
  · simp [TapeError.condition]
  rw [wp_ite]
  constructor
  · intro _
    exact ⟨rfl, by simp [TapeError.condition]⟩
  intro _
  simp only [wp_bind, wp_onLayout]
  refine wp_mono (readLogicalBlock_cold h.cold h.bad _) (fun _ _ hf => hf.elim) ?_
  intro e w hw
  exact ⟨hw, by simp [TapeError.condition]⟩

/-- READs in variable mode then never report the end of data. -/
theorem readAll_unlocatable (n : Nat) : ∀ {t : TapeWorld}, Unlocatable t.world →
      wp (readAll env (replicate n .anySize)) (fun out _ => Seen.endOfData ∉ out)
        (fun _ _ => True) t := by
  induction n with
  | zero =>
    intro t _
    exact not_mem_nil
  | succ n ih =>
    intro t h
    rw [replicate_succ]
    unfold readAll
    rw [wp_bind, wp_attempt]
    have hone : wp (readOne env .anySize) (fun _ _ => False)
        (fun e t' => t'.world = t.world ∧ e.condition ≠ .endOfData) t := by
      unfold readOne setBlockModeVariable ensureLoaded
      simp only [wp_bind, wp_tapeState, wp_check, wp_modifyTape]
      exact ⟨fun _ => ⟨trivial, by simp [TapeError.condition]⟩, fun _ => readData_unlocatable h⟩
    refine wp_mono hone (fun _ _ hf => hf.elim) ?_
    intro e t' hout
    obtain ⟨hw, hcond⟩ := hout
    rw [wp_bind]
    refine wp_mono (ih (hw ▸ h)) ?_ (fun _ _ _ => trivial)
    intro out t'' hout
    show Seen.endOfData ∉ seen (.error e) :: out
    grind [seen]

theorem suitAll_anySize (os : List TapeObject) :
    SuitAll (replicate (os.length + 1) .anySize) os := by
  induction os with
  | nil => exact .done trivial
  | cons o os ih =>
    refine .next ?_ ih
    cases o with
    | block payload => exact ⟨trivial, fun size hs => absurd hs (by simp)⟩
    | mark => trivial

/-- **A tape read back right after a mount** has a lookup log that loads. -/
theorem ReadsBack.lookup_loadable {marks : List Nat} (h : ReadsBack env t os)
    (hatt : Attached env t1 t bs marks) : t.world.disk.lookup.Loadable lookupLog := by
  by_contra hbad
  obtain ⟨t', hrun⟩ := h _ (suitAll_anySize os)
  obtain ⟨b, w, hflush, hw⟩ :=
    (flushPendingWrites_idle hatt.tracked.inv.ok.checkpoint hatt.idle hatt.clean).exists_ok
  have hrew := rewindMedia_flushed hatt.tracked hflush
  have hread := (run_bind_ok hrew).symm.trans hrun
  -- the flush had nothing to do, so that the lookup log is still not in memory
  have hun : Unlocatable ((t.setWorld w).setTape { t.tape with currentPosition := 0 }).world := by
    show Unlocatable w
    rw [hw]
    exact ⟨hatt.cold, hbad⟩
  have hno := (readAll_unlocatable (os.length + 1) hun).of_ok hread
  exact hno (by simp)

/-- READs accept the files of such a cartridge, also once they are flushed. -/
theorem Rereadable.files (h : Rereadable t) {d : Disk}
    (hsame : SameForLoaders t.world.disk d) : ¬ ReadRefused d := by
  intro hbad
  rcases hbad with hbad | hbad | hbad
  · exact hbad ((LogFile.loaded_sync hsame.files.lookup).1.mpr h.2)
  · exact hbad ((LogFile.loaded_sync hsame.files.blkMap).1.mpr h.1.blkMap)
  · unfold SegmentIndex.Loadable at hbad
    rw [hsame.descriptors] at hbad
    exact hbad h.1.segments

/-- **What is written is read back**, now and after a reload, iff the cartridge, before it is
taken out, is within the limits of the loaders. -/
theorem round_trip_iff {t₀ : TapeWorld} {cs : List CoreCommand}
    (hlaw : env.storage.codecs.Lawful) (hhits : env.HitsVerified) (hmount : FreshMount env t₀)
    (hrun : Run (WriteStep env) t₀ cs t) (hcalm : t.world.faults = []) :
    RoundTrip env t (cs.flatMap (·.objects)) ↔ Rereadable t := by
  obtain ⟨bs, items, hw, hobj⟩ := written_out hlaw hhits hmount hrun
  rw [← hobj]
  have hmounted : Mounted env t := ⟨⟨bs, hw.tracked⟩, hw.ready⟩
  have hdetach := detachCartridge_spec hw.tracked (by rw [hw.ready]; simp)
  constructor
  · intro hout
    obtain ⟨-, t₂, hre, hback⟩ := hout
    obtain ⟨_, t₁, hdet, hatt⟩ := run_bind_eq_ok hre
    have hd := hdetach.of_ok hdet
    have ha := (attachCartridge_spec hd.shelved).of_ok hatt
    have hlookup := hback.lookup_loadable ha
    obtain ⟨rt, hdisk⟩ := ha.disk
    rw [hdisk] at hlookup
    exact ⟨(reload_ok_iff hmounted hcalm).mp ⟨t₂, hre⟩,
      (LogFile.loaded_sync (hd.sameForLoaders hw.tracked).files.lookup).1.mp hlookup⟩
  intro hlim
  obtain ⟨t₁, hdet⟩ := hlim.1.detaches hmounted hcalm
  have hd := hdetach.of_ok hdet
  have hnil : t₁.world.faults = [] := subset_nil.mp (hcalm ▸ hd.faults)
  have hload := (hd.reloadable_iff hw.tracked hcalm).mpr hlim.1
  have hfiles := hlim.files (hd.sameForLoaders hw.tracked)
  constructor
  · -- in the session the same flush runs, and leaves the same files
    obtain ⟨b, w, rt, hflush, hdisk⟩ := hd.flushed
    refine readsBack_of_flush hw.tracked hw.indexed hw.ready hcalm hflush ?_
    rw [hdisk] at hfiles
    exact hfiles
  rcases hatt : attachCartridge env t₁ with ⟨r, t₂⟩
  cases r with
  | error e =>
    exact absurd hload (((attachCartridge_spec hd.shelved).of_error hatt).2 hnil)
  | ok _ =>
    have ha := (attachCartridge_spec hd.shelved).of_ok hatt
    refine ⟨t₂, (run_bind_ok hdet).trans hatt, ?_⟩
    obtain ⟨b, w, hflush, hweq⟩ :=
      (flushPendingWrites_idle ha.tracked.inv.ok.checkpoint ha.idle ha.clean).exists_ok
    refine readsBack_of_flush ha.tracked (hw.indexed.remounted ha.tracked (fun q => ?_))
      ha.recovery (subset_nil.mp (hnil ▸ ha.faults)) hflush ?_
    · rw [ha.filemarks]
      exact (sortByKey_perm id _).mem_iff
    obtain ⟨rt, hdisk⟩ := ha.disk
    grind [ReadRefused]

/-! ## §6. More filemarks than a mount accepts. -/

theorem WriteStep.of_isOk (hadm : Admissible t c) (hok : (execute env c t).1.isOk = true) :
    WriteStep env t c (execute env c t).2 := by
  rcases hrun : execute env c t with ⟨r, t'⟩
  cases r with
  | error e =>
    rw [hrun] at hok
    exact absurd hok (by simp [Except.isOk, Except.toBool])
  | ok data => exact ⟨hadm, data, hrun⟩

/-- **A million and one filemarks** cannot be read back after a reload. -/
theorem filemarks_over_limit_not_read_back : FreshMount .standard blankMounted ∧
      ∃ t, WriteStep .standard blankMounted (.writeFilemarks 1000001 none) t ∧
        t.world.faults = [] ∧ ¬ RoundTrip .standard t (replicate 1000001 .mark) := by
  obtain ⟨t₀, hatt⟩ := blankMounted_freshMount.attached
  obtain ⟨t, hrun, hm⟩ :=
    execute_writeFilemarks_ok hatt.tracked (by decide) blankMounted_markable
  obtain ⟨hcalm, hno⟩ := hm.not_reload hatt.recovery blankMounted_markable.calm (by decide)
  refine ⟨blankMounted_freshMount, t, ⟨trivial, [], hrun⟩, hcalm, ?_⟩
  intro hout
  obtain ⟨-, t', hre, -⟩ := hout
  exact hno ⟨t', hre⟩

/-- A cartridge with a block and a filemark is within the limits. -/
theorem blockAndMark_rereadable : Rereadable blockAndMark := by
  refine ⟨⟨by decide +kernel, ?_, by decide +kernel, by decide +kernel,
    ⟨by decide +kernel, by decide +kernel⟩, ⟨by decide +kernel, by decide +kernel⟩,
    by decide +kernel⟩, by decide +kernel⟩
  unfold SegmentIndex.Loadable
  decide +kernel

/-- A block in variable mode and a filemark are read back. -/
theorem round_trip_iff_block_mark :
    RoundTrip .standard blockAndMark [.block [1, 2, 3], .mark] := by
  have hmode : WriteStep .standard blankMounted .setBlockModeVariable variableMode :=
    .of_isOk trivial (by decide +kernel)
  have hwrite : WriteStep .standard variableMode (.writeData [1, 2, 3] none) oneBlock :=
    .of_isOk (.inr (by decide)) (by decide +kernel)
  have hmark : WriteStep .standard oneBlock (.writeFilemarks 1 none) blockAndMark :=
    .of_isOk trivial (by decide +kernel)
  have hrun := Run.snoc (.snoc (.snoc .nil hmode) hwrite) hmark
  have hcalm : blockAndMark.world.faults = [] := by decide +kernel
  exact (round_trip_iff Codecs.stored_lawful (.inl rfl) blankMounted_freshMount hrun hcalm).mpr
    blockAndMark_rereadable

end Holo.Tape
