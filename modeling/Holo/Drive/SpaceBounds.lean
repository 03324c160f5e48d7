/-
Holo.Drive.SpaceBounds — how far a SPACE runs.

The count of a SPACE comes from the host, up to the least and the greatest number of 64 bits.
The loop of `space` goes from object to object, and ends with the first step that finds none.
Backward its bound is `-count`, which overflows for the least count; forward over filemarks it
goes on for ever if nothing lies behind a filemark, as after a write that ran out of positions.

Main results:
* `moveSteps_le`: a loop whose steps use something up;
* `space_loop`: the loop that is counted is the one of `space`;
* `space_bounded_iff`: on which counts and tapes a SPACE ends within the objects there are.
-/
import Holo.Drive.Position
import Holo.Lib.Ranks

namespace Holo.Drive

open Lib Program Storage Tape List

/-! ## §1. The loop of SPACE. -/

section

variable (s : TapeState) (count : Int)

/-- The filemarks in the order of their positions. -/
def marksInOrder : List Nat := sortByKey id s.filemarks

/-- One step of SPACE forward over filemarks. -/
def nextMark (p : Nat) : Option Nat :=
  ((marksInOrder s).find? (p ≤ ·)).map (positionAfterFilemark s)

/-- The objects a SPACE looks for. -/
def spaceObjects : SpaceBranch → List Nat
  | .blocks => s.blockStarts
  | .filemarks => s.filemarks
  | .endOfData => []

/-- One step of the loop of `space`. -/
def spaceMove (forward : Bool) : SpaceBranch → Nat → Option Nat
  | .blocks => if forward then nextPoint s.blockStarts else previousPoint s.blockStarts
  | .filemarks => if forward then nextMark s else previousPoint (marksInOrder s)
  | .endOfData => fun _ => none

/-- The steps of a loop: those that lead on, and the one that does not. -/
def moveSteps (move : Nat → Option Nat) : Nat → Nat → Nat
  | 0, _ => 0
  | count + 1, position =>
    match move position with
    | none => 1
    | some next => moveSteps move count next + 1

/-- The loop of `space` is entered. -/
def SpaceLoops (branch : SpaceBranch) : Prop :=
  s.mountState ≠ .empty ∧ count ≠ 0 ∧ spaceObjects s branch ≠ []

instance (branch : SpaceBranch) : Decidable (SpaceLoops s count branch) := by
  unfold SpaceLoops; infer_instance

/-- How often the loop of `space` is to run. -/
def spaceBound : Nat := (if 0 < count then count else wrapNeg64 count).toNat

/-- The steps of a SPACE. -/
def spaceSteps (branch : SpaceBranch) : Nat :=
  if SpaceLoops s count branch then
    moveSteps (spaceMove s (decide (0 < count)) branch) (spaceBound count) s.currentPosition
  else 0

/-- The position a SPACE asks for. -/
def Requested (q : Nat) : SpaceBranch → Prop
  | .endOfData => q = if count = -1 then 0 else s.eodPosition
  | branch =>
    moveTimes (spaceMove s (decide (0 < count)) branch) count.natAbs s.currentPosition = some q

end

/-- **A SPACE keeps within its bounds**: the bound of its loop does not overflow, there is a step
for each object and one more, and the tape is at the position that was asked for, or there is an
error. -/
structure SpaceBounded (t : TapeWorld) (branch : SpaceBranch) (count : Int) : Prop where
  bound : SpaceLoops t.tape count branch → count ≤ 0 → (checkedNeg64 count).isSome = true
  steps : spaceSteps t.tape count branch ≤ (spaceObjects t.tape branch).length + 1
  outcome : (∃ q, space branch count t = (.ok (), positioned t q) ∧
      Requested t.tape count q branch) ∨ ∃ e, space branch count t = (.error e, t)

/-- The inputs on which it does not. -/
inductive SpaceRunsOff (s : TapeState) : SpaceBranch → Int → Prop where
  | overflow {branch : SpaceBranch} (hloaded : s.mountState ≠ .empty)
      (hsome : spaceObjects s branch ≠ []) : SpaceRunsOff s branch (-2 ^ 63)
  | endless {count : Int} {m : Nat} (hloaded : s.mountState ≠ .empty)
      (hcount : s.filemarks.length + 1 < count) (hm : m ∈ s.filemarks)
      (hahead : s.currentPosition ≤ m) (hend : pointsAfter s m = []) :
      SpaceRunsOff s .filemarks count

variable {t : TapeWorld} {s : TapeState} {branch : SpaceBranch} {count : Int} {p q m : Nat}

/-! ## §2. Steps that use something up. -/

theorem moveSteps_le_count (move : Nat → Option Nat) (n : Nat) : ∀ p, moveSteps move n p ≤ n := by
  induction n with
  | zero => exact fun _ => le_rfl
  | succ n ih =>
    intro p
    rw [moveSteps]
    split
    · omega
    · exact Nat.succ_le_succ (ih _)

/-- **A loop whose steps use something up** ends when it is gone. -/
theorem moveSteps_le {move : Nat → Option Nat} {left : Nat → Nat} {inv : Nat → Prop}
    (hmove : ∀ p q, inv p → move p = some q → inv q ∧ left q < left p) (n : Nat) :
    ∀ p, inv p → moveSteps move n p ≤ left p + 1 := by
  induction n with
  | zero => exact fun _ _ => Nat.zero_le _
  | succ n ih =>
    intro p hp
    rw [moveSteps]
    split
    · omega
    · next q hq =>
      obtain ⟨hinv, hlt⟩ := hmove p q hp hq
      have := ih q hinv
      omega

/-- Each step goes to an object of the list, which is not ahead any more afterwards. -/
theorem moveSteps_le_length (l : List Nat) {move : Nat → Option Nat} (ahead : Nat → Nat → Bool)
    (hmove : ∀ p q, move p = some q → q ∈ l ∧ ahead p q = true)
    (htrans : ∀ p q x, ahead p q = true → ahead q x = true → ahead p x = true)
    (hself : ∀ q, ahead q q = false) (n p : Nat) : moveSteps move n p ≤ l.length + 1 := by
  have hdrop : ∀ p q, True → move p = some q →
      True ∧ l.countP (ahead q) < l.countP (ahead p) := by
    intro p q _ hq
    obtain ⟨hmem, hahead⟩ := hmove p q hq
    refine ⟨trivial, countP_lt_countP (fun x => htrans p q x hahead) hmem hahead ?_⟩
    simp [hself]
  exact (moveSteps_le hdrop n p trivial).trans (Nat.succ_le_succ countP_le_length)

theorem nextPoint_steps (l : List Nat) (n p : Nat) :
    moveSteps (nextPoint l) n p ≤ l.length + 1 :=
  moveSteps_le_length l (fun p q => decide (p < q))
    (fun _ _ hq => ⟨mem_of_find?_eq_some hq, by simpa using find?_some hq⟩) (by simp; omega)
    (by simp) n p

theorem previousPoint_steps (l : List Nat) (n p : Nat) :
    moveSteps (previousPoint l) n p ≤ l.length + 1 :=
  moveSteps_le_length l (fun p q => decide (q < p))
    (fun _ _ hq => ⟨mem_reverse.mp (mem_of_find?_eq_some hq), by simpa using find?_some hq⟩)
    (by simp; omega) (by simp) n p

theorem length_marksInOrder (s : TapeState) : (marksInOrder s).length = s.filemarks.length :=
  (sortByKey_perm id s.filemarks).length_eq

/-- Forward over filemarks that all have something behind them. -/
theorem nextMark_steps (h : ∀ m ∈ s.filemarks, p ≤ m → pointsAfter s m ≠ []) (n : Nat) :
    moveSteps (nextMark s) n p ≤ s.filemarks.length + 1 := by
  have hdrop : ∀ p' q, p ≤ p' → nextMark s p' = some q →
      p ≤ q ∧ (marksInOrder s).countP (q ≤ ·) < (marksInOrder s).countP (p' ≤ ·) := by
    intro p' q hp' hq
    obtain ⟨m, hm, rfl⟩ := Option.map_eq_some_iff.mp hq
    have hmem := mem_of_find?_eq_some hm
    have hle : p' ≤ m := by simpa using find?_some hm
    have hlt : m < positionAfterFilemark s m := of_decide_eq_true (mem_filter.mp
      (positionAfterFilemark_least
        (h m ((sortByKey_perm id s.filemarks).mem_iff.mp hmem) (hp'.trans hle))).1).2
    exact ⟨by omega, countP_lt_countP (fun x hx => by simp at hx ⊢; omega) hmem
      (decide_eq_true hle) (by simpa using hlt)⟩
  refine (moveSteps_le hdrop n p le_rfl).trans (Nat.succ_le_succ ?_)
  exact countP_le_length.trans (length_marksInOrder s).le

/-- **With nothing behind a filemark**, the loop takes every step it may. -/
theorem nextMark_endless (hm : m ∈ s.filemarks) (hend : pointsAfter s m = []) (n : Nat) :
    ∀ p ≤ m, moveSteps (nextMark s) n p = n := by
  -- the points of the tape all lie at or before the filemark
  have hpoints : ∀ x ∈ s.blockStarts ++ s.filemarks ++ [s.eodPosition], x ≤ m := by
    intro x hx
    have hno := filter_eq_nil_iff.mp hend x hx
    simpa using hno
  have hafter : ∀ m', positionAfterFilemark s m' ≤ m := by
    intro m'
    unfold positionAfterFilemark
    cases hmin : (pointsAfter s m').min? with
    | none => exact hpoints _ (by simp)
    | some q => exact hpoints q (mem_filter.mp (min?_mem hmin)).1
  induction n with
  | zero => exact fun _ _ => rfl
  | succ n ih =>
    intro p hp
    have hsome : ((marksInOrder s).find? (p ≤ ·)).isSome = true :=
      find?_isSome.mpr ⟨m, (sortByKey_perm id s.filemarks).mem_iff.mpr hm, decide_eq_true hp⟩
    obtain ⟨m', hm'⟩ := Option.isSome_iff_exists.mp hsome
    have hstep : nextMark s p = some (positionAfterFilemark s m') := by
      unfold nextMark
      rw [hm']
      rfl
    rw [moveSteps, hstep]
    exact congrArg Nat.succ (ih _ (hafter m'))

/-! ## §3. What a SPACE does. -/

theorem space_run (hloaded : t.tape.mountState ≠ .empty) : space branch count t =
    (match branch with
      | .blocks => spaceBlocks count
      | .filemarks => spaceFilemarks count
      | .endOfData => spaceEndOfData count) t := by
  unfold space
  exact run_bind_ok (guard_ensureLoaded.pass t hloaded)

/-- **The loop whose steps are counted is the one `space` runs.** -/
theorem space_loop (h : SpaceLoops t.tape count branch) : ∃ e, space branch count t =
    settle (moveTimes (spaceMove t.tape (decide (0 < count)) branch) (spaceBound count)
      t.tape.currentPosition) e t := by
  obtain ⟨hloaded, hcount, hsome⟩ := h
  rw [space_run hloaded]
  unfold spaceBound
  cases branch with
  | blocks =>
    have hsome : t.tape.blockStarts ≠ [] := hsome
    dsimp only
    unfold spaceBlocks spaceMove
    rw [run_tapeState_bind, if_neg hcount, if_neg hsome]
    by_cases hpos : 0 < count
    · rw [if_pos hpos, if_pos hpos, decide_eq_true hpos]
      exact ⟨_, rfl⟩
    · rw [if_neg hpos, if_neg hpos, decide_eq_false hpos]
      exact ⟨_, rfl⟩
  | filemarks =>
    have hsome : t.tape.filemarks ≠ [] := hsome
    dsimp only
    unfold spaceFilemarks spaceMove
    rw [run_tapeState_bind, if_neg hcount, if_neg hsome]
    by_cases hpos : 0 < count
    · rw [if_pos hpos, if_pos hpos, decide_eq_true hpos]
      exact ⟨_, rfl⟩
    · rw [if_neg hpos, if_neg hpos, decide_eq_false hpos]
      exact ⟨_, rfl⟩
  | endOfData => exact absurd rfl hsome

/-- A SPACE that does not come to its loop. -/
theorem space_without_loop (h : ¬ SpaceLoops t.tape count branch) :
    (∃ q, space branch count t = (.ok (), positioned t q) ∧ Requested t.tape count q branch) ∨
      ∃ e, space branch count t = (.error e, t) := by
  by_cases hloaded : t.tape.mountState = .empty
  · obtain ⟨e, hrefused⟩ := guard_ensureLoaded.refuse t (not_not_intro hloaded)
    exact .inr ⟨e, run_bind_error hrefused⟩
  -- nothing to count, nothing to go to, or the end of data
  rw [space_run hloaded]
  cases branch with
  | blocks =>
    dsimp only
    unfold spaceBlocks
    rw [run_tapeState_bind]
    by_cases hzero : count = 0
    · subst hzero
      exact .inl ⟨_, rfl, rfl⟩
    have hnil : t.tape.blockStarts = [] := by_contra fun hsome => h ⟨hloaded, hzero, hsome⟩
    rw [if_neg hzero, if_pos hnil]
    split
    · exact .inr ⟨_, rfl⟩
    · exact .inr ⟨_, rfl⟩
  | filemarks =>
    dsimp only
    unfold spaceFilemarks
    rw [run_tapeState_bind]
    by_cases hzero : count = 0
    · subst hzero
      exact .inl ⟨_, rfl, rfl⟩
    have hnil : t.tape.filemarks = [] := by_contra fun hsome => h ⟨hloaded, hzero, hsome⟩
    rw [if_neg hzero, if_pos hnil]
    exact .inr ⟨_, rfl⟩
  | endOfData =>
    unfold Requested spaceEndOfData
    split
    next hcount => exact .inl ⟨_, rfl, (if_neg (by omega)).symm⟩
    next =>
      split
      next hback =>
        subst hback
        exact .inl ⟨0, rfl, rfl⟩
      next => exact .inr ⟨_, rfl⟩

/-- A loop whose bound does not overflow runs as often as was asked for. -/
theorem spaceBound_eq (h : count ≤ 0 → (checkedNeg64 count).isSome = true) :
    spaceBound count = count.natAbs := by
  unfold spaceBound
  by_cases hpos : 0 < count
  · rw [if_pos hpos]
    omega
  obtain ⟨k, hk⟩ := Option.isSome_iff_exists.mp (h (by omega))
  have hneg : wrapNeg64 count = -count := by
    unfold checkedNeg64 at hk
    split at hk
    · cases hk
    next hleast =>
      unfold wrapNeg64 checkedNeg64
      rw [if_neg hleast]
      rfl
  rw [if_neg hpos, hneg]
  omega

/-- **What a SPACE does** if the bound of its loop does not overflow. -/
theorem space_outcome
    (h : SpaceLoops t.tape count branch → count ≤ 0 → (checkedNeg64 count).isSome = true) :
    (∃ q, space branch count t = (.ok (), positioned t q) ∧ Requested t.tape count q branch) ∨
      ∃ e, space branch count t = (.error e, t) := by
  by_cases hloops : SpaceLoops t.tape count branch
  swap
  · exact space_without_loop hloops
  obtain ⟨e, hrun⟩ := space_loop hloops
  rw [hrun, spaceBound_eq (h hloops)]
  cases hmove : moveTimes (spaceMove t.tape (decide (0 < count)) branch) count.natAbs
      t.tape.currentPosition with
  | none => exact .inr ⟨e, rfl⟩
  | some q =>
    refine .inl ⟨q, rfl, ?_⟩
    cases branch with
    | blocks | filemarks => exact hmove
    | endOfData => exact absurd rfl hloops.2.2

/-- SPACE moves the position and nothing else. -/
theorem space_moves {t' : TapeWorld} (h : space branch count t = (.ok (), t')) :
    ∃ q, t' = positioned t q := by
  by_cases hloops : SpaceLoops t.tape count branch
  · obtain ⟨e, hrun⟩ := space_loop hloops
    rw [hrun] at h
    cases hmove : moveTimes (spaceMove t.tape (decide (0 < count)) branch) (spaceBound count)
        t.tape.currentPosition with
    | none =>
      rw [hmove] at h
      cases h
    | some q =>
      rw [hmove] at h
      cases h
      exact ⟨q, rfl⟩
  · rcases space_without_loop hloops with ⟨q, hrun, -⟩ | ⟨e, hrun⟩
    · rw [hrun] at h
      cases h
      exact ⟨q, rfl⟩
    · rw [hrun] at h
      cases h

/-- The steps of a SPACE whose loop ends by itself. -/
theorem spaceSteps_le (h : ¬ SpaceRunsOff t.tape branch count) :
    spaceSteps t.tape count branch ≤ (spaceObjects t.tape branch).length + 1 := by
  unfold spaceSteps
  split
  swap
  · exact Nat.zero_le _
  next hloops =>
  cases branch with
  | blocks =>
    by_cases hpos : 0 < count
    · rw [decide_eq_true hpos]
      exact nextPoint_steps _ _ _
    · rw [decide_eq_false hpos]
      exact previousPoint_steps _ _ _
  | filemarks =>
    by_cases hpos : 0 < count
    swap
    · rw [decide_eq_false hpos]
      exact (previousPoint_steps _ _ _).trans (Nat.succ_le_succ (length_marksInOrder _).le)
    rw [decide_eq_true hpos]
    by_cases hend : ∃ m ∈ t.tape.filemarks, t.tape.currentPosition ≤ m ∧
        pointsAfter t.tape m = []
    swap
    · exact nextMark_steps (fun m hm hahead hnil => hend ⟨m, hm, hahead, hnil⟩) _
    -- a loop that does not end by itself ends with its count
    obtain ⟨m, hm, hahead, hend⟩ := hend
    have hfew : ¬ (t.tape.filemarks.length + 1 < count) := fun hmany =>
      h (.endless hloops.1 hmany hm hahead hend)
    refine (moveSteps_le_count _ _ _).trans ?_
    unfold spaceBound
    rw [if_pos hpos]
    show count.toNat ≤ t.tape.filemarks.length + 1
    omega
  | endOfData => exact absurd rfl hloops.2.2

/-- **Which SPACEs keep within their bounds**, on every tape: all but those with the least count
and something to look for, and those over more filemarks than there are, ahead of a filemark
that has nothing behind it. -/
theorem space_bounded_iff (t : TapeWorld) (branch : SpaceBranch) (count : Int) :
    SpaceBounded t branch count ↔ ¬ SpaceRunsOff t.tape branch count := by
  constructor
  · intro h hoff
    cases hoff with
    | overflow hloaded hsome =>
      -- the least count cannot be negated
      have hbound := h.bound ⟨hloaded, by decide, hsome⟩ (by decide)
      exact absurd hbound (by decide)
    | @endless _ m hloaded hcount hm hahead hend =>
      -- with nothing behind the filemark the loop takes all its turns
      have hpos : 0 < count := by omega
      have hsteps := h.steps
      unfold spaceSteps spaceBound at hsteps
      rw [if_pos ⟨hloaded, hpos.ne', ne_nil_of_mem hm⟩, if_pos hpos, decide_eq_true hpos] at hsteps
      have hle : moveSteps (nextMark t.tape) count.toNat t.tape.currentPosition ≤
          t.tape.filemarks.length + 1 := hsteps
      rw [nextMark_endless hm hend _ _ hahead] at hle
      omega
  · intro h
    have hbound : SpaceLoops t.tape count branch → count ≤ 0 →
        (checkedNeg64 count).isSome = true := by
      intro hloops _
      by_cases hleast : count = -2 ^ 63
      · subst hleast
        exact absurd (.overflow hloops.1 hloops.2.2) h
      · unfold checkedNeg64
        rw [if_neg hleast]
        rfl
    exact ⟨hbound, spaceSteps_le h, space_outcome hbound⟩

/-- SPACE(16) over blocks, with the least count. -/
def leastCountCdb : Bytes := [0x91, 0, 0, 0, 0x80, 0, 0, 0, 0, 0, 0, 0, 0, 0, 0, 0]

/-- **The least count**: the bound of the loop overflows, and SPACE over all these blocks succeeds
without leaving its position. -/
theorem space_least_count_overflows : FreshMount .standard blankMounted ∧
    Run (WithinStep .standard) blankMounted
      [.command .setBlockModeVariable, .command (.writeData [1, 2, 3] none)] oneBlock ∧
    validateCdbStructure leastCountCdb = true ∧ signExtend 64 (readBe64 leastCountCdb 4) = -2 ^ 63 ∧
    checkedNeg64 (-2 ^ 63) = none ∧ space .blocks (-2 ^ 63) oneBlock = (.ok (), oneBlock) ∧
    ¬ SpaceBounded oneBlock .blocks (-2 ^ 63) := by
  have hloops : SpaceLoops oneBlock.tape (-2 ^ 63) .blocks := by decide +kernel
  obtain ⟨e, hrun⟩ := space_loop hloops
  refine ⟨blankMounted_freshMount, run_oneBlock, by decide, by decide, by decide, hrun, fun h => ?_⟩
  exact absurd (h.bound hloops (by decide)) (by decide)

end Holo.Drive
