/-
Holo.Drive.MarkSpacing — SPACE over filemarks.

SPACE searches the filemarks in the order of their positions.  Forward it goes from each one it
finds to the next point of the tape behind it; backward it stays on the one it finds.  The file
number of READ POSITION is the number of filemarks before the position, their rank.

Main results:
* `forward_moves`, `backward_moves`: where SPACE ends, by the place of the position;
* `marks_spaced_iff`: on which tapes SPACE and the file number agree;
* `space_over_two_marks`: two filemarks at one position.
-/
import Holo.Drive.SpaceBounds

namespace Holo.Drive

open Lib Program Storage Tape List

/-! ## §1. What SPACE over filemarks is for. -/

section

variable (s : TapeState) (p : Nat)

/-- The filemarks at or after a position, nearest first. -/
def marksAhead : List Nat := (marksInOrder s).filter (p ≤ ·)

/-- The filemarks before a position, nearest first. -/
def marksBehind : List Nat :=
  ((marksInOrder s).filter (· < p)).reverse

/-- The position directly after a filemark: where the next block or filemark starts, or the end
of data. -/
structure DirectlyAfter (mark p : Nat) : Prop where
  point : p ∈ pointsAfter s mark
  first : ∀ q ∈ pointsAfter s mark, p ≤ q

/-- The file number READ POSITION reports. -/
def fileNumber : Nat := s.filemarks.countP (· < s.currentPosition)

end

/-- **SPACE over filemarks does what it is for**, from the position of the tape. -/
structure MarksSpaced (t : TapeWorld) : Prop where
  forward : ∀ k m : Nat, 0 < k → (marksAhead t.tape t.tape.currentPosition)[k - 1]? = some m →
    ∃ t', space .filemarks k t = (.ok (), t') ∧
      DirectlyAfter t.tape m t'.tape.currentPosition ∧
      fileNumber t'.tape = fileNumber t.tape + k
  backward : ∀ k m : Nat, 0 < k → (marksBehind t.tape t.tape.currentPosition)[k - 1]? = some m →
    ∃ t', space .filemarks (-k) t = (.ok (), t') ∧ t'.tape.currentPosition = m ∧
      fileNumber t'.tape + k = fileNumber t.tape
  backAndForth : ∀ k m : Nat, 0 < k → k ≤ (marksBehind t.tape t.tape.currentPosition).length →
    (marksBehind t.tape t.tape.currentPosition).head? = some m →
    ∃ t' t'', space .filemarks (-k) t = (.ok (), t') ∧ space .filemarks k t' = (.ok (), t'') ∧
      DirectlyAfter t.tape m t''.tape.currentPosition

variable {t t' : TapeWorld} {s : TapeState} {p q k m : Nat}

theorem fileNumber_of_readPosition {r : PositionReport} (h : readPosition t = (.ok r, t')) :
    r.fileNumber = fileNumber t.tape := by
  have hspec :
      wp readPosition (fun r _ => r.fileNumber = fileNumber t.tape) (fun _ _ => True) t := by
    refine guard_ensureLoaded.bind_of_refuse (fun _ _ => trivial) (fun _ => ?_)
    rw [wp_bind, wp_tapeState, wp_bind]
    unfold validatePayloadLen
    rw [wp_check]
    exact ⟨fun _ => trivial, fun _ => rfl⟩
  exact hspec.of_ok h

/-! ## §2. Filemarks in order. -/

theorem marksInOrder_sorted (s : TapeState) : (marksInOrder s).Pairwise (· ≤ ·) :=
  sortByKey_sorted id s.filemarks

theorem marksInOrder_perm (s : TapeState) : (marksInOrder s).Perm s.filemarks :=
  sortByKey_perm id s.filemarks

theorem mem_marksInOrder : m ∈ marksInOrder s ↔ m ∈ s.filemarks := (marksInOrder_perm s).mem_iff

theorem marksInOrder_strict (h : s.filemarks.Nodup) : (marksInOrder s).Pairwise (· < ·) := by
  have hnodup : (marksInOrder s).Nodup := (marksInOrder_perm s).nodup_iff.mpr h
  exact (marksInOrder_sorted s).imp₂ (fun _ _ hle hne => lt_of_le_of_ne hle hne) hnodup

/-- How many filemarks lie before a position. -/
def place (s : TapeState) (p : Nat) : Nat := rank (marksInOrder s) p

theorem place_le (s : TapeState) (p : Nat) : place s p ≤ (marksInOrder s).length :=
  rank_le_length _ _

/-- **The file number is the place of the position.** -/
theorem fileNumber_eq_place (s : TapeState) : fileNumber s = place s s.currentPosition :=
  ((marksInOrder_perm s).countP_eq _).symm

theorem marksAhead_eq (s : TapeState) (p : Nat) :
    marksAhead s p = (marksInOrder s).drop (place s p) :=
  filter_le_eq_drop (marksInOrder_sorted s) p

theorem marksBehind_eq (s : TapeState) (p : Nat) :
    marksBehind s p = ((marksInOrder s).take (place s p)).reverse :=
  congrArg List.reverse (filter_lt_eq_take (marksInOrder_sorted s) p)

theorem marksAhead_getElem : (marksAhead s p)[k]? = (marksInOrder s)[place s p + k]? := by
  rw [marksAhead_eq, getElem?_drop]

theorem length_marksBehind : (marksBehind s p).length = place s p := by
  rw [marksBehind_eq, length_reverse, length_take]
  exact Nat.min_eq_left (place_le s p)

theorem marksBehind_getElem (hk : k < place s p) :
    (marksBehind s p)[k]? = (marksInOrder s)[place s p - (k + 1)]? := by
  have hlen : ((marksInOrder s).take (place s p)).length = place s p := by
    rw [length_take]
    exact Nat.min_eq_left (place_le s p)
  rw [marksBehind_eq, getElem?_reverse (by rw [hlen]; exact hk), hlen,
    getElem?_take_of_lt (by omega), Nat.sub_sub, add_comm 1 k]

/-! ## §3. Behind a filemark. -/

theorem directlyAfter_positionAfterFilemark (h : pointsAfter s m ≠ []) :
    DirectlyAfter s m (positionAfterFilemark s m) := by
  obtain ⟨hmem, hle⟩ := positionAfterFilemark_least h
  exact ⟨hmem, hle⟩

theorem DirectlyAfter.unique (h : DirectlyAfter s m p) (h' : DirectlyAfter s m q) : p = q :=
  le_antisymm (h.first q h'.point) (h'.first p h.point)

theorem DirectlyAfter.lt (h : DirectlyAfter s m p) : m < p := by
  obtain ⟨-, hlt⟩ := mem_filter.mp h.point
  exact of_decide_eq_true hlt

theorem mem_pointsAfter (hp : p ∈ s.filemarks) (hlt : m < p) : p ∈ pointsAfter s m :=
  mem_filter.mpr ⟨by simp [hp], decide_eq_true hlt⟩

/-- One filemark more lies before the position directly after it. -/
theorem DirectlyAfter.place_eq (h : DirectlyAfter s m p) (hnodup : s.filemarks.Nodup)
    (hk : (marksInOrder s)[k]? = some m) : place s p = k + 1 :=
  rank_behind (marksInOrder_strict hnodup) hk h.lt fun _ hx hlt =>
    h.first _ (mem_pointsAfter (mem_marksInOrder.mp hx) hlt)

/-! ## §4. Where SPACE ends. -/

section

variable (hnodup : s.filemarks.Nodup)
include hnodup

/-- A step forward goes directly after the filemark at its place. -/
theorem nextMark_step (hpoints : ∀ m ∈ s.filemarks, pointsAfter s m ≠ [])
    (hm : (marksInOrder s)[place s p]? = some m) :
    ∃ q, nextMark s p = some q ∧ DirectlyAfter s m q ∧ place s q = place s p + 1 := by
  have hafter := directlyAfter_positionAfterFilemark
    (hpoints m (mem_marksInOrder.mp (mem_of_getElem? hm)))
  refine ⟨positionAfterFilemark s m, ?_, hafter, hafter.place_eq hnodup hm⟩
  have hfind := find_eq_rank (marksInOrder_sorted s) p
  rw [show (marksInOrder s)[rank (marksInOrder s) p]? = some m from hm] at hfind
  unfold nextMark
  rw [hfind]
  rfl

/-- A step backward goes to the filemark before its place. -/
theorem previousPoint_step (hpos : 0 < place s p) : ∃ m, previousPoint (marksInOrder s) p = some m ∧
      (marksInOrder s)[place s p - 1]? = some m ∧ place s m = place s p - 1 := by
  have hle := place_le s p
  have hentry := getElem?_eq_getElem (show place s p - 1 < (marksInOrder s).length by omega)
  exact ⟨_, (findBack_eq_rank (marksInOrder_sorted s) hpos).trans hentry, hentry,
    rank_entry (marksInOrder_strict hnodup) hentry⟩

/-- **Forward**: directly after the filemark so many places on. -/
theorem forward_moves (hpoints : ∀ m ∈ s.filemarks, pointsAfter s m ≠ []) (k : Nat) :
    ∀ {p m : Nat}, (marksInOrder s)[place s p + k]? = some m →
      ∃ q, moveTimes (nextMark s) (k + 1) p = some q ∧ DirectlyAfter s m q ∧
        place s q = place s p + (k + 1) := by
  induction k with
  | zero =>
    intro p m hm
    obtain ⟨q, hstep, hafter, hplace⟩ := nextMark_step hnodup hpoints hm
    refine ⟨q, ?_, hafter, hplace⟩
    rw [moveTimes, hstep]
    rfl
  | succ k ih =>
    intro p m hm
    -- the first filemark is there, since a later one is
    have hlt : place s p < (marksInOrder s).length := by
      have := (List.getElem?_eq_some_iff.mp hm).1
      omega
    obtain ⟨q1, hstep, -, hplace1⟩ :=
      nextMark_step hnodup hpoints (getElem?_eq_getElem hlt)
    obtain ⟨q, hmove, hafter, hplace⟩ := ih (p := q1) (m := m) (by
      rw [hplace1, ← hm]
      congr 1
      omega)
    refine ⟨q, ?_, hafter, by omega⟩
    rw [moveTimes, hstep]
    exact hmove

/-- **Backward**: on the filemark so many places back. -/
theorem backward_moves (k : Nat) : ∀ {p : Nat}, k < place s p →
      ∃ m, moveTimes (previousPoint (marksInOrder s)) (k + 1) p = some m ∧
        (marksInOrder s)[place s p - (k + 1)]? = some m ∧ place s m = place s p - (k + 1) := by
  induction k with
  | zero =>
    intro p hk
    obtain ⟨m, hstep, hm, hplace⟩ := previousPoint_step hnodup hk
    refine ⟨m, ?_, hm, hplace⟩
    rw [moveTimes, hstep]
    rfl
  | succ k ih =>
    intro p hk
    obtain ⟨m1, hstep, -, hplace1⟩ := previousPoint_step hnodup (Nat.zero_lt_of_lt hk)
    obtain ⟨m, hmove, hm, hplace⟩ := ih (p := m1) (by omega)
    refine ⟨m, ?_, ?_, by omega⟩
    · rw [moveTimes, hstep]
      exact hmove
    · rw [← hm]
      congr 1
      omega

end

/-- A search that finds something has filemarks to search. -/
theorem filemarks_ne_nil {move : Nat → Option Nat} (hk : 0 < k)
    (hmove : moveTimes move k p = some q) (hnil : s.filemarks = [] → move p = none) :
    s.filemarks ≠ [] := by
  intro hno
  obtain ⟨j, rfl⟩ := Nat.exists_eq_add_one.mpr hk
  rw [moveTimes, hnil hno] at hmove
  cases hmove

theorem space_forward (hloaded : t.tape.mountState ≠ .empty) (hk : 0 < k)
    (hmove : moveTimes (nextMark t.tape) k t.tape.currentPosition = some q) :
    space .filemarks k t = (.ok (), positioned t q) := by
  have hsome := filemarks_ne_nil (s := t.tape) hk hmove (fun hnil => by
    unfold nextMark marksInOrder
    rw [hnil]
    rfl)
  have hpos : (0 : Int) < k := by omega
  have hloops : SpaceLoops t.tape k .filemarks := ⟨hloaded, hpos.ne', hsome⟩
  obtain ⟨e, hrun⟩ := space_loop hloops
  rw [hrun, spaceBound, if_pos hpos, decide_eq_true hpos, Int.toNat_natCast]
  show settle (moveTimes (nextMark t.tape) k _) e t = _
  rw [hmove]
  rfl

/-- SPACE backward, when there is a filemark to go to and the count can be negated. -/
theorem space_backward (hloaded : t.tape.mountState ≠ .empty) (hk : 0 < k) (hlt : k < 2 ^ 63)
    (hmove : moveTimes (previousPoint (marksInOrder t.tape)) k t.tape.currentPosition = some q) :
    space .filemarks (-k) t = (.ok (), positioned t q) := by
  have hsome := filemarks_ne_nil (s := t.tape) hk hmove (fun hnil => by
    unfold previousPoint marksInOrder
    rw [hnil]
    rfl)
  have hneg : ¬ (0 : Int) < -k := by omega
  have hbound : spaceBound (-k) = k := by
    have hnegates : (checkedNeg64 (-k)).isSome = true := by
      unfold checkedNeg64
      rw [if_neg (by omega)]
      rfl
    rw [spaceBound_eq fun _ => hnegates]
    omega
  have hloops : SpaceLoops t.tape (-k) .filemarks := ⟨hloaded, by omega, hsome⟩
  obtain ⟨e, hrun⟩ := space_loop hloops
  rw [hrun, hbound, decide_eq_false hneg]
  show settle (moveTimes (previousPoint (marksInOrder t.tape)) k _) e t = _
  rw [hmove]
  rfl

/-! ## §5. The laws of SPACE. -/

theorem nodup_of_places {l : List Nat}
    (h : ∀ i j m : Nat, l[i]? = some m → l[j]? = some m → i = j) : l.Nodup := by
  refine nodup_iff_getElem?_ne_getElem?.mpr ?_
  intro i j hlt hj heq
  have hjs := getElem?_eq_getElem hj
  have hij := h i j _ (heq.trans hjs) hjs
  omega

theorem fileNumber_positioned (t : TapeWorld) (p : Nat) :
    fileNumber (positioned t p).tape = place t.tape p :=
  fileNumber_eq_place (positioned t p).tape

/-- Tapes on which SPACE does what it is for. -/
theorem marksSpaced_of_nodup (hloaded : t.tape.mountState ≠ .empty)
    (hfew : t.tape.filemarks.length < 2 ^ 63) (hnodup : t.tape.filemarks.Nodup)
    (hpoints : ∀ m ∈ t.tape.filemarks, pointsAfter t.tape m ≠ []) : MarksSpaced t := by
  have hback : ∀ k, 0 < k → k ≤ place t.tape t.tape.currentPosition →
      ∃ m, space .filemarks (-k) t = (.ok (), positioned t m) ∧
        (marksInOrder t.tape)[place t.tape t.tape.currentPosition - k]? = some m ∧
        place t.tape m = place t.tape t.tape.currentPosition - k := by
    intro k hk hle
    obtain ⟨j, rfl⟩ := Nat.exists_eq_add_one.mpr hk
    obtain ⟨m, hmove, hm, hplace⟩ := backward_moves hnodup j hle
    have hlt : j + 1 < 2 ^ 63 := by
      have hplaces := place_le t.tape t.tape.currentPosition
      rw [length_marksInOrder] at hplaces
      omega
    exact ⟨m, space_backward hloaded hk hlt hmove, hm, hplace⟩
  refine ⟨?_, ?_, ?_⟩
  · intro k m hk hm
    obtain ⟨j, rfl⟩ := Nat.exists_eq_add_one.mpr hk
    rw [marksAhead_getElem] at hm
    obtain ⟨q, hmove, hafter, hplace⟩ := forward_moves hnodup hpoints j hm
    refine ⟨_, space_forward hloaded hk hmove, hafter, ?_⟩
    rw [fileNumber_positioned, fileNumber_eq_place, hplace]
  · intro k m hk hm
    obtain ⟨j, rfl⟩ := Nat.exists_eq_add_one.mpr hk
    have hlt : j < place t.tape t.tape.currentPosition := by
      rw [← length_marksBehind]
      exact (List.getElem?_eq_some_iff.mp hm).1
    obtain ⟨m', hspace, hm', hplace⟩ := hback (j + 1) hk hlt
    have hm : (marksBehind t.tape t.tape.currentPosition)[j]? = some m := hm
    rw [marksBehind_getElem hlt, hm'] at hm
    refine ⟨_, hspace, Option.some.inj hm, ?_⟩
    rw [fileNumber_positioned, fileNumber_eq_place, hplace]
    omega
  · intro k m hk hle hm
    rw [length_marksBehind] at hle
    obtain ⟨m', hspace, -, hplace⟩ := hback k hk hle
    rw [head?_eq_getElem?, marksBehind_getElem (by omega)] at hm
    obtain ⟨j, rfl⟩ := Nat.exists_eq_add_one.mpr hk
    -- from there the filemark nearest before the position is so many places on
    obtain ⟨q, hmove, hafter, -⟩ := forward_moves hnodup hpoints j (p := m') (m := m) (by
      rw [hplace, ← hm]
      congr 1
      omega)
    exact ⟨_, _, hspace, space_forward (t := positioned t m') hloaded hk hmove, hafter⟩

/-- SPACE that does what it is for tells every filemark from the others. -/
theorem MarksSpaced.nodup (h : MarksSpaced t) : t.tape.filemarks.Nodup := by
  have hahead : (marksAhead t.tape t.tape.currentPosition).Nodup := by
    refine nodup_of_places fun i j m hi hj => ?_
    obtain ⟨t1, hrun, hafter, hfile⟩ := h.forward (i + 1) m (Nat.succ_pos i) hi
    obtain ⟨t2, hrun', hafter', hfile'⟩ := h.forward (j + 1) m (Nat.succ_pos j) hj
    obtain ⟨q, rfl⟩ := space_moves hrun
    obtain ⟨q', rfl⟩ := space_moves hrun'
    -- directly after the same filemark is the same place
    obtain rfl : q = q' := hafter.unique hafter'
    omega
  have hbehind : (marksBehind t.tape t.tape.currentPosition).Nodup := by
    refine nodup_of_places fun i j m hi hj => ?_
    obtain ⟨t1, hrun, hat, hfile⟩ := h.backward (i + 1) m (Nat.succ_pos i) hi
    obtain ⟨t2, hrun', hat', hfile'⟩ := h.backward (j + 1) m (Nat.succ_pos j) hj
    obtain ⟨q, rfl⟩ := space_moves hrun
    obtain ⟨q', rfl⟩ := space_moves hrun'
    obtain rfl : q = q' := hat.trans hat'.symm
    omega
  rw [← (marksInOrder_perm t.tape).nodup_iff,
    ← take_append_drop (place t.tape t.tape.currentPosition) (marksInOrder t.tape),
    ← marksAhead_eq, place, ← filter_lt_eq_take (marksInOrder_sorted _)]
  refine nodup_append.mpr ⟨nodup_reverse.mp hbehind, hahead, ?_⟩
  intro a ha b hb heq
  have hlt := of_decide_eq_true (mem_filter.mp ha).2
  have hle := of_decide_eq_true (mem_filter.mp hb).2
  omega

/-- There is something behind every filemark. -/
theorem MarksSpaced.points (h : MarksSpaced t) :
    ∀ m ∈ t.tape.filemarks, pointsAfter t.tape m ≠ [] := by
  intro m hm
  by_cases hle : t.tape.currentPosition ≤ m
  · have hmem : m ∈ marksAhead t.tape t.tape.currentPosition :=
      mem_filter.mpr ⟨mem_marksInOrder.mpr hm, decide_eq_true hle⟩
    obtain ⟨i, hi⟩ := mem_iff_getElem?.mp hmem
    obtain ⟨_, -, hafter, -⟩ := h.forward (i + 1) m (Nat.succ_pos i) hi
    exact ne_nil_of_mem hafter.point
  have hmem : m ∈ marksBehind t.tape t.tape.currentPosition :=
    mem_reverse.mpr (mem_filter.mpr
      ⟨mem_marksInOrder.mpr hm, decide_eq_true (Nat.lt_of_not_le hle)⟩)
  have hsorted : (marksBehind t.tape t.tape.currentPosition).Pairwise (· ≥ ·) :=
    pairwise_reverse.mpr ((marksInOrder_sorted t.tape).filter _)
  -- the nearest filemark behind is spaced over, and it lies behind the others
  cases hlist : marksBehind t.tape t.tape.currentPosition with
  | nil =>
    rw [hlist] at hmem
    cases hmem
  | cons nearest rest =>
    obtain ⟨_, _, -, -, hafter⟩ := h.backAndForth 1 nearest Nat.one_pos
      (by rw [hlist]; exact Nat.succ_le_succ (Nat.zero_le _)) (by rw [hlist]; rfl)
    rw [hlist] at hmem hsorted
    rcases mem_cons.mp hmem with rfl | hrest
    · exact ne_nil_of_mem hafter.point
    have hge : m ≤ nearest := (pairwise_cons.mp hsorted).1 m hrest
    rcases Nat.lt_or_eq_of_le hge with hlt | rfl
    · have hin : nearest ∈ t.tape.filemarks := by
        have hn : nearest ∈ marksBehind t.tape t.tape.currentPosition := by
          rw [hlist]
          exact mem_cons_self
        exact mem_marksInOrder.mp (mem_filter.mp (mem_reverse.mp hn)).1
      exact ne_nil_of_mem (mem_pointsAfter hin hlt)
    · exact ne_nil_of_mem hafter.point

/-- **SPACE over filemarks and the file number agree** iff no two filemarks are at one position
and something lies behind each of them.  A vector never holds `2 ^ 63` of them, so every count up
to their number can be negated. -/
theorem marks_spaced_iff (hloaded : t.tape.mountState ≠ .empty)
    (hfew : t.tape.filemarks.length < 2 ^ 63) : MarksSpaced t ↔
      t.tape.filemarks.Nodup ∧ ∀ m ∈ t.tape.filemarks, pointsAfter t.tape m ≠ [] :=
  ⟨fun h => ⟨h.nodup, h.points⟩, fun h => marksSpaced_of_nodup hloaded hfew h.1 h.2⟩

/-- A filemark, and the tape before it. -/
def oneMarkRewound : TapeWorld :=
  afterCommands .standard blankMounted [.writeFilemarks 1 none, .rewind]

/-- From the start of a tape with one filemark. -/
theorem marks_spaced_one_mark : MarksSpaced oneMarkRewound :=
  (marks_spaced_iff (t := oneMarkRewound) (by decide +kernel) (by decide +kernel)).mpr
    ⟨by decide +kernel, by decide +kernel⟩

/-- A filemark written over another one. -/
def twoMarks : TapeWorld :=
  afterCommands .standard oneMarkRewound [.writeFilemarks 1 none, .rewind]

/-- **Two filemarks at one position**: SPACE over both of them fails, and SPACE over one of them
raises the file number by two. -/
theorem space_over_two_marks : FreshMount .standard blankMounted ∧
    Run (ActionStep .standard) blankMounted
      [.command (.writeFilemarks 1 none), .command .rewind, .command (.writeFilemarks 1 none),
        .command .rewind] twoMarks ∧
    marksAhead twoMarks.tape twoMarks.tape.currentPosition = [0, 0] ∧
    (space .filemarks 2 twoMarks).1 = .error (.outOfRange "SPACE filemarks beyond EOD") ∧
    (space .filemarks 1 twoMarks).1 = .ok () ∧ fileNumber twoMarks.tape = 0 ∧
    fileNumber (space .filemarks 1 twoMarks).2.tape = 2 ∧ ¬ MarksSpaced twoMarks := by
  refine ⟨blankMounted_freshMount, run_afterCommands [.writeFilemarks 1 none, .rewind,
    .writeFilemarks 1 none, .rewind] (by decide +kernel), by decide +kernel, by decide +kernel,
    by decide +kernel, by decide +kernel, by decide +kernel, fun h => ?_⟩
  have hnodup := h.nodup
  exact absurd hnodup (by decide)

end Holo.Drive
