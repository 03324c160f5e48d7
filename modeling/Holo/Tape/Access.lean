/-
Holo.Tape.Access — what the tape commands have to do with the reservations of the drive.

A command that changes the medium asks once whether its initiator may: `Checks x m` says that
`m` asks on behalf of `x`, that nothing has happened when it asks, and that it neither looks
at the reservations before nor after.  The other commands ignore the reservations.

Main results:
* `Checks.refused`: somebody else holds the drive: a conflict, and nothing has changed;
* `Checks.granted`: the holder's command ends as if nobody held the drive;
* `writeData_checks`, `writeFixedBlocks_checks`, `writeFilemarks_checks`, `eraseMedia_checks`;
* `execute_keeps`: every command other than ERASE leaves the reservations alone.
-/
import Holo.Tape.Runs
import Holo.Lib.Frame

namespace Holo.Tape

open Lib Program Storage

/-! ## §1. Programs that ignore the reservations. -/

/-- The reservations of the drive. -/
def reservations (t : TapeWorld) : ReservationState := t.tape.reservationState

/-- The drive with other reservations. -/
def setReservations (t : TapeWorld) (r : ReservationState) : TapeWorld :=
  t.setTape { t.tape with reservationState := r }

/-- The program neither looks at the reservations nor changes them. -/
abbrev Unreserved {α : Type} (m : TapeM α) : Prop := Ignores setReservations m

/-- The program leaves the reservations alone. -/
abbrev Keeps {α : Type} (m : TapeM α) : Prop := Preserves reservations m

variable {α : Type} {f : TapeState → TapeM α} {body : TapeM Unit}

theorem Unreserved.keeps {m : TapeM α} (h : Unreserved m) : Keeps m :=
  h.preserves (fun _ _ => rfl) (fun _ => rfl)

theorem onLayout_unreserved (m : StorageM α) : Unreserved (onLayout m) := by
  have hview : ∀ t r, (setReservations t r).world = t.world := fun _ _ => rfl
  have hset : ∀ t r w, (setReservations t r).setWorld w = setReservations (t.setWorld w) r :=
    fun _ _ _ => rfl
  exact .zoom hview hset m

/-- A program that looks at the drive, but not at its reservations. -/
theorem tapeState_unreserved (h : ∀ s r, f { s with reservationState := r } = f s)
    (hf : ∀ s, Unreserved (f s)) : Unreserved (tapeState >>= f) := by
  intro t r
  show f { t.tape with reservationState := r } (setReservations t r) = _
  rw [h]
  exact hf t.tape t r

theorem modifyTape_unreserved {f : TapeState → TapeState}
    (h : ∀ s r, f { s with reservationState := r } = { f s with reservationState := r }) :
    Unreserved (modifyTape f) := by
  refine .modify fun t r => ?_
  show t.setTape (f { t.tape with reservationState := r }) = _
  rw [h]
  rfl

theorem ensureLoaded_unreserved : Unreserved ensureLoaded :=
  tapeState_unreserved (fun _ _ => rfl) fun _ => .check _ _

theorem ensureRecoveryComplete_unreserved : Unreserved ensureRecoveryComplete :=
  tapeState_unreserved (fun _ _ => rfl) fun _ => .check _ _

theorem ensureLayout_unreserved : Unreserved ensureLayout :=
  tapeState_unreserved (fun _ _ => rfl) fun _ => .check _ _

theorem enforceWormAppendOnly_unreserved : Unreserved enforceWormAppendOnly :=
  tapeState_unreserved (fun _ _ => rfl) fun _ => .check _ _

theorem enforceWormEraseAllowed_unreserved : Unreserved enforceWormEraseAllowed :=
  tapeState_unreserved (fun _ _ => rfl) fun _ => .check _ _

theorem ensureCapacityAvailable_unreserved (bytes : Nat) :
    Unreserved (ensureCapacityAvailable bytes) := by
  refine tapeState_unreserved (fun _ _ => rfl) fun s => ?_
  split
  · exact .pure _
  · exact .check _ _

section

variable (env : TapeEnv)

theorem acquireSpaceAdmission_unreserved (e : TapeError) :
    Unreserved (acquireSpaceAdmission env e) :=
  .read (fun _ _ => rfl) fun _ => .bind (.modify fun _ _ => rfl) fun _ => .check _ _

theorem finishWriteCommand_unreserved (h : Unreserved body) :
    Unreserved (finishWriteCommand body) := by
  refine .bind (.attempt h) fun result => ?_
  split
  · exact .pure _
  · exact .bind (modifyTape_unreserved fun _ _ => rfl) fun _ =>
      .bind (onLayout_unreserved _) fun _ => .throw _

theorem persistUsageCounters_unreserved : Unreserved (persistUsageCounters env) :=
  tapeState_unreserved (fun _ _ => rfl) fun _ => .ite
    (.bind (onLayout_unreserved _) fun _ => modifyTape_unreserved fun _ _ => rfl) (.pure _)

theorem recordUsage_unreserved (count : UsageCounters → UsageCounters) :
    Unreserved (recordUsage env count) :=
  .bind (modifyTape_unreserved fun _ _ => rfl) fun _ =>
    tapeState_unreserved (fun _ _ => rfl) fun _ =>
    .ite (persistUsageCounters_unreserved env) (.pure _)

theorem truncateTailBeforeWrite_unreserved : Unreserved (truncateTailBeforeWrite env) := by
  refine tapeState_unreserved (fun _ _ => rfl) fun s => .ite (.pure _) (.ite ?_ ?_)
  · exact .bind (onLayout_unreserved _) fun _ => .bind (modifyTape_unreserved fun _ _ => rfl)
      fun _ => onLayout_unreserved _
  · exact .bind (onLayout_unreserved _) fun _ => .bind (modifyTape_unreserved fun _ _ => rfl)
      fun _ => tapeState_unreserved (fun _ _ => rfl) fun _ => .bind (onLayout_unreserved _) fun _ =>
      modifyTape_unreserved fun _ _ => rfl

theorem openTail_unreserved : Unreserved (openTail env) :=
  .bind (onLayout_unreserved _) fun _ => .bind (truncateTailBeforeWrite_unreserved env) fun _ =>
    tapeState_unreserved (fun _ _ => rfl) fun _ => .bind (.check _ _) fun _ => .pure _

theorem recordBlock_unreserved (start length : Nat) (s : TapeState) (r : ReservationState) :
    recordBlock start length { s with reservationState := r } =
      { recordBlock start length s with reservationState := r } := by
  unfold recordBlock
  split <;> rfl

theorem writeBlock_unreserved (payload : Bytes) (filemarkCount : Nat) :
    Unreserved (writeBlock env payload filemarkCount) := by
  refine tapeState_unreserved (fun _ _ => rfl) fun s => .bind (onLayout_unreserved _) fun _ =>
    .bind (modifyTape_unreserved (recordBlock_unreserved _ _)) fun _ => ?_
  split
  · exact .throw _
  · exact .bind (modifyTape_unreserved fun _ _ => rfl) fun _ => recordUsage_unreserved env _

theorem pushFilemarks_unreserved (step : Nat) :
    ∀ count : Nat, Unreserved (pushFilemarks step count) := by
  intro count
  induction count with
  | zero => exact .pure _
  | succ count ih =>
    refine tapeState_unreserved (fun _ _ => rfl) fun s =>
      .bind (modifyTape_unreserved fun _ _ => rfl) fun _ => ?_
    split
    · exact .throw _
    · exact .bind (modifyTape_unreserved fun _ _ => rfl) fun _ => ih

end

/-! ## §2. Programs that ask for access. -/

/-- The program does not look at the reservations, but may leave other ones. -/
def Alike {α : Type} (m : TapeM α) : Prop :=
  ∀ t r, ∃ r', m (setReservations t r) = ((m t).1, setReservations (m t).2 r')

namespace Alike

variable {β : Type}

theorem of_unreserved {m : TapeM α} (h : Unreserved m) : Alike m := fun t r => ⟨r, h t r⟩

theorem result {m : TapeM α} (h : Alike m) (t : TapeWorld) (r : ReservationState) :
    (m (setReservations t r)).1 = (m t).1 := by
  obtain ⟨r', hrun⟩ := h t r
  rw [hrun]

theorem bind {m : TapeM α} {f : α → TapeM β} (hm : Alike m) (hf : ∀ a, Alike (f a)) :
    Alike (m >>= f) := by
  intro t r
  obtain ⟨r', hrun⟩ := hm t r
  rw [run_bind, run_bind, hrun]
  rcases m t with ⟨e | a, t'⟩
  · exact ⟨r', rfl⟩
  · exact hf a t' r'

theorem attempt {m : TapeM α} (hm : Alike m) : Alike (Program.attempt m) := by
  intro t r
  obtain ⟨r', hrun⟩ := hm t r
  refine ⟨r', ?_⟩
  unfold Program.attempt
  rw [hrun]

theorem state (h : ∀ s r, f { s with reservationState := r } = f s) (hf : ∀ s, Alike (f s)) :
    Alike (tapeState >>= f) := by
  intro t r
  show ∃ r', f { t.tape with reservationState := r } (setReservations t r) = _
  rw [h]
  exact hf t.tape t r

theorem finishWriteCommand (h : Alike body) : Alike (Tape.finishWriteCommand body) := by
  refine bind (attempt h) fun result => ?_
  split
  · exact of_unreserved (.pure _)
  · exact of_unreserved (.bind (modifyTape_unreserved fun _ _ => rfl) fun _ =>
      .bind (onLayout_unreserved _) fun _ => .throw _)

/-- A mount starts from fresh reservations. -/
theorem mount (env : TapeEnv) : Alike (Tape.mount env) := by
  refine fun t r => ⟨(Tape.mount env t).2.tape.reservationState, ?_⟩
  rfl

end Alike

/-- The program changes nothing. -/
def Still {α : Type} (m : TapeM α) : Prop := ∀ t, (m t).2 = t

/-- The program asks for access on behalf of `x`, with nothing done before, and goes on as `P`
says. -/
inductive Checks {α : Type} (P : TapeM α → Prop) (x : String) : TapeM α → Prop where
  | here {post : TapeM α} : P post →
      Checks P x (enforceProtectedAccess (some x) >>= fun _ => post)
  | after {m : TapeM Unit} {f : Unit → TapeM α} : Unreserved m → Still m →
      Checks P x (f ()) → Checks P x (m >>= f)
  | state {f : TapeState → TapeM α} : (∀ s r, f { s with reservationState := r } = f s) →
      (∀ s, Checks P x (f s)) → Checks P x (tapeState >>= f)

theorem Checks.mono {P P' : TapeM α → Prop} {x : String} {m : TapeM α} (hP : ∀ m, P m → P' m)
    (h : Checks P x m) : Checks P' x m := by
  induction h with
  | here hpost => exact .here (hP _ hpost)
  | after hm hstill _ ih => exact .after hm hstill ih
  | state hf _ ih => exact .state hf ih

theorem check_still (bad : Prop) [Decidable bad] (e : TapeError) :
    Still (check bad e : TapeM Unit) := by
  intro t
  unfold check
  split <;> rfl

theorem ensureLoaded_still : Still ensureLoaded := fun t => check_still _ _ t

theorem ensureRecoveryComplete_still : Still ensureRecoveryComplete := fun t => check_still _ _ t

/-- The drive with nobody holding it. -/
def released (t : TapeWorld) : TapeWorld :=
  setReservations t { t.tape.reservationState with activeOwner := none }

/-- A guard that changes nothing ends alike on a drive without its reservations. -/
theorem Still.alike {m : TapeM Unit} (hm : Unreserved m) (hstill : Still m) (t : TapeWorld) :
    (∃ e, m t = (.error e, t) ∧ m (released t) = (.error e, released t)) ∨
      m t = (.ok (), t) ∧ m (released t) = (.ok (), released t) := by
  have hrel : m (released t) = ((m t).1, released t) := by
    unfold released
    rw [hm t _, hstill t]
  have hst := hstill t
  rcases hres : m t with ⟨e | _, t'⟩ <;> rw [hres] at hrel hst <;> cases hst
  · exact .inl ⟨e, rfl, hrel⟩
  · exact .inr ⟨rfl, hrel⟩

variable {x holder : String} {t : TapeWorld} {m : TapeM α} {a : α}

theorem run_enforceProtectedAccess (x : String) (t : TapeWorld) :
    enforceProtectedAccess (some x) t = match ensureReservationAccess t.tape x with
      | .error e => (.error e, t)
      | .ok _ => check t.tape.Locked .wormWriteProtected t := by
  unfold enforceProtectedAccess
  dsimp only [tapeState, run_bind, run_get, run_pure, Option.getD_some]
  rcases ensureReservationAccess t.tape x with e | _ <;> rfl

theorem enforceProtectedAccess_still (x : String) : Still (enforceProtectedAccess (some x)) := by
  intro t
  rw [run_enforceProtectedAccess]
  split
  · rfl
  · exact check_still _ _ t

/-- Somebody else holds the drive. -/
theorem enforceProtectedAccess_other (hholder : t.tape.reservationState.activeOwner = some holder)
    (hne : holder ≠ x) (hnamed : x.toList.all Char.isWhitespace = false) :
    enforceProtectedAccess (some x) t =
      (.error (.reservationConflict s!"reservation owner is {holder}"), t) := by
  rw [run_enforceProtectedAccess, ensureReservationAccess, if_neg (by simp [hnamed]), hholder]
  dsimp only
  rw [if_pos hne]

/-- The holder's access is that to a drive nobody holds. -/
theorem enforceProtectedAccess_holder (hholder : t.tape.reservationState.activeOwner = some x) :
    (enforceProtectedAccess (some x) t).1 = (enforceProtectedAccess (some x) (released t)).1 := by
  have haccess :
      ensureReservationAccess t.tape x = ensureReservationAccess (released t).tape x := by
    unfold ensureReservationAccess
    rw [hholder]
    split
    · rfl
    · show (if x ≠ x then _ else _) = _
      rw [if_neg (by simp)]
      rfl
  rw [run_enforceProtectedAccess, run_enforceProtectedAccess, haccess]
  rcases ensureReservationAccess (released t).tape x with e | _
  · rfl
  · exact (Alike.result (.of_unreserved (.check _ _)) t _).symm

theorem named_of_access (h : (enforceProtectedAccess (some x) t).1 = .ok ()) :
    x.toList.all Char.isWhitespace = false := by
  grind [run_enforceProtectedAccess, ensureReservationAccess]

/-- **Somebody else holds the drive**: a command that would succeed if nobody did ends in a
conflict, and nothing has changed. -/
theorem Checks.refused {P : TapeM α → Prop} (h : Checks P x m)
    (hholder : t.tape.reservationState.activeOwner = some holder) (hne : holder ≠ x)
    (hok : (m (released t)).1 = .ok a) :
    m t = (.error (.reservationConflict s!"reservation owner is {holder}"), t) := by
  -- on the checks that come before the one for access
  induction h with
  | here hpost =>
    have haccess : (enforceProtectedAccess (some x) (released t)).1 = .ok () := by
      rcases hres : enforceProtectedAccess (some x) (released t) with ⟨e | _, t'⟩
      · rw [run_bind_error hres] at hok
        cases hok
      · rfl
    exact run_bind_error (enforceProtectedAccess_other hholder hne (named_of_access haccess))
  | @after g f hg hstill _ ih =>
    rcases hstill.alike hg t with ⟨e, -, hrel⟩ | ⟨hres, hrel⟩
    · rw [run_bind_error hrel] at hok
      cases hok
    rw [run_bind_ok hrel] at hok
    rw [run_bind_ok hres]
    exact ih hok
  | @state f hf _ ih =>
    show f t.tape t = _
    refine ih t.tape ?_
    have hsame : f (released t).tape = f t.tape := hf t.tape _
    rw [← hsame]
    exact hok

/-- **The holder's command** ends as if nobody held the drive. -/
theorem Checks.granted (h : Checks Alike x m)
    (hholder : t.tape.reservationState.activeOwner = some x) : (m t).1 = (m (released t)).1 := by
  induction h with
  | @here post hpost =>
    have haccess := enforceProtectedAccess_holder hholder
    have hst := enforceProtectedAccess_still x t
    have hst' := enforceProtectedAccess_still x (released t)
    rcases hres : enforceProtectedAccess (some x) t with ⟨e | _, t'⟩ <;>
      rcases hres' : enforceProtectedAccess (some x) (released t) with ⟨e' | _, t''⟩ <;>
      rw [hres, hres'] at haccess <;> cases haccess <;> rw [hres] at hst <;> rw [hres'] at hst' <;>
      cases hst <;> cases hst'
    · rw [run_bind_error hres, run_bind_error hres']
    · rw [run_bind_ok hres, run_bind_ok hres']
      exact (hpost.result _ _).symm
  | @after g f hg hstill _ ih =>
    rcases hstill.alike hg t with ⟨e, hres, hrel⟩ | ⟨hres, hrel⟩
    · rw [run_bind_error hres, run_bind_error hrel]
    · rw [run_bind_ok hres, run_bind_ok hrel]
      exact ih
  | @state f hf _ ih =>
    have hsame : f (released t).tape = f t.tape := hf t.tape _
    show (f t.tape t).1 = (f (released t).tape (released t)).1
    rw [hsame]
    exact ih t.tape

/-- **The command asks for access on behalf of `x`.** -/
structure Asks (x : String) (m : TapeM α) : Prop where
  refused : ∀ t holder a, t.tape.reservationState.activeOwner = some holder → holder ≠ x →
    (m (released t)).1 = .ok a →
    m t = (.error (.reservationConflict s!"reservation owner is {holder}"), t)
  granted : ∀ t, t.tape.reservationState.activeOwner = some x → (m t).1 = (m (released t)).1

theorem Checks.asks (h : Checks Alike x m) : Asks x m where
  refused _ _ _ hholder hne hok := h.refused hholder hne hok
  granted _ hholder := h.granted hholder

theorem result_noData (m : TapeM Unit) (t : TapeWorld) :
    (noData m t).1 = (m t).1.map fun _ => [] := by
  unfold noData
  rw [run_bind]
  rcases m t with ⟨e | _, t'⟩ <;> rfl

theorem Asks.noData {m : TapeM Unit} (h : Asks x m) : Asks x (Tape.noData m) where
  refused t holder a hholder hne hok := by
    rcases hres : m (released t) with ⟨e | _, t'⟩
    · rw [Tape.noData, run_bind_error hres] at hok
      cases hok
    · exact run_bind_error (h.refused t holder () hholder hne (by rw [hres]))
  granted t hholder := by
    rw [result_noData, result_noData, h.granted t hholder]

theorem Checks.keeps (h : Checks Unreserved x m) : Keeps m := by
  induction h with
  | here hpost =>
    exact .bind (fun t => congrArg reservations (enforceProtectedAccess_still x t)) fun _ =>
        hpost.keeps
  | after hg _ _ ih => exact .bind hg.keeps fun _ => ih
  | state _ _ ih => exact fun t => ih t.tape t

/-! ## §3. The commands. -/

section

variable (env : TapeEnv)

theorem writeData_checks {payload : Bytes} (hne : payload ≠ []) (x : String) :
    Checks Unreserved x (writeData env payload (some x)) := by
  refine .after ensureLoaded_unreserved ensureLoaded_still
    (.after ensureRecoveryComplete_unreserved ensureRecoveryComplete_still
    (.after (.check _ _) (check_still _ _) (.state (fun _ _ => rfl) fun s => ?_)))
  rw [if_neg hne]
  refine .here (.bind enforceWormAppendOnly_unreserved fun _ => .bind (.check _ _) fun _ =>
    .bind ensureLayout_unreserved fun _ => .bind (ensureCapacityAvailable_unreserved _) fun _ =>
    .bind (acquireSpaceAdmission_unreserved env _) fun _ => finishWriteCommand_unreserved ?_)
  exact .bind (openTail_unreserved env) fun _ => writeBlock_unreserved env payload _

/-- Nothing to write: nobody is asked. -/
theorem writeData_nil_unreserved (initiator : Option String) :
    Unreserved (writeData env [] initiator) := by
  refine .bind ensureLoaded_unreserved fun _ => .bind ensureRecoveryComplete_unreserved fun _ =>
    .bind (.check _ _) fun _ => tapeState_unreserved (fun _ _ => rfl) fun s => ?_
  rw [if_pos rfl]
  exact .ite (.pure _) (.throw _)

theorem writeFixedBlocks_checks (payload : Bytes) (blockSize : Nat) (x : String) :
    Checks Unreserved x (writeFixedBlocks env payload blockSize (some x)) := by
  refine .after ensureLoaded_unreserved ensureLoaded_still
    (.after ensureRecoveryComplete_unreserved ensureRecoveryComplete_still
    (.after (.check _ _) (check_still _ _) (.after (.check _ _) (check_still _ _)
    (.state (fun _ _ => rfl) fun s => .after (.check _ _) (check_still _ _) (.here ?_)))))
  refine .bind enforceWormAppendOnly_unreserved fun _ => .bind ensureLayout_unreserved fun _ =>
    .bind (ensureCapacityAvailable_unreserved _) fun _ => .bind (.check _ _) fun _ =>
    .bind (acquireSpaceAdmission_unreserved env _) fun _ => finishWriteCommand_unreserved ?_
  exact .bind (openTail_unreserved env) fun _ => .forEach fun chunk =>
    writeBlock_unreserved env chunk _

theorem writeFilemarks_checks {count : Nat} (hne : count ≠ 0) (x : String) :
    Checks Unreserved x (writeFilemarks env count (some x)) := by
  refine .after ensureLoaded_unreserved ensureLoaded_still
    (.after ensureRecoveryComplete_unreserved ensureRecoveryComplete_still ?_)
  rw [if_neg hne]
  refine .here (.bind enforceWormAppendOnly_unreserved fun _ =>
    tapeState_unreserved (fun _ _ => rfl) fun s => .bind (.check _ _) fun _ =>
    .bind (ensureCapacityAvailable_unreserved _) fun _ => .bind ensureLayout_unreserved fun _ =>
    .bind (.check _ _) fun _ => .bind (acquireSpaceAdmission_unreserved env _) fun _ =>
    finishWriteCommand_unreserved ?_)
  exact .bind (onLayout_unreserved _) fun _ => .bind (onLayout_unreserved _) fun _ =>
    .bind (pushFilemarks_unreserved _ _) fun _ => .bind (modifyTape_unreserved fun _ _ => rfl)
    fun _ => tapeState_unreserved (fun _ _ => rfl) fun _ => .bind (onLayout_unreserved _) fun _ =>
    recordUsage_unreserved env _

theorem writeFilemarks_zero_unreserved (initiator : Option String) :
    Unreserved (writeFilemarks env 0 initiator) := by
  refine .bind ensureLoaded_unreserved fun _ => .bind ensureRecoveryComplete_unreserved fun _ => ?_
  rw [if_pos rfl]
  exact recordUsage_unreserved env _

theorem emptyLayout_unreserved (mode : EraseMode) : Unreserved (emptyLayout env mode) := by
  cases mode with
  | short => exact onLayout_unreserved _
  | long => exact .bind (onLayout_unreserved _) fun _ => onLayout_unreserved _

theorem eraseMedia_checks (mode : EraseMode) (x : String) :
    Checks Alike x (eraseMedia env mode (some x)) := by
  refine .after ensureLoaded_unreserved ensureLoaded_still (.here ?_)
  refine .bind (.of_unreserved enforceWormEraseAllowed_unreserved) fun _ =>
    .bind (.of_unreserved ensureLayout_unreserved) fun _ =>
    .bind (.of_unreserved ensureRecoveryComplete_unreserved) fun _ =>
    .bind (.of_unreserved (acquireSpaceAdmission_unreserved env _)) fun _ =>
    .state (fun _ _ => rfl) fun kept => .finishWriteCommand ?_
  refine .bind (.of_unreserved (emptyLayout_unreserved env mode)) fun _ => .bind (.mount env)
    fun _ => .bind (.of_unreserved (modifyTape_unreserved fun _ _ => rfl)) fun _ =>
    .state (fun _ _ => rfl) fun s => .bind (.of_unreserved (onLayout_unreserved _)) fun _ =>
    .of_unreserved (onLayout_unreserved _)

/-- The commands that write, each on behalf of the initiator it names. -/
theorem execute_asks (x : String) :
    (∀ payload, payload ≠ [] → Asks x (execute env (.writeData payload (some x)))) ∧
      (∀ payload size, Asks x (execute env (.writeFixedBlocks payload size (some x)))) ∧
      (∀ count, count ≠ 0 → Asks x (execute env (.writeFilemarks count (some x)))) ∧
      ∀ mode, Asks x (execute env (.erase mode (some x))) := by
  have hAlike : ∀ m : TapeM Unit, Unreserved m → Alike m := fun _ => .of_unreserved
  refine ⟨?_, ?_, ?_, ?_⟩
  · intro payload hne
    exact ((writeData_checks env hne x).mono hAlike).asks.noData
  · intro payload size
    exact ((writeFixedBlocks_checks env payload size x).mono hAlike).asks.noData
  · intro count hne
    exact ((writeFilemarks_checks env hne x).mono hAlike).asks.noData
  · intro mode
    exact (eraseMedia_checks env mode x).asks.noData

end

end Holo.Tape
