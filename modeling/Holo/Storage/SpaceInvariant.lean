/-
Holo.Storage.SpaceInvariant — what changes of files and phases keep.

A change of the reservation files can only harm the margin by promising more, and an admission
in progress by taking away what it has yet to count (`NoWorse`).  A reservation given up is
harmless if it was not used, or not to be counted any more.

Main results:
* `GivesUp.noWorse`: reservations given up;
* `GuardInv.relock`: a writer goes on, with the lock or without;
* `GuardInv.unlock`: writers lose their locks;
* `GuardInv.removeFile`: a file is removed;
* `GuardInv.changeFile`: a writer changes its file.
-/
import Holo.Storage.SpaceGuard

namespace Holo.Storage.Space

open Function Lib Storage

variable {W : Type}
variable {w' : W} {files : Nat → Option (Reservation W)}

/-! ## §1. Files that change. -/

/-- Some files are given up: removed, or no longer locked. -/
structure GivesUp (q : Nat → Prop) (s s' : GuardState W) : Prop where
  free : s'.free = s.free
  nextId : s'.nextId = s.nextId
  files : ∀ i, s'.files i = s.files i ∨ ∃ r, s.files i = some r ∧
    (s'.files i = none ∨ s'.files i = some { r with owner := none }) ∧
    (r.owner.isSome = true → q i → r.consumed = 0)

variable {s s' : GuardState W} {q : Nat → Prop} {careful : Prop}

theorem rest_le_held (r : Reservation W) : r.rest ≤ r.held := by
  unfold Reservation.rest Reservation.held
  split
  · exact Nat.sub_le _ _
  · exact le_rfl

theorem GuardState.promised_le_heldBy (s : GuardState W) : s.promised ≤ s.heldBy fun _ => true :=
  amountBelow_mono fun i _ => by
    cases s.files i with
    | none => exact le_rfl
    | some r => exact rest_le_held r

/-- Giving up does not promise more. -/
theorem GivesUp.promised_le (h : GivesUp q s s') : s'.promised ≤ s.promised := by
  unfold GuardState.promised
  rw [h.nextId]
  refine amountBelow_mono fun i _ => ?_
  rcases h.files i with hsame | ⟨r, hr, hnew, -⟩
  · rw [hsame]
  rcases hnew with hnone | hsome
  · rw [hnone]
    exact Nat.zero_le _
  · rw [hsome]
    exact Nat.zero_le _

/-- What is given up among files that were not used was promised in full. -/
theorem GivesUp.promised_add_heldBy (h : GivesUp q s s') {f : Nat → Bool}
    (hq : ∀ i, f i = true → q i) : s'.promised + s.heldBy f ≤ s.promised + s'.heldBy f := by
  unfold GuardState.promised GuardState.heldBy
  rw [h.nextId]
  refine amountBelow_add_le fun i _ => ?_
  rcases h.files i with hsame | ⟨r, hr, hnew, hunused⟩
  · rw [hsame]
  -- a file that counts no more: it was not locked, or not used, or is not among these
  have hgone : amountOf (fun _ r => Reservation.rest r) i (s'.files i) = 0 := by
    rcases hnew with hnone | hsome
    · rw [hnone]
      rfl
    · rw [hsome]
      rfl
  have hle : (if f i = true then r.held else 0) ≤ r.rest := by
    by_cases hf : f i = true
    · grind [Reservation.held, Reservation.rest]
    · rw [if_neg hf]
      exact Nat.zero_le _
  rw [hgone, hr, amountOf_some, amountOf_some]
  omega

/-- Nothing got worse: for the margin, nor for who has still to scan these files. -/
structure NoWorse (q : Nat → Prop) (s s' : GuardState W) : Prop where
  margin : s'.promised + s.free ≤ s.promised + s'.free
  counted : ∀ f : Nat → Bool, (∀ i, f i = true → q i) →
    s'.promised + s.free + s.heldBy f ≤ s.promised + s'.free + s'.heldBy f

theorem GivesUp.noWorse (h : GivesUp q s s') : NoWorse q s s' := by
  have hle := h.promised_le
  refine ⟨by rw [h.free]; omega, fun f hf => ?_⟩
  have hboth := h.promised_add_heldBy hf
  rw [h.free]
  omega

theorem noWorse_of_same (hfiles : s'.files = s.files) (hid : s'.nextId = s.nextId)
    (hfree : s.free ≤ s'.free) : NoWorse q s s' := by
  have hp : s'.promised = s.promised := by
    unfold GuardState.promised
    rw [hfiles, hid]
  have hh : ∀ f, s'.heldBy f = s.heldBy f := by
    intro f
    unfold GuardState.heldBy
    rw [hfiles, hid]
  refine ⟨by rw [hp]; omega, fun f _ => ?_⟩
  rw [hp, hh]
  omega

variable {ph : Phase}

theorem NoWorse.snapshot (h : NoWorse (fun i => ph.Pending i) s s') (hs : s.Snapshot ph) :
    s'.Snapshot ph := by
  have hm := h.margin
  cases ph with
  | probed peak available =>
    have hc := h.counted (fun _ => true) (fun _ _ => trivial)
    unfold GuardState.Snapshot at hs ⊢
    omega
  | scanning peak available todo counted inFlight =>
    have hc := h.counted (fun i => decide (i ∈ todo)) (fun i hi => show i ∈ todo by simpa using hi)
    obtain ⟨hnodup, hle⟩ := hs
    refine ⟨hnodup, ?_⟩
    omega
  | cleared peak | created peak id | held peak id =>
    unfold GuardState.Snapshot at hs ⊢
    omega
  | _ => trivial

theorem NoWorse.keeps_margin (h : NoWorse q s s') (hm : s.Margin) : s'.Margin := by
  have hle := h.margin
  unfold GuardState.Margin at hm ⊢
  omega

section

variable (careful : Prop) (s s' : GuardState W)

/-- The invariant holds of the next state, and where writers are careful the margin is kept. -/
def Safe : Prop :=
  GuardInv careful s' ∧ (careful → s.Margin → s'.Margin)

/-- The invariant holds of the next state, and where writers are careful nothing got worse. -/
def Harmless : Prop :=
  GuardInv careful s' ∧ (careful → NoWorse s.Unscanned s s')

end

theorem Harmless.safe (h : Harmless careful s s') : Safe careful s s' :=
  ⟨h.1, fun hcareful => (h.2 hcareful).keeps_margin⟩

theorem NoWorse.imp {q' : Nat → Prop} (h : NoWorse q s s') (himp : ∀ i, q' i → q i) :
    NoWorse q' s s' := ⟨h.margin, fun f hf => h.counted f fun i hi => himp i (hf i hi)⟩

/-! ## §2. Writers that go on. -/

variable {w : W} {files' : Nat → Option (Reservation W)} {r' : Reservation W} {phase : W → Phase}

theorem GuardInv.admitting_unique (h : GuardInv careful s) (hw : (s.phase w).Admitting)
    (hw' : (s.phase w').Admitting) : w' = w := by
  have heq := (h.lock w hw).symm.trans (h.lock w' hw')
  exact (Option.some.inj heq).symm

theorem snapshot_of_not_admitting (h : ¬ ph.Admitting) : s.Snapshot ph := by
  cases ph with
  | idle | admitted id | dead => trivial
  | _ => exact absurd trivial h

variable {who : W → Bool} {i : Nat}

theorem GuardInv.others_not_admitting (h : GuardInv careful s) (hw : (s.phase w).Admitting) :
    ∀ w', w' ≠ w → ¬ (s.phase w').Admitting :=
  fun _ hne hw' => hne (h.admitting_unique hw hw')

/-- The phase of a writer that has lost its locks. -/
def Phase.Off (ph : Phase) : Prop := ph = .idle ∨ ph = .dead

theorem Phase.Off.not_admitting (h : ph.Off) : ¬ ph.Admitting := by
  rcases h with rfl | rfl
  · exact id
  · exact id

theorem fileOf_off (h : ph.Off) : FileOf files w ph := by
  rcases h with rfl | rfl
  · exact trivial
  · exact trivial

/-- The files of a writer stay if what the file says stays. -/
theorem fileOf_congr (h : FileOf files w ph)
    (hk : ∀ i r, ph.HasFile i → files i = some r → r.owner = none ∨ r.owner = some w →
      ∃ r', files' i = some r' ∧ r'.owner = r.owner ∧ r'.content = r.content) :
    FileOf files' w ph := by
  cases ph with
  | created peak i =>
    obtain ⟨r, hr, hown, hcon⟩ := h
    obtain ⟨r', hr', hown', hcon'⟩ := hk i r rfl hr (.inl hown)
    exact ⟨r', hr', hown'.trans hown, hcon'.trans hcon⟩
  | held peak i =>
    obtain ⟨r, hr, hown, hcon⟩ := h
    obtain ⟨r', hr', hown', hcon'⟩ := hk i r rfl hr (.inr hown)
    exact ⟨r', hr', hown'.trans hown, hcon'.trans hcon⟩
  | written i | admitted i =>
    obtain ⟨r, hr, hown⟩ := h
    obtain ⟨r', hr', hown', -⟩ := hk i r rfl hr (.inr hown)
    exact ⟨r', hr', hown'.trans hown⟩
  | _ => trivial

theorem files_unlock (h : (s.unlock who).files i = some r') :
    ∃ r, s.files i = some r ∧ (r' = r ∧ (∀ w, r.owner = some w → who w = false) ∨
        r' = { r with owner := none } ∧ ∃ w, r.owner = some w ∧ who w = true) := by
  obtain ⟨r, hr, hmap⟩ := Option.map_eq_some_iff.mp h
  refine ⟨r, hr, ?_⟩
  cases hown : r.owner with
  | none =>
    rw [hown] at hmap
    exact .inl ⟨hmap.symm, fun w hw => absurd hw (by simp)⟩
  | some w =>
    grind

theorem Phase.Owns.hasFile (h : ph.Owns i) : ph.HasFile i := by
  cases ph with
  | held peak j | written j | admitted j => exact h
  | _ => exact h.elim

theorem Phase.HasFile.eq {i j : Nat} (hi : ph.HasFile i) (hj : ph.HasFile j) : i = j := by
  cases ph with
  | created peak k | held peak k | written k | admitted k => exact (Eq.symm hi).trans hj
  | _ => exact hi.elim

theorem FileOf.hasFile (h : FileOf files w ph) (hw : ph.HasFile i) :
    ∃ r, files i = some r ∧ (r.owner = some w ∨ r.owner = none ∧ ph.Admitting) := by
  cases ph with
  | created peak j =>
    obtain rfl : j = i := hw
    obtain ⟨r, hr, howner, -⟩ := h
    exact ⟨r, hr, .inr ⟨howner, trivial⟩⟩
  | held peak j =>
    obtain rfl : j = i := hw
    obtain ⟨r, hr, howner, -⟩ := h
    exact ⟨r, hr, .inl howner⟩
  | written j | admitted j =>
    obtain rfl : j = i := hw
    obtain ⟨r, hr, howner⟩ := h
    exact ⟨r, hr, .inl howner⟩
  | _ => exact hw.elim

/-- The file of a writer is there; it is locked, or the writer is about to lock it. -/
theorem GuardInv.hasFile (h : GuardInv careful s) (hw : (s.phase w).HasFile i) :
    ∃ r, s.files i = some r ∧ (r.owner = some w ∨ r.owner = none ∧ (s.phase w).Admitting) :=
  FileOf.hasFile (h.file w) hw

theorem GuardInv.hasFile_unique (h : GuardInv careful s) (hw : (s.phase w).HasFile i)
    (hw' : (s.phase w').HasFile i) : w' = w := by
  obtain ⟨r, hr, howner⟩ := h.hasFile hw
  obtain ⟨r', hr', howner'⟩ := h.hasFile hw'
  rw [hr] at hr'
  cases hr'
  rcases howner with hsome | ⟨hnone, hadm⟩
  · grind
  · rcases howner' with hsome' | ⟨-, hadm'⟩
    · rw [hnone] at hsome'
      cases hsome'
    · exact h.admitting_unique hadm hadm'

theorem promised_setFile (hi : i < s.nextId) (file : Option (Reservation W)) :
    (s.setFile i file).promised + amountOf (fun _ r => r.rest) i (s.files i) =
      s.promised + amountOf (fun _ r => r.rest) i file :=
  amountBelow_update _ _ hi _

theorem heldBy_setFile (hi : i < s.nextId) (file : Option (Reservation W)) (f : Nat → Bool) :
    (s.setFile i file).heldBy f +
        amountOf (fun j r => if f j = true then r.held else 0) i (s.files i) =
      s.heldBy f + amountOf (fun j r => if f j = true then r.held else 0) i file :=
  amountBelow_update _ _ hi _

/-- A file that is not written reserves nothing. -/
theorem Reservation.rest_of_unwritten {r : Reservation W} (h : r.content = none) : r.rest = 0 := by
  unfold Reservation.rest
  rw [h, Option.getD_none, Nat.zero_sub, ite_self]

/-- A file is scanned: it counts among the rest no more. -/
theorem heldBy_cons_le (i : Nat) (todo : List Nat) : (s.heldBy fun j => decide (j ∈ i :: todo)) ≤
      amountOf (fun _ r => r.held) i (s.files i) + s.heldBy fun j => decide (j ∈ todo) := by
  refine (amountBelow_le_add i fun j _ hne => ?_).trans (Nat.add_le_add_right ?_ _)
  · grind [amountOf]
  · cases s.files i with
    | none => exact le_rfl
    | some r => simp

/-! ## §3. Changes. -/

theorem givesUp_unlock
    (hunused : ∀ i r w, s.files i = some r → r.owner = some w → who w = true → q i →
      r.consumed = 0) : GivesUp q s (s.unlock who) := by
  refine ⟨rfl, rfl, fun i => ?_⟩
  cases hnew : (s.unlock who).files i with
  | none =>
    refine .inl (Eq.symm ?_)
    exact Option.map_eq_none_iff.mp hnew
  | some r' =>
    obtain ⟨r, hr, ⟨rfl, -⟩ | ⟨rfl, w, hw, hwho⟩⟩ := files_unlock hnew
    · exact .inl hr.symm
    · exact .inr ⟨r, hr, .inr rfl, fun _ hq => hunused i r w hr hw hwho hq⟩

/-- **Some writers lose their locks**: an admission fails, or a process dies. -/
theorem GuardInv.unlock (h : GuardInv careful s) (hoff : ∀ w, who w = true → (phase w).Off)
    (hon : ∀ w, who w = false → phase w = s.phase w)
    (hunused : careful → ∀ i r w, s.files i = some r → r.owner = some w → who w = true →
      s.Unscanned i → r.consumed = 0) :
    Harmless careful s { s.unlock who with phase := phase } := by
  -- what the files promise can only shrink; the writers that stay keep their files and phases
  have hworse : careful → NoWorse s.Unscanned s { s.unlock who with phase := phase } := by
    intro hcareful
    have hg := (givesUp_unlock (hunused hcareful)).noWorse
    exact ⟨hg.margin, hg.counted⟩
  have hstays : ∀ w, ¬ (phase w).Off → who w = false ∧ phase w = s.phase w := by
    intro w hw
    have hno : who w = false := Bool.eq_false_iff.mpr fun hyes => hw (hoff w hyes)
    exact ⟨hno, hon w hno⟩
  refine ⟨?_, hworse⟩
  constructor
  case ids =>
    intro i r' hr'
    obtain ⟨r, hr, -⟩ := files_unlock hr'
    exact h.ids i r hr
  case owner =>
    intro i r' w hr' howner
    obtain ⟨r, hr, ⟨rfl, hno⟩ | ⟨rfl, -⟩⟩ := files_unlock hr'
    · show (phase w).Owns i
      rw [hon w (hno w howner)]
      exact h.owner i r' w hr howner
    · cases howner
  case file =>
    intro w
    show FileOf (s.unlock who).files w (phase w)
    by_cases hw : (phase w).Off
    · exact fileOf_off hw
    obtain ⟨hno, hsame⟩ := hstays w hw
    rw [hsame]
    refine fileOf_congr (h.file w) fun i r _ hr howner => ⟨r, ?_, rfl, rfl⟩
    show (s.files i).map _ = some r
    grind
  case consumed =>
    intro i r' hr'
    obtain ⟨r, hr, ⟨rfl, -⟩ | ⟨rfl, -⟩⟩ := files_unlock hr'
    · exact h.consumed i r' hr
    · exact h.consumed i r hr
  case lock =>
    intro w hadm
    have hadm : (phase w).Admitting := hadm
    obtain ⟨hno, hsame⟩ := hstays w fun hw => hw.not_admitting hadm
    rw [hsame] at hadm
    show s.lock.filter _ = some w
    rw [h.lock w hadm]
    simp [hno]
  case holder =>
    intro w hlock
    obtain ⟨hsome, hno⟩ := Option.filter_eq_some_iff.mp hlock
    simp_all [h.holder]
  case snapshot =>
    intro hcareful w
    show GuardState.Snapshot _ (phase w)
    by_cases hw : (phase w).Off
    · exact snapshot_of_not_admitting hw.not_admitting
    · obtain ⟨-, hsame⟩ := hstays w hw
      rw [hsame]
      exact ((hworse hcareful).imp fun i hi => ⟨w, hi⟩).snapshot (h.snapshot hcareful w)

/-- **A file is removed**: no writer has it, or its writer is done. -/
theorem GuardInv.removeFile (h : GuardInv careful s)
    (hunused : careful → ∀ r, s.files i = some r → r.owner.isSome = true → s.Unscanned i →
      r.consumed = 0)
    (hphase : ∀ w, phase w = s.phase w ∧ ¬ (s.phase w).HasFile i ∨ phase w = .idle ∧
      s.phase w = .admitted i) :
    Harmless careful s { s.setFile i none with phase := phase } := by
  have hfiles : ∀ j, j ≠ i → (s.setFile i none).files j = s.files j := fun j hne =>
    update_of_ne hne _ _
  have hgone : (s.setFile i none).files i = none := update_self _ _ _
  have hold : ∀ j r, (s.setFile i none).files j = some r → j ≠ i ∧ s.files j = some r := by grind
  have hworse : careful → NoWorse s.Unscanned s { s.setFile i none with phase := phase } := by
    intro hcareful
    refine GivesUp.noWorse ⟨rfl, rfl, fun j => ?_⟩
    by_cases hji : j = i
    · subst hji
      cases hfile : s.files j with
      | none => exact .inl hgone
      | some r => exact .inr ⟨r, rfl, .inl hgone, hunused hcareful r hfile⟩
    · exact .inl (hfiles j hji)
  have hadm : ∀ w, (s.phase w).Admitting ∨ (phase w).Admitting → phase w = s.phase w := by
    intro w hw
    rcases hphase w with hsame | ⟨hidle, hadmitted⟩
    · exact hsame.1
    · rw [hidle, hadmitted] at hw
      exact hw.elim False.elim False.elim
  -- nobody but the writer that ends had the file, so all else is as before
  refine ⟨⟨?_, ?_, ?_, ?_, ?_, ?_, ?_⟩, hworse⟩
  · exact fun j r hr => h.ids j r (hold j r hr).2
  · intro j r w hr howner
    obtain ⟨hne, hr⟩ := hold j r hr
    have howns := h.owner j r w hr howner
    show (phase w).Owns j
    rcases hphase w with ⟨hsame, -⟩ | ⟨-, hadmitted⟩
    · rw [hsame]
      exact howns
    · rw [hadmitted] at howns
      exact absurd howns.symm hne
  · intro w
    show FileOf (s.setFile i none).files w (phase w)
    rcases hphase w with ⟨hsame, hno⟩ | ⟨hidle, -⟩
    · rw [hsame]
      refine fileOf_congr (h.file w) fun j r hhas hr _ => ⟨r, ?_, rfl, rfl⟩
      rw [hfiles j fun heq => hno (heq ▸ hhas)]
      exact hr
    · rw [hidle]
      trivial
  · exact fun j r hr => h.consumed j r (hold j r hr).2
  · intro w hw
    exact h.lock w (hadm w (.inr hw) ▸ hw)
  · intro w hlock
    have hw := h.holder w hlock
    show (phase w).Admitting
    rw [hadm w (.inl hw)]
    exact hw
  · intro hcareful w
    show GuardState.Snapshot _ (phase w)
    rcases hphase w with ⟨hsame, -⟩ | ⟨hidle, -⟩
    · rw [hsame]
      exact ((hworse hcareful).imp fun j hj => ⟨w, hj⟩).snapshot (h.snapshot hcareful w)
    · rw [hidle]
      trivial

variable [DecidableEq W]

theorem owns_update (hold : (s.phase w').Owns i)
    (hself : (s.phase w).Owns i → ph.Owns i) : (update s.phase w ph w').Owns i := by
  by_cases hww : w' = w
  · subst hww
    rw [update_self]
    exact hself hold
  · rw [update_of_ne hww]
    exact hold

section

variable (h : GuardInv careful s)
include h

omit [DecidableEq W] in
theorem GuardInv.lock_iff (w : W) :
    (s.phase w).Admitting ↔ s.lock = some w := ⟨h.lock w, h.holder w⟩

/-- **A writer goes on**, whatever it does to the lock and to the files. -/
theorem GuardInv.next (hphase : s'.phase = update s.phase w ph)
    (hfiles : ∀ j r, s'.files j = some r → j < s'.nextId ∧ r.consumed ≤ r.content.getD 0 ∧
      ∀ w', r.owner = some w' → (update s.phase w ph w').Owns j)
    (hfile : FileOf s'.files w ph)
    (hkept : ∀ w', w' ≠ w → ∀ j r, (s.phase w').HasFile j → s.files j = some r →
      s'.files j = some r) (hlock : ph.Admitting ↔ s'.lock = some w)
    (hothers : ∀ w', w' ≠ w → ((s.phase w').Admitting ↔ s'.lock = some w'))
    (hsnap : careful → ∀ w', w' ≠ w → s'.Snapshot (s.phase w'))
    (hself : careful → s'.Snapshot ph) : GuardInv careful s' := by
  have hall : ∀ w', (update s.phase w ph w').Admitting ↔ s'.lock = some w' :=
    (forall_update_iff s.phase fun w' ph => ph.Admitting ↔ s'.lock = some w').mpr ⟨hlock, hothers⟩
  constructor
  case ids => exact fun j r hr => (hfiles j r hr).1
  case owner =>
    intro j r w' hr howner
    rw [hphase]
    exact (hfiles j r hr).2.2 w' howner
  case file =>
    rw [hphase]
    refine (forall_update_iff s.phase (FileOf s'.files)).mpr ⟨hfile, fun w' hne => ?_⟩
    exact fileOf_congr (h.file w') fun j r hj hr _ => ⟨r, hkept w' hne j r hj hr, rfl, rfl⟩
  case consumed => exact fun j r hr => (hfiles j r hr).2.1
  case lock =>
    rw [hphase]
    exact fun w' => (hall w').mp
  case holder =>
    rw [hphase]
    exact fun w' => (hall w').mpr
  case snapshot =>
    intro hcareful
    rw [hphase]
    exact (forall_update_iff s.phase fun _ ph => s'.Snapshot ph).mpr
      ⟨hself hcareful, hsnap hcareful⟩

/-- **A writer goes on** and takes or gives the lock, without a change of the files. -/
theorem GuardInv.relock {lock : Option W} (hothers : ∀ w', w' ≠ w → ¬ (s.phase w').Admitting)
    (hlock : lock = some w ∧ ph.Admitting ∨ lock = none ∧ ¬ ph.Admitting)
    (hown : ∀ i, (s.phase w).Owns i → ph.Owns i) (hfile : FileOf s.files w ph)
    (hsnap : careful → s.Snapshot ph) : GuardInv careful { s.enter w ph with lock := lock } := by
  refine h.next rfl (fun j r hr => ⟨h.ids j r hr, h.consumed j r hr, fun w' howner => ?_⟩) hfile
    (fun w' _ j r _ hr => hr) ?_ (fun w' hne => ?_) ?_ ?_
  · exact owns_update (h.owner j r w' hr howner) (hown j)
  · rcases hlock with ⟨rfl, hadm⟩ | ⟨rfl, hno⟩
    · exact iff_of_true hadm rfl
    · exact iff_of_false hno (by simp)
  · refine iff_of_false (hothers w' hne) fun hheld => ?_
    rcases hlock with ⟨rfl, -⟩ | ⟨rfl, -⟩
    · exact hne (Option.some.inj hheld).symm
    · cases hheld
  · exact fun _ w' hne => snapshot_of_not_admitting (hothers w' hne)
  · exact fun hcareful => (noWorse_of_same rfl rfl le_rfl).snapshot (hsnap hcareful)

theorem GuardInv.advance (hw : (s.phase w).Admitting) (hadm : ph.Admitting)
    (hown : ∀ i, (s.phase w).Owns i → ph.Owns i) (hfile : FileOf s.files w ph)
    (hsnap : careful → s.Snapshot ph) : GuardInv careful (s.enter w ph) := by
  have hlock := h.lock w hw
  exact h.relock (h.others_not_admitting hw) (.inl ⟨hlock, hadm⟩) hown hfile hsnap

omit h in
/-- **An admission fails.** -/
theorem GuardInv.abandon (h : GuardInv careful s) (hw : (s.phase w).Admitting)
    (hunwritten : ∀ i, s.phase w ≠ .written i) : Harmless careful s (s.abandon w) := by
  refine h.unlock (fun w' hw' => ?_) (fun w' hw' => ?_) fun _ i r w' hr howner hw' _ => ?_
  · rw [of_decide_eq_true hw', update_self]
    exact .inl rfl
  · exact update_of_ne (of_decide_eq_false hw') _ _
  -- its file is not written yet
  obtain rfl := of_decide_eq_true hw'
  have howns := h.owner i r w' hr howner
  have hfile := h.file w'
  have hle := h.consumed i r hr
  cases hph : s.phase w' with
  | held peak j =>
    rw [hph] at howns hfile
    obtain rfl : j = i := howns
    obtain ⟨r', hr', -, hcon⟩ := hfile
    grind
  | written j => exact absurd hph (hunwritten j)
  | admitted j =>
    rw [hph] at hw
    exact hw.elim
  | _ =>
    rw [hph] at howns
    exact howns.elim

/-- **A writer changes its file** and goes on. -/
theorem GuardInv.changeFile (hhas : (s.phase w).HasFile i) {free : Nat} (howner : r'.owner = some w)
    (howns : ph.Owns i) (hconsumed : r'.consumed ≤ r'.content.getD 0)
    (hadm : ph.Admitting ↔ (s.phase w).Admitting)
    (hfile : FileOf (s.setFile i (some r')).files w ph)
    (hsnap : careful → ∀ w', w' ≠ w →
      GuardState.Snapshot { (s.setFile i (some r')).enter w ph with free := free } (s.phase w'))
    (hself : careful →
      GuardState.Snapshot { (s.setFile i (some r')).enter w ph with free := free } ph) :
    GuardInv careful { (s.setFile i (some r')).enter w ph with free := free } := by
  obtain ⟨r, hr, -⟩ := h.hasFile hhas
  have hfiles : ∀ j, j ≠ i → (s.setFile i (some r')).files j = s.files j := fun j hne =>
    update_of_ne hne _ _
  have hnew : (s.setFile i (some r')).files i = some r' := update_self _ _ _
  refine h.next rfl (fun j rj hj => ?_) hfile (fun w' hne j rj hj hrj => ?_)
    (hadm.trans (h.lock_iff w)) (fun w' _ => h.lock_iff w') hsnap hself
  swap
  -- no other writer has this file
  · have hji : j ≠ i := fun heq => hne (h.hasFile_unique hhas (heq ▸ hj))
    exact (hfiles j hji).trans hrj
  by_cases hji : j = i
  · subst hji
    obtain rfl := Option.some.inj (hnew.symm.trans hj)
    refine ⟨h.ids j r hr, hconsumed, fun w' hown => ?_⟩
    obtain rfl := Option.some.inj (howner.symm.trans hown)
    rw [update_self]
    exact howns
  · have hj := (hfiles j hji).symm.trans hj
    refine ⟨h.ids j rj hj, h.consumed j rj hj, fun w' hown => ?_⟩
    exact owns_update (h.owner j rj w' hj hown) fun hw => absurd (hw.hasFile.eq hhas) hji

end

end Holo.Storage.Space
