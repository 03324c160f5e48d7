/-
Holo.Storage.SpaceRuns — the reserve stays free, in every run.

Main results:
* `space_guarded`: the reserve stays free, unless a reservation that was used is given up between
  a probe and its scan; no dead reservation counts again;
* `release_between_probe_and_scan`: a run in which the reserve is promised to a writer.
-/
import Holo.Lib.Runs
import Holo.Storage.SpaceSteps

namespace Holo.Storage.Space

open Function Lib Storage List

variable {W P : Type} [DecidableEq W] [DecidableEq P] {s s' : GuardState W} {careful : Prop}
  {proc : W → P} {unit : Nat} {e : GuardEvent W P}

/-! ## §1. Reservations of the dead. -/

/-- A file nobody has, and nobody will. -/
structure Orphan (s : GuardState W) (i : Nat) : Prop where
  old : i < s.nextId
  file : ∀ r, s.files i = some r → r.owner = none ∧ ∀ w, ¬ (s.phase w).HasFile i

variable {i : Nat} {w w' : W} {ph : Phase} {files : Nat → Option (Reservation W)}

omit [DecidableEq W] in
theorem Orphan.mono (h : Orphan s i) (hid : s.nextId ≤ s'.nextId)
    (hold : ∀ r', s'.files i = some r' → ∃ r, s.files i = some r ∧ ((∀ w, ¬ (s.phase w).HasFile i) →
        (r'.owner = none ∨ r'.owner = r.owner) ∧ ∀ w, ¬ (s'.phase w).HasFile i)) : Orphan s' i := by
  refine ⟨lt_of_lt_of_le h.old hid, fun r' hr' => ?_⟩
  obtain ⟨r, hr, hkeep⟩ := hold r' hr'
  obtain ⟨howner, hnobody⟩ := h.file r hr
  obtain ⟨hnone | hsame, hnobody'⟩ := hkeep hnobody
  · exact ⟨hnone, hnobody'⟩
  · exact ⟨hsame.trans howner, hnobody'⟩

theorem not_hasFile_enter (h : ∀ w', ¬ (s.phase w').HasFile i) (hph : ¬ ph.HasFile i) (w' : W) :
    ¬ (update s.phase w ph w').HasFile i :=
  (forall_update_iff s.phase fun _ ph => ¬ ph.HasFile i).mpr ⟨hph, fun w' _ => h w'⟩ w'

theorem Orphan.enter (h : Orphan s i) (hph : (∀ w', ¬ (s.phase w').HasFile i) → ¬ ph.HasFile i) :
    Orphan (s.enter w ph) i :=
  h.mono le_rfl fun r' hr' => ⟨r', hr', fun hno => ⟨.inr rfl, not_hasFile_enter hno (hph hno)⟩⟩

omit [DecidableEq W] in
theorem Orphan.unlock (h : Orphan s i) {who : W → Bool} {phase : W → Phase}
    (hphase : ∀ w, (phase w).Off ∨ phase w = s.phase w) :
    Orphan { s.unlock who with phase := phase } i := by
  refine h.mono le_rfl fun r' hr' => ?_
  obtain ⟨r, hr, hcase⟩ := files_unlock hr'
  refine ⟨r, hr, fun hno => ⟨?_, fun w => ?_⟩⟩
  · grind
  show ¬ (phase w).HasFile i
  rcases hphase w with (hidle | hdead) | hsame
  · rw [hidle]
    exact id
  · rw [hdead]
    exact id
  · rw [hsame]
    exact hno w

theorem Orphan.abandon (h : Orphan s i) (w : W) : Orphan (s.abandon w) i := by
  refine h.unlock fun w' => ?_
  by_cases hww : w' = w
  · subst hww
    exact .inl (.inl (update_self _ _ _))
  · exact .inr (update_of_ne hww _ _)

omit [DecidableEq W] in
theorem Orphan.removeFile (h : Orphan s i) (j : Nat) : Orphan (s.setFile j none) i := by
  refine h.mono le_rfl fun r' hr' => ⟨r', ?_, fun hno => ⟨.inr rfl, hno⟩⟩
  have hne : i ≠ j := by
    intro heq
    have hgone : (s.setFile j none).files i = none := heq ▸ update_self _ _ _
    rw [hgone] at hr'
    cases hr'
  exact (update_of_ne hne _ _).symm.trans hr'

theorem Orphan.changeFile {i j : Nat} (h : Orphan s i) {change : Reservation W → Reservation W}
    (hhas : (s.phase w).HasFile j) (hph : ph.HasFile j) :
    Orphan ((s.setFile j ((s.files j).map change)).enter w ph) i := by
  refine h.mono le_rfl fun r' hr' => ?_
  by_cases hij : i = j
  · subst hij
    have hnew : (s.setFile i ((s.files i).map change)).files i = (s.files i).map change :=
      update_self _ _ _
    have hr' : (s.files i).map change = some r' := hnew.symm.trans hr'
    obtain ⟨r, hr, -⟩ := Option.map_eq_some_iff.mp hr'
    exact ⟨r, hr, fun hno => absurd hhas (hno w)⟩
  · have hr' : s.files i = some r' := (update_of_ne hij _ _).symm.trans hr'
    refine ⟨r', hr', fun hno => ⟨.inr rfl, ?_⟩⟩
    exact not_hasFile_enter hno fun hi => hij (hi.eq hph)

/-- **An orphan stays one.** -/
theorem Orphan.step (h : Orphan s i) (hstep : Stepped proc s e s') : Orphan s' i := by
  -- a file is locked, written and consumed by the writer that has it: an orphan has none
  cases hstep with
  | @acquire w request hph hlock =>
    have hnext : Orphan (s.enter w (.locked request)) i := h.enter fun _ => id
    exact ⟨hnext.old, hnext.file⟩
  | probe | list => exact h.enter fun _ => id
  | scan hph =>
    unfold GuardState.scanFile
    split
    · exact h.enter fun _ => id
    split
    · exact (h.removeFile _).enter fun _ => id
    split
    · exact h.abandon _
    · split
      · exact h.enter fun _ => id
      · exact h.abandon _
  | decide hph =>
    unfold GuardState.decideRoom
    split
    · exact h.enter fun _ => id
    · exact h.abandon _
  | create hph =>
    have hne : i ≠ s.nextId := ne_of_lt h.old
    refine h.mono (Nat.le_succ _) fun r' hr' => ⟨r', ?_, fun hno => ⟨.inr rfl, ?_⟩⟩
    · exact (update_of_ne hne _ _).symm.trans hr'
    · exact not_hasFile_enter hno fun hi => hne hi.symm
  | lockFile hph | write hph => exact h.changeFile (by rw [hph]; rfl) rfl
  | @finish w j hph =>
    have hnext : Orphan (s.enter w (.admitted j)) i := by
      refine h.enter fun hno => ?_
      have hw := hno w
      rw [hph] at hw
      exact hw
    exact ⟨hnext.old, hnext.file⟩
  | @consume w j bytes r hph hr hwithin hfree =>
    refine h.mono le_rfl fun r' hr' => ?_
    by_cases hij : i = j
    · subst hij
      refine ⟨r, hr, fun hno => absurd ?_ (hno w)⟩
      rw [hph]
      rfl
    · exact ⟨r', (update_of_ne hij _ _).symm.trans hr', fun hno => ⟨.inr rfl, hno⟩⟩
  | release hph => exact (h.removeFile _).enter fun _ => id
  | fail hadm hunwritten => exact h.abandon _
  | @die p =>
    refine h.unlock fun w => ?_
    by_cases hp : proc w = p
    · exact .inl (.inr (if_pos hp))
    · exact .inr (if_neg hp)
  | freed bytes => exact ⟨h.old, h.file⟩

/-- An admission that lists after the death of a reservation does not count it, and does not end
before the file is gone. -/
def Passed (i : Nat) (files : Nat → Option (Reservation W)) : Phase → Prop
  | .scanning _ _ todo counted _ => i ∉ counted ∧ (files i = none ∨ i ∈ todo)
  | .cleared _ | .created _ _ | .held _ _ | .written _ | .admitted _ => files i = none
  | _ => True

omit [DecidableEq W] in
theorem Passed.mono {files files' : Nat → Option (Reservation W)} (h : Passed i files ph)
    (hnone : files i = none → files' i = none) : Passed i files' ph := by
  cases ph with
  | scanning peak available todo counted inFlight => exact ⟨h.1, h.2.imp_left hnone⟩
  | cleared | created | held | written | admitted => exact hnone h
  | _ => trivial

/-- The file of a number that was used does not come back. -/
theorem Stepped.files_none (hstep : Stepped proc s e s') (hold : i < s.nextId)
    (hnone : s.files i = none) : s'.files i = none := by
  have hset : ∀ {j : Nat} {file : Option (Reservation W)}, (j = i → file = none) →
      (s.setFile j file).files i = none := by
    intro j file hfile
    by_cases hij : i = j
    · subst hij
      exact (update_self _ _ _).trans (hfile rfl)
    · exact (update_of_ne hij _ _).trans hnone
  have habandon : ∀ w, (s.abandon w).files i = none := by
    intro w
    show (s.files i).map _ = none
    rw [hnone]
    rfl
  cases hstep with
  | acquire | probe | list | finish | freed => exact hnone
  | scan hph =>
    unfold GuardState.scanFile
    split
    · exact hnone
    split
    · exact hset fun _ => rfl
    split
    · exact habandon _
    · split
      · exact hnone
      · exact habandon _
  | decide hph =>
    unfold GuardState.decideRoom
    split
    · exact hnone
    · exact habandon _
  | create hph => exact hset fun heq => absurd heq.symm (ne_of_lt hold)
  | lockFile | write => exact hset fun heq => by rw [heq, hnone]; rfl
  | consume hph hr hwithin hfree =>
    -- the file that is consumed is there, so it is another one
    refine hset fun heq => ?_
    rw [heq, hnone] at hr
    cases hr
  | release hph => exact hset fun _ => rfl
  | fail hadm hunwritten => exact habandon _
  | die =>
    show (s.files i).map _ = none
    rw [hnone]
    rfl

theorem passed_update (hother : Passed i files (s.phase w')) (hself : w' = w → Passed i files ph) :
    Passed i files (update s.phase w ph w') := by
  by_cases hw : w' = w
  · rw [hw, update_self]
    exact hself hw
  · rw [update_of_ne hw]
    exact hother

omit [DecidableEq W] in
theorem mem_of_listing {order : List Nat} (hold : i < s.nextId) (horder : order.Perm s.listing) :
    s.files i = none ∨ i ∈ order := by
  cases hfile : s.files i with
  | none => exact .inl rfl
  | some r =>
    refine .inr (horder.symm.subset (mem_filter.mpr ⟨mem_range.mpr hold, ?_⟩))
    rw [hfile]
    rfl

/-- **A file is scanned**: an orphan is removed, not counted. -/
theorem passed_scanFile {i j peak available inFlight : Nat} {todo counted : List Nat}
    (horphan : Orphan s i) (hph : s.phase w = .scanning peak available (j :: todo) counted inFlight)
    (hkeep : Passed i (s.scanFile w peak available j todo counted inFlight).files (s.phase w'))
    (h : Passed i s.files (s.phase w')) :
    Passed i (s.scanFile w peak available j todo counted inFlight).files
      ((s.scanFile w peak available j todo counted inFlight).phase w') := by
  have hfail : Passed i (s.abandon w).files (s.phase w') →
      Passed i (s.abandon w).files ((s.abandon w).phase w') := fun hother =>
    passed_update hother fun _ => trivial
  unfold GuardState.scanFile at hkeep ⊢
  cases hfile : s.files j with
  | none =>
    rw [hfile] at hkeep
    refine passed_update hkeep fun hww => ?_
    rw [hww, hph] at h
    refine ⟨h.1, h.2.elim .inl fun hmem => ?_⟩
    rcases mem_cons.mp hmem with rfl | hmem
    · exact .inl hfile
    · exact .inr hmem
  | some r =>
    rw [hfile] at hkeep
    dsimp only at hkeep ⊢
    cases howner : r.owner with
    | none =>
      rw [howner] at hkeep
      refine passed_update hkeep fun hww => ?_
      rw [hww, hph] at h
      by_cases hij : i = j
      · subst hij
        exact ⟨h.1, .inl (update_self _ _ _)⟩
      · refine ⟨h.1, h.2.imp (fun hnone => ?_) fun hmem => ?_⟩
        · exact (update_of_ne hij _ _).trans hnone
        · exact (mem_cons.mp hmem).resolve_left hij
    | some owner =>
      rw [howner] at hkeep
      -- a file that is locked is no orphan
      have hij : i ≠ j := by
        intro heq
        subst heq
        have hno := (horphan.file r hfile).1
        rw [howner] at hno
        cases hno
      cases hcon : r.content with
      | none =>
        rw [hcon] at hkeep
        exact hfail hkeep
      | some bytes =>
        rw [hcon] at hkeep
        dsimp only at hkeep ⊢
        by_cases hfits : inFlight + bytes ≤ u64Max
        · rw [if_pos hfits] at hkeep ⊢
          refine passed_update hkeep fun hww => ?_
          rw [hww, hph] at h
          refine ⟨fun hmem => ?_, h.2.imp_right fun hmem => ?_⟩
          · exact h.1 ((mem_cons.mp hmem).resolve_left hij)
          · exact (mem_cons.mp hmem).resolve_left hij
        · rw [if_neg hfits] at hkeep ⊢
          exact hfail hkeep

/-- **A step** of any writer. -/
theorem Passed.step (h : Passed i s.files (s.phase w')) (horphan : Orphan s i)
    (hstep : Stepped proc s e s') : Passed i s'.files (s'.phase w') := by
  -- a file that is gone does not come back
  have hkeep : Passed i s'.files (s.phase w') := h.mono (hstep.files_none horphan.old)
  cases hstep with
  | acquire | probe | release | fail => exact passed_update hkeep fun _ => trivial
  | list hph horder =>
    refine passed_update hkeep fun _ => ⟨not_mem_nil, ?_⟩
    exact mem_of_listing horphan.old horder
  | scan hph => exact passed_scanFile horphan hph hkeep h
  | decide hph =>
    unfold GuardState.decideRoom at hkeep ⊢
    split
    · refine passed_update h fun hww => ?_
      rw [hww, hph] at h
      exact h.2.resolve_right not_mem_nil
    · rename_i hroom
      rw [if_neg hroom] at hkeep
      exact passed_update hkeep fun _ => trivial
  | create hph | lockFile hph | write hph | finish hph =>
    refine passed_update hkeep fun hww => ?_
    rw [hww, hph] at hkeep
    exact hkeep
  | @die p =>
    grind [Passed]
  | consume | freed => exact hkeep

omit [DecidableEq W] in
/-- **A process dies**: the files of its writers are orphans. -/
theorem GuardInv.orphan_of_die {p : P} (h : GuardInv careful s) (hhas : (s.phase w).HasFile i)
    (hw : proc w = p) :
    Orphan { s.unlock (fun w => decide (proc w = p)) with
      phase := fun w => if proc w = p then .dead else s.phase w } i := by
  obtain ⟨r, hr, howner⟩ := h.hasFile hhas
  refine ⟨h.ids i r hr, fun r' hr' => ⟨?_, fun w' => ?_⟩⟩
  · obtain ⟨r1, hr1, ⟨rfl, hother⟩ | ⟨rfl, -⟩⟩ := files_unlock hr'
    · grind
    · rfl
  show ¬ (if proc w' = p then Phase.dead else s.phase w').HasFile i
  split
  · exact id
  · rename_i hne
    intro hhas'
    exact hne (h.hasFile_unique hhas hhas' ▸ hw)

/-! ## §2. Every run. -/

/-- No writer is under way; files may be left from before. -/
structure Quiet (s : GuardState W) : Prop where
  idle : ∀ w, s.phase w = .idle
  lock : s.lock = none
  files : ∀ i r, s.files i = some r → i < s.nextId ∧ r.owner = none ∧
    r.consumed ≤ r.content.getD 0

omit [DecidableEq W] in
theorem Quiet.inv (h : Quiet s) : GuardInv careful s := by
  constructor
  case ids => exact fun i r hr => (h.files i r hr).1
  case owner =>
    intro i r w hr howner
    rw [(h.files i r hr).2.1] at howner
    cases howner
  case file =>
    intro w
    rw [h.idle w]
    trivial
  case consumed => exact fun i r hr => (h.files i r hr).2.2
  case lock =>
    intro w hadm
    rw [h.idle w] at hadm
    exact hadm.elim
  case holder =>
    intro w hlock
    rw [h.lock] at hlock
    cases hlock
  case snapshot =>
    intro _ w
    rw [h.idle w]
    trivial

/-- A run of all writers. -/
abbrev GuardRun (proc : W → P) (unit : Nat) :=
  Run fun (s : GuardState W) (e : GuardEvent W P) s' => s.step proc unit e = some s'

/-- A run in which reservations are given up in time. -/
abbrev TimelyRun (proc : W → P) (unit : Nat) :=
  Run fun (s : GuardState W) (e : GuardEvent W P) s' =>
    s.step proc unit e = some s' ∧ InTime proc s e

variable {labels : List (GuardEvent W P)}

/-- **Runs in time** keep the invariant and the margin. -/
theorem TimelyRun.keeps (h : TimelyRun proc unit s labels s') (hinv : GuardInv True s) :
    GuardInv True s' ∧ (s.Margin → s'.Margin) := by
  refine h.invariant (fun t => GuardInv True t ∧ (s.Margin → t.Margin)) ⟨hinv, id⟩ ?_
  intro t e t' ht hstep
  obtain ⟨hnext, hkeeps⟩ := ht.1.step (stepped_of_step hstep.1) fun _ => hstep.2
  exact ⟨hnext, fun hm => hkeeps trivial (ht.2 hm)⟩

/-- Every run keeps what does not rest on timing. -/
theorem GuardRun.keeps (h : GuardRun proc unit s labels s') (hinv : GuardInv False s) :
    GuardInv False s' :=
  h.invariant _ hinv fun _ _ _ ht hstep => (ht.step (stepped_of_step hstep) False.elim).1

theorem GuardRun.orphan (h : GuardRun proc unit s labels s') (horphan : Orphan s i) : Orphan s' i :=
  h.invariant (fun t => Orphan t i) horphan fun _ _ _ ht hstep => ht.step (stepped_of_step hstep)

theorem GuardRun.passed (h : GuardRun proc unit s labels s') (horphan : Orphan s i)
    (hpassed : Passed i s.files (s.phase w)) : Passed i s'.files (s'.phase w) := by
  refine (h.invariant (fun t => Orphan t i ∧ Passed i t.files (t.phase w)) ⟨horphan, hpassed⟩ ?_).2
  intro t e t' ht hstep
  have hstep := stepped_of_step hstep
  exact ⟨ht.1.step hstep, ht.2.step ht.1 hstep⟩

/-- A writer that has not listed the files yet. -/
def Phase.Unlisted : Phase → Prop
  | .idle | .locked _ | .probed _ _ => True
  | _ => False

omit [DecidableEq W] in
theorem passed_of_unlisted (h : ph.Unlisted) : Passed i files ph := by
  cases ph with
  | idle | locked | probed => trivial
  | _ => exact h.elim

/-- **The reserve stays free, and the dead do not count.**  In a run in which no reservation that
was used is given up between a probe and its scan, the margin stays once it was there.  In any
run, an admission that lists the files after the death of a process counts no reservation of
that process, and when it is through the file is gone. -/
theorem space_guarded (proc : W → P) (unit : Nat) {s₀ : GuardState W} (hquiet : Quiet s₀) :
    (∀ labels s₁ labels' s₂, TimelyRun proc unit s₀ labels s₁ → TimelyRun proc unit s₁ labels' s₂ →
      s₁.Margin → s₂.Margin) ∧
    (∀ labels s₁ s₂ i w₀ labels' s₃ w labels'' s₄, GuardRun proc unit s₀ labels s₁ →
      (s₁.phase w₀).HasFile i → s₁.step proc unit (.die (proc w₀)) = some s₂ →
      GuardRun proc unit s₂ labels' s₃ → (s₃.phase w).Unlisted →
      GuardRun proc unit s₃ labels'' s₄ → Passed i s₄.files (s₄.phase w)) := by
  refine ⟨fun labels s₁ labels' s₂ h₁ h₂ hm => ?_, ?_⟩
  · exact (h₂.keeps (h₁.keeps hquiet.inv).1).2 hm
  intro labels s₁ s₂ i w₀ labels' s₃ w labels'' s₄ h₁ hhas hdie h₃ hunlisted h₄
  cases hdie
  have hinv : GuardInv False s₁ := h₁.keeps hquiet.inv
  have horphan := hinv.orphan_of_die hhas (rfl : proc w₀ = proc w₀)
  exact h₄.passed (h₃.orphan horphan) (passed_of_unlisted hunlisted)

/-- Room for one write of a hundred bytes over the reserve; two processes of one writer each. -/
def twoWriters : GuardState Bool :=
  ⟨spaceReserveBytes + 100, none, fun _ => none, 0, fun _ => .idle⟩

/-- A write of a hundred bytes. -/
def hundredBytes : WriteRequest := ⟨100, 0, 0, 0⟩

/-- All that an admission does after its probe. -/
def admitAfterProbe (w : Bool) (order : List Nat) : List (GuardEvent Bool Bool) :=
  [.list w order] ++ order.map (fun _ => .scan w) ++
    [.decide w, .create w, .lockFile w, .write w, .finish w]

/-- A whole admission. -/
def admission (w : Bool) (order : List Nat) : List (GuardEvent Bool Bool) :=
  [.acquire w hundredBytes, .probe w] ++ admitAfterProbe w order

theorem twoWriters_quiet : Quiet twoWriters :=
  ⟨fun _ => rfl, rfl, fun _ _ hr => by cases hr⟩

instance (s : GuardState W) : Decidable s.Margin := inferInstanceAs (Decidable (_ ≤ _))

/-- Where events lead. -/
def GuardState.after (s : GuardState Bool) (events : List (GuardEvent Bool Bool)) :
    GuardState Bool :=
  (events.foldlM (GuardState.step id 1) s).getD s

variable {s : GuardState Bool} {events : List (GuardEvent Bool Bool)}

theorem foldlM_after (h : (events.foldlM (GuardState.step id 1) s).isSome = true) :
    events.foldlM (GuardState.step id 1) s = some (s.after events) := by
  obtain ⟨s', hs'⟩ := Option.isSome_iff_exists.mp h
  unfold GuardState.after
  rw [hs']
  rfl

theorem run_after (h : (events.foldlM (GuardState.step id 1) s).isSome = true) :
    GuardRun id 1 s events (s.after events) :=
  (run_of_foldlM (fun _ _ _ => trivial) (foldlM_after h)).imp fun _ _ _ hstep => hstep.1

/-- Nothing is given up in what an admission does after its probe. -/
theorem inTime_admitAfterProbe {w : Bool} {order : List Nat} (s : GuardState Bool) :
    ∀ e ∈ admitAfterProbe w order, InTime id s e := by
  intro e he
  simp only [admitAfterProbe, mem_append, mem_map, mem_cons, not_mem_nil, or_false] at he
  rcases he with (rfl | ⟨_, _, rfl⟩) | rfl | rfl | rfl | rfl | rfl
  all_goals trivial

/-- The first writer is admitted, and the second has probed the free space. -/
def probedBesideFirst : List (GuardEvent Bool Bool) :=
  admission false [] ++ [.acquire true hundredBytes, .probe true]

theorem inTime_probedBesideFirst (s : GuardState Bool) :
    ∀ e ∈ probedBesideFirst, InTime id s e := by
  intro e he
  rw [probedBesideFirst, admission, mem_append, mem_append] at he
  rcases he with (he | he) | he
  · rcases mem_pair.mp he with rfl | rfl
    all_goals trivial
  · exact inTime_admitAfterProbe s e he
  · rcases mem_pair.mp he with rfl | rfl
    all_goals trivial

/-- The first writer dies between the probe of the second and its scan. -/
def firstDead : GuardState Bool := (twoWriters.after probedBesideFirst).after [.die false]

/-- The second goes on. -/
def secondAdmitted : GuardState Bool := firstDead.after (admitAfterProbe true [0])

/-- The first writer dies with nothing consumed, while the second has not scanned its file; the
second counts no reservation and is admitted, and the reserve stays free. -/
theorem space_guarded_two_writers :
    (twoWriters.after probedBesideFirst).Unscanned 0 ∧ firstDead.files 0 ≠ none ∧
      secondAdmitted.phase true = .admitted 1 ∧ secondAdmitted.Margin ∧
      Passed 0 secondAdmitted.files (secondAdmitted.phase true) := by
  have hguarded := space_guarded (id : Bool → Bool) 1 twoWriters_quiet
  have hran : (probedBesideFirst.foldlM (GuardState.step id 1) twoWriters).isSome = true := by
    decide +kernel
  have hrest : ((admitAfterProbe true [0]).foldlM (GuardState.step id 1) firstDead).isSome =
      true := by decide +kernel
  have hprobed : (twoWriters.after probedBesideFirst).phase true =
      .probed 100 (spaceReserveBytes + 100) := by decide +kernel
  have hstays : firstDead.phase true = .probed 100 (spaceReserveBytes + 100) := by
    decide +kernel
  -- the one reservation there is has not been used
  have hunused : InTime id (twoWriters.after probedBesideFirst) (.die false) := by
    intro i r w hr _ _ _
    have hi := ((run_after hran).keeps twoWriters_quiet.inv).ids i r hr
    have hnext : (twoWriters.after probedBesideFirst).nextId = 1 := by decide +kernel
    obtain rfl : i = 0 := by omega
    have hfile : (twoWriters.after probedBesideFirst).files 0 = some ⟨some 100, 0, some false⟩ := by
      decide +kernel
    cases hfile.symm.trans hr
    rfl
  have hdies : TimelyRun id 1 twoWriters (probedBesideFirst ++ [.die false]) firstDead :=
    (run_of_foldlM inTime_probedBesideFirst (foldlM_after hran)).snoc ⟨rfl, hunused⟩
  refine ⟨⟨true, by rw [hprobed]; trivial⟩, by decide +kernel, by decide +kernel, ?_, ?_⟩
  · exact hguarded.1 _ _ _ _ hdies (run_of_foldlM inTime_admitAfterProbe (foldlM_after hrest))
      (by decide +kernel)
  · refine hguarded.2 probedBesideFirst _ _ 0 false [] _ true (admitAfterProbe true [0]) _
      (run_after hran) ?_ rfl .nil ?_ (run_after hrest)
    · have hadmitted : (twoWriters.after probedBesideFirst).phase false = .admitted 0 := by
        decide +kernel
      rw [hadmitted]
      rfl
    · show (firstDead.phase true).Unlisted
      rw [hstays]
      trivial

/-- **A reservation given up between a probe and its scan** is counted neither as free space nor
as reserved: the second writer is promised a hundred bytes of the reserve. -/
theorem release_between_probe_and_scan : Quiet twoWriters ∧ twoWriters.Margin ∧
      ∃ events s, GuardRun (id : Bool → Bool) 1 twoWriters events s ∧ ¬ s.Margin :=
  ⟨twoWriters_quiet, by decide +kernel,
    admission false [] ++ [.acquire true hundredBytes, .probe true, .consume false 100,
      .release false] ++ admitAfterProbe true [], _, run_after (by decide +kernel),
    by decide +kernel⟩

end Holo.Storage.Space
