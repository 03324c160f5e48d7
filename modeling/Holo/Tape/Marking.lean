/-
Holo.Tape.Marking — what WRITE FILEMARKS and ERASE do.

WRITE FILEMARKS puts its marks at the current position and behind it, whatever lies there:
unlike WRITE it does not cut the tape off.  ERASE leaves an empty tape.

Main results:
* `flush_spec`: a flush changes nothing the drive knows;
* `writeFilemarks_spec`: the marks are in the index and on disk;
* `eraseMedia_spec`: no block and no mark is left.
-/
import Holo.Tape.Writing

namespace Holo.Tape

open Lib Program Storage List

variable {env : TapeEnv} {t : TapeWorld} {bs : List Block}
variable {w : World}

/-! ## §1. Flushing. -/

/-- **A flush** leaves the blocks as they are and the checkpoint clean. -/
theorem flush_spec (h : Tracked env t bs) : wp (flushPendingWrites env.storage)
      (fun _ w => Tracked env (t.setWorld w) bs ∧ w.disk.checkpoint.flags = .clean ∧
        w.disk.runtime = t.world.disk.runtime ∧ w.faults ⊆ t.world.faults)
      (fun _ w => CrashInv env.storage w.disk ∧
        (t.world.faults = [] → ¬ t.world.disk.segIndex.index.Loadable)) t.world := by
  refine wp_then (flushPendingWrites_spec h.inv.ok) ?_ ?_
  · intro _ w hcut
    exact ⟨h.inv.flushCut hcut, hcut.reason⟩
  intro b w hflush
  rcases hflush with ⟨-, hdone⟩ | ⟨-, rfl, -, hclean⟩
  · refine ⟨h.world (h.inv.flushDone hdone) hdone.same (by rw [hdone.runtime]), ?_,
      hdone.runtime, hdone.faults⟩
    rw [hdone.checkpoint]
    rfl
  -- there was nothing to flush: only the checkpoint is cached
  have hinv : LayoutInv env.storage { t.world with
      mem := t.world.mem.setCheckpoint t.world.disk.checkpoint } :=
    ⟨h.inv.ok.setCheckpointCache, h.inv.covered, h.inv.clean⟩
  exact ⟨h.world hinv (.refl _) rfl, hclean, rfl, Subset.refl _⟩

/-! ## §2. Filemarks. -/

/-- So many filemarks, one step apart. -/
def marksFrom (step : Nat) : Nat → Nat → List Nat
  | _, 0 => []
  | position, count + 1 => position :: marksFrom step (position + step) count

theorem mem_marksFrom {step : Nat} (hstep : 0 < step) (count : Nat) :
    ∀ {position m : Nat}, m ∈ marksFrom step position count →
      position ≤ m ∧ m < position + step * count := by
  induction count with
  | zero =>
    intro position m hm
    exact absurd hm (by simp [marksFrom])
  | succ count ih =>
    intro position m hm
    rw [Nat.mul_succ]
    rcases mem_cons.mp hm with rfl | hm
    · omega
    · have := ih hm
      omega

theorem pushFilemarks_spec (step count : Nat) : ∀ {t : TapeWorld}, t.tape.currentPosition ≤ u64Max →
      wp (pushFilemarks step count)
        (fun _ t' => t.tape.currentPosition + step * count ≤ u64Max ∧ t' = t.setTape { t.tape with
          filemarks := t.tape.filemarks ++ marksFrom step t.tape.currentPosition count
          currentPosition := t.tape.currentPosition + step * count })
        (fun _ t' => t'.world = t.world ∧ u64Max < t.tape.currentPosition + step * count) t := by
  induction count with
  | zero =>
    intro t hcur
    refine ⟨by omega, ?_⟩
    rw [marksFrom, append_nil]
    rfl
  | succ count ih =>
    intro t hcur
    unfold pushFilemarks
    simp only [wp_bind, wp_tapeState, wp_modifyTape]
    -- the first filemark that does not fit ends the loop, and no later one would
    by_cases hfit : t.tape.currentPosition + step ≤ u64Max
    swap
    · have hnone : checkedAdd64 t.tape.currentPosition step = none := if_neg hfit
      rw [hnone]
      refine ⟨rfl, ?_⟩
      rw [Nat.mul_succ]
      omega
    have hsome : checkedAdd64 t.tape.currentPosition step =
        some (t.tape.currentPosition + step) := if_pos hfit
    rw [hsome]
    have hassoc : t.tape.currentPosition + step + step * count =
        t.tape.currentPosition + step * (count + 1) := by
      rw [Nat.mul_succ]
      omega
    refine wp_mono (ih hfit) ?_ (fun _ _ hw => ⟨hw.1, hassoc ▸ hw.2⟩)
    simp [marksFrom, TapeWorld.setTape, hassoc]

theorem logicalPositionStep_pos (s : TapeState) : 0 < logicalPositionStep s := by
  grind [logicalPositionStep]

/-- The filemarks are on the tape. -/
structure Marked (env : TapeEnv) (t t' : TapeWorld) (bs : List Block) (count : Nat) : Prop where
  tracked : Tracked env t' bs
  filemarks : t'.tape.filemarks = t.tape.filemarks ++
    marksFrom (logicalPositionStep t.tape) t.tape.currentPosition count
  current : t'.tape.currentPosition =
    t.tape.currentPosition + logicalPositionStep t.tape * count
  eod : t'.tape.eodPosition = max t.tape.eodPosition t'.tape.currentPosition
  settings : SameSettings t.tape t'.tape
  unlocked : ¬ t.tape.Locked
  appends : Appends t.tape
  ready : t.tape.requiresRecovery ≠ true
  continues : Continues t.world t'.world

/-- What WRITE FILEMARKS needs to write so many filemarks. -/
structure Markable (env : TapeEnv) (t : TapeWorld) (count : Nat) (initiator : Option String) :
    Prop where
  ready : t.tape.requiresRecovery ≠ true
  allowed : Allowed t.tape initiator
  appends : Appends t.tape
  fits : t.tape.currentPosition + logicalPositionStep t.tape * count ≤ u64Max
  room : HasRoom t.tape (logicalPositionStep t.tape * count)
  estimate : t.tape.filemarks.length * 8 + count * 8 ≤ u64Max
  admitted : env.admits t.requests = true
  calm : t.world.faults = []
  index : t.world.disk.segIndex.index.Loadable

/-- The drive's state with more filemarks. -/
def TapeState.withMarks (s : TapeState) (count : Nat) : TapeState :=
  { s with
    filemarks := s.filemarks ++ marksFrom (logicalPositionStep s) s.currentPosition count
    currentPosition := s.currentPosition + logicalPositionStep s * count
    eodPosition := max s.eodPosition (s.currentPosition + logicalPositionStep s * count) }

theorem SameSettings.withMarks (s : TapeState) (count : Nat) :
    SameSettings s (s.withMarks count) := ⟨rfl, rfl, rfl, rfl, rfl, rfl, rfl, rfl, rfl⟩

variable {initiator : Option String} {count : Nat}

/-- **A tape with more filemarks is tracked** once they are on disk. -/
theorem Tracked.withMarks (h : Tracked env t bs)
    (hfit : t.tape.currentPosition + logicalPositionStep t.tape * count ≤ u64Max)
    (hinv : LayoutInv env.storage w) (hrec : Recorded env.storage w.disk bs)
    (hmarks : w.disk.runtime.filemarks = some (t.tape.withMarks count).filemarks) :
    Tracked env ((t.setTape (t.tape.withMarks count)).setWorld w) bs where
  loaded := h.loaded
  layout := h.layout
  inv := hinv
  recorded := hrec
  starts := h.starts
  lengths := h.lengths
  blocksEnd := fun b hb => (h.blocksEnd b hb).trans (le_max_left _ _)
  marksEnd := by
    intro m hm
    rcases mem_append.mp hm with hm | hm
    · exact (h.marksEnd m hm).trans_le (le_max_left _ _)
    · obtain ⟨-, hlt⟩ := mem_marksFrom (logicalPositionStep_pos _) count hm
      exact hlt.trans_le (le_max_right _ _)
  eod := max_le h.eod hfit
  current := hfit
  persisted := by
    rw [TapeWorld.world_setWorld, hmarks]
    exact .refl _
  counted := by
    intro b hb
    refine (h.counted b hb).trans ?_
    show _ ≤ marksBefore (t.tape.filemarks ++ _) b.start
    unfold marksBefore
    rw [countP_append]
    omega

/-- **WRITE FILEMARKS**: the marks are on the tape, or something was missing. -/
theorem writeFilemarks_spec (h : Tracked env t bs) : wp (writeFilemarks env count initiator)
      (fun _ t' => (count = 0 ∧ Counted t t') ∨ 0 < count ∧ Marked env t t' bs count)
      (fun _ t' => (Counted t t' ∨ Broken t' ∧ CleanOk t'.world.disk) ∧
        ¬ Markable env t count initiator) t := by
  have hstay : (Counted t t ∨ Broken t ∧ CleanOk t.world.disk) :=
    .inl (Refused.refl t).counted
  -- the checks in the order of the source; what fails one is not `Markable`
  refine guard_ensureLoaded.bind_of_pass h.loaded ?_
  refine guard_ensureRecoveryComplete.bind_of_refuse (fun hno _ => ⟨hstay, fun hm => hno hm.ready⟩)
    (fun hready => ?_)
  rw [wp_ite]
  constructor
  · intro hzero
    exact wp_mono recordUsage_spec (fun _ _ hc => .inl ⟨hzero, hc⟩)
      (fun _ _ hc => ⟨.inl hc.2, fun hm => hc.1 hm.calm⟩)
  intro hpos
  refine (guard_enforceProtectedAccess initiator).bind_of_refuse
    (fun hno _ => ⟨hstay, fun hm => hno hm.allowed⟩) (fun hallowed => ?_)
  refine guard_enforceWormAppendOnly.bind_of_refuse
    (fun hno _ => ⟨hstay, fun hm => hno hm.appends⟩) (fun happends => ?_)
  refine (Guard.check _ _).bind_of_refuse (fun hno _ => ⟨hstay, fun hm => hno ?_⟩) (fun _ => ?_)
  · have := hm.fits
    omega
  refine (guard_ensureCapacityAvailable _).bind_of_refuse
    (fun hno _ => ⟨hstay, fun hm => hno hm.room⟩) (fun _ => ?_)
  refine guard_ensureLayout.bind_of_refuse (fun hno _ => absurd h.layout (by simpa using hno))
    (fun _ => ?_)
  refine (Guard.check _ _).bind_of_refuse (fun hno _ => ⟨hstay, fun hm => hno ?_⟩) (fun _ => ?_)
  · have := hm.estimate
    omega
  refine wp.bind acquireSpaceAdmission_spec ?_ ?_
  rotate_left
  · intro _ t1 hout
    obtain ⟨hr, hno⟩ := hout
    exact ⟨.inl hr.counted, fun hm => absurd (hno.symm.trans hm.admitted) (by simp)⟩
  rintro _ _ rfl
  have h1 := h.asked
  refine wp_mono (finishWriteCommand_spec
    (P := fun d => CleanOk d ∧ ¬ Markable env t count initiator) ?_)
    (fun _ _ hq => hq) (fun _ _ hE => ⟨.inr ⟨hE.1, hE.2.1⟩, hE.2.2⟩)
  simp only [wp_bind, wp_onLayout]
  -- flush, dirty checkpoint, positions, file, usage: a stop between them leaves a sound disk
  have hflush := flush_spec h1
  refine wp_mono hflush ?_ (fun _ _ hcut => ⟨hcut.1.clean, fun hm => hcut.2 hm.calm hm.index⟩)
  intro _ w1 hout
  obtain ⟨h2, -, hrt1, hfaults1⟩ := hout
  refine wp_then (markCheckpointDirty_spec h2.inv.ok.checkpoint) ?_ ?_
  · intro _ w2 hout
    obtain ⟨hf, hd⟩ := hout
    refine ⟨fun hclean => ?_, fun hm => hf (subset_nil.mp (hm.calm ▸ hfaults1))⟩
    have hclean : w2.disk.checkpoint.flags = .clean := hclean
    show Consistent w2.disk
    rcases hd with hd | hd
    · rw [hd]
      exact h2.cleanOk (hd ▸ hclean)
    · rw [hd] at hclean
      exact absurd hclean (by simp [Disk.putCheckpoint, MetadataCheckpoint.next])
  intro c w2 hout
  obtain ⟨hput, hdirty⟩ := hout
  have h3 := h2.marked hput hdirty
  have hcont : Continues t.world w2 := by
    refine ⟨?_, fun _ hx => hfaults1 (hput.faults hx)⟩
    rw [hput.disk]
    exact congrArg RuntimeFiles.retention hrt1
  refine wp_then (pushFilemarks_spec _ _ h3.current) ?_ ?_
  · intro _ t2 hout
    obtain ⟨hw, hover⟩ := hout
    have hclean := h3.cleanOk
    rw [← hw] at hclean
    exact ⟨hclean, fun hm => absurd hm.fits (not_le.mpr hover)⟩
  intro _ t2 hout
  obtain ⟨hfit, ht2⟩ := hout
  simp only [wp_modifyTape, wp_tapeState]
  subst ht2
  refine wp_then (persistFilemarks_spec _) ?_ ?_
  · intro _ w3 hout
    obtain ⟨hf, rt, hb⟩ := hout
    exact ⟨(hb.layoutInv h3.inv).crashInv.clean, fun hm => hf (hcont.calm hm.calm)⟩
  intro _ w3 hb
  have hinv3 := hb.layoutInv h3.inv
  have h4 := h3.withMarks hfit hinv3
    (h3.recorded.sameFiles hb.sameFiles h3.diskInv hinv3.ok.disk) (by rw [hb.runtime]; rfl)
  refine wp_mono recordUsage_spec ?_ ?_
  · intro _ t' hc
    have htr := h4.afterCount hc
    refine .inr ⟨Nat.pos_of_ne_zero hpos, htr, hc.sameIndex.filemarks, hc.current, ?_,
      ?_, hallowed.2, happends, hready, hcont.trans ((hb.continues rfl).trans hc.continues)⟩
    · rw [hc.sameIndex.eodPosition, hc.current]
      rfl
    · exact (SameSettings.withMarks t.tape count).trans hc.sameSettings
  · intro _ t' hout
    obtain ⟨hf, hc⟩ := hout
    refine ⟨(h4.afterCount hc).cleanOk, fun hm => hf ?_⟩
    exact subset_nil.mp (hcont.calm hm.calm ▸ hb.faults)

/-! ## §3. Erasing. -/

/-- The tape is empty. -/
structure Erased (env : TapeEnv) (t t' : TapeWorld) : Prop where
  tracked : Tracked env t' []
  filemarks : t'.tape.filemarks = []
  current : t'.tape.currentPosition = 0
  eod : t'.tape.eodPosition = 0
  recovery : t'.tape.requiresRecovery = false
  retention : t'.tape.retentionPolicy = t.tape.retentionPolicy
  persisted : t'.world.disk.runtime.retention = some t.tape.retentionPolicy
  partitions : t'.tape.partitionRuntime = t.tape.partitionRuntime ∧
    t'.tape.cartridgeCapacityBytes = t.tape.cartridgeCapacityBytes
  faults : t'.world.faults ⊆ t.world.faults
  unlocked : ¬ t.tape.Locked
  erasable : Erasable t.tape
  reservations : t'.tape.reservationState = .default

/-- What ERASE asks for before it touches the cartridge. -/
structure EraseAccepted (env : TapeEnv) (t : TapeWorld) (initiator : Option String) : Prop where
  loaded : t.tape.mountState ≠ .empty
  allowed : Allowed t.tape initiator
  erasable : Erasable t.tape
  ready : t.tape.requiresRecovery = false
  admitted : env.admits t.requests = true

theorem persistRetentionState_spec {env : Env} (policy : RetentionPolicy) :
    wp (persistRetentionState env policy)
      (fun _ w' => Beside w w' { w.disk.runtime with retention := some policy })
      (fun _ w' => w.faults ≠ [] ∧ ∃ rt, Beside w w' rt) w :=
  wp_atomicStep (.stepped _ _) (fun hf => ⟨hf, _, .stepped_same _⟩)
    (fun hf => ⟨hf, _, .stepped _ _⟩)

/-- Mounting puts the drive's state back; the usage counters may reach the disk. -/
theorem mount_spec {env : TapeEnv} {t : TapeWorld} : wp (mount env)
      (fun _ t' => Counted (t.setTape (t.tape.mounted (t.world.disk.runtime.usage.getD zeroUsage)))
        t' ∧ (t.world.faults = [] → t'.world.disk.runtime.usage =
          some (t.tape.mounted (t.world.disk.runtime.usage.getD zeroUsage)).usageCounters))
      (fun _ _ => False) t := by
  unfold mount
  simp only [wp_bind, wp_get, wp_modifyTape, wp_attempt, wp_pure]
  refine wp_mono persistUsageCounters_spec ?_ ?_
  · exact fun _ _ hc => ⟨hc.1, fun _ => (hc.2 rfl).1⟩
  · exact fun _ _ hc => ⟨hc.2, fun hnil => absurd hnil hc.1⟩

/-- A running process on a layout that was made blank. -/
structure Emptied (env : Env) (w w' : World) : Prop where
  inv : LayoutInv env w'
  blank : BlankDisk w'.disk
  faults : w'.faults ⊆ w.faults

theorem Disk.fresh_accepted (env : Env) (now : Nat) : LayoutAccepted (Disk.fresh env now) := by
  refine ⟨?_, ?_, ⟨rfl, rfl⟩, ⟨rfl, rfl⟩, ⟨rfl, rfl⟩⟩
  · show 1 ≤ _
    decide
  · intro s hs
    obtain rfl : s = 0 := mem_singleton.mp hs
    rfl

/-- **The layout directory removed and made anew.** -/
theorem recreateLayout_spec {env : Env} (hclean : CleanOk w.disk) :
    wp (recreateLayout env) (fun _ w' => Emptied env w w')
      (fun _ w' => CleanOk w'.disk ∧ w.faults ≠ []) w := by
  have hfresh := Disk.fresh_blank env (env.clock w.ticks)
  unfold recreateLayout discardLayoutCaches
  simp only [wp_bind, wp_modify]
  refine wp_atomicStep ?_ (fun hf => ⟨hclean, hf⟩) (fun hf => ⟨fun _ => hfresh.consistent, hf⟩)
  refine wp_mono loadLayout_spec ?_ ?_
  · intro _ w' hout
    obtain ⟨hw, -, -⟩ := hout
    subst hw
    exact ⟨(BlankDisk.crashInv hfresh).restarted rfl rfl, hfresh, w.faults.tail_sublist.subset⟩
  · -- what was just made is accepted
    intro _ w' hout
    exact absurd (Disk.fresh_accepted env _) hout.2

theorem emptyLayout_spec (h : Tracked env t bs) (hsmall : SmallSegs t.world.disk)
    (mode : EraseMode) :
    wp (emptyLayout env mode) (fun _ t' => ∃ w, t' = t.setWorld w ∧ Emptied env.storage t.world w)
      (fun _ t' => CleanOk t'.world.disk ∧ t.world.faults ≠ []) t := by
  have hreset : ∀ {w : World}, LayoutInv env.storage w → SmallSegs w.disk →
      wp (resetLayoutForOverwrite env.storage) (fun _ w' => Emptied env.storage w w')
        (fun _ w' => CleanOk w'.disk ∧ w.faults ≠ []) w := by
    intro w hinv hsm
    refine wp_mono (resetLayoutForOverwrite_spec hinv.ok hsm)
      (fun _ _ hd => ⟨hd.inv, hd.blank, hd.faults⟩) ?_
    intro _ w' hout
    obtain ⟨hf, hcut⟩ := hout
    refine ⟨fun hclean => ?_, hf⟩
    rcases hcut.clean hclean with hd | hblank
    · rw [hd] at hclean ⊢
      exact hinv.crashInv.clean hclean
    · exact hblank.consistent
  unfold emptyLayout
  cases mode with
  | short =>
    rw [wp_onLayout]
    exact wp_mono (hreset h.inv hsmall) (fun _ w hw => ⟨w, rfl, hw⟩) (fun _ _ hc => hc)
  | long =>
    -- the long form makes the layout anew before it is reset
    simp only [wp_bind, wp_onLayout]
    refine wp_mono (recreateLayout_spec h.cleanOk) ?_ (fun _ _ hc => hc)
    intro _ w hw
    refine wp_mono (hreset hw.inv hw.blank.smallSegs) ?_
      (fun _ _ hc => ⟨hc.1, ne_nil_of_subset hw.faults hc.2⟩)
    exact fun _ w' hw' => ⟨w', rfl, hw'.inv, hw'.blank, fun _ hx => hw.faults (hw'.faults hx)⟩

/-- **The checks of ERASE**: a command that is not accepted changes nothing. -/
theorem eraseMedia_refused {mode : EraseMode} (hno : ¬ EraseAccepted env t initiator) :
    wp (eraseMedia env mode initiator) (fun _ _ => False) (fun _ t' => Refused t t') t := by
  have hstay : ∀ e : TapeError, Refused t t := fun _ => .refl t
  refine guard_ensureLoaded.bind hstay (fun hloaded => ?_)
  refine (guard_enforceProtectedAccess initiator).bind hstay (fun hallowed => ?_)
  refine guard_enforceWormEraseAllowed.bind hstay (fun herasable => ?_)
  refine guard_ensureLayout.bind hstay (fun _ => ?_)
  refine guard_ensureRecoveryComplete.bind hstay (fun hready => ?_)
  have hfull : env.admits t.requests = false := by
    by_contra hadmits
    exact hno ⟨hloaded, hallowed, herasable, by simpa using hready, by simpa using hadmits⟩
  refine wp.bind (acquireSpaceAdmission_refused hfull) ?_ (fun _ _ hr => hr)
  exact fun _ _ hfalse => hfalse.elim

/-- **ERASE**: the tape is empty, or nothing happened, or the drive asks for recovery. -/
theorem eraseMedia_spec (h : Tracked env t bs) {mode : EraseMode}
    (hsmall : SmallSegs t.world.disk) :
    wp (eraseMedia env mode initiator) (fun _ t' => Erased env t t')
      (fun _ t' => (Refused t t' ∨ Broken t' ∧ CleanOk t'.world.disk) ∧
        (EraseAccepted env t initiator → t.world.faults ≠ [])) t := by
  by_cases haccepted : EraseAccepted env t initiator
  swap
  · refine wp_mono (eraseMedia_refused haccepted) (fun _ _ hfalse => hfalse.elim) ?_
    exact fun _ _ hr => ⟨.inl hr, fun hacc => absurd hacc haccepted⟩
  -- every check passes; the layout is emptied and mounted, and its files are written
  refine guard_ensureLoaded.bind_of_pass haccepted.loaded ?_
  refine (guard_enforceProtectedAccess initiator).bind_of_pass haccepted.allowed ?_
  refine guard_enforceWormEraseAllowed.bind_of_pass haccepted.erasable ?_
  refine guard_ensureLayout.bind_of_pass (by rw [h.layout]; simp) ?_
  refine guard_ensureRecoveryComplete.bind_of_pass (by rw [haccepted.ready]; simp) ?_
  refine wp.bind (acquireSpaceAdmission_granted haccepted.admitted) ?_ (fun _ _ hf => hf.elim)
  rintro _ _ rfl
  have h1 := h.asked
  refine wp_mono (finishWriteCommand_spec
    (P := fun d => CleanOk d ∧ t.world.faults ≠ []) ?_)
    (fun _ _ hq => hq) (fun _ _ hE => ⟨.inr ⟨hE.1, hE.2.1⟩, fun _ => hE.2.2⟩)
  have hempty := emptyLayout_spec h1 hsmall mode
  refine wp.bind hempty ?_ (fun _ _ hc => hc)
  intro _ t2 hout
  obtain ⟨w, ht2, hw⟩ := hout
  subst ht2
  refine wp.bind mount_spec ?_ (fun _ _ hfalse => hfalse.elim)
  rintro _ ⟨tape, w3, requests⟩ ⟨hc, -⟩
  obtain ⟨u, hb⟩ := hc.world
  obtain ⟨c, n, htape⟩ := hc.tape
  obtain rfl : tape = _ := htape
  have hinv3 := hb.layoutInv hw.inv
  simp only [wp_bind, wp_modifyTape, wp_tapeState, wp_onLayout]
  refine wp_then (persistFilemarks_spec _) ?_ ?_
  · intro _ w4 hout
    obtain ⟨hf, rt, hb4⟩ := hout
    exact ⟨(hb4.layoutInv hinv3).crashInv.clean,
      ne_nil_of_subset (fun _ hx => hw.faults (hb.faults hx)) hf⟩
  intro _ w4 hb4
  have hinv4 := hb4.layoutInv hinv3
  refine wp_then (persistRetentionState_spec _) ?_ ?_
  · intro _ w5 hout
    obtain ⟨hf, rt, hb5⟩ := hout
    exact ⟨(hb5.layoutInv hinv4).crashInv.clean,
      ne_nil_of_subset (fun _ hx => hw.faults (hb.faults (hb4.faults hx))) hf⟩
  intro _ w5 hb5
  have hall := (hb.trans hb4).trans hb5
  have hpersisted : w5.disk.runtime.filemarks = some [] := by
    rw [hb5.runtime]
    show w4.disk.runtime.filemarks = _
    rw [hb4.runtime]
    rfl
  have hactive : w5.disk.active = [] := by
    rw [hall.sameFiles.active]
    exact hw.blank.active
  have hrec : Recorded env.storage w5.disk [] := .blank hactive
  have hinv := hb5.layoutInv hinv4
  constructor
  case tracked =>
    refine .empty (fun hm => absurd hm (by simp [TapeState.mounted])) rfl hinv hrec rfl rfl rfl
      ⟨Nat.zero_le _, Nat.zero_le _⟩ ?_
    show w5.disk.runtime.filemarks.getD [] = []
    rw [hpersisted]
    rfl
  case filemarks | current | eod | recovery | retention | reservations => rfl
  case persisted =>
    show w5.disk.runtime.retention = _
    rw [hb5.runtime]
    rfl
  case partitions => exact ⟨rfl, rfl⟩
  case faults => exact fun _ hx => hw.faults (hall.faults hx)
  case unlocked => exact haccepted.allowed.2
  case erasable => exact haccepted.erasable

end Holo.Tape
