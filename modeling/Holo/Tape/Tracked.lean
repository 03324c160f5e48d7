/-
Holo.Tape.Tracked — what the drive knows about the blocks of its cartridge.

The drive keeps its own index of the tape: the starts and lengths of the blocks, the
filemarks and the end of data.  `Tracked env t bs` says that the cartridge holds the blocks
`bs` and that this index is theirs.  It is what every command keeps that does not ask for
recovery; whether the filemarks lie in order between the blocks is another matter
(`Holo.Tape.Runs`).

Main results:
* `Tracked.frame`, `Tracked.world`: what of the cartridge the invariant depends on;
* `recordUsage_spec`: counting an operation changes counters only;
* `finishWriteCommand_spec`: the end of every command that writes;
* `guard_ensureLoaded` and the like: the checks commands begin with.
-/
import Holo.Storage.Content
import Holo.Tape.Mount

namespace Holo.Tape

open Lib Program Storage

/-! ## §1. Files beside the layout. -/

/-- Nothing changed but the files beside the layout. -/
structure Beside (w w' : World) (rt : RuntimeFiles) : Prop where
  disk : w'.disk = { w.disk with runtime := rt }
  mem : w'.mem = w.mem
  faults : w'.faults ⊆ w.faults

theorem Beside.refl (w : World) : Beside w w w.disk.runtime := ⟨rfl, rfl, List.Subset.refl _⟩

theorem Beside.trans {w1 w2 w3 : World} {rt rt' : RuntimeFiles} (h : Beside w1 w2 rt)
    (h' : Beside w2 w3 rt') : Beside w1 w3 rt' :=
  ⟨by rw [h'.disk, h.disk], h'.mem.trans h.mem, fun _ hx => h.faults (h'.faults hx)⟩

theorem Beside.stepped (w : World) (rt : RuntimeFiles) :
    Beside w (w.stepped { w.disk with runtime := rt }) rt :=
        ⟨rfl, rfl, w.faults.tail_sublist.subset⟩

theorem Beside.stepped_same (w : World) : Beside w (w.stepped w.disk) w.disk.runtime :=
  ⟨rfl, rfl, w.faults.tail_sublist.subset⟩

variable {w w' : World} {rt : RuntimeFiles}

theorem Beside.runtime (h : Beside w w' rt) : w'.disk.runtime = rt := by rw [h.disk]

theorem Beside.sameFiles (h : Beside w w' rt) : SameFiles w.disk w'.disk := by
  rw [h.disk]
  exact .of_eq rfl rfl rfl rfl

/-- The retention policy on disk is untouched, and faults were only used up. -/
structure Continues (w w' : World) : Prop where
  retention : w'.disk.runtime.retention = w.disk.runtime.retention
  faults : w'.faults ⊆ w.faults

theorem Continues.refl (w : World) : Continues w w := ⟨rfl, List.Subset.refl _⟩

theorem Continues.trans {w1 w2 w3 : World} (h : Continues w1 w2) (h' : Continues w2 w3) :
    Continues w1 w3 := ⟨h'.retention.trans h.retention, fun _ hx => h.faults (h'.faults hx)⟩

theorem Continues.calm (h : Continues w w') (hcalm : w.faults = []) :
    w'.faults = [] := List.subset_nil.mp (hcalm ▸ h.faults)

theorem Beside.continues (h : Beside w w' rt) (hrt : rt.retention = w.disk.runtime.retention) :
    Continues w w' :=
  ⟨by rw [h.runtime, hrt], h.faults⟩

/-- **A layout does not depend on the files beside it.** -/
theorem Beside.layoutInv {env : Env} (h : Beside w w' rt) (hinv : LayoutInv env w) :
    LayoutInv env w' := by
  have hidx : w'.disk.segIndex = w.disk.segIndex := by rw [h.disk]
  have heff : effIndex w'.disk w'.mem = effIndex w.disk w.mem := by
    unfold effIndex
    rw [hidx, h.mem]
  have hindexed : w'.disk.indexed = w.disk.indexed := by
    unfold Disk.indexed
    rw [hidx]
  have hck : w'.disk.checkpoint = w.disk.checkpoint := by rw [h.disk]
  refine ⟨hinv.ok.sameFiles h.sameFiles ?_ heff (.inl (by rw [hidx])) ?_ ?_,
    hinv.covered.sameFiles h.sameFiles hindexed heff, ?_⟩
  · rw [h.mem]
    exact ⟨rfl, rfl, rfl, rfl⟩
  · intro c hc
    rw [h.mem] at hc
    rw [hidx]
    exact hinv.ok.warm.index c hc
  · intro c hc
    rw [h.mem] at hc
    rw [hck]
    exact hinv.ok.checkpoint c hc
  · intro hclean
    rw [hck] at hclean
    rw [hidx]
    exact (hinv.clean hclean).frame h.sameFiles hindexed

/-! ## §2. The drive's index. -/

/-- The lengths of blocks, by their starts. -/
def lengthsOf (bs : List Block) : List (Nat × Nat) := bs.map fun b => (b.start, b.payload.length)

/-- The filemarks before a position. -/
def marksBefore (marks : List Nat) (position : Nat) : Nat := marks.countP (· < position)

/-- The cartridge in the drive holds these blocks, and the drive's index is theirs. -/
structure Tracked (env : TapeEnv) (t : TapeWorld) (bs : List Block) : Prop where
  loaded : t.tape.mountState ≠ .empty
  layout : t.tape.activeLayout = true
  inv : LayoutInv env.storage t.world
  recorded : Recorded env.storage t.world.disk bs
  starts : t.tape.blockStarts = bs.map Block.start
  lengths : t.tape.blockLengths = lengthsOf bs
  blocksEnd : ∀ b ∈ bs, b.stop ≤ t.tape.eodPosition
  marksEnd : ∀ m ∈ t.tape.filemarks, m < t.tape.eodPosition
  eod : t.tape.eodPosition ≤ u64Max
  current : t.tape.currentPosition ≤ u64Max
  persisted : (t.world.disk.runtime.filemarks.getD []).Perm t.tape.filemarks
  counted : ∀ b ∈ bs, b.marks ≤ marksBefore t.tape.filemarks b.start

variable {env : TapeEnv} {t t' : TapeWorld} {bs : List Block}

theorem Tracked.diskInv (h : Tracked env t bs) : DiskInv env.storage t.world.disk := h.inv.ok.disk

theorem Tracked.start_lt (h : Tracked env t bs) {b : Block} (hb : b ∈ bs) : b.start < b.stop :=
  h.recorded.start_lt h.diskInv hb

/-- An empty tape. -/
theorem Tracked.empty (hloaded : t.tape.mountState ≠ .empty) (hlayout : t.tape.activeLayout = true)
    (hinv : LayoutInv env.storage t.world) (hrec : Recorded env.storage t.world.disk [])
    (hstarts : t.tape.blockStarts = []) (hlengths : t.tape.blockLengths = [])
    (hmarks : t.tape.filemarks = [])
    (hpos : t.tape.eodPosition ≤ u64Max ∧ t.tape.currentPosition ≤ u64Max)
    (hpersisted : t.world.disk.runtime.filemarks.getD [] = []) : Tracked env t [] where
  loaded := hloaded
  layout := hlayout
  inv := hinv
  recorded := hrec
  starts := hstarts
  lengths := hlengths
  blocksEnd := fun b hb => absurd hb (by simp)
  marksEnd := fun m hm => absurd hm (by rw [hmarks]; simp)
  eod := hpos.1
  current := hpos.2
  persisted := .of_eq (hpersisted.trans hmarks.symm)
  counted := fun b hb => absurd hb (by simp)

/-- The drive in the same place with the same index. -/
structure SameIndex (s s' : TapeState) : Prop where
  mountState : s'.mountState = s.mountState
  activeLayout : s'.activeLayout = s.activeLayout
  blockStarts : s'.blockStarts = s.blockStarts
  blockLengths : s'.blockLengths = s.blockLengths
  filemarks : s'.filemarks = s.filemarks
  eodPosition : s'.eodPosition = s.eodPosition

theorem SameIndex.refl (s : TapeState) : SameIndex s s := ⟨rfl, rfl, rfl, rfl, rfl, rfl⟩

theorem SameIndex.trans {s s' s'' : TapeState} (h : SameIndex s s') (h' : SameIndex s' s'') :
    SameIndex s s'' :=
  ⟨h'.mountState.trans h.mountState, h'.activeLayout.trans h.activeLayout,
    h'.blockStarts.trans h.blockStarts, h'.blockLengths.trans h.blockLengths,
    h'.filemarks.trans h.filemarks, h'.eodPosition.trans h.eodPosition⟩

/-- The drive with the same settings. -/
structure SameSettings (s s' : TapeState) : Prop where
  mountState : s'.mountState = s.mountState
  activeLayout : s'.activeLayout = s.activeLayout
  requiresRecovery : s'.requiresRecovery = s.requiresRecovery
  blockMode : s'.blockMode = s.blockMode
  dataCompressionEnabled : s'.dataCompressionEnabled = s.dataCompressionEnabled
  retentionPolicy : s'.retentionPolicy = s.retentionPolicy
  reservationState : s'.reservationState = s.reservationState
  partitionRuntime : s'.partitionRuntime = s.partitionRuntime
  cartridgeCapacityBytes : s'.cartridgeCapacityBytes = s.cartridgeCapacityBytes

theorem SameSettings.refl (s : TapeState) : SameSettings s s :=
  ⟨rfl, rfl, rfl, rfl, rfl, rfl, rfl, rfl, rfl⟩

theorem SameSettings.trans {s1 s2 s3 : TapeState} (h : SameSettings s1 s2)
    (h' : SameSettings s2 s3) : SameSettings s1 s3 :=
  ⟨h'.mountState.trans h.mountState, h'.activeLayout.trans h.activeLayout,
    h'.requiresRecovery.trans h.requiresRecovery, h'.blockMode.trans h.blockMode,
    h'.dataCompressionEnabled.trans h.dataCompressionEnabled,
    h'.retentionPolicy.trans h.retentionPolicy, h'.reservationState.trans h.reservationState,
    h'.partitionRuntime.trans h.partitionRuntime,
    h'.cartridgeCapacityBytes.trans h.cartridgeCapacityBytes⟩

/-- **What the invariant reads.** -/
theorem Tracked.frame (h : Tracked env t bs) (hsame : SameIndex t.tape t'.tape)
    (hcur : t'.tape.currentPosition ≤ u64Max) (hinv : LayoutInv env.storage t'.world)
    (hrec : Recorded env.storage t'.world.disk bs)
    (hmarks : t'.world.disk.runtime.filemarks = t.world.disk.runtime.filemarks) :
    Tracked env t' bs where
  loaded := hsame.mountState ▸ h.loaded
  layout := hsame.activeLayout ▸ h.layout
  inv := hinv
  recorded := hrec
  starts := hsame.blockStarts ▸ h.starts
  lengths := hsame.blockLengths ▸ h.lengths
  blocksEnd := hsame.eodPosition ▸ h.blocksEnd
  marksEnd := by
    rw [hsame.filemarks, hsame.eodPosition]
    exact h.marksEnd
  eod := hsame.eodPosition ▸ h.eod
  current := hcur
  persisted := by
    rw [hmarks, hsame.filemarks]
    exact h.persisted
  counted := hsame.filemarks ▸ h.counted

/-- Only the position and what the invariant does not read changed in the drive. -/
theorem Tracked.setTape (h : Tracked env t bs) {s : TapeState} (hsame : SameIndex t.tape s)
    (hcur : s.currentPosition ≤ u64Max) :
    Tracked env (t.setTape s) bs := h.frame hsame hcur h.inv h.recorded rfl

/-- The world of the cartridge changed without a block coming or going. -/
theorem Tracked.world (h : Tracked env t bs) (hinv : LayoutInv env.storage w)
    (hsame : SameFiles t.world.disk w.disk)
    (hrt : w.disk.runtime.filemarks = t.world.disk.runtime.filemarks) :
    Tracked env (t.setWorld w) bs :=
  h.frame (.refl _) h.current hinv (h.recorded.sameFiles hsame h.diskInv hinv.ok.disk) hrt

theorem Tracked.cacheRead (h : Tracked env t bs) (hread : CacheRead t.world w) :
    Tracked env (t.setWorld w) bs := by
  refine h.world (h.inv.cacheRead hread) ?_ (by rw [hread.disk])
  rw [hread.disk]
  exact .refl _

/-! ## §3. Counting operations. -/

/-- Only the usage counters changed, in the drive and on disk. -/
structure Counted (t t' : TapeWorld) : Prop where
  tape : ∃ c n, t'.tape = { t.tape with usageCounters := c, usageCountersDirtyOps := n }
  world : ∃ u, Beside t.world t'.world { t.world.disk.runtime with usage := u }

theorem Counted.sameIndex (h : Counted t t') : SameIndex t.tape t'.tape := by
  obtain ⟨c, n, htape⟩ := h.tape
  rw [htape]
  exact ⟨rfl, rfl, rfl, rfl, rfl, rfl⟩

theorem Counted.sameSettings (h : Counted t t') : SameSettings t.tape t'.tape := by
  obtain ⟨c, n, htape⟩ := h.tape
  rw [htape]
  exact ⟨rfl, rfl, rfl, rfl, rfl, rfl, rfl, rfl, rfl⟩

theorem Counted.current (h : Counted t t') : t'.tape.currentPosition = t.tape.currentPosition := by
  obtain ⟨c, n, htape⟩ := h.tape
  rw [htape]

theorem Counted.continues (h : Counted t t') : Continues t.world t'.world := by
  obtain ⟨u, hb⟩ := h.world
  exact hb.continues rfl

theorem Tracked.afterCount (h : Tracked env t bs) (hc : Counted t t') : Tracked env t' bs := by
  obtain ⟨u, hb⟩ := hc.world
  have hinv := hb.layoutInv h.inv
  exact h.frame hc.sameIndex (hc.current ▸ h.current) hinv
    (h.recorded.sameFiles hb.sameFiles h.diskInv hinv.ok.disk) (by rw [hb.runtime])

theorem persistUsageCounters_spec : wp (persistUsageCounters env)
      (fun _ t' => Counted t t' ∧ (t.tape.activeLayout = true →
        t'.world.disk.runtime.usage = some t.tape.usageCounters ∧
          t'.tape.usageCounters = t.tape.usageCounters))
      (fun _ t' => t.world.faults ≠ [] ∧ Counted t t') t := by
  unfold persistUsageCounters
  simp only [wp_bind, wp_tapeState]
  rw [wp_ite]
  constructor
  · intro _
    simp only [wp_bind, wp_onLayout, wp_modifyTape]
    -- the counters reach the disk, or the step is cut before or after that
    refine wp_atomicStep ?_ (fun hf => ?_) (fun hf => ?_)
    · exact ⟨⟨⟨_, _, rfl⟩, ⟨_, .stepped _ _⟩⟩, fun _ => ⟨rfl, rfl⟩⟩
    · exact ⟨hf, ⟨_, _, rfl⟩, ⟨_, .stepped_same _⟩⟩
    · exact ⟨hf, ⟨_, _, rfl⟩, ⟨_, .stepped _ _⟩⟩
  · intro hout
    exact ⟨⟨⟨_, _, rfl⟩, ⟨_, .refl _⟩⟩, fun hin => absurd hin hout⟩

theorem Counted.trans {t1 t2 t3 : TapeWorld} (h : Counted t1 t2) (h' : Counted t2 t3) :
    Counted t1 t3 := by
  obtain ⟨c, n, htape⟩ := h.tape
  obtain ⟨u, hb⟩ := h.world
  obtain ⟨c', n', htape'⟩ := h'.tape
  obtain ⟨u', hb'⟩ := h'.world
  refine ⟨⟨c', n', by rw [htape', htape]⟩, ⟨u', ?_⟩⟩
  have hrt := hb.trans hb'
  rw [hb.runtime] at hrt
  exact hrt

/-- **Counting an operation** changes counters only. -/
theorem recordUsage_spec {count : UsageCounters → UsageCounters} :
    wp (recordUsage env count) (fun _ t' => Counted t t')
      (fun _ t' => t.world.faults ≠ [] ∧ Counted t t') t := by
  unfold recordUsage
  simp only [wp_bind, wp_modifyTape, wp_tapeState]
  have hfirst : Counted t (t.setTape { t.tape with
      usageCounters := count t.tape.usageCounters
      usageCountersDirtyOps := satAdd32 t.tape.usageCountersDirtyOps 1 }) :=
    ⟨⟨_, _, rfl⟩, ⟨_, .refl _⟩⟩
  rw [wp_ite]
  constructor
  · intro _
    exact wp_mono persistUsageCounters_spec (fun _ _ h => hfirst.trans h.1)
      (fun _ _ h => ⟨h.1, hfirst.trans h.2⟩)
  · intro _
    exact hfirst

/-! ## §4. Commands that write. -/

/-- A command that could not run left everything as it was. -/
structure Refused (t t' : TapeWorld) : Prop where
  tape : t'.tape = t.tape
  world : t'.world = t.world

theorem Refused.refl (t : TapeWorld) : Refused t t := ⟨rfl, rfl⟩

theorem Refused.counted (h : Refused t t') : Counted t t' := by
  refine ⟨⟨t.tape.usageCounters, t.tape.usageCountersDirtyOps, h.tape⟩,
    ⟨t.world.disk.runtime.usage, ?_⟩⟩
  rw [h.world]
  exact .refl _

theorem Tracked.refused (h : Tracked env t bs) (hr : Refused t t') : Tracked env t' bs := by
  refine h.frame (hr.tape ▸ .refl _) (hr.tape ▸ h.current) (hr.world ▸ h.inv)
    (hr.world ▸ h.recorded) (by rw [hr.world])

theorem Tracked.asked (h : Tracked env t bs) :
    Tracked env { t with requests := t.requests + 1 } bs :=
  h.refused ⟨rfl, rfl⟩

/-- What a clean checkpoint promises holds. -/
def CleanOk (d : Disk) : Prop := d.checkpoint.flags = .clean → Consistent d

theorem Tracked.cleanOk (h : Tracked env t bs) : CleanOk t.world.disk := h.inv.crashInv.clean

/-- The drive asks for recovery and has dropped the caches. -/
structure Broken (t : TapeWorld) : Prop where
  recovery : t.tape.requiresRecovery = true
  cold : t.world.mem = .empty

/-- **The end of a command that writes**: its body succeeds, or the drive asks for
recovery with the disk as the body left it. -/
theorem finishWriteCommand_spec {body : TapeM Unit} {Q : Unit → TapeWorld → Prop} {P : Disk → Prop}
    (h : wp body Q (fun _ t' => P t'.world.disk) t) :
    wp (finishWriteCommand body) Q (fun _ t' => Broken t' ∧ P t'.world.disk) t := by
  unfold finishWriteCommand
  simp only [wp_bind, wp_attempt]
  refine wp_mono h (fun _ _ hq => hq) (fun e t' hP => ?_)
  exact ⟨⟨rfl, rfl⟩, hP⟩

/-! ## §5. Checks. -/

theorem guard_tapeState {g : TapeState → TapeM Unit} {P : TapeState → TapeWorld → Prop}
    (h : ∀ s, Guard (g s) (P s)) : Guard (tapeState >>= g) (fun t => P t.tape t) :=
  ⟨fun t ht => (h t.tape).pass t ht, fun t ht => (h t.tape).refuse t ht⟩

theorem guard_ensureLoaded : Guard ensureLoaded (fun t => t.tape.mountState ≠ .empty) :=
  guard_tapeState fun _ => .check _ _

theorem guard_ensureRecoveryComplete :
    Guard ensureRecoveryComplete (fun t => ¬ t.tape.requiresRecovery = true) :=
  guard_tapeState fun _ => .check _ _

theorem guard_ensureLayout : Guard ensureLayout (fun t => ¬ t.tape.activeLayout = false) :=
  guard_tapeState fun _ => .check _ _

theorem guard_validatePayloadLen (len : Nat) :
    Guard (validatePayloadLen len) (fun _ => ¬ u32Max < len) := .check _ _

/-- The medium may not be changed any more. -/
abbrev TapeState.Locked (s : TapeState) : Prop :=
  s.retentionPolicy.isWormMedia = true ∧ s.retentionPolicy.retentionLocked = true

/-- The initiator may touch the medium, and the medium may be changed. -/
def Allowed (s : TapeState) (initiator : Option String) : Prop :=
  ensureReservationAccess s (initiator.getD defaultInitiator) = .ok () ∧ ¬ s.Locked

theorem guard_enforceProtectedAccess (initiator : Option String) :
    Guard (enforceProtectedAccess initiator) (fun t => Allowed t.tape initiator) :=
  guard_tapeState fun _ => (Guard.ofExcept _).seq (.check _ _)

/-- A write here would only append. -/
def Appends (s : TapeState) : Prop :=
  ¬ (s.retentionPolicy.isWormMedia = true ∧ s.currentPosition < s.eodPosition)

theorem guard_enforceWormAppendOnly : Guard enforceWormAppendOnly (fun t => Appends t.tape) :=
  guard_tapeState fun _ => .check _ _

/-- Nothing on WORM media would be erased. -/
def Erasable (s : TapeState) : Prop :=
  ¬ (s.retentionPolicy.isWormMedia = true ∧
    (0 < s.eodPosition ∨ s.blockStarts ≠ [] ∨ s.filemarks ≠ []))

theorem guard_enforceWormEraseAllowed : Guard enforceWormEraseAllowed (fun t => Erasable t.tape) :=
  guard_tapeState fun _ => .check _ _

/-- So many bytes fit on the partition. -/
def HasRoom (s : TapeState) (bytes : Nat) : Prop :=
  ∀ limit, activePartitionCapacityLimit s = some limit →
    ¬ limit < satAdd64 s.currentPosition bytes

theorem guard_ensureCapacityAvailable (bytes : Nat) :
    Guard (ensureCapacityAvailable bytes) (fun t => HasRoom t.tape bytes) := by
  refine guard_tapeState (P := fun s _ => HasRoom s bytes) fun s => ?_
  unfold HasRoom
  cases hlimit : activePartitionCapacityLimit s with
  | none => exact ⟨fun t _ => rfl, fun t hno => absurd (fun _ h => absurd h (by simp)) hno⟩
  | some limit =>
    grind [Guard.check]

/-- The counter of requests for space is no part of what a command leaves. -/
theorem acquireSpaceAdmission_spec {refused : TapeError} : wp (acquireSpaceAdmission env refused)
      (fun _ t' => t' = { t with requests := t.requests + 1 })
      (fun _ t' => Refused t t' ∧ env.admits t.requests = false) t := by
  unfold acquireSpaceAdmission
  simp only [wp_bind, wp_get, wp_modify, wp_check]
  exact ⟨fun hno => ⟨⟨rfl, rfl⟩, hno⟩, fun _ => trivial⟩

theorem acquireSpaceAdmission_granted {refused : TapeError} (h : env.admits t.requests = true) :
    wp (acquireSpaceAdmission env refused) (fun _ t' => t' = { t with requests := t.requests + 1 })
      (fun _ _ => False) t :=
  wp_mono acquireSpaceAdmission_spec (fun _ _ ht => ht) (fun _ _ hr => by simp [hr.2] at h)

theorem acquireSpaceAdmission_refused {refused : TapeError} (h : env.admits t.requests = false) :
    wp (acquireSpaceAdmission env refused) (fun _ _ => False) (fun _ t' => Refused t t') t := by
  unfold acquireSpaceAdmission
  simp only [wp_bind, wp_get, wp_modify, wp_check]
  exact ⟨fun _ => ⟨rfl, rfl⟩, fun hyes => absurd h hyes⟩

end Holo.Tape
