/-
Holo.Tape.Reload — taking a cartridge out and putting it in again.

What a mount builds from the disk is determined by the blocks and the list of filemarks on
it: the starts and lengths come back as they were, the filemarks come back sorted, and the
end of data is where the last block ends or one default block behind the last filemark.

Main results:
* `hydrated_eq`: the drive's state after a mount, from blocks and filemarks;
* `detachCartridge_spec`: a cartridge taken out lies flushed and clean;
* `attachCartridge_spec`: and comes back in, if the loaders accept its files.
-/
import Mathlib.Data.List.Induction
import Holo.Tape.Moving

namespace Holo.Tape

open Lib Program Storage List

variable {env : TapeEnv} {t t' : TapeWorld} {bs : List Block}

/-! ## §1. The records of the blocks. -/

/-- What a mount looks at of a record. -/
def recordEntry (r : BlkMapRecord) : Nat × Nat × Nat :=
  (r.logicalStart, r.logicalLen, r.filemarkCount)

/-- The same of a block. -/
def blockEntry (b : Block) : Nat × Nat × Nat := (b.start, b.payload.length, b.marks)

variable {d : Disk}

theorem active_starts_nodup {env : Env} (h : DiskInv env d) :
    (d.active.map (·.logicalStart)).Nodup := by
  have hnodup : d.active.Nodup := (d.records_nodup.of_map).filter _
  refine Nodup.map_on (fun r hr x hx hs => ?_) hnodup
  obtain ⟨hmem, hact⟩ := Disk.mem_active.mp hr
  obtain ⟨hmem', hact'⟩ := Disk.mem_active.mp hx
  -- two extents that start at one place both cover it
  have hcov : ∀ y ∈ d.records, y.isActive → y.covers y.logicalStart = true := by
    intro y hy hay
    have hpos := h.extents.pos y hy hay
    rw [BlkMapRecord.covers_iff]
    unfold BlkMapRecord.logicalEnd
    rw [satAdd64_eq (h.extents.bound y hy hay)]
    omega
  refine h.extents.unique d.records_nodup hmem hmem' hact hact' (hcov r hmem hact) ?_
  rw [show r.logicalStart = x.logicalStart from hs]
  exact hcov x hmem' hact'

variable {records : List BlkMapRecord} {rt : RuntimeFiles} {t1 : TapeWorld}

/-- **The active records, in order, are the blocks.** -/
theorem sorted_active_entries {env : Env} (hinv : DiskInv env d) (hrec : Recorded env d bs)
    (hp : records.Perm d.records) :
    (sortByKey (·.logicalStart) (records.filter (·.isActive))).map recordEntry =
      bs.map blockEntry := by
  have hact : (sortByKey (·.logicalStart) (records.filter (·.isActive))).Perm d.active :=
    (sortByKey_perm _ _).trans (hp.filter _)
  have hstarts : ((d.active.map recordEntry).map Prod.fst).Nodup := by
    rw [map_map]
    exact active_starts_nodup hinv
  have hblocks : ((bs.map blockEntry).map Prod.fst).Nodup := by
    rw [map_map]
    exact hrec.nodup_starts hinv
  -- records and blocks tell the same about each other, and no two start together
  have hsame : (d.active.map recordEntry).Perm (bs.map blockEntry) := by
    refine (perm_ext_iff_of_nodup hstarts.of_map hblocks.of_map).mpr (fun x => ?_)
    rw [mem_map, mem_map]
    constructor
    · intro hout
      obtain ⟨r, hr, hx⟩ := hout
      obtain ⟨b, hb, hs, hl, hm⟩ := hinv.exists_block hr
      refine ⟨b, (hrec.mem b).mp hb, ?_⟩
      rw [← hx]
      unfold blockEntry recordEntry
      rw [hs, hl, hm]
    intro hout
    obtain ⟨b, hb, hx⟩ := hout
    obtain ⟨r, hr, hold⟩ := (hrec.mem b).mpr hb
    refine ⟨r, hr, ?_⟩
    rw [← hx]
    unfold blockEntry recordEntry
    rw [hold.start_eq, hold.len_eq, hold.marks_eq]
  have hperm := (hact.map recordEntry).trans hsame
  have hleft : SortedBy Prod.fst ((sortByKey (·.logicalStart)
      (records.filter (·.isActive))).map recordEntry) :=
    pairwise_map.mpr (sortByKey_sorted _ _)
  refine hleft.eq_of_perm ?_ hperm ((hperm.map Prod.fst).nodup_iff.mpr hblocks)
  exact pairwise_map.mpr ((hrec.ascending hinv).imp (fun hab => hab.le))

/-! ## §2. What a mount builds. -/

/-- The end of the last block. -/
def blocksEnd (bs : List Block) : Nat := (bs.map Block.stop).foldl max 0

theorem blocksEnd_append (bs : List Block) (b : Block) :
    blocksEnd (bs ++ [b]) = max (blocksEnd bs) b.stop := by
  unfold blocksEnd
  rw [map_append, foldl_append]
  rfl

/-- What the loop has gathered from the blocks so far. -/
def hydration (marks : List Nat) (bs : List Block) : Hydration :=
  ⟨marks, 0, bs.map Block.start, lengthsOf bs, blocksEnd bs⟩

variable {step : Nat} {marks : List Nat}

theorem Hydration.add_block {pre : List Block} {b : Block} {r : BlkMapRecord}
    (hr : recordEntry r = blockEntry b) (hb : b.stop ≤ u64Max) (hpre : ∀ a ∈ pre, a.start < b.start)
    (hcount : marks = [] → b.marks = 0) :
    (hydration marks pre).add step r = hydration marks (pre ++ [b]) := by
  have hs : r.logicalStart = b.start := congrArg Prod.fst hr
  have hl : r.logicalLen = b.payload.length := congrArg (fun x => x.2.1) hr
  have hm : r.filemarkCount = b.marks := congrArg (fun x => x.2.2) hr
  have hend : r.logicalEnd = b.stop := by
    unfold BlkMapRecord.logicalEnd
    rw [hs, hl]
    exact satAdd64_eq hb
  -- filemarks are made up only where none is known and a record counts some
  have hmissing : (if marks = [] then r.filemarkCount - 0 else 0) = 0 := by grind
  have hkeys : ∀ a ∈ lengthsOf pre, a.1 < b.start := by
    intro a ha
    obtain ⟨c, hc, rfl⟩ := mem_map.mp ha
    exact hpre c hc
  have hnew : r.logicalStart ∉ (lengthsOf pre).map Prod.fst := by
    intro hmem
    obtain ⟨a, ha, heq⟩ := mem_map.mp hmem
    have := hkeys a ha
    omega
  have hfilter : (lengthsOf pre).filter (fun x => x.1 ≠ r.logicalStart) = lengthsOf pre := by
    refine filter_eq_self.mpr (fun a ha => decide_eq_true ?_)
    have := hkeys a ha
    omega
  -- the block is behind those before it, so that its entry goes to the end
  have hins : insertByKey Prod.fst (r.logicalStart, r.logicalLen) (lengthsOf pre) =
      lengthsOf pre ++ [(r.logicalStart, r.logicalLen)] := by
    unfold insertByKey
    rw [if_pos]
    rw [Option.all_eq_true]
    intro x hx
    have := hkeys x (mem_of_getLast? hx)
    rw [hs]
    exact decide_eq_true this.le
  unfold Hydration.add hydration
  simp only [hmissing, lt_irrefl, if_false, if_neg hnew, hfilter, hins, blocksEnd_append,
    map_append, hend]
  rw [hs, hl]
  unfold lengthsOf
  rw [map_append]
  rfl

theorem foldl_hydration (rs : List BlkMapRecord) :
    ∀ {pre post : List Block}, rs.map recordEntry = post.map blockEntry →
      (pre ++ post).Pairwise (fun a b => a.start < b.start) →
      (∀ b ∈ post, b.stop ≤ u64Max ∧ (marks = [] → b.marks = 0)) →
      rs.foldl (Hydration.add step) (hydration marks pre) = hydration marks (pre ++ post) := by
  induction rs with
  | nil =>
    simp
  | cons r rs ih =>
    intro pre post hmap hasc hpost
    cases post with
    | nil => cases hmap
    | cons b post =>
      rw [map_cons, map_cons, List.cons.injEq] at hmap
      obtain ⟨hfits, hcount⟩ := hpost b mem_cons_self
      have hbefore : ∀ a ∈ pre, a.start < b.start := fun a ha =>
        (pairwise_append.mp hasc).2.2 a ha b mem_cons_self
      rw [foldl_cons, Hydration.add_block hmap.1 hfits hbefore hcount]
      have hassoc : pre ++ [b] ++ post = pre ++ b :: post := by simp
      rw [← hassoc] at hasc ⊢
      exact ih hmap.2 hasc (fun c hc => hpost c (mem_cons_of_mem b hc))

/-- The end of data after a mount. -/
def mountedEnd (step : Nat) (bs : List Block) (marks : List Nat) : Nat :=
  match marks.max? with
  | none => blocksEnd bs
  | some last => max (blocksEnd bs) (satAdd64 last step)

/-- **The drive's state after a mount.** -/
theorem hydrated_eq {env : Env} (hinv : DiskInv env d) (hrec : Recorded env d bs)
    (hp : records.Perm d.records) (hcount : ∀ b ∈ bs, b.marks ≤ marksBefore marks b.start)
    (s : TapeState) (retention : Option RetentionPolicy) :
    s.hydrated records marks retention = { s with
        currentPosition := 0
        eodPosition := mountedEnd (logicalPositionStep s) bs (sortByKey id marks)
        filemarks := sortByKey id marks
        blockStarts := bs.map Block.start
        blockLengths := lengthsOf bs
        retentionPolicy := retention.getD s.retentionPolicy } := by
  have hentries := sorted_active_entries hinv hrec hp
  have hasc := hrec.ascending hinv
  have hnone : sortByKey id marks = [] → ∀ b ∈ bs, b.marks = 0 := by
    intro hnil b hb
    have hmarks : marks = [] :=
      eq_nil_of_length_eq_zero (by
        rw [← (sortByKey_perm id marks).length_eq, hnil]
        rfl)
    have := hcount b hb
    rw [hmarks] at this
    simpa [marksBefore] using this
  -- in order of position the active records are the blocks, one turn each
  have hfold : (sortByKey (·.logicalStart) (records.filter (·.isActive))).foldl
      (Hydration.add (logicalPositionStep s)) (hydration (sortByKey id marks) []) =
        hydration (sortByKey id marks) ([] ++ bs) :=
    foldl_hydration _ hentries hasc (fun b hb => ⟨(hinv.hasBlock_fits ((hrec.mem b).mpr hb)).2,
      fun hnil => hnone hnil b hb⟩)
  have hstarts : sortByKey id (bs.map Block.start) = bs.map Block.start :=
    sortByKey_eq_self (pairwise_map.mpr (hasc.imp (fun hab => hab.le)))
  have h0 : (⟨sortByKey id marks, 0, [], [], 0⟩ : Hydration) = hydration (sortByKey id marks) [] :=
    rfl
  unfold TapeState.hydrated
  simp only [h0, hfold]
  simp only [hydration, nil_append, hstarts]
  rfl

/-! ## §3. Out of the drive. -/

/-- A cartridge outside the drive: flushed, clean, nothing cached. -/
structure Shelved (env : TapeEnv) (t : TapeWorld) (bs : List Block) (marks : List Nat) :
    Prop where
  empty : t.tape.mountState = .empty
  cold : t.world.mem = .empty
  disk : CrashInv env.storage t.world.disk
  clean : t.world.disk.checkpoint.flags = .clean
  recorded : Recorded env.storage t.world.disk bs
  persisted : (t.world.disk.runtime.filemarks.getD []).Perm marks
  marksBound : ∀ m ∈ marks, m < u64Max
  counted : ∀ b ∈ bs, b.marks ≤ marksBefore marks b.start

/-- What taking a cartridge out leaves. -/
structure Detached (env : TapeEnv) (t t' : TapeWorld) (bs : List Block) : Prop where
  shelved : Shelved env t' bs t.tape.filemarks
  filemarks : t'.world.disk.runtime.filemarks = t.world.disk.runtime.filemarks
  retention : t'.world.disk.runtime.retention = t.world.disk.runtime.retention
  compression : t'.tape.dataCompressionEnabled = t.tape.dataCompressionEnabled
  faults : t'.world.faults ⊆ t.world.faults
  usage : t.world.faults = [] → t'.world.disk.runtime.usage = some t.tape.usageCounters
  flushed : ∃ b w rt, flushPendingWrites env.storage t.world = (.ok b, w) ∧
    t'.world.disk = { w.disk with runtime := rt }

theorem Beside.crashInv {env : Env} {w w' : World} (h : Beside w w' rt)
    (hinv : CrashInv env w.disk) :
    CrashInv env w'.disk := by
  have hidx : w'.disk.segIndex = w.disk.segIndex := by rw [h.disk]
  have hindexed : w'.disk.indexed = w.disk.indexed := by
    unfold Disk.indexed
    rw [hidx]
  refine ⟨hinv.disk.frame h.sameFiles hidx, fun hclean => ?_⟩
  have hclean : w.disk.checkpoint.flags = .clean := by
    rw [h.disk] at hclean
    exact hclean
  have hcons := hinv.clean hclean
  refine ⟨?_, hcons.counts.frame h.sameFiles, ?_, ?_⟩
  · rw [h.sameFiles.records, h.sameFiles.lookups]
    exact hcons.described
  · rw [hidx]
    exact hcons.covers.frame h.sameFiles hindexed
  · exact hcons.next.sameFiles h.sameFiles (by rw [hidx])

variable {w : World}

theorem discardLayoutCaches_spec :
    wp discardLayoutCaches (fun _ w' => w' = { w with mem := .empty }) (fun _ _ => False)
      w := rfl

theorem unmount_spec {env : TapeEnv} {t : TapeWorld} :
    wp (unmount env) (fun _ t' => ∃ t1, Counted t t1 ∧ t' = t1.setTape t1.tape.unmounted ∧
        (t.world.faults = [] → t.tape.activeLayout = true →
          t1.world.disk.runtime.usage = some t.tape.usageCounters))
      (fun _ _ => False) t := by
  unfold unmount
  simp only [wp_bind, wp_attempt, wp_modifyTape]
  exact wp_mono persistUsageCounters_spec
    (fun _ t1 hc => ⟨t1, hc.1, rfl, fun _ hlayout => (hc.2 hlayout).1⟩)
    (fun _ t1 hc => ⟨t1, hc.2, rfl, fun hnil => absurd hnil hc.1⟩)

/-- **Taking the cartridge out** of a drive that does not ask for recovery. -/
theorem detachCartridge_spec (h : Tracked env t bs) (hready : t.tape.requiresRecovery ≠ true) :
    wp (detachCartridge env) (fun _ t' => Detached env t t' bs)
      (fun _ _ => t.world.faults ≠ [] ∨ ¬ t.world.disk.segIndex.index.Loadable) t := by
  unfold detachCartridge
  rw [wp_bind, wp_tapeState, if_pos h.layout, if_neg hready]
  simp only [wp_bind, wp_onLayout]
  refine wp_mono_run (flush_spec h) ?_ ?_
  swap
  · intro _ w1 _ hout
    obtain ⟨-, hreason⟩ := hout
    by_cases hnil : t.world.faults = []
    · exact .inr (hreason hnil)
    · exact .inl hnil
  intro b w1 hflush hout
  obtain ⟨h1, hclean, hrt, hfaults1⟩ := hout
  refine wp_mono persistUsageCounters_spec ?_ ?_
  swap
  · intro _ t2 hout
    obtain ⟨hf, -⟩ := hout
    exact .inl (ne_nil_of_subset hfaults1 hf)
  intro _ t2 hout
  obtain ⟨hc, hsame⟩ := hout
  have h2 := h1.afterCount hc
  refine wp_mono discardLayoutCaches_spec ?_ (fun _ _ hf => hf.elim)
  intro _ w3 hw3
  subst hw3
  refine wp_mono unmount_spec ?_ (fun _ _ hf => hf.elim)
  intro _ t4 hout
  obtain ⟨t3, hc3, ht4, husage3⟩ := hout
  subst ht4
  obtain ⟨u, hb⟩ := hc.world
  obtain ⟨u3, hb3⟩ := hc3.world
  have hflags : t3.world.disk.checkpoint.flags = .clean := by
    rw [hb3.disk]
    show t2.world.disk.checkpoint.flags = .clean
    rw [hb.disk]
    exact hclean
  have hmarks : t3.world.disk.runtime.filemarks = t.world.disk.runtime.filemarks := by
    rw [hb3.runtime]
    show t2.world.disk.runtime.filemarks = _
    rw [hb.runtime]
    show w1.disk.runtime.filemarks = _
    rw [hrt]
  have hcrash : CrashInv env.storage t3.world.disk :=
    hb3.crashInv (hb.crashInv h1.inv.crashInv)
  have hrec : Recorded env.storage t3.world.disk bs :=
    h2.recorded.sameFiles hb3.sameFiles h2.diskInv hcrash.disk
  refine ⟨⟨rfl, ?_, hcrash, hflags, hrec, ?_, ?_, h.counted⟩, hmarks, ?_, ?_, ?_, ?_, b, w1,
    t3.world.disk.runtime, hflush, ?_⟩
  · exact hb3.mem
  · show (t3.world.disk.runtime.filemarks.getD []).Perm _
    rw [hmarks]
    exact h.persisted
  · exact fun m hm => (h.marksEnd m hm).trans_le h.eod
  · show t3.world.disk.runtime.retention = _
    rw [hb3.runtime]
    show t2.world.disk.runtime.retention = _
    rw [hb.runtime]
    show w1.disk.runtime.retention = _
    rw [hrt]
  · show t3.tape.dataCompressionEnabled = _
    rw [hc3.sameSettings.dataCompressionEnabled]
    exact hc.sameSettings.dataCompressionEnabled
  · exact fun _ hx => hfaults1 (hb.faults (hb3.faults hx))
  · -- both writes of the counters write those of the session
    intro hnil
    have hnil2 : t2.world.faults = [] :=
      subset_nil.mp (hnil ▸ fun _ hx => hfaults1 (hb.faults hx))
    have hcounters : t2.tape.usageCounters = t.tape.usageCounters := (hsame h1.layout).2
    rw [← hcounters]
    exact husage3 hnil2 h2.layout
  · have hd3 : t3.world.disk = { t2.world.disk with runtime := t3.world.disk.runtime } := by
      rw [hb3.runtime]
      exact hb3.disk
    refine hd3.trans ?_
    rw [hb.disk]
    rfl

/-! ## §4. Into the drive. -/

/-- The files beside the layout once the load is counted. -/
def countedLoad (t : TapeWorld) : RuntimeFiles :=
  { t.world.disk.runtime with
    usage := some (t.tape.mounted (t.world.disk.runtime.usage.getD zeroUsage)).usageCounters }

/-- What the loaders of a mount accept. -/
structure Reloadable (t : TapeWorld) : Prop where
  accepted : LayoutAccepted t.world.disk
  sizes : existingBytes (metadataFileSizes { t.world.disk with runtime := countedLoad t }) ≤
    maxMaintenanceMetadataBytes
  blkMap : t.world.disk.blkMap.Loadable blkMapLog
  filemarks : (t.world.disk.runtime.filemarks.getD []).length ≤ maxFilemarks

/-- The cartridge is in the drive. -/
structure Attached (env : TapeEnv) (t t' : TapeWorld) (bs : List Block) (marks : List Nat) :
    Prop where
  tracked : Tracked env t' bs
  filemarks : t'.tape.filemarks = sortByKey id marks
  current : t'.tape.currentPosition = 0
  eod : t'.tape.eodPosition = mountedEnd 262144 bs (sortByKey id marks)
  recovery : t'.tape.requiresRecovery = false
  blockMode : t'.tape.blockMode = .default
  partitions : t'.tape.partitionRuntime = .default ∧ t'.tape.cartridgeCapacityBytes = none
  retention : t'.tape.retentionPolicy = t.world.disk.runtime.retention.getD noRetention
  persisted : t'.world.disk.runtime.filemarks = t.world.disk.runtime.filemarks ∧
    t'.world.disk.runtime.retention = t.world.disk.runtime.retention
  clean : t'.world.disk.checkpoint.flags = .clean
  compression : t'.tape.dataCompressionEnabled = t.tape.dataCompressionEnabled
  faults : t'.world.faults ⊆ t.world.faults
  disk : ∃ rt, t'.world.disk = { t.world.disk with runtime := rt }
  cold : lookupSlot.cache t'.world.mem = none
  idle : t'.world.mem.pending = 0
  limits : t.world.faults = [] → Reloadable t

theorem loadFilemarks_eq (d : Disk) :
    loadFilemarks d = if maxFilemarks < (d.runtime.filemarks.getD []).length then
      .error (.corrupt "filemarks state exceeds maximum supported size")
    else .ok (d.runtime.filemarks.getD []) := by
  unfold loadFilemarks
  cases hm : d.runtime.filemarks with
  | none => rfl
  | some marks =>
    have hiff : filemarksLen marks > 8 + maxFilemarks * 8 ↔ maxFilemarks < marks.length := by
      unfold filemarksLen
      omega
    simp only [Option.getD_some, hiff]

theorem blocksEnd_spec (bs : List Block) :
    (∀ b ∈ bs, b.stop ≤ blocksEnd bs) ∧ ∀ p, (∀ b ∈ bs, b.stop ≤ p) → blocksEnd bs ≤ p := by
  induction bs using reverseRecOn with
  | nil => exact ⟨fun b hb => absurd hb (by simp), fun p _ => Nat.zero_le p⟩
  | append_singleton bs b ih =>
    rw [blocksEnd_append]
    constructor
    · grind
    · intro p hp
      refine max_le (ih.2 p (fun c hc => hp c (mem_append_left _ hc))) (hp b (by simp))

/-- **The end of data after a mount** is behind every block and every filemark. -/
theorem mountedEnd_spec (hstep : 0 < step) (hblocks : ∀ b ∈ bs, b.stop ≤ u64Max)
    (hmarks : ∀ m ∈ marks, m < u64Max) :
    (∀ b ∈ bs, b.stop ≤ mountedEnd step bs marks) ∧
      (∀ m ∈ marks, m < mountedEnd step bs marks) ∧ mountedEnd step bs marks ≤ u64Max := by
  obtain ⟨hle, hleast⟩ := blocksEnd_spec bs
  unfold mountedEnd
  cases hmax : marks.max? with
  | none =>
    simp_all
  | some last =>
    obtain ⟨hmem, hbound⟩ := max?_eq_some_iff.mp hmax
    have hlast := hmarks last hmem
    refine ⟨fun b hb => (hle b hb).trans (le_max_left _ _), fun m hm => ?_,
      max_le (hleast _ hblocks) (satAdd64_le _ _)⟩
    grind [satAdd64]

/-- What the loaders ask of the disk of a mounted cartridge. -/
structure Hydratable (d : Disk) : Prop where
  sizes : existingBytes (metadataFileSizes d) ≤ maxMaintenanceMetadataBytes
  blkMap : d.blkMap.Loadable blkMapLog
  filemarks : (d.runtime.filemarks.getD []).length ≤ maxFilemarks

/-- The drive's state was read from the disk. -/
structure Hydrated (env : TapeEnv) (t₁ t' : TapeWorld) (bs : List Block) (marks : List Nat) :
    Prop where
  inv : LayoutInv env.storage t'.world
  tape : t'.tape = { t₁.tape with
    currentPosition := 0
    eodPosition := mountedEnd (logicalPositionStep t₁.tape) bs (sortByKey id marks)
    filemarks := sortByKey id marks
    blockStarts := bs.map Block.start
    blockLengths := lengthsOf bs
    retentionPolicy := t₁.world.disk.runtime.retention.getD t₁.tape.retentionPolicy }
  disk : t'.world.disk = t₁.world.disk
  faults : t'.world.faults = t₁.world.faults
  cold : lookupSlot.cache t'.world.mem = none
  idle : t'.world.mem.pending = 0
  limits : Hydratable t₁.world.disk

/-- **Reading a clean layout** into the drive. -/
theorem hydrateRuntimeFromLayout_spec (hcold : t1.world.mem = .empty)
    (hcrash : CrashInv env.storage t1.world.disk) (hclean : t1.world.disk.checkpoint.flags = .clean)
    (hrec : Recorded env.storage t1.world.disk bs)
    (hmarks : (t1.world.disk.runtime.filemarks.getD []).Perm marks)
    (hcount : ∀ b ∈ bs, b.marks ≤ marksBefore marks b.start) :
    wp (hydrateRuntimeFromLayout env) (fun _ t' => Hydrated env t1 t' bs marks)
      (fun _ _ => ¬ Hydratable t1.world.disk) t1 := by
  have hsorted : sortByKey id (t1.world.disk.runtime.filemarks.getD []) = sortByKey id marks :=
    (sortByKey_sorted id _).eq_of_perm_id (sortByKey_sorted id _)
      ((sortByKey_perm id _).trans (hmarks.trans (sortByKey_perm id _).symm))
  have hcount' : ∀ b ∈ bs,
      b.marks ≤ marksBefore (t1.world.disk.runtime.filemarks.getD []) b.start := by
    intro b hb
    refine (hcount b hb).trans (le_of_eq ?_)
    exact (hmarks.countP_eq _).symm
  unfold hydrateRuntimeFromLayout
  simp only [wp_bind, wp_onLayout, wp_get]
  refine wp_then (recoverDirtyState_spec hcrash.disk hcold) ?_ ?_
  · intro _ w1 hfail hlim
    rcases hfail with ⟨_, hsize | hbud⟩ | ⟨hflags, _⟩
    · exact hsize hlim.sizes
    · exact hbud.1 hclean
    · exact hflags hclean
  intro report w1 hout
  obtain ⟨hdone, -⟩ := hout
  -- a clean checkpoint is not repaired; the records and the filemarks are read
  cases hdone with
  | dirty hflags _ _ => exact absurd hclean hflags
  | clean _ heq hsize =>
    subst heq
    have hinv0 := hcrash.restarted hcold hclean
    have hinv1 : LayoutInv env.storage { t1.world with
        mem := t1.world.mem.setCheckpoint t1.world.disk.checkpoint } :=
      ⟨hinv0.ok.setCheckpointCache, hinv0.covered, hinv0.clean⟩
    have hnone : blkMapSlot.cache (t1.world.mem.setCheckpoint t1.world.disk.checkpoint) = none := by
      rw [hcold]
      rfl
    unfold loadBlkMapRecords
    simp only [wp_bind, wp_pure]
    refine wp_then (ensureCacheFresh_cold hnone) ?_ ?_
    · intro _ w2 hout hlim
      obtain ⟨-, hno⟩ := hout
      exact hno hlim.blkMap
    intro c w2 hout
    obtain ⟨hw2, hready, hload⟩ := hout
    subst hw2
    have hinv2 := hinv1.cacheRead (hinv1.ok.readBlkMap hready)
    rw [wp_ofExcept]
    show (∀ a, loadFilemarks t1.world.disk = .ok a → _) ∧
        (∀ e, loadFilemarks t1.world.disk = .error e → _)
    rw [loadFilemarks_eq]
    by_cases hmany : maxFilemarks < (t1.world.disk.runtime.filemarks.getD []).length
    · rw [if_pos hmany]
      refine ⟨fun a ha => absurd ha (by simp), fun e _ hlim => ?_⟩
      have := hlim.filemarks
      omega
    rw [if_neg hmany]
    refine ⟨fun a ha => ?_, fun e he => absurd he (by simp)⟩
    injection ha with ha
    subst ha
    have hperm : c.records.Perm t1.world.disk.records := hready.ok.perm
    have hhyd := hydrated_eq hcrash.disk hrec hperm hcount' t1.tape t1.world.disk.runtime.retention
    rw [hsorted] at hhyd
    refine ⟨hinv2, hhyd, rfl, rfl, ?_, ?_, hsize, hload, not_lt.mp hmany⟩
    · show lookupSlot.cache (blkMapSlot.setCache (t1.world.mem.setCheckpoint _) _) = none
      rw [hcold]
      rfl
    · show (blkMapSlot.setCache (t1.world.mem.setCheckpoint _) _).pending = 0
      rw [hcold]
      rfl

theorem Hydrated.tracked (h : Hydrated env t1 t' bs marks) (hloaded : t1.tape.mountState ≠ .empty)
    (hlayout : t1.tape.activeLayout = true) (hrec : Recorded env.storage t1.world.disk bs)
    (hmarks : (t1.world.disk.runtime.filemarks.getD []).Perm marks)
    (hbound : ∀ m ∈ marks, m < u64Max) (hcount : ∀ b ∈ bs, b.marks ≤ marksBefore marks b.start) :
    Tracked env t' bs := by
  have hperm := sortByKey_perm id marks
  have htape := h.tape
  have hrec' : Recorded env.storage t'.world.disk bs := h.disk ▸ hrec
  obtain ⟨hblocks, hmarksEnd, heod⟩ := mountedEnd_spec (logicalPositionStep_pos t1.tape)
    (fun b hb => (h.inv.ok.disk.hasBlock_fits ((hrec'.mem b).mpr hb)).2)
    (fun m hm => hbound m (hperm.mem_iff.mp hm))
  obtain ⟨tape, world, requests⟩ := t'
  obtain rfl : tape = _ := htape
  constructor
  case loaded => exact hloaded
  case layout => exact hlayout
  case inv => exact h.inv
  case recorded => exact hrec'
  case starts | lengths => rfl
  case blocksEnd => exact hblocks
  case marksEnd => exact hmarksEnd
  case eod => exact heod
  case current => exact Nat.zero_le _
  case persisted =>
    rw [h.disk]
    exact hmarks.trans hperm.symm
  case counted =>
    intro b hb
    refine (hcount b hb).trans (le_of_eq ?_)
    exact (hperm.countP_eq _).symm

/-- **Putting a cartridge in.** -/
theorem attachCartridge_spec (h : Shelved env t bs marks) :
    wp (attachCartridge env) (fun _ t' => Attached env t t' bs marks)
      (fun _ t' => t'.tape = t.tape ∧ (t.world.faults = [] → ¬ Reloadable t)) t := by
  refine (Guard.check _ _).bind_of_refuse (fun hno _ => absurd h.empty ?_) (fun _ => ?_)
  · exact fun he => hno (fun hne => hne he)
  rw [wp_bind, wp_onLayout]
  refine wp_mono loadLayout_spec ?_ ?_
  swap
  · intro _ w hout
    obtain ⟨hw, hno⟩ := hout
    exact ⟨rfl, fun _ hre => hno hre.accepted⟩
  intro _ w hout
  obtain ⟨hw, -, hacc⟩ := hout
  subst hw
  simp only [wp_bind, wp_attempt]
  -- mounting counts the load, which touches the usage file alone
  refine wp_mono mount_spec ?_ (fun _ _ hf => hf.elim)
  rintro _ ⟨tape, w1, requests1⟩ ⟨hc, husage⟩
  obtain ⟨c, n, htape⟩ := hc.tape
  obtain ⟨u, hb⟩ := hc.world
  obtain rfl : tape = _ := htape
  have hcrash1 := hb.crashInv h.disk
  have hrec1 := h.recorded.sameFiles hb.sameFiles h.disk.disk hcrash1.disk
  have hrt := hb.runtime
  have hmarks1 : (w1.disk.runtime.filemarks.getD []).Perm marks := by
    rw [hrt]
    exact h.persisted
  have hclean1 : w1.disk.checkpoint.flags = .clean := by
    rw [hb.disk]
    exact h.clean
  have hlimits : t.world.faults = [] → (Hydratable w1.disk ↔ Reloadable t) := by
    intro hnil
    have hu := husage hnil
    rw [hrt] at hu
    have hu : u = _ := hu
    have hd : w1.disk = { t.world.disk with runtime := countedLoad t } := by
      rw [hb.disk, hu]
      rfl
    rw [hd]
    exact ⟨fun hl => ⟨hacc, hl.sizes, hl.blkMap, hl.filemarks⟩,
      fun hl => ⟨hl.sizes, hl.blkMap, hl.filemarks⟩⟩
  refine wp_then (hydrateRuntimeFromLayout_spec (hb.mem.trans h.cold) hcrash1 hclean1 hrec1
    hmarks1 h.counted) ?_ ?_
  · intro _ t' hno
    exact ⟨rfl, fun hnil hre => hno ((hlimits hnil).mpr hre)⟩
  rintro _ ⟨tape', world, requests⟩ hhyd
  have htr := hhyd.tracked (fun he => absurd he (by simp [TapeState.mounted])) rfl hrec1 hmarks1
    h.marksBound h.counted
  obtain rfl : tape' = _ := hhyd.tape
  constructor
  case tracked => exact htr
  case filemarks | current | eod | recovery | blockMode | compression => rfl
  case partitions => exact ⟨rfl, rfl⟩
  case retention => rw [hrt]; rfl
  case persisted =>
    rw [hhyd.disk, hrt]
    exact ⟨rfl, rfl⟩
  case clean =>
    rw [hhyd.disk]
    exact hclean1

  case faults =>
    rw [hhyd.faults]
    exact hb.faults
  case disk =>
    rw [hhyd.disk, hb.disk]
    exact ⟨_, rfl⟩
  case cold => exact hhyd.cold
  case idle => exact hhyd.idle
  case limits => exact fun hnil => (hlimits hnil).mp hhyd.limits

end Holo.Tape
