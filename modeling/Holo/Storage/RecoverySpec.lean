/-
Holo.Storage.RecoverySpec — recovery of a dirty layout.

Main results:
* `RecoveryBudget`: what recovery can take on: sizes, record counts, blob headers;
* `recoverDirtyState_spec`: on a disk that keeps its invariant, recovery of a dirty layout
  succeeds exactly within the budget; the block map is untouched, so that every block shows
  what it showed, and lookup log, reference counts and segment index are right again;
* `Recovered.layoutInv`: a layout that was recovered can go on;
* `loadLayout_spec`: what loading a layout accepts.
-/
import Holo.Storage.RebuildSpec

namespace Holo.Storage

open Lib Program List

variable {env : Env}

/-! ## §1. What recovery can take on, and what it leaves. -/

/-- What the record preflight asks. -/
structure RecordsLoadable (d : Disk) : Prop where
  index : d.segIndex.index.Loadable
  blkMap : d.blkMap.Loadable blkMapLog
  lookup : d.lookup.Loadable lookupLog
  reclaim : ReclaimLoadable d.reclaim
  dedup : d.dedup.Loadable dedupLog
  filemarks : (d.runtime.filemarks.getD []).length ≤ maxMaintenanceMetadataRecords

/-- The budget as the repair of a dirty layout checks it. -/
structure RepairBudget (d : Disk) : Prop extends RecordsLoadable d where
  headers : d.recoveryHeaders ≤ maxRecoveryHeaders

/-- **The budget of recovery.** -/
structure RecoveryBudget (d : Disk) : Prop extends RepairBudget d where
  sizes : existingBytes (metadataFileSizes d) ≤ maxMaintenanceMetadataBytes

/-- The same extents, and each can still be read. -/
structure Shown (env : Env) (d d' : Disk) : Prop where
  active : d'.active = d.active
  readable : ∀ r ∈ d.active, ∀ p, Readable env d r p → Readable env d' r p

theorem Shown.refl (d : Disk) : Shown env d d := ⟨rfl, fun _ _ _ hp => hp⟩

theorem Shown.trans {d1 d2 d3 : Disk} (h : Shown env d1 d2) (h' : Shown env d2 d3) :
    Shown env d1 d3 :=
  ⟨h'.active.trans h.active,
    fun r hr p hp => h'.readable r (h.active ▸ hr) p (h.readable r hr p hp)⟩

variable {d d' : Disk} {w w' : World}

/-- The same segments: whatever could be read still can be. -/
theorem Shown.of_segs (hblk : d'.blkMap = d.blkMap) (hsegs : d'.segs = d.segs) :
    Shown env d d' := by
  refine ⟨?_, fun _ _ _ hp => hp.of_segs hsegs⟩
  unfold Disk.active Disk.records
  rw [hblk]

section

variable (env : Env) (d d' : Disk)

/-- The lookup log and the index of the segments fit the block map again. -/
structure IndexRestored : Prop where
  described : LookupOk d'.records d'.lookups
  blobs : ∀ s ∈ d'.indexed, ∀ b, d'.HasBlob s b → b.blobId ≤ d'.segIndex.index.blobHighWater
  records : ∀ r ∈ d'.records, r.physicalOffset ≤ d'.segIndex.index.blobHighWater
  next : SmallSegs d → NextAbove d'
  small : SmallSegs d → SmallSegs d'
  sub : ∀ s ∈ d'.indexed, s ∈ d.referenced ∨ (d.active = [] ∧ s = 0)

/-- The disk of a layout that was recovered. -/
structure RecoveredDisk : Prop extends IndexRestored d d' where
  inv : DiskInv env d'
  shown : Shown env d d'
  checkpoint : d'.checkpoint = d.checkpoint.next .clean
  counts : CountsOk d'
  entries : ∀ e ∈ d'.entries, ∃ x ∈ d.entries, e.entryId = x.entryId ∧
    e.storedBlobId = x.storedBlobId

/-- What recovery leaves when it does not get through. -/
structure RecoverCut : Prop where
  inv : DiskInv env d'
  shown : Shown env d d'
  done : d'.checkpoint = d.checkpoint ∨ RecoveredDisk env d d'

/-- A layout that was recovered. -/
structure Recovered (w w' : World) : Prop where
  disk : RecoveredDisk env w.disk w'.disk
  blkMap : Coherent blkMapSlot w'.disk w'.mem
  lookup : Coherent lookupSlot w'.disk w'.mem
  dedup : Coherent dedupSlot w'.disk w'.mem
  data : DataCoherent w'.disk w'.mem
  index : IndexCoherent w'.disk w'.mem
  eff : effIndex w'.disk w'.mem = w'.disk.segIndex.index
  checkpoint : CheckpointOk w'
  faults : w'.faults ⊆ w.faults

end

/-- Every dedup entry's blob id is known to the index on disk. -/
def EntriesBelow (d : Disk) : Prop :=
  ∀ e ∈ d.entries, e.storedBlobId ≤ d.segIndex.index.blobHighWater

/-- **A layout that was recovered can go on.** -/
theorem Recovered.layoutOk (h : Recovered env w w') (hsmall : SmallSegs w.disk) :
    LayoutOk env w' := by
  have hd := h.disk
  refine ⟨hd.inv, ⟨hd.inv.store, ?_, ?_, hd.next hsmall, ?_, h.index, h.data, h.dedup⟩, h.blkMap,
    h.lookup, h.checkpoint, hd.described, hd.counts⟩
  · rw [h.eff]
    exact hd.inv.store.index
  · rw [h.eff]
    exact .refl _
  · rw [h.eff]

theorem Recovered.layoutInv (h : Recovered env w w') (hsmall : SmallSegs w.disk)
    (hent : EntriesBelow w'.disk) : LayoutInv env w' := by
  have hcov : Covers w'.disk _ := ⟨h.disk.blobs, hent, h.disk.records⟩
  refine ⟨h.layoutOk hsmall, ?_, fun _ => hcov⟩
  unfold Covered
  rw [h.eff]
  exact hcov

/-! ## §2. Loading everything once. -/

theorem preflightFilemarks_ok_iff (marks : Option (List Nat)) : preflightFilemarks marks = .ok () ↔
      (marks.getD []).length ≤ maxMaintenanceMetadataRecords := by
  unfold preflightFilemarks
  grind

/-- The three logs and the other files were loaded. -/
structure Loaded (env : Env) (w w' : World) : Prop where
  disk : w'.disk = w.disk
  faults : w'.faults = w.faults
  checkpoint : w'.mem.checkpoint = w.mem.checkpoint
  data : w'.mem.data = w.mem.data
  segIndex : w'.mem.segIndex = w.mem.segIndex
  blkMap : ∃ c, Ready env blkMapSlot w'.disk w'.mem c
  lookup : Coherent lookupSlot w'.disk w'.mem
  dedup : Coherent dedupSlot w'.disk w'.mem

/-- **The record preflight** accepts exactly what every loader accepts. -/
theorem preflightDirtyMetadataRecords_spec (hb : w.mem.blkMap = none) (hl : w.mem.lookup = none)
    (hd : w.mem.dedup = none) :
    wp (preflightDirtyMetadataRecords env) (fun _ w' => Loaded env w w' ∧ RecordsLoadable w.disk)
      (fun _ w' => w'.disk = w.disk ∧ ¬ RecordsLoadable w.disk) w := by
  unfold preflightDirtyMetadataRecords loadSegmentIndex loadBlkMapRecords loadLookupRecords
    loadDedupIndex
  simp only [wp_bind, wp_get, wp_ofExcept, wp_pure]
  refine ⟨fun i hi => ?_, fun e he => ⟨trivial, fun hrec => ?_⟩⟩
  swap
  · rw [SegmentIndex.load_of_loadable hrec.index] at he
    cases he
  obtain ⟨-, hindex⟩ := SegmentIndex.load_eq_ok hi
  -- each log is read from its file, and nothing is written
  refine wp_mono (ensureCacheFresh_cold (s := blkMapSlot) hb) ?_
    (fun _ w' h => ⟨by rw [h.1], fun hrec => h.2 hrec.blkMap⟩)
  rintro cb w1 ⟨rfl, hrb, hlb⟩
  refine wp_mono (ensureCacheFresh_cold (s := lookupSlot) hl) ?_
    (fun _ w' h => ⟨by rw [h.1], fun hrec => h.2 hrec.lookup⟩)
  rintro cl w2 ⟨rfl, hrl, hll⟩
  refine wp_mono loadReclaimCandidates_spec ?_
    (fun _ w' h => ⟨by rw [h.1], fun hrec => h.2 hrec.reclaim⟩)
  rintro cs w3 ⟨rfl, -, hlr⟩
  refine wp_mono (ensureCacheFresh_cold (s := dedupSlot) hd) ?_
    (fun _ w' h => ⟨by rw [h.1], fun hrec => h.2 hrec.dedup⟩)
  rintro cd w4 ⟨rfl, hrd, hld⟩
  refine ⟨fun _ hf => ⟨⟨rfl, rfl, rfl, rfl, rfl, ⟨cb, rfl, hrb.ok, hrb.fresh⟩, ?_, hrd.coherent⟩,
    hindex, hlb, hll, hlr, hld, (preflightFilemarks_ok_iff _).mp hf⟩, fun e he => ⟨rfl, ?_⟩⟩
  · exact hrl.coherent
  · intro hrec
    have := (preflightFilemarks_ok_iff _).mpr hrec.filemarks
    rw [this] at he
    cases he

/-! ## §3. On the way. -/

/-- Recovery on its way: the block map is as it was. -/
structure Repairing (env : Env) (w w' : World) : Prop where
  inv : DiskInv env w'.disk
  shown : Shown env w.disk w'.disk
  checkpoint : w'.disk.checkpoint = w.disk.checkpoint
  blkMapFile : w'.disk.blkMap = w.disk.blkMap
  blkMap : ∃ c, Ready env blkMapSlot w'.disk w'.mem c
  lookup : Coherent lookupSlot w'.disk w'.mem
  dedup : Coherent dedupSlot w'.disk w'.mem
  data : DataCoherent w'.disk w'.mem
  checkpointOk : CheckpointOk w'
  faults : w'.faults ⊆ w.faults

theorem Repairing.cut (h : Repairing env w w') (hinv : DiskInv env d) (hshown : Shown env w'.disk d)
    (hck : d.checkpoint = w'.disk.checkpoint) : RecoverCut env w.disk d :=
  ⟨hinv, h.shown.trans hshown, .inl (hck.trans h.checkpoint)⟩

/-- Everything is repaired, the checkpoint is still the old one. -/
structure Repaired (env : Env) (w w' : World) : Prop extends IndexRestored w.disk w'.disk where
  mid : Repairing env w w'
  counts : CountsOk w'.disk
  entries : ∀ e ∈ w'.disk.entries, ∃ x ∈ w.disk.entries, e.entryId = x.entryId ∧
    e.storedBlobId = x.storedBlobId
  index : IndexCoherent w'.disk w'.mem
  eff : effIndex w'.disk w'.mem = w'.disk.segIndex.index

theorem Repaired.done {w w1 : World} (h : Repaired env w w1) :
    RecoveredDisk env w.disk (w1.disk.putCheckpoint (w.disk.checkpoint.next .clean)) := by
  have hsame := (SameFiles.refl w1.disk).putCheckpoint (w.disk.checkpoint.next .clean)
  have hblk : (w1.disk.putCheckpoint (w.disk.checkpoint.next .clean)).blkMap = w1.disk.blkMap := rfl
  have hsegs : (w1.disk.putCheckpoint (w.disk.checkpoint.next .clean)).segs = w1.disk.segs := rfl
  exact ⟨⟨h.described, h.blobs, h.records, h.next, h.small, h.sub⟩, h.mid.inv.frame hsame rfl,
    h.mid.shown.trans (.of_segs hblk hsegs), rfl, h.counts, h.entries⟩

variable {w1 w2 : World} {α : Type}

theorem persistRecovered_spec (h : Repaired env w w1) :
    wp (persistCheckpointCached env (w.disk.checkpoint.next .clean))
      (fun _ w' => Recovered env w w')
      (fun _ w' => w1.faults ≠ [] ∧ RecoverCut env w.disk w'.disk) w1 := by
  refine wp_mono (persistCheckpointCached_spec _) ?_ ?_
  · rintro _ w' hput
    obtain ⟨c, hc⟩ := h.mid.blkMap
    have hfaults := hput.faults
    obtain ⟨ticks, faults, rfl⟩ := w'.parts hput.disk hput.mem
    exact ⟨h.done, hc.coherent, h.mid.lookup, h.mid.dedup, h.mid.data, h.index, h.eff,
      fun ck hck => (Option.some.inj hck).symm, Subset.trans hfaults h.mid.faults⟩
  · rintro _ w' ⟨hne, hd | hd⟩
    · rw [hd]
      exact ⟨hne, h.mid.cut h.mid.inv (.refl _) rfl⟩
    · rw [hd]
      have hdone := h.done
      exact ⟨hne, hdone.inv, hdone.shown, .inr hdone⟩

/-- The reclaim file changes, and the cache of the lookup log. -/
theorem Repaired.reclaim (h : Repaired env w w1) {cs : List ReclaimCandidate}
    (hput : ReclaimPut env w1 w2 cs) : Repaired env w w2 := by
  obtain ⟨c, hmem⟩ := hput.mem
  obtain ⟨cb, hcb⟩ := h.mid.blkMap
  have hcoh := hput.coherent
  have hfaults := hput.faults
  have hdisk := hput.disk
  obtain ⟨ticks, faults, rfl⟩ := w2.parts hdisk hmem
  exact ⟨⟨h.described, h.blobs, h.records, h.next, h.small, h.sub⟩,
    ⟨h.mid.inv.frame (.of_eq rfl rfl rfl rfl) rfl, h.mid.shown.trans (.of_segs rfl rfl),
    h.mid.checkpoint, h.mid.blkMapFile, ⟨cb, hcb.cached, hcb.ok, hcb.fresh⟩, hcoh, h.mid.dedup,
    h.mid.data, h.mid.checkpointOk, Subset.trans hfaults h.mid.faults⟩, h.counts, h.entries,
    h.index, h.eff⟩

theorem finishRepair_spec (h : Repaired env w w1) (hlk : w1.disk.lookup.Loadable lookupLog)
    (hrc : ReclaimLoadable w1.disk.reclaim) (report : Nat → α) :
    wp (do
        let updates ← refreshReclaimSafety env
        persistCheckpointCached env (w.disk.checkpoint.next .clean)
        return report updates)
      (fun _ w' => Recovered env w w')
      (fun _ w' => w1.faults ≠ [] ∧ RecoverCut env w.disk w'.disk) w1 := by
  refine wp.bind (refreshReclaimSafety_spec h.mid.lookup) ?_ ?_
  · rintro _ w2 ⟨cs, hput, -⟩
    refine wp.bind (persistRecovered_spec (h.reclaim hput)) (fun _ _ hdone => hdone) ?_
    rintro _ w3 ⟨hne, hcut⟩
    exact ⟨ne_nil_of_subset hput.faults hne, hcut⟩
  rintro _ w2 (⟨hne, cs, hd⟩ | ⟨-, hbad⟩)
  · refine ⟨hne, ?_⟩
    rw [hd]
    have hblk : (w1.disk.putReclaim cs).blkMap = w1.disk.blkMap := rfl
    have hsegs : (w1.disk.putReclaim cs).segs = w1.disk.segs := rfl
    exact h.mid.cut (h.mid.inv.frame (.of_eq rfl rfl rfl rfl) rfl) (.of_segs hblk hsegs) rfl
  grind

/-! ## §4. The repair. -/

/-- Recovery failed by a fault. -/
structure RecoverFailed (env : Env) (w w' : World) : Prop where
  fault : w.faults ≠ []
  checkpoint : w'.disk.checkpoint = w.disk.checkpoint ∨ RecoveredDisk env w.disk w'.disk
  cut : NoTorn w.faults → RecoverCut env w.disk w'.disk

theorem RecoverFailed.of_cut (hsub : w1.faults ⊆ w.faults) (hne : w1.faults ≠ [])
    (hcut : RecoverCut env w.disk w'.disk) : RecoverFailed env w w' :=
  ⟨ne_nil_of_subset hsub hne, hcut.done, fun _ => hcut⟩

/-- The number of references is bounded by the number of records. -/
theorem length_dedupRefs_le (rs : List BlkMapRecord) : (dedupRefs rs).length ≤ rs.length := by
  unfold dedupRefs
  rw [length_map]
  exact length_filter_le _ _

variable {R : Type} {refs : List Nat} {E : StorageError → World → Prop}

theorem length_latest_le (key : R → Nat) : ∀ log : List R, (latest key log).length ≤ log.length
  | [] => le_rfl
  | r :: rest => by
    rw [latest]
    have := length_latest_le key rest
    grind

/-- What is loaded before the repair starts, and stays loadable. -/
structure Limits (w : World) : Prop where
  blkMap : w.disk.blkMap.Loadable blkMapLog
  reclaim : ReclaimLoadable w.disk.reclaim
  dedup : w.disk.dedup.Loadable dedupLog

theorem CountsOk.recounted (hactive : d'.active = d.active) (hperm : refs.Perm (dedupRefs d.active))
    (hr : Recounted refs d.dedup d'.dedup) : CountsOk d' := by
  intro e he
  obtain ⟨x, -, rfl⟩ := (hr.mem_iff e).mp he
  rw [hactive]
  exact hperm.count_eq _

/-- The index is rebuilt; what is left are the reference counts. -/
structure Indexed (env : Env) (w w' : World) : Prop extends IndexRestored w.disk w'.disk where
  mid : Repairing env w w'
  dedupFile : w'.disk.dedup = w.disk.dedup
  reclaimFile : w'.disk.reclaim = w.disk.reclaim
  index : IndexCoherent w'.disk w'.mem
  eff : effIndex w'.disk w'.mem = w'.disk.segIndex.index

theorem Indexed.recounted (h : Indexed env w w1) (hperm : refs.Perm (dedupRefs w1.disk.active))
    (hput : RecountPut env refs w1 w2) :
    Repaired env w w2 ∧ w2.disk.lookup = w1.disk.lookup ∧ w2.disk.reclaim = w1.disk.reclaim := by
  obtain ⟨f, c, hslot, hr⟩ := hput
  obtain ⟨cb, hcb⟩ := h.mid.blkMap
  have hcoh := hslot.ready.coherent
  have hfaults := hslot.faults
  have hdisk := hslot.disk
  have hmem := hslot.mem
  obtain ⟨ticks, faults, rfl⟩ := w2.parts hdisk hmem
  have hactive : (dedupSlot.setFile w1.disk f).active = w1.disk.active := rfl
  have hcounts := CountsOk.recounted hactive hperm hr
  refine ⟨⟨⟨h.described, h.blobs, h.records, h.next, h.small, h.sub⟩,
    ⟨h.mid.inv.recounted hr, h.mid.shown.trans (.of_segs rfl rfl), h.mid.checkpoint,
    h.mid.blkMapFile, ⟨cb, hcb.cached, hcb.ok, hcb.fresh⟩, h.mid.lookup, hcoh, h.mid.data,
    h.mid.checkpointOk, Subset.trans hfaults h.mid.faults⟩, hcounts, ?_, h.index, h.eff⟩, rfl, rfl⟩
  intro e he
  obtain ⟨x, hx, rfl⟩ := (hr.mem_iff e).mp he
  rw [h.dedupFile] at hx
  exact ⟨x, hx, rfl, rfl⟩

theorem recountAndFinish_spec (h : Indexed env w w1) (hlim : Limits w)
    (hlk : w1.disk.lookup.Loadable lookupLog) (report : Nat → Nat → α) :
    wp (do
        let refs ← collectActiveDedupEntries env
        let repaired ← rebuildRefCounts env refs
        let updates ← refreshReclaimSafety env
        persistCheckpointCached env (w.disk.checkpoint.next .clean)
        return report repaired updates)
      (fun _ w' => Recovered env w w') (fun _ w' => RecoverFailed env w w') w1 := by
  obtain ⟨cb, hcb⟩ := h.mid.blkMap
  have hok : CacheOk blkMapLog w1.disk.blkMap cb := hcb.ok
  have hperm : (dedupRefs (cb.records.filter (·.isActive))).Perm (dedupRefs w1.disk.active) :=
    dedupRefs_perm (hok.perm.filter _)
  -- no more references than records, and the limit keeps these within 32 bits
  have hsmall : (dedupRefs (cb.records.filter (·.isActive))).length ≤ u32Max := by
    have h1 := length_dedupRefs_le (cb.records.filter (·.isActive))
    have h2 := length_filter_le (·.isActive) cb.records
    have h3 := hok.perm.length_eq
    have h4 : (w1.disk.blkMap.table blkMapLog).length ≤ w1.disk.blkMap.log.length :=
      length_latest_le _ _
    have h5 := hlim.blkMap.count
    rw [← h.mid.blkMapFile] at h5
    unfold maxMaintenanceMetadataRecords at h5
    unfold u32Max
    omega
  unfold collectActiveDedupEntries loadBlkMapRecords
  simp only [wp_bind, wp_pure]
  rw [wp_iff_of_ok (ensureCacheFresh_of_ready hcb)]
  refine wp_mono (rebuildRefCounts_spec h.mid.dedup hsmall) ?_ ?_
  · rintro n w2 hput
    obtain ⟨hrep, hlk2, hrc2⟩ := h.recounted hperm hput
    have hfin :=
      finishRepair_spec hrep (hlk2 ▸ hlk) (by rw [hrc2, h.reclaimFile]; exact hlim.reclaim)
      (report n)
    have hfin := wp_mono hfin (fun _ _ hq => hq)
      (fun _ w' (hf : _ ∧ RecoverCut env w.disk w'.disk) =>
        RecoverFailed.of_cut hrep.mid.faults hf.1 hf.2)
    simpa only [wp_bind, wp_pure] using hfin
  -- a recount that was cut leaves the old counts or the new ones
  rintro _ w2 (⟨hne, f, hd, hcut⟩ | ⟨-, hbad⟩)
  swap
  · rw [h.dedupFile] at hbad
    exact absurd hlim.dedup hbad
  have hck : w2.disk.checkpoint = w.disk.checkpoint := by
    rw [hd]
    exact h.mid.checkpoint
  refine ⟨ne_nil_of_subset h.mid.faults hne, .inl hck, fun hno => ?_⟩
  rw [hd]
  have hblk : (dedupSlot.setFile w1.disk f).blkMap = w1.disk.blkMap := rfl
  have hsegs : (dedupSlot.setFile w1.disk f).segs = w1.disk.segs := rfl
  rcases hcut (hno.subset h.mid.faults) with hs | hr
  · exact h.mid.cut (h.mid.inv.sameEntries hs) (.of_segs hblk hsegs) rfl
  · exact h.mid.cut (h.mid.inv.recounted hr) (.of_segs hblk hsegs) rfl

/-- The block map and what goes with it is loaded and validated. -/
theorem Loaded.repairing (hinv : DiskInv env w.disk) (hck : CheckpointOk w) (h : Loaded env w w1)
    (hread : DataRead w1 w2) : Repairing env w w2 := by
  obtain ⟨data, hm⟩ := hread.mem
  obtain ⟨cb, hcb⟩ := h.blkMap
  have hd : w2.disk = w.disk := hread.disk.trans h.disk
  refine ⟨hd ▸ hinv, hd ▸ .refl _, by rw [hd], by rw [hd], ⟨cb, ?_⟩, ?_, ?_, hread.coherent, ?_, ?_⟩
  · rw [hread.disk, hm]
    exact ⟨hcb.cached, hcb.ok, hcb.fresh⟩
  · rw [hread.disk, hm]
    exact h.lookup
  · rw [hread.disk, hm]
    exact h.dedup
  · intro ck hc
    rw [hm] at hc
    rw [hd]
    exact hck ck (h.checkpoint ▸ hc)
  · rw [hread.faults, h.faults]
    exact Subset.refl _

/-- A lookup log written anew for that many records is loadable. -/
theorem loadable_written_lookup {sequence now : Nat} {ls : List MapLookupRecord}
    (h : ls.length ≤ maxMaintenanceMetadataRecords) :
    (LogFile.written lookupLog sequence (some ls) now).Loadable lookupLog := by
  refine ⟨?_, h, rfl, rfl⟩
  have hpay : ((LogFile.written lookupLog sequence (some ls) now).payload lookupLog).length =
      4 + 40 * ls.length := by
    rw [LogFile.payload_written, length_append, lookupLog.tag_length]
    exact congrArg (4 + ·) (length_flatMap_const MapLookupRecord.length_encode ls)
  have htail : (LogFile.written lookupLog sequence (some ls) now).tail = 0 := rfl
  unfold LogFile.len
  unfold maxMaintenanceMetadataRecords at h
  unfold maxMaintenanceMetadataBytes segmentHeaderV2TotalSize
  omega

/-- The lookup log is rebuilt. -/
structure Relooked (env : Env) (w w' : World) : Prop where
  mid : Repairing env w w'
  described : LookupOk w'.disk.records w'.disk.lookups
  loadable : w'.disk.lookup.Loadable lookupLog
  only : ∃ f, w'.disk = lookupSlot.setFile w.disk f

theorem rebuildLookup_relooked (h : Repairing env w w1) (hd : w1.disk = w.disk)
    (hload : w.disk.blkMap.Loadable blkMapLog) :
    wp (rebuildLookupFromBlkMap env) (fun _ w' => Relooked env w w')
      (fun _ w' => RecoverFailed env w w') w1 := by
  obtain ⟨c, hc⟩ := h.blkMap
  refine wp_then (rebuildLookupFromBlkMap_spec hc.coherent h.inv.extents) ?_ ?_
  · rintro _ w' (⟨hne, f, hd', hsound⟩ | ⟨-, hbad⟩)
    · refine .of_cut h.faults hne ?_
      rw [hd']
      have hblk : (lookupSlot.setFile w1.disk f).blkMap = w1.disk.blkMap := rfl
      have hsegs : (lookupSlot.setFile w1.disk f).segs = w1.disk.segs := rfl
      exact h.cut (h.inv.setLookup (hsound h.inv.lookup)) (.of_segs hblk hsegs) rfl
    · rw [h.blkMapFile] at hbad
      exact absurd hload hbad
  rintro _ w' ⟨f, cb, cl, hd', hm', hrb, hrl, hsub, hok, hsound, now, ls, rfl, hlen⟩
  obtain ⟨ticks, faults, rfl⟩ := w'.parts hd' hm'
  refine ⟨⟨h.inv.setLookup hsound, h.shown.trans (.of_segs rfl rfl), h.checkpoint, h.blkMapFile,
    ⟨cb, hrb⟩, hrl.coherent, h.dedup, h.data, h.checkpointOk, Subset.trans hsub h.faults⟩,
    hok, ?_, _, congrArg (lookupSlot.setFile · _) hd⟩
  -- no more lookups than records, and these were loaded
  refine loadable_written_lookup ?_
  have h1 : ((w1.disk.blkMap.table blkMapLog).filter (·.isActive)).length ≤
      (w1.disk.blkMap.table blkMapLog).length := length_filter_le _ _
  have h2 : (w1.disk.blkMap.table blkMapLog).length ≤ w1.disk.blkMap.log.length :=
    length_latest_le _ _
  have h3 := hload.count
  rw [← h.blkMapFile] at h3
  omega

/-- Rebuilding the index changes no log. -/
theorem RebuildCut.shown (h : RebuildCut env d d') : Shown env d d' := by
  refine ⟨?_, h.readable⟩
  have hblk : d'.blkMap = d.blkMap := by rw [h.only]
  unfold Disk.active Disk.records
  rw [hblk]

theorem rebuildIndex_indexed (h : Relooked env w w1) : wp (rebuildSegmentIndexFromBlkMap env)
      (fun _ w' => Indexed env w w' ∧ w'.disk.lookup.Loadable lookupLog)
      (fun _ w' => RecoverFailed env w w') w1 := by
  obtain ⟨c, hc⟩ := h.mid.blkMap
  obtain ⟨fl, hdisk⟩ := h.only
  refine wp_then (rebuildSegmentIndexFromBlkMap_spec h.mid.inv hc h.mid.data) ?_ ?_
  · rintro _ w' ⟨hne, hcut⟩
    refine .of_cut h.mid.faults hne (h.mid.cut hcut.inv hcut.shown ?_)
    rw [hcut.only]
  rintro _ w' ⟨hr, hmem⟩
  obtain ⟨data, ci, hm, hdirty, hindex⟩ := hmem.mem
  have honly := hr.cut.only
  have hblk : w'.disk.blkMap = w1.disk.blkMap := by rw [honly]
  have hlk : w'.disk.lookup = w1.disk.lookup := by rw [honly]
  have hded : w'.disk.dedup = w1.disk.dedup := by rw [honly]
  have hrec : w'.disk.records = w1.disk.records := by
    unfold Disk.records
    rw [hblk]
  have hsegs : w1.disk.segs = w.disk.segs := by rw [hdisk]; rfl
  have hsmall : SmallSegs w.disk → SmallSegs w1.disk := by
    intro hs
    unfold SmallSegs
    rw [hsegs]
    exact hs
  have hact : w1.disk.active = w.disk.active := h.mid.shown.active
  -- the data segments and their index were written, the logs were not
  refine ⟨⟨⟨?_, hr.blobs, ?_, fun hs => hr.next (hsmall hs), fun hs => hr.small (hsmall hs), ?_⟩,
    ⟨hr.cut.inv, h.mid.shown.trans hr.cut.shown, ?_, hblk.trans h.mid.blkMapFile, ⟨c, ?_⟩,
    ?_, ?_, hmem.data, ?_, Subset.trans hmem.faults h.mid.faults⟩, ?_, ?_, ?_, ?_⟩, ?_⟩
  · rw [honly]
    exact h.described
  · rw [hrec]
    exact hr.records
  · intro s hs
    have := hr.sub s hs
    unfold Disk.referenced at this ⊢
    rwa [hact] at this
  · rw [honly]
    exact h.mid.checkpoint
  · rw [honly, hm]
    exact ⟨hc.cached, hc.ok, hc.fresh⟩
  · rw [honly, hm]
    exact h.mid.lookup
  · rw [honly, hm]
    exact h.mid.dedup
  · intro ck hck
    rw [hm] at hck
    rw [honly]
    exact h.mid.checkpointOk ck hck
  · rw [hded, hdisk]
    rfl
  · rw [honly, hdisk]
    rfl
  · intro ci' hci'
    grind
  · unfold effIndex
    rw [hm]
    exact hindex
  · rw [hlk]
    exact h.loadable

/-! ## §5. Recovery. -/

/-- **The repair of a dirty layout** with nothing but its checkpoint cached. -/
theorem repairDirtyState_spec (hinv : DiskInv env w.disk) (hck : CheckpointOk w)
    (hb : w.mem.blkMap = none) (hl : w.mem.lookup = none) (hd : w.mem.dedup = none)
    (hdata : DataCoherent w.disk w.mem) :
    wp (repairDirtyState env w.disk.checkpoint)
      (fun report w' => Recovered env w w' ∧ RepairBudget w.disk ∧ report.dirtyDetected = true)
      (fun _ w' => RecoverFailed env w w' ∨ (w'.disk = w.disk ∧ ¬ RepairBudget w.disk)) w := by
  unfold repairDirtyState
  rw [wp_bind]
  refine wp_mono (preflightDirtyMetadataRecords_spec hb hl hd) ?_
    (fun _ w' h => .inr ⟨h.1, fun hbud => h.2 hbud.toRecordsLoadable⟩)
  rintro _ w1 ⟨hloaded, hrec⟩
  obtain ⟨cb, hcb⟩ := hloaded.blkMap
  have hdata1 : DataCoherent w1.disk w1.mem := by
    unfold DataCoherent
    rw [hloaded.disk, hloaded.data]
    exact hdata
  rw [wp_bind]
  -- nothing is written before the records are validated
  refine wp_then (validateActiveBlobReferences_spec (hloaded.disk ▸ hinv) hcb hdata1) ?_ ?_
  · rintro _ w2 ⟨hread, hhead⟩
    rw [hloaded.disk] at hhead
    exact .inr ⟨hread.disk.trans hloaded.disk, fun hbud => absurd hbud.headers (not_le.mpr hhead)⟩
  rintro _ w2 ⟨hread, hhead⟩
  rw [hloaded.disk] at hhead
  have hrep := hloaded.repairing hinv hck hread
  rw [wp_bind]
  refine wp_mono (rebuildLookup_relooked hrep (hread.disk.trans hloaded.disk) hrec.blkMap) ?_
    (fun _ w' h => .inl h)
  rintro rebuilt w3 hlook
  rw [wp_bind]
  refine wp_mono (rebuildIndex_indexed hlook) ?_ (fun _ w' h => .inl h)
  rintro _ w4 ⟨hidx, hload⟩
  have hfin := recountAndFinish_spec hidx ⟨hrec.blkMap, hrec.reclaim, hrec.dedup⟩ hload
    (fun repaired updates => (⟨true, rebuilt, repaired, updates,
      (w.disk.checkpoint.next .clean).epoch⟩ : RecoveryReport))
  simp only [wp_bind, wp_pure] at hfin ⊢
  refine wp_mono hfin (fun refs w5 h5 => ?_) (fun _ w' h => .inl h)
  refine wp_mono h5 (fun n w6 h6 => ?_) (fun _ w' h => .inl h)
  refine wp_mono h6 (fun m w7 h7 => ?_) (fun _ w' h => .inl h)
  exact wp_mono h7 (fun _ w8 h8 => ⟨h8, ⟨hrec, hhead⟩, trivial⟩) (fun _ w' h => .inl h)

/-- What recovery does when it returns. -/
inductive RecoverDone (env : Env) (w w' : World) : Prop
  | clean (hflags : w.disk.checkpoint.flags = .clean)
      (heq : w' = w.withCheckpoint)
      (hsize : existingBytes (metadataFileSizes w.disk) ≤ maxMaintenanceMetadataBytes)
  | dirty (hflags : w.disk.checkpoint.flags ≠ .clean) (hrec : Recovered env w w')
      (hbudget : RecoveryBudget w.disk)

/-- Why recovery refuses a layout. -/
def RecoverRefused (d : Disk) : Prop :=
  ¬ existingBytes (metadataFileSizes d) ≤ maxMaintenanceMetadataBytes ∨
    (d.checkpoint.flags ≠ .clean ∧ ¬ RecoveryBudget d)

/-- **Recovery.**  On a disk that keeps its invariant and with nothing cached, it refuses only
what is over its budget, and otherwise fails only by a fault. -/
theorem recoverDirtyState_spec (hinv : DiskInv env w.disk) (hcold : w.mem = .empty) :
    wp (recoverDirtyState env) (fun report w' => RecoverDone env w w' ∧
        (report.dirtyDetected = true ↔ w.disk.checkpoint.flags ≠ .clean))
      (fun _ w' => (w'.disk = w.disk ∧ RecoverRefused w.disk) ∨
        (w.disk.checkpoint.flags ≠ .clean ∧ RecoverFailed env w w')) w := by
  have hck : CheckpointOk w := by
    intro c hc
    rw [hcold] at hc
    exact absurd hc (by simp [Caches.empty])
  unfold recoverDirtyState
  simp only [wp_bind, wp_get, wp_ofExcept]
  refine ⟨fun _ hsize => ?_, fun e he => .inl ⟨trivial, .inl fun hle => ?_⟩⟩
  swap
  · rw [(preflightMaintenanceMetadata_ok_iff _).mpr hle] at he
    cases he
  have hsize := (preflightMaintenanceMetadata_ok_iff _).mp hsize
  refine wp_mono (loadCheckpointCached_spec hck) ?_ (fun _ _ h => h.elim)
  rintro _ w1 ⟨rfl, rfl⟩
  split
  next hflags => exact ⟨.clean hflags rfl hsize, by simp [hflags]⟩
  next hflags =>
    -- a process that starts has nothing cached but the checkpoint
    have hck1 : CheckpointOk w.withCheckpoint := by
      intro c hc
      exact (Option.some.inj hc).symm
    have hmem : w.withCheckpoint.mem = Caches.empty.setCheckpoint w.disk.checkpoint := by
      rw [World.withCheckpoint, hcold]
    have hspec := repairDirtyState_spec (w := w.withCheckpoint) hinv hck1 (by rw [hmem]; rfl)
      (by rw [hmem]; rfl) (by rw [hmem]; rfl) (by
        intro seq c hc
        rw [hmem] at hc
        exact absurd hc (by simp [Caches.empty, Caches.setCheckpoint]))
    refine wp_mono hspec ?_ ?_
    · rintro report w' ⟨hrec, hbud, hrep⟩
      refine ⟨.dirty hflags ?_ ⟨hbud, hsize⟩, by simp [hrep, hflags]⟩
      exact ⟨hrec.disk, hrec.blkMap, hrec.lookup, hrec.dedup, hrec.data, hrec.index, hrec.eff,
        hrec.checkpoint, hrec.faults⟩
    · rintro _ w' (hf | ⟨hd, hbud⟩)
      · exact .inr ⟨hflags, hf.fault, hf.checkpoint, hf.cut⟩
      · exact .inl ⟨hd, .inr ⟨hflags, fun hb => hbud hb.toRepairBudget⟩⟩

/-! ## §6. Loading a layout. -/

/-- The header of the file agrees with its payload. -/
structure LogFile.Intact {R : Type} (k : LogKind R) (f : LogFile R) : Prop where
  tail : f.tail = 0
  checksum : f.checksum = crc32c (f.payload k)

/-- What `load_layout` accepts. -/
structure LayoutAccepted (d : Disk) : Prop where
  index : d.segIndex.index.Loadable
  segments : ∀ s ∈ d.indexed, validateSegmentShape d s = .ok ()
  blkMap : d.blkMap.Intact blkMapLog
  lookup : d.lookup.Intact lookupLog
  dedup : d.dedup.Intact dedupLog

section

variable {d d' : Disk}

/-- A sync changes nothing of a file that a loader looks at. -/
theorem LogFile.loaded_sync {R : Type} {k : LogKind R} {f f' : LogFile R}
    (h : f' = f ∨ f' = f.sync) :
    (f'.Loadable k ↔ f.Loadable k) ∧ (f'.Intact k ↔ f.Intact k) ∧ f'.len k = f.len k := by
  rcases h with rfl | rfl
  · exact ⟨Iff.rfl, Iff.rfl, rfl⟩
  · exact ⟨⟨fun h => ⟨h.len, h.count, h.tail, h.checksum⟩,
      fun h => ⟨h.len, h.count, h.tail, h.checksum⟩⟩,
      ⟨fun h => ⟨h.tail, h.checksum⟩, fun h => ⟨h.tail, h.checksum⟩⟩, rfl⟩

theorem SameForLoaders.descriptors (h : SameForLoaders d d') :
    d'.segIndex.index.descriptors.length = d.segIndex.index.descriptors.length := by
  have hlen := congrArg List.length h.shape.states
  rwa [length_map, length_map] at hlen

theorem SameForLoaders.shape_eq (h : SameForLoaders d d') (s : Nat) :
    validateSegmentShape d' s = validateSegmentShape d s := by
  unfold validateSegmentShape
  rcases h.files.segs s with hs | ⟨f, hf, hs⟩
  · rw [hs]
  · rw [hf, hs]
    rfl

/-- **The loaders accept** either both disks or none. -/
theorem SameForLoaders.accepted_iff (h : SameForLoaders d d') :
    LayoutAccepted d' ↔ LayoutAccepted d := by
  have hindexed : d'.indexed = d.indexed := h.shape.segments
  have hload : d'.segIndex.index.Loadable ↔ d.segIndex.index.Loadable := by
    unfold SegmentIndex.Loadable
    rw [h.descriptors]
  have hshapes : (∀ s ∈ d'.indexed, validateSegmentShape d' s = .ok ()) ↔
      ∀ s ∈ d.indexed, validateSegmentShape d s = .ok () := by
    rw [hindexed]
    simp only [h.shape_eq]
  have hblk := (LogFile.loaded_sync (k := blkMapLog) h.files.blkMap).2.1
  have hlook := (LogFile.loaded_sync (k := lookupLog) h.files.lookup).2.1
  have hded := (LogFile.loaded_sync (k := dedupLog) h.files.dedup).2.1
  exact ⟨fun ha => ⟨hload.mp ha.index, hshapes.mp ha.segments, hblk.mp ha.blkMap,
      hlook.mp ha.lookup, hded.mp ha.dedup⟩,
    fun ha => ⟨hload.mpr ha.index, hshapes.mpr ha.segments, hblk.mpr ha.blkMap,
      hlook.mpr ha.lookup, hded.mpr ha.dedup⟩⟩

theorem SameForLoaders.sizes_eq (h : SameForLoaders d d') (rt : RuntimeFiles) :
    metadataFileSizes { d' with runtime := rt } = metadataFileSizes { d with runtime := rt } := by
  have hblk := (LogFile.loaded_sync (k := blkMapLog) h.files.blkMap).2.2
  have hlook := (LogFile.loaded_sync (k := lookupLog) h.files.lookup).2.2
  have hded := (LogFile.loaded_sync (k := dedupLog) h.files.dedup).2.2
  unfold metadataFileSizes SegmentIndex.fileLen
  simp only [hblk, hlook, hded, h.reclaim, h.descriptors]

end

theorem wp_readSegmentFile {R α : Type} {k : LogKind R} {f : LogFile R} {m : List R → StorageM α}
    {Q : α → World → Prop} (hQ : f.Intact k → wp (m f.log) Q E w) (hE : ¬ f.Intact k → ∀ e, E e w) :
    wp (ofExcept (f.readSegmentFile k) >>= m) Q E w := by
  rw [wp_bind, wp_ofExcept]
  constructor
  · intro rs hrs
    obtain ⟨rfl, htail, hsum⟩ := LogFile.readSegmentFile_eq_ok hrs
    exact hQ ⟨htail, hsum⟩
  · intro e he
    refine hE (fun hi => ?_) e
    rw [LogFile.readSegmentFile_of_sound hi.checksum hi.tail] at he
    cases he

theorem loadSegmentIndex_spec : wp loadSegmentIndex
      (fun i w' => w' = w ∧ i = w.disk.segIndex.index ∧ i.Loadable)
      (fun _ w' => w' = w ∧ ¬ w.disk.segIndex.index.Loadable) w := by
  unfold loadSegmentIndex
  simp only [wp_bind, wp_get, wp_ofExcept]
  constructor
  · intro i hi
    obtain ⟨rfl, hload⟩ := SegmentIndex.load_eq_ok hi
    exact ⟨trivial, rfl, hload⟩
  · intro e he
    refine ⟨trivial, fun hload => ?_⟩
    rw [SegmentIndex.load_of_loadable hload] at he
    cases he

/-- **Loading a layout** looks at the files and changes nothing. -/
theorem loadLayout_spec : wp loadLayout
      (fun c w' => w' = w ∧ c = w.disk.checkpoint ∧ LayoutAccepted w.disk)
      (fun _ w' => w' = w ∧ ¬ LayoutAccepted w.disk) w := by
  refine wp.bind loadSegmentIndex_spec ?_ (fun _ _ hno => ⟨hno.1, fun hacc => hno.2 hacc.index⟩)
  intro i w' hout
  obtain ⟨hw, hi, hload⟩ := hout
  subst hw hi
  have hshapes : Guard (forEach w'.disk.segIndex.index.segments fun seq => do
      let w ← get
      ofExcept (validateSegmentShape w.disk seq))
      (fun w : World => ∀ s ∈ w'.disk.segIndex.index.segments,
        validateSegmentShape w.disk s = .ok ()) :=
    .forEach (fun s => .get fun w => .ofExcept _) _
  refine hshapes.bind_of_refuse (fun hno _ => ⟨rfl, fun hacc => hno hacc.segments⟩) ?_
  intro hsegs
  refine wp_readSegmentFile ?_ (fun hno _ => ⟨rfl, fun hacc => hno hacc.blkMap⟩)
  intro hblk
  refine wp_readSegmentFile ?_ (fun hno _ => ⟨rfl, fun hacc => hno hacc.lookup⟩)
  intro hlk
  refine wp_readSegmentFile ?_ (fun hno _ => ⟨rfl, fun hacc => hno hacc.dedup⟩)
  intro hded
  exact ⟨rfl, rfl, hload, hsegs, hblk, hlk, hded⟩

end Holo.Storage
