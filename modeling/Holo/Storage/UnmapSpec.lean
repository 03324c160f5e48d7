/-
Holo.Storage.UnmapSpec — unmapping a range.

Main results:
* `afterStale_spec`: once the stale copies are there, an unmap that returns keeps the
  invariant; one that is cut short leaves a disk whose records can be read;
* `CountsOk.unmapped`: the reference counts after an unmap.
-/
import Holo.Storage.WriteSpec

namespace Holo.Storage

open Lib Program List

variable {env : Env}

/-! ## §1. The records that stay. -/

section

variable (r : BlkMapRecord) (start stop : Nat)

/-- The record meets the range. -/
def BlkMapRecord.Meets : Prop :=
  start < r.logicalEnd ∧ r.logicalStart < stop

instance : Decidable (r.Meets start stop) :=
  inferInstanceAs (Decidable (_ ∧ _))

end

variable {start stop : Nat} {r : BlkMapRecord} {c c' : CachedLog BlkMapRecord} {ids : List Nat}
  {d d' : Disk} {hit : List BlkMapRecord} {f' : LogFile BlkMapRecord}

theorem mem_overlapping {records : List BlkMapRecord} :
    r ∈ overlapping records start stop ↔ r ∈ records ∧ r.isActive = true ∧ r.Meets start stop := by
  unfold overlapping BlkMapRecord.Meets
  rw [mem_filter, Bool.and_eq_true, decide_eq_true_eq]

/-- The extents that meet the range are gone. -/
structure Unmapped (d d' : Disk) (start stop : Nat) : Prop where
  active : ∀ r, r ∈ d'.active ↔ r ∈ d.active ∧ ¬ r.Meets start stop
  grow : SegsGrow d d'
  runtime : d'.runtime = d.runtime

theorem mem_table_staled {f f' : LogFile BlkMapRecord} (hok : CacheOk blkMapLog f c)
    (h : Holds blkMapLog f (staleCopies ids c.records) f') {x : BlkMapRecord} :
    x ∈ f'.table blkMapLog ↔ (∃ r ∈ f.table blkMapLog, r.recordId ∈ ids ∧ x = r.toStale) ∨
        (x ∈ f.table blkMapLog ∧ x.recordId ∉ ids) := by
  have hnd : ((staleCopies ids c.records).map blkMapLog.id).Nodup := staleCopies_nodup hok.nodup
  rw [h.table.mem_iff, mem_latest_append hnd, mem_staleCopies]
  refine or_congr ?_ (and_congr_right fun hx => ?_)
  · exact exists_congr fun r => and_congr_left fun _ => hok.mem_iff
  constructor
  · intro hno hid
    exact hno x.toStale (mem_staleCopies.mpr ⟨x, hok.mem_iff.mpr hx, hid, rfl⟩) rfl
  · rintro hid u hu heq
    obtain ⟨r, -, hrid, rfl⟩ := mem_staleCopies.mp hu
    have heq : r.recordId = x.recordId := heq
    exact hid (heq ▸ hrid)

/-- The records picked by an unmap. -/
structure Picked (d : Disk) (c : CachedLog BlkMapRecord) (start stop : Nat)
    (hit : List BlkMapRecord) : Prop where
  ok : CacheOk blkMapLog d.blkMap c
  eq : hit = overlapping c.records start stop

section

variable (h : Picked d c start stop hit)
include h

theorem Picked.mem_iff : r ∈ hit ↔ r ∈ d.active ∧ r.Meets start stop := by
  rw [h.eq, mem_overlapping, h.ok.mem_iff, Disk.mem_active, and_assoc]
  exact Iff.rfl

theorem Picked.mem_ids (hr : r ∈ d.records) :
    r.recordId ∈ hit.map (·.recordId) ↔ r.isActive = true ∧ r.Meets start stop := by
  rw [mem_map]
  constructor
  · rintro ⟨x, hx, hid⟩
    obtain ⟨hxact, hmeets⟩ := h.mem_iff.mp hx
    obtain ⟨hxmem, hact⟩ := Disk.mem_active.mp hxact
    rw [← inj_on_of_nodup_map d.records_nodup hxmem hr hid]
    exact ⟨hact, hmeets⟩
  · rintro ⟨hact, hmeets⟩
    exact ⟨r, h.mem_iff.mpr ⟨Disk.mem_active.mpr ⟨hr, hact⟩, hmeets⟩, rfl⟩

theorem Picked.nodup : hit.Nodup := by
  rw [h.eq]
  exact (Nodup.of_map _ h.ok.nodup).filter _

/-- **The records that stay active** after the stale copies are there. -/
theorem Picked.mem_active (hok : CacheOk blkMapLog d.blkMap c')
    (hholds : Holds blkMapLog d.blkMap (staleCopies (hit.map (·.recordId)) c'.records) f')
    (r : BlkMapRecord) :
    r ∈ (blkMapSlot.setFile d f').active ↔ r ∈ d.active ∧ ¬ r.Meets start stop := by
  rw [Disk.mem_active, Disk.mem_active]
  show r ∈ f'.table blkMapLog ∧ _ ↔ _
  rw [mem_table_staled hok hholds]
  constructor
  · rintro ⟨⟨x, -, -, rfl⟩ | ⟨hmem, hid⟩, hact⟩
    · cases hact
    · refine ⟨⟨hmem, hact⟩, fun hmeets => hid ?_⟩
      exact (h.mem_ids hmem).mpr ⟨hact, hmeets⟩
  · rintro ⟨⟨hmem, hact⟩, hno⟩
    exact ⟨.inr ⟨hmem, fun hid => hno ((h.mem_ids hmem).mp hid).2⟩, hact⟩

omit h in
theorem Disk.active_nodup (d : Disk) : d.active.Nodup :=
  (Nodup.of_map _ d.records_nodup).filter _

/-- What was active is what was picked and what stays. -/
theorem Picked.active_perm (hun : Unmapped d d' start stop) : d.active.Perm (hit ++ d'.active) := by
  have hdisj : hit.Disjoint d'.active := by
    intro r hr hr'
    exact ((hun.active r).mp hr').2 (h.mem_iff.mp hr).2
  rw [perm_ext_iff_of_nodup d.active_nodup (h.nodup.append d'.active_nodup hdisj)]
  intro r
  rw [mem_append, h.mem_iff, hun.active]
  grind

omit h in
theorem dedupRefs_append (a b : List BlkMapRecord) :
    dedupRefs (a ++ b) = dedupRefs a ++ dedupRefs b := by
  unfold dedupRefs
  rw [filter_append, map_append]

theorem Picked.count_eq (hun : Unmapped d d' start stop) (id : Nat) :
    (dedupRefs d.active).count id = (dedupRefs hit).count id + (dedupRefs d'.active).count id := by
  rw [(dedupRefs_perm (h.active_perm hun)).count_eq, dedupRefs_append, count_append]

/-- **The reference counts after an unmap.** -/
theorem CountsOk.unmapped (hcounts : CountsOk d)
    (hun : Unmapped d d' start stop) (htaken : RefsTaken (dedupRefs hit) d.dedup d'.dedup) :
    CountsOk d' := by
  intro e he
  obtain ⟨x, hx, rfl⟩ := (htaken.mem_iff e).mp he
  have hcount := hcounts x hx
  rw [h.count_eq hun] at hcount
  show x.refCount - (dedupRefs hit).count x.entryId = (dedupRefs d'.active).count x.entryId
  omega

end

/-! ## §2. On the way. -/

section

variable (env : Env) (w w' : World) (start stop : Nat)

/-- An unmap on its way: the stale copies are there, or nothing is. -/
structure Unmapping : Prop where
  disk : DiskInv env w'.disk
  warm : StoreWarm w'
  blkMap : Coherent blkMapSlot w'.disk w'.mem
  lookup : Coherent lookupSlot w'.disk w'.mem
  unmapped : Unmapped w.disk w'.disk start stop
  checkpoint : w'.disk.checkpoint = w.disk.checkpoint
  checkpointOk : CheckpointOk w'
  segIndex : w'.disk.segIndex = w.disk.segIndex
  eff : effIndex w'.disk w'.mem = effIndex w.disk w.mem
  covers : ∀ n, Covers w.disk n → Covers w'.disk n
  faults : w'.faults ⊆ w.faults

/-- What an unmap that is cut short leaves on disk. -/
structure UnmapCut (d d' : Disk) (start stop : Nat) : Prop where
  disk : DiskInv env d'
  shows : Kept d d' ∨ Unmapped d d' start stop

/-- What an unmap that fails leaves. -/
structure UnmapFailed : Prop where
  checkpoint : w'.disk.checkpoint = w.disk.checkpoint
  cut : NoTorn w.faults → UnmapCut env w.disk w'.disk start stop

end

theorem DiskInv.staled (h : DiskInv env d) (hpick : Picked d c start stop hit)
    (hok : CacheOk blkMapLog d.blkMap c')
    (hholds : Holds blkMapLog d.blkMap (staleCopies (hit.map (·.recordId)) c'.records) f') :
    DiskInv env (blkMapSlot.setFile d f') ∧ Unmapped d (blkMapSlot.setFile d f') start stop := by
  have hact := hpick.mem_active hok hholds
  refine ⟨h.setBlkMap (hholds.sound h.blkMap) ?_ ?_, hact, fun _ _ hb => hb, rfl⟩
  · -- what is active now was active before
    refine h.extents.of_active fun r hr ha => ?_
    exact (Disk.mem_active.mp ((hact r).mp (Disk.mem_active.mpr ⟨hr, ha⟩)).1).1
  · intro r hr
    have hr := ((hact r).mp hr).1
    exact ⟨h.readable r hr, h.indexed r hr, h.refs r hr⟩

theorem Covers.staled {n : Nat} (h : Covers d n) (hok : CacheOk blkMapLog d.blkMap c)
    (hholds : Holds blkMapLog d.blkMap (staleCopies ids c.records) f') :
    Covers (blkMapSlot.setFile d f') n := by
  refine ⟨h.blobs, h.entries, fun r hr => ?_⟩
  rcases (mem_table_staled hok hholds).mp hr with ⟨x, hx, -, rfl⟩ | ⟨hmem, -⟩
  · exact h.records x hx
  · exact h.records r hmem

variable {w w' w1 w2 : World} {f : LogFile DedupIndexEntry}

/-- **The stale copies are appended.** -/
theorem Unmapping.staled {c c' cb : CachedLog BlkMapRecord} (h : LayoutOk env w)
    (hpick : Picked w.disk c start stop hit) (hok : CacheOk blkMapLog w.disk.blkMap c')
    (hholds : Holds blkMapLog w.disk.blkMap (staleCopies (hit.map (·.recordId)) c'.records) f')
    (hput : SlotPut env blkMapSlot w w' f' cb) : Unmapping env w w' start stop := by
  obtain ⟨hinv, hun⟩ := h.disk.staled hpick hok hholds
  have hcoh := hput.ready.coherent
  have hfaults := hput.faults
  have hdisk := hput.disk
  have hmem := hput.mem
  obtain ⟨ticks, faults, rfl⟩ := w'.parts hdisk hmem
  exact ⟨hinv, h.warm.sameStore ⟨rfl, rfl, rfl, rfl, rfl, rfl⟩, hcoh, h.lookup, hun, rfl,
    h.checkpoint, rfl, rfl, fun n hn => hn.staled hok hholds, hfaults⟩

theorem StoreInv.withRefs (h : StoreInv d)
    (hrefs : ∀ e ∈ f.table dedupLog, ∃ x ∈ d.entries, ∃ n, e = x.withRefs n)
    (hsound : f.Sound dedupLog) : StoreInv (dedupSlot.setFile d f) := by
  refine h.setDedup (fun e he => ?_) hsound
  obtain ⟨x, hx, n, rfl⟩ := hrefs e he
  exact ⟨h.entryPos x hx, fun s hs b hb hid =>
    ⟨(h.agree x hx s hs b hb hid).codec, (h.agree x hx s hs b hb hid).logicalLen,
      (h.agree x hx s hs b hb hid).storedLen⟩⟩

theorem StoreInv.sameEntries (h : StoreInv d) (hs : SameEntries d.dedup f) :
    StoreInv (dedupSlot.setFile d f) :=
  h.setDedup (fun e he => ⟨h.entryPos e (hs.perm.mem_iff.mp he), h.agree e (hs.perm.mem_iff.mp he)⟩)
    (hs.sound h.dedup)

/-- The dedup log changes, but not which entries there are. -/
theorem DiskInv.setDedup (h : DiskInv env d) (hstore : StoreInv (dedupSlot.setFile d f))
    (hkept : ∀ e ∈ d.entries, ∃ e' ∈ f.table dedupLog, e'.entryId = e.entryId) :
    DiskInv env (dedupSlot.setFile d f) := by
  refine ⟨hstore, h.blkMap, h.lookup, h.extents, ?_, h.indexed, ?_⟩
  · intro r hr
    obtain ⟨p, hp⟩ := h.readable r hr
    have hsegs : (dedupSlot.setFile d f).segs = d.segs := rfl
    exact ⟨p, hp.of_segs hsegs⟩
  · intro r hr hpos
    obtain ⟨e, he, hid⟩ := h.refs r hr hpos
    obtain ⟨e', he', hid'⟩ := hkept e he
    exact ⟨e', he', hid'.trans hid⟩

theorem DiskInv.refsTaken (h : DiskInv env d) (ht : RefsTaken ids d.dedup f) :
    DiskInv env (dedupSlot.setFile d f) := by
  refine h.setDedup (h.store.withRefs (fun e he => ?_) (ht.sound h.store.dedup))
    (fun e he => ⟨_, (ht.mem_iff _).mpr ⟨e, he, rfl⟩, rfl⟩)
  obtain ⟨x, hx, rfl⟩ := (ht.mem_iff e).mp he
  exact ⟨x, hx, _, rfl⟩

theorem DiskInv.recounted (h : DiskInv env d) {refs : List Nat} (hr : Recounted refs d.dedup f) :
    DiskInv env (dedupSlot.setFile d f) := by
  refine h.setDedup (h.store.withRefs (fun e he => ?_) (hr.sound h.store.dedup))
    (fun e he => ⟨_, (hr.mem_iff _).mpr ⟨e, he, rfl⟩, rfl⟩)
  obtain ⟨x, hx, rfl⟩ := (hr.mem_iff e).mp he
  exact ⟨x, hx, _, rfl⟩

theorem DiskInv.sameEntries (h : DiskInv env d) (hs : SameEntries d.dedup f) :
    DiskInv env (dedupSlot.setFile d f) :=
  h.setDedup (h.store.sameEntries hs) (fun e he => ⟨e, hs.perm.mem_iff.mpr he, rfl⟩)

/-- The dedup log and its cache change; the rest of the store does not. -/
theorem StoreWarm.setDedup (h : StoreWarm w) {c : Option (CachedLog DedupIndexEntry)}
    (hdisk : w'.disk = dedupSlot.setFile w.disk f) (hmem : w'.mem = dedupSlot.setCache w.mem c)
    (hinv : StoreInv w'.disk) (hcoh : Coherent dedupSlot w'.disk w'.mem) : StoreWarm w' := by
  obtain ⟨ticks, faults, rfl⟩ := w'.parts hdisk hmem
  exact ⟨hinv, h.indexOk.congr (fun _ _ _ hb => hb), h.shape, h.next, h.below, h.index, h.data,
    hcoh⟩

/-- **References are taken away.** -/
theorem Unmapping.taken (h : Unmapping env w w1 start stop) {c : Option (CachedLog DedupIndexEntry)}
    (hdisk : w2.disk = dedupSlot.setFile w1.disk f) (hmem : w2.mem = dedupSlot.setCache w1.mem c)
    (hcoh : Coherent dedupSlot w2.disk w2.mem) (hfaults : w2.faults ⊆ w1.faults)
    (ht : RefsTaken ids w1.disk.dedup f) : Unmapping env w w2 start stop := by
  obtain ⟨ticks, faults, rfl⟩ := w2.parts hdisk hmem
  have hinv := h.disk.refsTaken ht
  refine ⟨hinv, h.warm.setDedup rfl rfl hinv.store hcoh, h.blkMap, h.lookup,
    ⟨h.unmapped.active, h.unmapped.grow, h.unmapped.runtime⟩, h.checkpoint, h.checkpointOk,
    h.segIndex, h.eff, ?_, Subset.trans hfaults h.faults⟩
  intro n hn
  have hn1 := h.covers n hn
  refine ⟨hn1.blobs, fun e he => ?_, hn1.records⟩
  obtain ⟨x, hx, rfl⟩ := (ht.mem_iff e).mp he
  exact hn1.entries x hx

/-- A step that changes the lookup log, its cache and the reclaim file only. -/
theorem Unmapping.looked (h : Unmapping env w w1 start stop) {f : LogFile MapLookupRecord}
    {rc : Option (List ReclaimCandidate)}
    (hdisk : w2.disk = (lookupSlot.setFile w1.disk f).putReclaim rc) (hsound : f.Sound lookupLog)
    (hmem : ∃ cl cb, w2.mem = lookupSlot.setCache (blkMapSlot.setCache w1.mem cb) cl)
    (hblk : Coherent blkMapSlot w2.disk w2.mem) (hlk : Coherent lookupSlot w2.disk w2.mem)
    (hfaults : w2.faults ⊆ w1.faults) : Unmapping env w w2 start stop := by
  obtain ⟨cl, cb, hmem⟩ := hmem
  obtain ⟨ticks, faults, rfl⟩ := w2.parts hdisk hmem
  refine ⟨(h.disk.setLookup hsound).frame (.of_eq rfl rfl rfl rfl) rfl,
    h.warm.sameStore ⟨rfl, rfl, rfl, rfl, rfl, rfl⟩, hblk, hlk,
    ⟨h.unmapped.active, h.unmapped.grow, h.unmapped.runtime⟩, h.checkpoint, h.checkpointOk,
    h.segIndex, h.eff, ?_, Subset.trans hfaults h.faults⟩
  intro n hn
  have hn1 := h.covers n hn
  exact ⟨hn1.blobs, hn1.entries, hn1.records⟩

theorem Unmapping.failed (h : Unmapping env w w1 start stop)
    (hck : w'.disk.checkpoint = w1.disk.checkpoint) (hrt : w'.disk.runtime = w1.disk.runtime)
    (hcut : NoTorn w1.faults → DiskInv env w'.disk ∧ w'.disk.active = w1.disk.active ∧
      w'.disk.segs = w1.disk.segs) : UnmapFailed env w w' start stop := by
  refine ⟨hck.trans h.checkpoint, fun hno => ?_⟩
  obtain ⟨hdisk, hact, hsegs⟩ := hcut (hno.subset h.faults)
  refine ⟨hdisk, .inr ⟨?_, h.unmapped.grow.trans ?_, hrt.trans h.unmapped.runtime⟩⟩
  · rw [hact]
    exact h.unmapped.active
  · intro s b hb
    unfold Disk.HasBlob
    rw [hsegs]
    exact hb

/-! ## §3. The whole unmap. -/

/-- What an unmap that returns leaves. -/
structure UnmapDone (env : Env) (w w' : World) (start stop : Nat) : Prop where
  done : Unmapping env w w' start stop
  described : LookupOk w'.disk.records w'.disk.lookups
  counts : CountsOk w'.disk

theorem UnmapDone.layoutOk (h : UnmapDone env w w' start stop) : LayoutOk env w' :=
  ⟨h.done.disk, h.done.warm, h.done.blkMap, h.done.lookup, h.done.checkpointOk, h.described,
    h.counts⟩

theorem UnmapDone.covered (h : UnmapDone env w w' start stop) (hcov : Covered w) : Covered w' := by
  unfold Covered
  rw [h.done.eff]
  exact h.done.covers _ hcov

theorem UnmapDone.layoutInv (h : UnmapDone env w w' start stop) (hinv : LayoutInv env w) :
    LayoutInv env w' := by
  refine ⟨h.layoutOk, h.covered hinv.covered, fun hclean => ?_⟩
  rw [h.done.segIndex]
  rw [h.done.checkpoint] at hclean
  exact h.done.covers _ (hinv.clean hclean)

/-- A step on the reclaim file keeps everything else. -/
theorem UnmapDone.reclaim (h : UnmapDone env w w1 start stop) {cs : List ReclaimCandidate}
    (hput : ReclaimPut env w1 w2 cs) : UnmapDone env w w2 start stop := by
  obtain ⟨c, hmem⟩ := hput.mem
  have hcoh := hput.coherent
  have hfaults := hput.faults
  have hdisk : w2.disk = (lookupSlot.setFile w1.disk w1.disk.lookup).putReclaim (some cs) :=
    hput.disk
  obtain ⟨ticks, faults, rfl⟩ := w2.parts hdisk hmem
  exact ⟨h.done.looked rfl h.done.disk.lookup ⟨c, w1.mem.blkMap, rfl⟩ h.done.blkMap hcoh hfaults,
    h.described, h.counts⟩

theorem Unmapping.reclaimFailed (h : Unmapping env w w1 start stop) (hfail : ReclaimFailed w1 w') :
    UnmapFailed env w w' start stop := by
  rcases hfail with ⟨-, cs, hd⟩ | ⟨hd, -⟩
  · refine h.failed (by rw [hd]; rfl) (by rw [hd]; rfl) (fun _ => ?_)
    rw [hd]
    exact ⟨h.disk.frame (.of_eq rfl rfl rfl rfl) rfl, rfl, rfl⟩
  · refine h.failed (by rw [hd]) (by rw [hd]) (fun _ => ?_)
    rw [hd]
    exact ⟨h.disk, rfl, rfl⟩

/-- The segment index, on disk and cached. -/
structure SameIndex (w w' : World) : Prop where
  disk : w'.disk.segIndex = w.disk.segIndex
  mem : w'.mem.segIndex = w.mem.segIndex

theorem SameIndex.usable {w w' : World} (h : SameIndex w w') (hu : IndexUsable w) :
    IndexUsable w' := by
  unfold IndexUsable at hu ⊢
  rw [h.disk, h.mem]
  exact hu

/-- What the rest of an unmap does to the tables, once the stale copies are there. -/
structure RefsDropped (env : Env) (hit : List BlkMapRecord) (w w' : World) : Prop where
  blkMap : w'.disk.blkMap = w.disk.blkMap
  dedup : RefsTaken (dedupRefs hit) w.disk.dedup w'.disk.dedup
  map : Usable env blkMapSlot w'
  lookup : Usable env lookupSlot w'
  index : SameIndex w w'

/-- From the stale copies on: counts, lookup log, reclaim file. -/
theorem afterStale_spec (h : LayoutOk env w) (hpick : Picked w.disk c start stop hit)
    (hmid : Unmapping env w w1 start stop) (hdedup : w1.disk.dedup = w.disk.dedup) (hids : ids ≠ [])
    {α : Type} (report : List DedupIndexEntry → Nat → α) :
    wp (do
        let decremented ← decrementRefCounts env (dedupRefs hit)
        let _ ← rebuildLookupFromBlkMap env
        upsertReclaimCandidates env ids .truncated
        let promotions ← refreshReclaimSafety env
        return report decremented promotions)
      (fun _ w' => UnmapDone env w w' start stop ∧ RefsDropped env hit w1 w')
      (fun _ w' => UnmapFailed env w w' start stop) w1 := by
  have hroom : ∀ e ∈ w1.disk.dedup.table dedupLog,
      (dedupRefs hit).count e.entryId ≤ e.refCount := by
    intro e he
    rw [hdedup] at he
    rw [h.counts e he, hpick.count_eq hmid.unmapped]
    exact Nat.le_add_right _ _
  have hfound : ∀ id ∈ dedupRefs hit, ∃ e ∈ w1.disk.dedup.table dedupLog, e.entryId = id := by
    intro id hid
    obtain ⟨r, hr, hpos, rfl⟩ := mem_dedupRefs.mp hid
    rw [hdedup]
    exact h.disk.refs r (hpick.mem_iff.mp hr).1 hpos
  -- each step keeps `Unmapping`, and a failure leaves the disk of the step before it
  refine wp.bind (decrementRefCounts_spec hmid.warm.dedup hroom hfound) ?_ ?_
  swap
  · rintro _ w2 (⟨-, f, hd2, hcut⟩ | ⟨hd2, -⟩)
    · refine hmid.failed (by rw [hd2]; rfl) (by rw [hd2]; rfl) (fun hno => ?_)
      rw [hd2]
      rcases hcut hno with hsame | ht
      · exact ⟨hmid.disk.sameEntries hsame, rfl, rfl⟩
      · exact ⟨hmid.disk.refsTaken ht, rfl, rfl⟩
    · refine hmid.failed (by rw [hd2]) (by rw [hd2]) (fun _ => ?_)
      rw [hd2]
      exact ⟨hmid.disk, rfl, rfl⟩
  rintro _ w2 ⟨f, cd, hd2, hm2, hcoh2, hfaults2, ht⟩
  have hmid2 := hmid.taken hd2 hm2 hcoh2 hfaults2 ht
  have hcounts2 : CountsOk w2.disk := by
    refine h.counts.unmapped hpick hmid2.unmapped ?_
    rw [hd2, ← hdedup]
    exact ht
  refine wp.bind (rebuildLookupFromBlkMap_spec hmid2.blkMap hmid2.disk.extents) ?_ ?_
  swap
  · rintro _ w3 (⟨-, fl, hd3, hsound⟩ | ⟨hd3, -⟩)
    · refine hmid2.failed (by rw [hd3]; rfl) (by rw [hd3]; rfl) (fun _ => ?_)
      rw [hd3]
      exact ⟨hmid2.disk.setLookup (hsound hmid2.disk.lookup), rfl, rfl⟩
    · refine hmid2.failed (by rw [hd3]) (by rw [hd3]) (fun _ => ?_)
      rw [hd3]
      exact ⟨hmid2.disk, rfl, rfl⟩
  rintro _ w3 ⟨fl, cb, cl, hd3, hm3, hb3, hl3, hfaults3, hlk, hsound, -⟩
  have hdisk3 : w3.disk = (lookupSlot.setFile w2.disk fl).putReclaim w2.disk.reclaim := hd3
  have hmid3 : Unmapping env w w3 start stop :=
    hmid2.looked hdisk3 hsound ⟨_, _, hm3⟩ hb3.coherent hl3.coherent hfaults3
  have hdone3 : UnmapDone env w w3 start stop := by
    refine ⟨hmid3, ?_, ?_⟩
    · rw [hd3]
      exact hlk
    · rw [hd3]
      exact hcounts2
  refine wp.bind (upsertReclaimCandidates_spec hmid3.lookup hids .truncated) ?_
    (fun _ _ hfail => hmid3.reclaimFailed hfail)
  rintro _ w4 ⟨cs, hput4, -⟩
  have hdone4 := hdone3.reclaim hput4
  refine wp.bind (refreshReclaimSafety_spec hdone4.done.lookup) ?_
    (fun _ _ hfail => hdone4.done.reclaimFailed hfail)
  rintro _ w5 ⟨cs', hput5, -⟩
  refine ⟨hdone4.reclaim hput5, ?_⟩
  -- what the steps have written, taken together
  have hlast : w5.disk = w3.disk.putReclaim (some cs') := by
    rw [hput5.disk, hput4.disk]
    rfl
  have hdisk : w5.disk =
      (lookupSlot.setFile (dedupSlot.setFile w1.disk f) fl).putReclaim (some cs') := by
    rw [hlast, hd3, hd2]
  obtain ⟨c4, hmem4⟩ := hput4.mem
  obtain ⟨c5, hmem5⟩ := hput5.mem
  obtain ⟨cl', hready⟩ := hput5.ready
  have hmem : w5.mem = lookupSlot.setCache w3.mem c5 := by
    rw [hmem5, hmem4, lookupSlot.setCache_setCache]
  refine ⟨by rw [hdisk]; rfl, by rw [hdisk]; exact ht, .inl ⟨cb, ?_, ?_⟩, hready.usable, ?_, ?_⟩
  · rw [hmem]
    exact hb3.cached
  · rw [hlast]
    exact hb3.fresh
  · rw [hdisk]
    rfl
  · rw [hmem, hm3, hm2]
    rfl

/-- A failure before the stale copies are there. -/
theorem UnmapFailed.unchanged (h : DiskInv env w.disk) (hd : w'.disk = w.disk) :
    UnmapFailed env w w' start stop := by
  refine ⟨by rw [hd], fun _ => ?_⟩
  rw [hd]
  exact ⟨h, .inl (.refl _)⟩

end Holo.Storage
