/-
Holo.Storage.UnmapExact — which records and counts an unmap changes.

`Holo.Storage.UnmapSpec` says what an unmap leaves readable; here is what it makes of every
record of the block map and of every entry of the dedup index.

Main results:
* `meets_iff_overlaps`: the overlap test of `run_unmap`, against common positions;
* `runUnmap_spec`: an unmap that returns has dropped exactly the extents that meet the
  range, has taken their references away and keeps the invariant; one that is cut short leaves
  a disk whose records can be read, with all of those extents or none.
-/
import Holo.Storage.UnmapSpec

namespace Holo.Storage

open Lib Program List

variable {env : Env}
variable {res : Option LogicalReadResult}

/-! ## §1. Ranges that overlap. -/

/-- The record has positions on both sides of the start. -/
def BlkMapRecord.Straddles (r : BlkMapRecord) (start : Nat) : Prop :=
  r.logicalStart < start ∧ start < r.logicalEnd

variable {r : BlkMapRecord}

/-- **The test of `run_unmap`** sees the records that overlap the range, and with an empty range
those its start lies inside of. -/
theorem meets_iff_overlaps {t : List BlkMapRecord} (h : ExtentsOk t) (hr : r ∈ t) (ha : r.isActive)
    (start len : Nat) :
    r.Meets start (satAdd64 start len) ↔ r.Overlaps start len ∨ len = 0 ∧ r.Straddles start := by
  have hpos := h.pos r hr ha
  have hbound := h.bound r hr ha
  have hend := h.logicalEnd_eq hr ha
  unfold BlkMapRecord.Meets BlkMapRecord.Overlaps BlkMapRecord.Straddles satAdd64
  constructor
  · intro hmeets
    by_cases hlen : len = 0
    · right
      omega
    · -- the later of the two starts is in both ranges
      refine .inl ⟨max r.logicalStart start, ?_⟩
      omega
  grind

/-! ## §2. The tables after an unmap. -/

/-- The active records that meet the range. -/
def Disk.meeting (d : Disk) (start stop : Nat) : List BlkMapRecord :=
  d.active.filter fun r => decide (r.Meets start stop)

variable {d : Disk} {c : CachedLog BlkMapRecord} {hit : List BlkMapRecord}

variable {start stop block : Nat} {res' : Option LogicalReadResult}

theorem Disk.mem_meeting : r ∈ d.meeting start stop ↔ r ∈ d.active ∧ r.Meets start stop := by
  unfold Disk.meeting
  rw [mem_filter, decide_eq_true_eq]

/-- What an unmap makes of the block map and of the dedup index. -/
structure UnmapTables (d d' : Disk) (start stop : Nat) : Prop where
  records : ∀ x, x ∈ d'.records ↔ (∃ r ∈ d.meeting start stop, x = r.toStale) ∨
    (x ∈ d.records ∧ x ∉ d.meeting start stop)
  entries : ∀ e, e ∈ d'.entries ↔ ∃ x ∈ d.entries,
    e = x.withRefs (x.refCount - (dedupRefs (d.meeting start stop)).count x.entryId)
  room : ∀ x ∈ d.entries, (dedupRefs (d.meeting start stop)).count x.entryId ≤ x.refCount

theorem Picked.perm_meeting (h : Picked d c start stop hit) : hit.Perm (d.meeting start stop) := by
  have hnodup : (d.meeting start stop).Nodup := d.active_nodup.filter _
  rw [perm_ext_iff_of_nodup h.nodup hnodup]
  intro r
  rw [h.mem_iff]
  exact Disk.mem_meeting.symm

/-- No entry has fewer references than there are records to be unmapped. -/
theorem CountsOk.room (h : CountsOk d) (start stop : Nat) : ∀ x ∈ d.entries,
    (dedupRefs (d.meeting start stop)).count x.entryId ≤ x.refCount := by
  intro x hx
  rw [h x hx]
  have hsub : (dedupRefs (d.meeting start stop)).Sublist (dedupRefs d.active) :=
    (filter_sublist.filter _).map _
  exact hsub.count_le _

theorem Picked.records_staled {c c' : CachedLog BlkMapRecord} (h : Picked d c start stop hit)
    (hok : CacheOk blkMapLog d.blkMap c') {f' : LogFile BlkMapRecord}
    (hholds : Holds blkMapLog d.blkMap (staleCopies (hit.map (·.recordId)) c'.records) f')
    (x : BlkMapRecord) :
    x ∈ f'.table blkMapLog ↔ (∃ r ∈ d.meeting start stop, x = r.toStale) ∨
      (x ∈ d.records ∧ x ∉ d.meeting start stop) := by
  rw [mem_table_staled hok hholds]
  have hid : ∀ r ∈ d.records, r.recordId ∈ hit.map (·.recordId) ↔ r ∈ d.meeting start stop := by
    simp_all [h.mem_ids, Disk.mem_meeting, Disk.mem_active]
  constructor
  · intro hx
    rcases hx with ⟨r, hr, hrid, rfl⟩ | ⟨hx, hxid⟩
    · exact .inl ⟨r, (hid r hr).mp hrid, rfl⟩
    · exact .inr ⟨hx, fun hm => hxid ((hid x hx).mpr hm)⟩
  intro hx
  rcases hx with ⟨r, hr, rfl⟩ | ⟨hx, hxm⟩
  · have hrec : r ∈ d.records := (Disk.mem_active.mp (Disk.mem_meeting.mp hr).1).1
    exact .inl ⟨r, hrec, (hid r hrec).mpr hr, rfl⟩
  · exact .inr ⟨hx, fun hm => hxm ((hid x hx).mp hm)⟩

/-- What reads find after an unmap: the files that can be had before can be had after, and if
anything was unmapped both logs of the map are cached. -/
structure UnmapServes (env : Env) (w w' : World) (start stop : Nat) : Prop where
  blkMap : Usable env blkMapSlot w'
  lookup : Usable env lookupSlot w → Usable env lookupSlot w'
  rebuilt : w.disk.meeting start stop ≠ [] → Usable env lookupSlot w'
  index : SameIndex w w'

/-- **Unmapping a range.** -/
theorem runUnmap_spec {w : World} (h : LayoutOk env w) (start len : Nat) :
    wp (runUnmap env start len) (fun _ w' => UnmapDone env w w' start (satAdd64 start len) ∧
        UnmapTables w.disk w'.disk start (satAdd64 start len) ∧
        UnmapServes env w w' start (satAdd64 start len))
      (fun _ w' => UnmapFailed env w w' start (satAdd64 start len)) w := by
  unfold runUnmap loadBlkMapRecords
  set stop := satAdd64 start len
  rw [wp_bind]
  refine h.blkMap.bind_fresh (fun _ _ => .unchanged h.disk rfl) fun c hready => ?_
  simp only [wp_pure]
  have h1 := h.cacheRead (h.readBlkMap hready)
  have hok : CacheOk blkMapLog w.disk.blkMap c := hready.ok
  generalize hhit : overlapping c.records start stop = hit
  have hpick : Picked w.disk c start stop hit := ⟨hok, hhit.symm⟩
  have hroom := h.counts.room start stop
  rw [wp_ite]
  refine ⟨fun hnil => ?_, fun hne => ?_⟩
  · -- nothing meets the range, and nothing is changed
    have hnone : w.disk.meeting start stop = [] :=
      nil_perm.mp (hnil ▸ hpick.perm_meeting)
    refine ⟨⟨⟨h1.disk, h1.warm, h1.blkMap, h1.lookup, ⟨fun r => ?_, .refl _, rfl⟩, rfl,
      h1.checkpoint, rfl, rfl, fun n hn => hn, Subset.refl _⟩, h1.described, h1.counts⟩,
      ⟨fun x => ?_, fun e => ?_, hroom⟩, hready.usable, fun hu => hu,
      fun hne => absurd hnone hne, rfl, rfl⟩
    · refine ⟨fun hr => ⟨hr, fun hmeets => ?_⟩, fun hr => hr.1⟩
      have hmem := Disk.mem_meeting.mpr ⟨hr, hmeets⟩
      rw [hnone] at hmem
      cases hmem
    · rw [hnone]
      simp
    · rw [hnone]
      simp [dedupRefs, DedupIndexEntry.withRefs]
  have hids : hit.map (·.recordId) ≠ [] := by simpa using hne
  have hfound : ∀ id ∈ hit.map (·.recordId),
      ∃ r ∈ w.disk.blkMap.table blkMapLog, r.recordId = id := by
    intro id hid
    obtain ⟨r, hr, rfl⟩ := mem_map.mp hid
    exact ⟨r, (Disk.mem_active.mp (hpick.mem_iff.mp hr).1).1, rfl⟩
  simp only [wp_bind]
  refine wp_then (markBlkMapStaleBatch_spec h1.blkMap hids hfound) ?_ ?_
  · rintro _ w2 (⟨c', hok', hint⟩ | ⟨hd, -⟩)
    swap
    · exact .unchanged h.disk hd
    obtain ⟨f', hd, hholds⟩ := hint.disk
    refine ⟨by rw [hd]; rfl, fun hno => ?_⟩
    rw [hd]
    rcases hholds hno with hold | hnew
    · obtain ⟨hdisk, hkept⟩ := h.disk.sameRecords hold
      exact ⟨hdisk, .inl hkept⟩
    · obtain ⟨hdisk, hun⟩ := h.disk.staled hpick hok' hnew
      exact ⟨hdisk, .inr hun⟩
  rintro updated w2 ⟨f', c', cb, hput, hok', rfl, hholds⟩
  have hput := hput.of_cached
  have hmid := Unmapping.staled h hpick hok' hholds hput
  have hupd : (staleCopies (hit.map (·.recordId)) c'.records).map (·.recordId) ≠ [] := by
    obtain ⟨id, hid⟩ := exists_mem_of_ne_nil _ hids
    obtain ⟨r, hr, hrid⟩ := hfound id hid
    refine ne_nil_of_mem (a := id) (mem_map.mpr ⟨r.toStale, ?_, hrid⟩)
    exact mem_staleCopies.mpr ⟨r, hok'.mem_iff.mpr hr, hrid ▸ hid, rfl⟩
  have hdedup : w2.disk.dedup = w.disk.dedup := by
    rw [hput.disk]
    rfl
  have hrest := afterStale_spec h hpick hmid hdedup hupd
    (fun decremented promotions => (⟨start, len,
      (staleCopies (hit.map (·.recordId)) c'.records).map (·.recordId),
      decremented.length, promotions⟩ : UnmapReport))
  have hdone : ∀ w' : World, UnmapDone env w w' start stop ∧
      RefsDropped env hit w2 w' → UnmapDone env w w' start stop ∧
        UnmapTables w.disk w'.disk start stop ∧
        UnmapServes env w w' start stop := by
    rintro w' ⟨hlayout, hout⟩
    have hsame : SameIndex w w' := by
      refine ⟨hout.index.disk.trans hmid.segIndex, hout.index.mem.trans ?_⟩
      rw [hput.mem]
      rfl
    refine ⟨hlayout, ⟨fun x => ?_, fun e => ?_, hroom⟩, hout.map, fun _ => hout.lookup,
      fun _ => hout.lookup, hsame⟩
    · unfold Disk.records
      rw [hout.blkMap, hput.disk]
      exact hpick.records_staled hok' hholds x
    · unfold Disk.entries
      rw [hout.dedup.mem_iff, hdedup]
      simp only [(dedupRefs_perm hpick.perm_meeting).count_eq]
  simpa only [wp_bind, wp_pure] using
    wp_mono hrest (fun _ w' hout => hdone w' hout) (fun _ _ hout => hout)

/-! ## §3. Reads after an unmap. -/

/-- A block has one result. -/
theorem ReturnsRecord.unique (h : DiskInv env d) (hres : ReturnsRecord env d block res)
    (hres' : ReturnsRecord env d block res') : res = res' := by
  have hboth : ∀ x, ReturnsRecord env d block (some x) → ¬ ReturnsRecord env d block none := by
    intro x hx hnone
    obtain ⟨r, hr, hcov, -⟩ := hx
    rw [hnone r hr] at hcov
    cases hcov
  cases res with
  | none =>
    cases res' with
    | none => rfl
    | some x => exact absurd hres (hboth x hres')
  | some x =>
    cases res' with
    | none => exact absurd hres' (hboth x hres)
    | some x' =>
      obtain ⟨r, hr, hcov, p, hp, rfl⟩ := hres
      obtain ⟨r', hr', hcov', p', hp', rfl⟩ := hres'
      obtain ⟨hmem, hact⟩ := Disk.mem_active.mp hr
      obtain ⟨hmem', hact'⟩ := Disk.mem_active.mp hr'
      obtain rfl := h.extents.unique d.records_nodup hmem hmem' hact hact' hcov hcov'
      rw [hp.stored.unique h.store.segs hp'.stored]

/-- What a record away from the range shows, it still shows. -/
theorem ReturnsRecord.unmapped {d d' : Disk} (hun : Unmapped d d' start stop)
    (hout : ∀ r ∈ d.meeting start stop, r.covers block = false)
    (h : ReturnsRecord env d block res) :
    ReturnsRecord env d' block res := by
  cases res with
  | none => exact fun r hr => h r ((hun.active r).mp hr).1
  | some x =>
    obtain ⟨r, hr, hcov, p, hp, rfl⟩ := h
    refine ⟨r, (hun.active r).mpr ⟨hr, fun hmeets => ?_⟩, hcov, p, hp.mono hun.grow, rfl⟩
    rw [hout r (Disk.mem_meeting.mpr ⟨hr, hmeets⟩)] at hcov
    cases hcov

/-- Nothing shows where a record was unmapped. -/
theorem returnsRecord_none_of_meeting {d d' : Disk} (h : DiskInv env d)
    (hun : Unmapped d d' start stop) (hr : r ∈ d.meeting start stop)
    (hcov : r.covers block = true) :
    ∀ x ∈ d'.active, x.covers block = false := by
  intro x hx
  by_contra hxcov
  obtain ⟨hxact, hxout⟩ := (hun.active x).mp hx
  obtain ⟨hract, hmeets⟩ := Disk.mem_meeting.mp hr
  obtain ⟨hmem, hact⟩ := Disk.mem_active.mp hract
  obtain ⟨hmem', hact'⟩ := Disk.mem_active.mp hxact
  have heq : r = x := h.extents.unique d.records_nodup hmem hmem' hact hact' hcov
    (by simpa using hxcov)
  exact hxout (heq ▸ hmeets)

section Reads

variable {w w' : World} (h : LayoutOk env w) (hdone : UnmapDone env w w' start stop)
  (hserves : UnmapServes env w w' start stop)

include h hdone hserves

/-- **A read of an unmapped record** returns nothing. -/
theorem read_unmapped {r : BlkMapRecord} (hr : r ∈ w.disk.meeting start stop)
    (hcov : r.covers block = true) : ∃ v, readLogicalBlock env block w' = (.ok none, v) := by
  have hnone : ReturnsRecord env w'.disk block none :=
    returnsRecord_none_of_meeting h.disk hdone.done.unmapped hr hcov
  have hready : Serves env w' block := by
    refine ⟨hserves.rebuilt (ne_nil_of_mem hr), fun hcovered => ?_⟩
    obtain ⟨x, hx, hxcov⟩ := hcovered
    rw [hnone x hx] at hxcov
    cases hxcov
  have hread := readLogicalBlock_serves hdone.layoutOk block
  obtain ⟨res, v, hrun, -, hres, -⟩ := (wp_mono hread (fun _ _ hout => hout)
    (fun _ _ hout => hout.2 hready)).exists_ok
  rw [hres.unique hdone.done.disk hnone] at hrun
  exact ⟨v, hrun⟩

/-- **A read away from the unmapped records** returns what it returned. -/
theorem read_kept (hout : ∀ r ∈ w.disk.meeting start stop, r.covers block = false) {v : World}
    (hrun : readLogicalBlock env block w = (.ok res, v)) :
    ∃ v', readLogicalBlock env block w' = (.ok res, v') := by
  obtain ⟨-, hres, hready⟩ := (readLogicalBlock_serves h block).of_ok hrun
  have hready' : Serves env w' block := by
    refine ⟨hserves.lookup hready.lookup, fun hcovered => ?_⟩
    obtain ⟨r, hr, hcov⟩ := hcovered
    have hold := hready.covered ⟨r, ((hdone.done.unmapped.active r).mp hr).1, hcov⟩
    exact ⟨hserves.blkMap, hserves.index.usable hold.2⟩
  have hread := readLogicalBlock_serves hdone.layoutOk block
  obtain ⟨res', v', hrun', -, hres', -⟩ := (wp_mono hread (fun _ _ hout => hout)
    (fun _ _ hout => hout.2 hready')).exists_ok
  rw [hres'.unique hdone.done.disk (hres.unmapped hdone.done.unmapped hout)] at hrun'
  exact ⟨v', hrun'⟩

end Reads

end Holo.Storage
