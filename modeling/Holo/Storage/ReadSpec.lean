/-
Holo.Storage.ReadSpec — reading a logical block.

Main results:
* `readLogicalBlock_spec`: a read shows what the disk holds for the block, and fills caches
  only;
* `LayoutOk.cacheRead`: filled caches keep the invariant.
-/
import Holo.Storage.FlushSpec

namespace Holo.Storage

open Lib Program

variable {env : Env}

/-! ## §1. Filling caches. -/

/-- Caches were filled; everything they say is what the disk says. -/
structure CacheRead (w w' : World) : Prop where
  disk : w'.disk = w.disk
  faults : w'.faults = w.faults
  blkMap : Coherent blkMapSlot w'.disk w'.mem
  lookup : Coherent lookupSlot w'.disk w'.mem
  dedup : Coherent dedupSlot w'.disk w'.mem
  index : IndexCoherent w'.disk w'.mem
  data : DataCoherent w'.disk w'.mem
  eff : effIndex w'.disk w'.mem = effIndex w.disk w.mem
  checkpoint : CheckpointOk w'
  pending : w'.mem.pending = w.mem.pending

variable {w w' : World}

variable {block : Nat}

section

variable (h : LayoutOk env w)
include h

theorem LayoutOk.cacheRefl : CacheRead w w :=
  ⟨rfl, rfl, h.blkMap, h.lookup, h.warm.dedup, h.warm.index, h.warm.data, rfl, h.checkpoint, rfl⟩

omit h in
theorem CacheRead.trans {w1 w2 w3 : World} (h : CacheRead w1 w2) (h' : CacheRead w2 w3) :
    CacheRead w1 w3 :=
  ⟨h'.disk.trans h.disk, h'.faults.trans h.faults, h'.blkMap, h'.lookup, h'.dedup, h'.index,
    h'.data, h'.eff.trans h.eff, h'.checkpoint, h'.pending.trans h.pending⟩

/-- **Filled caches keep the invariant.** -/
theorem LayoutOk.cacheRead (hread : CacheRead w w') : LayoutOk env w' := by
  have hd := hread.disk
  refine ⟨hd ▸ h.disk, ⟨hd ▸ h.warm.inv, ?_, ?_, hd ▸ h.warm.next, ?_, hread.index, hread.data,
    hread.dedup⟩, hread.blkMap, hread.lookup, hread.checkpoint, hd ▸ h.described, hd ▸ h.counts⟩
  · rw [hread.eff, hd]
    exact h.warm.indexOk
  · rw [hread.eff, hd]
    exact h.warm.shape
  · rw [hread.eff, hd]
    exact h.warm.below

omit h in
theorem Covered.cacheRead (h : Covered w) (hread : CacheRead w w') : Covered w' := by
  unfold Covered
  rw [hread.eff, hread.disk]
  exact h

omit h in
theorem LayoutInv.cacheRead (h : LayoutInv env w) (hread : CacheRead w w') : LayoutInv env w' :=
  ⟨h.ok.cacheRead hread, h.covered.cacheRead hread, hread.disk ▸ h.clean⟩

theorem LayoutOk.readBlkMap {c : CachedLog BlkMapRecord}
    (hready : Ready env blkMapSlot w.disk (blkMapSlot.setCache w.mem (some c)) c) :
    CacheRead w (w.withCache blkMapSlot c) :=
  ⟨rfl, rfl, hready.coherent, h.lookup, h.warm.dedup, h.warm.index, h.warm.data, rfl,
    h.checkpoint, rfl⟩

theorem LayoutOk.readLookup {c : CachedLog MapLookupRecord}
    (hready : Ready env lookupSlot w.disk (lookupSlot.setCache w.mem (some c)) c) :
    CacheRead w (w.withCache lookupSlot c) :=
  ⟨rfl, rfl, h.blkMap, hready.coherent, h.warm.dedup, h.warm.index, h.warm.data, rfl,
    h.checkpoint, rfl⟩

theorem LayoutOk.readStore (hread : StoreRead w w') : CacheRead w w' := by
  obtain ⟨hdisk, hfaults, ⟨data, c, hmem⟩, hindex, hdata, heff⟩ := hread
  obtain ⟨ticks, faults, rfl⟩ := w'.parts hdisk hmem
  exact ⟨rfl, hfaults, h.blkMap, h.lookup, h.warm.dedup, hindex, hdata, heff, h.checkpoint, rfl⟩

/-! ## §2. Reading. -/

/-- What a read hands out for a record and its payload. -/
def BlkMapRecord.result (r : BlkMapRecord) (payload : Bytes) : LogicalReadResult :=
  ⟨r.recordId, r.logicalStart, r.logicalLen, r.dedupEntryId, r.compression, payload⟩

/-- **Reading the payload of a record.** -/
theorem readRecord_spec {r : BlkMapRecord} {payload : Bytes}
    (hread : Readable env w.disk r payload) (hidx : r.physicalSegmentId ∈ w.disk.indexed) :
    wp (readRecord env r) (fun x w' => CacheRead w w' ∧ x = r.result payload ∧ IndexUsable w)
      (fun _ w' => CacheRead w w' ∧ ¬ IndexUsable w) w := by
  obtain ⟨b, ⟨f, hf, hb⟩, hid, -, -, -, hdec⟩ := hread.stored.exists_blob
  have hseg : r.physicalSegmentId ∈ (effIndex w.disk w.mem).segments := by
    rw [h.warm.shape.segments]
    exact hidx
  refine wp.bind (loadBlobByLocation_spec h.warm.index h.warm.data h.warm.inv.segs hseg hf hb hid)
    ?_ ?_
  swap
  · rintro _ w' ⟨rfl, hbad⟩
    exact ⟨h.cacheRefl, hbad⟩
  rintro b' w' ⟨rfl, husable, w1, hi, hd⟩
  have hstore : StoreRead w w' := (hi.storeRead h.warm.data).trans (hd.storeRead hi.coherent)
  have hdec' : decodeStored env.codecs r.compression b'.bytes r.logicalLen = .ok payload := hdec
  simp only [wp_bind, wp_ofExcept, hdec']
  refine ⟨fun p hp => ?_, fun e he => absurd he (by simp)⟩
  obtain rfl := Except.ok.inj hp
  simp only [wp_check, wp_pure]
  refine ⟨fun hbad => ?_, fun _ => ⟨h.readStore hstore, rfl, husable⟩⟩
  rw [hread.checksum] at hbad
  cases hbad

/-- What a read of the block needs: the lookup log, and where a record covers the block also the
block map and the segment index. -/
structure Serves (env : Env) (w : World) (block : Nat) : Prop where
  lookup : Usable env lookupSlot w
  covered : (∃ r ∈ w.disk.active, r.covers block = true) →
    Usable env blkMapSlot w ∧ IndexUsable w

/-- Why a read fails: a loader's limit. -/
def ReadRefused (d : Disk) : Prop :=
  ¬ d.lookup.Loadable lookupLog ∨ ¬ d.blkMap.Loadable blkMapLog ∨ ¬ d.segIndex.index.Loadable

omit h in
theorem readRefused_of_not_serves (h : ¬ Serves env w block) : ReadRefused w.disk := by
  by_contra hno
  unfold ReadRefused at hno
  simp only [not_or, not_not] at hno
  exact h ⟨.inr hno.1, fun _ => ⟨.inr hno.2.1, .inr hno.2.2⟩⟩

/-- What a read returns: the active record around the block and its payload. -/
def ReturnsRecord (env : Env) (d : Disk) (block : Nat) : Option LogicalReadResult → Prop
  | none => ∀ r ∈ d.active, r.covers block = false
  | some x => ∃ r ∈ d.active, r.covers block = true ∧ ∃ p, Readable env d r p ∧ x = r.result p

/-- **Reading a block returns the record around it**, exactly if the files it needs can be had. -/
theorem readLogicalBlock_serves (block : Nat) : wp (readLogicalBlock env block)
      (fun res w' => CacheRead w w' ∧ ReturnsRecord env w.disk block res ∧ Serves env w block)
      (fun _ w' => CacheRead w w' ∧ ¬ Serves env w block) w := by
  refine wp.bind ((locateLogicalBlock_spec h.lookup h.disk.extents h.described).and
    (locateLogicalBlock_usable block)) ?_ ?_
  swap
  · intro _ w1 hout
    obtain ⟨⟨rfl, -⟩, hlookup⟩ := hout
    exact ⟨h.cacheRefl, fun hs => hlookup hs.lookup⟩
  intro found w1 hout
  obtain ⟨⟨c, rfl, hready, hfound⟩, hlookup⟩ := hout
  have hread1 := h.readLookup hready
  have h1 := h.cacheRead hread1
  -- the lookup tells the extent, the block map its record, the record its blob
  cases found with
  | none =>
    have hnone : ∀ r ∈ w.disk.active, r.covers block = false := by
      intro r hr
      obtain ⟨hmem, hact⟩ := Disk.mem_active.mp hr
      exact hfound r hmem hact
    refine ⟨hread1, hnone, hlookup, fun hcov => ?_⟩
    grind
  | some l =>
    obtain ⟨r, hr, hact, hcov, hstart, hend⟩ := hfound
    have hractive : r ∈ w.disk.active := Disk.mem_active.mpr ⟨hr, hact⟩
    dsimp only
    rw [hstart, hend]
    refine wp.bind ((locateActiveRecord_spec h1.blkMap hr hact hcov rfl).and
      (locateActiveRecord_usable block _ _)) ?_ ?_
    swap
    · intro _ w2 hout
      obtain ⟨⟨rfl, -⟩, hblk⟩ := hout
      exact ⟨hread1, fun hs => hblk (hs.covered ⟨r, hractive, hcov⟩).1⟩
    intro found' w2 hout
    obtain ⟨⟨c', rfl, hready', rfl⟩, hblk⟩ := hout
    have hread2 := hread1.trans (h1.readBlkMap hready')
    have h2 := h.cacheRead hread2
    obtain ⟨p, hp⟩ := h.disk.readable r hractive
    refine wp.bind (readRecord_spec h2 hp (h.disk.indexed r hractive)) ?_ ?_
    · intro x w3 hout
      obtain ⟨hread3, rfl, hindex⟩ := hout
      exact ⟨hread2.trans hread3, ⟨r, hractive, hcov, p, hp, rfl⟩, hlookup, fun _ => ⟨hblk, hindex⟩⟩
    · intro _ w3 hout
      exact ⟨hread2.trans hout.1, fun hs => hout.2 (hs.covered ⟨r, hractive, hcov⟩).2⟩

/-- **Reading a block returns the record around it.** -/
theorem readLogicalBlock_returns (block : Nat) : wp (readLogicalBlock env block)
      (fun res w' => CacheRead w w' ∧ ReturnsRecord env w.disk block res)
      (fun _ w' => CacheRead w w' ∧ ReadRefused w.disk) w :=
  wp_mono (readLogicalBlock_serves h block) (fun _ _ hout => ⟨hout.1, hout.2.1⟩)
    (fun _ _ hout => ⟨hout.1, readRefused_of_not_serves hout.2⟩)

/-- A read result says what the block shows. -/
def ShowsResult (env : Env) (d : Disk) (block : Nat) (res : Option LogicalReadResult) : Prop :=
  d.Shows env block (res.map fun x => (x.logicalStart, x.payload)) ∧
    ∀ x, res = some x → x.logicalLen = x.payload.length

omit h in
theorem ReturnsRecord.shows {d : Disk} {res : Option LogicalReadResult}
    (h : ReturnsRecord env d block res) : ShowsResult env d block res := by
  cases res with
  | none => exact ⟨h, by simp⟩
  | some x =>
    obtain ⟨r, hr, hcov, p, hp, rfl⟩ := h
    refine ⟨⟨r, hr, hcov, rfl, hp⟩, ?_⟩
    intro x hx
    rw [← Option.some.inj hx]
    exact hp.stored.length.symm

/-- **Reading a block shows what the disk holds there.** -/
theorem readLogicalBlock_spec (block : Nat) : wp (readLogicalBlock env block)
      (fun res w' => CacheRead w w' ∧ ShowsResult env w.disk block res)
      (fun _ w' => CacheRead w w' ∧ ReadRefused w.disk) w :=
  wp_mono (readLogicalBlock_returns h block) (fun _ _ hout => ⟨hout.1, hout.2.shows⟩)
    (fun _ _ hout => hout)

end

/-- A read that finds nothing in memory needs a lookup log that loads. -/
theorem readLogicalBlock_cold (hcold : lookupSlot.cache w.mem = none)
    (hbad : ¬ w.disk.lookup.Loadable lookupLog) (block : Nat) :
    wp (readLogicalBlock env block) (fun _ _ => False) (fun _ w' => w' = w) w := by
  unfold readLogicalBlock locateLogicalBlock
  rw [wp_bind, wp_bind]
  refine wp_mono (ensureCacheFresh_cold hcold) ?_ (fun _ _ hno => hno.1)
  intro c w' hout
  obtain ⟨-, -, hload⟩ := hout
  exact absurd hload hbad

end Holo.Storage
