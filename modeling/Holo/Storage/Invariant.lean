/-
Holo.Storage.Invariant — what a layout keeps, on disk and in its caches.

`DiskInv` is what every cut of every operation leaves on disk: each active block map record
can be read.  `Consistent` is what a clean checkpoint promises in addition: the lookup log,
the reference counts and the segment index are up to date.  `LayoutOk` and `LayoutInv` say
the same of a running process, whose caches may be ahead of the disk.

Main results:
* `LayoutInv.crashInv`: what is on disk is consistent whenever the checkpoint is clean;
* `DiskInv.storeCut`, `DiskInv.setBlkMap`, `DiskInv.setLookup`, `DiskInv.frame`
  — the ways an operation changes the disk keep its invariant;
* `Disk.Shows`: what reading a block shows, and that it is determined.
-/
import Holo.Storage.PayloadSpec

namespace Holo.Storage

open Lib Program

variable {env : Env}

/-! ## §1. The invariants. -/

/-- The block map records in use. -/
def Disk.active (d : Disk) : List BlkMapRecord := d.records.filter (·.isActive)

variable {d : Disk} {r : BlkMapRecord} {w : World}

theorem Disk.mem_active : r ∈ d.active ↔ r ∈ d.records ∧ r.isActive = true := List.mem_filter

section

variable (env : Env) (d : Disk) (w : World)

/-- The lookup table. -/
def Disk.lookups : List MapLookupRecord := d.lookup.table lookupLog

/-- What is true of the disk at every step boundary. -/
structure DiskInv : Prop where
  store : StoreInv d
  blkMap : d.blkMap.Sound blkMapLog
  lookup : d.lookup.Sound lookupLog
  extents : ExtentsOk d.records
  readable : ∀ r ∈ d.active, ∃ p, Readable env d r p
  indexed : ∀ r ∈ d.active, r.physicalSegmentId ∈ d.indexed
  refs : ∀ r ∈ d.active, 0 < r.dedupEntryId → ∃ e ∈ d.entries, e.entryId = r.dedupEntryId

/-- **Reference counts are right**: each is the number of active records naming the entry. -/
def CountsOk : Prop :=
  ∀ e ∈ d.entries, e.refCount = (dedupRefs d.active).count e.entryId

/-- What a clean checkpoint promises. -/
structure Consistent : Prop where
  described : LookupOk d.records d.lookups
  counts : CountsOk d
  covers : Covers d d.segIndex.index.blobHighWater
  next : NextAbove d

/-- `StoreReady` without its high water. -/
structure StoreWarm : Prop where
  inv : StoreInv w.disk
  indexOk : IndexOk w.disk (effIndex w.disk w.mem)
  shape : SameShape (effIndex w.disk w.mem) w.disk.segIndex.index
  next : NextAbove w.disk
  below : w.disk.segIndex.index.blobHighWater ≤ (effIndex w.disk w.mem).blobHighWater
  index : IndexCoherent w.disk w.mem
  data : DataCoherent w.disk w.mem
  dedup : Coherent dedupSlot w.disk w.mem

/-- What a running process keeps. -/
structure LayoutOk : Prop where
  disk : DiskInv env w.disk
  warm : StoreWarm w
  blkMap : Coherent blkMapSlot w.disk w.mem
  lookup : Coherent lookupSlot w.disk w.mem
  checkpoint : ∀ c, w.mem.checkpoint = some c → c = w.disk.checkpoint
  described : LookupOk w.disk.records w.disk.lookups
  counts : CountsOk w.disk

/-- The index a write works with knows every blob id in use. -/
def Covered : Prop := Covers w.disk (effIndex w.disk w.mem).blobHighWater

/-- A running process none of whose blob ids is at risk. -/
structure LayoutInv : Prop where
  ok : LayoutOk env w
  covered : Covered w
  clean : w.disk.checkpoint.flags = .clean → Covers w.disk w.disk.segIndex.index.blobHighWater

/-- A disk that recovery starts from. -/
structure CrashInv : Prop where
  disk : DiskInv env d
  clean : d.checkpoint.flags = .clean → Consistent d

end

theorem StoreReady.warm (h : StoreReady w) : StoreWarm w :=
  ⟨h.inv.inv, h.inv.index, h.inv.shape, h.inv.next, h.inv.below, h.index, h.data, h.dedup⟩

theorem StoreWarm.ready (h : StoreWarm w) (hcov : Covered w) : StoreReady w :=
  ⟨⟨h.inv, h.indexOk, h.shape, h.next, h.below, hcov⟩, h.index, h.data, h.dedup⟩

/-- The disk of a running process with a clean checkpoint is consistent. -/
theorem LayoutInv.crashInv (h : LayoutInv env w) : CrashInv env w.disk :=
  ⟨h.ok.disk, fun hclean => ⟨h.ok.described, h.ok.counts, h.clean hclean, h.ok.warm.next⟩⟩

theorem StoreWarm.of_empty (hmem : w.mem = .empty) (hinv : StoreInv w.disk)
    (hnext : NextAbove w.disk) : StoreWarm w := by
  obtain ⟨d, m, ticks, faults⟩ := w
  obtain rfl : m = _ := hmem
  exact ⟨hinv, hinv.index, .refl _, hnext, le_rfl, fun c hc => absurd hc (by simp [Caches.empty]),
    fun seq c hc => absurd hc (by simp [Caches.empty]), .empty _ _ rfl⟩

theorem CrashInv.restarted {w : World} (h : CrashInv env w.disk) (hmem : w.mem = .empty)
    (hclean : w.disk.checkpoint.flags = .clean) : LayoutInv env w := by
  have hcons := h.clean hclean
  obtain ⟨d, m, ticks, faults⟩ := w
  obtain rfl : m = _ := hmem
  exact ⟨⟨h.disk, .of_empty rfl h.disk.store hcons.next, .empty _ _ rfl, .empty _ _ rfl,
    fun c hc => absurd hc (by simp [Caches.empty]), hcons.described, hcons.counts⟩, hcons.covers,
    fun _ => hcons.covers⟩

/-! ## §2. Changes that keep the invariant of the disk. -/

/-- The files of two disks hold the same, but for what is synced. -/
structure SameFiles (d d' : Disk) : Prop where
  segs : ∀ s, d'.segs.lookup s = d.segs.lookup s ∨
    ∃ f, d.segs.lookup s = some f ∧ d'.segs.lookup s = some f.sync
  blkMap : d'.blkMap = d.blkMap ∨ d'.blkMap = d.blkMap.sync
  lookup : d'.lookup = d.lookup ∨ d'.lookup = d.lookup.sync
  dedup : d'.dedup = d.dedup ∨ d'.dedup = d.dedup.sync

theorem SameFiles.refl (d : Disk) : SameFiles d d :=
  ⟨fun _ => .inl rfl, .inl rfl, .inl rfl, .inl rfl⟩

theorem SameFiles.trans {d1 d2 d3 : Disk} (h : SameFiles d1 d2) (h' : SameFiles d2 d3) :
    SameFiles d1 d3 := by
  have hfile : ∀ {R : Type} {f g k : LogFile R}, (g = f ∨ g = f.sync) → (k = g ∨ k = g.sync) →
      (k = f ∨ k = f.sync) := by
    rintro R f g k (rfl | rfl) (rfl | rfl)
    · exact .inl rfl
    · exact .inr rfl
    · exact .inr rfl
    · exact .inr rfl
  refine ⟨fun s => ?_, hfile h.blkMap h'.blkMap, hfile h.lookup h'.lookup, hfile h.dedup h'.dedup⟩
  rcases h.segs s with h1 | ⟨f, h1, h2⟩
  · rw [← h1]
    exact h'.segs s
  right
  rcases h'.segs s with h3 | ⟨g, h3, h4⟩
  · exact ⟨f, h1, by rw [h3, h2]⟩
  · rw [h2] at h3
    cases h3
    exact ⟨f, h1, h4⟩

variable {d' : Disk}

section

variable (h : SameFiles d d')
include h

theorem SameFiles.records : d'.records = d.records := by
  unfold Disk.records
  rcases h.blkMap with he | he
  · rw [he]
  · rw [he, LogFile.table_sync]

theorem SameFiles.active : d'.active = d.active := by
  unfold Disk.active
  rw [h.records]

theorem SameFiles.lookups : d'.lookups = d.lookups := by
  unfold Disk.lookups
  rcases h.lookup with he | he
  · rw [he]
  · rw [he, LogFile.table_sync]

theorem SameFiles.entries : d'.entries = d.entries := by
  unfold Disk.entries
  rcases h.dedup with he | he
  · rw [he]
  · rw [he, LogFile.table_sync]

theorem SameFiles.hasBlob (s : Nat) (b : DataBlob) : d'.HasBlob s b ↔ d.HasBlob s b := by
  unfold Disk.HasBlob
  rcases h.segs s with he | ⟨f, hf, hf'⟩
  · rw [he]
  · rw [hf, hf']
    simp

theorem SameFiles.grow : SegsGrow d d' :=
  fun s b hb => (h.hasBlob s b).mpr hb

theorem SameFiles.of_lookup {s : Nat} {f' : LogFile DataBlob} (hf' : d'.segs.lookup s = some f') :
    ∃ f, d.segs.lookup s = some f ∧ (f' = f ∨ f' = f.sync) := by
  rcases h.segs s with he | ⟨f, hf, hs⟩
  · exact ⟨f', he ▸ hf', .inl rfl⟩
  · rw [hs] at hf'
    exact ⟨f, hf, .inr (Option.some.inj hf').symm⟩

end

theorem LogFile.Sound.of_sync {R : Type} {k : LogKind R} {f f' : LogFile R} (h : f.Sound k)
    (he : f' = f ∨ f' = f.sync) : f'.Sound k := by
  rcases he with rfl | rfl
  · exact h
  · exact ⟨h.tail, h.checksum⟩

/-- **The store under a change of what is synced and of the ranges in the index.** -/
theorem StoreInv.sameFiles (h : StoreInv d) (hsame : SameFiles d d')
    (hshape : SameShape d'.segIndex.index d.segIndex.index) (hindex : IndexOk d d'.segIndex.index) :
    StoreInv d' := by
  have hidx : d'.indexed = d.indexed := hshape.segments
  -- a segment is as it was, or synced with the same blobs
  refine ⟨?_, ?_, ?_, ?_, ?_, ?_, ?_, ?_, ?_, h.dedup.of_sync hsame.dedup⟩
  · intro s f' hf'
    obtain ⟨f, hf, rfl | rfl⟩ := hsame.of_lookup hf'
    · exact h.segs s _ hf
    · exact ⟨(h.segs s _ hf).ids, (h.segs s _ hf).blobs⟩
  · intro s f' hf'
    obtain ⟨f, hf, rfl | rfl⟩ := hsame.of_lookup hf'
    · exact h.tails s _ hf
    · exact h.tails s f hf
  · intro s b hb
    exact h.compressed s b ((hsame.hasBlob s b).mp hb)
  · intro s hs
    obtain ⟨f, hf⟩ := h.files s (hidx ▸ hs)
    rcases hsame.segs s with he | ⟨g, -, hg⟩
    · exact ⟨f, he ▸ hf⟩
    · exact ⟨_, hg⟩
  · intro s hs
    exact h.bound s (hidx ▸ hs)
  · intro s hs s' hs' hlt b b' hb hb'
    exact h.ordered s (hidx ▸ hs) s' (hidx ▸ hs') hlt b b' ((hsame.hasBlob s b).mp hb)
      ((hsame.hasBlob s' b').mp hb')
  · exact hindex.congr (fun s _ b hb => (hsame.hasBlob s b).mp hb)
  · intro e he s hs b hb hid
    exact h.agree e (hsame.entries ▸ he) s (hidx ▸ hs) b ((hsame.hasBlob s b).mp hb) hid
  · intro e he
    exact h.entryPos e (hsame.entries ▸ he)

/-- **Nothing but what is synced changes, or the ranges in the index.** -/
theorem DiskInv.sameFiles (h : DiskInv env d) (hsame : SameFiles d d')
    (hshape : SameShape d'.segIndex.index d.segIndex.index) (hindex : IndexOk d d'.segIndex.index) :
    DiskInv env d' := by
  have hidx : d'.indexed = d.indexed := hshape.segments
  refine ⟨h.store.sameFiles hsame hshape hindex, h.blkMap.of_sync hsame.blkMap,
    h.lookup.of_sync hsame.lookup, hsame.records ▸ h.extents, ?_, ?_, ?_⟩
  · intro r hr
    obtain ⟨p, hp⟩ := h.readable r (hsame.active ▸ hr)
    exact ⟨p, hp.mono hsame.grow⟩
  · intro r hr
    exact hidx ▸ h.indexed r (hsame.active ▸ hr)
  · intro r hr
    rw [hsame.entries]
    exact h.refs r (hsame.active ▸ hr)

/-- **Files the invariant does not speak of change.** -/
theorem DiskInv.frame (h : DiskInv env d) (hsame : SameFiles d d')
    (hindex : d'.segIndex = d.segIndex) : DiskInv env d' :=
  h.sameFiles hsame (hindex ▸ .refl _) (hindex ▸ h.store.index)

theorem Covers.frame {highWater : Nat} (h : Covers d highWater) (hsame : SameFiles d d')
    (hidx : d'.indexed = d.indexed) : Covers d' highWater := by
  refine ⟨?_, ?_, ?_⟩
  · intro s hs b hb
    exact h.blobs s (hidx ▸ hs) b ((hsame.hasBlob s b).mp hb)
  · rw [hsame.entries]
    exact h.entries
  · rw [hsame.records]
    exact h.records

theorem CountsOk.frame (h : CountsOk d) (hsame : SameFiles d d') : CountsOk d' := by
  unfold CountsOk
  rw [hsame.entries, hsame.active]
  exact h

/-- **The store grows**; the logs of the map stay. -/
theorem DiskInv.storeCut (h : DiskInv env d) (hcut : StoreCut d d') : DiskInv env d' := by
  have hrec : d'.records = d.records := by
    unfold Disk.records
    rw [hcut.only.blkMap]
  have hact : d'.active = d.active := by
    unfold Disk.active
    rw [hrec]
  refine ⟨hcut.inv, hcut.only.blkMap ▸ h.blkMap, hcut.only.lookup ▸ h.lookup, hrec ▸ h.extents,
    ?_, ?_, ?_⟩
  · intro r hr
    obtain ⟨p, hp⟩ := h.readable r (hact ▸ hr)
    exact ⟨p, hp.mono hcut.grow⟩
  · intro r hr
    exact hcut.indexed _ (h.indexed r (hact ▸ hr))
  · intro r hr hpos
    obtain ⟨e, he, hid⟩ := h.refs r (hact ▸ hr) hpos
    obtain ⟨e', he', hid'⟩ := hcut.entries e he
    exact ⟨e', he', hid'.trans hid⟩

theorem SameFiles.of_eq (hsegs : d'.segs = d.segs) (hblk : d'.blkMap = d.blkMap)
    (hlk : d'.lookup = d.lookup) (hded : d'.dedup = d.dedup) : SameFiles d d' :=
  ⟨fun _ => .inl (by rw [hsegs]), .inl hblk, .inl hlk, .inl hded⟩

theorem StoreInv.setBlkMap (h : StoreInv d) (f : LogFile BlkMapRecord) :
    StoreInv (blkMapSlot.setFile d f) :=
  ⟨h.segs, h.tails, h.compressed, h.files, h.bound, h.ordered, h.index.congr (fun _ _ _ hb => hb),
    h.agree, h.entryPos, h.dedup⟩

theorem StoreInv.setLookup (h : StoreInv d) (f : LogFile MapLookupRecord) :
    StoreInv (lookupSlot.setFile d f) :=
  ⟨h.segs, h.tails, h.compressed, h.files, h.bound, h.ordered, h.index.congr (fun _ _ _ hb => hb),
    h.agree, h.entryPos, h.dedup⟩

theorem Readable.of_segs (hsegs : d'.segs = d.segs) {payload : Bytes}
    (h : Readable env d r payload) :
    Readable env d' r payload := by
  refine h.mono (fun s b hb => ?_)
  unfold Disk.HasBlob at hb ⊢
  rw [hsegs]
  exact hb

/-- **The lookup log changes**, whatever it says. -/
theorem DiskInv.setLookup (h : DiskInv env d) {f : LogFile MapLookupRecord}
    (hf : f.Sound lookupLog) :
    DiskInv env (lookupSlot.setFile d f) := by
  refine ⟨h.store.setLookup f, h.blkMap, hf, h.extents, ?_, h.indexed, h.refs⟩
  intro r hr
  obtain ⟨p, hp⟩ := h.readable r hr
  have hsegs : (lookupSlot.setFile d f).segs = d.segs := rfl
  exact ⟨p, hp.of_segs hsegs⟩

/-- The block map changes to one whose active records are all sound. -/
theorem DiskInv.setBlkMap (h : DiskInv env d) {f : LogFile BlkMapRecord} (hf : f.Sound blkMapLog)
    (hext : ExtentsOk (f.table blkMapLog))
    (hactive : ∀ r ∈ (blkMapSlot.setFile d f).active, (∃ p, Readable env d r p) ∧
      r.physicalSegmentId ∈ d.indexed ∧
      (0 < r.dedupEntryId → ∃ e ∈ d.entries, e.entryId = r.dedupEntryId)) :
    DiskInv env (blkMapSlot.setFile d f) := by
  refine ⟨h.store.setBlkMap f, hf, h.lookup, hext, ?_, ?_, ?_⟩
  · intro r hr
    obtain ⟨⟨p, hp⟩, -⟩ := hactive r hr
    have hsegs : (blkMapSlot.setFile d f).segs = d.segs := rfl
    exact ⟨p, hp.of_segs hsegs⟩
  · exact fun r hr => (hactive r hr).2.1
  · exact fun r hr => (hactive r hr).2.2

/-! ## §3. What a read shows. -/

/-- Reading the block shows this extent: where it starts and its payload. -/
def Disk.Shows (env : Env) (d : Disk) (block : Nat) : Option (Nat × Bytes) → Prop
  | none => ∀ r ∈ d.active, r.covers block = false
  | some (start, payload) => ∃ r ∈ d.active, r.covers block = true ∧ r.logicalStart = start ∧
      Readable env d r payload

/-- At most one active record covers a block. -/
theorem ExtentsOk.unique {t : List BlkMapRecord} (h : ExtentsOk t)
    (hnd : (t.map (·.recordId)).Nodup) {r x : BlkMapRecord} (hr : r ∈ t) (hx : x ∈ t)
    (har : r.isActive) (hax : x.isActive) {block : Nat} (hcr : r.covers block = true)
    (hcx : x.covers block = true) : r = x := by
  by_contra hne
  have hid : r.recordId ≠ x.recordId := fun heq => hne (List.inj_on_of_nodup_map hnd hr hx heq)
  rw [BlkMapRecord.covers_iff] at hcr hcx
  rcases h.disjoint r hr x hx har hax hid with h' | h'
  · omega
  · omega

theorem Disk.records_nodup (d : Disk) : (d.records.map (·.recordId)).Nodup :=
  LogFile.table_nodup (k := blkMapLog) d.blkMap

end Holo.Storage
