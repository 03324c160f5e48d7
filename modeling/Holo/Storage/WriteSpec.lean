/-
Holo.Storage.WriteSpec — writing a logical block.

Main results:
* `writeLogicalBlock_spec`: a write that returns has added one extent with its payload and
  keeps the invariant; a write that is cut short anywhere leaves a disk that recovery can
  start from, with or without the new extent and with every old one;
* `CountsOk.added`: the reference counts after a write.
-/
import Holo.Storage.ReadSpec

namespace Holo.Storage

open Lib Program List

variable {env : Env}
variable {w' w2 w3 : World} {id : Nat} {l : MapLookupRecord}

/-! ## §1. Frames of the store. -/

/-- The store, on disk and cached, is the same. -/
structure SameStore (w w' : World) : Prop where
  segs : w'.disk.segs = w.disk.segs
  segIndex : w'.disk.segIndex = w.disk.segIndex
  dedup : w'.disk.dedup = w.disk.dedup
  data : w'.mem.data = w.mem.data
  index : w'.mem.segIndex = w.mem.segIndex
  dedupCache : w'.mem.dedup = w.mem.dedup

variable {d d' : Disk}

theorem StoreInv.of_files (h : StoreInv d) (hsegs : d'.segs = d.segs)
    (hidx : d'.segIndex = d.segIndex) (hdedup : d'.dedup = d.dedup) : StoreInv d' := by
  cases d
  subst hsegs hidx hdedup
  exact ⟨h.segs, h.tails, h.compressed, h.files, h.bound, h.ordered,
    h.index.congr (fun _ _ _ hb => hb), h.agree, h.entryPos, h.dedup⟩

variable {w w₁ : World} {start marks : Nat} {payload : Bytes} {opts : WriteOptions}
  {r : BlkMapRecord} {c : MetadataCheckpoint} {c' : CachedLog MapLookupRecord}
  {E : StorageError → World → Prop} {s : StoredPayload}

theorem HitsMatch.of_files (h : HitsMatch env d opts payload) (hsegs : d'.segs = d.segs)
    (hidx : d'.segIndex = d.segIndex) (hdedup : d'.dedup = d.dedup) :
    HitsMatch env d' opts payload := by
  cases d
  subst hsegs hidx hdedup
  intro hen e hnew hno
  obtain ⟨seg, hloc, hstored⟩ := h hen e hnew hno
  exact ⟨seg, hloc, ⟨hstored.exists_blob⟩⟩

theorem SameStore.eff (h : SameStore w w') : effIndex w'.disk w'.mem = effIndex w.disk w.mem := by
  unfold effIndex
  rw [h.index, h.segIndex]

theorem SameStore.hasBlob (h : SameStore w w') (s : Nat) (b : DataBlob) :
    w'.disk.HasBlob s b ↔ w.disk.HasBlob s b := by
  unfold Disk.HasBlob
  rw [h.segs]

theorem SameStore.indexed (h : SameStore w w') : w'.disk.indexed = w.disk.indexed := by
  unfold Disk.indexed
  rw [h.segIndex]

theorem SameStore.entries (h : SameStore w w') : w'.disk.entries = w.disk.entries := by
  unfold Disk.entries
  rw [h.dedup]

theorem StoreWarm.sameStore (h : StoreWarm w) (hs : SameStore w w') : StoreWarm w' := by
  refine ⟨h.inv.of_files hs.segs hs.segIndex hs.dedup, ?_, ?_, ?_, ?_, ?_, ?_, ?_⟩
  · rw [hs.eff]
    exact h.indexOk.congr (fun s _ b hb => (hs.hasBlob s b).mp hb)
  · rw [hs.eff, hs.segIndex]
    exact h.shape
  · intro s f hf
    rw [hs.segs] at hf
    rw [hs.segIndex]
    exact h.next s f hf
  · rw [hs.eff, hs.segIndex]
    exact h.below
  · intro c hc
    rw [hs.index] at hc
    rw [hs.segIndex]
    exact h.index c hc
  · intro seq c hc
    rw [hs.data] at hc
    rw [hs.segs]
    exact h.data seq c hc
  · exact h.dedup.sameFile (.inl hs.dedup) hs.dedupCache

/-- What the store's invariant says of a high water, with the records of another disk. -/
theorem Covers.of_records {n : Nat} (h : Covers d n) (hblob : ∀ s b, d'.HasBlob s b → d.HasBlob s b)
    (hidx : d'.indexed = d.indexed) (hent : d'.entries = d.entries)
    (hrec : ∀ r ∈ d'.records, r.physicalOffset ≤ n) : Covers d' n :=
  ⟨fun s hs b hb => h.blobs s (hidx ▸ hs) b (hblob s b hb), hent ▸ h.entries, hrec⟩

/-! ## §2. One more extent. -/

/-- The same extents, and every stored blob is still there. -/
structure Kept (d d' : Disk) : Prop where
  active : ∀ r, r ∈ d'.active ↔ r ∈ d.active
  grow : SegsGrow d d'
  runtime : d'.runtime = d.runtime

/-- The active record of this extent, written behind so many filemarks. -/
structure BlkMapRecord.Holding (env : Env) (d : Disk) (r : BlkMapRecord) (start : Nat)
    (payload : Bytes) (marks : Nat) : Prop where
  active : r.isActive = true
  start_eq : r.logicalStart = start
  len_eq : r.logicalLen = payload.length
  marks_eq : r.filemarkCount = marks
  readable : Readable env d r payload

/-- One more extent, with this payload. -/
structure Added (env : Env) (d d' : Disk) (start : Nat) (payload : Bytes) (marks : Nat) :
    Prop where
  exists_record : ∃ r, (∀ x, x ∈ d'.active ↔ x = r ∨ x ∈ d.active) ∧
    r.Holding env d' start payload marks
  grow : SegsGrow d d'
  runtime : d'.runtime = d.runtime

theorem Kept.refl (d : Disk) : Kept d d := ⟨fun _ => Iff.rfl, .refl d, rfl⟩

variable {d1 d2 d3 : Disk} {f : LogFile BlkMapRecord}

theorem Kept.trans (h : Kept d1 d2) (h' : Kept d2 d3) : Kept d1 d3 :=
  ⟨fun r => (h'.active r).trans (h.active r), h.grow.trans h'.grow, h'.runtime.trans h.runtime⟩

theorem Kept.added (h : Kept d1 d2) (h' : Added env d2 d3 start payload marks) :
    Added env d1 d3 start payload marks := by
  obtain ⟨r, hr, hrest⟩ := h'.exists_record
  exact ⟨⟨r, fun x => (hr x).trans (or_congr_right (h.active x)), hrest⟩, h.grow.trans h'.grow,
    h'.runtime.trans h.runtime⟩

theorem Added.kept (h : Added env d1 d2 start payload marks) (h' : Kept d2 d3) :
    Added env d1 d3 start payload marks := by
  obtain ⟨r, hr, hact, hstart, hlen, hmarks, hread⟩ := h.exists_record
  exact ⟨⟨r, fun x => (h'.active x).trans (hr x), hact, hstart, hlen, hmarks,
    hread.mono h'.grow⟩, h.grow.trans h'.grow, h'.runtime.trans h.runtime⟩

theorem SameFiles.kept (h : SameFiles d d') (hrt : d'.runtime = d.runtime) : Kept d d' :=
  ⟨fun r => by rw [h.active], h.grow, hrt⟩

theorem StoreCut.kept (h : StoreCut d d') : Kept d d' := by
  refine ⟨fun r => ?_, h.grow, h.only.runtime⟩
  unfold Disk.active Disk.records
  rw [h.only.blkMap]

theorem DiskInv.sameRecords (h : DiskInv env d) (hold : Holds blkMapLog d.blkMap [] f) :
    DiskInv env (blkMapSlot.setFile d f) ∧ Kept d (blkMapSlot.setFile d f) := by
  have hsame : (f.table blkMapLog).Perm d.records := hold.table_nil
  have hmem : ∀ x, x ∈ (blkMapSlot.setFile d f).active ↔ x ∈ d.active :=
    fun x => (hsame.filter _).mem_iff
  refine ⟨h.setBlkMap (hold.sound h.blkMap) (h.extents.perm hsame) ?_, hmem, fun _ _ hb => hb, rfl⟩
  intro r hr
  have hr := (hmem r).mp hr
  exact ⟨h.readable r hr, h.indexed r hr, h.refs r hr⟩

theorem active_cons_perm (hperm : (f.table blkMapLog).Perm (r :: d.records))
    (hact : r.isActive = true) : (blkMapSlot.setFile d f).active.Perm (r :: d.active) := by
  have := hperm.filter (·.isActive)
  rwa [filter_cons_of_pos hact] at this

theorem ExtentsOk.cons {t : List BlkMapRecord} (h : ExtentsOk t) (hpos : 0 < r.logicalLen)
    (hbound : r.logicalStart + r.logicalLen ≤ u64Max)
    (hfree : RangeFree t r.logicalStart r.logicalEnd) : ExtentsOk (r :: t) := by
  refine ⟨?_, ?_, ?_⟩
  · intro x hx hact
    rcases mem_cons.mp hx with rfl | hx
    · exact hpos
    · exact h.pos x hx hact
  · intro x hx hact
    rcases mem_cons.mp hx with rfl | hx
    · exact hbound
    · exact h.bound x hx hact
  intro x hx y hy hax hay hne
  rcases mem_cons.mp hx with rfl | hxt
  · rcases mem_cons.mp hy with rfl | hyt
    · exact absurd rfl hne
    · exact (hfree y hyt hay).symm
  · rcases mem_cons.mp hy with rfl | hyt
    · exact hfree x hxt hax
    · exact h.disjoint x hxt y hyt hax hay hne

/-! ## §3. Reference counts. -/

theorem count_dedupRefs_cons (r : BlkMapRecord) (rs : List BlkMapRecord)
    (hid : 0 < id) : (dedupRefs (r :: rs)).count id =
      (dedupRefs rs).count id + (if id = r.dedupEntryId then 1 else 0) := by
  grind [dedupRefs]

theorem dedupRefs_perm {a b : List BlkMapRecord} (h : a.Perm b) :
    (dedupRefs a).Perm (dedupRefs b) := (h.filter _).map _

theorem mem_dedupRefs {rs : List BlkMapRecord} :
    id ∈ dedupRefs rs ↔ ∃ r ∈ rs, 0 < r.dedupEntryId ∧ r.dedupEntryId = id := by
  unfold dedupRefs
  simp only [mem_map, mem_filter, decide_eq_true_eq, and_assoc]

/-- **The reference counts after a write.** -/
theorem CountsOk.added (h : CountsOk d)
    (hrefs : ∀ x ∈ d.active, 0 < x.dedupEntryId → ∃ e ∈ d.entries, e.entryId = x.dedupEntryId)
    (hentry : EntryRefs d.entries d1.entries r.dedupEntryId) (hent : d'.entries = d1.entries)
    (hpos : ∀ e ∈ d1.entries, 0 < e.entryId) (hactive : d'.active.Perm (r :: d.active)) :
    CountsOk d' := by
  intro e he
  rw [hent] at he
  rw [(dedupRefs_perm hactive).count_eq, count_dedupRefs_cons r _ (hpos e he)]
  rcases hentry.counts e he with ⟨x, hx, hid, hcount⟩ | ⟨hid, hone, hfresh⟩
  · rw [hcount, h x hx, hid]
  -- an entry that did not exist has no references yet
  have hzero : (dedupRefs d.active).count e.entryId = 0 := by
    rw [count_eq_zero]
    intro hmem
    obtain ⟨x, hx, hxpos, hxid⟩ := mem_dedupRefs.mp hmem
    obtain ⟨y, hy, hyid⟩ := hrefs x hx hxpos
    exact hfresh y hy (hyid.trans (hxid.trans hid))
  rw [hone, hzero, if_pos hid]

/-! ## §4. The block map append of a write. -/

/-- The world after the dedup stage, before the record is appended. -/
structure Storing (env : Env) (w w₁ : World) (payload : Bytes) (s : StoredPayload) : Prop where
  pre : LayoutOk env w
  put : PayloadPut env w w₁ payload s

theorem Storing.blkMap (h : Storing env w w₁ payload s) : Coherent blkMapSlot w₁.disk w₁.mem := by
  obtain ⟨data, c, e, hmem⟩ := h.put.mem
  exact h.pre.blkMap.sameFile (.inl h.put.cut.only.blkMap) (by rw [hmem]; rfl)

theorem Storing.lookup (h : Storing env w w₁ payload s) : Coherent lookupSlot w₁.disk w₁.mem := by
  obtain ⟨data, c, e, hmem⟩ := h.put.mem
  exact h.pre.lookup.sameFile (.inl h.put.cut.only.lookup) (by rw [hmem]; rfl)

theorem Storing.records (h : Storing env w w₁ payload s) : w₁.disk.records = w.disk.records := by
  unfold Disk.records
  rw [h.put.cut.only.blkMap]

theorem Storing.diskInv (h : Storing env w w₁ payload s) :
    DiskInv env w₁.disk := h.pre.disk.storeCut h.put.cut

/-- The checksum of a record matches the payload it was made of. -/
theorem payloadChecksumMatches_write (opts : WriteOptions) (payload : Bytes) :
    payloadChecksumMatches (if opts.payloadChecksumEnabled then .crc32c else .none)
      (blockMapChecksum opts payload) payload = true := by
  unfold blockMapChecksum payloadChecksumMatches
  cases opts.payloadChecksumEnabled with
  | true | false => simp

/-- What a write asks of its place. -/
structure WriteFits (start : Nat) (payload : Bytes) : Prop where
  nonempty : payload ≠ []
  bound : start + payload.length ≤ u64Max

theorem WriteFits.pos (h : WriteFits start payload) :
    0 < payload.length := length_pos_iff.mpr h.nonempty

theorem NewRecord.logicalEnd {table : List BlkMapRecord} {asked r : BlkMapRecord}
    (h : NewRecord table asked r) : r.logicalEnd = asked.logicalEnd := by
  rw [h.eq]
  rfl

theorem NewRecord.fields {table : List BlkMapRecord} {r : BlkMapRecord} {s : StoredPayload}
    (h : NewRecord table (writeRecord opts start payload marks s) r) :
    r.isActive = true ∧ r.logicalStart = start ∧ r.logicalLen = payload.length ∧
      r.filemarkCount = marks ∧ r.place = s.place ∧ r.dedupEntryId = s.dedupEntryId := by
  rw [h.eq]
  exact ⟨rfl, rfl, rfl, rfl, rfl, rfl⟩

theorem writeRecord_logicalEnd (h : WriteFits start payload) (opts : WriteOptions) (marks : Nat)
    (s : StoredPayload) :
    (writeRecord opts start payload marks s).logicalEnd = start + payload.length := by
  have := h.bound
  exact min_eq_left this

/-- **The record appended**: the disk keeps its invariant and has one more extent. -/
theorem Storing.append (h : Storing env w w₁ payload s) (hfits : WriteFits start payload)
    (hnew : NewRecord w₁.disk.records (writeRecord opts start payload marks s) r)
    (hholds : Holds blkMapLog w₁.disk.blkMap [r] f) :
    DiskInv env (blkMapSlot.setFile w₁.disk f) ∧
      Added env w.disk (blkMapSlot.setFile w₁.disk f) start payload marks ∧
      (f.table blkMapLog).Perm (r :: w.disk.records) ∧
      (blkMapSlot.setFile w₁.disk f).active.Perm (r :: w.disk.active) ∧
      RangeFree w.disk.records r.logicalStart r.logicalEnd := by
  have hdisk := h.diskInv
  have hperm : (f.table blkMapLog).Perm (r :: w₁.disk.records) :=
    hholds.table_fresh (fun x hx => (hnew.fresh x hx).ne)
  obtain ⟨hact, hstart, hlen, hmarks, hplace, hid⟩ := hnew.fields
  have hend := writeRecord_logicalEnd hfits opts marks s
  have hfree : RangeFree w₁.disk.records r.logicalStart r.logicalEnd := by
    rw [hnew.logicalEnd, hstart]
    refine hnew.free hdisk.extents ?_
    rw [hend]
    have := hfits.pos
    show start < start + payload.length
    omega
  -- the range of the record is free, and its place in the data holds the payload
  have hread : Readable env w₁.disk r payload := by
    refine ⟨?_, ?_⟩
    · have hstored := h.put.stored
      rw [hlen, hplace]
      exact hstored
    · rw [hnew.eq]
      exact payloadChecksumMatches_write opts payload
  have hactive := active_cons_perm hperm hact
  have hmemactive : ∀ x, x ∈ (blkMapSlot.setFile w₁.disk f).active ↔ x = r ∨ x ∈ w₁.disk.active :=
    fun x => by rw [hactive.mem_iff, mem_cons]
  have hact1 : w₁.disk.active = w.disk.active := by
    unfold Disk.active
    rw [h.records]
  have hsegs : (blkMapSlot.setFile w₁.disk f).segs = w₁.disk.segs := rfl
  refine ⟨?_, ⟨⟨r, ?_, hact, hstart, hlen, hmarks, hread.of_segs hsegs⟩, h.put.cut.grow,
    h.put.cut.only.runtime⟩, h.records ▸ hperm, hact1 ▸ hactive, h.records ▸ hfree⟩
  swap
  · intro x
    rw [hmemactive x, hact1]
  refine hdisk.setBlkMap (hholds.sound hdisk.blkMap) ?_ ?_
  · refine (ExtentsOk.cons hdisk.extents ?_ ?_ hfree).perm hperm
    · rw [hlen]
      exact hfits.pos
    · rw [hlen, hstart]
      exact hfits.bound
  intro x hx
  rcases (hmemactive x).mp hx with rfl | hx
  swap
  · exact ⟨hdisk.readable x hx, hdisk.indexed x hx, hdisk.refs x hx⟩
  refine ⟨⟨payload, hread⟩, ?_, ?_⟩
  · rw [hnew.eq]
    exact h.put.indexed
  intro hpos
  rw [hid] at hpos ⊢
  exact h.put.refs.found hpos

/-! ## §5. The lookup append of a write. -/

theorem writeLookup_describes (hpos : 0 < r.logicalLen)
    (hend : r.logicalEnd = r.logicalStart + r.logicalLen) (id : Nat) :
    MapLookupRecord.Describes { writeLookup r with lookupId := id } r := by
  grind [MapLookupRecord.Describes, writeLookup, lookupOf]

theorem LookupOk.cons {blk : List BlkMapRecord} {lk : List MapLookupRecord} (h : LookupOk blk lk)
    (hact : r.isActive = true) (hl : l.Describes r) : LookupOk (r :: blk) (l :: lk) := by
  refine ⟨?_, ?_⟩
  · intro x hx
    rcases mem_cons.mp hx with rfl | hx
    · exact ⟨r, mem_cons_self, hact, hl⟩
    · obtain ⟨y, hy, hrest⟩ := h.sound x hx
      exact ⟨y, mem_cons_of_mem _ hy, hrest⟩
  intro y hy hya
  rcases mem_cons.mp hy with rfl | hy
  · exact ⟨l, mem_cons_self, hl⟩
  · obtain ⟨x, hx, hdesc⟩ := h.complete y hy hya
    exact ⟨x, mem_cons_of_mem _ hx, hdesc⟩

/-- The world with the record and its lookup appended. -/
structure Mapped (env : Env) (w w' : World) (start : Nat) (payload : Bytes) (marks : Nat) :
    Prop where
  ok : LayoutOk env w'
  covered : Covered w'
  added : Added env w.disk w'.disk start payload marks
  checkpoint : w'.disk.checkpoint = w.disk.checkpoint
  faults : w'.faults ⊆ w.faults

/-- **Both appends made**: everything is up to date again. -/
theorem Storing.mapped (h : Storing env w w₁ payload s) (hfits : WriteFits start payload)
    {c : CachedLog BlkMapRecord} (hput : SlotPut env blkMapSlot w₁ w2 f c)
    (hholds : Holds blkMapLog w₁.disk.blkMap [r] f)
    (hnew : NewRecord w₁.disk.records (writeRecord opts start payload marks s) r)
    {f' : LogFile MapLookupRecord} (hput' : SlotPut env lookupSlot w2 w3 f' c')
    (hperm' : (f'.table lookupLog).Perm (l :: w2.disk.lookups))
    (hsound' : w2.disk.lookup.Sound lookupLog → f'.Sound lookupLog)
    (hl : l = { writeLookup r with lookupId := l.lookupId }) :
    Mapped env w w3 start payload marks := by
  obtain ⟨hdisk, hadded, hperm, hactive, -⟩ := h.append hfits hnew hholds
  have hd2 : w2.disk = blkMapSlot.setFile w₁.disk f := hput.disk
  have hd3 : w3.disk = lookupSlot.setFile (blkMapSlot.setFile w₁.disk f) f' := by
    rw [hput'.disk, hd2]
  obtain ⟨hact, -, hlen, -, -, hid⟩ := hnew.fields
  have hend : r.logicalEnd = r.logicalStart + r.logicalLen := by
    rw [hnew.logicalEnd, writeRecord_logicalEnd hfits, hlen, hnew.eq]
    rfl
  have hlookups : w2.disk.lookups = w.disk.lookups := by
    unfold Disk.lookups
    rw [hd2]
    show w₁.disk.lookup.table lookupLog = _
    rw [h.put.cut.only.lookup]
  have hsound : f'.Sound lookupLog := by
    refine hsound' ?_
    rw [hd2]
    exact hdisk.lookup
  have hstore : SameStore w₁ w3 := by
    constructor
    case segs | segIndex | dedup => rw [hd3]; rfl
    case data | index | dedupCache => rw [hput'.mem, hput.mem]; rfl
  have hcov1 : Covered w₁ := h.put.ready.inv.covers
  have hrecs : w3.disk.records.Perm (r :: w.disk.records) := by
    rw [hd3]
    exact hperm
  -- the layout with both records, and what the write has added to it
  refine ⟨⟨?_, h.put.ready.warm.sameStore hstore, ?_, hput'.ready.coherent, ?_, ?_, ?_⟩, ?_, ?_, ?_,
    ?_⟩
  · rw [hd3]
    exact hdisk.setLookup hsound
  · refine hput.ready.coherent.sameFile (.inl ?_) ?_
    · rw [hput'.disk]; rfl
    · rw [hput'.mem]; rfl
  · intro ck hck
    obtain ⟨data, ci, e, hmem⟩ := h.put.mem
    rw [hput'.mem, hput.mem, hmem] at hck
    rw [hd3]
    show ck = w₁.disk.checkpoint
    rw [h.put.cut.only.checkpoint]
    exact h.pre.checkpoint ck hck
  · have hlk : w3.disk.lookups.Perm (l :: w.disk.lookups) := by
      rw [← hlookups, hd3]
      exact hperm'
    refine (h.pre.described.cons hact ?_).perm hrecs hlk
    rw [hl]
    exact writeLookup_describes (by rw [hlen]; exact hfits.pos) hend _
  · refine h.pre.counts.added (r := r) h.pre.disk.refs ?_ hstore.entries
      h.put.ready.inv.inv.entryPos ?_
    · rw [hid]
      exact h.put.refs
    · rw [hd3]
      exact hactive
  · unfold Covered
    rw [hstore.eff]
    refine Covers.of_records hcov1 (fun s b hb => (hstore.hasBlob s b).mp hb) hstore.indexed
      hstore.entries ?_
    intro x hx
    rcases mem_cons.mp (hrecs.mem_iff.mp hx) with rfl | hx
    · rw [hnew.eq]
      exact h.put.below
    · exact hcov1.records x (h.records ▸ hx)
  · have hkept : Kept (blkMapSlot.setFile w₁.disk f) w3.disk := by
      rw [hd3]
      exact ⟨fun _ => Iff.rfl, fun _ _ hb => hb, rfl⟩
    exact hadded.kept hkept
  · rw [hd3]
    exact h.put.cut.only.checkpoint
  · exact Subset.trans hput'.faults (Subset.trans hput.faults h.put.faults)

/-! ## §6. The end of a write. -/

theorem LayoutOk.setPending (h : LayoutOk env w) (n : Nat) :
    LayoutOk env { w with mem := { w.mem with pending := n } } :=
  h.sameFiles (.refl _) ⟨rfl, rfl, rfl, rfl⟩ rfl (.inl rfl) h.warm.index h.checkpoint

theorem wp_setPending (n : Nat) {Q : Unit → World → Prop} :
    wp (setPending n) Q E w ↔ Q () { w with mem := { w.mem with pending := n } } :=
  Iff.rfl

theorem finishWrite_spec (h : LayoutOk env w) (opts : WriteOptions)
    (failpoint : Option IngestFailpoint) (c : MetadataCheckpoint) :
    wp (finishWrite env opts failpoint c) (fun _ w' => FlushDone w w' (c.next .clean) ∨
        ∃ n, w' = { w with mem := { w.mem with pending := n } })
      (fun _ w' => FlushCut w w' (c.next .clean)) w := by
  unfold finishWrite
  simp only [wp_bind, wp_get]
  rw [wp_setPending]
  have hok := h.setPending (satAdd32 w.mem.pending 1)
  rw [wp_ite]
  refine ⟨fun _ => ?_, fun _ => .inr ⟨_, rfl⟩⟩
  suffices hs : wp (do
      (do
        syncLayoutSegments env
        persistCheckpointCached env (c.next .clean)
        setPending 0)
      pure (c.next .clean)) _ _ _ by simpa only [wp_bind] using hs
  refine wp.bind (syncAndCheckpoint_spec hok.warm _) ?_ (fun _ _ hcut => ⟨hcut.disk, hcut.reason⟩)
  rintro _ w' hdone
  obtain ⟨ci, hmem⟩ := hdone.mem
  exact .inl ⟨hdone.flushing, hdone.index, hdone.synced, ⟨ci, hmem⟩, hdone.eff,
    hdone.coherent, hdone.faults⟩

/-! ## §7. The whole write. -/

/-- What a write that is cut short leaves on disk. -/
structure WriteCut (env : Env) (d d' : Disk) (start : Nat) (payload : Bytes) (marks : Nat) :
    Prop where
  disk : DiskInv env d'
  shows : Kept d d' ∨ Added env d d' start payload marks

/-- Why a write fails with nothing failing under it. -/
def WriteRefused (env : Env) (w : World) (d' : Disk) (start : Nat) (payload : Bytes)
    (opts : WriteOptions) (failpoint : Option IngestFailpoint) : Prop :=
  failpoint ≠ none ∨ u32Max < payload.length ∨ StoreRefused env w opts payload ∨
    ¬ w.disk.blkMap.Loadable blkMapLog ∨
    ¬ RangeFree w.disk.records start (start + payload.length) ∨
    (∃ x ∈ w.disk.records, u64Max ≤ x.recordId + 1) ∨
    ¬ w.disk.lookup.Loadable lookupLog ∨ (∃ x ∈ w.disk.lookups, u64Max ≤ x.lookupId + 1) ∨
    ¬ d'.segIndex.index.Loadable

/-- What a write that fails leaves. -/
structure WriteFailed (env : Env) (w w' : World) (start : Nat) (payload : Bytes) (marks : Nat)
    (opts : WriteOptions) (failpoint : Option IngestFailpoint) : Prop where
  clean : w'.disk.checkpoint.flags = .clean → w'.disk = w.disk ∨ Consistent w'.disk
  cut : NoTorn w.faults → WriteCut env w.disk w'.disk start payload marks
  reason : w.faults = [] → WriteRefused env w w'.disk start payload opts failpoint

theorem LayoutOk.putCheckpoint (h : LayoutOk env w) (hput : CheckpointPut w w' c) :
    LayoutOk env w' := by
  obtain ⟨ticks, faults, rfl⟩ := w'.parts hput.disk hput.mem
  exact h.sameFiles ((SameFiles.refl _).putCheckpoint c) ⟨rfl, rfl, rfl, rfl⟩ rfl (.inl rfl)
    h.warm.index (fun ck hck => (Option.some.inj hck).symm)

theorem Covered.putCheckpoint (h : Covered w) (hput : CheckpointPut w w' c) : Covered w' := by
  obtain ⟨ticks, faults, rfl⟩ := w'.parts hput.disk hput.mem
  exact h.sameFiles ((SameFiles.refl _).putCheckpoint c) rfl rfl

theorem StoreRefused.putCheckpoint (hput : CheckpointPut w w' c)
    (h : StoreRefused env w' opts payload) : StoreRefused env w opts payload := by
  have heff : effIndex w'.disk w'.mem = effIndex w.disk w.mem := by
    rw [hput.disk, hput.mem]
    rfl
  unfold StoreRefused at h ⊢
  rw [heff, hput.disk] at h
  exact h

section Write

variable {failpoint : Option IngestFailpoint}

theorem WriteFailed.of_dirty (hput : CheckpointPut w w₁ c) (hdirty : c.flags = .dirty)
    (hck : w'.disk.checkpoint = w₁.disk.checkpoint)
    (hcut : NoTorn w.faults → WriteCut env w₁.disk w'.disk start payload marks)
    (hreason : w.faults = [] → WriteRefused env w w'.disk start payload opts failpoint) :
    WriteFailed env w w' start payload marks opts failpoint := by
  have hc : w'.disk.checkpoint = c := by
    rw [hck, hput.disk]
    rfl
  have hkept : Kept w.disk w₁.disk := by
    rw [hput.disk]
    exact ((SameFiles.refl _).putCheckpoint c).kept rfl
  refine ⟨fun hclean => ?_, fun hno => ?_, hreason⟩
  · rw [hc, hdirty] at hclean
    cases hclean
  · obtain ⟨hd, hs⟩ := hcut hno
    exact ⟨hd, hs.imp hkept.trans hkept.added⟩

/-- What a write that returns leaves. -/
abbrev WriteDone (env : Env) (w w' : World) (start : Nat) (payload : Bytes) (marks : Nat) : Prop :=
  LayoutInv env w' ∧ Added env w.disk w'.disk start payload marks ∧ w'.faults ⊆ w.faults

theorem finishMapped_spec (hput : CheckpointPut w w₁ c) (hdirty : c.flags = .dirty) {w4 : World}
    (hmap : Mapped env w₁ w4 start payload marks) :
    wp (finishWrite env opts failpoint c)
      (fun _ w' => WriteDone env w w' start payload marks)
      (fun _ w' => WriteFailed env w w' start payload marks opts failpoint) w4 := by
  have hkept : Kept w.disk w₁.disk := by
    rw [hput.disk]
    exact ((SameFiles.refl _).putCheckpoint c).kept rfl
  have hadded := hkept.added hmap.added
  have hfaults := Subset.trans hmap.faults hput.faults
  have hdirty4 : w4.disk.checkpoint.flags = .dirty := by
    rw [hmap.checkpoint, hput.disk]
    exact hdirty
  have hinv4 : LayoutInv env w4 :=
    ⟨hmap.ok, hmap.covered, fun hclean => absurd hclean (by simp [hdirty4])⟩
  refine wp_mono (finishWrite_spec hmap.ok opts failpoint c) ?_ ?_
  · rintro _ w' (hdone | ⟨n, rfl⟩)
    · exact ⟨hinv4.flushDone hdone, hadded.kept (hdone.same.kept hdone.runtime),
        Subset.trans hdone.faults hfaults⟩
    · exact ⟨⟨hmap.ok.setPending n, hmap.covered, hinv4.clean⟩, hadded, hfaults⟩
  rintro _ w' hcut
  have hcrash := hinv4.flushCut hcut
  refine ⟨fun hclean => .inr (hcrash.clean hclean), fun _ => ⟨hcrash.disk, .inr ?_⟩, fun hnil => ?_⟩
  · obtain ⟨d1, hflush, hd⟩ := hcut.disk
    have hk : Kept w4.disk w'.disk := by
      rcases hd with hd | ⟨hd, -⟩
      · rw [hd]
        exact hflush.same.kept hflush.runtime
      · rw [hd]
        exact (hflush.same.putCheckpoint _).kept hflush.runtime
    exact hadded.kept hk
  -- with nothing failing, the index was not read: it has too many descriptors
  rw [hnil] at hfaults
  have hbad := hcut.reason (subset_nil.mp hfaults)
  obtain ⟨d1, hflush, hd⟩ := hcut.disk
  have hidx : w'.disk.segIndex = d1.segIndex := by
    rcases hd with hd | ⟨hd, -⟩
    · rw [hd]
    · rw [hd]
      rfl
  have hlen : d1.segIndex.index.descriptors.length = w4.disk.segIndex.index.descriptors.length := by
    rcases hflush.index with he | he
    · rw [he]
    · rw [he]
      have := congrArg List.length hmap.ok.warm.shape.states
      simpa using this
  refine .inr (.inr (.inr (.inr (.inr (.inr (.inr (.inr ?_)))))))
  unfold SegmentIndex.Loadable at hbad ⊢
  rw [hidx, hlen]
  exact hbad

variable (failpoint) in
theorem appendLookup_spec (hput : CheckpointPut w w₁ c) (hdirty : c.flags = .dirty)
    (hfits : WriteFits start payload) (h : Storing env w₁ w2 payload s) {f : LogFile BlkMapRecord}
    {cb : CachedLog BlkMapRecord} (hblk : SlotPut env blkMapSlot w2 w3 f cb)
    (hholds : Holds blkMapLog w2.disk.blkMap [r] f)
    (hnew : NewRecord w2.disk.records (writeRecord opts start payload marks s) r) :
    wp (do
        let _ ← appendLookupRecord env (writeLookup r)
        failAt failpoint .afterLookupAppend "ingest interrupted after lookup append"
        finishWrite env opts failpoint c)
      (fun _ w' => WriteDone env w w' start payload marks)
      (fun _ w' => WriteFailed env w w' start payload marks opts failpoint) w3 := by
  obtain ⟨hdisk, hadded, -, -, -⟩ := h.append hfits hnew hholds
  have hfaults3 := Subset.trans hblk.faults (Subset.trans h.put.faults hput.faults)
  have hlookup : Coherent lookupSlot w3.disk w3.mem := by
    refine h.lookup.sameFile (.inl ?_) ?_
    · rw [hblk.disk]; rfl
    · rw [hblk.mem]; rfl
  have hlkfile : w3.disk.lookup = w.disk.lookup := by
    rw [hblk.disk]
    show w2.disk.lookup = _
    rw [h.put.cut.only.lookup, hput.disk]
    rfl
  have hck3 : w3.disk.checkpoint = w₁.disk.checkpoint := by
    rw [hblk.disk]
    exact h.put.cut.only.checkpoint
  have hsound3 : w3.disk.lookup.Sound lookupLog := by
    rw [hblk.disk]
    exact hdisk.lookup
  -- the disk with the record, under any lookup log
  have hcut : ∀ {f' : LogFile MapLookupRecord}, f'.Sound lookupLog →
      WriteCut env w₁.disk (lookupSlot.setFile w3.disk f') start payload marks := by
    intro f' hf'
    rw [hblk.disk]
    refine ⟨hdisk.setLookup hf', .inr (hadded.kept ⟨fun _ => Iff.rfl, fun _ _ hb => hb, rfl⟩)⟩
  refine wp.bind (appendLookupRecord_spec hlookup rfl) ?_ ?_
  · rintro _ w4 ⟨l, f', c', hput', hperm', hsound', hl⟩
    have hmap := h.mapped hfits hblk hholds hnew hput' hperm' hsound' hl
    unfold failAt
    simp only [wp_bind, wp_check]
    refine ⟨fun hfail => ?_, fun _ => finishMapped_spec hput hdirty hmap⟩
    refine .of_dirty hput hdirty hmap.checkpoint
      (fun _ => ⟨hmap.ok.disk, .inr hmap.added⟩) (fun _ => .inl ?_)
    rw [hfail]
    simp
  rintro _ w4 (⟨hne, f', hd4, hsound'⟩ | ⟨hd4, hbad⟩)
  · refine .of_dirty hput hdirty (by rw [hd4]; exact hck3) (fun hno => ?_) (fun hnil => ?_)
    · rw [hd4]
      exact hcut (hsound' (hno.subset hfaults3) hsound3)
    · exact absurd hnil (ne_nil_of_subset hfaults3 hne)
  refine .of_dirty hput hdirty (by rw [hd4]; exact hck3) (fun _ => ?_) (fun _ => ?_)
  · have := hcut hsound3
    rw [hd4]
    exact this
  · rw [hlkfile] at hbad
    rcases hbad with hbad | hbad
    · exact .inr (.inr (.inr (.inr (.inr (.inr (.inl hbad))))))
    · exact .inr (.inr (.inr (.inr (.inr (.inr (.inr (.inl hbad)))))))

variable (marks opts failpoint) in
theorem appendRecord_spec (hput : CheckpointPut w w₁ c) (hdirty : c.flags = .dirty)
    (hfits : WriteFits start payload) (h : Storing env w₁ w2 payload s) {α : Type}
    (report : BlkMapRecord → MetadataCheckpoint → α) :
    wp (do
        let appended ← appendBlkMapRecord env (writeRecord opts start payload marks s)
        failAt failpoint .afterBlkMapAppend "ingest interrupted after blk_map append"
        let _ ← appendLookupRecord env (writeLookup appended)
        failAt failpoint .afterLookupAppend "ingest interrupted after lookup append"
        let c ← finishWrite env opts failpoint c
        return report appended c)
      (fun _ w' => WriteDone env w w' start payload marks)
      (fun _ w' => WriteFailed env w w' start payload marks opts failpoint) w2 := by
  have hdisk := h.diskInv
  have hrec : w2.disk.records = w.disk.records := by
    rw [h.records, hput.disk]
    rfl
  have hblkfile : w2.disk.blkMap = w.disk.blkMap := by
    rw [h.put.cut.only.blkMap, hput.disk]
    rfl
  have hfaults2 := Subset.trans h.put.faults hput.faults
  have hck2 := h.put.cut.only.checkpoint
  refine wp.bind (appendBlkMapRecord_spec h.blkMap rfl) ?_ ?_
  · rintro r w3 ⟨f, cb, hblk, hholds, hnew⟩
    obtain ⟨hdisk3, hadded, -, -, -⟩ := h.append hfits hnew hholds
    unfold failAt
    simp only [wp_bind, wp_check]
    refine ⟨fun hfail => ?_, fun _ => ?_⟩
    · refine .of_dirty hput hdirty (by rw [hblk.disk]; exact hck2) (fun _ => ?_) (fun _ => .inl ?_)
      · rw [hblk.disk]
        exact ⟨hdisk3, .inr hadded⟩
      · rw [hfail]
        simp
    · have hrest := appendLookup_spec failpoint hput hdirty hfits h hblk hholds hnew
      simpa only [failAt, wp_bind, wp_check, wp_pure] using hrest
  rintro _ w3 (⟨r, hnew, hint⟩ | ⟨hd3, hbad⟩)
  · obtain ⟨f', hd3, hholds⟩ := hint.disk
    refine .of_dirty hput hdirty (by rw [hd3]; exact hck2) (fun hno => ?_) (fun hnil => ?_)
    · rw [hd3]
      rcases hholds (hno.subset hfaults2) with hold | hnewer
      · -- the record did not get there
        obtain ⟨hsame, hkept⟩ := hdisk.sameRecords hold
        exact ⟨hsame, .inl (h.put.cut.kept.trans hkept)⟩
      · obtain ⟨hdisk3, hadded, -, -, -⟩ := h.append hfits hnew hnewer
        exact ⟨hdisk3, .inr hadded⟩
    · exact absurd hnil (ne_nil_of_subset hfaults2 hint.fault)
  refine .of_dirty hput hdirty (by rw [hd3]; exact hck2) (fun _ => ?_) (fun _ => ?_)
  · rw [hd3]
    exact ⟨hdisk, .inl h.put.cut.kept⟩
  rw [hblkfile] at hbad
  rcases hbad with hbad | hbad | hbad
  · exact .inr (.inr (.inr (.inl hbad)))
  · refine .inr (.inr (.inr (.inr (.inl ?_))))
    have hext : ExtentsOk (w.disk.blkMap.table blkMapLog) := by
      have := hdisk.extents
      rw [hrec] at this
      exact this
    have hend := writeRecord_logicalEnd hfits opts marks s
    have := hbad hext (by rw [hend]; have := hfits.pos; show start < _; omega)
    rw [hend] at this
    exact this
  · exact .inr (.inr (.inr (.inr (.inr (.inl hbad)))))

end Write

/-- **Writing a block.**  A write that returns has added its extent and keeps the invariant; a
write that fails leaves a disk that recovery can start from. -/
theorem writeLogicalBlock_spec (h : LayoutOk env w) (hcov : Covered w) (hlaw : env.codecs.Lawful)
    {failpoint : Option IngestFailpoint} (hfits : WriteFits start payload)
    (hdec : Decodable opts payload) (hmatch : HitsMatch env w.disk opts payload) :
    wp (writeLogicalBlock env start payload marks opts failpoint)
      (fun _ w' => WriteDone env w w' start payload marks)
      (fun _ w' => WriteFailed env w w' start payload marks opts failpoint) w := by
  unfold writeLogicalBlock
  simp only [wp_bind, wp_check]
  refine ⟨fun hnil => absurd hnil hfits.nonempty, fun _ => ?_⟩
  -- the checkpoint is dirty before anything else is written
  refine wp_then (markCheckpointDirty_spec h.checkpoint) ?_ ?_
  · rintro _ w₁ ⟨hne, hd⟩
    refine ⟨fun hclean => ?_, fun _ => ?_, fun hnil => absurd hnil hne⟩
    · grind [Disk.putCheckpoint, MetadataCheckpoint.next]
    rcases hd with hd | hd
    · rw [hd]
      exact ⟨h.disk, .inl (.refl _)⟩
    · rw [hd]
      have hsame := (SameFiles.refl w.disk).putCheckpoint (w.disk.checkpoint.next .dirty)
      exact ⟨h.disk.frame hsame rfl, .inl (hsame.kept rfl)⟩
  rintro c w₁ ⟨hput, hdirty⟩
  have h1 := h.putCheckpoint hput
  have hcov1 := hcov.putCheckpoint hput
  have hkept1 : WriteCut env w₁.disk w₁.disk start payload marks := ⟨h1.disk, .inl (.refl _)⟩
  unfold failAt
  simp only [wp_check]
  refine ⟨fun hfail => ?_, fun _ => ⟨fun hlong => ?_, fun _ => ?_⟩⟩
  · refine .of_dirty hput hdirty rfl (fun _ => hkept1) (fun _ => .inl ?_)
    rw [hfail]
    simp
  · exact .of_dirty hput hdirty rfl (fun _ => hkept1) (fun _ => .inr (.inl hlong))
  have hmatch1 : HitsMatch env w₁.disk opts payload := by
    refine hmatch.of_files ?_ ?_ ?_ <;> rw [hput.disk] <;> rfl
  -- a payload that is stored in part is no block yet
  refine wp_then (storePayload_spec (h1.warm.ready hcov1) hlaw hdec hmatch1) ?_ ?_
  · rintro _ w2 hfail
    refine .of_dirty hput hdirty hfail.only.checkpoint (fun hno => ?_) (fun hnil => ?_)
    · have hcut := hfail.cut (hno.subset hput.faults)
      exact ⟨h1.disk.storeCut hcut, .inl hcut.kept⟩
    · have hsub := hput.faults
      rw [hnil] at hsub
      exact .inr (.inr (.inl ((hfail.reason (subset_nil.mp hsub)).putCheckpoint hput)))
  rintro s w2 hstored
  refine ⟨fun hfail => ?_, fun _ => ?_⟩
  · refine .of_dirty hput hdirty hstored.cut.only.checkpoint (fun _ => ?_) (fun _ => .inl ?_)
    · exact ⟨h1.disk.storeCut hstored.cut, .inl hstored.cut.kept⟩
    · rw [hfail]
      simp
  -- the record comes last: with it the block is there
  have hrest := appendRecord_spec marks opts failpoint hput hdirty hfits ⟨h1, hstored⟩
    (fun r c => (⟨r.recordId, s.dedupEntryId, s.dedupHit,
      s.collisionDetected, s.place.codec, c.epoch⟩ : WriteReport))
  simpa only [failAt, wp_bind, wp_check, wp_pure] using hrest

end Holo.Storage
