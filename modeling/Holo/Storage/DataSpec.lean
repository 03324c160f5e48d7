/-
Holo.Storage.DataSpec — what the operations on the data segments do.

Main results:
* `loadBlobById_spec`: a blob of a segment with increasing ids is found and read back;
* `loadSegmentIndexForAppend_spec`: the index a write works with;
* `appendDataBlob_spec`: what an append leaves, and what a crash inside it leaves.
-/
import Holo.Storage.DataSegments

namespace Holo.Storage

open Lib Program List SegmentIndex

variable {env : Env}

/-! ## §1. Segments whose blobs can be found. -/

/-- The blob's header agrees with its bytes. -/
structure BlobOk (b : DataBlob) : Prop where
  storedLen : b.storedLen = b.bytes.length
  checksum : b.payloadChecksum = blobIntegrityChecksum b.blobId b.logicalLen b.bytes

theorem newBlob_ok (blobId : Nat) (codec : CompressionCodec) (logicalLen : Nat)
    (encoded : Bytes) : BlobOk (newBlob blobId codec logicalLen encoded) := ⟨rfl, rfl⟩

/-- The blob ids of a segment increase, and every blob is intact. -/
structure SegOk (f : LogFile DataBlob) : Prop where
  ids : (f.log.map (·.blobId)).Pairwise (· < ·)
  blobs : ∀ b ∈ f.log, BlobOk b

variable {f : LogFile DataBlob} {b : DataBlob}

theorem SegOk.nodup (h : SegOk f) : (f.log.map DataBlob.blobId).Nodup :=
  Pairwise.imp (fun hlt => ne_of_lt hlt) h.ids

/-- So it is in every segment. -/
def SegsOk (d : Disk) : Prop := ∀ seq f, d.segs.lookup seq = some f → SegOk f

theorem SegOk.written_none (sequence now : Nat) : SegOk (.written dataLog sequence none now) :=
  ⟨by simp, by simp⟩

/-- Appending a blob above all ids keeps the segment in order. -/
theorem SegOk.appended (h : SegOk f) (hb : BlobOk b) (hnew : ∀ x ∈ f.log, x.blobId < b.blobId)
    (sum : Bool) (now : Nat) :
    SegOk (f.appended dataLog sum [b] now) where
  ids := by
    rw [LogFile.log_appended, map_append]
    refine pairwise_append.mpr ⟨h.ids, by simp, fun x hx y hy => ?_⟩
    grind
  blobs x hx := by
    rw [LogFile.log_appended] at hx
    rcases mem_append.mp hx with hx | hx
    · exact h.blobs x hx
    · rw [mem_singleton.mp hx]
      exact hb

/-! ## §2. Scanning and reading back. -/

theorem map_blobId_scan : ∀ (bs : List DataBlob) (offset : Nat),
    (scanLogDataIndex offset bs).map (·.blobId) = bs.map (·.blobId)
  | [], _ => rfl
  | b :: bs, offset => by
    rw [scanLogDataIndex, map_cons, map_blobId_scan bs, map_cons]
    rfl

theorem DataBlob.encode_eq (b : DataBlob) :
    ∃ header : Bytes, header.length = 24 ∧ b.encode = header ++ b.bytes := by
  refine ⟨leBytes 8 b.blobId ++ (leBytes 1 b.codec.toByte ++ (leBytes 3 0 ++
    (leBytes 4 b.logicalLen ++ (leBytes 4 b.storedLen ++ leBytes 4 b.payloadChecksum)))), ?_, ?_⟩
  · simp
  · simp [DataBlob.encode]

/-- Every header of the scan is the header of a blob, and the bytes behind it are the blob's. -/
theorem scan_reads : ∀ (bs : List DataBlob) (start : Bytes), (∀ b ∈ bs, BlobOk b) →
    ∀ m ∈ scanLogDataIndex start.length bs, ∃ b ∈ bs, ∃ offset, m = b.metaAt offset ∧
      m.payloadOffset + m.storedLen ≤ (start ++ bs.flatMap dataLog.encode).length ∧
      slice (start ++ bs.flatMap dataLog.encode) m.payloadOffset m.storedLen = b.bytes
  | [], _, _, m, hm => by simp [scanLogDataIndex] at hm
  | b :: bs, start, hok, m, hm => by
    have hb := hok b mem_cons_self
    obtain ⟨header, hlen, henc⟩ := b.encode_eq
    have henc' : dataLog.encode b = header ++ b.bytes := henc
    rcases mem_cons.mp hm with rfl | hm
    · refine ⟨b, mem_cons_self, start.length, rfl, ?_, ?_⟩
      · simp only [DataBlob.metaAt, flatMap_cons, henc', length_append, hb.storedLen, hlen]
        omega
      simp only [DataBlob.metaAt, flatMap_cons, henc', hb.storedLen]
      rw [slice_append_right _ _ _ _ (by omega), append_assoc,
        slice_append_right _ _ _ _ (by omega)]
      have hzero : start.length + 24 - start.length - header.length = 0 := by omega
      rw [hzero, slice_head]
    · -- the rest of the scan starts behind this blob
      have hnext : start.length + (24 + b.storedLen) = (start ++ dataLog.encode b).length := by
        rw [henc', length_append, length_append, hlen, hb.storedLen]
      rw [hnext] at hm
      obtain ⟨b', hb', offset, hmeta, hle, hslice⟩ := scan_reads bs (start ++ dataLog.encode b)
        (fun x hx => hok x (mem_cons_of_mem _ hx)) m hm
      rw [append_assoc] at hle hslice
      exact ⟨b', mem_cons_of_mem _ hb', offset, hmeta, hle, hslice⟩

theorem le_payloadOffset_of_mem_scan : ∀ (bs : List DataBlob) (offset : Nat),
    ∀ m ∈ scanLogDataIndex offset bs, offset ≤ m.payloadOffset
  | [], _, m, hm => by simp [scanLogDataIndex] at hm
  | b :: bs, offset, m, hm => by
    rcases mem_cons.mp hm with rfl | hm
    · exact Nat.le_add_right offset 24
    · exact le_trans (Nat.le_add_right _ _) (le_payloadOffset_of_mem_scan bs _ m hm)

/-- **A header of the scan reads its blob back.** -/
theorem readBlobPayload_scan (h : SegOk f) {m : DataBlobMeta} (hm : m ∈ scanDataIndex f) :
    ∃ b ∈ f.log, ∃ offset, m = b.metaAt offset ∧
      readBlobPayload f m.payloadOffset m.storedLen = .ok b.bytes := by
  cases hrec : f.records with
  | none =>
    have hlog : f.log = [] := by simp [LogFile.log, hrec]
    simp [scanDataIndex, hlog, scanLogDataIndex] at hm
  | some bs =>
    have hlog : f.log = bs := by simp [LogFile.log, hrec]
    have hpay : f.payload dataLog = dataLog.tag ++ bs.flatMap dataLog.encode := by
      simp [LogFile.payload, hrec]
    -- the scan runs over the bytes of the file, its header included
    have hstart : segmentHeaderV2TotalSize + 4 =
        (replicate segmentHeaderV2TotalSize (0 : UInt8) ++ dataLog.tag).length := by
      rw [length_append, length_replicate, dataLog.tag_length]
    unfold scanDataIndex at hm
    rw [hlog, hstart] at hm
    obtain ⟨b, hb, offset, hmeta, hle, hslice⟩ := scan_reads bs _ (hlog ▸ h.blobs) m hm
    have hoff : segmentHeaderV2TotalSize ≤ m.payloadOffset := by
      have := le_payloadOffset_of_mem_scan bs _ m hm
      omega
    refine ⟨b, hlog.symm ▸ hb, offset, hmeta, ?_⟩
    rw [append_assoc, ← hpay] at hle hslice
    rw [length_append, length_replicate] at hle
    rw [slice_append_right _ _ _ _ (by rw [length_replicate]; exact hoff),
      length_replicate] at hslice
    unfold readBlobPayload
    rw [if_pos (by omega), hslice]

/-! ## §3. Reading through the data cache. -/

/-- Whatever is cached of a segment is the scan of its file. -/
def DataCoherent (d : Disk) (m : Caches) : Prop :=
  ∀ seq c, m.data.lookup seq = some c →
    ∃ f, d.segs.lookup seq = some f ∧ c.blobs = scanDataIndex f

/-- Only the cached scans changed, and they are still coherent. -/
structure DataRead (w w' : World) : Prop where
  disk : w'.disk = w.disk
  faults : w'.faults = w.faults
  mem : ∃ data, w'.mem = { w.mem with data := data }
  coherent : DataCoherent w'.disk w'.mem

variable {w : World} {seq : Nat}

theorem DataRead.refl (h : DataCoherent w.disk w.mem) : DataRead w w :=
  ⟨rfl, rfl, ⟨w.mem.data, rfl⟩, h⟩

theorem DataRead.trans {w1 w2 w3 : World} (h : DataRead w1 w2) (h' : DataRead w2 w3) :
    DataRead w1 w3 := by
  obtain ⟨data, hmem⟩ := h.mem
  obtain ⟨data', hmem'⟩ := h'.mem
  refine ⟨h'.disk.trans h.disk, h'.faults.trans h.faults, ⟨data', ?_⟩, h'.coherent⟩
  rw [hmem', hmem]

/-- **Scanning through the cache** gives the scan of the file, if there is one. -/
theorem ensureDataCacheFresh_spec (h : DataCoherent w.disk w.mem) :
    wp (ensureDataCacheFresh env seq) (fun c w' => DataRead w w' ∧ w'.mem.data.lookup seq = some c ∧
        ∃ f, w.disk.segs.lookup seq = some f ∧ c.blobs = scanDataIndex f)
      (fun _ w' => w' = w ∧ w.disk.segs.lookup seq = none) w := by
  have hreload : ∀ f, w.disk.segs.lookup seq = some f → wp (do
        setCachedData seq ⟨f.stamp dataLog, scanDataIndex f⟩
        pure ⟨f.stamp dataLog, scanDataIndex f⟩ : StorageM CachedData)
      (fun c w' => DataRead w w' ∧ w'.mem.data.lookup seq = some c ∧
        ∃ f, w.disk.segs.lookup seq = some f ∧ c.blobs = scanDataIndex f)
      (fun _ w' => w' = w ∧ w.disk.segs.lookup seq = none) w := by
    intro f hf
    refine ⟨⟨rfl, rfl, ⟨_, rfl⟩, ?_⟩, AList.lookup_insert _, f, hf, rfl⟩
    intro seq' c' hc'
    by_cases hseq : seq' = seq
    · grind [AList.lookup_insert]
    · rw [AList.lookup_insert_ne hseq] at hc'
      exact h seq' c' hc'
  unfold ensureDataCacheFresh
  simp only [wp_bind, wp_get]
  split
  next c f hc hf =>
    rw [wp_ite]
    refine ⟨fun _ => ?_, fun _ => hreload f hf⟩
    obtain ⟨f', hf', hblobs⟩ := h seq c hc
    exact ⟨DataRead.refl h, hc, f', hf', hblobs⟩
  next c hc hf =>
    -- a scan of a file that is gone is not coherent
    obtain ⟨f', hf', -⟩ := h seq c hc
    rw [hf] at hf'
    cases hf'
  next f hc hf => exact hreload f hf
  next hc hf => exact ⟨rfl, hf⟩

/-- **Loading a blob**: it is found exactly if its segment holds it. -/
theorem loadBlobById_spec {seq blobId : Nat} (h : DataCoherent w.disk w.mem)
    (hsegs : SegsOk w.disk) :
    wp (loadBlobById env seq blobId)
      (fun b w' => DataRead w w' ∧ ∃ f, w.disk.segs.lookup seq = some f ∧ b ∈ f.log ∧
        b.blobId = blobId)
      (fun _ w' => DataRead w w' ∧ ∀ f, w.disk.segs.lookup seq = some f →
        ∀ b ∈ f.log, b.blobId ≠ blobId) w := by
  refine wp.bind (ensureDataCacheFresh_spec h) ?_ ?_
  swap
  · rintro _ w' ⟨rfl, hnone⟩
    exact ⟨DataRead.refl h, fun f hf => absurd (hnone.symm.trans hf) (by simp)⟩
  rintro c w' ⟨hread, -, f, hf, hblobs⟩
  have hok := hsegs seq f hf
  -- the cached headers carry the ids of the log, so that they can be searched
  have hids : c.blobs.map (·.blobId) = f.log.map (·.blobId) := by
    rw [hblobs]
    exact map_blobId_scan _ _
  have hsorted : (c.blobs.map (·.blobId)).Pairwise (· < ·) := by
    rw [hids]
    exact hok.ids
  split
  next hnone =>
    refine ⟨hread, fun f' hf' b hb hid => ?_⟩
    rw [hf] at hf'
    injection hf' with hf'
    subst hf'
    have hmem : blobId ∈ c.blobs.map (·.blobId) := by
      rw [hids, ← hid]
      exact mem_map_of_mem hb
    obtain ⟨m, hm, hmid⟩ := mem_map.mp hmem
    obtain ⟨i, hi, hget⟩ := binarySearch_of_mem hsorted hm
    rw [hmid] at hi
    rw [hi] at hnone
    simp [hget] at hnone
  next m hsome =>
    obtain ⟨i, hi, hget⟩ := Option.bind_eq_some_iff.mp hsome
    obtain ⟨m', hget', hmid⟩ := binarySearch_some hi
    rw [hget] at hget'
    injection hget' with hget'
    subst hget'
    have hmem : m ∈ scanDataIndex f := hblobs ▸ mem_of_getElem? hget
    obtain ⟨b, hb, offset, hmeta, hbytes⟩ := readBlobPayload_scan hok hmem
    have hbok := hok.blobs b hb
    have hf' : w'.disk.segs.lookup seq = some f := by rw [hread.disk]; exact hf
    simp only [wp_bind, wp_get, hf', hbytes, wp_ofExcept, wp_check, wp_pure]
    refine ⟨fun bytes h => ?_, fun e h => absurd h (by simp)⟩
    injection h with h
    subst h
    have hsum : m.payloadChecksum = blobIntegrityChecksum m.blobId m.logicalLen b.bytes := by
      rw [hmeta]
      exact hbok.checksum
    refine ⟨fun hbad => absurd hsum hbad.2, fun _ => ⟨hread, f, hf, ?_, hmid⟩⟩
    rw [hmeta]
    exact hb

/-! ## §4. The index a write works with. -/

/-- A clean cached index is the index on disk. -/
def IndexCoherent (d : Disk) (m : Caches) : Prop :=
  ∀ c, m.segIndex = some c → c.dirty = false → c.index = d.segIndex.index

/-- The index the next write starts from: the cached one, or the one on disk. -/
def effIndex (d : Disk) (m : Caches) : SegmentIndex :=
  match m.segIndex with
  | some c => c.index
  | none => d.segIndex.index

/-- The decoder accepts the index. -/
def SegmentIndex.Loadable (i : SegmentIndex) : Prop :=
  i.descriptors.length ≤ maxMaintenanceMetadataRecords

variable {i : SegmentIndex}

theorem SegmentIndex.load_of_loadable (h : i.Loadable) : i.load = .ok i := by
  unfold Loadable maxMaintenanceMetadataRecords at h
  unfold load fileLen maxMaintenanceMetadataBytes maxMaintenanceMetadataRecords
  rw [if_neg (by omega), if_neg (by omega)]

theorem SegmentIndex.load_eq_ok {i j : SegmentIndex} (h : i.load = .ok j) : j = i ∧ i.Loadable := by
  unfold load at h
  split at h
  next => cases h
  next =>
    split at h
    next => cases h
    next hcount =>
      injection h with h
      exact ⟨h.symm, not_lt.mp hcount⟩

/-- The cached index changed only by having been read. -/
structure IndexRead (w w' : World) : Prop where
  disk : w'.disk = w.disk
  faults : w'.faults = w.faults
  mem : ∃ c, w'.mem = { w.mem with segIndex := c }
  coherent : IndexCoherent w'.disk w'.mem
  eff : effIndex w'.disk w'.mem = effIndex w.disk w.mem

/-- The index can be had: it is cached and taken as it is, or its file can be loaded. -/
def IndexUsable (w : World) : Prop :=
  (∃ c, w.mem.segIndex = some c ∧ (c.dirty = true ∨ c.stamp = some w.disk.segIndex.stamp)) ∨
    w.disk.segIndex.index.Loadable

theorem not_loadable_of_not_usable (h : ¬ IndexUsable w) :
    ¬ w.disk.segIndex.index.Loadable := fun hload => h (.inr hload)

/-- **Loading the index for an append.** -/
theorem loadSegmentIndexForAppend_spec (h : IndexCoherent w.disk w.mem) :
    wp loadSegmentIndexForAppend
      (fun i w' => i = effIndex w.disk w.mem ∧ IndexRead w w' ∧ IndexUsable w)
      (fun _ w' => w' = w ∧ ¬ IndexUsable w) w := by
  -- the file is read where it agrees with the index in force
  have hreload : w.disk.segIndex.index = effIndex w.disk w.mem → wp reloadSegmentIndex
        (fun i w' => i = effIndex w.disk w.mem ∧ IndexRead w w' ∧ w.disk.segIndex.index.Loadable)
        (fun _ w' => w' = w ∧ ¬ w.disk.segIndex.index.Loadable) w := by
    intro heff
    unfold reloadSegmentIndex loadSegmentIndex setCachedIndex
    simp only [wp_bind, wp_get, wp_ofExcept, wp_modify, wp_pure]
    refine ⟨fun i hi => ?_, fun e he => ⟨trivial, fun hload => ?_⟩⟩
    · obtain ⟨rfl, hload⟩ := load_eq_ok hi
      refine ⟨heff, ⟨rfl, rfl, ⟨_, rfl⟩, fun c hc _ => ?_, heff⟩, hload⟩
      injection hc with hc
      rw [← hc]
    · rw [load_of_loadable hload] at he
      cases he
  unfold loadSegmentIndexForAppend
  simp only [wp_bind, wp_get]
  split
  next c hc =>
    have heff : effIndex w.disk w.mem = c.index := by simp [effIndex, hc]
    rw [wp_ite]
    refine ⟨fun hfresh => ?_, fun hstale => ?_⟩
    · exact ⟨heff.symm, ⟨rfl, rfl, ⟨w.mem.segIndex, rfl⟩, h, rfl⟩, .inl ⟨c, hc, hfresh⟩⟩
    -- a cached index that is not dirty is the one on disk
    have hclean := (not_or.mp hstale).1
    refine wp_mono (hreload (by rw [heff, h c hc (by simpa using hclean)])) ?_ ?_
    · exact fun _ _ hout => ⟨hout.1, hout.2.1, .inr hout.2.2⟩
    intro _ _ hout
    refine ⟨hout.1, fun husable => ?_⟩
    rcases husable with ⟨c', hc', hfresh⟩ | hload
    · grind
    · exact hout.2 hload
  next hc =>
    refine wp_mono (hreload (by simp [effIndex, hc])) ?_ ?_
    · exact fun _ _ hout => ⟨hout.1, hout.2.1, .inr hout.2.2⟩
    intro _ _ hout
    refine ⟨hout.1, fun husable => ?_⟩
    rcases husable with ⟨c', hc', -⟩ | hload
    · rw [hc] at hc'
      cases hc'
    · exact hout.2 hload

/-- **Loading a blob by its place**: if its segment is indexed and holds it, it is found there. -/
theorem loadBlobByLocation_spec {segmentId blobId : Nat} (hindex : IndexCoherent w.disk w.mem)
    (hdata : DataCoherent w.disk w.mem) (hsegs : SegsOk w.disk)
    (hseg : segmentId ∈ (effIndex w.disk w.mem).segments)
    (hf : w.disk.segs.lookup segmentId = some f) (hb : b ∈ f.log) (hid : b.blobId = blobId) :
    wp (loadBlobByLocation env segmentId blobId)
      (fun b' w' => b' = b ∧ IndexUsable w ∧ ∃ w1, IndexRead w w1 ∧ DataRead w1 w')
      (fun _ w' => w' = w ∧ ¬ IndexUsable w) w := by
  refine wp.bind (loadSegmentIndexForAppend_spec hindex) ?_ (fun _ _ h => h)
  rintro index w1 ⟨rfl, hread, husable⟩
  have hdata1 : DataCoherent w1.disk w1.mem := by
    obtain ⟨c, hmem⟩ := hread.mem
    rw [hread.disk, hmem]
    exact hdata
  -- the segment is in the index, so that the fallback is not asked
  obtain ⟨desc, hdesc⟩ : ∃ desc,
      (effIndex w.disk w.mem).descriptorForSegment segmentId = some desc := by
    obtain ⟨x, hx, hxs⟩ := mem_map.mp hseg
    cases hfind : (effIndex w.disk w.mem).descriptorForSegment segmentId with
    | some desc => exact ⟨desc, rfl⟩
    | none =>
      have := find?_eq_none.mp hfind x hx
      simp [hxs] at this
  have hdseq : desc.segmentSeq = segmentId := by
    simpa using find?_some hdesc
  rw [hdesc]
  simp only [wp_bind, wp_attempt, hdseq]
  refine wp_mono (loadBlobById_spec hdata1 (by rw [hread.disk]; exact hsegs)) ?_ ?_
  · rintro b' w' ⟨hdread, f', hf', hb', hid'⟩
    rw [hread.disk, hf] at hf'
    injection hf' with hf'
    subst hf'
    have hbb : b' = b :=
      inj_on_of_nodup_map (hsegs segmentId f hf).nodup hb' hb (hid'.trans hid.symm)
    exact ⟨hbb, husable, w1, hread, hdread⟩
  · rintro e w' ⟨-, hno⟩
    exact absurd hid (hno f (by rw [hread.disk]; exact hf) b hb)

/-! ## §5. Appending a blob. -/

/-- What an append relies on. -/
structure AppendOk (d : Disk) (m : Caches) : Prop where
  index : IndexCoherent d m
  data : DataCoherent d m
  segs : SegsOk d
  files : ∀ s ∈ (effIndex d m).segments, ∃ f, d.segs.lookup s = some f
  covers : ∀ s ∈ (effIndex d m).segments, ∀ f, d.segs.lookup s = some f →
    ∀ b ∈ f.log, b.blobId ≤ (effIndex d m).blobHighWater
  nextAbove : ∀ s f, d.segs.lookup s = some f → s < (effIndex d m).nextSegmentSeq

/-- The disk and the index once the active segment is ready: as they were, or rotated. -/
inductive Prepared (d : Disk) (i : SegmentIndex) : Disk → SegmentIndex → Prop where
  | same : Prepared d i d i
  | rotated (now now' : Nat) (h : i.nextSegmentSeq ≤ u32Max) :
      Prepared d i
        ((d.putSeg i.nextSegmentSeq (.written dataLog 0 none now)).putIndex
          ⟨i.rotated i.nextSegmentSeq, now'⟩)
        (i.rotated i.nextSegmentSeq)

/-- The blob is at the end of its segment. -/
structure BlobStored (d : Disk) (i : SegmentIndex) (blob : DataBlob) (seq : Nat) (d' : Disk)
    (i' : SegmentIndex) : Prop where
  exists_prepared : ∃ d₁ i₁ a f sum now, Prepared d i d₁ i₁ ∧ i₁.activeDescriptor = some a ∧
    a.segmentSeq = seq ∧ d₁.segs.lookup seq = some f ∧
    d' = d₁.putSeg seq (f.appended dataLog sum [blob] now) ∧
    recordBlobAppend i₁ seq ((f.appended dataLog sum [blob] now).payload dataLog).length
      blob.blobId blob.storedLen blob.codec = .ok i'

/-- What a crash inside an append leaves. -/
inductive AppendCut (d : Disk) (i : SegmentIndex) (blob : DataBlob) : Disk → Prop where
  | none : AppendCut d i blob d
  | segment (now : Nat) :
      AppendCut d i blob (d.putSeg i.nextSegmentSeq (.written dataLog 0 none now))
  | prepared {d₁ : Disk} {i₁ : SegmentIndex} (h : Prepared d i d₁ i₁) : AppendCut d i blob d₁
  | stored {d' : Disk} {i' : SegmentIndex} {seq : Nat} (h : BlobStored d i blob seq d' i') :
      AppendCut d i blob d'

/-- Only the data segments and their index differ. -/
def SegsOnly (d d' : Disk) : Prop := d' = { d with segs := d'.segs, segIndex := d'.segIndex }

theorem SegsOnly.refl (d : Disk) : SegsOnly d d := rfl

theorem SegsOnly.putSeg {d d' : Disk} (h : SegsOnly d d') (seq : Nat) (f : LogFile DataBlob) :
    SegsOnly d (d'.putSeg seq f) := by
  rw [h]
  rfl

theorem SegsOnly.putIndex {d d' : Disk} (h : SegsOnly d d') (f : IndexFile) :
    SegsOnly d (d'.putIndex f) := by
  rw [h]
  rfl

variable {d d₁ : Disk} {i₁ : SegmentIndex}

theorem Prepared.segsOnly (h : Prepared d i d₁ i₁) : SegsOnly d d₁ := by
  cases h with
  | same => exact SegsOnly.refl d
  | rotated now now' _ => exact ((SegsOnly.refl d).putSeg _ _).putIndex _

@[simp] theorem Disk.lookup_putSeg (d : Disk) (seq : Nat) (f : LogFile DataBlob) :
    (d.putSeg seq f).segs.lookup seq = some f := AList.lookup_insert _

theorem Disk.lookup_putSeg_ne (d : Disk) {seq s : Nat} (f : LogFile DataBlob) (h : s ≠ seq) :
    (d.putSeg seq f).segs.lookup s = d.segs.lookup s := AList.lookup_insert_ne h

@[simp] theorem Disk.segs_putIndex (d : Disk) (f : IndexFile) : (d.putIndex f).segs = d.segs := rfl

@[simp] theorem Disk.segIndex_putIndex (d : Disk) (f : IndexFile) :
    (d.putIndex f).segIndex = f := rfl

@[simp] theorem Disk.segIndex_putSeg (d : Disk) (seq : Nat) (f : LogFile DataBlob) :
    (d.putSeg seq f).segIndex = d.segIndex := rfl

/-- Why an append is refused without a fault. -/
def BlobRefused (d : Disk) (i : SegmentIndex) (encoded : Bytes) : Prop :=
  ¬ d.segIndex.index.Loadable ∨ i.activeDescriptor = none ∨ u32Max < i.nextSegmentSeq ∨
    u64Max ≤ i.blobHighWater ∨ u32Max < encoded.length

/-- What a failed append leaves: a fault cut it, or it was refused before it changed anything
that counts. -/
def AppendFailed (w w' : World) (i : SegmentIndex) (encoded : Bytes) (blob : DataBlob) : Prop :=
  SegsOnly w.disk w'.disk ∧
    ((w.faults ≠ [] ∧ (NoTorn w.faults → AppendCut w.disk i blob w'.disk)) ∨
      (AppendCut w.disk i blob w'.disk ∧ BlobRefused w.disk i encoded))

theorem SegmentIndex.exists_active_rotated (i : SegmentIndex) (seq : Nat) :
    ∃ a, (i.rotated seq).activeDescriptor = some a := by
  cases h : (i.rotated seq).activeDescriptor with
  | some a => exact ⟨a, rfl⟩
  | none =>
    have := find?_eq_none.mp h (.fresh seq)
      (mem_append_right _ (mem_singleton.mpr rfl))
    simp [SegmentDescriptor.fresh] at this

theorem SegmentIndex.segmentSeq_mem {a : SegmentDescriptor} (h : i.activeDescriptor = some a) :
    a.segmentSeq ∈ i.segments :=
  mem_map_of_mem (mem_of_find?_eq_some h)

/-- **Readying the active segment.** -/
theorem prepareActiveSegmentForAppend_spec {recordLen tagLen : Nat} (encoded : Bytes)
    (blob : DataBlob) :
    wp (prepareActiveSegmentForAppend env i recordLen tagLen)
      (fun p w' => Prepared w.disk i w'.disk p.1 ∧ (∃ a, p.1.activeDescriptor = some a ∧
        a.segmentSeq = p.2) ∧ w'.mem = w.mem ∧ w'.faults ⊆ w.faults)
      (fun _ w' => AppendFailed w w' i encoded blob) w := by
  unfold prepareActiveSegmentForAppend
  split
  next hnone =>
    exact ⟨SegsOnly.refl _, .inr ⟨.none, .inr (.inl hnone)⟩⟩
  next a ha =>
    rw [wp_ite]
    refine ⟨fun _ => ?_, fun _ => ⟨.same, ⟨a, ha, rfl⟩, rfl, Subset.refl _⟩⟩
    unfold rotateActiveSegment writeEmptySegment persistSegmentIndex
    simp only [wp_bind, wp_check, ha, reduceCtorEq, false_implies, not_false_eq_true, true_implies,
      true_and]
    refine ⟨fun hbig => ⟨SegsOnly.refl _, .inr ⟨.none, .inr (.inr (.inl hbig))⟩⟩, fun hsmall => ?_⟩
    -- the new segment is written before the index that names it
    refine wp_atomicStep ?_ (fun hf => ⟨SegsOnly.refl _, .inl ⟨hf, fun _ => .none⟩⟩)
      (fun hf => ⟨(SegsOnly.refl _).putSeg _ _, .inl ⟨hf, fun _ => .segment _⟩⟩)
    have hne : (w.stepped (w.disk.putSeg i.nextSegmentSeq
        (.written dataLog 0 none (env.clock w.ticks)))).faults ≠ [] → w.faults ≠ [] := by
      intro h h0
      rw [World.faults_stepped, h0] at h
      exact h rfl
    refine wp_atomicStep ?_
      (fun hf => ⟨(SegsOnly.refl _).putSeg _ _, .inl ⟨hne hf, fun _ => .segment _⟩⟩)
      (fun hf => ⟨((SegsOnly.refl _).putSeg _ _).putIndex _,
        .inl ⟨hne hf, fun _ => .prepared (.rotated _ _ (not_lt.mp hsmall))⟩⟩)
    obtain ⟨a', ha'⟩ := i.exists_active_rotated i.nextSegmentSeq
    rw [wp_pure, ha']
    exact ⟨.rotated _ _ (not_lt.mp hsmall), ⟨a', ha', rfl⟩, rfl,
      Subset.trans (tail_subset _) (tail_subset _)⟩

/-- The scan of a longer log goes on where the shorter one ended. -/
theorem scanLogDataIndex_append : ∀ (as bs : List DataBlob) (offset : Nat),
    (∀ b ∈ as, BlobOk b) → scanLogDataIndex offset (as ++ bs) = scanLogDataIndex offset as ++
        scanLogDataIndex (offset + (as.flatMap dataLog.encode).length) bs
  | [], bs, offset, _ => by simp [scanLogDataIndex]
  | a :: as, bs, offset, hok => by
    have ha := (hok a mem_cons_self).storedLen
    have hlen : (dataLog.encode a).length = 24 + a.bytes.length := DataBlob.length_encode a
    rw [cons_append, scanLogDataIndex, scanLogDataIndex, cons_append,
      scanLogDataIndex_append as bs _ (fun b hb => hok b (mem_cons_of_mem _ hb)),
      flatMap_cons, length_append, hlen, ha]
    simp only [add_assoc]

/-- What the append adds to the cached scan is what a new scan would find. -/
theorem scanDataIndex_appended (h : SegOk f) (hb : BlobOk b) (sum : Bool) (now : Nat) :
    scanDataIndex (f.appended dataLog sum [b] now) = scanDataIndex f ++
      [b.metaAt (segmentHeaderV2TotalSize +
        ((f.appended dataLog sum [b] now).payload dataLog).length - b.storedLen - 24)] := by
  have hpay : ((f.appended dataLog sum [b] now).payload dataLog).length =
      4 + (f.log.flatMap dataLog.encode).length + (24 + b.bytes.length) := by
    have hlenb : (dataLog.encode b).length = 24 + b.bytes.length := DataBlob.length_encode b
    have htag := dataLog.tag_length
    unfold LogFile.appended
    cases hrec : f.records with
    | none =>
      have hlog : f.log = [] := by simp [LogFile.log, hrec]
      simp [LogFile.payload_written, hlog, htag, hlenb]
    | some old =>
      grind [LogFile.log, LogFile.payload]
  unfold scanDataIndex
  rw [LogFile.log_appended, scanLogDataIndex_append _ _ _ h.blobs, hpay, hb.storedLen]
  congr 1
  rw [scanLogDataIndex, scanLogDataIndex]
  congr 2
  omega

variable {m : Caches} {blobId : Nat} {encoded : Bytes} {sum : Bool}

/-- Readying the active segment keeps the cached scans coherent. -/
theorem Prepared.dataCoherent (h : Prepared d (effIndex d m) d₁ i₁) (hok : AppendOk d m) :
    DataCoherent d₁ m := by
  cases h with
  | same => exact hok.data
  | rotated now now' _ =>
    intro s c hc
    obtain ⟨f, hf, hblobs⟩ := hok.data s c hc
    have hlt := hok.nextAbove s f hf
    refine ⟨f, ?_, hblobs⟩
    rw [Disk.segs_putIndex, Disk.lookup_putSeg_ne _ _ hlt.ne]
    exact hf

/-- The segment made ready exists, is in order, and has no blob above the high water. -/
theorem Prepared.exists_segment (h : Prepared d (effIndex d m) d₁ i₁) (hok : AppendOk d m)
    (hseq : seq ∈ i₁.segments) :
    ∃ f, d₁.segs.lookup seq = some f ∧ SegOk f ∧
      ∀ b ∈ f.log, b.blobId ≤ (effIndex d m).blobHighWater := by
  cases h with
  | same =>
    obtain ⟨f, hf⟩ := hok.files seq hseq
    exact ⟨f, hf, hok.segs seq f hf, hok.covers seq hseq f hf⟩
  | rotated now now' _ =>
    rw [Disk.segs_putIndex]
    by_cases hnew : seq = (effIndex d m).nextSegmentSeq
    · subst hnew
      exact ⟨_, Disk.lookup_putSeg _ _ _, SegOk.written_none _ _, by simp⟩
    rw [segments_rotated, mem_append, mem_singleton] at hseq
    have hold := hseq.resolve_right hnew
    obtain ⟨f, hf⟩ := hok.files seq hold
    exact ⟨f, by rw [Disk.lookup_putSeg_ne _ _ hnew]; exact hf, hok.segs seq f hf,
      hok.covers seq hold f hf⟩

theorem Prepared.blobHighWater (h : Prepared d i d₁ i₁) : i₁.blobHighWater = i.blobHighWater := by
  cases h with
  | same => rfl
  | rotated now now' _ => exact blobHighWater_rotated _ _

theorem recordBlobAppend_of_mem (h : seq ∈ i.segments) (bytes id len : Nat)
    (codec : CompressionCodec) : ∃ i', recordBlobAppend i seq bytes id len codec = .ok i' := by
  obtain ⟨x, hx, hxs⟩ := mem_map.mp h
  unfold recordBlobAppend
  rw [if_pos (any_eq_true.mpr ⟨x, hx, by simpa using hxs⟩)]
  exact ⟨_, rfl⟩

/-- What a successful append leaves in the world. -/
structure BlobAppended (w w' : World) (codec : CompressionCodec) (logicalLen : Nat)
    (encoded : Bytes) (seq blobId : Nat) : Prop where
  id : blobId = (effIndex w.disk w.mem).blobHighWater + 1
  stored : BlobStored w.disk (effIndex w.disk w.mem) (newBlob blobId codec logicalLen encoded) seq
    w'.disk (effIndex w'.disk w'.mem)
  segsOnly : SegsOnly w.disk w'.disk
  faults : w'.faults ⊆ w.faults
  mem : ∃ data c, w'.mem = { w.mem with data := data, segIndex := some c } ∧ c.dirty = true
  data : DataCoherent w'.disk w'.mem

/-- What the append does in memory, once the blob is at the end of its segment. -/
theorem recordAppendedBlob_spec {c : CachedData} {i i' : SegmentIndex} {now : Nat}
    (hf : w.disk.segs.lookup seq = some (f.appended dataLog sum [b] now)) (hok : SegOk f)
    (hb : BlobOk b) (hc : c.blobs = scanDataIndex f)
    (hother : ∀ s c', s ≠ seq → w.mem.data.lookup s = some c' →
      ∃ f, w.disk.segs.lookup s = some f ∧ c'.blobs = scanDataIndex f)
    (hrec : recordBlobAppend i seq ((f.appended dataLog sum [b] now).payload dataLog).length
      b.blobId b.storedLen b.codec = .ok i') :
    wp (recordAppendedBlob env seq c i b) (fun _ w' => w'.disk = w.disk ∧ w'.faults = w.faults ∧
        (∃ data c, w'.mem = { w.mem with data := data, segIndex := some c } ∧ c.dirty = true ∧
          c.index = i') ∧ DataCoherent w'.disk w'.mem)
      (fun _ _ => False) w := by
  unfold recordAppendedBlob storeSegmentIndexForAppend setCachedData setCachedIndex
  simp only [wp_bind, wp_get, hf, wp_modify, hrec, wp_ofExcept]
  refine ⟨fun i2 h => ?_, fun e h => absurd h (by simp)⟩
  injection h with h
  subst h
  refine ⟨trivial, trivial, ⟨_, _, rfl, rfl, rfl⟩, fun s c' hc' => ?_⟩
  by_cases hs : s = seq
  · subst hs
    rw [AList.lookup_insert] at hc'
    injection hc' with hc'
    refine ⟨_, hf, ?_⟩
    rw [← hc', scanDataIndex_appended hok hb, hc]
  · rw [AList.lookup_insert_ne hs] at hc'
    exact hother s c' hs hc'

/-- **Appending a blob**: it goes to the end of the active segment, after a rotation if one is
due, under the id above the index's high water; a crash inside leaves the segments as they
were, an empty new segment, or the blob stored. -/
theorem appendDataBlob_spec {codec : CompressionCodec} {logicalLen : Nat}
    (h : AppendOk w.disk w.mem) :
    wp (appendDataBlob env codec logicalLen encoded sum)
      (fun p w' => BlobAppended w w' codec logicalLen encoded p.1 p.2)
      (fun _ w' => AppendFailed w w' (effIndex w.disk w.mem) encoded
        (newBlob ((effIndex w.disk w.mem).blobHighWater + 1) codec logicalLen encoded)) w := by
  set b := newBlob ((effIndex w.disk w.mem).blobHighWater + 1) codec logicalLen encoded
  refine wp.bind (loadSegmentIndexForAppend_spec h.index) ?_ ?_
  swap
  · rintro _ w' ⟨rfl, hbad⟩
    exact ⟨SegsOnly.refl _, .inr ⟨.none, .inl (not_loadable_of_not_usable hbad)⟩⟩
  rintro i w1 ⟨rfl, hread, -⟩
  obtain ⟨ci, hmem1⟩ := hread.mem
  refine wp.bind (prepareActiveSegmentForAppend_spec encoded b) ?_ ?_
  swap
  · rintro _ w' ⟨honly, hcase⟩
    rw [hread.disk] at honly
    refine ⟨honly, ?_⟩
    rw [hread.disk, hread.faults] at hcase
    exact hcase
  rintro ⟨i₁, seq⟩ w2 ⟨hprep, ⟨a, ha, hseq⟩, hmem2, hfaults2⟩
  rw [hread.disk] at hprep
  rw [hread.faults] at hfaults2
  simp only at hprep ha hseq ⊢
  have hsegmem : seq ∈ i₁.segments := hseq ▸ segmentSeq_mem ha
  obtain ⟨f, hf, hfok, hfle⟩ := hprep.exists_segment h hsegmem
  have hcoh2 : DataCoherent w2.disk w2.mem := by
    have := hprep.dataCoherent h
    rw [hmem2, hmem1]
    exact this
  have hcut : AppendCut w.disk (effIndex w.disk w.mem) b w2.disk := .prepared hprep
  refine wp.bind (ensureDataCacheFresh_spec hcoh2) ?_ ?_
  swap
  · simp [hf]
  rintro c w3 ⟨hread3, -, f', hf', hblobs⟩
  rw [hf] at hf'
  injection hf' with hf'
  subst hf'
  obtain ⟨data3, hmem3⟩ := hread3.mem
  simp only [wp_bind, wp_ofExcept]
  refine ⟨fun id hid => ?_, fun e he => ?_⟩
  swap
  · -- no id is left
    refine ⟨by rw [hread3.disk]; exact hprep.segsOnly, .inr
      ⟨by rw [hread3.disk]; exact hcut, .inr (.inr (.inr (.inl ?_)))⟩⟩
    unfold nextBlobId at he
    split at he
    next => cases he
    next hnone =>
      rw [hprep.blobHighWater] at hnone
      simp only [checkedAdd64, ite_eq_right_iff, reduceCtorEq, imp_false, not_le] at hnone
      omega
  obtain ⟨rfl, hidle⟩ := nextBlobId_eq hid
  rw [hprep.blobHighWater] at hid hidle ⊢
  rw [wp_check]
  refine ⟨fun hbig => ⟨by rw [hread3.disk]; exact hprep.segsOnly, .inr
    ⟨by rw [hread3.disk]; exact hcut, .inr (.inr (.inr (.inr hbig)))⟩⟩,
    fun _ => ?_⟩
  -- the blob goes to the end of the file
  have hf3 : w3.disk.segs.lookup seq = some f := by rw [hread3.disk]; exact hf
  have hfaults3 : w3.faults ⊆ w.faults := by rw [hread3.faults]; exact hfaults2
  have hne : w3.faults ≠ [] → w.faults ≠ [] := ne_nil_of_subset hfaults3
  have hb : BlobOk b := newBlob_ok _ codec logicalLen encoded
  have hstored : ∀ now, ∃ i', recordBlobAppend i₁ seq
      ((f.appended dataLog sum [b] now).payload dataLog).length
      ((effIndex w.disk w.mem).blobHighWater + 1) encoded.length codec = .ok i' ∧
      BlobStored w.disk (effIndex w.disk w.mem) b seq
        (w3.disk.putSeg seq (f.appended dataLog sum [b] now)) i' := by
    intro now
    obtain ⟨i', hi'⟩ := recordBlobAppend_of_mem hsegmem
      ((f.appended dataLog sum [b] now).payload dataLog).length
      ((effIndex w.disk w.mem).blobHighWater + 1) encoded.length codec
    exact ⟨i', hi', ⟨_, i₁, a, f, sum, now, hprep, ha, hseq, hf, by rw [hread3.disk], hi'⟩⟩
  refine wp_diskStep ?_ ?_ ?_ ?_
  · rw [hf3]
    obtain ⟨i', hi', hst⟩ := hstored (env.clock w3.ticks)
    refine wp_mono (recordAppendedBlob_spec (i := i₁) ?_ hfok hb hblobs ?_ hi')
      ?_ (fun _ _ h => h.elim)
    · exact Disk.lookup_putSeg _ _ _
    · intro s c' hs hc'
      obtain ⟨f'', hf'', hb''⟩ := hread3.coherent s c' hc'
      exact ⟨f'', by rw [World.disk_stepped, Disk.lookup_putSeg_ne _ _ hs]; exact hf'', hb''⟩
    rintro _ w4 ⟨hdisk4, hfaults4, ⟨data4, c4, hmem4, hdirty, hci⟩, hcoh4⟩
    have heff : effIndex w4.disk w4.mem = i' := by
      rw [hmem4]
      exact hci
    refine ⟨rfl, ?_, ?_, ?_, ⟨data4, c4, ?_, hdirty⟩, hcoh4⟩
    · rw [heff, hdisk4]
      exact hst
    · rw [hdisk4, World.disk_stepped]
      exact (hread3.disk ▸ hprep.segsOnly).putSeg _ _
    · rw [hfaults4]
      exact Subset.trans (tail_subset _) hfaults3
    · rw [hmem4, World.mem_stepped, hmem3, hmem2, hmem1]
  · intro hfault
    exact ⟨hread3.disk ▸ hprep.segsOnly, .inl ⟨hne hfault, fun _ => by
      rw [World.disk_stepped, hread3.disk]
      exact hcut⟩⟩
  · intro hfault
    rw [hf3]
    obtain ⟨i', -, hst⟩ := hstored (env.clock w3.ticks)
    exact ⟨(hread3.disk ▸ hprep.segsOnly).putSeg _ _, .inl ⟨hne hfault, fun _ => .stored hst⟩⟩
  · intro cut hcut'
    rw [hf3]
    exact ⟨(hread3.disk ▸ hprep.segsOnly).putSeg _ _,
      .inl ⟨hne (ne_nil_of_mem hcut'), fun hno => absurd (hfaults3 hcut') (hno cut)⟩⟩

end Holo.Storage
