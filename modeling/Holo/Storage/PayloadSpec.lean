/-
Holo.Storage.PayloadSpec — storing a payload, with or without dedup.

Main results:
* `dedupEntryMatchesPayload_spec`: a verified hit holds the payload;
* `storePayload_spec`: after the dedup stage of a write the payload is stored at the place
  handed on, every blob stored before is still there, and one entry has one more reference.
-/
import Holo.Storage.Stored

namespace Holo.Storage

open Lib Program List

variable {env : Env}
variable {w1 : World} {p : BlobPlace}

/-! ## §1. Reading the store. -/

/-- What the caches over the store keep: coherent with the disk, and the append's invariant. -/
structure StoreReady (w : World) : Prop where
  inv : AppendInv w.disk (effIndex w.disk w.mem)
  index : IndexCoherent w.disk w.mem
  data : DataCoherent w.disk w.mem
  dedup : Coherent dedupSlot w.disk w.mem

variable {w w' : World} {d : Disk} {blobId seg : Nat}

theorem StoreReady.appendOk (h : StoreReady w) : AppendOk w.disk w.mem where
  index := h.index
  data := h.data
  segs := h.inv.inv.segs
  files s hs := h.inv.inv.files s (h.inv.segments ▸ hs)
  covers s hs f hf b hb := h.inv.covers.blobs s (h.inv.segments ▸ hs) b ⟨f, hf, hb⟩
  nextAbove s f hf := by
    rw [h.inv.shape.next]
    exact h.inv.next s f hf

/-- Only caches of the store were filled. -/
structure StoreRead (w w' : World) : Prop where
  disk : w'.disk = w.disk
  faults : w'.faults = w.faults
  mem : ∃ data c, w'.mem = { w.mem with data := data, segIndex := c }
  index : IndexCoherent w'.disk w'.mem
  data : DataCoherent w'.disk w'.mem
  eff : effIndex w'.disk w'.mem = effIndex w.disk w.mem

theorem StoreRead.refl (hindex : IndexCoherent w.disk w.mem) (hdata : DataCoherent w.disk w.mem) :
    StoreRead w w :=
  ⟨rfl, rfl, ⟨_, _, rfl⟩, hindex, hdata, rfl⟩

theorem StoreRead.trans {w2 w3 : World} (h : StoreRead w1 w2) (h' : StoreRead w2 w3) :
    StoreRead w1 w3 := by
  obtain ⟨data, c, hmem⟩ := h.mem
  obtain ⟨data', c', hmem'⟩ := h'.mem
  refine ⟨h'.disk.trans h.disk, h'.faults.trans h.faults, ⟨data', c', ?_⟩, h'.index, h'.data,
    h'.eff.trans h.eff⟩
  rw [hmem', hmem]

theorem DataRead.storeRead (h : DataRead w w') (hindex : IndexCoherent w.disk w.mem) :
    StoreRead w w' := by
  obtain ⟨data, hmem⟩ := h.mem
  refine ⟨h.disk, h.faults, ⟨data, w.mem.segIndex, hmem⟩, ?_, h.coherent, ?_⟩
  · rw [h.disk, hmem]
    exact hindex
  · rw [h.disk, hmem]
    rfl

theorem IndexRead.storeRead (h : IndexRead w w') (hdata : DataCoherent w.disk w.mem) :
    StoreRead w w' := by
  obtain ⟨c, hmem⟩ := h.mem
  refine ⟨h.disk, h.faults, ⟨w.mem.data, c, hmem⟩, h.coherent, ?_, h.eff⟩
  rw [h.disk, hmem]
  exact hdata

variable {c : CachedLog DedupIndexEntry} {R : Prop} {old new : List DedupIndexEntry}
  {key : Nat × Nat × Nat × Nat}

theorem StoreReady.read (h : StoreReady w) (hread : StoreRead w w') : StoreReady w' := by
  refine ⟨?_, hread.index, hread.data, ?_⟩
  · rw [hread.eff, hread.disk]
    exact h.inv
  · obtain ⟨data, c, hmem⟩ := hread.mem
    rw [hread.disk, hmem]
    exact h.dedup

/-- Where `locate_blob_segment_id` finds a blob id: in the first range that holds it, else in a
segment that holds the blob. -/
def BlobLocated (d : Disk) (blobId seg : Nat) : Prop :=
  match d.segIndex.index.descriptorForBlob blobId with
  | some x => seg = x.segmentSeq
  | none => seg ∈ d.indexed ∧ ∃ b, d.HasBlob seg b ∧ b.blobId = blobId

theorem BlobLocated.mem_indexed (h : BlobLocated d blobId seg) : seg ∈ d.indexed := by
  unfold BlobLocated at h
  split at h
  next x hx =>
    rw [h]
    exact mem_map_of_mem (mem_of_find?_eq_some hx)
  next => exact h.1

/-- **A blob id is located in the segment that holds it.** -/
theorem BlobLocated.eq_of_hasBlob (hinv : StoreInv d) {blobId seg s : Nat}
    (h : BlobLocated d blobId seg) (hs : s ∈ d.indexed) {b : DataBlob} (hb : d.HasBlob s b)
    (hid : b.blobId = blobId) : seg = s := by
  unfold BlobLocated at h
  split at h
  next x hx =>
    have hin : x.containsBlob b.blobId := by
      rw [hid]
      simpa using find?_some hx
    rw [h]
    exact hinv.index.segmentSeq_eq (mem_of_find?_eq_some hx) hs hb hin
  next =>
    obtain ⟨hseg, b', hb', hid'⟩ := h
    exact hinv.unique hseg hs hb' hb (hid'.trans hid.symm)

/-- The loop over the segments finds the first that holds the blob. -/
theorem locateInSegments_spec : ∀ (descs : List SegmentDescriptor) {w : World},
    DataCoherent w.disk w.mem → SegsOk w.disk →
    wp (locateInSegments env blobId descs)
      (fun seg w' => DataRead w w' ∧ seg ∈ descs.map (·.segmentSeq) ∧
        ∃ b, w.disk.HasBlob seg b ∧ b.blobId = blobId)
      (fun _ w' => DataRead w w' ∧ ∀ x ∈ descs, ∀ b, w.disk.HasBlob x.segmentSeq b →
        b.blobId ≠ blobId) w
  | [], w, hdata, _ => ⟨DataRead.refl hdata, by simp⟩
  | x :: xs, w, hdata, hsegs => by
    unfold locateInSegments
    simp only [wp_bind, wp_attempt]
    refine wp_mono (loadBlobById_spec hdata hsegs) ?_ ?_
    · rintro b w1 ⟨hread, f, hf, hb, hid⟩
      exact ⟨hread, by simp, b, ⟨f, hf, hb⟩, hid⟩
    rintro _ w1 ⟨hread, hno⟩
    refine wp_mono (locateInSegments_spec xs hread.coherent (by rw [hread.disk]; exact hsegs)) ?_ ?_
    · simp_all [hread.disk, hread.trans]
    rintro _ w2 ⟨hread2, hno2⟩
    rw [hread.disk] at hno2
    refine ⟨hread.trans hread2, fun y hy b hb => ?_⟩
    rcases mem_cons.mp hy with rfl | hy
    · obtain ⟨f, hf, hmem⟩ := hb
      exact hno f hf b hmem
    · exact hno2 y hy b hb

/-- **Locating a blob id.** -/
theorem locateBlobSegmentId_spec (hdata : DataCoherent w.disk w.mem) (hsegs : SegsOk w.disk) :
    wp (locateBlobSegmentId env blobId)
      (fun seg w' => DataRead w w' ∧ BlobLocated w.disk blobId seg)
      (fun _ w' => DataRead w w' ∧ (¬ w.disk.segIndex.index.Loadable ∨
        ∀ seg, ¬ BlobLocated w.disk blobId seg)) w := by
  unfold locateBlobSegmentId loadSegmentIndex
  simp only [wp_bind, wp_get, wp_ofExcept]
  refine ⟨fun i hi => ?_, fun e he => ⟨DataRead.refl hdata, .inl fun hload => ?_⟩⟩
  swap
  · rw [SegmentIndex.load_of_loadable hload] at he
    cases he
  obtain ⟨rfl, -⟩ := SegmentIndex.load_eq_ok hi
  -- by the ranges of the index; if none holds the id, by the segments
  split
  next x hx =>
    refine ⟨DataRead.refl hdata, ?_⟩
    unfold BlobLocated
    rw [hx]
  next hnone =>
    refine wp_mono (locateInSegments_spec _ hdata hsegs) ?_ ?_
    · rintro seg w' ⟨hread, hseg, hb⟩
      refine ⟨hread, ?_⟩
      unfold BlobLocated
      rw [hnone]
      exact ⟨hseg, hb⟩
    rintro _ w' ⟨hread, hno⟩
    refine ⟨hread, .inr fun seg hloc => ?_⟩
    unfold BlobLocated at hloc
    rw [hnone] at hloc
    obtain ⟨hseg, b, hb, hid⟩ := hloc
    obtain ⟨x, hx, rfl⟩ := mem_map.mp hseg
    exact hno x hx b hb hid

/-- The fallback for segment 1 finds a blob in the first segment of the index, if at all. -/
theorem loadBlobLegacy_spec {i : SegmentIndex} (hdata : DataCoherent w.disk w.mem)
    (hsegs : SegsOk w.disk) :
    wp (loadBlobLegacy env i blobId)
      (fun b w' => DataRead w w' ∧ b.blobId = blobId ∧ ∃ s ∈ i.segments, w.disk.HasBlob s b)
      (fun _ w' => DataRead w w') w := by
  unfold loadBlobLegacy
  split
  next => exact DataRead.refl hdata
  next first rest hdesc =>
    rw [wp_ite]
    refine ⟨fun _ => DataRead.refl hdata, fun _ => ?_⟩
    refine wp_mono (loadBlobById_spec hdata hsegs) ?_ (fun _ _ h => h.1)
    rintro b w' ⟨hread, f, hf, hb, hid⟩
    refine ⟨hread, hid, first.segmentSeq, ?_, f, hf, hb⟩
    unfold SegmentIndex.segments
    rw [hdesc]
    exact mem_cons_self

/-- **Loading a blob by its place**: what is found has the id and is in an indexed segment; it is
found if the segment is indexed and holds it. -/
theorem loadBlobByLocation_found (hindex : IndexCoherent w.disk w.mem)
    (hdata : DataCoherent w.disk w.mem) (hsegs : SegsOk w.disk) :
    wp (loadBlobByLocation env seg blobId) (fun b w' => StoreRead w w' ∧ b.blobId = blobId ∧
        ∃ s ∈ (effIndex w.disk w.mem).segments, w.disk.HasBlob s b)
      (fun _ w' => StoreRead w w' ∧ (¬ w.disk.segIndex.index.Loadable ∨
        (seg ∈ (effIndex w.disk w.mem).segments → ∀ b, w.disk.HasBlob seg b →
          b.blobId ≠ blobId))) w := by
  refine wp.bind (loadSegmentIndexForAppend_spec hindex) ?_ ?_
  swap
  · rintro _ w' ⟨rfl, hbad⟩
    exact ⟨StoreRead.refl hindex hdata, .inl (not_loadable_of_not_usable hbad)⟩
  rintro i w1 ⟨rfl, hread, -⟩
  have hread1 : StoreRead w w1 := hread.storeRead hdata
  have hsegs1 : SegsOk w1.disk := by rw [hread.disk]; exact hsegs
  -- the fallback, where the named segment is not indexed or does not have the blob
  have hlegacy : ∀ {w2 : World}, StoreRead w w2 →
      wp (loadBlobLegacy env (effIndex w.disk w.mem) blobId)
        (fun b w' => StoreRead w w' ∧ b.blobId = blobId ∧
          ∃ s ∈ (effIndex w.disk w.mem).segments, w.disk.HasBlob s b)
        (fun _ w' => StoreRead w w') w2 := by
    intro w2 hread2
    refine wp_mono (loadBlobLegacy_spec hread2.data (by rw [hread2.disk]; exact hsegs)) ?_
      (fun _ _ h => hread2.trans (h.storeRead hread2.index))
    rintro b w' ⟨hread', hid, s, hs, hb⟩
    rw [hread2.disk] at hb
    exact ⟨hread2.trans (hread'.storeRead hread2.index), hid, s, hs, hb⟩
  split
  next x hx =>
    have hxseg : x.segmentSeq = seg := by simpa using find?_some hx
    have hxmem : x.segmentSeq ∈ (effIndex w.disk w.mem).segments :=
      mem_map_of_mem (mem_of_find?_eq_some hx)
    simp only [wp_bind, wp_attempt]
    refine wp_mono (loadBlobById_spec hread1.data hsegs1) ?_ ?_
    · rintro b w' ⟨hread', f, hf, hb, hid⟩
      rw [hread.disk] at hf
      exact ⟨hread1.trans (hread'.storeRead hread1.index), hid, _, hxmem, f, hf, hb⟩
    rintro e w2 ⟨hread2, hno⟩
    have hread2' := hread1.trans (hread2.storeRead hread1.index)
    rw [hread.disk] at hno
    have hno' : ∀ b, w.disk.HasBlob seg b → b.blobId ≠ blobId := by
      rintro b ⟨f, hf, hb⟩
      exact hno f (hxseg ▸ hf) b hb
    rw [wp_ite]
    refine ⟨fun _ => ⟨hread2', .inr fun _ => hno'⟩, fun _ => ?_⟩
    exact wp_mono (hlegacy hread2') (fun _ _ h => h) (fun _ _ h => ⟨h, .inr fun _ => hno'⟩)
  next hnone =>
    have hnot : seg ∉ (effIndex w.disk w.mem).segments := by
      intro hmem
      obtain ⟨x, hx, hxs⟩ := mem_map.mp hmem
      have := find?_eq_none.mp hnone x hx
      simp [hxs] at this
    rw [wp_ite]
    refine ⟨fun _ => ⟨hread1, .inr fun h => absurd h hnot⟩, fun _ => ?_⟩
    exact wp_mono (hlegacy hread1) (fun _ _ h => h) (fun _ _ h => ⟨h, .inr fun h => absurd h hnot⟩)

/-! ## §2. Verifying a hit. -/

section

variable (env : Env) (d : Disk) (e : DedupIndexEntry)

/-- The blob an entry names can be located, loaded and decoded. -/
def EntryLive : Prop :=
  ∃ seg b p, BlobLocated d e.storedBlobId seg ∧ d.HasBlob seg b ∧ b.blobId = e.storedBlobId ∧
    decodeStored env.codecs b.codec b.bytes b.logicalLen = .ok p

/-- The place of an entry's blob in a segment. -/
def DedupIndexEntry.placeIn (seg : Nat) : BlobPlace :=
  ⟨e.storedBlobId, e.compression, e.storedLen, seg⟩

/-- The entry's blob, where it is located, holds the payload. -/
def HoldsPayload (payload : Bytes) : Prop :=
  ∃ seg, BlobLocated d e.storedBlobId seg ∧
    StoredAt env d (e.placeIn seg) payload.length payload

/-- Why looking at a hit fails. -/
def HitRefused : Prop :=
  ¬ d.segIndex.index.Loadable ∨ ¬ EntryLive env d e

end

theorem decodeStored_eq_decompress {c : Codecs} {codec : CompressionCodec} (h : codec ≠ .none)
    (bytes : Bytes) (n : Nat) : decodeStored c codec bytes n = decompressPayload c codec bytes n :=
  if_neg h

variable {e : DedupIndexEntry}

/-- **A verified hit holds the payload.** -/
theorem dedupEntryMatchesPayload_spec (h : StoreReady w) (he : e ∈ w.disk.entries)
    (payload : Bytes) :
    wp (dedupEntryMatchesPayload env e payload)
      (fun ok w' => StoreRead w w' ∧ (ok = true → HoldsPayload env w.disk e payload))
      (fun _ w' => StoreRead w w' ∧ HitRefused env w.disk e) w := by
  have hinv := h.inv.inv
  unfold dedupEntryMatchesPayload
  rw [wp_ite]
  refine ⟨fun _ => ⟨StoreRead.refl h.index h.data, by simp⟩, fun hlen => ?_⟩
  rw [not_not] at hlen
  -- no segment with the blob is found: the entry cannot be read back
  refine wp.bind (locateBlobSegmentId_spec h.data hinv.segs) ?_ ?_
  swap
  · rintro _ w1 ⟨hread, hbad⟩
    refine ⟨hread.storeRead h.index, hbad.imp_right fun hno => ?_⟩
    rintro ⟨seg, -, -, hloc, -⟩
    exact hno seg hloc
  rintro seg w1 ⟨hread, hloc⟩
  have hread1 := hread.storeRead h.index
  refine wp.bind (loadBlobByLocation_found hread1.index hread1.data
    (by rw [hread.disk]; exact hinv.segs)) ?_ ?_
  swap
  · rintro _ w2 ⟨hread2, hbad⟩
    refine ⟨hread1.trans hread2, ?_⟩
    rw [hread1.eff, hread.disk, h.inv.segments] at hbad
    refine hbad.imp_right fun hno => ?_
    rintro ⟨seg', b', p, hloc', hb', hid', -⟩
    have hseg : seg = seg' := hloc.eq_of_hasBlob hinv hloc'.mem_indexed hb' hid'
    subst hseg
    exact hno hloc.mem_indexed b' hb' hid'
  rintro b w2 ⟨hread2, hid, s, hs, hb⟩
  have hread2' := hread1.trans hread2
  rw [hread1.eff, h.inv.segments] at hs
  rw [hread.disk] at hb
  -- the fallback may have found it, but only one indexed segment has the id
  have hseg : seg = s := hloc.eq_of_hasBlob hinv hs hb hid
  subst hseg
  have hagree := hinv.agree e he seg hs b hb hid
  have hplace : ∀ candidate, decodeStored env.codecs b.codec b.bytes b.logicalLen =
      .ok candidate → candidate = payload → HoldsPayload env w.disk e payload := by
    rintro _ hdec rfl
    refine ⟨seg, hloc, b, hb, hid, hagree.codec, hagree.logicalLen.trans hlen, hagree.storedLen, ?_⟩
    rw [hagree.logicalLen, hlen, hagree.codec] at hdec
    exact hdec
  rw [wp_ite]
  refine ⟨fun _ => ⟨hread2', by simp⟩, fun _ => ?_⟩
  rw [wp_ite]
  refine ⟨fun hnone => ⟨hread2', fun hok => ?_⟩, fun hcodec => ?_⟩
  · grind [decodeStored]
  simp only [wp_bind, wp_ofExcept, wp_pure]
  refine ⟨fun candidate hdec => ⟨hread2', fun hok => ?_⟩, fun err hdec =>
    ⟨hread2', .inr ?_⟩⟩
  · exact hplace candidate (by rw [decodeStored_eq_decompress hcodec]; exact hdec)
      (by simpa using hok)
  rintro ⟨seg', b', p, hloc', hb', hid', hdec'⟩
  have hseg : seg' = seg := hloc'.eq_of_hasBlob hinv hs hb hid
  subst hseg
  have hbb := hinv.segs.eq_of_blobId_eq hb' hb (hid'.trans hid.symm)
  grind [decodeStored_eq_decompress]

/-! ## §3. Frames and failures of the store. -/

/-- Only the data segments, their index and the dedup log differ. -/
structure StoreOnly (d d' : Disk) : Prop where
  checkpoint : d'.checkpoint = d.checkpoint
  blkMap : d'.blkMap = d.blkMap
  lookup : d'.lookup = d.lookup
  reclaim : d'.reclaim = d.reclaim
  runtime : d'.runtime = d.runtime

theorem StoreOnly.refl (d : Disk) : StoreOnly d d := ⟨rfl, rfl, rfl, rfl, rfl⟩

theorem StoreOnly.trans {d1 d2 d3 : Disk} (h : StoreOnly d1 d2) (h' : StoreOnly d2 d3) :
    StoreOnly d1 d3 :=
  ⟨h'.checkpoint.trans h.checkpoint, h'.blkMap.trans h.blkMap, h'.lookup.trans h.lookup,
    h'.reclaim.trans h.reclaim, h'.runtime.trans h.runtime⟩

theorem SegsOnly.storeOnly {d d' : Disk} (h : SegsOnly d d') : StoreOnly d d' := by
  rw [h]
  exact ⟨rfl, rfl, rfl, rfl, rfl⟩

theorem SegsOnly.dedup {d d' : Disk} (h : SegsOnly d d') : d'.dedup = d.dedup := by
  rw [h]

/-- What is left of the store when an operation on it is cut: nothing is lost. -/
structure StoreCut (d d' : Disk) : Prop where
  only : StoreOnly d d'
  inv : StoreInv d'
  grow : SegsGrow d d'
  indexed : ∀ s ∈ d.indexed, s ∈ d'.indexed
  entries : ∀ e ∈ d.entries, ∃ e' ∈ d'.entries, e'.entryId = e.entryId

theorem StoreCut.refl (h : StoreInv d) : StoreCut d d :=
  ⟨.refl d, h, .refl d, fun _ hs => hs, fun e he => ⟨e, he, rfl⟩⟩

theorem StoreCut.trans {d1 d2 d3 : Disk} (h : StoreCut d1 d2) (h' : StoreCut d2 d3) :
    StoreCut d1 d3 where
  only := h.only.trans h'.only
  inv := h'.inv
  grow := h.grow.trans h'.grow
  indexed s hs := h'.indexed s (h.indexed s hs)
  entries e he := by
    obtain ⟨e2, he2, hid2⟩ := h.entries e he
    obtain ⟨e3, he3, hid3⟩ := h'.entries e2 he2
    exact ⟨e3, he3, hid3.trans hid2⟩

theorem NoTorn.subset {faults faults' : List Fault} (h : NoTorn faults)
    (hsub : faults' ⊆ faults) : NoTorn faults' := fun cut hmem => h cut (hsub hmem)

/-- A failed operation on the store: without torn writes nothing is lost, and without faults
there is a reason. -/
structure StoreFailed (w w' : World) (reason : Prop) : Prop where
  only : StoreOnly w.disk w'.disk
  cut : NoTorn w.faults → StoreCut w.disk w'.disk
  reason : w.faults = [] → reason

theorem StoreFailed.of_refused (hinv : StoreInv w.disk) (hdisk : w'.disk = w.disk) (hR : R) :
    StoreFailed w w' R :=
  ⟨hdisk ▸ .refl _, fun _ => by rw [hdisk]; exact .refl hinv, fun _ => hR⟩

theorem StoreFailed.imp {R R' : Prop} (h : StoreFailed w w' R) (hR : R → R') :
    StoreFailed w w' R' := ⟨h.only, h.cut, fun hnil => hR (h.reason hnil)⟩

theorem StoreFailed.after {R R' : Prop} (hcut : StoreCut w.disk w1.disk)
    (hfaults : w1.faults ⊆ w.faults) (h : StoreFailed w1 w' R) (hR : R → R') :
    StoreFailed w w' R' where
  only := hcut.only.trans h.only
  cut hno := hcut.trans (h.cut (hno.subset hfaults))
  reason hnil := hR (h.reason (subset_nil.mp (hnil ▸ hfaults)))

/-! ## §4. A new blob. -/

section

variable (env : Env) (opts : WriteOptions) (payload : Bytes)

/-- What a successful append leaves. -/
structure BlobPut (w w' : World) (payload : Bytes) (p : BlobPlace) : Prop where
  ready : StoreReady w'
  cut : StoreCut w.disk w'.disk
  dedup : w'.disk.dedup = w.disk.dedup
  mem : ∃ data c, w'.mem = { w.mem with data := data, segIndex := c }
  stored : StoredAt env w'.disk p payload.length payload
  indexed : p.segmentId ∈ w'.disk.indexed
  id : p.blobId = (effIndex w'.disk w'.mem).blobHighWater
  faults : w'.faults ⊆ w.faults

/-- The bytes a payload is stored as. -/
def encodedPayload : Bytes :=
  (compressPayload env.codecs opts.preferredCodec payload).2

/-- The limits the write path needs: a payload that is compressed can be decompressed. -/
def Decodable : Prop :=
  opts.preferredCodec = .none ∨ payload.length ≤ maxDecompressedPayloadLen

end

theorem compressPayload_small (c : Codecs) (codec : CompressionCodec) (payload : Bytes)
    (h : (compressPayload c codec payload).1 ≠ .none) :
    (compressPayload c codec payload).2.length < payload.length := by
  grind [compressPayload_cases]

variable {opts : WriteOptions} {payload : Bytes}

/-- **Storing a new blob.** -/
theorem storeBlob_spec (h : StoreReady w) (hlaw : env.codecs.Lawful)
    (hdec : Decodable opts payload) :
    wp (storeBlob env opts payload) (fun p w' => BlobPut env w w' payload p)
      (fun _ w' => StoreFailed w w'
        (BlobRefused w.disk (effIndex w.disk w.mem) (encodedPayload env opts payload))) w := by
  unfold storeBlob
  simp only [wp_bind, wp_check, wp_pure]
  refine ⟨fun hbig => .of_refused h.inv.inv rfl (.inr (.inr (.inr (.inr hbig)))), fun _ => ?_⟩
  have hsmall := compressPayload_small env.codecs opts.preferredCodec payload
  refine wp_then (appendDataBlob_spec h.appendOk) ?_ ?_
  · rintro _ w' ⟨honly, hfail⟩
    -- an append leaves the dedup log alone, so that every entry stays
    have hcut : AppendCut w.disk (effIndex w.disk w.mem) (newBlob
        ((effIndex w.disk w.mem).blobHighWater + 1)
        (compressPayload env.codecs opts.preferredCodec payload).1 payload.length
        (compressPayload env.codecs opts.preferredCodec payload).2) w'.disk →
        StoreCut w.disk w'.disk := by
      intro hcut
      obtain ⟨hinv, hgrow, hindexed⟩ := h.inv.cut hcut (newBlob_ok _ _ _ _) rfl hsmall
      have hentries : w'.disk.entries = w.disk.entries := by
        unfold Disk.entries
        rw [honly.dedup]
      refine ⟨honly.storeOnly, hinv, hgrow, hindexed, ?_⟩
      rw [hentries]
      exact fun e he => ⟨e, he, rfl⟩
    rcases hfail with ⟨hfault, hno⟩ | ⟨hc, hrefused⟩
    · exact ⟨honly.storeOnly, fun h => hcut (hno h), fun hnil => absurd hnil hfault⟩
    · exact ⟨honly.storeOnly, fun _ => hcut hc, fun _ => hrefused⟩
  rintro ⟨seq, blobId⟩ w' happ
  obtain ⟨hinv, hgrow, hindexed, hseq, hblob, hwater⟩ :=
    h.inv.stored happ.stored (newBlob_ok _ _ _ _) happ.id hsmall
  have hentries : w'.disk.entries = w.disk.entries := by
    unfold Disk.entries
    rw [happ.segsOnly.dedup]
  obtain ⟨data, c, hmem, hdirty⟩ := happ.mem
  have hcoh : Coherent dedupSlot w'.disk w'.mem := by
    intro c' hc'
    rw [hmem] at hc'
    have := h.dedup c' hc'
    change CacheOk dedupLog w'.disk.dedup c'
    rw [happ.segsOnly.dedup]
    exact this
  refine ⟨⟨hinv, ?_, happ.data, hcoh⟩, ⟨happ.segsOnly.storeOnly, hinv.inv, hgrow, hindexed, ?_⟩,
    happ.segsOnly.dedup, ⟨data, some c, hmem⟩, ⟨_, hblob, rfl, rfl, rfl, rfl, ?_⟩, hseq,
    hwater.symm, happ.faults⟩
  · intro c' hc' hclean
    grind
  · rw [hentries]
    exact fun e he => ⟨e, he, rfl⟩
  · exact decodeStored_compressPayload hlaw _ _ hdec

/-! ## §5. One dedup entry put. -/

/-- The entry agrees with whatever blob it names. -/
def EntryAgrees (d : Disk) (e : DedupIndexEntry) : Prop :=
  ∀ s ∈ d.indexed, ∀ b, d.HasBlob s b → b.blobId = e.storedBlobId → e.Agrees b

/-- So does an entry that says the same about the blob. -/
theorem EntryAgrees.congr {e e' : DedupIndexEntry} (h : EntryAgrees d e)
    (hblob : e'.storedBlobId = e.storedBlobId) (hcodec : e'.compression = e.compression)
    (hlen : e'.logicalLen = e.logicalLen) (hstored : e'.storedLen = e.storedLen) :
    EntryAgrees d e' := by
  intro s hs b hb hid
  obtain ⟨h1, h2, h3⟩ := h s hs b hb (hid.trans hblob)
  exact ⟨h1.trans hcodec.symm, h2.trans hlen.symm, h3.trans hstored.symm⟩

variable {f : LogFile DedupIndexEntry} {asked : DedupIndexEntry}

/-- The dedup log changes, the entries stay in order. -/
theorem StoreInv.setDedup (h : StoreInv d)
    (hok : ∀ e ∈ f.table dedupLog, 0 < e.entryId ∧ EntryAgrees d e) (hsound : f.Sound dedupLog) :
    StoreInv (dedupSlot.setFile d f) where
  segs := h.segs
  tails := h.tails
  compressed := h.compressed
  files := h.files
  bound := h.bound
  ordered := h.ordered
  index := h.index.congr (fun _ _ _ hb => hb)
  agree e he := (hok e he).2
  entryPos e he := (hok e he).1
  dedup := hsound

theorem StoreCut.setDedup (h : StoreInv d)
    (hok : ∀ e ∈ f.table dedupLog, 0 < e.entryId ∧ EntryAgrees d e) (hsound : f.Sound dedupLog)
    (hkept : ∀ e ∈ d.entries, ∃ e' ∈ f.table dedupLog, e'.entryId = e.entryId) :
    StoreCut d (dedupSlot.setFile d f) :=
  ⟨⟨rfl, rfl, rfl, rfl, rfl⟩, h.setDedup hok hsound, fun _ _ hb => hb, fun _ hs => hs, hkept⟩

/-- Putting one entry that agrees with its blob loses nothing. -/
theorem StoreCut.putEntry (h : StoreInv d) (hpos : 0 < e.entryId) (hagree : EntryAgrees d e)
    (hholds : Holds dedupLog d.dedup [e] f) : StoreCut d (dedupSlot.setFile d f) := by
  refine .setDedup h (fun x hx => ?_) (hholds.sound h.dedup) (fun x hx => ?_)
  · rcases hholds.mem_iff_single.mp hx with rfl | ⟨hx, -⟩
    · exact ⟨hpos, hagree⟩
    · exact ⟨h.entryPos x hx, h.agree x hx⟩
  · by_cases hid : e.entryId = x.entryId
    · exact ⟨e, hholds.mem_iff_single.mpr (.inl rfl), hid⟩
    · exact ⟨x, hholds.mem_iff_single.mpr (.inr ⟨hx, hid⟩), rfl⟩

theorem DedupChange.ok (h : StoreInv d) (hchange : DedupChange d.entries asked e)
    (hasked : EntryAgrees d asked) : 0 < e.entryId ∧ EntryAgrees d e := by
  cases hchange with
  | bumped x hmem _ _ =>
    exact ⟨h.entryPos x hmem, EntryAgrees.congr (h.agree x hmem) rfl rfl rfl rfl⟩
  | new id hpos _ => exact ⟨hpos, hasked.congr rfl rfl rfl rfl⟩

theorem StoreFailed.of_dedup (h : StoreInv w.disk) (hasked : EntryAgrees w.disk asked)
    (hfail : DedupStopped asked w w') : StoreFailed w w' (DedupRefused w.disk.dedup) := by
  rcases hfail with ⟨e, hchange, hint⟩ | ⟨hdisk, hrefused⟩
  swap
  · exact .of_refused h hdisk hrefused
  obtain ⟨hpos, hagree⟩ := hchange.ok h hasked
  obtain ⟨f', hdisk, hholds⟩ := hint.disk
  refine ⟨by rw [hdisk]; exact ⟨rfl, rfl, rfl, rfl, rfl⟩, fun hno => ?_,
    fun hnil => absurd hnil hint.fault⟩
  rw [hdisk]
  rcases hholds hno with hnone | hput
  · have hmem : ∀ x, x ∈ f'.table dedupLog ↔ x ∈ w.disk.entries :=
      fun x => hnone.table_nil.mem_iff
    exact .setDedup h (fun x hx => ⟨h.entryPos x ((hmem x).mp hx), h.agree x ((hmem x).mp hx)⟩)
      (hnone.sound h.dedup) (fun x hx => ⟨x, (hmem x).mpr hx, rfl⟩)
  · exact .putEntry h hpos hagree hput

/-- What a successful change of one entry leaves. -/
structure EntryPut (w w' : World) (e : DedupIndexEntry) : Prop where
  ready : StoreReady w'
  cut : StoreCut w.disk w'.disk
  segs : w'.disk.segs = w.disk.segs
  segIndex : w'.disk.segIndex = w.disk.segIndex
  mem : ∃ c, w'.mem = { w.mem with dedup := c }
  entries : ∀ x, x ∈ w'.disk.entries ↔ x = e ∨ (x ∈ w.disk.entries ∧ e.entryId ≠ x.entryId)
  faults : w'.faults ⊆ w.faults

theorem EntryPut.of_dedupPut (h : StoreReady w) (hpos : 0 < e.entryId)
    (hagree : EntryAgrees w.disk e) (hcov : e.storedBlobId ≤ (effIndex w.disk w.mem).blobHighWater)
    (hput : DedupPut env w w' [e]) : EntryPut w w' e := by
  obtain ⟨f', c', hslot, hholds⟩ := hput
  have hcut := StoreCut.putEntry h.inv.inv hpos hagree hholds
  have hcoh := hslot.ready.coherent
  have hfaults := hslot.faults
  have hdisk := hslot.disk
  have hmem : w'.mem = { w.mem with dedup := some c' } := hslot.mem
  have hinv := h.inv
  obtain ⟨ticks, faults, rfl⟩ := w'.parts hdisk hmem
  refine ⟨⟨⟨hcut.inv, hinv.index.congr (fun _ _ _ hb => hb), hinv.shape, hinv.next, hinv.below,
    hinv.covers.blobs, fun x hx => ?_, hinv.covers.records⟩, h.index, h.data, hcoh⟩, hcut, rfl, rfl,
    ⟨some c', rfl⟩, fun _ => hholds.mem_iff_single, hfaults⟩
  rcases hholds.mem_iff_single.mp hx with rfl | ⟨hx, -⟩
  · exact hcov
  · exact hinv.covers.entries x hx

/-- **Upserting an entry** over the store. -/
theorem upsertDedupEntry_store (h : StoreReady w) (hasked : EntryAgrees w.disk asked)
    (hcov : asked.storedBlobId ≤ (effIndex w.disk w.mem).blobHighWater) :
    wp (upsertDedupEntry env asked)
      (fun res w' => ∃ e, EntryPut w w' e ∧ UpsertReports w.disk.entries asked e res)
      (fun _ w' => StoreFailed w w' (DedupRefused w.disk.dedup)) w := by
  refine wp_mono (upsertDedupEntry_spec h.dedup) ?_
    (fun _ w' hfail => .of_dedup h.inv.inv hasked hfail)
  rintro res w' ⟨e, hput, hrep⟩
  refine ⟨e, ?_, hrep⟩
  cases res with
  | hit e' =>
    obtain ⟨-, x, hx, -, rfl⟩ := hrep
    exact .of_dedupPut h (h.inv.inv.entryPos x hx.mem)
      (EntryAgrees.congr (h.inv.inv.agree x hx.mem) rfl rfl rfl rfl)
      (h.inv.covers.entries x hx.mem) hput
  | inserted | collisionInserted =>
    obtain ⟨-, -, id, rfl, hpos, -⟩ := hrep
    exact .of_dedupPut h hpos (hasked.congr rfl rfl rfl rfl) hcov hput

theorem insertDedupCollisionEntry_store (h : StoreReady w) (hasked : EntryAgrees w.disk asked)
    (hcov : asked.storedBlobId ≤ (effIndex w.disk w.mem).blobHighWater) :
    wp (insertDedupCollisionEntry env asked)
      (fun e w' => EntryPut w w' e ∧ ∃ id, e = { asked with entryId := id } ∧ 0 < id ∧
        ∀ x ∈ w.disk.entries, x.entryId < id)
      (fun _ w' => StoreFailed w w' (DedupRefused w.disk.dedup)) w := by
  refine wp_mono (insertDedupCollisionEntry_spec h.dedup) ?_
    (fun _ w' hfail => .of_dedup h.inv.inv hasked hfail)
  rintro e w' ⟨hput, id, rfl, hpos, hfresh⟩
  exact ⟨.of_dedupPut h hpos (hasked.congr rfl rfl rfl rfl) hcov hput, id, rfl, hpos, hfresh⟩

/-! ## §6. The dedup stage of a write. -/

/-- The entries after a write: the entry `id` has one more reference, or is new with one. -/
structure EntryRefs (old new : List DedupIndexEntry) (id : Nat) : Prop where
  kept : ∀ e ∈ old, ∃ e' ∈ new, e'.entryId = e.entryId
  counts : ∀ e' ∈ new, (∃ e ∈ old, e.entryId = e'.entryId ∧
      e'.refCount = e.refCount + (if e'.entryId = id then 1 else 0)) ∨
    (e'.entryId = id ∧ e'.refCount = 1 ∧ ∀ e ∈ old, e.entryId ≠ id)
  found : 0 < id → ∃ e' ∈ new, e'.entryId = id

/-- What the dedup stage leaves. -/
structure PayloadPut (env : Env) (w w' : World) (payload : Bytes) (s : StoredPayload) : Prop where
  ready : StoreReady w'
  cut : StoreCut w.disk w'.disk
  mem : ∃ data c e, w'.mem = { w.mem with data := data, segIndex := c, dedup := e }
  stored : StoredAt env w'.disk s.place payload.length payload
  indexed : s.place.segmentId ∈ w'.disk.indexed
  below : s.place.blobId ≤ (effIndex w'.disk w'.mem).blobHighWater
  refs : EntryRefs w.disk.entries w'.disk.entries s.dedupEntryId
  faults : w'.faults ⊆ w.faults

/-- The identity under which a payload is looked up. -/
def identityOf (env : Env) (opts : WriteOptions) (payload : Bytes) : Nat × Nat × Nat × Nat :=
  ((env.fingerprint128 payload).1, (env.fingerprint128 payload).2,
    identityChecksum opts payload, payload.length)

/-- A hit that is not verified would pass. -/
def HitsMatch (env : Env) (d : Disk) (opts : WriteOptions) (payload : Bytes) : Prop :=
  opts.dedupEnabled = true → ∀ e, Newest d.entries (identityOf env opts payload) e →
      shouldVerifyDedupHit env e = false →
    HoldsPayload env d e payload

theorem HitsMatch.of_verify (h : env.verifyDedupHits = true) (d : Disk) (opts : WriteOptions)
    (payload : Bytes) : HitsMatch env d opts payload := by
  intro _ e _ hno
  simp [shouldVerifyDedupHit, h] at hno

/-- Why the dedup stage fails without a fault: a limit is reached, or the payload's entry names
a blob that is gone. -/
def StoreRefused (env : Env) (w : World) (opts : WriteOptions) (payload : Bytes) : Prop :=
  BlobRefused w.disk (effIndex w.disk w.mem) (encodedPayload env opts payload) ∨
    opts.dedupEnabled = true ∧ (DedupRefused w.disk.dedup ∨
      ∃ e, Newest w.disk.entries (identityOf env opts payload) e ∧ HitRefused env w.disk e)

theorem EntryRefs.bumped (he : e ∈ old)
    (hnew : ∀ x, x ∈ new ↔ x = e.bump asked ∨ (x ∈ old ∧ (e.bump asked).entryId ≠ x.entryId)) :
    EntryRefs old new e.entryId where
  kept x hx := by
    grind
  counts x hx := by
    left
    rcases (hnew x).mp hx with rfl | ⟨hx, hne⟩
    · refine ⟨e, he, rfl, ?_⟩
      rw [if_pos (show (e.bump asked).entryId = e.entryId from rfl)]
      rfl
    · exact ⟨x, hx, rfl, by rw [if_neg (fun h => hne h.symm)]; rfl⟩
  found _ := ⟨_, (hnew _).mpr (.inl rfl), rfl⟩

theorem EntryRefs.inserted (hone : e.refCount = 1) (hfresh : ∀ x ∈ old, x.entryId < e.entryId)
    (hnew : ∀ x, x ∈ new ↔ x = e ∨ (x ∈ old ∧ e.entryId ≠ x.entryId)) :
    EntryRefs old new e.entryId where
  kept x hx := ⟨x, (hnew _).mpr (.inr ⟨hx, (hfresh x hx).ne'⟩), rfl⟩
  counts x hx := by
    grind
  found _ := ⟨_, (hnew _).mpr (.inl rfl), rfl⟩

theorem EntryRefs.unchanged (hpos : ∀ e ∈ old, 0 < e.entryId) : EntryRefs old old 0 where
  kept x hx := ⟨x, hx, rfl⟩
  counts x hx := .inl ⟨x, hx, rfl, by rw [if_neg (hpos x hx).ne']; rfl⟩
  found h := absurd h (lt_irrefl 0)

/-- **Locating the blob of an entry that holds the payload.** -/
theorem placeOfEntry_spec (h : StoreReady w) (hold : HoldsPayload env w.disk e payload) :
    wp (placeOfEntry env e)
      (fun p w' => StoreRead w w' ∧ p.segmentId ∈ w.disk.indexed ∧ p.blobId = e.storedBlobId ∧
        StoredAt env w.disk p payload.length payload)
      (fun _ w' => StoreRead w w' ∧ ¬ w.disk.segIndex.index.Loadable) w := by
  obtain ⟨seg, hloc, hstored⟩ := hold
  obtain ⟨b, hb, hid, -⟩ := hstored.exists_blob
  refine wp.bind (locateBlobSegmentId_spec h.data h.inv.inv.segs) ?_ ?_
  · rintro seg' w' ⟨hread, hloc'⟩
    have hseg : seg' = seg := hloc'.eq_of_hasBlob h.inv.inv hloc.mem_indexed hb hid
    subst hseg
    exact ⟨hread.storeRead h.index, hloc.mem_indexed, rfl, hstored⟩
  · rintro _ w' ⟨hread, hbad⟩
    exact ⟨hread.storeRead h.index, hbad.resolve_right (fun hno => hno seg hloc)⟩

/-- **A hit that holds the payload**: one more reference, no new blob. -/
theorem storeHit_spec (h : StoreReady w) (hnew : Newest w.disk.entries key e)
    (hold : HoldsPayload env w.disk e payload) :
    wp (storeHit env e) (fun s w' => PayloadPut env w w' payload s) (fun _ w' => StoreFailed w w'
        (DedupRefused w.disk.dedup ∨ ¬ w.disk.segIndex.index.Loadable)) w := by
  have hasked : EntryAgrees w.disk { e with
      entryId := 0, identityVersion := dedupIdentityBlake3, refCount := 1 } :=
    EntryAgrees.congr (h.inv.inv.agree e hnew.mem) rfl rfl rfl rfl
  refine wp.bind (upsertDedupEntry_store h hasked (h.inv.covers.entries e hnew.mem)) ?_
    fun _ _ hfail => hfail.imp .inl
  rintro res w1 ⟨e1, hput, hrep⟩
  -- the upsert finds the same entry
  have he1 : e1 = e.bump { e with
      entryId := 0, identityVersion := dedupIdentityBlake3, refCount := 1 } := by
    cases res with
    | hit e' =>
      obtain ⟨-, x, hx, -, rfl⟩ := hrep
      have hkey : Newest w.disk.entries key x := by
        refine ⟨hx.mem, hx.identity.trans hnew.identity, fun y hy hykey => ?_⟩
        exact hx.newest y hy (hykey.trans hnew.identity.symm)
      rw [hkey.unique hnew (LogFile.table_nodup (k := dedupLog) w.disk.dedup)]
    | inserted | collisionInserted => exact absurd rfl (hrep.2.1 e hnew.mem)
  subst he1
  have hrefs := EntryRefs.bumped hnew.mem hput.entries
  have hold1 : HoldsPayload env w1.disk e payload := by
    obtain ⟨seg, hloc, hstored⟩ := hold
    refine ⟨seg, ?_, hstored.mono hput.cut.grow⟩
    unfold BlobLocated Disk.indexed Disk.HasBlob at hloc ⊢
    rw [hput.segs, hput.segIndex]
    exact hloc
  refine wp.bind (placeOfEntry_spec hput.ready hold1) ?_ ?_
  swap
  · rintro _ w2 ⟨hread, hbad⟩
    refine .after hput.cut hput.faults (R := ¬ w1.disk.segIndex.index.Loadable)
      (.of_refused hput.ready.inv.inv hread.disk hbad) (fun hbad => .inr ?_)
    rw [hput.segIndex] at hbad
    exact hbad
  rintro p w2 ⟨hread, hseg, hid, hstored⟩
  obtain ⟨c, hmem1⟩ := hput.mem
  obtain ⟨data, ci, hmem2⟩ := hread.mem
  refine ⟨hput.ready.read hread, by rw [hread.disk]; exact hput.cut,
    ⟨data, ci, c, by rw [hmem2, hmem1]⟩, by rw [hread.disk]; exact hstored,
    by rw [hread.disk]; exact hseg, ?_, by rw [hread.disk]; exact hrefs,
    by rw [hread.faults]; exact hput.faults⟩
  rw [hread.eff, hid]
  have hcov := hput.ready.inv.covers.entries _ ((hput.entries _).mpr (.inl rfl))
  exact hcov

/-- A blob just stored agrees with the entry made for it. -/
theorem BlobPut.asked_agrees (h : BlobPut env w w' payload p) (opts : WriteOptions)
    (fp : Nat × Nat) : EntryAgrees w'.disk (askedEntry opts fp payload p) := by
  intro s hs b hb hid
  obtain ⟨b', hb', hid', hcodec, hlen, hstored, -⟩ := h.stored.exists_blob
  have hinv := h.ready.inv.inv
  have hss : s = p.segmentId := hinv.unique hs h.indexed hb hb' (hid.trans hid'.symm)
  subst hss
  have hbb := hinv.segs.eq_of_blobId_eq hb hb' (hid.trans hid'.symm)
  subst hbb
  exact ⟨hcodec, hlen, hstored⟩

theorem BlobPut.payloadPut (h : BlobPut env w w1 payload p) (hput : EntryPut w1 w' e)
    (hrefs : EntryRefs w.disk.entries w'.disk.entries e.entryId) (hit collision : Bool) :
    PayloadPut env w w' payload ⟨e.entryId, p, hit, collision⟩ := by
  obtain ⟨data, c, hmem1⟩ := h.mem
  obtain ⟨ec, hmem2⟩ := hput.mem
  refine ⟨hput.ready, h.cut.trans hput.cut, ⟨data, c, ec, by rw [hmem2, hmem1]⟩,
    h.stored.mono hput.cut.grow, hput.cut.indexed _ h.indexed, ?_, hrefs,
    Subset.trans hput.faults h.faults⟩
  have heff : effIndex w'.disk w'.mem = effIndex w1.disk w1.mem := by
    unfold effIndex
    rw [hput.segIndex, hmem2]
  rw [heff]
  exact h.id.le

theorem BlobPut.entries (h : BlobPut env w w' payload p) : w'.disk.entries = w.disk.entries := by
  unfold Disk.entries
  rw [h.dedup]

theorem BlobPut.inserted (h : BlobPut env w w1 payload p) (hput : EntryPut w1 w' e) {fp : Nat × Nat}
    (hnew : ∃ id, e = { askedEntry opts fp payload p with entryId := id } ∧ 0 < id ∧
      ∀ x ∈ w1.disk.entries, x.entryId < id)
    (hit collision : Bool) : PayloadPut env w w' payload ⟨e.entryId, p, hit, collision⟩ := by
  obtain ⟨id, he, -, hfresh⟩ := hnew
  refine h.payloadPut hput ?_ _ _
  rw [← h.entries]
  refine EntryRefs.inserted (by rw [he]; rfl) (fun x hx => ?_) hput.entries
  rw [he]
  exact hfresh x hx

section

variable (h : StoreReady w) (hlaw : env.codecs.Lawful) (hdec : Decodable opts payload)
include h hlaw hdec

/-- **A false hit**: the payload gets a blob and an entry of its own. -/
theorem storeFalseHit_spec (fp : Nat × Nat) :
    wp (storeFalseHit env opts fp payload) (fun s w' => PayloadPut env w w' payload s)
      (fun _ w' => StoreFailed w w'
        (BlobRefused w.disk (effIndex w.disk w.mem) (encodedPayload env opts payload) ∨
          DedupRefused w.disk.dedup)) w := by
  refine wp.bind (storeBlob_spec h hlaw hdec) ?_ fun _ _ hfail => hfail.imp .inl
  rintro p w1 hblob
  refine wp.bind (insertDedupCollisionEntry_store hblob.ready (hblob.asked_agrees opts fp)
    hblob.id.le) ?_ ?_
  · rintro e w2 ⟨hput, hnew⟩
    exact hblob.inserted hput hnew _ _
  · rintro _ w2 hfail
    rw [hblob.dedup] at hfail
    exact .after hblob.cut hblob.faults hfail .inr

/-- **No entry of this identity**: a new blob with a new entry. -/
theorem storeMiss_spec
    (hnone : ∀ e ∈ w.disk.entries, e.identityKey ≠ identityOf env opts payload) (collision : Bool) :
    wp (storeMiss env opts (env.fingerprint128 payload) payload collision)
      (fun s w' => PayloadPut env w w' payload s) (fun _ w' => StoreFailed w w'
        (BlobRefused w.disk (effIndex w.disk w.mem) (encodedPayload env opts payload) ∨
          DedupRefused w.disk.dedup)) w := by
  refine wp.bind (storeBlob_spec h hlaw hdec) ?_ fun _ _ hfail => hfail.imp .inl
  rintro p w1 hblob
  refine wp.bind (upsertDedupEntry_store hblob.ready (hblob.asked_agrees opts _) hblob.id.le) ?_ ?_
  swap
  · rintro _ w2 hfail
    rw [hblob.dedup] at hfail
    exact .after hblob.cut hblob.faults hfail .inr
  rintro res w2 ⟨e, hput, hrep⟩
  cases res with
  | hit e' =>
    obtain ⟨-, x, hx, -⟩ := hrep
    rw [hblob.entries] at hx
    exact absurd hx.identity (hnone x hx.mem)
  | inserted | collisionInserted =>
    obtain ⟨rfl, -, hins⟩ := hrep
    exact hblob.inserted hput hins _ _

section

omit h hlaw hdec

/-- The caches of the dedup log do not matter to the rest. -/
theorem StoreReady.setDedupCache (h : StoreReady w)
    (hready : Ready env dedupSlot w.disk (dedupSlot.setCache w.mem (some c)) c) :
    StoreReady (w.withCache dedupSlot c) :=
  ⟨h.inv, h.index, h.data, hready.coherent⟩

theorem acceptHit_spec (h : StoreReady w)
    (hnew : Newest w.disk.entries (identityOf env opts payload) e) (hen : opts.dedupEnabled = true)
    (hmatch : HitsMatch env w.disk opts payload) :
    wp (acceptHit env e payload)
      (fun ok w' => StoreRead w w' ∧ (ok = true → HoldsPayload env w.disk e payload))
      (fun _ w' => StoreRead w w' ∧ HitRefused env w.disk e) w := by
  unfold acceptHit
  rw [wp_ite]
  refine ⟨fun _ => dedupEntryMatchesPayload_spec h hnew.mem payload, fun hno => ?_⟩
  exact ⟨StoreRead.refl h.index h.data, fun _ => hmatch hen e hnew (by simpa using hno)⟩

/-- What the caches hold at the start does not matter. -/
theorem PayloadPut.of_caches {s : StoredPayload} (h : PayloadPut env w1 w' payload s)
    (hdisk : w1.disk = w.disk) (hfaults : w1.faults = w.faults)
    (hmem : ∃ data c e, w1.mem = { w.mem with data := data, segIndex := c, dedup := e }) :
    PayloadPut env w w' payload s := by
  obtain ⟨data1, c1, e1, hmem1⟩ := hmem
  obtain ⟨data, c, e, hmem⟩ := h.mem
  exact ⟨h.ready, hdisk ▸ h.cut, ⟨data, c, e, by rw [hmem, hmem1]⟩, h.stored, h.indexed, h.below,
    hdisk ▸ h.refs, hfaults ▸ h.faults⟩

end

/-- **The dedup stage of a write**: the payload is stored at the place handed on. -/
theorem storePayload_spec (hmatch : HitsMatch env w.disk opts payload) :
    wp (storePayload env opts payload) (fun s w' => PayloadPut env w w' payload s)
      (fun _ w' => StoreFailed w w' (StoreRefused env w opts payload)) w := by
  unfold storePayload
  simp only [wp_bind, wp_get]
  rw [wp_ite]
  refine ⟨fun hen => ?_, fun _ => ?_⟩
  swap
  · simp only [wp_bind, wp_pure]
    refine wp_mono (storeBlob_spec h hlaw hdec) ?_ fun _ _ hfail => hfail.imp .inl
    rintro p w' hblob
    obtain ⟨data, c, hmem⟩ := hblob.mem
    refine ⟨hblob.ready, hblob.cut, ⟨data, c, w.mem.dedup, hmem⟩, hblob.stored, hblob.indexed,
      hblob.id.le, ?_, hblob.faults⟩
    rw [hblob.entries]
    exact .unchanged h.inv.inv.entryPos
  simp only [wp_bind]
  refine wp_then (lookupIdentity_spec h.dedup) ?_ ?_
  · rintro _ w1 ⟨rfl, hbad⟩
    exact .of_refused h.inv.inv rfl (.inr ⟨hen.1, .inl (.inl hbad)⟩)
  rintro found w1 ⟨c, rfl, hready, hhit, hnone⟩
  have h1 := h.setDedupCache hready
  -- a failure from here on is one from the start: only the dedup cache differs
  have hback : ∀ {w' : World} {R : Prop}, (R → StoreRefused env w opts payload) →
      StoreFailed (w.withCache dedupSlot c) w' R →
      StoreFailed w w' (StoreRefused env w opts payload) :=
    fun hR hfail => ⟨hfail.only, hfail.cut, fun hnil => hR (hfail.reason hnil)⟩
  have hmiss : ∀ {collision : Bool}, (∀ e ∈ w.disk.entries,
      e.identityKey ≠ identityOf env opts payload) →
      wp (storeMiss env opts (env.fingerprint128 payload) payload collision)
        (fun s w' => PayloadPut env w w' payload s)
        (fun _ w' => StoreFailed w w' (StoreRefused env w opts payload))
        (w.withCache dedupSlot c) := by
    intro collision hnone
    refine wp_mono (storeMiss_spec h1 hlaw hdec hnone collision)
      (fun _ _ hput => hput.of_caches rfl rfl ⟨_, _, _, rfl⟩) (fun _ _ hfail => hback ?_ hfail)
    exact fun hR => hR.elim .inl (fun hd => .inr ⟨hen.1, .inl hd⟩)
  split
  next e =>
    have hnew := hhit e rfl
    refine wp.bind (acceptHit_spec h1 hnew hen.1 hmatch) ?_ ?_
    swap
    · rintro _ w2 ⟨hread, hbad⟩
      exact .of_refused h.inv.inv hread.disk (.inr ⟨hen.1, .inr ⟨e, hnew, hbad⟩⟩)
    rintro ok w2 ⟨hread, hok⟩
    have h2 := h1.read hread
    have hcut2 : StoreCut w.disk w2.disk := by
      rw [hread.disk]
      exact .refl h.inv.inv
    have hback2 : ∀ {w' : World} {s : StoredPayload}, PayloadPut env w2 w' payload s →
        PayloadPut env w w' payload s := by
      intro w' s hput
      obtain ⟨data, ci, hmem⟩ := hread.mem
      exact hput.of_caches hread.disk hread.faults ⟨data, ci, some c, hmem⟩
    have hfaults2 : w2.faults ⊆ w.faults := by
      rw [hread.faults]
      exact Subset.refl _
    rw [wp_ite]
    refine ⟨fun htrue => ?_, fun _ => ?_⟩
    swap
    · refine wp_mono (storeFalseHit_spec h2 hlaw hdec _) (fun _ _ hput => hback2 hput) ?_
      rintro _ w3 hfail
      refine .after hcut2 hfaults2 hfail ?_
      rw [hread.eff, hread.disk]
      rintro (hb | hd)
      · exact .inl hb
      · exact .inr ⟨hen.1, .inl hd⟩
    have hnew2 := hnew
    have hhold2 := hok htrue
    rw [← hread.disk] at hnew2 hhold2
    refine wp_mono (storeHit_spec h2 hnew2 hhold2) (fun _ _ hput => hback2 hput) ?_
    rintro _ w3 hfail
    refine .after hcut2 hfaults2 hfail ?_
    rw [hread.disk]
    rintro (hd | hi)
    · exact .inr ⟨hen.1, .inl hd⟩
    · exact .inl (.inl hi)
  next => exact hmiss (hnone (by simp))
  next => exact hmiss (hnone (by simp))

end

end Holo.Storage
