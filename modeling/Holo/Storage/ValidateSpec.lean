/-
Holo.Storage.ValidateSpec — what recovery checks before it changes anything.

`validate_active_blob_references_for_recovery` scans every segment that an active record
names and reads every blob that is named.  On a disk that keeps its invariant the checks on
blobs and records all pass, so that the only thing left that can stop it is the number of
blob headers it scans.

Main results:
* `validateBlob_spec`: a blob that active records name passes;
* `validateActiveBlobReferences_spec`: the scan succeeds exactly within its header budget.
-/
import Mathlib.Algebra.BigOperators.Group.List.Basic
import Holo.Storage.Recovery
import Holo.Storage.UnmapSpec

namespace Holo.Storage

open Lib Program List

variable {env : Env}

/-! ## §1. One blob. -/

variable {d : Disk} {seq : Nat} {f : LogFile DataBlob} {m : DataBlobMeta} {w : World}
  {active : List BlkMapRecord}

/-- A header of a scanned segment belongs to a blob of it. -/
theorem exists_hasBlob_of_scan (h : SegsOk d) (hf : d.segs.lookup seq = some f)
    (hm : m ∈ scanDataIndex f) :
    ∃ b offset, d.HasBlob seq b ∧ m = b.metaAt offset ∧
      readBlobPayload f m.payloadOffset m.storedLen = .ok b.bytes := by
  obtain ⟨b, hb, offset, hmeta, hread⟩ := readBlobPayload_scan (h seq f hf) hm
  exact ⟨b, offset, ⟨f, hf, hb⟩, hmeta, hread⟩

variable {p : Bytes} {b : DataBlob} {records : List BlkMapRecord}
  {resolved : List (Nat × BlkMapRecord)}

theorem Readable.blob (hsegs : SegsOk d) {r : BlkMapRecord} (h : Readable env d r p)
    (hb : d.HasBlob r.physicalSegmentId b) (hid : r.physicalOffset = b.blobId) :
    r.logicalLen = b.logicalLen ∧ r.compression = b.codec ∧ r.compressedLen = b.storedLen ∧
      decodeStored env.codecs b.codec b.bytes b.logicalLen = .ok p := by
  obtain ⟨b', hb', hid', hcodec, hlen, hstored, hdec⟩ := h.stored.exists_blob
  have heq : b' = b := hsegs.eq_of_blobId_eq hb' hb (hid'.trans hid)
  subst heq
  refine ⟨hlen.symm, hcodec.symm, hstored.symm, ?_⟩
  rw [hcodec, hlen]
  exact hdec

theorem checksumsDisagree_eq_false (hsegs : SegsOk d)
    (hrecords : ∀ r ∈ records, d.HasBlob r.physicalSegmentId b ∧ r.physicalOffset = b.blobId ∧
      ∃ q, Readable env d r q)
    (hdec : decodeStored env.codecs b.codec b.bytes b.logicalLen = .ok p) :
    checksumsDisagree records p = false := by
  unfold checksumsDisagree
  rw [any_eq_false]
  intro r hr
  obtain ⟨hb, hid, q, hq⟩ := hrecords r hr
  obtain ⟨-, -, -, hdec'⟩ := hq.blob hsegs hb hid
  rw [hdec] at hdec'
  rw [Except.ok.inj hdec', hq.checksum]
  simp

section

variable (hdata : DataCoherent w.disk w.mem) (hstore : StoreInv w.disk)
   (hf : w.disk.segs.lookup seq = some f)
include hdata hstore hf

/-- **The payload of a blob passes** for every active record that names it. -/
theorem validateActiveBlobPayload_spec (hm : m ∈ scanDataIndex f) (hne : records ≠ [])
    (hrecords : ∀ r ∈ records, r.physicalSegmentId = seq ∧ r.physicalOffset = m.blobId ∧
      ∃ p, Readable env w.disk r p) :
    wp (validateActiveBlobPayload env seq m records)
      (fun _ w' => DataRead w w') (fun _ _ => False) w := by
  have hsegs := hstore.segs
  obtain ⟨b, offset, hb, rfl, hread⟩ := exists_hasBlob_of_scan hsegs hf hm
  have hrec : ∀ r ∈ records, w.disk.HasBlob r.physicalSegmentId b ∧
      r.physicalOffset = b.blobId ∧ ∃ q, Readable env w.disk r q := by
    intro r hr
    obtain ⟨hseq, hid, hq⟩ := hrecords r hr
    rw [hseq]
    exact ⟨hb, hid, hq⟩
  obtain ⟨r, hr⟩ := exists_mem_of_ne_nil records hne
  obtain ⟨hbr, hidr, p, hp⟩ := hrec r hr
  obtain ⟨-, -, -, hdec⟩ := hp.blob hsegs hbr hidr
  have hsums := checksumsDisagree_eq_false hsegs hrec hdec
  have hok := hsegs.blobOk hb
  unfold validateActiveBlobPayload
  rw [wp_ite]
  refine ⟨fun hcomp => ?_, fun hraw => ?_⟩
  · -- a compressed blob is loaded and decompressed
    have hcomp : b.codec ≠ .none := hcomp
    rw [decodeStored_eq_decompress hcomp] at hdec
    obtain ⟨-, hmax⟩ := decompressPayload_length hdec
    have hsmall := hstore.compressed seq b hb hcomp
    simp only [wp_bind, wp_check]
    refine ⟨fun hbig => ?_, fun _ => ?_⟩
    · have hbig : b.storedLen > 16 * 1024 * 1024 := hbig
      unfold maxDecompressedPayloadLen at hmax
      omega
    refine wp_then (loadBlobById_spec hdata hsegs) ?_ ?_
    · rintro _ w' ⟨-, hnone⟩
      obtain ⟨f', hf', hb'⟩ := hb
      exact hnone f' hf' b hb' rfl
    rintro b' w' ⟨hrd, f', hf', hb', hid'⟩
    have heq : b' = b := hsegs.eq_of_blobId_eq ⟨f', hf', hb'⟩ hb hid'
    subst heq
    have hlen : (b'.metaAt offset).logicalLen = b'.logicalLen := rfl
    grind [wp_ofExcept]
  · -- the bytes of a raw blob are the payload
    have hraw : b.codec = .none := by simpa [DataBlob.metaAt] using hraw
    have hbytes : b.bytes.length = b.logicalLen ∧ b.bytes = p := by grind [decodeStored]
    simp only [wp_bind, wp_check, wp_get]
    refine ⟨fun hbad => hbad ?_, fun _ => ?_⟩
    · show b.storedLen = b.logicalLen
      rw [hok.storedLen]
      exact hbytes.1
    rw [hf]
    simp only [wp_bind, wp_ofExcept, hread, wp_check]
    refine ⟨fun bytes hb' => ?_, fun e he => absurd he (by simp)⟩
    obtain rfl := Except.ok.inj hb'
    refine ⟨fun hbad => hbad.2 hok.checksum.symm, fun _ => ?_⟩
    rw [hbytes.2, hsums]
    exact ⟨fun h => absurd h (by simp), fun _ => DataRead.refl hdata⟩

omit hdata hstore hf in
/-- The active records of one segment, as the scan of the segment sees them. -/
structure NamedIn (env : Env) (d : Disk) (seq : Nat) (active : List BlkMapRecord) : Prop where
  segment : ∀ r ∈ active, r.physicalSegmentId = seq
  readable : ∀ r ∈ active, ∃ p, Readable env d r p

/-- **One blob header passes.** -/
theorem validateBlob_spec (hactive : NamedIn env w.disk seq active) (hm : m ∈ scanDataIndex f) :
    wp (validateBlob env seq active m) (fun _ w' => DataRead w w') (fun _ _ => False) w := by
  unfold validateBlob
  rw [wp_ite]
  refine ⟨fun _ => DataRead.refl hdata, fun hne => ?_⟩
  have hmem : ∀ r ∈ active.filter (fun r => decide (r.physicalOffset = m.blobId)),
      r.physicalSegmentId = seq ∧ r.physicalOffset = m.blobId ∧ ∃ p, Readable env w.disk r p := by
    intro r hr
    obtain ⟨hr, hoffset⟩ := mem_filter.mp hr
    exact ⟨hactive.segment r hr, of_decide_eq_true hoffset, hactive.readable r hr⟩
  simp only [wp_bind, wp_check]
  refine ⟨fun hbad => ?_, fun _ =>
    validateActiveBlobPayload_spec hdata hstore hf hm hne hmem⟩
  obtain ⟨r, hr, hdis⟩ := any_eq_true.mp hbad
  obtain ⟨hseq, hid, p, hp⟩ := hmem r hr
  obtain ⟨b, offset, hb, rfl, -⟩ := exists_hasBlob_of_scan hstore.segs hf hm
  obtain ⟨hlen, hcodec, hstored, -⟩ := hp.blob hstore.segs (hseq ▸ hb) hid
  simp [DataBlob.metaAt, hlen, hcodec, hstored] at hdis

/-! ## §2. One segment. -/

section

omit hdata hstore hf

/-- The number of blobs in a segment. -/
def Disk.blobCount (d : Disk) (seq : Nat) : Nat :=
  match d.segs.lookup seq with
  | none => 0
  | some f => f.log.length

theorem length_scanLogDataIndex : ∀ (bs : List DataBlob) (offset : Nat),
    (scanLogDataIndex offset bs).length = bs.length
  | [], _ => rfl
  | b :: bs, offset => by
    rw [scanLogDataIndex, length_cons, length_cons, length_scanLogDataIndex bs]

end

theorem forEach_validateBlob_spec (hactive : NamedIn env w.disk seq active)
    (ms : List DataBlobMeta) (hms : ∀ m ∈ ms, m ∈ scanDataIndex f) :
    wp (forEach ms (validateBlob env seq active)) (fun _ w' => DataRead w w')
      (fun _ _ => False) w := by
  refine wp_mono (wp_forEach (fun rest w' => DataRead w w' ∧ ∀ m ∈ rest, m ∈ scanDataIndex f)
    ⟨DataRead.refl hdata, hms⟩ ?_) (fun _ _ h => h.1) (fun _ _ h => h)
  rintro m rest w' ⟨hread, hrest⟩
  have hactive' : NamedIn env w'.disk seq active := by
    rw [hread.disk]
    exact hactive
  refine wp_mono (validateBlob_spec hread.coherent (hread.disk ▸ hstore) (hread.disk ▸ hf) hactive'
    (hrest m mem_cons_self)) ?_ (fun _ _ h => h)
  rintro _ w'' hread'
  exact ⟨hread.trans hread', fun m hm => hrest m (mem_cons_of_mem _ hm)⟩

end

theorem named_offsets_found (hf : d.segs.lookup seq = some f) (hactive : NamedIn env d seq active) :
    ((((scanDataIndex f).map (·.blobId)).filter
      (fun id => decide (id ∈ active.map (·.physicalOffset)))).dedup).length =
        (active.map (·.physicalOffset)).dedup.length := by
  refine Perm.length_eq ?_
  rw [perm_ext_iff_of_nodup (nodup_dedup _) (nodup_dedup _)]
  intro id
  rw [mem_dedup, mem_dedup, mem_filter, decide_eq_true_eq]
  refine ⟨fun h => h.2, fun h => ⟨?_, h⟩⟩
  obtain ⟨r, hr, rfl⟩ := mem_map.mp h
  obtain ⟨p, hp⟩ := hactive.readable r hr
  obtain ⟨b, ⟨f', hf', hb⟩, hid, -⟩ := hp.stored.exists_blob
  have hseq : d.segs.lookup seq = some f' := by
    rw [← hactive.segment r hr]
    exact hf'
  rw [hf] at hseq
  cases hseq
  unfold scanDataIndex
  rw [map_blobId_scan]
  exact mem_map.mpr ⟨b, hb, hid⟩

/-- **One segment passes exactly if its headers fit the budget.** -/
theorem validateSegment_spec (hdata : DataCoherent w.disk w.mem) (hstore : StoreInv w.disk)
    (hactive : NamedIn env w.disk seq active) (hne : active ≠ []) (scanned : Nat) :
    wp (validateSegment env seq active scanned)
      (fun n w' => DataRead w w' ∧ n = scanned + w.disk.blobCount seq ∧ n ≤ maxRecoveryHeaders)
      (fun _ w' => DataRead w w' ∧ maxRecoveryHeaders < scanned + w.disk.blobCount seq) w := by
  -- the segment is there and is not empty: an active record names a blob of it
  obtain ⟨r, hr⟩ := exists_mem_of_ne_nil active hne
  obtain ⟨p, hp⟩ := hactive.readable r hr
  obtain ⟨b, ⟨f, hf, hb⟩, -⟩ := hp.stored.exists_blob
  have hf : w.disk.segs.lookup seq = some f := by
    rw [← hactive.segment r hr]
    exact hf
  have hcount : w.disk.blobCount seq = f.log.length := by
    unfold Disk.blobCount
    rw [hf]
  have hpos : 0 < f.log.length := length_pos_of_mem hb
  have hscan : (scanDataIndex f).length = f.log.length := length_scanLogDataIndex _ _
  unfold validateSegment
  simp only [wp_bind, wp_check, wp_get]
  refine ⟨fun hfull => ⟨DataRead.refl hdata, by omega⟩, fun hroom => ?_⟩
  rw [hf]
  simp only [wp_bind, wp_check]
  refine ⟨fun hbad => absurd (hstore.tails seq f hf) hbad, fun _ => ?_⟩
  refine ⟨fun hcut => ⟨DataRead.refl hdata, ?_⟩, fun hall => ?_⟩
  · rw [length_take] at hcut
    omega
  rw [length_take] at hall
  have htake : (scanDataIndex f).take (maxRecoveryHeaders - scanned) = scanDataIndex f :=
    take_of_length_le (by omega)
  rw [htake]
  refine wp_mono (forEach_validateBlob_spec hdata hstore hf hactive _ (fun _ h => h)) ?_
    (fun _ _ h => h.elim)
  rintro _ w' hread
  refine ⟨fun hbad => absurd (named_offsets_found hf hactive) hbad, fun _ => ⟨hread, ?_, ?_⟩⟩
  · rw [hcount, hscan]
  · rw [hscan]
    omega

/-! ## §3. All segments. -/

/-- The number of blobs in some segments. -/
def Disk.headerCount (d : Disk) (seqs : List Nat) : Nat := (seqs.map d.blobCount).sum

/-- The records looked for, each with its own segment. -/
structure Resolved (env : Env) (d : Disk) (resolved : List (Nat × BlkMapRecord)) : Prop where
  own : ∀ p ∈ resolved, p.2.physicalSegmentId = p.1
  readable : ∀ p ∈ resolved, ∃ q, Readable env d p.2 q

theorem Resolved.namedIn (h : Resolved env d resolved) (seq : Nat) :
    NamedIn env d seq ((resolved.filter (fun p => decide (p.1 = seq))).map (·.2)) := by
  have hmem : ∀ r ∈ (resolved.filter (fun p => decide (p.1 = seq))).map (·.2),
      ∃ p ∈ resolved, p.1 = seq ∧ p.2 = r := by simp
  refine ⟨fun r hr => ?_, fun r hr => ?_⟩
  · obtain ⟨p, hp, rfl, rfl⟩ := hmem r hr
    exact h.own p hp
  · obtain ⟨p, hp, -, rfl⟩ := hmem r hr
    exact h.readable p hp

/-- **The loop over the segments.** -/
theorem validateSegments_spec :
    ∀ (seqs : List Nat) (scanned : Nat) {w : World}, DataCoherent w.disk w.mem →
    StoreInv w.disk → Resolved env w.disk resolved → (∀ s ∈ seqs, s ∈ resolved.map (·.1)) →
    scanned ≤ maxRecoveryHeaders →
    wp (validateSegments env resolved seqs scanned)
      (fun _ w' => DataRead w w' ∧ scanned + w.disk.headerCount seqs ≤ maxRecoveryHeaders)
      (fun _ w' => DataRead w w' ∧ maxRecoveryHeaders < scanned + w.disk.headerCount seqs) w
  | [], scanned, w, hdata, _, _, _, hle =>
      ⟨DataRead.refl hdata, by simpa [Disk.headerCount] using hle⟩
  | seq :: seqs, scanned, w, hdata, hstore, hres, hseqs, _ => by
    have hcons : w.disk.headerCount (seq :: seqs) =
        w.disk.blobCount seq + w.disk.headerCount seqs := by rfl
    have hne : (resolved.filter (fun p => decide (p.1 = seq))).map (·.2) ≠ [] := by
      obtain ⟨p, hp, hp1⟩ := mem_map.mp (hseqs seq mem_cons_self)
      exact ne_nil_of_mem (mem_map.mpr ⟨p, mem_filter.mpr ⟨hp, by simpa using hp1⟩, rfl⟩)
    unfold validateSegments
    simp only [wp_bind]
    -- all segments count against one budget of headers
    refine wp_then (validateSegment_spec hdata hstore (hres.namedIn seq) hne scanned) ?_ ?_
    · rintro _ w1 ⟨hread, hlt⟩
      exact ⟨hread, by omega⟩
    rintro n w1 ⟨hread, rfl, hle⟩
    have hd := hread.disk
    refine wp_mono (validateSegments_spec seqs _ hread.coherent (hd ▸ hstore) (hd ▸ hres)
      (fun s hs => hseqs s (mem_cons_of_mem _ hs)) hle) ?_ ?_
    · rintro _ w2 ⟨hread2, hle2⟩
      rw [hd] at hle2
      exact ⟨hread.trans hread2, by omega⟩
    · rintro _ w2 ⟨hread2, hlt2⟩
      rw [hd] at hlt2
      exact ⟨hread.trans hread2, by omega⟩

/-- On a sound disk every active record is looked for in its own segment. -/
theorem resolveActiveRecords_eq {d : Disk} : ∀ (rs : List BlkMapRecord),
    (∀ r ∈ rs, r.physicalSegmentId ≤ u32Max ∧ ∃ f, d.segs.lookup r.physicalSegmentId = some f) →
    resolveActiveRecords d rs = .ok (rs.map fun r => (r.physicalSegmentId, r))
  | [], _ => rfl
  | r :: rs, h => by
    obtain ⟨hle, f, hf⟩ := h r mem_cons_self
    have hself : resolveActiveSegmentSeq d r.physicalSegmentId = .ok r.physicalSegmentId := by
      unfold resolveActiveSegmentSeq
      rw [if_pos (by rw [hf]; rfl)]
    unfold resolveActiveRecords
    rw [if_neg (by omega), hself,
      resolveActiveRecords_eq rs (fun x hx => h x (mem_cons_of_mem _ hx))]
    rfl

/-- The segments that active records name. -/
def Disk.referenced (d : Disk) : List Nat := (d.active.map (·.physicalSegmentId)).dedup

/-- The headers that recovery scans. -/
def Disk.recoveryHeaders (d : Disk) : Nat := d.headerCount d.referenced

/-- **The check before recovery succeeds exactly within its header budget.** -/
theorem validateActiveBlobReferences_spec (hdisk : DiskInv env w.disk) {c : CachedLog BlkMapRecord}
    (hready : Ready env blkMapSlot w.disk w.mem c) (hdata : DataCoherent w.disk w.mem) :
    wp (validateActiveBlobReferences env)
      (fun _ w' => DataRead w w' ∧ w.disk.recoveryHeaders ≤ maxRecoveryHeaders)
      (fun _ w' => DataRead w w' ∧ maxRecoveryHeaders < w.disk.recoveryHeaders) w := by
  set active := c.records.filter (·.isActive)
  have hactive : active.Perm w.disk.active := hready.ok.perm.filter _
  have hrec : ∀ r ∈ active, r ∈ w.disk.active := fun r hr => hactive.mem_iff.mp hr
  have hresolve := resolveActiveRecords_eq (d := w.disk) active
    (fun r hr => ⟨hdisk.store.bound _ (hdisk.indexed r (hrec r hr)),
      hdisk.store.files _ (hdisk.indexed r (hrec r hr))⟩)
  set resolved := active.map fun r => (r.physicalSegmentId, r)
  have hres : Resolved env w.disk resolved := by
    refine ⟨fun p hp => ?_, fun p hp => ?_⟩
    · obtain ⟨r, -, rfl⟩ := mem_map.mp hp
      rfl
    · obtain ⟨r, hr, rfl⟩ := mem_map.mp hp
      exact hdisk.readable r (hrec r hr)
  unfold validateActiveBlobReferences loadBlkMapRecords
  simp only [wp_bind, wp_get, wp_pure]
  rw [wp_iff_of_ok (ensureCacheFresh_of_ready hready), wp_ofExcept, hresolve]
  refine ⟨fun _ hok => ?_, fun e he => absurd he (by simp)⟩
  obtain rfl := Except.ok.inj hok
  have hfst : resolved.map (·.1) = active.map (·.physicalSegmentId) := map_map
  -- the source iterates over a hash set: the order of the segments is free
  have hperm : (sortByKey (env.hashRank w.ticks) (resolved.map (·.1)).dedup).Perm
      w.disk.referenced := by
    refine (sortByKey_perm _ _).trans ?_
    rw [hfst]
    exact (hactive.map _).dedup
  have hcount : w.disk.headerCount _ = w.disk.headerCount _ := (hperm.map _).sum_eq
  refine wp_mono (validateSegments_spec _ 0 hdata hdisk.store hres (fun s hs => ?_)
    (Nat.zero_le _)) ?_ ?_
  · exact mem_dedup.mp ((sortByKey_perm _ _).mem_iff.mp hs)
  · rintro _ w' ⟨hread, hle⟩
    rw [Nat.zero_add, hcount] at hle
    exact ⟨hread, hle⟩
  · rintro _ w' ⟨hread, hlt⟩
    rw [Nat.zero_add, hcount] at hlt
    exact ⟨hread, hlt⟩

end Holo.Storage
