/-
Holo.Storage.Stored — what the data segments hold, and what keeps it true.

`StoreInv` is the part of the layout's invariant about blobs, the segment index on disk
and the dedup entries.  It speaks of the disk alone, so that it can be kept through a
crash.

Main results:
* `AppendInv.cut`: storing a blob under a fresh id keeps it, at every cut of the append;
* `Readable.mono`: what a record reads stays readable as blobs are added.
-/
import Holo.Storage.DataSpec
import Holo.Storage.DataPath

namespace Holo.Storage

open Lib Program List Disk SegmentIndex

variable {env : Env}

/-! ## §1. Blobs of a disk. -/

section

variable (d : Disk)

/-- A blob is in a data segment. -/
def Disk.HasBlob (seq : Nat) (b : DataBlob) : Prop :=
  ∃ f, d.segs.lookup seq = some f ∧ b ∈ f.log

/-- The segments the index on disk names. -/
def Disk.indexed : List Nat := d.segIndex.index.segments

/-- The dedup entries. -/
def Disk.entries : List DedupIndexEntry := d.dedup.table dedupLog

/-- The block map records. -/
def Disk.records : List BlkMapRecord := d.blkMap.table blkMapLog

/-- No segment has anything behind its payload. -/
def TailsOk : Prop := ∀ seq f, d.segs.lookup seq = some f → f.tail = 0

end

variable {d d' : Disk} {seq len n : Nat} {b : DataBlob} {p : BlobPlace} {payload : Bytes}
  {codec : CompressionCodec}

/-- Two blobs of a segment with one id are one blob. -/
theorem SegsOk.eq_of_blobId_eq (h : SegsOk d) {b b' : DataBlob} (hb : d.HasBlob seq b)
    (hb' : d.HasBlob seq b') (hid : b.blobId = b'.blobId) : b = b' := by
  obtain ⟨f, hf, hmem⟩ := hb
  obtain ⟨f', hf', hmem'⟩ := hb'
  rw [hf] at hf'
  injection hf' with hf'
  subst hf'
  exact inj_on_of_nodup_map (h seq f hf).nodup hmem hmem' hid

theorem SegsOk.blobOk (h : SegsOk d) (hb : d.HasBlob seq b) : BlobOk b := by
  obtain ⟨f, hf, hmem⟩ := hb
  exact (h seq f hf).blobs b hmem

section

variable (env : Env) (d : Disk) (r : BlkMapRecord)

/-- The blob of a segment decodes to a payload. -/
structure StoredAt (p : BlobPlace) (logicalLen : Nat) (payload : Bytes) : Prop where
  exists_blob : ∃ b, d.HasBlob p.segmentId b ∧ b.blobId = p.blobId ∧ b.codec = p.codec ∧
    b.logicalLen = logicalLen ∧ b.storedLen = p.storedLen ∧
    decodeStored env.codecs p.codec b.bytes logicalLen = .ok payload

/-- The place a record names. -/
def BlkMapRecord.place : BlobPlace :=
  ⟨r.physicalOffset, r.compression, r.compressedLen, r.physicalSegmentId⟩

/-- A record reads as a payload. -/
structure Readable (payload : Bytes) : Prop where
  stored : StoredAt env d r.place r.logicalLen payload
  checksum : payloadChecksumMatches r.payloadChecksumAlgorithm r.payloadChecksum payload = true

end

/-- Every blob stays where it is. -/
def SegsGrow (d d' : Disk) : Prop := ∀ seq b, d.HasBlob seq b → d'.HasBlob seq b

theorem SegsGrow.refl (d : Disk) : SegsGrow d d := fun _ _ h => h

theorem SegsGrow.trans {d1 d2 d3 : Disk} (h : SegsGrow d1 d2) (h' : SegsGrow d2 d3) :
    SegsGrow d1 d3 := fun seq b hb => h' seq b (h seq b hb)

theorem StoredAt.mono (hgrow : SegsGrow d d') (h : StoredAt env d p len payload) :
    StoredAt env d' p len payload := by
  obtain ⟨b, hb, hrest⟩ := h.exists_blob
  exact ⟨b, hgrow _ _ hb, hrest⟩

/-- **What a record reads stays readable.** -/
theorem Readable.mono (hgrow : SegsGrow d d') {r : BlkMapRecord} (h : Readable env d r payload) :
    Readable env d' r payload :=
  ⟨h.stored.mono hgrow, h.checksum⟩

theorem expectLength_ok {bytes p : Bytes} (h : expectLength n bytes = .ok p) : p.length = n := by
  grind [expectLength]

variable {new : List DataBlob} {c : Codecs}

theorem decompressPayload_length {bytes p : Bytes} (h : decompressPayload c codec bytes n = .ok p) :
    p.length = n ∧ n ≤ maxDecompressedPayloadLen := by
  unfold decompressPayload at h
  split at h
  next => cases h
  next hle =>
    refine ⟨?_, not_lt.mp hle⟩
    split at h
    next =>
      grind
    next =>
      split at h
      next => cases h
      next => exact expectLength_ok h
    next =>
      split at h
      next => cases h
      grind [expectLength_ok]
    next =>
      split at h
      next => cases h
      next => exact expectLength_ok h

/-- What decodes has the length that was asked for. -/
theorem decodeStored_length {bytes p : Bytes} (h : decodeStored c codec bytes n = .ok p) :
    p.length = n := by
  unfold decodeStored at h
  split at h
  next =>
    grind
  next => exact (decompressPayload_length h).1

theorem StoredAt.length (h : StoredAt env d p len payload) : payload.length = len := by
  obtain ⟨b, -, -, -, -, -, hdec⟩ := h.exists_blob
  exact decodeStored_length hdec

/-- A place holds one payload. -/
theorem StoredAt.unique (hsegs : SegsOk d) {payload payload' : Bytes}
    (h : StoredAt env d p len payload) (h' : StoredAt env d p len payload') :
    payload = payload' := by
  obtain ⟨b, hb, hid, -, -, -, hdec⟩ := h.exists_blob
  obtain ⟨b', hb', hid', -, -, -, hdec'⟩ := h'.exists_blob
  have heq : b = b' := hsegs.eq_of_blobId_eq hb hb' (hid.trans hid'.symm)
  subst heq
  rw [hdec] at hdec'
  injection hdec'

/-! ## §2. The blobs after an append. -/

/-- `d'` has the blobs of `d` and `new` at the end of one segment. -/
structure SegsAppended (d d' : Disk) (seq : Nat) (new : List DataBlob) : Prop where
  blobs : ∀ s b, d'.HasBlob s b ↔ d.HasBlob s b ∨ (s = seq ∧ b ∈ new)
  files : ∀ s f, d.segs.lookup s = some f → ∃ f', d'.segs.lookup s = some f'
  tails : TailsOk d → TailsOk d'
  segs : SegsOk d → (∀ b ∈ new, BlobOk b ∧ ∀ x, d.HasBlob seq x → x.blobId < b.blobId) → SegsOk d'

theorem SegsAppended.grow (h : SegsAppended d d' seq new) : SegsGrow d d' :=
  fun s b hb => (h.blobs s b).mpr (.inl hb)

theorem SegsAppended.putEmpty (hnew : d.segs.lookup seq = none) (sequence now : Nat) :
    SegsAppended d (d.putSeg seq (.written dataLog sequence none now)) seq [] where
  blobs s b := by
    simp only [not_mem_nil, and_false, or_false]
    by_cases hs : s = seq
    swap
    · simp only [Disk.HasBlob, lookup_putSeg_ne _ _ hs]
    subst hs
    constructor
    · rintro ⟨f, hf, hb⟩
      rw [lookup_putSeg] at hf
      injection hf with hf
      subst hf
      simp at hb
    · rintro ⟨f, hf, -⟩
      rw [hnew] at hf
      cases hf
  files s f hf := by
    grind [lookup_putSeg_ne]
  tails h s f hf := by
    by_cases hs : s = seq
    · subst hs
      rw [lookup_putSeg] at hf
      injection hf with hf
      subst hf
      rfl
    · rw [lookup_putSeg_ne _ _ hs] at hf
      exact h s f hf
  segs h _ s f hf := by
    by_cases hs : s = seq
    · grind [lookup_putSeg, SegOk.written_none]
    · rw [lookup_putSeg_ne _ _ hs] at hf
      exact h s f hf

variable {f : LogFile DataBlob}

theorem LogFile.tail_appended {k : LogKind DataBlob} (h : f.tail = 0) (sum : Bool)
    (bs : List DataBlob) (now : Nat) : (f.appended k sum bs now).tail = 0 := by
  unfold LogFile.appended
  split
  next => rfl
  next => simp [h]

theorem SegsAppended.putAppended (hf : d.segs.lookup seq = some f) (b : DataBlob) (sum : Bool)
    (now : Nat) :
    SegsAppended d (d.putSeg seq (f.appended dataLog sum [b] now)) seq [b] where
  blobs s x := by
    by_cases hs : s = seq
    swap
    · simp only [Disk.HasBlob, lookup_putSeg_ne _ _ hs, hs, false_and, or_false]
    subst hs
    simp only [true_and]
    constructor
    · rintro ⟨f', hf', hx⟩
      rw [lookup_putSeg] at hf'
      injection hf' with hf'
      subst hf'
      rw [LogFile.log_appended, mem_append] at hx
      exact hx.imp_left (fun hx => ⟨f, hf, hx⟩)
    intro hx
    refine ⟨_, lookup_putSeg _ _ _, ?_⟩
    rw [LogFile.log_appended, mem_append]
    refine hx.imp_left ?_
    rintro ⟨f', hf', hx⟩
    grind
  files s f' hf' := by
    grind [lookup_putSeg, lookup_putSeg_ne]
  tails h s f' hf' := by
    by_cases hs : s = seq
    · subst hs
      rw [lookup_putSeg] at hf'
      injection hf' with hf'
      subst hf'
      exact LogFile.tail_appended (h s f hf) _ _ _
    · rw [lookup_putSeg_ne _ _ hs] at hf'
      exact h s f' hf'
  -- the new blob has a higher id than those before it
  segs h hnew s f' hf' := by
    obtain ⟨hb, habove⟩ := hnew b (mem_singleton.mpr rfl)
    by_cases hs : s = seq
    · subst hs
      rw [lookup_putSeg] at hf'
      injection hf' with hf'
      subst hf'
      exact (h s f hf).appended hb (fun x hx => habove x ⟨f, hf, hx⟩) _ _
    · rw [lookup_putSeg_ne _ _ hs] at hf'
      exact h s f' hf'

theorem SegsAppended.putIndex (h : SegsAppended d d' seq new) (f : IndexFile) :
    SegsAppended d (d'.putIndex f) seq new :=
  ⟨h.blobs, h.files, h.tails, h.segs⟩

/-! ## §3. The index on disk and the index a write works with. -/

/-- Two indexes name the same segments in the same states, and the same next segment. -/
structure SameShape (i j : SegmentIndex) : Prop where
  states : i.descriptors.map (fun x => (x.segmentSeq, x.state)) =
    j.descriptors.map (fun x => (x.segmentSeq, x.state))
  next : i.nextSegmentSeq = j.nextSegmentSeq

theorem SameShape.refl (i : SegmentIndex) : SameShape i i := ⟨rfl, rfl⟩

variable {i j i' : SegmentIndex} {x a : SegmentDescriptor} {s : Nat}

theorem SameShape.symm (h : SameShape i j) : SameShape j i :=
  ⟨h.states.symm, h.next.symm⟩

theorem SameShape.trans {i j k : SegmentIndex} (h : SameShape i j) (h' : SameShape j k) :
    SameShape i k := ⟨h.states.trans h'.states, h.next.trans h'.next⟩

theorem SameShape.segments (h : SameShape i j) : i.segments = j.segments := by
  have := congrArg (List.map Prod.fst) h.states
  rw [map_map, map_map] at this
  exact this

theorem SameShape.recordBlobAppend {seq bytes id len : Nat}
    (h : recordBlobAppend i seq bytes id len codec = .ok i') : SameShape i' i := by
  obtain ⟨-, -, -, hnext, hdesc⟩ := recordBlobAppend_ok h
  refine ⟨?_, hnext⟩
  rw [hdesc]
  apply map_modifyFirst
  intro x _
  rfl

/-- The segments with a file are numbered below the next one of the index on disk. -/
def NextAbove (d : Disk) : Prop :=
  ∀ s f, d.segs.lookup s = some f → s < d.segIndex.index.nextSegmentSeq

theorem NextAbove.lookup_next (h : NextAbove d) :
    d.segs.lookup d.segIndex.index.nextSegmentSeq = none := by
  cases hf : d.segs.lookup d.segIndex.index.nextSegmentSeq with
  | none => rfl
  | some f => exact absurd (h _ f hf) (lt_irrefl _)

/-- What the descriptors of an index say of the blobs: the active segment is the last one, and
no descriptor's range reaches a blob of another segment. -/
structure IndexOk (d : Disk) (i : SegmentIndex) : Prop where
  nodup : i.segments.Nodup
  exists_active : ∃ a, i.activeDescriptor = some a
  active_last : ∀ x ∈ i.descriptors, x.state = .active → ∀ s ∈ i.segments, s ≤ x.segmentSeq
  above : ∀ x ∈ i.descriptors, ∀ s ∈ i.segments, s < x.segmentSeq → ∀ b, d.HasBlob s b →
    x.firstBlobId = 0 ∨ b.blobId < x.firstBlobId
  below : ∀ x ∈ i.descriptors, ∀ s ∈ i.segments, x.segmentSeq < s → ∀ b, d.HasBlob s b →
    x.lastBlobId < b.blobId

/-- **A descriptor whose range holds a stored id is the descriptor of its segment.** -/
theorem IndexOk.segmentSeq_eq (h : IndexOk d i) (hx : x ∈ i.descriptors) (hs : s ∈ i.segments)
    (hb : d.HasBlob s b) (hin : x.containsBlob b.blobId) : x.segmentSeq = s := by
  obtain ⟨hpos, hlo, hhi⟩ := hin
  rcases lt_trichotomy s x.segmentSeq with hlt | heq | hgt
  · rcases h.above x hx s hs hlt b hb with h0 | hlt'
    · omega
    · omega
  · exact heq.symm
  · have := h.below x hx s hs hgt b hb
    omega

theorem SegmentIndex.state_of_active (h : i.activeDescriptor = some a) :
    a ∈ i.descriptors ∧ a.state = .active :=
  ⟨mem_of_find?_eq_some h, by simpa using find?_some h⟩

theorem IndexOk.le_active (h : IndexOk d i) (ha : i.activeDescriptor = some a)
    (hs : s ∈ i.segments) :
    s ≤ a.segmentSeq := by
  obtain ⟨hmem, hstate⟩ := state_of_active ha
  exact h.active_last a hmem hstate s hs

/-- After a rotation the new segment is the only active one. -/
theorem IndexOk.active_rotated (h : IndexOk d i) (seq : Nat) (hx : x ∈ (i.rotated seq).descriptors)
    (hstate : x.state = .active) : x = .fresh seq := by
  obtain ⟨a, ha⟩ := h.exists_active
  obtain ⟨hamem, hastate⟩ := state_of_active ha
  have hany : i.descriptors.any (fun d => decide (d.state = .active)) = true :=
    any_eq_true.mpr ⟨a, hamem, by simpa using hastate⟩
  obtain ⟨as, y, bs, heq, hy, has, hmod⟩ :=
    modifyFirst_eq_append (fun d : SegmentDescriptor => { d with state := .sealed }) hany
  have hdesc : (i.rotated seq).descriptors =
      (as ++ { y with state := .sealed } :: bs) ++ [.fresh seq] := by
    rw [← hmod]
    rfl
  rw [hdesc] at hx
  rcases mem_append.mp hx with hx | hx
  swap
  · exact mem_singleton.mp hx
  exfalso
  rcases mem_append.mp hx with hx | hx
  · have := has x hx
    simp [hstate] at this
  rcases mem_cons.mp hx with rfl | hx
  · simp at hstate
  -- two active descriptors of one index would have the same segment
  have hxmem : x ∈ i.descriptors := by rw [heq]; simp [hx]
  have hymem : y ∈ i.descriptors := by rw [heq]; simp
  have hle := h.active_last x hxmem hstate y.segmentSeq (mem_map_of_mem hymem)
  have hge := h.active_last y hymem (by simpa using hy) x.segmentSeq (mem_map_of_mem hxmem)
  have hnd := h.nodup
  grind [SegmentIndex.segments]

/-- A descriptor of the rotated index has the range of an old one, or is the new one. -/
theorem SegmentIndex.mem_rotated (hx : x ∈ (i.rotated seq).descriptors) : x = .fresh seq ∨
      ∃ y ∈ i.descriptors, y.segmentSeq = x.segmentSeq ∧ y.firstBlobId = x.firstBlobId ∧
        y.lastBlobId = x.lastBlobId := by
  rcases mem_append.mp hx with hx | hx
  · grind [mem_modifyFirst]
  · exact .inl (mem_singleton.mp hx)

/-- An index of the same shape whose ranges are no larger at the top. -/
theorem IndexOk.congr (h : IndexOk d i)
    (hblobs : ∀ s ∈ i.segments, ∀ b, d'.HasBlob s b → d.HasBlob s b) : IndexOk d' i :=
  ⟨h.nodup, h.exists_active, h.active_last,
    fun x hx s hs hlt b hb => h.above x hx s hs hlt b (hblobs s hs b hb),
    fun x hx s hs hlt b hb => h.below x hx s hs hlt b (hblobs s hs b hb)⟩

/-! ## §4. The invariant of the store. -/

/-- An entry agrees with a blob of its id. -/
structure DedupIndexEntry.Agrees (e : DedupIndexEntry) (b : DataBlob) : Prop where
  codec : b.codec = e.compression
  logicalLen : b.logicalLen = e.logicalLen
  storedLen : b.storedLen = e.storedLen

/-- The invariant about blobs, the index on disk and the dedup entries. -/
structure StoreInv (d : Disk) : Prop where
  segs : SegsOk d
  tails : TailsOk d
  compressed : ∀ s b, d.HasBlob s b → b.codec ≠ .none → b.storedLen < b.logicalLen
  files : ∀ s ∈ d.indexed, ∃ f, d.segs.lookup s = some f
  bound : ∀ s ∈ d.indexed, s ≤ u32Max
  ordered : ∀ s ∈ d.indexed, ∀ s' ∈ d.indexed, s < s' → ∀ b b', d.HasBlob s b →
    d.HasBlob s' b' → b.blobId < b'.blobId
  index : IndexOk d d.segIndex.index
  agree : ∀ e ∈ d.entries, ∀ s ∈ d.indexed, ∀ b, d.HasBlob s b → b.blobId = e.storedBlobId →
    e.Agrees b
  entryPos : ∀ e ∈ d.entries, 0 < e.entryId
  dedup : d.dedup.Sound dedupLog

/-- Every blob id in use is at most `highWater`. -/
structure Covers (d : Disk) (highWater : Nat) : Prop where
  blobs : ∀ s ∈ d.indexed, ∀ b, d.HasBlob s b → b.blobId ≤ highWater
  entries : ∀ e ∈ d.entries, e.storedBlobId ≤ highWater
  records : ∀ r ∈ d.records, r.physicalOffset ≤ highWater

/-- A blob id is in one indexed segment only. -/
theorem StoreInv.unique (h : StoreInv d) {s s' : Nat} (hs : s ∈ d.indexed) (hs' : s' ∈ d.indexed)
    {b b' : DataBlob} (hb : d.HasBlob s b) (hb' : d.HasBlob s' b') (hid : b.blobId = b'.blobId) :
    s = s' := by
  rcases lt_trichotomy s s' with hlt | heq | hgt
  · exact absurd hid (h.ordered s hs s' hs' hlt b b' hb hb').ne
  · exact heq
  · exact absurd hid.symm (h.ordered s' hs' s hs hgt b' b hb' hb).ne

/-- What an append relies on: the store, and the index `i` the append works with. -/
structure AppendInv (d : Disk) (i : SegmentIndex) : Prop where
  inv : StoreInv d
  index : IndexOk d i
  shape : SameShape i d.segIndex.index
  next : NextAbove d
  below : d.segIndex.index.blobHighWater ≤ i.blobHighWater
  covers : Covers d i.blobHighWater

theorem AppendInv.segments (h : AppendInv d i) : i.segments = d.indexed := h.shape.segments

theorem AppendInv.not_mem_next (h : AppendInv d i) :
    d.segIndex.index.nextSegmentSeq ∉ d.indexed := by
  intro hmem
  obtain ⟨f, hf⟩ := h.inv.files _ hmem
  exact absurd (h.next _ f hf) (lt_irrefl _)

theorem AppendInv.lt_next (h : AppendInv d i) (hs : s ∈ d.indexed) :
    s < d.segIndex.index.nextSegmentSeq := by
  obtain ⟨f, hf⟩ := h.inv.files s hs
  exact h.next s f hf

/-- A segment without blobs keeps the store's invariant. -/
theorem StoreInv.putEmpty (h : StoreInv d) (hnew : d.segs.lookup seq = none) (sequence now : Nat) :
    StoreInv (d.putSeg seq (.written dataLog sequence none now)) := by
  have happ := SegsAppended.putEmpty hnew sequence now
  have hblob : ∀ s b, (d.putSeg seq (.written dataLog sequence none now)).HasBlob s b →
      d.HasBlob s b := fun s b hb => by simpa using (happ.blobs s b).mp hb
  exact
    { segs := happ.segs h.segs (by simp)
      tails := happ.tails h.tails
      compressed := fun s b hb => h.compressed s b (hblob s b hb)
      files := fun s hs => by
        obtain ⟨f, hf⟩ := h.files s hs
        exact happ.files s f hf
      bound := h.bound
      ordered := fun s hs s' hs' hlt b b' hb hb' =>
        h.ordered s hs s' hs' hlt b b' (hblob s b hb) (hblob s' b' hb')
      index := h.index.congr (fun s _ b hb => hblob s b hb)
      agree := fun e he s hs b hb => h.agree e he s hs b (hblob s b hb)
      entryPos := h.entryPos
      dedup := h.dedup }

/-! ## §5. Appending keeps the invariant. -/

variable {d1 : Disk}

theorem AppendInv.index_rotated (h : AppendInv d i)
    (hblob : ∀ s b, d1.HasBlob s b → d.HasBlob s b) :
    IndexOk d1 (i.rotated i.nextSegmentSeq) := by
  have hnext := h.shape.next
  -- a segment of the rotated index that has a blob is an old one
  have hold : ∀ s ∈ (i.rotated i.nextSegmentSeq).segments, ∀ b, d1.HasBlob s b →
      s ∈ i.segments ∧ d.HasBlob s b := by
    intro s hs b hb
    have hb' := hblob s b hb
    rw [segments_rotated, mem_append, mem_singleton] at hs
    rcases hs with hs | rfl
    · exact ⟨hs, hb'⟩
    · obtain ⟨f, hf, -⟩ := hb'
      rw [hnext, h.next.lookup_next] at hf
      cases hf
  refine ⟨?_, i.exists_active_rotated _, fun x hx hstate s hs => ?_, fun x hx s hs hlt b hb => ?_,
    fun x hx s hs hlt b hb => ?_⟩
  · rw [segments_rotated, nodup_append]
    refine ⟨h.index.nodup, by simp, fun s hs t ht heq => ?_⟩
    simp_all [h.segments, h.not_mem_next]
  · rw [h.index.active_rotated _ hx hstate]
    rw [segments_rotated, mem_append, mem_singleton] at hs
    rcases hs with hs | rfl
    · rw [h.segments] at hs
      have := h.lt_next hs
      rw [← hnext] at this
      exact this.le
    · exact le_rfl
  · obtain ⟨hs', hb'⟩ := hold s hs b hb
    rcases mem_rotated hx with rfl | ⟨y, hy, hseq, hfirst, -⟩
    · exact .inl rfl
    · rw [← hfirst]
      exact h.index.above y hy s hs' (hseq ▸ hlt) b hb'
  · obtain ⟨hs', hb'⟩ := hold s hs b hb
    rcases mem_rotated hx with rfl | ⟨y, hy, hseq, -, hlast⟩
    · rw [h.segments] at hs'
      have := h.lt_next hs'
      rw [← hnext] at this
      exact absurd hlt (not_lt.mpr this.le)
    · rw [← hlast]
      exact h.index.below y hy s hs' (hseq ▸ hlt) b hb'

/-- **Readying the active segment** keeps what the append relies on. -/
theorem AppendInv.prepared {i i1 : SegmentIndex} (h : AppendInv d i) (hprep : Prepared d i d1 i1) :
    AppendInv d1 i1 := by
  cases hprep with
  | same => exact h
  | rotated now now' hle =>
    have hnext := h.shape.next
    have hnone : d.segs.lookup i.nextSegmentSeq = none := by
      rw [hnext]
      exact h.next.lookup_next
    have happ := SegsAppended.putEmpty hnone 0 now
    set d' := (d.putSeg i.nextSegmentSeq (.written dataLog 0 none now)).putIndex
      ⟨i.rotated i.nextSegmentSeq, now'⟩ with hd'
    have hblob : ∀ s b, d'.HasBlob s b → d.HasBlob s b :=
      fun s b hb => by simpa using (happ.blobs s b).mp hb
    have hindexed : ∀ s, s ∈ d'.indexed ↔ s ∈ d.indexed ∨ s = i.nextSegmentSeq := by
      intro s
      unfold Disk.indexed
      rw [hd', segIndex_putIndex, segments_rotated, mem_append, mem_singleton, h.segments]
      rfl
    -- a segment with a blob was indexed before
    have hold : ∀ s b, d'.HasBlob s b → (s ∈ d.indexed ∨ s = i.nextSegmentSeq) →
        s ∈ d.indexed := by
      rintro s b hb (hs | rfl)
      · exact hs
      · obtain ⟨f, hf, -⟩ := hblob _ b hb
        rw [hnone] at hf
        cases hf
    have hidx := h.index_rotated hblob
    have hinv := h.inv.putEmpty hnone 0 now
    refine ⟨⟨hinv.segs, hinv.tails, hinv.compressed, fun s hs => ?_, fun s hs => ?_,
      fun s hs s' hs' hlt b b' hb hb' => ?_, hidx, fun e he s hs b hb hid => ?_, hinv.entryPos,
      hinv.dedup⟩, hidx, .refl _, fun s f hf => ?_, le_rfl, ?_⟩
    · rcases (hindexed s).mp hs with hs | rfl
      · exact hinv.files s hs
      · exact ⟨_, lookup_putSeg _ _ _⟩
    · rcases (hindexed s).mp hs with hs | rfl
      · exact h.inv.bound s hs
      · exact hle
    · exact h.inv.ordered s (hold s b hb ((hindexed s).mp hs)) s'
        (hold s' b' hb' ((hindexed s').mp hs')) hlt b b' (hblob s b hb) (hblob s' b' hb')
    · exact h.inv.agree e he s (hold s b hb ((hindexed s).mp hs)) b (hblob s b hb) hid
    · have hnextval : (i.rotated i.nextSegmentSeq).nextSegmentSeq = i.nextSegmentSeq + 1 := rfl
      rw [hd', segs_putIndex] at hf
      rw [hd', segIndex_putIndex, hnextval]
      by_cases hs : s = i.nextSegmentSeq
      · omega
      · rw [lookup_putSeg_ne _ _ hs] at hf
        have := h.next s f hf
        omega
    · rw [blobHighWater_rotated]
      exact ⟨fun s hs b hb => h.covers.blobs s (hold s b hb ((hindexed s).mp hs)) b (hblob s b hb),
        h.covers.entries, h.covers.records⟩

theorem SegmentIndex.mem_recordBlobAppend {seq bytes id len : Nat}
    (h : recordBlobAppend i seq bytes id len codec = .ok i') (hx : x ∈ i'.descriptors) :
    x ∈ i.descriptors ∨
      ∃ y ∈ i.descriptors, y.segmentSeq = seq ∧ x = y.recordBlob bytes id len codec := by
  obtain ⟨-, -, -, -, hdesc⟩ := recordBlobAppend_ok h
  grind [mem_modifyFirst]

/-- An active descriptor after a blob was recorded stood for an active segment before. -/
theorem SameShape.active (h : SameShape i j) (hx : x ∈ i.descriptors) (hstate : x.state = .active) :
    ∃ y ∈ j.descriptors, y.segmentSeq = x.segmentSeq ∧ y.state = .active := by
  have hmem : (x.segmentSeq, x.state) ∈ j.descriptors.map (fun x => (x.segmentSeq, x.state)) := by
    rw [← h.states]
    exact mem_map_of_mem hx
  grind

theorem SameShape.exists_active (h : SameShape i j) (hj : ∃ a, j.activeDescriptor = some a) :
    ∃ a, i.activeDescriptor = some a := by
  obtain ⟨a, ha⟩ := hj
  obtain ⟨hmem, hstate⟩ := state_of_active ha
  obtain ⟨y, hy, -, hystate⟩ := h.symm.active hmem hstate
  cases hfind : i.activeDescriptor with
  | some a => exact ⟨a, rfl⟩
  | none => exact absurd hystate (by simpa using find?_eq_none.mp hfind y hy)

/-- **A blob at the end of the active segment** keeps what the append relies on. -/
theorem AppendInv.blob (h : AppendInv d i) (ha : i.activeDescriptor = some a)
    (hf : d.segs.lookup a.segmentSeq = some f) (hb : BlobOk b)
    (hid : b.blobId = i.blobHighWater + 1) (hsmall : b.codec ≠ .none → b.storedLen < b.logicalLen)
    (sum : Bool) (now : Nat) {bytes : Nat}
    (hrec : recordBlobAppend i a.segmentSeq bytes b.blobId b.storedLen b.codec = .ok i') :
    AppendInv (d.putSeg a.segmentSeq (f.appended dataLog sum [b] now)) i' := by
  have happ := SegsAppended.putAppended hf b sum now
  set d' := d.putSeg a.segmentSeq (f.appended dataLog sum [b] now) with hd'
  have hblob : ∀ s x, d'.HasBlob s x → d.HasBlob s x ∨ (s = a.segmentSeq ∧ x = b) :=
    fun s x hx => by simpa using (happ.blobs s x).mp hx
  have hle : ∀ s ∈ d.indexed, s ≤ a.segmentSeq := fun s hs =>
    h.index.le_active ha (by rw [h.segments]; exact hs)
  have hshape := SameShape.recordBlobAppend hrec
  have hseg : i'.segments = i.segments := hshape.segments
  have hwater : i'.blobHighWater = b.blobId := blobHighWater_recordBlobAppend hrec (by omega)
  have hmem : a.segmentSeq ∈ d.indexed := by
    rw [← h.segments]
    exact segmentSeq_mem ha
  -- the ranges of the index on disk end below the new id
  have hdisk : IndexOk d' d.segIndex.index := by
    have hold := h.inv.index
    refine ⟨hold.nodup, hold.exists_active, hold.active_last, fun x hx s hs hlt y hy => ?_,
      fun x hx s hs hlt y hy => ?_⟩
    · rcases hblob s y hy with hy | ⟨rfl, -⟩
      · exact hold.above x hx s hs hlt y hy
      · exact absurd hlt (not_lt.mpr (hle _ (mem_map_of_mem hx)))
    rcases hblob s y hy with hy | ⟨rfl, rfl⟩
    · exact hold.below x hx s hs hlt y hy
    · have := lastBlobId_le hx
      have := h.below
      omega
  have hidx : IndexOk d' i' := by
    refine ⟨hseg ▸ h.index.nodup, hshape.exists_active h.index.exists_active,
      fun x hx hstate s hs => ?_, fun x hx s hs hlt y hy => ?_, fun x hx s hs hlt y hy => ?_⟩
    · obtain ⟨z, hz, hzseq, hzstate⟩ := hshape.active hx hstate
      rw [← hzseq]
      exact h.index.active_last z hz hzstate s (hseg ▸ hs)
    · rw [hseg] at hs
      have hxseq : x.segmentSeq ≤ a.segmentSeq := by
        have hxs : x.segmentSeq ∈ i'.segments := mem_map_of_mem hx
        rw [hseg, h.segments] at hxs
        exact hle _ hxs
      rcases hblob s y hy with hy | ⟨rfl, -⟩
      swap
      · omega
      rcases mem_recordBlobAppend hrec hx with hx | ⟨z, hz, hzseq, rfl⟩
      · exact h.index.above x hx s hs hlt y hy
      have hyle := h.covers.blobs s (h.segments ▸ hs) y hy
      simp only [SegmentDescriptor.recordBlob] at hlt ⊢
      rcases h.index.above z hz s hs hlt y hy with h0 | hlt'
      · rw [if_pos (.inl h0)]
        omega
      · split <;> omega
    · rw [hseg] at hs
      rcases mem_recordBlobAppend hrec hx with hx | ⟨z, hz, hzseq, rfl⟩
      · rcases hblob s y hy with hy | ⟨-, rfl⟩
        · exact h.index.below x hx s hs hlt y hy
        · have := lastBlobId_le hx
          omega
      · have hsle := hle s (h.segments ▸ hs)
        simp only [SegmentDescriptor.recordBlob] at hlt
        omega
  refine ⟨⟨happ.segs h.inv.segs ?_, happ.tails h.inv.tails, fun s x hx hcodec => ?_,
    fun s hs => ?_, h.inv.bound, fun s hs s' hs' hlt x x' hx hx' => ?_, hdisk,
    fun e he s hs x hx hex => ?_, h.inv.entryPos, h.inv.dedup⟩, hidx, hshape.trans h.shape,
    fun s f' hf' => ?_, ?_, fun s hs x hx => ?_, fun e he => ?_, fun r hr => ?_⟩
  · intro x hx
    rw [mem_singleton.mp hx]
    refine ⟨hb, fun y hy => ?_⟩
    have := h.covers.blobs _ hmem y hy
    omega
  · rcases hblob s x hx with hx | ⟨-, rfl⟩
    · exact h.inv.compressed s x hx hcodec
    · exact hsmall hcodec
  · obtain ⟨f', hf'⟩ := h.inv.files s hs
    exact happ.files s f' hf'
  · rcases hblob s x hx with hold | ⟨rfl, -⟩
    · rcases hblob s' x' hx' with hold' | ⟨-, rfl⟩
      · exact h.inv.ordered s hs s' hs' hlt x x' hold hold'
      · have := h.covers.blobs s hs x hold
        omega
    · exact absurd hlt (not_lt.mpr (hle s' hs'))
  · rcases hblob s x hx with hx | ⟨-, rfl⟩
    · exact h.inv.agree e he s hs x hx hex
    · have := h.covers.entries e he
      omega
  · by_cases hs : s = a.segmentSeq
    · subst hs
      exact h.next _ f hf
    · rw [hd', lookup_putSeg_ne _ _ hs] at hf'
      exact h.next s f' hf'
  · have := h.below
    rw [hd', segIndex_putSeg, hwater]
    omega
  · rw [hwater]
    rcases hblob s x hx with hx | ⟨-, rfl⟩
    · have := h.covers.blobs s hs x hx
      omega
    · exact le_rfl
  · have := h.covers.entries e he
    omega
  · have := h.covers.records r hr
    omega

/-- **A stored blob** keeps what the append relies on, and is there. -/
theorem AppendInv.stored (h : AppendInv d i) (hst : BlobStored d i b seq d' i') (hb : BlobOk b)
    (hid : b.blobId = i.blobHighWater + 1) (hsmall : b.codec ≠ .none → b.storedLen < b.logicalLen) :
    AppendInv d' i' ∧ SegsGrow d d' ∧ (∀ s ∈ d.indexed, s ∈ d'.indexed) ∧ seq ∈ d'.indexed ∧
      d'.HasBlob seq b ∧ i'.blobHighWater = b.blobId := by
  obtain ⟨d1, i1, a, f, sum, now, hprep, ha, hseq, hf, rfl, hrec⟩ := hst.exists_prepared
  subst hseq
  have h1 := h.prepared hprep
  have hid1 : b.blobId = i1.blobHighWater + 1 := by
    rw [hprep.blobHighWater]
    exact hid
  have happ := SegsAppended.putAppended hf b sum now
  refine ⟨h1.blob ha hf hb hid1 hsmall sum now hrec, ?_, fun s hs => ?_, ?_, ?_, ?_⟩
  · refine SegsGrow.trans ?_ happ.grow
    -- the active segment, or a new one whose number was free
    cases hprep with
    | same => exact SegsGrow.refl _
    | rotated now1 now2 _ =>
      have hnone : d.segs.lookup i.nextSegmentSeq = none := by
        rw [h.shape.next]
        exact h.next.lookup_next
      exact ((SegsAppended.putEmpty hnone 0 now1).putIndex _).grow
  · cases hprep with
    | same => exact hs
    | rotated now1 now2 _ =>
      unfold Disk.indexed
      rw [segIndex_putSeg, segIndex_putIndex, segments_rotated, h.segments]
      exact mem_append_left _ hs
  · have : a.segmentSeq ∈ d1.indexed := by
      rw [← h1.segments]
      exact segmentSeq_mem ha
    exact this
  · exact (happ.blobs _ b).mpr (.inr ⟨rfl, mem_singleton.mpr rfl⟩)
  · exact blobHighWater_recordBlobAppend hrec (by omega)

/-- **A crash inside an append** keeps the store's invariant. -/
theorem AppendInv.cut (h : AppendInv d i) (hcut : AppendCut d i b d') (hb : BlobOk b)
    (hid : b.blobId = i.blobHighWater + 1) (hsmall : b.codec ≠ .none → b.storedLen < b.logicalLen) :
    StoreInv d' ∧ SegsGrow d d' ∧ (∀ s ∈ d.indexed, s ∈ d'.indexed) := by
  have hnone : d.segs.lookup i.nextSegmentSeq = none := by
    rw [h.shape.next]
    exact h.next.lookup_next
  cases hcut with
  | none => exact ⟨h.inv, SegsGrow.refl _, fun _ hs => hs⟩
  | segment now =>
    exact ⟨h.inv.putEmpty hnone 0 now, (SegsAppended.putEmpty hnone 0 now).grow, fun _ hs => hs⟩
  | prepared hprep =>
    refine ⟨(h.prepared hprep).inv, ?_, ?_⟩
    · cases hprep with
      | same => exact SegsGrow.refl _
      | rotated now1 now2 _ => exact ((SegsAppended.putEmpty hnone 0 now1).putIndex _).grow
    cases hprep with
    | same => exact fun _ hs => hs
    | rotated now1 now2 _ =>
      simp_all [Disk.indexed, segments_rotated, h.segments]
  | stored hst =>
    obtain ⟨hinv, hgrow, hidx, -, -, -⟩ := h.stored hst hb hid hsmall
    exact ⟨hinv.inv, hgrow, hidx⟩

end Holo.Storage
