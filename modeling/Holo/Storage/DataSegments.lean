/-
Holo.Storage.DataSegments — the data segments: blobs, their index, and the caches over both.

A payload is stored as a BLOB at the end of the active data segment, under the next blob
id of the segment index.  The index is cached and written back only when a flush asks for
it; the scan of a segment's blob headers is cached too.
-/
import Holo.Storage.LogSpec

namespace Holo.Storage

open Lib Program

/-! ## §1. The segment index through its cache. -/

/-- The disk with one data segment replaced. -/
def Disk.putSeg (d : Disk) (seq : Nat) (f : LogFile DataBlob) : Disk :=
  { d with segs := d.segs.insert seq f }

/-- The disk with the segment index replaced. -/
def Disk.putIndex (d : Disk) (f : IndexFile) : Disk := { d with segIndex := f }

/-- `load_segment_index`: the bound on the file, then the decoder's bound on the count. -/
def SegmentIndex.load (i : SegmentIndex) : Except StorageError SegmentIndex :=
  if i.fileLen > maxMaintenanceMetadataBytes then .error .metadataBudgetExceeded
  else if i.descriptors.length > maxMaintenanceMetadataRecords then
    .error .metadataBudgetExceeded
  else .ok i

/-- `load_segment_index` of the layout. -/
def loadSegmentIndex : StorageM SegmentIndex := do
  let w ← get
  ofExcept w.disk.segIndex.index.load

/-- Put a cache entry for the index. -/
def setCachedIndex (c : CachedIndex) : StorageM Unit :=
  modify fun w => { w with mem := { w.mem with segIndex := some c } }

/-- Read the index from disk into the cache. -/
def reloadSegmentIndex : StorageM SegmentIndex := do
  let index ← loadSegmentIndex
  let w ← get
  setCachedIndex ⟨index, false, some w.disk.segIndex.stamp⟩
  return index

def loadSegmentIndexForAppend : StorageM SegmentIndex := do
  let w ← get
  match w.mem.segIndex with
  | some c =>
    if c.dirty ∨ c.stamp = some w.disk.segIndex.stamp then return c.index
    else reloadSegmentIndex
  | none => reloadSegmentIndex

section

variable (env : Env) (index : SegmentIndex) (seq : Nat)

def storeSegmentIndexForAppend : StorageM Unit := do
  let w ← get
  setCachedIndex ⟨index, true, w.mem.segIndex.bind (·.stamp)⟩

def storeSegmentIndexClean : StorageM Unit := do
  let w ← get
  setCachedIndex ⟨index, false, some w.disk.segIndex.stamp⟩

def persistSegmentIndex : StorageM Unit :=
  atomicStep env fun now d => d.putIndex ⟨index, now⟩

def flushSegmentIndexForAppend : StorageM Unit := do
  let w ← get
  match w.mem.segIndex with
  | none => return ()
  | some c =>
    if c.dirty then
      persistSegmentIndex env c.index
      let w ← get
      setCachedIndex { c with dirty := false, stamp := some w.disk.segIndex.stamp }
    else return ()

/-! ## §2. Blobs of a segment. -/

/-- The header of a blob as the scan of a segment sees it.  The segments of a `Disk` are logs of
version 2, which is what the program writes. -/
def DataBlob.metaAt (b : DataBlob) (offset : Nat) : DataBlobMeta where
  blobId := b.blobId
  codec := b.codec
  logicalLen := b.logicalLen
  storedLen := b.storedLen
  payloadChecksum := b.payloadChecksum
  payloadOffset := offset + 24
  v2Integrity := true

/-- `scan_log_data_index`: the blob headers from `offset` on. -/
def scanLogDataIndex : Nat → List DataBlob → List DataBlobMeta
  | _, [] => []
  | offset, b :: bs => b.metaAt offset :: scanLogDataIndex (offset + (24 + b.storedLen)) bs

/-- The scan of a segment file: headers start behind the file header and the tag. -/
def scanDataIndex (f : LogFile DataBlob) : List DataBlobMeta :=
  scanLogDataIndex (segmentHeaderV2TotalSize + 4) f.log

def readBlobPayload (f : LogFile DataBlob) (offset len : Nat) : Except StorageError Bytes :=
  let payload := f.payload dataLog
  if offset - segmentHeaderV2TotalSize + len ≤ payload.length then
    .ok (slice payload (offset - segmentHeaderV2TotalSize) len)
  else .error .io

/-- Put a cache entry for a segment. -/
def setCachedData (c : CachedData) : StorageM Unit :=
  modify fun w => { w with mem := { w.mem with data := w.mem.data.insert seq c } }

def invalidateDataSegmentCache : StorageM Unit :=
  modify fun w => { w with mem := { w.mem with data := w.mem.data.erase seq } }

/-- `ensure_data_cache_fresh`, and the entry it leaves. -/
def ensureDataCacheFresh : StorageM CachedData := do
  let w ← get
  let reload (f : LogFile DataBlob) : StorageM CachedData := do
    let c : CachedData := ⟨f.stamp dataLog, scanDataIndex f⟩
    setCachedData seq c
    return c
  match w.mem.data.lookup seq, w.disk.segs.lookup seq with
  | some c, some f =>
    if env.trustHotCache ∨ c.stamp = f.stamp dataLog then return c else reload f
  | some c, none => if env.trustHotCache then return c else throw .io
  | none, some f => reload f
  | none, none => throw .io

def loadBlobById (seq blobId : Nat) : StorageM DataBlob := do
  let c ← ensureDataCacheFresh env seq
  match (binarySearch (·.blobId) c.blobs blobId).bind (c.blobs[·]?) with
  | none => throw (.notFound "data blob not found")
  | some m =>
    let w ← get
    match w.disk.segs.lookup seq with
    | none => throw .io
    | some f =>
      let bytes ← ofExcept (readBlobPayload f m.payloadOffset m.storedLen)
      check (m.v2Integrity = true ∧
          m.payloadChecksum ≠ blobIntegrityChecksum m.blobId m.logicalLen bytes)
        (.corrupt "data blob integrity checksum mismatch")
      return ⟨m.blobId, m.codec, m.logicalLen, m.storedLen, m.payloadChecksum, bytes⟩

/-- The fallback of `load_blob_by_location` for layouts that numbered their first segment 1. -/
def loadBlobLegacy (blobId : Nat) : StorageM DataBlob :=
  match index.descriptors with
  | [] => throw (.notFound "data segment descriptor not found")
  | first :: _ =>
    if first.segmentSeq ≠ 0 then throw (.notFound "legacy data segment descriptor not found")
    else loadBlobById env first.segmentSeq blobId

def loadBlobByLocation (segmentId blobId : Nat) : StorageM DataBlob := do
  let index ← loadSegmentIndexForAppend
  match index.descriptorForSegment segmentId with
  | some d =>
    let result ← attempt (loadBlobById env d.segmentSeq blobId)
    match result with
    | .ok blob => return blob
    | .error e => if segmentId ≠ 1 then throw e else loadBlobLegacy env index blobId
  | none =>
    if segmentId ≠ 1 then throw (.notFound "data segment descriptor not found")
    else loadBlobLegacy env index blobId

end

/-- The loop of `locate_blob_segment_id` over the descriptors. -/
def locateInSegments (env : Env) (blobId : Nat) : List SegmentDescriptor → StorageM Nat
  | [] => throw (.notFound "data blob segment not found")
  | d :: ds => do
    let result ← attempt (loadBlobById env d.segmentSeq blobId)
    match result with
    | .ok _ => return d.segmentSeq
    | .error _ => locateInSegments env blobId ds

section

variable (env : Env)

/-- `locate_blob_segment_id`: by the ranges of the persisted index, else by trying each segment. -/
def locateBlobSegmentId (blobId : Nat) : StorageM Nat := do
  let index ← loadSegmentIndex
  match index.descriptorForBlob blobId with
  | some d => return d.segmentSeq
  | none => locateInSegments env blobId index.descriptors

/-! ## §3. Appending a blob. -/

/-- `write_segment_file` of a data segment without blobs. -/
def writeEmptySegment (seq sequence : Nat) : StorageM Unit :=
  atomicStep env fun now d => d.putSeg seq (.written dataLog sequence none now)

section

variable (index : SegmentIndex) (seq : Nat) (checksumEnabled : Bool)

def rotateActiveSegment : StorageM SegmentIndex := do
  check (index.activeDescriptor = none) (.corrupt "active data segment missing")
  check (index.nextSegmentSeq > u32Max) (.conflict "segment sequence exceeds u32")
  writeEmptySegment env index.nextSegmentSeq 0
  let index := index.rotated index.nextSegmentSeq
  persistSegmentIndex env index
  return index

/-- `prepare_active_segment_for_append`: the index after a rotation if one is due, and the number
of the active segment. -/
def prepareActiveSegmentForAppend (recordLen tagLen : Nat) : StorageM (SegmentIndex × Nat) := do
  match index.activeDescriptor with
  | none => throw (.corrupt "active data segment missing")
  | some active =>
    if index.shouldRotate active recordLen tagLen then
      let index ← rotateActiveSegment env index
      match index.activeDescriptor with
      | none => throw (.corrupt "active data segment missing")
      | some active => return (index, active.segmentSeq)
    else return (index, active.segmentSeq)

/-- The file after a blob is appended to a segment (a missing file is started). -/
def appendBlobFile (blob : DataBlob) (now : Nat)
    (file : Option (LogFile DataBlob)) : LogFile DataBlob :=
  match file with
  | none => .written dataLog 1 (some [blob]) now
  | some f => f.appended dataLog checksumEnabled [blob] now

/-- Append a blob to a segment. -/
def appendBlobStep (blob : DataBlob) : StorageM Unit :=
  diskStep env
    (fun now d => d.putSeg seq (appendBlobFile checksumEnabled blob now (d.segs.lookup seq)))
    (fun cut now d =>
      match d.segs.lookup seq with
      | none => d
      | some f => d.putSeg seq (f.tornAppend dataLog [blob] cut now))

/-- The blob `append_data_blob` stores. -/
def newBlob (blobId : Nat) (codec : CompressionCodec) (logicalLen : Nat) (encoded : Bytes) :
    DataBlob where
  blobId := blobId
  codec := codec
  logicalLen := logicalLen
  storedLen := encoded.length
  payloadChecksum := blobIntegrityChecksum blobId logicalLen encoded
  bytes := encoded

/-- What `append_data_blob` does in memory once the blob is in the file: the cached headers and
the index get it. -/
def recordAppendedBlob (c : CachedData) (index : SegmentIndex)
    (blob : DataBlob) : StorageM Unit := do
  let w ← get
  match w.disk.segs.lookup seq with
  | none => throw .io
  | some f =>
    let payloadLen := (f.payload dataLog).length
    let m := blob.metaAt (segmentHeaderV2TotalSize + payloadLen - blob.storedLen - 24)
    setCachedData seq
      ⟨if env.trustHotCache then c.stamp else f.stamp dataLog, c.blobs ++ [m]⟩
    let index ← ofExcept
      (recordBlobAppend index seq payloadLen blob.blobId blob.storedLen blob.codec)
    storeSegmentIndexForAppend index

end

/-- `append_data_blob`: the segment and the id of the new blob. -/
def appendDataBlob (codec : CompressionCodec) (logicalLen : Nat) (encoded : Bytes)
    (checksumEnabled : Bool) : StorageM (Nat × Nat) := do
  let index ← loadSegmentIndexForAppend
  let (index, seq) ← prepareActiveSegmentForAppend env index (24 + encoded.length) 4
  let c ← ensureDataCacheFresh env seq
  let blobId ← ofExcept (nextBlobId index)
  check (encoded.length > u32Max) (.conflict "encoded payload length exceeds u32::MAX")
  let blob := newBlob blobId codec logicalLen encoded
  appendBlobStep env seq checksumEnabled blob
  recordAppendedBlob env seq c index blob
  return (seq, blobId)

end

end Holo.Storage
