/-
Holo.Storage.DataPath — the data path: writing, reading, unmapping, flushing and resetting.

The functions of `data_path.rs`, over the logs, the data segments and the checkpoint.  A
write marks the checkpoint dirty, stores the payload (or finds it stored), appends a block
map record and a lookup record, and every so often syncs everything and marks the
checkpoint clean again.
-/
import Holo.Storage.DataSegments
import Holo.Storage.Dedup
import Holo.Storage.Reclaim

namespace Holo.Storage

open Lib Program

/-! ## §1. The checkpoint through its cache. -/

/-- Put a cache entry for the checkpoint. -/
def setCachedCheckpoint (c : MetadataCheckpoint) : StorageM Unit :=
  modify fun w => { w with mem := { w.mem with checkpoint := some c } }

section

variable (env : Env)

def loadCheckpointCached : StorageM MetadataCheckpoint := do
  let w ← get
  match w.mem.checkpoint with
  | some c =>
    if env.trustHotCache then return c
    else
      setCachedCheckpoint w.disk.checkpoint
      return w.disk.checkpoint
  | none =>
    setCachedCheckpoint w.disk.checkpoint
    return w.disk.checkpoint

/-- The disk with the checkpoint replaced. -/
def Disk.putCheckpoint (d : Disk) (c : MetadataCheckpoint) : Disk := { d with checkpoint := c }

def persistCheckpointCached (c : MetadataCheckpoint) : StorageM Unit := do
  atomicStep env fun _ d => d.putCheckpoint c
  setCachedCheckpoint c

/-- The checkpoint with the next epoch. -/
def MetadataCheckpoint.next (c : MetadataCheckpoint) (flags : CheckpointFlags) :
    MetadataCheckpoint := { c with epoch := satAdd64 c.epoch 1, flags := flags }

/-- `mark_checkpoint_dirty`, which is also how a write begins. -/
def markCheckpointDirty : StorageM MetadataCheckpoint := do
  let c ← loadCheckpointCached env
  if c.flags = .clean then
    persistCheckpointCached env (c.next .dirty)
    return c.next .dirty
  else return c

/-! ## §2. Syncing. -/

/-- The loop of `sync_indexed_segments`. -/
def syncSegments (seqs : List Nat) : StorageM Unit :=
  forEach seqs fun seq => do
    let w ← get
    match w.disk.segs.lookup seq with
    | none => return ()
    | some f =>
      check (f.tail ≠ 0) (.corrupt "segment size mismatch")
      atomicStep env fun _ d => d.putSeg seq f.sync

def syncIndexedSegments : StorageM Unit := do
  let index ← loadSegmentIndexForAppend
  syncSegments env index.segments

/-- `sync_layout_segments`.  The index file is replaced and synced in one, so that syncing it
again changes nothing. -/
def syncLayoutSegments : StorageM Unit := do
  syncIndexedSegments env
  flushSegmentIndexForAppend env
  atomicStep env fun _ d => d
  syncLog env blkMapSlot
  syncLog env lookupSlot
  syncLog env dedupSlot

/-- Set the number of writes since the last flush. -/
def setPending (n : Nat) : StorageM Unit :=
  modify fun w => { w with mem := { w.mem with pending := n } }

/-- `flush_pending_writes`: whether there was anything to flush. -/
def flushPendingWrites : StorageM Bool := do
  let c ← loadCheckpointCached env
  let w ← get
  if w.mem.pending = 0 ∧ c.flags = .clean then return false
  else
    syncLayoutSegments env
    persistCheckpointCached env (c.next .clean)
    setPending 0
    return true

/-! ## §3. Storing a payload. -/

structure WriteOptions where
  dedupEnabled : Bool
  preferredCodec : CompressionCodec
  forceSync : Bool
  payloadChecksumEnabled : Bool
  deriving Repr, DecidableEq

inductive IngestFailpoint where
  | afterDirtyCheckpoint | afterBlobPersist | afterBlkMapAppend | afterLookupAppend
  deriving Repr, DecidableEq

/-- Where a payload is stored and how. -/
structure BlobPlace where
  blobId : Nat
  codec : CompressionCodec
  storedLen : Nat
  segmentId : Nat
  deriving Repr, DecidableEq

/-- What the dedup stage of a write hands on. -/
structure StoredPayload where
  dedupEntryId : Nat
  place : BlobPlace
  dedupHit : Bool
  collisionDetected : Bool
  deriving Repr, DecidableEq

section

variable (opts : WriteOptions) (e : DedupIndexEntry) (payload : Bytes)

/-- The payload checksum of the dedup identity. -/
def identityChecksum : Nat :=
  if opts.payloadChecksumEnabled then fnv1a payload else 0

/-- The payload checksum of the block map record. -/
def blockMapChecksum : Nat :=
  if opts.payloadChecksumEnabled then crc32c payload else 0

def shouldSkipColdDedup (w : World) : Bool :=
  match w.mem.dedup, env.dedupColdLoadMaxBytes with
  | some _, _ => false
  | none, none => false
  | none, some limit => decide (limit < w.disk.dedup.len dedupLog)

/-- Compress a payload (`prepare_payload_for_write`) and append it as a new blob. -/
def storeBlob : StorageM BlobPlace := do
  let (codec, encoded) := compressPayload env.codecs opts.preferredCodec payload
  check (encoded.length > u32Max) (.conflict "encoded payload length exceeds u32::MAX")
  let (seq, blobId) ←
    appendDataBlob env codec payload.length encoded opts.payloadChecksumEnabled
  return ⟨blobId, codec, encoded.length, seq⟩

def shouldVerifyDedupHit : Bool :=
  decide (e.identityVersion ≠ dedupIdentityBlake3) || env.verifyDedupHits

def dedupEntryMatchesPayload : StorageM Bool := do
  if e.logicalLen ≠ payload.length then return false
  else
    let segmentId ← locateBlobSegmentId env e.storedBlobId
    let blob ← loadBlobByLocation env segmentId e.storedBlobId
    if blob.logicalLen ≠ e.logicalLen ∨ blob.storedLen ≠ e.storedLen then return false
    else if blob.codec = .none then return decide (blob.bytes = payload)
    else
      let candidate ← ofExcept
        (decompressPayload env.codecs blob.codec blob.bytes blob.logicalLen)
      return decide (candidate = payload)

/-- Whether a hit is taken: unverified, or the stored payload is the same. -/
def acceptHit : StorageM Bool := do
  if shouldVerifyDedupHit env e then dedupEntryMatchesPayload env e payload
  else return true

section

variable (fp : Nat × Nat) (payload : Bytes)

/-- The entry a write asks the dedup index to hold. -/
def askedEntry (p : BlobPlace) : DedupIndexEntry where
  entryId := 0
  fingerprintHi := fp.1
  fingerprintLo := fp.2
  payloadChecksum := identityChecksum opts payload
  logicalLen := payload.length
  storedBlobId := p.blobId
  storedLen := p.storedLen
  compression := p.codec
  identityVersion := dedupIdentityBlake3
  refCount := 1

/-- Where the blob of an entry is. -/
def placeOfEntry : StorageM BlobPlace := do
  let segmentId ← locateBlobSegmentId env e.storedBlobId
  return ⟨e.storedBlobId, e.compression, e.storedLen, segmentId⟩

/-- The hit is taken: one more reference on the entry. -/
def storeHit : StorageM StoredPayload := do
  let _ ← upsertDedupEntry env
    { e with entryId := 0, identityVersion := dedupIdentityBlake3, refCount := 1 }
  let place ← placeOfEntry env e
  return ⟨e.entryId, place, true, false⟩

/-- A hit whose stored payload differs: the payload gets a blob and an entry of its own. -/
def storeFalseHit : StorageM StoredPayload := do
  let place ← storeBlob env opts payload
  let e ← insertDedupCollisionEntry env (askedEntry opts fp payload place)
  return ⟨e.entryId, place, false, true⟩

/-- No entry of this identity: a new blob, then its entry. -/
def storeMiss (collision : Bool) : StorageM StoredPayload := do
  let place ← storeBlob env opts payload
  let result ← upsertDedupEntry env (askedEntry opts fp payload place)
  match result with
  | .hit e =>
    let place ← placeOfEntry env e
    return ⟨e.entryId, place, true, collision⟩
  | .inserted e => return ⟨e.entryId, place, false, collision⟩
  | .collisionInserted e => return ⟨e.entryId, place, false, true⟩

end

/-- The dedup stage of `write_logical_block`. -/
def storePayload : StorageM StoredPayload := do
  let w ← get
  if opts.dedupEnabled ∧ ¬ shouldSkipColdDedup env w then
    let fp := env.fingerprint128 payload
    let identity ←
      lookupIdentity env fp.1 fp.2 (identityChecksum opts payload) payload.length
    match identity with
    | .hit e =>
      let accepted ← acceptHit env e payload
      if accepted then storeHit env e else storeFalseHit env opts fp payload
    | .collision => storeMiss env opts fp payload true
    | .miss => storeMiss env opts fp payload false
  else
    let place ← storeBlob env opts payload
    return ⟨0, place, false, false⟩

end

/-! ## §4. Writing a logical block. -/

structure WriteReport where
  recordId : Nat
  dedupEntryId : Nat
  dedupHit : Bool
  collisionDetected : Bool
  codecUsed : CompressionCodec
  checkpointEpoch : Nat
  deriving Repr, DecidableEq

section

variable (opts : WriteOptions) (logicalStart : Nat) (failpoint : Option IngestFailpoint)

section

variable (payload : Bytes) (filemarkCount : Nat)

/-- The block map record of a write, before it has its id. -/
def writeRecord (s : StoredPayload) : BlkMapRecord where
  recordId := 0
  logicalStart := logicalStart
  logicalLen := payload.length
  physicalSegmentId := s.place.segmentId
  physicalOffset := s.place.blobId
  filemarkCount := filemarkCount
  state := .active
  dedupEntryId := s.dedupEntryId
  compression := s.place.codec
  compressedLen := s.place.storedLen
  payloadChecksum := blockMapChecksum opts payload
  payloadChecksumAlgorithm := if opts.payloadChecksumEnabled then .crc32c else .none

/-- The lookup record a write appends for its block map record. -/
def writeLookup (r : BlkMapRecord) : MapLookupRecord where
  lookupId := 0
  logicalMin := r.logicalStart
  logicalMax := r.logicalEnd - 1
  blkMapRefStart := r.recordId
  blkMapRefEnd := r.recordId

/-- Stop here if this is the failpoint asked for. -/
def failAt (here : IngestFailpoint) (msg : String) :
    StorageM Unit := check (failpoint = some here) (.conflict msg)

/-- The end of a write: one more pending write, and a flush if one is due. -/
def finishWrite (c : MetadataCheckpoint) : StorageM MetadataCheckpoint := do
  let w ← get
  let pending := satAdd32 w.mem.pending 1
  setPending pending
  if opts.forceSync ∨ env.syncEveryWrites ≤ pending ∨ failpoint.isSome then
    syncLayoutSegments env
    persistCheckpointCached env (c.next .clean)
    setPending 0
    return c.next .clean
  else return c

def writeLogicalBlock
    (opts : WriteOptions) (failpoint : Option IngestFailpoint) : StorageM WriteReport := do
  check (payload = []) (.conflict "logical payload cannot be empty")
  let c ← markCheckpointDirty env
  failAt failpoint .afterDirtyCheckpoint "ingest interrupted after dirty checkpoint"
  check (payload.length > u32Max) (.conflict "logical payload length exceeds u32::MAX")
  let stored ← storePayload env opts payload
  failAt failpoint .afterBlobPersist "ingest interrupted after blob persist"
  let appended ←
    appendBlkMapRecord env (writeRecord opts logicalStart payload filemarkCount stored)
  failAt failpoint .afterBlkMapAppend "ingest interrupted after blk_map append"
  let _ ← appendLookupRecord env (writeLookup appended)
  failAt failpoint .afterLookupAppend "ingest interrupted after lookup append"
  let c ← finishWrite env opts failpoint c
  return ⟨appended.recordId, stored.dedupEntryId, stored.dedupHit, stored.collisionDetected,
    stored.place.codec, c.epoch⟩

end

end

/-! ## §5. Reading. -/

structure LogicalReadResult where
  recordId : Nat
  logicalStart : Nat
  logicalLen : Nat
  dedupEntryId : Nat
  codecUsed : CompressionCodec
  payload : Bytes
  deriving Repr, DecidableEq

/-- `verify_logical_payload_checksum`. -/
def payloadChecksumMatches (algorithm : PayloadChecksumAlgorithm) (expected : Nat)
    (payload : Bytes) : Bool :=
  match algorithm with
  | .none => true
  | .fnv1a32 => decide (fnv1a payload = expected)
  | .crc32c => decide (crc32c payload = expected)

/-- The payload of a record, read from its blob. -/
def readRecord (record : BlkMapRecord) : StorageM LogicalReadResult := do
  let blob ← loadBlobByLocation env record.physicalSegmentId record.physicalOffset
  let payload ← ofExcept
    (decodeStored env.codecs record.compression blob.bytes record.logicalLen)
  check (!payloadChecksumMatches record.payloadChecksumAlgorithm record.payloadChecksum payload)
    (.corrupt "payload checksum mismatch on read")
  return ⟨record.recordId, record.logicalStart, record.logicalLen, record.dedupEntryId,
    record.compression, payload⟩

def readLogicalBlock (block : Nat) : StorageM (Option LogicalReadResult) := do
  let lookup ← locateLogicalBlock env block
  match lookup with
  | none => return none
  | some l =>
    let record ← locateActiveRecord env block l.blkMapRefStart l.blkMapRefEnd
    match record with
    | none => return none
    | some r =>
      let result ← readRecord env r
      return some result

/-! ## §6. Unmapping. -/

structure UnmapReport where
  requestedStart : Nat
  requestedLen : Nat
  staledRecordIds : List Nat
  dedupRefcountDecrements : Nat
  reclaimSafePromotions : Nat
  deriving Repr, DecidableEq

section

variable (records : List BlkMapRecord) (d : Disk) (seq : Nat)

/-- The active records that overlap a range. -/
def overlapping (start stop : Nat) : List BlkMapRecord :=
  records.filter fun r =>
    r.isActive && decide (start < r.logicalEnd ∧ r.logicalStart < stop)

/-- The dedup entries that records refer to. -/
def dedupRefs : List Nat :=
  (records.filter (fun r => decide (0 < r.dedupEntryId))).map (·.dedupEntryId)

def runUnmap (logicalStart logicalLen : Nat) : StorageM UnmapReport := do
  let records ← loadBlkMapRecords env
  let hit := overlapping records logicalStart (satAdd64 logicalStart logicalLen)
  if hit = [] then return ⟨logicalStart, logicalLen, [], 0, 0⟩
  else
    let updated ← markBlkMapStaleBatch env (hit.map (·.recordId))
    let decremented ← decrementRefCounts env (dedupRefs hit)
    let _ ← rebuildLookupFromBlkMap env
    let ids := updated.map (·.recordId)
    upsertReclaimCandidates env ids .truncated
    let promotions ← refreshReclaimSafety env
    return ⟨logicalStart, logicalLen, ids, decremented.length, promotions⟩

/-! ## §7. Resetting. -/

/-- The disk without one data segment. -/
def Disk.removeSeg : Disk := { d with segs := d.segs.erase seq }

/-- `is_indexed_data_segment_name`: the file names with six digits. -/
def isIndexedSegment : Bool := decide (seq < 1000000)

/-- The numbers of the data segments in the order of the directory listing. -/
def listedSegments : List Nat :=
  sortByKey env.dirRank (d.segs.keys.filter isIndexedSegment)

def removeDataSegmentFiles : StorageM Unit := do
  let w ← get
  let listed := listedSegments env w.disk
  forEach listed fun seq => do
    invalidateDataSegmentCache seq
    atomicStep env fun _ d => d.removeSeg seq
  if listed = [] then return () else atomicStep env fun _ d => d

/-- `update_data_cache` for a segment without blobs. -/
def cacheEmptySegment : StorageM Unit := do
  let w ← get
  match w.disk.segs.lookup seq with
  | none => throw .io
  | some f => setCachedData seq ⟨f.stamp dataLog, []⟩

end

def resetLayoutForOverwrite : StorageM Unit := do
  let c ← loadCheckpointCached env
  let dirty := c.next .dirty
  persistCheckpointCached env dirty
  persistBlkMapRecords env []
  persistLookupRecords env []
  atomicStep env fun _ d => d.putReclaim none
  persistDedupEntries env []
  removeDataSegmentFiles env
  let index := .new env.configuredMaxSegmentSize
  writeEmptySegment env 0 dirty.epoch
  persistSegmentIndex env index
  storeSegmentIndexClean index
  cacheEmptySegment 0
  persistCheckpointCached env
    { dirty.next .clean with activeBlkMapRoot := 2, activeLookupRoot := 3 }
  setPending 0

end

end Holo.Storage
