/-
Holo.Storage.Recovery — opening a layout, and bringing a dirty one back.

`recover_dirty_state` checks that the metadata fits its budget, that every active block
map record still has its blob, and then rebuilds everything else from the block map: the
lookup log, the segment index and the dedup reference counts.
-/
import Holo.Storage.DataPath

namespace Holo.Storage

open Lib Program

/-! ## §1. A new layout, and opening one. -/

section

variable (env : Env) (d : Disk) (seq : Nat)

/-- The files `initialize_layout` makes in an empty directory. -/
def Disk.fresh (now : Nat) : Disk where
  checkpoint := ⟨1, 1, 2, 3, .clean⟩
  blkMap := .written blkMapLog 0 none now
  lookup := .written lookupLog 0 none now
  dedup := .written dedupLog 0 none now
  reclaim := none
  segIndex := ⟨.new env.configuredMaxSegmentSize, now⟩
  segs := AList.insert 0 (.written dataLog 0 none now) ∅
  runtime := ⟨none, none, none⟩

/-- A layout that was just made. -/
def World.fresh (env : Env) : World where
  disk := Disk.fresh env (env.clock 0)
  mem := .empty
  ticks := 0
  faults := []

/-- `validate_segment_shape` of a data segment. -/
def validateSegmentShape : Except StorageError Unit :=
  match d.segs.lookup seq with
  | none => .error .io
  | some f => if f.tail ≠ 0 then .error (.corrupt "segment size mismatch") else .ok ()

/-- `load_layout`: the checkpoint, if every file it looks at is accepted. -/
def loadLayout : StorageM MetadataCheckpoint := do
  let index ← loadSegmentIndex
  forEach index.segments fun seq => do
    let w ← get
    ofExcept (validateSegmentShape w.disk seq)
  let w ← get
  let _ ← ofExcept (w.disk.blkMap.readSegmentFile blkMapLog)
  let _ ← ofExcept (w.disk.lookup.readSegmentFile lookupLog)
  let _ ← ofExcept (w.disk.dedup.readSegmentFile dedupLog)
  return w.disk.checkpoint

/-! ## §2. The budget. -/

/-- The size of the filemarks file. -/
def filemarksLen (marks : List Nat) : Nat := 8 + 8 * marks.length

/-- The sizes of the files `recover_dirty_state` weighs first (`none`: not there). -/
def metadataFileSizes : List (Option Nat) :=
  [some (segmentHeaderV2TotalSize + 44), some (d.blkMap.len blkMapLog),
    some (d.lookup.len lookupLog), some (reclaimLen d.reclaim), some (d.dedup.len dedupLog),
    some d.segIndex.index.fileLen, d.runtime.filemarks.map filemarksLen,
    d.runtime.usage.map UsageCounters.fileLen]

/-- `preflight_filemarks_record_limit`. -/
def preflightFilemarks (marks : Option (List Nat)) : Except StorageError Unit :=
  match marks with
  | none => .ok ()
  | some marks =>
    if marks.length > maxMaintenanceMetadataRecords then .error .metadataBudgetExceeded
    else .ok ()

def preflightDirtyMetadataRecords : StorageM Unit := do
  let _ ← loadSegmentIndex
  let _ ← loadBlkMapRecords env
  let _ ← loadLookupRecords env
  let _ ← loadReclaimCandidates
  let _ ← loadDedupIndex env
  let w ← get
  ofExcept (preflightFilemarks w.disk.runtime.filemarks)

/-! ## §3. Checking that every active record has its blob. -/

/-- `MAX_HEADERS` of `validate_active_blob_references_for_recovery`. -/
def maxRecoveryHeaders : Nat := 65536

def resolveActiveSegmentSeq (segmentId : Nat) : Except StorageError Nat :=
  if (d.segs.lookup segmentId).isSome then .ok segmentId
  else if segmentId = 1 ∧ (d.segs.lookup 0).isSome then .ok 0
  else .error (.corrupt "active block map references a missing data segment")

/-- The active records with the segments they are looked for in. -/
def resolveActiveRecords (d : Disk) :
    List BlkMapRecord → Except StorageError (List (Nat × BlkMapRecord))
  | [] => .ok []
  | r :: rs =>
    if r.physicalSegmentId > u32Max then
      .error (.corrupt "active physical segment ID exceeds u32")
    else match resolveActiveSegmentSeq d r.physicalSegmentId with
      | .error e => .error e
      | .ok seq =>
        match resolveActiveRecords d rs with
        | .error e => .error e
        | .ok resolved => .ok ((seq, r) :: resolved)

section

variable (active : List BlkMapRecord) (m : DataBlobMeta) (records : List BlkMapRecord)

/-- Some record's checksum is not that of the payload. -/
def checksumsDisagree (payload : Bytes) : Bool :=
  records.any fun r =>
    !payloadChecksumMatches r.payloadChecksumAlgorithm r.payloadChecksum payload

/-- `validate_active_blob_payload`.  The checksums of a raw payload are computed over it in
chunks, which gives the checksums of the whole. -/
def validateActiveBlobPayload : StorageM Unit := do
  if m.codec ≠ .none then
    check (m.storedLen > 16 * 1024 * 1024) (.corrupt "compressed active blob exceeds decode limit")
    let blob ← loadBlobById env seq m.blobId
    let payload ← ofExcept (decompressPayload env.codecs blob.codec blob.bytes m.logicalLen)
    check (checksumsDisagree records payload) (.corrupt "payload checksum mismatch on read")
  else
    check (m.storedLen ≠ m.logicalLen) (.corrupt "raw active blob length mismatch")
    let w ← get
    match w.disk.segs.lookup seq with
    | none => throw .io
    | some f =>
      let bytes ← ofExcept (readBlobPayload f m.payloadOffset m.storedLen)
      check (m.v2Integrity = true ∧
          blobIntegrityChecksum m.blobId m.logicalLen bytes ≠ m.payloadChecksum)
        (.corrupt "data blob integrity checksum mismatch")
      check (checksumsDisagree records bytes)
        (.corrupt "payload checksum mismatch during recovery")

/-- One blob header of a scanned segment against the active records that name the blob. -/
def validateBlob : StorageM Unit := do
  let records := active.filter (fun r => decide (r.physicalOffset = m.blobId))
  if records = [] then return ()
  else
    check (records.any fun r => decide (r.logicalLen ≠ m.logicalLen ∨ r.compression ≠ m.codec ∨
        r.compressedLen ≠ m.storedLen))
      (.corrupt "active map and data blob metadata disagree")
    validateActiveBlobPayload env seq m records

/-- One segment: the headers scanned so far, this segment's included. -/
def validateSegment (scanned : Nat) : StorageM Nat := do
  check (maxRecoveryHeaders ≤ scanned) .metadataBudgetExceeded
  let w ← get
  match w.disk.segs.lookup seq with
  | none => throw .io
  | some f =>
    check (f.tail ≠ 0) (.corrupt "data segment size mismatch")
    let blobs := (scanDataIndex f).take (maxRecoveryHeaders - scanned)
    check (blobs.length < (scanDataIndex f).length) .metadataBudgetExceeded
    forEach blobs (validateBlob env seq active)
    let offsets := active.map (·.physicalOffset)
    check (((blobs.map (·.blobId)).filter (fun id => decide (id ∈ offsets))).dedup.length ≠
        offsets.dedup.length)
      (.corrupt "active block map references a missing data blob")
    return scanned + blobs.length

end

/-- The loop over the segments, in the order of a hash map. -/
def validateSegments (env : Env) (resolved : List (Nat × BlkMapRecord)) :
    List Nat → Nat → StorageM Unit
  | [], _ => return ()
  | seq :: seqs, scanned => do
    let active := (resolved.filter (fun p => decide (p.1 = seq))).map (·.2)
    let scanned ← validateSegment env seq active scanned
    validateSegments env resolved seqs scanned

/-- `validate_active_blob_references_for_recovery`. -/
def validateActiveBlobReferences : StorageM Unit := do
  let records ← loadBlkMapRecords env
  let w ← get
  let resolved ← ofExcept (resolveActiveRecords w.disk (records.filter (·.isActive)))
  let seqs := sortByKey (env.hashRank w.ticks) (resolved.map (·.1)).dedup
  validateSegments env resolved seqs 0

/-! ## §4. Rebuilding the segment index. -/

def highestIndexedDataSegment : Option Nat :=
  (d.segs.keys.filter isIndexedSegment).max?

/-- The codec of the last compressed blob. -/
def lastCodec (blobs : List DataBlob) : CompressionCodec :=
  ((blobs.map (·.codec)).reverse.find? (fun c => decide (c ≠ .none))).getD .none

def rebuildSegmentDescriptor (state : SegmentState) : Except StorageError SegmentDescriptor :=
  match d.segs.lookup seq with
  | none => .error .io
  | some f => .ok
      { segmentSeq := seq
        payloadBytes := (f.payload dataLog).length
        firstBlobId := ((f.log.map (·.blobId)).min?).getD 0
        lastBlobId := ((f.log.map (·.blobId)).max?).getD 0
        state := state
        compression := lastCodec f.log
        liveBytes := f.log.foldl (fun acc b => satAdd32 acc b.storedLen) 0 }

end

/-- The descriptors of the referenced segments; the highest is the active one. -/
def rebuildDescriptors (d : Disk) (active : Nat) :
    List Nat → Except StorageError (List SegmentDescriptor)
  | [] => .ok []
  | seq :: seqs =>
    match rebuildSegmentDescriptor d seq (if seq = active then .active else .sealed) with
    | .error e => .error e
    | .ok desc =>
      match rebuildDescriptors d active seqs with
      | .error e => .error e
      | .ok descs => .ok (desc :: descs)

section

variable (env : Env) (records : List BlkMapRecord) (maxSegmentSize : Nat)

/-- The segments that active records refer to, in order. -/
def referencedSegments : List Nat :=
  sortByKey (fun n => n) ((records.filter (·.isActive)).map (·.physicalSegmentId)).dedup

/-- The highest blob id any record names, stale records included. -/
def recordHighWater : Nat :=
  (records.map (·.physicalOffset)).foldr max 0

/-- The index of a layout whose records are all stale: segment 0 starts anew. -/
def SegmentIndex.unreferenced (highest : Option Nat) : SegmentIndex where
  maxSegmentSize := maxSegmentSize
  descriptors := [.fresh 0]
  nextSegmentSeq := max (satAdd64 (highest.getD 0) 1) 1

/-- The active descriptor's last blob id raised to the high water. -/
def SegmentIndex.raiseHighWater (i : SegmentIndex) (highWater : Nat) : SegmentIndex :=
  { i with
    descriptors := modifyFirst (fun d => d.state = .active)
      (fun d => { d with lastBlobId := max d.lastBlobId highWater }) i.descriptors }

/-- The index built from the segments that are referenced. -/
def rebuildIndex (referenced : List Nat) : StorageM SegmentIndex := do
  let w ← get
  let highest := highestIndexedDataSegment w.disk
  match referenced.getLast? with
  | none =>
    writeEmptySegment env 0 0
    invalidateDataSegmentCache 0
    return .unreferenced maxSegmentSize highest
  | some active =>
    let descriptors ← ofExcept (rebuildDescriptors w.disk active referenced)
    return ⟨maxSegmentSize, descriptors, satAdd32 (max (highest.getD active) active) 1⟩

def rebuildSegmentIndexFromBlkMap : StorageM Unit := do
  let persisted ← attempt loadSegmentIndex
  let maxSegmentSize := match persisted with
    | .ok index => index.maxSegmentSize
    | .error _ => env.configuredMaxSegmentSize
  let records ← loadBlkMapRecords env
  check (records.any fun r => r.isActive && decide (r.physicalSegmentId > u32Max))
    (.corrupt "physical segment id exceeds u32")
  let index ← rebuildIndex env maxSegmentSize (referencedSegments records)
  let index := index.raiseHighWater (recordHighWater records)
  persistSegmentIndex env index
  storeSegmentIndexClean index

/-! ## §5. Recovery. -/

structure RecoveryReport where
  dirtyDetected : Bool
  rebuiltLookupEntries : Nat
  dedupRefcountRepaired : Nat
  reclaimUpdates : Nat
  checkpointEpoch : Nat
  deriving Repr, DecidableEq

def collectActiveDedupEntries : StorageM (List Nat) := do
  let records ← loadBlkMapRecords env
  return dedupRefs (records.filter (·.isActive))

/-- What recovery does to a layout whose checkpoint is dirty. -/
def repairDirtyState (c : MetadataCheckpoint) : StorageM RecoveryReport := do
  preflightDirtyMetadataRecords env
  validateActiveBlobReferences env
  let rebuilt ← rebuildLookupFromBlkMap env
  rebuildSegmentIndexFromBlkMap env
  let refs ← collectActiveDedupEntries env
  let repaired ← rebuildRefCounts env refs
  let updates ← refreshReclaimSafety env
  persistCheckpointCached env (c.next .clean)
  return ⟨true, rebuilt, repaired, updates, (c.next .clean).epoch⟩

def recoverDirtyState : StorageM RecoveryReport := do
  let w ← get
  ofExcept (preflightMaintenanceMetadata (metadataFileSizes w.disk))
  let c ← loadCheckpointCached env
  if c.flags = .clean then return ⟨false, 0, 0, 0, c.epoch⟩
  else repairDirtyState env c

end

end Holo.Storage
