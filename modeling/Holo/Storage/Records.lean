/-
Holo.Storage.Records — the records of the metadata logs, and their bytes.

Three append-only logs (block map, lookup, dedup) hold fixed-size records behind a
four-byte tag; the reclaim list and the segment index are written as a whole.
-/
import Holo.Storage.Compression

namespace Holo.Storage

open Lib List

/-! ## §1. Logs of fixed-size records. -/

variable {size : Nat} {R : Type}

theorem length_flatMap_const {encode : R → Bytes} (h : ∀ r, (encode r).length = size)
    (rs : List R) :
    (rs.flatMap encode).length = size * rs.length := by
  induction rs with
  | nil => rfl
  | cons r rs ih =>
    rw [flatMap_cons, length_append, h, ih, length_cons, Nat.mul_succ]
    omega

/-! ## §2. Block map records. -/

inductive BlkMapState where
  | active | stale
  deriving Repr, DecidableEq

/-- The stored byte of a state. -/
def BlkMapState.toByte : BlkMapState → Nat
  | .active => 1
  | .stale => 2

inductive PayloadChecksumAlgorithm where
  | none | fnv1a32 | crc32c
  deriving Repr, DecidableEq

/-- The stored byte of an algorithm. -/
def PayloadChecksumAlgorithm.toByte : PayloadChecksumAlgorithm → Nat
  | .none => 0
  | .fnv1a32 => 1
  | .crc32c => 2

/-- `BlkMapRecord`: a range of logical blocks and the blob that stores it. -/
structure BlkMapRecord where
  recordId : Nat
  logicalStart : Nat
  logicalLen : Nat
  physicalSegmentId : Nat
  physicalOffset : Nat
  filemarkCount : Nat
  state : BlkMapState
  dedupEntryId : Nat
  compression : CompressionCodec
  compressedLen : Nat
  payloadChecksum : Nat
  payloadChecksumAlgorithm : PayloadChecksumAlgorithm
  deriving Repr, DecidableEq

section

variable (r : BlkMapRecord)

def BlkMapRecord.logicalEnd : Nat := satAdd64 r.logicalStart r.logicalLen

def BlkMapRecord.encode : Bytes :=
  leBytes 8 r.recordId ++ (leBytes 8 r.logicalStart ++ (leBytes 4 r.logicalLen ++
    (leBytes 8 r.physicalSegmentId ++ (leBytes 8 r.physicalOffset ++
      (leBytes 4 r.filemarkCount ++ (leBytes 1 r.state.toByte ++ (leBytes 8 r.dedupEntryId ++
        (leBytes 1 r.compression.toByte ++ (leBytes 4 r.compressedLen ++
          (leBytes 4 r.payloadChecksum ++ leBytes 1 r.payloadChecksumAlgorithm.toByte))))))))))

end

/-! ## §3. Lookup records. -/

/-- `MapLookupRecord`: which block map records describe a range of logical blocks. -/
structure MapLookupRecord where
  lookupId : Nat
  logicalMin : Nat
  logicalMax : Nat
  blkMapRefStart : Nat
  blkMapRefEnd : Nat
  deriving Repr, DecidableEq

def MapLookupRecord.encode (r : MapLookupRecord) : Bytes :=
  leBytes 8 r.lookupId ++ (leBytes 8 r.logicalMin ++ (leBytes 8 r.logicalMax ++
    (leBytes 8 r.blkMapRefStart ++ leBytes 8 r.blkMapRefEnd)))

@[simp] theorem MapLookupRecord.length_encode (r : MapLookupRecord) : r.encode.length = 40 := by
  simp [MapLookupRecord.encode]

/-! ## §4. Dedup entries. -/

/-- `DEDUP_IDENTITY_BLAKE3_128`. -/
def dedupIdentityBlake3 : Nat := 1

/-- `DedupIndexEntry`: a payload identity, the blob that stores it and how many active block
map records share it. -/
structure DedupIndexEntry where
  entryId : Nat
  fingerprintHi : Nat
  fingerprintLo : Nat
  payloadChecksum : Nat
  logicalLen : Nat
  storedBlobId : Nat
  storedLen : Nat
  compression : CompressionCodec
  identityVersion : Nat
  refCount : Nat
  deriving Repr, DecidableEq

def DedupIndexEntry.encode (e : DedupIndexEntry) : Bytes :=
  leBytes 8 e.entryId ++ (leBytes 8 e.fingerprintHi ++ (leBytes 8 e.fingerprintLo ++
    (leBytes 4 e.payloadChecksum ++ (leBytes 4 e.logicalLen ++ (leBytes 8 e.storedBlobId ++
      (leBytes 4 e.storedLen ++ (leBytes 1 e.compression.toByte ++
        (leBytes 1 e.identityVersion ++ (leBytes 2 0 ++ leBytes 4 e.refCount)))))))))

@[simp] theorem DedupIndexEntry.length_encode (e : DedupIndexEntry) : e.encode.length = 52 := by
  simp [DedupIndexEntry.encode]

/-! ## §5. Reclaim candidates. -/

inductive ReclaimReason where
  | superseded | truncated | compacted
  deriving Repr, DecidableEq

structure ReclaimCandidate where
  candidateId : Nat
  blkMapRecordId : Nat
  reason : ReclaimReason
  safeToReclaim : Bool
  deriving Repr, DecidableEq

/-! ## §6. Data blobs. -/

/-- `DataBlob`: one stored payload, with its own header. -/
structure DataBlob where
  blobId : Nat
  codec : CompressionCodec
  logicalLen : Nat
  storedLen : Nat
  payloadChecksum : Nat
  bytes : Bytes
  deriving Repr, DecidableEq

/-- `DataBlobMeta`: the header of a blob and where its bytes are.  A blob has a checksum over its
id, length and bytes in segments of version 2 only. -/
structure DataBlobMeta where
  blobId : Nat
  codec : CompressionCodec
  logicalLen : Nat
  storedLen : Nat
  payloadChecksum : Nat
  payloadOffset : Nat
  v2Integrity : Bool
  deriving Repr, DecidableEq

/-- `encode_data_blob_record`. -/
def DataBlob.encode (b : DataBlob) : Bytes :=
  leBytes 8 b.blobId ++ (leBytes 1 b.codec.toByte ++ (leBytes 3 0 ++ (leBytes 4 b.logicalLen ++
    (leBytes 4 b.storedLen ++ (leBytes 4 b.payloadChecksum ++ b.bytes)))))

def blobIntegrityChecksum (blobId logicalLen : Nat) (bytes : Bytes) : Nat :=
  crc32c (leBytes 8 blobId ++ (leBytes 4 logicalLen ++ bytes))

@[simp] theorem DataBlob.length_encode (b : DataBlob) : b.encode.length = 24 + b.bytes.length := by
  simp only [DataBlob.encode, length_append, length_leBytes]
  omega

end Holo.Storage
