/-
Holo.Storage.LogFile — a segment file seen as a log of records.

The block map, lookup and dedup files and every data segment are segment files whose
payload is a four-byte tag followed by records.  They are written in two ways: as a
WHOLE (temporary file, sync, rename, directory sync: atomic and durable) or by an
IN-PLACE APPEND (not synced, and not atomic).  A `LogFile` keeps what the readers of
the source look at: the records, the header's sequence and checksum, bytes left behind
the end the header names, whether the last changes were synced, and the modification
time.

Main results:
* `LogFile.Sound.written`, `LogFile.Sound.appended`: both ways of writing leave a file
  whose header agrees with its payload, up to a checksum that has become zero;
* `LogFile.load_eq_ok`, `LogFile.load_of_loadable`: what the bounded readers accept;
* `LogFile.table_written`: the table behind the log.
-/
import Holo.Lib.RecordLog
import Holo.Storage.Records
import Holo.Storage.Segment

namespace Holo.Storage

open Lib

/-! ## §1. Kinds of logs and log files. -/

/-- What tells one log from another: its tag, the bytes of a record, the id by which a later
record replaces an earlier one, the key the readers sort by, and the names its errors
use. -/
structure LogKind (R : Type) where
  tag : Bytes
  encode : R → Bytes
  id : R → Nat
  sortKey : R → Nat
  cacheName : String
  idName : String
  tag_length : tag.length = 4

/-- The block map log (`BMV3`). -/
def blkMapLog : LogKind BlkMapRecord where
  tag := [66, 77, 86, 51]
  encode := BlkMapRecord.encode
  id := BlkMapRecord.recordId
  sortKey := BlkMapRecord.logicalStart
  cacheName := "blk map"
  idName := "blk map record ID"
  tag_length := rfl

/-- The lookup log (`LPV2`). -/
def lookupLog : LogKind MapLookupRecord where
  tag := [76, 80, 86, 50]
  encode := MapLookupRecord.encode
  id := MapLookupRecord.lookupId
  sortKey := MapLookupRecord.logicalMin
  cacheName := "lookup"
  idName := "lookup ID"
  tag_length := rfl

/-- The dedup log (`DDV2`). -/
def dedupLog : LogKind DedupIndexEntry where
  tag := [68, 68, 86, 50]
  encode := DedupIndexEntry.encode
  id := DedupIndexEntry.entryId
  sortKey := DedupIndexEntry.entryId
  cacheName := "dedup"
  idName := "dedup entry ID"
  tag_length := rfl

/-- A data segment (`DTV2`). -/
def dataLog : LogKind DataBlob where
  tag := [68, 84, 86, 50]
  encode := DataBlob.encode
  id := DataBlob.blobId
  sortKey := DataBlob.blobId
  cacheName := "data"
  idName := "data blob ID"
  tag_length := rfl

/-- A segment file that holds a log.  `records = none` is the empty payload, which has no tag;
`tail` counts the bytes after the end of the payload the header names. -/
structure LogFile (R : Type) where
  sequence : Nat
  records : Option (List R)
  checksum : Nat
  tail : Nat
  synced : Bool
  mtime : Nat
  deriving Repr, DecidableEq

namespace LogFile

variable {R : Type}

section

variable (k : LogKind R) (f : LogFile R)

/-- The records, oldest first. -/
def log : List R := f.records.getD []

/-- The payload the header names. -/
def payload : Bytes :=
  match f.records with
  | none => []
  | some rs => k.tag ++ rs.flatMap k.encode

/-- The size of the file. -/
def len : Nat :=
  segmentHeaderV2TotalSize + (f.payload k).length + f.tail

/-- `FileStamp`: the size and the modification time. -/
def stamp : Nat × Nat := (f.len k, f.mtime)

/-- The table behind the log: the latest record of each id. -/
def table : List R := latest k.id f.log

/-- `write_segment_file`: the file replaced as a whole. -/
def written (sequence : Nat) (records : Option (List R)) (now : Nat) : LogFile R where
  sequence := sequence
  records := records
  checksum := crc32c (payload k ⟨sequence, records, 0, 0, true, now⟩)
  tail := 0
  synced := true
  mtime := now

/-- `append_segment_payload_parts`: a file with an empty payload is replaced as a whole, any
other is appended to in place, over what may stand behind its end. -/
def appended (checksumEnabled : Bool) (rs : List R) (now : Nat) (f : LogFile R) : LogFile R :=
  match f.records with
  | none => written k (satAdd64 f.sequence 1) (some rs) now
  | some old =>
    { sequence := satAdd64 f.sequence 1
      records := some (old ++ rs)
      checksum :=
        if checksumEnabled ∧ f.checksum ≠ 0 then crc32cAppend f.checksum (rs.flatMap k.encode)
        else 0
      tail := f.tail - (rs.flatMap k.encode).length
      synced := false
      mtime := now }

/-- An in-place append that wrote `cut` bytes and no header. -/
def tornAppend (rs : List R) (cut now : Nat) (f : LogFile R) : LogFile R :=
  match f.records with
  | none => f
  | some _ =>
    { f with
      tail := max f.tail (min cut (rs.flatMap k.encode).length), synced := false, mtime := now }

/-- `sync_all`. -/
def sync : LogFile R := { f with synced := true }

/-- `read_segment_file`: the header against the payload, no bound. -/
def readSegmentFile : Except StorageError (List R) :=
  if f.tail ≠ 0 then .error (.corrupt "payload length mismatch")
  else if f.checksum ≠ crc32c (f.payload k) then .error (.corrupt "payload checksum mismatch")
  else .ok f.log

/-- `read_segment_file_bounded` at the maintenance bound. -/
def readBounded : Except StorageError (List R) :=
  if f.len k > maxMaintenanceMetadataBytes then .error .metadataBudgetExceeded
  else f.readSegmentFile k

/-- The bounded read and the record count of the log decoders. -/
def load : Except StorageError (List R) :=
  match f.readBounded k with
  | .error e => .error e
  | .ok rs =>
    match checkedMetadataRecordCount rs.length with
    | .error e => .error e
    | .ok _ => .ok rs

/-! ## §2. Soundness of a file. -/

/-- The header agrees with the payload, or its checksum has become zero and stays so. -/
structure Sound : Prop where
  tail : f.tail = 0
  checksum : f.checksum = crc32c (f.payload k) ∨ f.checksum = 0

/-- What `load` accepts. -/
structure Loadable : Prop where
  len : f.len k ≤ maxMaintenanceMetadataBytes
  count : f.log.length ≤ maxMaintenanceMetadataRecords
  tail : f.tail = 0
  checksum : f.checksum = crc32c (f.payload k)

instance : Decidable (f.Loadable k) :=
  decidable_of_iff
    (f.len k ≤ maxMaintenanceMetadataBytes ∧ f.log.length ≤ maxMaintenanceMetadataRecords ∧
      f.tail = 0 ∧ f.checksum = crc32c (f.payload k))
    ⟨fun ⟨a, b, c, d⟩ => ⟨a, b, c, d⟩, fun h => ⟨h.len, h.count, h.tail, h.checksum⟩⟩

end

variable {k : LogKind R} {f : LogFile R} {rs : List R} {now : Nat}

@[simp] theorem payload_written (seq : Nat) (records : Option (List R)) :
    (written k seq records now).payload k = (match records with
        | none => []
        | some rs => k.tag ++ rs.flatMap k.encode) := rfl

@[simp] theorem log_written (seq : Nat) (records : Option (List R)) :
    (written k seq records now).log = records.getD [] := rfl

@[simp] theorem log_sync (f : LogFile R) : f.sync.log = f.log := rfl

theorem log_appended (sum : Bool) : (f.appended k sum rs now).log = f.log ++ rs := by
  grind [appended, log, written]

theorem Sound.written (seq : Nat) (records : Option (List R)) :
    (LogFile.written k seq records now).Sound k :=
  ⟨rfl, .inl rfl⟩

/-- **An append keeps a sound file sound.** -/
theorem Sound.appended (h : f.Sound k) : (f.appended k true rs now).Sound k := by
  unfold LogFile.appended
  split
  next => exact Sound.written _ _
  next old hold =>
    refine ⟨by simp [h.tail], ?_⟩
    by_cases hzero : f.checksum = 0
    · exact .inr (by simp [hzero])
    left
    have hsum : f.checksum = crc32c (f.payload k) := h.checksum.resolve_right hzero
    grind [payload, crc32c_append]

/-- `read_segment_file` on a sound file fails only for a checksum that became zero. -/
theorem readSegmentFile_of_sound (hsum : f.checksum = crc32c (f.payload k)) (htail : f.tail = 0) :
    f.readSegmentFile k = .ok f.log := by
  unfold readSegmentFile
  rw [if_neg (by simp [htail]), if_neg (by simp [hsum])]

theorem readSegmentFile_eq_ok (h : f.readSegmentFile k = .ok rs) :
    rs = f.log ∧ f.tail = 0 ∧ f.checksum = crc32c (f.payload k) := by
  unfold readSegmentFile at h
  split at h
  next => cases h
  next htail =>
    split at h
    next => cases h
    next hsum =>
      injection h with h
      exact ⟨h.symm, by simpa using htail, by simpa using hsum⟩

/-- **The bounded readers accept what is loadable**, and return its records. -/
theorem load_of_loadable (h : f.Loadable k) : f.load k = .ok f.log := by
  have hlen : ¬ f.len k > maxMaintenanceMetadataBytes := not_lt.mpr h.len
  have hcount : ¬ f.log.length > maxMaintenanceMetadataRecords := not_lt.mpr h.count
  unfold load readBounded
  rw [if_neg hlen, readSegmentFile_of_sound h.checksum h.tail]
  simp only [checkedMetadataRecordCount, if_neg hcount]

/-- **What the bounded readers return**, they return of a loadable file. -/
theorem load_eq_ok (h : f.load k = .ok rs) : rs = f.log ∧ f.Loadable k := by
  unfold load readBounded at h
  by_cases hlen : f.len k > maxMaintenanceMetadataBytes
  · rw [if_pos hlen] at h
    cases h
  rw [if_neg hlen] at h
  split at h
  next => cases h
  next rs' hread =>
    obtain ⟨rfl, htail, hsum⟩ := readSegmentFile_eq_ok hread
    unfold checkedMetadataRecordCount at h
    split at h
    next => cases h
    next c hc =>
      split at hc
      next => cases hc
      next hcount =>
        injection h with h
        exact ⟨h.symm, not_lt.mp hlen, not_lt.mp hcount, htail, hsum⟩

/-- A file that read back within the bound, or the reason why not. -/
theorem readBounded_of_loadable (h : f.Loadable k) : f.readBounded k = .ok f.log := by
  unfold readBounded
  rw [if_neg (not_lt.mpr h.len), readSegmentFile_of_sound h.checksum h.tail]

/-! ## §3. The table behind the log. -/

theorem table_nodup (f : LogFile R) : ((f.table k).map k.id).Nodup := latest_keys_nodup _ _

theorem table_written {seq : Nat} (h : (rs.map k.id).Nodup) :
    (written k seq (some rs) now).table k = rs := latest_of_nodup h

@[simp] theorem table_sync (f : LogFile R) : f.sync.table k = f.table k := rfl

end LogFile

end Holo.Storage
