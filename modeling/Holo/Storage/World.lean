/-
Holo.Storage.World — one cartridge layout: its files, the caches over them, and the steps
that change a file.

The storage functions of the source are programs over a `World`.  Everything they do to
the disk goes through `diskStep`, one call for each file that is replaced, appended to,
synced or removed; a list of faults says what becomes of the coming steps (done; failed
before, after or in the middle of it).  A crash is a fault followed by the loss of all
caches.  What the program text does not fix (file times, the iteration order of hash maps
and of directories, configuration, the foreign codecs and the fingerprint) is the
environment.

Main result: `wp_diskStep` — the rule for one step.
-/
import Mathlib.Data.List.AList
import Holo.Lib.Program
import Holo.Storage.LogFile
import Holo.Storage.SegmentIndex

namespace Holo.Storage

open Lib Program

/-! ## §1. Files, caches, world. -/

/-- What the code depends on and does not determine. -/
structure Env where
  codecs : Codecs
  fingerprint128 : Bytes → Nat × Nat
  /-- The modification time a file gets at the n-th step. -/
  clock : Nat → Nat
  /-- The place of a key in a hash map built after the n-th step. -/
  hashRank : Nat → Nat → Nat
  /-- The place of a data segment in a directory listing. -/
  dirRank : Nat → Nat
  /-- `HOLO_STORAGE_TRUST_HOT_CACHE`. -/
  trustHotCache : Bool
  /-- `sync_every_writes`. -/
  syncEveryWrites : Nat
  /-- `dedup_cold_load_max_bytes`. -/
  dedupColdLoadMaxBytes : Option Nat
  /-- `HOLO_TAPE_DEDUP_VERIFY_HITS`. -/
  verifyDedupHits : Bool
  /-- `configured_max_segment_size`. -/
  configuredMaxSegmentSize : Nat

/-- The settings when no variable is set, with codecs and a fingerprint that can be run. -/
def Env.standard : Env where
  codecs := Codecs.stored
  fingerprint128 p := (p.length, p.foldl (fun n b => (256 * n + b.toNat) % 2 ^ 64) 0)
  clock := id
  hashRank _ key := key
  dirRank := id
  trustHotCache := false
  syncEveryWrites := 64
  dedupColdLoadMaxBytes := some (8 * 1024 * 1024)
  verifyDedupHits := true
  configuredMaxSegmentSize := 256 * 1024 * 1024

/-- The segment index file. -/
structure IndexFile where
  index : SegmentIndex
  mtime : Nat
  deriving Repr, DecidableEq

/-- `FileStamp` of the index file. -/
def IndexFile.stamp (f : IndexFile) : Nat × Nat := (f.index.fileLen, f.mtime)

/-- `CartridgeUsageCounters`, as far as it is kept on disk. -/
structure UsageCounters where
  loadCount : Nat
  volumeChangeReference : Nat
  lifetimeWriteOps : Nat
  lifetimeReadOps : Nat
  lifetimeFilemarkOps : Nat
  lifetimeBytesWritten : Nat
  lifetimeBytesRead : Nat
  deriving Repr, DecidableEq

/-- The bytes of one line of `usage.counters`. -/
def usageLineLen (label : String) (n : Nat) : Nat := label.length + (Nat.toDigits 10 n).length + 2

/-- The size of `usage.counters`. -/
def UsageCounters.fileLen (c : UsageCounters) : Nat :=
  usageLineLen "load_count" c.loadCount +
    usageLineLen "volume_change_reference" c.volumeChangeReference +
    usageLineLen "lifetime_write_ops" c.lifetimeWriteOps +
    usageLineLen "lifetime_read_ops" c.lifetimeReadOps +
    usageLineLen "lifetime_filemark_ops" c.lifetimeFilemarkOps +
    usageLineLen "lifetime_bytes_written" c.lifetimeBytesWritten +
    usageLineLen "lifetime_bytes_read" c.lifetimeBytesRead

/-- `RetentionPolicy`, and `RetentionRuntimeState` on disk. -/
structure RetentionPolicy where
  isWormMedia : Bool
  retentionLocked : Bool
  deriving Repr, DecidableEq

/-- The files the tape keeps beside the layout's own (`none`: not there). -/
structure RuntimeFiles where
  /-- `filemarks.state`. -/
  filemarks : Option (List Nat)
  /-- `retention.state`. -/
  retention : Option RetentionPolicy
  /-- `usage.counters`. -/
  usage : Option UsageCounters
  deriving Repr, DecidableEq

/-- The files of one layout directory.  Data segments are named by their number. -/
structure Disk where
  checkpoint : MetadataCheckpoint
  blkMap : LogFile BlkMapRecord
  lookup : LogFile MapLookupRecord
  dedup : LogFile DedupIndexEntry
  /-- `none` is the empty payload. -/
  reclaim : Option (List ReclaimCandidate)
  segIndex : IndexFile
  segs : AList (fun _ : Nat => LogFile DataBlob)
  runtime : RuntimeFiles

/-- A cached log: its table in the order the readers see it. -/
structure CachedLog (R : Type) where
  stamp : Nat × Nat
  records : List R
  logFormat : Bool
  deriving Repr, DecidableEq

/-- `CachedSegmentIndex`. -/
structure CachedIndex where
  index : SegmentIndex
  dirty : Bool
  stamp : Option (Nat × Nat)
  deriving Repr, DecidableEq

/-- `CachedDataIndex`. -/
structure CachedData where
  stamp : Nat × Nat
  blobs : List DataBlobMeta
  deriving Repr, DecidableEq

/-- The caches of one layout. -/
structure Caches where
  checkpoint : Option MetadataCheckpoint
  blkMap : Option (CachedLog BlkMapRecord)
  lookup : Option (CachedLog MapLookupRecord)
  dedup : Option (CachedLog DedupIndexEntry)
  segIndex : Option CachedIndex
  data : AList (fun _ : Nat => CachedData)
  /-- `pending_sync_writes`. -/
  pending : Nat

/-- No caches: a process that just started, or `discard_layout_caches_checked`. -/
def Caches.empty : Caches := ⟨none, none, none, none, none, ∅, 0⟩

/-- What becomes of a step. -/
inductive Fault where
  | proceed
  | before
  | after
  | torn (cut : Nat)
  deriving Repr, DecidableEq

/-- The state the storage functions work on. -/
structure World where
  disk : Disk
  mem : Caches
  /-- Steps so far. -/
  ticks : Nat
  faults : List Fault

theorem World.parts (w : World) {d : Disk} {m : Caches} (hdisk : w.disk = d) (hmem : w.mem = m) :
    ∃ ticks faults, w = ⟨d, m, ticks, faults⟩ := by
  subst hdisk hmem
  exact ⟨_, _, rfl⟩

/-- The programs of the storage layer. -/
abbrev StorageM := Program StorageError World

/-- `discard_layout_caches_checked`. -/
def discardLayoutCaches : StorageM Unit := modify fun w => { w with mem := .empty }

/-! ## §2. Steps. -/

section

variable (env : Env) (change : Nat → Disk → Disk)

/-- One change of the disk: `change` at the time it happens, `torn` if it is cut short. -/
def diskStep (torn : Nat → Nat → Disk → Disk) : StorageM Unit := fun w =>
  let now := env.clock w.ticks
  let next : World := { w with ticks := w.ticks + 1, faults := w.faults.tail }
  match w.faults.headD .proceed with
  | .proceed => (.ok (), { next with disk := change now w.disk })
  | .before => (.error .io, next)
  | .after => (.error .io, { next with disk := change now w.disk })
  | .torn cut => (.error .io, { next with disk := torn cut now w.disk })

/-- A change that is atomic: the file is replaced, synced or removed. -/
def atomicStep : StorageM Unit :=
  diskStep env change (fun _ _ d => d)

end

/-- The world after a step that changed the disk to `d`. -/
def World.stepped (w : World) (d : Disk) : World :=
  { disk := d, mem := w.mem, ticks := w.ticks + 1, faults := w.faults.tail }

@[simp] theorem World.disk_stepped (w : World) (d : Disk) : (w.stepped d).disk = d := rfl

@[simp] theorem World.mem_stepped (w : World) (d : Disk) : (w.stepped d).mem = w.mem := rfl

@[simp] theorem World.faults_stepped (w : World) (d : Disk) :
    (w.stepped d).faults = w.faults.tail := rfl

/-- No step is cut short. -/
def NoTorn (faults : List Fault) : Prop := ∀ cut, Fault.torn cut ∉ faults

variable {env : Env} {change : Nat → Disk → Disk} {torn : Nat → Nat → Disk → Disk}
  {Q : Unit → World → Prop} {E : StorageError → World → Prop} {w : World}

/-- **The rule for one step.**  It succeeds only with its change made; it fails only by a
fault, with the change made, not made, or cut short. -/
theorem wp_diskStep (hQ : Q () (w.stepped (change (env.clock w.ticks) w.disk)))
    (hbefore : w.faults ≠ [] → E .io (w.stepped w.disk))
    (hafter : w.faults ≠ [] → E .io (w.stepped (change (env.clock w.ticks) w.disk)))
    (htorn : ∀ cut, Fault.torn cut ∈ w.faults →
      E .io (w.stepped (torn cut (env.clock w.ticks) w.disk))) :
    wp (diskStep env change torn) Q E w := by
  unfold wp diskStep
  cases hf : w.faults with
  | nil => exact (by simpa [World.stepped, hf] using hQ)
  | cons fault rest =>
    grind [World.stepped]

theorem wp_atomicStep (hQ : Q () (w.stepped (change (env.clock w.ticks) w.disk)))
    (hbefore : w.faults ≠ [] → E .io (w.stepped w.disk))
    (hafter : w.faults ≠ [] → E .io (w.stepped (change (env.clock w.ticks) w.disk))) :
    wp (atomicStep env change) Q E w :=
  wp_diskStep hQ hbefore hafter (fun _ hmem => hbefore (List.ne_nil_of_mem hmem))

/-! ## §3. A log and its cache. -/

/-- One of the three metadata logs in the world: its file and its cache. -/
structure LogSlot (R : Type) where
  kind : LogKind R
  file : Disk → LogFile R
  setFile : Disk → LogFile R → Disk
  cache : Caches → Option (CachedLog R)
  setCache : Caches → Option (CachedLog R) → Caches
  file_setFile : ∀ d f, file (setFile d f) = f
  setFile_setFile : ∀ d f g, setFile (setFile d f) g = setFile d g
  setFile_file : ∀ d, setFile d (file d) = d
  cache_setCache : ∀ m c, cache (setCache m c) = c
  setCache_setCache : ∀ m c c', setCache (setCache m c) c' = setCache m c'
  setCache_cache : ∀ m, setCache m (cache m) = m

attribute [simp] LogSlot.file_setFile LogSlot.setFile_setFile LogSlot.setFile_file
  LogSlot.cache_setCache LogSlot.setCache_setCache LogSlot.setCache_cache

/-- `blk_map.segment`. -/
def blkMapSlot : LogSlot BlkMapRecord where
  kind := blkMapLog
  file d := d.blkMap
  setFile d f := { d with blkMap := f }
  cache m := m.blkMap
  setCache m c := { m with blkMap := c }
  file_setFile _ _ := rfl
  setFile_setFile _ _ _ := rfl
  setFile_file _ := rfl
  cache_setCache _ _ := rfl
  setCache_setCache _ _ _ := rfl
  setCache_cache _ := rfl

/-- `lookup.segment`. -/
def lookupSlot : LogSlot MapLookupRecord where
  kind := lookupLog
  file d := d.lookup
  setFile d f := { d with lookup := f }
  cache m := m.lookup
  setCache m c := { m with lookup := c }
  file_setFile _ _ := rfl
  setFile_setFile _ _ _ := rfl
  setFile_file _ := rfl
  cache_setCache _ _ := rfl
  setCache_setCache _ _ _ := rfl
  setCache_cache _ := rfl

/-- `dedup.segment`. -/
def dedupSlot : LogSlot DedupIndexEntry where
  kind := dedupLog
  file d := d.dedup
  setFile d f := { d with dedup := f }
  cache m := m.dedup
  setCache m c := { m with dedup := c }
  file_setFile _ _ := rfl
  setFile_setFile _ _ _ := rfl
  setFile_file _ := rfl
  cache_setCache _ _ := rfl
  setCache_setCache _ _ _ := rfl
  setCache_cache _ := rfl

section Slot

variable {R : Type} (env : Env) (s : LogSlot R)

/-- The error of an id space that is used up. -/
def LogKind.idSpaceExhausted (k : LogKind R) : StorageError :=
  .conflict (k.idName ++ " space is exhausted")

/-- `next_record_id`, `next_lookup_id` and the dedup cache's `next_entry_id`. -/
def LogKind.nextId (k : LogKind R) (records : List R) : Nat :=
  satAdd64 ((records.map k.id).foldr max 0) 1

/-- The table a reader builds from a log: latest record of each id through a hash map, then
sorted by key. -/
def decodeTable (nonce : Nat) (log : List R) : List R :=
  sortByKey s.kind.sortKey (sortByKey (fun r => env.hashRank nonce (s.kind.id r))
    (latest s.kind.id log))

section

variable (c : CachedLog R) (sequence : Nat) (records : List R)

/-- The world with a log in the cache. -/
abbrev World.withCache (w : World) (s : LogSlot R) (c : CachedLog R) : World :=
  { w with mem := s.setCache w.mem (some c) }

/-- Put a cache entry. -/
def setCached : StorageM Unit :=
  modify fun w => { w with mem := s.setCache w.mem (some c) }

/-- Read the log from disk into the cache. -/
def reloadCache : StorageM (CachedLog R) := do
  let w ← get
  let file := s.file w.disk
  let log ← ofExcept (file.load s.kind)
  let c : CachedLog R := ⟨file.stamp s.kind, decodeTable env s w.ticks log, file.records.isSome⟩
  setCached s c
  return c

/-- `ensure_cache_fresh`, and the entry it leaves. -/
def ensureCacheFresh : StorageM (CachedLog R) := do
  let w ← get
  match s.cache w.mem with
  | some c =>
    if env.trustHotCache ∨ c.stamp = (s.file w.disk).stamp s.kind then return c
    else reloadCache env s
  | none => reloadCache env s

/-- `write_segment_file` with a log payload of these records. -/
def writeLog : StorageM Unit :=
  atomicStep env fun now d => s.setFile d (.written s.kind sequence (some records) now)

/-- `append_segment_payload` of these records. -/
def appendLog : StorageM Unit :=
  diskStep env
    (fun now d => s.setFile d ((s.file d).appended s.kind true records now))
    (fun cut now d => s.setFile d ((s.file d).tornAppend s.kind records cut now))

/-- `sync_segment_file`. -/
def syncLog : StorageM Unit := atomicStep env fun _ d => s.setFile d (s.file d).sync

/-- `update_cache`: the records just written, under the file's present stamp. -/
def updateCache : StorageM Unit := do
  let w ← get
  setCached s ⟨(s.file w.disk).stamp s.kind, records, true⟩

/-- Write the log as a whole and cache it. -/
def persistLog : StorageM Unit := do
  writeLog env s sequence records
  updateCache s records

/-- The new cache entry after an append: the stamp follows the file unless the cache is
trusted. -/
def restamped (file : LogFile R) : CachedLog R where
  stamp := if env.trustHotCache then c.stamp else file.stamp s.kind
  records := records
  logFormat := true

end

/-- Append a record and sort it into the cached table. -/
def appendAndInsert (r : R) : StorageM Unit := do
  appendLog env s [r]
  let w ← get
  match s.cache w.mem with
  | none => throw (.notFound (s.kind.cacheName ++ " cache not initialized"))
  | some c =>
    check (checkedAdd64 (s.kind.id r) 1 = none) (s.kind.idSpaceExhausted)
    setCached s (restamped env s c (insertByKey s.kind.sortKey r c.records) (s.file w.disk))

/-- The part the block map and lookup appends share: a log without its tag is rewritten first,
then the record is appended. -/
def appendSorted (rewriteSequence : List R → Nat) (c : CachedLog R) (r : R) : StorageM Unit := do
  if c.logFormat then appendAndInsert env s r
  else
    writeLog env s (rewriteSequence c.records) c.records
    let _ ← ensureCacheFresh env s
    appendAndInsert env s r

end Slot

end Holo.Storage
