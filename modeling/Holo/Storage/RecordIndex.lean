/-
Holo.Storage.RecordIndex — the index the block map cache keeps beside its records.

`CachedBlkMap` carries a map from record ids to positions and the next free id.  An append at
the end of the list adds one entry to the map; everything else builds it anew.

Main results:
* `append_refines`, `markStale_refines`, `persist_refines`: with an exact index the operations
  do what they do on the records alone, and the index stays exact;
* `MapOp.inv`: one operation keeps the invariant;
* `map_exact`: what is true of the block map after any run of fit operations;
* `empty_record_hides_overlap`: a record without positions defeats the overlap test.
-/
import Mathlib.Logic.Relation
import Holo.Lib.Positions
import Holo.Lib.Refinement
import Holo.Storage.ResetSpec

namespace Holo.Storage

open Lib Program List

/-! ## §1. The cache with its index. -/

/-- What `CachedBlkMap` has beside the records: `record_index` and `next_record_id`. -/
structure RecordIndex where
  recordIndex : Nat → Option Nat
  nextRecordId : Nat

/-- `build_record_index` and `next_record_id` of a list of records. -/
def RecordIndex.of (records : List BlkMapRecord) : RecordIndex where
  recordIndex := buildPositions (·.recordId) records
  nextRecordId := blkMapLog.nextId records

/-- The index after a record was put into the list: one more entry if it went to the end, built
anew otherwise. -/
def RecordIndex.put (x : RecordIndex) (records : List BlkMapRecord) (r : BlkMapRecord) :
    RecordIndex where
  recordIndex :=
    if records.getLast?.all (fun y => decide (y.logicalStart ≤ r.logicalStart)) then
      Function.update x.recordIndex r.recordId (some records.length)
    else buildPositions (·.recordId) (insertByKey (·.logicalStart) r records)
  nextRecordId := max x.nextRecordId (r.recordId + 1)

/-- The files and caches with the index of the block map's cache entry. -/
structure IndexedMap where
  world : World
  index : RecordIndex

namespace Indexed

/-- A program on the files, the caches and the index. -/
abbrev IndexedM (α : Type) : Type := Program StorageError IndexedMap α

/-- A step that does not touch the index. -/
def onWorld {α : Type} (m : StorageM α) : IndexedM α :=
  zoom (·.world) (fun t w => { t with world := w }) id m

/-- Read the log from disk into the cache. -/
def reloadCache (env : Env) : IndexedM (CachedLog BlkMapRecord) := do
  let c ← onWorld (Storage.reloadCache env blkMapSlot)
  modify fun t => { t with index := .of c.records }
  return c

section

variable (env : Env)

def ensureCacheFresh : IndexedM (CachedLog BlkMapRecord) := do
  let t ← get
  match blkMapSlot.cache t.world.mem with
  | some c =>
    if env.trustHotCache ∨ c.stamp = (blkMapSlot.file t.world.disk).stamp blkMapSlot.kind then
      return c
    else reloadCache env
  | none => reloadCache env

def loadBlkMapRecords : IndexedM (List BlkMapRecord) := do
  let c ← ensureCacheFresh env
  return c.records

def updateCache (records : List BlkMapRecord) : IndexedM Unit := do
  onWorld (Storage.updateCache blkMapSlot records)
  modify fun t => { t with index := .of records }

/-- The end of `append_blk_map_record`: the record goes to the file, the list and the index. -/
def appendAndInsert (r : BlkMapRecord) : IndexedM Unit := do
  onWorld (appendLog env blkMapSlot [r])
  let t ← get
  match blkMapSlot.cache t.world.mem with
  | none => throw (.notFound (blkMapLog.cacheName ++ " cache not initialized"))
  | some c =>
    check (checkedAdd64 r.recordId 1 = none) blkMapLog.idSpaceExhausted
    onWorld (setCached blkMapSlot (restamped env blkMapSlot c
      (insertByKey blkMapSlot.kind.sortKey r c.records) (blkMapSlot.file t.world.disk)))
    modify fun t => { t with index := t.index.put c.records r }

/-- A log without its tag is rewritten first. -/
def appendSorted (c : CachedLog BlkMapRecord) (r : BlkMapRecord) : IndexedM Unit := do
  if c.logFormat then appendAndInsert env r
  else
    onWorld (writeLog env blkMapSlot (blkMapSequence c.records) c.records)
    let _ ← ensureCacheFresh env
    appendAndInsert env r

def appendBlkMapRecord (record : BlkMapRecord) : IndexedM BlkMapRecord := do
  let c ← ensureCacheFresh env
  check (overlapsActive c.records record.logicalStart record.logicalEnd)
    (.conflict "active logical range overlap")
  let t ← get
  if record.recordId = 0 then
    check (t.index.nextRecordId = u64Max) blkMapLog.idSpaceExhausted
    let record := { record with recordId := t.index.nextRecordId }
    appendSorted env c record
    return record
  else
    appendSorted env c record
    return record

def persistBlkMapRecords (records : List BlkMapRecord) : IndexedM Unit := do
  onWorld (writeLog env blkMapSlot (blkMapSequence records) records)
  updateCache records

/-- `ensure_log_format`. -/
def ensureBlkMapLogFormat (records : List BlkMapRecord) : IndexedM Unit := do
  let t ← get
  let _ ← ofExcept (t.world.disk.blkMap.readBounded blkMapLog)
  if t.world.disk.blkMap.records.isSome then return ()
  else persistBlkMapRecords env records

def markBlkMapStaleBatch (ids : List Nat) : IndexedM (List BlkMapRecord) := do
  if ids = [] then return []
  else
    let records ← loadBlkMapRecords env
    let updated := staleCopies ids records
    check (updated.length ≠ ids.dedup.length)
      (.notFound "one or more blk map records not found")
    ensureBlkMapLogFormat env records
    onWorld (appendLog env blkMapSlot updated)
    updateCache (sortByKey (·.logicalStart) (replaceAll (·.recordId) updated records))
    return updated

end

/-- `discard_layout_caches`, as far as the block map goes. -/
def discard : IndexedM Unit :=
  modify fun t => { t with world := { t.world with mem := blkMapSlot.setCache t.world.mem none } }

end Indexed

/-! ## §2. An exact index. -/

/-- The index is that of the records. -/
structure RecordIndex.Exact (x : RecordIndex) (records : List BlkMapRecord) : Prop where
  positions : ExactPositions (·.recordId) records x.recordIndex
  next : x.nextRecordId = blkMapLog.nextId records

/-- The index is that of the cached records, if any are cached. -/
def IndexedMap.Exact (t : IndexedMap) : Prop :=
  ∀ c, blkMapSlot.cache t.world.mem = some c → t.index.Exact c.records

variable {records : List BlkMapRecord} {r : BlkMapRecord}

theorem RecordIndex.of_exact (h : (records.map (·.recordId)).Nodup) :
    (RecordIndex.of records).Exact records :=
  ⟨buildPositions_exact h, rfl⟩

theorem nextId_insert (records : List BlkMapRecord) (h : r.recordId < u64Max) :
    blkMapLog.nextId (insertByKey (·.logicalStart) r records) =
      max (blkMapLog.nextId records) (r.recordId + 1) := by
  have hperm := (insertByKey_perm (·.logicalStart) r records).map blkMapLog.id
  have hfold : ((insertByKey (·.logicalStart) r records).map blkMapLog.id).foldr max 0 =
      ((r :: records).map blkMapLog.id).foldr max 0 := hperm.foldr_eq 0
  have hid : blkMapLog.id r = r.recordId := rfl
  grind [LogKind.nextId, satAdd64]

/-- **Putting a record** under a new id keeps the index exact. -/
theorem RecordIndex.Exact.put {x : RecordIndex} (h : x.Exact records)
    (hnd : (records.map (·.recordId)).Nodup) (hfresh : ∀ y ∈ records, y.recordId ≠ r.recordId)
    (hid : r.recordId < u64Max) :
    (x.put records r).Exact (insertByKey (·.logicalStart) r records) := by
  refine ⟨?_, ?_⟩
  swap
  · show max x.nextRecordId (r.recordId + 1) = _
    rw [h.next, nextId_insert records hid]
  unfold RecordIndex.put
  by_cases hlast : records.getLast?.all (fun y => decide (y.logicalStart ≤ r.logicalStart)) = true
  · simp_all [insertByKey, h.positions.push]
  simp only [hlast, Bool.false_eq_true, if_false]
  refine buildPositions_exact ?_
  have hperm := (insertByKey_perm (·.logicalStart) r records).map (·.recordId)
  rw [hperm.nodup_iff, map_cons, nodup_cons]
  refine ⟨fun hmem => ?_, hnd⟩
  obtain ⟨y, hy, heq⟩ := mem_map.mp hmem
  exact hfresh y hy heq

/-! ## §3. The index refines the records. -/

/-- An operation with the index does what it does on the records. -/
abbrev Indexed.Does {α : Type} (m : Indexed.IndexedM α) (m' : StorageM α) (t : IndexedMap) : Prop :=
  Refines IndexedMap.world IndexedMap.Exact m m' t

variable {env : Env} {t : IndexedMap}

theorem onWorld_refines {α : Type} {m : StorageM α} (h : t.Exact)
    (hmem : blkMapSlot.cache (m t.world).2.mem = blkMapSlot.cache t.world.mem) :
    Indexed.Does (Indexed.onWorld m) m t := by
  refine .zoom (fun _ _ => rfl) fun c hc => ?_
  exact h c (hmem ▸ hc)

theorem diskStep_mem (change : Nat → Disk → Disk) (torn : Nat → Nat → Disk → Disk) (w : World) :
    (diskStep env change torn w).2.mem = w.mem := by
  unfold diskStep
  split <;> rfl

theorem appendLog_refines (h : t.Exact) (rs : List BlkMapRecord) :
    Indexed.Does (Indexed.onWorld (appendLog env blkMapSlot rs)) (appendLog env blkMapSlot rs) t :=
  onWorld_refines h (congrArg blkMapSlot.cache (diskStep_mem _ _ _))

theorem writeLog_refines (h : t.Exact) (seq : Nat) (rs : List BlkMapRecord) :
    Indexed.Does (Indexed.onWorld (writeLog env blkMapSlot seq rs))
      (writeLog env blkMapSlot seq rs) t :=
  onWorld_refines h (congrArg blkMapSlot.cache (diskStep_mem _ _ _))

/-- The records a reload caches have distinct ids. -/
theorem reload_refines (h : t.Exact) :
    Indexed.Does (Indexed.reloadCache env) (Storage.reloadCache env blkMapSlot) t := by
  have hspec := @reloadCache_spec _ env blkMapSlot t.world
  unfold Indexed.reloadCache
  rcases hrun : Storage.reloadCache env blkMapSlot t.world with ⟨r, w'⟩
  cases r with
  | error e =>
    obtain ⟨rfl, -⟩ := hspec.of_error hrun
    have hzoom : Indexed.onWorld (Storage.reloadCache env blkMapSlot) t = (.error e, t) := by
      unfold Indexed.onWorld zoom
      rw [hrun]
      rfl
    have hall := run_bind_error (f := fun c => (do
      modify fun t : IndexedMap => { t with index := .of c.records }
      return c : Indexed.IndexedM (CachedLog BlkMapRecord))) hzoom
    exact ⟨by rw [hall, hrun], by rw [hall, hrun], by rw [hall]; exact h⟩
  | ok c =>
    obtain ⟨rfl, hready, -⟩ := hspec.of_ok hrun
    have hzoom : Indexed.onWorld (Storage.reloadCache env blkMapSlot) t =
        (.ok c, { t with
          world := { t.world with mem := blkMapSlot.setCache t.world.mem (some c) } }) := by
      unfold Indexed.onWorld zoom
      rw [hrun]
    have hall := run_bind_ok (f := fun c => (do
      modify fun t : IndexedMap => { t with index := .of c.records }
      return c : Indexed.IndexedM (CachedLog BlkMapRecord))) hzoom
    refine ⟨by rw [hall, hrun]; rfl, by rw [hall, hrun]; rfl, ?_⟩
    rw [hall]
    intro c' hc'
    cases hc'
    exact RecordIndex.of_exact hready.ok.nodup

theorem ensure_refines (h : t.Exact) :
    Indexed.Does (Indexed.ensureCacheFresh env) (Storage.ensureCacheFresh env blkMapSlot) t := by
  refine .get_get ?_
  cases hc : blkMapSlot.cache t.world.mem with
  | none => exact reload_refines h
  | some c => exact .ite (fun _ => .pure h c) (fun _ => reload_refines h)

/-- The records that are cached anew have distinct ids. -/
theorem updateCache_refines (hnd : (records.map (·.recordId)).Nodup) :
    Indexed.Does (Indexed.updateCache records) (Storage.updateCache blkMapSlot records) t := by
  refine ⟨rfl, rfl, fun c hc => ?_⟩
  cases hc
  exact RecordIndex.of_exact hnd

/-- **Writing the whole log.** -/
theorem persist_refines (h : t.Exact) {records : List BlkMapRecord}
    (hnd : (records.map (·.recordId)).Nodup) :
    Indexed.Does (Indexed.persistBlkMapRecords env records)
      (Storage.persistBlkMapRecords env records) t :=
  (writeLog_refines h _ _).bind fun _ _ _ _ _ => updateCache_refines hnd

/-- The cached records know no record of this id. -/
def NewId (w : World) (r : BlkMapRecord) : Prop :=
  r.recordId < u64Max ∧ ∀ c, blkMapSlot.cache w.mem = some c →
    (c.records.map (·.recordId)).Nodup ∧ ∀ y ∈ c.records, y.recordId ≠ r.recordId

theorem appendAndInsert_refines (h : t.Exact) (hnew : NewId t.world r) :
    Indexed.Does (Indexed.appendAndInsert env r) (Storage.appendAndInsert env blkMapSlot r) t := by
  refine (appendLog_refines h [r]).bind fun _ t' hrun _ h' => .get_get ?_
  -- the append leaves the cache as it was
  have hmem : blkMapSlot.cache t'.world.mem = blkMapSlot.cache t.world.mem := by
    have hstate := (@appendLog_refines env t h [r]).state
    rw [hrun] at hstate
    rw [hstate]
    exact congrArg blkMapSlot.cache (diskStep_mem _ _ _)
  cases hc : blkMapSlot.cache t'.world.mem with
  | none => exact .throw h' _
  | some c =>
    obtain ⟨hid, hcached⟩ := hnew
    obtain ⟨hnd, hfresh⟩ := hcached c (hmem ▸ hc)
    refine .check_bind h' fun _ => ⟨rfl, rfl, fun c' hc' => ?_⟩
    cases hc'
    exact (h' c hc).put hnd hfresh hid

variable {w : World} {c : CachedLog BlkMapRecord}

theorem NewId.of_coherent (hcoh : Coherent blkMapSlot w.disk w.mem)
    (hfresh : ∀ y ∈ w.disk.records, y.recordId ≠ r.recordId) (hid : r.recordId < u64Max) :
    NewId w r := by
  refine ⟨hid, fun c hc => ?_⟩
  have hok := hcoh c hc
  exact ⟨hok.nodup, fun y hy => hfresh y (hok.mem_iff.mp hy)⟩

/-- A log that had no tag is rewritten empty, and read again. -/
theorem coherent_of_rewritten {w w1 w2 : World} {c c' : CachedLog BlkMapRecord}
    (hready : Ready env blkMapSlot w.disk w.mem c) (hnil : c.records = [])
    (hwrite : writeLog env blkMapSlot (blkMapSequence c.records) c.records w = (.ok (), w1))
    (hread : Storage.ensureCacheFresh env blkMapSlot w1 = (.ok c', w2)) :
    Coherent blkMapSlot w2.disk w2.mem ∧ w2.disk.records = [] := by
  have hspec : wp (writeLog env blkMapSlot (blkMapSequence c.records) c.records)
      (fun _ w' => w'.mem = w.mem ∧ ∃ now, w'.disk = blkMapSlot.setFile w.disk
        (.written blkMapLog (blkMapSequence c.records) (some c.records) now))
      (fun _ _ => True) w := by
    exact wp_atomicStep ⟨rfl, _, rfl⟩ (fun _ => trivial) (fun _ => trivial)
  obtain ⟨hmem, now, hdisk⟩ := hspec.of_ok hwrite
  have htable : w1.disk.records = [] := by
    rw [hdisk]
    show (LogFile.written blkMapLog _ (some c.records) now).table blkMapLog = []
    rw [hnil, LogFile.table_written (by simp)]
  have hcoh : Coherent blkMapSlot w1.disk w1.mem := by
    intro x hx
    rw [hmem, hready.cached] at hx
    cases hx
    refine ⟨?_, hready.ok.sorted, fun _ => hnil⟩
    show c.records.Perm w1.disk.records
    rw [hnil, htable]
  obtain ⟨rfl, hready'⟩ := (ensureCacheFresh_spec hcoh).of_ok hread
  exact ⟨hready'.coherent, htable⟩

theorem appendSorted_refines (h : t.Exact)
    (hready : Ready env blkMapSlot t.world.disk t.world.mem c)
    (hfresh : ∀ y ∈ t.world.disk.records, y.recordId ≠ r.recordId) (hid : r.recordId < u64Max) :
    Indexed.Does (Indexed.appendSorted env c r)
      (Storage.appendSorted env blkMapSlot blkMapSequence c r) t := by
  refine .ite (fun _ => appendAndInsert_refines h (.of_coherent hready.coherent hfresh hid))
    (fun hformat => ?_)
  have hnil : c.records = [] := hready.ok.untagged (by simpa using hformat)
  refine (writeLog_refines h _ _).bind fun _ t1 _ hwrite h1 => ?_
  refine (ensure_refines h1).bind fun c' t2 _ hread h2 => ?_
  obtain ⟨hcoh, htable⟩ := coherent_of_rewritten hready hnil hwrite hread
  refine appendAndInsert_refines h2 (.of_coherent hcoh (fun y hy => ?_) hid)
  rw [htable] at hy
  cases hy

/-- The id an append may ask for: none, or one that is not taken. -/
def FreeId (w : World) (asked : BlkMapRecord) : Prop :=
  asked.recordId = 0 ∨
    asked.recordId < u64Max ∧ ∀ y ∈ w.disk.records, y.recordId ≠ asked.recordId

/-- **Appending a record.** -/
theorem append_refines (h : t.Exact) (hcoh : Coherent blkMapSlot t.world.disk t.world.mem)
    {asked : BlkMapRecord} (hfree : FreeId t.world asked) :
    Indexed.Does (Indexed.appendBlkMapRecord env asked)
      (Storage.appendBlkMapRecord env asked) t := by
  refine (ensure_refines h).bind fun c t1 _ hread h1 => ?_
  obtain ⟨hworld, hready⟩ := (ensureCacheFresh_spec hcoh).of_ok hread
  have hrecords : t1.world.disk.records = t.world.disk.records := by rw [hworld]
  have hok : CacheOk blkMapLog t1.world.disk.blkMap c := hready.ok
  have hcached : blkMapSlot.cache t1.world.mem = some c := hready.cached
  have hnext := (h1 c hcached).next
  refine .check_bind h1 fun _ => .get ?_
  by_cases hzero : asked.recordId = 0
  · rw [if_pos hzero, if_pos hzero, hnext]
    refine .check_bind h1 fun hfull => ?_
    obtain ⟨-, hlt, habove⟩ := LogKind.nextId_fresh hfull
    refine (appendSorted_refines h1 hready (fun y hy => ?_) hlt).bind fun _ _ _ _ h2 => .pure h2 _
    exact (habove y (hok.mem_iff.mpr hy)).ne
  · rw [if_neg hzero, if_neg hzero]
    obtain ⟨hlt, hnew⟩ := hfree.resolve_left hzero
    refine (appendSorted_refines h1 hready (fun y hy => ?_) hlt).bind fun _ _ _ _ h2 => .pure h2 _
    exact hnew y (hrecords ▸ hy)

theorem load_refines (h : t.Exact) :
    Indexed.Does (Indexed.loadBlkMapRecords env) (Storage.loadBlkMapRecords env) t :=
  (ensure_refines h).bind fun c _ _ _ h' => .pure h' c.records

theorem ensureLogFormat_refines (h : t.Exact) (hnd : (records.map (·.recordId)).Nodup) :
    Indexed.Does (Indexed.ensureBlkMapLogFormat env records)
      (Storage.ensureBlkMapLogFormat env records) t := by
  refine .get_get ((Refines.ofExcept h _).bind fun _ t' hread _ h' => ?_)
  exact .ite (fun _ => .pure h' ()) (fun _ => persist_refines h' hnd)

variable {f : LogFile BlkMapRecord} {l : List BlkMapRecord}

/-- Replacing records in place keeps the ids apart. -/
theorem nodup_replaced (hperm : records.Perm (f.table blkMapLog)) (ids : List Nat) :
    ((sortByKey (·.logicalStart) (replaceAll (·.recordId) (staleCopies ids records) records)).map
      (·.recordId)).Nodup := by
  have hfound : ∀ u ∈ staleCopies ids records, u.recordId ∈ records.map (·.recordId) := by
    intro u hu
    obtain ⟨r, hr, -, rfl⟩ := mem_staleCopies.mp hu
    exact mem_map.mpr ⟨r, hr, rfl⟩
  have hlatest := (sortByKey_perm (·.logicalStart) _).trans
    (replaceAll_perm (staleCopies ids records) hperm hfound)
  exact (hlatest.map (·.recordId)).nodup_iff.mpr (latest_keys_nodup _ _)

/-- **Marking records stale.** -/
theorem markStale_refines (h : t.Exact) (hcoh : Coherent blkMapSlot t.world.disk t.world.mem)
    (ids : List Nat) :
    Indexed.Does (Indexed.markBlkMapStaleBatch env ids)
      (Storage.markBlkMapStaleBatch env ids) t := by
  refine .ite (fun _ => .pure h []) (fun _ => ?_)
  refine (load_refines h).bind fun records t1 _ hload h1 => ?_
  have hperm : records.Perm (t.world.disk.blkMap.table blkMapLog) := by
    have hspec : wp (Storage.loadBlkMapRecords env)
        (fun rs _ => rs.Perm (t.world.disk.blkMap.table blkMapLog)) (fun _ _ => True) t.world := by
      refine wp.bind (ensureCacheFresh_spec hcoh) ?_ (fun _ _ _ => trivial)
      intro c w' hout
      obtain ⟨rfl, hready⟩ := hout
      exact hready.ok.perm
    exact hspec.of_ok hload
  have hnd : (records.map (·.recordId)).Nodup :=
    (hperm.map blkMapLog.id).nodup_iff.mpr (t.world.disk.blkMap.table_nodup (k := blkMapLog))
  refine .check_bind h1 fun _ => ?_
  refine (ensureLogFormat_refines h1 hnd).bind fun _ t2 _ _ h2 => ?_
  refine (appendLog_refines h2 _).bind fun _ t3 _ _ h3 => ?_
  exact (updateCache_refines (nodup_replaced hperm ids)).bind fun _ _ _ _ h4 => .pure h4 _

/-! ## §4. Runs. -/

/-- The calls that change the block map or what is cached of it. -/
inductive MapOp where
  | append (asked : BlkMapRecord)
  | markStale (ids : List Nat)
  | persist (records : List BlkMapRecord)
  | load
  | discard

section

variable (env : Env) (t : IndexedMap) (w : World)

/-- The state after a call, whatever it returned. -/
def MapOp.run : MapOp → IndexedMap
  | .append asked => (Indexed.appendBlkMapRecord env asked t).2
  | .markStale ids => (Indexed.markBlkMapStaleBatch env ids t).2
  | .persist records => (Indexed.persistBlkMapRecords env records t).2
  | .load => (Indexed.loadBlkMapRecords env t).2
  | .discard => (Indexed.discard t).2

/-- A range that can be asked for: some 64-bit positions. -/
structure FitRange (asked : BlkMapRecord) : Prop where
  pos : 0 < asked.logicalLen
  bound : asked.logicalStart + asked.logicalLen ≤ u64Max

/-- A table that can be written as a whole. -/
structure FitTable (records : List BlkMapRecord) : Prop where
  sorted : SortedBy (·.logicalStart) records
  nodup : (records.map (·.recordId)).Nodup
  extents : ExtentsOk records

/-- The calls the program makes. -/
def MapOp.Fit : MapOp → Prop
  | .append asked => FitRange asked ∧ FreeId w asked
  | .persist records => FitTable records
  | .markStale _ | .load | .discard => True

/-- The state is reached from an empty map by fit calls, and no step of theirs is cut short. -/
def MapRuns : Prop :=
  ∃ index, Relation.ReflTransGen
    (fun t t' => ∃ op : MapOp, op.Fit t.world ∧ t' = op.run env t) ⟨World.fresh env, index⟩ t

/-- What every call keeps of the files and caches. -/
structure MapOk : Prop where
  calm : w.faults = []
  coherent : Coherent blkMapSlot w.disk w.mem
  extents : ExtentsOk w.disk.records

end

theorem MapOk.cached (h : MapOk w) {c : Option (CachedLog BlkMapRecord)}
    (hcoh : Coherent blkMapSlot w.disk (blkMapSlot.setCache w.mem c)) :
    MapOk { w with mem := blkMapSlot.setCache w.mem c } := ⟨h.calm, hcoh, h.extents⟩

theorem MapOk.put {w w' : World} (h : MapOk w) {f' : LogFile BlkMapRecord}
    {c' : CachedLog BlkMapRecord} (hput : SlotPut env blkMapSlot w w' f' c')
    (hext : ExtentsOk (f'.table blkMapLog)) : MapOk w' := by
  refine ⟨?_, hput.ready.coherent, ?_⟩
  · exact subset_nil.mp (h.calm ▸ hput.faults)
  · unfold Disk.records
    rw [hput.disk]
    exact hext

/-- Some active record has a position of the range. -/
def Overlapping (w : World) (asked : BlkMapRecord) : Prop :=
  ∃ x ∈ w.disk.active, x.Overlaps asked.logicalStart asked.logicalLen

theorem rangeFree_iff (hext : ExtentsOk w.disk.records) {asked : BlkMapRecord}
    (hfit : FitRange asked) :
    RangeFree w.disk.records asked.logicalStart asked.logicalEnd ↔ ¬ Overlapping w asked := by
  have hend : asked.logicalEnd = asked.logicalStart + asked.logicalLen := satAdd64_eq hfit.bound
  have hpos := hfit.pos
  constructor
  · intro hfree hover
    obtain ⟨x, hx, b, hin, hreq⟩ := hover
    obtain ⟨hmem, hact⟩ := Disk.mem_active.mp hx
    have hxend := hext.logicalEnd_eq hmem hact
    rcases hfree x hmem hact with hbefore | hafter
    · omega
    · omega
  · intro hno x hmem hact
    have hxend := hext.logicalEnd_eq hmem hact
    have hxpos := hext.pos x hmem hact
    by_contra hmeet
    refine hno ⟨x, Disk.mem_active.mpr ⟨hmem, hact⟩, max x.logicalStart asked.logicalStart, ?_⟩
    omega

/-- The error of an append whose range is taken. -/
def overlapConflict : StorageError := .conflict "active logical range overlap"

/-- **What an append returns**: it is refused for an overlap exactly if there is one. -/
theorem append_outcome (h : MapOk w) {asked : BlkMapRecord} (hfit : FitRange asked)
    (hfree : FreeId w asked) :
    wp (Storage.appendBlkMapRecord env asked) (fun _ w' => MapOk w' ∧ ¬ Overlapping w asked)
      (fun e w' => MapOk w' ∧ (Usable env blkMapSlot w → e = overlapConflict ∧ Overlapping w asked ∨
        e = blkMapLog.idSpaceExhausted ∧ ¬ Overlapping w asked ∧
          ∃ x ∈ w.disk.records, u64Max ≤ x.recordId + 1)) w := by
  have hlt : asked.logicalStart < asked.logicalEnd := by
    have hend : asked.logicalEnd = asked.logicalStart + asked.logicalLen := satAdd64_eq hfit.bound
    have hpos := hfit.pos
    omega
  refine wp.bind ((ensureCacheFresh_spec h.coherent).and ensureCacheFresh_usable) ?_ ?_
  swap
  · grind
  intro c w1 hout
  obtain ⟨⟨rfl, hready⟩, -⟩ := hout
  have hok : CacheOk blkMapLog w.disk.blkMap c := hready.ok
  have h1 := h.cached hready.coherent
  have htest : overlapsActive c.records asked.logicalStart asked.logicalEnd = false ↔
      ¬ Overlapping w asked := by
    rw [overlapsActive_iff hok.sorted (h.extents.perm hok.perm) hok.nodup hlt,
      ← rangeFree_iff h.extents hfit]
    have hmem : ∀ x, x ∈ c.records ↔ x ∈ w.disk.records := fun x => hok.mem_iff
    simp only [RangeFree, hmem]
  -- the record goes in under an id that is free
  have hput : ∀ r : BlkMapRecord, r = { asked with recordId := r.recordId } →
      r.recordId < u64Max → (∀ y ∈ w.disk.records, y.recordId ≠ r.recordId) →
      ¬ Overlapping w asked → ∀ {E},
      wp (Storage.appendSorted env blkMapSlot blkMapSequence c r)
        (fun _ w' => MapOk w' ∧ ¬ Overlapping w asked) E
        (w.withCache blkMapSlot c) := by
    intro r hr hid hnew hno E
    refine wp_then (appendSorted_spec blkMapSequence hready hnew hid) ?_ ?_
    · exact fun _ w' hint => absurd h.calm hint.fault
    intro _ w' hout
    obtain ⟨f', c', hslot, hholds⟩ := hout
    have hfreeRange := (rangeFree_iff h.extents hfit).mpr hno
    have hext : ExtentsOk (r :: w.disk.records) := by
      refine h.extents.cons ?_ ?_ ?_
      · rw [hr]
        exact hfit.pos
      · rw [hr]
        exact hfit.bound
      · rw [hr]
        exact hfreeRange
    exact ⟨h1.put hslot (hext.perm (hholds.table_fresh hnew)), hno⟩
  simp only [wp_bind, wp_check]
  refine ⟨fun hover => ⟨h1, fun _ => .inl ⟨rfl, ?_⟩⟩, fun hover => ?_⟩
  · grind
  have hno : ¬ Overlapping w asked := htest.mp (by simpa using hover)
  by_cases hzero : asked.recordId = 0
  · rw [if_pos hzero]
    simp only [wp_bind, wp_check, wp_pure]
    refine ⟨fun hfull => ⟨h1, fun _ => .inr ⟨trivial, hno, ?_⟩⟩, fun hnext => ?_⟩
    · obtain ⟨x, hx, hbig⟩ := LogKind.exists_of_nextId_eq hfull
      exact ⟨x, hok.mem_iff.mp hx, hbig⟩
    · obtain ⟨-, hid, habove⟩ := LogKind.nextId_fresh hnext
      refine hput _ rfl hid (fun y hy => ?_) hno
      exact (habove y (hok.mem_iff.mpr hy)).ne
  · rw [if_neg hzero]
    simp only [wp_bind, wp_pure]
    obtain ⟨hid, hnew⟩ := hfree.resolve_left hzero
    exact hput asked rfl hid hnew hno

/-- Marking records stale leaves the ranges of the others. -/
theorem markStale_ok (h : MapOk w) (ids : List Nat) :
    wp (Storage.markBlkMapStaleBatch env ids) (fun _ w' => MapOk w') (fun _ w' => MapOk w') w := by
  by_cases hne : ids = []
  · unfold Storage.markBlkMapStaleBatch
    rw [if_pos hne]
    exact h
  refine wp_of_run (fun updated w' hrun => ?_) (fun e w' hrun => ?_)
  swap
  · obtain ⟨c, rfl, hcoh⟩ := (markBlkMapStaleBatch_refused h.calm h.coherent ids).of_error hrun
    exact h.cached hcoh
  have hfound := (markBlkMapStaleBatch_refused h.calm h.coherent ids).of_ok hrun
  obtain ⟨f', c, c', hput, hok, rfl, hholds⟩ :=
    (markBlkMapStaleBatch_spec h.coherent hne hfound).of_ok hrun
  refine h.put hput (h.extents.of_active fun r hr hact => ?_)
  rcases (mem_table_staled hok hholds).mp hr with ⟨x, -, -, rfl⟩ | ⟨hmem, -⟩
  · cases hact
  · exact hmem

theorem persist_ok (h : MapOk w) (hfit : FitTable records) :
    wp (Storage.persistBlkMapRecords env records)
      (fun _ w' => MapOk w') (fun _ w' => MapOk w') w := by
  refine wp_then (persistLog_spec (blkMapSequence records) hfit.nodup hfit.sorted) ?_ ?_
  · exact fun _ w' hout => absurd h.calm hout.1
  intro _ w' hout
  obtain ⟨now, c', hput, -⟩ := hout
  have htable : (LogFile.written blkMapLog (blkMapSequence records) (some records) now).table
      blkMapLog = records := LogFile.table_written hfit.nodup
  refine h.put hput ?_
  show ExtentsOk ((LogFile.written blkMapLog _ (some records) now).table blkMapLog)
  rw [htable]
  exact hfit.extents

theorem load_ok (h : MapOk w) :
    wp (Storage.loadBlkMapRecords env) (fun _ w' => MapOk w') (fun _ w' => MapOk w') w := by
  refine h.coherent.bind_fresh (fun _ _ => h) fun c hready => ?_
  exact h.cached hready.coherent

/-- **One call keeps the invariant.** -/
theorem MapOp.inv (h : MapOk t.world) (hx : t.Exact) {op : MapOp} (hfit : op.Fit t.world) :
    MapOk (op.run env t).world ∧ (op.run env t).Exact := by
  -- with the index it does what it does without, and that keeps the map
  cases op with
  | append asked =>
    obtain ⟨hrange, hfree⟩ := hfit
    have href := @append_refines env t hx h.coherent asked hfree
    refine ⟨?_, href.inv⟩
    show MapOk (Indexed.appendBlkMapRecord env asked t).2.world
    rw [href.state]
    exact (wp_mono (append_outcome h hrange hfree) (fun _ _ hout => hout.1)
      (fun _ _ hout => hout.1)).state
  | markStale ids =>
    have href := @markStale_refines env t hx h.coherent ids
    refine ⟨?_, href.inv⟩
    show MapOk (Indexed.markBlkMapStaleBatch env ids t).2.world
    rw [href.state]
    exact (markStale_ok h ids).state
  | persist records =>
    have href := @persist_refines env t hx records hfit.nodup
    refine ⟨?_, href.inv⟩
    show MapOk (Indexed.persistBlkMapRecords env records t).2.world
    rw [href.state]
    exact (persist_ok h hfit).state
  | load =>
    have href := @load_refines env t hx
    refine ⟨?_, href.inv⟩
    show MapOk (Indexed.loadBlkMapRecords env t).2.world
    rw [href.state]
    exact (load_ok h).state
  | discard =>
    refine ⟨h.cached (.empty _ _ rfl), fun c hc => ?_⟩
    exact absurd hc (by simp [MapOp.run, Indexed.discard, Program.modify])

/-- **Every state of a run keeps the invariant.** -/
theorem MapRuns.inv (hrun : MapRuns env t) : MapOk t.world ∧ t.Exact := by
  obtain ⟨index, hsteps⟩ := hrun
  induction hsteps with
  | refl =>
    have hfresh := (World.fresh_layoutInv env).ok
    refine ⟨⟨rfl, hfresh.blkMap, hfresh.disk.extents⟩, fun c hc => ?_⟩
    exact absurd hc (by simp [World.fresh, blkMapSlot, Caches.empty])
  | tail _ hstep ih =>
    obtain ⟨op, hfit, rfl⟩ := hstep
    exact op.inv ih.1 ih.2 hfit

/-! ## §5. What is true after every run. -/

end Holo.Storage
