/-
Holo.Storage.BlkMap — the block map: which logical range is stored where.

The block map is a log of extent records.  A write appends an ACTIVE record after checking
that no active record overlaps it; an unmap appends STALE copies.

Main results:
* `overlapsActive_iff`: the neighbour check of the append sees every overlap;
* `appendBlkMapRecord_spec`, `markBlkMapStaleBatch_spec`: what the two changes do to the
  table, and what a crash inside them leaves.
-/
import Mathlib.Data.List.Dedup
import Holo.Storage.LogSpec

namespace Holo.Storage

open Lib Program List

/-! ## §1. The functions of the source. -/

/-- Whether the record is active. -/
def BlkMapRecord.isActive (r : BlkMapRecord) : Bool := r.state = .active

/-- The record with its state set to stale. -/
def BlkMapRecord.toStale (r : BlkMapRecord) : BlkMapRecord := { r with state := .stale }

section

variable (env : Env) (ids : List Nat) (records : List BlkMapRecord)

/-- The sequence number of a block map written as a whole (`MAX_RECORDS_PER_SEGMENT = 1024`). -/
def blkMapSequence : Nat := max (records.length / 1024) 1

def loadBlkMapRecords : StorageM (List BlkMapRecord) := do
  let c ← ensureCacheFresh env blkMapSlot
  return c.records

/-- Whether the record covers the block. -/
def BlkMapRecord.covers (r : BlkMapRecord) (block : Nat) : Bool :=
  decide (r.logicalStart ≤ block ∧ block < r.logicalEnd)

def locateActiveRecord (block idStart idEnd : Nat) : StorageM (Option BlkMapRecord) := do
  let c ← ensureCacheFresh env blkMapSlot
  let scan := c.records.find? fun r =>
    r.isActive && decide (idStart ≤ r.recordId ∧ r.recordId ≤ idEnd) && r.covers block
  if idStart = idEnd then
    match c.records.find? (fun r => r.recordId = idStart) with
    | some r => if r.isActive && r.covers block then return some r else return scan
    | none => return scan
  else return scan

/-- The overlap test of `append_blk_map_record`: the nearest active records on both sides. -/
def overlapsActive (start stop : Nat) : Bool :=
  let before := records.takeWhile fun x => decide (x.logicalStart < start)
  let after := records.dropWhile fun x => decide (x.logicalStart < start)
  let previousActive := before.reverse.find? (·.isActive)
  let nextActive := after.find? (·.isActive)
  previousActive.any (fun x => decide (start < x.logicalEnd)) ||
    nextActive.any (fun x => decide (x.logicalStart < stop))

def appendBlkMapRecord (record : BlkMapRecord) : StorageM BlkMapRecord := do
  let c ← ensureCacheFresh env blkMapSlot
  check (overlapsActive c.records record.logicalStart record.logicalEnd)
    (.conflict "active logical range overlap")
  if record.recordId = 0 then
    let next := blkMapLog.nextId c.records
    check (next = u64Max) blkMapLog.idSpaceExhausted
    let record := { record with recordId := next }
    appendSorted env blkMapSlot blkMapSequence c record
    return record
  else
    appendSorted env blkMapSlot blkMapSequence c record
    return record

/-- `ensure_log_format`: a log without its tag is written as one. -/
def ensureBlkMapLogFormat : StorageM Unit := do
  let w ← get
  let _ ← ofExcept (w.disk.blkMap.readBounded blkMapLog)
  if w.disk.blkMap.records.isSome then return ()
  else persistLog env blkMapSlot (blkMapSequence records) records

/-- The stale copies `mark_blk_map_stale_batch` appends. -/
def staleCopies : List BlkMapRecord :=
  (records.filter (fun r => decide (r.recordId ∈ ids))).map (·.toStale)

def markBlkMapStaleBatch : StorageM (List BlkMapRecord) := do
  if ids = [] then return []
  else
    let records ← loadBlkMapRecords env
    let updated := staleCopies ids records
    check (updated.length ≠ ids.dedup.length)
      (.notFound "one or more blk map records not found")
    ensureBlkMapLogFormat env records
    appendLog env blkMapSlot updated
    updateCache blkMapSlot (sortByKey (·.logicalStart)
      (replaceAll (·.recordId) updated records))
    return updated

def persistBlkMapRecords : StorageM Unit :=
  persistLog env blkMapSlot (blkMapSequence records) records

end

/-! ## §2. The extents of a table. -/

/-- The active records of a table are non-empty ranges of 64-bit positions, pairwise disjoint. -/
structure ExtentsOk (table : List BlkMapRecord) : Prop where
  pos : ∀ r ∈ table, r.isActive → 0 < r.logicalLen
  bound : ∀ r ∈ table, r.isActive → r.logicalStart + r.logicalLen ≤ u64Max
  disjoint : ∀ r ∈ table, ∀ x ∈ table, r.isActive → x.isActive → r.recordId ≠ x.recordId →
    r.logicalEnd ≤ x.logicalStart ∨ x.logicalEnd ≤ r.logicalStart

/-- Fewer extents are as disjoint. -/
theorem ExtentsOk.of_active {a b : List BlkMapRecord} (h : ExtentsOk a)
    (hsub : ∀ r ∈ b, r.isActive → r ∈ a) : ExtentsOk b where
  pos r hr ha := h.pos r (hsub r hr ha) ha
  bound r hr ha := h.bound r (hsub r hr ha) ha
  disjoint r hr x hx har hax := h.disjoint r (hsub r hr har) x (hsub x hx hax) har hax

theorem ExtentsOk.perm {a b : List BlkMapRecord} (h : ExtentsOk a) (hp : b.Perm a) :
    ExtentsOk b :=
  h.of_active fun _ hr _ => hp.mem_iff.mp hr

variable {r : BlkMapRecord}

variable {t : List BlkMapRecord} {asked : BlkMapRecord}

theorem ExtentsOk.logicalEnd_eq (h : ExtentsOk t) (hr : r ∈ t) (ha : r.isActive) :
    r.logicalEnd = r.logicalStart + r.logicalLen :=
  satAdd64_eq (h.bound r hr ha)

theorem ExtentsOk.start_lt_end (h : ExtentsOk t) (hr : r ∈ t) (ha : r.isActive) :
    r.logicalStart < r.logicalEnd := by
  have := h.pos r hr ha
  rw [h.logicalEnd_eq hr ha]
  omega

/-- The new range is clear of every active record. -/
def RangeFree (table : List BlkMapRecord) (start stop : Nat) : Prop :=
  ∀ x ∈ table, x.isActive → x.logicalEnd ≤ start ∨ stop ≤ x.logicalStart

/-- The range of the record and the requested one have a position in common. -/
def BlkMapRecord.Overlaps (r : BlkMapRecord) (start len : Nat) : Prop :=
  ∃ b, (r.logicalStart ≤ b ∧ b < r.logicalStart + r.logicalLen) ∧ start ≤ b ∧ b < start + len

/-- The later start is in both ranges if any position is. -/
theorem BlkMapRecord.overlaps_iff {start len : Nat} : r.Overlaps start len ↔
    max r.logicalStart start < min (r.logicalStart + r.logicalLen) (start + len) := by
  unfold BlkMapRecord.Overlaps
  constructor
  · intro hover
    obtain ⟨b, hrec, hreq⟩ := hover
    omega
  · intro hlt
    refine ⟨max r.logicalStart start, ?_⟩
    omega

instance (r : BlkMapRecord) (start len : Nat) : Decidable (r.Overlaps start len) :=
  decidable_of_iff _ BlkMapRecord.overlaps_iff.symm

/-- **The neighbour check sees every overlap**: on a sorted table of disjoint extents it passes
exactly when the new range is free. -/
theorem overlapsActive_iff {l : List BlkMapRecord} (hs : SortedBy (·.logicalStart) l)
    (hext : ExtentsOk l) (hnd : (l.map (·.recordId)).Nodup) {start stop : Nat}
    (hlt : start < stop) : overlapsActive l start stop = false ↔ RangeFree l start stop := by
  have hbefore : ∀ x ∈ l.takeWhile (fun x => decide (x.logicalStart < start)),
      x.logicalStart < start := by grind [all_takeWhile]
  have hafter : ∀ x ∈ l.dropWhile (fun x => decide (x.logicalStart < start)),
      start ≤ x.logicalStart := SortedBy.le_of_mem_dropWhile hs
  have hsplit := takeWhile_append_dropWhile (l := l) (p := fun x => decide (x.logicalStart < start))
  unfold overlapsActive
  -- the records that start before the range, and the others
  generalize l.takeWhile (fun x => decide (x.logicalStart < start)) = before at *
  generalize l.dropWhile (fun x => decide (x.logicalStart < start)) = behind at *
  subst hsplit
  have hmem : before ⊆ before ++ behind := subset_append_left _ _
  have hmem' : behind ⊆ before ++ behind := subset_append_right _ _
  have hs1 : SortedBy (·.logicalStart) before := Pairwise.sublist (sublist_append_left _ _) hs
  have hs2 : SortedBy (·.logicalStart) behind := Pairwise.sublist (sublist_append_right _ _) hs
  simp only [Bool.or_eq_false_iff, Option.any_eq_false, decide_eq_false_iff_not, not_lt]
  constructor
  swap
  · intro hfree
    refine ⟨fun p hp => ?_, fun n hn => ?_⟩
    · have hpb := mem_reverse.mp (mem_of_find?_eq_some hp)
      have hps := hbefore p hpb
      rcases hfree p (hmem hpb) (find?_some hp) with h | h
      · exact h
      · omega
    have hnb := mem_of_find?_eq_some hn
    have hns := hafter n hnb
    have hlt' := hext.start_lt_end (hmem' hnb) (find?_some hn)
    rcases hfree n (hmem' hnb) (find?_some hn) with h | h
    · omega
    · exact h
  rintro ⟨hprev, hnext⟩ x hx ha
  rcases mem_append.mp hx with hx | hx
  swap
  · cases hn : behind.find? (·.isActive) with
    | none => exact absurd ha (find?_eq_none.mp hn x hx)
    | some n => exact .inr (le_trans (hnext n hn) (hs2.le_of_find hn hx ha))
  cases hp : before.reverse.find? (·.isActive) with
  | none =>
    have := find?_eq_none.mp hp x (mem_reverse.mpr hx)
    exact absurd ha this
  | some p =>
    left
    have hpend := hprev p hp
    have hpl := hmem (mem_reverse.mp (mem_of_find?_eq_some hp))
    have hpa : p.isActive := find?_some hp
    by_cases hid : x.recordId = p.recordId
    · have : x = p := inj_on_of_nodup_map hnd (hmem hx) hpl hid
      rw [this]
      exact hpend
    have hle := hs1.le_of_find_reverse hp hx ha
    have hpl' := hext.start_lt_end hpl hpa
    rcases hext.disjoint x (hmem hx) p hpl ha hpa hid with h | h
    · omega
    · omega

/-! ## §3. Appending a record. -/

/-- What an appended record is: the one asked for, under a new id, and clear of every active
record. -/
structure NewRecord (table : List BlkMapRecord) (asked r : BlkMapRecord) : Prop where
  eq : r = { asked with recordId := r.recordId }
  pos : 0 < r.recordId
  fresh : ∀ x ∈ table, x.recordId < r.recordId
  free : ExtentsOk table → asked.logicalStart < asked.logicalEnd →
    RangeFree table asked.logicalStart asked.logicalEnd

/-- Why an append is refused. -/
def AppendRefused (f : LogFile BlkMapRecord) (asked : BlkMapRecord) : Prop :=
  ¬ f.Loadable blkMapLog ∨
    (ExtentsOk (f.table blkMapLog) → asked.logicalStart < asked.logicalEnd →
      ¬ RangeFree (f.table blkMapLog) asked.logicalStart asked.logicalEnd) ∨
    ∃ x ∈ f.table blkMapLog, u64Max ≤ x.recordId + 1

variable {env : Env} {w : World}

/-- **Appending to the block map**: the table gains one record, under a new id, that overlaps no
active one. -/
theorem appendBlkMapRecord_spec (hcoh : Coherent blkMapSlot w.disk w.mem)
    (hzero : asked.recordId = 0) :
    wp (appendBlkMapRecord env asked) (fun r w' => ∃ f' c', SlotPut env blkMapSlot w w' f' c' ∧
        Holds blkMapLog w.disk.blkMap [r] f' ∧
        NewRecord (w.disk.blkMap.table blkMapLog) asked r)
      (fun _ w' => (∃ r, NewRecord (w.disk.blkMap.table blkMapLog) asked r ∧
          Interrupted blkMapSlot [r] w w') ∨
        (w'.disk = w.disk ∧ AppendRefused w.disk.blkMap asked)) w := by
  refine hcoh.bind_fresh (fun hbad _ => .inr ⟨rfl, .inl hbad⟩) fun c hready => ?_
  have hok : CacheOk blkMapLog w.disk.blkMap c := hready.ok
  have hmem : ∀ x, x ∈ c.records ↔ x ∈ w.disk.blkMap.table blkMapLog := fun x => hok.mem_iff
  have hext : ExtentsOk (w.disk.blkMap.table blkMapLog) → ExtentsOk c.records :=
    fun h => h.perm hok.perm
  -- the source looks for an overlap among the cached records
  have hfreeIff : ExtentsOk (w.disk.blkMap.table blkMapLog) →
      asked.logicalStart < asked.logicalEnd →
      (overlapsActive c.records asked.logicalStart asked.logicalEnd = false ↔
        RangeFree (w.disk.blkMap.table blkMapLog) asked.logicalStart asked.logicalEnd) := by
    intro h hlt
    rw [overlapsActive_iff hok.sorted (hext h) hok.nodup hlt]
    simp only [RangeFree, hmem]
  simp only [wp_bind, wp_check, hzero, if_true]
  -- refused for an overlap, or for want of ids
  refine ⟨fun hover => .inr ⟨trivial, .inr (.inl fun h hlt hfree => ?_)⟩, fun hover => ⟨?_, ?_⟩⟩
  · grind
  · intro hfull
    obtain ⟨x, hx, hbig⟩ := LogKind.exists_of_nextId_eq hfull
    exact .inr ⟨trivial, .inr (.inr ⟨x, (hmem x).mp hx, hbig⟩)⟩
  intro hnext
  obtain ⟨hpos, hlt, habove⟩ := LogKind.nextId_fresh hnext
  have hnew : NewRecord (w.disk.blkMap.table blkMapLog) asked
      { asked with recordId := blkMapLog.nextId c.records } :=
    { eq := rfl
      pos := hpos
      fresh := fun x hx => habove x ((hmem x).mpr hx)
      free := fun h hlt => (hfreeIff h hlt).mp (by simpa using hover) }
  refine wp_mono (appendSorted_spec blkMapSequence hready
    (fun x hx => (hnew.fresh x hx).ne) hlt) ?_ ?_
  · rintro _ w' ⟨f', c', hput, hholds⟩
    exact ⟨f', c', hput.of_cached, hholds, hnew⟩
  · rintro _ w' hint
    exact .inl ⟨_, hnew, hint.of_cached⟩

/-- A refused append has read the block map, if anything. -/
theorem appendBlkMapRecord_refused (hzero : asked.recordId = 0)
    (hcoh : Coherent blkMapSlot w.disk w.mem) :
    wp (appendBlkMapRecord env asked) (fun _ _ => True)
      (fun _ w' => w.faults = [] → ∃ c, w' = { w with mem := blkMapSlot.setCache w.mem c } ∧
        Coherent blkMapSlot w'.disk w'.mem) w := by
  refine hcoh.bind_fresh (fun _ _ _ => ⟨blkMapSlot.cache w.mem, ?_, hcoh⟩) fun c hready => ?_
  · rw [blkMapSlot.setCache_cache]
  have hok : CacheOk blkMapLog w.disk.blkMap c := hready.ok
  simp only [wp_bind, wp_check, hzero, if_true]
  refine ⟨fun _ _ => ⟨some c, rfl, hready.coherent⟩, fun _ => ⟨?_, ?_⟩⟩
  · exact fun _ _ => ⟨some c, rfl, hready.coherent⟩
  intro hnext
  obtain ⟨-, hlt, habove⟩ := LogKind.nextId_fresh hnext
  refine wp_mono (appendSorted_spec blkMapSequence hready
    (fun x hx => (habove x (hok.mem_iff.mpr hx)).ne) hlt) (fun _ _ _ => trivial) ?_
  -- the append itself fails by a fault only
  exact fun _ w' hint hcalm => absurd hcalm hint.fault

/-! ## §4. Staling records. -/

variable {ids : List Nat} {records : List BlkMapRecord}

theorem mem_staleCopies {u : BlkMapRecord} :
    u ∈ staleCopies ids records ↔ ∃ r ∈ records, r.recordId ∈ ids ∧ u = r.toStale := by
  grind [staleCopies]

theorem staleCopies_nodup (h : (records.map (·.recordId)).Nodup) :
    ((staleCopies ids records).map (·.recordId)).Nodup := by
  have : (staleCopies ids records).map (·.recordId) =
      (records.filter (fun r => decide (r.recordId ∈ ids))).map (·.recordId) := by
    rw [staleCopies, map_map]
    rfl
  rw [this]
  exact (Sublist.map _ filter_sublist).nodup h

/-- When every id is there, one copy is made for each. -/
theorem length_staleCopies (h : (records.map (·.recordId)).Nodup)
    (hfound : ∀ id ∈ ids, ∃ r ∈ records, r.recordId = id) :
    (staleCopies ids records).length = ids.dedup.length := by
  have hperm : ((staleCopies ids records).map (·.recordId)).Perm ids.dedup := by
    rw [perm_ext_iff_of_nodup (staleCopies_nodup h) (nodup_dedup ids)]
    intro id
    rw [mem_dedup, mem_map]
    constructor
    · rintro ⟨u, hu, rfl⟩
      obtain ⟨r, -, hid, rfl⟩ := mem_staleCopies.mp hu
      exact hid
    · intro hid
      obtain ⟨r, hr, rfl⟩ := hfound id hid
      exact ⟨r.toStale, mem_staleCopies.mpr ⟨r, hr, hid, rfl⟩, rfl⟩
  simpa using hperm.length_eq

/-- **Staling a batch**: one append puts stale copies of the records over the table. -/
theorem markBlkMapStaleBatch_spec (hcoh : Coherent blkMapSlot w.disk w.mem) (hne : ids ≠ [])
    (hfound : ∀ id ∈ ids, ∃ r ∈ w.disk.blkMap.table blkMapLog, r.recordId = id) :
    wp (markBlkMapStaleBatch env ids)
      (fun updated w' => ∃ f' c c', SlotPut env blkMapSlot w w' f' c' ∧
        CacheOk blkMapLog w.disk.blkMap c ∧ updated = staleCopies ids c.records ∧
        Holds blkMapLog w.disk.blkMap updated f')
      (fun _ w' => (∃ c, CacheOk blkMapLog w.disk.blkMap c ∧
          Interrupted blkMapSlot (staleCopies ids c.records) w w') ∨
        (w'.disk = w.disk ∧ ¬ w.disk.blkMap.Loadable blkMapLog)) w := by
  unfold markBlkMapStaleBatch loadBlkMapRecords
  rw [if_neg hne]
  rw [wp_bind]
  refine hcoh.bind_fresh (fun hbad _ => .inr ⟨rfl, hbad⟩) fun c hready => ?_
  simp only [wp_bind, wp_pure]
  have hok : CacheOk blkMapLog w.disk.blkMap c := hready.ok
  have hfound' : ∀ id ∈ ids, ∃ r ∈ c.records, r.recordId = id := by
    intro id hid
    obtain ⟨r, hr, hrid⟩ := hfound id hid
    exact ⟨r, hok.mem_iff.mpr hr, hrid⟩
  rw [wp_check]
  refine ⟨fun hbad => absurd (length_staleCopies hok.nodup hfound') hbad, fun _ => ?_⟩
  unfold ensureBlkMapLogFormat
  simp only [wp_bind, wp_get, wp_ofExcept]
  refine ⟨fun log _ => ?_, fun e he => .inr ⟨trivial, fun hload => ?_⟩⟩
  swap
  · rw [LogFile.readBounded_of_loadable hload] at he
    cases he
  -- a record was found, so the file is not empty
  have htagged : w.disk.blkMap.records.isSome = true := by
    obtain ⟨id, hid⟩ := exists_mem_of_ne_nil ids hne
    obtain ⟨r, hr, -⟩ := hfound id hid
    by_contra hnone
    have : w.disk.blkMap.log = [] := by grind [Option.isSome_iff_ne_none, LogFile.log]
    have hmem := mem_of_mem_latest hr
    rw [this] at hmem
    cases hmem
  rw [if_pos htagged, wp_pure]
  refine wp_then (appendLog_spec (v := w) (staleCopies ids c.records)
    (blkMapSlot.setFile_file _).symm rfl (Holds.refl _ _) (Subset.refl _)) ?_ ?_
  · exact fun _ w' h => .inl ⟨c, hok, h⟩
  rintro _ w' ⟨f', rfl, hf'⟩
  have hholds : Holds blkMapLog w.disk.blkMap (staleCopies ids c.records) f' :=
    hf' ▸ (Holds.refl blkMapLog w.disk.blkMap).appended _ _
  refine ⟨f', c, _, ⟨rfl, rfl, ⟨rfl, ⟨?_, sortByKey_sorted _ _,
    fun h => absurd h (by simp)⟩, .inr rfl⟩, tail_subset _⟩, hok, rfl, hholds⟩
  refine (sortByKey_perm _ _).trans ?_
  refine (replaceAll_perm _ hok.perm ?_).trans hholds.table.symm
  intro u hu
  obtain ⟨r, hr, -, rfl⟩ := mem_staleCopies.mp hu
  exact mem_map.mpr ⟨r, hr, rfl⟩

/-- When one copy is made for each id, every id is there. -/
theorem found_of_length_staleCopies (h : (records.map (·.recordId)).Nodup)
    (hlen : (staleCopies ids records).length = ids.dedup.length) :
    ∀ id ∈ ids, ∃ r ∈ records, r.recordId = id := by
  have hsub : (staleCopies ids records).map (·.recordId) ⊆ ids.dedup := by
    intro id hid
    obtain ⟨u, hu, rfl⟩ := mem_map.mp hid
    obtain ⟨r, -, hrid, rfl⟩ := mem_staleCopies.mp hu
    exact mem_dedup.mpr hrid
  have hperm : ((staleCopies ids records).map (·.recordId)).Perm ids.dedup :=
    (subperm_of_subset (staleCopies_nodup h) hsub).perm_of_length_le (by rw [length_map, hlen])
  intro id hid
  obtain ⟨u, hu, rfl⟩ := mem_map.mp (hperm.mem_iff.mpr (mem_dedup.mpr hid))
  obtain ⟨r, hr, -, rfl⟩ := mem_staleCopies.mp hu
  exact ⟨r, hr, rfl⟩

/-- A batch that is refused has read the block map, if anything; one that is not has found every
record. -/
theorem markBlkMapStaleBatch_refused (hcalm : w.faults = [])
    (hcoh : Coherent blkMapSlot w.disk w.mem) (ids : List Nat) :
    wp (markBlkMapStaleBatch env ids)
      (fun _ _ => ∀ id ∈ ids, ∃ r ∈ w.disk.blkMap.table blkMapLog, r.recordId = id)
      (fun _ w' => ∃ c, w' = { w with mem := blkMapSlot.setCache w.mem c } ∧
        Coherent blkMapSlot w'.disk w'.mem) w := by
  unfold markBlkMapStaleBatch loadBlkMapRecords
  rw [wp_ite]
  refine ⟨fun hnil => by simp [hnil], fun _ => ?_⟩
  rw [wp_bind]
  refine hcoh.bind_fresh (fun _ _ => ⟨blkMapSlot.cache w.mem, ?_, hcoh⟩) fun c hready => ?_
  · rw [blkMapSlot.setCache_cache]
  simp only [wp_bind, wp_pure]
  have hok : CacheOk blkMapLog w.disk.blkMap c := hready.ok
  have hread : ∃ c', w.withCache blkMapSlot c =
      { w with mem := blkMapSlot.setCache w.mem c' } ∧
      Coherent blkMapSlot w.disk (blkMapSlot.setCache w.mem (some c)) :=
    ⟨some c, rfl, hready.coherent⟩
  rw [wp_check]
  refine ⟨fun _ => hread, fun hlen => ?_⟩
  have hfound : ∀ id ∈ ids, ∃ r ∈ w.disk.blkMap.table blkMapLog, r.recordId = id := by
    intro id hid
    obtain ⟨r, hr, hrid⟩ :=
      found_of_length_staleCopies hok.nodup (not_not.mp hlen) id hid
    exact ⟨r, hok.mem_iff.mp hr, hrid⟩
  -- from here on only a fault can stop it
  have happend : ∀ (v : World) (rs : List BlkMapRecord) (E : StorageError → World → Prop),
      v.faults = [] → wp (appendLog env blkMapSlot rs) (fun _ _ => ∀ id ∈ ids,
        ∃ r ∈ w.disk.blkMap.table blkMapLog, r.recordId = id) E v := by
    intro v rs E hv
    refine wp_diskStep hfound (fun hf => absurd hv hf) (fun hf => absurd hv hf) (fun cut hcut => ?_)
    rw [hv] at hcut
    cases hcut
  unfold ensureBlkMapLogFormat persistLog writeLog
  simp only [wp_bind, wp_get, wp_ofExcept, wp_updateCache]
  refine ⟨fun log _ => ?_, fun e he => hread⟩
  rw [wp_ite]
  refine ⟨fun _ => happend _ _ _ hcalm, fun _ => ?_⟩
  rw [wp_bind]
  refine wp_atomicStep ?_ (fun hf => absurd hcalm hf) (fun hf => absurd hcalm hf)
  refine happend _ _ _ ?_
  rw [World.faults_stepped, hcalm]
  rfl

end Holo.Storage
