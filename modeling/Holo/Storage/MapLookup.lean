/-
Holo.Storage.MapLookup — the lookup log: from a logical block to its block map record.

Main results:
* `locateLogicalBlock_spec`: over a lookup table that describes the active records, the
  binary search finds the record that covers a block, and nothing else;
* `rebuildLookupFromBlkMap_spec`: the rebuilt lookup describes the active records.
-/
import Holo.Storage.BlkMap

namespace Holo.Storage

open Lib Program List

/-! ## §1. The functions of the source. -/

/-- The sequence number of a lookup or dedup log written as a whole. -/
def countSequence {R : Type} (records : List R) : Nat := records.length

section

variable (env : Env)

def appendLookupRecord (record : MapLookupRecord) : StorageM MapLookupRecord := do
  let c ← ensureCacheFresh env lookupSlot
  if record.lookupId = 0 then
    let next := lookupLog.nextId c.records
    check (next = u64Max) lookupLog.idSpaceExhausted
    let record := { record with lookupId := next }
    appendSorted env lookupSlot countSequence c record
    return record
  else
    appendSorted env lookupSlot countSequence c record
    return record

/-- `locate_logical_block`: the last record that starts at or before the block. -/
def locateLogicalBlock (block : Nat) : StorageM (Option MapLookupRecord) := do
  let c ← ensureCacheFresh env lookupSlot
  match (c.records.takeWhile fun l => decide (l.logicalMin ≤ block)).getLast? with
  | none => return none
  | some l => if block ≤ l.logicalMax then return some l else return none

def loadLookupRecords : StorageM (List MapLookupRecord) := do
  let c ← ensureCacheFresh env lookupSlot
  return c.records

/-- The lookup record of an active block map record. -/
def lookupOf (lookupId : Nat) (r : BlkMapRecord) : MapLookupRecord where
  lookupId := lookupId
  logicalMin := r.logicalStart
  logicalMax := r.logicalStart + (r.logicalLen - 1)
  blkMapRefStart := r.recordId
  blkMapRefEnd := r.recordId

/-- The loop of `rebuild_lookup_from_blk_map` over the active records; `next` is the id of the
next lookup record. -/
def rebuildLoop : List BlkMapRecord → Nat → Except StorageError (List MapLookupRecord)
  | [], _ => .ok []
  | r :: rs, next =>
    if r.logicalLen = 0 then .error (.corrupt "active blk map record has zero logical length")
    else match checkedAdd64 r.logicalStart (r.logicalLen - 1) with
      | none => .error (.corrupt "logical range overflow")
      | some _ =>
        match rebuildLoop rs (next + 1) with
        | .error e => .error e
        | .ok ls => .ok (lookupOf next r :: ls)

def persistLookupRecords (records : List MapLookupRecord) : StorageM Unit :=
  persistLog env lookupSlot (countSequence records) records

def rebuildLookupFromBlkMap : StorageM Nat := do
  let records ← loadBlkMapRecords env
  let rebuilt ← ofExcept (rebuildLoop (records.filter (·.isActive)) 1)
  persistLookupRecords env rebuilt
  return rebuilt.length

end

/-! ## §2. A lookup table that describes the active records. -/

/-- The lookup record points at the block map record and has its range. -/
def MapLookupRecord.Describes (l : MapLookupRecord) (r : BlkMapRecord) : Prop :=
  l = lookupOf l.lookupId r

/-- The lookup table describes exactly the active records. -/
structure LookupOk (blk : List BlkMapRecord) (lk : List MapLookupRecord) : Prop where
  sound : ∀ l ∈ lk, ∃ r ∈ blk, r.isActive ∧ l.Describes r
  complete : ∀ r ∈ blk, r.isActive → ∃ l ∈ lk, l.Describes r

theorem LookupOk.perm {blk blk' : List BlkMapRecord} {lk lk' : List MapLookupRecord}
    (h : LookupOk blk lk) (hb : blk'.Perm blk) (hl : lk'.Perm lk) : LookupOk blk' lk' where
  sound l hlmem := by
    obtain ⟨r, hr, ha, hd⟩ := h.sound l (hl.mem_iff.mp hlmem)
    exact ⟨r, hb.mem_iff.mpr hr, ha, hd⟩
  complete r hr ha := by
    obtain ⟨l, hlmem, hd⟩ := h.complete r (hb.mem_iff.mp hr) ha
    exact ⟨l, hl.mem_iff.mpr hlmem, hd⟩

variable {r : BlkMapRecord} {block : Nat} {blk : List BlkMapRecord}

variable {lk : List MapLookupRecord} {l : MapLookupRecord}

theorem MapLookupRecord.Describes.min (h : l.Describes r) : l.logicalMin = r.logicalStart := by
  rw [h]
  rfl

theorem MapLookupRecord.Describes.max (h : l.Describes r) :
    l.logicalMax = r.logicalStart + (r.logicalLen - 1) := by
  rw [h]
  rfl

theorem BlkMapRecord.covers_iff :
    r.covers block = true ↔ r.logicalStart ≤ block ∧ block < r.logicalEnd := by
  simp [covers]

/-- What the search over a describing table returns. -/
def Located (blk : List BlkMapRecord) (block : Nat) : Option MapLookupRecord → Prop
  | none => ∀ r ∈ blk, r.isActive → r.covers block = false
  | some l => ∃ r ∈ blk, r.isActive ∧ r.covers block = true ∧ l.blkMapRefStart = r.recordId ∧
      l.blkMapRefEnd = r.recordId

/-- **The search is right**: the last record that starts at or before the block covers it if any
active record does. -/
theorem located_search (hext : ExtentsOk blk) (hnd : (blk.map (·.recordId)).Nodup)
    (hlk : LookupOk blk lk) (hs : SortedBy (·.logicalMin) lk) (block : Nat) :
    Located blk block (match (lk.takeWhile fun l => decide (l.logicalMin ≤ block)).getLast? with
        | none => none
        | some l => if block ≤ l.logicalMax then some l else none) := by
  -- an active record that covers the block has its lookup record among those taken
  have hcand : ∀ r ∈ blk, r.isActive → r.covers block = true →
      ∃ l ∈ lk.takeWhile (fun l => decide (l.logicalMin ≤ block)), l.Describes r := by
    intro r hr ha hcov
    obtain ⟨l, hl, hd⟩ := hlk.complete r hr ha
    refine ⟨l, SortedBy.mem_takeWhile hs hl ?_, hd⟩
    rw [hd.min]
    exact (BlkMapRecord.covers_iff.mp hcov).1
  cases hlast : (lk.takeWhile fun l => decide (l.logicalMin ≤ block)).getLast? with
  | none =>
    intro r hr ha
    grind
  | some l0 =>
    have hl0 := mem_of_getLast? hlast
    have hl0b : l0.logicalMin ≤ block := by
      simpa using all_eq_true.mp all_takeWhile l0 hl0
    obtain ⟨r0, hr0, ha0, hd0⟩ := hlk.sound l0 ((takeWhile_sublist _).mem hl0)
    have hend0 := hext.logicalEnd_eq hr0 ha0
    have hpos0 := hext.pos r0 hr0 ha0
    have hmin0 := hd0.min
    have hmax0 := hd0.max
    by_cases hin : block ≤ l0.logicalMax
    · simp only [hin, if_true]
      refine ⟨r0, hr0, ha0, BlkMapRecord.covers_iff.mpr ⟨by omega, by omega⟩, ?_, ?_⟩
      · rw [hd0]
        rfl
      · rw [hd0]
        rfl
    simp only [hin, if_false]
    intro r hr ha
    by_contra hcov
    have hcov' : r.covers block = true := by simpa using hcov
    obtain ⟨hstart, hlt⟩ := BlkMapRecord.covers_iff.mp hcov'
    obtain ⟨l, hl, hd⟩ := hcand r hr ha hcov'
    have hs' : SortedBy (·.logicalMin) (lk.takeWhile fun l => decide (l.logicalMin ≤ block)) :=
      Pairwise.sublist (takeWhile_sublist _) hs
    have hle : l.logicalMin ≤ l0.logicalMin := hs'.le_getLast hl hlast
    rw [hd.min, hmin0] at hle
    by_cases hid : r.recordId = r0.recordId
    · -- the same record: the block would lie behind its end
      rw [inj_on_of_nodup_map hnd hr hr0 hid] at hlt
      omega
    · have := hext.start_lt_end hr ha
      rcases hext.disjoint r hr r0 hr0 ha ha0 hid with h | h
      · omega
      · omega

/-! ## §3. Specifications. -/

variable {env : Env} {w : World}

/-- **Locating a block** over a lookup table that describes the active ones of these records. -/
theorem locateLogicalBlock_over (hcoh : Coherent lookupSlot w.disk w.mem) (hext : ExtentsOk blk)
    (hnd : (blk.map (·.recordId)).Nodup) (hlk : LookupOk blk (w.disk.lookup.table lookupLog)) :
    wp (locateLogicalBlock env block)
      (fun found w' => ∃ c, w' = w.withCache lookupSlot c ∧
        Ready env lookupSlot w'.disk w'.mem c ∧ Located blk block found)
      (fun _ w' => w' = w ∧ ¬ w.disk.lookup.Loadable lookupLog) w := by
  refine hcoh.bind_fresh (fun hbad _ => ⟨rfl, hbad⟩) fun c hready => ?_
  have hok : CacheOk lookupLog w.disk.lookup c := hready.ok
  have hloc := located_search hext hnd (hlk.perm (Perm.refl _) hok.perm) hok.sorted block
  split
  next hlast =>
    rw [hlast] at hloc
    exact ⟨c, rfl, hready, hloc⟩
  next l hlast =>
    rw [hlast] at hloc
    simp only at hloc
    split
    next hin =>
      rw [if_pos hin] at hloc
      exact ⟨c, rfl, hready, hloc⟩
    next hin =>
      rw [if_neg hin] at hloc
      exact ⟨c, rfl, hready, hloc⟩

/-- **Locating a block** when the lookup table describes the block map. -/
theorem locateLogicalBlock_spec (hcoh : Coherent lookupSlot w.disk w.mem)
    (hext : ExtentsOk (w.disk.blkMap.table blkMapLog))
    (hlk : LookupOk (w.disk.blkMap.table blkMapLog) (w.disk.lookup.table lookupLog)) :
    wp (locateLogicalBlock env block)
      (fun found w' => ∃ c, w' = w.withCache lookupSlot c ∧
        Ready env lookupSlot w'.disk w'.mem c ∧
        Located (w.disk.blkMap.table blkMapLog) block found)
      (fun _ w' => w' = w ∧ ¬ w.disk.lookup.Loadable lookupLog) w :=
  locateLogicalBlock_over hcoh hext (w.disk.blkMap.table_nodup (k := blkMapLog)) hlk

/-- **From the lookup record to the block map record.** -/
theorem locateActiveRecord_spec {env : Env} {w : World} {block id : Nat} {r : BlkMapRecord}
    (hcoh : Coherent blkMapSlot w.disk w.mem) (hr : r ∈ w.disk.blkMap.table blkMapLog)
    (hactive : r.isActive) (hcov : r.covers block = true) (hid : id = r.recordId) :
    wp (locateActiveRecord env block id id)
      (fun found w' => ∃ c, w' = w.withCache blkMapSlot c ∧
        Ready env blkMapSlot w'.disk w'.mem c ∧ found = some r)
      (fun _ w' => w' = w ∧ ¬ w.disk.blkMap.Loadable blkMapLog) w := by
  refine hcoh.bind_fresh (fun hbad _ => ⟨rfl, hbad⟩) fun c hready => ?_
  have hok : CacheOk blkMapLog w.disk.blkMap c := hready.ok
  have hrc := hok.mem_iff.mpr hr
  have hfind : c.records.find? (fun x => decide (x.recordId = id)) = some r := by
    cases hf : c.records.find? (fun x => decide (x.recordId = id)) with
    | none =>
      have := find?_eq_none.mp hf r hrc
      simp [hid] at this
    | some x =>
      have hx : x.recordId = id := by simpa using find?_some hf
      rw [inj_on_of_nodup_map hok.nodup (mem_of_find?_eq_some hf) hrc (hx.trans hid)]
  grind [wp_pure]

/-- Both searches work exactly if their log can be had. -/
theorem locateLogicalBlock_usable (block : Nat) :
    wp (locateLogicalBlock env block) (fun _ _ => Usable env lookupSlot w)
      (fun _ _ => ¬ Usable env lookupSlot w) w := by
  refine wp.bind ensureCacheFresh_usable ?_ (fun _ _ h => h)
  intro c w' husable
  split
  next => exact husable
  simp [wp_ite, husable]

theorem locateActiveRecord_usable (block idStart idEnd : Nat) :
    wp (locateActiveRecord env block idStart idEnd) (fun _ _ => Usable env blkMapSlot w)
      (fun _ _ => ¬ Usable env blkMapSlot w) w := by
  refine wp.bind ensureCacheFresh_usable ?_ (fun _ _ h => h)
  intro c w' husable
  rw [wp_ite]
  refine ⟨fun _ => ?_, fun _ => husable⟩
  split
  next r hr =>
    rw [wp_ite]
    exact ⟨fun _ => husable, fun _ => husable⟩
  next => exact husable

/-- **Appending to the lookup log**: one record under a new id. -/
theorem appendLookupRecord_spec {asked : MapLookupRecord} (hcoh : Coherent lookupSlot w.disk w.mem)
    (hzero : asked.lookupId = 0) :
    wp (appendLookupRecord env asked) (fun _ w' => ∃ l f' c', SlotPut env lookupSlot w w' f' c' ∧
        (f'.table lookupLog).Perm (l :: w.disk.lookup.table lookupLog) ∧
        (w.disk.lookup.Sound lookupLog → f'.Sound lookupLog) ∧
        l = { asked with lookupId := l.lookupId })
      (fun _ w' => (w.faults ≠ [] ∧ ∃ f', w'.disk = lookupSlot.setFile w.disk f' ∧
          (NoTorn w.faults → w.disk.lookup.Sound lookupLog → f'.Sound lookupLog)) ∨
        (w'.disk = w.disk ∧ (¬ w.disk.lookup.Loadable lookupLog ∨
          ∃ x ∈ w.disk.lookup.table lookupLog, u64Max ≤ x.lookupId + 1))) w := by
  refine hcoh.bind_fresh (fun hbad _ => .inr ⟨rfl, .inl hbad⟩) fun c hready => ?_
  have hok : CacheOk lookupLog w.disk.lookup c := hready.ok
  simp only [wp_bind, wp_check, hzero, if_true]
  refine ⟨fun hfull => ?_, fun hnext => ?_⟩
  · obtain ⟨x, hx, hbig⟩ := LogKind.exists_of_nextId_eq hfull
    exact .inr ⟨trivial, .inr ⟨x, hok.mem_iff.mp hx, hbig⟩⟩
  obtain ⟨-, hlt, habove⟩ := LogKind.nextId_fresh hnext
  have hfresh : ∀ x ∈ w.disk.lookup.table lookupLog, lookupLog.id x ≠ lookupLog.nextId c.records :=
    fun x hx => (habove x (hok.mem_iff.mpr hx)).ne
  refine wp_mono (appendSorted_spec countSequence hready hfresh hlt) ?_ ?_
  · rintro _ w' ⟨f', c', hput, hholds⟩
    exact ⟨_, f', c', hput.of_cached, hholds.table_fresh hfresh, hholds.sound, rfl⟩
  rintro _ w' ⟨hfault, f', hdisk, hholds⟩
  refine .inl ⟨hfault, f', hdisk, fun hno hsound => ?_⟩
  rcases hholds hno with h | h
  · exact h.sound hsound
  · exact h.sound hsound

/-! ## §4. Rebuilding. -/

/-- The lookup records of a list of active records, numbered from `next`. -/
theorem rebuildLoop_spec : ∀ (rs : List BlkMapRecord) (next : Nat),
    (∀ r ∈ rs, 0 < r.logicalLen ∧ r.logicalStart + r.logicalLen ≤ u64Max) →
    ∃ ls, rebuildLoop rs next = .ok ls ∧ ls.map (·.logicalMin) = rs.map (·.logicalStart) ∧
      ls.map (·.lookupId) = range' next rs.length ∧
      (∀ l ∈ ls, ∃ r ∈ rs, l.Describes r) ∧ (∀ r ∈ rs, ∃ l ∈ ls, l.Describes r)
  | [], _, _ => ⟨[], rfl, rfl, rfl, by simp, by simp⟩
  | r :: rs, next, h => by
    obtain ⟨hpos, hbound⟩ := h r mem_cons_self
    obtain ⟨ls, hls, hmin, hids, hsound, hcomplete⟩ :=
      rebuildLoop_spec rs (next + 1) (fun x hx => h x (mem_cons_of_mem _ hx))
    have hadd : checkedAdd64 r.logicalStart (r.logicalLen - 1) =
        some (r.logicalStart + (r.logicalLen - 1)) := if_pos (by omega)
    refine ⟨lookupOf next r :: ls, ?_, ?_, ?_, ?_, ?_⟩
    · rw [rebuildLoop, if_neg (by omega), hadd, hls]
    · rw [map_cons, hmin, map_cons]
      rfl
    · rw [map_cons, hids, length_cons, range'_succ]
      rfl
    · intro l hl
      rcases mem_cons.mp hl with rfl | hl
      · exact ⟨r, mem_cons_self, rfl⟩
      · obtain ⟨x, hx, hd⟩ := hsound l hl
        exact ⟨x, mem_cons_of_mem _ hx, hd⟩
    · intro x hx
      rcases mem_cons.mp hx with rfl | hx
      · exact ⟨lookupOf next x, mem_cons_self, rfl⟩
      · obtain ⟨l, hl, hd⟩ := hcomplete x hx
        exact ⟨l, mem_cons_of_mem _ hl, hd⟩

/-- **The rebuilt lookup describes the active records**; a crash inside leaves the old lookup or
the new one. -/
theorem rebuildLookupFromBlkMap_spec (hcoh : Coherent blkMapSlot w.disk w.mem)
    (hext : ExtentsOk (w.disk.blkMap.table blkMapLog)) :
    wp (rebuildLookupFromBlkMap env)
      (fun _ w' => ∃ f' cb c', w'.disk = lookupSlot.setFile w.disk f' ∧
        w'.mem = lookupSlot.setCache (blkMapSlot.setCache w.mem (some cb)) (some c') ∧
        Ready env blkMapSlot w'.disk w'.mem cb ∧ Ready env lookupSlot w'.disk w'.mem c' ∧
        w'.faults ⊆ w.faults ∧
        LookupOk (w.disk.blkMap.table blkMapLog) (f'.table lookupLog) ∧ f'.Sound lookupLog ∧
        ∃ now ls, f' = .written lookupLog (countSequence ls) (some ls) now ∧
          ls.length = ((w.disk.blkMap.table blkMapLog).filter (·.isActive)).length)
      (fun _ w' => (w.faults ≠ [] ∧ ∃ f', w'.disk = lookupSlot.setFile w.disk f' ∧
          (w.disk.lookup.Sound lookupLog → f'.Sound lookupLog)) ∨
        (w'.disk = w.disk ∧ ¬ w.disk.blkMap.Loadable blkMapLog)) w := by
  unfold rebuildLookupFromBlkMap loadBlkMapRecords
  rw [wp_bind]
  refine hcoh.bind_fresh (fun hbad _ => .inr ⟨rfl, hbad⟩) fun c hready => ?_
  simp only [wp_bind, wp_pure]
  have hok : CacheOk blkMapLog w.disk.blkMap c := hready.ok
  have hactives : ∀ r ∈ c.records.filter (·.isActive),
      0 < r.logicalLen ∧ r.logicalStart + r.logicalLen ≤ u64Max := by
          simp_all [hok.mem_iff.mp, hext.pos, hext.bound]
  obtain ⟨ls, hls, hmin, hids, hsound, hcomplete⟩ :=
    rebuildLoop_spec (c.records.filter (·.isActive)) 1 hactives
  have hnodup : (ls.map (·.lookupId)).Nodup := by
    rw [hids]
    exact nodup_range'
  have hsorted : SortedBy (·.logicalMin) ls := by
    have hpair : (ls.map (·.logicalMin)).Pairwise (· ≤ ·) := by
      rw [hmin, pairwise_map]
      exact Pairwise.sublist filter_sublist hok.sorted
    exact pairwise_map.mp hpair
  have hlen : ls.length = ((w.disk.blkMap.table blkMapLog).filter (·.isActive)).length := by
    have h1 : ls.length = (c.records.filter (·.isActive)).length := by
      simpa using congrArg List.length hmin
    rw [h1]
    exact (hok.perm.filter _).length_eq
  have hdescr : LookupOk (w.disk.blkMap.table blkMapLog) ls :=
    { sound := fun l hl => by
        obtain ⟨r, hr, hd⟩ := hsound l hl
        obtain ⟨hmem, ha⟩ := mem_filter.mp hr
        exact ⟨r, hok.mem_iff.mp hmem, ha, hd⟩
      complete := fun r hr ha =>
        hcomplete r (mem_filter.mpr ⟨hok.mem_iff.mpr hr, ha⟩) }
  -- the loop does not fail, and its lookups are written as one log
  rw [hls, wp_ofExcept]
  refine ⟨fun ls' h => ?_, fun e h => absurd h (by simp)⟩
  injection h with h
  subst h
  refine wp_then (persistLog_spec (s := lookupSlot) (countSequence ls) hnodup hsorted) ?_ ?_
  · rintro _ w' ⟨hfault, hdisk | ⟨now, hdisk⟩⟩
    · exact .inl ⟨hfault, w.disk.lookup, hdisk, fun h => h⟩
    · exact .inl ⟨hfault, _, hdisk, fun _ => LogFile.Sound.written _ _⟩
  rintro _ w' ⟨now, c', ⟨hdisk, hmem, hready', hfaults⟩, hrecs⟩
  refine ⟨_, c, c', hdisk, hmem, ?_, hready', hfaults, ?_, LogFile.Sound.written _ _, now, ls,
    rfl, hlen⟩
  swap
  · show LookupOk _ (LogFile.table lookupLog (.written lookupLog _ (some ls) now))
    rw [LogFile.table_written hnodup]
    exact hdescr
  have hfile : w'.disk.blkMap = w.disk.blkMap := by rw [hdisk]; rfl
  refine ⟨?_, ?_, ?_⟩
  · rw [hmem]
    rfl
  · show CacheOk blkMapLog w'.disk.blkMap c
    rw [hfile]
    exact hok
  · show _ ∨ c.stamp = w'.disk.blkMap.stamp blkMapLog
    rw [hfile]
    exact hready.fresh

end Holo.Storage
