/-
Holo.Storage.LookupRuns — the block map and its lookup over whole runs.

A record is appended to the block map first and to the lookup afterwards, so for a while the
lookup does not know it.  A rebuild writes the lookup anew from the block map.

Main results:
* `MapStep.inv`: one operation keeps the lookup describing what was indexed;
* `lookUp_eq_linearSearch`: both binary searches together find what a scan over the indexed
  records finds;
* `lookUp_misses_unindexed`: a record is not found before its lookup append.
-/
import Mathlib.Logic.Relation
import Holo.Storage.ResetSpec

namespace Holo.Storage

open Lib Program List

variable {env : Env}

/-! ## §1. Searching. -/

/-- `locate_logical_block` followed by `locate_active_record`. -/
def lookUp (env : Env) (block : Nat) : StorageM (Option BlkMapRecord) := do
  let lookup ← locateLogicalBlock env block
  match lookup with
  | none => return none
  | some l => locateActiveRecord env block l.blkMapRefStart l.blkMapRefEnd

/-- The first active record around the block, in the order of the list. -/
def linearSearch (records : List BlkMapRecord) (block : Nat) : Option BlkMapRecord :=
  records.find? fun r => r.isActive && r.covers block

variable {records : List BlkMapRecord} {block : Nat} {asked : BlkMapRecord} {w' : World}
  {c' : CachedLog MapLookupRecord}

theorem linearSearch_eq_none (h : ∀ r ∈ records, r.isActive → r.covers block = false) :
    linearSearch records block = none := by
  refine find?_eq_none.mpr fun r hr => ?_
  grind

variable {r : BlkMapRecord}

/-- Extents do not overlap, so a scan finds the record whatever the order. -/
theorem linearSearch_eq_some (hext : ExtentsOk records) (hnd : (records.map (·.recordId)).Nodup)
    (hr : r ∈ records) (hact : r.isActive) (hcov : r.covers block = true) :
    linearSearch records block = some r := by
  unfold linearSearch
  cases hfind : records.find? fun r => r.isActive && r.covers block with
  | none =>
    have := find?_eq_none.mp hfind r hr
    simp [hact, hcov] at this
  | some x =>
    have hx := find?_some hfind
    rw [Bool.and_eq_true] at hx
    rw [hext.unique hnd (mem_of_find?_eq_some hfind) hr hx.1 hact hx.2 hcov]

/-! ## §2. Runs. -/

/-- A record as a write appends it. -/
structure FitRecord (asked : BlkMapRecord) : Prop where
  unnumbered : asked.recordId = 0
  active : asked.isActive = true
  pos : 0 < asked.logicalLen
  bound : asked.logicalStart + asked.logicalLen ≤ u64Max

/-- The files with the records whose own lookup append is still to come, oldest first, and those
among them that no rebuild has indexed. -/
structure MapState where
  world : World
  queue : List BlkMapRecord
  unindexed : List BlkMapRecord

/-- The records the lookup knows of. -/
def MapState.indexed (s : MapState) : List BlkMapRecord :=
  s.world.disk.records.filter fun r => decide (r ∉ s.unindexed)

/-- One operation: an append to the block map, accepted or refused; the lookup append of the
oldest record that waits for it; a rebuild; the loss of all caches. -/
inductive MapStep (env : Env) (s : MapState) : MapState → Prop where
  | append {asked r : BlkMapRecord} {w' : World} (hfit : FitRecord asked)
      (hrun : appendBlkMapRecord env asked s.world = (.ok r, w')) :
      MapStep env s ⟨w', s.queue ++ [r], s.unindexed ++ [r]⟩
  | refuse {asked : BlkMapRecord} {e : StorageError} {w' : World} (hfit : FitRecord asked)
      (hcalm : s.world.faults = []) (hrun : appendBlkMapRecord env asked s.world = (.error e, w')) :
      MapStep env s ⟨w', s.queue, s.unindexed⟩
  | index {r : BlkMapRecord} {rest : List BlkMapRecord} {l : MapLookupRecord} {w' : World}
      (hqueue : s.queue = r :: rest)
      (hrun : appendLookupRecord env (writeLookup r) s.world = (.ok l, w')) :
      MapStep env s ⟨w', rest, s.unindexed.filter fun x => decide (x ≠ r)⟩
  | rebuild {n : Nat} {w' : World} (hrun : rebuildLookupFromBlkMap env s.world = (.ok n, w')) :
      MapStep env s ⟨w', s.queue, []⟩
  | discard : MapStep env s ⟨{ s.world with mem := .empty }, s.queue, s.unindexed⟩

/-- The state is reached from a blank layout. -/
def MapReached (env : Env) (s : MapState) : Prop :=
  ∃ faults,
      Relation.ReflTransGen (MapStep env) ⟨{ World.fresh env with faults := faults }, [], []⟩ s

/-! ## §3. The invariant. -/

/-- The lookup describes exactly the indexed records. -/
structure MapInv (s : MapState) : Prop where
  extents : ExtentsOk s.world.disk.records
  blkMap : Coherent blkMapSlot s.world.disk s.world.mem
  lookup : Coherent lookupSlot s.world.disk s.world.mem
  queued : ∀ r ∈ s.queue, r ∈ s.world.disk.active
  described : LookupOk s.indexed s.world.disk.lookups

variable {s : MapState}

theorem MapState.mem_indexed : r ∈ s.indexed ↔ r ∈ s.world.disk.records ∧ r ∉ s.unindexed := by
  unfold MapState.indexed
  rw [mem_filter, decide_eq_true_eq]

theorem MapInv.extents_indexed (h : MapInv s) : ExtentsOk s.indexed :=
  h.extents.of_active fun _ hr _ => (MapState.mem_indexed.mp hr).1

/-- **An append** adds a record the lookup does not know. -/
theorem MapInv.append (h : MapInv s) {asked r : BlkMapRecord} (hfit : FitRecord asked)
    {f' : LogFile BlkMapRecord} {c' : CachedLog BlkMapRecord}
    (hput : SlotPut env blkMapSlot s.world w' f' c')
    (hholds : Holds blkMapLog s.world.disk.blkMap [r] f')
    (hnew : NewRecord s.world.disk.records asked r) :
    MapInv ⟨w', s.queue ++ [r], s.unindexed ++ [r]⟩ := by
  have hfresh : ∀ x ∈ s.world.disk.records, x.recordId ≠ r.recordId :=
    fun x hx => (hnew.fresh x hx).ne
  have hperm : w'.disk.records.Perm (r :: s.world.disk.records) := by
    rw [hput.disk]
    exact hholds.table_fresh hfresh
  have hact : r.isActive = true := by
    rw [hnew.eq]
    exact hfit.active
  have hlt : asked.logicalStart < asked.logicalEnd := by
    rw [BlkMapRecord.logicalEnd, satAdd64_eq hfit.bound]
    have := hfit.pos
    omega
  have hextents : ExtentsOk (r :: s.world.disk.records) := by
    refine h.extents.cons ?_ ?_ ?_
    · rw [hnew.eq]
      exact hfit.pos
    · rw [hnew.eq]
      exact hfit.bound
    · have hfree := hnew.free h.extents hlt
      rw [hnew.eq]
      exact hfree
  refine ⟨hextents.perm hperm, hput.ready.coherent, ?_, ?_, ?_⟩
  · refine h.lookup.sameFile (.inl ?_) ?_
    · rw [hput.disk]; rfl
    · rw [hput.mem]; rfl
  · intro x hx
    rw [Disk.mem_active, hperm.mem_iff, mem_cons]
    rcases mem_append.mp hx with hx | hx
    · obtain ⟨hmem, hxact⟩ := Disk.mem_active.mp (h.queued x hx)
      exact ⟨.inr hmem, hxact⟩
    · rw [mem_singleton.mp hx]
      exact ⟨.inl rfl, hact⟩
  -- the same records are indexed: the new one is not
  have hsame : ∀ x, x ∈ MapState.indexed ⟨w', s.queue ++ [r], s.unindexed ++ [r]⟩ ↔
      x ∈ s.indexed := by
    intro x
    rw [MapState.mem_indexed, MapState.mem_indexed, hperm.mem_iff, mem_cons,
      mem_append, mem_singleton]
    constructor
    · grind
    · grind
  have hlookups : w'.disk.lookups = s.world.disk.lookups := by
    rw [hput.disk]
    rfl
  refine ⟨fun l hl => ?_, fun x hx hxact => ?_⟩
  · obtain ⟨x, hx, hrest⟩ := h.described.sound l (hlookups ▸ hl)
    exact ⟨x, (hsame x).mpr hx, hrest⟩
  · obtain ⟨l, hl, hd⟩ := h.described.complete x ((hsame x).mp hx) hxact
    exact ⟨l, hlookups.symm ▸ hl, hd⟩

/-- **A lookup append** indexes its record. -/
theorem MapInv.index (h : MapInv s) {rest : List BlkMapRecord} (hqueue : s.queue = r :: rest)
    {f' : LogFile MapLookupRecord} (hput : SlotPut env lookupSlot s.world w' f' c')
    {l : MapLookupRecord} (htable : (f'.table lookupLog).Perm (l :: s.world.disk.lookups))
    (hl : l = { writeLookup r with lookupId := l.lookupId }) :
    MapInv ⟨w', rest, s.unindexed.filter fun x => decide (x ≠ r)⟩ := by
  have hmap : w'.disk.blkMap = s.world.disk.blkMap := by
    rw [hput.disk]
    rfl
  have hrecords : w'.disk.records = s.world.disk.records := by
    unfold Disk.records
    rw [hmap]
  have hactive : w'.disk.active = s.world.disk.active := by
    unfold Disk.active
    rw [hrecords]
  have hrq : r ∈ s.world.disk.active := h.queued r (by rw [hqueue]; exact mem_cons_self)
  obtain ⟨hrmem, hract⟩ := Disk.mem_active.mp hrq
  have hdesc : l.Describes r := by
    rw [hl]
    exact writeLookup_describes (h.extents.pos r hrmem hract)
      (h.extents.logicalEnd_eq hrmem hract) _
  -- indexed is what was indexed before, and `r`
  have hindexed : ∀ x, x ∈ MapState.indexed ⟨w', rest, s.unindexed.filter fun x => decide (x ≠ r)⟩ ↔
      x ∈ s.world.disk.records ∧ (x ∈ s.indexed ∨ x = r) := by
    intro x
    rw [MapState.mem_indexed, MapState.mem_indexed, hrecords]
    by_cases hxr : x = r
    · simp [hxr]
    · simp [hxr]
  have hlookups : w'.disk.lookups.Perm (l :: s.world.disk.lookups) := by
    rw [hput.disk]
    exact htable
  refine ⟨hrecords ▸ h.extents, ?_, hput.ready.coherent, ?_, ?_⟩
  · refine h.blkMap.sameFile (.inl hmap) ?_
    rw [hput.mem]
    rfl
  · intro x hx
    rw [hactive]
    exact h.queued x (by rw [hqueue]; exact mem_cons_of_mem _ hx)
  refine ⟨fun l' hl' => ?_, fun x hx hxact => ?_⟩
  · rcases mem_cons.mp (hlookups.mem_iff.mp hl') with heq | hold
    · exact ⟨r, (hindexed r).mpr ⟨hrmem, .inr rfl⟩, hract, heq ▸ hdesc⟩
    · obtain ⟨x, hx, hrest⟩ := h.described.sound l' hold
      exact ⟨x, (hindexed x).mpr ⟨(MapState.mem_indexed.mp hx).1, .inl hx⟩, hrest⟩
  · rcases ((hindexed x).mp hx).2 with hold | heq
    · obtain ⟨l', hl', hd⟩ := h.described.complete x hold hxact
      exact ⟨l', hlookups.mem_iff.mpr (mem_cons_of_mem _ hl'), hd⟩
    · exact ⟨l, hlookups.mem_iff.mpr mem_cons_self, heq ▸ hdesc⟩

/-- **One operation keeps the invariant.** -/
theorem MapStep.inv {s s' : MapState} (h : MapInv s) (hstep : MapStep env s s') : MapInv s' := by
  cases hstep with
  | append hfit hrun =>
    obtain ⟨f', c', hput, hholds, hnew⟩ :=
      (appendBlkMapRecord_spec h.blkMap hfit.unnumbered).of_ok hrun
    exact h.append hfit hput hholds hnew
  | refuse hfit hcalm hrun =>
    obtain ⟨c, rfl, hcoh⟩ :=
      (appendBlkMapRecord_refused hfit.unnumbered h.blkMap).of_error hrun hcalm
    exact ⟨h.extents, hcoh, h.lookup, h.queued, h.described⟩
  | index hqueue hrun =>
    obtain ⟨l, f', c', hput, htable, -, hl⟩ := (appendLookupRecord_spec h.lookup rfl).of_ok hrun
    exact h.index hqueue hput htable hl
  | @rebuild n w' hrun =>
    -- a rebuild indexes every record, whatever the queue still holds
    obtain ⟨f', cb, c', hdisk, hmem, hb, hl, -, hlk, -, -⟩ :=
      (rebuildLookupFromBlkMap_spec h.blkMap h.extents).of_ok hrun
    have hrecords : w'.disk.records = s.world.disk.records := by
      rw [hdisk]
      rfl
    have hactive : w'.disk.active = s.world.disk.active := by
      unfold Disk.active
      rw [hrecords]
    refine ⟨hrecords ▸ h.extents, hb.coherent, hl.coherent, hactive ▸ h.queued, ?_⟩
    have hall : MapState.indexed ⟨w', s.queue, []⟩ = s.world.disk.records := by
      unfold MapState.indexed
      simp [hrecords]
    have hlookups : w'.disk.lookups = f'.table lookupLog := by
      rw [hdisk]
      rfl
    rw [hall]
    exact hlookups ▸ hlk
  | discard => exact ⟨h.extents, .empty _ _ rfl, .empty _ _ rfl, h.queued, h.described⟩

/-- **Every state of a run keeps the invariant.** -/
theorem MapReached.inv (h : MapReached env s) : MapInv s := by
  obtain ⟨faults, hrun⟩ := h
  induction hrun with
  | refl =>
    have hfresh := (World.fresh_layoutInv env).ok
    refine ⟨hfresh.disk.extents, hfresh.blkMap, hfresh.lookup, by simp, ?_⟩
    exact hfresh.described
  | tail _ hstep ih => exact hstep.inv ih

/-! ## §4. The searches agree. -/

/-- **The two binary searches find what a scan finds** of the indexed records, which are all
records once none waits for its lookup; they fail only if one of the logs cannot be had. -/
theorem lookUp_eq_linearSearch {s : MapState} (hreach : MapReached env s) (block : Nat) :
    wp (lookUp env block) (fun res _ => res = linearSearch s.indexed block ∧
        (∀ r ∈ s.indexed, r.isActive → r.covers block = true → res = some r) ∧
        ∀ r, res = some r → r ∈ s.indexed ∧ r.isActive ∧ r.covers block = true)
      (fun _ _ => ¬ Usable env lookupSlot s.world ∨ ¬ Usable env blkMapSlot s.world) s.world ∧
    (s.unindexed = [] → s.indexed = s.world.disk.records) := by
  have h := hreach.inv
  have hext := h.extents_indexed
  have hnd : (s.indexed.map (·.recordId)).Nodup :=
    (filter_sublist.map _).nodup s.world.disk.records_nodup
  refine ⟨?_, fun hnil => ?_⟩
  swap
  · unfold MapState.indexed
    simp [hnil]
  unfold lookUp
  refine wp.bind ((locateLogicalBlock_over h.lookup hext hnd h.described).and
    (locateLogicalBlock_usable block)) ?_ (fun _ _ hout => .inl hout.2)
  intro found w₁ hout
  obtain ⟨⟨c, rfl, -, hfound⟩, -⟩ := hout
  -- what the lookup log names is indexed; an indexed extent is named in it
  cases found with
  | none =>
    refine ⟨(linearSearch_eq_none hfound).symm, fun r hr hact hcov => ?_, by simp⟩
    rw [hfound r hr hact] at hcov
    cases hcov
  | some l =>
    obtain ⟨r, hr, hact, hcov, hstart, hend⟩ := hfound
    have hrmem := (MapState.mem_indexed.mp hr).1
    dsimp only
    rw [hstart, hend]
    have hblk : Coherent blkMapSlot s.world.disk (lookupSlot.setCache s.world.mem (some c)) :=
      h.blkMap.sameFile (.inl rfl) rfl
    have hspec := @locateActiveRecord_spec env
      { s.world with mem := lookupSlot.setCache s.world.mem (some c) } block r.recordId r hblk
      hrmem hact hcov rfl
    refine wp_mono (hspec.and (locateActiveRecord_usable block _ _)) ?_
      (fun _ _ hout => .inr hout.2)
    grind [linearSearch_eq_some]

/-- A record of three blocks, as it is asked for. -/
def threeBlocks : BlkMapRecord :=
  ⟨0, 0, 3, 0, 1, 0, .active, 0, .none, 3, 0, .none⟩

/-- The record under its id. -/
def firstBlocks : BlkMapRecord := { threeBlocks with recordId := 1 }

/-- The blank layout with the record in the block map. -/
def threeBlocksAppended : World :=
  (appendBlkMapRecord .standard threeBlocks (World.fresh .standard)).2

theorem threeBlocks_append : MapReached .standard
    ⟨threeBlocksAppended, [firstBlocks], [firstBlocks]⟩ := by
  have hrun : appendBlkMapRecord .standard threeBlocks (World.fresh .standard) =
      (.ok firstBlocks, threeBlocksAppended) := run_eq_of_toOption (by decide +kernel)
  exact ⟨[], .single (.append ⟨rfl, rfl, by decide, by decide⟩ hrun)⟩

/-- The layout with the record in the lookup, too. -/
def threeBlocksIndexed : MapState where
  world := (appendLookupRecord .standard (writeLookup firstBlocks) threeBlocksAppended).2
  queue := []
  unindexed := []

theorem lookUp_finds_indexed : wp (lookUp .standard 1)
      (fun res _ => res = linearSearch threeBlocksIndexed.world.disk.records 1)
      (fun _ _ => ¬ Usable .standard lookupSlot threeBlocksIndexed.world ∨
        ¬ Usable .standard blkMapSlot threeBlocksIndexed.world)
      threeBlocksIndexed.world := by
  obtain ⟨faults, hrun⟩ := threeBlocks_append
  obtain ⟨l, hindex⟩ := @exists_run_of_isOk _ _ _ threeBlocksAppended
    (appendLookupRecord .standard (writeLookup firstBlocks)) (by decide +kernel)
  have hstep : MapStep .standard ⟨threeBlocksAppended, [firstBlocks], [firstBlocks]⟩
      ⟨threeBlocksIndexed.world, [], [firstBlocks].filter fun x => decide (x ≠ firstBlocks)⟩ :=
    .index rfl hindex
  have hreach : MapReached .standard threeBlocksIndexed := ⟨faults, hrun.tail hstep⟩
  obtain ⟨hspec, hall⟩ := lookUp_eq_linearSearch hreach 1
  exact wp_mono hspec (fun _ _ hout => hout.1) (fun _ _ hout => hout)

/-- **A record is not found before its lookup append**, though it is active and covers the block. -/
theorem lookUp_misses_unindexed : ∃ s : MapState, MapReached .standard s ∧
    (lookUp .standard 1 s.world).1.toOption = some none ∧
    linearSearch s.world.disk.records 1 = some firstBlocks :=
  ⟨_, threeBlocks_append, by decide +kernel, by decide +kernel⟩

end Holo.Storage
