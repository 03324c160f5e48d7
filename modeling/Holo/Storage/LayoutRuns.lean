/-
Holo.Storage.LayoutRuns — the layouts a program reaches, and what an unmap does to them.

A layout starts blank and is written, read, unmapped, flushed and reset; between two operations,
and where a write or a flush is cut short, the program may stop and recover.

Main results:
* `LayoutStep.inv`, `Reached.inv`: every layout that is reached keeps the invariant;
* `reached_tables`: so its block map, lookups and dedup entries agree;
* `unmap_exact_iff`: when an unmap makes stale exactly the records that overlap its range,
  changes no other read and takes exactly their references away.
-/
import Mathlib.Logic.Relation
import Holo.Storage.ResetSpec
import Holo.Storage.UnmapExact

namespace Holo.Storage

open Lib Program List

variable {env : Env} {w w' : World}

/-! ## §1. Steps. -/

/-- The program stopped, and recovery has succeeded on what it left.  The data segments have names
of six digits, and no dedup entry names a blob above the recovered high water. -/
structure Restarted (env : Env) (w w' : World) : Prop where
  recovered : ∃ faults report,
    recoverDirtyState env { w with mem := .empty, faults := faults } = (.ok report, w')
  small : SmallSegs w.disk
  below : EntriesBelow w'.disk

/-- A write of a block that can be read back. -/
structure FitWrite (env : Env) (w : World) (start : Nat) (payload : Bytes) (opts : WriteOptions) :
    Prop where
  fits : WriteFits start payload
  decodable : Decodable opts payload
  hits : HitsMatch env w.disk opts payload

/-- One operation on a layout. -/
inductive LayoutStep (env : Env) (w : World) : World → Prop where
  | write {start marks : Nat} {payload : Bytes} {opts : WriteOptions} {report : WriteReport}
      {w' : World} (hfit : FitWrite env w start payload opts)
      (hrun : writeLogicalBlock env start payload marks opts none w = (.ok report, w')) :
      LayoutStep env w w'
  | writeCut {start marks : Nat} {payload : Bytes} {opts : WriteOptions} {e : StorageError}
      {w₁ w' : World} (hfit : FitWrite env w start payload opts) (htorn : NoTorn w.faults)
      (hrun : writeLogicalBlock env start payload marks opts none w = (.error e, w₁))
      (hrec : Restarted env w₁ w') : LayoutStep env w w'
  | unmap {start len : Nat} {report : UnmapReport} {w' : World}
      (hrun : runUnmap env start len w = (.ok report, w')) : LayoutStep env w w'
  | read {block : Nat} {res : Except StorageError (Option LogicalReadResult)} {w' : World}
      (hrun : readLogicalBlock env block w = (res, w')) : LayoutStep env w w'
  | flush {flushed : Bool} {w' : World} (hrun : flushPendingWrites env w = (.ok flushed, w')) :
      LayoutStep env w w'
  | flushCut {e : StorageError} {w₁ w' : World}
      (hrun : flushPendingWrites env w = (.error e, w₁)) (hrec : Restarted env w₁ w') :
      LayoutStep env w w'
  | reset {w' : World} (hsmall : SmallSegs w.disk)
      (hrun : resetLayoutForOverwrite env w = (.ok (), w')) : LayoutStep env w w'
  | restart {w' : World} (hrec : Restarted env w w') : LayoutStep env w w'

/-- The layout is reached from a blank one, whatever becomes of the steps. -/
def Reached (env : Env) (w : World) : Prop :=
  ∃ faults, Relation.ReflTransGen (LayoutStep env) { World.fresh env with faults := faults } w

/-! ## §2. The invariant. -/

/-- What a write that failed leaves can be recovered. -/
theorem WriteFailed.crashInv {start marks : Nat} {payload : Bytes} {opts : WriteOptions}
    {failpoint : Option IngestFailpoint} (h : LayoutInv env w) (htorn : NoTorn w.faults)
    (hfail : WriteFailed env w w' start payload marks opts failpoint) : CrashInv env w'.disk := by
  refine ⟨(hfail.cut htorn).disk, fun hclean => ?_⟩
  rcases hfail.clean hclean with hsame | hcons
  · rw [hsame] at hclean ⊢
    exact h.crashInv.clean hclean
  · exact hcons

/-- **Recovery brings the invariant back.** -/
theorem Restarted.inv (h : Restarted env w w') (hcrash : CrashInv env w.disk) :
    LayoutInv env w' := by
  obtain ⟨faults, report, hrun⟩ := h.recovered
  have hspec := @recoverDirtyState_spec env { w with mem := .empty, faults := faults }
    hcrash.disk rfl
  obtain ⟨hdone, -⟩ := hspec.of_ok hrun
  cases hdone with
  | clean hflags heq hsize =>
    have hinv := @CrashInv.restarted env { w with mem := .empty, faults := faults } hcrash rfl
      hflags
    rw [heq]
    exact ⟨hinv.ok.setCheckpointCache, hinv.covered, hinv.clean⟩
  | dirty hflags hrec hbudget => exact hrec.layoutInv h.small h.below

/-- **One operation keeps the invariant.** -/
theorem LayoutStep.inv (hlaw : env.codecs.Lawful) (h : LayoutInv env w)
    (hstep : LayoutStep env w w') : LayoutInv env w' := by
  cases hstep with
  | write hfit hrun =>
    exact ((writeLogicalBlock_spec h.ok h.covered hlaw hfit.fits hfit.decodable hfit.hits).of_ok
      hrun).1
  | writeCut hfit htorn hrun hrec =>
    have hfail := (writeLogicalBlock_spec h.ok h.covered hlaw hfit.fits hfit.decodable
      hfit.hits).of_error hrun
    exact hrec.inv (hfail.crashInv h htorn)
  | unmap hrun => exact ((runUnmap_spec h.ok _ _).of_ok hrun).1.layoutInv h
  | @read block res w' hrun =>
    have hspec := readLogicalBlock_returns h.ok block
    cases res with
    | ok found => exact h.cacheRead (hspec.of_ok hrun).1
    | error e => exact h.cacheRead (hspec.of_error hrun).1
  | flush hrun =>
    rcases (flushPendingWrites_spec h.ok).of_ok hrun with ⟨-, hdone⟩ | ⟨-, heq, -⟩
    · exact h.flushDone hdone
    · rw [heq]
      exact ⟨h.ok.setCheckpointCache, h.covered, h.clean⟩
  | flushCut hrun hrec =>
    exact hrec.inv (h.flushCut ((flushPendingWrites_spec h.ok).of_error hrun))
  | reset hsmall hrun => exact ((resetLayoutForOverwrite_spec h.ok hsmall).of_ok hrun).inv
  | restart hrec => exact hrec.inv h.crashInv

/-- **Every layout that is reached keeps the invariant.** -/
theorem Reached.inv (hlaw : env.codecs.Lawful) (h : Reached env w) : LayoutInv env w := by
  obtain ⟨faults, hrun⟩ := h
  induction hrun with
  | refl =>
    have hfresh := World.fresh_layoutInv env
    exact CrashInv.restarted hfresh.crashInv rfl rfl
  | tail _ hstep ih => exact hstep.inv hlaw ih

/-- **The tables of every layout reached agree**: reference counts are exact, active records are
disjoint, described by the lookups and readable. -/
theorem reached_tables (hlaw : env.codecs.Lawful) (h : Reached env w) :
    CountsOk w.disk ∧ ExtentsOk w.disk.records ∧ LookupOk w.disk.records w.disk.lookups ∧
      ∀ r ∈ w.disk.active, ∃ p, Readable env w.disk r p := by
  have hok := (h.inv hlaw).ok
  exact ⟨hok.counts, hok.disk.extents, hok.described, hok.disk.readable⟩

/-! ## §3. Exact unmaps. -/

/-- The active records that overlap the range and name the entry. -/
def Disk.unmapRefs (d : Disk) (start len id : Nat) : List BlkMapRecord :=
  d.active.filter fun r => decide (r.Overlaps start len) && decide (r.dedupEntryId = id)

/-- An unmap did what it is for: the active records that overlap the range are stale and nothing
else changed in the block map; reads inside of them return nothing and the others what they
returned; and each dedup entry lost one reference for every stale record that names it. -/
structure UnmapExact (env : Env) (w w' : World) (start len : Nat) : Prop where
  records : ∀ x, x ∈ w'.disk.records ↔
    (∃ r ∈ w.disk.active, r.Overlaps start len ∧ x = r.toStale) ∨
    (x ∈ w.disk.records ∧ ¬ (x.isActive = true ∧ x.Overlaps start len))
  inside : ∀ r ∈ w.disk.active, r.Overlaps start len → ∀ block, r.covers block = true →
    ∃ v, readLogicalBlock env block w' = (.ok none, v)
  outside : ∀ block, (∀ r ∈ w.disk.active, r.Overlaps start len → r.covers block = false) →
    ∀ res v, readLogicalBlock env block w = (.ok res, v) →
      ∃ v', readLogicalBlock env block w' = (.ok res, v')
  counts : ∀ e, e ∈ w'.disk.entries ↔ ∃ x ∈ w.disk.entries,
    e = x.withRefs (x.refCount - (w.disk.unmapRefs start len x.entryId).length)
  room : ∀ x ∈ w.disk.entries, (w.disk.unmapRefs start len x.entryId).length ≤ x.refCount

/-- No active record has the start of an empty range inside of it. -/
def NoSplit (d : Disk) (start len : Nat) : Prop :=
  0 < len ∨ ∀ r ∈ d.active, ¬ r.Straddles start

/-- Without such a record, the test of `run_unmap` picks the records that overlap. -/
theorem NoSplit.mem_meeting {d : Disk} (hext : ExtentsOk d.records) {start len : Nat}
    (h : NoSplit d start len) {r : BlkMapRecord} :
    r ∈ d.meeting start (satAdd64 start len) ↔ r ∈ d.active ∧ r.Overlaps start len := by
  rw [Disk.mem_meeting]
  refine and_congr_right fun hr => ?_
  obtain ⟨hmem, hact⟩ := Disk.mem_active.mp hr
  rw [meets_iff_overlaps hext hmem hact]
  constructor
  · intro hover
    rcases hover with hover | ⟨hzero, hsplit⟩
    · exact hover
    · rcases h with hpos | hno
      · omega
      · exact absurd hsplit (hno r hr)
  · exact fun hover => .inl hover

theorem NoSplit.count_eq {d : Disk} (hext : ExtentsOk d.records) {start len : Nat}
    (h : NoSplit d start len) {id : Nat} (hid : 0 < id) :
    (dedupRefs (d.meeting start (satAdd64 start len))).count id =
      (d.unmapRefs start len id).length := by
  have hmeeting : d.meeting start (satAdd64 start len) =
      d.active.filter fun r => decide (r.Overlaps start len) := by
    refine filter_congr fun r hr => ?_
    have hiff := h.mem_meeting hext (r := r)
    rw [Disk.mem_meeting] at hiff
    simpa [hr] using hiff
  unfold dedupRefs Disk.unmapRefs
  rw [hmeeting, count_eq_countP, countP_map, countP_filter, countP_filter, countP_eq_length_filter]
  grind

/-- **Unmapping is exact** unless the range is empty and starts inside of a record. -/
theorem unmap_exact_iff (hlaw : env.codecs.Lawful) (hreach : Reached env w) {start len : Nat}
    {report : UnmapReport} (hrun : runUnmap env start len w = (.ok report, w')) :
    UnmapExact env w w' start len ↔ NoSplit w.disk start len := by
  have h := (hreach.inv hlaw).ok
  have hext := h.disk.extents
  obtain ⟨hdone, htables, hserves⟩ := (runUnmap_spec h start len).of_ok hrun
  constructor
  · intro hexact
    by_contra hsplit
    unfold NoSplit at hsplit
    push Not at hsplit
    obtain ⟨hzero, r, hr, hstraddle⟩ := hsplit
    obtain rfl : len = 0 := by omega
    obtain ⟨hmem, hact⟩ := Disk.mem_active.mp hr
    -- the record is stale now, though the empty range overlaps nothing
    have hmeets := (meets_iff_overlaps hext hmem hact start 0).mpr (.inr ⟨rfl, hstraddle⟩)
    have hstale : r.toStale ∈ w'.disk.records :=
      (htables.records _).mpr (.inl ⟨r, Disk.mem_meeting.mpr ⟨hr, hmeets⟩, rfl⟩)
    rcases (hexact.records _).mp hstale with ⟨x, -, hover, -⟩ | ⟨hold, -⟩
    · obtain ⟨b, -, hb⟩ := hover
      omega
    · have heq : r.toStale = r := inj_on_of_nodup_map w.disk.records_nodup hold hmem rfl
      rw [← heq] at hact
      cases hact
  intro hno
  have hmeet := fun r => hno.mem_meeting hext (r := r)
  have hcount : ∀ x ∈ w.disk.entries,
      (dedupRefs (w.disk.meeting start (satAdd64 start len))).count x.entryId =
        (w.disk.unmapRefs start len x.entryId).length :=
    fun x hx => hno.count_eq hext (h.disk.store.entryPos x hx)
  refine ⟨fun x => ?_, ?_, ?_, fun e => ?_, ?_⟩
  · rw [htables.records]
    grind [Disk.mem_active]
  · intro r hr hover block hcov
    exact read_unmapped h hdone hserves ((hmeet r).mpr ⟨hr, hover⟩) hcov
  · grind [read_kept]
  · rw [htables.entries]
    refine exists_congr fun x => and_congr_right fun hx => ?_
    rw [hcount x hx]
  · intro x hx
    rw [← hcount x hx]
    exact htables.room x hx

/-- A layout with one block of three bytes. -/
def oneExtent : World :=
  (writeLogicalBlock .standard 0 [1, 2, 3] 0 ⟨false, .none, false, true⟩ none
    (World.fresh .standard)).2

theorem oneExtent_reached : Reached .standard oneExtent := by
  have hok : (writeLogicalBlock .standard 0 [1, 2, 3] 0 ⟨false, .none, false, true⟩ none
      (World.fresh .standard)).1.isOk = true := by decide +kernel
  obtain ⟨report, hrun⟩ := exists_run_of_isOk hok
  refine ⟨[], .single (.write ⟨⟨by simp, by decide⟩, .inl rfl, .of_verify rfl _ _ _⟩ hrun)⟩

theorem oneExtent_readable : oneExtent.disk.active.length = 1 ∧
    ∀ r ∈ oneExtent.disk.active, ∃ p, Readable .standard oneExtent.disk r p :=
  ⟨by decide +kernel, (reached_tables Codecs.stored_lawful oneExtent_reached).2.2.2⟩

theorem unmap_exact_two_bytes : UnmapExact .standard oneExtent
    (runUnmap .standard 1 2 oneExtent).2 1 2 := by
  have hok : (runUnmap .standard 1 2 oneExtent).1.isOk = true := by decide +kernel
  obtain ⟨report, hrun⟩ := exists_run_of_isOk hok
  exact (unmap_exact_iff Codecs.stored_lawful oneExtent_reached hrun).mpr (.inl (by decide))

/-- **Unmapping nothing inside of a block** makes the block stale: it was read before and cannot
be read after. -/
theorem empty_unmap_drops_block :
    Reached .standard oneExtent ∧ (runUnmap .standard 1 0 oneExtent).1.isOk = true ∧
      (∀ r ∈ oneExtent.disk.active, ¬ r.Overlaps 1 0) ∧
      ((readLogicalBlock .standard 0 oneExtent).1.toOption.map fun x => x.map (·.payload)) =
        some (some [1, 2, 3]) ∧
      ((readLogicalBlock .standard 0 (runUnmap .standard 1 0 oneExtent).2).1.toOption.map
        fun x => x.map (·.payload)) = some none := by
  refine ⟨oneExtent_reached, by decide +kernel, ?_, by decide +kernel, by decide +kernel⟩
  intro r _ hover
  obtain ⟨b, -, hb⟩ := hover
  omega

end Holo.Storage
