/-
Holo.Storage.FlushSpec — the checkpoint, syncing and flushing.

Main results:
* `markCheckpointDirty_spec`: how a write begins;
* `syncLayoutSegments_spec`: afterwards every file in use is synced and the index a write
  works with is on disk;
* `flushPendingWrites_spec`: a flush keeps the invariant and leaves a clean checkpoint.
-/
import Holo.Storage.Invariant

namespace Holo.Storage

open Lib Program List

variable {env : Env}

/-! ## §1. The checkpoint. -/

/-- The cached checkpoint is the one on disk. -/
def CheckpointOk (w : World) : Prop := ∀ c, w.mem.checkpoint = some c → c = w.disk.checkpoint

/-- The caches with this checkpoint. -/
def Caches.setCheckpoint (m : Caches) (c : MetadataCheckpoint) : Caches :=
  { m with checkpoint := some c }

/-- The world once its checkpoint was read. -/
abbrev World.withCheckpoint (w : World) : World :=
  { w with mem := w.mem.setCheckpoint w.disk.checkpoint }

variable {w : World}

theorem loadCheckpointCached_spec (h : CheckpointOk w) : wp (loadCheckpointCached env)
      (fun c w' => c = w.disk.checkpoint ∧
        w' = w.withCheckpoint)
      (fun _ _ => False) w := by
  unfold loadCheckpointCached
  simp only [wp_bind, wp_get]
  cases hc : w.mem.checkpoint with
  | none => exact ⟨rfl, rfl⟩
  | some c =>
    obtain rfl := h c hc
    have hmem : w.mem = w.mem.setCheckpoint w.disk.checkpoint := by
      unfold Caches.setCheckpoint
      rw [← hc]
    rw [wp_ite]
    refine ⟨fun _ => ⟨rfl, ?_⟩, fun _ => ⟨rfl, rfl⟩⟩
    rw [World.withCheckpoint, ← hmem]

section

variable (w w' : World) (c : MetadataCheckpoint)

/-- A checkpoint was written. -/
structure CheckpointPut : Prop where
  disk : w'.disk = w.disk.putCheckpoint c
  mem : w'.mem = w.mem.setCheckpoint c
  faults : w'.faults ⊆ w.faults

/-- Writing a checkpoint was interrupted. -/
def CheckpointCut : Prop :=
  w.faults ≠ [] ∧ (w'.disk = w.disk ∨ w'.disk = w.disk.putCheckpoint c)

end

theorem persistCheckpointCached_spec (c : MetadataCheckpoint) : wp (persistCheckpointCached env c)
      (fun _ w' => CheckpointPut w w' c) (fun _ w' => CheckpointCut w w' c) w := by
  unfold persistCheckpointCached
  simp only [wp_bind]
  refine wp_atomicStep ?_ (fun hne => ⟨hne, .inl rfl⟩) (fun hne => ⟨hne, .inr rfl⟩)
  exact ⟨rfl, rfl, tail_subset _⟩

/-- **The checkpoint is dirty** before anything else happens. -/
theorem markCheckpointDirty_spec (h : CheckpointOk w) : wp (markCheckpointDirty env)
      (fun c w' => CheckpointPut w w' c ∧ c.flags = .dirty)
      (fun _ w' => CheckpointCut w w' (w.disk.checkpoint.next .dirty)) w := by
  refine wp.bind (loadCheckpointCached_spec h) ?_ (fun _ _ hfalse => hfalse.elim)
  rintro c w1 ⟨rfl, rfl⟩
  rw [wp_ite]
  refine ⟨fun _ => ?_, fun hdirty => ?_⟩
  · refine wp.bind (persistCheckpointCached_spec _) ?_ (fun _ _ hcut => hcut)
    rintro _ w2 hput
    exact ⟨⟨hput.disk, by rw [hput.mem]; rfl, hput.faults⟩, rfl⟩
  · refine ⟨⟨rfl, rfl, Subset.refl _⟩, ?_⟩
    cases hflags : w.disk.checkpoint.flags with
    | clean => exact absurd hflags hdirty
    | dirty => rfl

/-! ## §2. Frames of the invariant. -/

/-- The caches of the logs and of the data segments are the same. -/
structure SameCaches (m m' : Caches) : Prop where
  blkMap : m'.blkMap = m.blkMap
  lookup : m'.lookup = m.lookup
  dedup : m'.dedup = m.dedup
  data : m'.data = m.data

variable {d d' : Disk} {w' : World}

variable {R : Type} {s : LogSlot R} {seq : Nat}

theorem Coherent.sameFile {m m' : Caches} (h : Coherent s d m)
    (hfile : s.file d' = s.file d ∨ s.file d' = (s.file d).sync) (hcache : s.cache m' = s.cache m) :
    Coherent s d' m' := by
  intro c hc
  rw [hcache] at hc
  have hok := h c hc
  rcases hfile with he | he
  · rw [he]
    exact hok
  · rw [he]
    exact ⟨hok.perm, hok.sorted, hok.untagged⟩

theorem DataCoherent.sameFiles {m m' : Caches} (h : DataCoherent d m) (hsame : SameFiles d d')
    (hdata : m'.data = m.data) : DataCoherent d' m' := by
  intro seq c hc
  rw [hdata] at hc
  obtain ⟨f, hf, hblobs⟩ := h seq c hc
  rcases hsame.segs seq with he | ⟨g, hg, hg'⟩
  · exact ⟨f, he ▸ hf, hblobs⟩
  · rw [hf] at hg
    cases hg
    exact ⟨_, hg', hblobs⟩

theorem NextAbove.sameFiles (h : NextAbove d) (hsame : SameFiles d d')
    (hnext : d'.segIndex.index.nextSegmentSeq = d.segIndex.index.nextSegmentSeq) :
    NextAbove d' := by
  intro s f hf
  obtain ⟨g, hg, -⟩ := hsame.of_lookup hf
  rw [hnext]
  exact h s g hg

/-- The index that is written is the old one or the one in force, which has its shape. -/
theorem StoreWarm.of_index (h : StoreWarm w) {i : SegmentIndex}
    (hidx : i = w.disk.segIndex.index ∨ i = effIndex w.disk w.mem) :
    SameShape i w.disk.segIndex.index ∧ IndexOk w.disk i := by
  rcases hidx with rfl | rfl
  · exact ⟨.refl _, h.inv.index⟩
  · exact ⟨h.shape, h.indexOk⟩

/-- **The invariant of a running process does not see syncs, nor the index reaching the
disk.** -/
theorem LayoutOk.sameFiles (h : LayoutOk env w) (hsame : SameFiles w.disk w'.disk)
    (hmem : SameCaches w.mem w'.mem) (heff : effIndex w'.disk w'.mem = effIndex w.disk w.mem)
    (hidx : w'.disk.segIndex.index = w.disk.segIndex.index ∨
      w'.disk.segIndex.index = effIndex w.disk w.mem) (hcoh : IndexCoherent w'.disk w'.mem)
    (hck : CheckpointOk w') : LayoutOk env w' := by
  have hwarm := h.warm
  obtain ⟨hshape, hindex⟩ := hwarm.of_index hidx
  have hdisk : DiskInv env w'.disk := h.disk.sameFiles hsame hshape hindex
  refine ⟨hdisk, ⟨hdisk.store, ?_, ?_, hwarm.next.sameFiles hsame hshape.next, ?_, hcoh,
    hwarm.data.sameFiles hsame hmem.data, hwarm.dedup.sameFile hsame.dedup hmem.dedup⟩,
    h.blkMap.sameFile hsame.blkMap hmem.blkMap, h.lookup.sameFile hsame.lookup hmem.lookup, hck,
    ?_, h.counts.frame hsame⟩
  · rw [heff]
    exact hwarm.indexOk.congr (fun s _ b hb => (hsame.hasBlob s b).mp hb)
  · rw [heff]
    exact hwarm.shape.trans hshape.symm
  · rw [heff]
    rcases hidx with he | he
    · rw [he]
      exact hwarm.below
    · rw [he]
  · rw [hsame.records, hsame.lookups]
    exact h.described

theorem Covered.sameFiles (h : Covered w) (hsame : SameFiles w.disk w'.disk)
    (hidx : w'.disk.indexed = w.disk.indexed)
    (heff : effIndex w'.disk w'.mem = effIndex w.disk w.mem) : Covered w' := by
  unfold Covered
  rw [heff]
  exact Covers.frame h hsame hidx

/-! ## §3. Syncing. -/

/-- The segment's file, if there is one, is synced. -/
def SegSynced (d : Disk) (seq : Nat) : Prop := ∀ f, d.segs.lookup seq = some f → f.synced = true

/-- What a flush makes of the disk on its way: files are synced, the index gets there. -/
structure Flushing (d : Disk) (i : SegmentIndex) (d' : Disk) : Prop where
  same : SameFiles d d'
  index : d'.segIndex = d.segIndex ∨ d'.segIndex.index = i
  checkpoint : d'.checkpoint = d.checkpoint
  reclaim : d'.reclaim = d.reclaim
  runtime : d'.runtime = d.runtime

theorem Flushing.refl (d : Disk) (i : SegmentIndex) : Flushing d i d :=
  ⟨.refl d, .inl rfl, rfl, rfl, rfl⟩

theorem Flushing.trans {d1 d2 d3 : Disk} {i : SegmentIndex} (h : Flushing d1 i d2)
    (h' : Flushing d2 i d3) : Flushing d1 i d3 := by
  refine ⟨h.same.trans h'.same, ?_, h'.checkpoint.trans h.checkpoint, h'.reclaim.trans h.reclaim,
    h'.runtime.trans h.runtime⟩
  rcases h'.index with he | he
  · rw [he]
    exact h.index
  · exact .inr he

theorem SegSynced.mono (h : SameFiles d d') (hs : SegSynced d seq) : SegSynced d' seq := by
  intro f' hf'
  obtain ⟨f, hf, rfl | rfl⟩ := h.of_lookup hf'
  · exact hs _ hf
  · rfl

theorem Flushing.putSync (d : Disk) (i : SegmentIndex) {f : LogFile DataBlob}
    (hf : d.segs.lookup seq = some f) : Flushing d i (d.putSeg seq f.sync) := by
  refine ⟨⟨fun s => ?_, .inl rfl, .inl rfl, .inl rfl⟩, .inl rfl, rfl, rfl, rfl⟩
  grind [Disk.lookup_putSeg, Disk.lookup_putSeg_ne]

/-- **The loop of `sync_indexed_segments`.** -/
theorem syncSegments_spec (i : SegmentIndex) : ∀ (seqs : List Nat) {w : World}, TailsOk w.disk →
    wp (syncSegments env seqs)
      (fun _ w' => Flushing w.disk i w'.disk ∧ w'.disk.segIndex = w.disk.segIndex ∧
        w'.mem = w.mem ∧ w'.faults ⊆ w.faults ∧ ∀ s ∈ seqs, SegSynced w'.disk s)
      (fun _ w' => w.faults ≠ [] ∧ Flushing w.disk i w'.disk) w
  | [], w, _ => ⟨.refl _ _, rfl, rfl, Subset.refl _, by simp⟩
  | seq :: seqs, w, htails => by
    unfold syncSegments
    rw [forEach]
    simp only [wp_bind, wp_get]
    cases hf : w.disk.segs.lookup seq with
    | none =>
      -- no file of this number, and none comes up in the rest of the loop
      rw [wp_pure]
      refine wp_mono (syncSegments_spec i seqs htails) ?_ (fun _ _ h => h)
      rintro _ w' ⟨hflush, hindex, hmem, hfaults, hsync⟩
      refine ⟨hflush, hindex, hmem, hfaults, fun s hs => ?_⟩
      rcases mem_cons.mp hs with rfl | hs
      · intro f' hf'
        obtain ⟨g, hg, -⟩ := hflush.same.of_lookup hf'
        rw [hf] at hg
        cases hg
      · exact hsync s hs
    | some f =>
      simp only [wp_bind, wp_check]
      refine ⟨fun hbad => absurd (htails seq f hf) hbad, fun _ => ?_⟩
      have hput := Flushing.putSync w.disk i hf
      refine wp_atomicStep ?_ (fun hne => ⟨hne, .refl _ _⟩) (fun hne => ⟨hne, hput⟩)
      have htails' : TailsOk (w.stepped (w.disk.putSeg seq f.sync)).disk := by
        intro s g hg
        obtain ⟨g', hg', rfl | rfl⟩ := hput.same.of_lookup hg
        · exact htails s _ hg'
        · exact htails s g' hg'
      refine wp_then (syncSegments_spec i seqs htails') ?_ ?_
      · rintro _ w' ⟨hne, hflush⟩
        refine ⟨fun hnil => hne ?_, hput.trans hflush⟩
        rw [World.faults_stepped, hnil]
        rfl
      rintro _ w' ⟨hflush, hindex, hmem, hfaults, hsync⟩
      refine ⟨hput.trans hflush, hindex, hmem,
        Subset.trans hfaults (tail_subset _), fun s hs => ?_⟩
      rcases mem_cons.mp hs with rfl | hs
      · refine SegSynced.mono hflush.same ?_
        intro g hg
        rw [World.disk_stepped, Disk.lookup_putSeg] at hg
        rw [← Option.some.inj hg]
        rfl
      · exact hsync s hs

/-- Only the cached index changed, not what a write works with. -/
structure IndexKept (w w' : World) : Prop where
  mem : ∃ c, w'.mem = { w.mem with segIndex := c }
  coherent : IndexCoherent w'.disk w'.mem
  eff : effIndex w'.disk w'.mem = effIndex w.disk w.mem
  faults : w'.faults ⊆ w.faults

theorem IndexKept.trans {w1 w2 w3 : World} (h : IndexKept w1 w2) (h' : IndexKept w2 w3) :
    IndexKept w1 w3 := by
  obtain ⟨c, hc⟩ := h.mem
  obtain ⟨c', hc'⟩ := h'.mem
  exact ⟨⟨c', by rw [hc', hc]⟩, h'.coherent, h'.eff.trans h.eff, Subset.trans h'.faults h.faults⟩

theorem IndexRead.kept (h : IndexRead w w') : IndexKept w w' :=
  ⟨h.mem, h.coherent, h.eff, by rw [h.faults]; exact Subset.refl _⟩

theorem IndexKept.stepped (h : IndexCoherent w.disk w.mem) (hidx : d.segIndex = w.disk.segIndex) :
    IndexKept w (w.stepped d) := by
  refine ⟨⟨w.mem.segIndex, rfl⟩, fun c hc hclean => ?_, ?_, tail_subset _⟩
  · rw [World.disk_stepped, hidx]
    exact h c hc hclean
  · unfold effIndex
    rw [World.disk_stepped, World.mem_stepped, hidx]

/-- **The index a write works with reaches the disk.** -/
theorem flushSegmentIndexForAppend_spec (h : IndexCoherent w.disk w.mem) :
    wp (flushSegmentIndexForAppend env)
      (fun _ w' => IndexKept w w' ∧ Flushing w.disk (effIndex w.disk w.mem) w'.disk ∧
        w'.disk.segIndex.index = effIndex w.disk w.mem)
      (fun _ w' => w.faults ≠ [] ∧ Flushing w.disk (effIndex w.disk w.mem) w'.disk) w := by
  unfold flushSegmentIndexForAppend
  simp only [wp_bind, wp_get]
  have hrefl : IndexKept w w := ⟨⟨w.mem.segIndex, rfl⟩, h, rfl, Subset.refl _⟩
  -- only a dirty index is written; otherwise disk and memory agree already
  cases hc : w.mem.segIndex with
  | none =>
    have heff : effIndex w.disk w.mem = w.disk.segIndex.index := by
      unfold effIndex
      rw [hc]
    exact ⟨hrefl, .refl _ _, heff.symm⟩
  | some c =>
    have heff : effIndex w.disk w.mem = c.index := by
      unfold effIndex
      rw [hc]
    rw [wp_ite]
    refine ⟨fun _ => ?_, fun hclean => ?_⟩
    swap
    · have hidx := h c hc (by simpa using hclean)
      exact ⟨hrefl, .refl _ _, by rw [heff, hidx]⟩
    unfold persistSegmentIndex
    simp only [wp_bind]
    have hput : ∀ now, Flushing w.disk (effIndex w.disk w.mem)
        (w.disk.putIndex ⟨c.index, now⟩) := fun now =>
      ⟨.of_eq rfl rfl rfl rfl, .inr heff.symm, rfl, rfl, rfl⟩
    refine wp_atomicStep ?_ (fun hne => ⟨hne, .refl _ _⟩) (fun hne => ⟨hne, hput _⟩)
    refine ⟨⟨⟨_, rfl⟩, ?_, ?_, tail_subset _⟩, hput _, heff.symm⟩
    · rintro c' hc' -
      rw [← Option.some.inj hc']
      rfl
    · rw [heff]
      rfl

/-- Everything in use is synced, and the index is on disk. -/
structure Flushed (w w' : World) : Prop where
  kept : IndexKept w w'
  flushing : Flushing w.disk (effIndex w.disk w.mem) w'.disk
  index : w'.disk.segIndex.index = effIndex w.disk w.mem
  blkMap : w'.disk.blkMap.synced = true
  lookup : w'.disk.lookup.synced = true
  dedup : w'.disk.dedup.synced = true
  segs : ∀ s ∈ (effIndex w.disk w.mem).segments, SegSynced w'.disk s

/-- A flush did not get through. -/
def FlushFailed (w w' : World) : Prop :=
  Flushing w.disk (effIndex w.disk w.mem) w'.disk ∧
    (w.faults = [] → ¬ w.disk.segIndex.index.Loadable)

theorem flushing_of_files (i : SegmentIndex) (h : SameFiles d d')
    (hrest : d'.segIndex = d.segIndex ∧ d'.checkpoint = d.checkpoint ∧ d'.reclaim = d.reclaim ∧
      d'.runtime = d.runtime) : Flushing d i d' :=
  ⟨h, .inl hrest.1, hrest.2.1, hrest.2.2.1, hrest.2.2.2⟩

theorem Flushing.syncBlkMap (d : Disk) (i : SegmentIndex) :
    Flushing d i (blkMapSlot.setFile d (blkMapSlot.file d).sync) :=
  flushing_of_files i ⟨fun _ => .inl rfl, .inr rfl, .inl rfl, .inl rfl⟩ ⟨rfl, rfl, rfl, rfl⟩

theorem Flushing.syncLookup (d : Disk) (i : SegmentIndex) :
    Flushing d i (lookupSlot.setFile d (lookupSlot.file d).sync) :=
  flushing_of_files i ⟨fun _ => .inl rfl, .inl rfl, .inr rfl, .inl rfl⟩ ⟨rfl, rfl, rfl, rfl⟩

theorem Flushing.syncDedup (d : Disk) (i : SegmentIndex) :
    Flushing d i (dedupSlot.setFile d (dedupSlot.file d).sync) :=
  flushing_of_files i ⟨fun _ => .inl rfl, .inl rfl, .inl rfl, .inr rfl⟩ ⟨rfl, rfl, rfl, rfl⟩

/-- The three logs are synced one after the other. -/
theorem syncLogs_spec (i : SegmentIndex) (h : IndexCoherent w.disk w.mem) : wp (do
        syncLog env blkMapSlot
        syncLog env lookupSlot
        syncLog env dedupSlot)
      (fun _ w' => IndexKept w w' ∧ Flushing w.disk i w'.disk ∧
        w'.disk.segIndex = w.disk.segIndex ∧ w'.disk.segs = w.disk.segs ∧
        w'.disk.blkMap.synced = true ∧ w'.disk.lookup.synced = true ∧
        w'.disk.dedup.synced = true)
      (fun _ w' => w.faults ≠ [] ∧ Flushing w.disk i w'.disk) w := by
  -- a fault that is left was there at the start
  have hne : ∀ {l : List Fault}, l.tail ≠ [] → l ≠ [] := by
    intro l ht hnil
    exact ht (by rw [hnil]; rfl)
  have h1 := Flushing.syncBlkMap w.disk i
  refine wp.bind syncLog_spec ?_ ?_
  swap
  · rintro _ w1 ⟨hf, rfl | rfl⟩
    · exact ⟨hf, .refl _ _⟩
    · exact ⟨hf, h1⟩
  rintro _ w1 rfl
  have h2 := h1.trans (Flushing.syncLookup _ i)
  refine wp.bind syncLog_spec ?_ ?_
  swap
  · rintro _ w2 ⟨hf, rfl | rfl⟩
    · exact ⟨hne hf, h1⟩
    · exact ⟨hne hf, h2⟩
  rintro _ w2 rfl
  have h3 := h2.trans (Flushing.syncDedup _ i)
  refine wp_mono syncLog_spec ?_ ?_
  · rintro _ w3 rfl
    refine ⟨⟨⟨w.mem.segIndex, rfl⟩, h, rfl, ?_⟩, h3, rfl, rfl, rfl, rfl, rfl⟩
    exact Subset.trans (tail_subset _) (Subset.trans (tail_subset _) (tail_subset _))
  · rintro _ w3 ⟨hf, rfl | rfl⟩
    · exact ⟨hne (hne hf), h2⟩
    · exact ⟨hne (hne hf), h3⟩

/-- **`sync_layout_segments`.** -/
theorem syncLayoutSegments_spec (h : StoreWarm w) :
    wp (syncLayoutSegments env) (fun _ w' => Flushed w w') (fun _ w' => FlushFailed w w') w := by
  unfold syncLayoutSegments syncIndexedSegments
  -- a failure after the index was read is a fault
  have hfault : ∀ {w1 w' : World}, w1.faults ⊆ w.faults → w1.faults ≠ [] →
      Flushing w.disk (effIndex w.disk w.mem) w'.disk → FlushFailed w w' := by
    intro w1 w' hsub hne hflush
    exact ⟨hflush, fun hnil => absurd hnil (ne_nil_of_subset hsub hne)⟩
  simp only [wp_bind]
  refine wp_then (loadSegmentIndexForAppend_spec h.index) ?_ ?_
  · rintro _ w1 ⟨rfl, hbad⟩
    exact ⟨.refl _ _, fun _ => not_loadable_of_not_usable hbad⟩
  rintro i w1 ⟨rfl, hread, -⟩
  have hkept1 := hread.kept
  have htails : TailsOk w1.disk := by
    rw [hread.disk]
    exact h.inv.tails
  refine wp_then (syncSegments_spec (effIndex w.disk w.mem) _ htails) ?_ ?_
  · rintro _ w2 ⟨hne, hflush2⟩
    rw [hread.disk] at hflush2
    exact hfault hkept1.faults hne hflush2
  rintro _ w2 ⟨hflush2, hidx2, hmem2, hfaults2, hsegs2⟩
  have hcoh2 : IndexCoherent w2.disk w2.mem := by
    intro c hc hclean
    rw [hidx2]
    rw [hmem2] at hc
    exact hread.coherent c hc hclean
  have heff2 : effIndex w2.disk w2.mem = effIndex w.disk w.mem := by
    rw [← hread.eff]
    unfold effIndex
    rw [hmem2, hidx2]
  have hkept2 : IndexKept w w2 := by
    obtain ⟨c, hc⟩ := hread.mem
    exact ⟨⟨c, by rw [hmem2, hc]⟩, hcoh2, heff2, Subset.trans hfaults2 hkept1.faults⟩
  rw [hread.disk] at hflush2
  refine wp_then (flushSegmentIndexForAppend_spec hcoh2) ?_ ?_
  · rintro _ w3 ⟨hne, hflush3⟩
    rw [heff2] at hflush3
    exact hfault hkept2.faults hne (hflush2.trans hflush3)
  rintro _ w3 ⟨hkept3, hflush3, hidx3⟩
  rw [heff2] at hflush3 hidx3
  have hkept := hkept2.trans hkept3
  have hflush := hflush2.trans hflush3
  refine wp_atomicStep ?_ (fun hne => hfault hkept.faults hne hflush)
    (fun hne => hfault hkept.faults hne hflush)
  have hstep := IndexKept.stepped (d := w3.disk) hkept3.coherent rfl
  suffices hlogs : wp (do
      syncLog env blkMapSlot
      syncLog env lookupSlot
      syncLog env dedupSlot) (fun _ w' => Flushed w w') (fun _ w' => FlushFailed w w')
      (w3.stepped w3.disk) by simpa only [wp_bind] using hlogs
  refine wp_mono (syncLogs_spec (effIndex w.disk w.mem) hstep.coherent) ?_ ?_
  · rintro _ w4 ⟨hkept4, hflush4, hidx4, hsegs4, hb, hl, hd⟩
    refine ⟨hkept.trans (hstep.trans hkept4), hflush.trans hflush4, ?_, hb, hl, hd, ?_⟩
    · rw [hidx4]
      exact hidx3
    · intro s hs
      exact ((hsegs2 s hs).mono hflush3.same).mono hflush4.same
  · rintro _ w4 ⟨hne, hflush4⟩
    refine hfault (Subset.trans (tail_subset _) hkept.faults) hne (hflush.trans hflush4)

/-! ## §4. Flushing. -/

/-- Every file in use is synced. -/
structure AllSynced (d : Disk) : Prop where
  blkMap : d.blkMap.synced = true
  lookup : d.lookup.synced = true
  dedup : d.dedup.synced = true
  segs : ∀ s ∈ d.indexed, SegSynced d s

section

variable (w w' : World) (c : MetadataCheckpoint)

/-- What a flush that got through leaves: the old contents, synced, under the checkpoint `c`. -/
structure FlushDone : Prop where
  flushing : ∃ d₁, Flushing w.disk (effIndex w.disk w.mem) d₁ ∧ w'.disk = d₁.putCheckpoint c
  index : w'.disk.segIndex.index = effIndex w.disk w.mem
  synced : AllSynced w'.disk
  mem : ∃ ci, w'.mem = { w.mem with segIndex := ci, checkpoint := some c, pending := 0 }
  eff : effIndex w'.disk w'.mem = effIndex w.disk w.mem
  coherent : IndexCoherent w'.disk w'.mem
  faults : w'.faults ⊆ w.faults

/-- What a flush that did not get through leaves. -/
structure FlushCut : Prop where
  disk : ∃ d₁, Flushing w.disk (effIndex w.disk w.mem) d₁ ∧ (w'.disk = d₁ ∨
    (w'.disk = d₁.putCheckpoint c ∧ d₁.segIndex.index = effIndex w.disk w.mem))
  reason : w.faults = [] → ¬ w.disk.segIndex.index.Loadable

end

theorem syncAndCheckpoint_spec (h : StoreWarm w) (c : MetadataCheckpoint) : wp (do
        syncLayoutSegments env
        persistCheckpointCached env c
        setPending 0)
      (fun _ w' => FlushDone w w' c) (fun _ w' => FlushCut w w' c) w := by
  refine wp.bind (syncLayoutSegments_spec h) ?_
    (fun _ w' hfail => ⟨⟨_, hfail.1, .inl rfl⟩, hfail.2⟩)
  rintro _ w1 hflushed
  have hkept := hflushed.kept
  -- old or new, the checkpoint on disk covers only what is synced
  refine wp.bind (persistCheckpointCached_spec c) ?_ ?_
  swap
  · rintro _ w2 ⟨hne, hcut⟩
    refine ⟨⟨w1.disk, hflushed.flushing, ?_⟩,
      fun hnil => absurd hnil (ne_nil_of_subset hkept.faults hne)⟩
    exact hcut.imp_right (fun he => ⟨he, hflushed.index⟩)
  rintro _ w' hput
  obtain ⟨ci, hci⟩ := hkept.mem
  have hfaults := Subset.trans hput.faults hkept.faults
  obtain ⟨ticks, faults, rfl⟩ := w'.parts hput.disk hput.mem
  refine ⟨⟨w1.disk, hflushed.flushing, rfl⟩, hflushed.index,
    ⟨hflushed.blkMap, hflushed.lookup, hflushed.dedup, ?_⟩, ⟨ci, ?_⟩, hkept.eff, hkept.coherent,
    hfaults⟩
  · intro s hs
    have hs : s ∈ w1.disk.indexed := hs
    unfold Disk.indexed at hs
    rw [hflushed.index] at hs
    exact hflushed.segs s hs
  · show { w1.mem with checkpoint := some c, pending := 0 } = _
    rw [hci]

theorem SameFiles.putCheckpoint (h : SameFiles d d') (c : MetadataCheckpoint) :
    SameFiles d (d'.putCheckpoint c) := ⟨h.segs, h.blkMap, h.lookup, h.dedup⟩

variable {c : MetadataCheckpoint}

theorem FlushDone.same (h : FlushDone w w' c) : SameFiles w.disk w'.disk := by
  obtain ⟨d1, hflush, hd⟩ := h.flushing
  rw [hd]
  exact hflush.same.putCheckpoint c

theorem FlushDone.checkpoint (h : FlushDone w w' c) : w'.disk.checkpoint = c := by
  obtain ⟨d1, -, hd⟩ := h.flushing
  rw [hd]
  rfl

theorem FlushDone.runtime (h : FlushDone w w' c) : w'.disk.runtime = w.disk.runtime := by
  obtain ⟨d1, hflush, hd⟩ := h.flushing
  rw [hd]
  exact hflush.runtime

/-- **A flush keeps the invariant of a running process.** -/
theorem LayoutOk.flushDone (h : LayoutOk env w) (hdone : FlushDone w w' c) : LayoutOk env w' := by
  obtain ⟨ci, hmem⟩ := hdone.mem
  refine h.sameFiles hdone.same (by rw [hmem]; exact ⟨rfl, rfl, rfl, rfl⟩) hdone.eff
    (.inr hdone.index) hdone.coherent ?_
  intro c' hc'
  rw [hmem] at hc'
  rw [hdone.checkpoint]
  exact (Option.some.inj hc').symm

theorem LayoutInv.flushDone (h : LayoutInv env w) (hdone : FlushDone w w' c) :
    LayoutInv env w' := by
  have hidx : w'.disk.indexed = w.disk.indexed := by
    unfold Disk.indexed
    rw [hdone.index]
    exact h.ok.warm.shape.segments
  have hcov : Covered w' := h.covered.sameFiles hdone.same hidx hdone.eff
  refine ⟨h.ok.flushDone hdone, hcov, fun _ => ?_⟩
  rw [hdone.index, ← hdone.eff]
  exact hcov

/-- **Every cut of a flush leaves a disk that recovery can start from.** -/
theorem LayoutInv.flushCut (h : LayoutInv env w) (hcut : FlushCut w w' c) :
    CrashInv env w'.disk := by
  obtain ⟨d1, hflush, hd⟩ := hcut.disk
  have hwarm := h.ok.warm
  obtain ⟨hshape, hindex⟩ := hwarm.of_index (hflush.index.imp_left (congrArg IndexFile.index))
  have hdisk : DiskInv env d1 := h.ok.disk.sameFiles hflush.same hshape hindex
  have hnext : NextAbove d1 := hwarm.next.sameFiles hflush.same hshape.next
  have hdesc : LookupOk d1.records d1.lookups := by
    rw [hflush.same.records, hflush.same.lookups]
    exact h.ok.described
  have hcov : d1.segIndex.index = effIndex w.disk w.mem →
      Covers d1 d1.segIndex.index.blobHighWater := by
    intro he
    rw [he]
    exact Covers.frame h.covered hflush.same hshape.segments
  -- the checkpoint is written only behind the index in force
  rcases hd with hd | ⟨hd, he⟩
  · rw [hd]
    refine ⟨hdisk, fun hclean => ⟨hdesc, h.ok.counts.frame hflush.same, ?_, hnext⟩⟩
    rcases hflush.index with he | he
    · rw [he]
      refine (h.clean ?_).frame hflush.same hshape.segments
      rw [← hflush.checkpoint]
      exact hclean
    · exact hcov he
  · rw [hd]
    have hsame : SameFiles d1 (d1.putCheckpoint c) := (SameFiles.refl d1).putCheckpoint c
    refine ⟨hdisk.frame hsame rfl, fun _ => ⟨hdesc, ?_, ?_, ?_⟩⟩
    · exact (h.ok.counts.frame hflush.same).frame hsame
    · exact (hcov he).frame hsame rfl
    · exact hnext.sameFiles hsame rfl

theorem LayoutOk.setCheckpointCache (h : LayoutOk env w) :
    LayoutOk env w.withCheckpoint := by
  refine h.sameFiles (.refl _) ⟨rfl, rfl, rfl, rfl⟩ rfl (.inl rfl) h.warm.index ?_
  intro c hc
  exact (Option.some.inj hc).symm

/-- **Flushing**: everything is synced and the checkpoint is clean, or there was nothing to
flush. -/
theorem flushPendingWrites_spec (h : LayoutOk env w) : wp (flushPendingWrites env) (fun b w' =>
        (b = true ∧ FlushDone w w' (w.disk.checkpoint.next .clean)) ∨
        (b = false ∧ w' = w.withCheckpoint ∧
          w.mem.pending = 0 ∧ w.disk.checkpoint.flags = .clean))
      (fun _ w' => FlushCut w w' (w.disk.checkpoint.next .clean)) w := by
  refine wp.bind (loadCheckpointCached_spec h.checkpoint) ?_ (fun _ _ hfalse => hfalse.elim)
  rintro c w1 ⟨rfl, rfl⟩
  simp only [wp_bind, wp_get]
  rw [wp_ite]
  refine ⟨fun hnothing => .inr ⟨rfl, rfl, hnothing⟩, fun _ => ?_⟩
  have hok := h.setCheckpointCache
  suffices hs : wp (do
      (do
        syncLayoutSegments env
        persistCheckpointCached env (w.disk.checkpoint.next .clean)
        setPending 0)
      pure true) _ _ _ by simpa only [wp_bind] using hs
  refine wp.bind (syncAndCheckpoint_spec hok.warm _) ?_ (fun _ _ hcut => ⟨hcut.disk, hcut.reason⟩)
  rintro _ w' hdone
  obtain ⟨ci, hmem⟩ := hdone.mem
  exact .inl ⟨rfl, hdone.flushing, hdone.index, hdone.synced, ⟨ci, hmem⟩, hdone.eff,
    hdone.coherent, hdone.faults⟩

/-- Nothing differs that a loader looks at: the same files, synced or not, under an index of the
same shape. -/
structure SameForLoaders (d d' : Disk) : Prop where
  files : SameFiles d d'
  shape : SameShape d'.segIndex.index d.segIndex.index
  reclaim : d'.reclaim = d.reclaim

/-- **A flush changes nothing that a loader looks at.** -/
theorem flushPendingWrites_sameForLoaders (h : LayoutOk env w) {b : Bool}
    (hrun : flushPendingWrites env w = (.ok b, w')) : SameForLoaders w.disk w'.disk := by
  rcases (flushPendingWrites_spec h).of_ok hrun with ⟨-, hdone⟩ | ⟨-, rfl, -⟩
  · obtain ⟨d1, hflush, hd⟩ := hdone.flushing
    refine ⟨hdone.same, ?_, ?_⟩
    · rw [hdone.index]
      exact h.warm.shape
    · rw [hd]
      exact hflush.reclaim
  · exact ⟨.refl _, .refl _, rfl⟩

theorem flushPendingWrites_idle (h : CheckpointOk w) (hpending : w.mem.pending = 0)
    (hclean : w.disk.checkpoint.flags = .clean) :
    wp (flushPendingWrites env)
      (fun _ w' => w' = w.withCheckpoint)
      (fun _ _ => False) w := by
  refine wp.bind (loadCheckpointCached_spec h) ?_ (fun _ _ hfalse => hfalse.elim)
  intro c w1 hout
  obtain ⟨hc, hw1⟩ := hout
  subst hc hw1
  simp only [wp_bind, wp_get]
  rw [wp_ite]
  exact ⟨fun _ => rfl, fun hno => absurd ⟨hpending, hclean⟩ hno⟩

end Holo.Storage
