/-
Holo.Storage.ResetSpec — emptying a layout.

A reset empties the logs one after the other, removes the data segments, and starts again
with one empty segment.

Main results:
* `BlankDisk.crashInv`: a layout without blocks keeps the invariants;
* `World.fresh_layoutInv`: so does a layout that was just made;
* `resetLayoutForOverwrite_spec`: a reset leaves a blank layout; cut short, it leaves one
  whose index may name segments that are gone.
-/
import Holo.Storage.RecoverySpec

namespace Holo.Storage

open Lib Program List

variable {env : Env}
variable {w2 : World}

/-! ## §1. Layouts without blocks. -/

/-- Empty logs and one empty segment. -/
structure BlankDisk (d : Disk) : Prop where
  blkMap : d.blkMap.Sound blkMapLog
  lookup : d.lookup.Sound lookupLog
  dedup : d.dedup.Sound dedupLog
  records : d.records = []
  lookups : d.lookups = []
  entries : d.entries = []
  index : ∃ size, d.segIndex.index = .new size
  zero : ∃ f, d.segs.lookup 0 = some f
  segs : ∀ s f, d.segs.lookup s = some f → s = 0 ∧ f.log = [] ∧ f.tail = 0

variable {d : Disk}

variable {s : Nat} {w w1 : World} {rest : List Nat}

section

variable (h : BlankDisk d)
include h

theorem BlankDisk.active : d.active = [] := by
  unfold Disk.active
  rw [h.records]
  rfl

theorem BlankDisk.not_hasBlob (s : Nat) (b : DataBlob) : ¬ d.HasBlob s b := by
  intro hb
  obtain ⟨f, hf, hmem⟩ := hb
  rw [(h.segs s f hf).2.1] at hmem
  cases hmem

theorem BlankDisk.mem_indexed (hs : s ∈ d.indexed) : s = 0 := by
  obtain ⟨size, hidx⟩ := h.index
  unfold Disk.indexed at hs
  rw [hidx] at hs
  simpa [SegmentIndex.new, SegmentIndex.segments, SegmentDescriptor.fresh] using hs

omit h in
/-- The index of a new layout, over segments without blobs. -/
theorem IndexOk.of_new (hno : ∀ s b, ¬ d.HasBlob s b) (size : Nat) : IndexOk d (.new size) := by
  refine ⟨by simp [SegmentIndex.new, SegmentIndex.segments], ⟨SegmentDescriptor.fresh 0, rfl⟩, ?_,
    fun _ _ s _ _ b hb => absurd hb (hno s b), fun _ _ s _ _ b hb => absurd hb (hno s b)⟩
  intro x hx _ s hs
  have hs0 : s = 0 := by
    simpa [SegmentIndex.new, SegmentIndex.segments, SegmentDescriptor.fresh] using hs
  rw [hs0]
  exact Nat.zero_le _

theorem BlankDisk.diskInv : DiskInv env d := by
  have hno := h.not_hasBlob
  have hindex : IndexOk d d.segIndex.index := by
    obtain ⟨size, hidx⟩ := h.index
    rw [hidx]
    exact .of_new hno size
  have hactive := h.active
  refine ⟨⟨?_, ?_, fun s b hb => absurd hb (hno s b), ?_, ?_,
    fun s _ s' _ _ b b' hb => absurd hb (hno s b), hindex, ?_, ?_, h.dedup⟩, h.blkMap, h.lookup, ?_,
    ?_, ?_, ?_⟩
  · -- every segment is empty
    intro s f hf
    have hlog := (h.segs s f hf).2.1
    exact ⟨by rw [hlog]; exact Pairwise.nil, by rw [hlog]; simp⟩
  · intro s f hf
    exact (h.segs s f hf).2.2
  · intro s hs
    rw [h.mem_indexed hs]
    exact h.zero
  · intro s hs
    rw [h.mem_indexed hs]
    exact Nat.zero_le _
  · rw [h.entries]
    simp
  · rw [h.entries]
    simp
  · rw [h.records]
    exact ⟨by simp, by simp, by simp⟩
  · rw [hactive]
    simp
  · rw [hactive]
    simp
  · rw [hactive]
    simp

theorem BlankDisk.consistent : Consistent d := by
  refine ⟨?_, ?_, ⟨fun s _ b hb => absurd hb (h.not_hasBlob s b), ?_, ?_⟩, ?_⟩
  · rw [h.records, h.lookups]
    exact ⟨by simp, by simp⟩
  · intro e he
    rw [h.entries] at he
    cases he
  · rw [h.entries]
    simp
  · rw [h.records]
    simp
  · intro s f hf
    obtain ⟨size, hidx⟩ := h.index
    rw [hidx, (h.segs s f hf).1]
    exact Nat.zero_lt_one

/-- **A layout without blocks** is one recovery can start from. -/
theorem BlankDisk.crashInv : CrashInv env d :=
  ⟨h.diskInv, fun _ => h.consistent⟩

theorem BlankDisk.smallSegs : SmallSegs d := by
  intro s f hf
  rw [(h.segs s f hf).1]
  decide

end

/-- The layout `initialize_layout` makes. -/
theorem Disk.fresh_blank (env : Env) (now : Nat) : BlankDisk (Disk.fresh env now) := by
  refine ⟨.written _ _, .written _ _, .written _ _, rfl, rfl, rfl, ⟨_, rfl⟩, ?_, ?_⟩
  · exact ⟨.written dataLog 0 none now, AList.lookup_insert _⟩
  intro s f hf
  simp only [Disk.fresh] at hf
  by_cases hs : s = 0
  · subst hs
    injection hf with hf
    subst hf
    exact ⟨rfl, rfl, rfl⟩
  · rw [AList.lookup_insert_ne hs, AList.lookup_empty] at hf
    cases hf

/-- **A layout that was just made** can be worked with. -/
theorem World.fresh_layoutInv (env : Env) : LayoutInv env (World.fresh env) :=
  CrashInv.restarted (Disk.fresh_blank env _).crashInv rfl rfl

/-! ## §2. Removing the data segments. -/

/-- The disk with other data segments. -/
def Disk.setSegs (d : Disk) (segs : AList (fun _ : Nat => LogFile DataBlob)) : Disk :=
  { d with segs := segs }

/-- The caches with other scans. -/
def Caches.setData (m : Caches) (data : AList (fun _ : Nat => CachedData)) : Caches :=
  { m with data := data }

/-- Segments were removed, and what was cached of them; `rest` are still to come. -/
structure Removing (w : World) (rest : List Nat) (w' : World) : Prop where
  disk : ∃ segs, w'.disk = w.disk.setSegs segs
  mem : ∃ data, w'.mem = w.mem.setData data
  segs : ∀ s f, w'.disk.segs.lookup s = some f →
    w.disk.segs.lookup s = some f ∧ (isIndexedSegment s = true → s ∈ rest)
  data : ∀ s c, w'.mem.data.lookup s = some c → w.mem.data.lookup s = some c ∧
    (isIndexedSegment s = true → s ∈ w.disk.segs.keys → s ∈ rest)
  faults : w'.faults ⊆ w.faults

theorem Removing.start (env : Env) (w : World) : Removing w (listedSegments env w.disk) w := by
  have hlisted : ∀ s, isIndexedSegment s = true → s ∈ w.disk.segs.keys →
      s ∈ listedSegments env w.disk := by grind [listedSegments, sortByKey_perm]
  refine ⟨⟨w.disk.segs, rfl⟩, ⟨w.mem.data, rfl⟩, fun s f hf => ⟨hf, fun hs => ?_⟩,
    fun s c hc => ⟨hc, hlisted s⟩, Subset.refl _⟩
  refine hlisted s hs ?_
  rw [← AList.mem_keys, ← AList.lookup_isSome, hf]
  rfl

theorem Removing.step {seq : Nat} (h : Removing w (seq :: rest) w1)
    (hdisk : w2.disk = w1.disk.removeSeg seq)
    (hmem : w2.mem = w1.mem.setData (w1.mem.data.erase seq)) (hfaults : w2.faults ⊆ w1.faults) :
    Removing w rest w2 := by
  obtain ⟨segs, hd⟩ := h.disk
  obtain ⟨data, hm⟩ := h.mem
  refine ⟨⟨segs.erase seq, by rw [hdisk, hd]; rfl⟩, ⟨data.erase seq, by rw [hmem, hm]; rfl⟩,
    fun s f hf => ?_, fun s c hc => ?_, Subset.trans hfaults h.faults⟩
  · rw [hdisk] at hf
    have hf' : (w1.disk.segs.erase seq).lookup s = some f := hf
    by_cases hs : s = seq
    · rw [hs, AList.lookup_erase] at hf'
      cases hf'
    · rw [AList.lookup_erase_ne hs] at hf'
      obtain ⟨hold, hin⟩ := h.segs s f hf'
      exact ⟨hold, fun hidx => (mem_cons.mp (hin hidx)).resolve_left hs⟩
  · rw [hmem] at hc
    have hc' : (w1.mem.data.erase seq).lookup s = some c := hc
    by_cases hs : s = seq
    · rw [hs, AList.lookup_erase] at hc'
      cases hc'
    · rw [AList.lookup_erase_ne hs] at hc'
      obtain ⟨hold, hin⟩ := h.data s c hc'
      exact ⟨hold, fun hidx hkey => (mem_cons.mp (hin hidx hkey)).resolve_left hs⟩

/-- All data segments are gone. -/
structure Removed (w w' : World) : Prop where
  disk : ∃ segs, w'.disk = w.disk.setSegs segs
  mem : ∃ data, w'.mem = w.mem.setData data
  segs : ∀ s, w'.disk.segs.lookup s = none
  data : ∀ s, w'.mem.data.lookup s = none
  faults : w'.faults ⊆ w.faults

/-- Some of the data segments are gone. -/
def FewerSegs (d d' : Disk) : Prop :=
  ∃ segs, d' = d.setSegs segs ∧ ∀ s f, segs.lookup s = some f → d.segs.lookup s = some f

theorem Removing.fewer {w w' : World} (h : Removing w rest w') : FewerSegs w.disk w'.disk := by
  obtain ⟨segs, hd⟩ := h.disk
  refine ⟨segs, hd, fun s f hf => (h.segs s f ?_).1⟩
  rw [hd]
  exact hf

theorem Removing.removed {w w' : World} (h : Removing w [] w') (hsmall : SmallSegs w.disk)
    (hdata : DataCoherent w.disk w.mem) : Removed w w' := by
  refine ⟨h.disk, h.mem, fun s => ?_, fun s => ?_, h.faults⟩
  · cases hf : w'.disk.segs.lookup s with
    | none => rfl
    | some f =>
      obtain ⟨hold, hin⟩ := h.segs s f hf
      have hidx : isIndexedSegment s = true := by
        simpa [isIndexedSegment] using hsmall s f hold
      exact absurd (hin hidx) (by simp)
  cases hc : w'.mem.data.lookup s with
  | none => rfl
  | some c =>
    -- what is cached has a file, so it was listed
    obtain ⟨hold, hin⟩ := h.data s c hc
    obtain ⟨f, hf, -⟩ := hdata s c hold
    have hidx : isIndexedSegment s = true := by
      simpa [isIndexedSegment] using hsmall s f hf
    grind [AList.mem_keys, AList.lookup_isSome]

/-- **Removing every data segment.** -/
theorem removeDataSegmentFiles_spec (hsmall : SmallSegs w.disk)
    (hdata : DataCoherent w.disk w.mem) :
    wp (removeDataSegmentFiles env) (fun _ w' => Removed w w')
      (fun _ w' => w.faults ≠ [] ∧ FewerSegs w.disk w'.disk) w := by
  have hne : ∀ {w' : World} {rest : List Nat}, Removing w rest w' → w'.faults ≠ [] →
      w.faults ≠ [] :=
    fun h => ne_nil_of_subset h.faults
  unfold removeDataSegmentFiles
  simp only [wp_bind, wp_get]
  refine wp_mono (wp_forEach (fun rest w' => Removing w rest w') (.start env w) ?_) ?_
    (fun _ _ h => h)
  · intro seq rest w1 h
    have hgone : Removing w rest (World.stepped
        { w1 with mem := w1.mem.setData (w1.mem.data.erase seq) } (w1.disk.removeSeg seq)) :=
      h.step rfl rfl (tail_subset _)
    exact wp_atomicStep hgone (fun hf => ⟨hne h hf, h.fewer⟩) (fun hf => ⟨hne h hf, hgone.fewer⟩)
  intro _ w1 h
  have hdone := h.removed hsmall hdata
  rw [wp_ite]
  refine ⟨fun _ => hdone, fun _ => ?_⟩
  -- the directory is synced; nothing changes
  refine wp_atomicStep ?_ (fun hf => ⟨hne h hf, h.fewer⟩) (fun hf => ⟨hne h hf, h.fewer⟩)
  exact ⟨hdone.disk, hdone.mem, hdone.segs, hdone.data,
    Subset.trans (tail_subset _) hdone.faults⟩

/-! ## §3. A reset that is under way. -/

/-- The logs are emptied or being emptied; the index is still the old one. -/
structure Emptying (d d' : Disk) : Prop where
  checkpoint : d'.checkpoint.flags = .dirty
  blkMap : d'.blkMap.Sound blkMapLog
  records : d'.records = []
  lookup : d'.lookup.Sound lookupLog
  dedup : d'.dedup = d.dedup ∨ (d'.dedup.Sound dedupLog ∧ d'.entries = [])
  segIndex : d'.segIndex = d.segIndex
  segs : ∀ s f, d'.segs.lookup s = some f →
    d.segs.lookup s = some f ∨ (f.log = [] ∧ f.tail = 0)
  runtime : d'.runtime = d.runtime

variable {d' : Disk}

theorem Emptying.active (h : Emptying d d') : d'.active = [] := by
  unfold Disk.active
  rw [h.records]
  rfl

theorem Emptying.hasBlob (h : Emptying d d') {b : DataBlob} (hb : d'.HasBlob s b) :
    d.HasBlob s b := by
  obtain ⟨f, hf, hmem⟩ := hb
  rcases h.segs s f hf with hold | ⟨hlog, -⟩
  · exact ⟨f, hold, hmem⟩
  · rw [hlog] at hmem
    cases hmem

/-- **A layout that is being emptied** keeps the invariant of the disk as long as no segment of
the index is gone. -/
theorem Emptying.diskInv (h : Emptying d d') (hinv : DiskInv env d)
    (hfiles : ∀ s ∈ d'.indexed, ∃ f, d'.segs.lookup s = some f) : DiskInv env d' := by
  have hidx : d'.indexed = d.indexed := by
    unfold Disk.indexed
    rw [h.segIndex]
  have hentries : ∀ e ∈ d'.entries, e ∈ d.entries := by
    intro e he
    rcases h.dedup with hd | ⟨-, hnone⟩
    · unfold Disk.entries at he ⊢
      rw [← hd]
      exact he
    · rw [hnone] at he
      cases he
  have hactive := h.active
  -- blobs and entries were there before; no record is left to be readable
  refine ⟨⟨?_, ?_, fun s b hb => hinv.store.compressed s b (h.hasBlob hb), hfiles, ?_, ?_, ?_, ?_,
    ?_, ?_⟩, h.blkMap, h.lookup, ?_, ?_, ?_, ?_⟩
  · intro s f hf
    rcases h.segs s f hf with hold | ⟨hlog, -⟩
    · exact hinv.store.segs s f hold
    · exact ⟨by rw [hlog]; exact Pairwise.nil, by rw [hlog]; simp⟩
  · intro s f hf
    rcases h.segs s f hf with hold | ⟨-, htail⟩
    · exact hinv.store.tails s f hold
    · exact htail
  · intro s hs
    exact hinv.store.bound s (hidx ▸ hs)
  · intro s hs s' hs' hlt b b' hb hb'
    exact hinv.store.ordered s (hidx ▸ hs) s' (hidx ▸ hs') hlt b b' (h.hasBlob hb) (h.hasBlob hb')
  · rw [h.segIndex]
    exact hinv.store.index.congr (fun s _ b hb => h.hasBlob hb)
  · intro e he s hs b hb
    exact hinv.store.agree e (hentries e he) s (hidx ▸ hs) b (h.hasBlob hb)
  · intro e he
    exact hinv.store.entryPos e (hentries e he)
  · rcases h.dedup with hd | ⟨hsound, -⟩
    · rw [hd]
      exact hinv.store.dedup
    · exact hsound
  · rw [h.records]
    exact ⟨by simp, by simp, by simp⟩
  · rw [hactive]
    simp
  · rw [hactive]
    simp
  · rw [hactive]
    simp

/-- What a reset that is cut short leaves. -/
structure ResetCut (env : Env) (d d' : Disk) : Prop where
  runtime : d'.runtime = d.runtime
  shows : Kept d d' ∨ d'.active = []
  disk : (∀ s ∈ d'.indexed, ∃ f, d'.segs.lookup s = some f) → DiskInv env d'
  clean : d'.checkpoint.flags = .clean → d' = d ∨ BlankDisk d'

theorem Emptying.cut (h : Emptying d d') (hinv : DiskInv env d) : ResetCut env d d' := by
  refine ⟨h.runtime, .inr h.active, h.diskInv hinv, fun hclean => ?_⟩
  rw [h.checkpoint] at hclean
  cases hclean

theorem BlankDisk.cut (h : BlankDisk d') (hrt : d'.runtime = d.runtime) :
    ResetCut env d d' := ⟨hrt, .inr h.active, fun _ => h.diskInv, fun _ => .inr h⟩

theorem ResetCut.of_dirty {c : MetadataCheckpoint} (hinv : DiskInv env d) (hc : c.flags = .dirty) :
    ResetCut env d (d.putCheckpoint c) := by
  have hsame := (SameFiles.refl d).putCheckpoint c
  refine ⟨rfl, .inl (hsame.kept rfl), fun _ => hinv.frame hsame rfl, fun hclean => ?_⟩
  have hflags : c.flags = .clean := hclean
  rw [hc] at hflags
  cases hflags

/-- What a reset that returns leaves. -/
structure ResetDone (env : Env) (w w' : World) : Prop where
  inv : LayoutInv env w'
  blank : BlankDisk w'.disk
  clean : w'.disk.checkpoint.flags = .clean
  runtime : w'.disk.runtime = w.disk.runtime
  faults : w'.faults ⊆ w.faults

theorem Coherent.of_nil {R : Type} {s : LogSlot R} {m : Caches} {c : CachedLog R}
    (hcache : s.cache m = some c) (hrec : c.records = []) (htable : (s.file d).table s.kind = []) :
    Coherent s d m := by
  intro c' hc'
  rw [hcache] at hc'
  injection hc' with hc'
  subst hc'
  refine ⟨by rw [hrec, htable], ?_, fun _ => hrec⟩
  rw [hrec]
  exact Pairwise.nil

/-! ## §4. The whole reset. -/

/-- The logs are empty, on disk and in the caches. -/
structure LogsEmptied (w w' : World) (c : MetadataCheckpoint) : Prop where
  emptying : Emptying w.disk w'.disk
  checkpoint : w'.disk.checkpoint = c
  lookups : w'.disk.lookups = []
  dedup : w'.disk.dedup.Sound dedupLog
  entries : w'.disk.entries = []
  segs : w'.disk.segs = w.disk.segs
  data : w'.mem.data = w.mem.data
  blkMapCache : ∃ cb, w'.mem.blkMap = some cb ∧ cb.records = []
  lookupCache : ∃ cl, w'.mem.lookup = some cl ∧ cl.records = []
  dedupCache : ∃ cd, w'.mem.dedup = some cd ∧ cd.records = []
  faults : w'.faults ⊆ w.faults

variable {c : MetadataCheckpoint}

theorem Emptying.of_blkMap (hinv : DiskInv env d) (hc : c.flags = .dirty) (seq now : Nat) :
    Emptying d (blkMapSlot.setFile (d.putCheckpoint c) (.written blkMapLog seq (some []) now)) :=
  ⟨hc, .written _ _, rfl, hinv.lookup, .inl rfl, rfl, fun _ _ hf => .inl hf, rfl⟩

/-- **The four logs, one after the other.** -/
theorem emptyLogs_spec (h : LayoutOk env w) (hc : c.flags = .dirty) : wp (do
        persistCheckpointCached env c
        persistBlkMapRecords env []
        persistLookupRecords env []
        atomicStep env fun _ d => d.putReclaim none
        persistDedupEntries env []) (fun _ w' => LogsEmptied w w' c)
      (fun _ w' => w.faults ≠ [] ∧ ResetCut env w.disk w'.disk) w := by
  have hinv := h.disk
  have hne : ∀ {fs : List Fault}, fs ⊆ w.faults → fs ≠ [] → w.faults ≠ [] := ne_nil_of_subset
  simp only [wp_bind]
  -- file by file: between two of them the disk is `Emptying`, which a crash may leave
  refine wp_then (persistCheckpointCached_spec c) ?_ ?_
  · intro _ w1 hfail
    obtain ⟨hf, hd | hd⟩ := hfail
    · rw [hd]
      exact ⟨hf, rfl, .inl (.refl _), fun _ => hinv, fun _ => .inl rfl⟩
    · rw [hd]
      exact ⟨hf, .of_dirty hinv hc⟩
  intro _ w1 hck
  refine wp_then (persistLog_spec _ Pairwise.nil Pairwise.nil) ?_ ?_
  · intro _ w2 hfail
    obtain ⟨hf, hd | ⟨now, hd⟩⟩ := hfail
    · rw [hd, hck.disk]
      exact ⟨hne hck.faults hf, .of_dirty hinv hc⟩
    · rw [hd, hck.disk]
      exact ⟨hne hck.faults hf, (Emptying.of_blkMap hinv hc _ _).cut hinv⟩
  intro _ w2 hpost
  obtain ⟨nb, cb, hblk, hcb⟩ := hpost
  have hf2 := Subset.trans hblk.faults hck.faults
  have hd2 := hblk.disk
  rw [hck.disk] at hd2
  refine wp_then (persistLog_spec _ Pairwise.nil Pairwise.nil) ?_ ?_
  · intro _ w3 hfail
    obtain ⟨hf, hd | ⟨now, hd⟩⟩ := hfail
    · rw [hd, hd2]
      exact ⟨hne hf2 hf, (Emptying.of_blkMap hinv hc _ _).cut hinv⟩
    · rw [hd, hd2]
      refine ⟨hne hf2 hf, Emptying.cut ?_ hinv⟩
      exact ⟨hc, .written _ _, rfl, .written _ _, .inl rfl, rfl, fun _ _ hf => .inl hf, rfl⟩
  intro _ w3 hpost
  obtain ⟨nl, cl, hlk, hcl⟩ := hpost
  have hf3 := Subset.trans hlk.faults hf2
  have hd3 := hlk.disk
  rw [hd2] at hd3
  have he3 : Emptying w.disk w3.disk := by
    rw [hd3]
    exact ⟨hc, .written _ _, rfl, .written _ _, .inl rfl, rfl, fun _ _ hf => .inl hf, rfl⟩
  have he4 : Emptying w.disk (w3.disk.putReclaim none) :=
    ⟨he3.checkpoint, he3.blkMap, he3.records, he3.lookup, he3.dedup, he3.segIndex, he3.segs,
      he3.runtime⟩
  refine wp_atomicStep ?_ (fun hf => ⟨hne hf3 hf, he3.cut hinv⟩)
    (fun hf => ⟨hne hf3 hf, he4.cut hinv⟩)
  have hf4 := Subset.trans (tail_subset w3.faults) hf3
  refine wp_then (persistLog_spec _ Pairwise.nil Pairwise.nil) ?_ ?_
  · intro _ w5 hfail
    obtain ⟨hf, hd | ⟨now, hd⟩⟩ := hfail
    · rw [hd]
      exact ⟨hne hf4 hf, he4.cut hinv⟩
    · rw [hd]
      refine ⟨hne hf4 hf, Emptying.cut ?_ hinv⟩
      exact ⟨he4.checkpoint, he4.blkMap, he4.records, he4.lookup, .inr ⟨.written _ _, rfl⟩,
        he4.segIndex, he4.segs, he4.runtime⟩
  intro _ w5 hpost
  obtain ⟨nd, cd, hdd, hcd⟩ := hpost
  have hd5 := hdd.disk
  have hm5 := hdd.mem
  rw [World.mem_stepped, hlk.mem, hblk.mem, hck.mem] at hm5
  have he5 : Emptying w.disk w5.disk := by
    rw [hd5]
    exact ⟨he4.checkpoint, he4.blkMap, he4.records, he4.lookup, .inr ⟨.written _ _, rfl⟩,
      he4.segIndex, he4.segs, he4.runtime⟩
  have hf5 := Subset.trans hdd.faults hf4
  rw [World.disk_stepped, hd3] at hd5
  obtain ⟨ticks, faults, rfl⟩ := w5.parts hd5 hm5
  exact ⟨he5, rfl, rfl, .written _ _, rfl, rfl, rfl, ⟨cb, rfl, hcb⟩, ⟨cl, rfl, hcl⟩,
    ⟨cd, rfl, hcd⟩, hf5⟩

theorem LogsEmptied.fewer (h : LogsEmptied w w1 c) (hd : FewerSegs w1.disk d) :
    Emptying w.disk d := by
  obtain ⟨segs, rfl, hsub⟩ := hd
  have he := h.emptying
  exact ⟨he.checkpoint, he.blkMap, he.records, he.lookup, he.dedup, he.segIndex,
    fun s f hf => he.segs s f (hsub s f hf), he.runtime⟩

/-- One empty segment once all are gone. -/
theorem LogsEmptied.zero (h : LogsEmptied w w1 c) (hrem : Removed w1 w2) (seq now : Nat) :
    Emptying w.disk (w2.disk.putSeg 0 (.written dataLog seq none now)) := by
  obtain ⟨segs, hd⟩ := hrem.disk
  have he := h.emptying
  have hsegs := hrem.segs
  rw [hd] at hsegs ⊢
  refine ⟨he.checkpoint, he.blkMap, he.records, he.lookup, he.dedup, he.segIndex, ?_, he.runtime⟩
  intro s f hf
  by_cases hs : s = 0
  · subst hs
    injection hf with hf
    subst hf
    exact .inr ⟨rfl, rfl⟩
  · rw [Disk.lookup_putSeg_ne _ _ hs, hsegs s] at hf
    cases hf

theorem LogsEmptied.blank (h : LogsEmptied w w1 c) (hrem : Removed w1 w2) (seq now now' size : Nat)
    (c' : MetadataCheckpoint) :
    BlankDisk (((w2.disk.putSeg 0 (.written dataLog seq none now)).putIndex
      ⟨.new size, now'⟩).putCheckpoint c') := by
  obtain ⟨segs, hd⟩ := hrem.disk
  have he := h.emptying
  have hsegs := hrem.segs
  rw [hd] at hsegs ⊢
  refine ⟨he.blkMap, he.lookup, h.dedup, he.records, h.lookups, h.entries, ⟨size, rfl⟩,
    ⟨_, Disk.lookup_putSeg _ _ _⟩, ?_⟩
  intro s f hf
  have hf' : ((w1.disk.setSegs segs).putSeg 0
      (.written dataLog seq none now)).segs.lookup s = some f := hf
  by_cases hs : s = 0
  · subst hs
    injection hf' with hf'
    subst hf'
    exact ⟨rfl, rfl, rfl⟩
  · rw [Disk.lookup_putSeg_ne _ _ hs, hsegs s] at hf'
    cases hf'

theorem BlankDisk.layoutInv (h : BlankDisk w.disk)
    (heff : effIndex w.disk w.mem = w.disk.segIndex.index) (hidx : IndexCoherent w.disk w.mem)
    (hdata : DataCoherent w.disk w.mem) (hblk : Coherent blkMapSlot w.disk w.mem)
    (hlk : Coherent lookupSlot w.disk w.mem) (hded : Coherent dedupSlot w.disk w.mem)
    (hck : CheckpointOk w) : LayoutInv env w := by
  have hinv : DiskInv env w.disk := h.diskInv
  have hcons := h.consistent
  refine ⟨⟨hinv, ⟨hinv.store, ?_, ?_, hcons.next, ?_, hidx, hdata, hded⟩, hblk, hlk, hck,
    hcons.described, hcons.counts⟩, ?_, fun _ => hcons.covers⟩
  · rw [heff]
    exact hinv.store.index
  · rw [heff]
    exact .refl _
  · rw [heff]
  · unfold Covered
    rw [heff]
    exact hcons.covers

/-- **The segments from scratch**, and the checkpoint clean again. -/
theorem restartSegments_spec (h : LogsEmptied w w1 c) (hinv : DiskInv env w.disk)
    (hsmall : SmallSegs w.disk) (hdata : DataCoherent w.disk w.mem) {c' : MetadataCheckpoint}
    (hc' : c'.flags = .clean) (seq size : Nat) :
    wp (do
        removeDataSegmentFiles env
        writeEmptySegment env 0 seq
        persistSegmentIndex env (.new size)
        storeSegmentIndexClean (.new size)
        cacheEmptySegment 0
        persistCheckpointCached env c'
        setPending 0) (fun _ w' => ResetDone env w w')
      (fun _ w' => w.faults ≠ [] ∧ ResetCut env w.disk w'.disk) w1 := by
  have hne : ∀ {fs : List Fault}, fs ⊆ w.faults → fs ≠ [] → w.faults ≠ [] := ne_nil_of_subset
  have hsmall1 : SmallSegs w1.disk := by
    intro s f hf
    rw [h.segs] at hf
    exact hsmall s f hf
  have hdata1 : DataCoherent w1.disk w1.mem := by
    intro s cd hcd
    rw [h.data] at hcd
    rw [h.segs]
    exact hdata s cd hcd
  simp only [wp_bind]
  refine wp_then (removeDataSegmentFiles_spec hsmall1 hdata1) ?_ ?_
  · intro _ w2 hfail
    exact ⟨hne h.faults hfail.1, (h.fewer hfail.2).cut hinv⟩
  intro _ w2 hrem
  have hf2 := Subset.trans hrem.faults h.faults
  have hrt2 : w2.disk.runtime = w.disk.runtime := by
    obtain ⟨segs, hd⟩ := hrem.disk
    rw [hd]
    exact h.emptying.runtime
  have hgone : FewerSegs w1.disk w2.disk := by
    obtain ⟨segs, hd⟩ := hrem.disk
    refine ⟨segs, hd, fun s f hf => ?_⟩
    have hnone := hrem.segs s
    rw [hd] at hnone
    have hnone' : segs.lookup s = none := hnone
    rw [hnone'] at hf
    cases hf
  unfold writeEmptySegment persistSegmentIndex storeSegmentIndexClean cacheEmptySegment
    setCachedIndex setCachedData
  refine wp_atomicStep ?_ (fun hf => ⟨hne hf2 hf, (h.fewer hgone).cut hinv⟩)
    (fun hf => ⟨hne hf2 hf, (h.zero hrem _ _).cut hinv⟩)
  have hf3 := Subset.trans (tail_subset w2.faults) hf2
  have hblank : ∀ now c', BlankDisk (((w2.disk.putSeg 0
      (.written dataLog seq none (env.clock w2.ticks))).putIndex
        ⟨.new size, now⟩).putCheckpoint c') :=
    fun now c' => h.blank hrem seq (env.clock w2.ticks) now size c'
  refine wp_atomicStep ?_ (fun hf => ⟨hne hf3 hf, (h.zero hrem _ _).cut hinv⟩)
    (fun hf => ⟨hne hf3 hf, (hblank _ w2.disk.checkpoint).cut hrt2⟩)
  have hf4 := Subset.trans (tail_subset w2.faults.tail) hf3
  simp only [wp_bind, wp_get, wp_modify, World.disk_stepped, World.mem_stepped,
    Disk.segs_putIndex, Disk.lookup_putSeg]
  refine wp_then (persistCheckpointCached_spec c') ?_ ?_
  · intro _ w6 hfail
    obtain ⟨hf, hd | hd⟩ := hfail
    · rw [hd]
      exact ⟨hne hf4 hf, (hblank _ w2.disk.checkpoint).cut hrt2⟩
    · rw [hd]
      exact ⟨hne hf4 hf, (hblank _ c').cut hrt2⟩
  intro _ w6 hck
  rw [wp_setPending]
  have hd6 := hck.disk
  have hm6 := hck.mem
  have hblank6 : BlankDisk w6.disk := by
    rw [hd6]
    exact hblank _ c'
  obtain ⟨cb, hcb, hcbn⟩ := h.blkMapCache
  obtain ⟨cl, hcl, hcln⟩ := h.lookupCache
  obtain ⟨cd, hcd, hcdn⟩ := h.dedupCache
  obtain ⟨data, hm2⟩ := hrem.mem
  have hdata2 := hrem.data
  rw [hm2] at hm6 hdata2
  refine ⟨BlankDisk.layoutInv hblank6 ?_ ?_ ?_ ?_ ?_ ?_ ?_, hblank6, ?_, ?_,
    Subset.trans hck.faults hf4⟩
  · rw [hm6, hd6]; rfl
  · intro ci hci _
    rw [hm6] at hci
    rw [hd6]
    exact (Option.some.inj hci) ▸ rfl
  · -- one scan is cached, that of the empty segment
    intro s cs hcs
    rw [hm6] at hcs
    have hcs' : (AList.insert 0 _ data).lookup s = some cs := hcs
    by_cases hs : s = 0
    · subst hs
      refine ⟨_, by rw [hd6]; exact Disk.lookup_putSeg _ _ _, ?_⟩
      rw [← Option.some.inj hcs']
      rfl
    · rw [AList.lookup_insert_ne hs] at hcs'
      have hnone : data.lookup s = none := hdata2 s
      rw [hnone] at hcs'
      cases hcs'
  · exact .of_nil (c := cb) (by rw [hm6]; exact hcb) hcbn hblank6.records
  · exact .of_nil (c := cl) (by rw [hm6]; exact hcl) hcln hblank6.lookups
  · exact .of_nil (c := cd) (by rw [hm6]; exact hcd) hcdn hblank6.entries
  · intro ck hck'
    rw [hm6] at hck'
    rw [hd6]
    exact (Option.some.inj hck').symm
  · rw [hd6]
    exact hc'
  · rw [hd6]
    exact hrt2

/-- **Resetting a layout.** -/
theorem resetLayoutForOverwrite_spec (h : LayoutOk env w) (hsmall : SmallSegs w.disk) :
    wp (resetLayoutForOverwrite env) (fun _ w' => ResetDone env w w')
      (fun _ w' => w.faults ≠ [] ∧ ResetCut env w.disk w'.disk) w := by
  refine wp.bind (loadCheckpointCached_spec h.checkpoint) ?_ (fun _ _ hfalse => hfalse.elim)
  rintro c w1 ⟨rfl, rfl⟩
  have h1 : LayoutOk env w.withCheckpoint :=
    h.setCheckpointCache
  -- the logs are emptied before the segments they name are removed
  suffices hs : wp (do
      (do
        persistCheckpointCached env (w.disk.checkpoint.next .dirty)
        persistBlkMapRecords env []
        persistLookupRecords env []
        atomicStep env fun _ d => d.putReclaim none
        persistDedupEntries env [])
      (do
        removeDataSegmentFiles env
        writeEmptySegment env 0 (w.disk.checkpoint.next .dirty).epoch
        persistSegmentIndex env (.new env.configuredMaxSegmentSize)
        storeSegmentIndexClean (.new env.configuredMaxSegmentSize)
        cacheEmptySegment 0
        persistCheckpointCached env { (w.disk.checkpoint.next .dirty).next .clean with
            activeBlkMapRoot := 2, activeLookupRoot := 3 }
        setPending 0)) _ _ _ by simpa only [wp_bind] using hs
  refine wp.bind (emptyLogs_spec h1 rfl) ?_ (fun _ _ hcut => hcut)
  intro _ w2 hlogs
  refine wp_mono (restartSegments_spec hlogs h.disk hsmall h.warm.data rfl _ _) ?_
    (fun _ _ hcut => hcut)
  intro _ w3 hdone
  exact ⟨hdone.inv, hdone.blank, hdone.clean, hdone.runtime, hdone.faults⟩

end Holo.Storage
