/-
Holo.Storage.RebuildSpec — rebuilding the segment index from the block map.

Recovery throws the persisted descriptors away: the segments that active records name are
scanned again, and the last of them becomes the active one.  When no record is active,
segment 0 starts anew.

Main results:
* `rebuiltIndex_ok`, `unreferencedIndex_ok`: the new index fits the blobs;
* `rebuildSegmentIndexFromBlkMap_spec`: the disk keeps its invariant at every step, and the
  new index knows every blob of its segments and every blob id a record ever named.
-/
import Holo.Storage.ValidateSpec

namespace Holo.Storage

open Lib Program List Disk SegmentIndex

variable {env : Env}

/-! ## §1. Descriptors. -/

/-- A descriptor whose range is exactly the blobs of its segment. -/
structure RangeOf (d : Disk) (x : SegmentDescriptor) : Prop where
  first_le : ∀ b, d.HasBlob x.segmentSeq b → x.firstBlobId ≤ b.blobId
  le_last : ∀ b, d.HasBlob x.segmentSeq b → b.blobId ≤ x.lastBlobId
  first_mem : x.firstBlobId = 0 ∨ ∃ b, d.HasBlob x.segmentSeq b ∧ b.blobId = x.firstBlobId
  last_mem : x.lastBlobId = 0 ∨ ∃ b, d.HasBlob x.segmentSeq b ∧ b.blobId = x.lastBlobId

theorem min?_getD_spec (l : List Nat) :
    (∀ n ∈ l, l.min?.getD 0 ≤ n) ∧ (l.min?.getD 0 = 0 ∨ l.min?.getD 0 ∈ l) := by
  cases hm : l.min? with
  | none =>
    exact ⟨by simp, .inl rfl⟩
  | some m =>
    obtain ⟨hmem, hle⟩ := min?_eq_some_iff.mp hm
    exact ⟨hle, .inr hmem⟩

theorem max?_getD_spec (l : List Nat) :
    (∀ n ∈ l, n ≤ l.max?.getD 0) ∧ (l.max?.getD 0 = 0 ∨ l.max?.getD 0 ∈ l) := by
  cases hm : l.max? with
  | none =>
    rw [max?_eq_none_iff.mp hm]
    exact ⟨by simp, .inl rfl⟩
  | some m =>
    obtain ⟨hmem, hle⟩ := max?_eq_some_iff.mp hm
    exact ⟨hle, .inr hmem⟩

variable {d : Disk}

variable {f : LogFile DataBlob} {x : SegmentDescriptor} {active : Nat} {w : World}

theorem rebuildSegmentDescriptor_spec {seq : Nat} (hf : d.segs.lookup seq = some f)
    (state : SegmentState) :
    ∃ x, rebuildSegmentDescriptor d seq state = .ok x ∧ x.segmentSeq = seq ∧ x.state = state ∧
      RangeOf d x := by
  unfold rebuildSegmentDescriptor
  rw [hf]
  have hblob : ∀ b, d.HasBlob seq b ↔ b ∈ f.log := by
    intro b
    unfold Disk.HasBlob
    rw [hf]
    simp
  obtain ⟨hmin, hminm⟩ := min?_getD_spec (f.log.map (·.blobId))
  obtain ⟨hmax, hmaxm⟩ := max?_getD_spec (f.log.map (·.blobId))
  refine ⟨_, rfl, rfl, rfl, ⟨?_, ?_, ?_, ?_⟩⟩
  · intro b hb
    exact hmin _ (mem_map_of_mem ((hblob b).mp hb))
  · intro b hb
    exact hmax _ (mem_map_of_mem ((hblob b).mp hb))
  · simp [hminm.imp_right, hblob]
  simp [hmaxm.imp_right, hblob]

/-- **The rebuilt descriptors**, one for each referenced segment. -/
theorem rebuildDescriptors_spec {d : Disk} (active : Nat) : ∀ (seqs : List Nat),
    (∀ s ∈ seqs, ∃ f, d.segs.lookup s = some f) →
    ∃ descs, rebuildDescriptors d active seqs = .ok descs ∧ descs.map (·.segmentSeq) = seqs ∧
      (∀ x ∈ descs, RangeOf d x) ∧
      (∀ x ∈ descs, x.state = if x.segmentSeq = active then .active else .sealed)
  | [], _ => ⟨[], rfl, rfl, by simp, by simp⟩
  | seq :: seqs, h => by
    obtain ⟨f, hf⟩ := h seq mem_cons_self
    obtain ⟨x, hx, hseq, hstate, hrange⟩ :=
      rebuildSegmentDescriptor_spec hf (if seq = active then .active else .sealed)
    obtain ⟨descs, hdescs, hmap, hranges, hstates⟩ :=
      rebuildDescriptors_spec active seqs (fun s hs => h s (mem_cons_of_mem _ hs))
    refine ⟨x :: descs, ?_, ?_, ?_, ?_⟩
    · unfold rebuildDescriptors
      rw [hx, hdescs]
    · rw [map_cons, hmap, hseq]
    · grind
    grind

/-! ## §2. The high water of the records. -/

/-- The descriptor with its end raised. -/
def raised (n : Nat) (x : SegmentDescriptor) : SegmentDescriptor :=
  { x with lastBlobId := max x.lastBlobId n }

theorem SegmentIndex.segments_raiseHighWater (i : SegmentIndex) (n : Nat) :
    (i.raiseHighWater n).segments = i.segments :=
  map_modifyFirst (p := fun d : SegmentDescriptor => decide (d.state = .active)) (f := raised n)
    (g := SegmentDescriptor.segmentSeq) (fun _ _ => rfl) _

variable {i : SegmentIndex}

/-- A descriptor of the raised index is an old one, or the active one with a higher end. -/
theorem SegmentIndex.mem_raiseHighWater {n : Nat} (hx : x ∈ (i.raiseHighWater n).descriptors) :
    x ∈ i.descriptors ∨ ∃ y ∈ i.descriptors, y.state = .active ∧ x = raised n y := by
  rcases mem_modifyFirst hx with hx | ⟨y, hy, hstate, rfl⟩
  · exact .inl hx
  · exact .inr ⟨y, hy, by simpa using hstate, rfl⟩

/-- Where a segment is active, the raised descriptor is there, and it is active. -/
theorem SegmentIndex.exists_raised (h : ∃ a, i.activeDescriptor = some a) (n : Nat) :
    ∃ y, raised n y ∈ (i.raiseHighWater n).descriptors ∧ (raised n y).state = .active := by
  obtain ⟨a, ha⟩ := h
  obtain ⟨hmem, hstate⟩ := state_of_active ha
  have hany : i.descriptors.any (fun d => decide (d.state = .active)) = true :=
    any_eq_true.mpr ⟨a, hmem, by simpa using hstate⟩
  obtain ⟨y, -, hy, hin⟩ := exists_mem_modifyFirst (f := raised n) hany
  exact ⟨y, hin, of_decide_eq_true hy⟩

/-- **Raising the active descriptor's end is harmless**: no segment comes after it. -/
theorem IndexOk.raiseHighWater (h : IndexOk d i) (n : Nat) : IndexOk d (i.raiseHighWater n) := by
  have hsegs := i.segments_raiseHighWater n
  refine ⟨by rw [hsegs]; exact h.nodup, ?_, ?_, ?_, ?_⟩
  · obtain ⟨y, hin, hy⟩ := i.exists_raised h.exists_active n
    have hsome : (i.raiseHighWater n).activeDescriptor.isSome = true := by
      unfold SegmentIndex.activeDescriptor
      rw [find?_isSome]
      exact ⟨_, hin, decide_eq_true hy⟩
    exact Option.isSome_iff_exists.mp hsome
  · intro x hx hstate s hs
    rw [hsegs] at hs
    rcases mem_raiseHighWater hx with hx | ⟨y, hy, hact, rfl⟩
    · exact h.active_last x hx hstate s hs
    · exact h.active_last y hy hact s hs
  · intro x hx s hs hlt b hb
    rw [hsegs] at hs
    rcases mem_raiseHighWater hx with hx | ⟨y, hy, -, rfl⟩
    · exact h.above x hx s hs hlt b hb
    · exact h.above y hy s hs hlt b hb
  · intro x hx s hs hlt b hb
    rw [hsegs] at hs
    rcases mem_raiseHighWater hx with hx | ⟨y, hy, hact, rfl⟩
    · exact h.below x hx s hs hlt b hb
    · exact absurd (h.active_last y hy hact s hs) (not_le.mpr hlt)

theorem SegmentIndex.le_blobHighWater_raise (h : ∃ a, i.activeDescriptor = some a) (n : Nat) :
    n ≤ (i.raiseHighWater n).blobHighWater := by
  obtain ⟨y, hin, -⟩ := i.exists_raised h n
  exact (Nat.le_max_right y.lastBlobId n).trans (lastBlobId_le (i := i.raiseHighWater n) hin)

theorem SegmentIndex.lastBlobId_le_raise (hx : x ∈ i.descriptors) (n : Nat) :
    x.lastBlobId ≤ (i.raiseHighWater n).blobHighWater := by
  rcases mem_or_mem_modifyFirst (p := fun d : SegmentDescriptor => decide (d.state = .active))
      (raised n) hx with
    h | ⟨-, h⟩
  · exact lastBlobId_le (i := i.raiseHighWater n) h
  · exact (Nat.le_max_left x.lastBlobId n).trans (lastBlobId_le (i := i.raiseHighWater n) h)

/-! ## §3. The new index fits the blobs. -/

/-- **The index rebuilt from the referenced segments.** -/
theorem rebuiltIndex_ok (h : StoreInv d) {seqs : List Nat} (hnd : seqs.Nodup) (hmem : active ∈ seqs)
    (hmax : ∀ s ∈ seqs, s ≤ active) (hsub : ∀ s ∈ seqs, s ∈ d.indexed)
    (hblob : ∀ s ∈ seqs, ∃ b, d.HasBlob s b) {descs : List SegmentDescriptor}
    (hmap : descs.map (·.segmentSeq) = seqs) (hrange : ∀ x ∈ descs, RangeOf d x)
    (hstate : ∀ x ∈ descs, x.state = if x.segmentSeq = active then .active else .sealed)
    (maxSegmentSize next : Nat) : IndexOk d ⟨maxSegmentSize, descs, next⟩ := by
  have hseq : ∀ x ∈ descs, x.segmentSeq ∈ seqs := fun x hx => hmap ▸ mem_map_of_mem hx
  have hsegs : (⟨maxSegmentSize, descs, next⟩ : SegmentIndex).segments = seqs := hmap
  -- blob ids grow with the segment, and so do the ranges
  refine ⟨by rw [hsegs]; exact hnd, ?_, ?_, ?_, ?_⟩
  · obtain ⟨x, hx, hxa⟩ := mem_map.mp (hmap.symm ▸ hmem)
    have hxstate : x.state = .active := by rw [hstate x hx, if_pos hxa]
    have hsome : (descs.find? (fun d => decide (d.state = .active))).isSome = true := by grind
    exact Option.isSome_iff_exists.mp hsome
  · intro x hx hact s hs
    have hxa : x.segmentSeq = active := by
      by_contra hne
      have hx := hstate x hx
      rw [if_neg hne, hact] at hx
      cases hx
    rw [hxa]
    exact hmax s (hsegs ▸ hs)
  · intro x hx s hs hlt b hb
    rcases (hrange x hx).first_mem with h0 | ⟨b', hb', hid⟩
    · exact .inl h0
    · right
      rw [← hid]
      exact h.ordered s (hsub s (hsegs ▸ hs)) _ (hsub _ (hseq x hx)) hlt b b' hb hb'
  · intro x hx s hs hlt b hb
    obtain ⟨b', hb'⟩ := hblob _ (hseq x hx)
    have hlt' := h.ordered _ (hsub _ (hseq x hx)) s (hsub s (hsegs ▸ hs)) hlt b' b hb' hb
    rcases (hrange x hx).last_mem with h0 | ⟨b'', hb'', hid⟩
    · omega
    · rw [← hid]
      exact h.ordered _ (hsub _ (hseq x hx)) s (hsub s (hsegs ▸ hs)) hlt b'' b hb'' hb

/-- **The index of a layout without active records.** -/
theorem unreferencedIndex_ok (d : Disk) (hempty : ∀ b, ¬ d.HasBlob 0 b) (maxSegmentSize : Nat)
    (highest : Option Nat) : IndexOk d (.unreferenced maxSegmentSize highest) := by
  refine ⟨by simp [SegmentIndex.unreferenced, SegmentIndex.segments], ⟨_, rfl⟩, ?_, ?_, ?_⟩
  · intro x hx hstate s hs
    rw [mem_singleton.mp hx, mem_singleton.mp hs]
  · intro x hx s hs hlt b hb
    rw [mem_singleton.mp hs] at hb
    exact absurd hb (hempty b)
  · intro x hx s hs hlt b hb
    rw [mem_singleton.mp hs] at hb
    exact absurd hb (hempty b)

/-- Another index over segments that were indexed or are empty. -/
theorem StoreInv.putIndex (h : StoreInv d) (hi : IndexOk d i)
    (hseg : ∀ s ∈ i.segments, s ∈ d.indexed ∨
      ((∃ f, d.segs.lookup s = some f) ∧ s ≤ u32Max ∧ ∀ b, ¬ d.HasBlob s b)) (now : Nat) :
    StoreInv (d.putIndex ⟨i, now⟩) := by
  refine ⟨h.segs, h.tails, h.compressed, ?_, ?_, ?_, hi.congr (fun _ _ _ hb => hb), ?_, h.entryPos,
    h.dedup⟩
  · intro s hs
    rcases hseg s hs with hs | ⟨hf, -⟩
    · exact h.files s hs
    · exact hf
  · intro s hs
    rcases hseg s hs with hs | ⟨-, hle, -⟩
    · exact h.bound s hs
    · exact hle
  · intro s hs s' hs' hlt b b' hb hb'
    rcases hseg s hs with hs | ⟨-, -, hnone⟩
    · rcases hseg s' hs' with hs' | ⟨-, -, hnone⟩
      · exact h.ordered s hs s' hs' hlt b b' hb hb'
      · exact absurd hb' (hnone b')
    · exact absurd hb (hnone b)
  · intro e he s hs b hb hid
    rcases hseg s hs with hs | ⟨-, -, hnone⟩
    · exact h.agree e he s hs b hb hid
    · exact absurd hb (hnone b)

theorem DiskInv.putIndex (h : DiskInv env d) (hi : IndexOk d i)
    (hseg : ∀ s ∈ i.segments, s ∈ d.indexed ∨
      ((∃ f, d.segs.lookup s = some f) ∧ s ≤ u32Max ∧ ∀ b, ¬ d.HasBlob s b))
    (hactive : ∀ r ∈ d.active, r.physicalSegmentId ∈ i.segments) (now : Nat) :
    DiskInv env (d.putIndex ⟨i, now⟩) := by
  refine ⟨h.store.putIndex hi hseg now, h.blkMap, h.lookup, h.extents, ?_, hactive, h.refs⟩
  intro r hr
  obtain ⟨p, hp⟩ := h.readable r hr
  have hsegs : (d.putIndex ⟨i, now⟩).segs = d.segs := rfl
  exact ⟨p, hp.of_segs hsegs⟩

theorem Disk.hasBlob_putEmpty {seq sequence now s : Nat} {b : DataBlob}
    (h : (d.putSeg seq (.written dataLog sequence none now)).HasBlob s b) :
    s ≠ seq ∧ d.HasBlob s b := by
  obtain ⟨f, hf, hb⟩ := h
  by_cases hs : s = seq
  · subst hs
    rw [lookup_putSeg] at hf
    rw [← Option.some.inj hf] at hb
    simp at hb
  · rw [lookup_putSeg_ne d _ hs] at hf
    exact ⟨hs, f, hf, hb⟩

/-- **A segment starts anew** while nothing active is stored anywhere. -/
theorem DiskInv.putEmpty (h : DiskInv env d) (hactive : d.active = []) (seq sequence now : Nat) :
    DiskInv env (d.putSeg seq (.written dataLog sequence none now)) := by
  have hact : (d.putSeg seq (.written dataLog sequence none now)).active = [] := hactive
  have hlook : ∀ s f, (d.putSeg seq (.written dataLog sequence none now)).segs.lookup s =
      some f → f = .written dataLog sequence none now ∨ d.segs.lookup s = some f := by
    intro s f hf
    by_cases hs : s = seq
    · subst hs
      rw [lookup_putSeg] at hf
      exact .inl (Option.some.inj hf).symm
    · rw [lookup_putSeg_ne d _ hs] at hf
      exact .inr hf
  -- every blob was there before, and no record is active
  refine ⟨⟨?_, ?_, ?_, ?_, h.store.bound, ?_, ?_, ?_, h.store.entryPos, h.store.dedup⟩, h.blkMap,
    h.lookup, h.extents, ?_, ?_, ?_⟩
  · intro s f hf
    rcases hlook s f hf with rfl | hf
    · exact SegOk.written_none _ _
    · exact h.store.segs s f hf
  · intro s f hf
    rcases hlook s f hf with rfl | hf
    · rfl
    · exact h.store.tails s f hf
  · intro s b hb
    exact h.store.compressed s b (hasBlob_putEmpty hb).2
  · intro s hs
    by_cases heq : s = seq
    · subst heq
      exact ⟨_, lookup_putSeg d s _⟩
    · obtain ⟨f, hf⟩ := h.store.files s hs
      exact ⟨f, by rw [lookup_putSeg_ne d _ heq]; exact hf⟩
  · intro s hs s' hs' hlt b b' hb hb'
    exact h.store.ordered s hs s' hs' hlt b b' (hasBlob_putEmpty hb).2 (hasBlob_putEmpty hb').2
  · exact h.store.index.congr (fun _ _ _ hb => (hasBlob_putEmpty hb).2)
  · intro e he s hs b hb hid
    exact h.store.agree e he s hs b (hasBlob_putEmpty hb).2 hid
  · intro r hr
    rw [hact] at hr
    cases hr
  · intro r hr
    rw [hact] at hr
    cases hr
  · intro r hr
    rw [hact] at hr
    cases hr

/-! ## §4. The numbers of the segments. -/

/-- Every data segment has a name of six digits. -/
def SmallSegs (d : Disk) : Prop := ∀ s f, d.segs.lookup s = some f → s < 1000000

theorem SmallSegs.of_keys (h : ∀ s ∈ d.segs.keys, s < 1000000) : SmallSegs d := by
  intro s f hf
  refine h s ?_
  rw [← AList.mem_keys, ← AList.lookup_isSome, hf]
  rfl

variable {s : Nat}

theorem highestIndexedDataSegment_spec (h : SmallSegs d) (hf : d.segs.lookup s = some f) :
    ∃ m, highestIndexedDataSegment d = some m ∧ s ≤ m := by
  have hmem : s ∈ d.segs.keys.filter isIndexedSegment := by
    refine mem_filter.mpr ⟨?_, by simpa [isIndexedSegment] using h s f hf⟩
    rw [← AList.mem_keys, ← AList.lookup_isSome, hf]
    rfl
  cases hm : highestIndexedDataSegment d with
  | none =>
    have := max?_eq_none_iff.mp hm
    rw [this] at hmem
    cases hmem
  | some m => exact ⟨m, rfl, (max?_eq_some_iff.mp hm).2 s hmem⟩

theorem highestIndexedDataSegment_lt {m : Nat} (h : highestIndexedDataSegment d = some m) :
    m < 1000000 := by
  have hmem := max?_mem h
  simpa [isIndexedSegment] using (mem_filter.mp hmem).2

/-! ## §5. The rebuild. -/

/-- What a rebuild that is cut short leaves. -/
structure RebuildCut (env : Env) (d d' : Disk) : Prop where
  inv : DiskInv env d'
  only : SegsOnly d d'
  readable : ∀ r ∈ d.active, ∀ p, Readable env d r p → Readable env d' r p

/-- What a rebuild that is done leaves. -/
structure Rebuilt (env : Env) (d d' : Disk) : Prop where
  cut : RebuildCut env d d'
  blobs : ∀ s ∈ d'.indexed, ∀ b, d'.HasBlob s b → b.blobId ≤ d'.segIndex.index.blobHighWater
  records : ∀ r ∈ d.records, r.physicalOffset ≤ d'.segIndex.index.blobHighWater
  next : SmallSegs d → NextAbove d'
  small : SmallSegs d → SmallSegs d'
  sub : ∀ s ∈ d'.indexed, s ∈ d.referenced ∨ (d.active = [] ∧ s = 0)

variable {c : CachedLog BlkMapRecord}

/-- The segments recovery will index, from the cached records. -/
theorem referencedSegments_spec (hok : CacheOk blkMapLog d.blkMap c) :
    (referencedSegments c.records).Perm d.referenced ∧ (referencedSegments c.records).Nodup ∧
      SortedBy (fun n => n) (referencedSegments c.records) := by
  have hperm : (referencedSegments c.records).Perm d.referenced :=
    (sortByKey_perm _ _).trans ((hok.perm.filter _).map _).dedup
  exact ⟨hperm, hperm.nodup_iff.mpr (nodup_dedup _), sortByKey_sorted _ _⟩

theorem Disk.mem_referenced : s ∈ d.referenced ↔ ∃ r ∈ d.active, r.physicalSegmentId = s := by
  unfold Disk.referenced
  rw [mem_dedup, mem_map]

theorem le_recordHighWater (hok : CacheOk blkMapLog d.blkMap c) {r : BlkMapRecord}
    (hr : r ∈ d.records) : r.physicalOffset ≤ recordHighWater c.records :=
  le_max_of_le (mem_map_of_mem (hok.mem_iff.mpr hr)) le_rfl

theorem Rebuilt.referenced (h : DiskInv env d) (hok : CacheOk blkMapLog d.blkMap c)
    (hlast : (referencedSegments c.records).getLast? = some active) (maxSegmentSize now : Nat) :
    ∃ descs, rebuildDescriptors d active (referencedSegments c.records) = .ok descs ∧
      Rebuilt env d (d.putIndex ⟨(⟨maxSegmentSize, descs,
        satAdd32 (max ((highestIndexedDataSegment d).getD active) active) 1⟩ :
          SegmentIndex).raiseHighWater (recordHighWater c.records), now⟩) := by
  obtain ⟨hperm, hnd, hsorted⟩ := referencedSegments_spec hok
  -- an active record is readable: its segment is indexed and has a blob
  have hnamed : ∀ s ∈ referencedSegments c.records, s ∈ d.indexed ∧ ∃ b, d.HasBlob s b := by
    intro s hs
    obtain ⟨r, hr, rfl⟩ := mem_referenced.mp (hperm.mem_iff.mp hs)
    obtain ⟨p, hp⟩ := h.readable r hr
    obtain ⟨b, hb, -⟩ := hp.stored.exists_blob
    exact ⟨h.indexed r hr, b, hb⟩
  have hmem : active ∈ referencedSegments c.records := by grind
  obtain ⟨descs, hdescs, hmap, hrange, hstate⟩ := rebuildDescriptors_spec active
    (referencedSegments c.records) (fun s hs => h.store.files s (hnamed s hs).1)
  refine ⟨descs, hdescs, ?_⟩
  generalize hnext : satAdd32 (max ((highestIndexedDataSegment d).getD active) active) 1 = next
  have hindex : IndexOk d ⟨maxSegmentSize, descs, next⟩ :=
    rebuiltIndex_ok h.store hnd hmem (fun s hs => hsorted.le_getLast hs hlast)
      (fun s hs => (hnamed s hs).1) (fun s hs => (hnamed s hs).2) hmap hrange hstate _ _
  have hraised := hindex.raiseHighWater (recordHighWater c.records)
  have hsegs : ((⟨maxSegmentSize, descs, next⟩ : SegmentIndex).raiseHighWater
      (recordHighWater c.records)).segments = referencedSegments c.records := by
    rw [segments_raiseHighWater]
    exact hmap
  refine ⟨⟨h.putIndex hraised (fun s hs => .inl (hnamed s (hsegs ▸ hs)).1) ?_ now, rfl, ?_⟩,
    ?_, ?_, ?_, fun hsmall => hsmall, ?_⟩
  · intro r hr
    rw [hsegs, hperm.mem_iff]
    exact mem_referenced.mpr ⟨r, hr, rfl⟩
  · intro r _ p hp
    exact ⟨⟨hp.stored.exists_blob⟩, hp.checksum⟩
  · intro s hs b hb
    have hs : s ∈ referencedSegments c.records := hsegs ▸ hs
    obtain ⟨x, hx, rfl⟩ := mem_map.mp (hmap.symm ▸ hs)
    exact ((hrange x hx).le_last b hb).trans
      (lastBlobId_le_raise (i := ⟨maxSegmentSize, descs, next⟩) hx _)
  · intro r hr
    exact (le_recordHighWater hok hr).trans (le_blobHighWater_raise hindex.exists_active _)
  · intro hsmall s f hf
    obtain ⟨m, hm, hle⟩ := highestIndexedDataSegment_spec hsmall hf
    have hmlt := highestIndexedDataSegment_lt hm
    show s < next
    rw [← hnext, hm, Option.getD_some]
    unfold satAdd32 u32Max
    omega
  · intro s hs
    exact .inl (hperm.mem_iff.mp (hsegs ▸ hs))

/-- The rebuilt index when no record is active: segment 0 starts anew. -/
theorem Rebuilt.unreferenced (h : DiskInv env d) (hok : CacheOk blkMapLog d.blkMap c)
    (hactive : d.active = []) (maxSegmentSize sequence now now' : Nat) :
    Rebuilt env d ((d.putSeg 0 (.written dataLog sequence none now)).putIndex
      ⟨(SegmentIndex.unreferenced maxSegmentSize (highestIndexedDataSegment d)).raiseHighWater
        (recordHighWater c.records), now'⟩) := by
  have hput := h.putEmpty hactive 0 sequence now
  have hempty : ∀ b, ¬ (d.putSeg 0 (.written dataLog sequence none now)).HasBlob 0 b :=
    fun b hb => (hasBlob_putEmpty hb).1 rfl
  have hindex := unreferencedIndex_ok _ hempty maxSegmentSize (highestIndexedDataSegment d)
  have hraised := hindex.raiseHighWater (recordHighWater c.records)
  have hsegs : ((SegmentIndex.unreferenced maxSegmentSize
      (highestIndexedDataSegment d)).raiseHighWater (recordHighWater c.records)).segments = [0] :=
    segments_raiseHighWater _ _
  -- without an active record only the segment and blob numbers are left to bound
  refine ⟨⟨hput.putIndex hraised (fun s hs => .inr ?_) ?_ now', rfl, ?_⟩, ?_, ?_, ?_, ?_, ?_⟩
  · grind [lookup_putSeg]
  · intro r hr
    have hr : r ∈ d.active := hr
    rw [hactive] at hr
    cases hr
  · intro r hr
    rw [hactive] at hr
    cases hr
  · intro s hs b hb
    have hs : s = 0 := by
      have : s ∈ ([0] : List Nat) := hsegs ▸ hs
      simpa using this
    subst hs
    exact absurd hb (hempty b)
  · intro r hr
    exact (le_recordHighWater hok hr).trans (le_blobHighWater_raise hindex.exists_active _)
  · intro hsmall s f hf
    show s < max (satAdd64 ((highestIndexedDataSegment d).getD 0) 1) 1
    by_cases hs : s = 0
    · omega
    have hf : d.segs.lookup s = some f := by
      rw [← lookup_putSeg_ne d (.written dataLog sequence none now) hs]
      exact hf
    obtain ⟨m, hm, hle⟩ := highestIndexedDataSegment_spec hsmall hf
    have hmlt := highestIndexedDataSegment_lt hm
    rw [hm, Option.getD_some]
    unfold satAdd64 u64Max
    omega
  · intro hsmall s f hf
    by_cases hs : s = 0
    · omega
    · refine hsmall s f ?_
      rw [← lookup_putSeg_ne d (.written dataLog sequence none now) hs]
      exact hf
  · intro s hs
    have hs : s = 0 := by
      have : s ∈ ([0] : List Nat) := hsegs ▸ hs
      simpa using this
    exact .inr ⟨hactive, hs⟩

/-- What a rebuild leaves in memory. -/
structure RebuiltMem (w w' : World) : Prop where
  mem : ∃ data ci, w'.mem = { w.mem with data := data, segIndex := some ci } ∧ ci.dirty = false ∧
    ci.index = w'.disk.segIndex.index
  data : DataCoherent w'.disk w'.mem
  faults : w'.faults ⊆ w.faults

theorem rebuildWith_spec (h : DiskInv env w.disk) (hready : Ready env blkMapSlot w.disk w.mem c)
    (hdata : DataCoherent w.disk w.mem) (maxSegmentSize : Nat) :
    wp (do
        let records ← loadBlkMapRecords env
        check (records.any fun r => r.isActive && decide (r.physicalSegmentId > u32Max))
          (StorageError.corrupt "physical segment id exceeds u32")
        let index ← rebuildIndex env maxSegmentSize (referencedSegments records)
        persistSegmentIndex env (index.raiseHighWater (recordHighWater records))
        storeSegmentIndexClean (index.raiseHighWater (recordHighWater records)))
      (fun _ w' => Rebuilt env w.disk w'.disk ∧ RebuiltMem w w')
      (fun _ w' => w.faults ≠ [] ∧ RebuildCut env w.disk w'.disk) w := by
  have hok : CacheOk blkMapLog w.disk.blkMap c := hready.ok
  have hrefl : RebuildCut env w.disk w.disk := ⟨h, rfl, fun _ _ _ hp => hp⟩
  obtain ⟨hperm, -, -⟩ := referencedSegments_spec hok
  unfold loadBlkMapRecords
  simp only [wp_bind, wp_pure]
  rw [wp_iff_of_ok (ensureCacheFresh_of_ready hready), wp_check]
  refine ⟨fun hbad => ?_, fun _ => ?_⟩
  · -- an active record is in an indexed segment
    obtain ⟨r, hr, hrbad⟩ := any_eq_true.mp hbad
    rw [Bool.and_eq_true, decide_eq_true_eq] at hrbad
    have hr : r ∈ w.disk.active := mem_active.mpr ⟨hok.mem_iff.mp hr, hrbad.1⟩
    have := h.store.bound _ (h.indexed r hr)
    omega
  unfold rebuildIndex
  simp only [wp_bind, wp_get]
  cases hlast : (referencedSegments c.records).getLast? with
  | none =>
    have hactive : w.disk.active = [] := by
      have hnil := getLast?_eq_none_iff.mp hlast
      rw [hnil] at hperm
      have hnil' := hperm.symm.eq_nil
      by_contra hne
      obtain ⟨r, hr⟩ := exists_mem_of_ne_nil _ hne
      have := mem_referenced.mpr ⟨r, hr, rfl⟩
      rw [hnil'] at this
      cases this
    simp only [wp_bind, wp_pure]
    have hempty : ∀ now, RebuildCut env w.disk
        (w.disk.putSeg 0 (.written dataLog 0 none now)) := fun now =>
      ⟨h.putEmpty hactive 0 0 now, rfl, fun r hr => absurd (hactive ▸ hr) not_mem_nil⟩
    refine wp_atomicStep ?_ (fun hne => ⟨hne, hrefl⟩) (fun hne => ⟨hne, hempty _⟩)
    have hrebuilt := fun now now' => Rebuilt.unreferenced h hok hactive maxSegmentSize 0 now now'
    have hne1 : ∀ {l : List Fault}, l.tail ≠ [] → l ≠ [] := by
      intro l ht hnil
      exact ht (by rw [hnil]; rfl)
    refine wp_atomicStep ?_ (fun hne => ⟨hne1 hne, hempty _⟩)
      (fun hne => ⟨hne1 hne, (hrebuilt _ _).cut⟩)
    refine ⟨hrebuilt _ _, ⟨⟨_, _, rfl, rfl, rfl⟩, ?_, ?_⟩⟩
    swap
    · exact Subset.trans (tail_subset _) (tail_subset _)
    -- the cache of segment 0 is gone, the other segments are as they were
    intro seq cd hcd
    have hcd : (w.mem.data.erase 0).lookup seq = some cd := hcd
    by_cases hseq : seq = 0
    · subst hseq
      exact absurd hcd (by simp)
    · rw [AList.lookup_erase_ne hseq] at hcd
      obtain ⟨f, hf, hblobs⟩ := hdata seq cd hcd
      exact ⟨f, (lookup_putSeg_ne w.disk _ hseq).trans hf, hblobs⟩
  | some active =>
    obtain ⟨descs, hdescs, -⟩ := Rebuilt.referenced h hok hlast maxSegmentSize 0
    have hrebuilt : ∀ now, Rebuilt env w.disk (w.disk.putIndex ⟨(⟨maxSegmentSize, descs,
        satAdd32 (max ((highestIndexedDataSegment w.disk).getD active) active) 1⟩ :
          SegmentIndex).raiseHighWater (recordHighWater c.records), now⟩) := by
      intro now
      obtain ⟨descs', hdescs', hr⟩ := Rebuilt.referenced h hok hlast maxSegmentSize now
      rw [hdescs] at hdescs'
      rw [Except.ok.inj hdescs']
      exact hr
    simp only [wp_bind, wp_ofExcept, hdescs, wp_pure]
    refine ⟨fun descs' hd' => ?_, fun e he => absurd he (by simp)⟩
    obtain rfl := Except.ok.inj hd'
    refine wp_atomicStep ?_ (fun hne => ⟨hne, hrefl⟩) (fun hne => ⟨hne, (hrebuilt _).cut⟩)
    exact ⟨hrebuilt _, ⟨⟨_, _, rfl, rfl, rfl⟩, hdata, tail_subset _⟩⟩

/-- **Rebuilding the segment index.** -/
theorem rebuildSegmentIndexFromBlkMap_spec (h : DiskInv env w.disk)
    (hready : Ready env blkMapSlot w.disk w.mem c) (hdata : DataCoherent w.disk w.mem) :
    wp (rebuildSegmentIndexFromBlkMap env)
      (fun _ w' => Rebuilt env w.disk w'.disk ∧ RebuiltMem w w')
      (fun _ w' => w.faults ≠ [] ∧ RebuildCut env w.disk w'.disk) w := by
  unfold rebuildSegmentIndexFromBlkMap loadSegmentIndex
  simp only [wp_bind, wp_attempt, wp_get, wp_ofExcept]
  refine ⟨fun i _ => ?_, fun e _ => ?_⟩
  · simpa only [wp_bind] using rebuildWith_spec h hready hdata i.maxSegmentSize
  · simpa only [wp_bind] using rebuildWith_spec h hready hdata env.configuredMaxSegmentSize

end Holo.Storage
