/-
Holo.Storage.Reclaim — the reclaim candidates: block map records whose space may be freed.

Main results:
* `refreshReclaimSafety_spec`, `upsertReclaimCandidates_spec`: both succeed on files the
  decoders accept, and change the candidate file only.
-/
import Holo.Storage.MapLookup
import Mathlib.Data.List.TakeWhile

namespace Holo.Storage

open Lib Program List

/-! ## §1. Which record ids the lookups name. -/

structure ReclaimReferenceInterval where
  start : Nat
  stop : Nat
  deriving Repr, DecidableEq

/-- The loop that merges sorted intervals: `last` is the interval still growing. -/
def mergeIntervals (last : ReclaimReferenceInterval) :
    List ReclaimReferenceInterval → List ReclaimReferenceInterval
  | [] => [last]
  | i :: rest =>
    if i.start ≤ satAdd64 last.stop 1 then
      mergeIntervals { last with stop := max last.stop i.stop } rest
    else last :: mergeIntervals i rest

structure ReclaimReferenceIndex where
  intervals : List ReclaimReferenceInterval
  deriving Repr, DecidableEq

/-- `ReclaimReferenceIndex::from_lookup_records`; sorting by the pair of bounds is sorting by the
upper and then, stably, by the lower bound. -/
def ReclaimReferenceIndex.fromLookupRecords (records : List MapLookupRecord) :
    ReclaimReferenceIndex :=
  let intervals := (records.filter
    (fun l => decide (l.blkMapRefStart ≤ l.blkMapRefEnd))).map
      (fun l => ⟨l.blkMapRefStart, l.blkMapRefEnd⟩)
  match sortByKey (·.start) (sortByKey (·.stop) intervals) with
  | [] => ⟨[]⟩
  | i :: rest => ⟨mergeIntervals i rest⟩

/-- `ReclaimReferenceIndex::contains`: an interval starts at the id, or the one before the place
where such an interval would stand reaches it. -/
def ReclaimReferenceIndex.contains (index : ReclaimReferenceIndex) (recordId : Nat) : Bool :=
  match binarySearchByKey (·.start) index.intervals recordId with
  | .ok _ => true
  | .error 0 => false
  | .error (n + 1) => match index.intervals[n]? with
    | none => false
    | some i => decide (recordId ≤ i.stop)

/-- The interval holds an id. -/
def ReclaimReferenceInterval.Holds (i : ReclaimReferenceInterval) (n : Nat) : Prop :=
  i.start ≤ n ∧ n ≤ i.stop

/-- Intervals that do not touch, in ascending order. -/
def Apart (l : List ReclaimReferenceInterval) : Prop :=
  (∀ i ∈ l, i.start ≤ i.stop) ∧ l.Pairwise (·.stop < ·.start)

/-- **Merging** sorted intervals keeps what they hold, and leaves them apart. -/
theorem mergeIntervals_spec : ∀ (rest : List ReclaimReferenceInterval)
    (last : ReclaimReferenceInterval), SortedBy (·.start) (last :: rest) →
    (∀ i ∈ last :: rest, i.start ≤ i.stop ∧ i.stop ≤ u64Max) →
    Apart (mergeIntervals last rest) ∧ (∀ i ∈ mergeIntervals last rest, last.start ≤ i.start) ∧
      ∀ n, (∃ i ∈ mergeIntervals last rest, i.Holds n) ↔ ∃ i ∈ last :: rest, i.Holds n
  | [], last, _, hfit => by
    refine ⟨⟨fun i hi => (hfit i hi).1, pairwise_singleton _ _⟩, fun i hi => ?_, fun n => Iff.rfl⟩
    rw [mem_singleton.mp hi]
  | i :: rest, last, hsorted, hfit => by
    obtain ⟨hfirst, hrest⟩ := pairwise_cons.mp hsorted
    obtain ⟨hlast, hfits⟩ := forall_mem_cons.mp hfit
    obtain ⟨hi, hfits'⟩ := forall_mem_cons.mp hfits
    have hle : last.start ≤ i.start := hfirst i mem_cons_self
    rw [mergeIntervals]
    split
    · next hnear =>
      -- the two intervals hold together what the longer one holds
      have hjoin : ∀ n, (ReclaimReferenceInterval.mk last.start (max last.stop i.stop)).Holds n ↔
          last.Holds n ∨ i.Holds n := by
        intro n
        unfold satAdd64 at hnear
        unfold ReclaimReferenceInterval.Holds
        dsimp only
        omega
      obtain ⟨hapart, hfrom, hsame⟩ := mergeIntervals_spec rest
        { last with stop := max last.stop i.stop }
        (pairwise_cons.mpr
          ⟨fun j hj => hfirst j (mem_cons_of_mem _ hj), (pairwise_cons.mp hrest).2⟩)
        (forall_mem_cons.mpr ⟨⟨le_max_of_le_left hlast.1, max_le hlast.2 hi.2⟩, hfits'⟩)
      refine ⟨hapart, hfrom, fun n => (hsame n).trans ?_⟩
      simp only [exists_mem_cons_iff, hjoin, or_assoc]
    · next hfar =>
      obtain ⟨hapart, hfrom, hsame⟩ := mergeIntervals_spec rest i hrest hfits
      have hgap : last.stop < i.start := by
        unfold satAdd64 at hfar
        omega
      refine ⟨⟨forall_mem_cons.mpr ⟨hlast.1, hapart.1⟩, pairwise_cons.mpr
        ⟨fun j hj => hgap.trans_le (hfrom j hj), hapart.2⟩⟩, forall_mem_cons.mpr
        ⟨le_rfl, fun j hj => hle.trans (hfrom j hj)⟩, fun n => ?_⟩
      rw [exists_mem_cons_iff, hsame]
      exact (exists_mem_cons_iff (·.Holds n) last _).symm

/-- **Searching** intervals that are apart by their starts. -/
theorem contains_iff_of_apart {l : List ReclaimReferenceInterval} (h : Apart l) (n : Nat) :
    (ReclaimReferenceIndex.mk l).contains n = true ↔ ∃ i ∈ l, i.Holds n := by
  have hsorted : (l.map (·.start)).Pairwise (· < ·) := by
    refine pairwise_map.mpr (h.2.imp_of_mem fun {i j} hi _ hlt => ?_)
    exact (h.1 i hi).trans_lt hlt
  unfold ReclaimReferenceIndex.contains
  dsimp only
  cases hsearch : binarySearchByKey (·.start) l n with
  | ok place =>
    obtain ⟨i, hi, heq⟩ := binarySearchByKey_ok hsearch
    have hmem := mem_of_getElem? hi
    exact iff_of_true rfl ⟨i, hmem, heq.le, heq ▸ h.1 i hmem⟩
  | error place =>
    obtain ⟨hplace, hsides⟩ := binarySearchByKey_error hsorted hsearch
    -- an interval that holds the id starts before it
    have hbefore : ∀ (j : Nat) i, l[j]? = some i → i.Holds n → j < place := by
      intro j i hj hn
      by_contra hle
      exact absurd ((hsides j i hj).2 (Nat.le_of_not_lt hle)) (Nat.not_lt.mpr hn.1)
    cases place with
    | zero =>
      refine iff_of_false Bool.false_ne_true fun ⟨i, hi, hn⟩ => ?_
      obtain ⟨j, hj⟩ := getElem?_of_mem hi
      exact Nat.not_lt_zero j (hbefore j i hj hn)
    | succ m =>
      have hm : l[m]? = some l[m] := getElem?_eq_getElem hplace
      simp only [hm, decide_eq_true_eq]
      have hstart := (hsides m _ hm).1 (Nat.lt_succ_self m)
      refine ⟨fun hle => ⟨l[m], getElem_mem hplace, hstart.le, hle⟩, ?_⟩
      rintro ⟨i, hi, hn⟩
      obtain ⟨j, hj⟩ := getElem?_of_mem hi
      rcases Nat.eq_or_lt_of_le (Nat.le_of_lt_succ (hbefore j i hj hn)) with rfl | hlt
      · cases hj.symm.trans hm
        exact hn.2
      · -- an interval further to the front ends before the last one starts
        obtain ⟨hjl, rfl⟩ := List.getElem?_eq_some_iff.mp hj
        have hgap := pairwise_iff_getElem.mp h.2 j m hjl hplace hlt
        exact absurd (hn.2.trans_lt hgap) (by omega)

/-- **The index answers as a look at every record would.** -/
theorem reclaim_references_exact {records : List MapLookupRecord}
    (hfit : ∀ l ∈ records, l.blkMapRefEnd ≤ u64Max) (recordId : Nat) :
    (ReclaimReferenceIndex.fromLookupRecords records).contains recordId = true ↔
      ∃ l ∈ records, l.blkMapRefStart ≤ recordId ∧ recordId ≤ l.blkMapRefEnd := by
  generalize hall : (records.filter fun l => decide (l.blkMapRefStart ≤ l.blkMapRefEnd)).map
    (fun l => ReclaimReferenceInterval.mk l.blkMapRefStart l.blkMapRefEnd) = intervals
  have hperm := (sortByKey_perm (·.start) _).trans (sortByKey_perm (·.stop) intervals)
  have hsorted := sortByKey_sorted (·.start) (sortByKey (·.stop) intervals)
  have hfits : ∀ i ∈ intervals, i.start ≤ i.stop ∧ i.stop ≤ u64Max := by
    rw [← hall]
    intro i hi
    obtain ⟨l, hl, rfl⟩ := mem_map.mp hi
    obtain ⟨hl, hle⟩ := mem_filter.mp hl
    exact ⟨by simpa using hle, hfit l hl⟩
  -- ranges that end before they start hold nothing, so that leaving them out is right
  have hholds : (∃ i ∈ intervals, i.Holds recordId) ↔
      ∃ l ∈ records, l.blkMapRefStart ≤ recordId ∧ recordId ≤ l.blkMapRefEnd := by
    rw [← hall]
    simp only [mem_map, mem_filter, decide_eq_true_eq]
    constructor
    · rintro ⟨_, ⟨l, ⟨hl, -⟩, rfl⟩, hn⟩
      exact ⟨l, hl, hn⟩
    · rintro ⟨l, hl, hn⟩
      exact ⟨_, ⟨l, ⟨hl, hn.1.trans hn.2⟩, rfl⟩, hn⟩
  rw [← hholds]
  unfold ReclaimReferenceIndex.fromLookupRecords
  dsimp only
  rw [hall]
  cases hsort : sortByKey (·.start) (sortByKey (·.stop) intervals) with
  | nil =>
    rw [hsort] at hperm
    rw [nil_perm.mp hperm]
    exact contains_iff_of_apart ⟨by simp, Pairwise.nil⟩ recordId
  | cons i rest =>
    -- merging keeps what is held, and leaves the intervals apart
    rw [hsort] at hperm hsorted
    obtain ⟨hapart, -, hsame⟩ := mergeIntervals_spec rest i hsorted
      fun j hj => hfits j (hperm.mem_iff.mp hj)
    dsimp only
    rw [contains_iff_of_apart hapart, hsame]
    exact exists_congr fun j => and_congr_left' hperm.mem_iff

theorem reclaim_references_exact_limits :
    (ReclaimReferenceIndex.fromLookupRecords
      [⟨1, 0, 0, 5, u64Max⟩, ⟨2, 0, 0, 9, 3⟩, ⟨3, 0, 0, 1, 2⟩]).contains u64Max = true :=
  (reclaim_references_exact (by decide) u64Max).mpr (by decide)

/-! ## §2. The candidate file. -/

/-- The disk with the candidate file replaced. -/
def Disk.putReclaim (d : Disk) (candidates : Option (List ReclaimCandidate)) : Disk :=
  { d with reclaim := candidates }

/-- The size of the candidate file. -/
def reclaimLen : Option (List ReclaimCandidate) → Nat
  | none => segmentHeaderV2TotalSize
  | some candidates => segmentHeaderV2TotalSize + (8 + 25 * candidates.length)

def loadReclaimCandidates : StorageM (List ReclaimCandidate) := do
  let w ← get
  check (reclaimLen w.disk.reclaim > maxMaintenanceMetadataBytes) .metadataBudgetExceeded
  let candidates := w.disk.reclaim.getD []
  let _ ← ofExcept (checkedMetadataRecordCount candidates.length)
  return candidates

section

variable (env : Env) (references : ReclaimReferenceIndex)

def persistCandidates (candidates : List ReclaimCandidate) : StorageM Unit :=
  atomicStep env fun _ d => d.putReclaim (some candidates)

/-- One record id entered by `upsert_reclaim_candidates`. -/
def upsertCandidate (reason : ReclaimReason)
    (candidates : List ReclaimCandidate) (recordId : Nat) : List ReclaimCandidate :=
  let safe := !references.contains recordId
  if candidates.any (fun c => decide (c.blkMapRecordId = recordId)) then
    modifyFirst (fun c => decide (c.blkMapRecordId = recordId))
      (fun c => { c with reason := reason, safeToReclaim := safe }) candidates
  else
    candidates ++ [{ candidateId := (candidates.getLast?.map (·.candidateId + 1)).getD 1
                     blkMapRecordId := recordId
                     reason := reason
                     safeToReclaim := safe }]

def upsertReclaimCandidates (recordIds : List Nat) (reason : ReclaimReason) : StorageM Unit := do
  if recordIds = [] then return ()
  else
    let lookups ← loadLookupRecords env
    let references := ReclaimReferenceIndex.fromLookupRecords lookups
    let candidates ← loadReclaimCandidates
    persistCandidates env (recordIds.foldl (upsertCandidate references reason) candidates)

/-- A candidate with its safety computed anew. -/
def ReclaimCandidate.refreshed (c : ReclaimCandidate) :
    ReclaimCandidate := { c with safeToReclaim := !references.contains c.blkMapRecordId }

/-- `refresh_reclaim_safety`: how many candidates changed. -/
def refreshReclaimSafety : StorageM Nat := do
  let lookups ← loadLookupRecords env
  let references := ReclaimReferenceIndex.fromLookupRecords lookups
  let candidates ← loadReclaimCandidates
  persistCandidates env (candidates.map (·.refreshed references))
  return (candidates.filter
    (fun c => decide (c.safeToReclaim ≠ !references.contains c.blkMapRecordId))).length

end

/-! ## §3. Specifications. -/

variable {env : Env}
variable {w : World}

section

variable (candidates : Option (List ReclaimCandidate))

/-- The decoder accepts the candidate file. -/
def ReclaimLoadable : Prop :=
  (candidates.getD []).length ≤ maxMaintenanceMetadataRecords

end

theorem reclaimLen_le {candidates : Option (List ReclaimCandidate)}
    (h : ReclaimLoadable candidates) : reclaimLen candidates ≤ maxMaintenanceMetadataBytes := by
  cases candidates with
  | none => decide
  | some cs =>
    have hlen : cs.length ≤ 65536 := h
    have hsize : reclaimLen (some cs) = 96 + (8 + 25 * cs.length) := rfl
    unfold maxMaintenanceMetadataBytes
    omega

theorem loadReclaimCandidates_spec : wp loadReclaimCandidates
      (fun cs w' => w' = w ∧ cs = w.disk.reclaim.getD [] ∧ ReclaimLoadable w.disk.reclaim)
      (fun _ w' => w' = w ∧ ¬ ReclaimLoadable w.disk.reclaim) w := by
  unfold loadReclaimCandidates checkedMetadataRecordCount
  simp only [wp_bind, wp_get, wp_check, wp_pure]
  refine ⟨fun hbig => ⟨trivial, fun hload => absurd (reclaimLen_le hload) (not_le.mpr hbig)⟩,
    fun _ => ?_⟩
  rw [wp_ofExcept]
  refine ⟨fun n h => ?_, fun e h => ?_⟩
  · split at h
    next => cases h
    next hle => exact ⟨rfl, trivial, not_lt.mp hle⟩
  · split at h
    next hgt => exact ⟨rfl, not_le.mpr hgt⟩
    next => cases h

/-- Only the candidate file and what is cached of the lookups differ; the lookups are cached. -/
structure ReclaimPut (env : Env) (w w' : World) (cs : List ReclaimCandidate) : Prop where
  disk : w'.disk = w.disk.putReclaim (some cs)
  mem : ∃ c, w'.mem = lookupSlot.setCache w.mem c
  ready : ∃ c, Ready env lookupSlot w'.disk w'.mem c
  faults : w'.faults ⊆ w.faults

theorem ReclaimPut.coherent {w' : World} {cs : List ReclaimCandidate}
    (h : ReclaimPut env w w' cs) : Coherent lookupSlot w'.disk w'.mem := by
  obtain ⟨c, hready⟩ := h.ready
  exact hready.coherent

/-- What a failed change of the candidates leaves: a fault cut it, or one of the two files it
reads is not accepted. -/
def ReclaimFailed (w w' : World) : Prop :=
  (w.faults ≠ [] ∧ ∃ cs, w'.disk = w.disk.putReclaim cs) ∨
    (w'.disk = w.disk ∧
      (¬ w.disk.lookup.Loadable lookupLog ∨ ¬ ReclaimLoadable w.disk.reclaim))

/-- The part the two share: the lookups and the candidates are read, new candidates written. -/
theorem reclaimStep_spec (env : Env) (h : Coherent lookupSlot w.disk w.mem)
    (f : List MapLookupRecord → List ReclaimCandidate → List ReclaimCandidate) :
    wp (do
        let lookups ← loadLookupRecords env
        let candidates ← loadReclaimCandidates
        persistCandidates env (f lookups candidates))
      (fun _ w' => ∃ lookups, ReclaimPut env w w' (f lookups (w.disk.reclaim.getD [])))
      (fun _ w' => ReclaimFailed w w') w := by
  unfold loadLookupRecords persistCandidates
  rw [wp_bind]
  refine h.bind_fresh (fun hbad _ => .inr ⟨rfl, .inl hbad⟩) fun c hready => ?_
  simp only [wp_bind, wp_pure]
  refine wp_mono loadReclaimCandidates_spec ?_ ?_
  · rintro cs w2 ⟨rfl, rfl, -⟩
    refine wp_atomicStep ?_ (fun hf => .inl ⟨hf, w.disk.reclaim, rfl⟩)
      (fun hf => .inl ⟨hf, some _, rfl⟩)
    exact ⟨c.records, rfl, ⟨some c, rfl⟩, ⟨c, hready.cached, hready.ok, hready.fresh⟩,
      tail_subset _⟩
  · rintro _ w2 ⟨rfl, hbad⟩
    exact .inr ⟨rfl, .inr hbad⟩

/-- **Refreshing** keeps the candidates and recomputes their safety. -/
theorem refreshReclaimSafety_spec (h : Coherent lookupSlot w.disk w.mem) :
    wp (refreshReclaimSafety env)
      (fun _ w' => ∃ cs, ReclaimPut env w w' cs ∧ cs.length = (w.disk.reclaim.getD []).length)
      (fun _ w' => ReclaimFailed w w') w := by
  have hstep := reclaimStep_spec env h
    (fun lookups cs => cs.map (·.refreshed (.fromLookupRecords lookups)))
  unfold refreshReclaimSafety
  simp only [wp_bind, wp_pure] at hstep ⊢
  refine wp_mono hstep (fun lookups w1 hload => wp_mono hload (fun cs w2 hpersist =>
    wp_mono hpersist ?_ (fun _ _ he => he)) (fun _ _ he => he)) (fun _ _ he => he)
  rintro _ w' ⟨ls, hput⟩
  exact ⟨_, hput, length_map _⟩

theorem length_upsertCandidate_le (references : ReclaimReferenceIndex) (reason : ReclaimReason)
    (cs : List ReclaimCandidate) (id : Nat) :
    (upsertCandidate references reason cs id).length ≤ cs.length + 1 := by
  unfold upsertCandidate
  simp only
  split
  next =>
    have hmap := map_modifyFirst (p := fun c : ReclaimCandidate => decide (c.blkMapRecordId = id))
      (f := fun c => { c with reason := reason, safeToReclaim := !references.contains id })
      (g := fun _ => ()) (fun _ _ => rfl) cs
    simp_all
  next => simp

theorem length_foldl_upsertCandidate_le (references : ReclaimReferenceIndex)
    (reason : ReclaimReason) : ∀ (ids : List Nat) (cs : List ReclaimCandidate),
    (ids.foldl (upsertCandidate references reason) cs).length ≤ cs.length + ids.length
  | [], cs => by simp
  | id :: ids, cs => by
    have hrec := length_foldl_upsertCandidate_le references reason ids
      (upsertCandidate references reason cs id)
    grind [length_upsertCandidate_le]

/-- **Entering candidates** adds at most one for each record id. -/
theorem upsertReclaimCandidates_spec (h : Coherent lookupSlot w.disk w.mem)
    {ids : List Nat} (hne : ids ≠ []) (reason : ReclaimReason) :
    wp (upsertReclaimCandidates env ids reason) (fun _ w' => ∃ cs, ReclaimPut env w w' cs ∧
        cs.length ≤ (w.disk.reclaim.getD []).length + ids.length)
      (fun _ w' => ReclaimFailed w w') w := by
  unfold upsertReclaimCandidates
  rw [if_neg hne]
  refine wp_mono (reclaimStep_spec env h (fun lookups cs =>
    ids.foldl (upsertCandidate (.fromLookupRecords lookups) reason) cs)) ?_ (fun _ _ he => he)
  rintro _ w' ⟨lookups, hput⟩
  exact ⟨_, hput, length_foldl_upsertCandidate_le _ _ _ _⟩

end Holo.Storage
