/-
Holo.Storage.SegmentIndex — the index of the data segments.

One descriptor per data segment file; one of them is ACTIVE and takes new blobs.  The
blob ids handed out come from the descriptors: one more than the largest
`last_blob_id`.

Main results:
* `blobHighWater_recordBlobAppend`: recording a fresh blob raises the high water to it;
* `nextBlobId_eq`: the id handed out is one above the high water.
-/
import Mathlib.Data.List.MinMax
import Holo.Lib.RecordLog
import Holo.Storage.Records

namespace Holo.Storage

open Lib List

/-! ## §1. Descriptors and the index. -/

inductive SegmentState where
  | active | sealed | compacting | reclaimable
  deriving Repr, DecidableEq

structure SegmentDescriptor where
  segmentSeq : Nat
  payloadBytes : Nat
  firstBlobId : Nat
  lastBlobId : Nat
  state : SegmentState
  compression : CompressionCodec
  liveBytes : Nat
  deriving Repr, DecidableEq

section

variable (i : SegmentIndex) (d : SegmentDescriptor) (blobId : Nat)

/-- `SegmentDescriptor::contains_blob`: a first id of zero marks an empty segment. -/
def SegmentDescriptor.containsBlob : Prop :=
  0 < d.firstBlobId ∧ d.firstBlobId ≤ blobId ∧ blobId ≤ d.lastBlobId

instance : Decidable (d.containsBlob blobId) :=
  inferInstanceAs (Decidable (_ ∧ _ ∧ _))

structure SegmentIndex where
  maxSegmentSize : Nat
  descriptors : List SegmentDescriptor
  nextSegmentSeq : Nat
  deriving Repr, DecidableEq

/-- A descriptor of a segment that holds no blob yet. -/
def SegmentDescriptor.fresh (seq : Nat) : SegmentDescriptor where
  segmentSeq := seq
  payloadBytes := 0
  firstBlobId := 0
  lastBlobId := 0
  state := .active
  compression := .none
  liveBytes := 0

def SegmentIndex.new (maxSegmentSize : Nat) : SegmentIndex where
  maxSegmentSize := maxSegmentSize
  descriptors := [.fresh 0]
  nextSegmentSeq := 1

def SegmentIndex.activeDescriptor : Option SegmentDescriptor :=
  i.descriptors.find? (fun d => d.state = .active)

def SegmentIndex.descriptorForSegment (segmentId : Nat) : Option SegmentDescriptor :=
  i.descriptors.find? (fun d => d.segmentSeq = segmentId)

def SegmentIndex.descriptorForBlob : Option SegmentDescriptor :=
  i.descriptors.find? (fun d => d.containsBlob blobId)

/-- The numbers of the indexed segments. -/
def SegmentIndex.segments : List Nat := i.descriptors.map (·.segmentSeq)

/-- The largest `last_blob_id` of the index. -/
def SegmentIndex.blobHighWater : Nat :=
  (i.descriptors.map (·.lastBlobId)).foldr max 0

def nextBlobId : Except StorageError Nat :=
  match checkedAdd64 i.blobHighWater 1 with
  | some id => .ok id
  | none => .error (.conflict "data blob ID space is exhausted")

/-- The change `record_blob_append` makes to its descriptor. -/
def SegmentDescriptor.recordBlob (payloadBytes blobId storedLen : Nat)
    (codec : CompressionCodec) : SegmentDescriptor :=
  { d with
    payloadBytes := payloadBytes
    firstBlobId := if d.firstBlobId = 0 ∨ blobId < d.firstBlobId then blobId else d.firstBlobId
    lastBlobId := if blobId > d.lastBlobId then blobId else d.lastBlobId
    liveBytes := satAdd32 d.liveBytes storedLen
    compression := if codec ≠ .none then codec else d.compression }

def recordBlobAppend (segmentSeq payloadBytes blobId storedLen : Nat)
    (codec : CompressionCodec) : Except StorageError SegmentIndex :=
  if i.descriptors.any (fun d => d.segmentSeq = segmentSeq) then
    .ok { i with
      descriptors := modifyFirst (fun d => d.segmentSeq = segmentSeq)
        (fun d => d.recordBlob payloadBytes blobId storedLen codec) i.descriptors }
  else .error (.notFound "segment descriptor not found")

/-- Whether `prepare_active_segment_for_append` starts a new segment. -/
def SegmentIndex.shouldRotate (active : SegmentDescriptor) (recordLen tagLen : Nat) : Bool :=
  let tag := if active.payloadBytes = 0 then tagLen else 0
  let projected := satAdd64 (satAdd64 active.payloadBytes tag) recordLen
  decide (0 < active.payloadBytes ∧ projected > i.maxSegmentSize)

/-- The index `rotate_active_segment` persists: the active segment sealed, a fresh one added. -/
def SegmentIndex.rotated (seq : Nat) : SegmentIndex :=
  { i with
    descriptors := modifyFirst (fun d => d.state = .active) (fun d => { d with state := .sealed })
      i.descriptors ++ [.fresh seq]
    nextSegmentSeq := i.nextSegmentSeq + 1 }

/-- Bytes of the index file. -/
def SegmentIndex.fileLen : Nat := 96 + (24 + 40 * i.descriptors.length)

end

/-! ## §2. Lemmas. -/

variable {i : SegmentIndex} {id : Nat} {codec : CompressionCodec}

theorem SegmentIndex.lastBlobId_le {d : SegmentDescriptor} (h : d ∈ i.descriptors) :
    d.lastBlobId ≤ i.blobHighWater :=
  le_max_of_le (mem_map_of_mem h) le_rfl

theorem nextBlobId_eq (h : nextBlobId i = .ok id) : id = i.blobHighWater + 1 ∧ id ≤ u64Max := by
  unfold nextBlobId at h
  split at h
  next id' hadd =>
    injection h with h
    subst h
    obtain ⟨rfl, hle⟩ := checkedAdd64_eq_some hadd
    exact ⟨rfl, hle⟩
  next => cases h

/-- What a recorded blob leaves of the index: same segments, same sizes, high water at the
blob if its id is fresh. -/
theorem recordBlobAppend_ok {i i' : SegmentIndex} {seq bytes id len : Nat}
    (h : recordBlobAppend i seq bytes id len codec = .ok i') :
    seq ∈ i.segments ∧ i'.segments = i.segments ∧ i'.maxSegmentSize = i.maxSegmentSize ∧
      i'.nextSegmentSeq = i.nextSegmentSeq ∧
      i'.descriptors = modifyFirst (fun d => d.segmentSeq = seq)
        (fun d => d.recordBlob bytes id len codec) i.descriptors := by
  unfold recordBlobAppend at h
  split at h
  next hany =>
    injection h with h
    subst h
    have hmap := map_modifyFirst (p := fun d : SegmentDescriptor => decide (d.segmentSeq = seq))
      (f := fun d => d.recordBlob bytes id len codec) (g := (·.segmentSeq)) (fun _ _ => rfl)
      i.descriptors
    refine ⟨?_, hmap, rfl, rfl, rfl⟩
    obtain ⟨d, hd, hseq⟩ := any_eq_true.mp hany
    exact mem_map.mpr ⟨d, hd, by simpa using hseq⟩
  next => cases h

/-- **Recording a blob with a fresh id raises the high water to it.** -/
theorem blobHighWater_recordBlobAppend {i i' : SegmentIndex} {seq bytes id len : Nat}
    (h : recordBlobAppend i seq bytes id len codec = .ok i') (hfresh : i.blobHighWater < id) :
    i'.blobHighWater = id := by
  obtain ⟨hseq, -, -, -, hdesc⟩ := recordBlobAppend_ok h
  obtain ⟨d0, hd0, hseq0⟩ := mem_map.mp hseq
  have hany : i.descriptors.any (fun d => decide (d.segmentSeq = seq)) = true :=
    any_eq_true.mpr ⟨d0, hd0, by simpa using hseq0⟩
  apply le_antisymm
  · apply max_le_of_forall_le
    intro n hn
    obtain ⟨d, hd, rfl⟩ := mem_map.mp hn
    rw [hdesc] at hd
    rcases mem_modifyFirst hd with hd | ⟨y, hy, -, rfl⟩
    · exact le_trans (SegmentIndex.lastBlobId_le hd) hfresh.le
    · have := SegmentIndex.lastBlobId_le hy
      simp only [SegmentDescriptor.recordBlob]
      split <;> omega
  obtain ⟨y, hy, -, hmem⟩ := exists_mem_modifyFirst
    (f := fun d => d.recordBlob bytes id len codec) hany
  rw [← hdesc] at hmem
  have hlast : (y.recordBlob bytes id len codec).lastBlobId = id := by
    have := SegmentIndex.lastBlobId_le hy
    simp only [SegmentDescriptor.recordBlob]
    rw [if_pos (by omega)]
  rw [← hlast]
  exact SegmentIndex.lastBlobId_le hmem

theorem SegmentIndex.segments_rotated (i : SegmentIndex) (seq : Nat) :
    (i.rotated seq).segments = i.segments ++ [seq] := by
  have hmap := map_modifyFirst (p := fun d : SegmentDescriptor => decide (d.state = .active))
    (f := fun d => { d with state := .sealed }) (g := (·.segmentSeq)) (fun _ _ => rfl) i.descriptors
  simp only [rotated, segments, map_append, hmap, map_cons, map_nil]
  rfl

/-- Rotation keeps the high water. -/
theorem SegmentIndex.blobHighWater_rotated (i : SegmentIndex) (seq : Nat) :
    (i.rotated seq).blobHighWater = i.blobHighWater := by
  have hmap := map_modifyFirst (p := fun d : SegmentDescriptor => decide (d.state = .active))
    (f := fun d => { d with state := .sealed }) (g := (·.lastBlobId)) (fun _ _ => rfl) i.descriptors
  simp only [rotated, blobHighWater, map_append, hmap, foldr_append, map_cons,
    map_nil, foldr_cons, foldr_nil]
  rfl

end Holo.Storage
