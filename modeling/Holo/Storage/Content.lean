/-
Holo.Storage.Content — the blocks a layout holds.

Above the block map, the logs and the segments a layout is a set of blocks: where each one
starts, what it holds and how many filemarks were counted before it.  `Disk.HasBlock` reads
that set off the disk, `Recorded` says that a list of blocks, in the order they lie on the
tape, is all of it.

Main results:
* `Added.hasBlock`, `Unmapped.hasBlock`: what the operations do to the set;
* `Recorded.added`, `Recorded.unmapped`, `Recorded.blank`: and to the list;
* `Recorded.shows`: what a read finds.
-/
import Holo.Storage.ResetSpec

namespace Holo.Storage

open Lib Program List

variable {env : Env}

/-! ## §1. Blocks. -/

/-- A block: where it starts, what it holds, and the filemarks counted before it. -/
structure Block where
  start : Nat
  payload : Bytes
  marks : Nat
  deriving Repr, DecidableEq

section

variable (b : Block) (position : Nat)

/-- The position right after a block. -/
def Block.stop : Nat := b.start + b.payload.length

/-- The position lies in the block. -/
def Block.Around : Prop := b.start ≤ position ∧ position < b.stop

end

/-- The disk holds the block. -/
def Disk.HasBlock (env : Env) (d : Disk) (b : Block) : Prop :=
  ∃ r ∈ d.active, r.Holding env d b.start b.payload b.marks

variable {d d' : Disk} {r : BlkMapRecord} {start marks : Nat} {p : Bytes} {b : Block}

variable {payload : Bytes}

section

variable (h : DiskInv env d)
include h

theorem DiskInv.holding (hr : r ∈ d.active) :
    ∃ p, r.Holding env d r.logicalStart p r.filemarkCount := by
  obtain ⟨p, hp⟩ := h.readable r hr
  exact ⟨p, (Disk.mem_active.mp hr).2, rfl, hp.stored.length.symm, rfl, hp⟩

theorem DiskInv.exists_block (hr : r ∈ d.active) :
    ∃ b, d.HasBlock env b ∧ b.start = r.logicalStart ∧ b.payload.length = r.logicalLen ∧
      b.marks = r.filemarkCount := by
  obtain ⟨p, hp⟩ := h.holding hr
  exact ⟨⟨r.logicalStart, p, r.filemarkCount⟩, ⟨r, hr, hp⟩, rfl, hp.len_eq.symm, rfl⟩

theorem BlkMapRecord.Holding.unique {start start' marks marks' : Nat}
    {p p' : Bytes} (hp : r.Holding env d start p marks) (hp' : r.Holding env d start' p' marks') :
    start = start' ∧ p = p' ∧ marks = marks' :=
  ⟨hp.start_eq.symm.trans hp'.start_eq, hp.readable.stored.unique h.store.segs hp'.readable.stored,
    hp.marks_eq.symm.trans hp'.marks_eq⟩

omit h in
theorem BlkMapRecord.Holding.grow (h : r.Holding env d start p marks) (hgrow : SegsGrow d d') :
    r.Holding env d' start p marks :=
  ⟨h.active, h.start_eq, h.len_eq, h.marks_eq, h.readable.mono hgrow⟩

/-- A record both disks have holds the same on both. -/
theorem DiskInv.holding_iff (h' : DiskInv env d') (hgrow : SegsGrow d d')
    (hr : r ∈ d.active) : r.Holding env d' start p marks ↔ r.Holding env d start p marks := by
  refine ⟨fun hp => ?_, fun hp => hp.grow hgrow⟩
  -- the record holds something on the old disk, and growing keeps it
  obtain ⟨q, hq⟩ := h.holding hr
  obtain ⟨rfl, rfl, rfl⟩ := hp.unique h' (hq.grow hgrow)
  exact hq

/-- **One more block.** -/
theorem Added.hasBlock (ha : Added env d d' start payload marks) (h' : DiskInv env d') (b : Block) :
    d'.HasBlock env b ↔ b = ⟨start, payload, marks⟩ ∨ d.HasBlock env b := by
  obtain ⟨new, hact, hnew⟩ := ha.exists_record
  constructor
  · intro hout
    obtain ⟨r, hr, hold⟩ := hout
    rcases (hact r).mp hr with rfl | hr0
    · obtain ⟨hs, hp, hm⟩ := hold.unique h' hnew
      cases b
      simp_all
    · exact .inr ⟨r, hr0, (h.holding_iff h' ha.grow hr0).mp hold⟩
  · intro hb
    rcases hb with rfl | ⟨r, hr, hold⟩
    · exact ⟨new, (hact new).mpr (.inl rfl), hnew⟩
    · exact ⟨r, (hact r).mpr (.inr hr), hold.grow ha.grow⟩

theorem DiskInv.hasBlock_fits (hb : d.HasBlock env b) : b.payload ≠ [] ∧ b.stop ≤ u64Max := by
  obtain ⟨r, hr, hold⟩ := hb
  obtain ⟨hmem, hact⟩ := Disk.mem_active.mp hr
  have hpos := h.extents.pos r hmem hact
  have hbound := h.extents.bound r hmem hact
  rw [hold.len_eq] at hpos hbound
  rw [hold.start_eq] at hbound
  exact ⟨ne_nil_of_length_pos hpos, hbound⟩

theorem BlkMapRecord.Holding.logicalEnd (hr : r ∈ d.active)
    (hold : r.Holding env d b.start b.payload b.marks) : r.logicalEnd = b.stop := by
  obtain ⟨-, hbound⟩ := h.hasBlock_fits ⟨r, hr, hold⟩
  unfold BlkMapRecord.logicalEnd
  rw [hold.start_eq, hold.len_eq, satAdd64_eq hbound]
  rfl

/-- **The blocks that meet a range are gone.** -/
theorem Unmapped.hasBlock {start stop : Nat} (hu : Unmapped d d' start stop)
    (h' : DiskInv env d') (b : Block) :
    d'.HasBlock env b ↔ d.HasBlock env b ∧ ¬ (start < b.stop ∧ b.start < stop) := by
  constructor
  · intro hout
    obtain ⟨r, hr, hold⟩ := hout
    obtain ⟨hr0, hno⟩ := (hu.active r).mp hr
    have hold0 := (h.holding_iff h' hu.grow hr0).mp hold
    refine ⟨⟨r, hr0, hold0⟩, ?_⟩
    rw [← hold0.logicalEnd h hr0, ← hold0.start_eq]
    exact hno
  · intro hout
    obtain ⟨⟨r, hr, hold⟩, hno⟩ := hout
    rw [← hold.logicalEnd h hr, ← hold.start_eq] at hno
    exact ⟨r, (hu.active r).mpr ⟨hr, hno⟩, hold.grow hu.grow⟩

end

/-! ## §2. All the blocks, in order. -/

/-- These blocks, one behind the other, are what the disk holds. -/
structure Recorded (env : Env) (d : Disk) (bs : List Block) : Prop where
  ordered : bs.Pairwise fun a b => a.stop ≤ b.start
  mem : ∀ b, d.HasBlock env b ↔ b ∈ bs

variable {bs : List Block} {a : Block}

section

variable (h : Recorded env d bs)
include h

theorem Recorded.payload_ne (hinv : DiskInv env d) (hb : b ∈ bs) : b.payload ≠ [] :=
  (hinv.hasBlock_fits ((h.mem b).mpr hb)).1

theorem Recorded.start_lt (hinv : DiskInv env d) (hb : b ∈ bs) : b.start < b.stop := by
  have hpos := length_pos_iff.mpr (h.payload_ne hinv hb)
  unfold Block.stop
  omega

theorem Recorded.sameFiles (hsame : SameFiles d d') (hinv : DiskInv env d)
    (hinv' : DiskInv env d') : Recorded env d' bs := by
  have hact := hsame.active
  refine ⟨h.ordered, fun b => Iff.trans ?_ (h.mem b)⟩
  constructor
  · intro hout
    obtain ⟨r, hr, hold⟩ := hout
    rw [hact] at hr
    exact ⟨r, hr, (hinv.holding_iff hinv' hsame.grow hr).mp hold⟩
  · intro hout
    obtain ⟨r, hr, hold⟩ := hout
    exact ⟨r, hact ▸ hr, hold.grow hsame.grow⟩

theorem Recorded.added (ha : Added env d d' start payload marks) (hinv : DiskInv env d)
    (hinv' : DiskInv env d') (hend : ∀ b ∈ bs, b.stop ≤ start) :
    Recorded env d' (bs ++ [⟨start, payload, marks⟩]) := by
  refine ⟨?_, fun b => ?_⟩
  · refine pairwise_append.mpr ⟨h.ordered, pairwise_singleton _ _, fun b hb x hx => ?_⟩
    rw [mem_singleton.mp hx]
    exact hend b hb
  · rw [ha.hasBlock hinv hinv' b, h.mem b, mem_append, mem_singleton, or_comm]

theorem Recorded.unmapped {start stop : Nat} (hu : Unmapped d d' start stop)
    (hinv : DiskInv env d) (hinv' : DiskInv env d') :
    Recorded env d' (bs.filter fun b => ¬ (start < b.stop ∧ b.start < stop)) := by
  refine ⟨h.ordered.filter _, fun b => ?_⟩
  rw [hu.hasBlock hinv hinv' b, h.mem b, mem_filter, decide_eq_true_eq]

omit h in
theorem Recorded.blank (h : d.active = []) : Recorded env d [] := by
  refine ⟨Pairwise.nil, fun b => ⟨?_, fun hb => absurd hb (by simp)⟩⟩
  intro hout
  obtain ⟨r, hr, -⟩ := hout
  rw [h] at hr
  cases hr

theorem Recorded.ascending (hinv : DiskInv env d) : bs.Pairwise fun a b => a.start < b.start := by
  refine h.ordered.imp_of_mem (fun {a b} ha _ hab => ?_)
  exact lt_of_lt_of_le (h.start_lt hinv ha) hab

theorem Recorded.nodup_starts (hinv : DiskInv env d) : (bs.map Block.start).Nodup :=
  pairwise_map.mpr ((h.ascending hinv).imp (fun hab => hab.ne))

theorem Recorded.eq_of_start (hinv : DiskInv env d) (ha : a ∈ bs)
    (hb : b ∈ bs) (hs : a.start = b.start) : a = b :=
  inj_on_of_nodup_map (h.nodup_starts hinv) ha hb hs

/-- Two blocks do not overlap. -/
theorem Recorded.disjoint (ha : a ∈ bs) (hb : b ∈ bs) (hne : a ≠ b) :
    a.stop ≤ b.start ∨ b.stop ≤ a.start := by
  have hpair : bs.Pairwise fun a b => a.stop ≤ b.start ∨ b.stop ≤ a.start :=
    h.ordered.imp .inl
  have : Std.Symm fun a b : Block => a.stop ≤ b.start ∨ b.stop ≤ a.start :=
    ⟨fun _ _ hab => hab.symm⟩
  exact hpair.forall ha hb hne

/-- Blocks around the same position are the same. -/
theorem Recorded.eq_of_around {p : Nat} (ha : a ∈ bs) (hb : b ∈ bs)
    (hpa : a.Around p) (hpb : b.Around p) : a = b := by
  by_contra hne
  have := hpa.1
  have := hpa.2
  have := hpb.1
  have := hpb.2
  rcases h.disjoint ha hb hne with hle | hle
  · omega
  · omega

/-- **What reading a position shows**: the block around it. -/
theorem Recorded.shows (hinv : DiskInv env d) {position : Nat}
    {o : Option (Nat × Bytes)} (ho : d.Shows env position o) :
    (o = none ∧ ∀ b ∈ bs, ¬ b.Around position) ∨
      ∃ b ∈ bs, o = some (b.start, b.payload) ∧ b.Around position := by
  cases o with
  | none =>
    left
    refine ⟨rfl, fun b hb hin => ?_⟩
    obtain ⟨r, hr, hold⟩ := (h.mem b).mpr hb
    have hcov := ho r hr
    rw [← Bool.not_eq_true, BlkMapRecord.covers_iff, hold.logicalEnd hinv hr, hold.start_eq] at hcov
    exact hcov hin
  | some e =>
    right
    obtain ⟨start, payload⟩ := e
    obtain ⟨r, hr, hcov, rfl, hread⟩ := ho
    have hold : r.Holding env d r.logicalStart payload r.filemarkCount :=
      ⟨(Disk.mem_active.mp hr).2, rfl, hread.stored.length.symm, rfl, hread⟩
    refine ⟨⟨r.logicalStart, payload, r.filemarkCount⟩, (h.mem _).mp ⟨r, hr, hold⟩, rfl, ?_⟩
    rw [BlkMapRecord.covers_iff] at hcov
    have hend : r.logicalEnd = Block.stop ⟨r.logicalStart, payload, r.filemarkCount⟩ :=
      BlkMapRecord.Holding.logicalEnd hinv hr hold
    rw [hend] at hcov
    exact hcov

end

end Holo.Storage
