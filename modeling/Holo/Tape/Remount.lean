/-
Holo.Tape.Remount — a cartridge taken out and put back in.

The drive's index is not on disk.  A mount builds it anew: the blocks from the block map, the
filemarks from their file, and the end of data from the last block and the last filemark,
behind which it assumes one block of the default size, whatever the block mode was when the
filemark was written.

Main results:
* `Detached.reloadable_iff`: what the loaders accept, told before the cartridge is taken out;
* `reload_succeeds_iff`: a cartridge can be mounted again iff it is within their limits;
* `reload_same_places_iff`: the index is then the same iff its filemarks were in order and
  the end of data where a mount assumes it.
-/
import Holo.Tape.Runs

namespace Holo.Tape

open Lib Program Storage List

variable {env : TapeEnv} {t t' : TapeWorld} {bs : List Block}

/-! ## §1. The end of data. -/

/-- Where the last block of the index ends. -/
def TapeState.lastBlockEnd (s : TapeState) : Nat :=
  (s.blockLengths.map fun b => b.1 + b.2).foldl max 0

/-- Where a mount puts the end of data: behind the last block, and a block of the default size
behind the last filemark. -/
def TapeState.assumedEnd (s : TapeState) : Nat :=
  match s.filemarks.max? with
  | none => s.lastBlockEnd
  | some last => max s.lastBlockEnd (satAdd64 last 262144)

theorem assumedEnd_eq (h : Tracked env t bs) :
    t.tape.assumedEnd = mountedEnd 262144 bs t.tape.filemarks := by
  have hlast : t.tape.lastBlockEnd = blocksEnd bs := by
    unfold TapeState.lastBlockEnd blocksEnd
    rw [h.lengths]
    unfold lengthsOf
    rw [map_map]
    rfl
  grind [TapeState.assumedEnd, mountedEnd]

/-! ## §2. Mounting again. -/

/-- The files beside the layout once a cartridge is out and in again: the counters of the session
are written, with one more load. -/
def TapeWorld.reloadedFiles (t : TapeWorld) : RuntimeFiles :=
  { t.world.disk.runtime with usage := some (t.tape.mounted t.tape.usageCounters).usageCounters }

/-- **The limits of the loaders**, on a cartridge in the drive: at most a million filemarks and as
many segments and block map records as a loader takes, all the metadata together within 8 MiB, and
no log whose checksum has become zero. -/
structure WithinLimits (t : TapeWorld) : Prop where
  filemarks : t.tape.filemarks.length ≤ maxFilemarks
  segments : t.world.disk.segIndex.index.Loadable
  shapes : ∀ s ∈ t.world.disk.indexed, validateSegmentShape t.world.disk s = .ok ()
  blkMap : t.world.disk.blkMap.Loadable blkMapLog
  lookup : t.world.disk.lookup.Intact lookupLog
  dedup : t.world.disk.dedup.Intact dedupLog
  sizes : existingBytes (metadataFileSizes { t.world.disk with runtime := t.reloadedFiles }) ≤
    maxMaintenanceMetadataBytes

variable {t₁ : TapeWorld}

/-- A cartridge that was taken out has the files it had in the drive. -/
theorem Detached.sameForLoaders (hd : Detached env t t₁ bs) (h : Tracked env t bs) :
    SameForLoaders t.world.disk t₁.world.disk := by
  obtain ⟨b, w, rt, hflush, hdisk⟩ := hd.flushed
  have hsame := flushPendingWrites_sameForLoaders h.inv.ok hflush
  rw [hdisk]
  exact ⟨⟨hsame.files.segs, hsame.files.blkMap, hsame.files.lookup, hsame.files.dedup⟩,
    hsame.shape, hsame.reclaim⟩

/-- **The loaders accept a cartridge that was taken out** iff it was within their limits before. -/
theorem Detached.reloadable_iff (hd : Detached env t t₁ bs) (h : Tracked env t bs)
    (hcalm : t.world.faults = []) : Reloadable t₁ ↔ WithinLimits t := by
  have hsame := hd.sameForLoaders h
  have hblk := (LogFile.loaded_sync (k := blkMapLog) hsame.files.blkMap).1
  have hmarks : (t₁.world.disk.runtime.filemarks.getD []).length = t.tape.filemarks.length := by
    rw [hd.filemarks]
    exact h.persisted.length_eq
  have hrt : countedLoad t₁ = t.reloadedFiles := by
    unfold countedLoad TapeWorld.reloadedFiles
    simp only [hd.usage hcalm, hd.filemarks, hd.retention]
    rfl
  have hsizes := hsame.sizes_eq t.reloadedFiles
  constructor
  · intro hre
    have hacc := hsame.accepted_iff.mp hre.accepted
    have hle := hre.sizes
    rw [hrt, hsizes] at hle
    exact ⟨hmarks ▸ hre.filemarks, hacc.index, hacc.segments, hblk.mp hre.blkMap, hacc.lookup,
      hacc.dedup, hle⟩
  · intro hlim
    have hacc : LayoutAccepted t.world.disk := ⟨hlim.segments, hlim.shapes,
      ⟨hlim.blkMap.tail, hlim.blkMap.checksum⟩, hlim.lookup, hlim.dedup⟩
    refine ⟨hsame.accepted_iff.mpr hacc, ?_, hblk.mpr hlim.blkMap, hmarks ▸ hlim.filemarks⟩
    rw [hrt, hsizes]
    exact hlim.sizes

/-- A cartridge within the limits comes out. -/
theorem WithinLimits.detaches (hlim : WithinLimits t) (h : Mounted env t)
    (hcalm : t.world.faults = []) : ∃ t₁, detachCartridge env t = (.ok (), t₁) := by
  obtain ⟨⟨bs, htr⟩, hready⟩ := h
  rcases hrun : detachCartridge env t with ⟨r, t₁⟩
  cases r with
  | ok _ => exact ⟨t₁, rfl⟩
  | error e =>
    have hwhy := (detachCartridge_spec htr (by rw [hready]; simp)).of_error hrun
    rcases hwhy with hfaults | hindex
    · exact absurd hcalm hfaults
    · exact absurd hlim.segments hindex

/-- **Mounting again** succeeds iff the cartridge is within the limits of the loaders. -/
theorem reload_ok_iff (h : Mounted env t) (hcalm : t.world.faults = []) :
    (∃ t', reload env t = (.ok (), t')) ↔ WithinLimits t := by
  have hout := fun hlim : WithinLimits t => hlim.detaches h hcalm
  obtain ⟨⟨bs, htr⟩, hready⟩ := h
  have hdetach := detachCartridge_spec htr (by rw [hready]; simp)
  constructor
  · intro hout
    obtain ⟨t', hrun⟩ := hout
    obtain ⟨_, t1, hdet, hatt⟩ := run_bind_eq_ok hrun
    have hd := hdetach.of_ok hdet
    have hnil : t1.world.faults = [] := subset_nil.mp (hcalm ▸ hd.faults)
    have ha := (attachCartridge_spec hd.shelved).of_ok hatt
    exact (hd.reloadable_iff htr hcalm).mp (ha.limits hnil)
  intro hlim
  obtain ⟨t1, hdet⟩ := hout hlim
  have hd := hdetach.of_ok hdet
  have hnil : t1.world.faults = [] := subset_nil.mp (hcalm ▸ hd.faults)
  have hload := (hd.reloadable_iff htr hcalm).mpr hlim
  rcases hatt : attachCartridge env t1 with ⟨r, t'⟩
  cases r with
  | ok _ => exact ⟨t', (run_bind_ok hdet).trans hatt⟩
  | error e => exact absurd hload (((attachCartridge_spec hd.shelved).of_error hatt).2 hnil)

/-- **A cartridge can be mounted again** after a session iff, before it is taken out, its
filemarks and its files are within the limits of the loaders. -/
theorem reload_succeeds_iff {t₀ : TapeWorld} {actions : List Action}
    (hlaw : env.storage.codecs.Lawful) (hhits : env.HitsVerified) (hmount : FreshMount env t₀)
    (hrun : Run (WithinStep env) t₀ actions t) (hcalm : t.world.faults = []) :
    (∃ t', reload env t = (.ok (), t')) ↔ WithinLimits t :=
  reload_ok_iff (session_mounted hlaw hhits hmount hrun) hcalm

/-- The same blocks, filemarks and end of data. -/
structure SamePlaces (s s' : TapeState) : Prop where
  eodPosition : s'.eodPosition = s.eodPosition
  blockStarts : s'.blockStarts = s.blockStarts
  blockLengths : s'.blockLengths = s.blockLengths
  filemarks : s'.filemarks = s.filemarks

theorem Attached.samePlaces_iff {t1 : TapeWorld} (htr : Tracked env t bs)
    (h : Attached env t1 t' bs t.tape.filemarks) :
    SamePlaces t.tape t'.tape ↔
      t.tape.filemarks.Pairwise (· ≤ ·) ∧ t.tape.eodPosition = t.tape.assumedEnd := by
  constructor
  · intro hsame
    have hmarks : sortByKey id t.tape.filemarks = t.tape.filemarks :=
      h.filemarks.symm.trans hsame.filemarks
    constructor
    · rw [← hmarks]
      exact sortByKey_sorted id _
    · rw [← hsame.eodPosition, h.eod, hmarks, assumedEnd_eq htr]
  intro hout
  obtain ⟨hsorted, heod⟩ := hout
  have hmarks : sortByKey id t.tape.filemarks = t.tape.filemarks := sortByKey_eq_self hsorted
  refine ⟨?_, ?_, ?_, h.filemarks.trans hmarks⟩
  · rw [h.eod, hmarks, heod, assumedEnd_eq htr]
  · rw [h.tracked.starts, htr.starts]
  · rw [h.tracked.lengths, htr.lengths]

/-- **The index is rebuilt as it was** iff the files are within the limits of the loaders, the
filemarks were in order, and the end of data where a mount assumes it. -/
theorem reload_same_places_iff {t₀ : TapeWorld} {actions : List Action}
    (hlaw : env.storage.codecs.Lawful) (hhits : env.HitsVerified) (hmount : FreshMount env t₀)
    (hrun : Run (WithinStep env) t₀ actions t) (hcalm : t.world.faults = []) :
    (∃ t', reload env t = (.ok (), t') ∧ SamePlaces t.tape t'.tape) ↔
      WithinLimits t ∧ t.tape.filemarks.Pairwise (· ≤ ·) ∧
        t.tape.eodPosition = t.tape.assumedEnd := by
  have hm := session_mounted hlaw hhits hmount hrun
  have hok := reload_ok_iff hm hcalm
  obtain ⟨⟨bs, htr⟩, hready⟩ := hm
  have hspec := reload_spec htr hready
  constructor
  · intro hout
    obtain ⟨t', hre, hsame⟩ := hout
    obtain ⟨t₁, -, hatt⟩ := hspec.of_ok hre
    exact ⟨hok.mp ⟨t', hre⟩, (hatt.samePlaces_iff htr).mp hsame⟩
  intro hout
  obtain ⟨hlimits, hplaces⟩ := hout
  obtain ⟨t', hre⟩ := hok.mpr hlimits
  obtain ⟨t₁, -, hatt⟩ := hspec.of_ok hre
  exact ⟨t', hre, (hatt.samePlaces_iff htr).mpr hplaces⟩

/-! ## §3. More filemarks than a mount accepts. -/

theorem length_marksFrom (step count : Nat) :
    ∀ position, (marksFrom step position count).length = count := by
  induction count with
  | zero => exact fun _ => rfl
  | succ count ih =>
    intro position
    unfold marksFrom
    rw [length_cons, ih]

theorem blankMounted_markable : Markable .standard blankMounted 1000001 none where
  ready := by decide +kernel
  allowed := by
    unfold Allowed
    decide +kernel
  appends := by
    unfold Appends
    decide +kernel
  fits := by decide +kernel
  room := by
    have hnone : activePartitionCapacityLimit blankMounted.tape = none := by decide +kernel
    intro limit hlimit
    rw [hnone] at hlimit
    cases hlimit
  estimate := by decide +kernel
  admitted := rfl
  calm := by decide +kernel
  index := by
    unfold SegmentIndex.Loadable
    decide +kernel

variable {count : Nat}

theorem execute_writeFilemarks_ok {initiator : Option String} (h : Tracked env t bs)
    (hpos : 0 < count) (hm : Markable env t count initiator) :
    ∃ t', execute env (.writeFilemarks count initiator) t = (.ok [], t') ∧
      Marked env t t' bs count := by
  have hspec : wp (execute env (.writeFilemarks count initiator))
      (fun data t' => data = [] ∧ Marked env t t' bs count) (fun _ _ => False) t := by
    refine wp_noData (wp_mono (writeFilemarks_spec h) ?_ ?_)
    · intro _ t' hw
      exact ⟨rfl, (hw.resolve_left (fun hz => absurd hz.1 (pos_iff_ne_zero.mp hpos))).2⟩
    · exact fun _ _ hfail => hfail.2 hm
  obtain ⟨data, t', hrun, rfl, hmarked⟩ := hspec.exists_ok
  exact ⟨t', hrun, hmarked⟩

/-- A mounted cartridge with more filemarks than a mount accepts. -/
theorem Marked.not_reload (hm : Marked env t t' bs count) (hready : t.tape.requiresRecovery = false)
    (hcalm : t.world.faults = []) (hmany : maxFilemarks < count) :
    t'.world.faults = [] ∧ ¬ ∃ t'', reload env t' = (.ok (), t'') := by
  have hcalm' : t'.world.faults = [] := hm.continues.calm hcalm
  have hmounted : Mounted env t' :=
    ⟨⟨bs, hm.tracked⟩, hm.settings.requiresRecovery.trans hready⟩
  refine ⟨hcalm', fun hre => ?_⟩
  have hle := ((reload_ok_iff hmounted hcalm').mp hre).filemarks
  rw [hm.filemarks, length_append, length_marksFrom] at hle
  omega

/-- **A million and one filemarks** are written, and the cartridge is not accepted again. -/
theorem filemarks_over_limit_not_accepted : FreshMount .standard blankMounted ∧
      ∃ t, execute .standard (.writeFilemarks 1000001 none) blankMounted = (.ok [], t) ∧
        t.world.faults = [] ∧ ¬ ∃ t', reload .standard t = (.ok (), t') := by
  obtain ⟨t₀, hatt⟩ := blankMounted_freshMount.attached
  obtain ⟨t, hrun, hm⟩ :=
    execute_writeFilemarks_ok hatt.tracked (by decide) blankMounted_markable
  exact ⟨blankMounted_freshMount, t, hrun,
    hm.not_reload hatt.recovery blankMounted_markable.calm (by decide)⟩

/-- A filemark in the block mode a drive has after a mount. -/
def oneMark : TapeWorld := afterCommands .standard blankMounted [.writeFilemarks 1 none]

/-- A cartridge with one filemark is within the limits. -/
theorem oneMark_withinLimits : WithinLimits oneMark where
  filemarks := by decide +kernel
  segments := by
    unfold SegmentIndex.Loadable
    decide +kernel
  shapes := by decide +kernel
  blkMap := by decide +kernel
  lookup := ⟨by decide +kernel, by decide +kernel⟩
  dedup := ⟨by decide +kernel, by decide +kernel⟩
  sizes := by decide +kernel

/-- One filemark is accepted. -/
theorem reload_succeeds_iff_one_mark : ∃ t', reload .standard oneMark = (.ok (), t') := by
  have hmark : WithinStep .standard blankMounted (.command (.writeFilemarks 1 none)) oneMark :=
    .command (by decide +kernel) trivial
  exact (reload_succeeds_iff Codecs.stored_lawful (.inl rfl) blankMounted_freshMount
    (.single hmark) (by decide +kernel)).mpr oneMark_withinLimits

/-! ## §4. A filemark written in variable mode. -/

/-- **After a filemark in variable mode** a mount puts the end of data elsewhere. -/
theorem variable_mark_moves_eod : ∃ t t', Run (WithinStep .standard) blankMounted
        [.command .setBlockModeVariable, .command (.writeFilemarks 1 none)] t ∧
      FreshMount .standard blankMounted ∧ t.world.faults = [] ∧
      reload .standard t = (.ok (), t') ∧ t.tape.eodPosition = 1 ∧
      t'.tape.eodPosition = 262144 := by
  have hmode : WithinStep .standard blankMounted (.command .setBlockModeVariable) variableMode :=
    .command (by decide +kernel) trivial
  have hmark : WithinStep .standard variableMode (.command (.writeFilemarks 1 none)) _ :=
    .command (by decide +kernel) trivial
  exact ⟨_, _, .snoc (.snoc .nil hmode) hmark, blankMounted_freshMount, by decide +kernel,
    run_eq_of_isOk (by decide +kernel), by decide +kernel, by decide +kernel⟩

/-- In the block mode of a mount a filemark is where it was. -/
theorem reload_same_places_iff_one_mark : oneMark.tape.eodPosition = 262144 ∧
    ∃ t', reload .standard oneMark = (.ok (), t') ∧ SamePlaces oneMark.tape t'.tape := by
  have hmark : WithinStep .standard blankMounted (.command (.writeFilemarks 1 none)) oneMark :=
    .command (by decide +kernel) trivial
  have hcalm : oneMark.world.faults = [] := by decide +kernel
  exact ⟨by decide +kernel, (reload_same_places_iff Codecs.stored_lawful (.inl rfl)
    blankMounted_freshMount (.single hmark) hcalm).mpr
      ⟨oneMark_withinLimits, by decide +kernel, by decide +kernel⟩⟩

end Holo.Tape
