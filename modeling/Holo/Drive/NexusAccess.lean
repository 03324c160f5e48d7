/-
Holo.Drive.NexusAccess — on whose behalf a CDB that changes the medium asks for access.

The writer of fixed blocks asks for the nexus the CDB came from.  The CDBs that are decoded to
a core command ask for the initiator that is configured, whoever sent them; FORMAT MEDIUM, the
write probes and the CDBs with nothing to write ask for nobody.

Main results:
* `dispatch_outcome`: what becomes of a CDB that would succeed if nobody held the drive;
* `reservation_enforced_iff`: when the reservation is enforced for the nexus;
* `stranger_formats_and_holder_is_refused`: where it is not.
-/
import Holo.Drive.ReservationFrame

namespace Holo.Drive

open Lib Program Storage Tape

variable {env : DriveEnv} {shared : SharedMedia} {cdb dataOut data : Bytes} {nexus holder : String}
  {t : TapeWorld} {s : TapeState} {c : CoreCommand}

/-! ## §1. Whom a CDB asks for. -/

/-- WRITE, WRITE FILEMARKS, ERASE and FORMAT MEDIUM. -/
def modifiesMedium (cdb : Bytes) : Bool :=
  isDataWriteOpcode (byteAt cdb 0) || decide (byteAt cdb 0 ∈ [0x10, 0x19, 0x04])

/-- The number of filemarks of a WRITE FILEMARKS. -/
def filemarkCount (cdb : Bytes) : Nat := if 5 ≤ cdb.length then readBe24 cdb 2 else 1

/-- The initiator on whose behalf a CDB that changes the medium asks for access. -/
def askedFor (env : DriveEnv) (cdb dataOut : Bytes) (nexus : String) (s : TapeState) :
    Option String :=
  if byteAt cdb 0 = 0x04 then none
  else if isLegacyWriteProbe s cdb dataOut = true then none
  else if isDataWriteOpcode (byteAt cdb 0) = true then
    if isFixedBlockTransfer cdb = true ∧ (fixedBlockSize s).isSome = true then some nexus
    else if dataOut = [] then none
    else some env.configuredInitiator
  else if byteAt cdb 0 = 0x10 ∧ filemarkCount cdb = 0 then none
  else some env.configuredInitiator

/-- The command asks for this initiator, or, with none, looks at no reservation. -/
def AsksFor (env : DriveEnv) (c : CoreCommand) : Option String → Prop
  | none => Unreserved (execute env.tape c)
  | some x => Asks x (execute env.tape c)

theorem mediumCommand_write (hop : isDataWriteOpcode (byteAt cdb 0) = true)
    (h : mediumCommand env cdb dataOut nexus s = .ok c) :
    AsksFor env c (askedFor env cdb dataOut nexus s) := by
  have hnot04 : byteAt cdb 0 ≠ 0x04 := by
    intro h04
    rw [h04] at hop
    cases hop
  unfold mediumCommand at h
  split at h
  · cases h
  next hprobe =>
  split at h
  · cases h
  have hasked : askedFor env cdb dataOut nexus s =
      if isFixedBlockTransfer cdb = true ∧ (fixedBlockSize s).isSome = true then some nexus
      else if dataOut = [] then none else some env.configuredInitiator := by
    rw [askedFor, if_neg hnot04, if_neg hprobe, if_pos hop]
  rw [hasked]
  split at h
  · -- the writer of fixed blocks
    next command hfixed =>
    subst h
    unfold fixedBlockCommand at hfixed
    split at hfixed
    · cases hfixed
    next hbit =>
    split at hfixed
    · cases hfixed
    next size hsize =>
    rw [if_pos ⟨by simpa using hbit, by rw [hsize]; rfl⟩]
    split at hfixed
    · cases hfixed
    · cases hfixed
      exact (execute_asks env.tape nexus).2.1 _ _
  next hfixed =>
  have hvariable : ¬ (isFixedBlockTransfer cdb = true ∧ (fixedBlockSize s).isSome = true) := by
    intro hboth
    unfold fixedBlockCommand at hfixed
    rw [if_neg (by simp [hboth.1])] at hfixed
    obtain ⟨size, hsize⟩ := Option.isSome_iff_exists.mp hboth.2
    rw [hsize] at hfixed
    dsimp only at hfixed
    rw [if_pos hop] at hfixed
    split at hfixed <;> cases hfixed
  rw [if_neg hvariable]
  have hdec : decodeCdbToCommand env s cdb dataOut =
      some (.writeData dataOut (some env.configuredInitiator)) := by
    rcases of_decide_eq_true hop with hop | hop <;> simp [decodeCdbToCommand, hop]
  rw [hdec] at h
  cases h
  split
  · next hnil =>
    subst hnil
    exact .bind (writeData_nil_unreserved env.tape _) fun _ => .pure _
  · next hne => exact (execute_asks env.tape env.configuredInitiator).1 _ hne

theorem mediumCommand_decoded (hop : byteAt cdb 0 = 0x10 ∨ byteAt cdb 0 = 0x19)
    (h : mediumCommand env cdb dataOut nexus s = .ok c) :
    AsksFor env c (askedFor env cdb dataOut nexus s) := by
  have hwrite : isDataWriteOpcode (byteAt cdb 0) = false := by
    rcases hop with hop | hop <;> simp [isDataWriteOpcode, hop]
  have hprobe : isLegacyWriteProbe s cdb dataOut = false := by
    simp [isLegacyWriteProbe, hwrite]
  have hnot04 : byteAt cdb 0 ≠ 0x04 := by
    rcases hop with hop | hop <;> rw [hop] <;> decide
  have hread : ¬ (byteAt cdb 0 = 0x08 ∨ byteAt cdb 0 = 0x88) := by
    rcases hop with hop | hop <;> simp [hop]
  unfold askedFor
  rw [if_neg hnot04, if_neg (by simp [hprobe]), if_neg (by simp [hwrite])]
  rcases hop with hop | hop
  · have hdec : decodeCdbToCommand env s cdb dataOut =
        some (.writeFilemarks (filemarkCount cdb) (some env.configuredInitiator)) := by
      simp [decodeCdbToCommand, hop, filemarkCount]
    cases (mediumCommand_of_no_transfer hwrite hread hdec).symm.trans h
    split
    · next hzero =>
      rw [hzero.2]
      exact .bind (writeFilemarks_zero_unreserved env.tape _) fun _ => .pure _
    · next hne =>
      refine (execute_asks env.tape env.configuredInitiator).2.2.1 _ fun hzero => ?_
      exact hne ⟨hop, hzero⟩
  · have hdec : decodeCdbToCommand env s cdb dataOut =
        some (.erase (if byteAt cdb 1 &&& 0x01 ≠ 0 then .long else .short)
          (some env.configuredInitiator)) := by
      simp [decodeCdbToCommand, hop]
    cases (mediumCommand_of_no_transfer hwrite hread hdec).symm.trans h
    have hnot10 : ¬ (byteAt cdb 0 = 0x10 ∧ filemarkCount cdb = 0) := by simp [hop]
    rw [if_neg hnot10]
    exact (execute_asks env.tape env.configuredInitiator).2.2.2 _

/-! ## §2. What becomes of a CDB. -/

/-- A reply that refuses a CDB because of the holder of the drive. -/
def conflictWith (holder : String) : Reply :=
  .failed (.reservationConflict s!"reservation owner is {holder}")

/-- What becomes of a command that would succeed if nobody held the drive: it is refused, or it
succeeds all the same, as the one it asks for is somebody else or not. -/
def AccessOutcome (holder : String) (asked : Option String) (t : TapeWorld)
    (res : Except TapeError Reply × TapeWorld) : Prop :=
  (∃ x, asked = some x ∧ x ≠ holder ∧ res = (.ok (conflictWith holder), t)) ∨
    ((asked = none ∨ asked = some holder) ∧ ∃ data, res.1 = .ok (.good data))

theorem executeWithSense_result (env : DriveEnv) (c : CoreCommand) (t : TapeWorld) :
    executeWithSense env c t = match execute env.tape c t with
      | (.ok data, t') => (.ok (.good data), t')
      | (.error e, t') => (.ok (.failed e), t') := by
  unfold executeWithSense replying
  rw [run_bind, attempt, run_bind]
  rcases execute env.tape c t with ⟨e | data, t'⟩ <;> rfl

theorem executeWithSense_good_iff :
    (executeWithSense env c t).1 = .ok (.good data) ↔ (execute env.tape c t).1 = .ok data := by
  grind [executeWithSense_result]

theorem executeWithSense_outcome {asked : Option String}
    (hholder : t.tape.reservationState.activeOwner = some holder) (hasks : AsksFor env c asked)
    (hok : (executeWithSense env c (released t)).1 = .ok (.good data)) :
    AccessOutcome holder asked t (executeWithSense env c t) := by
  have hexec := executeWithSense_good_iff.mp hok
  cases asked with
  | none =>
    refine .inr ⟨.inl rfl, data, executeWithSense_good_iff.mpr ?_⟩
    have hrun : (execute env.tape c (released t)).1 = (execute env.tape c t).1 :=
      Alike.result (.of_unreserved hasks) t _
    rw [← hrun]
    exact hexec
  | some x =>
    by_cases hx : x = holder
    · subst hx
      refine .inr ⟨.inr rfl, data, executeWithSense_good_iff.mpr ?_⟩
      exact (hasks.granted t hholder).trans hexec
    · refine .inl ⟨x, rfl, hx, ?_⟩
      rw [executeWithSense_result, hasks.refused t holder data hholder (Ne.symm hx) hexec]
      rfl

/-- A refusal without a command is never GOOD, unless the CDB is a write probe. -/
theorem mediumCommand_error_good (h : mediumCommand env cdb dataOut nexus s = .error (.good data)) :
    isLegacyWriteProbe s cdb dataOut = true := by
  unfold mediumCommand at h
  split at h
  · assumption
  split at h
  · cases h
  split at h
  · next command hfixed =>
    unfold fixedBlockCommand invalidFieldInCdb at hfixed
    grind
  · unfold invalidFieldInCdb at h
    split at h <;> cases h

theorem dispatchMedium_refused {reply : Reply}
    (h : mediumCommand env cdb dataOut nexus t.tape = .error reply) :
    dispatchMedium env cdb dataOut nexus t = (.ok reply, t) := by
  unfold dispatchMedium
  rw [run_tapeState_bind]
  rw [h]
  rfl

theorem dispatchMedium_runs {c : CoreCommand}
    (h : mediumCommand env cdb dataOut nexus t.tape = .ok c) :
    dispatchMedium env cdb dataOut nexus t = executeWithSense env c t := by
  unfold dispatchMedium
  rw [run_tapeState_bind]
  rw [h]

theorem dispatchMedium_outcome (hmod : modifiesMedium cdb = true) (hnot04 : byteAt cdb 0 ≠ 0x04)
    (hholder : t.tape.reservationState.activeOwner = some holder)
    (hok : (dispatchMedium env cdb dataOut nexus (released t)).1 = .ok (.good data)) :
    AccessOutcome holder (askedFor env cdb dataOut nexus t.tape) t
      (dispatchMedium env cdb dataOut nexus t) := by
  have hsame : mediumCommand env cdb dataOut nexus (released t).tape =
      mediumCommand env cdb dataOut nexus t.tape := rfl
  cases hc : mediumCommand env cdb dataOut nexus t.tape with
  | error reply =>
    rw [dispatchMedium_refused (hsame.trans hc)] at hok
    rw [dispatchMedium_refused hc]
    cases hok
    have hprobe := mediumCommand_error_good hc
    refine .inr ⟨.inl ?_, _, rfl⟩
    rw [askedFor, if_neg hnot04, if_pos hprobe]
  | ok c =>
    rw [dispatchMedium_runs (hsame.trans hc)] at hok
    rw [dispatchMedium_runs hc]
    have hasks : AsksFor env c (askedFor env cdb dataOut nexus t.tape) := by
      by_cases hwrite : isDataWriteOpcode (byteAt cdb 0) = true
      · exact mediumCommand_write hwrite hc
      · refine mediumCommand_decoded ?_ hc
        simp only [modifiesMedium, hwrite, Bool.false_or, decide_eq_true_eq] at hmod
        simpa [hnot04] using hmod
    exact executeWithSense_outcome hholder hasks hok

theorem ensurePartition_unreserved (profile : DriveProfile) (s : TapeState) (r : ReservationState) :
    ensurePartitionRuntimeInitialized profile { s with reservationState := r } =
      { ensurePartitionRuntimeInitialized profile s with reservationState := r } := by
  unfold ensurePartitionRuntimeInitialized
  split <;> rfl

/-- FORMAT MEDIUM asks nobody. -/
theorem formatMediumDrive_unreserved (env : DriveEnv) (cdb : Bytes) :
    Unreserved (formatMediumDrive env cdb) := by
  refine tapeState_unreserved (fun _ _ => rfl) fun _ => .ite (.pure _) (.ite (.pure _) ?_)
  refine .bind (modifyTape_unreserved (ensurePartition_unreserved _)) fun _ =>
    tapeState_unreserved (fun _ _ => rfl) fun s => ?_
  split
  · exact .pure _
  · exact .bind (modifyTape_unreserved fun _ _ => rfl) fun _ => .pure _

theorem released_prepared (env : DriveEnv) (t : TapeWorld) :
    prepared env (released t) = released (prepared env t) := by
  unfold prepared released setReservations
  dsimp only [TapeWorld.tape_setTape]
  rw [ensurePartition_unreserved, ensurePartition_reservationState]
  rfl

variable {m : TapeM Reply}

section

variable (hmod : modifiesMedium cdb = true)
include hmod

theorem dispatchRawCdb_modifies (hcdb : cdb ≠ [])
    (hvalid : validateCdbStructure cdb = true) (t : TapeWorld) :
    dispatchRawCdb env cdb dataOut nexus shared t =
      if byteAt cdb 0 = 0x04 then formatMediumDrive env cdb (prepared env t)
      else dispatchMedium env cdb dataOut nexus (prepared env t) := by
  have hops : byteAt cdb 0 = 0x0A ∨ byteAt cdb 0 = 0x8A ∨ byteAt cdb 0 = 0x10 ∨
      byteAt cdb 0 = 0x19 ∨ byteAt cdb 0 = 0x04 := by grind [modifiesMedium, isDataWriteOpcode]
  unfold dispatchRawCdb
  rw [run_tapeState_bind]
  rw [if_neg (by simp [hcdb, hvalid])]
  rcases hops with hop | hop | hop | hop | hop <;>
    simp [hop, dispatchDriveDiscovery, reporting, run_bind, modifyTape, prepared]

theorem dispatchRawCdb_outcome (hcdb : cdb ≠ []) (hvalid : validateCdbStructure cdb = true)
    (hholder : t.tape.reservationState.activeOwner = some holder)
    (hok : (dispatchRawCdb env cdb dataOut nexus shared (released t)).1 = .ok (.good data)) :
    AccessOutcome holder (askedFor env cdb dataOut nexus (prepared env t).tape) (prepared env t)
      (dispatchRawCdb env cdb dataOut nexus shared t) := by
  rw [dispatchRawCdb_modifies hmod hcdb hvalid, released_prepared] at hok
  rw [dispatchRawCdb_modifies hmod hcdb hvalid]
  have hholder' : (prepared env t).tape.reservationState.activeOwner = some holder := by
    rw [prepared, TapeWorld.tape_setTape, ensurePartition_reservationState]
    exact hholder
  split at hok
  · next h04 =>
    rw [if_pos h04]
    refine .inr ⟨.inl (by rw [askedFor, if_pos h04]), data, ?_⟩
    have hrun := Alike.result (.of_unreserved (formatMediumDrive_unreserved env cdb))
      (prepared env t) { (prepared env t).tape.reservationState with activeOwner := none }
    rw [← hrun]
    exact hok
  grind [dispatchMedium_outcome]

/-! ## §3. The media sync. -/

section

omit hmod

theorem replying_ok {t t' : TapeWorld} {r : Reply} (h : m t = (.ok r, t')) :
    replying m t = (.ok r, t') := by
  unfold replying
  rw [run_bind, attempt, h]
  rfl

theorem replying_good (h : (replying m t).1 = .ok (.good data)) : (m t).1 = .ok (.good data) := by
  unfold replying at h
  rw [run_bind, attempt] at h
  rcases hres : m t with ⟨e | r, t'⟩
  · rw [hres] at h
    cases h
  · rw [hres] at h
    cases h
    rfl

/-- The drive is as its state file says. -/
def Quiet (shared : SharedMedia) (opcode : Nat) (s : TapeState) : Prop :=
  driveOpcodeRequiresMediaSync opcode s = false ∨ shared = .cartridge ∧ s.activeLayout = true ∨
    shared = .empty ∧ s.activeLayout = false

theorem mediaSync_quiet {opcode : Nat} (h : Quiet shared opcode t.tape) :
    mediaSync env shared opcode t = (.ok (), t) := by
  unfold mediaSync
  rw [run_tapeState_bind]
  rcases h with hnot | ⟨rfl, hlayout⟩ | ⟨rfl, hlayout⟩
  · rw [hnot]
    rfl
  · split
    · unfold syncDriveMountFromShared
      rw [run_tapeState_bind]
      dsimp only
      rw [if_pos hlayout]
      rfl
    · rfl
  · split
    · unfold syncDriveMountFromShared
      rw [run_tapeState_bind]
      dsimp only
      rw [if_neg (by simp [hlayout])]
      rfl
    · rfl

/-- A drive whose cartridge was taken out is empty. -/
theorem detachCartridge_empty {env : TapeEnv} {t t' : TapeWorld}
    (h : detachCartridge env t = (.ok (), t')) : t'.tape.mountState = .empty := by
  have hlast : ∀ {t1 t2 : TapeWorld}, unmount env t1 = (.ok (), t2) →
      t2.tape.mountState = .empty := by
    intro t1 t2 hrun
    have hempty : (unmount env t1).2.tape.mountState = .empty := rfl
    rw [hrun] at hempty
    exact hempty
  obtain ⟨s, t1, hstate, h⟩ := run_bind_eq_ok h
  split at h
  · split at h
    · obtain ⟨_, t2, _, h⟩ := run_bind_eq_ok h
      exact hlast h
    · obtain ⟨_, t2, _, h⟩ := run_bind_eq_ok h
      obtain ⟨_, t3, _, h⟩ := run_bind_eq_ok h
      exact hlast h
  · exact hlast h

end

/-- No CDB that changes the medium is GOOD on an empty drive. -/
theorem dispatchRawCdb_empty (hcdb : cdb ≠ [])
    (hvalid : validateCdbStructure cdb = true) (hempty : t.tape.mountState = .empty) :
    (dispatchRawCdb env cdb dataOut nexus shared t).1 ≠ .ok (.good data) := by
  intro hok
  have hempty' : (prepared env t).tape.mountState = .empty := by
    rw [← hempty, prepared, TapeWorld.tape_setTape, ensurePartitionRuntimeInitialized]
    split <;> rfl
  rw [dispatchRawCdb_modifies hmod hcdb hvalid] at hok
  split at hok
  · unfold formatMediumDrive at hok
    rw [run_tapeState_bind] at hok
    rw [if_pos (by rw [hempty']; decide)] at hok
    cases hok
  unfold dispatchMedium at hok
  rw [run_tapeState_bind] at hok
  cases hc : mediumCommand env cdb dataOut nexus (prepared env t).tape with
  | error reply =>
    -- only a write probe is GOOD without a command, and it needs a cartridge
    rw [hc] at hok
    cases hok
    have hprobe := mediumCommand_error_good hc
    simp [isLegacyWriteProbe, hempty'] at hprobe
  | ok c =>
    rw [hc] at hok
    obtain ⟨e, he⟩ := execute_empty env hempty' c
    have hexec := executeWithSense_good_iff.mp hok
    rw [he] at hexec
    cases hexec

/-- A CDB that changes the medium and is GOOD found the drive as its state file says. -/
theorem quiet_of_good
    (hok : (dispatchDriveCdb env shared cdb dataOut nexus t).1 = .ok (.good data)) :
    cdb ≠ [] ∧ validateCdbStructure cdb = true ∧ Quiet shared (byteAt cdb 0) t.tape ∧
      (dispatchRawCdb env cdb dataOut nexus shared t).1 = .ok (.good data) := by
  have hop : byteAt cdb 0 ≠ 0x5F ∧ byteAt cdb 0 ≠ 0x00 := by
    constructor <;> intro h <;> simp [modifiesMedium, isDataWriteOpcode, h] at hmod
  unfold dispatchDriveCdb at hok
  split at hok
  · cases hok
  next hstructure =>
  have hcdb : cdb ≠ [] := fun h => hstructure (.inl h)
  have hvalid : validateCdbStructure cdb = true := by grind
  refine ⟨hcdb, hvalid, ?_⟩
  have hok := replying_good hok
  rcases hres : (mediaSync env shared (byteAt cdb 0) >>= fun _ =>
    dispatchSynced env shared cdb dataOut nexus) t with ⟨r, t'⟩
  rw [hres] at hok
  subst hok
  obtain ⟨_, t1, hsync, hdispatch⟩ := run_bind_eq_ok hres
  rw [dispatchSynced, if_neg hop.1] at hdispatch
  -- otherwise the drive is synced first: that fails, or it leaves the drive empty
  have hquiet : Quiet shared (byteAt cdb 0) t.tape := by
    by_contra hnot
    rw [Quiet, not_or, not_or] at hnot
    obtain ⟨hneeds, hcartridge, hfileEmpty⟩ := hnot
    have hneeds : driveOpcodeRequiresMediaSync (byteAt cdb 0) t.tape = true := by
      simpa using hneeds
    have hloaded : t.tape.mountState = .loaded := by
      have hcases := of_decide_eq_true hneeds
      rcases hcases with hl | he
      · exact hl.1
      · exact absurd he.2 hop.2
    unfold mediaSync at hsync
    rw [run_tapeState_bind] at hsync
    rw [if_pos hneeds] at hsync
    unfold syncDriveMountFromShared at hsync
    rw [run_tapeState_bind] at hsync
    cases shared with
    | unreadable => cases hsync
    | empty =>
      have hlayout : t.tape.activeLayout = true := by simpa using hfileEmpty
      rw [if_pos hlayout] at hsync
      have hempty := detachCartridge_empty hsync
      exact dispatchRawCdb_empty hmod hcdb hvalid hempty (congrArg Prod.fst hdispatch)
    | cartridge =>
      have hlayout : ¬ t.tape.activeLayout = true := fun h => hcartridge ⟨rfl, h⟩
      dsimp only at hsync
      rw [if_neg hlayout] at hsync
      obtain ⟨_, t2, hattach, _⟩ := run_bind_eq_ok hsync
      rw [attachCartridge_loaded hloaded] at hattach
      cases hattach
  grind [mediaSync_quiet]

/-- **What becomes of a CDB** that changes the medium and would be GOOD if nobody held the
drive. -/
theorem dispatch_outcome (hholder : t.tape.reservationState.activeOwner = some holder)
    (hok : (dispatchDriveCdb env shared cdb dataOut nexus (released t)).1 = .ok (.good data)) :
    AccessOutcome holder (askedFor env cdb dataOut nexus (prepared env t).tape) (prepared env t)
      (dispatchDriveCdb env shared cdb dataOut nexus t) := by
  obtain ⟨hcdb, hvalid, hquiet, hraw⟩ := quiet_of_good hmod hok
  have hop : byteAt cdb 0 ≠ 0x5F := by
    intro h
    simp [modifiesMedium, isDataWriteOpcode, h] at hmod
  have hsync : mediaSync env shared (byteAt cdb 0) t = (.ok (), t) := mediaSync_quiet hquiet
  have hrun : ∀ {r : Reply} {t' : TapeWorld},
      dispatchRawCdb env cdb dataOut nexus shared t = (.ok r, t') →
      dispatchDriveCdb env shared cdb dataOut nexus t = (.ok r, t') := by
    intro r t' hres
    rw [dispatchDriveCdb, if_neg (by simp [hcdb, hvalid])]
    refine replying_ok ?_
    rw [run_bind_ok hsync, dispatchSynced, if_neg hop]
    exact hres
  rcases dispatchRawCdb_outcome hmod hcdb hvalid hholder hraw with hrefused | hgranted
  · obtain ⟨x, hasked, hne, hres⟩ := hrefused
    exact .inl ⟨x, hasked, hne, hrun hres⟩
  · obtain ⟨hasked, data', hres⟩ := hgranted
    refine .inr ⟨hasked, data', ?_⟩
    rw [hrun (Prod.ext hres rfl)]

/-! ## §4. Enforcement for the nexus. -/

/-- The reservation is enforced for a CDB and the nexus it came from. -/
structure Enforced (env : DriveEnv) (shared : SharedMedia) (cdb dataOut : Bytes)
    (nexus holder : String) (t : TapeWorld) : Prop where
  /-- Anybody else is refused, and nothing has changed. -/
  refused : nexus ≠ holder →
    dispatchDriveCdb env shared cdb dataOut nexus t = (.ok (conflictWith holder), t)
  /-- The holder is not refused because of the reservation. -/
  granted : nexus = holder → ∀ reason,
    (dispatchDriveCdb env shared cdb dataOut nexus t).1 ≠
      .ok (.failed (.reservationConflict reason))

/-- The CDB asks for somebody else when it comes from somebody else, with the partitions set up
already, and for nobody else when it comes from the holder. -/
structure AskedForNexus (env : DriveEnv) (cdb dataOut : Bytes) (nexus holder : String)
    (t : TapeWorld) : Prop where
  stranger : nexus ≠ holder →
    prepared env t = t ∧ ∃ x, askedFor env cdb dataOut nexus (prepared env t).tape = some x ∧
        x ≠ holder
  owner : nexus = holder → askedFor env cdb dataOut nexus (prepared env t).tape = none ∨
    askedFor env cdb dataOut nexus (prepared env t).tape = some holder

/-- **When the reservation is enforced** for a CDB that changes the medium and would be GOOD if
nobody held the drive. -/
theorem reservation_enforced_iff (hholder : t.tape.reservationState.activeOwner = some holder)
    (hok : (dispatchDriveCdb env shared cdb dataOut nexus (released t)).1 = .ok (.good data)) :
    Enforced env shared cdb dataOut nexus holder t ↔
      AskedForNexus env cdb dataOut nexus holder t := by
  -- the outcome goes by whom the command asks for, `Enforced` by the nexus
  rcases dispatch_outcome hmod hholder hok with hrefused | hgranted
  · obtain ⟨x, hasked, hne, hres⟩ := hrefused
    constructor
    · intro henf
      refine ⟨?_, ?_⟩
      · intro hother
        have hsame := henf.refused hother
        rw [hres] at hsame
        exact ⟨congrArg Prod.snd hsame, x, hasked, hne⟩
      · intro hself
        have hnot := henf.granted hself s!"reservation owner is {holder}"
        rw [hres] at hnot
        exact absurd rfl hnot
    intro hright
    refine ⟨?_, ?_⟩
    · intro hother
      rw [hres, (hright.stranger hother).1]
    intro hself
    rcases hright.owner hself with hnone | hsome
    · rw [hasked] at hnone
      cases hnone
    · rw [hasked] at hsome
      exact absurd (Option.some.inj hsome) hne
  · obtain ⟨hasked, data', hres⟩ := hgranted
    constructor
    · intro henf
      refine ⟨?_, fun _ => hasked⟩
      intro hother
      have hsame := henf.refused hother
      rw [hsame] at hres
      cases hres
    intro hright
    refine ⟨?_, ?_⟩
    · intro hother
      obtain ⟨_, x, hx, hne⟩ := hright.stranger hother
      grind
    simp [hres]

end

theorem reservation_enforced_filemark :
    Enforced .standard .cartridge [0x10, 0, 0, 0, 1, 0] [] "I" "H" (reservedFor "H") := by
  have hprepared : prepared .standard (reservedFor "H") = reservedFor "H" := by
    have htape : ensurePartitionRuntimeInitialized DriveEnv.standard.profile
        (reservedFor "H").tape = (reservedFor "H").tape := by decide +kernel
    have hself : ∀ t : TapeWorld, t.setTape t.tape = t := fun _ => rfl
    rw [prepared, htape, hself]
  have hgood : (dispatchDriveCdb .standard .cartridge [0x10, 0, 0, 0, 1, 0] [] "I"
      (released (reservedFor "H"))).1 = .ok (.good []) := by decide +kernel
  refine (reservation_enforced_iff (by decide) (by decide +kernel) hgood).mpr ⟨?_, ?_⟩
  · intro _
    rw [hprepared]
    exact ⟨rfl, defaultInitiator, by decide +kernel, by decide⟩
  · intro hself
    exact absurd hself (by decide)

/-- FORMAT MEDIUM by a stranger is GOOD on a drive that H holds; H's own WRITE FILEMARKS is
refused, as H is not the configured initiator; and when the configured initiator holds the
drive, WRITE FILEMARKS and ERASE by a stranger are GOOD. -/
theorem stranger_formats_and_holder_is_refused :
    (reservedFor "H").tape.reservationState.activeOwner = some "H" ∧
      ¬ Enforced .standard .cartridge [0x04, 0, 0, 0, 0, 0] [] "I" "H" (reservedFor "H") ∧
      (dispatchDriveCdb .standard .cartridge [0x04, 0, 0, 0, 0, 0] [] "I" (reservedFor "H")).1 =
        .ok (.good []) ∧
      (dispatchDriveCdb .standard .cartridge [0x10, 0, 0, 0, 1, 0] [] "H"
        (released (reservedFor "H"))).1 = .ok (.good []) ∧
      (dispatchDriveCdb .standard .cartridge [0x10, 0, 0, 0, 1, 0] [] "H" (reservedFor "H")).1 =
        .ok (conflictWith "H") ∧
      (dispatchDriveCdb .standard .cartridge [0x10, 0, 0, 0, 1, 0] [] "I"
        reservedBlank).1 = .ok (.good []) ∧
      (dispatchDriveCdb .standard .cartridge [0x19, 0, 0, 0, 0, 0] [] "I"
        reservedBlank).1 = .ok (.good []) := by
  have hformat : (dispatchDriveCdb .standard .cartridge [0x04, 0, 0, 0, 0, 0] [] "I"
      (reservedFor "H")).1 = .ok (.good []) := by decide +kernel
  refine ⟨by decide +kernel, ?_, hformat, by decide +kernel⟩
  intro henf
  rw [henf.refused (by decide)] at hformat
  cases hformat

end Holo.Drive
