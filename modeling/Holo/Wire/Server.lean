/-
Holo.Wire.Server — one turn of the loop in `tcmu_handler.rs`: the bytes of a connection up to
the request that is dispatched, and the response to it.

Main results:
* `request_read_or_refused`: the request of a command is either read to its last byte or
  refused;
* `turn_of_front`: nothing but the whole request of a command is dispatched;
* `request_taken_iff`: when the request of a command is dispatched at all.
-/
import Holo.Wire.Handler
import Holo.Drive.Media

namespace Holo.Wire

open Lib Program Storage Tape Drive List

/-! ## §1. Requests. -/

/-- What the loop makes of the bytes it has. -/
inductive Turn where
  /-- They are not a whole request. -/
  | wait
  /-- They are no request: BUSY is answered and the connection is left. -/
  | refuse
  /-- The request is dispatched. -/
  | run (p : CdbPacket) (rest : Bytes)
  deriving DecidableEq

/-- The loop of `main`, up to the dispatch. -/
def nextTurn (maxFrameBytes : Nat) (bs : Bytes) : Turn :=
  match decodeHeader bs with
  | (.ok header, rest) =>
    if maxFrameBytes < header.dataLen then .refuse
    else
      match readExact WireError.unexpectedEof header.dataLen rest with
      | (.ok data, rest) => .run ⟨header.cdb, data, header.initiator⟩ rest
      | (.error _, _) => .wait
  | (.error .unexpectedEof, _) => .wait
  | (.error _, _) => .refuse

variable {maxFrameBytes n : Nat} {p : CdbPacket} {name : Option Bytes} {cdb : Bytes} {reply : Reply}
  {r : CdbResponse}

theorem nextTurn_run {bs rest : Bytes} (h : nextTurn maxFrameBytes bs = .run p rest) :
    CdbPacket.decode bs = (.ok p, rest) := by
  unfold nextTurn at h
  split at h
  · next header mid hheader =>
    split at h
    · cases h
    split at h
    · next data left hdata =>
      cases h
      unfold CdbPacket.decode
      rw [run_bind_ok hheader, run_bind_ok hdata]
      rfl
    · cases h
  · cases h
  · cases h

theorem extends_decode : Extends CdbPacket.decode :=
  extends_decodeHeader.bind fun _ => (Extends.readExact _ _).bind fun _ => Extends.pure _

/-! ## §2. Requests of the handler. -/

section Requests

variable {env : HandlerEnv} {c : TcmuCommand} {bytes : Bytes} {complete : Bool}

/-- The request a command announces: what the handler writes, or would if the buffers of the
command held as much as it says. -/
def TcmuCommand.announced (env : HandlerEnv) (c : TcmuCommand) : Bytes :=
  (sentInitiator env).elim [] initiatorHeader ++ ([UInt8.ofNat c.cdb.length] ++
    (c.cdb ++ beBytes 4 c.dataOutLen)) ++
    (c.dataOut env ++ replicate (c.dataOutLen - (c.dataOut env).length) 0)

theorem length_dataOut_le (env : HandlerEnv) (c : TcmuCommand) :
    (c.dataOut env).length ≤ c.dataOutLen := by
  unfold TcmuCommand.dataOut
  split
  · simp
  · simp only [length_append, length_take, length_drop, length_map, length_range]
    omega

section

variable (h : requestOf env c = .ok (bytes, complete))
include h

/-- What the handler writes is the announced request, or the front of it. -/
theorem announced_eq :
    c.announced env = bytes ++ replicate (c.dataOutLen - (c.dataOut env).length) 0 := by
  obtain ⟨_, hbytes, _⟩ := requestOf_ok h
  unfold TcmuCommand.announced
  rw [hbytes]
  simp

theorem prefix_announced : bytes <+: c.announced env := by
  rw [announced_eq h]
  exact prefix_append _ _

/-- Only a complete request is the announced one. -/
theorem complete_of_announced (heq : bytes = c.announced env) : complete = true := by
  have hlen := congrArg List.length (announced_eq h)
  have hle := length_dataOut_le env c
  rw [← heq, length_append, length_replicate] at hlen
  rw [(requestOf_ok h).2.2]
  exact decide_eq_true (by omega)

omit h in
theorem sentInitiator_ne_nil {name : Bytes} (h : sentInitiator env = some name) : name ≠ [] := by
  have hvar : ∀ raw bs, nonEmptyVar raw = some bs → bs ≠ [] := by
    intro raw bs hraw
    unfold nonEmptyVar at hraw
    cases raw with
    | none => cases hraw
    | some bs' =>
      grind
  obtain ⟨raw, hraw, h⟩ := Option.bind_eq_some_iff.mp h
  split at h
  · cases h
  · cases h
    rcases Option.or_eq_some_iff.mp hraw with hraw | ⟨_, hraw⟩
    · exact hvar _ _ hraw
    · exact hvar _ _ hraw

theorem dataOutLen_lt : c.dataOutLen < 2 ^ 32 := by
  by_cases hout : cdbHasDataOut (byteAt c.cdb 0) = true
  swap
  · unfold TcmuCommand.dataOutLen
    rw [if_neg hout]
    omega
  have hle : c.dataOutLen ≤ cdbMaxDataOutLen (byteAt c.cdb 0) := by
    unfold requestOf at h
    split at h
    · cases h
    grind
  have hmax : cdbMaxDataOutLen (byteAt c.cdb 0) < 2 ^ 32 := by
    unfold cdbMaxDataOutLen
    split
    · omega
    · split
      · omega
      · omega
  omega

omit h in
/-- Data that are too long are refused. -/
theorem fails_readCdb {initiator : Option String} (hcdb : CdbLength cdb.length) (hn : n < 2 ^ 32)
    (hmax : maxDataLen < n) : Fails (readCdb initiator cdb.length) (cdb ++ beBytes 4 n) := by
  refine (Reads.check (not_not_intro hcdb)).bind_nil_fails ?_
  refine (Reads.readExact _ cdb).bind_fails ?_
  refine (Reads.readU32 _ hn).bind_last_fails ?_
  exact (Fails.check hmax).bind_nil

/-- What the data plane takes in a header: a name that is text, and data up to its limit. -/
def HeaderTaken (name : Option Bytes) (n : Nat) : Prop :=
  (∀ raw, name = some raw → (textOf raw).isSome = true) ∧ n ≤ maxDataLen

/-- The header of a request. -/
def headerBytes (name : Option Bytes) (cdb : Bytes) (n : Nat) : Bytes :=
  name.elim [] initiatorHeader ++ ([UInt8.ofNat cdb.length] ++ (cdb ++ beBytes 4 n))

omit h in
theorem reads_header (hcdb : CdbLength cdb.length)
    (hname : ∀ raw, name = some raw → raw ≠ [] ∧ raw.length ≤ maxInitiatorLen)
    (htaken : HeaderTaken name n) :
    ∃ i, Reads decodeHeader (headerBytes name cdb n) ⟨cdb, n, i⟩ := by
  have hlen := hcdb.lt
  cases name with
  | none =>
    -- the plain form: the first byte is the length of the CDB
    refine ⟨none, (Reads.readU8 _ hlen.1).bind ?_⟩
    rw [if_neg hlen.2]
    exact reads_readCdb hcdb htaken.2
  | some raw =>
    obtain ⟨hne, hmax⟩ := hname raw rfl
    obtain ⟨text, htext⟩ := Option.isSome_iff_exists.mp (htaken.1 raw rfl)
    refine ⟨nonBlank text, (Reads.readU8 _ (by decide)).bind ?_⟩
    exact (reads_initiatorBytes hne hmax htext).bind
      ((Reads.readU8 _ hlen.1).bind (reads_readCdb hcdb htaken.2))

omit h in
theorem fails_header (hcdb : CdbLength cdb.length)
    (hname : ∀ raw, name = some raw → raw ≠ [] ∧ raw.length ≤ maxInitiatorLen) (hn : n < 2 ^ 32)
    (hno : ¬ HeaderTaken name n) : Fails decodeHeader (headerBytes name cdb n) := by
  have hlen := hcdb.lt
  cases name with
  | none =>
    have hlong : maxDataLen < n := Nat.lt_of_not_le fun hle => hno ⟨by simp, hle⟩
    refine (Reads.readU8 _ hlen.1).bind_fails ?_
    rw [if_neg hlen.2]
    exact fails_readCdb hcdb hn hlong
  | some raw =>
    obtain ⟨hne, hmax⟩ := hname raw rfl
    refine (Reads.readU8 _ (by decide)).bind_fails ?_
    cases htext : textOf raw with
    | none => exact (fails_initiatorBytes hne hmax htext).bind
    | some text =>
      have hlong : maxDataLen < n := by
        refine Nat.lt_of_not_le fun hle => hno ⟨fun raw' hraw => ?_, hle⟩
        cases hraw
        rw [htext]
        rfl
      exact (reads_initiatorBytes hne hmax htext).bind_fails
        ((Reads.readU8 _ hlen.1).bind_fails (fails_readCdb hcdb hn hlong))

omit h in
theorem sentInitiator_fits (raw : Bytes) (hraw : sentInitiator env = some raw) :
    raw ≠ [] ∧ raw.length ≤ maxInitiatorLen :=
  ⟨sentInitiator_ne_nil hraw, length_sentInitiator hraw⟩

/-- **The request of a command** is read to its last byte, or refused. -/
theorem request_read_or_refused : (∃ p, Reads CdbPacket.decode (c.announced env) p) ∨
      Fails CdbPacket.decode (c.announced env) := by
  have hlen : (c.dataOut env ++ replicate (c.dataOutLen - (c.dataOut env).length) 0).length =
      c.dataOutLen := by simp [length_dataOut_le]
  have hcdb := (requestOf_ok h).1
  by_cases htaken : HeaderTaken (sentInitiator env) c.dataOutLen
  · obtain ⟨i, hread⟩ := reads_header hcdb sentInitiator_fits htaken
    exact .inl ⟨_, hread.bind (Reads.readExact_of_length _ hlen).map⟩
  · exact .inr (fails_header hcdb sentInitiator_fits (dataOutLen_lt h) htaken).bind

/-- **Nothing but the whole request** of a command is dispatched. -/
theorem turn_of_front {sent rest : Bytes} (hsent : sent <+: c.announced env)
    (hrun : nextTurn maxFrameBytes sent = .run p rest) :
    sent = c.announced env ∧ rest = [] ∧ Reads CdbPacket.decode (c.announced env) p := by
  have hdecode := nextTurn_run hrun
  rcases request_read_or_refused h with ⟨q, hread⟩ | hfail
  · obtain ⟨heq, hp, hrest⟩ := hread.eq_of_front extends_decode hsent hdecode
    subst hp
    exact ⟨heq, hrest, hread⟩
  · exact absurd hdecode (hfail.not_ok extends_decode hsent)

end

/-- **When a request of the handler is taken**: when the name it sends is text, and its data are
within the limit of the protocol and the one of the server. -/
theorem request_taken_iff (env : HandlerEnv) (c : TcmuCommand) {bytes : Bytes}
    (h : requestOf env c = .ok (bytes, true)) (maxFrameBytes : Nat) :
    (∃ p, nextTurn maxFrameBytes bytes = .run p []) ↔
      (∀ name, sentInitiator env = some name → (textOf name).isSome = true) ∧
        c.dataOutLen ≤ maxDataLen ∧ c.dataOutLen ≤ maxFrameBytes := by
  obtain ⟨hcdb, hbytes, hcomplete⟩ := requestOf_ok h
  have hlen : (c.dataOut env).length = c.dataOutLen := of_decide_eq_true hcomplete.symm
  have hparts : bytes = headerBytes (sentInitiator env) c.cdb c.dataOutLen ++ c.dataOut env := by
    unfold headerBytes
    rw [hbytes]
    simp
  by_cases htaken : HeaderTaken (sentInitiator env) c.dataOutLen
  swap
  · -- the header is refused
    have hfail := fails_header hcdb sentInitiator_fits (dataOutLen_lt h) htaken
    refine iff_of_false ?_ fun hall => htaken ⟨hall.1, hall.2.1⟩
    rintro ⟨p, hrun⟩
    have hread := nextTurn_run hrun
    rw [hparts, ← append_nil (_ ++ _)] at hread
    exact hfail.bind [] p (congrArg Prod.fst hread)
  obtain ⟨i, hread⟩ := reads_header hcdb sentInitiator_fits htaken
  have hturn : nextTurn maxFrameBytes bytes =
      if maxFrameBytes < c.dataOutLen then .refuse else .run ⟨c.cdb, c.dataOut env, i⟩ [] := by
    unfold nextTurn
    rw [hparts, hread (c.dataOut env)]
    simp [readExact, ← hlen]
  rw [hturn]
  by_cases hlimit : maxFrameBytes < c.dataOutLen
  · rw [if_pos hlimit]
    refine iff_of_false ?_ fun hall => absurd hall.2.2 (Nat.not_le_of_lt hlimit)
    rintro ⟨p, hrun⟩
    cases hrun
  · rw [if_neg hlimit]
    exact iff_of_true ⟨_, rfl⟩ ⟨htaken.1, htaken.2, Nat.le_of_not_lt hlimit⟩

theorem request_taken_write : requestOf unnamedEnv (writeCommand [1, 2, 3]) =
      .ok ([6, 0x0A, 0, 0, 0, 0, 0, 0, 0, 0, 3, 1, 2, 3], true) ∧
    ∃ p, nextTurn maxDataLen [6, 0x0A, 0, 0, 0, 0, 0, 0, 0, 0, 3, 1, 2, 3] = .run p [] := by
  have hrequest : requestOf unnamedEnv (writeCommand [1, 2, 3]) =
      .ok ([6, 0x0A, 0, 0, 0, 0, 0, 0, 0, 0, 3, 1, 2, 3], true) := by decide +kernel
  refine ⟨hrequest, (request_taken_iff _ _ hrequest maxDataLen).mpr ⟨?_, by decide, by decide⟩⟩
  intro name hname
  cases hname

/-- The server leaves the connection of a handler with a name that is not text. -/
theorem request_name_refused :
    requestOf ⟨some [0xE9], none, fun _ => 0⟩ ⟨[0, 0, 0, 0, 0, 0], [], 0, true⟩ =
        .ok ([0xFF, 1, 1, 0xE9, 6, 0, 0, 0, 0, 0, 0, 0, 0, 0, 0], true) ∧
      nextTurn maxDataLen [0xFF, 1, 1, 0xE9, 6, 0, 0, 0, 0, 0, 0, 0, 0, 0, 0] = .refuse := by
  decide +kernel

end Requests

/-! ## §3. Responses. -/

/-- `SenseFrame`, apart from its status, which no response takes. -/
structure SenseFrame where
  senseKey : UInt8
  asc : UInt8
  ascq : UInt8
  endOfMedium : Bool
  informationValid : Bool
  information : Nat
  deriving Repr, DecidableEq

def senseFrameToBytes (frame : SenseFrame) : Bytes :=
  let flags : UInt8 := frame.senseKey &&& 0x0F ||| (if frame.endOfMedium then 0x40 else 0) |||
    (if frame.senseKey = 0 ∧ frame.asc = 0 ∧ frame.ascq = 1 then 0x80 else 0)
  [if frame.informationValid then 0xF0 else 0x70, 0, flags] ++
    (if frame.informationValid then beBytes 4 frame.information else [0, 0, 0, 0]) ++
    [10, 0, 0, 0, 0, frame.asc, frame.ascq, 0, 0, 0, 0]

def buildSenseFixed (senseKey asc ascq : Nat) : Bytes :=
  [0x70, 0, UInt8.ofNat senseKey &&& 0x0F, 0, 0, 0, 0, 10, 0, 0, 0, 0, UInt8.ofNat asc,
    UInt8.ofNat ascq, 0, 0, 0, 0]

def CdbResponse.good (reply : Bytes) : CdbResponse := ⟨[], reply, 0x00⟩

def CdbResponse.checkCondition (sense : Bytes) : CdbResponse := ⟨sense, [], 0x02⟩

def CdbResponse.busy : CdbResponse := ⟨[], [], 0x08⟩

/-- The blocks in front of a filemark, which `dispatch_fixed_block_io_with_context` returns. -/
def partialData : TapeError → Bytes
  | .filemarkDetected _ data => data
  | _ => []

/-- The response the dispatcher builds for what the drive has done. -/
def Answers : Reply → CdbResponse → Prop
  | .good data, r => r = .good data
  | .info, r => (∃ reply, r = .good reply) ∨ ∃ sense, r = .checkCondition sense
  | .check key asc ascq, r => r = .checkCondition (buildSenseFixed key asc ascq)
  | .failed e, r => ∃ frame, r = { CdbResponse.checkCondition (senseFrameToBytes frame) with
      reply := partialData e }

theorem Answers.status (h : Answers reply r) : r.status = 0x00 ∨ r.status = 0x02 := by
  cases reply with
  | good data => exact .inl (congrArg CdbResponse.status h)
  | info =>
    rcases h with ⟨reply, rfl⟩ | ⟨sense, rfl⟩
    · exact .inl rfl
    · exact .inr rfl
  | check key asc ascq => exact .inr (congrArg CdbResponse.status h)
  | failed e =>
    obtain ⟨frame, rfl⟩ := h
    exact .inr rfl

/-- **No command that was dispatched is answered with BUSY.** -/
theorem Answers.not_busy (h : Answers reply r) : r.status ≠ 0x08 := by
  rcases h.status with hs | hs
  · rw [hs]
    decide
  · rw [hs]
    decide

end Holo.Wire
