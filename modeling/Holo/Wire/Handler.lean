/-
Holo.Wire.Handler — the command handler of the kernel's side, `handler_holo.c`.

`holo_handle_cmd` writes one request to the socket and reads one response.  The request is
modelled as the bytes that are written if no write fails, the response as a reader.

Main results:
* `reads_request`: what the handler writes is read by the data plane as the command;
* `reads_reply`: what the data plane answers is read by the handler;
* `frames_round_trip`: both sides of the protocol agree;
* `request_sends_own_bytes_iff`: when nothing but the initiator's bytes is sent.
-/
import Holo.Wire.Packet
import Holo.Drive.Cdb

namespace Holo.Wire

open Lib Program Storage Drive List

/-! ## §1. The request. -/

/-- The status the handler gives to the kernel. -/
inductive TcmuStatus where
  | ok | invalidCdb | busy | rdErr | passthroughErr | hwErr
  deriving Repr, DecidableEq

/-- A command of the kernel. -/
structure TcmuCommand where
  /-- As many bytes as `tcmu_cdb_get_length` counts. -/
  cdb : Bytes
  /-- What is in the buffers of the command. -/
  iovec : List Bytes
  /-- `runner_cmd->requested`. -/
  requested : Nat
  /-- `holo_read_len_entry` finds the entry of the command. -/
  readLenEntry : Bool

/-- The environment of the handler. -/
structure HandlerEnv where
  /-- `HOLO_TCMU_INITIATOR_ID`. -/
  tcmuInitiatorId : Option Bytes
  /-- `HOLO_SCSI_INITIATOR`. -/
  scsiInitiator : Option Bytes
  /-- What a buffer holds before anything is copied to it. -/
  heap : Nat → UInt8

section

variable (env : HandlerEnv) (c : TcmuCommand) (opcode : Nat)

def cdbIsWriteOpcode : Bool := opcode ∈ [0x0A, 0x2A, 0xAA, 0x8A]

def cdbHasDataOut : Bool :=
  cdbIsWriteOpcode opcode || opcode ∈ [0x15, 0x55, 0x5F, 0x8D]

def cdbMaxDataOutLen : Nat :=
  if cdbIsWriteOpcode opcode then 2 ^ 32 - 1
  else if opcode = 0x8D then 64 * 1024
  else 1024 * 1024

/-- A C string that is set and not empty. -/
def nonEmptyVar (raw : Option Bytes) : Option Bytes :=
  raw.bind fun bs => if bs = [] then none else some bs

def holoInitiatorId : Option Bytes :=
  (nonEmptyVar env.tcmuInitiatorId).or (nonEmptyVar env.scsiInitiator)

/-- The name that is sent, by `holo_initiator_len`: one that is too long is not. -/
def sentInitiator : Option Bytes :=
  (holoInitiatorId env).bind fun name => if maxInitiatorLen < name.length then none else some name

def cdbDataOutLen (cdb : Bytes) (fallback available : Nat) : Nat :=
  let opcode := byteAt cdb 0
  if cdbIsWriteOpcode opcode then if 0 < available then available else fallback
  else
    let want :=
      if opcode = 0x15 then if 5 ≤ cdb.length then byteAt cdb 4 else fallback
      else if opcode = 0x55 ∨ opcode = 0x5F then
        if 9 ≤ cdb.length then readBe16 cdb 7 else fallback
      else if opcode = 0x8D then if 14 ≤ cdb.length then readBe32 cdb 10 else fallback
      else fallback
    if 0 < available ∧ available < want then available else want

def holoFixedMultiRead (cdb : Bytes) : Bool :=
  if byteAt cdb 1 &&& 1 = 0 then false
  else if byteAt cdb 0 = 0x08 then byteAt cdb 2 ≠ 0 || byteAt cdb 3 ≠ 0 || byteAt cdb 4 ≠ 1
  else byteAt cdb 0 = 0x88 && (byteAt cdb 10 ≠ 0 || byteAt cdb 11 ≠ 0 || byteAt cdb 12 ≠ 0 ||
    1 < byteAt cdb 13)

/-- The bytes in the buffers of a command. -/
def TcmuCommand.buffer : Bytes := c.iovec.flatten

/-- How much data a command sends. -/
def TcmuCommand.dataOutLen : Nat :=
  if cdbHasDataOut (byteAt c.cdb 0) then cdbDataOutLen c.cdb c.requested c.buffer.length else 0

/-- The data a command sends: of a WRITE straight from its buffers, as far as they go, of another
command from a copy. -/
def TcmuCommand.dataOut : Bytes :=
  if cdbIsWriteOpcode (byteAt c.cdb 0) then c.buffer.take c.dataOutLen
  else
    let copy := (range c.dataOutLen).map env.heap
    c.buffer.take copy.length ++ copy.drop c.buffer.length

/-- The request of `holo_handle_cmd`: the status if the command is refused, or the bytes that are
written and whether they are all of the request. -/
def requestOf : Except TcmuStatus (Bytes × Bool) :=
  if ¬ CdbLength c.cdb.length then .error .invalidCdb
  else if holoFixedMultiRead c.cdb && !c.readLenEntry then .error .rdErr
  else if cdbHasDataOut (byteAt c.cdb 0) && cdbMaxDataOutLen (byteAt c.cdb 0) < c.dataOutLen then
    .error .invalidCdb
  else
    .ok ((sentInitiator env).elim [] initiatorHeader ++ [UInt8.ofNat c.cdb.length] ++ c.cdb ++
      beBytes 4 c.dataOutLen ++ c.dataOut env, (c.dataOut env).length = c.dataOutLen)

/-! ## §2. The response. -/

/-- How reading a response ends early. -/
inductive ReplyError where
  /-- A read fails. -/
  | readFailed
  /-- The reply is longer than 16 MiB. -/
  | tooLong
  /-- The buffers of the command are too small. -/
  | noRoom
  deriving Repr, DecidableEq

/-- What the handler has of a response. -/
structure Received where
  /-- What is in the sense buffer. -/
  sense : Bytes
  /-- What is at the front of the buffers of the command. -/
  dataIn : Bytes
  status : UInt8
  deriving Repr, DecidableEq

def senseBufferSize : Nat := 96

def holoMaxReply : Nat := 16 * 1024 * 1024

/-- How much of a reply is copied to the buffers of the command. -/
def TcmuCommand.copyLen (replyLen : Nat) : Nat :=
  if c.iovec = [] then 0
  else if 0 < c.requested ∧ c.requested < replyLen then c.requested
  else replyLen

/-- The part of `holo_handle_cmd` that reads the response. -/
def readReply : Program ReplyError Bytes Received := do
  let senseLen ← readU8 .readFailed
  let sense ← readExact .readFailed (min senseLen senseBufferSize)
  let _ ← readExact .readFailed (senseLen - senseBufferSize)
  let replyLen ← readU32 .readFailed
  check (holoMaxReply < replyLen) .tooLong
  -- the reader stops when the buffers are full
  let dataIn ← readExact .readFailed (min (c.copyLen replyLen) c.buffer.length)
  check (c.buffer.length < c.copyLen replyLen) .noRoom
  let _ ← readExact .readFailed (replyLen - c.copyLen replyLen)
  let status ← readU8 .readFailed
  return ⟨sense, dataIn, UInt8.ofNat status⟩

/-- The status for a response that was read. -/
def statusOf (r : Received) : TcmuStatus :=
  if r.status = 0x00 then .ok
  else if r.status = 0x02 then
    if r.dataIn ≠ [] ∧ (byteAt c.cdb 0 = 0x08 ∨ byteAt c.cdb 0 = 0x88) ∧ c.readLenEntry = false then
      .rdErr
    else .passthroughErr
  else if r.status = 0x08 then .busy
  else .hwErr

end

/-- The status when reading ends early. -/
def ReplyError.status : ReplyError → TcmuStatus
  | .readFailed | .noRoom => .busy
  | .tooLong => .rdErr

/-! ## §3. Requests of the handler. -/

variable {name : Option String} {α : Type} {encode : α → Except WireError Bytes}

variable {env : HandlerEnv} {c : TcmuCommand} {bytes : Bytes} {complete : Bool}

/-- The initiator the data plane finds in the handler's request. -/
def TextOf (sent : Option Bytes) (name : Option String) : Prop :=
  sent = name.map bytesOf ∧ ∀ n, name = some n → Trimmed n ∧ n ≠ ""

theorem requestOf_ok (h : requestOf env c = .ok (bytes, complete)) :
    CdbLength c.cdb.length ∧ bytes = (sentInitiator env).elim [] initiatorHeader ++
      [UInt8.ofNat c.cdb.length] ++ c.cdb ++ beBytes 4 c.dataOutLen ++ c.dataOut env ∧
      complete = decide ((c.dataOut env).length = c.dataOutLen) := by
  unfold requestOf at h
  split at h
  · cases h
  next hlen =>
  split at h
  · cases h
  · split at h
    · cases h
    · cases h
      exact ⟨not_not.mp hlen, rfl, rfl⟩

theorem length_sentInitiator {name : Bytes} (h : sentInitiator env = some name) :
    name.length ≤ maxInitiatorLen := by
  unfold sentInitiator at h
  cases hid : holoInitiatorId env with
  | none => simp [hid] at h
  | some raw =>
    grind

theorem request_frame (h : requestOf env c = .ok (bytes, true))
    (hname : TextOf (sentInitiator env) name) (hdata : (c.dataOut env).length ≤ maxDataLen) :
    ∃ p : CdbPacket, p = ⟨c.cdb, c.dataOut env, name⟩ ∧ p.Fits ∧ p.Named ∧ bytes = p.frame := by
  obtain ⟨hcdb, hbytes, hcomplete⟩ := requestOf_ok h
  have hlen : (c.dataOut env).length = c.dataOutLen := of_decide_eq_true hcomplete.symm
  let p : CdbPacket := ⟨c.cdb, c.dataOut env, name⟩
  have hnamed : p.Named := hname.2
  have hsent : p.name = name := hnamed.name
  refine ⟨p, rfl, ⟨hcdb, hdata, ?_⟩, hnamed, ?_⟩
  · intro n hn
    rw [hsent] at hn
    subst hn
    exact length_sentInitiator hname.1
  · unfold CdbPacket.frame plainFrame
    rw [hsent, hbytes, hname.1, hlen]
    cases name with
    | none | some => simp [p]

/-- **What the handler writes** is read by the data plane as the command. -/
theorem reads_request (h : requestOf env c = .ok (bytes, true))
    (hname : TextOf (sentInitiator env) name) (hdata : (c.dataOut env).length ≤ maxDataLen) :
    Reads CdbPacket.decode bytes ⟨c.cdb, c.dataOut env, name⟩ := by
  obtain ⟨_, rfl, hfits, hnamed, rfl⟩ := request_frame h hname hdata
  have hread := reads_packet hfits
  rwa [hnamed.name] at hread

/-- The data of a command are the first bytes in its buffers. -/
theorem dataOut_of_full (env : HandlerEnv) (hbuf : c.dataOutLen ≤ c.buffer.length) :
    c.dataOut env = c.buffer.take c.dataOutLen := by
  simp [TcmuCommand.dataOut, hbuf]

/-! ## §4. Responses to the handler. -/

variable {r : CdbResponse}

theorem copyLen_le (c : TcmuCommand) (n : Nat) : c.copyLen n ≤ n := by
  grind [TcmuCommand.copyLen]

/-- A response in the parts the handler reads: the sense up to the end of its buffer, and the
reply up to byte `n`. -/
theorem frame_split (r : CdbResponse) (n : Nat) :
    r.frame = [UInt8.ofNat r.sense.length] ++ (r.sense.take senseBufferSize ++
      (r.sense.drop senseBufferSize ++ (beBytes 4 r.reply.length ++
        (r.reply.take n ++ (r.reply.drop n ++ [r.status]))))) := by
  grind [CdbResponse.frame, take_append_drop]

theorem CdbResponse.Fits.reply_le (h : r.Fits) : ¬ holoMaxReply < r.reply.length := by
  have hreply := h.reply
  unfold maxDataLen at hreply
  unfold holoMaxReply
  omega

/-- **What the data plane answers** is read by the handler: the sense as far as its buffer goes,
and the reply as far as the command has asked for it. -/
theorem reads_reply (h : r.Fits) (hroom : c.copyLen r.reply.length ≤ c.buffer.length) :
    Reads (readReply c) r.frame ⟨r.sense.take senseBufferSize,
      r.reply.take (c.copyLen r.reply.length), r.status⟩ := by
  have hlen := h.lengths
  have hcopy := copyLen_le c r.reply.length
  rw [frame_split r (c.copyLen r.reply.length)]
  refine (Reads.readU8 _ hlen.1).bind ?_
  refine (Reads.readExact_of_length _ (by rw [length_take, Nat.min_comm])).bind ?_
  refine (Reads.readExact_of_length _ (length_drop)).bind ?_
  refine (Reads.readU32 _ hlen.2).bind ?_
  refine (Reads.check h.reply_le).bind_nil ?_
  refine (Reads.readExact_of_length _ (by rw [length_take]; omega)).bind ?_
  refine (Reads.check (not_lt.mpr hroom)).bind_nil ?_
  refine (Reads.readExact_of_length _ (length_drop)).bind ?_
  have hstatus : Reads (readU8 ReplyError.readFailed) [r.status] r.status.toNat := by
    grind [Reads.readU8, UInt8.toNat_lt, UInt8.ofNat_toNat]
  refine hstatus.bind_last ?_
  rw [UInt8.ofNat_toNat]
  exact Reads.pure _

theorem extends_readReply (c : TcmuCommand) : Extends (readReply c) := by
  refine (Extends.readU8 _).bind fun _ => ?_
  refine (Extends.readExact _ _).bind fun _ => ?_
  refine (Extends.readExact _ _).bind fun _ => ?_
  refine (Extends.readU32 _).bind fun _ => ?_
  refine Extends.check.bind fun _ => ?_
  refine (Extends.readExact _ _).bind fun _ => ?_
  refine Extends.check.bind fun _ => ?_
  refine (Extends.readExact _ _).bind fun _ => ?_
  exact (Extends.readU8 _).bind fun _ => Extends.pure _

/-- A response that does not fit the buffers of the command. -/
theorem fails_reply (h : r.Fits) (hroom : c.buffer.length < c.copyLen r.reply.length) :
    Fails (readReply c) r.frame := by
  have hlen := h.lengths
  have hcopy := copyLen_le c r.reply.length
  rw [frame_split r c.buffer.length]
  refine (Reads.readU8 _ hlen.1).bind_fails ?_
  refine (Reads.readExact_of_length _ (by rw [length_take, Nat.min_comm])).bind_fails ?_
  refine (Reads.readExact_of_length _ length_drop).bind_fails ?_
  refine (Reads.readU32 _ hlen.2).bind_fails ?_
  refine (Reads.check h.reply_le).bind_nil_fails ?_
  refine (Reads.readExact_of_length _ (by rw [length_take]; omega)).bind_fails ?_
  exact (Fails.check hroom).bind_nil

/-- **The front of a response** is not read before it is the whole of it. -/
theorem readReply_of_front (h : r.Fits) {back rest : Bytes} {v : Received}
    (hback : back <+: r.frame)
    (hread : readReply c back = (.ok v, rest)) :
    back = r.frame ∧ v.status = r.status ∧ rest = [] := by
  by_cases hroom : c.copyLen r.reply.length ≤ c.buffer.length
  · obtain ⟨heq, hv, hrest⟩ :=
      (reads_reply h hroom).eq_of_front (extends_readReply c) hback hread
    exact ⟨heq, by rw [hv], hrest⟩
  · exact absurd hread ((fails_reply h (Nat.lt_of_not_le hroom)).not_ok (extends_readReply c) hback)

/-! ## §5. Both sides. -/

theorem flatten_eq_flatMap {frame : α → Bytes} (hframe : ∀ v bs, encode v = .ok bs → bs = frame v) :
    ∀ {vs : List α} {bss : List Bytes}, Forall₂ (fun v bs => encode v = .ok bs) vs bss →
      bss.flatten = vs.flatMap frame := by
  intro vs bss h
  induction h with
  | nil => rfl
  | cons hhead _ ih =>
    rw [flatten_cons, flatMap_cons, hframe _ _ hhead, ih]

theorem forall_of_encoded {P : α → Prop} (hfits : ∀ v bs, encode v = .ok bs → P v) :
    ∀ {vs : List α} {bss : List Bytes}, Forall₂ (fun v bs => encode v = .ok bs) vs bss →
      ∀ v ∈ vs, P v := by
  intro vs bss h
  induction h with
  | nil =>
    intro v hv
    cases hv
  | cons hhead _ ih =>
    grind

/-- **Both sides of the protocol agree**: requests and responses that were encoded one after the
other are decoded one by one and to the last byte; what the handler writes for a command is
read by the data plane as its CDB, initiator and data; and the handler reads the sense, the
reply and the status that the data plane encoded. -/
theorem frames_round_trip : (∀ (ps : List CdbPacket) (bss : List Bytes),
      Forall₂ (fun p bs => CdbPacket.encode p = .ok bs) ps bss → (∀ p ∈ ps, p.Named) →
        readTimes CdbPacket.decode ps.length bss.flatten = (.ok ps, [])) ∧
    (∀ (rs : List CdbResponse) (bss : List Bytes),
      Forall₂ (fun r bs => CdbResponse.encode r = .ok bs) rs bss →
        readTimes CdbResponse.decode rs.length bss.flatten = (.ok rs, [])) ∧
    (∀ (env : HandlerEnv) (c : TcmuCommand) (bytes : Bytes) (complete : Bool)
      (name : Option String), requestOf env c = .ok (bytes, complete) →
        TextOf (sentInitiator env) name → c.dataOutLen ≤ c.buffer.length →
        c.dataOutLen ≤ maxDataLen →
        complete = true ∧ ∀ rest, CdbPacket.decode (bytes ++ rest) =
          (.ok ⟨c.cdb, c.buffer.take c.dataOutLen, name⟩, rest)) ∧
    (∀ (c : TcmuCommand) (r : CdbResponse) (bs : Bytes), r.encode = .ok bs →
      c.copyLen r.reply.length ≤ c.buffer.length →
        ∀ rest, readReply c (bs ++ rest) = (.ok ⟨r.sense.take senseBufferSize,
          r.reply.take (c.copyLen r.reply.length), r.status⟩, rest)) := by
  -- packets, responses, the request of the handler, the response it reads
  refine ⟨?_, ?_, ?_, ?_⟩
  · intro ps bss henc hnamed
    have hfits : ∀ p ∈ ps, p.Fits :=
      forall_of_encoded (fun p bs h => (encode_packet_iff.mp h).1) henc
    rw [flatten_eq_flatMap (fun p bs h => (encode_packet_iff.mp h).2) henc]
    exact decode_encode_packets fun p hp => ⟨hfits p hp, hnamed p hp⟩
  · intro rs bss henc
    rw [flatten_eq_flatMap (fun r bs h => (encode_response_iff.mp h).2) henc]
    exact decode_encode_responses
      (forall_of_encoded (fun r bs h => (encode_response_iff.mp h).1) henc)
  · intro env c bytes complete name h hname hbuf hdata
    have hout := dataOut_of_full env hbuf
    have hlen : (c.dataOut env).length = c.dataOutLen := by
      rw [hout, length_take]
      omega
    have hcomplete : complete = true := by
      rw [(requestOf_ok h).2.2]
      exact decide_eq_true hlen
    subst hcomplete
    refine ⟨rfl, ?_⟩
    rw [← hout]
    exact reads_request h hname (hlen ▸ hdata)
  · intro c r bs henc hroom
    obtain ⟨hfits, rfl⟩ := encode_response_iff.mp henc
    exact reads_reply hfits hroom

/-- A request with the name of its initiator, and one without. -/
def twoRequests : List CdbPacket :=
  [⟨[0, 0, 0, 0, 0, 0], [], some "iqn.a"⟩, ⟨[0x0A, 0, 0, 0, 2, 0], [7, 8], none⟩]

theorem frames_round_trip_two : readTimes CdbPacket.decode twoRequests.length
    [[0xFF, 1, 5, 105, 113, 110, 46, 97, 6, 0, 0, 0, 0, 0, 0, 0, 0, 0, 0],
      [6, 0x0A, 0, 0, 0, 2, 0, 0, 0, 0, 2, 7, 8]].flatten = (.ok twoRequests, []) := by
  refine frames_round_trip.1 twoRequests _ ?_ ?_
  · refine Forall₂.cons (by decide +kernel) (Forall₂.cons (by decide +kernel) .nil)
  intro p hp
  rcases mem_cons.mp hp with rfl | hp
  · intro name hname
    cases hname
    exact ⟨by decide +kernel, by decide⟩
  · obtain rfl := mem_singleton.mp hp
    intro name hname
    cases hname

/-- The handler without an initiator. -/
def unnamedEnv : HandlerEnv := ⟨none, none, fun _ => 0⟩

/-- A WRITE with the given bytes in its buffer. -/
def writeCommand (data : Bytes) : TcmuCommand := ⟨[0x0A, 0, 0, 0, 0, 0], [data], 0, true⟩

/-- The handler sends what the data plane does not take. -/
theorem requestOf_large {data : Bytes} (h : data.length = maxDataLen + 1) :
    requestOf unnamedEnv (writeCommand data) =
      .ok ([6, 0x0A, 0, 0, 0, 0, 0, 1, 0, 0, 1] ++ data, true) := by
  have hbuf : (writeCommand data).buffer = data := by simp [writeCommand, TcmuCommand.buffer]
  have hlen : (writeCommand data).dataOutLen = maxDataLen + 1 := by
    show (if 0 < (writeCommand data).buffer.length then (writeCommand data).buffer.length else 0) =
      maxDataLen + 1
    rw [hbuf, h, if_pos (Nat.succ_pos _)]
  have hout : (writeCommand data).dataOut unnamedEnv = data := by grind [dataOut_of_full]
  unfold requestOf
  rw [hout, hlen, h]
  have hcdb : (writeCommand data).cdb = [0x0A, 0, 0, 0, 0, 0] := rfl
  rw [hcdb, if_neg (by decide), if_neg, if_neg (by decide)]
  swap
  · show ¬ (false && _) = true
    exact Bool.false_ne_true
  rfl

/-- **A name that is empty** is not sent, so that the request is read back without an initiator;
and a WRITE of more than 16 MiB is sent to a data plane that refuses it. -/
theorem requests_not_read_back : ((⟨[0, 0, 0, 0, 0, 0], [], some ""⟩ : CdbPacket).encode =
        .ok [6, 0, 0, 0, 0, 0, 0, 0, 0, 0, 0] ∧ Trimmed "" ∧
      CdbPacket.decode [6, 0, 0, 0, 0, 0, 0, 0, 0, 0, 0] =
        (.ok ⟨[0, 0, 0, 0, 0, 0], [], none⟩, [])) ∧
    ∃ data bytes, requestOf unnamedEnv (writeCommand data) = .ok (bytes, true) ∧
      CdbPacket.decode bytes = (.error (.dataTooLarge (maxDataLen + 1)), data) := by
  refine ⟨⟨by decide +kernel, by decide +kernel, by decide +kernel⟩, ?_⟩
  have hrefused : ∀ data, CdbPacket.decode ([6, 0x0A, 0, 0, 0, 0, 0, 1, 0, 0, 1] ++ data) =
      (.error (.dataTooLarge 16777217), data) := fun _ => rfl
  exact ⟨replicate (maxDataLen + 1) 0, _, requestOf_large length_replicate, hrefused _⟩

/-! ## §6. Whose bytes are sent. -/

/-- Buffers that hold anything at all bound the announced length. -/
theorem dataOutLen_le (c : TcmuCommand) (h : c.buffer ≠ []) : c.dataOutLen ≤ c.buffer.length := by
  have hpos : 0 < c.buffer.length := length_pos_of_ne_nil h
  unfold TcmuCommand.dataOutLen
  split
  swap
  · exact Nat.zero_le _
  -- a WRITE takes the length of its buffers, any other command is cut to it
  dsimp only [cdbDataOutLen]
  by_cases hwrite : cdbIsWriteOpcode (byteAt c.cdb 0) = true
  · rw [if_pos hwrite, if_pos hpos]
  rw [if_neg hwrite]
  have hcut : ∀ want, (if 0 < c.buffer.length ∧ c.buffer.length < want then c.buffer.length
      else want) ≤ c.buffer.length := by
    intro want
    split
    · exact le_rfl
    · next hwant => omega
  exact hcut _

/-- **The data of a request are the initiator's own bytes**, and no more are announced than its
buffers hold, exactly if the command has a buffer or announces nothing. -/
theorem request_sends_own_bytes_iff (env : HandlerEnv) (c : TcmuCommand) {bytes : Bytes}
    {complete : Bool} (h : requestOf env c = .ok (bytes, complete)) :
    (c.dataOutLen ≤ c.buffer.length ∧
      bytes = ((sentInitiator env).elim [] initiatorHeader ++ [UInt8.ofNat c.cdb.length] ++ c.cdb ++
        beBytes 4 c.dataOutLen) ++ c.buffer.take c.dataOutLen) ↔
      (c.buffer ≠ [] ∨ c.dataOutLen = 0) := by
  obtain ⟨_, hbytes, _⟩ := requestOf_ok h
  constructor
  · grind
  intro hcond
  have hle : c.dataOutLen ≤ c.buffer.length := by
    rcases hcond with hbuf | hzero
    · exact dataOutLen_le c hbuf
    · omega
  refine ⟨hle, ?_⟩
  rw [hbytes, dataOut_of_full env hle]

/-- A MODE SELECT(6) with a parameter list of four bytes in the given buffers. -/
def modeSelectCommand (iovec : List Bytes) : TcmuCommand :=
  ⟨[0x15, 0x10, 0, 0, 4, 0], iovec, 0, true⟩

theorem request_sends_own_bytes_modeSelect :
    requestOf unnamedEnv (modeSelectCommand [[1, 2], [3, 4, 5]]) =
      .ok ([6, 0x15, 0x10, 0, 0, 4, 0, 0, 0, 0, 4, 1, 2, 3, 4], true) ∧
    (modeSelectCommand [[1, 2], [3, 4, 5]]).dataOutLen ≤
      (modeSelectCommand [[1, 2], [3, 4, 5]]).buffer.length :=
  ⟨by decide, ((request_sends_own_bytes_iff unnamedEnv (modeSelectCommand [[1, 2], [3, 4, 5]])
    (by decide : requestOf unnamedEnv _ =
      .ok ([6, 0x15, 0x10, 0, 0, 4, 0, 0, 0, 0, 4, 1, 2, 3, 4], true))).mpr (.inl (by decide))).1⟩

/-- **A MODE SELECT without a buffer sends what was in memory**: it announces the four bytes of
its parameter list, of which the initiator has given none, and sends the contents of the block
it has allocated. -/
theorem request_sends_heap :
    (modeSelectCommand []).buffer.length < (modeSelectCommand []).dataOutLen ∧
    ∀ heap, requestOf ⟨none, none, heap⟩ (modeSelectCommand []) =
      .ok ([6, 0x15, 0x10, 0, 0, 4, 0, 0, 0, 0, 4, heap 0, heap 1, heap 2, heap 3], true) :=
  ⟨by decide, fun _ => rfl⟩

end Holo.Wire
