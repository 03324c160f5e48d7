/-
Holo.Wire.Packet — the frames between the kernel's command handler and the data plane.

A request is the CDB with its length, and the data with its length; the extended form starts
with a marker and the name of the initiator.  A response is the sense, the reply and the
status.  `encode` and `decode` are those of `cdb_wire.rs`.

Main results:
* `reads_packet`, `reads_response`: a frame is read back, whatever follows it;
* `extends_decodeHeader`: a header that was read does not depend on what follows;
* `decode_encode_packets`, `decode_encode_responses`: a stream of frames, frame by frame.
-/
import Holo.Lib.Wire
import Holo.Lib.Text

namespace Holo.Wire

open Lib Program List

/-! ## §1. Frames. -/

def maxSenseLen : Nat := 252

def maxDataLen : Nat := 16 * 2 ^ 20

def extendedRequestMarker : Nat := 0xFF

def extendedRequestVersion : Nat := 0x01

def maxInitiatorLen : Nat := 255

/-- The errors of `cdb_wire.rs`. -/
inductive WireError where
  | unexpectedEof
  | unsupportedVersion (version : Nat)
  | initiatorNotUtf8
  | unsupportedCdbLength (len : Nat)
  | dataTooLarge (len : Nat)
  | initiatorTooLong
  | senseTooLong
  | replyTooLarge (len : Nat)
  deriving Repr, DecidableEq

structure CdbPacket where
  cdb : Bytes
  data : Bytes
  initiator : Option String
  deriving DecidableEq

structure CdbPacketHeader where
  cdb : Bytes
  dataLen : Nat
  initiator : Option String
  deriving DecidableEq

structure CdbResponse where
  sense : Bytes
  reply : Bytes
  status : UInt8
  deriving Repr, DecidableEq

/-- A failed condition of an encoder. -/
def require (good : Prop) [Decidable good] (e : WireError) : Except WireError Unit :=
  if good then .ok () else .error e

/-- The lengths a CDB may have. -/
def CdbLength (n : Nat) : Prop := n = 6 ∨ n = 10 ∨ n = 12 ∨ n = 16

instance (n : Nat) : Decidable (CdbLength n) := inferInstanceAs (Decidable (_ ∨ _ ∨ _ ∨ _))

/-- The name without the blanks around it, if anything is left. -/
def nonBlank (name : String) : Option String :=
  if trim name = "" then none else some (trim name)

/-- The part of a request that both forms have. -/
def plainFrame (cdb data : Bytes) : Bytes :=
  [UInt8.ofNat cdb.length] ++ cdb ++ beBytes 4 data.length ++ data

/-- The marker and the name of an extended request. -/
def initiatorHeader (name : Bytes) : Bytes :=
  [UInt8.ofNat extendedRequestMarker] ++ [UInt8.ofNat extendedRequestVersion] ++
    [UInt8.ofNat name.length] ++ name

def CdbPacket.encode (p : CdbPacket) : Except WireError Bytes := do
  require (CdbLength p.cdb.length) (.unsupportedCdbLength p.cdb.length)
  require (p.data.length ≤ maxDataLen) (.dataTooLarge p.data.length)
  match p.initiator.bind nonBlank with
  | some name =>
    require ((bytesOf name).length ≤ maxInitiatorLen) .initiatorTooLong
    return initiatorHeader (bytesOf name) ++ plainFrame p.cdb p.data
  | none => return plainFrame p.cdb p.data

/-- The name in an extended request, read after the marker. -/
def readInitiator : Program WireError Bytes (Option String) := do
  let version ← readU8 .unexpectedEof
  check (version ≠ extendedRequestVersion) (.unsupportedVersion version)
  let len ← readU8 .unexpectedEof
  if len = 0 then return none
  else do
    let name ← readExact .unexpectedEof len
    let value ← ofExcept (match textOf name with
      | some text => .ok text
      | none => .error .initiatorNotUtf8)
    return nonBlank value

/-- The rest of a header, read after the length of the CDB. -/
def readCdb (initiator : Option String) (len : Nat) : Program WireError Bytes CdbPacketHeader := do
  check (¬ CdbLength len) (.unsupportedCdbLength len)
  let cdb ← readExact .unexpectedEof len
  let dataLen ← readU32 .unexpectedEof
  check (maxDataLen < dataLen) (.dataTooLarge dataLen)
  return ⟨cdb, dataLen, initiator⟩

def decodeHeader : Program WireError Bytes CdbPacketHeader := do
  let first ← readU8 .unexpectedEof
  if first = extendedRequestMarker then do
    let initiator ← readInitiator
    let len ← readU8 .unexpectedEof
    readCdb initiator len
  else readCdb none first

def CdbPacket.decode : Program WireError Bytes CdbPacket := do
  let header ← decodeHeader
  let data ← readExact .unexpectedEof header.dataLen
  return ⟨header.cdb, data, header.initiator⟩

def CdbResponse.encode (r : CdbResponse) : Except WireError Bytes := do
  require (r.sense.length ≤ maxSenseLen) .senseTooLong
  require (r.reply.length ≤ maxDataLen) (.replyTooLarge r.reply.length)
  return [UInt8.ofNat r.sense.length] ++ r.sense ++ beBytes 4 r.reply.length ++ r.reply ++
    [r.status]

def CdbResponse.decode : Program WireError Bytes CdbResponse := do
  let senseLen ← readU8 .unexpectedEof
  let sense ← readExact .unexpectedEof senseLen
  let replyLen ← readU32 .unexpectedEof
  check (maxDataLen < replyLen) (.replyTooLarge replyLen)
  let reply ← readExact .unexpectedEof replyLen
  let status ← readU8 .unexpectedEof
  return ⟨sense, reply, UInt8.ofNat status⟩

/-! ## §2. What is encoded. -/

theorem require_ok {good : Prop} [Decidable good] {e : WireError} {u : Unit} :
    require good e = .ok u ↔ good := by
  unfold require
  by_cases h : good
  · simp [h]
  · simp [h]

/-- The name that is sent for an initiator. -/
def CdbPacket.name (p : CdbPacket) : Option String := p.initiator.bind nonBlank

/-- The bytes of a packet. -/
def CdbPacket.frame (p : CdbPacket) : Bytes :=
  (p.name.elim [] fun name => initiatorHeader (bytesOf name)) ++ plainFrame p.cdb p.data

/-- The limits of the encoder. -/
structure CdbPacket.Fits (p : CdbPacket) : Prop where
  cdb : CdbLength p.cdb.length
  data : p.data.length ≤ maxDataLen
  name : ∀ name, p.name = some name → (bytesOf name).length ≤ maxInitiatorLen

variable {p : CdbPacket} {bs raw : Bytes} {n : Nat}

/-- **The encoder** writes the frame of a packet within its limits. -/
theorem encode_packet_iff : p.encode = .ok bs ↔ p.Fits ∧ bs = p.frame := by
  unfold CdbPacket.encode CdbPacket.frame
  rw [except_bind_eq_ok]
  constructor
  swap
  · intro h
    obtain ⟨hfits, rfl⟩ := h
    refine ⟨(), require_ok.mpr hfits.cdb, except_bind_eq_ok.mpr ⟨(), require_ok.mpr hfits.data, ?_⟩⟩
    cases hname : p.initiator.bind nonBlank with
    | none =>
      have hnone : p.name = none := hname
      rw [hnone]
      rfl
    | some name =>
      have hsome : p.name = some name := hname
      rw [hsome]
      exact except_bind_eq_ok.mpr ⟨(), require_ok.mpr (hfits.name name hsome), rfl⟩
  intro h
  obtain ⟨_, hcdb, h⟩ := h
  obtain ⟨_, hdata, h⟩ := except_bind_eq_ok.mp h
  rw [require_ok] at hcdb hdata
  cases hname : p.initiator.bind nonBlank with
  | none =>
    rw [hname] at h
    cases h
    have hnone : p.name = none := hname
    refine ⟨⟨hcdb, hdata, fun name hn => ?_⟩, by rw [hnone]; rfl⟩
    rw [hnone] at hn
    cases hn
  | some name =>
    rw [hname] at h
    obtain ⟨_, hlen, h⟩ := except_bind_eq_ok.mp h
    rw [require_ok] at hlen
    cases h
    have hsome : p.name = some name := hname
    refine ⟨⟨hcdb, hdata, fun name' hn => ?_⟩, by rw [hsome]; rfl⟩
    rw [hsome] at hn
    cases hn
    exact hlen

/-! ## §3. Requests read back. -/

theorem CdbLength.lt (h : CdbLength n) : n < 256 ∧ n ≠ extendedRequestMarker := by
  unfold CdbLength extendedRequestMarker at *
  omega

section Requests

variable {cdb data : Bytes} {initiator : Option String} {name : String}

theorem reads_readCdb (hcdb : CdbLength cdb.length) (hn : n ≤ maxDataLen) :
    Reads (readCdb initiator cdb.length) (cdb ++ beBytes 4 n) ⟨cdb, n, initiator⟩ := by
  have hlt : n < 2 ^ 32 := by
    unfold maxDataLen at hn
    omega
  refine (Reads.check (not_not_intro hcdb)).bind_nil ?_
  refine (Reads.readExact _ cdb).bind ?_
  refine (Reads.readU32 _ hlt).bind_last ?_
  exact (Reads.check (by omega)).map

theorem nonBlank_of_nonBlank (h : initiator.bind nonBlank = some name) :
    nonBlank name = some name := by
  cases initiator with
  | none => cases h
  | some raw =>
    grind [nonBlank, trim_trim]

theorem bytesOf_ne_nil (h : nonBlank name = some name) : (bytesOf name).length ≠ 0 := by
  intro hzero
  have hnil : bytesOf name = [] := length_eq_zero_iff.mp hzero
  have hempty : name = "" := by
    have htext := textOf_bytesOf name
    rw [hnil] at htext
    have htext' := textOf_bytesOf ""
    exact Option.some.inj (htext.symm.trans htext')
  rw [hempty] at h
  revert h
  decide

/-- A name of the initiator, after the marker, whatever its bytes are. -/
theorem reads_initiatorBytes {text : String} (hne : raw ≠ []) (hlen : raw.length ≤ maxInitiatorLen)
    (htext : textOf raw = some text) :
    Reads readInitiator ([UInt8.ofNat extendedRequestVersion] ++
      ([UInt8.ofNat raw.length] ++ raw)) (nonBlank text) := by
  have hlt : raw.length < 256 := by
    unfold maxInitiatorLen at hlen
    omega
  refine (Reads.readU8 _ (by decide)).bind ?_
  refine (Reads.readU8 _ hlt).bind ?_
  rw [if_neg (fun hzero => hne (length_eq_zero_iff.mp hzero))]
  refine (Reads.readExact _ raw).bind_last ?_
  rw [htext]
  exact Reads.ofExcept.bind_last (Reads.pure _)

theorem fails_initiatorBytes (hne : raw ≠ []) (hlen : raw.length ≤ maxInitiatorLen)
    (htext : textOf raw = none) :
    Fails readInitiator ([UInt8.ofNat extendedRequestVersion] ++
      ([UInt8.ofNat raw.length] ++ raw)) := by
  have hlt : raw.length < 256 := by
    unfold maxInitiatorLen at hlen
    omega
  refine (Reads.readU8 _ (by decide)).bind_fails ?_
  refine (Reads.readU8 _ hlt).bind_fails ?_
  rw [if_neg (fun hzero => hne (length_eq_zero_iff.mp hzero))]
  refine (Reads.readExact _ raw).bind_last_fails ?_
  rw [htext]
  exact Fails.ofExcept.bind_nil

theorem reads_readInitiator (hname : nonBlank name = some name)
    (hlen : (bytesOf name).length ≤ maxInitiatorLen) :
    Reads readInitiator ([UInt8.ofNat extendedRequestVersion] ++
      ([UInt8.ofNat (bytesOf name).length] ++ bytesOf name)) (some name) := by
  grind [bytesOf_ne_nil, reads_initiatorBytes, textOf_bytesOf]

theorem reads_decodeHeader (h : p.Fits) :
    Reads decodeHeader ((p.name.elim [] fun name => initiatorHeader (bytesOf name)) ++
      ([UInt8.ofNat p.cdb.length] ++ (p.cdb ++ beBytes 4 p.data.length)))
      ⟨p.cdb, p.data.length, p.name⟩ := by
  have hcdb := h.cdb.lt
  cases hname : p.name with
  | none =>
    refine (Reads.readU8 _ hcdb.1).bind ?_
    rw [if_neg hcdb.2]
    exact reads_readCdb h.cdb h.data
  | some name =>
    have hkept : nonBlank name = some name := nonBlank_of_nonBlank hname
    have hmarked : Reads decodeHeader ([UInt8.ofNat extendedRequestMarker] ++
        (([UInt8.ofNat extendedRequestVersion] ++ ([UInt8.ofNat (bytesOf name).length] ++
          bytesOf name)) ++ ([UInt8.ofNat p.cdb.length] ++ (p.cdb ++ beBytes 4 p.data.length))))
        ⟨p.cdb, p.data.length, some name⟩ := by
      refine (reads_readInitiator hkept (h.name name hname)).bind ?_
      refine (Reads.readU8 _ hcdb.1).bind ?_
      exact reads_readCdb h.cdb h.data
    simpa [initiatorHeader] using hmarked

/-- **A request is read back**, its initiator as it is sent. -/
theorem reads_packet (h : p.Fits) : Reads CdbPacket.decode p.frame ⟨p.cdb, p.data, p.name⟩ := by
  have hseq : Reads CdbPacket.decode
      (((p.name.elim [] fun name => initiatorHeader (bytesOf name)) ++
        ([UInt8.ofNat p.cdb.length] ++ (p.cdb ++ beBytes 4 p.data.length))) ++ p.data)
      ⟨p.cdb, p.data, p.name⟩ := by
    refine (reads_decodeHeader h).bind ?_
    exact (Reads.readExact _ p.data).map
  unfold CdbPacket.frame plainFrame
  simpa using hseq

/-! ## §4. Requests that are cut off. -/

theorem extends_readCdb (initiator : Option String) (len : Nat) :
    Extends (readCdb initiator len) := by
  refine Extends.check.bind fun _ => ?_
  refine (Extends.readExact _ _).bind fun _ => ?_
  refine (Extends.readU32 _).bind fun _ => ?_
  exact Extends.check.bind fun _ => Extends.pure _

theorem extends_readInitiator : Extends readInitiator := by
  refine (Extends.readU8 _).bind fun _ => ?_
  refine Extends.check.bind fun _ => ?_
  refine (Extends.readU8 _).bind fun len => ?_
  by_cases hlen : len = 0
  · rw [if_pos hlen]
    exact Extends.pure _
  · rw [if_neg hlen]
    refine (Extends.readExact _ _).bind fun _ => ?_
    exact (Extends.ofExcept _).bind fun _ => Extends.pure _

/-- What was decoded stays decoded when more bytes come. -/
theorem extends_decodeHeader : Extends decodeHeader := by
  refine (Extends.readU8 _).bind fun first => ?_
  by_cases hmark : first = extendedRequestMarker
  · rw [if_pos hmark]
    refine extends_readInitiator.bind fun _ => ?_
    exact (Extends.readU8 _).bind fun _ => extends_readCdb _ _
  · rw [if_neg hmark]
    exact extends_readCdb _ _

end Requests

/-! ## §5. Responses read back. -/

variable {r : CdbResponse}

/-- The bytes of a response. -/
def CdbResponse.frame (r : CdbResponse) : Bytes :=
  [UInt8.ofNat r.sense.length] ++ (r.sense ++ (beBytes 4 r.reply.length ++ (r.reply ++ [r.status])))

/-- The limits of the encoder. -/
structure CdbResponse.Fits (r : CdbResponse) : Prop where
  sense : r.sense.length ≤ maxSenseLen
  reply : r.reply.length ≤ maxDataLen

theorem encode_response_iff : r.encode = .ok bs ↔ r.Fits ∧ bs = r.frame := by
  unfold CdbResponse.encode CdbResponse.frame
  rw [except_bind_eq_ok]
  constructor
  · intro h
    obtain ⟨_, hsense, h⟩ := h
    obtain ⟨_, hreply, h⟩ := except_bind_eq_ok.mp h
    rw [require_ok] at hsense hreply
    cases h
    exact ⟨⟨hsense, hreply⟩, by simp⟩
  · intro h
    obtain ⟨hfits, rfl⟩ := h
    refine ⟨(), require_ok.mpr hfits.sense, except_bind_eq_ok.mpr
      ⟨(), require_ok.mpr hfits.reply, ?_⟩⟩
    simp [Pure.pure, Except.pure]

theorem CdbResponse.Fits.lengths (h : r.Fits) : r.sense.length < 256 ∧ r.reply.length < 2 ^ 32 := by
  have hs := h.sense
  have hr := h.reply
  unfold maxSenseLen at hs
  unfold maxDataLen at hr
  omega

/-- **A response is read back.** -/
theorem reads_response (h : r.Fits) : Reads CdbResponse.decode r.frame r := by
  have hlen := h.lengths
  refine (Reads.readU8 _ hlen.1).bind ?_
  refine (Reads.readExact _ r.sense).bind ?_
  refine (Reads.readU32 _ hlen.2).bind ?_
  refine (Reads.check (not_lt.mpr h.reply)).bind_nil ?_
  refine (Reads.readExact _ r.reply).bind ?_
  have hstatus : Reads (readU8 WireError.unexpectedEof) [r.status] r.status.toNat := by
    grind [Reads.readU8, UInt8.toNat_lt, UInt8.ofNat_toNat]
  refine hstatus.bind_last ?_
  rw [UInt8.ofNat_toNat]
  exact Reads.pure r

/-! ## §6. Streams of frames. -/

/-- The name of the initiator is sent as it is. -/
def CdbPacket.Named (p : CdbPacket) : Prop :=
  ∀ name, p.initiator = some name → Trimmed name ∧ name ≠ ""

theorem CdbPacket.Named.name (h : p.Named) : p.name = p.initiator := by
  unfold CdbPacket.name
  cases hi : p.initiator with
  | none => rfl
  | some name =>
    obtain ⟨htrim, hne⟩ := h name hi
    have heq : trim name = name := htrim
    show nonBlank name = some name
    unfold nonBlank
    rw [heq, if_neg hne]

/-- **Requests one after the other** are decoded one by one, to the last byte. -/
theorem decode_encode_packets {ps : List CdbPacket} (h : ∀ p ∈ ps, p.Fits ∧ p.Named) :
    readTimes CdbPacket.decode ps.length (ps.flatMap CdbPacket.frame) = (.ok ps, []) := by
  have hreads : Reads (readTimes CdbPacket.decode ps.length) (ps.flatMap CdbPacket.frame) ps := by
    refine Reads.readTimes fun p hp => ?_
    have hread := reads_packet (h p hp).1
    rwa [(h p hp).2.name] at hread
  have hall := hreads []
  rwa [append_nil] at hall

/-- **Responses one after the other** are decoded one by one, to the last byte. -/
theorem decode_encode_responses {rs : List CdbResponse} (h : ∀ r ∈ rs, r.Fits) :
    readTimes CdbResponse.decode rs.length (rs.flatMap CdbResponse.frame) = (.ok rs, []) := by
  have hall := Reads.readTimes (fun r hr => reads_response (h r hr)) []
  rwa [append_nil] at hall

end Holo.Wire
