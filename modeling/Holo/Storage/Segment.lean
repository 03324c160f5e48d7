/-
Holo.Storage.Segment — segment files as bytes: headers, the header pair, the reader.

Every file of a layout is a SEGMENT FILE.  Version 2 starts with two copies of a
48-byte header, each with its own CRC; the payload follows at offset 96.  A reader
takes the copy with the larger sequence number among those that pass their CRC, and
then checks the payload's length and CRC against it.

Main results:
* `decodeV2HeaderCopy_encode`: a header copy reads back as written;
* `decodeSegmentHeaderSet_pair`: the header in force depends on the two copies only;
* `decodeSegmentFileBytes_writeSegmentFile`: a freshly written file is readable;
* `decodeSegmentFileBytes_ok`: what an accepted file looks like.
-/
import Holo.Storage.Metadata

namespace Holo.Storage

open Lib List

/-! ## §1. Segment headers. -/

inductive SegmentKind where
  | data | metadata | blkMap | lookup | reclaim | dedup | segmentIndex
  deriving Repr, DecidableEq

/-- The stored discriminant of a kind. -/
def SegmentKind.toNat : SegmentKind → Nat
  | .data => 1
  | .metadata => 2
  | .blkMap => 3
  | .lookup => 4
  | .reclaim => 5
  | .dedup => 6
  | .segmentIndex => 7

/-- `SegmentKind::from_u16`. -/
def SegmentKind.fromNat : Nat → Option SegmentKind
  | 1 => some .data
  | 2 => some .metadata
  | 3 => some .blkMap
  | 4 => some .lookup
  | 5 => some .reclaim
  | 6 => some .dedup
  | 7 => some .segmentIndex
  | _ => none

theorem SegmentKind.fromNat_toNat (k : SegmentKind) : SegmentKind.fromNat k.toNat = some k := by
  cases k <;> rfl

theorem SegmentKind.toNat_lt (k : SegmentKind) : k.toNat < 256 ^ 2 := by
  cases k <;> decide

def storageLayoutMagic : Nat := 0x56544C58

def storageLayoutVersionV1 : Nat := 1

def storageLayoutVersion : Nat := 2

def segmentHeaderSize : Nat := 36

def segmentHeaderV2CopySize : Nat := 48

def segmentHeaderV2TotalSize : Nat := 96

structure SegmentHeader where
  magic : Nat
  version : Nat
  kind : SegmentKind
  segmentId : Nat
  sequence : Nat
  payloadLen : Nat
  checksum : Nat
  deriving Repr, DecidableEq

def SegmentHeader.new (kind : SegmentKind) (segmentId sequence : Nat) (payload : Bytes) :
    SegmentHeader where
  magic := storageLayoutMagic
  version := storageLayoutVersion
  kind := kind
  segmentId := segmentId
  sequence := sequence
  payloadLen := payload.length
  checksum := crc32c payload

section

variable (h : SegmentHeader)

def SegmentHeader.validate (payload : Bytes) : Except StorageError Unit :=
  if h.magic ≠ storageLayoutMagic then .error (.corrupt "invalid magic")
  else if h.version ≠ storageLayoutVersion ∧ h.version ≠ storageLayoutVersionV1 then
    .error (.versionMismatch storageLayoutVersion h.version)
  else if h.payloadLen ≠ payload.length then .error (.corrupt "payload length mismatch")
  else
    let checksum := if h.version = storageLayoutVersionV1 then fnv1a payload else crc32c payload
    -- only a version 1 header may switch its payload checksum off with a zero
    if h.version = storageLayoutVersionV1 ∧ h.checksum = 0 then .ok ()
    else if h.checksum ≠ checksum then .error (.corrupt "payload checksum mismatch")
    else .ok ()

def SegmentHeader.encode : Bytes :=
  leBytes 4 h.magic ++ (leBytes 2 h.version ++ (leBytes 2 h.kind.toNat ++
    (leBytes 8 h.segmentId ++ (leBytes 8 h.sequence ++ (leBytes 8 h.payloadLen ++
      leBytes 4 h.checksum)))))

def SegmentHeader.decode (buf : Bytes) : Except StorageError SegmentHeader :=
  if buf.length < 36 then .error (.corrupt "segment header too short")
  else match SegmentKind.fromNat (fieldAt buf 6 2) with
    | none => .error (.corrupt "unknown segment kind")
    | some kind => .ok
        { magic := fieldAt buf 0 4, version := fieldAt buf 4 2, kind := kind,
          segmentId := fieldAt buf 8 8, sequence := fieldAt buf 16 8,
          payloadLen := fieldAt buf 24 8, checksum := fieldAt buf 32 4 }

/-- Every field of the header fits its machine type. -/
def SegmentHeader.Fits : Prop :=
  h.magic < 256 ^ 4 ∧ h.version < 256 ^ 2 ∧ h.segmentId < 256 ^ 8 ∧ h.sequence < 256 ^ 8 ∧
    h.payloadLen < 256 ^ 8 ∧ h.checksum < 256 ^ 4

end

/-- The header of a new file fits, if the numbers it is given do. -/
theorem SegmentHeader.new_fits (kind : SegmentKind) {segmentId sequence : Nat} {payload : Bytes}
    (hid : segmentId < 256 ^ 8) (hseq : sequence < 256 ^ 8) (hlen : payload.length < 256 ^ 8) :
    (SegmentHeader.new kind segmentId sequence payload).Fits := by
  have hmagic : storageLayoutMagic < 256 ^ 4 := by decide
  have hversion : storageLayoutVersion < 256 ^ 2 := by decide
  exact ⟨hmagic, hversion, hid, hseq, hlen, crc32c_lt payload⟩

@[simp] theorem SegmentHeader.length_encode (h : SegmentHeader) : h.encode.length = 36 := by
  simp [SegmentHeader.encode]

/-- A header followed by anything reads back as written. -/
theorem SegmentHeader.decode_encode (h : SegmentHeader) (hfits : h.Fits) (rest : Bytes) :
    SegmentHeader.decode (h.encode ++ rest) = .ok h := by
  obtain ⟨hmagic, hver, hseg, hseq, hlen, hsum⟩ := hfits
  have hkind := h.kind.toNat_lt
  have hlong : ¬ (h.encode ++ rest).length < 36 := by simp
  rw [decode, if_neg hlong]
  simp (disch := first | assumption | decide) only [encode, append_assoc,
    fieldAt_leBytes_skip, fieldAt_leBytes_head, Nat.reduceSub, SegmentKind.fromNat_toNat]

/-! ## §2. Version 2 header copies. -/

/-- The bytes of a header copy that its own checksum covers. -/
def v2HeaderBody (h : SegmentHeader) : Bytes :=
  h.encode ++ (leBytes 2 1 ++ replicate 6 0)

def encodeV2HeaderCopy (h : SegmentHeader) : Bytes :=
  v2HeaderBody h ++ leBytes 4 (crc32c (v2HeaderBody h))

def decodeV2HeaderCopy (buf : Bytes) : Except StorageError SegmentHeader :=
  if buf.length < segmentHeaderV2CopySize then .error (.corrupt "v2 segment header too short")
  else if crc32c (buf.take 44) ≠ fieldAt buf 44 4 then
    .error (.corrupt "v2 segment header checksum mismatch")
  else
    match SegmentHeader.decode (buf.take segmentHeaderSize) with
    | .error e => .error e
    | .ok header =>
      if header.version ≠ storageLayoutVersion then
        .error (.versionMismatch storageLayoutVersion header.version)
      else .ok header

@[simp] theorem length_v2HeaderBody (h : SegmentHeader) : (v2HeaderBody h).length = 44 := by
  simp [v2HeaderBody]

@[simp] theorem length_encodeV2HeaderCopy (h : SegmentHeader) :
    (encodeV2HeaderCopy h).length = 48 := by
  simp [encodeV2HeaderCopy]

/-- **A version 2 header copy reads back as written.** -/
theorem decodeV2HeaderCopy_encode (h : SegmentHeader) (hfits : h.Fits)
    (hver : h.version = storageLayoutVersion) :
    decodeV2HeaderCopy (encodeV2HeaderCopy h) = .ok h := by
  have hbody : (encodeV2HeaderCopy h).take 44 = v2HeaderBody h := by
    rw [encodeV2HeaderCopy, take_append_of_le_length (by simp), take_of_length_le (by simp)]
  have hsum : fieldAt (encodeV2HeaderCopy h) 44 4 = crc32c (v2HeaderBody h) := by
    rw [encodeV2HeaderCopy, fieldAt_append_right _ _ _ _ (by simp), length_v2HeaderBody]
    have hhead := fieldAt_leBytes_head (w := 4) (n := crc32c (v2HeaderBody h)) (crc32c_lt _) []
    rwa [append_nil] at hhead
  have hhead : (encodeV2HeaderCopy h).take segmentHeaderSize = h.encode ++ [] := by rfl
  have hlong : ¬ (encodeV2HeaderCopy h).length < segmentHeaderV2CopySize := by
    simp [segmentHeaderV2CopySize]
  rw [decodeV2HeaderCopy, if_neg hlong, hbody, hsum, if_neg (by simp), hhead, h.decode_encode hfits]
  show (if h.version ≠ _ then _ else _) = _
  rw [if_neg (by simpa using hver)]

variable {h : SegmentHeader}

/-- An accepted copy is a version 2 header. -/
theorem decodeV2HeaderCopy_version {buf : Bytes} (hok : decodeV2HeaderCopy buf = .ok h) :
    h.version = storageLayoutVersion := by
  unfold decodeV2HeaderCopy at hok
  split at hok
  next => cases hok
  next =>
    split at hok
    next => cases hok
    next =>
      split at hok
      next => cases hok
      grind

/-! ## §3. The header pair and the whole-file reader. -/

/-- The choice `decode_segment_header_set` makes between the two copies. -/
def selectHeader : Option SegmentHeader → Option SegmentHeader → Option SegmentHeader
  | some left, some right => if left.sequence ≥ right.sequence then some left else some right
  | some header, none => some header
  | none, some header => some header
  | none, none => none

/-- `Result::ok`. -/
def okOrNone {ε α : Type} : Except ε α → Option α
  | .ok a => some a
  | .error _ => none

variable {ε α : Type}

@[simp] theorem okOrNone_ok (a : α) : okOrNone (.ok a : Except ε α) = some a := rfl

theorem okOrNone_eq_some {r : Except ε α} {a : α} (h : okOrNone r = some a) : r = .ok a := by
  cases r with
  | ok b => exact congrArg Except.ok (Option.some.inj h)
  | error e => cases h

/-- `decode_segment_header_set`: the header in force and the offset of the payload. -/
def decodeSegmentHeaderSet (buf : Bytes) : Except StorageError (SegmentHeader × Nat) :=
  if buf.length < segmentHeaderSize then .error (.corrupt "segment header too short")
  else
    let legacy := SegmentHeader.decode (buf.take segmentHeaderSize)
    match legacy with
    | .ok header =>
      if header.version = storageLayoutVersionV1 then .ok (header, segmentHeaderSize)
      else if buf.length < segmentHeaderV2TotalSize then
        if header.magic = storageLayoutMagic ∧ header.version ≠ storageLayoutVersion then
          .error (.versionMismatch storageLayoutVersion header.version)
        else .error (.corrupt "v2 segment header set too short")
      else selected buf
    | .error e =>
      if buf.length < segmentHeaderV2TotalSize then .error e else selected buf
where
  /-- The version 2 branch: both copies are there. -/
  selected (buf : Bytes) : Except StorageError (SegmentHeader × Nat) :=
    match selectHeader (okOrNone (decodeV2HeaderCopy (buf.take segmentHeaderV2CopySize)))
        (okOrNone (decodeV2HeaderCopy
          (slice buf segmentHeaderV2CopySize segmentHeaderV2CopySize))) with
    | some header => .ok (header, segmentHeaderV2TotalSize)
    | none => .error (.corrupt "no valid v2 segment header copy")

/-- `decode_segment_file_bytes`, the common end of `read_segment_file` and
`read_segment_file_bounded`. -/
def decodeSegmentFileBytes (expectedKind : SegmentKind) (bytes : Bytes) :
    Except StorageError (SegmentHeader × Bytes) :=
  if bytes.length < segmentHeaderSize then .error (.corrupt "segment too short")
  else match decodeSegmentHeaderSet bytes with
    | .error e => .error e
    | .ok (header, payloadStart) =>
      if header.kind ≠ expectedKind then .error (.corrupt "segment kind mismatch")
      else if bytes.length < payloadStart then
        .error (.corrupt "segment payload offset exceeds file")
      else
        let payload := bytes.drop payloadStart
        match header.validate payload with
        | .error e => .error e
        | .ok () => .ok (header, payload)

/-- The bytes `write_segment_file` leaves: twice the header, then the payload. -/
def writeSegmentFileBytes (kind : SegmentKind) (segmentId sequence : Nat) (payload : Bytes) :
    Bytes :=
  let header := .new kind segmentId sequence payload
  encodeV2HeaderCopy header ++ (encodeV2HeaderCopy header ++ payload)

/-! ## §4. What the reader accepts. -/

/-- The header a file with these two copies has in force: the rest of the file plays no part. -/
def headerOfPair (primary backup : Bytes) : Except StorageError (SegmentHeader × Nat) :=
  match SegmentHeader.decode (primary.take segmentHeaderSize) with
  | .ok header =>
    if header.version = storageLayoutVersionV1 then .ok (header, segmentHeaderSize)
    else decodeSegmentHeaderSet.selected (primary ++ backup)
  | .error _ => decodeSegmentHeaderSet.selected (primary ++ backup)

variable {primary backup : Bytes}

variable {start : Nat} {kind : SegmentKind} {bytes payload : Bytes}

section

variable (hlen1 : primary.length = 48) (hlen2 : backup.length = 48)
include hlen1 hlen2

theorem selected_pair (rest : Bytes) :
    decodeSegmentHeaderSet.selected (primary ++ (backup ++ rest)) =
      match selectHeader (okOrNone (decodeV2HeaderCopy primary))
        (okOrNone (decodeV2HeaderCopy backup)) with
      | some header => .ok (header, segmentHeaderV2TotalSize)
      | none => .error (.corrupt "no valid v2 segment header copy") := by
  have hfirst : (primary ++ (backup ++ rest)).take segmentHeaderV2CopySize = primary := by
    rw [segmentHeaderV2CopySize, ← hlen1, take_left]
  have hsecond : slice (primary ++ (backup ++ rest)) segmentHeaderV2CopySize
      segmentHeaderV2CopySize = backup := by
    rw [slice_append_right _ _ _ _ (by rw [hlen1]; rfl), hlen1]
    show slice (backup ++ rest) 0 48 = backup
    rw [← hlen2, slice_head]
  rw [decodeSegmentHeaderSet.selected, hfirst, hsecond]

/-- **The header in force depends on the two copies only.** -/
theorem decodeSegmentHeaderSet_pair (rest : Bytes) :
    decodeSegmentHeaderSet (primary ++ (backup ++ rest)) = headerOfPair primary backup := by
  have hshort : ¬ (primary ++ (backup ++ rest)).length < segmentHeaderSize := by
    simp [segmentHeaderSize, hlen1]; omega
  have hpair : ¬ (primary ++ (backup ++ rest)).length < segmentHeaderV2TotalSize := by
    simp [segmentHeaderV2TotalSize, hlen1, hlen2]; omega
  have htake : (primary ++ (backup ++ rest)).take segmentHeaderSize =
      primary.take segmentHeaderSize :=
    take_append_of_le_length (by simp [segmentHeaderSize, hlen1])
  have hsel : decodeSegmentHeaderSet.selected (primary ++ (backup ++ rest)) =
      decodeSegmentHeaderSet.selected (primary ++ backup) := by
    have hnil := selected_pair hlen1 hlen2 []
    rw [append_nil] at hnil
    rw [hnil, selected_pair hlen1 hlen2]
  rw [decodeSegmentHeaderSet, if_neg hshort, htake, headerOfPair]
  cases SegmentHeader.decode (primary.take segmentHeaderSize) with
  | ok | error => simp only [if_neg hpair, hsel]

/-- Without a version 1 header in front, the pair is decided by the copies that pass
their checksum. -/
theorem headerOfPair_v2 (hv1 : ∀ h, SegmentHeader.decode (primary.take segmentHeaderSize) = .ok h →
      h.version ≠ storageLayoutVersionV1) :
    headerOfPair primary backup = match selectHeader (okOrNone (decodeV2HeaderCopy primary))
        (okOrNone (decodeV2HeaderCopy backup)) with
      | some header => .ok (header, segmentHeaderV2TotalSize)
      | none => .error (.corrupt "no valid v2 segment header copy") := by
  have hnil := selected_pair hlen1 hlen2 []
  grind [headerOfPair]

/-- The offset the header set returns tells the version. -/
theorem headerOfPair_offset (hok : headerOfPair primary backup = .ok (h, start)) :
    (h.version = storageLayoutVersionV1 ∧ start = segmentHeaderSize) ∨
      (h.version = storageLayoutVersion ∧ start = segmentHeaderV2TotalSize) := by
  have hnil := selected_pair hlen1 hlen2 []
  rw [append_nil] at hnil
  have hselected : decodeSegmentHeaderSet.selected (primary ++ backup) = .ok (h, start) →
      h.version = storageLayoutVersion ∧ start = segmentHeaderV2TotalSize := by
    intro hsel
    rw [hnil] at hsel
    split at hsel
    next header hchoice =>
      injection hsel with hsel
      injection hsel with hh hs
      subst hh
      refine ⟨?_, hs.symm⟩
      -- the selected header is one of the two copies that passed
      unfold selectHeader at hchoice
      split at hchoice
      next left right hl hr =>
        grind [decodeV2HeaderCopy_version, okOrNone_eq_some]
      next header' hl _ =>
        injection hchoice with hc
        exact hc ▸ decodeV2HeaderCopy_version (okOrNone_eq_some hl)
      next header' _ hr =>
        injection hchoice with hc
        exact hc ▸ decodeV2HeaderCopy_version (okOrNone_eq_some hr)
      next => cases hchoice
    next => cases hsel
  unfold headerOfPair at hok
  split at hok
  next header _ =>
    grind
  next => exact .inr (hselected hok)

end

/-- An accepted version 2 file: 96 header bytes, a selected copy, and a payload that the
copy describes. -/
theorem decodeSegmentFileBytes_ok (hok : decodeSegmentFileBytes kind bytes = .ok (h, payload)) :
    ∃ start, decodeSegmentHeaderSet bytes = .ok (h, start) ∧ h.kind = kind ∧
      start ≤ bytes.length ∧ payload = bytes.drop start ∧ h.validate payload = .ok () := by
  unfold decodeSegmentFileBytes at hok
  split at hok
  next => cases hok
  next =>
    split at hok
    next => cases hok
    next header start hset =>
      split at hok
      next => cases hok
      next hkind =>
        split at hok
        next => cases hok
        next hlen =>
          dsimp only at hok
          grind

/-- Conversely, a selected copy that describes the payload is all the reader asks for. -/
theorem decodeSegmentFileBytes_of_set (hset : decodeSegmentHeaderSet bytes = .ok (h, start))
    (hkind : h.kind = kind) (hlen : start ≤ bytes.length)
    (hval : h.validate (bytes.drop start) = .ok ()) :
    decodeSegmentFileBytes kind bytes = .ok (h, bytes.drop start) := by
  have hshort : ¬ bytes.length < segmentHeaderSize := by grind [decodeSegmentHeaderSet]
  grind [decodeSegmentFileBytes]

/-- What `validate` asks of a version 2 header. -/
theorem SegmentHeader.validate_ok_iff (hver : h.version = storageLayoutVersion) :
    h.validate payload = .ok () ↔ h.magic = storageLayoutMagic ∧ h.payloadLen = payload.length ∧
        h.checksum = crc32c payload := by
  have hv1 : h.version ≠ storageLayoutVersionV1 := by rw [hver]; decide
  unfold validate
  constructor
  swap
  · grind
  intro hok
  split at hok
  next => cases hok
  next hmagic =>
    grind

/-- **A freshly written segment file is accepted with the payload it was given.** -/
theorem decodeSegmentFileBytes_writeSegmentFile (kind : SegmentKind) (segmentId sequence : Nat)
    (payload : Bytes) (hid : segmentId < 256 ^ 8) (hseq : sequence < 256 ^ 8)
    (hlen : payload.length < 256 ^ 8) :
    decodeSegmentFileBytes kind (writeSegmentFileBytes kind segmentId sequence payload) =
      .ok (SegmentHeader.new kind segmentId sequence payload, payload) := by
  set h := SegmentHeader.new kind segmentId sequence payload with hh
  set bytes := writeSegmentFileBytes kind segmentId sequence payload with hbytes
  have hfits : h.Fits := SegmentHeader.new_fits kind hid hseq hlen
  have hver : h.version = storageLayoutVersion := rfl
  have hcopy := decodeV2HeaderCopy_encode h hfits hver
  have hhead : SegmentHeader.decode ((encodeV2HeaderCopy h).take segmentHeaderSize) = .ok h := by
    have htake : (encodeV2HeaderCopy h).take segmentHeaderSize = h.encode ++ [] := by rfl
    rw [htake, h.decode_encode hfits]
  -- the front decodes as a header, but not as one of version 1
  have hnotV1 : ∀ h', SegmentHeader.decode ((encodeV2HeaderCopy h).take segmentHeaderSize) =
      .ok h' → h'.version ≠ storageLayoutVersionV1 := by
    intro h' hdecode
    rw [hhead] at hdecode
    injection hdecode with hdecode
    rw [← hdecode, hver]
    decide
  have hset : decodeSegmentHeaderSet bytes = .ok (h, segmentHeaderV2TotalSize) := by
    rw [hbytes, writeSegmentFileBytes, ← hh, decodeSegmentHeaderSet_pair (by simp) (by simp),
      headerOfPair_v2 (by simp) (by simp) hnotV1, hcopy, okOrNone_ok, selectHeader,
      if_pos (le_rfl)]
  have hdrop : bytes.drop segmentHeaderV2TotalSize = payload := by rfl
  have hbig : segmentHeaderV2TotalSize ≤ bytes.length := by
    simp [hbytes, writeSegmentFileBytes, segmentHeaderV2TotalSize]; omega
  have hval : h.validate (bytes.drop segmentHeaderV2TotalSize) = .ok () := by
    rw [hdrop, SegmentHeader.validate_ok_iff hver]
    exact ⟨rfl, rfl, rfl⟩
  have hread := decodeSegmentFileBytes_of_set hset rfl hbig hval
  rwa [hdrop] at hread

end Holo.Storage
