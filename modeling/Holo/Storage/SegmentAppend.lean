/-
Holo.Storage.SegmentAppend — appending to a segment file in place, and crashes inside it.

An append to a log segment writes the payload bytes behind the old ones, then the
BACKUP header copy, then the PRIMARY one.  A crash lets any prefix of these bytes reach
the file.  The old header does not describe the longer file, so from the first payload byte on
the file opens with neither payload, until the backup copy is whole: its sequence number then
wins over an old or a torn primary copy.

Main results:
* `append_plan`: the writes an append to a log file issues;
* `not_reopens_of_old_copies`: the old header copies over a longer payload do not open;
* `publishes_iff_backup_whole`: the new payload is in force exactly when the backup copy is whole;
* `append_crash_atomic_iff`: which cuts leave the old payload or the whole new one.
-/
import Holo.Lib.FileWrites
import Holo.Storage.Parts
import Holo.Storage.Segment

namespace Holo.Storage

open Lib List

/-! ## §1. The append. -/

/-- What `append_segment_payload_parts` is going to do to the file. -/
inductive AppendPlan where
  /-- Nothing to append: the header is read back. -/
  | readHeader
  /-- `write_segment_file`: a new file replaces the old one by a rename. -/
  | rewrite (sequence : Nat) (payload : Bytes)
  /-- Positioned writes into the file, in program order, and the header they publish. -/
  | inPlace (writes : List FileWrite) (header : SegmentHeader)
  /-- The write of the parts reports a failure: the append returns it and writes no header. -/
  | halted (write : FileWrite) (error : StorageError)
  deriving Repr, DecidableEq

/-- The positioned writes of a plan. -/
def AppendPlan.writes : AppendPlan → List FileWrite
  | .readHeader | .rewrite _ _ => []
  | .inPlace writes _ => writes
  | .halted write _ => [write]

section

variable (os : ShortWrites) (checksumEnabled : Bool) (header : SegmentHeader) (kind : SegmentKind)

/-- The running checksum an append stores in the header. -/
def appendedChecksum (parts : List Bytes) : Nat :=
  -- a zero is taken for "checksums are off" and stays zero from then on
  if checksumEnabled ∧ header.checksum ≠ 0 then
    parts.foldl (if header.version = storageLayoutVersion then crc32cAppend else fnv1aAppend)
      header.checksum
  else 0

/-- The header after an append. -/
def appendedHeader (parts : List Bytes) : SegmentHeader :=
  { header with
    sequence := satAdd64 header.sequence 1
    payloadLen := satAdd64 header.payloadLen parts.flatten.length
    checksum := appendedChecksum checksumEnabled header parts }

/-- `write_segment_header_copies_at`: the backup copy first. -/
def writeSegmentHeaderCopiesAt : List FileWrite :=
  if header.version = storageLayoutVersion then
    [⟨segmentHeaderV2CopySize, encodeV2HeaderCopy header⟩, ⟨0, encodeV2HeaderCopy header⟩]
  else [⟨0, header.encode⟩]

/-- `append_segment_payload_parts` on a file read with empty caches (`none`: no such file). -/
def appendSegmentPayloadParts (expectedPrefix : Bytes) (parts : List Bytes)
    (checksumEnabled : Bool) (file : Option Bytes) : Except StorageError AppendPlan :=
  if parts.flatten.length = 0 then .ok .readHeader
  else match file with
    | none => .ok (.rewrite 1 (expectedPrefix ++ parts.flatten))
    | some bytes =>
      match decodeSegmentHeaderSet (bytes.take segmentHeaderV2TotalSize) with
      | .error e => .error e
      | .ok (header, payloadOffset) =>
        if header.kind ≠ kind then .error (.corrupt "segment kind mismatch")
        else if header.payloadLen = 0 then
          .ok (.rewrite (satAdd64 header.sequence 1) (expectedPrefix ++ parts.flatten))
        else if bytes.length < payloadOffset + expectedPrefix.length then .error .io
        else if slice bytes payloadOffset expectedPrefix.length ≠ expectedPrefix then
          .error (.conflict "segment requires migration before append")
        else
          let appendOffset := payloadOffset + header.payloadLen
          match writtenParts os parts with
          | (.error e, written) => .ok (.halted ⟨appendOffset, written⟩ e)
          | (.ok (), written) =>
            let header' := appendedHeader checksumEnabled header parts
            .ok (.inPlace (⟨appendOffset, written⟩ :: writeSegmentHeaderCopiesAt header') header')

/-- Reopening a file with empty caches: its payload, if the reader accepts it. -/
def reopenPayload (bytes : Bytes) : Except StorageError Bytes :=
  match decodeSegmentFileBytes kind bytes with
  | .ok (_, payload) => .ok payload
  | .error e => .error e

/-! ## §2. A log file is two copies and a payload. -/

/-- A version 2 log segment file, as the reader accepts it: two header copies, then a
payload that starts with the log's own tag.  One of the copies may be torn or out of date, as
an earlier crash leaves it. -/
structure LogSegment (tag : Bytes) where
  primary : Bytes
  backup : Bytes
  payload : Bytes
  header : SegmentHeader
  primary_len : primary.length = 48
  backup_len : backup.length = 48
  accepted : decodeSegmentFileBytes kind (primary ++ (backup ++ payload)) = .ok (header, payload)
  version2 : header.version = storageLayoutVersion
  /-- The primary copy carries the version's two bytes, also where the rest of it is torn. -/
  primary_version : slice primary 4 2 = leBytes 2 storageLayoutVersion
  /-- A primary copy that is out of date names no longer payload: a log only grows. -/
  outgrown : ∀ h, decodeV2HeaderCopy primary = .ok h → h.payloadLen ≤ payload.length
  tagged : tag <+: payload
  nonempty : payload ≠ []

/-- A file that was just written is such a file. -/
def LogSegment.written (kind : SegmentKind) {tag : Bytes} (segmentId sequence : Nat)
    (payload : Bytes) (hid : segmentId < 256 ^ 8) (hseq : sequence < 256 ^ 8)
    (hlen : payload.length < 256 ^ 8) (tagged : tag <+: payload) (nonempty : payload ≠ []) :
    LogSegment kind tag where
  primary := encodeV2HeaderCopy (.new kind segmentId sequence payload)
  backup := encodeV2HeaderCopy (.new kind segmentId sequence payload)
  payload := payload
  header := .new kind segmentId sequence payload
  primary_len := length_encodeV2HeaderCopy _
  backup_len := length_encodeV2HeaderCopy _
  accepted := decodeSegmentFileBytes_writeSegmentFile kind segmentId sequence payload hid hseq hlen
  version2 := rfl
  primary_version := rfl
  outgrown h hok := by
    rw [decodeV2HeaderCopy_encode _ (SegmentHeader.new_fits kind hid hseq hlen) rfl] at hok
    cases hok
    exact le_rfl
  tagged := tagged
  nonempty := nonempty

end

variable (os : ShortWrites) {kind : SegmentKind} {tag : Bytes} (f : LogSegment kind tag)

/-- The bytes of the file. -/
def LogSegment.bytes : Bytes :=
  f.primary ++ (f.backup ++ f.payload)

namespace LogSegment

theorem headerOfPair_eq :
    headerOfPair f.primary f.backup = .ok (f.header, segmentHeaderV2TotalSize) := by
  obtain ⟨start, hset, -, -, -, -⟩ := decodeSegmentFileBytes_ok f.accepted
  rw [decodeSegmentHeaderSet_pair f.primary_len f.backup_len] at hset
  rcases headerOfPair_offset f.primary_len f.backup_len hset with ⟨hv1, -⟩ | ⟨-, hs⟩
  · have hver := f.version2
    rw [hv1] at hver
    cases hver
  · rw [hset, hs]

theorem header_describes : f.header.kind = kind ∧ f.header.magic = storageLayoutMagic ∧
      f.header.payloadLen = f.payload.length ∧ f.header.checksum = crc32c f.payload := by
  obtain ⟨_, -, hkind, -, -, hval⟩ := decodeSegmentFileBytes_ok f.accepted
  obtain ⟨hmagic, hlen, hsum⟩ := (SegmentHeader.validate_ok_iff f.version2).mp hval
  exact ⟨hkind, hmagic, hlen, hsum⟩

theorem length_bytes : f.bytes.length = segmentHeaderV2TotalSize + f.payload.length := by
  simp only [bytes, length_append, f.primary_len, f.backup_len, segmentHeaderV2TotalSize]
  omega

end LogSegment

/-- **The writes of an append to a log file**: the payload at the old end, then the two header
copies; only the payload where the write of the parts fails. -/
theorem append_plan (parts : List Bytes) (enabled : Bool) (hparts : parts.flatten ≠ []) :
    appendSegmentPayloadParts os kind tag parts enabled (some f.bytes) =
      .ok (if PartsFail parts then .halted ⟨f.bytes.length, parts.flatten⟩ .io
        else .inPlace (⟨f.bytes.length, parts.flatten⟩ ::
          writeSegmentHeaderCopiesAt (appendedHeader enabled f.header parts))
          (appendedHeader enabled f.header parts)) := by
  obtain ⟨hkind, -, hlen, -⟩ := f.header_describes
  have hlong : parts.flatten.length ≠ 0 := mt length_eq_zero_iff.mp hparts
  have hhead : f.bytes.take segmentHeaderV2TotalSize = f.primary ++ (f.backup ++ []) := by
    rw [LogSegment.bytes, ← append_assoc, append_nil]
    exact take_left' (by
      simp [f.primary_len, f.backup_len, segmentHeaderV2TotalSize])
  have hdrop : f.bytes.drop segmentHeaderV2TotalSize = f.payload := by
    rw [LogSegment.bytes, ← append_assoc]
    exact drop_left' (by
      simp [f.primary_len, f.backup_len, segmentHeaderV2TotalSize])
  obtain ⟨rest, hrest⟩ := f.tagged
  -- the payload starts with the tag, which the append looks for
  have htag : slice f.bytes segmentHeaderV2TotalSize tag.length = tag := by
    rw [slice, hdrop, ← hrest, take_left]
  have hroom : ¬ f.bytes.length < segmentHeaderV2TotalSize + tag.length := by
    rw [f.length_bytes, ← hrest, length_append]; omega
  have hne : f.header.payloadLen ≠ 0 := by
    rw [hlen]
    simpa using f.nonempty
  rw [appendSegmentPayloadParts, if_neg hlong]
  simp only [hhead, decodeSegmentHeaderSet_pair f.primary_len f.backup_len, f.headerOfPair_eq]
  rw [if_neg (by simpa using hkind), if_neg hne, if_neg hroom, if_neg (by simp [htag]),
    writtenParts_eq, f.length_bytes, hlen]
  by_cases hfail : PartsFail parts
  · simp only [if_pos hfail]
  · simp only [if_neg hfail]

/-! ## §3. The file after a crash. -/

/-- A header copy overwritten by the first `n` bytes of a new one. -/
def cutCopy (old new : Bytes) (n : Nat) : Bytes := new.take n ++ old.drop n

theorem length_cutCopy {old new : Bytes} (h : old.length = 48) (h' : new.length = 48) (n : Nat) :
    (cutCopy old new n).length = 48 := by
  simp only [cutCopy, length_append, length_take, length_drop, h, h']
  omega

theorem cutCopy_zero (old new : Bytes) : cutCopy old new 0 = old := by simp [cutCopy]

theorem cutCopy_all {old new : Bytes} (h : old.length = 48) (h' : new.length = 48) {n : Nat}
    (hn : 48 ≤ n) : cutCopy old new n = new := by
  rw [cutCopy, take_of_length_le (by omega), drop_eq_nil_of_le (by omega), append_nil]

/-- The backup copy a crash after `n` bytes of an append of `len` bytes leaves. -/
def cutBackup (old new : Bytes) (len n : Nat) : Bytes := cutCopy old new (n - len)

/-- The primary copy a crash after `n` bytes of an append of `len` bytes leaves. -/
def cutPrimary (old new : Bytes) (len n : Nat) : Bytes := cutCopy old new (n - len - 48)

/-- A header copy is written over another, as far as the bytes go. -/
theorem apply_cutCopy {x y new : Bytes} (hy : y.length = 48) (hnew : new.length = 48) (z : Bytes)
    (m : Nat) :
    FileWrite.apply ⟨x.length, new.take m⟩ (x ++ (y ++ z)) = x ++ (cutCopy y new m ++ z) := by
  rw [FileWrite.apply_over (by rw [length_take, hy]; omega), cutCopy, length_take, hnew]
  by_cases hm : m ≤ 48
  · rw [Nat.min_eq_left hm]
  · rw [Nat.min_eq_right (by omega), drop_eq_nil_of_le (by rw [hy]),
      drop_eq_nil_of_le (by rw [hy]; omega)]

/-- The file after a crash: the copies and the payload, each as far as it was written. -/
theorem crashed_append_bytes (h : SegmentHeader) (hver : h.version = storageLayoutVersion)
    (appended : Bytes) (n : Nat) :
    crashAfter (⟨f.bytes.length, appended⟩ :: writeSegmentHeaderCopiesAt h) n f.bytes =
      cutPrimary f.primary (encodeV2HeaderCopy h) appended.length n ++
        (cutBackup f.backup (encodeV2HeaderCopy h) appended.length n ++
          (f.payload ++ appended.take n)) := by
  set new := encodeV2HeaderCopy h with hnew
  have hnewlen : new.length = 48 := by rw [hnew, length_encodeV2HeaderCopy]
  have hwrites : writeSegmentHeaderCopiesAt h = [⟨48, new⟩, ⟨0, new⟩] := if_pos hver
  -- the file once the whole payload is written, and once the backup copy is
  have hpayload : FileWrite.apply ⟨f.bytes.length, appended⟩ f.bytes =
      f.primary ++ (f.backup ++ (f.payload ++ appended)) := by
    rw [FileWrite.apply_end, LogSegment.bytes]
    simp only [append_assoc]
  have hbackup : ∀ m, FileWrite.apply ⟨48, new.take m⟩
      (f.primary ++ (f.backup ++ (f.payload ++ appended))) =
      f.primary ++ (cutCopy f.backup new m ++ (f.payload ++ appended)) := by
    intro m
    have hover := apply_cutCopy (x := f.primary) f.backup_len hnewlen (f.payload ++ appended) m
    rw [f.primary_len] at hover
    exact hover
  have hprimary : ∀ m, FileWrite.apply ⟨0, new.take m⟩
      (f.primary ++ (new ++ (f.payload ++ appended))) =
      cutCopy f.primary new m ++ (new ++ (f.payload ++ appended)) :=
    apply_cutCopy (x := []) f.primary_len hnewlen _
  rw [hwrites]
  by_cases hn : n ≤ appended.length
  · -- cut inside the payload: no header byte was written
    have h0 : n - appended.length = 0 := by omega
    rw [crashAfter_cons_le hn, FileWrite.apply_end, cutPrimary, cutBackup, h0, Nat.zero_sub,
      cutCopy_zero, cutCopy_zero, LogSegment.bytes]
    simp only [append_assoc]
  have hall : appended.take n = appended := take_of_length_le (by omega)
  rw [crashAfter_cons_gt (show appended.length < n by omega), hpayload, hall, cutPrimary, cutBackup]
  set m := n - appended.length with hm
  by_cases hm48 : m ≤ 48
  · -- cut inside the backup copy
    have h0 : m - 48 = 0 := by omega
    rw [crashAfter_cons_le (by show m ≤ new.length; omega), hbackup, h0, cutCopy_zero]
  -- the backup copy is complete; cut inside the primary one, or behind everything
  have hfull : FileWrite.apply ⟨48, new⟩ (f.primary ++ (f.backup ++ (f.payload ++ appended))) =
      f.primary ++ (new ++ (f.payload ++ appended)) := by
    have hb := hbackup 48
    rw [take_of_length_le (by omega), cutCopy_all f.backup_len hnewlen (le_rfl)] at hb
    exact hb
  rw [crashAfter_cons_gt (by show new.length < m; omega), hfull,
    cutCopy_all f.backup_len hnewlen (by omega)]
  show crashAfter [⟨0, new⟩] (m - new.length) _ = _
  rw [hnewlen]
  by_cases hlast : m - 48 ≤ 48
  · rw [crashAfter_cons_le (by show m - 48 ≤ new.length; omega), hprimary]
  have hend := hprimary 48
  rw [take_of_length_le (by omega), cutCopy_all f.primary_len hnewlen (le_rfl)] at hend
  rw [crashAfter_cons_gt (by show new.length < m - 48; omega), hend,
    cutCopy_all f.primary_len hnewlen (by omega)]
  rfl

/-! ## §4. When a crashed append reopens. -/

section

variable (kind : SegmentKind) (old appended crashed : Bytes)

/-- The crashed file opens, with the old payload or with the whole new one. -/
def ReopensOldOrNew : Prop :=
  reopenPayload kind crashed = .ok old ∨ reopenPayload kind crashed = .ok (old ++ appended)

/-- The pair of copies puts a header in force that describes `payload`. -/
def Publishes (primary backup payload : Bytes) : Prop :=
  ∃ h, headerOfPair primary backup = .ok (h, segmentHeaderV2TotalSize) ∧
    h.magic = storageLayoutMagic ∧ h.kind = kind ∧ h.payloadLen = payload.length ∧
      h.checksum = crc32c payload

end

/-- What reading a crashed file yields is its payload area, and only if the pair publishes it. -/
theorem reopenPayload_pair {kind : SegmentKind} {primary backup payload : Bytes}
    (hlen1 : primary.length = 48) (hlen2 : backup.length = 48)
    {out : Bytes} (hout : out.length < payload.length + 60 ∨
      ∃ h, headerOfPair primary backup = .ok (h, segmentHeaderV2TotalSize)) :
    reopenPayload kind (primary ++ (backup ++ payload)) = .ok out ↔
      out = payload ∧ Publishes kind primary backup payload := by
  have hdrop : (primary ++ (backup ++ payload)).drop segmentHeaderV2TotalSize = payload := by
    grind [drop_left', segmentHeaderV2TotalSize]
  constructor
  swap
  · rintro ⟨rfl, h, hpair, hmagic, hkind, hlen, hsum⟩
    have hver : h.version = storageLayoutVersion := by
      rcases headerOfPair_offset hlen1 hlen2 hpair with ⟨-, hs⟩ | ⟨hver, -⟩
      · cases hs
      · exact hver
    have hset : decodeSegmentHeaderSet (primary ++ (backup ++ out)) =
        .ok (h, segmentHeaderV2TotalSize) := by
      rw [decodeSegmentHeaderSet_pair hlen1 hlen2, hpair]
    have hval : h.validate ((primary ++ (backup ++ out)).drop segmentHeaderV2TotalSize) =
        .ok () := by
      rw [hdrop, SegmentHeader.validate_ok_iff hver]
      exact ⟨hmagic, hlen, hsum⟩
    have hread := decodeSegmentFileBytes_of_set hset hkind (by
      simp only [length_append, hlen1, hlen2, segmentHeaderV2TotalSize]; omega) hval
    rw [reopenPayload, hread, hdrop]
  intro hopen
  unfold reopenPayload at hopen
  split at hopen
  next h out' hread =>
    injection hopen with hopen
    subst hopen
    obtain ⟨start, hset, hkind, -, hpay, hval⟩ := decodeSegmentFileBytes_ok hread
    rw [decodeSegmentHeaderSet_pair hlen1 hlen2] at hset
    rcases headerOfPair_offset hlen1 hlen2 hset with ⟨-, hs⟩ | ⟨hver, hs⟩
    swap
    · rw [hs, hdrop] at hpay
      subst hpay
      obtain ⟨hmagic, hlen, hsum⟩ := (SegmentHeader.validate_ok_iff hver).mp hval
      exact ⟨rfl, h, by rw [hset, hs], hmagic, hkind, hlen, hsum⟩
    -- a version 1 reading would return the header area as payload, which is too long
    rcases hout with hshort | ⟨h', hpair⟩
    · grind [segmentHeaderSize]
    · rw [hpair] at hset
      injection hset with hset
      injection hset with _ hs'
      rw [hs] at hs'
      cases hs'
  next => cases hopen

/-- The copies of a log file describe no payload of another length. -/
theorem LogSegment.publishes_length {payload : Bytes}
    (hpub : Publishes kind f.primary f.backup payload) :
    payload.length = f.payload.length := by
  obtain ⟨h, hpair, -, -, hlen, -⟩ := hpub
  rw [f.headerOfPair_eq] at hpair
  injection hpair with hpair
  injection hpair with hh _
  rw [← hlen, ← hh, f.header_describes.2.2.1]

/-- **The old copies do not open a longer file**: neither the old nor the new payload is read. -/
theorem not_reopens_of_old_copies (extra appended : Bytes) (hextra : extra ≠ []) :
    ¬ ReopensOldOrNew kind f.payload appended
      (f.primary ++ (f.backup ++ (f.payload ++ extra))) := by
  have hpair : ∃ h, headerOfPair f.primary f.backup = .ok (h, segmentHeaderV2TotalSize) :=
    ⟨_, f.headerOfPair_eq⟩
  have hno : ¬ Publishes kind f.primary f.backup (f.payload ++ extra) := by
    intro hpub
    have hlen := f.publishes_length hpub
    have hpos := length_pos_iff.mpr hextra
    rw [length_append] at hlen
    omega
  rintro (hold | hnew)
  · exact hno ((reopenPayload_pair f.primary_len f.backup_len (.inr hpair)).mp hold).2
  · exact hno ((reopenPayload_pair f.primary_len f.backup_len (.inr hpair)).mp hnew).2

/-! ## §5. Torn header copies. -/

/-- A copy that is partly `old` and partly `new` fails its CRC. -/
def TearDetected (old new : Bytes) : Prop :=
  ∀ m < 48, crc32c ((cutCopy old new m).take 44) = fieldAt (cutCopy old new m) 44 4 →
    cutCopy old new m = old ∨ cutCopy old new m = new

instance (old new : Bytes) : Decidable (TearDetected old new) :=
  inferInstanceAs (Decidable (∀ _, _))

/-- An accepted copy passes its CRC, and its fields fit their machine types. -/
theorem decodeV2HeaderCopy_ok {buf : Bytes} {h : SegmentHeader}
    (hok : decodeV2HeaderCopy buf = .ok h) :
    crc32c (buf.take 44) = fieldAt buf 44 4 ∧ h.Fits := by
  unfold decodeV2HeaderCopy SegmentHeader.decode at hok
  split at hok
  next => cases hok
  split at hok
  next => cases hok
  next hcrc =>
    refine ⟨not_not.mp hcrc, ?_⟩
    split at hok
    next => cases hok
    next header hdecode =>
      split at hdecode
      next => cases hdecode
      split at hdecode
      next => cases hdecode
      injection hdecode with hdecode
      split at hok
      next => cases hok
      injection hok with hok
      subst hok hdecode
      exact ⟨fieldAt_lt _ _ _, fieldAt_lt _ _ _, fieldAt_lt _ _ _, fieldAt_lt _ _ _,
        fieldAt_lt _ _ _, fieldAt_lt _ _ _⟩

/-- What a cut leaves of a copy: it is refused, or the old one, or the new one. -/
theorem TearDetected.cases {old new : Bytes} (ht : TearDetected old new) (hold : old.length = 48)
    (hnew : new.length = 48) (m : Nat) :
    okOrNone (decodeV2HeaderCopy (cutCopy old new m)) = none ∨ cutCopy old new m = old ∨
      cutCopy old new m = new := by
  by_cases hm : 48 ≤ m
  · exact .inr (.inr (cutCopy_all hold hnew hm))
  cases hdecode : decodeV2HeaderCopy (cutCopy old new m) with
  | error e => exact .inl rfl
  | ok h => exact .inr (ht m (by omega) (decodeV2HeaderCopy_ok hdecode).1)

/-- A cut copy is the new one exactly when what is left of the old one is right already. -/
theorem cutCopy_eq_new_iff {old new : Bytes} (m : Nat) :
    cutCopy old new m = new ↔ old.drop m = new.drop m := by
  conv_lhs => rhs; rw [← take_append_drop m new]
  rw [cutCopy, append_right_inj]

/-- Bytes on which the copies agree are not torn. -/
theorem slice_cutCopy {old new : Bytes} {i k : Nat} (hi : i + k ≤ old.length)
    (hlen : old.length = new.length) (hsame : slice old i k = slice new i k) (m : Nat) :
    slice (cutCopy old new m) i k = slice new i k := by
  apply ext_getElem?
  intro j
  have hj := congrArg (fun l : Bytes => l[j]?) hsame
  simp only [slice, cutCopy, getElem?_take, getElem?_drop, getElem?_append, length_take] at hj ⊢
  grind

/-- A copy with the version's bytes is not taken for a version 1 header. -/
theorem version_of_slice {copy : Bytes} {h : SegmentHeader}
    (hver : slice copy 4 2 = leBytes 2 storageLayoutVersion)
    (hdecode : SegmentHeader.decode (copy.take segmentHeaderSize) = .ok h) :
    h.version ≠ storageLayoutVersionV1 := by
  have hfield : fieldAt (copy.take segmentHeaderSize) 4 2 = storageLayoutVersion := by
    rw [fieldAt, slice, drop_take, take_take]
    show leNat (slice copy 4 2) = _
    rw [hver]
    rfl
  unfold SegmentHeader.decode at hdecode
  split at hdecode
  next => cases hdecode
  split at hdecode
  next => cases hdecode
  injection hdecode with hdecode
  rw [← hdecode]
  dsimp only
  rw [hfield]
  decide

/-- The header in force, where the primary copy is not taken for a version 1 header. -/
theorem headerOfPair_iff_selected {primary backup : Bytes} {h : SegmentHeader}
    (hlen1 : primary.length = 48) (hlen2 : backup.length = 48)
    (hver : slice primary 4 2 = leBytes 2 storageLayoutVersion) :
    headerOfPair primary backup = .ok (h, segmentHeaderV2TotalSize) ↔
      selectHeader (okOrNone (decodeV2HeaderCopy primary)) (okOrNone (decodeV2HeaderCopy backup)) =
        some h := by
  rw [headerOfPair_v2 hlen1 hlen2 fun h' hdecode => version_of_slice hver hdecode]
  cases selectHeader (okOrNone (decodeV2HeaderCopy primary))
      (okOrNone (decodeV2HeaderCopy backup)) with
  | none => simp
  | some header => simp

namespace LogSegment

/-- The header in force is one of the copies that pass, and no copy that passes is newer. -/
theorem selected : (∃ copy, decodeV2HeaderCopy copy = .ok f.header) ∧
    ∀ h, decodeV2HeaderCopy f.primary = .ok h → h.sequence ≤ f.header.sequence := by
  have hsel := (headerOfPair_iff_selected f.primary_len f.backup_len f.primary_version).mp
    f.headerOfPair_eq
  cases hp : decodeV2HeaderCopy f.primary with
  | error e =>
    refine ⟨?_, by simp⟩
    cases hb : decodeV2HeaderCopy f.backup with
    | error e' => simp [hp, hb, okOrNone, selectHeader] at hsel
    | ok right =>
      simp only [hp, hb, okOrNone, selectHeader, Option.some.injEq] at hsel
      exact ⟨f.backup, hsel ▸ hb⟩
  | ok left =>
    cases hb : decodeV2HeaderCopy f.backup with
    | error e' =>
      simp only [hp, hb, okOrNone, selectHeader, Option.some.injEq] at hsel
      subst hsel
      exact ⟨⟨f.primary, hp⟩, fun h hh => by cases hh; exact le_rfl⟩
    | ok right =>
      simp only [hp, hb, okOrNone, selectHeader] at hsel
      split at hsel <;> (injection hsel with hsel; subst hsel)
      · exact ⟨⟨f.primary, hp⟩, fun h hh => by cases hh; exact le_rfl⟩
      · exact ⟨⟨f.backup, hb⟩, fun h hh => by cases hh; omega⟩

variable (enabled : Bool) (parts : List Bytes)

/-- The header copy the append writes. -/
def newCopy : Bytes := encodeV2HeaderCopy (appendedHeader enabled f.header parts)

/-- The counters of the header have room for the append. -/
def HasRoom : Prop :=
  f.header.sequence < u64Max ∧ f.payload.length + parts.flatten.length ≤ u64Max

instance : Decidable (f.HasRoom parts) := inferInstanceAs (Decidable (_ ∧ _))

/-- The append stores the checksum of the whole payload: it runs on from one that is not zero,
or the payload's checksum is zero. -/
def ChecksumCarried : Prop :=
  (enabled = true ∧ crc32c f.payload ≠ 0) ∨ crc32c (f.payload ++ parts.flatten) = 0

instance : Decidable (f.ChecksumCarried enabled parts) := inferInstanceAs (Decidable (_ ∨ _))

theorem length_newCopy : (f.newCopy enabled parts).length = 48 := length_encodeV2HeaderCopy _

/-- The checksum in the new header is right exactly in these cases. -/
theorem appendedChecksum_eq_iff :
    appendedChecksum enabled f.header parts = crc32c (f.payload ++ parts.flatten) ↔
      f.ChecksumCarried enabled parts := by
  obtain ⟨-, -, -, hsum⟩ := f.header_describes
  rw [appendedChecksum, hsum, ChecksumCarried]
  by_cases hrun : enabled = true ∧ crc32c f.payload ≠ 0
  · rw [if_pos hrun, if_pos f.version2, foldl_crc32cAppend, crc32c_append]
    exact iff_of_true rfl (.inl hrun)
  · rw [if_neg hrun]
    simp only [hrun, false_or]
    exact eq_comm

theorem decode_newCopy : decodeV2HeaderCopy (f.newCopy enabled parts) =
    .ok (appendedHeader enabled f.header parts) := by
  obtain ⟨⟨copy, hcopy⟩, -⟩ := f.selected
  obtain ⟨hmagic, hver, hid, -, -, hsum⟩ := (decodeV2HeaderCopy_ok hcopy).2
  have hsat : ∀ a b, satAdd64 a b < 256 ^ 8 := by
    intro a b
    have := satAdd64_le a b
    unfold u64Max at this
    omega
  have hcrc : appendedChecksum enabled f.header parts < 256 ^ 4 := by
    unfold appendedChecksum
    split
    · rw [if_pos f.version2, foldl_crc32cAppend]
      exact crc32cAppend_lt hsum _
    · decide
  exact decodeV2HeaderCopy_encode _ ⟨hmagic, hver, hid, hsat _ _, hsat _ _, hcrc⟩ f.version2

theorem slice_newCopy : slice (f.newCopy enabled parts) 4 2 = leBytes 2 storageLayoutVersion := by
  have hcopy : f.newCopy enabled parts = leBytes 4 f.header.magic ++ (leBytes 2 f.header.version ++
      ((f.newCopy enabled parts).drop 6)) := by rfl
  rw [hcopy, f.version2]
  rfl

end LogSegment

/-- **The new payload is in force exactly when the backup copy is whole.**  The copies are each
the old one, the new one or refused, and the primary one is untouched until the backup one is
whole.  A whole backup copy is newer than the old primary one; without it the header in force
names a shorter payload. -/
theorem publishes_iff_backup_whole {enabled : Bool} {parts : List Bytes} {primary backup : Bytes}
    (hroom : f.HasRoom parts) (hparts : parts.flatten ≠ [])
    (hlen1 : primary.length = 48) (hlen2 : backup.length = 48)
    (hver : slice primary 4 2 = leBytes 2 storageLayoutVersion)
    (hprimary : okOrNone (decodeV2HeaderCopy primary) = none ∨ primary = f.primary ∨
      primary = f.newCopy enabled parts)
    (hbackup : okOrNone (decodeV2HeaderCopy backup) = none ∨ backup = f.backup ∨
      backup = f.newCopy enabled parts)
    (hfirst : backup = f.newCopy enabled parts ∨ primary = f.primary) :
    Publishes kind primary backup (f.payload ++ parts.flatten) ↔
      backup = f.newCopy enabled parts ∧ f.ChecksumCarried enabled parts := by
  set new := appendedHeader enabled f.header parts with hnew
  obtain ⟨hkind, hmagic, hlen, -⟩ := f.header_describes
  have hdecode : decodeV2HeaderCopy (f.newCopy enabled parts) = .ok new :=
    f.decode_newCopy enabled parts
  have hseq : new.sequence = f.header.sequence + 1 := satAdd64_eq (by have := hroom.1; omega)
  have hnewlen : new.payloadLen = (f.payload ++ parts.flatten).length := by
    rw [length_append, ← hlen]
    exact satAdd64_eq (by rw [hlen]; exact hroom.2)
  have hlonger : f.payload.length < (f.payload ++ parts.flatten).length := by
    have := length_pos_iff.mpr hparts
    rw [length_append]
    omega
  by_cases hwhole : backup = f.newCopy enabled parts
  · -- the header of the append wins over every primary copy
    have hforce : headerOfPair primary backup = .ok (new, segmentHeaderV2TotalSize) := by
      rw [headerOfPair_iff_selected hlen1 hlen2 hver, hwhole, hdecode, okOrNone_ok]
      rcases hprimary with hnone | rfl | rfl
      · rw [hnone]
        rfl
      · cases hp : decodeV2HeaderCopy f.primary with
        | error e => rfl
        | ok left =>
          have hle := f.selected.2 left hp
          rw [okOrNone_ok, selectHeader, if_neg (by omega)]
      · rw [hdecode, okOrNone_ok, selectHeader, if_pos le_rfl]
    rw [← f.appendedChecksum_eq_iff enabled parts]
    constructor
    · rintro ⟨h, hh, -, -, -, hsum⟩
      rw [hforce] at hh
      cases hh
      exact ⟨hwhole, hsum⟩
    · rintro ⟨-, hsum⟩
      exact ⟨new, hforce, hmagic, hkind, hnewlen, hsum⟩
  · -- a primary copy of before the append, and no newer one
    refine iff_of_false ?_ fun h => hwhole h.1
    obtain rfl := hfirst.resolve_left hwhole
    rintro hpub
    rcases hbackup with hnone | rfl | hnew'
    · obtain ⟨h, hforce, -, -, hh, -⟩ := hpub
      rw [headerOfPair_iff_selected hlen1 hlen2 hver, hnone] at hforce
      cases hp : decodeV2HeaderCopy f.primary with
      | error e => simp [hp, okOrNone, selectHeader] at hforce
      | ok left =>
        simp only [hp, okOrNone, selectHeader, Option.some.injEq] at hforce
        have hle := f.outgrown left hp
        rw [hforce, hh] at hle
        omega
    · have := f.publishes_length hpub
      omega
    · exact hwhole hnew'

/-! ## §6. Which cuts an append survives. -/

/-- **The cuts an append survives**: no byte has reached the file; or the parts are written
without a failure, the checksum carries on, and every byte of the backup copy is there — it is
whole from `48` bytes behind the payload on, or where the rest of the old copy is the same. -/
def SurvivesCut {kind : SegmentKind} {tag : Bytes} (f : LogSegment kind tag) (enabled : Bool)
    (parts : List Bytes) (n : Nat) : Prop :=
  n = 0 ∨ (¬ PartsFail parts ∧ f.ChecksumCarried enabled parts ∧
    (parts.flatten.length + 48 ≤ n ∨ (parts.flatten.length ≤ n ∧
      f.backup.drop (n - parts.flatten.length) =
        (f.newCopy enabled parts).drop (n - parts.flatten.length))))

instance {kind : SegmentKind} {tag : Bytes} (f : LogSegment kind tag) (enabled : Bool)
    (parts : List Bytes) (n : Nat) : Decidable (SurvivesCut f enabled parts n) :=
  inferInstanceAs (Decidable (_ ∨ _))

/-- The backup copy is whole exactly at these cuts behind the payload. -/
theorem cutBackup_whole_iff {old new : Bytes} (hold : old.length = 48) (hnew : new.length = 48)
    {len n : Nat} (hn : len ≤ n) : cutBackup old new len n = new ↔
      len + 48 ≤ n ∨ (len ≤ n ∧ old.drop (n - len) = new.drop (n - len)) := by
  rw [cutBackup, cutCopy_eq_new_iff]
  constructor
  · exact fun h => .inr ⟨hn, h⟩
  · rintro (hfull | ⟨-, h⟩)
    · rw [drop_eq_nil_of_le (by omega), drop_eq_nil_of_le (by omega)]
    · exact h

/-- A crash behind the payload opens with the new one exactly if the backup copy is whole. -/
theorem reopens_behind_payload_iff {enabled : Bool} {parts : List Bytes} {n : Nat}
    (hparts : parts.flatten ≠ []) (hroom : f.HasRoom parts)
    (hprimary : TearDetected f.primary (f.newCopy enabled parts))
    (hbackup : TearDetected f.backup (f.newCopy enabled parts)) :
    ReopensOldOrNew kind f.payload parts.flatten
        (cutPrimary f.primary (f.newCopy enabled parts) parts.flatten.length n ++
          (cutBackup f.backup (f.newCopy enabled parts) parts.flatten.length n ++
            (f.payload ++ parts.flatten))) ↔
      cutBackup f.backup (f.newCopy enabled parts) parts.flatten.length n =
        f.newCopy enabled parts ∧ f.ChecksumCarried enabled parts := by
  have hnew := f.length_newCopy enabled parts
  have hapos : 0 < parts.flatten.length := length_pos_iff.mpr hparts
  set primary := cutPrimary f.primary (f.newCopy enabled parts) parts.flatten.length n with hp
  set backup := cutBackup f.backup (f.newCopy enabled parts) parts.flatten.length n with hb
  have hlen1 : primary.length = 48 := length_cutCopy f.primary_len hnew _
  have hlen2 : backup.length = 48 := length_cutCopy f.backup_len hnew _
  have hver : slice primary 4 2 = leBytes 2 storageLayoutVersion := by
    have hsame : slice f.primary 4 2 = slice (f.newCopy enabled parts) 4 2 :=
      f.primary_version.trans (f.slice_newCopy enabled parts).symm
    rw [hp, cutPrimary, slice_cutCopy (by rw [f.primary_len]; omega) (f.primary_len.trans hnew.symm)
      hsame]
    exact f.slice_newCopy enabled parts
  -- the primary copy is written only behind the whole backup copy
  have hfirst : backup = f.newCopy enabled parts ∨ primary = f.primary := by
    by_cases hfull : 48 ≤ n - parts.flatten.length
    · exact .inl (cutCopy_all f.backup_len hnew hfull)
    · right
      rw [hp, cutPrimary, show n - parts.flatten.length - 48 = 0 by omega, cutCopy_zero]
  have hpub := publishes_iff_backup_whole f hroom hparts hlen1 hlen2 hver
    (hprimary.cases f.primary_len hnew _) (hbackup.cases f.backup_len hnew _) hfirst
  rw [ReopensOldOrNew, reopenPayload_pair hlen1 hlen2 (.inl (by simp; omega)),
    reopenPayload_pair hlen1 hlen2 (.inl (by omega)), hpub]
  constructor
  · rintro (⟨-, h⟩ | ⟨-, h⟩) <;> exact h
  · exact fun h => .inr ⟨rfl, h⟩

/-- **Crash atomicity of an append, cut by cut.**  For every log segment file, every non-empty
append whose torn header copies the CRC detects and every number `n` of written bytes that
survive the crash, the file reopens with the old payload or with the old payload followed by the
whole append IF AND ONLY IF `n` is zero or the backup header copy is whole behind the payload, the
parts are written without a failure and the checksum carries on. -/
theorem append_crash_atomic_iff {kind : SegmentKind} {tag : Bytes} (f : LogSegment kind tag)
    (parts : List Bytes) (enabled : Bool) (hparts : parts.flatten ≠ []) (hroom : f.HasRoom parts)
    (hprimary : TearDetected f.primary (f.newCopy enabled parts))
    (hbackup : TearDetected f.backup (f.newCopy enabled parts)) (n : Nat) :
    ∃ plan, appendSegmentPayloadParts os kind tag parts enabled (some f.bytes) = .ok plan ∧
      (ReopensOldOrNew kind f.payload parts.flatten (crashAfter plan.writes n f.bytes) ↔
        SurvivesCut f enabled parts n) := by
  refine ⟨_, append_plan os f parts enabled hparts, ?_⟩
  set new := appendedHeader enabled f.header parts with hnew
  have hver : new.version = storageLayoutVersion := f.version2
  have happ : ∀ extra, f.bytes ++ extra = f.primary ++ (f.backup ++ (f.payload ++ extra)) := by
    intro extra
    simp only [LogSegment.bytes, append_assoc]
  rcases Nat.eq_zero_or_pos n with rfl | hpos
  · -- nothing reached the file
    have hread : reopenPayload kind f.bytes = .ok f.payload := by
      rw [reopenPayload, LogSegment.bytes, f.accepted]
    have hsame : ∀ ws, crashAfter (⟨f.bytes.length, parts.flatten⟩ :: ws) 0 f.bytes = f.bytes := by
      intro ws
      rw [crashAfter_cons_le (Nat.zero_le _), take_zero, FileWrite.apply_nil le_rfl]
    split <;> exact iff_of_true (.inl (by rw [AppendPlan.writes, hsame, hread])) (.inl rfl)
  have htaken : parts.flatten.take n ≠ [] := by
    rw [ne_eq, take_eq_nil_iff]
    rintro (h0 | hnil)
    · omega
    · exact hparts hnil
  split
  next hfail =>
    -- the append halts behind the payload: the copies stay the old ones
    refine iff_of_false ?_ fun h => ?_
    · have hfile : crashAfter [⟨f.bytes.length, parts.flatten⟩] n f.bytes =
          f.bytes ++ parts.flatten.take n := by
        by_cases hn : n ≤ parts.flatten.length
        · rw [crashAfter_cons_le hn, FileWrite.apply_end]
        · rw [crashAfter_cons_gt (by show parts.flatten.length < n; omega), crashAfter,
            FileWrite.apply_end, take_of_length_le (by omega)]
      rw [AppendPlan.writes, hfile, happ]
      exact not_reopens_of_old_copies f _ _ htaken
    · rcases h with h0 | ⟨hno, -⟩
      · omega
      · exact hno hfail
  next hgood =>
    rw [AppendPlan.writes, crashed_append_bytes f new hver]
    by_cases hn : n < parts.flatten.length
    · -- the payload was cut
      have h0 : n - parts.flatten.length = 0 := by omega
      rw [cutPrimary, cutBackup, h0, Nat.zero_sub, cutCopy_zero, cutCopy_zero]
      refine iff_of_false (not_reopens_of_old_copies f _ _ htaken) ?_
      rintro (hz | ⟨-, -, hcut⟩)
      · omega
      · rcases hcut with hcut | ⟨hcut, -⟩ <;> omega
    -- the payload is complete: what is read is decided by the header copies
    have hle : parts.flatten.length ≤ n := by omega
    rw [take_of_length_le hle]
    have hmain := reopens_behind_payload_iff (n := n) f hparts hroom hprimary hbackup
    rw [cutBackup_whole_iff f.backup_len (f.length_newCopy enabled parts) hle] at hmain
    rw [SurvivesCut]
    refine hmain.trans ⟨fun h => .inr ⟨hgood, h.2, h.1⟩, ?_⟩
    rintro (hz | ⟨-, hsum, hcut⟩)
    · omega
    · exact ⟨hcut, hsum⟩

/-! ## §7. A block map file and its first record. -/

/-- The block map file right after its log was started: the tag `BMV3` and no record. -/
def startedBlkMapLog : LogSegment .blkMap [66, 77, 86, 51] :=
  .written .blkMap 2 1 [66, 77, 86, 51] (by decide) (by decide) (by decide) prefix_rfl (by decide)

/-- A system that takes every byte it is offered. -/
def wholeWrites : ShortWrites := ⟨fun _ n => n, fun _ _ => le_rfl, fun _ _ h => h⟩

/-- The first record of a started block map log: a crash behind the last byte of the backup copy
leaves the new payload, although the primary copy is the old one. -/
theorem append_crash_atomic_startedBlkMapLog :
    ∃ plan, appendSegmentPayloadParts wholeWrites .blkMap [66, 77, 86, 51] [replicate 59 1] true
        (some startedBlkMapLog.bytes) = .ok plan ∧
      ReopensOldOrNew .blkMap startedBlkMapLog.payload [replicate 59 (1 : UInt8)].flatten
        (crashAfter plan.writes 107 startedBlkMapLog.bytes) := by
  obtain ⟨plan, hplan, hiff⟩ := append_crash_atomic_iff wholeWrites startedBlkMapLog
    [replicate 59 1] true (by decide) (by decide) (by decide +kernel) (by decide +kernel) 107
  exact ⟨plan, hplan, hiff.mpr (by decide +kernel)⟩

/-- **A torn append makes the log unreadable**: the first 59-byte record appended to a
started block map log, cut after one byte, leaves a file that opens with neither
payload. -/
theorem append_crash_loses_log : ∃ plan,
      appendSegmentPayloadParts wholeWrites .blkMap [66, 77, 86, 51] [replicate 59 1] true
        (some startedBlkMapLog.bytes) = .ok plan ∧
      ¬ ReopensOldOrNew .blkMap startedBlkMapLog.payload
        [replicate 59 (1 : UInt8)].flatten (crashAfter plan.writes 1 startedBlkMapLog.bytes) :=
  ⟨_, append_plan wholeWrites startedBlkMapLog [replicate 59 1] true (by decide),
    not_reopens_of_old_copies startedBlkMapLog [1] _ (by decide)⟩

end Holo.Storage
