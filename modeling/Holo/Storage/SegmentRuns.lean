/-
Holo.Storage.SegmentRuns — a segment file over a run of appends.

`write_segment_file` starts a file, then `append_segment_payload_parts` continues it any
number of times.  The header carries the payload's checksum along; the reader computes it
from scratch.

Main results:
* `appendTo_inPlace`, `appendTo_first`: what one append makes of a file;
* `appendAll_nonempty`, `appendAll_halts`: what a run of appends makes of it;
* `appends_read_back_iff`: exactly when the file reads back.
-/
import Holo.Storage.SegmentAppend

namespace Holo.Storage

open Lib List

/-! ## §1. Appends one after the other. -/

/-- The file once every one of these writes is done. -/
def applyWrites (writes : List FileWrite) (file : Bytes) : Bytes :=
  writes.foldl (fun b w => w.apply b) file

section

variable (os : ShortWrites) (h : SegmentHeader) (kind : SegmentKind) (segmentId : Nat)

/-- What an append that did as planned returns: the new file, or the failure it halted on. -/
def AppendPlan.perform (file : Bytes) : AppendPlan → Except StorageError Bytes
  | .readHeader => .ok file
  | .rewrite sequence payload => .ok (writeSegmentFileBytes kind segmentId sequence payload)
  | .inPlace writes _ => .ok (applyWrites writes file)
  | .halted _ error => .error error

/-- One append with the checksum enabled. -/
def appendTo (tag file : Bytes) (parts : List Bytes) : Except StorageError Bytes :=
  match appendSegmentPayloadParts os kind tag parts true (some file) with
  | .error e => .error e
  | .ok plan => plan.perform kind segmentId file

/-- A run of appends, each split into parts; it ends with the first one that fails. -/
def appendAll (kind : SegmentKind) (segmentId : Nat) (tag : Bytes) :
    List (List Bytes) → Bytes → Except StorageError Bytes
  | [], file => .ok file
  | parts :: rest, file =>
    match appendTo os kind segmentId tag file parts with
    | .error e => .error e
    | .ok file => appendAll kind segmentId tag rest file

/-! ## §2. A file with two equal header copies. -/

/-- Two copies of a header, then a payload. -/
def segmentBytes (payload : Bytes) : Bytes :=
  encodeV2HeaderCopy h ++ (encodeV2HeaderCopy h ++ payload)

/-- The header names this payload; its checksum may be wrong. -/
structure SegmentHeader.Names (payload : Bytes) : Prop where
  fits : h.Fits
  version : h.version = storageLayoutVersion
  magic : h.magic = storageLayoutMagic
  kind_eq : h.kind = kind
  len : h.payloadLen = payload.length

end

variable {os : ShortWrites} {h : SegmentHeader} {kind : SegmentKind} {segmentId sequence : Nat}
  {payload out tag file : Bytes}

theorem SegmentHeader.names_new (kind : SegmentKind) {segmentId sequence : Nat}
    (hid : segmentId < 256 ^ 8) (hseq : sequence < 256 ^ 8) (hlen : payload.length < 256 ^ 8) :
    (SegmentHeader.new kind segmentId sequence payload).Names kind payload :=
  ⟨SegmentHeader.new_fits kind hid hseq hlen, rfl, rfl, rfl, rfl⟩

theorem SegmentHeader.Names.headerOfPair_eq (hn : h.Names kind payload) :
    headerOfPair (encodeV2HeaderCopy h) (encodeV2HeaderCopy h) =
      .ok (h, segmentHeaderV2TotalSize) := by
  have hdec := decodeV2HeaderCopy_encode h hn.fits hn.version
  have hfirst : SegmentHeader.decode ((encodeV2HeaderCopy h).take segmentHeaderSize) = .ok h := by
    exact SegmentHeader.decode_encode h hn.fits []
  rw [headerOfPair_v2 (length_encodeV2HeaderCopy h) (length_encodeV2HeaderCopy h)]
  · rw [hdec, okOrNone_ok]
    simp [selectHeader]
  intro h' hh'
  rw [hfirst] at hh'
  injection hh' with hh'
  rw [← hh', hn.version]
  decide

theorem SegmentHeader.Names.decode_take (hn : h.Names kind payload) :
    decodeSegmentHeaderSet ((segmentBytes h payload).take segmentHeaderV2TotalSize) =
      .ok (h, segmentHeaderV2TotalSize) := by
  have htake : (segmentBytes h payload).take segmentHeaderV2TotalSize =
      encodeV2HeaderCopy h ++ (encodeV2HeaderCopy h ++ []) := by rfl
  rw [htake, decodeSegmentHeaderSet_pair (length_encodeV2HeaderCopy h)
    (length_encodeV2HeaderCopy h), hn.headerOfPair_eq]

theorem length_segmentBytes (h : SegmentHeader) (payload : Bytes) :
    (segmentBytes h payload).length = segmentHeaderV2TotalSize + payload.length := by
  simp [segmentBytes, segmentHeaderV2TotalSize]
  omega

/-- **Reading such a file back**: it succeeds exactly if the stored checksum is the payload's. -/
theorem SegmentHeader.Names.reopen_iff (hn : h.Names kind payload) :
    reopenPayload kind (segmentBytes h payload) = .ok out ↔
      out = payload ∧ h.checksum = crc32c payload := by
  refine (reopenPayload_pair (length_encodeV2HeaderCopy h) (length_encodeV2HeaderCopy h)
    (.inr ⟨h, hn.headerOfPair_eq⟩)).trans (and_congr_right fun _ => ⟨?_, fun hsum => ?_⟩)
  · rintro ⟨h', hh', -, -, -, hsum⟩
    simp_all [hn.headerOfPair_eq]
  · exact ⟨h, hn.headerOfPair_eq, hn.magic, hn.kind_eq, hn.len, hsum⟩

/-! ## §3. One append. -/

theorem appendTo_empty {parts : List Bytes} (h : parts.flatten = []) :
    appendTo os kind segmentId tag file parts = .ok file := by
  simp [appendTo, appendSegmentPayloadParts, h, AppendPlan.perform]

variable {parts : List Bytes}

/-- The writes of an append in place replace both copies and extend the payload. -/
theorem applyWrites_append (h h' : SegmentHeader) (hver : h'.version = storageLayoutVersion)
    (payload appended : Bytes) :
    applyWrites (⟨(segmentBytes h payload).length, appended⟩ :: writeSegmentHeaderCopiesAt h')
      (segmentBytes h payload) = segmentBytes h' (payload ++ appended) := by
  have hend : FileWrite.apply ⟨(segmentBytes h payload).length, appended⟩ (segmentBytes h payload) =
      encodeV2HeaderCopy h ++ (encodeV2HeaderCopy h ++ (payload ++ appended)) := by
    rw [FileWrite.apply_end, segmentBytes]
    simp only [append_assoc]
  have hbackup := FileWrite.apply_over (x := encodeV2HeaderCopy h) (y := encodeV2HeaderCopy h)
    (z := payload ++ appended) (d := encodeV2HeaderCopy h') (by simp)
  rw [length_encodeV2HeaderCopy, length_encodeV2HeaderCopy, drop_eq_nil_of_le (by simp),
    append_nil] at hbackup
  have hprimary := FileWrite.apply_over (x := []) (y := encodeV2HeaderCopy h)
    (z := encodeV2HeaderCopy h' ++ (payload ++ appended)) (d := encodeV2HeaderCopy h') (by simp)
  rw [length_encodeV2HeaderCopy, drop_eq_nil_of_le (by simp), append_nil,
    nil_append, length_nil, nil_append] at hprimary
  unfold applyWrites writeSegmentHeaderCopiesAt
  rw [if_pos hver]
  simp only [foldl_cons, foldl_nil]
  rw [hend, show segmentHeaderV2CopySize = 48 from rfl, hbackup, hprimary]
  rfl

/-- **An append to a file with a payload** extends it in place, unless the write of the parts
fails. -/
theorem appendTo_inPlace (os : ShortWrites) (hn : h.Names kind payload) (hne : payload ≠ [])
    (htag : tag <+: payload) (hparts : parts.flatten ≠ []) (segmentId : Nat) :
    appendTo os kind segmentId tag (segmentBytes h payload) parts =
      if PartsFail parts then .error .io
      else .ok (segmentBytes (appendedHeader true h parts) (payload ++ parts.flatten)) := by
  have hlong : parts.flatten.length ≠ 0 := mt length_eq_zero_iff.mp hparts
  have hpos : h.payloadLen ≠ 0 := by
    rw [hn.len]
    exact mt length_eq_zero_iff.mp hne
  have hfull : ¬ (segmentBytes h payload).length < segmentHeaderV2TotalSize + tag.length := by
    rw [length_segmentBytes]
    have := htag.length_le
    omega
  have hslice : slice (segmentBytes h payload) segmentHeaderV2TotalSize tag.length = tag := by
    exact (prefix_iff_eq_take.mp htag).symm
  have hend : segmentHeaderV2TotalSize + h.payloadLen = (segmentBytes h payload).length := by
    rw [length_segmentBytes, hn.len]
  unfold appendTo appendSegmentPayloadParts
  simp only [if_neg hlong, hn.decode_take, hn.kind_eq, hpos, hfull, hslice, ne_eq,
    not_true_eq_false, if_false, hend, writtenParts_eq]
  by_cases hfail : PartsFail parts
  · simp only [if_pos hfail, AppendPlan.perform]
  · simp only [if_neg hfail, AppendPlan.perform]
    rw [applyWrites_append h (appendedHeader true h parts) hn.version payload parts.flatten]

/-- **The first append to a file without payload** starts it with the tag. -/
theorem appendTo_first (hn : h.Names kind []) (hparts : parts.flatten ≠ []) (segmentId : Nat) :
    appendTo os kind segmentId tag (segmentBytes h []) parts =
      .ok (segmentBytes (.new kind segmentId (satAdd64 h.sequence 1)
        (tag ++ parts.flatten)) (tag ++ parts.flatten)) := by
  have hlong : parts.flatten.length ≠ 0 := mt length_eq_zero_iff.mp hparts
  have hzero : h.payloadLen = 0 := hn.len
  unfold appendTo appendSegmentPayloadParts
  simp only [if_neg hlong, hn.decode_take, hn.kind_eq, hzero, ne_eq, not_true_eq_false, if_false,
    if_true, AppendPlan.perform]
  rfl

theorem appendTo_untagged (os : ShortWrites) (hn : h.Names kind payload) (hne : payload ≠ [])
    (htag : ¬ tag <+: payload) (hparts : parts.flatten ≠ []) (segmentId : Nat) :
    ∃ e, appendTo os kind segmentId tag (segmentBytes h payload) parts = .error e := by
  have hlong : parts.flatten.length ≠ 0 := mt length_eq_zero_iff.mp hparts
  have hpos : h.payloadLen ≠ 0 := by
    rw [hn.len]
    exact mt length_eq_zero_iff.mp hne
  have hslice : slice (segmentBytes h payload) segmentHeaderV2TotalSize tag.length ≠ tag := by
    exact fun heq => htag (prefix_iff_eq_take.mpr heq.symm)
  unfold appendTo appendSegmentPayloadParts
  simp only [if_neg hlong, hn.decode_take, hn.kind_eq, hpos, ne_eq, not_true_eq_false, if_false]
  by_cases hshort : (segmentBytes h payload).length < segmentHeaderV2TotalSize + tag.length
  · exact ⟨.io, by simp only [hshort, if_true]⟩
  · simp only [hshort, if_false, hslice, not_false_eq_true, if_true]
    exact ⟨_, rfl⟩

/-- The header after an append names the longer payload. -/
theorem SegmentHeader.Names.appended (hn : h.Names kind payload)
    (hlen : (payload ++ parts.flatten).length < 256 ^ 8) :
    (appendedHeader true h parts).Names kind (payload ++ parts.flatten) := by
  have hsum : satAdd64 h.payloadLen parts.flatten.length = (payload ++ parts.flatten).length := by
    rw [hn.len, length_append]
    rw [length_append] at hlen
    refine satAdd64_eq ?_
    unfold u64Max
    omega
  have hseq : satAdd64 h.sequence 1 < 256 ^ 8 := by
    have := satAdd64_le h.sequence 1
    unfold u64Max at this
    omega
  have hcrc : appendedChecksum true h parts < 256 ^ 4 := by
    unfold appendedChecksum
    split
    · rw [if_pos hn.version, foldl_crc32cAppend]
      exact crc32cAppend_lt hn.fits.2.2.2.2.2 _
    · decide
  refine ⟨⟨hn.fits.1, hn.fits.2.1, hn.fits.2.2.1, hseq, ?_, hcrc⟩, hn.version, hn.magic,
    hn.kind_eq, hsum⟩
  show satAdd64 h.payloadLen parts.flatten.length < 256 ^ 8
  rw [hsum]
  exact hlen

/-- A checksum that is right and not zero stays right. -/
theorem appendedHeader_checksum (hn : h.Names kind payload) (hsum : h.checksum = crc32c payload)
    (hzero : crc32c payload ≠ 0) :
    (appendedHeader true h parts).checksum = crc32c (payload ++ parts.flatten) := by
  show appendedChecksum true h parts = _
  unfold appendedChecksum
  rw [if_pos ⟨rfl, hsum ▸ hzero⟩, if_pos hn.version, foldl_crc32cAppend, crc32c_append, hsum]

/-- A checksum that is zero stays zero. -/
theorem appendedHeader_checksum_zero (hzero : h.checksum = 0) :
    (appendedHeader true h parts).checksum = 0 := by
  show appendedChecksum true h parts = _
  unfold appendedChecksum
  rw [if_neg (by simp [hzero])]

/-! ## §4. A run of appends. -/

/-- Some append of the run added bytes to a payload that was there, and `bad` held of the two. -/
def SomeInPlace (bad : Bytes → List Bytes → Prop) : Bytes → List (List Bytes) → Prop
  | _, [] => False
  | payload, parts :: rest =>
    (parts.flatten ≠ [] ∧ payload ≠ [] ∧ bad payload parts) ∨
      SomeInPlace bad (payload ++ parts.flatten) rest

instance decidableSomeInPlace (bad : Bytes → List Bytes → Prop) [∀ a b, Decidable (bad a b)] :
    ∀ payload appends, Decidable (SomeInPlace bad payload appends)
  | _, [] => inferInstanceAs (Decidable False)
  | payload, parts :: rest =>
    have := decidableSomeInPlace bad (payload ++ parts.flatten) rest
    inferInstanceAs (Decidable (_ ∨ _))

theorem someInPlace_skip {bad : Bytes → List Bytes → Prop} {rest : List (List Bytes)}
    (hparts : parts.flatten = []) :
    SomeInPlace bad payload (parts :: rest) ↔ SomeInPlace bad payload rest := by
  simp [SomeInPlace, hparts]

/-- Before some append that adds bytes, the payload was there and had checksum zero. -/
def ZeroBefore : Bytes → List (List Bytes) → Prop :=
  SomeInPlace fun payload _ => crc32c payload = 0

/-- Some append in place ends with an empty part behind others: the write of it fails. -/
def HaltsInPlace : Bytes → List (List Bytes) → Prop :=
  SomeInPlace fun _ parts => PartsFail parts

instance (payload : Bytes) (appends : List (List Bytes)) : Decidable (ZeroBefore payload appends) :=
  decidableSomeInPlace _ payload appends

instance (payload : Bytes) (appends : List (List Bytes)) :
    Decidable (HaltsInPlace payload appends) :=
  decidableSomeInPlace _ payload appends

/-- What a run leaves of a file with a payload. -/
structure RunTo (kind : SegmentKind) (payload : Bytes) (appends : List (List Bytes))
    (h h' : SegmentHeader) : Prop where
  names : h'.Names kind (payload ++ appends.flatten.flatten)
  right : h.checksum = crc32c payload → ¬ ZeroBefore payload appends →
    h'.checksum = crc32c (payload ++ appends.flatten.flatten)
  zeroed : h.checksum = crc32c payload → ZeroBefore payload appends → h'.checksum = 0
  zero : h.checksum = 0 → h'.checksum = 0

/-- **A run of appends to a file with a payload**: where none of them halts it goes through, and
the checksum is the running one unless it was zero before. -/
theorem appendAll_nonempty (os : ShortWrites) (segmentId : Nat) :
    ∀ (appends : List (List Bytes)) {h : SegmentHeader} {payload : Bytes},
    h.Names kind payload → payload ≠ [] → tag <+: payload → ¬ HaltsInPlace payload appends →
    (payload ++ appends.flatten.flatten).length < 256 ^ 8 →
    ∃ h', appendAll os kind segmentId tag appends (segmentBytes h payload) =
        .ok (segmentBytes h' (payload ++ appends.flatten.flatten)) ∧
      RunTo kind payload appends h h'
  | [], h, payload, hn, _, _, _, _ => by
    refine ⟨h, by simp [appendAll], ⟨by simpa using hn, fun hs _ => by simpa using hs,
      fun _ hz => hz.elim, fun hz => hz⟩⟩
  | parts :: rest, h, payload, hn, hne, htag, hgo, hlen => by
    have hflat : payload ++ (parts :: rest).flatten.flatten =
        (payload ++ parts.flatten) ++ rest.flatten.flatten := by simp
    rw [hflat] at hlen ⊢
    have hlen1 : (payload ++ parts.flatten).length < 256 ^ 8 := by
      rw [length_append] at hlen
      omega
    by_cases hparts : parts.flatten = []
    · -- nothing to append: the header is only read
      obtain ⟨h', hrun, hto⟩ := appendAll_nonempty os segmentId rest hn hne htag
        (fun hhalt => hgo ((someInPlace_skip hparts).mpr hhalt)) (by simpa [hparts] using hlen)
      refine ⟨h', ?_, ?_⟩
      · simp only [appendAll, appendTo_empty hparts, hrun, hparts, append_nil]
      refine ⟨by rw [hflat]; simpa [hparts] using hto.names, fun hs hz => ?_, fun hs hz => ?_,
        hto.zero⟩
      · rw [hflat]
        have := hto.right hs (fun hzr => hz ((someInPlace_skip hparts).mpr hzr))
        simpa [hparts] using this
      · exact hto.zeroed hs ((someInPlace_skip hparts).mp hz)
    have hstep := appendTo_inPlace os hn hne htag hparts segmentId
    rw [if_neg fun hfail => hgo (.inl ⟨hparts, hne, hfail⟩)] at hstep
    obtain ⟨h', hrun, hto⟩ := appendAll_nonempty os segmentId rest (hn.appended hlen1)
      (by simp [hne]) (htag.trans (prefix_append _ _)) (fun hhalt => hgo (.inr hhalt)) hlen
    refine ⟨h', by simp only [appendAll, hstep, hrun], ?_⟩
    refine ⟨by rw [hflat]; exact hto.names, fun hs hz => ?_, fun hs hz => ?_, fun hz => ?_⟩
    · rw [hflat]
      have hpos : crc32c payload ≠ 0 := fun h0 => hz (.inl ⟨hparts, hne, h0⟩)
      exact hto.right (appendedHeader_checksum hn hs hpos) (fun hzr => hz (.inr hzr))
    · by_cases h0 : crc32c payload = 0
      · exact hto.zero (appendedHeader_checksum_zero (hs.trans h0))
      · rcases hz with ⟨-, -, hbad⟩ | hzr
        · exact absurd hbad h0
        · exact hto.zeroed (appendedHeader_checksum hn hs h0) hzr
    · exact hto.zero (appendedHeader_checksum_zero hz)

/-- **A run that halts** fails: the appends before the halting one go through. -/
theorem appendAll_halts (os : ShortWrites) (segmentId : Nat) :
    ∀ (appends : List (List Bytes)) {h : SegmentHeader} {payload : Bytes},
    h.Names kind payload → payload ≠ [] → tag <+: payload → HaltsInPlace payload appends →
    (payload ++ appends.flatten.flatten).length < 256 ^ 8 →
    ∃ e, appendAll os kind segmentId tag appends (segmentBytes h payload) = .error e
  | [], _, _, _, _, _, hhalt, _ => hhalt.elim
  | parts :: rest, h, payload, hn, hne, htag, hhalt, hlen => by
    rw [flatten_cons, flatten_append, ← append_assoc] at hlen
    have hlen1 : (payload ++ parts.flatten).length < 256 ^ 8 := by
      rw [length_append] at hlen
      omega
    by_cases hparts : parts.flatten = []
    · have hrest : HaltsInPlace payload rest := (someInPlace_skip hparts).mp hhalt
      rw [appendAll, appendTo_empty hparts]
      exact appendAll_halts os segmentId rest hn hne htag hrest (by simpa [hparts] using hlen)
    rw [appendAll, appendTo_inPlace os hn hne htag hparts segmentId]
    by_cases hfail : PartsFail parts
    · exact ⟨.io, by rw [if_pos hfail]⟩
    · rw [if_neg hfail]
      refine appendAll_halts os segmentId rest (hn.appended hlen1) (by simp [hne])
        (htag.trans (prefix_append _ _)) ?_ hlen
      exact hhalt.resolve_left fun hbad => hfail hbad.2.2

/-- The tag an append asks for fits the payload the file was written with. -/
def TagFits (tag payload : Bytes) : Prop :=
  if payload = [] then tag = [] else tag <+: payload

instance (tag payload : Bytes) : Decidable (TagFits tag payload) := by
  unfold TagFits
  infer_instance

theorem writeSegmentFileBytes_eq (kind : SegmentKind) (segmentId sequence : Nat) (payload : Bytes) :
    writeSegmentFileBytes kind segmentId sequence payload =
      segmentBytes (.new kind segmentId sequence payload) payload := rfl

variable {appends : List (List Bytes)}

/-- The run goes through and the file reads back as everything written. -/
def ReadsBack (os : ShortWrites) (kind : SegmentKind) (segmentId sequence : Nat)
    (tag payload : Bytes) (appends : List (List Bytes)) : Prop :=
  ∃ file, appendAll os kind segmentId tag appends
      (writeSegmentFileBytes kind segmentId sequence payload) = .ok file ∧
    reopenPayload kind file = .ok (payload ++ appends.flatten.flatten)

theorem appendAll_nothing : ∀ {appends : List (List Bytes)},
    appends.flatten.flatten = [] → appendAll os kind segmentId tag appends file = .ok file
  | [], _ => rfl
  | parts :: rest, h => by
    rw [flatten_cons, flatten_append, append_eq_nil_iff] at h
    rw [appendAll, appendTo_empty h.1]
    exact appendAll_nothing h.2

theorem not_someInPlace_nothing {bad : Bytes → List Bytes → Prop} :
    ∀ {appends : List (List Bytes)}, appends.flatten.flatten = [] →
      ¬ SomeInPlace bad payload appends
  | [], _, h => h
  | parts :: rest, h, hbad => by
    rw [flatten_cons, flatten_append, append_eq_nil_iff] at h
    rcases hbad with ⟨hne, -, -⟩ | hbad
    · exact hne h.1
    · rw [h.1, append_nil] at hbad
      exact not_someInPlace_nothing h.2 hbad

/-- A run that adds something starts, after appends of nothing, with an append that does. -/
theorem exists_first_append : ∀ {appends : List (List Bytes)}, appends.flatten.flatten ≠ [] →
    ∃ parts rest, parts.flatten ≠ [] ∧
      appends.flatten.flatten = parts.flatten ++ rest.flatten.flatten ∧
      (∀ file, appendAll os kind segmentId tag appends file =
        appendAll os kind segmentId tag (parts :: rest) file) ∧
      ∀ bad payload, SomeInPlace bad payload appends ↔ SomeInPlace bad payload (parts :: rest)
  | [], h => absurd rfl h
  | first :: rest, h => by
    by_cases hfirst : first.flatten = []
    swap
    · exact ⟨first, rest, hfirst, by simp, fun _ => rfl, fun _ _ => Iff.rfl⟩
    have hrest : rest.flatten.flatten ≠ [] := by
      simpa [hfirst] using h
    obtain ⟨parts, rest', hne, hflat, hrun, hsame⟩ := exists_first_append hrest
    refine ⟨parts, rest', hne, by simpa [hfirst] using hflat, fun file => ?_, fun bad payload => ?_⟩
    · rw [appendAll, appendTo_empty hfirst]
      exact hrun file
    · exact (someInPlace_skip hfirst).trans (hsame bad payload)

/-- Reading back after a run to a file with a payload whose checksum was right. -/
theorem RunTo.reopen_iff {h h' : SegmentHeader} (hto : RunTo kind payload appends h h')
    (hsum : h.checksum = crc32c payload) :
    reopenPayload kind (segmentBytes h' (payload ++ appends.flatten.flatten)) = .ok out ↔
      out = payload ++ appends.flatten.flatten ∧
        (¬ ZeroBefore payload appends ∨ crc32c (payload ++ appends.flatten.flatten) = 0) := by
  rw [hto.names.reopen_iff]
  by_cases hz : ZeroBefore payload appends
  · rw [hto.zeroed hsum hz]
    simp [hz, eq_comm]
  · simp [hz, hto.right hsum hz]

/-- The run over a file that starts with a payload. -/
theorem readsBack_nonempty_iff (hid : segmentId < 256 ^ 8) (hseq : sequence < 256 ^ 8)
    (hlen : (payload ++ appends.flatten.flatten).length < 256 ^ 8) (hne : payload ≠ [])
    (hsome : appends.flatten.flatten ≠ []) :
    ReadsBack os kind segmentId sequence tag payload appends ↔
      tag <+: payload ∧ ¬ HaltsInPlace payload appends ∧
        (¬ ZeroBefore payload appends ∨ crc32c (payload ++ appends.flatten.flatten) = 0) := by
  have hlen0 : payload.length < 256 ^ 8 := by
    rw [length_append] at hlen
    omega
  have hn := SegmentHeader.names_new kind hid hseq hlen0
  unfold ReadsBack
  rw [writeSegmentFileBytes_eq]
  by_cases htag : tag <+: payload
  · by_cases hhalt : HaltsInPlace payload appends
    · obtain ⟨e, he⟩ := appendAll_halts os segmentId appends hn hne htag hhalt hlen
      rw [he]
      simp [hhalt]
    · obtain ⟨h', hrun, hto⟩ := appendAll_nonempty os segmentId appends hn hne htag hhalt
        hlen
      rw [hrun]
      simp only [Except.ok.injEq, exists_eq_left', hto.reopen_iff rfl, htag, hhalt, true_and,
        not_false_eq_true]
  -- without the tag the first append that adds something is refused
  obtain ⟨parts, rest, hparts, -, hrun, -⟩ :=
    @exists_first_append os kind segmentId tag _ hsome
  obtain ⟨e, he⟩ := appendTo_untagged os hn hne htag hparts segmentId
  rw [hrun, appendAll, he]
  simp [htag]

/-- The run over a file written without a payload: the first append puts the tag in front, and
writes the new file in one piece. -/
theorem readsBack_empty_iff (hid : segmentId < 256 ^ 8) (hseq : sequence < 256 ^ 8)
    (hlen : (tag ++ appends.flatten.flatten).length < 256 ^ 8)
    (hsome : appends.flatten.flatten ≠ []) :
    ReadsBack os kind segmentId sequence tag [] appends ↔ tag = [] ∧ ¬ HaltsInPlace [] appends ∧
      (¬ ZeroBefore [] appends ∨ crc32c appends.flatten.flatten = 0) := by
  have hn : (SegmentHeader.new kind segmentId sequence []).Names kind [] :=
    SegmentHeader.names_new kind hid hseq (by decide)
  obtain ⟨parts, rest, hparts, hflat, hrun, hsame⟩ :=
    @exists_first_append os kind segmentId tag _ hsome
  -- appends of nothing come before the first that adds something
  have hfirst : ∀ bad, SomeInPlace bad [] appends ↔ SomeInPlace bad parts.flatten rest := by
    intro bad
    rw [hsame bad [], SomeInPlace]
    simp
  have hseq' : satAdd64 sequence 1 < 256 ^ 8 := by
    have := satAdd64_le sequence 1
    unfold u64Max at this
    omega
  have hall : (tag ++ parts.flatten) ++ rest.flatten.flatten = tag ++ appends.flatten.flatten := by
    rw [hflat, append_assoc]
  have hlen1 : (tag ++ parts.flatten).length < 256 ^ 8 := by
    rw [← hall, length_append] at hlen
    omega
  have hnames := SegmentHeader.names_new kind hid hseq' hlen1
  rw [← hall] at hlen
  rw [HaltsInPlace, ZeroBefore, hfirst, hfirst]
  unfold ReadsBack
  rw [writeSegmentFileBytes_eq, hrun, appendAll, appendTo_first hn hparts]
  rw [show (SegmentHeader.new kind segmentId sequence []).sequence = sequence from rfl]
  -- behind the first append it is a run over a file with a payload
  by_cases hhalt : HaltsInPlace (tag ++ parts.flatten) rest
  · obtain ⟨e, he⟩ := appendAll_halts os segmentId rest hnames (by simp [hparts])
      (prefix_append _ _) hhalt hlen
    refine iff_of_false (by simp [he]) ?_
    rintro ⟨rfl, hgo, -⟩
    exact hgo hhalt
  obtain ⟨h', hrest, hto⟩ := appendAll_nonempty os segmentId rest hnames (by simp [hparts])
    (prefix_append _ _) hhalt hlen
  simp only [hrest, Except.ok.injEq, exists_eq_left', nil_append]
  rw [hto.reopen_iff rfl, hall]
  constructor
  · rintro ⟨heq, hz⟩
    -- the tag is read back with the rest, so that it has to be empty
    have htag : tag = [] := by
      have := congrArg List.length heq
      rw [length_append] at this
      exact length_eq_zero_iff.mp (by omega)
    subst htag
    exact ⟨rfl, hhalt, hz⟩
  · rintro ⟨rfl, -, hz⟩
    exact ⟨rfl, hz⟩

/-- **When a file reads back**: the appends asked for a tag the file has; no append in place ended
with an empty part, whose write the system reports as failed; and none that added bytes found a
payload with checksum zero — the stored zero then stays zero, while the reader computes the
checksum of everything. -/
theorem appends_read_back_iff (os : ShortWrites) (kind : SegmentKind) (segmentId sequence : Nat)
    (tag payload : Bytes) (appends : List (List Bytes)) (hid : segmentId < 256 ^ 8)
    (hseq : sequence < 256 ^ 8)
    (hlen : tag.length + payload.length + appends.flatten.flatten.length < 256 ^ 8) :
    ReadsBack os kind segmentId sequence tag payload appends ↔
      (appends.flatten.flatten = [] ∨ TagFits tag payload) ∧ ¬ HaltsInPlace payload appends ∧
        (¬ ZeroBefore payload appends ∨ crc32c (payload ++ appends.flatten.flatten) = 0) := by
  by_cases hsome : appends.flatten.flatten = []
  · have hn : (SegmentHeader.new kind segmentId sequence payload).Names kind payload :=
      SegmentHeader.names_new kind hid hseq (by omega)
    have hread : ReadsBack os kind segmentId sequence tag payload appends := by
      refine ⟨_, appendAll_nothing hsome, ?_⟩
      rw [hsome, append_nil]
      exact hn.reopen_iff.mpr ⟨rfl, rfl⟩
    exact iff_of_true hread
      ⟨.inl hsome, not_someInPlace_nothing hsome, .inl (not_someInPlace_nothing hsome)⟩
  rw [or_iff_right hsome, TagFits]
  by_cases hempty : payload = []
  · subst hempty
    rw [if_pos rfl, nil_append]
    exact readsBack_empty_iff hid hseq (by rw [length_append]; omega) hsome
  · rw [if_neg hempty]
    exact readsBack_nonempty_iff hid hseq (by rw [length_append]; omega) hempty hsome

/-- Two appends to a data segment started with a byte: the first in two parts, an empty one in
front, and no checksum on the way is zero. -/
theorem appends_read_back_two_parts :
    ReadsBack wholeWrites .data 1 1 [7] [7] [[[], [1, 2]], [[3]]] := by
  refine (appends_read_back_iff wholeWrites .data 1 1 [7] [7] [[[], [1, 2]], [[3]]] (by decide)
    (by decide) (by decide)).mpr ⟨.inr (by decide), by decide, .inl (by decide +kernel)⟩

/-- Four bytes with checksum zero, then one more byte: the file no longer reads back. -/
theorem append_after_zero_checksum_unreadable : ∃ file, appendAll wholeWrites .data 1 [] [[[1]]]
        (writeSegmentFileBytes .data 1 1 [171, 155, 224, 155]) = .ok file ∧
      ∃ e, reopenPayload .data file = .error e := by
  have hn : (SegmentHeader.new .data 1 1 [171, 155, 224, 155]).Names .data [171, 155, 224, 155] :=
    SegmentHeader.names_new .data (by decide) (by decide) (by decide)
  obtain ⟨h', hrun, hto⟩ := appendAll_nonempty wholeWrites 1 [[[1]]] hn (by decide)
    nil_prefix (by decide) (by decide)
  refine ⟨_, hrun, ?_⟩
  cases hread : reopenPayload .data
      (segmentBytes h' ([171, 155, 224, 155] ++ [[[1]]].flatten.flatten))
    with
  | error e => exact ⟨e, rfl⟩
  | ok out =>
    obtain ⟨-, hz⟩ := (hto.reopen_iff rfl).mp hread
    exact absurd hz (by decide +kernel)

end Holo.Storage
