/-
Holo.Storage.SegmentScan — two scanners of a data segment's blob headers, byte by byte.

A data segment holds blobs one behind the other, each with a header of 24 bytes.  In the log
format they stand behind a tag and run to the end of the payload; in the legacy format they
stand behind their number.  `scan_data_index` reads the headers in one go, for the cache that
reads use; the reclaim reads them in BATCHES, each of which says where the next one resumes.

Main results:
* `DataFile.batchFrom_ok`, `DataFile.batchFrom_error`: one batch, against what is left of the
  whole scan;
* `batches_scan_whole`: batch after batch, whatever their limits, gives the whole scan.
-/
import Holo.Lib.Program
import Holo.Storage.SegmentAppend
import Holo.Storage.Records

namespace Holo.Storage.Scan

open Lib List

/-! ## §1. Reading headers. -/

/-- `read_exact_at`, and `seek` with `read_exact`: all the bytes or none. -/
def readExactAt (file : Bytes) (offset len : Nat) : Except StorageError Bytes :=
  if len = 0 ∨ offset + len ≤ file.length then .ok (slice file offset len) else .error .io

def readSegmentHeaderFromFile (file : Bytes) (expectedKind : SegmentKind) :
    Except StorageError SegmentHeader :=
  match decodeSegmentHeaderSet (file.take segmentHeaderV2TotalSize) with
  | .error e => .error e
  | .ok (header, _) =>
    if header.kind ≠ expectedKind then .error (.corrupt "segment kind mismatch") else .ok header

def segmentPayloadOffset (h : SegmentHeader) : Nat :=
  if h.version = storageLayoutVersion then segmentHeaderV2TotalSize else segmentHeaderSize

def dataLogPrefix : Bytes := [68, 84, 86, 50]

def dataBlobHeaderSize : Nat := 24

def decodeBlobMetaFromHeader (buf : Bytes) : Except StorageError DataBlobMeta :=
  match CompressionCodec.fromByte (fieldAt buf 8 1) with
  | .error e => .error e
  | .ok codec => .ok
      { blobId := fieldAt buf 0 8, codec := codec, logicalLen := fieldAt buf 12 4,
        storedLen := fieldAt buf 16 4, payloadChecksum := fieldAt buf 20 4,
        payloadOffset := 0, v2Integrity := false }

def checkedBlobNextOffset (offset storedLen payloadEnd : Nat) : Except StorageError Nat :=
  if offset + (dataBlobHeaderSize + storedLen) > u64Max then
    .error (.corrupt "data blob offset overflow")
  else if offset + (dataBlobHeaderSize + storedLen) > payloadEnd then
    .error (.corrupt "data blob exceeds segment payload")
  else .ok (offset + (dataBlobHeaderSize + storedLen))

/-- The body all three scan loops share: the header at an offset, and where the next one is. -/
def headerAt (file : Bytes) (version payloadEnd offset : Nat) :
    Except StorageError (DataBlobMeta × Nat) := do
  let headerBuf ← readExactAt file offset dataBlobHeaderSize
  let decoded ← decodeBlobMetaFromHeader headerBuf
  let nextOffset ← checkedBlobNextOffset offset decoded.storedLen payloadEnd
  .ok ({ decoded with
    payloadOffset := offset + dataBlobHeaderSize
    v2Integrity := decide (version = storageLayoutVersion) }, nextOffset)

variable {m : DataBlobMeta} {next : Nat} {e : StorageError} {file : Bytes}
  {version offset scanned limit : Nat} {total : Option Nat}

section Cursors

variable {payloadEnd : Nat}

/-- **A header that reads** lies in the file, and the next one lies behind it in the payload. -/
theorem headerAt_ok (h : headerAt file version payloadEnd offset = .ok (m, next)) :
    offset + dataBlobHeaderSize ≤ file.length ∧ next = offset + (dataBlobHeaderSize + m.storedLen) ∧
      next ≤ payloadEnd ∧ m.payloadOffset = offset + dataBlobHeaderSize := by
  obtain ⟨buf, hbuf, h⟩ := except_bind_eq_ok.mp h
  obtain ⟨decoded, -, h⟩ := except_bind_eq_ok.mp h
  obtain ⟨next', hnext, h⟩ := except_bind_eq_ok.mp h
  cases h
  have hin : offset + dataBlobHeaderSize ≤ file.length := by
    unfold readExactAt at hbuf
    split at hbuf
    next hlen => exact hlen.resolve_left (by decide)
    next => cases hbuf
  grind [checkedBlobNextOffset]

theorem lt_next (h : headerAt file version payloadEnd offset = .ok (m, next)) :
    offset < next ∧ next ≤ payloadEnd := by
  obtain ⟨-, hnext, hle, -⟩ := headerAt_ok h
  have hpos : 0 < dataBlobHeaderSize := by decide
  exact ⟨by omega, hle⟩

/-! ## §2. The whole scan. -/

/-- The loop of `scan_log_data_index`. -/
def scanLogFrom (file : Bytes) (version payloadEnd offset : Nat) :
    Except StorageError (List DataBlobMeta) :=
  if offset < payloadEnd then
    if offset + dataBlobHeaderSize > payloadEnd then
      .error (.corrupt "data blob header exceeds segment payload")
    else
      match _h : headerAt file version payloadEnd offset with
      | .error e => .error e
      | .ok (m, next) =>
        match scanLogFrom file version payloadEnd next with
        | .error e => .error e
        | .ok ms => .ok (m :: ms)
  else .ok []
termination_by payloadEnd - offset
decreasing_by
  have := lt_next _h
  omega

section

variable (file : Bytes) (version payloadOffset payloadLen : Nat)

def scanLogDataIndex : Except StorageError (List DataBlobMeta) :=
  scanLogFrom file version (payloadOffset + payloadLen) (payloadOffset + dataLogPrefix.length)

/-- The loop of `scan_legacy_data_index`. -/
def scanLegacyFrom (file : Bytes) (version payloadEnd : Nat) :
    Nat → Nat → Except StorageError (List DataBlobMeta)
  | 0, _ => .ok []
  | count + 1, offset => do
    let (m, next) ← headerAt file version payloadEnd offset
    let ms ← scanLegacyFrom file version payloadEnd count next
    .ok (m :: ms)

/-- The number of blobs a legacy payload starts with. -/
def legacyCount (payloadOffset payloadLen : Nat) : Except StorageError Nat :=
  if payloadLen < 8 then .error (.corrupt "data payload too short")
  else do
    let countBuf ← readExactAt file payloadOffset 8
    let count := leNat countBuf
    if count > (payloadLen - 8) / dataBlobHeaderSize then
      .error (.corrupt "legacy data blob count exceeds segment payload")
    else .ok count

def scanLegacyDataIndex : Except StorageError (List DataBlobMeta) := do
  let count ← legacyCount file payloadOffset payloadLen
  scanLegacyFrom file version (payloadOffset + payloadLen) count (payloadOffset + 8)

/-- `scan_data_index`: the headers, and whether the segment is in the log format. -/
def scanDataIndex (version payloadLen : Nat) : Except StorageError (List DataBlobMeta × Bool) := do
  let payloadOffset :=
    if version = storageLayoutVersion then segmentHeaderV2TotalSize else segmentHeaderSize
  let tag ← readExactAt file payloadOffset 4
  if tag = dataLogPrefix then
    let ms ← scanLogDataIndex file version payloadOffset payloadLen
    .ok (ms, true)
  else
    let ms ← scanLegacyDataIndex file version payloadOffset payloadLen
    .ok (ms, false)

/-! ## §3. The scan in batches. -/

structure SegmentBlobHeaderScan where
  segmentHeader : SegmentHeader
  blobs : List DataBlobMeta
  nextOffset : Nat
  headersScanned : Nat
  complete : Bool
  deriving Repr, DecidableEq

/-- Where the headers start, and how many there are if the payload says so. -/
def scanStart (payloadStart payloadLen : Nat) : Except StorageError (Nat × Option Nat) := do
  let tag ← readExactAt file payloadStart 4
  if tag = dataLogPrefix then .ok (payloadStart + dataLogPrefix.length, none)
  else
    let count ← legacyCount file payloadStart payloadLen
    .ok (payloadStart + 8, some count)

/-- The loop of a batch that may still take `limit` headers, of which there were `scanned` before:
the headers and the offset it stops at. -/
def batchLoop (file : Bytes) (version payloadEnd : Nat) (total : Option Nat) :
    Nat → Nat → Nat → Except StorageError (List DataBlobMeta × Nat)
  | 0, _, offset => .ok ([], offset)
  | limit + 1, scanned, offset =>
    if offset < payloadEnd then
      if total.any (fun count => decide (count ≤ scanned)) then .ok ([], offset)
      else do
        let (m, next) ← headerAt file version payloadEnd offset
        let (ms, stop) ← batchLoop file version payloadEnd total limit (scanned + 1) next
        .ok (m :: ms, stop)
    else .ok ([], offset)

/-- Where a batch starts: at the cursor, which has to lie inside the segment, or at the front. -/
def batchStart (first payloadEnd : Nat) (startOffset : Option Nat) (startHeadersScanned : Nat) :
    Except StorageError Nat :=
  match startOffset with
  | some cursor =>
    if cursor < first ∨ payloadEnd < cursor then
      .error (.conflict "reclaim scan cursor is outside the segment")
    else .ok cursor
  | none =>
    if startHeadersScanned ≠ 0 then
      .error (.conflict "reclaim scan cursor header count is invalid")
    else .ok first

/-- Whether a batch that stopped here has seen every header. -/
def batchComplete (payloadEnd : Nat) (total : Option Nat) (scanned stop : Nat) : Bool :=
  match total with
  | some count => decide (count ≤ scanned)
  | none => decide (stop = payloadEnd)

/-- `scan_segment_blob_headers_with_progress`. -/
def scanSegmentBlobHeaders (startOffset : Option Nat) (startHeadersScanned : Nat)
    (maxHeaders : Nat) : Except StorageError SegmentBlobHeaderScan := do
  let header ← readSegmentHeaderFromFile file .data
  let payloadStart := segmentPayloadOffset header
  let payloadEnd := payloadStart + header.payloadLen
  if payloadEnd > u64Max then .error (.corrupt "data segment length overflow")
  else if file.length ≠ payloadEnd then .error (.corrupt "data segment size mismatch")
  else if header.payloadLen = 0 then .ok ⟨header, [], payloadEnd, 0, true⟩
  else
    let (first, total) ← scanStart file payloadStart header.payloadLen
    let offset ← batchStart first payloadEnd startOffset startHeadersScanned
    if total.any (fun count => decide (count < startHeadersScanned)) then
      .error (.conflict "legacy scan cursor header count exceeds segment")
    else
      let (blobs, stop) ←
        batchLoop file header.version payloadEnd total maxHeaders startHeadersScanned offset
      let complete := batchComplete payloadEnd total (startHeadersScanned + blobs.length) stop
      if stop = offset ∧ complete = false ∧ 0 < maxHeaders then
        .error (.corrupt "data blob scan made no progress")
      else .ok ⟨header, blobs, stop, blobs.length, complete⟩

/-! ## §4. What is left of the whole scan. -/

/-- What the whole scan still returns from a cursor on. -/
def restFrom (version payloadEnd : Nat) (total : Option Nat) (scanned offset : Nat) :
    Except StorageError (List DataBlobMeta) :=
  match total with
  | none => scanLogFrom file version payloadEnd offset
  | some count => scanLegacyFrom file version payloadEnd (count - scanned) offset

end

theorem restFrom_complete (h : batchComplete payloadEnd total scanned offset = true) :
    restFrom file version payloadEnd total scanned offset = .ok [] := by
  cases total with
  | none =>
    have hend : offset = payloadEnd := of_decide_eq_true h
    show scanLogFrom file version payloadEnd offset = .ok []
    rw [scanLogFrom, if_neg (by omega)]
  | some count =>
    have hall : count ≤ scanned := of_decide_eq_true h
    show scanLegacyFrom file version payloadEnd (count - scanned) offset = .ok []
    rw [Nat.sub_eq_zero_of_le hall, scanLegacyFrom]

section

variable (hle : offset ≤ payloadEnd)
include hle

theorem restFrom_header (h : batchComplete payloadEnd total scanned offset = false)
    (hheader : headerAt file version payloadEnd offset = .ok (m, next)) :
    restFrom file version payloadEnd total scanned offset =
      (restFrom file version payloadEnd total (scanned + 1) next).map (m :: ·) := by
  cases total with
  | none =>
    have hend : offset ≠ payloadEnd := of_decide_eq_false h
    obtain ⟨-, hnext, hin, -⟩ := headerAt_ok hheader
    show scanLogFrom file version payloadEnd offset =
      (scanLogFrom file version payloadEnd next).map (m :: ·)
    rw [scanLogFrom, if_pos (by omega), if_neg (by omega)]
    split
    next e he =>
      rw [hheader] at he
      cases he
    next m' next' hok =>
      rw [hheader] at hok
      cases hok
      cases scanLogFrom file version payloadEnd next with
      | error | ok => rfl
  | some count =>
    -- an older file tells how many blobs it has
    have hmore : ¬ count ≤ scanned := of_decide_eq_false h
    have hsub : count - scanned = (count - (scanned + 1)) + 1 := by omega
    show scanLegacyFrom file version payloadEnd (count - scanned) offset =
      (scanLegacyFrom file version payloadEnd (count - (scanned + 1)) next).map (m :: ·)
    rw [hsub, scanLegacyFrom, hheader]
    show (scanLegacyFrom file version payloadEnd (count - (scanned + 1)) next >>= fun ms =>
      .ok (m :: ms)) = _
    cases scanLegacyFrom file version payloadEnd (count - (scanned + 1)) next with
    | error | ok => rfl

theorem restFrom_no_header (h : batchComplete payloadEnd total scanned offset = false)
    (hheader : headerAt file version payloadEnd offset = .error e) :
    ∃ e', restFrom file version payloadEnd total scanned offset = .error e' := by
  cases total with
  | none =>
    have hend : offset ≠ payloadEnd := of_decide_eq_false h
    show ∃ e', scanLogFrom file version payloadEnd offset = .error e'
    rw [scanLogFrom, if_pos (by omega)]
    by_cases hshort : offset + dataBlobHeaderSize > payloadEnd
    · rw [if_pos hshort]
      exact ⟨_, rfl⟩
    rw [if_neg hshort]
    split
    next e' he => exact ⟨e', rfl⟩
    grind
  | some count =>
    have hmore : ¬ count ≤ scanned := of_decide_eq_false h
    have hsub : count - scanned = (count - (scanned + 1)) + 1 := by omega
    refine ⟨e, ?_⟩
    show scanLegacyFrom file version payloadEnd (count - scanned) offset = .error e
    rw [hsub, scanLegacyFrom, hheader]
    rfl

omit hle in
/-- The file ends with the payload, so that no header stands behind it. -/
theorem headerAt_end (hlen : file.length = payloadEnd) (hend : payloadEnd ≤ offset) :
    ∃ e, headerAt file version payloadEnd offset = .error e := by
  cases hheader : headerAt file version payloadEnd offset with
  | error e => exact ⟨e, rfl⟩
  | ok r =>
    have hin := (headerAt_ok hheader).1
    have hpos : 0 < dataBlobHeaderSize := by decide
    omega

/-- Nothing is left exactly at the end. -/
theorem batchComplete_of_rest (h : restFrom file version payloadEnd total scanned offset = .ok []) :
    batchComplete payloadEnd total scanned offset = true := by
  cases hc : batchComplete payloadEnd total scanned offset with
  | true => rfl
  | false =>
    cases hheader : headerAt file version payloadEnd offset with
    | error e =>
      grind [restFrom_no_header]
    | ok r =>
      obtain ⟨m, next⟩ := r
      rw [restFrom_header hle hc hheader] at h
      cases hrest : restFrom file version payloadEnd total (scanned + 1) next with
      | error | ok => rw [hrest] at h; cases h

/-! ## §5. One batch. -/

omit hle in
theorem batchComplete_of_more (hlt : offset < payloadEnd)
    (hmore : ¬ total.any (fun count => decide (count ≤ scanned)) = true) :
    batchComplete payloadEnd total scanned offset = false := by
  cases total with
  | none => exact decide_eq_false (ne_of_lt hlt)
  | some count => exact decide_eq_false fun hle => hmore (decide_eq_true hle)

/-- **The loop of a batch** takes its headers off the front of what is left. -/
theorem batchLoop_ok {bs : List DataBlobMeta} {stop : Nat}
    (h : batchLoop file version payloadEnd total limit scanned offset = .ok (bs, stop)) :
    restFrom file version payloadEnd total scanned offset =
        (restFrom file version payloadEnd total (scanned + bs.length) stop).map (bs ++ ·) ∧
      offset + bs.length ≤ stop ∧ stop ≤ payloadEnd ∧
      (∀ count, total = some count → scanned ≤ count → scanned + bs.length ≤ count) ∧
      (bs.length < limit →
        payloadEnd ≤ stop ∨ batchComplete payloadEnd total (scanned + bs.length) stop = true) := by
  have hid : ∀ r : Except StorageError (List DataBlobMeta),
      r.map (([] : List DataBlobMeta) ++ ·) = r := by
    intro r
    cases r with
    | error | ok => rfl
  induction limit generalizing scanned offset bs with
  | zero =>
    cases h
    exact ⟨(hid _).symm, le_rfl, hle, fun _ _ h => h, fun h => absurd h (by simp)⟩
  | succ limit ih =>
    unfold batchLoop at h
    by_cases hlt : offset < payloadEnd
    swap
    · rw [if_neg hlt] at h
      cases h
      exact ⟨(hid _).symm, le_rfl, hle, fun _ _ h => h, fun _ => .inl (by omega)⟩
    rw [if_pos hlt] at h
    by_cases hall : total.any (fun count => decide (count ≤ scanned)) = true
    · -- the legacy count is reached
      rw [if_pos hall] at h
      cases h
      refine ⟨(hid _).symm, le_rfl, hle, fun _ _ h => h, fun _ => .inr ?_⟩
      cases total with
      | none => cases hall
      | some count => exact hall
    rw [if_neg hall] at h
    obtain ⟨⟨m, next⟩, hheader, h⟩ := except_bind_eq_ok.mp h
    obtain ⟨⟨ms, stop'⟩, hloop, h⟩ := except_bind_eq_ok.mp h
    cases h
    obtain ⟨hnext, hin⟩ := lt_next hheader
    obtain ⟨hrest, hbound, hstop, hcount, hwhy⟩ := ih hin hloop
    have hc := batchComplete_of_more hlt hall
    have hlen : scanned + (m :: ms).length = scanned + 1 + ms.length := by
      rw [length_cons]
      omega
    rw [hlen]
    refine ⟨?_, by rw [length_cons]; omega, hstop, ?_, ?_⟩
    · rw [restFrom_header hle hc hheader, hrest]
      cases restFrom file version payloadEnd total (scanned + 1 + ms.length) stop with
      | error | ok => rfl
    · grind
    · intro hshort
      exact hwhy (by omega)

theorem batchLoop_error
    (h : batchLoop file version payloadEnd total limit scanned offset = .error e) :
    ∃ e', restFrom file version payloadEnd total scanned offset = .error e' := by
  -- on the headers the batch may still take
  induction limit generalizing scanned offset e with
  | zero => cases h
  | succ limit ih =>
    unfold batchLoop at h
    by_cases hlt : offset < payloadEnd
    swap
    · rw [if_neg hlt] at h
      cases h
    rw [if_pos hlt] at h
    by_cases hall : total.any (fun count => decide (count ≤ scanned)) = true
    · rw [if_pos hall] at h
      cases h
    rw [if_neg hall] at h
    have hc := batchComplete_of_more hlt hall
    cases hheader : headerAt file version payloadEnd offset with
    | error e' => exact restFrom_no_header hle hc hheader
    | ok r =>
      obtain ⟨m, next⟩ := r
      rw [hheader] at h
      have h : (batchLoop file version payloadEnd total limit (scanned + 1) next >>=
        fun r => .ok (m :: r.1, r.2)) = Except.error e := h
      cases hloop : batchLoop file version payloadEnd total limit (scanned + 1) next with
      | ok r => rw [hloop] at h; cases h
      | error e' =>
        obtain ⟨e'', he''⟩ := ih (lt_next hheader).2 hloop
        rw [restFrom_header hle hc hheader, he'']
        exact ⟨e'', rfl⟩

end

end Cursors

/-! ## §6. A batch of a file. -/

/-- A data segment with a payload, whose length is the one its header gives. -/
structure DataFile where
  bytes : Bytes
  header : SegmentHeader
  opens : readSegmentHeaderFromFile bytes .data = .ok header
  sized : bytes.length = segmentPayloadOffset header + header.payloadLen
  nonempty : 0 < header.payloadLen
  /-- A file's length is a 64-bit number. -/
  length_le : bytes.length ≤ u64Max

namespace DataFile

section

variable (f : DataFile) (total : Option Nat)

/-- The end of the payload, which is the end of the file. -/
def payloadEnd : Nat := segmentPayloadOffset f.header + f.header.payloadLen

/-- The whole scan of the file. -/
def scan : Except StorageError (List DataBlobMeta × Bool) :=
  scanDataIndex f.bytes f.header.version f.header.payloadLen

/-- Where its headers start. -/
def start : Except StorageError (Nat × Option Nat) :=
  scanStart f.bytes (segmentPayloadOffset f.header) f.header.payloadLen

/-- What is left of its scan from a cursor on. -/
def rest (scanned offset : Nat) : Except StorageError (List DataBlobMeta) :=
  restFrom f.bytes f.header.version f.payloadEnd total scanned offset

/-- The part of a batch behind its checks of the cursor. -/
def batchFrom (scanned limit offset : Nat) : Except StorageError SegmentBlobHeaderScan := do
  let (blobs, stop) ←
    batchLoop f.bytes f.header.version f.payloadEnd total limit scanned offset
  let complete := batchComplete f.payloadEnd total (scanned + blobs.length) stop
  if stop = offset ∧ complete = false ∧ 0 < limit then
    .error (.corrupt "data blob scan made no progress")
  else .ok ⟨f.header, blobs, stop, blobs.length, complete⟩

end

variable {f : DataFile} {first : Nat}

/-- The whole scan, from where the headers start. -/
theorem scan_from_start (f : DataFile) :
    f.scan = f.start >>= fun r => (f.rest r.2 0 r.1).map fun ms => (ms, r.2.isNone) := by
  show (readExactAt f.bytes (segmentPayloadOffset f.header) 4 >>= _) = _
  unfold start scanStart
  cases readExactAt f.bytes (segmentPayloadOffset f.header) 4 with
  | error e => rfl
  | ok tag =>
    show (if tag = dataLogPrefix then _ else _) = (if tag = dataLogPrefix then _ else _) >>= _
    by_cases hlog : tag = dataLogPrefix
    · rw [if_pos hlog, if_pos hlog]
      rfl
    · rw [if_neg hlog, if_neg hlog]
      show (legacyCount f.bytes (segmentPayloadOffset f.header) f.header.payloadLen >>= _) >>= _ = _
      cases legacyCount f.bytes (segmentPayloadOffset f.header) f.header.payloadLen with
      | error | ok => rfl

theorem start_le (h : f.start = .ok (first, total)) : first ≤ f.payloadEnd := by
  obtain ⟨tag, htag, h⟩ := except_bind_eq_ok.mp h
  by_cases hlog : tag = dataLogPrefix
  · rw [if_pos hlog] at h
    cases h
    unfold readExactAt at htag
    split at htag
    next hin =>
      have hlen : dataLogPrefix.length = 4 := rfl
      rw [f.sized] at hin
      unfold payloadEnd
      omega
    next => cases htag
  · rw [if_neg hlog] at h
    obtain ⟨count, hcount, h⟩ := except_bind_eq_ok.mp h
    grind [legacyCount, payloadEnd]

theorem scanSegmentBlobHeaders_start (f : DataFile) (startOffset : Option Nat)
    (scanned limit : Nat) :
    scanSegmentBlobHeaders f.bytes startOffset scanned limit = (do
      let (first, total) ← f.start
      let offset ← batchStart first f.payloadEnd startOffset scanned
      if total.any (fun count => decide (count < scanned)) then
        .error (.conflict "legacy scan cursor header count exceeds segment")
      else f.batchFrom total scanned limit offset) := by
  have hfits : ¬ segmentPayloadOffset f.header + f.header.payloadLen > u64Max := by
    have := f.length_le
    rw [f.sized] at this
    omega
  have hsized : ¬ f.bytes.length ≠ segmentPayloadOffset f.header + f.header.payloadLen :=
    fun hne => hne f.sized
  have hne : ¬ f.header.payloadLen = 0 := ne_of_gt f.nonempty
  unfold scanSegmentBlobHeaders
  rw [f.opens]
  show (if _ then _ else if _ then _ else if _ then _ else _) = _
  rw [if_neg hfits, if_neg hsized, if_neg hne]
  rfl

variable {startOffset : Option Nat} {result : Except StorageError (List SegmentBlobHeaderScan)}
  {rest : Except StorageError (List DataBlobMeta)}

theorem scanSegmentBlobHeaders_eq (h : f.start = .ok (first, total))
    (hcursor : batchStart first f.payloadEnd startOffset scanned = .ok offset)
    (hcount : ∀ count, total = some count → scanned ≤ count) :
    scanSegmentBlobHeaders f.bytes startOffset scanned limit =
      f.batchFrom total scanned limit offset := by
  have hin : ¬ total.any (fun count => decide (count < scanned)) = true := by
    cases total with
    | none => exact Bool.false_ne_true
    | some count =>
      grind
  rw [scanSegmentBlobHeaders_start, h]
  show (batchStart first f.payloadEnd startOffset scanned >>= _) = _
  rw [hcursor]
  show (if _ then _ else _) = _
  rw [if_neg hin]

/-- **One batch** takes its blobs off the front of what is left, says it is complete exactly if
nothing is left behind them, and otherwise has made progress. -/
theorem batchFrom_ok {s : SegmentBlobHeaderScan} (hle : offset ≤ f.payloadEnd)
    (hlimit : 0 < limit) (h : f.batchFrom total scanned limit offset = .ok s) :
    f.rest total scanned offset =
        (f.rest total (scanned + s.headersScanned) s.nextOffset).map (s.blobs ++ ·) ∧
      s.headersScanned = s.blobs.length ∧ s.nextOffset ≤ f.payloadEnd ∧
      (∀ count, total = some count → scanned ≤ count → scanned + s.headersScanned ≤ count) ∧
      (s.complete = true ↔ f.rest total (scanned + s.headersScanned) s.nextOffset = .ok []) ∧
      (s.complete = false → offset < s.nextOffset) := by
  obtain ⟨⟨bs, stop⟩, hloop, h⟩ := except_bind_eq_ok.mp h
  obtain ⟨hrest, hbound, hstop, hcount, -⟩ := batchLoop_ok hle hloop
  simp only at h
  split at h
  next => cases h
  next hprogress =>
    cases h
    refine ⟨hrest, rfl, hstop, hcount, ⟨fun hc => ?_, fun hc => ?_⟩, fun hc => ?_⟩
    · exact restFrom_complete hc
    · exact batchComplete_of_rest hstop hc
    grind

theorem batchFrom_error (hle : offset ≤ f.payloadEnd)
    (h : f.batchFrom total scanned limit offset = .error e) :
    ∃ e', f.rest total scanned offset = .error e' := by
  unfold batchFrom at h
  cases hloop : batchLoop f.bytes f.header.version f.payloadEnd total limit scanned offset with
  | error e' => exact batchLoop_error hle hloop
  | ok r =>
    obtain ⟨bs, stop⟩ := r
    rw [hloop] at h
    obtain ⟨hrest, hbound, hstop, -, hwhy⟩ := batchLoop_ok hle hloop
    have h : (if stop = offset ∧
        batchComplete f.payloadEnd total (scanned + bs.length) stop = false ∧ 0 < limit then
        Except.error (.corrupt "data blob scan made no progress")
      else .ok (⟨f.header, bs, stop, bs.length,
        batchComplete f.payloadEnd total (scanned + bs.length) stop⟩ : SegmentBlobHeaderScan)) =
        Except.error e := h
    split at h
    next hstuck =>
      obtain ⟨rfl, hc, hlimit⟩ := hstuck
      -- no header was taken, so that the loop stopped at the end of the file
      have hnil : bs.length = 0 := by omega
      rw [hnil] at hc hwhy
      have hend : f.payloadEnd ≤ stop := by grind
      have hnone : ∃ e, headerAt f.bytes f.header.version f.payloadEnd stop = .error e :=
        headerAt_end f.sized hend
      obtain ⟨e', hheader⟩ := hnone
      exact restFrom_no_header hle hc hheader
    next => cases h

end DataFile

/-! ## §7. Batch after batch. -/

/-- Batches until one fails or is complete: batch `n` takes up to `limits n` headers and resumes
at the offset the one before it returned.  What it is told about the headers before it is
`carry`, of what that one was told and of the number it returned. -/
inductive Batches (file : Bytes) (limits : Nat → Nat) (carry : Nat → Nat → Nat) :
    Nat → Option Nat → Nat → Except StorageError (List SegmentBlobHeaderScan) → Prop where
  | failed {n : Nat} {startOffset : Option Nat} {scanned : Nat} {e : StorageError}
      (h : scanSegmentBlobHeaders file startOffset scanned (limits n) = .error e) :
      Batches file limits carry n startOffset scanned (.error e)
  | complete {n : Nat} {startOffset : Option Nat} {scanned : Nat} {s : SegmentBlobHeaderScan}
      (h : scanSegmentBlobHeaders file startOffset scanned (limits n) = .ok s)
      (hc : s.complete = true) : Batches file limits carry n startOffset scanned (.ok [s])
  | more {n : Nat} {startOffset : Option Nat} {scanned : Nat} {s : SegmentBlobHeaderScan}
      {r : Except StorageError (List SegmentBlobHeaderScan)}
      (h : scanSegmentBlobHeaders file startOffset scanned (limits n) = .ok s)
      (hc : s.complete = false)
      (hrest : Batches file limits carry (n + 1) (some s.nextOffset)
        (carry scanned s.headersScanned) r) :
      Batches file limits carry n startOffset scanned (r.map (s :: ·))

variable {limits : Nat → Nat} {carry : Nat → Nat → Nat} {n : Nat} {startOffset : Option Nat}
  {s : SegmentBlobHeaderScan}
  {batches : List SegmentBlobHeaderScan} {blobs : List DataBlobMeta}

/-- There is one outcome at most. -/
theorem Batches.unique {r r' : Except StorageError (List SegmentBlobHeaderScan)}
    (h : Batches file limits carry n startOffset scanned r)
    (h' : Batches file limits carry n startOffset scanned r') : r' = r := by
  -- every constructor says what the first batch gave, so that both are of one kind
  induction h generalizing r' with
  | failed hscan =>
    cases h' with
    | failed hscan' =>
      rw [hscan] at hscan'
      cases hscan'
      rfl
    | complete hscan' | more hscan' =>
      rw [hscan] at hscan'
      cases hscan'
  | complete hscan hc =>
    cases h' with
    | failed hscan' =>
      rw [hscan] at hscan'
      cases hscan'
    | complete hscan' =>
      rw [hscan] at hscan'
      cases hscan'
      rfl
    | more hscan' hc' =>
      rw [hscan] at hscan'
      cases hscan'
      rw [hc] at hc'
      cases hc'
  | more hscan hc hrest ih =>
    cases h' with
    | failed hscan' =>
      rw [hscan] at hscan'
      cases hscan'
    | complete hscan' hc' =>
      rw [hscan] at hscan'
      cases hscan'
      rw [hc] at hc'
      cases hc'
    | more hscan' hc' hrest' =>
      grind

/-- Each batch says it is complete exactly if, with it, every blob has been returned. -/
def ReportsEnd (batches : List SegmentBlobHeaderScan) (blobs : List DataBlobMeta) : Prop :=
  ∀ before s after, batches = before ++ s :: after →
    (s.complete = true ↔ (before ++ [s]).flatMap (·.blobs) = blobs)

theorem ReportsEnd.single (hc : s.complete = true) : ReportsEnd [s] s.blobs := by
  intro before s' after h
  cases before with
  | nil =>
    cases h
    exact ⟨fun _ => by simp, fun _ => hc⟩
  | cons b bs =>
    have hlen := congrArg List.length h
    simp at hlen

theorem ReportsEnd.cons (hc : s.complete = false) (hne : blobs ≠ [])
    (h : ReportsEnd batches blobs) :
    ReportsEnd (s :: batches) (s.blobs ++ blobs) := by
  intro before s' after heq
  cases before with
  | nil =>
    simp_all
  | cons b bs =>
    obtain ⟨rfl, rfl⟩ := List.cons.inj heq
    rw [h bs s' after rfl, cons_append, flatMap_cons]
    exact ⟨fun hall => by rw [hall], fun hall => append_cancel_left hall⟩

/-- What batches come to, against a scan: both fail, or they return its blobs and report the end
where it is. -/
inductive ScansAs : Except StorageError (List SegmentBlobHeaderScan) →
    Except StorageError (List DataBlobMeta) → Prop where
  | error (e e' : StorageError) : ScansAs (.error e) (.error e')
  | ok {batches : List SegmentBlobHeaderScan} {blobs : List DataBlobMeta}
      (hblobs : batches.flatMap (·.blobs) = blobs) (hends : ReportsEnd batches blobs) :
      ScansAs (.ok batches) (.ok blobs)

theorem ScansAs.cons {result : Except StorageError (List SegmentBlobHeaderScan)}
    {rest : Except StorageError (List DataBlobMeta)} (hc : s.complete = false) (hne : rest ≠ .ok [])
    (h : ScansAs result rest) : ScansAs (result.map (s :: ·)) (rest.map (s.blobs ++ ·)) := by
  cases h with
  | error e e' => exact .error e e'
  | @ok batches blobs hblobs hends =>
    refine .ok ?_ (hends.cons hc fun hnil => hne (congrArg Except.ok hnil))
    rw [flatMap_cons, hblobs]

namespace DataFile

variable {f : DataFile} {first : Nat}

/-- **Batches from a cursor on** return what is left of the whole scan from there. -/
theorem batches_from (hstart : f.start = .ok (first, total)) (hlimits : ∀ n, 0 < limits n) (n : Nat)
    (hfirst : first ≤ offset)
    (hcursor : batchStart first f.payloadEnd startOffset scanned = .ok offset)
    (hle : offset ≤ f.payloadEnd) (hcount : ∀ count, total = some count → scanned ≤ count) :
    ∃ result, Batches f.bytes limits (· + ·) n startOffset scanned result ∧
      ScansAs result (f.rest total scanned offset) := by
  -- a batch that is not complete has moved towards the end of the file
  induction hm : f.payloadEnd - offset using Nat.strongRecOn generalizing startOffset scanned
    offset n with
  | ind m ih =>
    have hscan : scanSegmentBlobHeaders f.bytes startOffset scanned (limits n) =
        f.batchFrom total scanned (limits n) offset :=
      scanSegmentBlobHeaders_eq hstart hcursor hcount
    cases hbatch : f.batchFrom total scanned (limits n) offset with
    | error e =>
      obtain ⟨e', he'⟩ := batchFrom_error hle hbatch
      exact ⟨.error e, .failed (hscan.trans hbatch), he' ▸ .error e e'⟩
    | ok s =>
      obtain ⟨hrest, hheaders, hnext, hsum, hend, hmoved⟩ := batchFrom_ok hle (hlimits n) hbatch
      rw [hrest]
      cases hc : s.complete with
      | true =>
        refine ⟨.ok [s], .complete (hscan.trans hbatch) hc, ?_⟩
        rw [hend.mp hc]
        show ScansAs _ (.ok (s.blobs ++ []))
        rw [append_nil]
        exact .ok (flatMap_singleton _ _) (.single hc)
      | false =>
        have hlt := hmoved hc
        have hcursor' : batchStart first f.payloadEnd (some s.nextOffset)
            (scanned + s.headersScanned) = .ok s.nextOffset := by
          show (if s.nextOffset < first ∨ f.payloadEnd < s.nextOffset then _ else _) = _
          exact if_neg (by omega)
        obtain ⟨result, hrun, hout⟩ := ih (f.payloadEnd - s.nextOffset) (by omega) (n + 1)
          (by omega) hcursor' hnext (fun count htotal => hsum count htotal (hcount count htotal))
          rfl
        have hne : f.rest total (scanned + s.headersScanned) s.nextOffset ≠ .ok [] := by
          intro hnil
          rw [hend.mpr hnil] at hc
          cases hc
        exact ⟨result.map (s :: ·), .more (hscan.trans hbatch) hc hrun, hout.cons hc hne⟩

end DataFile

/-- **A scan in batches is the whole scan**: for every data segment with a payload and a length
that matches its header, whatever its bytes, and every sequence of positive limits, the
batches come to one outcome when each resumes at the offset the one before returned, with the
sum of the header counts returned so far.  They fail exactly if the whole scan fails;
otherwise they return its blobs, and report completion exactly at the last one. -/
theorem batches_scan_whole (f : DataFile) {limits : Nat → Nat} (hlimits : ∀ n, 0 < limits n) :
    ∃ result, (∀ r, Batches f.bytes limits (· + ·) 0 none 0 r ↔ r = result) ∧
      ((∃ e, result = .error e) ↔ ∃ e, f.scan = .error e) ∧
      ∀ batches, result = .ok batches → ∃ blobs isLog, f.scan = .ok (blobs, isLog) ∧
        batches.flatMap (·.blobs) = blobs ∧ ReportsEnd batches blobs := by
  have hscan := f.scan_from_start
  -- the checks of the file are made by the first batch and by the scan alike
  cases hstart : f.start with
  | error e =>
    have hrun : Batches f.bytes limits (· + ·) 0 none 0 (.error e) := by
      refine .failed ?_
      rw [DataFile.scanSegmentBlobHeaders_start, hstart]
      rfl
    rw [hstart] at hscan
    refine ⟨.error e, fun r => ⟨hrun.unique, fun h => h ▸ hrun⟩, ?_, fun _ h => by cases h⟩
    exact ⟨fun _ => ⟨e, hscan⟩, fun _ => ⟨e, rfl⟩⟩
  | ok r =>
    obtain ⟨first, total⟩ := r
    have hcursor : batchStart first f.payloadEnd none 0 = .ok first := rfl
    obtain ⟨result, hrun, hout⟩ := DataFile.batches_from hstart hlimits 0 (le_refl first)
      hcursor (DataFile.start_le hstart) (fun _ _ => Nat.zero_le _)
    have hscan : f.scan = (f.rest total 0 first).map fun ms => (ms, total.isNone) := by
      rw [hscan, hstart]
      rfl
    refine ⟨result, fun r => ⟨hrun.unique, fun h => h ▸ hrun⟩, ?_⟩
    generalize f.rest total 0 first = rest at hout hscan
    cases hout with
    | error e e' => exact ⟨⟨fun _ => ⟨e', hscan⟩, fun _ => ⟨e, rfl⟩⟩, fun _ h => by cases h⟩
    | @ok batches blobs hblobs hends =>
      refine ⟨⟨fun h => ?_, fun h => ?_⟩, fun batches' h => ?_⟩
      · obtain ⟨e, he⟩ := h
        cases he
      · obtain ⟨e, he⟩ := h
        rw [hscan] at he
        cases he
      · cases h
        exact ⟨blobs, total.isNone, hscan, hblobs, hends⟩

/-- The header of an empty blob. -/
def emptyBlob (blobId : Nat) : Bytes :=
  DataBlob.encode ⟨blobId, .none, 0, 0, 0, []⟩

/-- A legacy segment of version 1 with three empty blobs. -/
def threeBlobs : DataFile where
  bytes := SegmentHeader.encode ⟨storageLayoutMagic, 1, .data, 1, 3, 80, 0⟩ ++
    (leBytes 8 3 ++ (emptyBlob 1 ++ (emptyBlob 2 ++ emptyBlob 3)))
  header := ⟨storageLayoutMagic, 1, .data, 1, 3, 80, 0⟩
  opens := by decide +kernel
  sized := by decide +kernel
  nonempty := by decide
  length_le := by decide +kernel

/-- Two headers in the first batch, the last one in the second. -/
def twoThenOne : List SegmentBlobHeaderScan :=
  [⟨threeBlobs.header, [⟨1, .none, 0, 0, 0, 68, false⟩, ⟨2, .none, 0, 0, 0, 92, false⟩], 92, 2,
      false⟩,
    ⟨threeBlobs.header, [⟨3, .none, 0, 0, 0, 116, false⟩], 116, 1, true⟩]

/-- In batches of two headers it is these two, and they are the whole scan. -/
theorem batches_of_two :
    (∀ r, Batches threeBlobs.bytes (fun _ => 2) (· + ·) 0 none 0 r ↔ r = .ok twoThenOne) ∧
      ∃ isLog, threeBlobs.scan = .ok (twoThenOne.flatMap (·.blobs), isLog) ∧
        ReportsEnd twoThenOne (twoThenOne.flatMap (·.blobs)) := by
  have hrun : Batches threeBlobs.bytes (fun _ => 2) (· + ·) 0 none 0 (.ok twoThenOne) :=
    .more (r := .ok twoThenOne.tail) (s := twoThenOne.head (by decide)) (by decide +kernel) rfl
      (.complete (by decide +kernel) rfl)
  obtain ⟨result, hunique, -, hscan⟩ :=
    @batches_scan_whole threeBlobs (fun _ => 2) fun _ => by decide
  obtain rfl := (hunique _).mp hrun
  obtain ⟨blobs, isLog, hwhole, rfl, hends⟩ := hscan twoThenOne rfl
  exact ⟨hunique, isLog, hwhole, hends⟩

/-- **The header count that a batch returns is its own**: resumed with just that count, the third
batch of one header each is told of one header before it, not of two; it does not see that
it is the last, and the fourth fails. -/
theorem batches_resumed_with_own_count :
    (threeBlobs.scan.map fun r => r.1.map (·.blobId)) = .ok [1, 2, 3] ∧
      Batches threeBlobs.bytes (fun _ => 1) (fun _ own => own) 0 none 0
        (.error (.corrupt "data blob scan made no progress")) := by
  have hrun : ∀ {file} startOffset scanned id next,
      scanSegmentBlobHeaders file startOffset scanned 1 =
        .ok ⟨threeBlobs.header, [⟨id, .none, 0, 0, 0, next, false⟩], next, 1, false⟩ →
      ∀ n, Batches file (fun _ => 1) (fun _ own => own) (n + 1) (some next) 1
        (.error (.corrupt "data blob scan made no progress")) →
      Batches file (fun _ => 1) (fun _ own => own) n startOffset scanned
        (.error (.corrupt "data blob scan made no progress")) :=
    fun _ _ _ _ hscan _ hrest => .more (r := .error _) hscan rfl hrest
  refine ⟨by decide +kernel, ?_⟩
  refine hrun none 0 1 68 (by decide +kernel) 0 ?_
  refine hrun (some 68) 1 2 92 (by decide +kernel) 1 ?_
  refine hrun (some 92) 1 3 116 (by decide +kernel) 2 ?_
  exact .failed (by decide +kernel)

end Holo.Storage.Scan
