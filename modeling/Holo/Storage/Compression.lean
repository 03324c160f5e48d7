/-
Holo.Storage.Compression — the payload codecs.

LZ4 and zlib are library code: they enter as the functions of `Codecs`, with what their
documentation promises in `Codecs.Lawful`.  Run-length coding is the repository's own and
is modelled as it stands.

Main results:
* `rleDecode_rleEncode`: run-length decoding inverts run-length encoding;
* `rle_exact`: what it decodes, and that no encoding is shorter;
* `compressPayload_cases`: a codec is only used when it makes the payload shorter;
* `decodeStored_compressPayload`: what is stored decodes to what was written.
-/
import Holo.Storage.Metadata

namespace Holo.Storage

open Lib List

/-! ## §1. Codecs. -/

inductive CompressionCodec where
  | none | rle | lz4 | zlib
  deriving Repr, DecidableEq

/-- The stored byte of a codec. -/
def CompressionCodec.toByte : CompressionCodec → Nat
  | .none => 0
  | .rle => 1
  | .lz4 => 2
  | .zlib => 3

/-- `CompressionCodec::from_u8`. -/
def CompressionCodec.fromByte : Nat → Except StorageError CompressionCodec
  | 0 => .ok .none
  | 1 => .ok .rle
  | 2 => .ok .lz4
  | 3 => .ok .zlib
  | _ => .error (.corrupt "invalid compression codec")

/-- `MAX_DECOMPRESSED_PAYLOAD_LEN`: 16 MiB. -/
def maxDecompressedPayloadLen : Nat := 16 * 1024 * 1024

/-- The library codecs. -/
structure Codecs where
  /-- `lz4_flex::compress_prepend_size`. -/
  lz4Compress : Bytes → Bytes
  /-- `lz4_flex::decompress_size_prepended`. -/
  lz4Decompress : Bytes → Option Bytes
  /-- `ZlibEncoder` at its default level. -/
  zlibCompress : Bytes → Bytes
  /-- `ZlibDecoder` read through `take`: at most so many decoded bytes. -/
  zlibRead : Bytes → Nat → Option Bytes

/-- What the libraries document: decompression inverts compression, and the LZ4 frame starts
with the length of the payload in four little-endian bytes. -/
structure Codecs.Lawful (c : Codecs) : Prop where
  lz4_size : ∀ p : Bytes, p.length < 2 ^ 32 → leBytes 4 p.length <+: c.lz4Compress p
  lz4_inverse : ∀ p : Bytes, p.length < 2 ^ 32 → c.lz4Decompress (c.lz4Compress p) = some p
  zlib_inverse : ∀ (p : Bytes) (n : Nat), c.zlibRead (c.zlibCompress p) n = some (p.take n)

/-- Codecs that keep the payload as it is. -/
def Codecs.stored : Codecs where
  lz4Compress p := leBytes 4 p.length ++ p
  lz4Decompress b := some (b.drop 4)
  zlibCompress p := p
  zlibRead b n := some (b.take n)

theorem Codecs.stored_lawful : Codecs.stored.Lawful where
  lz4_size p _ := prefix_append _ p
  lz4_inverse p _ := by
    show some ((leBytes 4 p.length ++ p).drop 4) = some p
    rw [drop_left' (length_leBytes 4 p.length)]
  zlib_inverse _ _ := rfl

/-! ## §2. Run-length coding. -/

/-- The inner loop of `rle_encode`: a run of `run` bytes `b` so far. -/
def rleRun (b : UInt8) (run : Nat) : Bytes → Bytes
  | [] => [UInt8.ofNat run, b]
  | x :: xs =>
    if x = b ∧ run < 255 then rleRun b (run + 1) xs
    else UInt8.ofNat run :: b :: rleRun x 1 xs

def rleEncode : Bytes → Bytes
  | [] => []
  | x :: xs => rleRun x 1 xs

/-- The loop of `rle_decode`. -/
def rlePairs : Bytes → Except StorageError Bytes
  | [] => .ok []
  | [_] => .error (.corrupt "rle payload malformed")
  | run :: value :: rest =>
    if run = 0 then .error (.corrupt "rle run length cannot be zero")
    else match rlePairs rest with
      | .ok out => .ok (replicate run.toNat value ++ out)
      | .error e => .error e

def rleDecode (payload : Bytes) : Except StorageError Bytes :=
  if payload.length % 2 ≠ 0 then .error (.corrupt "rle payload malformed") else rlePairs payload

/-- A pair decodes to its run, and what follows it to the rest. -/
theorem rlePairs_pair {run : Nat} (hpos : 0 < run) (hle : run ≤ 255) (b : UInt8) {rest out : Bytes}
    (hrest : rlePairs rest = .ok out) :
    rlePairs (UInt8.ofNat run :: b :: rest) = .ok (replicate run b ++ out) := by
  have hval : (UInt8.ofNat run).toNat = run := by simp; omega
  have hne : UInt8.ofNat run ≠ 0 := by
    intro h
    rw [h] at hval
    exact hpos.ne hval
  rw [rlePairs, if_neg hne, hrest, hval]

/-- A run decodes to its bytes and what follows it. -/
theorem rlePairs_rleRun : ∀ (xs : Bytes) (b : UInt8) (run : Nat), 0 < run → run ≤ 255 →
    rlePairs (rleRun b run xs) = .ok (replicate run b ++ xs)
  | [], b, run, hpos, hle => rlePairs_pair hpos hle b rfl
  | x :: xs, b, run, hpos, hle => by
    rw [rleRun]
    split
    next hrun =>
      obtain ⟨rfl, hlt⟩ := hrun
      rw [rlePairs_rleRun xs x (run + 1) (by omega) (by omega), replicate_succ', append_assoc]
      rfl
    next => exact rlePairs_pair hpos hle b (rlePairs_rleRun xs x 1 (by omega) (by omega))

theorem length_rleRun_even : ∀ (xs : Bytes) (b : UInt8) (run : Nat),
    (rleRun b run xs).length % 2 = 0
  | [], b, run => by simp [rleRun]
  | x :: xs, b, run => by
    rw [rleRun]
    split
    next => exact length_rleRun_even xs b (run + 1)
    next =>
      have := length_rleRun_even xs x 1
      simp only [length_cons]
      omega

/-- **Run-length decoding inverts run-length encoding.** -/
theorem rleDecode_rleEncode (p : Bytes) : rleDecode (rleEncode p) = .ok p := by
  cases p with
  | nil => rfl
  | cons x xs =>
    rw [rleEncode, rleDecode, if_neg (by simp [length_rleRun_even]),
      rlePairs_rleRun xs x 1 (by decide) (by decide)]
    rfl

/-- How far a run has come costs at most one more pair, and nothing if it came less far. -/
theorem length_rleRun_le (b : UInt8) (xs : Bytes) : ∀ r r' : Nat, 0 < r' → r ≤ 255 → r' ≤ 255 →
    (rleRun b r xs).length ≤ (rleRun b r' xs).length + 2 ∧
      (r ≤ r' → (rleRun b r xs).length ≤ (rleRun b r' xs).length) := by
  induction xs with
  | nil =>
    intro r r' _ _ _
    simp [rleRun]
  | cons x xs ih =>
    intro r r' hpos hr hr'
    by_cases hx : x = b
    swap
    · -- both runs end here
      simp [rleRun, hx]
    subst hx
    simp only [rleRun, true_and]
    split <;> split
    next h h' =>
      obtain ⟨hmore, hless⟩ := ih (r + 1) (r' + 1) (by omega) (by omega) (by omega)
      exact ⟨hmore, fun hle => hless (by omega)⟩
    next h h' =>
      have hmore := (ih (r + 1) 1 (by omega) (by omega) (by omega)).1
      exact ⟨by simp only [length_cons]; omega, fun _ => hmore⟩
    next h h' =>
      have hless := (ih 1 (r' + 1) (by omega) (by omega) (by omega)).2 (by omega)
      exact ⟨by simp only [length_cons]; omega, fun hle => absurd hle (by omega)⟩
    next => simp

theorem rleRun_replicate (b : UInt8) (xs : Bytes) : ∀ k r : Nat, r + k ≤ 255 →
    rleRun b r (replicate k b ++ xs) = rleRun b (r + k) xs
  | 0, _, _ => rfl
  | k + 1, r, h => by
    rw [replicate_succ, cons_append, rleRun, if_pos ⟨rfl, by omega⟩,
      rleRun_replicate b xs k (r + 1) (by omega), Nat.add_right_comm, Nat.add_assoc]

/-- **A run in front costs at most one pair.** -/
theorem length_rleEncode_run {n : Nat} (hpos : 0 < n) (hle : n ≤ 255) (b : UInt8) (xs : Bytes) :
    (rleEncode (replicate n b ++ xs)).length ≤ (rleEncode xs).length + 2 := by
  obtain ⟨k, rfl⟩ := Nat.exists_eq_add_one.mpr hpos
  rw [replicate_succ, cons_append, rleEncode, rleRun_replicate b xs k 1 (by omega)]
  cases xs with
  | nil => simp [rleRun]
  | cons x xs =>
    rw [rleRun, rleEncode]
    split
    next h =>
      obtain ⟨rfl, hlt⟩ := h
      exact (length_rleRun_le x xs (1 + k + 1) 1 (by omega) (by omega) (by omega)).1
    next => simp

/-- The pairs decode exactly if they are whole and no count is zero. -/
theorem rlePairs_ok_iff : ∀ q : Bytes, (∃ out, rlePairs q = .ok out) ↔
    q.length % 2 = 0 ∧ ∀ i, q[2 * i]? ≠ some 0
  | [] => by simp [rlePairs]
  | [_] => by simp [rlePairs]
  | run :: value :: rest => by
    have hcounts : (∀ i, (run :: value :: rest)[2 * i]? ≠ some 0) ↔
        run ≠ 0 ∧ ∀ i, rest[2 * i]? ≠ some 0 := by
      constructor
      · intro h
        exact ⟨by simpa using h 0, fun i => by simpa [Nat.mul_succ] using h (i + 1)⟩
      · intro h i
        cases i with
        | zero => simpa using h.1
        | succ i => simpa [Nat.mul_succ] using h.2 i
    rw [hcounts, length_cons, length_cons, Nat.add_assoc, Nat.add_mod_right, rlePairs]
    by_cases hrun : run = 0
    · simp [hrun]
    rw [if_neg hrun, ← and_left_comm, ← rlePairs_ok_iff rest]
    cases rlePairs rest with
    | ok out => simp [hrun]
    | error e => simp

theorem length_rleEncode_le : ∀ {q out : Bytes}, rlePairs q = .ok out →
    (rleEncode out).length ≤ q.length
  | [], _, h => by
    cases h
    exact le_rfl
  | [_], _, h => by cases h
  | run :: value :: rest, _, h => by
    rw [rlePairs] at h
    split at h
    · cases h
    next hrun =>
      split at h
      next out hrest =>
        cases h
        have hpos : 0 < run.toNat := Nat.pos_of_ne_zero fun hz => hrun (UInt8.toNat_inj.mp hz)
        have hle : run.toNat ≤ 255 := Nat.le_of_lt_succ run.toNat_lt
        exact (length_rleEncode_run hpos hle value out).trans
          (Nat.add_le_add_right (length_rleEncode_le hrest) 2)
      next => cases h

/-- **Run-length coding**: decoding inverts encoding, it fails exactly on half a pair or a count of
zero, and no encoding of a payload is shorter than the one `rle_encode` gives. -/
theorem rle_exact (p q : Bytes) : rleDecode (rleEncode p) = .ok p ∧
    ((∃ out, rleDecode q = .ok out) ↔ q.length % 2 = 0 ∧ ∀ i, q[2 * i]? ≠ some 0) ∧
      ∀ out, rleDecode q = .ok out → (rleEncode out).length ≤ q.length := by
  refine ⟨rleDecode_rleEncode p, ?_, ?_⟩
  all_goals
    unfold rleDecode
    by_cases hodd : q.length % 2 ≠ 0
  · simp [hodd]
  · rw [if_neg hodd]
    exact rlePairs_ok_iff q
  · simp [hodd]
  · rw [if_neg hodd]
    exact fun out => length_rleEncode_le

/-! ## §3. Compressing and decompressing a payload. -/

section

variable (c : Codecs) (codec : CompressionCodec) (payload : Bytes)

/-- The encoded form of each codec. -/
def Codecs.encode : CompressionCodec → Bytes → Bytes
  | .none, p => p
  | .rle, p => rleEncode p
  | .lz4, p => c.lz4Compress p
  | .zlib, p => c.zlibCompress p

/-- `compress_payload` (and `prepare_payload_for_write`): the codec used and the stored bytes.
A result that is not shorter than the payload is dropped. -/
def compressPayload : CompressionCodec × Bytes :=
  match codec with
  | .none => (.none, payload)
  | codec =>
    let encoded := c.encode codec payload
    if encoded.length ≥ payload.length then (.none, payload) else (codec, encoded)

def lz4PrependedLen : Except StorageError Nat :=
  if payload.length < 4 then .error (.corrupt "lz4 payload missing size header")
  else if fieldAt payload 0 4 > maxDecompressedPayloadLen then
    .error (.corrupt "decompressed payload length exceeds maximum")
  else .ok (fieldAt payload 0 4)

/-- The common length check of the decoders. -/
def expectLength (expectedLen : Nat) (decoded : Bytes) : Except StorageError Bytes :=
  if decoded.length ≠ expectedLen then .error (.corrupt "decoded payload length mismatch")
  else .ok decoded

def decompressPayload (expectedLen : Nat) : Except StorageError Bytes :=
  if expectedLen > maxDecompressedPayloadLen then
    .error (.corrupt "decompressed payload length exceeds maximum")
  else match codec with
    | .none =>
      if payload.length ≠ expectedLen then .error (.corrupt "raw payload length mismatch")
      else .ok payload
    | .rle => match rleDecode payload with
      | .error e => .error e
      | .ok decoded => expectLength expectedLen decoded
    | .lz4 => match lz4PrependedLen payload with
      | .error e => .error e
      | .ok declared =>
        if declared ≠ expectedLen then .error (.corrupt "decoded payload length mismatch")
        else match c.lz4Decompress payload with
          | none => .error (.corrupt "lz4 decompress")
          | some decoded => expectLength expectedLen decoded
    | .zlib => match c.zlibRead payload (expectedLen + 1) with
      | none => .error .io
      | some decoded => expectLength expectedLen decoded

end

/-- Either the payload is stored raw, or the preferred codec made it shorter. -/
theorem compressPayload_cases (c : Codecs) (codec : CompressionCodec) (p : Bytes) :
    compressPayload c codec p = (.none, p) ∨
      (codec ≠ .none ∧ compressPayload c codec p = (codec, c.encode codec p) ∧
        (c.encode codec p).length < p.length) := by
  cases codec with
  | none => exact .inl rfl
  | rle =>
    by_cases h : (c.encode .rle p).length ≥ p.length
    · exact .inl (if_pos h)
    · exact .inr ⟨by decide, if_neg h, by omega⟩
  | lz4 =>
    by_cases h : (c.encode .lz4 p).length ≥ p.length
    · exact .inl (if_pos h)
    · exact .inr ⟨by decide, if_neg h, by omega⟩
  | zlib =>
    by_cases h : (c.encode .zlib p).length ≥ p.length
    · exact .inl (if_pos h)
    · exact .inr ⟨by decide, if_neg h, by omega⟩

/-- Decompression inverts each codec on payloads within the decode limit. -/
theorem decompress_encode {c : Codecs} (hc : c.Lawful) (codec : CompressionCodec) (p : Bytes)
    (hlen : p.length ≤ maxDecompressedPayloadLen) :
    decompressPayload c codec (c.encode codec p) p.length = .ok p := by
  have hsmall : p.length < 2 ^ 32 := lt_of_le_of_lt hlen (by decide)
  have hexpect : expectLength p.length p = .ok p := if_neg (by simp)
  unfold decompressPayload
  rw [if_neg (by omega)]
  cases codec with
  | none => simp [Codecs.encode]
  | rle =>
    simp only [Codecs.encode, rleDecode_rleEncode]
    exact hexpect
  | lz4 =>
    obtain ⟨rest, hrest⟩ := hc.lz4_size p hsmall
    have hfield : fieldAt (c.lz4Compress p) 0 4 = p.length := by
      rw [← hrest]
      exact fieldAt_leBytes_head hsmall rest
    have hfour : ¬ (c.lz4Compress p).length < 4 := by rw [← hrest]; simp
    have hdeclared : lz4PrependedLen (c.lz4Compress p) = .ok p.length := by
      rw [lz4PrependedLen, if_neg hfour, hfield, if_neg (by omega)]
    simp only [Codecs.encode, hdeclared, hc.lz4_inverse p hsmall]
    simpa using hexpect
  | zlib =>
    simp only [Codecs.encode, hc.zlib_inverse, take_of_length_le (Nat.le_succ p.length)]
    exact hexpect

/-- A stored payload as the reader decodes it: raw bytes are only compared in length. -/
def decodeStored (c : Codecs) (codec : CompressionCodec) (bytes : Bytes) (logicalLen : Nat) :
    Except StorageError Bytes :=
  if codec = .none then
    if bytes.length ≠ logicalLen then .error (.corrupt "raw payload length mismatch")
    else .ok bytes
  else decompressPayload c codec bytes logicalLen

/-- **What is stored decodes to what was written**, raw payloads at any length and compressed
ones within the decode limit. -/
theorem decodeStored_compressPayload {c : Codecs} (hc : c.Lawful) (codec : CompressionCodec)
    (p : Bytes) (hlen : codec = .none ∨ p.length ≤ maxDecompressedPayloadLen) :
    decodeStored c (compressPayload c codec p).1 (compressPayload c codec p).2 p.length =
      .ok p := by
  grind [compressPayload_cases, decodeStored, decompress_encode]

end Holo.Storage
