/-
Holo.Control.Lease — the lock file that keeps two programs from one cartridge.

Both programs name the file by a digest of the device and the inode of the pool's root and of
the sanitised cartridge id.  The control plane trims the id first, the data plane does not.

Main result: `lease_keys_agree_iff` — the names agree exactly for ids without a blank at the end.
-/
import Holo.Control.Labels
import Mathlib.Data.List.Infix

namespace Holo.Control

open Lib List

/-! ## §1. The two keys. -/

def toAsciiLowercase (ch : Char) : Char :=
  if 65 ≤ ch.toNat ∧ ch.toNat ≤ 90 then Char.ofNat (ch.toNat + 32) else ch

/-- `sanitize_id` of the data plane. -/
def sanitizeId (raw : List Char) : List Char :=
  let out := raw.map fun ch =>
    if ch.isAlphanum || ch = '-' || ch = '_' then toAsciiLowercase ch else '_'
  if out = [] then "unknown".toList else out

def isLeaseIdByte (value : Char) (first : Bool) : Bool :=
  value.isAlphanum || !first && decide (value ∈ "._: -".toList)

/-- `validateLeaseID` of the control plane. -/
def validateLeaseId (value : List Char) : Bool :=
  decide (value ≠ [] ∧ value.length ≤ 128 ∧ ¬ "..".toList <:+: value) &&
    value.head?.any (isLeaseIdByte · true) && value.tail.all (isLeaseIdByte · false)

/-- The check of the data plane. -/
def validManagementId (value : List Char) : Bool :=
  decide (value ≠ [] ∧ value.length ≤ 128) && value.head?.any Char.isAlphanum &&
    !decide ("..".toList <:+: value) &&
    value.all fun byte => byte.isAlphanum || decide (byte ∈ "._: -".toList)

/-- The zero byte. -/
def nul : Char := Char.ofNat 0

def leaseTag : List Char := "holo-layout-v2".toList

/-- What the data plane hashes. -/
def leasePayload (device inode : Nat) (name : List Char) : List Char :=
  leaseTag ++ [nul] ++ Nat.toDigits 10 device ++ [nul] ++ Nat.toDigits 10 inode ++
    [nul] ++ name

variable {Key : Type} {digest : List Char → Key}

section

variable (digest : List Char → Key) (device inode : Nat) (cartridgeId : List Char)

/-- `layout_lease_key` of the data plane, under the SHA-256 digest in hexadecimal digits. -/
def layoutLeaseKey : Key :=
  digest (leasePayload device inode (sanitizeId cartridgeId))

/-- `LayoutLeaseKey` of the control plane. -/
def goLayoutLeaseKey : Key :=
  digest ([nul].intercalate [leaseTag, Nat.toDigits 10 device, Nat.toDigits 10 inode,
    sanitizeLayoutId cartridgeId])

end

/-! ## §2. What is hashed. -/

theorem goLayoutLeaseKey_eq (device inode : Nat) (id : List Char) :
    goLayoutLeaseKey digest device inode id =
      digest (leasePayload device inode (sanitizeLayoutId id)) := by
  simp [goLayoutLeaseKey, leasePayload, intercalate]

variable {device inode device' inode' : Nat} {a b : List Char}

/-- A number ends where the zero byte is. -/
theorem digits_inj {m n : Nat} (h : Nat.toDigits 10 m ++ nul :: a = Nat.toDigits 10 n ++ nul :: b) :
    m = n ∧ a = b := by
  have htake : ∀ (k : Nat) (l : List Char),
      (Nat.toDigits 10 k ++ nul :: l).takeWhile Char.isDigit = Nat.toDigits 10 k := by
    intro k l
    have hdigits : ∀ c ∈ Nat.toDigits 10 k, c.isDigit = true := fun c hc =>
      Nat.isDigit_of_mem_toDigits (by decide) (by decide) hc
    rw [takeWhile_append_of_pos hdigits, takeWhile_cons_of_neg (by decide), append_nil]
  have hdigits := congrArg (takeWhile Char.isDigit) h
  rw [htake, htake] at hdigits
  have hnum : m = n := by simpa using congrArg (Nat.ofDigitChars 10 · 0) hdigits
  rw [hdigits] at h
  exact ⟨hnum, (cons.inj (append_cancel_left h)).2⟩

theorem leasePayload_inj (h : leasePayload device inode a = leasePayload device' inode' b) :
    device = device' ∧ inode = inode' ∧ a = b := by
  unfold leasePayload at h
  simp only [append_assoc, singleton_append] at h
  obtain ⟨hdevice, h⟩ := digits_inj (cons.inj (append_cancel_left h)).2
  exact ⟨hdevice, digits_inj h⟩

/-! ## §3. The sanitised ids. -/

theorem isAlphanum_iff {c : Char} : c.isAlphanum = true ↔ 65 ≤ c.toNat ∧ c.toNat ≤ 90 ∨
    97 ≤ c.toNat ∧ c.toNat ≤ 122 ∨ 48 ≤ c.toNat ∧ c.toNat ≤ 57 := by
  show (decide (65 ≤ c.val ∧ c.val ≤ 90) || decide (97 ≤ c.val) && decide (c.val ≤ 122) ||
    decide (48 ≤ c.val) && decide (c.val ≤ 57)) = true ↔ _
  simp [UInt32.le_iff_toNat_le, or_assoc]

theorem sanitizeId_eq (h : a ≠ []) : sanitizeId a = a.map sanitizeChar := by
  have hchar :
      (fun ch => if ch.isAlphanum || ch = '-' || ch = '_' then toAsciiLowercase ch else '_') =
      sanitizeChar := by
    funext ch
    simp only [Bool.or_eq_true, isAlphanum_iff, decide_eq_true_eq, toAsciiLowercase, sanitizeChar]
    split_ifs <;> first | rfl | omega | tauto
  unfold sanitizeId
  rw [hchar]
  exact if_neg (map_eq_nil_iff.not.mpr h)

/-- **The ids agree** unless there is a blank at the end. -/
theorem sanitize_agrees_iff (h : validManagementId a = true) :
    sanitizeLayoutId a = sanitizeId a ↔ a.getLast? ≠ some ' ' := by
  simp only [validManagementId, Bool.and_eq_true, decide_eq_true_eq, all_eq_true,
    Bool.or_eq_true] at h
  obtain ⟨⟨⟨⟨hne, -⟩, hhead⟩, -⟩, hchars⟩ := h
  have hletter : ∀ {c : Char}, c.isAlphanum = true → isWhiteSpace c = false := by
    intro c hc
    have hrange := isAlphanum_iff.mp hc
    exact decide_eq_false (by omega)
  have hmark : ∀ c ∈ "._: -".toList, c ≠ ' ' → isWhiteSpace c = false := by
    simp [isWhiteSpace]
  rw [sanitizeId_eq hne, sanitizeLayoutId]
  -- only one of the two trims: they differ by a blank at the end
  constructor
  · intro heq hlast
    split at heq
    · have hends := congrArg getLast? heq
      rw [getLast?_map, hlast] at hends
      exact absurd hends (by decide)
    · have hsub : (trimChars a).Sublist a :=
        ( rdropWhile_prefix _ _).sublist.trans (dropWhile_sublist _)
      have htrim := hsub.eq_of_length (by simpa using congrArg length heq)
      exact absurd (getLast_of_trimmed htrim hlast) (by decide)
  · intro hlast
    have htrim : trimChars a = a := by
      refine trimChars_eq_self (fun c hc => ?_) fun c hc => ?_
      · rw [hc] at hhead
        exact hletter hhead
      · rcases hchars c (mem_of_getLast? hc) with hc' | hc'
        · exact hletter hc'
        · exact hmark c hc' fun heq => hlast (heq ▸ hc)
    rw [htrim, if_neg hne]

/-- **The keys of the two programs** are one, and different for different roots or names, exactly if
no id ends with a blank. -/
theorem lease_keys_agree_iff (hinj : Function.Injective digest)
    (ha : validateLeaseId a = true ∧ validManagementId a = true)
    (hb : validateLeaseId b = true ∧ validManagementId b = true)
    (device inode device' inode' : Nat) :
    (goLayoutLeaseKey digest device inode a = layoutLeaseKey digest device inode a ∧
      goLayoutLeaseKey digest device' inode' b = layoutLeaseKey digest device' inode' b ∧
      ∀ k ∈ [goLayoutLeaseKey digest device inode a, layoutLeaseKey digest device inode a],
        ∀ k' ∈ [goLayoutLeaseKey digest device' inode' b, layoutLeaseKey digest device' inode' b],
          k = k' → device = device' ∧ inode = inode' ∧ sanitizeId a = sanitizeId b) ↔
      a.getLast? ≠ some ' ' ∧ b.getLast? ≠ some ' ' := by
  -- the digest is injective, so that keys agree where the names do
  have hkey : ∀ {id : List Char}, validManagementId id = true → ∀ d i,
      goLayoutLeaseKey digest d i id = layoutLeaseKey digest d i id ↔ id.getLast? ≠ some ' ' := by
    intro id hid d i
    rw [← sanitize_agrees_iff hid, goLayoutLeaseKey_eq, layoutLeaseKey, hinj.eq_iff]
    constructor
    · intro heq
      exact (leasePayload_inj heq).2.2
    · exact congrArg _
  rw [← hkey ha.2 device inode, ← hkey hb.2 device' inode']
  constructor
  · rintro ⟨hka, hkb, -⟩
    exact ⟨hka, hkb⟩
  rintro ⟨hka, hkb⟩
  refine ⟨hka, hkb, ?_⟩
  rw [hka, hkb]
  intro k hk k' hk' heq
  simp only [mem_cons, not_mem_nil, or_false, or_self] at hk hk'
  rw [hk, hk'] at heq
  exact leasePayload_inj (hinj heq)

/-- What is hashed in `layout_lease_key_matches_go_sha256_golden_vector`. -/
def goldenPayload : List Char := leasePayload 2049 123456 "vtl000001".toList

def goldenKey : List Char :=
  "80740740baf2b7e51e0efa9d98382f76ecaa360969bdcff495e76784eec2b78c".toList

/-- A digest without collisions that has the value of the test: the payload itself behind a mark
that no hexadecimal text starts with, but for the payload of the test. -/
def goldenDigest (payload : List Char) : List Char :=
  if payload = goldenPayload then goldenKey else 'x' :: payload

theorem goldenDigest_injective : Function.Injective goldenDigest := by
  have hmark : ∀ p, goldenKey ≠ 'x' :: p := by
    intro p h
    have hhead : goldenKey.head? = some 'x' := congrArg List.head? h
    exact absurd hhead (by decide)
  intro p q h
  unfold goldenDigest at h
  by_cases hp : p = goldenPayload
  · by_cases hq : q = goldenPayload
    · rw [hp, hq]
    · rw [if_pos hp, if_neg hq] at h
      exact absurd h (hmark q)
  · by_cases hq : q = goldenPayload
    · rw [if_neg hp, if_pos hq] at h
      exact absurd h.symm (hmark p)
    · rw [if_neg hp, if_neg hq] at h
      exact (cons.inj h).2

/-- Two cartridges of one pool: each has one key, that of the test for the first, and the two
keys differ. -/
theorem lease_keys_agree_tapes :
    layoutLeaseKey goldenDigest 2049 123456 "VTL000001".toList = goldenKey ∧
      goLayoutLeaseKey goldenDigest 2049 123456 "VTL000001".toList = goldenKey ∧
      goLayoutLeaseKey goldenDigest 2049 123456 "VTL000002".toList =
        layoutLeaseKey goldenDigest 2049 123456 "VTL000002".toList ∧
      goLayoutLeaseKey goldenDigest 2049 123456 "VTL000002".toList ≠ goldenKey := by
  have hfirst : validateLeaseId "VTL000001".toList = true ∧
      validManagementId "VTL000001".toList = true := by decide
  have hsecond : validateLeaseId "VTL000002".toList = true ∧
      validManagementId "VTL000002".toList = true := by decide
  have hgolden : layoutLeaseKey goldenDigest 2049 123456 "VTL000001".toList = goldenKey := by
    decide +kernel
  obtain ⟨hone, htwo, hapart⟩ := (lease_keys_agree_iff goldenDigest_injective hfirst hsecond
    2049 123456 2049 123456).mpr ⟨by decide, by decide⟩
  refine ⟨hgolden, hone.trans hgolden, htwo, fun heq => ?_⟩
  have hsame := (hapart _ (by simp) _ (by simp) (hgolden.trans heq.symm)).2.2
  exact absurd hsame (by decide)

/-- **A blank at the end**: both programs take the id, and each locks a file of its own. -/
theorem lease_key_blank :
    validateLeaseId "A ".toList = true ∧ validManagementId "A ".toList = true ∧
      goLayoutLeaseKey id 1 2 "A ".toList ≠ layoutLeaseKey id 1 2 "A ".toList := by
  decide +kernel

end Holo.Control
