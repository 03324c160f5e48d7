/-
Holo.Lib.Text — text as lists of characters: blanks around it, capital letters and text in bytes.

Blanks are the characters with the Unicode property White_Space.

Main results:
* `trim_trim`: text is trimmed once;
* `textOf_bytesOf`: text read back from its UTF-8 bytes.
-/
import Holo.Lib.Bytes
import Mathlib.Data.List.DropRight

namespace Holo.Lib

open List

/-! ## §1. Blanks. -/

/-- White_Space. -/
def isWhiteSpace (c : Char) : Bool :=
  let n := c.toNat
  decide (9 ≤ n ∧ n ≤ 13 ∨ n = 0x20 ∨ n = 0x85 ∨ n = 0xA0 ∨ n = 0x1680 ∨
    0x2000 ≤ n ∧ n ≤ 0x200A ∨ n = 0x2028 ∨ n = 0x2029 ∨ n = 0x202F ∨ n = 0x205F ∨ n = 0x3000)

/-- The text without the blanks around it. -/
def trimChars (cs : List Char) : List Char :=
  (cs.dropWhile isWhiteSpace).rdropWhile isWhiteSpace

/-- The text without the blanks around it. -/
def trim (s : String) : String := String.ofList (trimChars s.toList)

/-- No blanks around the text. -/
def Trimmed (s : String) : Prop := trim s = s

instance (s : String) : Decidable (Trimmed s) := inferInstanceAs (Decidable (trim s = s))

/-- Trimming at the back leaves a front without blanks alone. -/
theorem dropWhile_rdropWhile {p : Char → Bool} {cs : List Char} (h : cs.dropWhile p = cs) :
    (cs.rdropWhile p).dropWhile p = cs.rdropWhile p := by
  rw [dropWhile_eq_self_iff] at h ⊢
  intro hlen
  have hpre := rdropWhile_prefix p cs
  have hcs : 0 < cs.length := hlen.trans_le hpre.length_le
  rw [IsPrefix.getElem hpre hlen]
  exact h hcs

theorem trimChars_trimChars (cs : List Char) : trimChars (trimChars cs) = trimChars cs := by
  unfold trimChars
  have hfront : (cs.dropWhile isWhiteSpace).dropWhile isWhiteSpace = cs.dropWhile isWhiteSpace :=
    dropWhile_idempotent isWhiteSpace cs
  rw [dropWhile_rdropWhile hfront, rdropWhile_idempotent]

/-- **Text is trimmed once.** -/
theorem trim_trim (s : String) : trim (trim s) = trim s := by
  simp only [trim, String.toList_ofList, trimChars_trimChars]

/-! ## §2. Capital letters. -/

/-- `strings.ToUpper`, as far as it gives letters of ASCII: the long s and the dotless i beside
the letters of ASCII. -/
def toUpper (c : Char) : Char :=
  if c.toNat = 0x17F then 'S' else if c.toNat = 0x131 then 'I'
  else if 97 ≤ c.toNat ∧ c.toNat ≤ 122 then Char.ofNat (c.toNat - 32) else c

/-! ## §3. Text in bytes. -/

/-- The UTF-8 bytes of a text. -/
def bytesOf (s : String) : Bytes := s.toByteArray.data.toList

/-- The text with these UTF-8 bytes. -/
def textOf (bs : Bytes) : Option String := String.fromUTF8? ⟨bs.toArray⟩

/-- **Text read back from its bytes.** -/
theorem textOf_bytesOf (s : String) : textOf (bytesOf s) = some s := by
  have hbytes : (⟨(bytesOf s).toArray⟩ : ByteArray) = s.toByteArray := by
    rw [bytesOf, Array.toArray_toList]
  rw [textOf, hbytes, String.fromUTF8?, dif_pos s.isValidUTF8]
  rfl

end Holo.Lib
