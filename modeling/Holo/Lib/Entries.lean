/-
Holo.Lib.Entries — text files of `key=value` lines.

A file is read line by line; a line without the sign is skipped, and the blanks around a key
and a value do not count.

Main results:
* `entries_writeEntries`: what is written entry by entry is read back;
* `parseDigits_digitsOf`: so is a number.
-/
import Holo.Lib.Text
import Mathlib.Data.Nat.Digits.Defs

namespace Holo.Lib

open List

/-! ## §1. Reading. -/

/-- The lines of a text. -/
def lines (cs : List Char) : List (List Char) := cs.splitOn '\n'

/-- The text in front of the first separator, and behind it. -/
def splitOnce (sep : Char) : List Char → Option (List Char × List Char)
  | [] => none
  | c :: cs =>
    if c = sep then some ([], cs) else (splitOnce sep cs).map fun p => (c :: p.1, p.2)

/-- The key and the value of a line. -/
def entryOf (line : List Char) : Option (List Char × List Char) :=
  (splitOnce '=' (trimChars line)).map fun p => (trimChars p.1, trimChars p.2)

/-- The keys and values of a file. -/
def entries (cs : List Char) : List (List Char × List Char) := (lines cs).filterMap entryOf

/-! ## §2. Writing. -/

/-- Text without a line break. -/
def Line : Type := { cs : List Char // '\n' ∉ cs }

instance : DecidableEq Line := inferInstanceAs (DecidableEq { cs : List Char // '\n' ∉ cs })

/-- A line without the blanks around it. -/
def Line.trim (l : Line) : Line :=
  ⟨trimChars l.1, fun h => l.2 ((dropWhile_suffix _).subset
    (( rdropWhile_prefix _ _).subset h))⟩

/-- A key and a value on a line. -/
def lineOf (e : List Char × Line) : List Char := e.1 ++ '=' :: e.2.1

/-- A file, entry by entry. -/
def writeEntries : List (List Char × Line) → List Char
  | [] => []
  | e :: es => lineOf e ++ '\n' :: writeEntries es

/-! ## §3. What is written is read back. -/

/-- A key as programs write it: not empty, and without blanks and the sign. -/
def PlainKey (key : List Char) : Prop :=
  key ≠ [] ∧ ∀ c ∈ key, isWhiteSpace c = false ∧ c ≠ '='

variable {key cs : List Char} {c : Char}

theorem PlainKey.of_all (hne : key.isEmpty = false)
    (h : (key.all fun c => !isWhiteSpace c && c != '=') = true) : PlainKey key := by
  refine ⟨isEmpty_eq_false_iff.mp hne, ?_⟩
  grind

theorem splitOnce_append {sep : Char} (h : ∀ c ∈ key, c ≠ sep) (value : List Char) :
    splitOnce sep (key ++ sep :: value) = some (key, value) := by
  induction key with
  | nil =>
    show splitOnce sep (sep :: value) = _
    rw [splitOnce, if_pos rfl]
  | cons c key ih =>
    grind [splitOnce]

/-- Text that starts and ends without a blank is not changed. -/
theorem trimChars_eq_self (hfront : ∀ c, cs.head? = some c → isWhiteSpace c = false)
    (hback : ∀ c, cs.getLast? = some c → isWhiteSpace c = false) : trimChars cs = cs := by
  have hdrop : cs.dropWhile isWhiteSpace = cs := by
    cases cs with
    | nil => rfl
    | cons c cs => rw [dropWhile_cons_of_neg (by simp [hfront c rfl])]
  grind [rdropWhile_eq_self_iff, trimChars]

theorem getLast_of_trimmed (h : trimChars cs = cs) (hc : cs.getLast? = some c) :
    isWhiteSpace c = false := by
  have hrdrop : cs.rdropWhile isWhiteSpace = cs := by
    rw [← h, trimChars, rdropWhile_idempotent]
  rw [rdropWhile_eq_self_iff] at hrdrop
  have hne : cs ≠ [] := by
    rintro rfl
    cases hc
  grind

theorem trimChars_plain (h : PlainKey key) : trimChars key = key :=
  trimChars_eq_self (fun c hc => (h.2 c (mem_of_head? hc)).1)
    fun c hc => (h.2 c (mem_of_getLast? hc)).1

/-- A line with a plain key and a trimmed value is trimmed. -/
theorem trimChars_lineOf {key value : List Char} (h : PlainKey key)
    (hvalue : trimChars value = value) : trimChars (key ++ '=' :: value) = key ++ '=' :: value := by
  refine trimChars_eq_self ?_ ?_
  · intro c hc
    rw [head?_append_of_ne_nil _ h.1] at hc
    exact (h.2 c (mem_of_head? hc)).1
  intro c hc
  cases value with
  | nil =>
    rw [getLast?_append, getLast?_singleton] at hc
    cases hc
    decide
  | cons d value =>
    rw [getLast?_append, getLast?_cons_cons] at hc
    refine getLast_of_trimmed hvalue ?_
    exact hc

variable {e : List Char × Line} {d : Nat}

theorem entryOf_lineOf (h : PlainKey e.1) (hvalue : e.2.trim = e.2) :
    entryOf (lineOf e) = some (e.1, e.2.1) := by
  have hval : trimChars e.2.1 = e.2.1 := congrArg Subtype.val hvalue
  unfold entryOf lineOf
  rw [trimChars_lineOf h hval, splitOnce_append fun c hc => (h.2 c hc).2]
  show some (trimChars e.1, trimChars e.2.1) = _
  rw [trimChars_plain h, hval]

theorem lines_append {line : List Char} (h : '\n' ∉ line) (cs : List Char) :
    lines (line ++ '\n' :: cs) = line :: lines cs := by
  grind [lines, splitOn_eq_splitOnP, splitOnP_append_cons_of_forall_mem]

theorem lineOf_no_break (h : PlainKey e.1) : '\n' ∉ lineOf e := by
  unfold lineOf
  rw [mem_append, mem_cons]
  rintro (hkey | hsign | hvalue)
  · have hblank := (h.2 _ hkey).1
    revert hblank
    decide
  · revert hsign
    decide
  · exact e.2.2 hvalue

/-- **A file that was written entry by entry** is read back. -/
theorem entries_writeEntries : ∀ {es : List (List Char × Line)},
    (∀ e ∈ es, PlainKey e.1 ∧ e.2.trim = e.2) →
      entries (writeEntries es) = es.map fun e => (e.1, e.2.1)
  | [], _ => rfl
  | e :: es, h => by
    obtain ⟨hkey, hvalue⟩ := h e mem_cons_self
    have htail := entries_writeEntries fun e' he' => h e' (mem_cons_of_mem e he')
    have hline : lines (writeEntries (e :: es)) = lineOf e :: lines (writeEntries es) :=
      lines_append (lineOf_no_break hkey) _
    unfold entries at htail ⊢
    rw [hline, filterMap_cons_some (entryOf_lineOf hkey hvalue), htail, map_cons]

/-! ## §4. Numbers. -/

/-- A decimal digit. -/
def digitChar (d : Nat) : Char := Char.ofNat (48 + d)

theorem digitChar_not_blank (h : d < 10) : isWhiteSpace (digitChar d) = false := by
  revert d
  decide

/-- The digits of a number. -/
def digitsOf (n : Nat) : List Char :=
  if n = 0 then ['0'] else ((Nat.digits 10 n).map digitChar).reverse

variable {n : Nat}

theorem digitsOf_not_blank (h : c ∈ digitsOf n) : isWhiteSpace c = false := by
  unfold digitsOf at h
  split at h
  · rw [mem_singleton.mp h]
    decide
  · rw [mem_reverse] at h
    obtain ⟨d, hd, rfl⟩ := mem_map.mp h
    exact digitChar_not_blank (Nat.digits_lt_base (by omega) hd)

/-- Text without blanks. -/
def lineOfPlain (cs : List Char) (h : ∀ c ∈ cs, isWhiteSpace c = false) : Line :=
  ⟨cs, fun hmem => absurd (h _ hmem) (by decide)⟩

theorem trim_lineOfPlain (h : ∀ c ∈ cs, isWhiteSpace c = false) :
    (lineOfPlain cs h).trim = lineOfPlain cs h :=
  Subtype.ext (trimChars_eq_self (fun c hc => h c (mem_of_head? hc))
    fun c hc => h c (mem_of_getLast? hc))

/-- A number in decimal. -/
def decimal (n : Nat) : Line := lineOfPlain (digitsOf n) fun _ => digitsOf_not_blank

theorem signedDigits_not_blank (h : c ∈ '-' :: digitsOf n) : isWhiteSpace c = false := by
  rcases mem_cons.mp h with rfl | h
  · decide
  · exact digitsOf_not_blank h

/-- A signed number in decimal. -/
def signedDecimal : Int → Line
  | .ofNat n => decimal n
  | .negSucc n => lineOfPlain ('-' :: digitsOf (n + 1)) fun _ => signedDigits_not_blank

theorem trim_decimal (n : Nat) : (decimal n).trim = decimal n := trim_lineOfPlain _

theorem trim_signedDecimal (n : Int) : (signedDecimal n).trim = signedDecimal n := by
  cases n with
  | ofNat n => exact trim_decimal n
  | negSucc n => exact trim_lineOfPlain fun _ => signedDigits_not_blank

theorem Line.trim_trim (l : Line) : l.trim.trim = l.trim := Subtype.ext (trimChars_trimChars l.1)

/-- The number of a decimal without a sign. -/
def parseDigits (cs : List Char) : Option Nat :=
  if cs = [] ∨ cs.any (fun c => !c.isDigit) = true then none
  else some (cs.foldl (fun n c => n * 10 + (c.toNat - 48)) 0)

/-! ## §5. Reading a number back. -/

/-- The number the digits stand for. -/
def valueOf (cs : List Char) : Nat := cs.foldl (fun n c => n * 10 + (c.toNat - 48)) 0

theorem digitChar_toNat (h : d < 10) : (digitChar d).toNat - 48 = d := by
  have hall : ∀ d < 10, (digitChar d).toNat - 48 = d := by decide
  exact hall d h

/-- **The digits of a number stand for it.** -/
theorem valueOf_digitsOf (n : Nat) : valueOf (digitsOf n) = n := by
  unfold digitsOf valueOf
  split
  · next hzero =>
    rw [hzero]
    rfl
  rw [foldl_reverse, foldr_map]
  have hfold : ∀ ds : List Nat, (∀ d ∈ ds, d < 10) →
      ds.foldr (fun d n => n * 10 + ((digitChar d).toNat - 48)) 0 = Nat.ofDigits 10 ds := by
    intro ds
    induction ds with
    | nil =>
      intro _
      rfl
    | cons d ds ih =>
      grind [Nat.ofDigits_cons, digitChar_toNat]
  rw [hfold _ fun d hd => Nat.digits_lt_base (by omega) hd, Nat.ofDigits_digits]

theorem digitsOf_isDigit {c : Char} (h : c ∈ digitsOf n) : c.isDigit = true := by
  unfold digitsOf at h
  split at h
  · rw [mem_singleton.mp h]
    decide
  rw [mem_reverse] at h
  obtain ⟨d, hd, rfl⟩ := mem_map.mp h
  have hlt : d < 10 := Nat.digits_lt_base (by omega) hd
  have hall : ∀ d < 10, (digitChar d).isDigit = true := by decide
  exact hall d hlt

theorem minus_notMem_digitsOf (n : Nat) : '-' ∉ digitsOf n :=
  fun h => absurd (digitsOf_isDigit h) (by decide)

theorem plus_notMem_digitsOf (n : Nat) : '+' ∉ digitsOf n :=
  fun h => absurd (digitsOf_isDigit h) (by decide)

/-- **A number in decimal is read back.** -/
theorem parseDigits_digitsOf (n : Nat) : parseDigits (digitsOf n) = some n := by
  have hne : digitsOf n ≠ [] := by
    unfold digitsOf
    split
    · exact cons_ne_nil _ _
    · next hn =>
      have hdig : Nat.digits 10 n ≠ [] := mt Nat.digits_eq_nil_iff_eq_zero.mp hn
      simpa using hdig
  have hdigits : ¬ (digitsOf n).any (fun c => !c.isDigit) = true := by
    rw [any_eq_true]
    rintro ⟨c, hc, hnot⟩
    simp [digitsOf_isDigit hc] at hnot
  unfold parseDigits
  rw [if_neg (not_or.mpr ⟨hne, hdigits⟩)]
  exact congrArg some (valueOf_digitsOf n)

/-- A signed number in decimal is a number without a sign only if it is that number. -/
theorem signedDecimal_eq_decimal_iff {i : Int} : signedDecimal i = decimal n ↔ i = n := by
  cases i with
  | ofNat m =>
    constructor
    · intro h
      have hdigits : digitsOf m = digitsOf n := congrArg Subtype.val h
      grind [valueOf_digitsOf]
    intro h
    have hmn : m = n := by grind
    rw [hmn]
    rfl
  | negSucc m =>
    refine iff_of_false ?_ (by omega)
    intro h
    have hdigits : '-' :: digitsOf (m + 1) = digitsOf n := congrArg Subtype.val h
    have hmem : '-' ∈ digitsOf n := hdigits ▸ mem_cons_self
    exact minus_notMem_digitsOf n hmem

/-- The value a text gives a key last. -/
def lastValue (key : List Char) (es : List (List Char × List Char)) : Option (List Char) :=
  es.foldl (fun found e => if e.1 = key then some e.2 else found) none

theorem lastValue_concat (key value : List Char) (es : List (List Char × List Char)) :
    lastValue key (es ++ [(key, value)]) = some value := by
  unfold lastValue
  rw [foldl_append, foldl_cons, foldl_nil, if_pos rfl]

end Holo.Lib
