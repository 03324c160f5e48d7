/-
Holo.Control.Labels — how the control plane names new cartridges.

A tape label is a prefix of up to three letters and digits, a sequence number of three digits
and an LTO generation of two.  `nextTapeLabel` looks for a free one: it goes through the labels
of the library and the barcodes that are retired.  `createCartridge` then compares the label
with the cartridges of every library, by their names on disk and by their barcodes.

Main results:
* `mem_sequences_iff`, `mem_labels_iff`: what `markUsedTapeLabel` takes out;
* `label_free_iff`: when exactly a cartridge can be created under the label.
-/
import Holo.Lib.Entries

namespace Holo.Control

open Lib List

/-! ## §1. Characters. -/

/-- What `SanitizeLayoutID` writes for a character. -/
def sanitizeChar (c : Char) : Char :=
  if 97 ≤ c.toNat ∧ c.toNat ≤ 122 then c
  else if 65 ≤ c.toNat ∧ c.toNat ≤ 90 then Char.ofNat (c.toNat + 32)
  else if 48 ≤ c.toNat ∧ c.toNat ≤ 57 then c
  else if c = '-' ∨ c = '_' then c
  else '_'

/-- A digit. -/
def isDigitChar (c : Char) : Bool := decide (48 ≤ c.toNat ∧ c.toNat ≤ 57)

/-- A capital letter or a digit. -/
def isLabelChar (c : Char) : Bool := decide (65 ≤ c.toNat ∧ c.toNat ≤ 90) || isDigitChar c

variable {c : Char} {n : Nat}

theorem isLabelChar_iff : isLabelChar c = true ↔
    65 ≤ c.toNat ∧ c.toNat ≤ 90 ∨ 48 ≤ c.toNat ∧ c.toNat ≤ 57 := by
  unfold isLabelChar isDigitChar
  rw [Bool.or_eq_true, decide_eq_true_eq, decide_eq_true_eq]

theorem toNat_ofNat_ascii (h : n < 128) : (Char.ofNat n).toNat = n := by
  revert n
  decide

theorem toUpper_of_label (h : isLabelChar c = true) : toUpper c = c := by
  have hrange := isLabelChar_iff.mp h
  unfold toUpper
  rw [if_neg (by omega), if_neg (by omega), if_neg (by omega)]

theorem not_blank_of_label (h : isLabelChar c = true) : isWhiteSpace c = false := by
  have hrange := isLabelChar_iff.mp h
  unfold isWhiteSpace
  rw [decide_eq_false_iff_not]
  omega

/-- **Two spellings of one name on disk.**  What is written like a label character is the same
character in capitals. -/
theorem toUpper_of_sanitizeChar {c l : Char} (hl : isLabelChar l = true)
    (h : sanitizeChar c = sanitizeChar l) : toUpper c = l := by
  have hrange := isLabelChar_iff.mp hl
  have hl' : (sanitizeChar l).toNat =
      if 65 ≤ l.toNat ∧ l.toNat ≤ 90 then l.toNat + 32 else l.toNat := by
    grind [sanitizeChar, toNat_ofNat_ascii]
  have hbar : ('_' : Char).toNat = 95 := rfl
  rw [← h] at hl'
  unfold sanitizeChar at hl'
  rw [← Char.toNat_inj]
  unfold toUpper
  split at hl'
  next hlow =>
    rw [if_neg (by omega), if_neg (by omega), if_pos hlow, toNat_ofNat_ascii (by omega)]
    split at hl' <;> omega
  next hlow =>
    split at hl'
    next hup =>
      grind [toNat_ofNat_ascii]
    next =>
      split at hl'
      next =>
        rw [if_neg (by omega), if_neg (by omega), if_neg hlow]
        split at hl' <;> omega
      next =>
        -- no other character is written like a letter or a digit
        split at hl'
        next hsign =>
          grind
        next => split at hl' <;> omega

/-! ## §2. Labels. -/

section

variable (raw : List Char) (n : Nat) (stem : List Char)

/-- `normalizeBarcodeKey`, which is also how labels are compared. -/
def normalizeBarcodeKey : List Char := (trimChars raw).map toUpper

def sanitizeLayoutId : List Char :=
  if trimChars raw = [] then "unknown".toList else (trimChars raw).map sanitizeChar

/-- The parts of a label: the prefix, the sequence number and the generation. -/
structure LabelParts where
  stem : List Char
  sequence : Nat
  generation : Nat
  deriving Repr, DecidableEq

/-- `tapeLabelPattern`. -/
def matchTapeLabel (candidate : List Char) : Option LabelParts :=
  let stem := candidate.take (candidate.length - 6)
  match candidate.drop (candidate.length - 6) with
  | [a, b, c, l, d, e] =>
    if 1 ≤ stem.length ∧ stem.length ≤ 3 ∧ stem.all isLabelChar = true ∧
        [a, b, c, d, e].all isDigitChar = true ∧ l = 'L' then
      some ⟨stem, valueOf [a, b, c], valueOf [d, e]⟩
    else none
  | _ => none

def parseTapeLabelParts : Option LabelParts :=
  matchTapeLabel (normalizeBarcodeKey raw)

/-- The number a label of the old numbering has, in which VTA, VTB and so on share one sequence. -/
def legacySequence (parts : LabelParts) : Option Nat :=
  match parts.stem with
  | ['V', 'T', suffix] =>
    if 65 ≤ suffix.toNat ∧ suffix.toNat ≤ 90 then
      some ((suffix.toNat - 65) * 1000 + parts.sequence)
    else none
  | _ => none

/-- `normalizeTapeLabel`: the label in capitals, its number in the old numbering and its
generation. -/
def normalizeTapeLabel : Option (List Char × Option Nat × Nat) :=
  match matchTapeLabel (normalizeBarcodeKey raw) with
  | some parts => some (normalizeBarcodeKey raw, legacySequence parts, parts.generation)
  | none => none

/-- The prefix of labels without one. -/
def defaultStem : List Char := ['V', 'T', 'A']

/-- `normalizeTapePrefix`. -/
def normalizeTapeStem : Option (List Char) :=
  let stem := normalizeBarcodeKey raw
  if stem = [] then some defaultStem
  else if 3 < stem.length ∨ stem.any (fun c => !isLabelChar c) = true then none
  else some stem

/-- `%03d` of a sequence number below a thousand. -/
def threeDigits : List Char :=
  [digitChar (n / 100 % 10), digitChar (n / 10 % 10), digitChar (n % 10)]

/-- `%02d` of a generation below a hundred. -/
def twoDigits : List Char := [digitChar (n / 10 % 10), digitChar (n % 10)]

def formatTapeLabel (sequence generation : Nat) : List Char :=
  stem ++ threeDigits sequence ++ 'L' :: twoDigits generation

/-- A prefix of a label. -/
def GoodStem : Prop :=
  1 ≤ stem.length ∧ stem.length ≤ 3 ∧ stem.all isLabelChar = true

end

variable {raw stem : List Char} {g : Nat}

theorem goodStem_of_normalize (h : normalizeTapeStem raw = some stem) : GoodStem stem := by
  unfold normalizeTapeStem at h
  dsimp only at h
  split at h
  next =>
    cases h
    exact ⟨by decide, by decide, by decide⟩
  next hne =>
    split at h
    next => exact absurd h (by simp)
    next hok =>
      cases h
      rw [not_or] at hok
      refine ⟨length_pos_iff.mpr hne, not_lt.mp hok.1, ?_⟩
      grind

theorem isDigitChar_digitChar {d : Nat} (h : d < 10) : isDigitChar (digitChar d) = true := by
  revert d
  decide

theorem valueOf_threeDigits (h : n < 1000) : valueOf (threeDigits n) = n := by
  grind [valueOf, threeDigits, digitChar_toNat]

theorem valueOf_twoDigits (h : n < 100) : valueOf (twoDigits n) = n := by
  grind [valueOf, twoDigits, digitChar_toNat]

/-- **A label is taken apart into the parts it was made of.** -/
theorem matchTapeLabel_format (hstem : GoodStem stem) (hn : n < 1000) (hg : g < 100) :
    matchTapeLabel (formatTapeLabel stem n g) = some ⟨stem, n, g⟩ := by
  obtain ⟨hlow, hhigh, hall⟩ := hstem
  have hshape : formatTapeLabel stem n g = stem ++ [digitChar (n / 100 % 10),
      digitChar (n / 10 % 10), digitChar (n % 10), 'L', digitChar (g / 10 % 10),
      digitChar (g % 10)] := by
    unfold formatTapeLabel threeDigits twoDigits
    rw [append_assoc]
    rfl
  have hlen : (formatTapeLabel stem n g).length - 6 = stem.length := by simp [hshape]
  unfold matchTapeLabel
  rw [hlen, hshape, take_left, drop_left]
  have hthree := valueOf_threeDigits hn
  have htwo := valueOf_twoDigits hg
  grind [threeDigits, twoDigits, isDigitChar_digitChar]

theorem isLabelChar_of_digit (h : isDigitChar c = true) : isLabelChar c = true := by
  unfold isLabelChar
  rw [h, Bool.or_true]

/-- A label has capitals and digits only. -/
theorem isLabelChar_of_mem_format (hstem : GoodStem stem) (hc : c ∈ formatTapeLabel stem n g) :
    isLabelChar c = true := by
  have hdigit : ∀ m, isLabelChar (digitChar (m % 10)) = true := fun m =>
    isLabelChar_of_digit (isDigitChar_digitChar (Nat.mod_lt _ (by decide)))
  unfold formatTapeLabel threeDigits twoDigits at hc
  simp only [mem_append, mem_cons, not_mem_nil, or_false] at hc
  rcases hc with (hc | rfl | rfl | rfl) | rfl | rfl | rfl
  · exact all_eq_true.mp hstem.2.2 c hc
  · exact hdigit _
  · exact hdigit _
  · exact hdigit _
  · decide
  · exact hdigit _
  · exact hdigit _

variable {cs label : List Char} {parts : LabelParts} {generation : Nat}

theorem normalizeBarcodeKey_of_label (h : ∀ c ∈ cs, isLabelChar c = true) :
    normalizeBarcodeKey cs = cs := by
  have htrim : trimChars cs = cs :=
    trimChars_eq_self (fun c hc => not_blank_of_label (h c (mem_of_head? hc)))
      fun c hc => not_blank_of_label (h c (mem_of_getLast? hc))
  unfold normalizeBarcodeKey
  rw [htrim]
  exact (map_congr_left fun c hc => toUpper_of_label (h c hc)).trans (map_id _)

/-- What matches the pattern has capitals and digits only. -/
theorem isLabelChar_of_match (h : matchTapeLabel cs = some parts) (hc : c ∈ cs) :
    isLabelChar c = true := by
  have hsplit := take_append_drop (cs.length - 6) cs
  unfold matchTapeLabel at h
  dsimp only at h
  split at h
  next a b d l e f hdrop =>
    split at h
    next hok =>
      obtain ⟨-, -, hstem, hdigits, rfl⟩ := hok
      rw [hdrop] at hsplit
      rw [← hsplit, mem_append] at hc
      rcases hc with hc | hc
      · exact all_eq_true.mp hstem c hc
      simp only [all_cons, all_nil, Bool.and_true, Bool.and_eq_true] at hdigits
      obtain ⟨ha, hb, hd, he, hf⟩ := hdigits
      simp only [mem_cons, not_mem_nil, or_false] at hc
      rcases hc with rfl | rfl | rfl | rfl | rfl | rfl
      · exact isLabelChar_of_digit ha
      · exact isLabelChar_of_digit hb
      · exact isLabelChar_of_digit hd
      · decide
      · exact isLabelChar_of_digit he
      · exact isLabelChar_of_digit hf
    next => exact absurd h (by simp)
  next => exact absurd h (by simp)

/-! ## §3. A free label. -/

/-- `usedSequences` and `usedLabels`. -/
structure UsedLabels where
  sequences : List Nat
  labels : List (List Char)

def markUsedTapeLabel (stem : List Char) (generation : Nat) (used : UsedLabels)
    (raw : List Char) : UsedLabels :=
  match normalizeTapeLabel raw with
  | none => used
  | some (normalized, sequence, _) =>
    let own :=
      match parseTapeLabelParts normalized with
      | some parts =>
        if parts.stem = stem ∧ parts.generation = generation then [parts.sequence] else []
      | none => []
    let legacy := if stem = defaultStem then sequence.toList else []
    ⟨legacy ++ (own ++ used.sequences), normalized :: used.labels⟩

/-- A number is taken by a label of the prefix and the generation, or by the old numbering. -/
def TakenBy (stem : List Char) (generation sequence : Nat) (raw : List Char) : Prop :=
  ∃ parts, matchTapeLabel (normalizeBarcodeKey raw) = some parts ∧
    (parts = ⟨stem, sequence, generation⟩ ∨
      stem = defaultStem ∧ legacySequence parts = some sequence)

theorem parseTapeLabelParts_normalized (h : matchTapeLabel (normalizeBarcodeKey raw) = some parts) :
    parseTapeLabelParts (normalizeBarcodeKey raw) = some parts := by
  unfold parseTapeLabelParts
  rw [normalizeBarcodeKey_of_label fun c hc => isLabelChar_of_match h hc]
  exact h

theorem mem_markUsedTapeLabel {used : UsedLabels} {raw : List Char} :
    (∀ n, n ∈ (markUsedTapeLabel stem generation used raw).sequences ↔
      TakenBy stem generation n raw ∨ n ∈ used.sequences) ∧
    ∀ l, l ∈ (markUsedTapeLabel stem generation used raw).labels ↔
      (l = normalizeBarcodeKey raw ∧ (matchTapeLabel l).isSome = true) ∨ l ∈ used.labels := by
  cases hmatch : matchTapeLabel (normalizeBarcodeKey raw) with
  | none =>
    -- a text that is no label takes nothing
    have hsame : markUsedTapeLabel stem generation used raw = used := by
      unfold markUsedTapeLabel normalizeTapeLabel
      rw [hmatch]
    rw [hsame]
    refine ⟨fun n => ⟨.inr, fun h => h.resolve_left fun htaken => ?_⟩,
      fun l => ⟨.inr, fun h => h.resolve_left fun hl => ?_⟩⟩
    · obtain ⟨parts, hparts, -⟩ := htaken
      rw [hmatch] at hparts
      cases hparts
    grind
  | some parts =>
    -- a label takes its number; under the default stem also the number of its old form
    have hmark : markUsedTapeLabel stem generation used raw =
        ⟨(if stem = defaultStem then (legacySequence parts).toList else []) ++
          ((if parts.stem = stem ∧ parts.generation = generation then [parts.sequence] else []) ++
            used.sequences), normalizeBarcodeKey raw :: used.labels⟩ := by
      unfold markUsedTapeLabel normalizeTapeLabel
      rw [hmatch]
      dsimp only
      rw [parseTapeLabelParts_normalized hmatch]
    rw [hmark]
    refine ⟨fun n => ?_, fun l => ?_⟩
    swap
    · grind
    have htaken : TakenBy stem generation n raw ↔ parts = ⟨stem, n, generation⟩ ∨
        stem = defaultStem ∧ legacySequence parts = some n := by
      constructor
      · intro h
        obtain ⟨parts', hparts, hcase⟩ := h
        grind
      · exact fun hcase => ⟨parts, hmatch, hcase⟩
    have hlegacy : n ∈ (if stem = defaultStem then (legacySequence parts).toList else []) ↔
        stem = defaultStem ∧ legacySequence parts = some n := by simp
    have hown : n ∈ (if parts.stem = stem ∧ parts.generation = generation then [parts.sequence]
        else []) ↔ parts = ⟨stem, n, generation⟩ := by
      obtain ⟨stem', n', generation'⟩ := parts
      split
      next hsame =>
        obtain ⟨rfl, rfl⟩ := hsame
        simp [eq_comm]
      next hother =>
        grind
    rw [htaken, mem_append, mem_append, hlegacy, hown, ← or_assoc]
    exact or_congr_left or_comm

/-- The labels that are taken: every label gone through is one mark. -/
theorem mem_foldl_markUsed (raws : List (List Char)) : ∀ used : UsedLabels,
      (∀ n, n ∈ (raws.foldl (markUsedTapeLabel stem generation) used).sequences ↔
        (∃ raw ∈ raws, TakenBy stem generation n raw) ∨ n ∈ used.sequences) ∧
      ∀ l, l ∈ (raws.foldl (markUsedTapeLabel stem generation) used).labels ↔
        (∃ raw ∈ raws, l = normalizeBarcodeKey raw ∧ (matchTapeLabel l).isSome = true) ∨
          l ∈ used.labels := by
  induction raws with
  | nil =>
    intro used
    exact ⟨fun n => by simp, fun l => by simp⟩
  | cons raw raws ih =>
    intro used
    have hone := @mem_markUsedTapeLabel stem generation used raw
    have hrest := ih (markUsedTapeLabel stem generation used raw)
    refine ⟨fun n => ?_, fun l => ?_⟩
    · rw [foldl_cons, hrest.1, hone.1, ← or_assoc]
      simp only [mem_cons, exists_eq_or_imp]
      exact or_congr_left or_comm
    · rw [foldl_cons, hrest.2, hone.2, ← or_assoc]
      simp only [mem_cons, exists_eq_or_imp]
      exact or_congr_left or_comm

/-- The errors of the domain these functions return. -/
inductive DomainError where
  | invalidInput
  | conflict
  deriving Repr, DecidableEq

/-- A row of `virtual_cartridges`.  Its `barcode_key` is always the key of the barcode. -/
structure Cartridge where
  cartridgeId : List Char
  poolId : List Char
  libraryId : List Char
  barcode : List Char
  deriving Repr, DecidableEq

/-- The tables.  A row of `destroyed_cartridge_barcodes` is its barcode; the key is the key of
the barcode there too. -/
structure Database where
  cartridges : List Cartridge
  destroyed : List (List Char)
  libraries : List (List Char)
  pools : List (List Char)
  deriving Repr, DecidableEq

/-- The labels `nextTapeLabel` goes through. -/
def Database.labelsOf (db : Database) (libraryId : List Char) : List (List Char) :=
  (db.cartridges.filter fun c => c.libraryId = libraryId).flatMap
    (fun c => [c.cartridgeId, c.barcode]) ++ db.destroyed

/-- What is taken when `nextTapeLabel` has gone through the labels. -/
def Database.usedLabels (db : Database) (libraryId stem : List Char) (generation : Nat) :
    UsedLabels :=
  (db.labelsOf libraryId).foldl (markUsedTapeLabel stem generation) ⟨[], []⟩

def nextTapeLabel (db : Database) (libraryId rawStem : List Char) (generation : Fin 100) :
    Except DomainError (List Char) :=
  match normalizeTapeStem rawStem with
  | none => .error .invalidInput
  | some stem =>
    let used := db.usedLabels libraryId stem generation
    match (range 1000).find? (fun sequence => decide (sequence ∉ used.sequences ∧
        (formatTapeLabel stem sequence generation).map toUpper ∉ used.labels)) with
    | some sequence => .ok (formatTapeLabel stem sequence generation)
    | none => .error .conflict

variable {db : Database} {libraryId rawStem : List Char} {generation : Fin 100}

/-- **The numbers that are taken.** -/
theorem mem_sequences_iff : n ∈ (db.usedLabels libraryId stem g).sequences ↔
      ∃ raw ∈ db.labelsOf libraryId, TakenBy stem g n raw :=
  ((mem_foldl_markUsed _ _).1 n).trans (or_iff_left not_mem_nil)

/-- **The labels that are taken.** -/
theorem mem_labels_iff {stem l : List Char} : l ∈ (db.usedLabels libraryId stem g).labels ↔
      ∃ raw ∈ db.labelsOf libraryId,
        l = normalizeBarcodeKey raw ∧ (matchTapeLabel l).isSome = true :=
  ((mem_foldl_markUsed _ _).2 l).trans (or_iff_left not_mem_nil)

theorem map_toUpper_format (hstem : GoodStem stem) :
    (formatTapeLabel stem n g).map toUpper = formatTapeLabel stem n g :=
  (map_congr_left fun _ hc => toUpper_of_label (isLabelChar_of_mem_format hstem hc)).trans
    (map_id _)

/-- A number that no label of the library and no retired barcode takes. -/
def Untaken (db : Database) (libraryId stem : List Char) (generation n : Nat) : Prop :=
  ∀ raw ∈ db.labelsOf libraryId, ¬ TakenBy stem generation n raw

/-- The first of the numbers that are not taken. -/
structure FirstFree (db : Database) (libraryId stem : List Char) (generation n : Nat) : Prop where
  small : n < 1000
  untaken : Untaken db libraryId stem generation n
  first : ∀ m < n, ¬ Untaken db libraryId stem generation m

/-- A label that was gone through takes its own number. -/
theorem Untaken.key_ne (h : Untaken db libraryId stem g n) (hstem : GoodStem stem) (hn : n < 1000)
    (hg : g < 100) : ∀ raw ∈ db.labelsOf libraryId,
      normalizeBarcodeKey raw ≠ formatTapeLabel stem n g := by
  intro raw hraw heq
  refine h raw hraw ⟨⟨stem, n, g⟩, ?_, .inl rfl⟩
  rw [heq]
  exact matchTapeLabel_format hstem hn hg

/-- **What the loop looks for**: that the label is not there either follows from its number. -/
theorem untaken_iff (hstem : GoodStem stem) (hn : n < 1000) (hg : g < 100) :
    n ∉ (db.usedLabels libraryId stem g).sequences ∧
        (formatTapeLabel stem n g).map toUpper ∉ (db.usedLabels libraryId stem g).labels ↔
      Untaken db libraryId stem g n := by
  rw [map_toUpper_format hstem, mem_sequences_iff, mem_labels_iff]
  constructor
  · intro h raw hraw htaken
    exact h.1 ⟨raw, hraw, htaken⟩
  · intro h
    constructor
    · intro htaken
      obtain ⟨raw, hraw, htaken⟩ := htaken
      exact h raw hraw htaken
    · intro hlabel
      obtain ⟨raw, hraw, heq, -⟩ := hlabel
      exact h.key_ne hstem hn hg raw hraw heq.symm

/-- **The label that `nextTapeLabel` returns** has the first number that is not taken. -/
theorem nextTapeLabel_eq_ok_iff : nextTapeLabel db libraryId rawStem generation = .ok label ↔
    ∃ stem n, normalizeTapeStem rawStem = some stem ∧ FirstFree db libraryId stem generation n ∧
      label = formatTapeLabel stem n generation := by
  unfold nextTapeLabel
  cases hstem : normalizeTapeStem rawStem with
  | none => simp
  | some stem =>
    have hgood := goodStem_of_normalize hstem
    -- the test of the loop is that the number is untaken
    have hfree : ∀ n, n < 1000 → (decide (n ∉ (db.usedLabels libraryId stem generation).sequences ∧
        (formatTapeLabel stem n generation).map toUpper ∉
          (db.usedLabels libraryId stem generation).labels) = true ↔
            Untaken db libraryId stem generation n) := fun n hn =>
      decide_eq_true_iff.trans (untaken_iff hgood hn generation.2)
    dsimp only
    constructor
    · intro h
      split at h
      next n hfind =>
        cases h
        obtain ⟨htrue, hmem, hbefore⟩ := find?_range_eq_some.mp hfind
        have hn : n < 1000 := mem_range.mp hmem
        refine ⟨stem, n, rfl, ⟨hn, (hfree n hn).mp htrue, fun m hm huntaken => ?_⟩, rfl⟩
        have hfalse := hbefore m hm
        rw [(hfree m (by omega)).mpr huntaken] at hfalse
        cases hfalse
      next => cases h
    · intro h
      obtain ⟨stem', n, heq, hfirst, rfl⟩ := h
      cases heq
      have hfind := find?_range_eq_some.mpr ⟨(hfree n hfirst.small).mpr hfirst.untaken,
        mem_range.mpr hfirst.small, fun m hm => by
          rw [Bool.not_eq_true', Bool.eq_false_iff]
          have hsmall := hfirst.small
          exact fun htrue => hfirst.first m hm ((hfree m (by omega)).mp htrue)⟩
      rw [hfind]

/-- **If no label is free, every number is taken.** -/
theorem nextTapeLabel_conflict
    (h : nextTapeLabel db libraryId rawStem generation = .error .conflict) :
    ∃ stem, normalizeTapeStem rawStem = some stem ∧ ∀ n < 1000,
      ∃ raw ∈ db.labelsOf libraryId, TakenBy stem generation n raw := by
  unfold nextTapeLabel at h
  split at h
  next => cases h
  next stem hstem =>
    have hgood := goodStem_of_normalize hstem
    refine ⟨stem, hstem, fun n hn => ?_⟩
    dsimp only at h
    split at h
    next => cases h
    next hfind =>
      have hused := find?_eq_none.mp hfind n (mem_range.mpr hn)
      rw [decide_eq_true_eq, untaken_iff hgood hn generation.2, Untaken] at hused
      by_contra hnone
      exact hused fun raw hraw htaken => hnone ⟨raw, hraw, htaken⟩

/-! ## §4. Creating a cartridge. -/

def cartridgeLayoutProjection (libraryId cartridgeId : List Char) : List Char :=
  sanitizeLayoutId libraryId ++ '/' :: sanitizeLayoutId cartridgeId

def barcodeDestroyed (db : Database) (barcodeKey : List Char) : Bool :=
  decide (trimChars barcodeKey ≠ [] ∧ barcodeKey ∈ db.destroyed.map normalizeBarcodeKey)

def cartridgeProjectionConflict (db : Database) (candidate : Cartridge) (excludeId : List Char) :
    Bool :=
  db.cartridges.any fun row => decide (row.cartridgeId ≠ excludeId ∧
    (sanitizeLayoutId row.cartridgeId = sanitizeLayoutId candidate.cartridgeId ∨
      cartridgeLayoutProjection row.libraryId row.cartridgeId =
        cartridgeLayoutProjection candidate.libraryId candidate.cartridgeId))

/-- Why a cartridge was not created.  To the caller every reason is `ErrConflict`. -/
inductive CreateFailure where
  | destroyedBarcode
  | samePath
  | sameId
  | sameBarcode
  /-- The library or the pool does not exist. -/
  | foreignKey
  deriving Repr, DecidableEq

/-- `CreateCartridge`: its checks, and the constraints of the table. -/
def createCartridge (db : Database) (cartridge : Cartridge) : Except CreateFailure Database :=
  let barcodeKey := normalizeBarcodeKey cartridge.barcode
  if barcodeDestroyed db barcodeKey = true then .error .destroyedBarcode
  else if cartridgeProjectionConflict db cartridge [] = true then .error .samePath
  else if cartridge.cartridgeId ∈ db.cartridges.map Cartridge.cartridgeId then .error .sameId
  else if barcodeKey ∈ db.cartridges.map (fun c => normalizeBarcodeKey c.barcode) then
    .error .sameBarcode
  else if cartridge.libraryId ∉ db.libraries ∨ cartridge.poolId ∉ db.pools then .error .foreignKey
  else .ok { db with cartridges := db.cartridges ++ [cartridge] }

/-- A cartridge that another under this label would be taken for. -/
def SameIdentity (c : Cartridge) (label : List Char) : Prop :=
  sanitizeLayoutId c.cartridgeId = sanitizeLayoutId label ∨ normalizeBarcodeKey c.barcode = label

theorem map_toUpper_of_sanitize (hlabel : ∀ c ∈ label, isLabelChar c = true) :
    ∀ {cs : List Char}, cs.map sanitizeChar = label.map sanitizeChar → cs.map toUpper = label := by
  induction label with
  | nil =>
    intro cs h
    rw [map_eq_nil_iff.mp h]
    rfl
  | cons l label ih =>
    intro cs h
    cases cs with
    | nil => exact absurd h (by simp)
    | cons c cs =>
      grind [toUpper_of_sanitizeChar, mem_cons_self]

/-- **The same name on disk is the same label**: capitals and digits leave no other spelling. -/
theorem key_of_sanitize (hstem : GoodStem stem)
    (h : sanitizeLayoutId raw = sanitizeLayoutId (formatTapeLabel stem n g)) :
    normalizeBarcodeKey raw = formatTapeLabel stem n g := by
  have hchars : ∀ c ∈ formatTapeLabel stem n g, isLabelChar c = true :=
    fun c hc => isLabelChar_of_mem_format hstem hc
  have htrim : trimChars (formatTapeLabel stem n g) = formatTapeLabel stem n g :=
    trimChars_eq_self (fun c hc => not_blank_of_label (hchars c (mem_of_head? hc)))
      fun c hc => not_blank_of_label (hchars c (mem_of_getLast? hc))
  have hne : formatTapeLabel stem n g ≠ [] := by
    exact append_ne_nil_of_right_ne_nil _ (cons_ne_nil _ _)
  unfold sanitizeLayoutId at h
  rw [htrim, if_neg hne] at h
  split at h
  next =>
    -- a label ends with a digit
    have hlast := congrArg List.getLast? h
    have hdigit : ∀ d < 10, sanitizeChar (digitChar d) ≠ 'n' := by decide
    unfold formatTapeLabel twoDigits at hlast
    simp only [map_append, map_cons, map_nil] at hlast
    rw [getLast?_append_of_ne_nil _ (cons_ne_nil _ _)] at hlast
    exact absurd (Option.some.inj hlast).symm (hdigit _ (Nat.mod_lt _ (by decide)))
  next =>
    exact map_toUpper_of_sanitize hchars h

/-- The label is free: a cartridge can be created under it, and if there is none every number
is taken. -/
structure LabelFree (db : Database) (libraryId rawStem : List Char) (generation : Fin 100) :
    Prop where
  creatable : ∀ label poolId, nextTapeLabel db libraryId rawStem generation = .ok label →
    ∀ failure, createCartridge db ⟨label, poolId, libraryId, label⟩ = .error failure →
      failure = .foreignKey
  exhausted : nextTapeLabel db libraryId rawStem generation = .error .conflict →
    ∃ stem, normalizeTapeStem rawStem = some stem ∧ ∀ n < 1000,
      ∃ raw ∈ db.labelsOf libraryId, TakenBy stem generation n raw

theorem mem_labelsOf : raw ∈ db.labelsOf libraryId ↔
    (∃ c ∈ db.cartridges, c.libraryId = libraryId ∧ (raw = c.cartridgeId ∨ raw = c.barcode)) ∨
      raw ∈ db.destroyed := by
  simp [Database.labelsOf, and_assoc]

theorem slash_notMem_sanitize (hc : c ∈ sanitizeLayoutId raw) : c ≠ '/' := by
  have hslash : ('/' : Char).toNat = 47 := rfl
  intro heq
  have hnat := congrArg Char.toNat heq
  unfold sanitizeLayoutId at hc
  split at hc
  next =>
    rw [heq] at hc
    exact absurd hc (by decide)
  next =>
    obtain ⟨d, -, rfl⟩ := mem_map.mp hc
    unfold sanitizeChar at hnat
    split at hnat
    next => omega
    next =>
      split at hnat
      next =>
        rw [toNat_ofNat_ascii (by omega)] at hnat
        omega
      next =>
        split at hnat
        next => omega
        next =>
          split at hnat
          next hsign =>
            rcases hsign with rfl | rfl
            · exact absurd hnat (by decide)
            · exact absurd hnat (by decide)
          next => exact absurd hnat (by decide)

/-- Names on disk that are the same with the library are the same without it. -/
theorem sanitize_of_projection {row candidate : Cartridge}
    (h : sanitizeLayoutId row.cartridgeId = sanitizeLayoutId candidate.cartridgeId ∨
      cartridgeLayoutProjection row.libraryId row.cartridgeId =
        cartridgeLayoutProjection candidate.libraryId candidate.cartridgeId) :
    sanitizeLayoutId row.cartridgeId = sanitizeLayoutId candidate.cartridgeId := by
  grind [cartridgeLayoutProjection, splitOnce_append, slash_notMem_sanitize]

/-- A cartridge of the same identity keeps another from being created. -/
theorem createCartridge_sameIdentity {stem poolId : List Char} {n g : Nat} (hstem : GoodStem stem)
    {c : Cartridge} (hc : c ∈ db.cartridges) (hsame : SameIdentity c (formatTapeLabel stem n g)) :
    ∃ failure, failure ≠ .foreignKey ∧ createCartridge db
      ⟨formatTapeLabel stem n g, poolId, libraryId, formatTapeLabel stem n g⟩ = .error failure := by
  have hkey : normalizeBarcodeKey (formatTapeLabel stem n g) = formatTapeLabel stem n g :=
    normalizeBarcodeKey_of_label fun _ hmem => isLabelChar_of_mem_format hstem hmem
  unfold createCartridge
  dsimp only
  split
  next => exact ⟨_, by decide, rfl⟩
  next =>
    split
    next => exact ⟨_, by decide, rfl⟩
    next hpath =>
      split
      next => exact ⟨_, by decide, rfl⟩
      next =>
        rcases hsame with hsan | hbar
        · refine absurd (any_eq_true.mpr ⟨c, hc, decide_eq_true ⟨fun hnil => ?_, .inl hsan⟩⟩) hpath
          -- a row without an id is skipped, and is no label
          rw [hnil] at hsan
          have hnone := key_of_sanitize hstem hsan
          have hlen := congrArg List.length hnone
          unfold formatTapeLabel at hlen
          simp [normalizeBarcodeKey, trimChars] at hlen
        · rw [if_pos (mem_map.mpr ⟨c, hc, hbar.trans hkey.symm⟩)]
          exact ⟨_, by decide, rfl⟩

/-- **When exactly a label is free**: no cartridge of another library has the identity of the
label with the first number that is not taken.  Whatever the tables hold, and for every library,
prefix and generation. -/
theorem label_free_iff (db : Database) (libraryId rawStem : List Char) (generation : Fin 100) :
    LabelFree db libraryId rawStem generation ↔
      ∀ stem n, normalizeTapeStem rawStem = some stem →
        FirstFree db libraryId stem generation n →
          ∀ c ∈ db.cartridges, c.libraryId ≠ libraryId →
            ¬ SameIdentity c (formatTapeLabel stem n generation) := by
  constructor
  · intro hfree stem n hstem hfirst c hc _ hsame
    have hnext := nextTapeLabel_eq_ok_iff.mpr ⟨stem, n, hstem, hfirst, rfl⟩
    obtain ⟨failure, hne, hfail⟩ := @createCartridge_sameIdentity db libraryId stem [] n
      generation (goodStem_of_normalize hstem) c hc hsame
    exact hne (hfree.creatable _ [] hnext failure hfail)
  intro hother
  refine ⟨fun label poolId hnext failure hfail => ?_, nextTapeLabel_conflict⟩
  obtain ⟨stem, n, hstem, hfirst, rfl⟩ := nextTapeLabel_eq_ok_iff.mp hnext
  have hgood := goodStem_of_normalize hstem
  have hunused := hfirst.untaken.key_ne hgood hfirst.small generation.2
  have hkey : normalizeBarcodeKey (formatTapeLabel stem n generation) =
      formatTapeLabel stem n generation :=
    normalizeBarcodeKey_of_label fun _ hmem => isLabelChar_of_mem_format hgood hmem
  -- a cartridge of the library with the identity would have taken the label
  have hnone : ∀ c ∈ db.cartridges, ¬ SameIdentity c (formatTapeLabel stem n generation) := by
    intro c hc hsame
    by_cases hlib : c.libraryId = libraryId
    · rcases hsame with hsan | hbar
      · exact hunused _ (mem_labelsOf.mpr (.inl ⟨c, hc, hlib, .inl rfl⟩))
          (key_of_sanitize hgood hsan)
      · exact hunused _ (mem_labelsOf.mpr (.inl ⟨c, hc, hlib, .inr rfl⟩)) hbar
    · exact hother stem n hstem hfirst c hc hlib hsame
  unfold createCartridge at hfail
  dsimp only at hfail
  rw [hkey] at hfail
  split at hfail
  next hdestroyed =>
    obtain ⟨-, hmem⟩ := of_decide_eq_true hdestroyed
    obtain ⟨raw, hraw, heq⟩ := mem_map.mp hmem
    exact absurd heq (hunused raw (mem_labelsOf.mpr (.inr hraw)))
  next =>
    split at hfail
    next hpath =>
      obtain ⟨c, hc, hproj⟩ := any_eq_true.mp hpath
      exact absurd (.inl (sanitize_of_projection (of_decide_eq_true hproj).2)) (hnone c hc)
    next =>
      split at hfail
      next hid =>
        obtain ⟨c, hc, heq⟩ := mem_map.mp hid
        exact absurd (.inl (by rw [heq])) (hnone c hc)
      next =>
        split at hfail
        next hbar =>
          obtain ⟨c, hc, heq⟩ := mem_map.mp hbar
          exact absurd (.inr heq) (hnone c hc)
        grind

/-- Two libraries, and a cartridge in the first. -/
def twoLibraries : Database where
  cartridges := [⟨"VTA000L09".toList, "pool".toList, "lib-a".toList, "VTA000L09".toList⟩]
  destroyed := []
  libraries := ["lib-a".toList, "lib-b".toList]
  pools := ["pool".toList]

/-- **The label of another library's cartridge is given again**, and cannot be used. -/
theorem label_of_other_library_given :
    nextTapeLabel twoLibraries "lib-b".toList [] 9 = .ok "VTA000L09".toList ∧
      createCartridge twoLibraries ⟨"VTA000L09".toList, "pool".toList, "lib-b".toList,
        "VTA000L09".toList⟩ = .error .samePath ∧
      ¬ LabelFree twoLibraries "lib-b".toList [] 9 := by
  have hnext : nextTapeLabel twoLibraries "lib-b".toList [] 9 = .ok "VTA000L09".toList := by
    decide +kernel
  have hcreate : createCartridge twoLibraries ⟨"VTA000L09".toList, "pool".toList,
      "lib-b".toList, "VTA000L09".toList⟩ = .error .samePath := by decide +kernel
  refine ⟨hnext, hcreate, fun hfree => ?_⟩
  exact absurd (hfree.creatable _ _ hnext _ hcreate) (by decide)

end Holo.Control
