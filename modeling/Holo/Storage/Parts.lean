/-
Holo.Storage.Parts — writing the parts of an append, with writes that come out short.

The system takes at least one of the bytes it is offered, not always all of them.  The loop then
goes to the first part that is not yet written.  It takes a write of no bytes for a failure, also
where only an empty part is left.

Main result: `parts_written_iff` — the parts are written, and success is reported, exactly when
there is at most one part or the last one is not empty.
-/
import Holo.Storage.Metadata

namespace Holo.Storage

open Lib List

/-! ## §1. The loop. -/

/-- How many bytes each write takes of those it is offered: at least one. -/
structure ShortWrites where
  taken : Nat → Nat → Nat
  le : ∀ k n, taken k n ≤ n
  pos : ∀ k n, 0 < n → 0 < taken k n

/-- The loop behind a write: the parts from the first unfinished one on, and the offset in it. -/
def passOver : List Bytes → Nat → Nat → List Bytes × Nat
  | [], offset, _ => ([], offset)
  | part :: rest, offset, remaining =>
    let available := part.length - offset
    if remaining < available then (part :: rest, offset + remaining)
    else if remaining - available = 0 then (rest, 0)
    else passOver rest 0 (remaining - available)

variable (os : ShortWrites)

/-- The loop over the writes, from the `k`th on; `none` is a lack of fuel. -/
def writeParts : Nat → Nat → List Bytes → Nat → Bytes → Option (Except StorageError Unit × Bytes)
  | 0, _, _, _, _ => none
  | _ + 1, _, [], _, file => some (.ok (), file)
  | fuel + 1, k, part :: rest, offset, file =>
    -- the first slice starts at the offset
    let slices := (part :: rest).flatten.drop offset
    let written := os.taken k slices.length
    if written = 0 then some (.error .io, file)
    else
      let next := passOver (part :: rest) offset written
      writeParts fuel (k + 1) next.1 next.2 (file ++ slices.take written)

/-- `write_all_parts`: what it returns, and the file. -/
def writeAllParts (fuel : Nat) (parts : List Bytes) (file : Bytes) :
    Option (Except StorageError Unit × Bytes) :=
  match parts with
  | [part] => some (.ok (), file ++ part)
  | _ => writeParts os fuel 0 parts 0 file

/-! ## §2. What a write leaves. -/

/-- The offset is inside the first part, or nothing of it is written. -/
def OffsetOk (p : List Bytes × Nat) : Prop := ∀ part ∈ p.1.head?, p.2 = 0 ∨ p.2 < part.length

/-- **After a write** the next one is offered the rest, and an empty last part is still there. -/
theorem passOver_spec : ∀ (parts : List Bytes) (offset n : Nat), OffsetOk (parts, offset) → 0 < n →
    n ≤ (parts.flatten.drop offset).length → OffsetOk (passOver parts offset n) ∧
      (passOver parts offset n).1.flatten.drop (passOver parts offset n).2 =
        parts.flatten.drop (offset + n) ∧
      ((passOver parts offset n).1.getLast? = some [] ↔ parts.getLast? = some [])
  | [], offset, n, _, hpos, hle => by
    simp only [flatten_nil, drop_nil, length_nil] at hle
    omega
  | part :: rest, offset, n, hok, hpos, hle => by
    have hin := hok part rfl
    rw [flatten_cons, length_drop, length_append] at hle
    rw [passOver, flatten_cons]
    split
    · -- the write ends inside the part
      refine ⟨fun p hp => .inr ?_, rfl, Iff.rfl⟩
      cases hp
      show offset + n < part.length
      omega
    have hdrop : (part ++ rest.flatten).drop (offset + n) =
        rest.flatten.drop (n - (part.length - offset)) := by
      rw [drop_append, drop_eq_nil_of_le (by omega), nil_append]
      congr 1
      omega
    split
    · next hzero =>
      refine ⟨fun _ _ => .inl rfl, ?_, ?_⟩
      · rw [hdrop, hzero]
      cases rest with
      | nil =>
        -- the part was not empty
        refine iff_of_false (by simp) fun h => ?_
        obtain rfl : part = [] := by simpa using h
        simp only [length_nil] at hin hzero
        omega
      | cons => rw [getLast?_cons_cons]
    · next hmore =>
      obtain ⟨hok', hleft, hend⟩ := passOver_spec rest 0 (n - (part.length - offset))
        (fun _ _ => .inl rfl) (by omega) (by rw [drop_zero]; omega)
      refine ⟨hok', by rw [hleft, hdrop, zero_add], hend.trans ?_⟩
      cases rest with
      | nil =>
        simp only [flatten_nil, length_nil] at hle
        omega
      | cons => rw [getLast?_cons_cons]

/-- Where nothing is left to write, the last part is empty. -/
theorem getLast?_of_nothing_left {part : Bytes} {rest : List Bytes} {offset : Nat}
    (hok : OffsetOk (part :: rest, offset)) (hnil : (part :: rest).flatten.drop offset = []) :
    (part :: rest).getLast? = some [] := by
  have hlen := drop_eq_nil_iff.mp hnil
  have hin := hok part rfl
  rw [flatten_cons, length_append] at hlen
  have hempty : ∀ p ∈ part :: rest, p = [] := by
    apply flatten_eq_nil_iff.mp
    apply eq_nil_of_length_eq_zero
    rw [flatten_cons, length_append]
    dsimp only at hin
    omega
  rw [getLast?_eq_some_getLast (cons_ne_nil _ _), hempty _ (getLast_mem _)]

/-- **The whole loop** writes what is left, and reports a failure when the last part is empty. -/
theorem writeParts_spec : ∀ (fuel k : Nat) (parts : List Bytes) (offset : Nat) (file : Bytes),
    OffsetOk (parts, offset) → (parts.flatten.drop offset).length < fuel →
    writeParts os fuel k parts offset file = some
      (if parts.getLast? = some [] then .error .io else .ok (), file ++ parts.flatten.drop offset)
  | 0, _, _, _, _, _, hfuel => absurd hfuel (by omega)
  | fuel + 1, k, [], offset, file, _, _ => by simp [writeParts]
  | fuel + 1, k, part :: rest, offset, file, hok, hfuel => by
    have hle := os.le k ((part :: rest).flatten.drop offset).length
    rw [writeParts]
    split
    · next hzero =>
      have hnil : (part :: rest).flatten.drop offset = [] := by
        by_contra hne
        have := os.pos k _ (length_pos_of_ne_nil hne)
        omega
      rw [if_pos (getLast?_of_nothing_left hok hnil), hnil, append_nil]
    · next hsome =>
      obtain ⟨hok', hleft, hend⟩ := passOver_spec _ offset _ hok (by omega) hle
      generalize passOver (part :: rest) offset _ = next at hok' hleft hend ⊢
      rw [← drop_drop] at hleft
      dsimp only
      rw [writeParts_spec fuel _ next.1 next.2 _ hok' (by rw [hleft, length_drop]; omega), hleft,
        append_assoc, take_append_drop]
      simp only [hend]

/-- The parts end with an empty one, and it is not the only one. -/
def PartsFail (parts : List Bytes) : Prop := 1 < parts.length ∧ parts.getLast? = some []

instance (parts : List Bytes) : Decidable (PartsFail parts) :=
  inferInstanceAs (Decidable (_ ∧ _))

/-- **The whole call**: every byte is written, and a failure reported if the parts end so. -/
theorem writeAllParts_eq {fuel : Nat} (parts : List Bytes) (file : Bytes)
    (hfuel : parts.flatten.length < fuel) : writeAllParts os fuel parts file =
      some (if PartsFail parts then .error .io else .ok (), file ++ parts.flatten) := by
  have hloop := writeParts_spec os fuel 0 parts 0 file (fun _ _ => .inl rfl) hfuel
  match parts, hloop with
  | [], hloop => simpa [writeAllParts, PartsFail] using hloop
  | [part], _ => simp [writeAllParts, PartsFail]
  | a :: b :: rest, hloop => simpa [writeAllParts, PartsFail] using hloop

/-- `write_all_parts` with the fuel it needs: what it returns, and the bytes it writes. -/
def writtenParts (parts : List Bytes) : Except StorageError Unit × Bytes :=
  (writeAllParts os (parts.flatten.length + 1) parts []).getD (.error .io, [])

theorem writtenParts_eq (parts : List Bytes) : writtenParts os parts =
    (if PartsFail parts then .error .io else .ok (), parts.flatten) := by
  rw [writtenParts, writeAllParts_eq os parts [] (Nat.lt_succ_self _), Option.getD_some, nil_append]

/-- **The parts are written** and success is reported exactly when there is at most one part or the
last one is not empty. -/
theorem parts_written_iff (parts : List Bytes) (file : Bytes) :
    (∀ fuel, parts.flatten.length < fuel →
      writeAllParts os fuel parts file = some (.ok (), file ++ parts.flatten)) ↔
      parts.length ≤ 1 ∨ parts.getLast? ≠ some [] := by
  have hcond : (parts.length ≤ 1 ∨ parts.getLast? ≠ some []) ↔ ¬ PartsFail parts := by
    rw [PartsFail, not_and_or, Nat.not_lt]
  rw [hcond]
  constructor
  · intro h hfail
    have hwritten := h _ (Nat.lt_succ_self _)
    rw [writeAllParts_eq os parts file (Nat.lt_succ_self _), if_pos hfail] at hwritten
    cases hwritten
  · intro hfail fuel hfuel
    rw [writeAllParts_eq os parts file hfuel, if_neg hfail]

/-- A byte and an empty part: the byte is written, and a failure reported. -/
theorem empty_last_part_fails : writeAllParts ⟨fun _ n => n, fun _ _ => le_rfl, fun _ _ h => h⟩ 2
    [[1], []] [] = some (.error .io, [1]) := by
  decide

end Holo.Storage
