/-
Holo.Lib.FileWrites — positioned writes to a file, and crashes between their bytes.

A file is a byte string.  A program issues POSITIONED WRITES; a crash lets the first
`n` bytes of them, in program order, reach the file.

Main results:
* `FileWrite.apply_end`, `FileWrite.apply_over`: what a write does behind the end of
  the file and inside it;
* `crashAfter_cons_le`, `crashAfter_cons_gt`: a crash inside, or behind, the first write.
-/
import Holo.Lib.Bytes

namespace Holo.Lib

open List

variable {b : Bytes}

/-- One positioned write. -/
structure FileWrite where
  offset : Nat
  data : Bytes
  deriving Repr, DecidableEq

/-- The file after a write; a gap behind the old end is filled with zeros. -/
def FileWrite.apply (w : FileWrite) (b : Bytes) : Bytes :=
  b.take w.offset ++ (replicate (w.offset - b.length) 0 ++
    (w.data ++ b.drop (w.offset + w.data.length)))

/-- The file after a crash that let the first `n` written bytes reach it. -/
def crashAfter : List FileWrite → Nat → Bytes → Bytes
  | [], _, b => b
  | w :: ws, n, b =>
    if n ≤ w.data.length then FileWrite.apply ⟨w.offset, w.data.take n⟩ b
    else crashAfter ws (n - w.data.length) (w.apply b)

/-- A write at the end of the file extends it. -/
theorem FileWrite.apply_end (b data : Bytes) : FileWrite.apply ⟨b.length, data⟩ b = b ++ data := by
  simp [FileWrite.apply]

/-- A write over bytes that are there replaces exactly these. -/
theorem FileWrite.apply_over {x y z d : Bytes} (h : d.length ≤ y.length) :
    FileWrite.apply ⟨x.length, d⟩ (x ++ (y ++ z)) = x ++ ((d ++ y.drop d.length) ++ z) := by
  have hgap : x.length - (x ++ (y ++ z)).length = 0 := by simp
  have htake : (x ++ (y ++ z)).take x.length = x := take_left
  have hdrop : (x ++ (y ++ z)).drop (x.length + d.length) = y.drop d.length ++ z := by
    rw [drop_append, drop_append_of_le_length (by omega)]
    simp
  simp only [FileWrite.apply, hgap, htake, hdrop, replicate_zero, nil_append, append_assoc]

/-- An empty write at a place inside the file changes nothing. -/
theorem FileWrite.apply_nil {off : Nat} (h : off ≤ b.length) : FileWrite.apply ⟨off, []⟩ b = b := by
  have hgap : off - b.length = 0 := by omega
  simp only [FileWrite.apply, hgap, replicate_zero, nil_append, length_nil,
    Nat.add_zero, take_append_drop]

variable {w : FileWrite} {ws : List FileWrite} {n : Nat}

theorem crashAfter_cons_le (h : n ≤ w.data.length) :
    crashAfter (w :: ws) n b = FileWrite.apply ⟨w.offset, w.data.take n⟩ b := if_pos h

theorem crashAfter_cons_gt (h : w.data.length < n) :
    crashAfter (w :: ws) n b = crashAfter ws (n - w.data.length) (w.apply b) :=
  if_neg (by omega)

end Holo.Lib
