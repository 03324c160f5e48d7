/-
Holo.Wire.Ring — how the handler finds a command in the ring of the kernel.

The mailbox and the ring are memory shared with the kernel: nothing is known about their bytes.
`holo_read_len_entry` follows at most one entry of padding to the entry of the command.  A read
outside of the mapped bytes is a failure of its own.

Main result: `holoReadLenEntry_inside` — whatever is mapped, no read is outside, and an entry
that is returned lies in the ring and has the id of the command.
-/
import Holo.Lib.Bytes

namespace Holo.Wire

open Lib

/-! ## §1. The mailbox and the ring. -/

section

variable (map : Bytes) (cmdId : Nat)

/-- A field of the mapped memory, or `none` for a read outside of it. -/
def readMapped (pos width : Nat) : Option Nat :=
  if pos + width ≤ map.length then some (fieldAt map pos width) else none

/-- `tcmu_hdr_get_len`. -/
def entryLen (lenOp : Nat) : Nat := lenOp &&& 0xFFFFFFF8

/-- The loop over the ring.  Opcode 1 is a command, opcode 0 padding. -/
def entryFrom (off size head tail walked : Nat) : Option (Option Nat) :=
  if tail ≠ head ∧ walked < size then do
    let lenOp ← readMapped map (off + tail) 4
    let len := entryLen lenOp
    let available := if tail < head then head - tail else size - tail
    if _ : len < 8 ∨ available < len then return none
    if lenOp &&& 7 = 1 then
      if len < 112 then return none
      let id ← readMapped map (off + tail + 4) 2
      return if id = cmdId then some (off + tail) else none
    if lenOp &&& 7 ≠ 0 ∨ len ≠ size - tail then return none
    entryFrom off size head 0 (walked + len)
  else some none
  termination_by size - walked

end

/-- The offset of the entry.  Without a map there is none. -/
def holoReadLenEntry (map : Option Bytes) (cmdId : Nat) : Option (Option Nat) := do
  let some map := map | return none
  if map.length < 128 then return none
  let version ← readMapped map 0 2
  if version ≠ 2 then return none
  let flags ← readMapped map 2 2
  if flags.testBit 1 = false then return none
  let off ← readMapped map 4 4
  let size ← readMapped map 8 4
  let head ← readMapped map 12 4
  let tail ← readMapped map 64 4
  if off < 128 ∨ map.length < off ∨ map.length - off < size ∨ size = 0 ∨
      (off ||| size ||| head ||| tail) &&& 7 ≠ 0 ∨ size ≤ head ∨ size ≤ tail then return none
  entryFrom map cmdId off size head tail 0

/-! ## §2. Inside the map. -/

/-- The entry at `e` lies in the ring, the ring in the map, and it is that of the command. -/
structure EntryInside (map : Bytes) (cmdId e : Nat) : Prop where
  ring : fieldAt map 4 4 + fieldAt map 8 4 ≤ map.length
  start : fieldAt map 4 4 ≤ e
  stop : e + entryLen (fieldAt map e 4) ≤ fieldAt map 4 4 + fieldAt map 8 4
  whole : 112 ≤ entryLen (fieldAt map e 4)
  command : fieldAt map (e + 4) 2 = cmdId

variable {map : Bytes} {cmdId off size head : Nat}

theorem readMapped_inside {pos width : Nat} (h : pos + width ≤ map.length) :
    readMapped map pos width = some (fieldAt map pos width) := if_pos h

/-- **The loop**: the rest of the ring behind an aligned offset has room for a header. -/
theorem entryFrom_inside (hoff : off = fieldAt map 4 4) (hsize : size = fieldAt map 8 4)
    (hring : off + size ≤ map.length) (halign : size % 8 = 0) (hhead : head < size)
    (tail walked : Nat) (htail : tail < size) (htalign : tail % 8 = 0) :
    ∃ r, entryFrom map cmdId off size head tail walked = some r ∧
      ∀ e, r = some e → EntryInside map cmdId e := by
  have hnone : ∃ r, some none = some r ∧ ∀ e, r = some e → EntryInside map cmdId e :=
    ⟨none, rfl, fun _ h => nomatch h⟩
  rw [entryFrom]
  split
  swap
  · exact hnone
  rw [readMapped_inside (by omega : off + tail + 4 ≤ map.length),
    readMapped_inside (by omega : off + tail + 4 + 2 ≤ map.length)]
  simp only [Option.bind_eq_bind, Option.bind_some]
  -- what is available ends at the head, or at the end of the ring
  have havailable : (if tail < head then head - tail else size - tail) ≤ size - tail := by
    split <;> omega
  generalize (if tail < head then head - tail else size - tail) = available at havailable ⊢
  split
  · exact hnone
  next hlen =>
  split
  · split
    · exact hnone
    · refine ⟨_, rfl, fun e he => ?_⟩
      split at he
      · next hid =>
        cases he
        exact ⟨by omega, by omega, by omega, by omega, hid⟩
      · cases he
  split
  · exact hnone
  -- padding runs to the end of the ring: the next entry is at its start
  · exact entryFrom_inside hoff hsize hring halign hhead 0 _ (by omega) rfl
  termination_by size - walked

/-- **No read is outside of the map**, whatever the kernel left there, and an entry that is found
is the one of the command. -/
theorem holoReadLenEntry_inside (map : Option Bytes) (cmdId : Nat) :
    ∃ r, holoReadLenEntry map cmdId = some r ∧
      ∀ e, r = some e → ∃ bytes, map = some bytes ∧ EntryInside bytes cmdId e := by
  cases map with
  | none => exact ⟨none, rfl, fun _ h => nomatch h⟩
  | some map =>
  have hnone : ∃ r, some none = some r ∧
      ∀ e, r = some e → ∃ bytes, some map = some bytes ∧ EntryInside bytes cmdId e :=
    ⟨none, rfl, fun _ h => nomatch h⟩
  unfold holoReadLenEntry
  dsimp only
  split
  · exact hnone
  simp only [Option.bind_eq_bind, readMapped_inside (show 0 + 2 ≤ map.length by omega),
    readMapped_inside (show 2 + 2 ≤ map.length by omega),
    readMapped_inside (show 4 + 4 ≤ map.length by omega),
    readMapped_inside (show 8 + 4 ≤ map.length by omega),
    readMapped_inside (show 12 + 4 ≤ map.length by omega),
    readMapped_inside (show 64 + 4 ≤ map.length by omega), Option.bind_some]
  split
  · exact hnone
  split
  · exact hnone
  split
  · exact hnone
  next hok =>
  -- the mailbox passed: the ring is inside the map, and all of it is aligned
  simp only [not_or, not_lt, not_le, not_not, Nat.and_or_distrib_right, Nat.or_eq_zero_iff] at hok
  obtain ⟨-, hoff, hsize, -, halign, hhead, htail⟩ := hok
  have hmod : ∀ n, n &&& 7 = n % 8 := fun n => Nat.and_two_pow_sub_one_eq_mod n 3
  simp only [hmod] at halign
  exact (entryFrom_inside rfl rfl (by omega) halign.1.1.2 hhead _ 0 htail halign.2).imp
    fun r hr => ⟨hr.1, fun e he => ⟨map, rfl, hr.2 e he⟩⟩

end Holo.Wire
