/-
Holo.Lib.Wire — readers of a byte stream, and what it means to read a value back.

A reader is a program whose state is the bytes that are still to come.  `Reads m bs v` says
that `m` takes exactly `bs` from the front of ANY stream that starts with them and returns `v`:
the law that makes messages one after the other decode one by one.  `Fails m bs` says that `m`
fails on every such stream, `Extends m` that what `m` has read stays read when more bytes come.

Main results:
* `Reads.bind`, `Reads.bind_fails`: readers in sequence;
* `Reads.readTimes`: a stream of messages, message by message;
* `Reads.eq_of_front`, `Fails.not_ok`: a message that is cut off is not read.
-/
import Holo.Lib.Bytes
import Holo.Lib.Program

namespace Holo.Lib

open Program List

/-! ## §1. Big-endian fields. -/

/-- `w` bytes of `n`, most significant first. -/
def beBytes (w n : Nat) : Bytes := (leBytes w n).reverse

/-- The number whose big-endian digits are the given bytes. -/
def beNat (bs : Bytes) : Nat := leNat bs.reverse

@[simp] theorem length_beBytes (w n : Nat) : (beBytes w n).length = w := by
  simp [beBytes]

variable {n : Nat} {bad : Prop}

theorem beNat_beBytes {w : Nat} (h : n < 256 ^ w) : beNat (beBytes w n) = n := by
  rw [beNat, beBytes, reverse_reverse, leNat_leBytes h]

/-! ## §2. Readers. -/

variable {ε α β : Type}

section

variable (eof : ε) (m : Program ε Bytes α) (bs : Bytes)

/-- `read_exact`: the next `n` bytes, or the failure `eof` if the stream ends before. -/
def readExact (n : Nat) : Program ε Bytes Bytes := fun bs =>
  if n ≤ bs.length then (.ok (bs.take n), bs.drop n) else (.error eof, [])

/-- The next byte, as a number. -/
def readU8 : Program ε Bytes Nat := do
  let b ← readExact eof 1
  return beNat b

/-- The next four bytes, as a big-endian number. -/
def readU32 : Program ε Bytes Nat := do
  let b ← readExact eof 4
  return beNat b

/-- A reader used a number of times. -/
def readTimes (m : Program ε Bytes α) : Nat → Program ε Bytes (List α)
  | 0 => pure []
  | n + 1 => do
    let v ← m
    let vs ← readTimes m n
    return v :: vs

/-- The reader takes exactly these bytes and returns this value. -/
def Reads (v : α) : Prop := ∀ rest, m (bs ++ rest) = (.ok v, rest)

/-- The reader fails on every stream that starts with these bytes. -/
def Fails : Prop := ∀ rest v, (m (bs ++ rest)).1 ≠ .ok v

/-- What was read stays read when more bytes come. -/
def Extends : Prop :=
  ∀ bs v rest, m bs = (.ok v, rest) → ∀ more, m (bs ++ more) = (.ok v, rest ++ more)

end

variable {m : Program ε Bytes α} {f : α → Program ε Bytes β} {bs bs' : Bytes} {a : α} {b : β}
  {e : ε}

theorem Reads.pure (v : α) : Reads (pure v : Program ε Bytes α) [] v := fun _ => rfl

/-- **Readers in sequence.** -/
theorem Reads.bind (h : Reads m bs a) (h' : Reads (f a) bs' b) : Reads (m >>= f) (bs ++ bs') b := by
  intro rest
  rw [append_assoc, run_bind_ok (h (bs' ++ rest))]
  exact h' rest

theorem Reads.bind_last (h : Reads m bs a) (h' : Reads (f a) [] b) : Reads (m >>= f) bs b := by
  have hseq := h.bind h'
  rwa [append_nil] at hseq

theorem Reads.map (h : Reads m bs a) {g : α → β} :
    Reads (m >>= fun x => Pure.pure (g x)) bs (g a) :=
  h.bind_last (Reads.pure (g a))

theorem Reads.readExact (eof : ε) (bs : Bytes) : Reads (readExact eof bs.length) bs bs := by
  intro rest
  simp [Lib.readExact]

theorem Reads.readExact_of_length (eof : ε) (h : bs.length = n) :
    Reads (Lib.readExact eof n) bs bs := by
  subst h
  exact Reads.readExact eof bs

theorem Reads.readU8 (eof : ε) (h : n < 256) : Reads (readU8 eof) [UInt8.ofNat n] n := by
  have hread := (Reads.readExact eof [UInt8.ofNat n]).map (g := beNat)
  have hval : beNat [UInt8.ofNat n] = n := beNat_beBytes (w := 1) (by omega)
  rw [hval] at hread
  exact hread

theorem Reads.readU32 (eof : ε) (h : n < 2 ^ 32) : Reads (readU32 eof) (beBytes 4 n) n := by
  have hread := (Reads.readExact_of_length eof (length_beBytes 4 n)).map (g := beNat)
  rwa [beNat_beBytes (by omega)] at hread

theorem Reads.check [Decidable bad] (h : ¬ bad) :
    Reads (check bad e : Program ε Bytes Unit) [] () := by
  intro rest
  unfold Program.check
  rw [if_neg h]
  rfl

theorem Reads.ofExcept : Reads (Program.ofExcept (.ok a) : Program ε Bytes α) [] a := fun _ => rfl

theorem Reads.bind_nil (h : Reads m [] a) (h' : Reads (f a) bs b) : Reads (m >>= f) bs b :=
  h.bind h'

/-- **A stream of messages**, message by message. -/
theorem Reads.readTimes {encode : α → Bytes} : ∀ {vs : List α}, (∀ v ∈ vs, Reads m (encode v) v) →
      Reads (readTimes m vs.length) (vs.flatMap encode) vs
  | [], _ => Reads.pure []
  | v :: vs, h => by
    have hhead := h v mem_cons_self
    have htail := Reads.readTimes fun w hw => h w (mem_cons_of_mem v hw)
    exact hhead.bind htail.map

theorem Fails.bind (h : Fails m bs) : Fails (m >>= f) (bs ++ bs') := by
  intro rest v hok
  rcases hres : (m >>= f) (bs ++ bs' ++ rest) with ⟨r, left⟩
  rw [hres] at hok
  dsimp only at hok
  subst hok
  obtain ⟨a, _, hm, _⟩ := run_bind_eq_ok hres
  rw [append_assoc] at hm
  exact h (bs' ++ rest) a (by rw [hm])

/-- **A sequence fails** where a part of it does. -/
theorem Reads.bind_fails (h : Reads m bs a) (h' : Fails (f a) bs') :
    Fails (m >>= f) (bs ++ bs') := by
  intro rest v
  rw [append_assoc, run_bind_ok (h (bs' ++ rest))]
  exact h' rest v

/-- A step that takes no bytes, before a reader that fails. -/
theorem Reads.bind_nil_fails (h : Reads m [] a) (h' : Fails (f a) bs) : Fails (m >>= f) bs :=
  h.bind_fails h'

/-- A reader before a step that takes no bytes and fails. -/
theorem Reads.bind_last_fails (h : Reads m bs a) (h' : Fails (f a) []) : Fails (m >>= f) bs := by
  have hseq := h.bind_fails h'
  rwa [append_nil] at hseq

theorem Fails.bind_nil (h : Fails m []) : Fails (m >>= f) bs :=
  h.bind

theorem Fails.check [Decidable bad] (h : bad) : Fails (check bad e : Program ε Bytes Unit) [] := by
  intro rest v
  unfold Program.check
  rw [if_pos h]
  exact fun hok => nomatch hok

theorem Fails.ofExcept : Fails (Program.ofExcept (.error e) : Program ε Bytes α) [] :=
  fun _ _ hok => nomatch hok

theorem Extends.pure (v : α) : Extends (pure v : Program ε Bytes α) := by
  intro bs w rest h more
  cases h
  rfl

theorem Extends.bind (h : Extends m) (h' : ∀ a, Extends (f a)) : Extends (m >>= f) := by
  intro bs v rest hrun more
  obtain ⟨a, mid, hm, hf⟩ := run_bind_eq_ok hrun
  rw [run_bind_ok (h bs a mid hm more)]
  exact h' a mid v rest hf more

theorem Extends.readExact (eof : ε) (n : Nat) : Extends (Lib.readExact eof n) := by
  intro bs v rest h more
  grind [Lib.readExact]

theorem Extends.readU8 (eof : ε) : Extends (readU8 eof) :=
  (Extends.readExact eof 1).bind fun _ => Extends.pure _

theorem Extends.readU32 (eof : ε) : Extends (readU32 eof) :=
  (Extends.readExact eof 4).bind fun _ => Extends.pure _

theorem Extends.ofExcept (r : Except ε α) : Extends (Program.ofExcept r) := by
  intro bs v rest h more
  cases h
  rfl

theorem Extends.check [Decidable bad] : Extends (check bad e : Program ε Bytes Unit) := by
  intro bs v rest h more
  unfold Program.check at h ⊢
  split at h
  · cases h
  · next hgood =>
    cases h
    rw [if_neg hgood]
    rfl

/-- **A message is read to its last byte**, and by no stream that ends before. -/
theorem Reads.eq_of_front (hm : Extends m) (h : Reads m bs a) {p rest : Bytes} {v : α}
    (hp : p <+: bs) (hrun : m p = (.ok v, rest)) : p = bs ∧ v = a ∧ rest = [] := by
  obtain ⟨q, rfl⟩ := hp
  have hfull := h []
  rw [append_nil, hm p v rest hrun q] at hfull
  simp_all

theorem Fails.not_ok (hm : Extends m) (h : Fails m bs) {p rest : Bytes} {v : α} (hp : p <+: bs) :
    m p ≠ (.ok v, rest) := by
  intro hrun
  obtain ⟨q, rfl⟩ := hp
  have hfull := hm p v rest hrun q
  exact h [] v (by rw [append_nil, hfull])

end Holo.Lib
