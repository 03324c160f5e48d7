/-
Holo.Lib.Program — programs that change a state and may fail, and a logic for them.

A program takes a state and returns a result or an error TOGETHER WITH the state it
reached: what was done before a failure stays done.  `wp m Q E s` says that from `s`
the program ends in `Q` if it succeeds and in `E` if it fails; with `E` an invariant it
speaks about every state in which the program can be interrupted, with `E` empty it is
total correctness.

Main results:
* `wp_bind`, `wp_pure`, `wp_throw`, `wp_check`: the rules for straight-line programs;
* `wp_mono`, `wp.bind`: consequence and sequencing with a specification;
* `wp_forEach`: the rule for a loop over a list;
* `Guard`: checks, which change nothing, and how they are put together.
-/
import Mathlib.Tactic.Common

namespace Holo.Lib

/-- A program over the state `σ` that may fail with `ε`. -/
def Program (ε σ α : Type) : Type := σ → Except ε α × σ

namespace Program

variable {ε σ α β : Type}

instance : Monad (Program ε σ) where
  pure a := fun s => (.ok a, s)
  bind m f := fun s =>
    match m s with
    | (.ok a, s') => f a s'
    | (.error e, s') => (.error e, s')

/-- Fail, keeping the state. -/
def throw (e : ε) : Program ε σ α := fun s => (.error e, s)

/-- The current state. -/
def get : Program ε σ σ := fun s => (.ok s, s)

/-- Change the state. -/
def modify (f : σ → σ) : Program ε σ Unit := fun s => (.ok (), f s)

/-- A computation that depends on no state. -/
def ofExcept (r : Except ε α) : Program ε σ α := fun s => (r, s)

/-- Run a program and keep its failure as a value. -/
def attempt (m : Program ε σ α) : Program ε σ (Except ε α) := fun s =>
  match m s with
  | (r, s') => (.ok r, s')

/-- Fail with `e` if `bad` holds. -/
def check (bad : Prop) [Decidable bad] (e : ε) : Program ε σ Unit :=
  if bad then throw e else pure ()

/-- Run a program on a part of the state, its errors renamed. -/
def zoom {τ ε' : Type} (part : τ → σ) (put : τ → σ → τ) (rename : ε → ε') (m : Program ε σ α) :
    Program ε' τ α := fun t =>
  match m (part t) with
  | (.ok a, s) => (.ok a, put t s)
  | (.error e, s) => (.error (rename e), put t s)

/-- Run a program for every element of a list, in order. -/
def forEach (l : List β) (body : β → Program ε σ Unit) : Program ε σ Unit :=
  match l with
  | [] => pure ()
  | b :: bs => do
    body b
    forEach bs body

/-! ## §1. Running. -/

@[simp] theorem run_pure (a : α) (s : σ) : (pure a : Program ε σ α) s = (.ok a, s) := rfl

@[simp] theorem run_throw (e : ε) (s : σ) : (throw e : Program ε σ α) s = (.error e, s) := rfl

@[simp] theorem run_get (s : σ) : (get : Program ε σ σ) s = (.ok s, s) := rfl

@[simp] theorem run_modify (f : σ → σ) (s : σ) : (modify f : Program ε σ Unit) s = (.ok (), f s) :=
  rfl

@[simp] theorem run_ofExcept (r : Except ε α) (s : σ) : ofExcept r s = (r, s) := rfl

theorem run_bind (m : Program ε σ α) (f : α → Program ε σ β) (s : σ) : (m >>= f) s = match m s with
      | (.ok a, s') => f a s'
      | (.error e, s') => (.error e, s') := rfl

variable {m : Program ε σ α} {f : α → Program ε σ β} {a : α} {e : ε}

theorem run_bind_ok {s s' : σ} (h : m s = (.ok a, s')) : (m >>= f) s = f a s' := by
  rw [run_bind, h]

theorem run_bind_error {s s' : σ} (h : m s = (.error e, s')) : (m >>= f) s = (.error e, s') := by
  rw [run_bind, h]

/-- A sequence that succeeds went through a success of its first part. -/
theorem run_bind_eq_ok {s s'' : σ} {b : β} (h : (m >>= f) s = (.ok b, s'')) :
    ∃ a s', m s = (.ok a, s') ∧ f a s' = (.ok b, s'') := by
  grind [run_bind]

/-! ## §2. Weakest preconditions. -/

/-- From `s`, success ends in `Q` and failure in `E`. -/
def wp (m : Program ε σ α) (Q : α → σ → Prop) (E : ε → σ → Prop) (s : σ) : Prop :=
  match m s with
  | (.ok a, s') => Q a s'
  | (.error e, s') => E e s'

variable {Q Q' : α → σ → Prop} {E E' : ε → σ → Prop} {s : σ}

@[simp] theorem wp_pure (a : α) : wp (pure a : Program ε σ α) Q E s ↔ Q a s := Iff.rfl

@[simp] theorem wp_throw (e : ε) : wp (throw e : Program ε σ α) Q E s ↔ E e s := Iff.rfl

@[simp] theorem wp_get {Q : σ → σ → Prop} : wp (get : Program ε σ σ) Q E s ↔ Q s s := Iff.rfl

@[simp] theorem wp_modify (f : σ → σ) {Q : Unit → σ → Prop} :
    wp (modify f : Program ε σ Unit) Q E s ↔ Q () (f s) := Iff.rfl

@[simp] theorem wp_bind (m : Program ε σ α) (f : α → Program ε σ β) {Q : β → σ → Prop} :
    wp (m >>= f) Q E s ↔ wp m (fun a s' => wp (f a) Q E s') E s := by
  unfold wp
  rw [run_bind]
  rcases m s with ⟨a | e, s'⟩ <;> rfl

theorem wp_ofExcept {r : Except ε α} : wp (ofExcept r : Program ε σ α) Q E s ↔
      (∀ a, r = .ok a → Q a s) ∧ (∀ e, r = .error e → E e s) := by
  cases r with
  | ok | error => simp [wp]

@[simp] theorem wp_attempt {Q : Except ε α → σ → Prop} :
    wp (attempt m) Q E s ↔ wp m (fun a s' => Q (.ok a) s') (fun e s' => Q (.error e) s') s := by
  unfold wp attempt
  rcases m s with ⟨a | e, s'⟩ <;> rfl

@[simp] theorem wp_zoom {τ ε' : Type} {part : τ → σ} {put : τ → σ → τ} {rename : ε → ε'}
    {Q : α → τ → Prop} {E : ε' → τ → Prop} {t : τ} :
    wp (zoom part put rename m) Q E t ↔
      wp m (fun a s => Q a (put t s)) (fun e s => E (rename e) (put t s)) (part t) := by
  unfold wp zoom
  rcases m (part t) with ⟨a | e, s⟩ <;> rfl

@[simp] theorem wp_check {bad : Prop} [Decidable bad] {Q : Unit → σ → Prop} :
    wp (check bad e : Program ε σ Unit) Q E s ↔ (bad → E e s) ∧ (¬ bad → Q () s) := by
  unfold check
  by_cases h : bad
  · simp [h]
  · simp [h]

theorem wp_ite {c : Prop} [Decidable c] {m m' : Program ε σ α} :
    wp (if c then m else m') Q E s ↔ (c → wp m Q E s) ∧ (¬ c → wp m' Q E s) := by
  by_cases h : c
  · simp [h]
  · simp [h]

/-- **Consequence.** -/
theorem wp_mono (h : wp m Q E s) (hQ : ∀ a s', Q a s' → Q' a s') (hE : ∀ e s', E e s' → E' e s') :
    wp m Q' E' s := by
  grind [wp]

/-- The failure first, then what follows. -/
theorem wp_then (h : wp m Q E s) (hE : ∀ e s', E e s' → E' e s') (hQ : ∀ a s', Q a s' → Q' a s') :
    wp m Q' E' s := wp_mono h hQ hE

variable {R : β → σ → Prop} {s' : σ}

/-- **Sequencing**: use a specification of the first part, then continue. -/
theorem wp.bind (h : wp m Q E' s) (hQ : ∀ a s', Q a s' → wp (f a) R E s')
    (hE : ∀ e s', E' e s' → E e s') : wp (m >>= f) R E s :=
  (wp_bind m f).mpr (wp_mono h hQ hE)

theorem wp.of_ok (h : wp m Q E s) (hm : m s = (.ok a, s')) : Q a s' := by
  unfold wp at h
  rw [hm] at h
  exact h

theorem wp.of_error (h : wp m Q E s) (hm : m s = (.error e, s')) : E e s' := by
  unfold wp at h
  rw [hm] at h
  exact h

theorem wp_iff_of_ok (h : m s = (.ok a, s')) : wp m Q E s ↔ Q a s' := by
  unfold wp
  rw [h]

theorem wp.state {m : Program ε σ α} {P : σ → Prop}
    (h : wp m (fun _ s' => P s') (fun _ s' => P s') s) : P (m s).2 := by
  unfold wp at h
  split at h
  next a s' hm =>
    rw [hm]
    exact h
  next e s' hm =>
    rw [hm]
    exact h

theorem exists_run_of_isOk {m : Program ε σ α} (h : (m s).1.isOk = true) :
    ∃ a, m s = (.ok a, (m s).2) := by
  rcases hm : m s with ⟨r, s'⟩
  rw [hm] at h
  cases r with
  | ok a => exact ⟨a, rfl⟩
  | error _ => exact absurd h (by simp [Except.isOk, Except.toBool])

theorem run_eq_of_toOption (h : (m s).1.toOption = some a) : m s = (.ok a, (m s).2) := by
  rcases hm : m s with ⟨r, s'⟩
  rw [hm] at h
  cases r with
  | ok b => rw [Option.some.inj h]
  | error _ => exact absurd h (by simp [Except.toOption])

theorem run_eq_of_isOk {m : Program ε σ Unit} (h : (m s).1.isOk = true) :
    m s = (.ok (), (m s).2) := by
  obtain ⟨_, hm⟩ := exists_run_of_isOk h
  exact hm

theorem wp.exists_ok (h : wp m Q (fun _ _ => False) s) : ∃ a s', m s = (.ok a, s') ∧ Q a s' := by
  grind [wp]

theorem wp_mono_run (h : wp m Q E s) (hQ : ∀ a s', m s = (.ok a, s') → Q a s' → Q' a s')
    (hE : ∀ e s', m s = (.error e, s') → E e s' → E' e s') : wp m Q' E' s := by
  grind [wp]

/-- A specification follows from what each outcome of the run gives. -/
theorem wp_of_run (hok : ∀ a s', m s = (.ok a, s') → Q a s')
    (herr : ∀ e s', m s = (.error e, s') → E e s') : wp m Q E s := by
  grind [wp]

/-- Nothing is claimed. -/
theorem wp.and (h : wp m Q E s) (h' : wp m Q' E' s) :
    wp m (fun a s' => Q a s' ∧ Q' a s') (fun e s' => E e s' ∧ E' e s') s :=
  wp_of_run (fun _ _ hm => ⟨h.of_ok hm, h'.of_ok hm⟩)
    (fun _ _ hm => ⟨h.of_error hm, h'.of_error hm⟩)

theorem wp_true (m : Program ε σ α) : wp m (fun _ _ => True) (fun _ _ => True) s :=
  wp_of_run (fun _ _ _ => trivial) (fun _ _ _ => trivial)

variable {f : Unit → Program ε σ β} {body : β → Program ε σ Unit}

/-- **Loops**: an invariant over the elements still to come. -/
theorem wp_forEach {l : List β} (I : List β → σ → Prop) (h0 : I l s)
    (hstep : ∀ b bs s', I (b :: bs) s' → wp (body b) (fun _ t => I bs t) E s') :
    wp (forEach l body) (fun _ t => I [] t) E s := by
  induction l generalizing s with
  | nil => exact h0
  | cons b bs ih =>
    rw [forEach, wp_bind]
    exact wp_mono (hstep b bs s h0) (fun _ t ht => ih ht) (fun _ _ h => h)

/-! ## §3. Checks. -/

/-- A check: it passes exactly in the states with `P`, and changes nothing. -/
structure Guard (m : Program ε σ Unit) (P : σ → Prop) : Prop where
  pass : ∀ s, P s → m s = (.ok (), s)
  refuse : ∀ s, ¬ P s → ∃ e, m s = (.error e, s)

theorem Guard.check (bad : Prop) [Decidable bad] (e : ε) :
    Guard (Program.check bad e : Program ε σ Unit) (fun _ => ¬ bad) := by
  constructor
  · intro s hgood
    simp [Program.check, hgood]
  · intro s hbad
    exact ⟨e, by simp [Program.check, not_not.mp hbad]⟩

theorem Guard.ofExcept (r : Except ε Unit) :
    Guard (Program.ofExcept r : Program ε σ Unit) (fun _ => r = .ok ()) := by
  constructor
  · intro s hr
    rw [hr]
    rfl
  · intro s hr
    cases r with
    | ok a => exact absurd rfl hr
    | error e => exact ⟨e, rfl⟩

/-- A check that looks at the state first. -/
theorem Guard.get {g : σ → Program ε σ Unit} {P : σ → σ → Prop} (h : ∀ a, Guard (g a) (P a)) :
    Guard (Program.get >>= g) (fun s => P s s) :=
  ⟨fun s hs => (h s).pass s hs, fun s hs => (h s).refuse s hs⟩

theorem Guard.seq {m m' : Program ε σ Unit} {P P' : σ → Prop} (h : Guard m P)
    (h' : Guard m' P') : Guard (m >>= fun _ => m') (fun s => P s ∧ P' s) := by
  constructor
  · intro s hout
    obtain ⟨hs, hs'⟩ := hout
    rw [run_bind_ok (h.pass s hs)]
    exact h'.pass s hs'
  intro s hno
  by_cases hs : P s
  · rw [run_bind_ok (h.pass s hs)]
    exact h'.refuse s (fun hs' => hno ⟨hs, hs'⟩)
  · obtain ⟨e, he⟩ := h.refuse s hs
    exact ⟨e, run_bind_error he⟩

theorem Guard.forEach {P : β → σ → Prop} (h : ∀ b, Guard (body b) (P b)) (l : List β) :
    Guard (Program.forEach l body) (fun s => ∀ b ∈ l, P b s) := by
  induction l with
  | nil => exact ⟨fun s _ => rfl, fun s hno => absurd (fun b hb => absurd hb (by simp)) hno⟩
  | cons b bs ih =>
    have hseq := (h b).seq ih
    refine ⟨fun s hs => hseq.pass s ?_, fun s hno => hseq.refuse s (fun hall => hno ?_)⟩
    · exact ⟨hs b List.mem_cons_self, fun c hc => hs c (List.mem_cons_of_mem b hc)⟩
    grind

variable {P : σ → Prop}

/-- A check in front of a program that knows why it was refused. -/
theorem Guard.bind_of_refuse {m : Program ε σ Unit} (h : Guard m P) (hE : ¬ P s → ∀ e, E e s)
    (hQ : P s → wp (f ()) R E s) : wp (m >>= f) R E s := by
  by_cases hs : P s
  · have hrun := run_bind_ok (f := f) (h.pass s hs)
    grind [wp]
  obtain ⟨e, he⟩ := h.refuse s hs
  grind [run_bind_error, wp]

/-- **A check before a program**: either nothing happened, or the check passed. -/
theorem Guard.bind {m : Program ε σ Unit} (h : Guard m P) (hE : ∀ e, E e s)
    (hQ : P s → wp (f ()) R E s) : wp (m >>= f) R E s :=
  h.bind_of_refuse (fun _ => hE) hQ

theorem Guard.bind_of_pass {m : Program ε σ Unit} (h : Guard m P) (hs : P s)
    (hQ : wp (f ()) R E s) :
    wp (m >>= f) R E s :=
  h.bind_of_refuse (fun hno => absurd hs hno) fun _ => hQ

end Program

/-- A sequence of computations without a state that succeeds went through a success of its
first part. -/
theorem except_bind_eq_ok {ε α β : Type} {x : Except ε α} {f : α → Except ε β} {b : β} :
    (x >>= f) = .ok b ↔ ∃ a, x = .ok a ∧ f a = .ok b := by
  cases x with
  | error e =>
    constructor
    · intro h
      cases h
    · intro h
      obtain ⟨a, ha, _⟩ := h
      cases ha
  | ok a =>
    constructor
    · intro h
      exact ⟨a, rfl, h⟩
    · intro h
      obtain ⟨a', ha, hf⟩ := h
      cases ha
      exact hf

end Holo.Lib
