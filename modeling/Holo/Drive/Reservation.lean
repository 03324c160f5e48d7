/-
Holo.Drive.Reservation — persistent reservations: who has registered which key, and who
holds the drive.

The operations are those of `reservation.rs`, one for each service action of PERSISTENT
RESERVE OUT.  An operation that is refused leaves the reservations as they were.

Main results:
* `owned_afterReservations`: the holder has the key it holds with registered, and no key is
  0, in every run;
* `holderRules_iff`: an operation keeps to the rules about the holder exactly when it
  is no PREEMPT that takes the drive from somebody whose key it does not name;
* `holderRules_run_iff`: the same of every step of every run;
* `registerRules_iff`: when PERSISTENT RESERVE OUT keeps to the rules about the two keys of
  a REGISTER.
-/
import Holo.Drive.Cdb
import Holo.Lib.Assoc
import Holo.Lib.Text

namespace Holo.Drive

open Lib Program Storage Tape List

/-! ## §1. The operations. -/

section

variable (initiator : String) (key : Nat) (s : ReservationState)

/-- The key an initiator has registered. -/
def keyOf (initiator : String) : Option Nat :=
  s.registrations.lookup initiator

def validateInitiator : Except TapeError Unit :=
  if trimChars initiator.toList = [] then .error (.invalidArgument "initiator id must not be empty")
  else .ok ()

def validateKey (op : String) : Except TapeError Unit :=
  if key = 0 then .error (.invalidReservationKey s!"{op} requires non-zero key") else .ok ()

/-- The registered key of an initiator is the one it has sent. -/
def checkRegistered (initiator : String) (key : Nat) (mismatch : String) : Except TapeError Unit :=
  match keyOf s initiator with
  | none => .error (.invalidReservationKey s!"initiator {initiator} has no registered key")
  | some registered =>
    if registered ≠ key then .error (.invalidReservationKey mismatch) else .ok ()

/-- Refuse with `e` unless `ok` holds. -/
def require (ok : Prop) [Decidable ok] (e : TapeError) : Except TapeError Unit :=
  if ok then .ok () else .error e

/-- `wrapping_add(1)` on the generation. -/
def nextGeneration : Nat := (s.generation + 1) % 2 ^ 32

def registerKey : Except TapeError ReservationState := do
  validateInitiator initiator
  validateKey key "register"
  return {
    generation := nextGeneration s
    registrations := setEntry s.registrations initiator key
    activeOwner := s.activeOwner
    activeKey := if s.activeOwner = some initiator then some key else s.activeKey }

def registerIgnoreExisting (serviceKey : Nat) (s : ReservationState) :
    Except TapeError ReservationState :=
  registerKey initiator serviceKey s

/-- The holder an operation has to leave alone. -/
def checkOwner (initiator : String) : Except TapeError Unit :=
  match s.activeOwner with
  | none => .ok ()
  | some owner =>
    if owner = initiator then .ok ()
    else .error (.reservationConflict s!"reservation owner is {owner}")

def reserveKey : Except TapeError ReservationState := do
  validateInitiator initiator
  validateKey key "reserve"
  checkRegistered s initiator key s!"reserve key mismatch for initiator {initiator}"
  checkOwner s initiator
  return {
    generation := nextGeneration s
    registrations := s.registrations
    activeOwner := some initiator
    activeKey := some key }

def preemptKey (key serviceKey : Nat) (s : ReservationState) :
    Except TapeError ReservationState := do
  validateInitiator initiator
  validateKey key "preempt"
  validateKey serviceKey "preempt service"
  checkRegistered s initiator key s!"preempt key mismatch for initiator {initiator}"
  -- whoever holds the drive, and with whatever key, it is the initiator's now
  return {
    generation := nextGeneration s
    registrations := s.registrations.filter fun r => decide (r.1 = initiator ∨ r.2 ≠ serviceKey)
    activeOwner := some initiator
    activeKey := some key }

def registerAndMoveKey (key serviceKey : Nat) (targetInitiator : String)
    (unregisterSource : Bool) (s : ReservationState) : Except TapeError ReservationState := do
  validateInitiator initiator
  validateInitiator targetInitiator
  validateKey key "register and move"
  validateKey serviceKey "register and move service"
  require (initiator ≠ targetInitiator)
    (.invalidArgument "register and move target must differ from source")
  checkRegistered s initiator key s!"register and move key mismatch for initiator {initiator}"
  require (s.activeOwner = some initiator)
    (.invalidReservationKey "register and move requires source reservation owner")
  let inserted := setEntry s.registrations targetInitiator serviceKey
  return {
    generation := nextGeneration s
    registrations := if unregisterSource then dropEntry inserted initiator else inserted
    activeOwner := some targetInitiator
    activeKey := some serviceKey }

def releaseKey : Except TapeError ReservationState := do
  validateInitiator initiator
  validateKey key "release"
  match s.activeOwner with
  | none => throw (.invalidReservationRelease "no active reservation")
  | some owner =>
    if owner ≠ initiator then throw (.reservationConflict s!"reservation owner is {owner}")
    else if s.activeKey ≠ some key then
      throw (.invalidReservationKey "release key does not match owner key")
    else
      return { s with generation := nextGeneration s, activeOwner := none, activeKey := none }

def clearKeys : Except TapeError ReservationState := do
  validateInitiator initiator
  validateKey key "clear"
  checkRegistered s initiator key "clear key does not match registered key"
  return {
    generation := nextGeneration s, registrations := [], activeOwner := none, activeKey := none }

end

/-- The reservation commands of `CoreCommand`. -/
inductive ReservationOp where
  | register (initiator : String) (key : Nat)
  | registerIgnore (initiator : String) (serviceKey : Nat)
  | reserve (initiator : String) (key : Nat)
  | release (initiator : String) (key : Nat)
  | clear (initiator : String) (key : Nat)
  | preempt (initiator : String) (key serviceKey : Nat)
  | registerMove (initiator : String) (key serviceKey : Nat) (targetInitiator : String)
      (unregisterSource : Bool)
  deriving Repr, DecidableEq

/-- The function of `reservation.rs` for each of them. -/
def ReservationOp.run : ReservationOp → ReservationState → Except TapeError ReservationState
  | .register initiator key => registerKey initiator key
  | .registerIgnore initiator serviceKey => registerIgnoreExisting initiator serviceKey
  | .reserve initiator key => reserveKey initiator key
  | .release initiator key => releaseKey initiator key
  | .clear initiator key => clearKeys initiator key
  | .preempt initiator key serviceKey => preemptKey initiator key serviceKey
  | .registerMove initiator key serviceKey target unregister =>
    registerAndMoveKey initiator key serviceKey target unregister

/-- The reservations after an operation; one that is refused changes nothing. -/
def ReservationOp.next (op : ReservationOp) (s : ReservationState) : ReservationState :=
  match op.run s with
  | .ok s' => s'
  | .error _ => s

/-! ## §2. What an accepted operation does. -/

variable {s s' : ReservationState} {initiator : String} {key serviceKey : Nat}
variable {op : ReservationOp}

theorem checkRegistered_ok {mismatch : String}
    (h : checkRegistered s initiator key mismatch = .ok ()) :
    keyOf s initiator = some key := by
  grind [checkRegistered]

theorem checkRegistered_ok_iff {mismatch : String} :
    checkRegistered s initiator key mismatch = .ok () ↔ keyOf s initiator = some key := by
  refine ⟨checkRegistered_ok, fun h => ?_⟩
  unfold checkRegistered
  rw [h]
  exact if_neg (not_not.mpr rfl)

theorem validateInitiator_ok_iff : validateInitiator initiator = .ok () ↔
    trimChars initiator.toList ≠ [] := by
  unfold validateInitiator
  split
  next hnil => simp [hnil]
  next hname => exact iff_of_true rfl hname

theorem validateKey_ok_iff {name : String} : validateKey key name = .ok () ↔ key ≠ 0 := by
  unfold validateKey
  split
  next hzero => simp [hzero]
  next hkey => exact iff_of_true rfl hkey

theorem validateKey_ok {name : String} (h : validateKey key name = .ok ()) : key ≠ 0 :=
  validateKey_ok_iff.mp h

variable {e : TapeError} {P : List (String × Nat) → Prop} {x : ReservationState × ReservationOp}
  {accepted : Prop} {cdb : Bytes}

theorem require_ok {ok : Prop} [Decidable ok] (h : require ok e = .ok ()) : ok := by
  unfold require at h
  split at h
  · assumption
  · cases h

theorem checkOwner_ok (h : checkOwner s initiator = .ok ()) :
    s.activeOwner = none ∨ s.activeOwner = some initiator := by
  grind [checkOwner]

theorem registerKey_ok (h : registerKey initiator key s = .ok s') :
    s'.registrations = setEntry s.registrations initiator key ∧ s'.activeOwner = s.activeOwner ∧
      s'.activeKey = (if s.activeOwner = some initiator then some key else s.activeKey) ∧
      key ≠ 0 := by
  obtain ⟨_, _, h⟩ := except_bind_eq_ok.mp h
  obtain ⟨_, hkey, h⟩ := except_bind_eq_ok.mp h
  cases h
  exact ⟨rfl, rfl, rfl, validateKey_ok hkey⟩

/-- **When a key is registered**: the initiator has a name and the key is not 0. -/
theorem registerKey_accepted_iff : (∃ s', registerKey initiator key s = .ok s') ↔
    trimChars initiator.toList ≠ [] ∧ key ≠ 0 := by
  constructor
  · intro hrun
    obtain ⟨s', h⟩ := hrun
    obtain ⟨_, hname, h⟩ := except_bind_eq_ok.mp h
    obtain ⟨_, hkey, _⟩ := except_bind_eq_ok.mp h
    exact ⟨validateInitiator_ok_iff.mp hname, validateKey_ok hkey⟩
  · intro h
    unfold registerKey
    rw [validateInitiator_ok_iff.mpr h.1, validateKey_ok_iff.mpr h.2]
    exact ⟨_, rfl⟩

theorem reserveKey_ok (h : reserveKey initiator key s = .ok s') :
    keyOf s initiator = some key ∧ (s.activeOwner = none ∨ s.activeOwner = some initiator) ∧
      s'.registrations = s.registrations ∧ s'.activeOwner = some initiator ∧
      s'.activeKey = some key := by
  obtain ⟨_, _, h⟩ := except_bind_eq_ok.mp h
  obtain ⟨_, _, h⟩ := except_bind_eq_ok.mp h
  obtain ⟨_, hkey, h⟩ := except_bind_eq_ok.mp h
  obtain ⟨_, howner, h⟩ := except_bind_eq_ok.mp h
  cases h
  exact ⟨checkRegistered_ok hkey, checkOwner_ok howner, rfl, rfl, rfl⟩

theorem preemptKey_ok (h : preemptKey initiator key serviceKey s = .ok s') :
    keyOf s initiator = some key ∧ s'.registrations =
        s.registrations.filter (fun r => decide (r.1 = initiator ∨ r.2 ≠ serviceKey)) ∧
      s'.activeOwner = some initiator ∧ s'.activeKey = some key := by
  obtain ⟨_, _, h⟩ := except_bind_eq_ok.mp h
  obtain ⟨_, _, h⟩ := except_bind_eq_ok.mp h
  obtain ⟨_, _, h⟩ := except_bind_eq_ok.mp h
  obtain ⟨_, hkey, h⟩ := except_bind_eq_ok.mp h
  cases h
  exact ⟨checkRegistered_ok hkey, rfl, rfl, rfl⟩

/-- What PREEMPT checks: the initiator has a name and has registered the first key, and none of
the two keys is 0.  Nothing is asked about the holder. -/
def PreemptAccepted (s : ReservationState) (initiator : String) (key serviceKey : Nat) : Prop :=
  trimChars initiator.toList ≠ [] ∧ key ≠ 0 ∧ serviceKey ≠ 0 ∧ keyOf s initiator = some key

theorem preemptKey_accepted_iff : (∃ s', preemptKey initiator key serviceKey s = .ok s') ↔
    PreemptAccepted s initiator key serviceKey := by
  constructor
  · intro hrun
    obtain ⟨s', h⟩ := hrun
    obtain ⟨_, hname, h⟩ := except_bind_eq_ok.mp h
    obtain ⟨_, hkey, h⟩ := except_bind_eq_ok.mp h
    obtain ⟨_, hservice, h⟩ := except_bind_eq_ok.mp h
    obtain ⟨_, hreg, _⟩ := except_bind_eq_ok.mp h
    exact ⟨validateInitiator_ok_iff.mp hname, validateKey_ok hkey, validateKey_ok hservice,
      checkRegistered_ok hreg⟩
  · intro h
    obtain ⟨hname, hkey, hservice, hreg⟩ := h
    unfold preemptKey
    rw [validateInitiator_ok_iff.mpr hname, validateKey_ok_iff.mpr hkey,
      validateKey_ok_iff.mpr hservice, checkRegistered_ok_iff.mpr hreg]
    exact ⟨_, rfl⟩

theorem registerAndMoveKey_ok {target : String} {unregister : Bool}
    (h : registerAndMoveKey initiator key serviceKey target unregister s = .ok s') :
    initiator ≠ target ∧ keyOf s initiator = some key ∧ s.activeOwner = some initiator ∧
      s'.registrations =
        (if unregister then dropEntry (setEntry s.registrations target serviceKey) initiator
        else setEntry s.registrations target serviceKey) ∧
      s'.activeOwner = some target ∧ s'.activeKey = some serviceKey ∧ serviceKey ≠ 0 := by
  obtain ⟨_, _, h⟩ := except_bind_eq_ok.mp h
  obtain ⟨_, _, h⟩ := except_bind_eq_ok.mp h
  obtain ⟨_, _, h⟩ := except_bind_eq_ok.mp h
  obtain ⟨_, hzero, h⟩ := except_bind_eq_ok.mp h
  obtain ⟨_, hne, h⟩ := except_bind_eq_ok.mp h
  obtain ⟨_, hkey, h⟩ := except_bind_eq_ok.mp h
  obtain ⟨_, howner, h⟩ := except_bind_eq_ok.mp h
  cases h
  exact ⟨require_ok hne, checkRegistered_ok hkey, require_ok howner, rfl, rfl, rfl,
    validateKey_ok hzero⟩

theorem releaseKey_ok (h : releaseKey initiator key s = .ok s') :
    s.activeOwner = some initiator ∧ s'.registrations = s.registrations ∧
      s'.activeOwner = none ∧ s'.activeKey = none := by
  obtain ⟨_, _, h⟩ := except_bind_eq_ok.mp h
  obtain ⟨_, _, h⟩ := except_bind_eq_ok.mp h
  split at h
  · cases h
  next owner howner =>
  split at h
  · cases h
  next heq =>
  split at h
  · cases h
  · cases h
    exact ⟨by rw [howner, not_not.mp heq], rfl, rfl, rfl⟩

theorem clearKeys_ok (h : clearKeys initiator key s = .ok s') :
    keyOf s initiator = some key ∧ s'.registrations = [] ∧ s'.activeOwner = none ∧
      s'.activeKey = none := by
  obtain ⟨_, _, h⟩ := except_bind_eq_ok.mp h
  obtain ⟨_, _, h⟩ := except_bind_eq_ok.mp h
  obtain ⟨_, hkey, h⟩ := except_bind_eq_ok.mp h
  cases h
  exact ⟨checkRegistered_ok hkey, rfl, rfl, rfl⟩

/-! ## §3. The holder is registered. -/

/-- The holder has the key it holds with registered; without a holder there is no such key. -/
def Held (s : ReservationState) : Prop :=
  (s.activeOwner = none ∧ s.activeKey = none) ∨
    ∃ owner key, s.activeOwner = some owner ∧ s.activeKey = some key ∧ keyOf s owner = some key

theorem Held.run (h : Held s) (hrun : op.run s = .ok s') : Held s' := by
  cases op with
  | register initiator key | registerIgnore initiator key =>
    obtain ⟨hregs, howner, hkey, _⟩ := registerKey_ok hrun
    obtain ⟨hnone, hnokey⟩ | ⟨owner, held, hholds, hheld, hreg⟩ := h
    · refine .inl ⟨howner.trans hnone, ?_⟩
      rw [hkey, hnone, if_neg (by simp), hnokey]
    -- the holder's new key becomes the one it holds with
    by_cases heq : owner = initiator
    · subst heq
      refine .inr ⟨owner, key, howner.trans hholds, ?_, ?_⟩
      · rw [hkey, if_pos hholds]
      · rw [keyOf, hregs, lookup_setEntry_self]
    · refine .inr ⟨owner, held, howner.trans hholds, ?_, ?_⟩
      · rw [hkey, hholds, if_neg (by simpa using heq), hheld]
      · rw [keyOf, hregs, lookup_setEntry_of_ne heq]
        exact hreg
  | reserve initiator key =>
    obtain ⟨hreg, _, hregs, howner, hkey⟩ := reserveKey_ok hrun
    refine .inr ⟨initiator, key, howner, hkey, ?_⟩
    rw [keyOf, hregs]
    exact hreg
  | release initiator key => exact .inl (releaseKey_ok hrun).2.2
  | clear initiator key => exact .inl (clearKeys_ok hrun).2.2
  | preempt initiator key serviceKey =>
    obtain ⟨hreg, hregs, howner, hkey⟩ := preemptKey_ok hrun
    refine .inr ⟨initiator, key, howner, hkey, ?_⟩
    -- the initiator's own registration survives, whatever key it names
    rw [keyOf, hregs, lookup_filter_of_key (fun v => by simp)]
    exact hreg
  | registerMove initiator key serviceKey target unregister =>
    obtain ⟨hne, _, _, hregs, howner, hkey, _⟩ := registerAndMoveKey_ok hrun
    refine .inr ⟨target, serviceKey, howner, hkey, ?_⟩
    rw [keyOf, hregs]
    cases unregister with
    | false => exact lookup_setEntry_self _ _ _
    | true => exact (lookup_dropEntry_of_ne hne.symm _).trans (lookup_setEntry_self _ _ _)

/-- No initiator has registered the key 0. -/
def NonzeroKeys (s : ReservationState) : Prop := ∀ r ∈ s.registrations, r.2 ≠ 0

/-- **What is kept when registrations are set and dropped**, every operation keeps. -/
theorem registrations_run (hnil : P [])
    (hfilter : ∀ {l} (p : String × Nat → Bool), P l → P (l.filter p))
    (hset : ∀ {l} initiator {key}, key ≠ 0 → P l → P (setEntry l initiator key))
    (h : P s.registrations) (hrun : op.run s = .ok s') : P s'.registrations := by
  cases op with
  | register initiator key | registerIgnore initiator key =>
    obtain ⟨hregs, _, _, hkey⟩ := registerKey_ok hrun
    rw [hregs]
    exact hset _ hkey h
  | reserve initiator key =>
    rw [(reserveKey_ok hrun).2.2.1]
    exact h
  | release initiator key =>
    rw [(releaseKey_ok hrun).2.1]
    exact h
  | clear initiator key =>
    rw [(clearKeys_ok hrun).2.1]
    exact hnil
  | preempt initiator key serviceKey =>
    rw [(preemptKey_ok hrun).2.1]
    exact hfilter _ h
  | registerMove initiator key serviceKey target unregister =>
    obtain ⟨_, _, _, hregs, _, _, hkey⟩ := registerAndMoveKey_ok hrun
    rw [hregs]
    split
    · exact hfilter _ (hset _ hkey h)
    · exact hset _ hkey h

theorem NonzeroKeys.run (h : NonzeroKeys s) (hrun : op.run s = .ok s') : NonzeroKeys s' := by
  refine registrations_run (P := fun l => ∀ r ∈ l, r.2 ≠ 0) (fun _ hr => nomatch hr)
    (fun _ h r hr => h r (mem_of_mem_filter hr)) ?_ h hrun
  intro l initiator key hkey h r hr
  rcases mem_cons.mp hr with rfl | hr
  · exact hkey
  · exact h r (mem_of_mem_filter hr)

/-- What holds of the reservations at all times. -/
structure Owned (s : ReservationState) : Prop where
  /-- There is a holder exactly when there is a key it holds with. -/
  recorded : s.activeOwner.isSome = s.activeKey.isSome
  /-- The holder is registered, with the key it holds with. -/
  registered : ∀ owner, s.activeOwner = some owner →
    ∃ key, keyOf s owner = some key ∧ s.activeKey = some key
  nonzero : ∀ r ∈ s.registrations, r.2 ≠ 0

theorem Held.owned (h : Held s) (hkeys : NonzeroKeys s) : Owned s := by
  obtain ⟨howner, hkey⟩ | ⟨owner, key, howner, hkey, hreg⟩ := h
  · refine ⟨by rw [howner, hkey]; rfl, ?_, hkeys⟩
    intro owner hsome
    rw [howner] at hsome
    cases hsome
  refine ⟨by rw [howner, hkey]; rfl, ?_, hkeys⟩
  intro owner' hsome
  rw [howner] at hsome
  cases hsome
  exact ⟨key, hreg, hkey⟩

/-! ## §4. Rules about the holder. -/

/-- One entry an initiator, as in the map of the source. -/
def Keyed (s : ReservationState) : Prop := (s.registrations.map Prod.fst).Nodup

theorem Keyed.run (h : Keyed s) (hrun : op.run s = .ok s') : Keyed s' :=
  registrations_run (P := fun l => (l.map Prod.fst).Nodup) nodup_nil (fun _ => nodup_keys_filter)
    (fun _ _ _ h => nodup_keys_setEntry h _ _) h hrun

theorem Keyed.next (h : Keyed s) : Keyed (op.next s) := by
  unfold ReservationOp.next
  split
  · next hrun => exact h.run hrun
  · exact h

section

variable (s : ReservationState) (op : ReservationOp)

/-- The key the holder has registered. -/
def NamesHolder (serviceKey : Nat) : Prop :=
  ∃ owner, s.activeOwner = some owner ∧ keyOf s owner = some serviceKey

/-- The four ways in which the holder may change. -/
inductive HolderChange (s s' : ReservationState) : ReservationOp → Prop where
  /-- RESERVE by a registered initiator while nobody else holds the drive. -/
  | reserve {initiator : String} {key : Nat} : keyOf s initiator ≠ none →
      (∀ owner, s.activeOwner = some owner → owner = initiator) →
      s'.activeOwner = some initiator → HolderChange s s' (.reserve initiator key)
  /-- RELEASE by the holder. -/
  | release {initiator : String} {key : Nat} : s.activeOwner = some initiator →
      s'.activeOwner = none → HolderChange s s' (.release initiator key)
  /-- CLEAR by a registered initiator. -/
  | clear {initiator : String} {key : Nat} : keyOf s initiator ≠ none →
      s'.activeOwner = none → HolderChange s s' (.clear initiator key)
  /-- REGISTER AND MOVE by the holder, to the target it names. -/
  | registerMove {initiator target : String} {key serviceKey : Nat} {unregister : Bool} :
      s.activeOwner = some initiator → s'.activeOwner = some target →
      HolderChange s s' (.registerMove initiator key serviceKey target unregister)
  /-- PREEMPT that names the key of the holder. -/
  | preempt {initiator : String} {key serviceKey : Nat} : NamesHolder s serviceKey →
      s'.activeOwner = some initiator → HolderChange s s' (.preempt initiator key serviceKey)

/-- What an operation may do about the holder. -/
structure HolderRules (s' : ReservationState) : Prop where
  holder : s'.activeOwner = s.activeOwner ∨ HolderChange s s' op
  /-- PREEMPT with any other key takes the registrations with that key, and nothing else. -/
  preempted : ∀ initiator key serviceKey, op = .preempt initiator key serviceKey →
    op.run s = .ok s' → ¬ NamesHolder s serviceKey →
    s'.registrations = s.registrations.filter (fun r => decide (r.2 ≠ serviceKey)) ∧
      s'.activeOwner = s.activeOwner

/-- A PREEMPT that passes its checks names the key of the holder, or it is the holder's own. -/
def PreemptsNamed : Prop :=
  ∀ initiator key serviceKey, op = .preempt initiator key serviceKey →
    PreemptAccepted s initiator key serviceKey →
      NamesHolder s serviceKey ∨ s.activeOwner = some initiator

end

theorem HolderRules.refl (h : op.run s = .error e) : HolderRules s op s where
  holder := .inl rfl
  preempted := by
    intro _ _ _ _ hrun _
    rw [h] at hrun
    cases hrun

/-- An initiator whose key is another one has no registration with that key. -/
theorem filter_preempt (hkeyed : Keyed s) (hkey : keyOf s initiator ≠ some serviceKey) :
    s.registrations.filter (fun r => decide (r.1 = initiator ∨ r.2 ≠ serviceKey)) =
      s.registrations.filter (fun r => decide (r.2 ≠ serviceKey)) := by
  apply filter_congr
  intro r hr
  have hown : r.1 = initiator → r.2 ≠ serviceKey := by
    intro hi hs
    have hmem : (initiator, serviceKey) ∈ s.registrations := by
      rw [← hi, ← hs]
      exact hr
    exact hkey ((lookup_eq_some_iff_mem hkeyed).mpr hmem)
  grind

/-- An accepted operation that is no PREEMPT keeps to the rules. -/
theorem HolderRules.of_not_preempt (hrun : op.run s = .ok s')
    (hop : ∀ initiator key serviceKey, op ≠ .preempt initiator key serviceKey) :
    HolderRules s op s' := by
  refine ⟨?_, fun i k sk h => absurd h (hop i k sk)⟩
  cases op with
  | register initiator key | registerIgnore initiator key =>
    exact .inl (registerKey_ok hrun).2.1
  | reserve initiator key =>
    obtain ⟨hkey, howner, _, howner', _⟩ := reserveKey_ok hrun
    refine .inr (.reserve (by rw [hkey]; simp) ?_ howner')
    grind
  | release initiator key =>
    obtain ⟨howner, _, howner', _⟩ := releaseKey_ok hrun
    exact .inr (.release howner howner')
  | clear initiator key =>
    obtain ⟨hkey, _, howner', _⟩ := clearKeys_ok hrun
    exact .inr (.clear (by rw [hkey]; simp) howner')
  | preempt initiator key serviceKey => exact absurd rfl (hop _ _ _)
  | registerMove initiator key serviceKey target unregister =>
    obtain ⟨_, _, howner, _, howner', _⟩ := registerAndMoveKey_ok hrun
    exact .inr (.registerMove howner howner')

/-- **When an operation keeps to the rules**: unless it is a PREEMPT that takes the drive from
somebody whose key it does not name. -/
theorem holderRules_iff (hkeyed : Keyed s) (op : ReservationOp) :
    HolderRules s op (op.next s) ↔ PreemptsNamed s op := by
  unfold ReservationOp.next
  cases hrun : op.run s with
  | error e =>
    refine ⟨?_, fun _ => .refl hrun⟩
    intro _ _ _ _ heq hok
    subst heq
    obtain ⟨s', hok⟩ := preemptKey_accepted_iff.mpr hok
    exact absurd (hrun.symm.trans hok) (by simp)
  | ok s' =>
    by_cases hop : ∃ initiator key serviceKey, op = .preempt initiator key serviceKey
    swap
    · have hne : ∀ initiator key serviceKey, op ≠ .preempt initiator key serviceKey :=
        fun i k sk h => hop ⟨i, k, sk, h⟩
      exact ⟨fun _ i k sk h => absurd h (hne i k sk), fun _ => .of_not_preempt hrun hne⟩
    obtain ⟨initiator, key, serviceKey, rfl⟩ := hop
    obtain ⟨_, hregs, howner, _⟩ := preemptKey_ok hrun
    constructor
    · intro hrules i k sk heq _
      cases heq
      by_cases hnames : NamesHolder s serviceKey
      · exact .inl hnames
      · have hkept := (hrules.preempted _ _ _ rfl hrun hnames).2
        exact .inr (hkept.symm.trans howner)
    intro hnamed
    rcases hnamed _ _ _ rfl (preemptKey_accepted_iff.mp ⟨s', hrun⟩) with hnames | hholds
    · refine ⟨.inr (.preempt hnames howner), ?_⟩
      simp [hnames]
    -- the holder itself: its registration stays, it does not name its own key
    refine ⟨.inl (howner.trans hholds.symm), ?_⟩
    intro _ _ _ heq _ hnot
    cases heq
    have hkey : keyOf s initiator ≠ some serviceKey := fun h => hnot ⟨initiator, hholds, h⟩
    exact ⟨hregs.trans (filter_preempt hkeyed hkey), howner.trans hholds.symm⟩

/-! ## §5. Runs of operations. -/

/-- The steps of a run: the reservations before each operation. -/
def reservationSteps : ReservationState → List ReservationOp →
    List (ReservationState × ReservationOp)
  | _, [] => []
  | s, op :: ops => (s, op) :: reservationSteps (op.next s) ops

theorem Keyed.steps : ∀ {s : ReservationState} {ops : List ReservationOp}, Keyed s →
      x ∈ reservationSteps s ops → Keyed x.1
  | _, [], _, hx => absurd hx not_mem_nil
  | s, op :: ops, hs, hx => by
    rcases mem_cons.mp hx with rfl | hx
    · exact hs
    · exact Keyed.steps hs.next hx

/-- **The holder over a whole run**, from the reservations of a drive after a mount. -/
theorem holderRules_run_iff (ops : List ReservationOp) :
    (∀ x ∈ reservationSteps .default ops, HolderRules x.1 x.2 (x.2.next x.1)) ↔
      ∀ x ∈ reservationSteps .default ops, PreemptsNamed x.1 x.2 := by
  have hkeyed : Keyed .default := nodup_nil
  constructor
  · intro h x hx
    exact (holderRules_iff (hkeyed.steps hx) x.2).mp (h x hx)
  · intro h x hx
    exact (holderRules_iff (hkeyed.steps hx) x.2).mpr (h x hx)

/-- A holds the drive with key 1.  B registers key 2 and preempts key 3, which nobody has
registered: B holds the drive. -/
def preemptByStranger : List ReservationOp :=
  [.register "A" 1, .reserve "A" 1, .register "B" 2, .preempt "B" 2 3]

theorem preempt_unnamed_takes_over :
    ∃ s, (s, .preempt "B" 2 3) ∈ reservationSteps .default preemptByStranger ∧
      s.activeOwner = some "A" ∧ keyOf s "A" = some 1 ∧
      (ReservationOp.next (.preempt "B" 2 3) s).activeOwner = some "B" ∧
      ¬ HolderRules s (.preempt "B" 2 3) (ReservationOp.next (.preempt "B" 2 3) s) := by
  refine ⟨⟨3, [("B", 2), ("A", 1)], some "A", some 1⟩, by decide +kernel, rfl, rfl,
      by decide +kernel,
    ?_⟩
  intro hrules
  have hnot : ¬ NamesHolder ⟨3, [("B", 2), ("A", 1)], some "A", some 1⟩ 3 := by
    intro h
    obtain ⟨owner, howner, hkey⟩ := h
    cases howner
    cases hkey
  have hkept := (hrules.preempted "B" 2 3 rfl (by decide +kernel) hnot).2
  exact absurd hkept (by decide +kernel)

/-! ## §6. PERSISTENT RESERVE OUT. -/

/-- The ASCII letters as small letters. -/
def toAsciiLowercase (b : UInt8) : UInt8 := if 0x41 ≤ b ∧ b ≤ 0x5A then b + 0x20 else b

/-- From the first window that equals `pattern`, whatever the case of the letters. -/
def fromWindow (pattern : Bytes) : Bytes → Option Bytes
  | [] => none
  | b :: bs =>
    if ((b :: bs).take pattern.length).map toAsciiLowercase = pattern.map toAsciiLowercase then
      some (b :: bs)
    else fromWindow pattern bs

/-- `parse_register_and_move_target_initiator`, for the forms of a name that are left. -/
def parseTargetInitiator (transportIds : Bytes) : List Bytes → Option String
  | [] => none
  | form :: forms =>
    match fromWindow form transportIds with
    | none => parseTargetInitiator transportIds forms
    | some candidate =>
      match textOf (candidate.takeWhile fun b => decide (b ∉ [0x00, 0x20, 0x0A, 0x0D])) with
      | none => none
      | some text =>
        let value := trimChars text.toList
        if value ≠ [] ∧ value.all (fun c => decide (0x21 ≤ c.toNat ∧ c.toNat ≤ 0x7E ∧ c ≠ '\\'))
        then some (String.ofList value)
        else parseTargetInitiator transportIds forms

def parseRegisterAndMoveTargetInitiator (params : Bytes) : Option String :=
  if params.length < 24 then none
  else parseTargetInitiator (params.drop 24) (["iqn.", "eui.", "naa."].map bytesOf)

/-- A key of the parameter list, 0 if it is cut short. -/
def parameterKey (params : Bytes) (off : Nat) : Nat :=
  if params.length < off + 8 then 0 else readBe64 params off

/-- The operation a PERSISTENT RESERVE OUT asks for, or the answer to it. -/
def reserveOutOp (cdb dataOut : Bytes) (initiator : String) : Except Reply ReservationOp :=
  let parameterListLength := readBe16 cdb 7
  if cdb.length < 9 then .error invalidFieldInCdb
  else if dataOut.length < parameterListLength then .error invalidFieldInCdb
  else
    let params := dataOut.take parameterListLength
    let reservationKey := parameterKey params 0
    let serviceKey := parameterKey params 8
    match byteAt cdb 1 &&& 0x1F with
    | 0x00 => .ok (.register initiator (if serviceKey ≠ 0 then serviceKey else reservationKey))
    | 0x01 => .ok (.reserve initiator reservationKey)
    | 0x02 => .ok (.release initiator reservationKey)
    | 0x03 => .ok (.clear initiator reservationKey)
    | 0x04 => .ok (.preempt initiator reservationKey serviceKey)
    | 0x05 => .ok (.preempt initiator reservationKey serviceKey)
    | 0x06 => .ok (.registerIgnore initiator serviceKey)
    | 0x07 =>
      match parseRegisterAndMoveTargetInitiator params with
      | none => .error (.check 0x05 0x26 0x00)
      | some target =>
        .ok (.registerMove initiator reservationKey serviceKey target
          (decide (byteAt params 20 &&& 0x01 ≠ 0)))
    | _ => .error invalidFieldInCdb

/-- An operation on the reservations of the drive. -/
def runReservation (op : ReservationOp) : TapeM Unit := do
  ensureLoaded
  let s ← tapeState
  let reservations ← ofExcept (op.run s.reservationState)
  modifyTape fun s => { s with reservationState := reservations }

theorem runReservation_spec (op : ReservationOp) (t : TapeWorld) :
    wp (runReservation op) (fun _ t' => t.tape.mountState ≠ .empty ∧
        ∃ s', op.run t.tape.reservationState = .ok s' ∧
          t' = t.setTape { t.tape with reservationState := s' })
      (fun _ t' => t' = t ∧ (t.tape.mountState ≠ .empty →
        ¬ ∃ s', op.run t.tape.reservationState = .ok s')) t := by
  refine guard_ensureLoaded.bind_of_refuse (fun hno _ => ⟨rfl, fun h => absurd h hno⟩) ?_
  intro hloaded
  rw [wp_bind, wp_tapeState, wp_bind, wp_ofExcept]
  refine ⟨fun s' hs' => ⟨hloaded, s', hs', rfl⟩, fun e he => ⟨rfl, fun _ hok => ?_⟩⟩
  obtain ⟨s', hs'⟩ := hok
  rw [he] at hs'
  cases hs'

/-- The drive after some operations on its reservations. -/
def afterReservations (t : TapeWorld) (ops : List ReservationOp) : TapeWorld :=
  ops.foldl (fun t op => (runReservation op t).2) t

/-- What every accepted operation keeps holds after a run. -/
theorem afterReservations_keeps {P : ReservationState → Prop}
    (hstep : ∀ {op : ReservationOp} {s s'}, P s → op.run s = .ok s' → P s')
    (ops : List ReservationOp) : ∀ {t : TapeWorld}, P t.tape.reservationState →
      P (afterReservations t ops).tape.reservationState := by
  induction ops with
  | nil => exact id
  | cons op ops ih =>
    intro t ht
    have hnext : wp (runReservation op) (fun _ t' => P t'.tape.reservationState)
        (fun _ t' => P t'.tape.reservationState) t := by
      refine wp_mono (runReservation_spec op t) ?_ ?_
      · rintro _ _ ⟨_, s', hrun, rfl⟩
        exact hstep ht hrun
      · rintro _ _ ⟨rfl, _⟩
        exact ht
    exact ih hnext.state

/-- **The reservations of a drive** that starts with none, after any operations; and one more
that is refused changes nothing. -/
theorem owned_afterReservations {t : TapeWorld} (hnone : t.tape.reservationState = .default)
    (ops : List ReservationOp) :
    Owned (afterReservations t ops).tape.reservationState ∧
      ∀ op e t', runReservation op (afterReservations t ops) = (.error e, t') →
        t' = afterReservations t ops := by
  have hheld : Held t.tape.reservationState := by
    rw [hnone]
    exact .inl ⟨rfl, rfl⟩
  have hkeys : NonzeroKeys t.tape.reservationState := by
    rw [hnone]
    exact fun r hr => absurd hr not_mem_nil
  refine ⟨?_, fun op _ _ hrun => ((runReservation_spec op _).of_error hrun).1⟩
  exact (afterReservations_keeps Held.run ops hheld).owned
    (afterReservations_keeps NonzeroKeys.run ops hkeys)

theorem owned_blankMounted : blankMounted.tape.reservationState = .default ∧
      Owned (afterReservations blankMounted
        [.register "A" 1, .reserve "A" 1, .register "B" 1,
            .registerMove "A" 1 2 "B" true]).tape.reservationState := by
  have hnone : blankMounted.tape.reservationState = .default := by decide +kernel
  exact ⟨hnone, (owned_afterReservations hnone _).1⟩

/-- `persistent_reserve_out_drive_with_context`. -/
def persistentReserveOutDrive (cdb dataOut : Bytes) (initiator : String) : TapeM Reply :=
  match reserveOutOp cdb dataOut initiator with
  | .error reply => return reply
  | .ok op =>
    replying do
      runReservation op
      return .good []

/-! ## §7. The two keys of a REGISTER. -/

/-- A key of the parameter list of a command. -/
def listKey (cdb dataOut : Bytes) (off : Nat) : Nat :=
  parameterKey (dataOut.take (readBe16 cdb 7)) off

section

variable (s : ReservationState) (initiator : String) (reservationKey serviceKey : Nat)

/-- The one of its two keys that a REGISTER registers. -/
def keyToRegister : Nat :=
  if serviceKey ≠ 0 then serviceKey else reservationKey

/-- What a REGISTER may do to the registration of the initiator. -/
structure RegisterRules (s' : ReservationState) : Prop where
  /-- A registration changes only for the one who knows its key. -/
  known : ∀ key, keyOf s initiator = some key → keyOf s' initiator ≠ some key →
    reservationKey = key
  /-- The first registration is with the reservation key 0. -/
  first : keyOf s initiator = none → keyOf s' initiator ≠ none → reservationKey = 0
  /-- The service action key 0 takes the registration back. -/
  removed : keyOf s initiator = some reservationKey → serviceKey = 0 →
    keyOf s' initiator = none ∧ s'.activeOwner ≠ some initiator

/-- The keys of a parameter list that the drive treats by the rules. -/
structure RegistersByRule (accepted : Prop) : Prop where
  /-- The registration is not to be taken back. -/
  kept : keyOf s initiator = some reservationKey → serviceKey ≠ 0
  first : accepted → keyOf s initiator = none → reservationKey = 0
  /-- The key is the registered one, or it is registered again. -/
  known : accepted → ∀ key, keyOf s initiator = some key →
    reservationKey = key ∨ keyToRegister reservationKey serviceKey = key

end

variable {reservationKey : Nat}

/-- What a REGISTER is checked for: a cartridge is loaded, neither the CDB nor the parameter list
is cut short, the initiator has a name and the key to be registered is not 0. -/
structure RegisterAccepted (t : TapeWorld) (cdb dataOut : Bytes) (initiator : String) : Prop where
  loaded : t.tape.mountState ≠ .empty
  whole : 9 ≤ cdb.length
  list : readBe16 cdb 7 ≤ dataOut.length
  name : trimChars initiator.toList ≠ []
  key : keyToRegister (listKey cdb dataOut 0) (listKey cdb dataOut 8) ≠ 0

theorem registerRules_refused (h : ¬ accepted) :
    RegisterRules s initiator reservationKey serviceKey s ↔
      RegistersByRule s initiator reservationKey serviceKey accepted := by
  constructor
  · intro hrules
    refine ⟨fun hkey hzero => ?_, fun hacc => absurd hacc h, fun hacc => absurd hacc h⟩
    rw [(hrules.removed hkey hzero).1] at hkey
    cases hkey
  · intro hkeys
    exact ⟨fun _ hkey hne => absurd hkey hne, fun hkey hne => absurd hkey hne,
      fun hkey hzero => absurd hzero (hkeys.kept hkey)⟩

/-- One that is accepted registers the service action key, or the reservation key if that
is 0. -/
theorem registerRules_accepted (h : accepted)
    (hreg : keyOf s' initiator = some (keyToRegister reservationKey serviceKey)) :
    RegisterRules s initiator reservationKey serviceKey s' ↔
      RegistersByRule s initiator reservationKey serviceKey accepted := by
  constructor
  · intro hrules
    refine ⟨fun hkey hzero => ?_, fun _ hnone => hrules.first hnone (by rw [hreg]; simp), ?_⟩
    · rw [(hrules.removed hkey hzero).1] at hreg
      cases hreg
    · intro _ key hkey
      by_cases hsame : keyOf s' initiator = some key
      · exact .inr (Option.some.inj (hreg.symm.trans hsame))
      · exact .inl (hrules.known key hkey hsame)
  · intro hkeys
    refine ⟨?_, fun hnone _ => hkeys.first h hnone, fun hkey hzero =>
      absurd hzero (hkeys.kept hkey)⟩
    intro key hkey hne
    rcases hkeys.known h key hkey with hknown | hsame
    · exact hknown
    · exact absurd (hreg.trans (congrArg some hsame)) hne

theorem reserveOutOp_register (hop : byteAt cdb 1 &&& 0x1F = 0x00) (dataOut : Bytes)
    (initiator : String) :
    (reserveOutOp cdb dataOut initiator = .error invalidFieldInCdb ∧
        ¬ (9 ≤ cdb.length ∧ readBe16 cdb 7 ≤ dataOut.length)) ∨
      (reserveOutOp cdb dataOut initiator = .ok (.register initiator
        (keyToRegister (listKey cdb dataOut 0) (listKey cdb dataOut 8))) ∧
        9 ≤ cdb.length ∧ readBe16 cdb 7 ≤ dataOut.length) := by
  unfold reserveOutOp
  rw [hop]
  by_cases hcut : cdb.length < 9
  · exact .inl ⟨if_pos hcut, fun h => absurd h.1 (Nat.not_le.mpr hcut)⟩
  by_cases hshort : dataOut.length < readBe16 cdb 7
  · exact .inl ⟨(if_neg hcut).trans (if_pos hshort), fun h => absurd h.2 (Nat.not_le.mpr hshort)⟩
  · exact .inr ⟨(if_neg hcut).trans (if_neg hshort), Nat.not_lt.mp hcut, Nat.not_lt.mp hshort⟩

/-- **A REGISTER** that passes its checks registers one of its keys, another one changes
nothing. -/
theorem persistentReserveOutDrive_register (hop : byteAt cdb 1 &&& 0x1F = 0x00) (dataOut : Bytes)
    (initiator : String) (t : TapeWorld) :
    wp (persistentReserveOutDrive cdb dataOut initiator)
      (fun _ t' => (¬ RegisterAccepted t cdb dataOut initiator ∧ t' = t) ∨
        (RegisterAccepted t cdb dataOut initiator ∧
          keyOf t'.tape.reservationState initiator =
            some (keyToRegister (listKey cdb dataOut 0) (listKey cdb dataOut 8))))
      (fun _ _ => False) t := by
  unfold persistentReserveOutDrive
  rcases reserveOutOp_register hop dataOut initiator with ⟨heq, hcut⟩ | ⟨heq, hcdb, hlist⟩
  · rw [heq]
    exact .inl ⟨fun h => hcut ⟨h.whole, h.list⟩, rfl⟩
  rw [heq]
  refine replying_spec (wp.bind (runReservation_spec _ t) ?_ ?_)
  · rintro _ _ ⟨hloaded, s', hrun, rfl⟩
    obtain ⟨hname, hkey⟩ := registerKey_accepted_iff.mp ⟨s', hrun⟩
    refine .inr ⟨⟨hloaded, hcdb, hlist, hname, hkey⟩, ?_⟩
    show s'.registrations.lookup initiator = _
    rw [(registerKey_ok hrun).1, lookup_setEntry_self]
  · rintro _ _ ⟨rfl, hrefused⟩
    refine .inl ⟨fun h => hrefused h.loaded ?_, rfl⟩
    exact registerKey_accepted_iff.mpr ⟨h.name, h.key⟩

/-- **When a REGISTER keeps to the rules**: the drive looks at the reservation key only when the
service action key is 0, and then it registers it. -/
theorem registerRules_iff {cdb : Bytes} (hop : byteAt cdb 1 &&& 0x1F = 0x00) (dataOut : Bytes)
    (initiator : String) (t : TapeWorld) :
    RegisterRules t.tape.reservationState initiator (listKey cdb dataOut 0) (listKey cdb dataOut 8)
        (persistentReserveOutDrive cdb dataOut initiator t).2.tape.reservationState ↔
      RegistersByRule t.tape.reservationState initiator
        (listKey cdb dataOut 0) (listKey cdb dataOut 8)
        (RegisterAccepted t cdb dataOut initiator) := by
  obtain ⟨reply, t', hrun, hspec⟩ :=
    (persistentReserveOutDrive_register hop dataOut initiator t).exists_ok
  rw [hrun]
  rcases hspec with ⟨hrefused, rfl⟩ | ⟨haccepted, hreg⟩
  · exact registerRules_refused hrefused
  · exact registerRules_accepted haccepted hreg

/-- A REGISTER with these keys. -/
def registerList (reservationKey serviceKey : UInt8) : Bytes :=
  [0, 0, 0, 0, 0, 0, 0, reservationKey, 0, 0, 0, 0, 0, 0, 0, serviceKey] ++ replicate 8 0

def registerCdb : Bytes := [0x5F, 0, 0, 0, 0, 0, 0, 0, 24, 0]

/-- The drive after A has registered the key 1. -/
def registeredByA : TapeWorld :=
  (persistentReserveOutDrive registerCdb (registerList 0 1) "A" blankMounted).2

/-- A registers the key 2 instead. -/
def registeredAgain (reservationKey : UInt8) : Except TapeError Reply × TapeWorld :=
  persistentReserveOutDrive registerCdb (registerList reservationKey 2) "A" registeredByA

/-- The wrong reservation key 7 is accepted. -/
theorem register_wrong_key :
    keyOf registeredByA.tape.reservationState "A" = some 1 ∧
      (registeredAgain 7).1 = .ok (.good []) ∧
      keyOf (registeredAgain 7).2.tape.reservationState "A" = some 2 ∧
      ¬ RegisterRules registeredByA.tape.reservationState "A" 7 2
        (registeredAgain 7).2.tape.reservationState := by
  have hbefore : keyOf registeredByA.tape.reservationState "A" = some 1 := by decide +kernel
  have hafter : keyOf (registeredAgain 7).2.tape.reservationState "A" = some 2 := by
    decide +kernel
  refine ⟨hbefore, by decide +kernel, hafter, fun hrules => ?_⟩
  exact absurd (hrules.known 1 hbefore (by rw [hafter]; simp)) (by decide)

/-- With the reservation key 1 it is as the rules say. -/
theorem register_right_key : byteAt registerCdb 1 &&& 0x1F = 0x00 ∧
    RegisterRules registeredByA.tape.reservationState "A" 1 2
      (registeredAgain 1).2.tape.reservationState := by
  have hbefore : keyOf registeredByA.tape.reservationState "A" = some 1 := by decide +kernel
  have hop : byteAt registerCdb 1 &&& 0x1F = 0x00 := by decide
  have hone : listKey registerCdb (registerList 1 2) 0 = 1 := by decide +kernel
  have htwo : listKey registerCdb (registerList 1 2) 8 = 2 := by decide +kernel
  have hrules := registerRules_iff hop (registerList 1 2) "A" registeredByA
  rw [hone, htwo] at hrules
  refine ⟨hop, hrules.mpr ⟨fun _ => by decide, fun _ hnone => ?_, fun _ key hkey => ?_⟩⟩
  · rw [hbefore] at hnone
    cases hnone
  · exact .inl (Option.some.inj (hbefore.symm.trans hkey))

end Holo.Drive
