/-
Holo.Storage.SpaceSteps — the steps of an admission, and of writers.

An admission that probes has seen the free space; with each file it goes through, what it has
seen and counted covers what is promised.  When it has gone through all, the room it finds is
there.

Main results:
* `stepped_of_step`: the cases of a step;
* `GuardInv.step`: what a step keeps.
-/
import Holo.Storage.SpaceInvariant

namespace Holo.Storage.Space

open Function Lib Storage

variable {W P : Type} [DecidableEq W] {s s' : GuardState W} {careful : Prop}

/-! ## §1. The events. -/

variable {w : W} {peak i available inFlight : Nat} {counted : List Nat}

/-- A reservation of which more is consumed. -/
def Reservation.used (r : Reservation W) (bytes : Nat) : Reservation W :=
  { r with consumed := r.consumed + bytes }

variable {request : WriteRequest}

section

variable (h : GuardInv careful s)
include h

omit [DecidableEq W] in
theorem GuardInv.file_of {ph : Phase} (hph : s.phase w = ph) : FileOf s.files w ph :=
  hph ▸ h.file w

omit [DecidableEq W] in
theorem GuardInv.snapshot_of {ph : Phase} (hph : s.phase w = ph) (hcareful : careful) :
    s.Snapshot ph :=
  hph ▸ h.snapshot hcareful w

/-- `lock_exclusive` on the new file. -/
theorem GuardInv.lockFile (hph : s.phase w = .created peak i) :
    Safe careful s ((s.setFile i ((s.files i).map fun r => { r with owner := some w })).enter w
      (.held peak i)) := by
  obtain ⟨r, hr, -, hcon⟩ := h.file_of hph
  have hadm : (s.phase w).Admitting := by rw [hph]; trivial
  rw [hr, Option.map_some]
  have hsame : (s.setFile i (some { r with owner := some w })).promised = s.promised := by
    have hset := promised_setFile (h.ids i r hr) (some { r with owner := some w })
    rw [hr, amountOf_some, amountOf_some, Reservation.rest_of_unwritten hcon] at hset
    have hnew : Reservation.rest { r with owner := some w } = 0 :=
      Reservation.rest_of_unwritten hcon
    omega
  refine ⟨h.changeFile (by rw [hph]; rfl) rfl rfl (h.consumed i r hr) ?_ ?_ ?_ ?_, fun _ hm => ?_⟩
  · exact ⟨fun _ => hadm, fun _ => trivial⟩
  · exact ⟨_, update_self _ _ _, rfl, hcon⟩
  · exact fun _ w' hne => snapshot_of_not_admitting (h.others_not_admitting hadm w' hne)
  · intro hcareful
    have hsnap := h.snapshot_of hph hcareful
    show spaceReserveBytes + (s.setFile i _).promised + peak ≤ s.free
    rw [hsame]
    exact hsnap
  · show spaceReserveBytes + (s.setFile i _).promised ≤ s.free
    rw [hsame]
    exact hm

/-- The bytes of the reservation are written: **they are promised from now on**. -/
theorem GuardInv.write {peak i : Nat} (hph : s.phase w = .held peak i) :
    Safe careful s ((s.setFile i ((s.files i).map fun r => { r with content := some peak })).enter w
      (.written i)) := by
  obtain ⟨r, hr, howner, hcon⟩ := h.file_of hph
  have hadm : (s.phase w).Admitting := by rw [hph]; trivial
  have hnone : r.consumed = 0 := by
    have hle := h.consumed i r hr
    rw [hcon] at hle
    exact Nat.le_zero.mp hle
  rw [hr, Option.map_some]
  -- the file now promises its peak, for which the snapshot has room
  have hadds : (s.setFile i (some { r with content := some peak })).promised =
      s.promised + peak := by
    have hset := promised_setFile (h.ids i r hr) (some { r with content := some peak })
    rw [hr, amountOf_some, amountOf_some, Reservation.rest_of_unwritten hcon] at hset
    have hnew : Reservation.rest { r with content := some peak } = peak := by
      simp [Reservation.rest, howner, hnone]
    omega
  refine ⟨h.changeFile (by rw [hph]; rfl) howner rfl ?_ ?_ ?_ ?_ fun _ => trivial, ?_⟩
  · rw [hnone]
    exact Nat.zero_le _
  · exact ⟨fun _ => hadm, fun _ => trivial⟩
  · exact ⟨_, update_self _ _ _, howner⟩
  · exact fun _ w' hne => snapshot_of_not_admitting (h.others_not_admitting hadm w' hne)
  intro hcareful _
  have hsnap := h.snapshot_of hph hcareful
  have hsnap : spaceReserveBytes + s.promised + peak ≤ s.free := hsnap
  show spaceReserveBytes + (s.setFile i _).promised ≤ s.free
  omega

/-- **A writer consumes** what it has reserved. -/
theorem GuardInv.consume {i bytes : Nat} {r : Reservation W} (hph : s.phase w = .admitted i)
    (hr : s.files i = some r) (hwithin : r.consumed + bytes ≤ r.content.getD 0)
    (hfree : bytes ≤ s.free) :
    Safe careful s { s.setFile i (some (r.used bytes)) with free := s.free - bytes } := by
  set r' := r.used bytes
  obtain ⟨r1, hr1, howner⟩ := h.file_of hph
  rw [hr] at hr1
  cases hr1
  have hid := h.ids i r hr
  -- the space goes from the file to its writer; who counts the file counts the same bytes
  have hworse : NoWorse (fun _ => True) s
      { s.setFile i (some r') with free := s.free - bytes } := by
    have hset := promised_setFile hid (some r')
    have hrest : r.rest = r.content.getD 0 - r.consumed := by
      simp [Reservation.rest, howner]
    have hnew : r'.rest = r.content.getD 0 - (r.consumed + bytes) := by
      simp [r', Reservation.rest, Reservation.used, howner]
    rw [hr, amountOf_some, amountOf_some, hrest, hnew] at hset
    have hmargin : (s.setFile i (some r')).promised + s.free ≤
        s.promised + (s.free - bytes) := by omega
    refine ⟨hmargin, fun f _ => ?_⟩
    have hheld := heldBy_setFile hid (some r') f
    rw [hr, amountOf_some, amountOf_some] at hheld
    have hbytes : r'.held = r.held := rfl
    rw [hbytes] at hheld
    show (s.setFile i (some r')).promised + s.free + _ ≤
      s.promised + (s.free - bytes) + (s.setFile i (some r')).heldBy f
    omega
  refine ⟨?_, fun _ => hworse.keeps_margin⟩
  have hstay : (s.setFile i (some r')).enter w (.admitted i) =
      s.setFile i (some r') := by
    rw [← hph]
    exact congrArg (fun phase => GuardState.mk _ _ _ _ phase) (update_eq_self _ _)
  have hinv : GuardInv careful { (s.setFile i (some r')).enter w (.admitted i) with
      free := s.free - bytes } := by
    refine h.changeFile (by rw [hph]; rfl) howner rfl hwithin (by rw [hph])
      ⟨_, update_self _ _ _, howner⟩ (fun hcareful w' _ => ?_) fun _ => trivial
    exact (hworse.imp fun _ _ => trivial).snapshot (h.snapshot hcareful w')
  rw [hstay] at hinv
  exact hinv

/-- `create_new`. -/
theorem GuardInv.create (hph : s.phase w = .cleared peak) :
    Safe careful s
      { (s.setFile s.nextId (some ⟨none, 0, none⟩)).enter w (.created peak s.nextId) with
      nextId := s.nextId + 1 } := by
  set s' := s.setFile s.nextId (some ⟨none, 0, none⟩)
  have hadm : (s.phase w).Admitting := by rw [hph]; trivial
  -- a new file has no content, so that nothing more is promised
  have hsame : amountBelow (s.nextId + 1) (fun _ r => Reservation.rest r) s'.files = s.promised :=
    amountBelow_fresh _ _ _
  have hlt : ∀ j r, s.files j = some r → j ≠ s.nextId := fun j r hr =>
    ne_of_lt (h.ids j r hr)
  have hfiles : ∀ j, j ≠ s.nextId → s'.files j = s.files j := fun j hne => update_of_ne hne _ _
  have hnew : s'.files s.nextId = some ⟨none, 0, none⟩ := update_self _ _ _
  refine ⟨?_, fun _ hm => ?_⟩
  swap
  · show spaceReserveBytes + amountBelow (s.nextId + 1) (fun _ r => Reservation.rest r)
      s'.files ≤ s.free
    rw [hsame]
    exact hm
  refine h.next rfl (fun j r hr => ?_) ⟨_, hnew, rfl, rfl⟩
    (fun w' _ j r _ hr => (hfiles j (hlt j r hr)).trans hr) (iff_of_true trivial (h.lock w hadm))
    (fun w' _ => h.lock_iff w')
    (fun _ w' hne => snapshot_of_not_admitting (h.others_not_admitting hadm w' hne)) ?_
  · by_cases hj : j = s.nextId
    · subst hj
      obtain rfl := Option.some.inj (hnew.symm.trans hr)
      exact ⟨Nat.lt_succ_self _, le_rfl, fun w' howner => nomatch howner⟩
    have hr := (hfiles j hj).symm.trans hr
    refine ⟨Nat.lt_succ_of_lt (h.ids j r hr), h.consumed j r hr, fun w' howner => ?_⟩
    refine owns_update (h.owner j r w' hr howner) fun howns => ?_
    rw [hph] at howns
    exact howns.elim
  · intro hcareful
    have hsnap := h.snapshot_of hph hcareful
    show spaceReserveBytes + amountBelow (s.nextId + 1) (fun _ r => Reservation.rest r)
      s'.files + peak ≤ s.free
    rw [hsame]
    exact hsnap

theorem GuardInv.release (hph : s.phase w = .admitted i)
    (hunused : careful → ∀ r, s.files i = some r → r.owner = some w → s.Unscanned i →
      r.consumed = 0) :
    Harmless careful s ((s.setFile i none).enter w .idle) := by
  obtain ⟨r, hr, howner⟩ := h.file_of hph
  refine h.removeFile (fun hcareful r' hr' _ hq => ?_) fun w' => ?_
  · grind
  by_cases hww : w' = w
  · subst hww
    exact .inr ⟨update_self _ _ _, hph⟩
  · refine .inl ⟨update_of_ne hww _ _, fun hhas => hww ?_⟩
    exact h.hasFile_unique (by rw [hph]; rfl) hhas

theorem GuardInv.acquire (hph : s.phase w = .idle) (hlock : s.lock = none) :
    GuardInv careful { s.enter w (.locked request) with lock := some w } := by
  refine h.relock (fun w' _ hadm => ?_) (.inl ⟨rfl, trivial⟩) (fun i howns => ?_) trivial
    fun _ => trivial
  · rw [h.lock w' hadm] at hlock
    cases hlock
  · rw [hph] at howns
    exact howns.elim

/-- The lock of the filesystem is given back, with a reservation. -/
theorem GuardInv.finish (hph : s.phase w = .written i) :
    GuardInv careful { s.enter w (.admitted i) with lock := none } := by
  have hfile := h.file_of hph
  refine h.relock (h.others_not_admitting ?_) (.inr ⟨rfl, id⟩) (fun j howns => ?_) hfile
    fun _ => trivial
  · rw [hph]
    trivial
  · rw [hph] at howns
    exact howns

/-- What is free covers what is promised, and more: an admission that **probes** has seen it. -/
theorem GuardInv.probe (hph : s.phase w = .locked request) :
    GuardInv careful (s.enter w (.probed peak s.free)) := by
  refine h.advance ?_ trivial (fun i howns => ?_) trivial fun _ => ?_
  · rw [hph]
    trivial
  · rw [hph] at howns
    exact howns.elim
  · exact Nat.add_le_add_left s.promised_le_heldBy _

/-- The files **listed** are all there are. -/
theorem GuardInv.list {order : List Nat}
    (hph : s.phase w = .probed peak available) (horder : order.Perm s.listing) :
    GuardInv careful (s.enter w (.scanning peak available order [] 0)) := by
  have hall : (s.heldBy fun _ => true) ≤ s.heldBy fun i => decide (i ∈ order) := by
    refine amountBelow_mono fun j hj => ?_
    cases hfile : s.files j with
    | none => exact le_rfl
    | some r =>
      have hmem : j ∈ order := by
        refine horder.symm.subset (List.mem_filter.mpr ⟨List.mem_range.mpr hj, ?_⟩)
        rw [hfile]
        rfl
      rw [amountOf_some, amountOf_some, if_pos rfl, if_pos (decide_eq_true hmem)]
  refine h.advance ?_ trivial (fun i howns => ?_) trivial fun hcareful => ⟨?_, ?_⟩
  · rw [hph]
    trivial
  · rw [hph] at howns
    exact howns.elim
  · exact horder.nodup_iff.mpr (List.nodup_range.filter _)
  · have hsnap := h.snapshot_of hph hcareful
    have hsnap : available + s.promised ≤ s.free + s.heldBy fun _ => true := hsnap
    omega

/-- A file is passed: its bytes are counted, if it is live. -/
theorem GuardInv.pass {peak available i inFlight inFlight' : Nat} {todo counted counted' : List Nat}
    (hph : s.phase w = .scanning peak available (i :: todo) counted inFlight)
    (hcount : inFlight + amountOf (fun _ r => r.held) i (s.files i) ≤ inFlight') :
    GuardInv careful (s.enter w (.scanning peak available todo counted' inFlight')) := by
  have hcons := heldBy_cons_le (s := s) i todo
  refine h.advance ?_ trivial (fun j howns => ?_) trivial fun hcareful => ?_
  · rw [hph]
    trivial
  · rw [hph] at howns
    exact howns.elim
  · have hsnap := h.snapshot_of hph hcareful
    obtain ⟨hnodup, hle⟩ := hsnap
    exact ⟨hnodup.of_cons, by omega⟩

/-- **One file is scanned.** -/
theorem GuardInv.scan {todo counted : List Nat}
    (hph : s.phase w = .scanning peak available (i :: todo) counted inFlight) :
    Safe careful s (s.scanFile w peak available i todo counted inFlight) := by
  have hadm : (s.phase w).Admitting := by rw [hph]; trivial
  have hfail := h.abandon hadm fun j hj => by rw [hph] at hj; cases hj
  unfold GuardState.scanFile
  cases hfile : s.files i with
  | none => exact ⟨h.pass hph (by rw [hfile]; exact le_rfl), fun _ => id⟩
  | some r =>
    dsimp only
    cases howner : r.owner with
    | none =>
      -- who has this file would hold the lock of the filesystem
      have hno : ∀ w', ¬ (s.phase w').HasFile i := by
        intro w' hhas
        obtain ⟨r', hr', hcase⟩ := h.hasFile hhas
        obtain rfl := Option.some.inj (hfile.symm.trans hr')
        rcases hcase with hsome | ⟨-, hadm'⟩
        · rw [howner] at hsome
          cases hsome
        · obtain rfl := h.admitting_unique hadm hadm'
          rw [hph] at hhas
          exact hhas
      have hremove : Harmless careful s (s.setFile i none) := by
        refine h.removeFile (fun _ r' hr' hlive => ?_) fun w' => .inl ⟨rfl, hno w'⟩
        obtain rfl := Option.some.inj (hfile.symm.trans hr')
        rw [howner] at hlive
        cases hlive
      have hgone : (s.setFile i none).files i = none := update_self _ _ _
      exact ⟨hremove.1.pass hph (by rw [hgone]; exact le_rfl), hremove.safe.2⟩
    | some owner =>
      cases hcon : r.content with
      | none => exact hfail.safe
      | some bytes =>
        dsimp only
        by_cases hfits : inFlight + bytes ≤ u64Max
        · rw [if_pos hfits]
          have hheld : r.held = bytes := by simp [Reservation.held, howner, hcon]
          exact ⟨h.pass hph (by rw [hfile, amountOf_some, hheld]), fun _ => id⟩
        · rw [if_neg hfits]
          exact hfail.safe

end

/-- **The decision**: with every live reservation counted, the room is there. -/
theorem GuardInv.decideRoom (h : GuardInv careful s)
    (hph : s.phase w = .scanning peak available [] counted inFlight) :
    Safe careful s (s.decideRoom w peak available inFlight) := by
  have hadm : (s.phase w).Admitting := by rw [hph]; trivial
  -- nothing is left to scan
  have hnone : (s.heldBy fun i => decide (i ∈ ([] : List Nat))) = 0 := by
    refine amountBelow_eq_zero fun j _ => ?_
    cases s.files j with
    | none => rfl
    | some r => simp
  unfold GuardState.decideRoom
  by_cases hroom : inFlight + peak ≤ u64Max ∧
      ensureCapacity available (inFlight + peak) spaceReserveBytes = true
  swap
  · rw [if_neg hroom]
    exact (h.abandon hadm fun j hj => by rw [hph] at hj; cases hj).safe
  rw [if_pos hroom]
  obtain ⟨-, hcap⟩ := hroom
  have hcap := (of_decide_eq_true hcap).2
  refine ⟨h.advance hadm trivial (fun j howns => ?_) trivial fun hcareful => ?_, fun _ => id⟩
  · rw [hph] at howns
    exact howns.elim
  have hsnap := h.snapshot_of hph hcareful
  obtain ⟨-, hle⟩ := hsnap
  show spaceReserveBytes + s.promised + peak ≤ s.free
  omega

/-! ## §2. One step. -/

variable [DecidableEq P] {proc : W → P} {unit : Nat} {e : GuardEvent W P}

/-- What a step can do. -/
inductive Stepped (proc : W → P) (s : GuardState W) : GuardEvent W P → GuardState W → Prop where
  | acquire {w : W} {request : WriteRequest} (hph : s.phase w = .idle) (hlock : s.lock = none) :
      Stepped proc s (.acquire w request) { s.enter w (.locked request) with lock := some w }
  | probe {w : W} {request : WriteRequest} {peak : Nat} (hph : s.phase w = .locked request) :
      Stepped proc s (.probe w) (s.enter w (.probed peak s.free))
  | list {w : W} {peak available : Nat} {order : List Nat}
      (hph : s.phase w = .probed peak available)
      (horder : order.Perm s.listing) :
      Stepped proc s (.list w order) (s.enter w (.scanning peak available order [] 0))
  | scan {w : W} {peak available i inFlight : Nat} {todo counted : List Nat}
      (hph : s.phase w = .scanning peak available (i :: todo) counted inFlight) :
      Stepped proc s (.scan w) (s.scanFile w peak available i todo counted inFlight)
  | decide {w : W} {peak available inFlight : Nat} {counted : List Nat}
      (hph : s.phase w = .scanning peak available [] counted inFlight) :
      Stepped proc s (.decide w) (s.decideRoom w peak available inFlight)
  | create {w : W} {peak : Nat} (hph : s.phase w = .cleared peak) :
      Stepped proc s (.create w)
        { (s.setFile s.nextId (some ⟨none, 0, none⟩)).enter w (.created peak s.nextId) with
          nextId := s.nextId + 1 }
  | lockFile {w : W} {peak i : Nat} (hph : s.phase w = .created peak i) :
      Stepped proc s (.lockFile w)
        ((s.setFile i ((s.files i).map fun r => { r with owner := some w })).enter w (.held peak i))
  | write {w : W} {peak i : Nat} (hph : s.phase w = .held peak i) :
      Stepped proc s (.write w)
        ((s.setFile i ((s.files i).map fun r => { r with content := some peak })).enter w
          (.written i))
  | finish {w : W} {i : Nat} (hph : s.phase w = .written i) :
      Stepped proc s (.finish w) { s.enter w (.admitted i) with lock := none }
  | consume {w : W} {i bytes : Nat} {r : Reservation W} (hph : s.phase w = .admitted i)
      (hr : s.files i = some r) (hwithin : r.consumed + bytes ≤ r.content.getD 0)
      (hfree : bytes ≤ s.free) :
      Stepped proc s (.consume w bytes)
        { s.setFile i (some { r with consumed := r.consumed + bytes }) with
          free := s.free - bytes }
  | release {w : W} {i : Nat} (hph : s.phase w = .admitted i) :
      Stepped proc s (.release w) ((s.setFile i none).enter w .idle)
  | fail {w : W} {e : GuardEvent W P} (hadm : (s.phase w).Admitting)
      (hunwritten : ∀ i, s.phase w ≠ .written i) : Stepped proc s e (s.abandon w)
  | die {p : P} : Stepped proc s (.die p) { s.unlock (fun w => decide (proc w = p)) with
      phase := fun w => if proc w = p then .dead else s.phase w }
  | freed (bytes : Nat) : Stepped proc s (.freed bytes) { s with free := s.free + bytes }

theorem eq_of_checked {n m : Nat} (h : checked n = some m) : m = n := by
  grind [checked]

/-- **The cases of a step.** -/
theorem stepped_of_step (h : s.step proc unit e = some s') : Stepped proc s e s' := by
  cases e with
  | acquire w request =>
    simp only [GuardState.step, Option.ite_none_right_eq_some, Option.some.injEq] at h
    obtain ⟨⟨hph, hlock⟩, rfl⟩ := h
    exact .acquire hph hlock
  | probe w =>
    simp only [GuardState.step] at h
    cases hph : s.phase w with
    | locked request =>
      rw [hph] at h
      dsimp only at h
      split at h
      case h_1 available peak hfree _ =>
        cases h
        rw [eq_of_checked hfree]
        exact .probe hph
      case h_2 =>
        cases h
        refine .fail ?_ fun i hi => ?_
        · rw [hph]
          trivial
        · rw [hph] at hi
          cases hi
    | _ =>
      rw [hph] at h
      cases h
  | list w order =>
    simp only [GuardState.step] at h
    cases hph : s.phase w with
    | probed peak available =>
      rw [hph] at h
      simp only [Option.ite_none_right_eq_some, Option.some.injEq] at h
      obtain ⟨horder, rfl⟩ := h
      exact .list hph horder
    | _ =>
      rw [hph] at h
      cases h
  | scan w | decide w | create w | lockFile w | write w | finish w | release w =>
    -- each goes on from one phase, and names the constructor of its event
    simp only [GuardState.step] at h
    split at h
    case h_1 hph =>
      cases h
      constructor
      exact hph
    case h_2 => cases h
  | consume w bytes =>
    simp only [GuardState.step] at h
    split at h
    case h_1 hph =>
      split at h
      case h_1 hr =>
        simp only [Option.ite_none_right_eq_some, Option.some.injEq] at h
        obtain ⟨⟨hwithin, hfree⟩, rfl⟩ := h
        exact .consume hph hr hwithin hfree
      case h_2 => cases h
    case h_2 => cases h
  | abort w =>
    simp only [GuardState.step] at h
    cases hph : s.phase w with
    | idle | written _ | admitted _ | dead =>
      rw [hph] at h
      cases h
    | _ =>
      rw [hph] at h
      cases h
      refine .fail ?_ fun i hi => ?_
      · rw [hph]
        trivial
      · rw [hph] at hi
        cases hi
  | die p =>
    cases h
    exact .die
  | freed bytes =>
    cases h
    exact .freed bytes

/-- **A step** keeps the invariant; if writers give their reservations up in time, the margin. -/
theorem GuardInv.step (h : GuardInv careful s) (hstep : Stepped proc s e s')
    (htime : careful → InTime proc s e) : Safe careful s s' := by
  cases hstep with
  | acquire hph hlock => exact ⟨h.acquire hph hlock, fun _ => id⟩
  | probe hph => exact ⟨h.probe hph, fun _ => id⟩
  | list hph horder => exact ⟨h.list hph horder, fun _ => id⟩
  | scan hph => exact h.scan hph
  | decide hph => exact h.decideRoom hph
  | create hph => exact h.create hph
  | lockFile hph => exact h.lockFile hph
  | write hph => exact h.write hph
  | finish hph => exact ⟨h.finish hph, fun _ => id⟩
  | consume hph hr hwithin hfree => exact h.consume hph hr hwithin hfree
  | release hph => exact (h.release hph fun hcareful => htime hcareful _).safe
  | fail hadm hunwritten => exact (h.abandon hadm hunwritten).safe
  | die =>
    -- the locks of the process are gone, with or without a reservation
    refine Harmless.safe (h.unlock (fun w hw => .inr (if_pos (of_decide_eq_true hw)))
      (fun w hw => if_neg (of_decide_eq_false hw)) ?_)
    intro hcareful i r w hr howner hw
    exact htime hcareful i r w hr howner (of_decide_eq_true hw)
  | freed bytes =>
    have hworse : NoWorse (fun _ => True) s { s with free := s.free + bytes } :=
      noWorse_of_same rfl rfl (Nat.le_add_right _ _)
    refine ⟨⟨h.ids, h.owner, h.file, h.consumed, h.lock, h.holder, fun hcareful w => ?_⟩,
      fun _ => hworse.keeps_margin⟩
    exact (hworse.imp fun _ _ => trivial).snapshot (h.snapshot hcareful w)

end Holo.Storage.Space
