/-
Holo.Wire.Retry — whether a command that was answered with BUSY may be sent again.

Every request that is dispatched is one the handler has begun, and none is dispatched twice.
A command that ends with BUSY was not dispatched and never will be, unless it ended because the
response to a request that was sent could not be read.

Main results:
* `Inv.step`: what holds between any two steps;
* `busy_not_executed`: BUSY, and the response not lost: not dispatched, in any later state;
* `answered_executed_once`: answered, and not with BUSY: dispatched once.
-/
import Holo.Wire.Exchange

namespace Holo.Wire

open Function Lib Program Storage Tape Drive List

/-! ## §1. The invariant. -/

section

variable (peers : Peers) (s : System) (k : Connection)

/-- Where requests were dispatched. -/
def System.executedAt : List Place := s.executed.map Execution.place

/-- The data plane is at the start of a request, and what it has dispatched are requests of the
handler. -/
structure Served : Prop where
  fresh : ∀ i, s.made ≤ i → s.conn i = .fresh
  live : ∀ i, s.serving ≤ i → (s.conn i).quit = false
  consumed_le : ∀ i, (s.conn i).consumed ≤ (s.conn i).written.length
  behind : ∀ place ∈ s.executedAt, place.start < (s.conn place.conn).consumed
  nodup : s.executedAt.Nodup
  pending : ∀ i, (s.conn i).quit = false → (s.conn i).pending = [] ∨
    ∃ c request, requestOf peers.handler c = .ok request ∧
      (⟨i, (s.conn i).consumed⟩, c) ∈ s.begun ∧ (s.conn i).pending <+: c.announced peers.handler
  genuine : ∀ e ∈ s.executed, ∃ c, (e.place, c) ∈ s.begun ∧
    Reads CdbPacket.decode (c.announced peers.handler) e.packet

/-- A connection between two commands. -/
structure Resting : Prop where
  unclosed : k.closed = false
  back : k.back <+: CdbResponse.busy.frame
  idle : k.quit = false → k.pending = [] ∧ k.back = []

/-- A connection a request is written to. -/
structure Sending (c : TcmuCommand) (start : Nat) (left : Bytes) (complete : Bool) : Prop where
  unclosed : k.closed = false
  start_le : start ≤ k.written.length
  request : requestOf peers.handler c = .ok (k.written.drop start ++ left, complete)
  unfinished : left ≠ [] ∨ complete = false
  back : k.back <+: CdbResponse.busy.frame
  waiting : k.quit = false → k.consumed = start ∧ k.back = []

/-- The response is on its way, all of it unless the data plane has left the connection, and
perhaps followed by what it says when it leaves. -/
def AnsweredBy (r : CdbResponse) : Prop :=
  (k.back <+: r.frame ∧ (k.quit = false → k.back = r.frame)) ∨
    ∃ extra, extra <+: CdbResponse.busy.frame ∧ k.back = r.frame ++ extra ∧ k.quit = true

/-- What the data plane has done with a request it has not dispatched. -/
inductive Unexecuted (k : Connection) (start : Nat) : Prop where
  | waiting (hconsumed : k.consumed = start) (hback : k.back = [])
  | skipped (hconsumed : start < k.consumed) (hpending : k.pending = [])
      (hback : AnsweredBy k .busy)
  | left (hquit : k.quit = true) (hback : k.back <+: CdbResponse.busy.frame)

/-- A connection a request was written to, which was dispatched or not. -/
structure Receiving (start : Nat) (dispatched : Prop) : Prop where
  unclosed : k.closed = false
  start_lt : start < k.written.length
  executed : dispatched → (k.quit = false → k.pending = []) ∧
    ∃ r, r.Fits ∧ r.status ≠ 0x08 ∧ AnsweredBy k r
  unexecuted : ¬ dispatched → Unexecuted k start

/-- The connection the handler has, by what it does with it. -/
def InPhase : Phase → Prop
  | .idle none => True
  | .idle (some i) => i < s.made ∧ Resting (s.conn i) ∧
      ∀ b ∈ s.begun, b.1.conn = i → b.1.start < (s.conn i).written.length
  | .sending c p left complete => p.conn < s.made ∧ (p, c) ∈ s.begun ∧
      Sending peers (s.conn p.conn) c p.start left complete ∧ p ∉ s.executedAt ∧
      ∀ b ∈ s.begun, b.1.conn = p.conn → b.1.start ≤ p.start
  | .receiving c p => p.conn < s.made ∧ (p, c) ∈ s.begun ∧
      Receiving (s.conn p.conn) p.start (p ∈ s.executedAt) ∧
      ∀ b ∈ s.begun, b.1.conn = p.conn → b.1.start ≤ p.start

/-- A request that will not be dispatched. -/
structure Dead (place : Place) : Prop where
  unexecuted : place ∉ s.executedAt
  stays : (s.conn place.conn).quit = true ∨ place.start < (s.conn place.conn).consumed ∨
    (s.conn place.conn).closed = true ∧ ∀ p rest,
      nextTurn peers.maxFrameBytes (s.conn place.conn).pending ≠ .run p rest

/-- What holds between any two steps. -/
structure Inv : Prop where
  served : Served peers s
  phase : InPhase peers s s.phase
  made : ∀ b ∈ s.begun, b.1.conn < s.made
  distinct : (s.begun.map Prod.fst).Nodup
  attempted : ∀ a ∈ s.attempts, ∀ place, a.ending.place = some place → (place, a.command) ∈ s.begun
  dead : ∀ a ∈ s.attempts, a.status = .busy → a.ending.isLost = false →
    ∀ place, a.ending.place = some place → Dead peers s place

end

theorem Inv.start (peers : Peers) (t : TapeWorld) : Inv peers (.start t) where
  served :=
    { fresh := fun _ _ => rfl
      live := fun _ _ => rfl
      consumed_le := fun _ => le_refl _
      behind := fun _ h => nomatch h
      nodup := nodup_nil
      pending := fun _ _ => .inl rfl
      genuine := fun _ h => nomatch h }
  phase := trivial
  made := fun _ h => nomatch h
  distinct := nodup_nil
  attempted := fun _ h => nomatch h
  dead := fun _ h => nomatch h

/-! ## §2. Small facts. -/

variable {r : CdbResponse} {v : Received} {start : Nat} {left : Bytes}
variable {peers : Peers} {s s' : System} {k : Connection} {c : TcmuCommand} {place : Place}

theorem fits_busy : CdbResponse.busy.Fits := ⟨by decide, by decide⟩

theorem nextTurn_nil (n : Nat) : nextTurn n [] = .wait := rfl

variable {rest bs bytes : Bytes} {j : Nat} {complete : Bool} {dispatched : Prop} {e : Execution}

theorem AnsweredBy.read (hfits : r.Fits) (h : AnsweredBy k r)
    (hread : readReply c k.back = (.ok v, rest)) :
    v.status = r.status ∧ rest <+: CdbResponse.busy.frame ∧ (k.quit = false → rest = []) := by
  rcases h with ⟨hpre, _⟩ | ⟨extra, hextra, hback, hquit⟩
  · grind [readReply_of_front]
  by_cases hroom : c.copyLen r.reply.length ≤ c.buffer.length
  swap
  · have hfail := fails_reply hfits (Nat.lt_of_not_le hroom) extra v
    rw [← hback, hread] at hfail
    exact absurd rfl hfail
  have hfull := reads_reply hfits hroom extra
  grind

/-- The data plane leaves behind a response that was all there. -/
theorem AnsweredBy.hungUp (h : AnsweredBy k r) (hopen : k.quit = false)
    (hpre : bs <+: CdbResponse.busy.frame) (consumed : Nat) :
    AnsweredBy { k with consumed := consumed, back := k.back ++ bs, quit := true } r := by
  rcases h with ⟨_, hback⟩ | ⟨_, _, _, hquit⟩
  · exact .inr ⟨bs, hpre, by rw [hback hopen], rfl⟩
  · rw [hopen] at hquit
    cases hquit

theorem Delivered.answered {quit : Bool} (h : Delivered r bs quit) (hr : r.status ≠ 0x08)
    (hback : k.back = []) (consumed : Nat) :
    ∃ r' : CdbResponse, r'.Fits ∧ r'.status ≠ 0x08 ∧
      AnsweredBy { k with consumed := consumed, back := k.back ++ bs, quit := quit } r' := by
  rw [hback]
  cases h with
  | whole h =>
    obtain ⟨hfits, rfl⟩ := encode_response_iff.mp h
    exact ⟨r, hfits, hr, .inl ⟨prefix_rfl, fun _ => rfl⟩⟩
  | cut h hpre =>
    obtain ⟨hfits, rfl⟩ := encode_response_iff.mp h
    refine ⟨r, hfits, hr, .inl ⟨hpre, ?_⟩⟩
    intro hopen
    cases hopen
  | refused h =>
    -- no byte of the response is written, so that any response will do
    refine ⟨.good [], ⟨by decide, by decide⟩, by decide, .inl ⟨ nil_prefix, ?_⟩⟩
    intro hopen
    cases hopen

/-! ## §3. Steps of the handler. -/

section Handler

variable {i : Nat}

theorem conn_setConn_self : (s.setConn i k).conn i = k := by
  simp [System.setConn]

theorem conn_setConn_of_ne (h : j ≠ i) : (s.setConn i k).conn j = s.conn j := by
  simp [System.setConn, h]

theorem Served.congr (h : Served peers s) (hmade : s.made ≤ s'.made) (hconn : s'.conn = s.conn)
    (hserving : s'.serving = s.serving) (hexec : s'.executed = s.executed)
    (hbegun : s.begun ⊆ s'.begun) : Served peers s' := by
  have hat : s'.executedAt = s.executedAt := congrArg (List.map Execution.place) hexec
  refine ⟨?_, ?_, ?_, ?_, ?_, ?_, ?_⟩
  · intro i hi
    rw [hconn]
    exact h.fresh i (le_trans hmade hi)
  · rw [hserving, hconn]
    exact h.live
  · rw [hconn]
    exact h.consumed_le
  · rw [hat, hconn]
    exact h.behind
  · rw [hat]
    exact h.nodup
  · intro i
    rw [hconn]
    intro hopen
    rcases h.pending i hopen with hnil | ⟨c, request, hreq, hmem, hpre⟩
    · exact .inl hnil
    · exact .inr ⟨c, request, hreq, hbegun hmem, hpre⟩
  · rw [hexec]
    intro e he
    obtain ⟨c, hmem, hreads⟩ := h.genuine e he
    exact ⟨c, hbegun hmem, hreads⟩

theorem Dead.congr (h : Dead peers s place) (hconn : s'.conn = s.conn)
    (hexec : s'.executed = s.executed) : Dead peers s' place := by
  have hat : s'.executedAt = s.executedAt := congrArg (List.map Execution.place) hexec
  exact ⟨by rw [hat]; exact h.unexecuted, by rw [hconn]; exact h.stays⟩

/-- What the data plane has not taken is of a request that was begun. -/
def System.Owed (s : System) (peers : Peers) (i : Nat) (k : Connection) : Prop :=
  k.quit = false → k.pending = [] ∨
    ∃ c request, requestOf peers.handler c = .ok request ∧
      (⟨i, k.consumed⟩, c) ∈ s.begun ∧ k.pending <+: c.announced peers.handler

/-- A connection changes, and the data plane may go on to the next. -/
theorem Served.update (h : Served peers s) {n : Nat} (hi : i < s.made)
    (hnext : ∀ j, n ≤ j → s.serving ≤ j ∧ (j = i → k.quit = false))
    (hge : (s.conn i).consumed ≤ k.consumed) (hle : k.consumed ≤ k.written.length)
    (hpending : s.Owed peers i k) : Served peers { s.setConn i k with serving := n } := by
  refine ⟨?_, ?_, ?_, ?_, h.nodup, ?_, h.genuine⟩
  · intro j hj
    have hne : j ≠ i := fun heq => absurd hi (not_lt.mpr (heq ▸ hj))
    exact (conn_setConn_of_ne hne).trans (h.fresh j hj)
  · refine (forall_update_iff _ fun j (k : Connection) => n ≤ j → k.quit = false).mpr ⟨?_, ?_⟩
    · intro hj
      exact (hnext i hj).2 rfl
    · intro j _ hj
      exact h.live j (hnext j hj).1
  · exact (forall_update_iff _ fun _ (k : Connection) => k.consumed ≤ k.written.length).mpr
      ⟨hle, fun j _ => h.consumed_le j⟩
  · intro place hplace
    have hlt := h.behind place hplace
    show _ < ((s.setConn i k).conn place.conn).consumed
    by_cases hne : place.conn = i
    · subst hne
      rw [conn_setConn_self]
      exact lt_of_lt_of_le hlt hge
    · rw [conn_setConn_of_ne hne]
      exact hlt
  · exact (forall_update_iff _ (s.Owed peers)).mpr ⟨hpending, fun j _ => h.pending j⟩

/-- The connection of the handler changes, and the data plane has taken nothing. -/
theorem Served.setConn (h : Served peers s) (hi : i < s.made)
    (hconsumed : k.consumed = (s.conn i).consumed) (hquit : k.quit = (s.conn i).quit)
    (hle : k.consumed ≤ k.written.length) (hpending : s.Owed peers i k) :
    Served peers (s.setConn i k) := by
  refine h.update hi ?_ hconsumed.ge hle hpending
  intro j hj
  refine ⟨hj, ?_⟩
  rintro rfl
  rw [hquit]
  exact h.live j hj

theorem Served.setConn_same (h : Served peers s) (hi : i < s.made)
    (hwritten : k.written = (s.conn i).written) (hconsumed : k.consumed = (s.conn i).consumed)
    (hquit : k.quit = (s.conn i).quit) : Served peers (s.setConn i k) := by
  have hpending : k.pending = (s.conn i).pending := by
    unfold Connection.pending
    rw [hwritten, hconsumed]
  refine h.setConn hi hconsumed hquit ?_ ?_
  · rw [hconsumed, hwritten]
    exact h.consumed_le i
  · unfold System.Owed
    rw [hquit, hpending, hconsumed]
    exact h.pending i

theorem Dead.setConn (h : Dead peers s place) (hconsumed : k.consumed = (s.conn i).consumed)
    (hquit : k.quit = (s.conn i).quit)
    (hclosed : (s.conn i).closed = true → k.closed = true ∧ k.pending = (s.conn i).pending) :
    Dead peers (s.setConn i k) place := by
  refine ⟨h.unexecuted, ?_⟩
  by_cases hne : place.conn = i
  · subst hne
    rw [conn_setConn_self, hquit, hconsumed]
    rcases h.stays with hleft | hlt | ⟨hshut, hturn⟩
    · exact .inl hleft
    · exact .inr (.inl hlt)
    · rw [(hclosed hshut).2]
      exact .inr (.inr ⟨(hclosed hshut).1, hturn⟩)
  · rw [conn_setConn_of_ne hne]
    exact h.stays

variable {a : Attempt}

section

variable (h : Inv peers s)
include h

theorem Inv.ended {fd : Option Nat} (hphase : s.phase = .idle fd)
    (hplace : a.ending.place = none) : Inv peers (s.ended a fd) where
  served := h.served.congr (le_refl _) rfl rfl rfl (Subset.refl _)
  phase := by
    have hold := h.phase
    rw [hphase] at hold
    cases fd with
    | none => trivial
    | some i => exact hold
  made := h.made
  distinct := h.distinct
  attempted := by
    refine forall_mem_append.mpr ⟨h.attempted, forall_mem_singleton.mpr ?_⟩
    intro place hp
    rw [hplace] at hp
    cases hp
  dead := by
    refine forall_mem_append.mpr ⟨fun a ha hs hl place hp => ?_, forall_mem_singleton.mpr ?_⟩
    · exact (h.dead a ha hs hl place hp).congr rfl rfl
    intro _ _ place hp
    rw [hplace] at hp
    cases hp

theorem Inv.inPhase {phase : Phase} (hphase : s.phase = phase) : InPhase peers s phase :=
  hphase ▸ h.phase

theorem Inv.connect : Inv peers { s with made := s.made + 1, phase := .idle (some s.made) } where
  served := h.served.congr (Nat.le_succ _) rfl rfl rfl (Subset.refl _)
  phase := by
    have hfresh := h.served.fresh s.made (le_refl _)
    refine ⟨Nat.lt_succ_self _, ?_, ?_⟩
    · show Resting (s.conn s.made)
      rw [hfresh]
      exact ⟨rfl, nil_prefix, fun _ => ⟨rfl, rfl⟩⟩
    · intro b hb heq
      have := h.made b hb
      omega
  made := fun b hb => Nat.lt_succ_of_lt (h.made b hb)
  distinct := h.distinct
  attempted := h.attempted
  dead := fun a ha hs hl place hp => (h.dead a ha hs hl place hp).congr rfl rfl

omit h in
theorem request_ne_nil (h : requestOf peers.handler c = .ok (bytes, complete)) : bytes ≠ [] := by
  obtain ⟨_, hbytes, _⟩ := requestOf_ok h
  rw [hbytes]
  simp

theorem Inv.begin (hphase : s.phase = .idle (some i))
    (hreq : requestOf peers.handler c = .ok (bytes, complete)) :
    Inv peers { s with
        phase := .sending c ⟨i, (s.conn i).written.length⟩ bytes complete
        begun := s.begun ++ [(⟨i, (s.conn i).written.length⟩, c)] } := by
  obtain ⟨hi, hrest, hstarts⟩ := h.inPhase hphase
  refine ⟨h.served.congr (le_refl _) rfl rfl rfl (subset_append_left _ _), ?_, ?_, ?_,
    fun a ha place hp => mem_append_left _ (h.attempted a ha place hp),
    fun a ha hs hl place hp => (h.dead a ha hs hl place hp).congr rfl rfl⟩
  · refine ⟨hi, by simp, ?_, ?_, ?_⟩
    · refine ⟨hrest.unclosed, le_refl _, ?_, .inl (request_ne_nil hreq), hrest.back, ?_⟩
      · rw [drop_length, nil_append]
        exact hreq
      intro hopen
      obtain ⟨hpending, hback⟩ := hrest.idle hopen
      have hle := h.served.consumed_le i
      have hge : (s.conn i).written.length ≤ (s.conn i).consumed :=
        drop_eq_nil_iff.mp hpending
      exact ⟨le_antisymm hle hge, hback⟩
    · -- what was dispatched starts before the end of what was written
      intro hmem
      have hlt := h.served.behind _ hmem
      have hle := h.served.consumed_le i
      exact absurd hlt (not_lt.mpr hle)
    · refine forall_mem_append.mpr ⟨fun b hb heq => ?_, forall_mem_singleton.mpr fun _ => le_rfl⟩
      exact le_of_lt (hstarts b hb heq)
  · exact forall_mem_append.mpr ⟨h.made, forall_mem_singleton.mpr hi⟩
  · show ((s.begun ++ [(_, c)]).map Prod.fst).Nodup
    rw [map_append, nodup_append']
    refine ⟨h.distinct, nodup_singleton _, disjoint_singleton.mpr fun hmem => ?_⟩
    obtain ⟨b, hb, heq⟩ := mem_map.mp hmem
    have hlt := hstarts b hb (congrArg Place.conn heq)
    rw [heq] at hlt
    exact absurd hlt (lt_irrefl _)

omit h in
/-- The bytes that were written to a connection after the start of a request. -/
theorem drop_append_written (bs : Bytes) (hle : start ≤ k.written.length) :
    (k.append bs).written.drop start = k.written.drop start ++ bs :=
  drop_append_of_le_length hle

omit h in
theorem Served.append (h : Served peers s) (hi : place.conn < s.made)
    (hbegun : (place, c) ∈ s.begun)
    (hsend : Sending peers (s.conn place.conn) c place.start (bs ++ left) complete)
    (hopen : (s.conn place.conn).quit = false) :
    Served peers (s.setConn place.conn ((s.conn place.conn).append bs)) := by
  obtain ⟨hconsumed, _⟩ := hsend.waiting hopen
  refine h.setConn hi rfl rfl ?_ ?_
  · have hle := h.consumed_le place.conn
    show (s.conn place.conn).consumed ≤ ((s.conn place.conn).written ++ bs).length
    rw [length_append]
    omega
  intro _
  refine .inr ⟨c, _, hsend.request, ?_, ?_⟩
  · show (⟨place.conn, (s.conn place.conn).consumed⟩, c) ∈ s.begun
    rw [hconsumed]
    exact hbegun
  show ((s.conn place.conn).append bs).written.drop (s.conn place.conn).consumed <+: _
  rw [hconsumed, drop_append_written bs hsend.start_le]
  refine IsPrefix.trans ?_ (prefix_announced hsend.request)
  rw [← append_assoc]
  exact prefix_append _ _

omit h in
theorem Dead.append (h : Dead peers s place) (hunclosed : (s.conn i).closed = false) (bs : Bytes) :
    Dead peers (s.setConn i ((s.conn i).append bs)) place := by
  refine h.setConn rfl rfl ?_
  intro hclosed
  rw [hunclosed] at hclosed
  cases hclosed

theorem Inv.write (hphase : s.phase = .sending c place (bs ++ left) complete)
    (hopen : (s.conn place.conn).quit = false) (hmore : left ≠ [] ∨ complete = false) :
    Inv peers { s.setConn place.conn ((s.conn place.conn).append bs) with
      phase := .sending c place left complete } := by
  obtain ⟨hi, hbegun, hsend, hun, hlast⟩ := h.inPhase hphase
  refine ⟨(h.served.append hi hbegun hsend hopen).congr (le_refl _) rfl rfl rfl
    (Subset.refl _), ?_, h.made, h.distinct, h.attempted,
    fun a ha hs hl p hp => ((h.dead a ha hs hl p hp).append hsend.unclosed bs).congr rfl rfl⟩
  refine ⟨hi, hbegun, ?_, hun, hlast⟩
  show Sending peers ((s.setConn _ _).conn place.conn) c place.start left complete
  rw [conn_setConn_self]
  refine ⟨hsend.unclosed, ?_, ?_, hmore, hsend.back, hsend.waiting⟩
  · show _ ≤ ((s.conn place.conn).written ++ bs).length
    rw [length_append]
    exact Nat.le_add_right_of_le hsend.start_le
  · rw [drop_append_written bs hsend.start_le, append_assoc]
    exact hsend.request

theorem Inv.sent (hphase : s.phase = .sending c place left true)
    (hopen : (s.conn place.conn).quit = false) :
    Inv peers { s.setConn place.conn ((s.conn place.conn).append left) with
      phase := .receiving c place } := by
  obtain ⟨hi, hbegun, hsend, hun, hlast⟩ := h.inPhase hphase
  have hsend' : Sending peers (s.conn place.conn) c place.start (left ++ []) true := by
    rw [append_nil]
    exact hsend
  refine ⟨(h.served.append hi hbegun hsend' hopen).congr (le_refl _) rfl rfl rfl
    (Subset.refl _), ?_, h.made, h.distinct, h.attempted,
    fun a ha hs hl p hp => ((h.dead a ha hs hl p hp).append hsend.unclosed left).congr rfl rfl⟩
  refine ⟨hi, hbegun, ?_, hlast⟩
  show Receiving ((s.setConn _ _).conn place.conn) place.start (place ∈ s.executedAt)
  rw [conn_setConn_self]
  refine ⟨hsend.unclosed, ?_, fun hex => absurd hex hun, ?_⟩
  · have hne := request_ne_nil hsend.request
    rw [← drop_append_written left hsend.start_le] at hne
    exact Nat.lt_of_not_le fun hle => hne (drop_eq_nil_iff.mpr hle)
  · intro _
    obtain ⟨hconsumed, hback⟩ := hsend.waiting hopen
    exact .waiting hconsumed hback

omit h in
/-- **A request that is not all written** is not dispatched. -/
theorem Sending.not_run (h : Sending peers k c start left complete) (p : CdbPacket) (rest : Bytes) :
    nextTurn peers.maxFrameBytes (k.written.drop start) ≠ .run p rest := by
  intro hrun
  have hpre : k.written.drop start <+: c.announced peers.handler :=
    (prefix_append _ left).trans (prefix_announced h.request)
  obtain ⟨hfull, _, _⟩ := turn_of_front h.request hpre hrun
  have hlen := (prefix_announced h.request).length_le
  rw [← hfull, length_append] at hlen
  have hnil : left = [] := length_eq_zero_iff.mp (by omega)
  rcases h.unfinished with hmore | hshort
  · exact hmore hnil
  · have hcomplete := complete_of_announced h.request (by rw [hnil, append_nil, hfull])
    rw [hshort] at hcomplete
    cases hcomplete

theorem Inv.dropped (hi : i < s.made)
    (hbegun : ∀ p, a.ending.place = some p → (p, a.command) ∈ s.begun)
    (hnew : a.status = .busy → a.ending.isLost = false → ∀ p, a.ending.place = some p →
      Dead peers (s.disconnect i) p) : Inv peers ((s.disconnect i).ended a none) where
  served := by
    have hserved : Served peers (s.disconnect i) := h.served.setConn_same hi rfl rfl rfl
    exact hserved.congr (le_refl _) rfl rfl rfl (Subset.refl _)
  phase := trivial
  made := h.made
  distinct := h.distinct
  attempted := forall_mem_append.mpr ⟨h.attempted, forall_mem_singleton.mpr hbegun⟩
  dead := by
    refine forall_mem_append.mpr ⟨?_, forall_mem_singleton.mpr ?_⟩
    · intro a ha hs hl p hp
      have hdead : Dead peers (s.disconnect i) p :=
        (h.dead a ha hs hl p hp).setConn rfl rfl fun _ => ⟨rfl, rfl⟩
      exact hdead.congr rfl rfl
    · intro hs hl p hp
      exact (hnew hs hl p hp).congr rfl rfl

theorem Inv.writeFails (hphase : s.phase = .sending c place left complete) :
    Inv peers ((s.disconnect place.conn).ended ⟨c, .notSent place⟩ none) := by
  obtain ⟨hi, hbegun, hsend, hun, hlast⟩ := h.inPhase hphase
  refine h.dropped hi (fun p hp => Option.some.inj hp ▸ hbegun) ?_
  intro _ _ p hp
  cases hp
  refine ⟨hun, ?_⟩
  show ((s.setConn _ _).conn place.conn).quit = true ∨ _
  rw [System.disconnect, conn_setConn_self]
  cases hquit : (s.conn place.conn).quit with
  | true => exact .inl rfl
  | false =>
    refine .inr (.inr ⟨rfl, ?_⟩)
    show ∀ p rest, nextTurn _ ((s.conn place.conn).written.drop (s.conn place.conn).consumed) ≠ _
    rw [(hsend.waiting hquit).1]
    exact hsend.not_run

/-- A request whose response is lost may have been dispatched, or may be still. -/
theorem Inv.lost (hphase : s.phase = .receiving c place) (e : ReplyError) :
    Inv peers ((s.disconnect place.conn).ended ⟨c, .lost place e⟩ none) := by
  have hold := h.inPhase hphase
  refine h.dropped hold.1 (fun p hp => Option.some.inj hp ▸ hold.2.1) ?_
  intro _ hlost
  cases hlost

end

theorem Receiving.read (h : Receiving k start dispatched)
    (hread : readReply c k.back = (.ok v, rest)) :
    (v.status = 0x08 → ¬ dispatched ∧ (k.quit = true ∨ start < k.consumed)) ∧
      rest <+: CdbResponse.busy.frame ∧ (k.quit = false → k.pending = [] ∧ rest = []) := by
  by_cases hdisp : dispatched
  · obtain ⟨hpending, r, hfits, hstatus, hanswer⟩ := h.executed hdisp
    obtain ⟨hv, hrest, hnil⟩ := hanswer.read hfits hread
    exact ⟨fun hbusy => absurd (hv ▸ hbusy) hstatus, hrest,
      fun hopen => ⟨hpending hopen, hnil hopen⟩⟩
  cases h.unexecuted hdisp with
  | waiting hconsumed hback =>
    -- nothing has come back, so that nothing can be read
    have hpre : k.back <+: CdbResponse.busy.frame := by
      rw [hback]
      exact nil_prefix
    obtain ⟨hfull, _, _⟩ := readReply_of_front fits_busy hpre hread
    rw [hback] at hfull
    cases hfull
  | skipped hconsumed hpending hback =>
    obtain ⟨_, hrest, hnil⟩ := hback.read fits_busy hread
    exact ⟨fun _ => ⟨hdisp, .inr hconsumed⟩, hrest, fun hopen => ⟨hpending, hnil hopen⟩⟩
  | left hquit hback =>
    grind [readReply_of_front, fits_busy]

/-- The handler returns BUSY for a response that says so. -/
theorem busy_of_statusOf (h : statusOf c v = .busy) : v.status = 0x08 := by
  unfold statusOf at h
  split at h
  · cases h
  split at h
  · split at h
    · cases h
    · cases h
  · split at h
    · next hbusy => exact hbusy
    · cases h

theorem Inv.receive (h : Inv peers s) (hphase : s.phase = .receiving c place) {r : Received}
    (hread : readReply c (s.conn place.conn).back = (.ok r, rest)) :
    Inv peers ((s.setConn place.conn { s.conn place.conn with back := rest }).ended
      ⟨c, .answered place r⟩ (some place.conn)) := by
  obtain ⟨hi, hbegun, hrecv, hlast⟩ := h.inPhase hphase
  obtain ⟨hbusy, hrest, hidle⟩ := hrecv.read hread
  have hserved : Served peers (s.setConn place.conn { s.conn place.conn with back := rest }) :=
    h.served.setConn_same hi rfl rfl rfl
  refine ⟨hserved.congr (le_refl _) rfl rfl rfl (Subset.refl _), ?_, h.made, h.distinct,
    forall_mem_append.mpr ⟨h.attempted, forall_mem_singleton.mpr fun p hp => ?_⟩, ?_⟩
  · refine ⟨hi, ?_, ?_⟩
    · show Resting ((s.setConn _ _).conn place.conn)
      rw [conn_setConn_self]
      exact ⟨hrecv.unclosed, hrest, hidle⟩
    · intro b hb heq
      show b.1.start < ((s.setConn _ _).conn place.conn).written.length
      rw [conn_setConn_self]
      exact lt_of_le_of_lt (hlast b hb heq) hrecv.start_lt
  · exact Option.some.inj hp ▸ hbegun
  refine forall_mem_append.mpr ⟨?_, forall_mem_singleton.mpr ?_⟩
  · intro a ha hs hl p hp
    have hdead : Dead peers (s.setConn place.conn { s.conn place.conn with back := rest }) p :=
      (h.dead a ha hs hl p hp).setConn rfl rfl fun hclosed => ⟨hclosed, rfl⟩
    exact hdead.congr rfl rfl
  intro hs _ p hp
  cases hp
  -- BUSY is answered without a dispatch
  obtain ⟨hun, hstays⟩ := hbusy (busy_of_statusOf hs)
  refine ⟨hun, ?_⟩
  grind [System.ended, conn_setConn_self]

end Handler

/-! ## §4. Steps of the data plane. -/

variable {consumed : Nat} {quit : Bool}

/-- The connection after an answer of the data plane. -/
def Connection.responded (k : Connection) (consumed : Nat) (bs : Bytes) (quit : Bool) :
    Connection :=
  { k with consumed := consumed, back := k.back ++ bs, quit := quit }

theorem conn_respond_self : (s.respond consumed bs quit).conn s.serving =
    (s.conn s.serving).responded consumed bs quit := by
  simp [System.respond, System.setConn, Connection.responded]

theorem conn_respond_of_ne (h : j ≠ s.serving) :
    (s.respond consumed bs quit).conn j = s.conn j := by
  simp [System.respond, System.setConn, h]

variable {p : CdbPacket}

/-- **What is dispatched** is the whole of a request, and the only thing that was pending. -/
theorem Served.run (h : Served peers s)
    (hturn : s.turn peers = .run p rest) :
    s.taken rest = (s.conn s.serving).written.length ∧
      (s.conn s.serving).consumed < (s.conn s.serving).written.length ∧
      ∃ c, (s.here, c) ∈ s.begun ∧
        Reads CdbPacket.decode (c.announced peers.handler) p := by
  have hne : (s.conn s.serving).pending ≠ [] := by
    intro hnil
    rw [System.turn, hnil, nextTurn_nil] at hturn
    cases hturn
  rcases h.pending _ (h.live _ (le_refl _)) with hnil | ⟨c, ⟨bytes, complete⟩, hreq, hmem, hpre⟩
  · exact absurd hnil hne
  · obtain ⟨_, hrest, hreads⟩ := turn_of_front hreq hpre hturn
    refine ⟨?_, Nat.lt_of_not_le fun hle => hne (drop_eq_nil_iff.mpr hle), c, hmem, hreads⟩
    rw [hrest]
    rfl

theorem Served.respond (h : Served peers s) (hserve : s.serving < s.made)
    (hge : (s.conn s.serving).consumed ≤ consumed)
    (hle : consumed ≤ (s.conn s.serving).written.length)
    (hpending : quit = false → (s.conn s.serving).written.length ≤ consumed) :
    Served peers (s.respond consumed bs quit) := by
  refine h.update hserve ?_ hge hle fun hopen => .inl (drop_eq_nil_iff.mpr (hpending hopen))
  intro j hj
  cases quit with
  | true =>
    rw [if_pos rfl] at hj
    exact ⟨Nat.le_of_succ_le hj, fun heq => absurd hj (heq ▸ Nat.not_succ_le_self _)⟩
  | false => exact ⟨hj, fun _ => rfl⟩

theorem executedAt_append (h : s'.executed = s.executed ++ [e]) :
    s'.executedAt = s.executedAt ++ [e.place] := by
  simp [System.executedAt, h]

theorem Served.execute (h : Served peers s) {t : TapeWorld} (hnew : e.place ∉ s.executedAt)
    (hbehind : e.place.start < (s.conn e.place.conn).consumed)
    (hgenuine : ∃ c, (e.place, c) ∈ s.begun ∧
      Reads CdbPacket.decode (c.announced peers.handler) e.packet) :
    Served peers { s with tape := t, executed := s.executed ++ [e] } := by
  have hat : ({ s with tape := t, executed := s.executed ++ [e] } : System).executedAt =
      s.executedAt ++ [e.place] := executedAt_append rfl
  refine ⟨h.fresh, h.live, h.consumed_le, ?_, ?_, h.pending, ?_⟩
  · rw [hat]
    exact forall_mem_append.mpr ⟨h.behind, forall_mem_singleton.mpr hbehind⟩
  · rw [hat, nodup_append']
    exact ⟨h.nodup, nodup_singleton _, disjoint_singleton.mpr hnew⟩
  · exact forall_mem_append.mpr ⟨h.genuine, forall_mem_singleton.mpr hgenuine⟩

/-- A request that is dead is not the one that is dispatched. -/
theorem Dead.ne_run (h : Dead peers s place) (hlive : (s.conn s.serving).quit = false)
    (hturn : s.turn peers = .run p rest) :
    place ≠ s.here := by
  rintro rfl
  rcases h.stays with hquit | hlt | ⟨_, hnot⟩
  · rw [hlive] at hquit
    cases hquit
  · exact absurd hlt (lt_irrefl _)
  · exact hnot p rest hturn

theorem Dead.respond (h : Dead peers s place) (hlive : (s.conn s.serving).quit = false)
    (hge : (s.conn s.serving).consumed ≤ consumed) (hturn : quit = true ∨
      ∃ p rest, s.turn peers = .run p rest) :
    Dead peers (s.respond consumed bs quit) place := by
  refine ⟨h.unexecuted, ?_⟩
  have hstays := h.stays
  by_cases hne : place.conn = s.serving
  swap
  · rw [conn_respond_of_ne hne]
    exact hstays
  rw [hne] at hstays ⊢
  rw [conn_respond_self]
  rcases hstays with hquit | hlt | ⟨_, hnot⟩
  · rw [hlive] at hquit
    cases hquit
  · exact .inr (.inl (lt_of_lt_of_le hlt hge))
  · rcases hturn with hquit | ⟨p, rest, hrun⟩
    · exact .inl hquit
    · exact absurd hrun (hnot p rest)

/-- The connection the handler has. -/
def Phase.fd : Phase → Option Nat
  | .idle fd => fd
  | .sending _ place _ _ | .receiving _ place => some place.conn

/-- The data plane serves another connection than the one the handler has. -/
theorem InPhase.elsewhere (h : InPhase peers s s.phase) (hmade : s'.made = s.made)
    (hbegun : s'.begun = s.begun) (hconn : ∀ j, s.phase.fd = some j → s'.conn j = s.conn j)
    (hat : ∀ p : Place, s.phase.fd = some p.conn → (p ∈ s'.executedAt ↔ p ∈ s.executedAt)) :
    InPhase peers s' s.phase := by
  cases hphase : s.phase with
  | idle fd =>
    rw [hphase] at h hconn
    cases fd with
    | none => trivial
    | some i =>
      obtain ⟨hi, hrest, hstarts⟩ := h
      dsimp only [InPhase]
      rw [hmade, hbegun, hconn i rfl]
      exact ⟨hi, hrest, hstarts⟩
  | sending c place left complete =>
    rw [hphase] at h hconn hat
    obtain ⟨hi, hmem, hsend, hun, hlast⟩ := h
    dsimp only [InPhase]
    rw [hmade, hbegun, hconn _ rfl, hat place rfl]
    exact ⟨hi, hmem, hsend, hun, hlast⟩
  | receiving c place =>
    rw [hphase] at h hconn hat
    obtain ⟨hi, hmem, hrecv, hlast⟩ := h
    dsimp only [InPhase]
    rw [hmade, hbegun, hconn _ rfl, hat place rfl]
    exact ⟨hi, hmem, hrecv, hlast⟩

theorem conn_respond_of_fd (hfd : ¬ s.phase.fd = some s.serving) (hj : s.phase.fd = some j) :
    (s.respond consumed bs quit).conn j = s.conn j := by
  refine conn_respond_of_ne ?_
  rintro rfl
  exact hfd hj

theorem Resting.hungUp (h : Resting k) (hopen : k.quit = false)
    (hpre : bs <+: CdbResponse.busy.frame) : Resting (k.responded k.consumed bs true) := by
  refine ⟨h.unclosed, ?_, fun hquit => nomatch hquit⟩
  show k.back ++ bs <+: _
  rw [(h.idle hopen).2]
  exact hpre

theorem Sending.hungUp (h : Sending peers k c start left complete) (hopen : k.quit = false)
    (hpre : bs <+: CdbResponse.busy.frame) :
    Sending peers (k.responded k.consumed bs true) c start left complete := by
  refine ⟨h.unclosed, h.start_le, h.request, h.unfinished, ?_, fun hquit => nomatch hquit⟩
  show k.back ++ bs <+: _
  rw [(h.waiting hopen).2]
  exact hpre

theorem Receiving.hungUp (h : Receiving k start dispatched) (hopen : k.quit = false)
    (hpre : bs <+: CdbResponse.busy.frame) :
    Receiving (k.responded k.consumed bs true) start dispatched := by
  refine ⟨h.unclosed, h.start_lt, ?_, ?_⟩
  · intro hdisp
    obtain ⟨_, r, hfits, hstatus, hanswer⟩ := h.executed hdisp
    exact ⟨(fun hquit => nomatch hquit), r, hfits, hstatus, hanswer.hungUp hopen hpre _⟩
  intro hdisp
  cases h.unexecuted hdisp with
  | waiting hconsumed hback =>
    refine .left rfl ?_
    show k.back ++ bs <+: _
    rw [hback]
    exact hpre
  | skipped hconsumed hpending hback =>
    exact .skipped hconsumed hpending (hback.hungUp hopen hpre _)
  | left hquit hback =>
    rw [hopen] at hquit
    cases hquit

/-- The data plane leaves the connection the handler has, or another. -/
theorem InPhase.hungUp (h : InPhase peers s s.phase) (hlive : (s.conn s.serving).quit = false)
    (hpre : bs <+: CdbResponse.busy.frame) :
    InPhase peers (s.respond (s.conn s.serving).consumed bs true) s.phase := by
  by_cases hfd : s.phase.fd = some s.serving
  swap
  · exact h.elsewhere rfl rfl (fun _ => conn_respond_of_fd hfd) fun _ _ => Iff.rfl
  cases hphase : s.phase with
  | idle fd =>
    rw [hphase] at h hfd
    obtain rfl : fd = some s.serving := hfd
    obtain ⟨hi, hrest, hstarts⟩ := h
    dsimp only [InPhase]
    rw [conn_respond_self]
    exact ⟨hi, hrest.hungUp hlive hpre, hstarts⟩
  | sending c place left complete =>
    rw [hphase] at h hfd
    obtain ⟨hi, hmem, hsend, hun, hlast⟩ := h
    have hconn : place.conn = s.serving := Option.some.inj hfd
    dsimp only [InPhase]
    rw [hconn] at hi hsend hlast ⊢
    rw [conn_respond_self]
    exact ⟨hi, hmem, hsend.hungUp hlive hpre, hun, hlast⟩
  | receiving c place =>
    rw [hphase] at h hfd
    obtain ⟨hi, hmem, hrecv, hlast⟩ := h
    have hconn : place.conn = s.serving := Option.some.inj hfd
    dsimp only [InPhase]
    rw [hconn] at hi hrecv hlast ⊢
    rw [conn_respond_self]
    exact ⟨hi, hmem, hrecv.hungUp hlive hpre, hlast⟩

theorem Inv.hangUp (h : Inv peers s) (hserve : s.serving < s.made)
    (hpre : bs <+: CdbResponse.busy.frame) :
    Inv peers (s.respond (s.conn s.serving).consumed bs true) := by
  have hlive := h.served.live _ (le_refl s.serving)
  refine ⟨h.served.respond hserve (le_refl _) (h.served.consumed_le _) (fun h => nomatch h),
    h.phase.hungUp hlive hpre, h.made, h.distinct, h.attempted, ?_⟩
  intro a ha hs hl p hp
  exact (h.dead a ha hs hl p hp).respond hlive (le_refl _) (.inl rfl)

/-- **A request that is dispatched on the connection the handler has** is the one it waits for. -/
theorem InPhase.of_run (h : InPhase peers s s.phase) (hfd : s.phase.fd = some s.serving)
    (hlive : (s.conn s.serving).quit = false) (hturn : s.turn peers = .run p rest) :
    ∃ c, s.phase = .receiving c s.here ∧ s.here ∉ s.executedAt ∧
      (s.conn s.serving).back = [] := by
  have hne : (s.conn s.serving).pending ≠ [] := by
    intro hnil
    rw [System.turn, hnil, nextTurn_nil] at hturn
    cases hturn
  -- bytes are pending and make a request: the handler is not idle and has sent it all
  cases hphase : s.phase with
  | idle fd =>
    rw [hphase] at h hfd
    obtain rfl : fd = some s.serving := hfd
    exact absurd (h.2.1.idle hlive).1 hne
  | sending c place left complete =>
    rw [hphase] at h hfd
    obtain ⟨_, _, hsend, _, _⟩ := h
    have hconn : place.conn = s.serving := Option.some.inj hfd
    rw [hconn] at hsend
    rw [System.turn, Connection.pending, (hsend.waiting hlive).1] at hturn
    exact absurd hturn (hsend.not_run p rest)
  | receiving c place =>
    rw [hphase] at h hfd
    obtain ⟨_, _, hrecv, _⟩ := h
    obtain ⟨conn, start⟩ := place
    cases hfd
    by_cases hdisp : (⟨s.serving, start⟩ : Place) ∈ s.executedAt
    · exact absurd ((hrecv.executed hdisp).1 hlive) hne
    cases hrecv.unexecuted hdisp with
    | waiting hconsumed hback =>
      rw [System.here, hconsumed]
      exact ⟨c, rfl, hdisp, hback⟩
    | skipped _ hpending _ => exact absurd hpending hne
    | left hquit _ =>
      rw [hlive] at hquit
      cases hquit

theorem Inv.poisoned (h : Inv peers s) (hserve : s.serving < s.made)
    (hturn : s.turn peers = .run p rest) :
    Inv peers (s.respond (s.taken rest) CdbResponse.busy.frame false) := by
  have hlive := h.served.live _ (le_refl s.serving)
  obtain ⟨htaken, hlt, _⟩ := h.served.run hturn
  rw [htaken]
  refine ⟨h.served.respond hserve hlt.le (le_refl _) (fun _ => le_refl _), ?_, h.made,
    h.distinct, h.attempted, ?_⟩
  swap
  · intro a ha hs hl p' hp
    exact (h.dead a ha hs hl p' hp).respond hlive hlt.le (.inr ⟨p, rest, hturn⟩)
  show InPhase peers _ s.phase
  by_cases hfd : s.phase.fd = some s.serving
  swap
  · exact h.phase.elsewhere rfl rfl (fun _ => conn_respond_of_fd hfd) fun _ _ => Iff.rfl
  obtain ⟨c, hphase, hun, hback⟩ := h.phase.of_run hfd hlive hturn
  obtain ⟨hi, hmem, hrecv, hlast⟩ := h.inPhase hphase
  rw [hphase]
  refine ⟨hi, hmem, ?_, hlast⟩
  rw [conn_respond_self]
  refine ⟨hrecv.unclosed, hrecv.start_lt, fun hdisp => absurd hdisp hun, fun _ => ?_⟩
  -- the request is taken from the connection, but not dispatched
  refine .skipped hlt (drop_length) (.inl ?_)
  show (s.conn s.serving).back ++ _ <+: _ ∧ (_ → (s.conn s.serving).back ++ _ = _)
  rw [hback]
  exact ⟨prefix_rfl, fun _ => rfl⟩

theorem Inv.execute (h : Inv peers s) (hserve : s.serving < s.made)
    (hturn : s.turn peers = .run p rest)
    (hstatus : r.status ≠ 0x08) (hdeliver : Delivered r bs quit) (t : TapeWorld) :
    Inv peers { s.respond (s.taken rest) bs quit with
      tape := t
      executed := s.executed ++ [⟨s.here, p⟩] } := by
  have hlive := h.served.live _ (le_refl s.serving)
  obtain ⟨htaken, hlt, hgenuine⟩ := h.served.run hturn
  -- a request that was dispatched starts before the bytes consumed so far
  have hnew : s.here ∉ s.executedAt := by
    intro hmem
    exact absurd (h.served.behind _ hmem) (lt_irrefl _)
  rw [htaken]
  have hserved : Served peers (s.respond (s.conn s.serving).written.length bs quit) :=
    h.served.respond hserve hlt.le (le_refl _) (fun _ => le_refl _)
  refine ⟨hserved.execute hnew ?_ hgenuine, ?_, h.made, h.distinct, h.attempted, ?_⟩
  · show _ < ((s.respond _ _ _).conn s.serving).consumed
    rw [conn_respond_self]
    exact hlt
  · show InPhase peers _ s.phase
    -- either the handler waits for this very request, or it has another connection
    by_cases hfd : s.phase.fd = some s.serving
    · obtain ⟨c, hphase, _, hback⟩ := h.phase.of_run hfd hlive hturn
      obtain ⟨hi, hmem, hrecv, hlast⟩ := h.inPhase hphase
      rw [hphase]
      refine ⟨hi, hmem, ?_, hlast⟩
      show Receiving ((s.respond _ _ _).conn s.serving) _ _
      rw [conn_respond_self]
      refine ⟨hrecv.unclosed, hrecv.start_lt, fun _ => ?_, fun hun => absurd ?_ hun⟩
      · exact ⟨fun _ => drop_length, hdeliver.answered hstatus hback _⟩
      · rw [executedAt_append rfl]
        exact mem_append_right _ (mem_singleton_self _)
    · refine h.phase.elsewhere rfl rfl (fun _ => conn_respond_of_fd hfd) ?_
      intro place hplace
      rw [executedAt_append rfl, mem_append, mem_singleton]
      grind
  · intro a ha hs hl place hp
    have hold := h.dead a ha hs hl place hp
    have hdead : Dead peers (s.respond (s.conn s.serving).written.length bs quit) place :=
      hold.respond hlive hlt.le (.inr ⟨p, rest, hturn⟩)
    refine ⟨?_, hdead.stays⟩
    rw [executedAt_append rfl, mem_append, mem_singleton]
    exact not_or_intro hold.unexecuted (hold.ne_run hlive hturn)

/-- **The invariant** is kept by every step. -/
theorem Inv.step (h : Inv peers s) (hstep : Step peers s s') : Inv peers s' := by
  cases hstep with
  | refuse hphase _ | connectFails hphase _ => exact h.ended hphase rfl
  | connect _ => exact h.connect
  | begin hphase hreq => exact h.begin hphase hreq
  | write hphase hopen hmore => exact h.write hphase hopen hmore
  | sent hphase hopen => exact h.sent hphase hopen
  | writeFails hphase => exact h.writeFails hphase
  | receive hphase hread => exact h.receive hphase hread
  | receiveStops hphase _ _ | receiveFails hphase => exact h.lost hphase _
  | execute hserve hturn _ _ hanswer hdeliver =>
    exact h.execute hserve hturn hanswer.not_busy hdeliver _
  | poisoned hserve hturn => exact h.poisoned hserve hturn
  | hangUp hserve hpre => exact h.hangUp hserve hpre

theorem Step.attempts_subset (hstep : Step peers s s') : s.attempts ⊆ s'.attempts := by
  cases hstep with
  | refuse | connectFails | writeFails | receive | receiveStops | receiveFails =>
    exact subset_append_left _ _
  | connect | begin | write | sent | execute | poisoned | hangUp => exact Subset.refl _

/-! ## §5. Every run. -/

theorem Inv.run (h : Inv peers s) (hrun : Relation.ReflTransGen (Step peers) s s') :
    Inv peers s' := by
  induction hrun with
  | refl => exact h
  | tail _ hstep ih => exact ih.step hstep

theorem attempts_subset_of_run (hrun : Relation.ReflTransGen (Step peers) s s') :
    s.attempts ⊆ s'.attempts := by
  induction hrun with
  | refl => exact Subset.refl _
  | tail _ hstep ih => exact Subset.trans ih hstep.attempts_subset

/-- **A command that ends with BUSY**, other than by the loss of its response, is not dispatched
in any later state.  Every dispatch is the one of a request that was begun, no request is
dispatched twice, and every command that was sent is one request. -/
theorem busy_not_executed {peers : Peers} {t : TapeWorld} {s s' : System}
    (h : Relation.ReflTransGen (Step peers) (.start t) s)
    (h' : Relation.ReflTransGen (Step peers) s s') :
    (∀ a ∈ s.attempts, a.status = .busy → a.ending.isLost = false →
      ∀ place, a.ending.place = some place → place ∉ s'.executedAt) ∧
    (∀ a ∈ s'.attempts, ∀ place, a.ending.place = some place → (place, a.command) ∈ s'.begun) ∧
    (s'.begun.map Prod.fst).Nodup ∧ s'.executedAt.Nodup ∧
    ∀ e ∈ s'.executed, ∃ c, (e.place, c) ∈ s'.begun ∧
      Reads CdbPacket.decode (c.announced peers.handler) e.packet := by
  have hinv : Inv peers s' := ((Inv.start peers t).run h).run h'
  refine ⟨?_, hinv.attempted, hinv.distinct, hinv.served.nodup, hinv.served.genuine⟩
  intro a ha hs hl place hp
  exact (hinv.dead a (attempts_subset_of_run h' ha) hs hl place hp).unexecuted

/-- A handler without an initiator, and the default drive. -/
def Peers.standard : Peers := ⟨unnamedEnv, .standard, maxDataLen⟩

/-- WRITE FILEMARKS, of one filemark. -/
def filemarkCommand : TcmuCommand := ⟨[0x10, 0, 0, 0, 1, 0], [], 0, true⟩

/-- The request of WRITE FILEMARKS. -/
def filemarkRequest : Bytes := [6, 0x10, 0, 0, 0, 1, 0, 0, 0, 0, 0]

theorem requestOf_filemark :
    requestOf unnamedEnv filemarkCommand = .ok (filemarkRequest, true) := by
  decide

/-- A write fails when three bytes of the request are on their way. -/
def cutFilemark : System :=
  (({ (System.start blankMounted).setConn 0 (Connection.fresh.append [6, 0x10, 0]) with
      made := 1
      phase := .sending filemarkCommand ⟨0, 0⟩ [0, 0, 1, 0, 0, 0, 0, 0] true
      begun := [(⟨0, 0⟩, filemarkCommand)] } : System).disconnect 0).ended
    ⟨filemarkCommand, .notSent ⟨0, 0⟩⟩ none

theorem run_cutFilemark :
    Relation.ReflTransGen (Step .standard) (.start blankMounted) cutFilemark := by
  have hbegun : Relation.ReflTransGen (Step .standard) (.start blankMounted)
      { System.start blankMounted with
        made := 1
        phase := .sending filemarkCommand ⟨0, 0⟩ filemarkRequest true
        begun := [(⟨0, 0⟩, filemarkCommand)] } :=
    .head (.connect rfl) (.single (.begin rfl requestOf_filemark))
  have hwritten := hbegun.tail (@Step.write .standard _ filemarkCommand ⟨0, 0⟩ [6, 0x10, 0]
    [0, 0, 1, 0, 0, 0, 0, 0] true rfl rfl (.inl (by decide)))
  exact hwritten.tail (@Step.writeFails .standard _ filemarkCommand ⟨0, 0⟩
    [0, 0, 1, 0, 0, 0, 0, 0] true rfl)

/-- The command ends with BUSY, and when the data plane has left the connection it was not
dispatched. -/
theorem busy_not_executed_cut : cutFilemark.attempts.map Attempt.status = [.busy] ∧
      (⟨0, 0⟩ : Place) ∉ (cutFilemark.respond 0 [] true).executedAt := by
  have hleft : Relation.ReflTransGen (Step .standard) cutFilemark (cutFilemark.respond 0 [] true) :=
    .single (.hangUp (by decide) nil_prefix)
  exact ⟨rfl, (busy_not_executed run_cutFilemark hleft).1 _ (mem_singleton_self _) rfl rfl
    ⟨0, 0⟩ rfl⟩

/-- The handler connects and sends WRITE FILEMARKS. -/
def System.filemarkSent (s : System) : System :=
  { s.setConn s.made ((s.conn s.made).append filemarkRequest) with
    made := s.made + 1
    phase := .receiving filemarkCommand ⟨s.made, (s.conn s.made).written.length⟩
    begun := s.begun ++ [(⟨s.made, (s.conn s.made).written.length⟩, filemarkCommand)] }

theorem run_filemarkSent (hphase : s.phase = .idle none) (hopen : (s.conn s.made).quit = false) :
    Relation.ReflTransGen (Step .standard) s s.filemarkSent := by
  have hbegun : Relation.ReflTransGen (Step .standard) s { s with
        made := s.made + 1
        phase := .sending filemarkCommand ⟨s.made, (s.conn s.made).written.length⟩
          filemarkRequest true
        begun := s.begun ++ [(⟨s.made, (s.conn s.made).written.length⟩, filemarkCommand)] } :=
    .head (.connect hphase) (.single (.begin rfl requestOf_filemark))
  exact hbegun.tail (@Step.sent .standard _ filemarkCommand
    ⟨s.made, (s.conn s.made).written.length⟩ filemarkRequest rfl hopen)

/-- The packet of WRITE FILEMARKS. -/
def filemarkPacket : CdbPacket := ⟨filemarkCommand.cdb, [], none⟩

/-- The data plane writes the filemark and answers. -/
def System.filemarkWritten (s : System) : System :=
  { s.respond (s.taken []) (CdbResponse.good []).frame false with
    tape := (s.dispatch .standard .cartridge filemarkPacket).2
    executed := s.executed ++ [⟨s.here, filemarkPacket⟩] }

theorem step_filemarkWritten (hserve : s.serving < s.made)
    (hturn : nextTurn maxDataLen (s.conn s.serving).pending = .run filemarkPacket [])
    (hreply : (s.dispatch .standard .cartridge filemarkPacket).1 = .ok (.good [])) :
    Step .standard s s.filemarkWritten :=
  .execute hserve hturn .cartridge hreply rfl (.whole (by decide))

/-- The filemark is written, but the handler does not wait for the answer. -/
def lostFilemark : System :=
  (((System.start blankMounted).filemarkSent.filemarkWritten).disconnect 0).ended
    ⟨filemarkCommand, .lost ⟨0, 0⟩ .readFailed⟩ none

/-- The command is sent again, on another connection. -/
def retriedFilemark : System :=
  (lostFilemark.filemarkSent.respond 11 [] true).filemarkWritten

theorem run_lostFilemark :
    Relation.ReflTransGen (Step .standard) (.start blankMounted) lostFilemark := by
  refine (run_filemarkSent rfl rfl).tail (step_filemarkWritten ?_ ?_ ?_) |>.tail ?_
  · decide
  · decide +kernel
  · decide +kernel
  · exact @Step.receiveFails .standard _ filemarkCommand ⟨0, 0⟩ rfl

theorem run_retriedFilemark :
    Relation.ReflTransGen (Step .standard) lostFilemark retriedFilemark := by
  refine (run_filemarkSent rfl rfl).tail (.hangUp ?_ nil_prefix) |>.tail
    (step_filemarkWritten ?_ ?_ ?_)
  · decide
  · decide
  · decide +kernel
  · decide +kernel

/-- **A response that is lost**: WRITE FILEMARKS ends with BUSY and has written a filemark, and
sent again it writes another. -/
theorem lost_response_writes_twice :
    Relation.ReflTransGen (Step .standard) (.start blankMounted) lostFilemark ∧
      lostFilemark.attempts.map Attempt.status = [.busy] ∧
      lostFilemark.tape.tape.filemarks.length = 1 ∧
      Relation.ReflTransGen (Step .standard) lostFilemark retriedFilemark ∧
      retriedFilemark.executedAt = [⟨0, 0⟩, ⟨1, 0⟩] ∧
      retriedFilemark.tape.tape.filemarks.length = 2 :=
  ⟨run_lostFilemark, rfl, by decide +kernel, run_retriedFilemark, rfl, by decide +kernel⟩

/-! ## §6. Commands that were answered. -/

/-- An answer other than BUSY comes from a dispatch. -/
theorem Receiving.dispatched_of_read (h : Receiving k start dispatched)
    (hread : readReply c k.back = (.ok v, rest)) (hstatus : v.status ≠ 0x08) : dispatched := by
  by_contra hdisp
  have hfront : ¬ k.back <+: CdbResponse.busy.frame := fun hpre =>
    hstatus (readReply_of_front fits_busy hpre hread).2.1
  cases h.unexecuted hdisp with
  | waiting _ hback => exact hfront (hback ▸ nil_prefix)
  | skipped _ _ hback => exact hstatus (hback.read fits_busy hread).1
  | left _ hback => exact hfront hback

/-- The commands with an answer other than BUSY were dispatched. -/
def Acknowledged (s : System) : Prop :=
  ∀ a ∈ s.attempts, ∀ place r, a.ending = .answered place r → r.status ≠ 0x08 →
    place ∈ s.executedAt

theorem Inv.acknowledged (h : Inv peers s) (hack : Acknowledged s) (hstep : Step peers s s') :
    Acknowledged s' := by
  cases hstep with
  | refuse | connectFails | writeFails | receiveStops | receiveFails =>
    exact forall_mem_append.mpr ⟨hack, forall_mem_singleton.mpr fun _ _ hend => nomatch hend⟩
  | connect | begin | write | sent | poisoned | hangUp => exact hack
  | receive hphase hread =>
    refine forall_mem_append.mpr ⟨hack, forall_mem_singleton.mpr fun place r hend hstatus => ?_⟩
    cases hend
    exact (h.inPhase hphase).2.2.1.dispatched_of_read hread hstatus
  | execute =>
    intro a ha place r hend hstatus
    rw [executedAt_append rfl]
    exact mem_append_left _ (hack a ha place r hend hstatus)

/-- **A command that was answered, not with BUSY, was dispatched once**, and what was dispatched
is its own request. -/
theorem answered_executed_once {t : TapeWorld}
    (hrun : Relation.ReflTransGen (Step peers) (.start t) s) {a : Attempt} (ha : a ∈ s.attempts)
    {r : Received} (hend : a.ending = .answered place r) (hstatus : r.status ≠ 0x08) :
    s.executedAt.count place = 1 ∧ ∃ e ∈ s.executed, e.place = place ∧
      Reads CdbPacket.decode (a.command.announced peers.handler) e.packet := by
  have hall : Inv peers s ∧ Acknowledged s := by
    clear ha
    induction hrun with
    | refl => exact ⟨.start peers t, fun _ hnil => nomatch hnil⟩
    | tail _ hstep ih => exact ⟨ih.1.step hstep, ih.1.acknowledged ih.2 hstep⟩
  obtain ⟨hinv, hack⟩ := hall
  have hmem := hack a ha place r hend hstatus
  refine ⟨count_eq_one_of_mem hinv.served.nodup hmem, ?_⟩
  obtain ⟨e, he, rfl⟩ := mem_map.mp hmem
  obtain ⟨c, hbegun, hreads⟩ := hinv.served.genuine e he
  have hown := hinv.attempted a ha e.place (by rw [hend]; rfl)
  -- a place is begun for one command
  obtain rfl : c = a.command :=
    congrArg Prod.snd (inj_on_of_nodup_map hinv.distinct hbegun hown rfl)
  exact ⟨e, he, rfl, hreads⟩

/-- The filemark is written, and the handler reads the answer. -/
theorem answered_executed_once_filemark :
    ∃ s, Relation.ReflTransGen (Step .standard) (.start blankMounted) s ∧
      s.attempts.map Attempt.status = [.ok] ∧ s.executedAt.count ⟨0, 0⟩ = 1 := by
  have hrun := (run_filemarkSent (s := .start blankMounted) rfl rfl).tail
    (step_filemarkWritten (by decide) (by decide +kernel) (by decide +kernel))
  have hread := hrun.tail (@Step.receive .standard _ filemarkCommand ⟨0, 0⟩ ⟨[], [], 0⟩ [] rfl
    (by decide +kernel))
  exact ⟨_, hread, rfl, (answered_executed_once hread (mem_singleton_self _) rfl (by decide)).1⟩

end Holo.Wire
