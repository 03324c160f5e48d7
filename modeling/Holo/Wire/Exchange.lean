/-
Holo.Wire.Exchange — the handler and the data plane at the two ends of a socket.

The handler runs one command after the other: it connects if it has no connection, writes the
request, reads the response, and gives up the connection when a read or a write fails.  The
data plane serves one connection after the other and dispatches a request when all of it has
come.  Bytes arrive in order; between any two of them either side may time out, fail or close,
and the data plane goes on reading what was sent to a connection that the handler has closed.

A request is named by the place where it starts: the number of the connection, and the number
of bytes that were written to it before.
-/
import Mathlib.Logic.Function.Basic
import Mathlib.Logic.Relation
import Holo.Wire.Server

namespace Holo.Wire

open Lib Program Storage Tape Drive

/-! ## §1. The system. -/

/-- A connection, from the handler to the data plane and back. -/
structure Connection where
  /-- All that the handler has written. -/
  written : Bytes
  /-- How much of it the data plane has taken. -/
  consumed : Nat
  /-- The handler has closed it. -/
  closed : Bool
  /-- What the data plane has written and the handler has not read. -/
  back : Bytes
  /-- The data plane has closed it. -/
  quit : Bool
  deriving DecidableEq

/-- A connection that was just made. -/
def Connection.fresh : Connection := ⟨[], 0, false, [], false⟩

section

variable (s : System) (i : Nat) (k : Connection)

/-- What the data plane has still to take. -/
def Connection.pending : Bytes := k.written.drop k.consumed

/-- The handler writes more bytes. -/
def Connection.append (bs : Bytes) : Connection :=
  { k with written := k.written ++ bs }

/-- Where a request starts. -/
structure Place where
  conn : Nat
  start : Nat
  deriving Repr, DecidableEq

/-- How `holo_handle_cmd` ends. -/
inductive Ending where
  /-- Before anything is sent. -/
  | refused (status : TcmuStatus)
  /-- `holo_connect` fails. -/
  | notConnected
  /-- A write fails. -/
  | notSent (place : Place)
  /-- The response is read. -/
  | answered (place : Place) (r : Received)
  /-- The request is sent, the response is not read. -/
  | lost (place : Place) (e : ReplyError)
  deriving DecidableEq

/-- Where the request of the command was sent to. -/
def Ending.place : Ending → Option Place
  | .refused _ | .notConnected => none
  | .notSent place | .answered place _ | .lost place _ => some place

/-- The response to a request was not read. -/
def Ending.isLost : Ending → Bool
  | .lost _ _ => true
  | _ => false

/-- A command and how it ended. -/
structure Attempt where
  command : TcmuCommand
  ending : Ending

/-- What `holo_handle_cmd` returns. -/
def Attempt.status (a : Attempt) : TcmuStatus :=
  match a.ending with
  | .refused status => status
  | .notConnected | .notSent _ => .busy
  | .answered _ r => statusOf a.command r
  | .lost _ e => e.status

/-- Where the handler is. -/
inductive Phase where
  /-- Between two commands, with the connection it has. -/
  | idle (fd : Option Nat)
  /-- Writing a request, of which this is left, if the command has all of it. -/
  | sending (c : TcmuCommand) (place : Place) (left : Bytes) (complete : Bool)
  /-- Waiting for the response. -/
  | receiving (c : TcmuCommand) (place : Place)

/-- A request that was dispatched. -/
structure Execution where
  place : Place
  packet : CdbPacket
  deriving DecidableEq

/-- The handler, the data plane and the connections between them. -/
structure System where
  /-- The connections made so far. -/
  made : Nat
  conn : Nat → Connection
  phase : Phase
  /-- The requests that were begun. -/
  begun : List (Place × TcmuCommand)
  /-- The commands that have ended. -/
  attempts : List Attempt
  /-- The connection that the data plane serves. -/
  serving : Nat
  tape : TapeWorld
  /-- The requests that were dispatched. -/
  executed : List Execution

/-- Nothing has been sent. -/
def System.start (t : TapeWorld) : System :=
  ⟨0, fun _ => .fresh, .idle none, [], [], 0, t, []⟩

/-- What is set up before. -/
structure Peers where
  handler : HandlerEnv
  drive : DriveEnv
  /-- `tcmu_max_frame_bytes`. -/
  maxFrameBytes : Nat

/-! ## §2. Steps. -/

/-- The handler returns. -/
def System.ended (a : Attempt) (fd : Option Nat) : System :=
  { s with phase := .idle fd, attempts := s.attempts ++ [a] }

/-- A connection changes. -/
def System.setConn : System :=
  { s with conn := Function.update s.conn i k }

/-- `holo_disconnect`. -/
def System.disconnect : System :=
  s.setConn i { s.conn i with closed := true }

/-- The data plane has taken a request, if it was one, answered, and left the connection or not. -/
def System.respond (consumed : Nat) (bs : Bytes) (quit : Bool) : System :=
  { s.setConn s.serving
      { s.conn s.serving with
        consumed := consumed
        back := (s.conn s.serving).back ++ bs
        quit := quit } with
    serving := if quit then s.serving + 1 else s.serving }

/-- Where the next request to be served starts. -/
abbrev System.here : Place := ⟨s.serving, (s.conn s.serving).consumed⟩

abbrev System.turn (peers : Peers) : Turn :=
  nextTurn peers.maxFrameBytes (s.conn s.serving).pending

/-- How much the data plane has taken when this is left. -/
def System.taken (rest : Bytes) : Nat :=
  (s.conn s.serving).written.length - rest.length

/-- What comes of a response: the bytes that get to the socket, and whether the connection is left
because the response cannot be encoded or written. -/
inductive Delivered (r : CdbResponse) : Bytes → Bool → Prop where
  | whole {bs : Bytes} (h : r.encode = .ok bs) : Delivered r bs false
  | cut {bs bs' : Bytes} (h : r.encode = .ok bs) (hpre : bs' <+: bs) : Delivered r bs' true
  | refused {e : WireError} (h : r.encode = .error e) : Delivered r [] true

/-- The initiator of a request, `initiator_or_default`. -/
def CdbPacket.initiatorOr (p : CdbPacket) (fallback : String) : String := p.initiator.getD fallback

/-- The dispatch of a request. -/
def System.dispatch (peers : Peers) (shared : SharedMedia) (p : CdbPacket) :
    Except TapeError Reply × TapeWorld :=
  dispatchDriveCdb peers.drive shared p.cdb p.data (p.initiatorOr peers.drive.configuredInitiator)
    s.tape

end

/-- A step of one of the two sides. -/
inductive Step (peers : Peers) : System → System → Prop where
  /-- The command is refused before the handler connects. -/
  | refuse {s : System} {fd : Option Nat} {c : TcmuCommand} {status : TcmuStatus}
      (hphase : s.phase = .idle fd) (h : requestOf peers.handler c = .error status) :
      Step peers s (s.ended ⟨c, .refused status⟩ fd)
  /-- `holo_connect` fails. -/
  | connectFails {s : System} {c : TcmuCommand} {request : Bytes × Bool}
      (hphase : s.phase = .idle none) (h : requestOf peers.handler c = .ok request) :
      Step peers s (s.ended ⟨c, .notConnected⟩ none)
  | connect {s : System} (hphase : s.phase = .idle none) :
      Step peers s { s with made := s.made + 1, phase := .idle (some s.made) }
  /-- The handler begins to write the request. -/
  | begin {s : System} {i : Nat} {c : TcmuCommand} {bytes : Bytes} {complete : Bool}
      (hphase : s.phase = .idle (some i))
      (h : requestOf peers.handler c = .ok (bytes, complete)) :
      Step peers s
        { s with
          phase := .sending c ⟨i, (s.conn i).written.length⟩ bytes complete
          begun := s.begun ++ [(⟨i, (s.conn i).written.length⟩, c)] }
  /-- Some bytes are written, and more are to come. -/
  | write {s : System} {c : TcmuCommand} {place : Place} {bs left : Bytes} {complete : Bool}
      (hphase : s.phase = .sending c place (bs ++ left) complete)
      (hopen : (s.conn place.conn).quit = false) (hmore : left ≠ [] ∨ complete = false) :
      Step peers s
        { s.setConn place.conn ((s.conn place.conn).append bs) with
          phase := .sending c place left complete }
  /-- The last bytes are written. -/
  | sent {s : System} {c : TcmuCommand} {place : Place} {left : Bytes}
      (hphase : s.phase = .sending c place left true)
      (hopen : (s.conn place.conn).quit = false) :
      Step peers s
        { s.setConn place.conn ((s.conn place.conn).append left) with
          phase := .receiving c place }
  /-- A write fails, or the buffers of the command are too short. -/
  | writeFails {s : System} {c : TcmuCommand} {place : Place} {left : Bytes} {complete : Bool}
      (hphase : s.phase = .sending c place left complete) :
      Step peers s ((s.disconnect place.conn).ended ⟨c, .notSent place⟩ none)
  /-- The response is read. -/
  | receive {s : System} {c : TcmuCommand} {place : Place} {r : Received} {rest : Bytes}
      (hphase : s.phase = .receiving c place)
      (h : readReply c (s.conn place.conn).back = (.ok r, rest)) :
      Step peers s
        ((s.setConn place.conn { s.conn place.conn with back := rest }).ended
          ⟨c, .answered place r⟩ (some place.conn))
  /-- The response is not one the command has room for. -/
  | receiveStops {s : System} {c : TcmuCommand} {place : Place} {e : ReplyError} {rest : Bytes}
      (hphase : s.phase = .receiving c place)
      (h : readReply c (s.conn place.conn).back = (.error e, rest)) (he : e ≠ .readFailed) :
      Step peers s ((s.disconnect place.conn).ended ⟨c, .lost place e⟩ none)
  /-- A read fails: it times out, or the connection is reset or at its end. -/
  | receiveFails {s : System} {c : TcmuCommand} {place : Place}
      (hphase : s.phase = .receiving c place) :
      Step peers s ((s.disconnect place.conn).ended ⟨c, .lost place .readFailed⟩ none)
  /-- A request is dispatched and answered. -/
  | execute {s : System} {p : CdbPacket} {rest bs : Bytes} {quit : Bool} {reply : Reply}
      {r : CdbResponse} (hserve : s.serving < s.made)
      (hturn : s.turn peers = .run p rest)
      (shared : SharedMedia) (hreply : (s.dispatch peers shared p).1 = .ok reply)
      (hanswer : Answers reply r) (hdeliver : Delivered r bs quit) :
      Step peers s
        { s.respond (s.taken rest) bs quit with
          tape := (s.dispatch peers shared p).2
          executed := s.executed ++ [⟨s.here, p⟩] }
  /-- The state of the tape is locked for good: a request is answered with BUSY. -/
  | poisoned {s : System} {p : CdbPacket} {rest : Bytes} (hserve : s.serving < s.made)
      (hturn : s.turn peers = .run p rest) :
      Step peers s (s.respond (s.taken rest) CdbResponse.busy.frame false)
  /-- The data plane leaves the connection, with BUSY or the front of it: a request is too long or
  is none, a read fails or times out, the connection is at its end, or the process stops. -/
  | hangUp {s : System} {bs : Bytes} (hserve : s.serving < s.made)
      (hpre : bs <+: CdbResponse.busy.frame) :
      Step peers s (s.respond (s.conn s.serving).consumed bs true)

end Holo.Wire
