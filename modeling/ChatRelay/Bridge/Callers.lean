import ChatRelay.Bridge.Transport

/-! # Callers that share a transport

Many callers may want answers from one server. Each gets an id at once, waits for the transport,
writes its request, and reads lines until one of them is its answer; then it lets go of the
transport. Between two of its moves others make theirs and the server writes. A caller may give up
while it waits for the transport or for a line; if it has read the start of a line by then, that
start is lost. Ids are shared with the callers of other transports.

`Shared` is what the callers of one transport share, and a `CallerMove` is what happens next.
`Transport.request` makes the moves of one caller in a row. -/

namespace ChatRelay.Bridge

open Json

/-! ### Callers -/

/-- Where a caller stands. -/
inductive CallerPhase
  /-- It waits for the transport. -/
  | queued
  /-- It has written its request and reads lines. -/
  | reading
  | done (r : Except Failure Value)
  | gaveUp
  deriving Inhabited

/-- A caller with the id of its request. -/
structure Caller where
  id : Nat
  method : String
  params : Option Value
  phase : CallerPhase
  deriving Inhabited

/-- What the callers of a transport share. -/
structure Shared where
  transport : Transport
  /-- The id of the next request. -/
  nextId : Nat
  /-- The caller that has the transport. -/
  holder : Option Nat
  /-- All callers that there ever were; they are told apart by their numbers. -/
  callers : List Caller
  /-- The requests that the server has received, by their ids. -/
  received : List Nat
  deriving Inhabited

/-- What happens next. Callers are named by their numbers. -/
inductive CallerMove
  /-- A caller comes. -/
  | call (method : String) (params : Option Value)
  /-- A caller of another transport comes. -/
  | callElsewhere
  /-- A caller takes the transport and writes its request. -/
  | send (i : Nat)
  /-- A caller takes the transport and cannot write its request. -/
  | sendFails (i : Nat) (reason : String)
  /-- A caller reads one line. -/
  | read (i : Nat)
  /-- A caller gives up when it has read `lost` bytes of the next line. -/
  | giveUp (i lost : Nat)
  /-- The transport is closed. -/
  | close
  /-- The server writes. -/
  | serverWrites (bytes : List UInt8)
  | serverCloses
  deriving Inhabited

namespace Shared

/-- A transport that nobody has used. -/
def start (server : String) : Shared := ⟨.new server, 1, none, [], []⟩

/-- What is shared after a caller has changed. -/
def setPhase (s : Shared) (i : Nat) (c : Caller) (phase : CallerPhase) : Shared :=
  { s with callers := s.callers.set i { c with phase } }

/-- A caller has its result, and the transport is free. -/
def finish (s : Shared) (i : Nat) (c : Caller) (r : Except Failure Value) : Shared :=
  { s with holder := none }.setPhase i c (.done r)

/-- A caller writes its request. -/
def send (s : Shared) (i : Nat) (c : Caller) : Shared :=
  if s.transport.isOpen then
    { s with holder := some i, received := c.id :: s.received }.setPhase i c .reading
  else s.finish i c (.error (s.transport.failure "transport is closed"))

/-- A caller cannot write its request; none if the transport is closed and nothing is written. -/
def sendFails (s : Shared) (i : Nat) (c : Caller) (reason : String) : Option Shared :=
  if s.transport.isOpen then
    some (s.finish i c (.error (s.transport.failure s!"write failed: {reason}")))
  else none

/-- What a caller makes of a line that ends its wait. -/
def resultOf (t : Transport) : Awaited → Except Failure Value
  | .answered r => Transport.resultOf r
  | .unreadable f => .error (t.failure s!"read failed: {f.message}")
  | .unanswered => .error (t.failure "server closed its output")

/-- A caller reads one line; none if there is none yet. -/
def read (s : Shared) (i : Nat) (c : Caller) : Option Shared :=
  let channel := s.transport.channel
  match channel.lines with
  | [] => if channel.isClosed then some (s.finish i c (resultOf s.transport .unanswered)) else none
  | line :: lines =>
    let s := { s with transport := { s.transport with channel := { channel with lines } } }
    match meet c.id line with
    | some a => some (s.finish i c (resultOf s.transport a))
    | none => some s

/-- A caller that has the transport gives up; none if it cannot have read that much of a line. -/
def giveUp (s : Shared) (i : Nat) (c : Caller) (lost : Nat) : Option Shared :=
  (s.transport.channel.lose? lost).map fun channel =>
    { s with holder := none, transport := { s.transport with channel } }.setPhase i c .gaveUp

/-- What a caller does on a move of its own; none if it does not stand where the move starts. -/
def act (s : Shared) (i : Nat) (c : Caller) (m : CallerMove) : Option Shared :=
  match m, c.phase with
  | .send _, .queued => if s.holder = none then some (s.send i c) else none
  | .sendFails _ reason, .queued => if s.holder = none then s.sendFails i c reason else none
  | .read _, .reading => s.read i c
  | .giveUp _ _, .queued => some (s.setPhase i c .gaveUp)
  | .giveUp _ lost, .reading => s.giveUp i c lost
  | _, _ => none

/-- What is shared after a move; none if the move cannot be made. -/
def after (s : Shared) (m : CallerMove) : Option Shared :=
  let channel := s.transport.channel
  let byCaller (i : Nat) : Option Shared := (s.callers[i]?).bind fun c => s.act i c m
  match m with
  | .call method params =>
    some { s with nextId := s.nextId + 1,
                  callers := s.callers ++ [⟨s.nextId, method, params, .queued⟩] }
  | .callElsewhere => some { s with nextId := s.nextId + 1 }
  | .send i => byCaller i
  | .sendFails i _ => byCaller i
  | .read i => byCaller i
  | .giveUp i _ => byCaller i
  | .close => if s.holder = none then some { s with transport := s.transport.close } else none
  | .serverWrites bytes =>
    some { s with transport := { s.transport with channel := channel.receive bytes } }
  | .serverCloses => some { s with transport := { s.transport with channel := channel.close } }

/-- What is shared after moves, one after another. -/
def afterAll (s : Shared) : List CallerMove → Option Shared
  | [] => some s
  | m :: ms => (s.after m).bind (afterAll · ms)

end Shared

end ChatRelay.Bridge
