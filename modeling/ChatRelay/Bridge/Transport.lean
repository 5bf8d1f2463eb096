import ChatRelay.Bridge.Channel
import ChatRelay.Bridge.Failure
import ChatRelay.Config.Settings

/-! # Requests to bridge servers

A transport leads to one server. A request gets a fresh id, is written as one line, and waits for
its answer; until then nobody else uses the transport, so the answer that comes is its own. A
notification is written and not answered. A transport that was closed takes no more lines. -/

namespace ChatRelay.Bridge

open Json

/-! ### Servers -/

/-- What a server does on a line that it gets: it writes, and it may close its output. -/
structure Output where
  bytes : List UInt8
  closes : Bool
  deriving Inhabited

/-- The servers outside, by their names. -/
structure Servers (σ : Type) where
  /-- Starts a server, or says why it cannot be started. -/
  start : String → Config.ServerCommand → σ → Except String Unit × σ
  /-- Writes a line to a server, or says why it cannot be written. -/
  write : String → String → σ → Except String Output × σ
  /-- Ends a server: what it wrote to its error stream. -/
  stop : String → σ → List UInt8 × σ

/-- The state of the servers and the id of the next request, which all transports share. -/
structure Wire (σ : Type) where
  outside : σ
  nextId : Nat
  deriving Inhabited

/-- The way to one server. -/
structure Transport where
  server : String
  isOpen : Bool
  channel : Channel
  deriving Inhabited

namespace Transport

variable {σ : Type}

/-- The transport to a server that was started. -/
def new (server : String) : Transport := ⟨server, true, .empty⟩

/-- A failure of this transport. -/
def failure (t : Transport) (reason : String) : Failure := .transportError t.server reason

/-- Writes a message. What the server writes on it is received. -/
def write (servers : Servers σ) (t : Transport) (message : Doc) (w : Wire σ) :
    Except Failure Unit × Transport × Wire σ :=
  if !t.isOpen then (.error (t.failure "transport is closed"), t, w)
  else
    match servers.write t.server message.text w.outside with
    | (.error reason, s) => (.error (t.failure s!"write failed: {reason}"), t,
      { w with outside := s })
    | (.ok out, s) =>
      let channel := t.channel.receive out.bytes
      let channel := if out.closes then channel.close else channel
      (.ok (), { t with channel }, { w with outside := s })

/-- The result that a response carries. -/
def resultOf (r : RpcResponse) : Except Failure Value :=
  match r.error with
  | some e => .error (.serverError e.code e.message)
  | none => .ok (r.result.getD .null)

/-- Waits for the answer to a request that was written. No result means that none will come. -/
def read (t : Transport) (id : Nat) : Option (Except Failure Value) × Transport :=
  let (a, channel) := t.channel.await id
  let t := { t with channel }
  match a with
  | .answered r => (some (resultOf r), t)
  | .unreadable f => (some (.error (t.failure s!"read failed: {f.message}")), t)
  | .unanswered =>
    if t.channel.isClosed then (some (.error (t.failure "server closed its output")), t)
    else (none, t)

/-- Sends a request and waits for its answer. No result means that the server stays silent. -/
def request (servers : Servers σ) (t : Transport) (method : String) (params : Option Value)
    (w : Wire σ) : Option (Except Failure Value) × Transport × Wire σ :=
  let id := w.nextId
  let w := { w with nextId := id + 1 }
  match t.write servers (callDoc (some id) method params) w with
  | (.error f, t, w) => (some (.error f), t, w)
  | (.ok _, t, w) =>
    let (r, t) := t.read id
    (r, t, w)

/-- Sends a notification. -/
def notify (servers : Servers σ) (t : Transport) (method : String) (params : Option Value)
    (w : Wire σ) : Except Failure Unit × Transport × Wire σ :=
  t.write servers (callDoc none method params) w

/-- Closes the transport. -/
def close (t : Transport) : Transport := { t with isOpen := false }

/-- The transport after a request was given up. -/
def giveUp (t : Transport) : Transport := { t with channel := t.channel.giveUp }

end Transport

end ChatRelay.Bridge
