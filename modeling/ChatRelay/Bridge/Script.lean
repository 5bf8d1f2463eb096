import ChatRelay.Bridge.Transport

/-! # Scripted bridge servers

A script says what a server does on each request, by its method, or by its method and the name among
its parameters. The replies to one kind of request are used in turn, the last one again and again. A
line without an id is only noted. A server whose script has no reply greets back and knows no other
method. -/

namespace ChatRelay.Bridge

open Json

/-! ### Scripts -/

/-- A piece of what a server writes as it is: bytes, or the id of the request moved by some
steps. -/
inductive RawPiece
  | bytes (bs : List UInt8)
  | id (offset : Int)
  deriving Inhabited

namespace RawPiece

/-- The marks that stand for the id of the request, the one after it and the one before it. -/
def marks : List (List UInt8 × Int) :=
  [("@ID@", 0), ("@ID+1@", 1), ("@ID-1@", -1)].map fun (s, offset) => (Text.encode s, offset)

/-- Cuts a raw text at its marks, behind the bytes `acc` in reverse. The first `passed` bytes belong
to a mark that was cut already. -/
def cut : (acc : List UInt8) → (passed : Nat) → List UInt8 → List RawPiece
  | acc, _, [] => [.bytes acc.reverse]
  | acc, passed + 1, _ :: r => cut acc passed r
  | acc, 0, b :: r =>
    match marks.find? fun (m, _) => m.isPrefixOf (b :: r) with
    | some (m, offset) => .bytes acc.reverse :: .id offset :: cut [] (m.length - 1) r
    | none => cut (b :: acc) 0 r

/-- The pieces of a raw text. -/
def ofBytes (bs : List UInt8) : List RawPiece := cut [] 0 bs

/-- The bytes of pieces for the request `id`. -/
def bytesFor (id : Nat) (pieces : List RawPiece) : List UInt8 :=
  pieces.flatMap fun
    | .bytes bs => bs
    | .id offset => Text.encode (toString ((id : Int) + offset))

end RawPiece

/-- What a server writes on a request. -/
inductive Saying
  | raw (pieces : List RawPiece)
  | error (e : Value)
  | result (v : Value)
  /-- A text block with all lines so far. -/
  | echo
  | nothing
  deriving Inhabited

/-- What a server does on a request. -/
structure Reply where
  /-- Bytes for the error stream, written first. -/
  complaint : List UInt8
  saying : Saying
  exits : Bool
  deriving Inhabited

/-- The script of a server. -/
structure ServerScript where
  name : String
  replies : List (String × List Reply)
  /-- There is no such server. -/
  isMissing : Bool
  deriving Inhabited

/-- A scripted server that runs. -/
structure ScriptedServer where
  script : ServerScript
  /-- How often each kind of request was met. -/
  met : List (String × Nat)
  /-- The lines so far: method and parameters, in reverse. -/
  heard : List Value
  complaints : List UInt8
  isRunning : Bool
  deriving Inhabited

namespace ScriptedServer

/-- A server that was just started. -/
def new (script : ServerScript) : ScriptedServer := ⟨script, [], [], [], true⟩

/-- A line with a response. -/
def responseLine (id : Nat) (member : String) (v : Value) : List UInt8 :=
  Text.encode ((Value.obj (Object.ofList
    [("jsonrpc", .str "2.0"), ("id", .num (.int id)), (member, v)])).text ++ "\n")

/-- The result that repeats all lines so far. -/
def echoResult (heard : List Value) : Value :=
  .obj [("content", .arr [.obj [("text", .str (Value.arr heard.reverse).text),
    ("type", .str "text")]])]

/-- What a saying writes. -/
def sayingBytes (id : Nat) (heard : List Value) : Saying → List UInt8
  | .raw pieces => RawPiece.bytesFor id pieces
  | .error e => responseLine id "error" e
  | .result v => responseLine id "result" v
  | .echo => responseLine id "result" (echoResult heard)
  | .nothing => []

/-- The kind of a request among the kinds of a script. -/
def kindOf (script : ServerScript) (request : Value) (method : String) : String :=
  let named := (request.member? "params").bind fun p => (p.member? "name").bind Value.str?
  match named with
  | some name =>
    let kind := method ++ " " ++ name
    if (script.replies.lookup kind).isSome then kind else method
  | none => method

/-- The reply to a kind of request that was met `n` times before. -/
def replyOf (script : ServerScript) (kind method : String) (n : Nat) : Reply :=
  match (script.replies.lookup kind).getD [] with
  | [] => ⟨[], if method = "initialize" then .result (.obj []) else
      .error (.obj [("code", .num (.int (-32601))), ("message", .str "method not found")]), false⟩
  | r :: rest => ((r :: rest)[n]?).getD ((r :: rest).getLast?.getD r)

/-- The id of a request. -/
def idOf? (request : Value) : Option Nat :=
  match request.member? "id" with
  | some (.num (.int i)) => if 0 ≤ i then some i.toNat else none
  | _ => none

/-- A line comes in: what the server writes, and the server after that. -/
def hear (s : ScriptedServer) (line : String) : Output × ScriptedServer :=
  match parse? line with
  | none => (⟨[], false⟩, s)
  | some request =>
    let method := ((request.member? "method").bind Value.str?).getD ""
    let params := (request.member? "params").getD .null
    let s := { s with heard := .obj [("method", .str method), ("params", params)] :: s.heard }
    match idOf? request with
    | none => (⟨[], false⟩, s)
    | some id =>
      let kind := kindOf s.script request method
      let n := (s.met.lookup kind).getD 0
      let reply := replyOf s.script kind method n
      (⟨sayingBytes id s.heard reply.saying, reply.exits⟩,
        { s with
          met := (kind, n + 1) :: s.met
          complaints := s.complaints ++ reply.complaint
          isRunning := !reply.exits })

end ScriptedServer

/-- Scripted servers: those that can be started, and those that were. -/
structure Cast where
  scripts : List ServerScript
  running : List ScriptedServer
  deriving Inhabited

namespace Cast

/-- The server of a name. -/
def server? (c : Cast) (name : String) : Option ScriptedServer :=
  c.running.find? (·.script.name == name)

/-- The servers after one of them did something. -/
def set (c : Cast) (s : ScriptedServer) : Cast :=
  { c with running := s :: c.running.filter (·.script.name != s.script.name) }

/-- Starts a server. -/
def start (c : Cast) (name : String) : Except String Unit × Cast :=
  match c.scripts.find? (·.name == name) with
  | some script =>
    if script.isMissing then (.error "no such file", c) else (.ok (), c.set (.new script))
  | none => (.error "no such file", c)

/-- Writes a line to a server. -/
def write (c : Cast) (name line : String) : Except String Output × Cast :=
  match c.server? name with
  | none => (.error "Broken pipe (os error 32)", c)
  | some s =>
    if s.isRunning then
      let (out, s) := s.hear line
      (.ok out, c.set s)
    else (.error "Broken pipe (os error 32)", c)

/-- Ends a server. -/
def stop (c : Cast) (name : String) : List UInt8 × Cast :=
  match c.server? name with
  | none => ([], c)
  | some s => (s.complaints, c.set { s with isRunning := false })

/-- The scripted servers as the client sees them. -/
def servers : Servers Cast where
  start name _ c := c.start name
  write name line c := c.write name line
  stop name c := c.stop name

end Cast

/-! ### A single server -/

/-- The far side of a transport: what it writes on the next request, and what it heard last. -/
structure Peer where
  replies : List RawPiece
  /-- It then closes its output. -/
  closes : Bool
  /-- It takes no more lines. -/
  isGone : Bool
  heard : Option String
  deriving Inhabited

/-- A line comes in. -/
def Peer.write (p : Peer) (line : String) : Except String Output × Peer :=
  if p.isGone then (.error "broken pipe", p)
  else
    (.ok (match (parse? line).bind ScriptedServer.idOf? with
      | none => ⟨[], false⟩
      | some id => ⟨RawPiece.bytesFor id p.replies, p.closes⟩), { p with heard := some line })

/-- The far side as a transport sees it. -/
def Peer.servers : Servers Peer where
  start _ _ p := (.ok (), p)
  write _ line p := p.write line
  stop _ p := ([], p)

end ChatRelay.Bridge
