import ChatRelay.Bridge.ToolBridge
import ChatRelay.Bridge.Transport

/-! # The bridge client

The client keeps the servers that could be started, in the order of their names. A listing asks
every server for its tools; one that fails to answer is passed over, and of several tools with one
name the first counts. The listing also sets the table that says which server a tool is called at. A
call of a tool that is not in the table lists afresh once.

Calls that are made together take turns: each waits at the end of the line for its next request. -/

namespace ChatRelay.Bridge

open Json Completion

/-- The client. -/
structure Client (σ : Type) where
  wire : Wire σ
  /-- In the order of their names. -/
  transports : List Transport
  /-- The server of each tool. -/
  routes : List (String × String)
  /-- Milliseconds that a call may take. -/
  callTimeout : Nat
  deriving Inhabited

/-- Milliseconds that a call may take if nothing else is set. -/
def defaultCallTimeout : Nat := 30000

/-- An action of the client. -/
abbrev ClientAct (σ : Type) := StateM (Client σ)

namespace Client

variable {σ : Type}

/-! ### Starting servers -/

/-- The revision of the protocol that is spoken. -/
def protocolVersion : String := "2024-11-05"

/-- What the client says of itself. -/
def greeting : Value :=
  .obj [("capabilities", .obj []),
    ("clientInfo", .obj [("name", .str "agent-relay"), ("version", .str "0.1.0")]),
    ("protocolVersion", .str protocolVersion)]

/-- Bytes of a server's error stream that are shown. -/
def complaintLimit : Nat := 2000

/-- What a server wrote to its error stream, as the end of a failure text. -/
def complaint (bytes : List UInt8) : String :=
  match Text.strict? bytes with
  | none => ""
  | some s =>
    let s := Text.trim s
    if s.isEmpty then "" else " | stderr: " ++ Text.truncate complaintLimit s

/-- The exchange that makes a server ready: what keeps it from being so. -/
def greet (servers : Servers σ) (t : Transport) (w : Wire σ) :
    Option String × Transport × Wire σ :=
  match t.request servers "initialize" (some greeting) w with
  | (none, t, w) => (some "initialization timed out after 30s", t, w)
  | (some (.error f), t, w) => (some f.message, t, w)
  | (some (.ok _), t, w) =>
    match t.notify servers "notifications/initialized" none w with
    | (.error f, t, w) => (some f.message, t, w)
    | (.ok _, t, w) => (none, t, w)

/-- Starts a server and makes it ready. -/
def startServer (servers : Servers σ) (name : String) (command : Config.ServerCommand)
    (w : Wire σ) : Except Failure Transport × Wire σ :=
  match servers.start name command w.outside with
  | (.error reason, s) => (.error (.spawnFailed name reason), { w with outside := s })
  | (.ok _, s) =>
    match greet servers (.new name) { w with outside := s } with
    | (none, t, w) => (.ok t, w)
    | (some reason, _, w) =>
      let (bytes, s) := servers.stop name w.outside
      (.error (.initFailed name (reason ++ complaint bytes)), { w with outside := s })

/-- Starts servers one after another: the transports to those that are ready, and the failures. -/
def startAll (servers : Servers σ) :
    List (String × Config.ServerCommand) → Wire σ →
      List Transport × List (String × Failure) × Wire σ
  | [], w => ([], [], w)
  | (name, command) :: rest, w =>
    match startServer servers name command w with
    | (.ok t, w) =>
      let (ts, fs, w) := startAll servers rest w
      (t :: ts, fs, w)
    | (.error f, w) =>
      let (ts, fs, w) := startAll servers rest w
      (ts, (name, f) :: fs, w)

/-- The client of some configured servers, which are started in the order given, and the failures of
those that do not start. -/
def start (servers : Servers σ) (commands : List (String × Config.ServerCommand))
    (callTimeout : Option Nat) (outside : σ) : Client σ × List (String × Failure) :=
  let (transports, failures, wire) := startAll servers commands ⟨outside, 1⟩
  let transports := transports.mergeSort fun a b => a.server ≤ b.server
  (⟨wire, transports, [], callTimeout.getD defaultCallTimeout⟩, failures)

/-! ### Requests -/

/-- The transport to a server. -/
def transport? (c : Client σ) (server : String) : Option Transport :=
  c.transports.find? (·.server == server)

/-- The client after something happened on a transport. -/
def setTransport (c : Client σ) (t : Transport) (wire : Wire σ) : Client σ :=
  { c with wire, transports := c.transports.map fun u => if u.server = t.server then t else u }

/-- Sends a request to a server that is there. A request that stays without an answer is given
up. -/
def ask (servers : Servers σ) (t : Transport) (method : String) (params : Option Value) :
    ClientAct σ (Option (Except Failure Value)) := fun c =>
  match t.request servers method params c.wire with
  | (some r, t, w) => (some r, c.setTransport t w)
  | (none, t, w) => (none, c.setTransport t.giveUp w)

/-! ### Listing -/

/-- The tools in a result of `tools/list`; none if it cannot be read. -/
def toolsOf (result : Value) : List ToolDefinition :=
  ((decodeValue decodeTools result).toOption.getD []).map ListedTool.definition

/-- The tools that a server lists; none if it fails to answer. -/
def listServer (servers : Servers σ) (server : String) : ClientAct σ (List ToolDefinition) := do
  match (← get).transport? server with
  | none => return []
  | some t =>
    match ← ask servers t "tools/list" none with
    | some (.ok result) => return toolsOf result
    | _ => return []

/-- The tools that count: of those with one name the first, in reverse. -/
def addTool (acc : List (String × ToolDefinition)) (t : String × ToolDefinition) :
    List (String × ToolDefinition) :=
  if acc.any (·.2.name == t.2.name) then acc else t :: acc

/-- The tools that count, with their servers. -/
def distinct (found : List (String × ToolDefinition)) : List (String × ToolDefinition) :=
  (found.foldl addTool []).reverse

/-- Sets the table of tools from what was found: the tools that count. -/
def settle (found : List (String × ToolDefinition)) : ClientAct σ (List ToolDefinition) := do
  let kept := distinct found
  modify fun c => { c with routes := kept.map fun (server, t) => (t.name, server) }
  return kept.map (·.2)

/-- Asks servers for their tools, after those in `found`. -/
def listServers (servers : Servers σ) :
    List String → List (String × ToolDefinition) → ClientAct σ (List (String × ToolDefinition))
  | [], found => return found
  | server :: rest, found => do
    let tools ← listServer servers server
    listServers servers rest (found ++ tools.map (server, ·))

/-- The names of the servers. -/
def names (c : Client σ) : List String := c.transports.map (·.server)

/-- Lists the tools of all servers. -/
def list (servers : Servers σ) : ClientAct σ (List ToolDefinition) := do
  settle (← listServers servers (← get).names [])

/-! ### Calls -/

/-- Where a call stands. -/
inductive Stage
  /-- It asks for tools first: the servers still to be asked, and what was found. -/
  | listing (rest : List String) (found : List (String × ToolDefinition))
  | calling (server : String)
  | done (result : Except Failure String)
  deriving Inhabited

/-- A call of a tool. -/
structure Call where
  tool : String
  arguments : Object
  stage : Stage
  deriving Inhabited

/-- Where a call starts: at its server if the table has the tool. -/
def Call.begin (c : Client σ) (tool : String) (arguments : Object) : Call :=
  ⟨tool, arguments, match c.routes.lookup tool with
    | some server => .calling server
    | none => .listing c.names []⟩

/-- The parameters of a call. -/
def Call.params (k : Call) : Value := .obj [("arguments", .obj k.arguments), ("name", .str k.tool)]

/-- What the result of a call means. -/
def outcomeOf (server tool : String) (result : Value) : Except Failure String :=
  match decodeValue CallOutcome.decode result with
  | .error _ => .error (.transportError server "unreadable tools/call result: unexpected shape")
  | .ok o => if o.isError then .error (.toolFailed tool o.text) else .ok o.text

/-- The failure of a call that took too long. -/
def Call.timeout (k : Call) (ms : Nat) : Failure := .timeout ("tools/call " ++ k.tool) ms

/-- The request of a call at its server. `late` says that it can only be made when its time is
up. -/
def Call.atServer (servers : Servers σ) (late : Bool) (k : Call) (server : String) :
    ClientAct σ (Except Failure String) := do
  match (← get).transport? server with
  | none => return .error (.unknownTool k.tool)
  | some t =>
    match ← ask servers t "tools/call" (some k.params) with
    | none => return .error (k.timeout (← get).callTimeout)
    | some r =>
      if late then return .error (k.timeout (← get).callTimeout)
      else return r.bind (outcomeOf server k.tool)

/-- The next request of a call. A listing that has asked all servers leads to the tool's server, or
there is no such tool. -/
def Call.step (servers : Servers σ) (late : Bool) (k : Call) : ClientAct σ Call := do
  match k.stage with
  | .done _ => return k
  | .calling server => return { k with stage := .done (← k.atServer servers late server) }
  | .listing rest found =>
    let (rest, found) ← match rest with
      | [] => pure ([], found)
      | server :: rest => do
        let tools ← listServer servers server
        pure (rest, found ++ tools.map (server, ·))
    if !rest.isEmpty then return { k with stage := .listing rest found }
    else
      let _ ← settle found
      match (← get).routes.lookup k.tool with
      | some server => return { k with stage := .calling server }
      | none => return { k with stage := .done (.error (.unknownTool k.tool)) }

/-- The result of a call. -/
def Call.result? (k : Call) : Option (Except Failure String) :=
  match k.stage with
  | .done r => some r
  | _ => none

/-- The server that a call waits for. -/
def Call.server? (k : Call) : Option String :=
  match k.stage with
  | .calling server => some server
  | _ => none

/-- A call that took too long. -/
def Call.isTimedOut (k : Call) : Bool :=
  match k.stage with
  | .done (.error (.timeout ..)) => true
  | _ => false

/-- Calls taking turns, each with its number. `held` are the servers that a silent call holds until
its time is up. -/
def takeTurns (servers : Servers σ) :
    (steps : Nat) → (held : List String) → List (Nat × Call) →
      ClientAct σ (List (Nat × Except Failure String))
  | 0, _, _ => return []
  | _ + 1, _, [] => return []
  | steps + 1, held, (n, k) :: rest => do
    let late := (k.server?.map held.contains).getD false
    let k' ← k.step servers late
    let held := if k'.isTimedOut then k.server?.toList ++ held else held
    match k'.result? with
    | some r => return (n, r) :: (← takeTurns servers steps held rest)
    | none => takeTurns servers steps held (rest ++ [(n, k')])

/-- Calls tools together: the results in the order of the calls. -/
def callTogether (servers : Servers σ) (calls : List (String × Object)) :
    ClientAct σ (List (Except Failure String)) := do
  let c ← get
  let started := calls.map fun (tool, arguments) => Call.begin c tool arguments
  let steps := calls.length * (c.transports.length + 3) + 1
  let results ← takeTurns servers steps [] ((List.range calls.length).zip started)
  return (List.range calls.length).filterMap fun n => results.lookup n

/-- Calls a tool. -/
def call (servers : Servers σ) (tool : String) (arguments : Object) :
    ClientAct σ (Except Failure String) := do
  let results ← callTogether servers [(tool, arguments)]
  return results.head?.getD (.error (.unknownTool tool))

/-! ### The end -/

/-- Tells servers to end and closes the transports to them. -/
def shutdownAll (servers : Servers σ) : List Transport → ClientAct σ Unit
  | [] => return ()
  | t :: rest => do
    modify fun c =>
      let (_, t, w) := t.notify servers "shutdown" none c.wire
      c.setTransport t.close w
    shutdownAll servers rest

/-- Ends all servers. -/
def shutdown (servers : Servers σ) : ClientAct σ Unit := do
  shutdownAll servers (← get).transports

/-- The client as a turn sees it. -/
def bridge (servers : Servers σ) : ToolBridge (Client σ) where
  list c := let (ts, c) := (list servers).run c; (.ok ts, c)
  call name arguments c := (call servers name arguments).run c

end Client

end ChatRelay.Bridge
