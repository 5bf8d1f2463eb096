import ChatRelay.Bridge.Client

/-! # Tasks that share a client

Turns list tools and call them while others do. A task goes on step by step, at most one request in
each, and between two of its steps others make theirs; so the table may be another one when a task
comes back to it. A request that waits for others on its way may also come too late. A task keeps
what it met: the replies to its listing, and the tables in which it looked for its tool.

`Client.list` makes the steps of one task in a row, and `Client.callTogether` those of several in
turn. -/

namespace ChatRelay.Bridge

open Json Completion

/-! ### Replies to a listing -/

/-- What a request comes to; nothing if no answer comes in time. -/
abbrev ToolsReply := Option (Except Failure Value)

/-- The tools that a reply lists: none after a failure, out of time, or if the result cannot be
read. -/
def listedBy : ToolsReply → List ToolDefinition
  | some (.ok result) => Client.toolsOf result
  | _ => []

/-- The tools that servers listed, one server after another. -/
def foundIn (round : List (String × ToolsReply)) : List (String × ToolDefinition) :=
  round.flatMap fun (server, reply) => (listedBy reply).map (server, ·)

/-- Which server a tool is called at. -/
abbrev RouteTable := List (String × String)

/-! ### Requests of tasks -/

/-- Whether a request is made while there is time. -/
inductive Timing
  | inTime
  /-- It is made just when its time is up. -/
  | late
  /-- Its time is up before it can be made. -/
  | missed
  deriving DecidableEq, Repr, Inhabited

namespace Client

variable {σ : Type} (servers : Servers σ)

/-- Asks a server for its tools. -/
def askTools (server : String) : ClientAct σ ToolsReply := do
  match (← get).transport? server with
  | none => return none
  | some t => ask servers t "tools/list" none

/-- Asks a server for its tools while there is time. -/
def askToolsIn (server : String) : Timing → ClientAct σ ToolsReply
  | .inTime => askTools servers server
  | .late => do
    let _ ← askTools servers server
    return none
  | .missed => return none

/-- The next step of a call that does not list tools. -/
def Call.stepIn (k : Call) : Timing → ClientAct σ Call
  | .inTime => k.step servers false
  | .late => k.step servers true
  | .missed => do
    match k.stage with
    | .calling _ => return { k with stage := .done (.error (k.timeout (← get).callTimeout)) }
    | _ => return k

/-- Where a call goes on that looks for its tool after its listing. -/
def stageFor (table : RouteTable) (tool : String) : Stage :=
  match table.lookup tool with
  | some server => .calling server
  | none => .done (.error (.unknownTool tool))

end Client

/-! ### Tasks -/

/-- What a task is at. -/
inductive Work
  /-- It lists tools: the servers still to be asked. -/
  | listing (rest : List String)
  | listed (tools : List ToolDefinition)
  | call (k : Client.Call)
  /-- A call after its listing, which has yet to look for its tool again. -/
  | looking (k : Client.Call)
  deriving Inhabited

/-- A task. -/
structure Task where
  /-- What servers replied when it asked for tools. -/
  round : List (String × ToolsReply)
  /-- The tables in which it looked for its tool. -/
  looked : List RouteTable
  work : Work
  deriving Inhabited

namespace Task

open Client

variable {σ : Type} (servers : Servers σ)

/-- A task that lists the tools. -/
def list (c : Client σ) : Task := ⟨[], [], .listing c.names⟩

/-- A task that calls a tool. It looks for its tool at once. -/
def call (c : Client σ) (tool : String) (arguments : Object) : Task :=
  ⟨[], [c.routes], .call (Call.begin c tool arguments)⟩

/-- Asks the next of some servers for its tools: the round with its reply, and the servers after
it. -/
def askNext (timing : Timing) (round : List (String × ToolsReply)) :
    List String → ClientAct σ (List (String × ToolsReply) × List String)
  | [] => return (round, [])
  | server :: rest => do return (round ++ [(server, ← askToolsIn servers server timing)], rest)

/-- The next step of a task that lists tools: its work while servers are left, and when the table is
set. -/
def listOn (timing : Timing) (t : Task) (rest : List String)
    (more : List String → List (String × ToolDefinition) → Work)
    (settled : List ToolDefinition → Work) : ClientAct σ Task := do
  let (round, rest) ← askNext servers timing t.round rest
  if !rest.isEmpty then return { t with round, work := more rest (foundIn round) }
  else return { t with round, work := settled (← settle (foundIn round)) }

/-- Looks for the tool of a call in the table as it now is. -/
def lookAgain (t : Task) (k : Call) : ClientAct σ Task := do
  let table := (← get).routes
  return { t with looked := t.looked ++ [table],
                  work := .call { k with stage := stageFor table k.tool } }

/-- The next step of a task. -/
def step (timing : Timing) (t : Task) : ClientAct σ Task :=
  match t.work with
  | .listing rest => t.listOn servers timing rest (fun rest _ => .listing rest) .listed
  | .listed _ => return t
  | .looking k => t.lookAgain k
  | .call k =>
    match k.stage with
    | .listing rest _ =>
      t.listOn servers timing rest (fun rest found => .call { k with stage := .listing rest found })
        fun _ => .looking k
    | _ => do return { t with work := .call (← k.stepIn servers timing) }

end Task

/-! ### The client and its tasks -/

/-- A client and the tasks that share it. They are told apart by their numbers. -/
structure SharedClient (σ : Type) where
  client : Client σ
  tasks : List Task
  deriving Inhabited

/-- What happens next. -/
inductive TaskMove
  /-- A listing begins. -/
  | list
  /-- A call of a tool begins. -/
  | call (tool : String) (arguments : Object)
  /-- A task makes its next step. -/
  | step (i : Nat) (timing : Timing)
  deriving Inhabited

namespace SharedClient

variable {σ : Type} (servers : Servers σ)

/-- A client without tasks. -/
def start (c : Client σ) : SharedClient σ := ⟨c, []⟩

/-- What is shared after a move. -/
def after (s : SharedClient σ) : TaskMove → SharedClient σ
  | .list => { s with tasks := s.tasks ++ [.list s.client] }
  | .call tool arguments => { s with tasks := s.tasks ++ [.call s.client tool arguments] }
  | .step i timing =>
    match s.tasks[i]? with
    | none => s
    | some t =>
      let (t, client) := (t.step servers timing).run s.client
      ⟨client, s.tasks.set i t⟩

/-- What is shared after moves. -/
def afterAll (s : SharedClient σ) (ms : List TaskMove) : SharedClient σ :=
  ms.foldl (after servers) s

end SharedClient

end ChatRelay.Bridge
