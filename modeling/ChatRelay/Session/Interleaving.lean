import ChatRelay.Session.Agent

/-! # Turns under way together

Many chat requests are under way at once. Each gets a handle on the agent of its session, prepares
its turn, waits for the turn lock of the agent, opens the turn, runs it, closes it, and lets go of
lock and handle. Between two of its moves other requests make theirs, and settings change. An agent
without handles is dropped when the cache is full; the next request of its session builds another
one, which has a lock of its own.

A buffered turn is run by the request itself, so it ends with it: a request whose caller goes away
while its buffered turn runs is dropped where it stands, lets go of lock and handle, and never
closes its turn. A streamed turn runs on its own and is closed whether its caller is there or not.

A `Scene` is what all requests share, and a `Move` is what one of them does next. What a turn gets
from outside is left open: any chunks, any outcome, any failure of its first completion. `Agents`
runs the same moves in one order, the turns of a session one after another. -/

namespace ChatRelay.Session

open Turn

/-! ### Requests and agents -/

/-- An agent that was built. -/
structure BuiltAgent where
  sessionId : String
  /-- The model of its handler. -/
  model : String
  /-- The request that holds its turn lock. -/
  holder : Option Nat
  deriving DecidableEq, Repr, Inhabited

/-- Where a chat request stands. -/
inductive Phase
  /-- It has a handle on its agent. -/
  | arrived
  /-- Its message is prepared; it waits for the turn lock. -/
  | waiting (message : String)
  /-- It holds the turn lock. -/
  | locked (message : String)
  /-- Its turn is open; a streamed turn has not started its text yet. -/
  | opened (input : Input)
  /-- Its turn runs. -/
  | running (input : Input)
  /-- Its streamed turn has failed and shown a text that is not recorded yet. -/
  | failing (text : String)
  /-- It has let go of lock and handle. -/
  | finished
  /-- It was dropped while its turn ran, which is not closed; it has let go of lock and handle. -/
  | abandoned
  deriving Inhabited

namespace Phase

/-- The request has let go of its agent. -/
def isFinished : Phase → Bool
  | finished | abandoned => true
  | _ => false

/-- The turn lies between its opening and its closing. -/
def isOpen : Phase → Bool
  | opened _ | running _ | failing _ => true
  | _ => false

/-- What the open turn runs with. -/
def input? : Phase → Option Input
  | opened i => some i
  | running i => some i
  | _ => none

end Phase

/-- A chat request. -/
structure ChatRequest where
  sessionId : String
  /-- The number of its agent. -/
  agent : Nat
  message : String
  model : Option String
  streamed : Bool
  phase : Phase
  /-- The chunks sent to its caller so far. -/
  chunks : List String
  deriving Inhabited

/-! ### Scenes -/

/-- What all requests share. Agents and requests are told apart by their numbers. -/
structure Scene where
  store : Store
  /-- All agents that were ever built. -/
  agents : List BuiltAgent
  /-- The cached agent of each session. -/
  cached : List (String × Nat)
  capacity : Nat
  /-- All requests that ever arrived. -/
  requests : List ChatRequest
  deriving Inhabited

namespace Scene

/-- Before the first request. -/
def start (store : Store) (capacity : Nat) : Scene := ⟨store, [], [], capacity, []⟩

/-- The scene after a request has changed. -/
def setRequest (s : Scene) (i : Nat) (r : ChatRequest) : Scene :=
  { s with requests := s.requests.set i r }

/-- The scene after an agent has changed. -/
def setAgent (s : Scene) (n : Nat) (a : BuiltAgent) : Scene :=
  { s with agents := s.agents.set n a }

/-- Some request has a handle on the agent. -/
def isHeld (s : Scene) (n : Nat) : Bool :=
  s.requests.any fun r => r.agent == n && !r.phase.isFinished

/-- A full cache keeps only the agents that somebody holds. -/
def dropIdle (s : Scene) : Scene :=
  if s.capacity ≤ s.cached.length then
    { s with cached := s.cached.filter fun (_, n) => s.isHeld n }
  else s

/-- The agent of a session, built if it is not cached; none if the session cannot be read. -/
def agentFor (s : Scene) (id : String) : Option Nat × Scene :=
  match s.cached.lookup id with
  | some n => (some n, s)
  | none =>
    let s := s.dropIdle
    match s.store.snapshot id with
    | (.error _, store) => (none, { s with store })
    | (.ok state, store) =>
      let n := s.agents.length
      (some n, { s with
        store
        agents := s.agents ++ [⟨id, state.model, none⟩]
        cached := (id, n) :: s.cached })

/-- The turn lock of an agent is free again if the request held it. -/
def unlock (s : Scene) (i n : Nat) : Scene :=
  match s.agents[n]? with
  | some a => if a.holder = some i then s.setAgent n { a with holder := none } else s
  | none => s

/-- The request lets go of lock and handle, and stands in the given phase from then on. -/
def letGo (s : Scene) (i : Nat) (r : ChatRequest) (phase : Phase) : Scene :=
  (s.unlock i r.agent).setRequest i { r with phase }

/-- The request is over. -/
def finish (s : Scene) (i : Nat) (r : ChatRequest) : Scene := s.letGo i r .finished

/-- The request is dropped, and its turn with it. -/
def abandon (s : Scene) (i : Nat) (r : ChatRequest) : Scene := s.letGo i r .abandoned

/-- The turn fails. A buffered request is over then; a streamed one shows the failure first. -/
def breakOff (s : Scene) (i : Nat) (r : ChatRequest) (f : Failure) : Scene :=
  if r.streamed then
    let text := streamFailureText f
    s.setRequest i { r with phase := .failing text, chunks := r.chunks ++ [text] }
  else s.finish i r

end Scene

/-! ### Moves -/

/-- A request that is not a chat: it reads or changes a session at once. -/
inductive Change
  | read (id : String)
  | setModel (id model : String)
  | setSystemPrompt (id prompt : String)
  | setEnabledTools (id : String) (tools : List String)
  | clear (id : String)
  deriving DecidableEq, Repr, Inhabited

/-- The store after a change. -/
def Change.applyTo (s : Store) : Change → Store
  | read id => (s.snapshot id).2
  | setModel id model => (s.setModel id model).2
  | setSystemPrompt id prompt => (s.setSystemPrompt id prompt).2
  | setEnabledTools id tools => (s.setEnabledTools id tools).2
  | clear id => (s.clear id).2

/-- What can happen next. Requests are named by their numbers; a message that is added brings its
stamp. -/
inductive Move
  /-- A chat request arrives and gets a handle on its agent. -/
  | arrive (id message : String) (model : Option String) (streamed : Bool)
  /-- A request is dropped: before its turn, or while it runs its buffered turn. -/
  | leave (i : Nat)
  | prepare (i : Nat)
  | lock (i : Nat)
  | openTurn (i : Nat) (stamp : Stamp)
  /-- A streamed turn starts its text. -/
  | startText (i : Nat)
  /-- A streamed turn passes on a chunk. -/
  | chunk (i : Nat) (c : String)
  | complete (i : Nat) (stamp : Stamp) (o : TurnOutcome)
  /-- The first completion of a turn fails. -/
  | fail (i : Nat) (stamp : Stamp) (f : Completion.Failure)
  /-- The failure that a streamed turn has shown is recorded. -/
  | recordFailure (i : Nat) (stamp : Stamp)
  | change (c : Change)
  deriving Inhabited

namespace Scene

/-- A chat request arrives. -/
def arrive (s : Scene) (id message : String) (model : Option String) (streamed : Bool) : Scene :=
  match s.agentFor id with
  | (none, s) => s
  | (some n, s) =>
    { s with requests := s.requests ++ [⟨id, n, message, model, streamed, .arrived, []⟩] }

/-- A request prepares its turn. -/
def prepare (s : Scene) (i : Nat) (r : ChatRequest) : Scene :=
  match s.store.prepareTurn r.sessionId r.message r.model with
  | (.error _, store) => { s with store }.finish i r
  | (.ok message, store) => { s with store }.setRequest i { r with phase := .waiting message }

/-- A request takes the turn lock, if it is free. -/
def lock (s : Scene) (i : Nat) (r : ChatRequest) (message : String) : Option Scene :=
  match s.agents[r.agent]? with
  | some ⟨id, model, none⟩ =>
    some ((s.setAgent r.agent ⟨id, model, some i⟩).setRequest i { r with phase := .locked message })
  | _ => none

/-- The handler of an agent gets the model that its session has. -/
def setHandlerModel (s : Scene) (n : Nat) (model : String) : Scene :=
  match s.agents[n]? with
  | some a => s.setAgent n { a with model }
  | none => s

/-- A request opens its turn. -/
def openTurn (s : Scene) (i : Nat) (r : ChatRequest) (message : String) (stamp : Stamp) : Scene :=
  match s.store.appendUserMessage stamp r.sessionId message with
  | (.error f, store) => { s with store }.breakOff i r f
  | (.ok state, store) =>
    let input := Agents.turnInput message r.streamed state
    let phase := if r.streamed then Phase.opened input else .running input
    ({ s with store }.setHandlerModel r.agent state.model).setRequest i { r with phase }

/-- A streamed turn starts its text. -/
def startText (s : Scene) (i : Nat) (r : ChatRequest) (input : Input) : Scene :=
  match s.store.beginStreaming r.sessionId with
  | (.error f, store) => { s with store }.breakOff i r f
  | (.ok _, store) => { s with store }.setRequest i { r with phase := .running input }

/-- A streamed turn passes on a chunk, whether it can be stored or not. -/
def chunk (s : Scene) (i : Nat) (r : ChatRequest) (c : String) : Scene :=
  { s with store := (s.store.appendStreamChunk r.sessionId c).2 }.setRequest i
    { r with chunks := r.chunks ++ [c] }

/-- A turn closes with its outcome. -/
def complete (s : Scene) (i : Nat) (r : ChatRequest) (stamp : Stamp) (o : TurnOutcome) : Scene :=
  match s.store.completeTurn stamp r.sessionId o.content o.toolCalls with
  | (.error f, store) => { s with store }.breakOff i r f
  | (.ok _, store) => { s with store }.finish i r

/-- The first completion of a turn fails. A buffered turn records that at once. -/
def fail (s : Scene) (i : Nat) (r : ChatRequest) (stamp : Stamp) (f : Completion.Failure) : Scene :=
  if r.streamed then s.breakOff i r (.completion f)
  else
    let text := bufferedFailureText (.completion f)
    { s with store := (s.store.failTurn stamp r.sessionId text).2 }.finish i r

/-- A streamed turn records the failure that it has shown. -/
def recordFailure (s : Scene) (i : Nat) (r : ChatRequest) (stamp : Stamp) (text : String) : Scene :=
  { s with store := (s.store.failTurn stamp r.sessionId text).2 }.finish i r

/-- What a request does on a move of its own; none if it does not stand where the move starts. -/
def act (s : Scene) (i : Nat) (r : ChatRequest) (m : Move) : Option Scene :=
  match m, r.phase with
  | .leave _, .arrived => some (s.finish i r)
  | .leave _, .waiting _ => some (s.finish i r)
  | .leave _, .running _ => if r.streamed then none else some (s.abandon i r)
  | .prepare _, .arrived => some (s.prepare i r)
  | .lock _, .waiting message => s.lock i r message
  | .openTurn _ stamp, .locked message => some (s.openTurn i r message stamp)
  | .startText _, .opened input => some (s.startText i r input)
  | .chunk _ c, .running _ => if r.streamed then some (s.chunk i r c) else none
  | .complete _ stamp o, .running _ => some (s.complete i r stamp o)
  | .fail _ stamp f, .running _ => some (s.fail i r stamp f)
  | .recordFailure _ stamp, .failing text => some (s.recordFailure i r stamp text)
  | _, _ => none

end Scene

/-- The request that makes a move. -/
def Move.request? : Move → Option Nat
  | leave i | prepare i | lock i | openTurn i _ | startText i | chunk i _ | complete i _ _
  | fail i _ _ | recordFailure i _ => some i
  | arrive .. | change _ => none

/-- The stamp of the message that a move adds. -/
def Move.stamp? : Move → Option Stamp
  | openTurn _ stamp | complete _ stamp _ | fail _ stamp _ | recordFailure _ stamp => some stamp
  | _ => none

namespace Scene

/-- The scene after a move; none if the move cannot be made. -/
def after (s : Scene) (m : Move) : Option Scene :=
  match m with
  | .arrive id message model streamed => some (s.arrive id message model streamed)
  | .change c => some { s with store := c.applyTo s.store }
  | m => do
    let i ← m.request?
    let r ← s.requests[i]?
    s.act i r m

/-- The scene after moves, one after another. -/
def afterAll (s : Scene) : List Move → Option Scene
  | [] => some s
  | m :: ms => (s.after m).bind (afterAll · ms)

/-- The turns of a session that lie between their opening and their closing, by their requests. -/
def openTurns (s : Scene) (id : String) : List ChatRequest :=
  s.requests.filter fun r => r.sessionId == id && r.phase.isOpen

end Scene

end ChatRelay.Session
