import ChatRelay.Session.Store
import ChatRelay.Turn.Handler

/-! # Session agents

An agent runs the turns of one session, one at a time. A turn adds the user's message, runs with the
settings that the session then has, and closes with exactly one message by the assistant, also when
it fails. A buffered turn answers with the state of the session; a streamed turn passes its text on
in chunks, which the session also collects while the turn runs, and shows a failure as a last chunk.

Agents keep nothing but the model that they ran with last. They are kept in a cache; when it is full
the idle ones are dropped and built again on demand.

A streamed turn may be started without waiting for its text. It is then taken up before the next
turn of its session opens, and before any streamed turn; turns are taken up in the order in which
they were started. -/

namespace ChatRelay.Session

open Turn

/-- What is kept of an agent: its session, and the model of its handler. -/
structure Agent where
  sessionId : String
  model : String
  deriving DecidableEq, Repr, Inhabited

/-- A streamed turn that was started and not yet taken up. -/
structure StartedTurn where
  sessionId : String
  message : String
  deriving DecidableEq, Repr, Inhabited

/-- The agents, the store they share, and the world they act in. -/
structure Agents (σ : Type) where
  store : Store
  cached : List Agent
  capacity : Nat
  /-- The turns not yet taken up, in order. -/
  started : List StartedTurn
  world : World σ
  /-- Milliseconds since the start of 1970. -/
  clock : Int

/-- The number of agents that are kept. -/
def maxCachedAgents : Nat := 1024

/-- The text recorded when a buffered turn fails. -/
def bufferedFailureText (f : Failure) : String := s!"Sorry, I ran into a problem: {f.message}"

/-- The text sent and recorded when a streamed turn fails. -/
def streamFailureText (f : Failure) : String := s!"[Stream interrupted] {f.message}"

/-- An action of the agents. -/
abbrev AgentAct (σ : Type) := StateM (Agents σ)

namespace Agents

variable {σ : Type}

/-- Agents over a store, none of them cached. -/
def start (store : Store) (world : World σ) (clock : Int) : Agents σ :=
  ⟨store, [], maxCachedAgents, [], world, clock⟩

/-- An operation on the store. -/
def onStore {α : Type} (op : Store → Store.Result α) : AgentAct σ (Except Failure α) := fun a =>
  let (r, store) := op a.store
  (r, { a with store })

/-- An action in the world. -/
def inWorld {α : Type} (act : Act σ α) : AgentAct σ α := fun a =>
  let (r, world) := act.run a.world
  (r, { a with world })

/-- A fresh id and the time of a new message. -/
def stamp : AgentAct σ Stamp := fun a =>
  let (id, draws) := a.world.draws.messageId
  (⟨id, a.clock⟩, { a with world := { a.world with draws }, clock := a.clock + 1 })

/-! ### The cache -/

/-- The cached agent of a session. -/
def cached? (a : Agents σ) (id : String) : Option Agent := a.cached.find? (·.sessionId == id)

/-- The cache after a session's agent has run with a model. -/
def remember (agent : Agent) : AgentAct σ Unit := fun a =>
  ((), { a with cached := a.cached.map fun b =>
    if b.sessionId = agent.sessionId then agent else b })

/-- A session has a turn that is not yet taken up. -/
def isBusy (a : Agents σ) (id : String) : Bool := a.started.any (·.sessionId == id)

/-- The agent of a session. A new one starts with the session's model; if the cache is full, the
idle agents are dropped first. -/
def get (id : String) : AgentAct σ (Except Failure Agent) := do
  match (← MonadState.get).cached? id with
  | some agent => return .ok agent
  | none =>
    modify fun a =>
      if a.capacity ≤ a.cached.length then
        { a with cached := a.cached.filter fun b => a.isBusy b.sessionId }
      else a
    match ← onStore (·.snapshot id) with
    | .error f => return .error f
    | .ok state =>
      let agent : Agent := ⟨id, state.model⟩
      modify fun a => { a with cached := agent :: a.cached }
      return .ok agent

/-! ### Turns -/

/-- The trimmed message of a turn; a model that comes with it is set first. -/
def prepare (id message : String) (model : Option String) : AgentAct σ (Except Failure String) :=
  onStore (·.prepareTurn id message model)

/-- Opens the turn: the state of the session with the user's message. -/
def openTurn (id message : String) : AgentAct σ (Except Failure SessionState) := do
  let stamp ← stamp
  onStore (·.appendUserMessage stamp id message)

/-- Closes the turn with its outcome. -/
def completeTurn (id : String) (o : TurnOutcome) : AgentAct σ (Except Failure SessionState) := do
  let stamp ← stamp
  onStore (·.completeTurn stamp id o.content o.toolCalls)

/-- Closes the turn with a text that shows its failure. -/
def failTurn (id text : String) : AgentAct σ (Except Failure SessionState) := do
  let stamp ← stamp
  onStore (·.failTurn stamp id text)

/-- What a turn starts from: the state of the session that holds the user's message as its last. -/
def turnInput (message : String) (streamed : Bool) (state : SessionState) : Input :=
  { message, history := state.messages.dropLast, systemPrompt := state.systemPrompt
    enabledTools := state.enabledTools, model := state.model, streamed }

/-- A buffered turn whose message is prepared. -/
def runPrepared (h : Handler σ) (id message : String) :
    AgentAct σ (Except Failure SessionState) := do
  match ← openTurn id message with
  | .error f => return .error f
  | .ok state =>
    remember ⟨id, state.model⟩
    let run ← inWorld (h.run (turnInput message false state))
    match run.outcome with
    | .ok o => completeTurn id o
    | .error f =>
      match ← failTurn id (bufferedFailureText (.completion f)) with
      | .error g => return .error g
      | .ok _ => return .error (.completion f)

/-- Collects the chunks of a turn; a chunk that cannot be stored is passed over. -/
def collectChunks (id : String) : List String → AgentAct σ Unit
  | [] => return ()
  | c :: rest => do
    let _ ← onStore (·.appendStreamChunk id c)
    collectChunks id rest

/-- A streamed turn up to its recorded outcome: the chunks sent, and why it failed. -/
def streamTurn (h : Handler σ) (id message : String) :
    AgentAct σ (List String × Option Failure) := do
  match ← openTurn id message with
  | .error f => return ([], some f)
  | .ok state =>
    remember ⟨id, state.model⟩
    match ← onStore (·.beginStreaming id) with
    | .error f => return ([], some f)
    | .ok _ =>
      let run ← inWorld (h.run (turnInput message true state))
      collectChunks id run.chunks
      match run.outcome with
      | .error f => return (run.chunks, some (.completion f))
      | .ok o =>
        match ← completeTurn id o with
        | .error f => return (run.chunks, some f)
        | .ok _ => return (run.chunks, none)

/-- A streamed turn whose message is prepared: all chunks sent. -/
def streamPrepared (h : Handler σ) (id message : String) : AgentAct σ (List String) := do
  let (chunks, failure) ← streamTurn h id message
  match failure with
  | none => return chunks
  | some f =>
    let text := streamFailureText f
    let _ ← failTurn id text
    return chunks ++ [text]

/-! ### Turns in order -/

/-- Takes up turns one after another. -/
def takeUpAll (h : Handler σ) : List StartedTurn → AgentAct σ Unit
  | [] => return ()
  | t :: rest => do
    let _ ← streamPrepared h t.sessionId t.message
    takeUpAll h rest

/-- Takes up the turns that were started. -/
def takeUp (h : Handler σ) : AgentAct σ Unit := do
  let started := (← MonadState.get).started
  modify fun a => { a with started := [] }
  takeUpAll h started

/-- Waits for the turns of a session that were started earlier. -/
def await (h : Handler σ) (id : String) : AgentAct σ Unit := do
  if (← MonadState.get).isBusy id then takeUp h else return ()

/-- Runs a buffered turn. -/
def runBuffered (h : Handler σ) (id message : String) (model : Option String) :
    AgentAct σ (Except Failure SessionState) := do
  match ← prepare id message model with
  | .error f => return .error f
  | .ok message =>
    await h id
    runPrepared h id message

/-- Starts a streamed turn whose text nobody waits for. -/
def startStreaming (h : Handler σ) (id message : String) (model : Option String) :
    AgentAct σ (Except Failure Unit) := do
  match ← prepare id message model with
  | .error f => return .error f
  | .ok message =>
    await h id
    modify fun a => { a with started := a.started ++ [⟨id, message⟩] }
    return .ok ()

/-- Runs a streamed turn: all chunks sent. -/
def runStreaming (h : Handler σ) (id message : String) (model : Option String) :
    AgentAct σ (Except Failure (List String)) := do
  match ← prepare id message model with
  | .error f => return .error f
  | .ok message =>
    takeUp h
    return .ok (← streamPrepared h id message)

end Agents

end ChatRelay.Session
