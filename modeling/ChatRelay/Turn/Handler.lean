import ChatRelay.Completion.Provider
import ChatRelay.Tools.Executor
import ChatRelay.Turn.Context
import ChatRelay.Turn.Simulation

/-! # One turn

A turn asks for a first completion. If that has no calls, its text is the outcome. Otherwise every
call is run, and a follow-up completion says what came of it; the follow-up offers no tools. Only a
failure of the first completion fails the turn. Bridge, tools and follow-up cannot: a missing
catalog leaves the built-in tools, a failed tool is an error result, and a failed follow-up is
replaced by a sentence that names the tools.

A streamed turn passes its text on in chunks: the text of the first completion as it arrives, then,
after a round of tools, an empty line if there was any text, and the text of the follow-up. -/

namespace ChatRelay.Turn

open Completion Session Tools

/-! ### Texts -/

/-- The outcome of a first completion without text and calls. -/
def emptyCompletionText : String := "No response."

/-- The outcome of a follow-up without text. -/
def emptyFollowUpText : String := "Processed."

/-- The outcome of a follow-up that failed. -/
def toolsAcknowledgement (records : List ToolCallRecord) : String :=
  let names := ", ".intercalate (records.map (·.name))
  s!"I ran {names} but could not summarize the results. " ++
    "The raw results are attached to this message."

/-- A text, or another one if it is blank. -/
def orElse (fallback text : String) : String := if Text.isBlankText text then fallback else text

/-- The words of a text, each with the space that ends it. -/
def words (text : String) : List String :=
  let pieces := Text.splitChars ' ' text.toList
  let ended := pieces.dropLast.map fun w => String.ofList (w ++ [' '])
  match pieces.getLast? with
  | some (c :: r) => ended ++ [String.ofList (c :: r)]
  | _ => ended

/-! ### The handler -/

/-- Where the completions of a turn come from. -/
inductive Mode (σ : Type)
  | live (provider : Provider σ)
  | simulated

/-- The name of a mode. -/
def Mode.label {σ : Type} : Mode σ → String
  | live _ => "live"
  | simulated => "mock"

/-- What all turns share. -/
structure Handler (σ : Type) where
  mode : Mode σ
  maxTokens : Nat
  executor : Executor σ

/-- What one turn starts from. -/
structure Input where
  message : String
  history : List Message
  systemPrompt : String
  enabledTools : List String
  model : String
  streamed : Bool
  deriving Inhabited

/-- The first completion of a turn. -/
structure First where
  text : String
  calls : List ToolCall
  deriving Inhabited

/-- What a turn comes to: its outcome, or the failure of its first completion, and its chunks. -/
structure Run where
  outcome : Except Completion.Failure TurnOutcome
  chunks : List String

namespace Handler

variable {σ : Type}

/-- The tools that the turn offers. -/
def offered (h : Handler σ) (enabled : List String) : Act σ (List ToolDefinition) := do
  match ← Act.ask h.executor.bridge.list with
  | .ok tools => return filterEnabled enabled (catalog tools)
  | .error _ => return filterEnabled enabled (catalog [])

/-- The first request of a turn. -/
def primaryRequest (h : Handler σ) (i : Input) (tools : List ToolDefinition) : Request :=
  request i.model h.maxTokens (primaryMessages i.systemPrompt i.history i.message) tools i.streamed

/-- The first completion of a turn, and the chunks that it passed on. -/
def first (h : Handler σ) (i : Input) (tools : List ToolDefinition) :
    Act σ (Except Completion.Failure First × List String) := do
  match h.mode with
  | .simulated =>
    let (text, calls) ← Act.draw (simulatedReply i.message tools)
    return (.ok ⟨text, calls⟩, if i.streamed then words text else [])
  | .live provider =>
    let r := h.primaryRequest i tools
    if i.streamed then
      match ← Act.ask (provider.stream r) with
      | .error f => return (.error f, [])
      | .ok items =>
        match accumulate items with
        | (.error f, chunks) => return (.error f, chunks)
        | (.ok a, chunks) =>
          let calls ← Act.draw (completeCalls a.drafts)
          return (.ok ⟨a.fullText, calls⟩, chunks)
    else
      match ← Act.ask (provider.complete r) with
      | .error f => return (.error f, [])
      | .ok draft =>
        let reply ← Act.draw draft.complete
        return (.ok ⟨reply.content.getD "", reply.calls⟩, [])

/-- Runs one call. -/
def runCall (h : Handler σ) (c : ToolCall) : Act σ ToolCallRecord := do
  let result ← h.executor.execute c.name c.arguments
  return ⟨c.id, c.name, c.arguments, result⟩

/-- Runs all calls in order. -/
def runCalls (h : Handler σ) : List ToolCall → Act σ (List ToolCallRecord)
  | [] => return []
  | c :: rest => do
    let r ← h.runCall c
    return r :: (← h.runCalls rest)

/-- The follow-up request of a turn. -/
def followUpRequest (h : Handler σ) (i : Input) (calls : List ToolCall)
    (records : List ToolCallRecord) : Request :=
  request i.model h.maxTokens (followUpMessages i.systemPrompt i.history i.message calls records) []
    false

/-- The text of the follow-up. -/
def followUp (h : Handler σ) (i : Input) (calls : List ToolCall) (records : List ToolCallRecord) :
    Act σ String := do
  match h.mode with
  | .simulated => return simulatedFollowUp records
  | .live provider =>
    match ← Act.ask (provider.complete (h.followUpRequest i calls records)) with
    | .error _ => return toolsAcknowledgement records
    | .ok draft => return orElse emptyFollowUpText (draft.content.getD "")

/-- The chunks of a follow-up text. -/
def followUpChunks (h : Handler σ) (firstText text : String) : List String :=
  (if firstText.isEmpty then [] else ["\n\n"]) ++
    match h.mode with
    | .simulated => words text
    | .live _ => [text]

/-- Runs a turn. -/
def run (h : Handler σ) (i : Input) : Act σ Run := do
  let tools ← h.offered i.enabledTools
  let (first, chunks) ← h.first i tools
  match first with
  | .error f => return ⟨.error f, chunks⟩
  | .ok first =>
    if first.calls.isEmpty then
      return ⟨.ok ⟨orElse emptyCompletionText first.text, none⟩, chunks⟩
    else
      let records ← h.runCalls first.calls
      let text ← h.followUp i first.calls records
      let more := if i.streamed then h.followUpChunks first.text text else []
      return ⟨.ok ⟨text, some records⟩, chunks ++ more⟩

end Handler

end ChatRelay.Turn
