import ChatRelay.Completion.Call
import ChatRelay.Session.State

/-! # The context of a turn

The first request of a turn holds the system directive, the last ten messages before the turn and
the user's message. After a round of tools the follow-up request holds a system directive, the last
five messages, the user's message, the calls that were asked for and one entry per result. A request
names its tools only if there are any. -/

namespace ChatRelay.Turn

open Completion Session Tools

/-! ### Directives and windows -/

/-- The messages that the first request looks back. -/
def primaryWindow : Nat := 10

/-- The messages that the follow-up request looks back. -/
def followUpWindow : Nat := 5

/-- The directive of a session that has none. -/
def defaultDirective : String := "You are a helpful AI assistant."

/-- The directive of a follow-up in a session that has none. -/
def followUpDirective : String := "You are a helpful assistant."

/-- The last `n` members of a list. -/
def lastOf {α : Type} (n : Nat) (xs : List α) : List α := xs.drop (xs.length - n)

/-- The entry of a stored message. -/
def entry (m : Message) : ChatMessage := .plain m.speaker.role m.content

/-- The system entry: the trimmed prompt, or `fallback` if it is blank. -/
def directive (fallback prompt : String) : ChatMessage :=
  let p := Text.trim prompt
  .plain .system (if p.isEmpty then fallback else p)

/-! ### Requests -/

/-- The entries of the first request. -/
def primaryMessages (prompt : String) (history : List Message) (user : String) : List ChatMessage :=
  directive defaultDirective prompt :: (lastOf primaryWindow history).map entry
    ++ [.plain .user user]

/-- The entry of a result: its JSON text, under the id of its call. -/
def resultEntry (r : ToolCallRecord) : ChatMessage := .ofResult r.id r.result.doc.text

/-- The entries of the follow-up request. -/
def followUpMessages (prompt : String) (history : List Message) (user : String)
    (calls : List ToolCall) (records : List ToolCallRecord) : List ChatMessage :=
  directive followUpDirective prompt :: (lastOf followUpWindow history).map entry
    ++ [.plain .user user, .ofCalls (calls.map ToolCall.descriptor)] ++ records.map resultEntry

/-- A request for a completion. -/
def request (model : String) (maxTokens : Nat) (messages : List ChatMessage)
    (tools : List ToolDefinition) (stream : Bool) : Request :=
  { model, messages
    tools := if tools.isEmpty then none else some tools
    toolChoice := if tools.isEmpty then none else some "auto"
    maxTokens := some maxTokens
    stream }

end ChatRelay.Turn
