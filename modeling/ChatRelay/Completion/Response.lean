import ChatRelay.Completion.Call
import ChatRelay.Completion.Failure

/-! # Whole responses

A completion that is not streamed arrives as one JSON text. Its first choice holds the message: a
text, and calls whose arguments are a text or, from some endpoints, any other JSON value, which then
stands for its own text. Calls with a blank name are dropped. -/

namespace ChatRelay.Completion

open Json

/-- A message: its text and its calls. -/
structure ReplyDraft where
  content : Option String
  drafts : List CallDraft
  deriving DecidableEq, Repr, Inhabited

/-- The text that stands for the arguments. -/
def argumentText : Option Value → String
  | none => ""
  | some .null => ""
  | some (.str s) => s
  | some v => v.text

namespace ReplyDraft

/-- Reads the function of a call: its name and its arguments. -/
def decodeFunction : Decoder (String × String) := fun room d => do
  let s ← record ["name", "arguments"] room d
  let name ← s.required "name" text
  let arguments ← s.defaulted "arguments" none (nullable value)
  return (name, argumentText arguments)

/-- Reads a call. -/
def decodeCall : Decoder CallDraft := fun room d => do
  let s ← record ["id", "function"] room d
  let id ← s.defaulted "id" none (nullable text)
  let (name, arguments) ← s.required "function" decodeFunction
  return ⟨nonEmpty id, Text.trim name, arguments⟩

/-- Reads a message. -/
def decodeMessage : Decoder ReplyDraft := fun room d => do
  let s ← record ["content", "tool_calls"] room d
  let content ← s.defaulted "content" none (nullable text)
  let calls ← s.defaulted "tool_calls" none (nullable (list decodeCall))
  return ⟨nonEmpty content, (calls.getD []).filter fun c => !c.name.isEmpty⟩

/-- Reads a choice. -/
def decodeChoice : Decoder ReplyDraft := fun room d => do
  let s ← record ["message"] room d
  s.required "message" decodeMessage

/-- Reads the choices of a response. -/
def decodeChoices : Decoder (List ReplyDraft) := fun room d => do
  let s ← record ["choices"] room d
  s.defaulted "choices" [] (list decodeChoice)

end ReplyDraft

/-- The words for a fault of a text. -/
def faultWords : Fault → String
  | .malformed => "not a JSON text"
  | .unfit => "unexpected shape"

/-- The message of a whole response. -/
def readResponse (body : String) : Except Failure ReplyDraft :=
  match decodeText ReplyDraft.decodeChoices body with
  | .error f =>
    .error (.malformedResponse s!"failed to parse completion response: {faultWords f}")
  | .ok [] => .error (.malformedResponse "empty choices array")
  | .ok (m :: _) => .ok m

/-- The reply that a message amounts to. -/
def ReplyDraft.complete (m : ReplyDraft) (d : Draws) : Reply × Draws :=
  let (calls, d) := completeCalls m.drafts d
  (⟨m.content, calls⟩, d)

end ChatRelay.Completion
