import ChatRelay.Json.Decode
import ChatRelay.Json.Writer

/-! # Messages and tools of a completion request

A completion request holds the entries of a conversation, by role, and the tools that the model may
call. An assistant entry may list the calls it asked for, and a tool entry answers one of them by
its id. An entry without content is written with an empty one. -/

namespace ChatRelay.Completion

open Json

/-! ### Roles -/

/-- Who speaks. -/
inductive Role
  | system | user | assistant | tool
  deriving DecidableEq, Repr, Inhabited

namespace Role

/-- The written form. -/
def name : Role → String
  | system => "system"
  | user => "user"
  | assistant => "assistant"
  | tool => "tool"

/-- The role with a written form. -/
def ofName? (s : String) : Option Role := [system, user, assistant, tool].find? (·.name == s)

/-- The document of a role. -/
def doc (r : Role) : Doc := .str r.name

end Role

/-- A choice that is written as its name, or as an object with the name as only key and `null` as
its value. -/
def choice {α : Type} (ofName? : String → Option α) : Decoder α := fun room d =>
  match d, room with
  | .str s, _ => (ofName? s).elim (.error .unfit) .ok
  | .obj _, 0 => .error .malformed
  | .obj [], _ + 1 => .error .malformed
  | .obj ((none, _) :: _), _ + 1 => .error .malformed
  | .obj ((some k, d) :: rest), _ + 1 =>
    match ofName? k with
    | none => .error .unfit
    | some a =>
      match d with
      | .null => if rest.isEmpty then .ok a else .error .malformed
      | d => .error d.mismatch
  | d, _ => .error d.mismatch

/-- Reads a role. -/
def Role.decode : Decoder Role := choice Role.ofName?

/-! ### Call descriptors -/

/-- A call as it is listed in a conversation: with its arguments as the model wrote them. -/
structure CallDescriptor where
  id : String
  kind : String
  name : String
  arguments : String
  deriving DecidableEq, Repr, Inhabited

namespace CallDescriptor

/-- The document of a descriptor. -/
def doc (c : CallDescriptor) : Doc :=
  .record [field "id" (.str c.id), field "type" (.str c.kind),
    field "function" (.record [field "name" (.str c.name), field "arguments" (.str c.arguments)])]

/-- Reads the function of a descriptor. -/
def decodeFunction : Decoder (String × String) := fun room d => do
  let s ← record ["name", "arguments"] room d
  return (← s.required "name" text, ← s.required "arguments" text)

/-- Reads a descriptor. -/
def decode : Decoder CallDescriptor := fun room d => do
  let s ← record ["id", "type", "function"] room d
  let id ← s.required "id" text
  let kind ← s.required "type" text
  let (name, arguments) ← s.required "function" decodeFunction
  return { id, kind, name, arguments }

end CallDescriptor

/-! ### Entries -/

/-- An entry of the conversation. -/
structure ChatMessage where
  role : Role
  content : Option String
  toolCallId : Option String
  toolCalls : Option (List CallDescriptor)
  deriving DecidableEq, Repr, Inhabited

namespace ChatMessage

/-- An entry with content only. -/
def plain (role : Role) (content : String) : ChatMessage := ⟨role, some content, none, none⟩

/-- The assistant entry that lists the calls it asked for. -/
def ofCalls (calls : List CallDescriptor) : ChatMessage := ⟨.assistant, none, none, some calls⟩

/-- The entry that answers a call. -/
def ofResult (callId content : String) : ChatMessage := ⟨.tool, some content, some callId, none⟩

/-- The document of an entry. -/
def doc (m : ChatMessage) : Doc :=
  .record [field "role" m.role.doc, field "content" (.str (m.content.getD "")),
    optionalField "tool_call_id" (m.toolCallId.map .str),
    optionalField "tool_calls" (m.toolCalls.map fun cs => .arr (cs.map CallDescriptor.doc))]

/-- Reads an entry. -/
def decode : Decoder ChatMessage := fun room d => do
  let s ← record ["role", "content", "tool_call_id", "tool_calls"] room d
  let role ← s.required "role" Role.decode
  let content ← s.optional "content" text
  let toolCallId ← s.optional "tool_call_id" text
  let toolCalls ← s.optional "tool_calls" (list CallDescriptor.decode)
  return { role, content, toolCallId, toolCalls }

end ChatMessage

/-! ### Tool definitions -/

/-- A tool as it is offered to the model. -/
structure ToolDefinition where
  kind : String
  name : String
  description : String
  parameters : Value
  deriving Repr, Inhabited, BEq

namespace ToolDefinition

/-- A tool that is a function. -/
def function (name description : String) (parameters : Value) : ToolDefinition :=
  ⟨"function", name, description, parameters⟩

/-- The document of a definition. -/
def doc (t : ToolDefinition) : Doc :=
  .record [field "type" (.str t.kind),
    field "function" (.record [field "name" (.str t.name),
      field "description" (.str t.description), field "parameters" t.parameters.doc])]

/-- Reads the function of a definition. -/
def decodeFunction : Decoder (String × String × Value) := fun room d => do
  let s ← record ["name", "description", "parameters"] room d
  return (← s.required "name" text, ← s.required "description" text,
    ← s.required "parameters" value)

/-- Reads a definition. -/
def decode : Decoder ToolDefinition := fun room d => do
  let s ← record ["type", "function"] room d
  let kind ← s.required "type" text
  let (name, description, parameters) ← s.required "function" decodeFunction
  return { kind, name, description, parameters }

end ToolDefinition

/-! ### Requests -/

/-- The body of a completion request. -/
structure Request where
  model : String
  messages : List ChatMessage
  tools : Option (List ToolDefinition)
  toolChoice : Option String
  maxTokens : Option Nat
  stream : Bool
  deriving Repr, Inhabited

namespace Request

/-- The document of a request. -/
def doc (r : Request) : Doc :=
  .record [field "model" (.str r.model), field "messages" (.arr (r.messages.map ChatMessage.doc)),
    optionalField "tools" (r.tools.map fun ts => .arr (ts.map ToolDefinition.doc)),
    optionalField "tool_choice" (r.toolChoice.map .str),
    optionalField "max_completion_tokens" (r.maxTokens.map .ofNat),
    field "stream" (.bool r.stream)]

/-- The number of tools offered. -/
def toolCount (r : Request) : Nat := (r.tools.map List.length).getD 0

end Request

end ChatRelay.Completion
