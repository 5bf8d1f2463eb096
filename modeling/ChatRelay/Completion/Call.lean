import ChatRelay.Completion.Message
import ChatRelay.Text.Blank
import ChatRelay.Draws

/-! # Tool calls of a completion

A model asks for a tool by name and writes the arguments as a text. The text should be a JSON
object; any other text stands for no arguments, so that the call can still be made. A call without
an id gets a fresh one when the completion is complete: until then it is a `CallDraft`. -/

namespace ChatRelay.Completion

open Json

/-- The arguments that a text means: an object, empty for any other text. -/
def parseArguments (raw : String) : Object :=
  let t := Text.trim raw
  if t.isEmpty then []
  else
    match parse? t with
    | some (.obj o) => o
    | _ => []

/-- A call as the model asked for it; it may lack an id. -/
structure CallDraft where
  id : Option String
  name : String
  rawArguments : String
  deriving DecidableEq, Repr, Inhabited

/-- A call of a tool. -/
structure ToolCall where
  id : String
  name : String
  arguments : Object
  /-- The arguments as the model wrote them. -/
  rawArguments : String
  deriving Repr, Inhabited, BEq

namespace ToolCall

/-- The call with an id and the arguments that its text means. -/
def ofRaw (id name rawArguments : String) : ToolCall :=
  ⟨id, name, parseArguments rawArguments, rawArguments⟩

/-- The call as it is listed in a conversation. -/
def descriptor (c : ToolCall) : CallDescriptor := ⟨c.id, "function", c.name, c.rawArguments⟩

end ToolCall

/-- Completes a draft. -/
def CallDraft.complete (c : CallDraft) (d : Draws) : ToolCall × Draws :=
  match c.id with
  | some id => (.ofRaw id c.name c.rawArguments, d)
  | none =>
    let (id, d) := d.callId
    (.ofRaw id c.name c.rawArguments, d)

/-- Completes drafts in order. -/
def completeCalls : List CallDraft → Draws → List ToolCall × Draws
  | [], d => ([], d)
  | c :: rest, d =>
    let (call, d) := c.complete d
    let (calls, d) := completeCalls rest d
    (call :: calls, d)

/-- What the first completion of a turn says: a text and calls. -/
structure Reply where
  content : Option String
  calls : List ToolCall
  deriving Repr, Inhabited, BEq

/-- An empty text counts as none. -/
def nonEmpty (s : Option String) : Option String := s.filter fun t => !t.isEmpty

end ChatRelay.Completion
