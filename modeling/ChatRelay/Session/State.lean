import ChatRelay.Completion.Message
import ChatRelay.Tools.Result

/-! # Sessions

A session is a history of messages by the user and the assistant, its settings, and what is known of
a turn that runs: a flag, and the text streamed so far. Every operation on a session answers with
its whole state. -/

namespace ChatRelay.Session

open Json Tools

/-! ### Messages -/

/-- Who wrote a message. -/
inductive Speaker
  | user | assistant
  deriving DecidableEq, Repr, Inhabited

namespace Speaker

/-- The written form. -/
def name : Speaker → String
  | user => "user"
  | assistant => "assistant"

/-- The speaker with a written form. -/
def ofName? (s : String) : Option Speaker := [user, assistant].find? (·.name == s)

/-- Reads a speaker. -/
def decode : Decoder Speaker := Completion.choice ofName?

/-- The role of a speaker's messages in a completion request. -/
def role : Speaker → Completion.Role
  | user => .user
  | assistant => .assistant

end Speaker

/-- A message of a history. -/
structure Message where
  id : String
  speaker : Speaker
  content : String
  /-- Milliseconds since the start of 1970. -/
  timestamp : Int
  toolCalls : Option (List ToolCallRecord)
  deriving Repr, Inhabited, BEq

namespace Message

/-- The document of a message. -/
def doc (m : Message) : Doc :=
  .record [field "id" (.str m.id), field "role" (.str m.speaker.name),
    field "content" (.str m.content), field "timestamp" (.ofInt m.timestamp),
    optionalField "toolCalls" (m.toolCalls.map recordsDoc)]

/-- Reads a message. -/
def decode : Decoder Message := fun room d => do
  let s ← record ["id", "role", "content", "timestamp", "toolCalls"] room d
  return { id := ← s.required "id" Json.text
           speaker := ← s.required "role" Speaker.decode
           content := ← s.required "content" Json.text
           timestamp := ← s.required "timestamp" (signed 64)
           toolCalls := ← s.defaulted "toolCalls" none (nullable (list ToolCallRecord.decode)) }

/-- An empty list of calls counts as none. -/
def recordsOf (calls : Option (List ToolCallRecord)) : Option (List ToolCallRecord) :=
  calls.filter fun cs => !cs.isEmpty

end Message

/-! ### States -/

/-- What every operation on a session answers with. -/
structure SessionState where
  sessionId : String
  messages : List Message
  isProcessing : Bool
  /-- The text streamed so far by the running turn. -/
  streamingMessage : String
  model : String
  systemPrompt : String
  enabledTools : List String
  deriving Repr, Inhabited, BEq

namespace SessionState

/-- The document of a state. -/
def doc (s : SessionState) : Doc :=
  .record [field "sessionId" (.str s.sessionId),
    field "messages" (.arr (s.messages.map Message.doc)),
      field "isProcessing" (.bool s.isProcessing),
        field "streamingMessage" (.str s.streamingMessage),
    field "model" (.str s.model), field "systemPrompt" (.str s.systemPrompt),
    field "enabledTools" (.arr (s.enabledTools.map .str))]

/-- Reads a state. -/
def decode : Decoder SessionState := fun room d => do
  let s ← record ["sessionId", "messages", "isProcessing", "streamingMessage", "model",
    "systemPrompt", "enabledTools"] room d
  return { sessionId := ← s.required "sessionId" Json.text
           messages := ← s.required "messages" (list Message.decode)
           isProcessing := ← s.required "isProcessing" boolean
           streamingMessage := ← s.required "streamingMessage" Json.text
           model := ← s.required "model" Json.text
           systemPrompt := ← s.required "systemPrompt" Json.text
           enabledTools := ← s.required "enabledTools" (list Json.text) }

end SessionState

/-- The settings of a new session. -/
structure Defaults where
  model : String
  systemPrompt : String
  enabledTools : List String
  deriving DecidableEq, Repr, Inhabited

/-! ### Outcomes -/

/-- What a turn leaves behind: the assistant's text and the calls it made. -/
structure TurnOutcome where
  content : String
  toolCalls : Option (List ToolCallRecord)
  deriving Repr, Inhabited, BEq

namespace TurnOutcome

/-- The document of an outcome. -/
def doc (o : TurnOutcome) : Doc :=
  .record [field "content" (.str o.content), optionalField "toolCalls" (o.toolCalls.map recordsDoc)]

/-- Reads an outcome. -/
def decode : Decoder TurnOutcome := fun room d => do
  let s ← record ["content", "toolCalls"] room d
  return { content := ← s.required "content" Json.text
           toolCalls := ← s.defaulted "toolCalls" none (nullable (list ToolCallRecord.decode)) }

end TurnOutcome

end ChatRelay.Session
