import ChatRelay.Session.Failure
import ChatRelay.Session.State

/-! # The session database

Two tables hold the sessions. A row of the first is a session's settings and what is known of its
running turn; a row of the second is a message, numbered in the order of the whole table. Lists are
stored as their JSON texts. A message needs an unused id and an existing session; an operation that
fails changes nothing. -/

namespace ChatRelay.Session

open Json Tools

/-! ### Rows -/

/-- A row of the table of sessions. -/
structure SessionRow where
  id : String
  model : String
  systemPrompt : String
  /-- The JSON text of the enabled tools. -/
  enabledTools : String
  isProcessing : Bool
  streamingMessage : String
  deriving DecidableEq, Repr, Inhabited

/-- A row of the table of messages. -/
structure MessageRow where
  number : Nat
  id : String
  sessionId : String
  role : String
  content : String
  timestamp : Int
  /-- The JSON text of the calls. -/
  toolCalls : Option String
  deriving DecidableEq, Repr, Inhabited

/-- The tables, and the number of the next message. -/
structure Database where
  sessions : List SessionRow
  messages : List MessageRow
  nextNumber : Nat
  deriving DecidableEq, Repr

/-- The database without rows. -/
def Database.empty : Database := ⟨[], [], 1⟩

instance : Inhabited Database := ⟨.empty⟩

/-! ### Reading rows -/

/-- The stored form of a list of names. -/
def namesText (names : List String) : String := (Doc.arr (names.map .str)).text

/-- The names of a stored list; a text that is none stands for no names. -/
def readNames (text : String) : List String :=
  (decodeText (list Json.text) text).toOption.getD []

/-- The calls of a stored text. -/
def readRecords (text : String) : Except Failure (List ToolCallRecord) :=
  match decodeText (list ToolCallRecord.decode) text with
  | .ok rs => .ok rs
  | .error _ => .error (.serialization "stored tool calls cannot be read")

namespace MessageRow

/-- The row of a message. -/
def ofMessage (number : Nat) (sessionId : String) (m : Message) : MessageRow :=
  { number, sessionId, id := m.id, role := m.speaker.name, content := m.content
    timestamp := m.timestamp, toolCalls := m.toolCalls.map fun rs => (recordsDoc rs).text }

/-- The message of a row. -/
def message (r : MessageRow) : Except Failure Message :=
  match Speaker.ofName? r.role with
  | none => .error (.database (.unknownRole r.role r.id))
  | some speaker =>
    match r.toolCalls with
    | none => .ok ⟨r.id, speaker, r.content, r.timestamp, none⟩
    | some text =>
      match readRecords text with
      | .error f => .error f
      | .ok rs => .ok ⟨r.id, speaker, r.content, r.timestamp, some rs⟩

end MessageRow

/-- The messages of rows, up to the first that cannot be read. -/
def readMessages : List MessageRow → Except Failure (List Message)
  | [] => .ok []
  | r :: rest =>
    match r.message with
    | .error f => .error f
    | .ok m => (readMessages rest).map (m :: ·)

namespace Database

/-! ### Sessions -/

/-- The row of a session. -/
def row? (db : Database) (id : String) : Option SessionRow := db.sessions.find? (·.id == id)

/-- The rows of a session's messages. -/
def rowsOf (db : Database) (id : String) : List MessageRow := db.messages.filter (·.sessionId == id)

/-- Adds a session with its first settings, unless it exists. -/
def ensure (db : Database) (id : String) (d : Defaults) : Database :=
  match db.row? id with
  | some _ => db
  | none => { db with sessions :=
      db.sessions ++ [⟨id, d.model, d.systemPrompt, namesText d.enabledTools, false, ""⟩] }

/-- The messages of a session in order. -/
def messagesOf (db : Database) (id : String) : Except Failure (List Message) :=
  readMessages (db.rowsOf id)

/-- The state of a session, none if it does not exist. -/
def load (db : Database) (id : String) : Except Failure (Option SessionState) :=
  match db.row? id with
  | none => .ok none
  | some r =>
    match db.messagesOf id with
    | .error f => .error f
    | .ok messages =>
      .ok (some ⟨id, messages, r.isProcessing, r.streamingMessage, r.model, r.systemPrompt,
        readNames r.enabledTools⟩)

/-- Changes the row of a session, if it exists. -/
def alter (db : Database) (id : String) (f : SessionRow → SessionRow) : Database :=
  { db with sessions := db.sessions.map fun r => if r.id = id then f r else r }

/-- Sets the model. -/
def setModel (db : Database) (id model : String) : Database :=
  db.alter id fun r => { r with model }

/-- Sets the system prompt. -/
def setSystemPrompt (db : Database) (id prompt : String) : Database :=
  db.alter id fun r => { r with systemPrompt := prompt }

/-- Sets the enabled tools. -/
def setEnabledTools (db : Database) (id : String) (tools : List String) : Database :=
  db.alter id fun r => { r with enabledTools := namesText tools }

/-- Sets the streamed text. -/
def setStreaming (db : Database) (id text : String) : Database :=
  db.alter id fun r => { r with streamingMessage := text }

/-- Appends to the streamed text: the text as it then stands. -/
def appendStreaming (db : Database) (id chunk : String) : Except Failure (String × Database) :=
  match db.row? id with
  | none => .error (.database .noRow)
  | some r =>
    let text := r.streamingMessage ++ chunk
    .ok (text, db.setStreaming id text)

/-- A turn was left open. -/
def SessionRow.isInterrupted (r : SessionRow) : Bool :=
  r.isProcessing || !r.streamingMessage.isEmpty

/-- Closes the turns that were left open: their number, and the database after that. -/
def recover (db : Database) : Nat × Database :=
  (db.sessions.countP SessionRow.isInterrupted,
    { db with sessions := db.sessions.map fun r =>
        { r with isProcessing := false, streamingMessage := "" } })

/-! ### Turns -/

/-- Adds a message. -/
def insert (db : Database) (id : String) (m : Message) : Except Failure Database :=
  if db.messages.any (·.id == m.id) then .error (.database .idTaken)
  else if (db.row? id).isNone then .error (.database .noSession)
  else
    .ok { db with
      messages := db.messages ++ [.ofMessage db.nextNumber id m]
      nextNumber := db.nextNumber + 1 }

/-- Adds the user's message and opens the turn. -/
def beginTurn (db : Database) (id : String) (m : Message) : Except Failure Database :=
  (db.insert id m).map fun db => db.alter id fun r => { r with isProcessing := true }

/-- Adds the assistant's message and closes the turn. -/
def finishTurn (db : Database) (id : String) (m : Message) : Except Failure Database :=
  (db.insert id m).map fun db =>
    db.alter id fun r => { r with isProcessing := false, streamingMessage := "" }

/-- Removes the messages of a session: their number, and the database after that. -/
def deleteMessages (db : Database) (id : String) : Nat × Database :=
  ((db.rowsOf id).length,
    { db with messages := db.messages.filter fun r => !(r.sessionId == id) })

end Database

end ChatRelay.Session
