import ChatRelay.Session.Database
import ChatRelay.Text.Blank

/-! # The session store

All state of sessions changes through the store. An operation first creates the session with the
configured settings if it does not exist, then changes it, then answers with its state as a whole.
The change stays even if the state cannot be read afterwards. Models are kept trimmed and never
blank; enabled tools are kept trimmed, not blank and without repetitions. -/

namespace ChatRelay.Session

open Tools

/-- The database and the settings of new sessions. -/
structure Store where
  database : Database
  defaults : Defaults
  deriving Inhabited

/-- The id and the time of a new message. -/
structure Stamp where
  id : String
  time : Int
  deriving DecidableEq, Repr, Inhabited

/-- The outcome of an operation, and the store after it. -/
abbrev Store.Result (α : Type) := Except Failure α × Store

namespace Store

/-- A store over a database whose open turns are closed first. -/
def openOn (db : Database) (defaults : Defaults) : Store := ⟨db.recover.2, defaults⟩

/-- Changes a session that exists, or is created first. -/
def change {α : Type} (s : Store) (id : String) (op : Database → Except Failure (α × Database)) :
    Result α :=
  let db := s.database.ensure id s.defaults
  match op db with
  | .error f => (.error f, { s with database := db })
  | .ok (a, db) => (.ok a, { s with database := db })

/-- The state of a session. -/
def stateOf (s : Store) (id : String) : Except Failure SessionState :=
  match s.database.load id with
  | .error f => .error f
  | .ok none => .error (.database (.vanished id))
  | .ok (some state) => .ok state

/-- Changes a session and answers with its state. -/
def mutate (s : Store) (id : String) (op : Database → Except Failure Database) :
    Result SessionState :=
  match s.change id fun db => (op db).map fun db => ((), db) with
  | (.error f, s) => (.error f, s)
  | (.ok _, s) => (s.stateOf id, s)

/-- The state of a session, which is created if it does not exist. -/
def snapshot (s : Store) (id : String) : Result SessionState := s.mutate id .ok

/-! ### Turns -/

/-- Adds the user's message and opens the turn. -/
def appendUserMessage (s : Store) (stamp : Stamp) (id text : String) : Result SessionState :=
  s.mutate id fun db => db.beginTurn id ⟨stamp.id, .user, text, stamp.time, none⟩

/-- Starts the streamed text of a turn. -/
def beginStreaming (s : Store) (id : String) : Result Unit :=
  s.change id fun db => .ok ((), db.setStreaming id "")

/-- Appends to the streamed text: the text as it then stands. -/
def appendStreamChunk (s : Store) (id chunk : String) : Result String :=
  s.change id fun db => db.appendStreaming id chunk

/-- Adds the assistant's message and closes the turn. -/
def completeTurn (s : Store) (stamp : Stamp) (id text : String)
    (calls : Option (List ToolCallRecord)) : Result SessionState :=
  s.mutate id fun db =>
    db.finishTurn id ⟨stamp.id, .assistant, text, stamp.time, Message.recordsOf calls⟩

/-- Adds an assistant's message that shows a failure and closes the turn. -/
def failTurn (s : Store) (stamp : Stamp) (id text : String) : Result SessionState :=
  s.mutate id fun db => db.finishTurn id ⟨stamp.id, .assistant, text, stamp.time, none⟩

/-! ### Settings -/

/-- Sets the model. -/
def setModel (s : Store) (id model : String) : Result SessionState :=
  let model := Text.trim model
  if model.isEmpty then (.error (.invalidInput "model must not be empty"), s)
  else s.mutate id fun db => .ok (db.setModel id model)

/-- Sets the system prompt. -/
def setSystemPrompt (s : Store) (id prompt : String) : Result SessionState :=
  s.mutate id fun db => .ok (db.setSystemPrompt id prompt)

/-- One more name of a list without repetitions, in reverse. -/
def addName (acc : List String) (name : String) : List String :=
  let name := Text.trim name
  if name.isEmpty || acc.contains name then acc else name :: acc

/-- The names in the order of their first occurrence: trimmed, without blank ones. -/
def normalNames (names : List String) : List String := (names.foldl addName []).reverse

/-- Sets the enabled tools. -/
def setEnabledTools (s : Store) (id : String) (tools : List String) : Result SessionState :=
  s.mutate id fun db => .ok (db.setEnabledTools id (normalNames tools))

/-- Removes the history. Settings and the state of a running turn stay. -/
def clear (s : Store) (id : String) : Result SessionState :=
  s.mutate id fun db => .ok (db.deleteMessages id).2

/-- Prepares a turn: its trimmed message. A model that comes with it is set. -/
def prepareTurn (s : Store) (id message : String) (model : Option String) : Result String :=
  let message := Text.trim message
  if message.isEmpty then (.error (.invalidInput "message must not be empty"), s)
  else
    match model.filter fun m => !(Text.trim m).isEmpty with
    | none => (.ok message, s)
    | some m =>
      match s.setModel id (Text.trim m) with
      | (.error f, s) => (.error f, s)
      | (.ok _, s) => (.ok message, s)

end Store

end ChatRelay.Session
