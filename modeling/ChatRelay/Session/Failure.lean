import ChatRelay.Completion.Failure

/-! # Failures of session operations

An operation on a session fails because the completion of a turn failed, because the database
refuses or holds something that cannot be read, or because what was asked for makes no sense. -/

namespace ChatRelay.Session

/-- What the database refuses, or cannot make sense of. -/
inductive DatabaseFault
  /-- The id of a message is taken. -/
  | idTaken
  /-- A message belongs to no session. -/
  | noSession
  /-- A row that has to be there is not. -/
  | noRow
  /-- A stored message has no known speaker. -/
  | unknownRole (role id : String)
  /-- A session is gone after an operation on it. -/
  | vanished (id : String)
  deriving DecidableEq, Repr, Inhabited

/-- The text shown for a fault of the database. -/
def DatabaseFault.message : DatabaseFault → String
  | idTaken => "UNIQUE constraint failed: messages.id"
  | noSession => "FOREIGN KEY constraint failed"
  | noRow => "Query returned no rows"
  | unknownRole role id => s!"unknown role '{role}' on message {id}"
  | vanished id => s!"session '{id}' vanished during update"

/-- Why an operation on a session failed. -/
inductive Failure
  | completion (f : Completion.Failure)
  | database (f : DatabaseFault)
  /-- A stored text cannot be read. -/
  | serialization (reason : String)
  | invalidInput (reason : String)
  deriving DecidableEq, Repr, Inhabited

/-- The text shown for a failure. -/
def Failure.message : Failure → String
  | completion f => s!"completion failed: {f.message}"
  | database f => s!"database error: {f.message}"
  | serialization reason => s!"serialization error: {reason}"
  | invalidInput reason => s!"invalid input: {reason}"

end ChatRelay.Session
