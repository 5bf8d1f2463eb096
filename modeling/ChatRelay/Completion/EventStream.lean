import ChatRelay.Completion.Accumulator
import ChatRelay.Text.Utf8

/-! # Event streams

The body of a streamed completion is a sequence of events, each ended by an empty line: two line
feeds, or two pairs of carriage return and line feed, whichever comes first. The data of an event
are its `data:` lines, trimmed and joined without anything between them. Data that are no chunk, or
a chunk that adds nothing, are passed over; a chunk with a member `error` ends the stream with a
failure, and so does a failing read. The data line `[DONE]` ends the stream at once.

Bytes are decoded one event at a time, so that a character may arrive in two pieces of the body.
`EventReader` takes the body piece by piece. A body that ends cleanly may leave its last event
without an empty line. -/

namespace ChatRelay.Completion

open Json Text

/-! ### One event -/

/-- What an event says. -/
inductive EventOutcome
  | delta (d : Delta)
  | done
  | skip
  | error (f : Failure)
  deriving Repr, Inhabited

/-- The data of an event line, trimmed, if it is a data line. -/
def dataOfLine (line : List Char) : Option (List Char) :=
  let line := dropEndChars (· == '\r') line
  if "data:".toList.isPrefixOf line then some (trimChars (line.drop 5)) else none

/-- The mark that ends a stream. -/
def doneMark : List Char := "[DONE]".toList

/-- The reason given by the `error` member of a chunk: its message if that is a text, else the whole
member as JSON. -/
def errorReason (err : Value) : String :=
  ((err.member? "message").bind Value.str?).getD err.text

/-- What the data of an event say. -/
def EventOutcome.ofData (data : String) : EventOutcome :=
  if data.isEmpty then .skip
  else
    match parse? data with
    | none => .skip
    | some v =>
      match v.member? "error" with
      | some err => .error (.streamError (errorReason err))
      | none =>
        match decodeValue ChunkChoice.decodeChunk v with
        | .error _ => .skip
        | .ok choices =>
          let d := Delta.ofChoices choices
          if d.isEmpty then .skip else .delta d

/-- What an event says. -/
def EventOutcome.ofText (event : String) : EventOutcome :=
  let data := (splitChars '\n' event.toList).filterMap dataOfLine
  if data.contains doneMark then .done else .ofData (String.ofList data.flatten)

/-! ### Cutting the body -/

/-- Cuts a body after its first event: the event's bytes and what follows the empty line. `before`
are the bytes passed so far, in reverse. -/
def cutEventFrom (before : List UInt8) : List UInt8 → Option (List UInt8 × List UInt8)
  | 10 :: 10 :: rest => some (before.reverse, rest)
  | 13 :: 10 :: 13 :: 10 :: rest => some (before.reverse, rest)
  | b :: rest => cutEventFrom (b :: before) rest
  | [] => none

/-- Cuts a body after its first event. -/
def cutEvent (body : List UInt8) : Option (List UInt8 × List UInt8) := cutEventFrom [] body

/-- The events of the whole cut, as far as they are complete, and the rest; `steps` bounds their
number. -/
def cutEventsFrom : (steps : Nat) → List UInt8 → List (List UInt8) × List UInt8
  | 0, body => ([], body)
  | steps + 1, body =>
    match cutEvent body with
    | none => ([], body)
    | some (event, rest) =>
      let (events, last) := cutEventsFrom steps rest
      (event :: events, last)

/-- The complete events of a body, and the rest. -/
def cutEvents (body : List UInt8) : List (List UInt8) × List UInt8 := cutEventsFrom body.length body

/-! ### The reader -/

/-- A reader of a body: the bytes of the event that is not complete yet, the items found in reverse,
and whether the stream is over. -/
structure EventReader where
  buffer : List UInt8
  found : List StreamItem
  ended : Bool
  deriving Inhabited

namespace EventReader

/-- Before the first byte. -/
def start : EventReader := ⟨[], [], false⟩

/-- Adds an event. An ended stream takes none. -/
def addEvent (r : EventReader) (event : String) : EventReader :=
  if r.ended then r
  else
    match EventOutcome.ofText event with
    | .delta d => { r with found := .ok d :: r.found }
    | .done => { r with ended := true }
    | .skip => r
    | .error f => { r with found := .error f :: r.found, ended := true }

/-- Takes a piece of the body. -/
def feed (r : EventReader) (piece : List UInt8) : EventReader :=
  if r.ended then r
  else
    let (events, rest) := cutEvents (r.buffer ++ piece)
    let r := events.foldl (fun r e => r.addEvent (lossy e)) r
    { r with buffer := rest }

/-- The body ends cleanly. What is left is one more event, unless it is blank. -/
def finish (r : EventReader) : EventReader := r.addEvent (trim (lossy r.buffer))

/-- A read fails. -/
def abort (r : EventReader) (reason : String) : EventReader :=
  if r.ended then r
  else { r with found := .error (.streamError s!"stream read error: {reason}") :: r.found,
                ended := true }

/-- The items in order. -/
def items (r : EventReader) : List StreamItem := r.found.reverse

end EventReader

/-- The items of a body that arrives in pieces and ends cleanly, or with a failing read. -/
def streamItems (pieces : List (List UInt8)) (readError : Option String) : List StreamItem :=
  let r := pieces.foldl EventReader.feed .start
  (match readError with
    | none => r.finish
    | some reason => r.abort reason).items

end ChatRelay.Completion
