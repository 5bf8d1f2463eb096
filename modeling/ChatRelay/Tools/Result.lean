import ChatRelay.Json.Decode
import ChatRelay.Json.Writer

/-! # Results of tools

A tool answers with a weather report, a text or an error text; never with two of them. In JSON the
three are told apart by their members only: a text that fits the report is a report, else one that
has `content` is a text, else one that has `error` is an error. A record keeps an executed call
together with its result. -/

namespace ChatRelay.Tools

open Json

/-! ### Results -/

/-- A weather report. The temperature is in degrees Celsius, the humidity in percent. -/
structure WeatherReport where
  location : String
  temperature : Int
  condition : String
  humidity : Nat
  deriving DecidableEq, Repr, Inhabited

/-- What a tool answers. -/
inductive ToolResult
  | weather (report : WeatherReport)
  | content (text : String)
  | error (text : String)
  deriving DecidableEq, Repr, Inhabited

namespace WeatherReport

/-- The document of a report. -/
def doc (w : WeatherReport) : Doc :=
  .record [field "location" (.str w.location), field "temperature" (.ofInt w.temperature),
    field "condition" (.str w.condition), field "humidity" (.ofNat w.humidity)]

/-- Reads a report. -/
def decode : Decoder WeatherReport := fun room d => do
  let s ← record ["location", "temperature", "condition", "humidity"] room d
  return { location := ← s.required "location" Json.text
           temperature := ← s.required "temperature" (signed 32)
           condition := ← s.required "condition" Json.text
           humidity := ← s.required "humidity" (natural 8) }

end WeatherReport

namespace ToolResult

/-- The result is an error. -/
def isError : ToolResult → Bool
  | error _ => true
  | _ => false

/-- The document of a result. -/
def doc : ToolResult → Doc
  | weather w => w.doc
  | content t => .record [field "content" (.str t)]
  | error t => .record [field "error" (.str t)]

/-- Reads an object with one text member. -/
def decodeTextMember (name : String) : Decoder String := fun room d => do
  let s ← record [name] room d
  if s.positional then .error .unfit else s.required name Json.text

/-- Reads a result: the first of the three shapes that fits. -/
def decode : Decoder ToolResult := fun room d =>
  match anyValue room d with
  | .error e => .error e
  | .ok _ =>
    match WeatherReport.decode room d with
    | .ok w => .ok (.weather w)
    | .error _ =>
      match decodeTextMember "content" room d with
      | .ok t => .ok (.content t)
      | .error _ =>
        match decodeTextMember "error" room d with
        | .ok t => .ok (.error t)
        | .error _ => .error .unfit

end ToolResult

/-! ### Records -/

/-- An executed call and its result. -/
structure ToolCallRecord where
  id : String
  name : String
  arguments : Object
  result : ToolResult
  deriving Repr, Inhabited, BEq

namespace ToolCallRecord

/-- The document of a record. -/
def doc (r : ToolCallRecord) : Doc :=
  .record [field "id" (.str r.id), field "name" (.str r.name),
    field "arguments" (Value.obj r.arguments).doc, field "result" r.result.doc]

/-- Reads a record. -/
def decode : Decoder ToolCallRecord := fun room d => do
  let s ← record ["id", "name", "arguments", "result"] room d
  return { id := ← s.required "id" Json.text
           name := ← s.required "name" Json.text
           arguments := ← s.required "arguments" object
           result := ← s.required "result" ToolResult.decode }

end ToolCallRecord

/-- The document of a list of records. -/
def recordsDoc (rs : List ToolCallRecord) : Doc := .arr (rs.map ToolCallRecord.doc)

end ChatRelay.Tools
