import ChatRelay.Json.Decode

/-! # Payloads of the service

Four requests bring a JSON payload. A payload is read member by member: the first fault in the text
decides whether it counts as no JSON or as JSON of another shape. -/

namespace ChatRelay.Service

open Json

/-- A message to a session. -/
structure ChatPayload where
  message : String
  model : Option String
  stream : Bool
  deriving DecidableEq, Repr, Inhabited

/-- A decoder that only looks whether the document fits. -/
def fits {α : Type} (dec : Decoder α) : Decoder Unit := fun room d => (dec room d).map fun _ => ()

/-- Reads a message to a session. -/
def ChatPayload.decode : Decoder ChatPayload := fun room d => do
  let visit (name : String) : Decoder Unit :=
    if name = "message" then fits text
    else if name = "model" then fits (nullable text)
    else fits boolean
  let s ← recordVisiting ["message", "model", "stream"] visit room d
  return { message := ← s.required "message" text
           model := ← s.defaulted "model" none (nullable text)
           stream := ← s.defaulted "stream" false boolean }

/-- Reads a payload with one member. -/
def decodeSingle {α : Type} (name : String) (dec : Decoder α) : Decoder α := fun room d => do
  let s ← recordVisiting [name] (fun _ => fits dec) room d
  s.required name dec

/-- Reads the name of a model. -/
def decodeModel : Decoder String := decodeSingle "model" text

/-- Reads a system prompt. -/
def decodePrompt : Decoder String := decodeSingle "systemPrompt" text

/-- Reads a list of tool names. -/
def decodeTools : Decoder (List String) := decodeSingle "tools" (list text)

/-! ### Media types -/

/-- The characters of a token in a header. -/
def isTokenChar (c : Char) : Bool := c.isAlphanum || "!#$%&'*+-.^_|~".contains c || c.toNat == 0x60

/-- The rest of the parameters after a quoted value. -/
def afterQuoted : List Char → Option (List Char)
  | [] => some []
  | ' ' :: r => afterQuoted r
  | ';' :: r => some r
  | _ => none

/-- The parameters of a media type are well formed; `steps` bounds their number. -/
def parametersFit : (steps : Nat) → List Char → Bool
  | 0, cs => cs.isEmpty
  | _ + 1, [] => true
  | steps + 1, ' ' :: r => parametersFit steps r
  | steps + 1, cs =>
    let name := cs.takeWhile fun c => isTokenChar c && c != '='
    match cs.dropWhile fun c => isTokenChar c && c != '=' with
    | '=' :: '"' :: r =>
      if name.isEmpty then false
      else
        match r.dropWhile (· != '"') with
        | '"' :: r => ((afterQuoted r).map (parametersFit steps)).getD false
        | _ => false
    | '=' :: r =>
      if name.isEmpty then false
      else
        match r.dropWhile isTokenChar with
        | [] => true
        | ';' :: r => parametersFit steps r
        | _ => false
    | _ => false

/-- The subtype without its suffix, and the suffix: the part after the last plus. -/
def splitSuffix (subtype : List Char) : List Char × List Char :=
  let suffix := (subtype.reverse.takeWhile (· != '+')).reverse
  if suffix.length = subtype.length then (subtype, [])
  else (subtype.take (subtype.length - suffix.length - 1), suffix)

/-- A media type that says JSON: `application/json`, or an application type with the suffix
`+json`. -/
def isJsonType (value : String) : Bool :=
  let cs := value.toList.map Char.toLower
  let kind := cs.takeWhile isTokenChar
  match cs.dropWhile isTokenChar with
  | '/' :: r =>
    let subtype := r.takeWhile isTokenChar
    let rest := r.dropWhile isTokenChar
    let (main, suffix) := splitSuffix subtype
    let json := "json".toList
    kind == "application".toList && !subtype.isEmpty && (main == json || suffix == json)
      && (match rest with
        | [] => true
        | ';' :: ps => parametersFit (ps.length + 1) ps
        | _ => false)
  | _ => false

end ChatRelay.Service
