import ChatRelay.Completion.Message

/-! # Messages of bridge servers

A bridge server speaks JSON-RPC 2.0, one message a line. A response carries the id of its request
and a result or an error. `tools/list` answers with tool definitions, `tools/call` with content
blocks, of which only texts are used. -/

namespace ChatRelay.Bridge

open Json Completion

/-! ### Requests and responses -/

/-- The document of a request, or of a notification if it has no id. -/
def callDoc (id : Option Nat) (method : String) (params : Option Value) : Doc :=
  .record [field "jsonrpc" (.str "2.0"), optionalField "id" (id.map .ofNat),
    field "method" (.str method), optionalField "params" (params.map Value.doc)]

/-- An error of the server. -/
structure RpcError where
  code : Int
  message : String
  deriving DecidableEq, Repr, Inhabited

/-- A message from the server, as far as it can be a response. -/
structure RpcResponse where
  id : Option Nat
  result : Option Value
  error : Option RpcError
  deriving Repr, Inhabited, BEq

/-- Reads an error. -/
def RpcError.decode : Decoder RpcError := fun room d => do
  let s ← record ["code", "message"] room d
  return { code := ← s.required "code" (signed 32)
           message := ← s.required "message" Json.text }

/-- Reads a response. -/
def RpcResponse.decode : Decoder RpcResponse := fun room d => do
  let s ← record ["id", "result", "error"] room d
  return { id := ← s.defaulted "id" none (nullable (natural 64))
           result := ← s.defaulted "result" none (nullable value)
           error := ← s.defaulted "error" none (nullable RpcError.decode) }

/-! ### Tools of a server -/

/-- A tool as a server lists it. -/
structure ListedTool where
  name : String
  description : String
  inputSchema : Value
  deriving Repr, Inhabited, BEq

namespace ListedTool

/-- The document of a listed tool. -/
def doc (t : ListedTool) : Doc :=
  .record [field "name" (.str t.name), field "description" (.str t.description),
    field "input_schema" t.inputSchema.doc]

/-- Reads a listed tool. The schema has two names. -/
def decode : Decoder ListedTool := fun room d => do
  let s ← record ["name", "description", ⟨"input_schema", ["inputSchema"]⟩] room d
  return { name := ← s.required "name" Json.text
           description := ← s.defaulted "description" "" Json.text
           inputSchema := ← s.defaulted "input_schema" .null value }

/-- The schema of a tool that says nothing about its arguments. -/
def emptySchema : Value := .obj [("properties", .obj []), ("type", .str "object")]

/-- The tool as it is offered to the model. A schema that is no object counts as empty. -/
def definition (t : ListedTool) : ToolDefinition :=
  .function t.name t.description <|
    match t.inputSchema with
    | .obj o => .obj o
    | _ => emptySchema

end ListedTool

/-- Reads the result of `tools/list`. -/
def decodeTools : Decoder (List ListedTool) := fun room d => do
  let s ← record ["tools"] room d
  s.defaulted "tools" [] (list ListedTool.decode)

/-! ### Results of calls -/

/-- A content block: a text, or something that is passed over. -/
inductive ContentBlock
  | text (s : String)
  | other
  deriving DecidableEq, Repr, Inhabited

namespace ContentBlock

/-- The kind given by the `type` member, which must stand there once. -/
def kindOf : List (Option String × Doc) → Option String → Except Fault String
  | [], some k => .ok k
  | [], none => .error .unfit
  | (some "type", .str s) :: rest, none => kindOf rest (some s)
  | (some "type", _) :: _, _ => .error .unfit
  | _ :: rest, k => kindOf rest k

/-- Reads the text of a block without its kind. -/
def decodeText : Decoder ContentBlock := fun room d => do
  let s ← record ["text"] room d
  return .text (← s.required "text" Json.text)

/-- Reads a block: an object whose member `type` gives the kind, or an array that starts with it. -/
def decode : Decoder ContentBlock := fun room d =>
  match anyValue room d with
  | .error e => .error e
  | .ok _ =>
    match d with
    | .obj ms =>
      match kindOf ms none with
      | .error e => .error e
      | .ok kind => if kind = "text" then decodeText room d else .ok .other
    | .arr (.str kind :: rest) =>
      if kind = "text" then decodeText room (.arr rest)
      else if rest.isEmpty then .ok .other
      else .error .unfit
    | _ => .error .unfit

/-- The text of a block that has one. -/
def text? : ContentBlock → Option String
  | text s => some s
  | other => none

end ContentBlock

/-- The result of `tools/call`. -/
structure CallOutcome where
  content : List ContentBlock
  isError : Bool
  deriving DecidableEq, Repr, Inhabited

namespace CallOutcome

/-- Reads the result of a call. The flag has two names. -/
def decode : Decoder CallOutcome := fun room d => do
  let s ← record ["content", ⟨"is_error", ["isError"]⟩] room d
  return { content := ← s.defaulted "content" [] (list ContentBlock.decode)
           isError := ← s.defaulted "is_error" false boolean }

/-- The texts of a result, one a line. -/
def text (o : CallOutcome) : String := "\n".intercalate (o.content.filterMap ContentBlock.text?)

end CallOutcome

end ChatRelay.Bridge
