import ChatRelay.Service.Payload
import ChatRelay.Service.Route
import ChatRelay.Session.Agent

/-! # Responses of the service

A request is answered with a JSON envelope: `success` and the data, or an error text with an
optional detail. A streamed chat is answered with plain text. Some answers carry no envelope: a
known path asked with another method, a session id that is not UTF-8, and the preflight of a
cross-origin request. Every answer allows any origin. -/

namespace ChatRelay.Service

open Json Session Turn

/-! ### Requests and responses -/

/-- The largest payload in bytes. -/
def payloadLimit : Nat := 2097152

/-- A request to the service. -/
structure Request where
  method : String
  target : String
  contentType : Option String
  payload : List UInt8
  deriving Inhabited

/-- What a response carries. -/
inductive Content
  | none
  | json (d : Doc)
  | text (s : String)
  /-- The text of a streamed turn, by its chunks. -/
  | stream (chunks : List String)
  deriving Inhabited

/-- A response of the service. -/
structure Response where
  status : Nat
  content : Content
  /-- The methods that are allowed, where the method was not. -/
  allow : Option (List String)
  /-- It answers a preflight. -/
  preflight : Bool
  deriving Inhabited

/-- The headers of a response. -/
def Response.headers (r : Response) : List (String × String) :=
  [("access-control-allow-origin", "*")]
    ++ (if r.preflight then
        [("access-control-allow-headers", "*"),
          ("access-control-allow-methods", "GET,POST,DELETE,OPTIONS")]
      else [])
    ++ (r.allow.toList.map fun ms => ("allow", ",".intercalate ms))
    ++ match r.content with
      | .none => []
      | .json _ => [("content-type", "application/json")]
      | .text _ => [("content-type", "text/plain; charset=utf-8")]
      | .stream _ => [("content-type", "text/plain; charset=utf-8"), ("cache-control", "no-cache"),
          ("x-content-type-options", "nosniff")]

/-- The body of a response. -/
def Response.body (r : Response) : String :=
  match r.content with
  | .none => ""
  | .json d => d.text
  | .text s => s
  | .stream chunks => "".intercalate chunks

/-- A response with a JSON document. -/
def Response.json (status : Nat) (d : Doc) : Response := ⟨status, .json d, none, false⟩

/-! ### Envelopes -/

/-- A failure as it is shown: its status, its text and an optional detail. -/
structure ServiceError where
  status : Nat
  error : String
  detail : Option String
  deriving DecidableEq, Repr, Inhabited

/-- The document of a failure. -/
def ServiceError.doc (e : ServiceError) : Doc :=
  .record [field "success" (.bool false), field "error" (.str e.error),
    optionalField "detail" (e.detail.map .str)]

/-- The response to a failure. -/
def ServiceError.response (e : ServiceError) : Response := .json e.status e.doc

/-- The response to a success. -/
def Response.success (data : Doc) : Response :=
  .json 200 (.record [field "success" (.bool true), field "data" data])

/-- A session failure as it is shown. -/
def ServiceError.ofFailure (f : Failure) : ServiceError :=
  match f with
  | .invalidInput reason => ⟨400, reason, none⟩
  | .completion g => ⟨502, "Failed to process message", some g.message⟩
  | f => ⟨500, "Internal server error", some f.message⟩

/-- The response to a path without endpoint. -/
def notFound : ServiceError := ⟨404, "Not found", none⟩

/-! ### Payloads -/

/-- Reads the payload of a request. -/
def readPayload {α : Type} (dec : Decoder α) (r : Request) : Except ServiceError α :=
  let malformed (detail : String) : Except ServiceError α :=
    .error ⟨400, "Malformed JSON payload", some detail⟩
  if !(r.contentType.map isJsonType).getD false then
    malformed ("Expected request with " ++ String.ofList [Char.ofNat 0x60]
      ++ "Content-Type: application/json" ++ String.ofList [Char.ofNat 0x60])
  else if payloadLimit < r.payload.length then
    malformed "Failed to buffer the request body: length limit exceeded"
  else
    match decodeBytes dec r.payload with
    | .ok a => .ok a
    | .error .malformed => malformed "Failed to parse the request body as JSON: malformed text"
    | .error .unfit =>
      .error ⟨400, "Missing or invalid fields",
        some "Failed to deserialize the JSON body into the target type: unexpected shape"⟩

/-! ### Endpoints -/

/-- The version of the service. -/
def version : String := "0.1.0"

variable {σ : Type}

/-- The response to an operation on a session. -/
def stateResponse (r : Except Failure SessionState) : Response :=
  match r with
  | .ok s => .success s.doc
  | .error f => (ServiceError.ofFailure f).response

/-- The service is up. -/
def health (h : Handler σ) : Response :=
  .json 200 (.record [field "status" (.str "ok"), field "mode" (.str h.mode.label),
    field "version" (.str version)])

/-- The whole catalog of tools. -/
def listTools (h : Handler σ) : AgentAct σ Response := do
  let listed ← Agents.inWorld (Act.ask h.executor.bridge.list)
  let tools := Tools.catalog (listed.toOption.getD [])
  return .success (.arr (tools.map Completion.ToolDefinition.doc))

/-- A message to a session. -/
def chat (h : Handler σ) (id : String) (p : ChatPayload) : AgentAct σ Response := do
  match ← Agents.get id with
  | .error f => return (ServiceError.ofFailure f).response
  | .ok _ =>
    if p.stream then
      match ← Agents.runStreaming h id p.message p.model with
      | .error f => return (ServiceError.ofFailure f).response
      | .ok chunks => return ⟨200, .stream chunks, none, false⟩
    else return stateResponse (← Agents.runBuffered h id p.message p.model)

/-- A new system prompt. -/
def changePrompt (id prompt : String) : AgentAct σ Response := do
  if Text.isBlankText prompt then
    return (ServiceError.mk 400 "systemPrompt must not be empty" none).response
  else return stateResponse (← Agents.onStore (·.setSystemPrompt id prompt))

/-- Goes on with the payload of a request, if it can be read. -/
def withPayload {α : Type} (dec : Decoder α) (r : Request) (k : α → AgentAct σ Response) :
    AgentAct σ Response :=
  match readPayload dec r with
  | .error e => return e.response
  | .ok a => k a

/-- Asks an endpoint of a session. -/
def serveSession (h : Handler σ) (e : Endpoint) (id : String) (r : Request) :
    AgentAct σ Response :=
  match e with
  | .messages => do return stateResponse (← Agents.onStore (·.snapshot id))
  | .chat => withPayload ChatPayload.decode r (chat h id)
  | .model => withPayload decodeModel r fun model => do
      return stateResponse (← Agents.onStore (·.setModel id model))
  | .systemPrompt => withPayload decodePrompt r (changePrompt id)
  | .enabledTools => withPayload decodeTools r fun tools => do
      return stateResponse (← Agents.onStore (·.setEnabledTools id tools))
  | .clear => do return stateResponse (← Agents.onStore (·.clear id))
  | .health => return health h
  | .tools => listTools h

/-- Asks an endpoint. -/
def serveEndpoint (h : Handler σ) (e : Endpoint) (written : String) (r : Request) :
    AgentAct σ Response :=
  match e with
  | .health => return health h
  | .tools => listTools h
  | e =>
    match sessionId? written with
    | some id => serveSession h e id r
    | none =>
      return ⟨400, .text ("Invalid URL: Invalid UTF-8 in " ++ String.ofList [Char.ofNat 0x60]
        ++ "session_id" ++ String.ofList [Char.ofNat 0x60]), none, false⟩

/-- Answers a request. -/
def respond (h : Handler σ) (r : Request) : AgentAct σ Response :=
  if r.method = "OPTIONS" then return ⟨200, .none, none, true⟩
  else
    match Endpoint.ofPath? (pathOf r.target) with
    | none => return notFound.response
    | some (e, written) =>
      if e.allowed.contains r.method then serveEndpoint h e written r
      else return ⟨405, .none, some e.allowed, false⟩

/-- The body that is sent: none to a probe. -/
def sentBody (r : Request) (a : Response) : String := if r.method = "HEAD" then "" else a.body

end ChatRelay.Service
