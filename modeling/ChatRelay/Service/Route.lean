import ChatRelay.Text.Blank
import ChatRelay.Text.Utf8
import ChatRelay.Json.Reader

/-! # Routes of the service

A path names an endpoint of the service, six of them for the session that the path holds. An
endpoint answers to one method only. A session id is written in the path with percent escapes, which
must spell UTF-8. -/

namespace ChatRelay.Service

/-- What can be asked of the service. -/
inductive Endpoint
  | health | tools
  | messages | chat | model | systemPrompt | enabledTools | clear
  deriving DecidableEq, Repr, Inhabited

namespace Endpoint

/-- The method that an endpoint answers to. -/
def method : Endpoint → String
  | health => "GET"
  | tools => "GET"
  | messages => "GET"
  | clear => "DELETE"
  | _ => "POST"

/-- The methods that an endpoint allows. What can be read can also be probed. -/
def allowed (e : Endpoint) : List String := if e.method = "GET" then ["GET", "HEAD"] else [e.method]

/-- The last part of a session's path. -/
def segment : Endpoint → String
  | health => "health"
  | tools => "tools"
  | messages => "messages"
  | chat => "chat"
  | model => "model"
  | systemPrompt => "system-prompt"
  | enabledTools => "tools"
  | clear => "clear"

/-- The endpoints of a session. -/
def ofSession : List Endpoint := [messages, chat, model, systemPrompt, enabledTools, clear]

/-- The endpoint that a path names, and the session in it as it is written there. -/
def ofPath? (path : String) : Option (Endpoint × String) :=
  match (Text.splitChars '/' path.toList).map String.ofList with
  | ["", "api", "health"] => some (health, "")
  | ["", "api", "tools"] => some (tools, "")
  | ["", "api", "chat", id, last] =>
    if id.isEmpty then none else (ofSession.find? (·.segment == last)).map (·, id)
  | _ => none

end Endpoint

/-! ### Paths -/

/-- The path of a request target: without scheme and host, query and fragment. -/
def pathOf (target : String) : String :=
  let afterHost := match Text.cut "://" target with
    | some (scheme, rest) =>
      if scheme.contains '/' || scheme.contains '?' then target
      else String.ofList (rest.toList.dropWhile (· != '/'))
    | none => target
  String.ofList (afterHost.toList.takeWhile fun c => c != '?' && c != '#')

/-- The bytes that a text with percent escapes spells. A percent sign without two digits stands for
itself. -/
def percentDecode : List Char → List UInt8
  | [] => []
  | '%' :: a :: b :: r =>
    match Json.hexValue? a, Json.hexValue? b with
    | some x, some y => UInt8.ofNat (x * 16 + y) :: percentDecode r
    | _, _ => 0x25 :: percentDecode (a :: b :: r)
  | c :: r => String.utf8EncodeChar c ++ percentDecode r

/-- The session id that is written in a path, if its escapes spell UTF-8. -/
def sessionId? (written : String) : Option String := Text.strict? (percentDecode written.toList)

end ChatRelay.Service
