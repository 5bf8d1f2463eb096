import ChatRelay.Completion.Endpoint
import ChatRelay.Completion.EventStream
import ChatRelay.Completion.Response
import ChatRelay.Web.Exchange

/-! # Where completions come from

A provider answers a request with a whole message, or with the items of a stream. The live provider
posts the request to its endpoint and reads the answer. A streamed request fails at once if the
endpoint cannot be reached or answers with an error status; a failure further on is an item of the
stream. -/

namespace ChatRelay.Completion

/-- Answers completion requests. -/
structure Provider (σ : Type) where
  complete : Request → σ → Except Failure ReplyDraft × σ
  stream : Request → σ → Except Failure (List StreamItem) × σ

namespace Endpoint

/-- The web request for a completion. -/
def webRequest (e : Endpoint) (r : Request) : Web.Request :=
  { method := "POST"
    url := e.completionsUrl
    headers := [("authorization", "Bearer " ++ e.apiKey), ("content-type", "application/json")]
      ++ (if r.stream then [("accept", "text/event-stream")] else [])
    body := some r.doc.text }

/-- The answer of the endpoint, or why there is none: it cannot be reached, or its status is an
error. The text of an error answer that breaks off counts as empty. -/
def checked (e : Endpoint) : Except String Web.Answer → Except Failure Web.Answer
  | .error reason => .error (.connectionFailed e.completionsUrl reason)
  | .ok a =>
    if a.isSuccess then .ok a else .error (.httpError a.status (a.text.toOption.getD ""))

/-- The message of a whole answer. -/
def readWhole (a : Web.Answer) : Except Failure ReplyDraft :=
  match a.text with
  | .error reason => .error (.streamError s!"failed to read response body: {reason}")
  | .ok body => readResponse body

/-- The provider of a live endpoint. -/
def provider {σ : Type} (e : Endpoint) (network : Web.Network σ) : Provider σ where
  complete r s :=
    let (a, s) := network.send (e.webRequest { r with stream := false }) s
    ((e.checked a).bind readWhole, s)
  stream r s :=
    let (a, s) := network.send (e.webRequest { r with stream := true }) s
    ((e.checked a).map fun a => streamItems a.pieces a.breaksOff, s)

end Endpoint

end ChatRelay.Completion
