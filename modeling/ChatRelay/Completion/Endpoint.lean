import ChatRelay.Text.Blank

/-! # The completion endpoint

Completions come from a live endpoint or are simulated. There is an endpoint when both its URL and
its key are usable: neither blank nor one of the placeholders that configuration templates come
with. The values of an endpoint are trimmed, and its URL ends without a slash. -/

namespace ChatRelay.Completion

open Text

/-- Texts that only placeholders contain. -/
def placeholderMarkers : List String :=
  ["your-", "your_", "placeholder", "changeme", "change-me", "xxx", "example.com", "$\x7b", "<",
    ">"]

/-- A value that is blank or was left over from a template. Capitals count as small letters. -/
def isPlaceholder (value : String) : Bool :=
  let v := asciiLower (trim value)
  v.isEmpty || placeholderMarkers.any (occurs · v)

/-- The trimmed value, if it is there and no placeholder. -/
def usable? (value : Option String) : Option String :=
  value.bind fun v => let t := trim v; if t.isEmpty || isPlaceholder t then none else some t

/-- A live endpoint. -/
structure Endpoint where
  baseUrl : String
  apiKey : String
  deriving DecidableEq, Repr, Inhabited

/-- The endpoint with a URL and a key, if both are usable. -/
def Endpoint.of? (baseUrl apiKey : Option String) : Option Endpoint := do
  let url ← usable? baseUrl
  let key ← usable? apiKey
  return ⟨dropEnd (· == '/') url, key⟩

/-- The address that completions are posted to. -/
def Endpoint.completionsUrl (e : Endpoint) : String := e.baseUrl ++ "/chat/completions"

end ChatRelay.Completion
