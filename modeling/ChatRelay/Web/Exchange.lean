import ChatRelay.Web.Url

/-! # Exchanges with web servers

A request is sent to a URL and answered, or the exchange fails: the server cannot be reached, or the
URL is none. The body of an answer arrives in pieces and may break off. -/

namespace ChatRelay.Web

/-- A request to a web server. -/
structure Request where
  method : String
  url : String
  headers : List (String × String)
  body : Option String
  deriving DecidableEq, Repr, Inhabited

/-- The answer to a request: its status, and its body up to its end or to where it breaks off. -/
structure Answer where
  status : Nat
  pieces : List (List UInt8)
  breaksOff : Option String
  deriving DecidableEq, Repr, Inhabited

/-- The status says that the request succeeded. -/
def Answer.isSuccess (a : Answer) : Bool := 200 ≤ a.status && a.status < 300

/-- The text of a body, unless it breaks off. -/
def Answer.text (a : Answer) : Except String String :=
  match a.breaksOff with
  | some reason => .error reason
  | none => .ok (Text.lossy a.pieces.flatten)

/-- The way to the web servers. -/
structure Network (σ : Type) where
  send : Request → σ → Except String Answer × σ

/-- Why a request cannot be sent: its URL is none, or no server answers there. -/
def unsentReason (url : String) : String :=
  match normalUrl? url with
  | none => "builder error"
  | some u => s!"error sending request for url ({u})"

/-- A network on which no server can be reached. -/
def unreachable {σ : Type} : Network σ := ⟨fun r s => (.error (unsentReason r.url), s)⟩

/-! ### Queries -/

/-- A byte of a query value: letters, digits and four marks stay, a space becomes a plus, and every
other byte is written as its two hexadecimal digits. -/
def queryByte (b : UInt8) : List Char :=
  let c := Char.ofNat b.toNat
  if c.isAlphanum ∨ c = '*' ∨ c = '-' ∨ c = '.' ∨ c = '_' then [c]
  else if c = ' ' then ['+']
  else ['%', (Nat.digitChar (b.toNat / 16)).toUpper, (Nat.digitChar (b.toNat % 16)).toUpper]

/-- A name or value in a query. -/
def queryText (s : String) : String := String.ofList ((Text.encode s).flatMap queryByte)

/-- A URL with a query. -/
def withQuery (url : String) (pairs : List (String × String)) : String :=
  let query := "&".intercalate (pairs.map fun (k, v) => queryText k ++ "=" ++ queryText v)
  url ++ (if url.contains '?' then "&" else "?") ++ query

end ChatRelay.Web
