import ChatRelay.Text.Blank
import ChatRelay.Text.Utf8

/-! # URLs as they are sent

A URL is sent in its normal form: scheme and host in small letters, a slash for an empty path, and
bytes that may not stand in a URL written as `%` and two hexadecimal digits. A text without an
`http` or `https` scheme and a host is no URL that can be sent. -/

namespace ChatRelay.Web

/-- A byte written as `%` and its two digits. -/
def percent (b : UInt8) : List Char :=
  ['%', (Nat.digitChar (b.toNat / 16)).toUpper, (Nat.digitChar (b.toNat % 16)).toUpper]

/-- A character of a path or query: ASCII characters stay, except controls, blanks and a few
marks. -/
def urlChar (c : Char) : List Char :=
  if c.toNat < 0x21 ∨ 0x7E < c.toNat ∨ c = '"' ∨ c = '<' ∨ c = '>' then
    (String.utf8EncodeChar c).flatMap percent
  else [c]

/-- The normal form of what follows the scheme, if there is a host. -/
def normalRest (scheme : String) (rest : List Char) : Option String :=
  let stops (c : Char) : Bool := c = '/' || c = '?' || c = '#'
  let host := rest.takeWhile fun c => !stops c
  let path := rest.dropWhile fun c => !stops c
  if host.isEmpty then none
  else
    let path := if path.head? = some '/' then path else '/' :: path
    some (scheme ++ String.ofList (host.map Char.toLower) ++ String.ofList (path.flatMap urlChar))

/-- The normal form of a URL, if it can be sent. -/
def normalUrl? (url : String) : Option String :=
  let url := Text.trim url
  let small := Text.asciiLower url
  if (Text.dropLead? "http://" small).isSome then normalRest "http://" (url.toList.drop 7)
  else if (Text.dropLead? "https://" small).isSome then normalRest "https://" (url.toList.drop 8)
  else none

end ChatRelay.Web
