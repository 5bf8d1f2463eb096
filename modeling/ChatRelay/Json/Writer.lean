import ChatRelay.Json.Basic
import ChatRelay.Number.Shortest

/-! # Writing JSON

Documents are written without any space between tokens. A string escapes the quote, the backslash
and the characters below U+0020, nothing else. A double is written with the fewest digits that read
back: with a decimal point only from `10^-5` up to `10^16`, else with a signed exponent. -/

namespace ChatRelay.Json

/-- The layout of doubles. -/
def realLayout : Number.Layout := ⟨-5, 15, "+"⟩

/-- The text of a number. -/
def Num.text : Num → List Char
  | .int i => (toString i).toList
  | .real x => (realLayout.text x).toList

/-- A hexadecimal digit. -/
def hexDigit (n : Nat) : Char := Nat.digitChar (n % 16)

/-- A character inside a string. -/
def escapeChar (c : Char) : List Char :=
  if c = '"' then ['\\', '"']
  else if c = '\\' then ['\\', '\\']
  else if ' ' ≤ c then [c]
  else if c = Char.ofNat 8 then ['\\', 'b']
  else if c = '\t' then ['\\', 't']
  else if c = '\n' then ['\\', 'n']
  else if c = Char.ofNat 12 then ['\\', 'f']
  else if c = '\r' then ['\\', 'r']
  else ['\\', 'u', '0', '0', hexDigit (c.toNat / 16), hexDigit c.toNat]

/-- A string between quotes. -/
def quote (s : String) : List Char := '"' :: (s.toList.flatMap escapeChar ++ ['"'])

mutual

/-- The text of a document. Only documents without `unreadable` and `broken` parts have one; those
parts are written as `null`. -/
def Doc.render : Doc → List Char
  | .null => "null".toList
  | .bool b => (if b then "true" else "false").toList
  | .num n => n.text
  | .str s => quote s
  | .arr items => '[' :: (renderItems items ++ [']'])
  | .obj members => '{' :: (renderMembers members ++ ['}'])
  | .unreadable => "null".toList
  | .broken => "null".toList

/-- Items between commas. -/
def renderItems : List Doc → List Char
  | [] => []
  | [d] => d.render
  | d :: rest => d.render ++ ',' :: renderItems rest

/-- Members between commas. -/
def renderMembers : List (Option String × Doc) → List Char
  | [] => []
  | [(k, d)] => quote (k.getD "") ++ ':' :: d.render
  | (k, d) :: rest => quote (k.getD "") ++ ':' :: (d.render ++ ',' :: renderMembers rest)

end

/-- The text of a document. -/
def Doc.text (d : Doc) : String := String.ofList d.render

/-- The text of a value, its keys in order. -/
def Value.text (v : Value) : String := v.doc.text

/-- A document member, for writing records. -/
def field (key : String) (d : Doc) : List (Option String × Doc) := [(some key, d)]

/-- A member that is left out where it has no value. -/
def optionalField (key : String) (d : Option Doc) : List (Option String × Doc) :=
  match d with
  | none => []
  | some d => field key d

/-- A text or `null`. -/
def Doc.ofString? : Option String → Doc
  | none => .null
  | some s => .str s

/-- An integer. -/
def Doc.ofInt (i : Int) : Doc := .num (.int i)

/-- A natural number. -/
def Doc.ofNat (n : Nat) : Doc := .num (.int n)

/-- An object with the given members, in this order. -/
def Doc.record (members : List (List (Option String × Doc))) : Doc := .obj members.flatten

end ChatRelay.Json
