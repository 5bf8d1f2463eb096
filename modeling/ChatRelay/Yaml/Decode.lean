import ChatRelay.Yaml.Node

/-! # Values of YAML nodes

What a node means depends on what is asked of it. As a text every scalar is its text, whatever it
looks like. As a truth value or a number only a plain scalar of the right look will do. A place
where nothing stands is also an empty list, an empty mapping or a record with no fields set; a
written `null` is not, and only an optional value may be absent that way. -/

namespace ChatRelay.Yaml

/-- Reads a node as a value, if it fits. -/
abbrev Decoder (α : Type) := Node → Option α

/-! ### Scalars -/

/-- The tag of null. -/
def nullTag : String := "tag:yaml.org,2002:null"

/-- The tag of truth values. -/
def boolTag : String := "tag:yaml.org,2002:bool"

/-- The tag of integers. -/
def intTag : String := "tag:yaml.org,2002:int"

namespace Scalar

/-- A plain scalar without text. -/
def isVoid (s : Scalar) : Bool := s.text.isEmpty && s.style == .plain

/-- A text that is read as null. -/
def isNullText (s : String) : Bool := ["null", "Null", "NULL", "~"].contains s

/-- A scalar that may be more than a text: a plain one, or a literal one with the right tag. -/
def isPlainOr (tag : String) (s : Scalar) : Bool :=
  s.style == .plain || (s.style == .literal && s.tag == some tag)

end Scalar

/-- A text. -/
def text : Decoder String
  | .scalar s => some s.text
  | _ => none

/-- The truth value of a text. -/
def boolText? (s : String) : Option Bool :=
  if ["true", "True", "TRUE"].contains s then some true
  else if ["false", "False", "FALSE"].contains s then some false
  else none

/-- A truth value. -/
def boolean : Decoder Bool
  | .scalar s => if s.isPlainOr boolTag then boolText? s.text else none
  | _ => none

/-- The number that digits of a base spell. -/
def digits? (base : Nat) (cs : List Char) : Option Nat :=
  if cs.isEmpty then none
  else cs.foldl (fun acc c => do
    let n ← acc
    let v ← Json.hexValue? c
    if v < base then some (n * base + v) else none) (some 0)

/-- The natural number of a text: an optional plus and digits, which are hexadecimal, octal or
binary behind `0x`, `0o` and `0b`. A decimal number has no leading zeros. -/
def naturalText? (s : String) : Option Nat :=
  let cs := s.toList
  let cs := if cs.head? = some '+' then cs.drop 1 else cs
  let based := match cs with
    | '0' :: 'x' :: r => digits? 16 r
    | '0' :: 'o' :: r => digits? 8 r
    | '0' :: 'b' :: r => digits? 2 r
    | _ => none
  match based with
  | some n => some n
  | none => if 1 < cs.length ∧ cs.head? = some '0' then none else digits? 10 cs

/-- A natural number of at most `bits` bits. -/
def natural (bits : Nat) : Decoder Nat
  | .scalar s =>
    if s.isPlainOr intTag then (naturalText? s.text).filter fun n => n < Nat.pow 2 bits else none
  | _ => none

/-- A value that may be absent: nothing stands there, or null does. -/
def nullable {α : Type} (dec : Decoder α) : Decoder (Option α) := fun n =>
  match n with
  | .scalar s =>
    if s.style != .plain then (dec n).map some
    else if s.tag == some nullTag then if Scalar.isNullText s.text then some none else none
    else if s.tag.isNone && (s.isVoid || Scalar.isNullText s.text) then some none
    else (dec n).map some
  | n => (dec n).map some

/-! ### Lists and mappings -/

/-- A list of values. -/
def list {α : Type} (dec : Decoder α) : Decoder (List α)
  | .seq items => items.mapM dec
  | .scalar s => if s.isVoid then some [] else none
  | _ => none

/-- A mapping from texts. Of several entries with one key the last one counts. -/
def table {α : Type} (dec : Decoder α) : Decoder (List (String × α))
  | .map entries =>
    entries.foldlM (fun acc (k, v) => do
      let k ← text k
      let v ← dec v
      return acc.filter (fun e => e.1 != k) ++ [(k, v)]) []
  | .scalar s => if s.isVoid then some [] else none
  | _ => none

/-! ### Records -/

/-- The fields of a record that are set. -/
abbrev Fields := List (String × Node)

/-- The fields of a record with the field names `names`: a mapping in which no name of them comes
twice, other keys being passed over, or a sequence of the fields in order. -/
def record (names : List String) : Decoder Fields
  | .map entries =>
    entries.foldlM (fun acc (k, v) => do
      let k ← text k
      if !names.contains k then return acc
      else if (acc.lookup k).isSome then none
      else return (k, v) :: acc) []
  | .seq items => if items.length ≤ names.length then some (names.zip items) else none
  | .scalar s => if s.isVoid then some [] else none
  | .inner => none

/-- A field that has to be set. -/
def Fields.required {α : Type} (fs : Fields) (name : String) (dec : Decoder α) : Option α :=
  (fs.lookup name).bind dec

/-- A field with a default. -/
def Fields.defaulted {α : Type} (fs : Fields) (name : String) (default : α) (dec : Decoder α) :
    Option α :=
  match fs.lookup name with
  | some n => dec n
  | none => some default

/-- Reads the one document of a text. -/
def decode {α : Type} (dec : Decoder α) (s : String) : Except Fault α :=
  match read s with
  | .error f => .error f
  | .ok n =>
    match dec n with
    | some a => .ok a
    | none => .error .unfit

end ChatRelay.Yaml
