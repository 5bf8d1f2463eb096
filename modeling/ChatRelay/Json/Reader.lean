import ChatRelay.Json.Basic
import ChatRelay.Text.Utf8

/-! # Reading JSON

A text is read in two steps. `tokens` cuts it into tokens and ends with a `bad` token where no token
starts or one is left open. `assemble` walks the tokens with a stack of open arrays and objects and
yields the document; where a token does not fit, the document gets a last leaf `broken` and
everything open is closed around it. Anything that follows the document is reported as `trailing`.

The reading itself never fails: what a broken or unreadable part means is decided where the document
is decoded (`Json.Decode`), so that of two faults the first one in the text counts. -/

namespace ChatRelay.Json

open Number (Binary64)

/-! ### Tokens -/

/-- A token. Strings and numbers may have no value. -/
inductive Token
  | openArr | closeArr | openObj | closeObj | comma | colon
  | null | bool (b : Bool)
  | num (n : Option Num)
  | str (s : Option String)
  | bad
  deriving Inhabited, Repr

/-- The characters that may stand between tokens. -/
def isSpace (c : Char) : Bool := c = ' ' || c = '\n' || c = '\t' || c = '\r'

/-- The value of a hexadecimal digit. -/
def hexValue? (c : Char) : Option Nat :=
  if '0' ≤ c ∧ c ≤ '9' then some (c.toNat - '0'.toNat)
  else if 'a' ≤ c ∧ c ≤ 'f' then some (c.toNat - 'a'.toNat + 10)
  else if 'A' ≤ c ∧ c ≤ 'F' then some (c.toNat - 'A'.toNat + 10)
  else none

/-- The value of four hexadecimal digits. -/
def hex4? (a b c d : Char) : Option Nat := do
  let a ← hexValue? a
  let b ← hexValue? b
  let c ← hexValue? c
  let d ← hexValue? d
  return ((a * 16 + b) * 16 + c) * 16 + d

/-- The character that a short escape stands for. -/
def shortEscape? (c : Char) : Option Char :=
  if c = '"' ∨ c = '\\' ∨ c = '/' then some c
  else if c = 'b' then some (Char.ofNat 8)
  else if c = 'f' then some (Char.ofNat 12)
  else if c = 'n' then some '\n'
  else if c = 'r' then some '\r'
  else if c = 't' then some '\t'
  else none

/-- A string under way: its characters so far in reverse, whether it still has a value, and a high
surrogate that waits for its other half. -/
structure Quoted where
  chars : List Char
  readable : Bool
  high : Option Nat

/-- A half that waits and gets no partner takes the value away. -/
def Quoted.settle (q : Quoted) : Quoted :=
  match q.high with
  | none => q
  | some _ => ⟨q.chars, false, none⟩

/-- A character that is not an escaped UTF-16 unit. -/
def Quoted.push (q : Quoted) (c : Char) : Quoted :=
  let q := q.settle
  ⟨c :: q.chars, q.readable, none⟩

/-- An escaped UTF-16 unit. -/
def Quoted.unit (q : Quoted) (u : Nat) : Quoted :=
  match q.high with
  | some h =>
    if 0xDC00 ≤ u ∧ u ≤ 0xDFFF then
      ⟨Char.ofNat (0x10000 + (h - 0xD800) * 0x400 + (u - 0xDC00)) :: q.chars, q.readable, none⟩
    else ⟨q.chars, false, none⟩
  | none =>
    if 0xD800 ≤ u ∧ u ≤ 0xDBFF then ⟨q.chars, q.readable, some u⟩
    else if 0xDC00 ≤ u ∧ u ≤ 0xDFFF then ⟨q.chars, false, none⟩
    else ⟨Char.ofNat u :: q.chars, q.readable, none⟩

/-- The value of a finished string. -/
def Quoted.value (q : Quoted) : Option String :=
  let q := q.settle
  if q.readable then some (String.ofList q.chars.reverse) else none

/-- The rest of a string after its opening quote: its value and what follows the closing quote. No
result where the string is left open, holds a control character or an unknown escape. -/
def scanString (q : Quoted) : List Char → Option (Option String × List Char)
  | [] => none
  | '"' :: r => some (q.value, r)
  | '\\' :: 'u' :: a :: b :: c :: d :: r =>
    match hex4? a b c d with
    | none => none
    | some u => scanString (q.unit u) r
  | '\\' :: e :: r =>
    match shortEscape? e with
    | none => none
    | some c => scanString (q.push c) r
  | c :: r => if c < ' ' ∨ c = '\\' then none else scanString (q.push c) r

/-! ### Numbers -/

/-- A number under way: the digits that fit into 64 bits, the power of ten they are scaled by, and
whether a digit was left out. -/
structure Digits where
  significand : Nat
  power : Int
  full : Bool

/-- A digit of the whole part. The first one that does not fit is left out with all that follow; a
digit left out counts in the power. -/
def Digits.whole (d : Digits) (c : Char) : Digits :=
  let s := d.significand * 10 + (c.toNat - '0'.toNat)
  if d.full ∨ Nat.pow 2 64 ≤ s then ⟨d.significand, d.power + 1, true⟩ else ⟨s, d.power, false⟩

/-- A digit of the fraction. The first one that does not fit is left out with all that follow. -/
def Digits.fraction (d : Digits) (c : Char) : Digits :=
  let s := d.significand * 10 + (c.toNat - '0'.toNat)
  if d.full ∨ Nat.pow 2 64 ≤ s then ⟨d.significand, d.power, true⟩ else ⟨s, d.power - 1, false⟩

/-- The value of a digit sequence. -/
def digitsValue (ds : List Char) : Nat := ds.foldl (fun n c => n * 10 + (c.toNat - '0'.toNat)) 0

/-- The value of a number without fraction and exponent: an integer if it has 64 bits, with or
without sign, else a double; so is `-0`. -/
def wholeValue (negative : Bool) (d : Digits) : Option Num :=
  if d.power = 0 then
    if negative then
      if 0 < d.significand ∧ d.significand ≤ Nat.pow 2 63 then some (.int (-(d.significand : Int)))
      else (Binary64.readDecimal true d.significand 0).map .real
    else some (.int d.significand)
  else (Binary64.readDecimal negative d.significand d.power).map .real

/-- The digits at the start of a text, at least one. -/
def scanDigits? (cs : List Char) : Option (List Char × List Char) :=
  let ds := cs.takeWhile Char.isDigit
  if ds.isEmpty then none else some (ds, cs.dropWhile Char.isDigit)

/-- The exponent at the start of a text, if it starts one: its value and what follows. -/
def scanExponent (cs : List Char) : Option (Option Int × List Char) :=
  match cs with
  | c :: r =>
    if c = 'e' ∨ c = 'E' then
      let (negative, r) := match r with
        | '+' :: r => (false, r)
        | '-' :: r => (true, r)
        | r => (false, r)
      (scanDigits? r).map fun (ds, r) =>
        let n : Int := digitsValue ds
        (some (if negative then -n else n), r)
    else some (none, cs)
  | [] => some (none, [])

/-- The number at the start of a text, after its sign. -/
def scanUnsigned (negative : Bool) (cs : List Char) : Option (Option Num × List Char) := do
  let (ds, r) ← scanDigits? cs
  if ds.length > 1 ∧ ds.head? = some '0' then none
  let whole := ds.foldl Digits.whole ⟨0, 0, false⟩
  match r with
  | '.' :: r =>
    let (fs, r) ← scanDigits? r
    let d := fs.foldl Digits.fraction { whole with full := false }
    let (e, r) ← scanExponent r
    return ((Binary64.readDecimal negative d.significand (d.power + e.getD 0)).map .real, r)
  | r =>
    let (e, r) ← scanExponent r
    match e with
    | none => return (wholeValue negative whole, r)
    | some e =>
      return ((Binary64.readDecimal negative whole.significand (whole.power + e)).map .real, r)

/-- The number at the start of a text. -/
def scanNumber (cs : List Char) : Option (Option Num × List Char) :=
  match cs with
  | '-' :: r => scanUnsigned true r
  | _ => scanUnsigned false cs

/-! ### The token sequence -/

/-- A token that starts with `c`, and what follows it. -/
def scanToken (c : Char) (r : List Char) : Option (Token × List Char) :=
  if c = '[' then some (.openArr, r)
  else if c = ']' then some (.closeArr, r)
  else if c = '{' then some (.openObj, r)
  else if c = '}' then some (.closeObj, r)
  else if c = ',' then some (.comma, r)
  else if c = ':' then some (.colon, r)
  else if c = '"' then (scanString ⟨[], true, none⟩ r).map fun (s, r) => (.str s, r)
  else if c = '-' ∨ c.isDigit then (scanNumber (c :: r)).map fun (n, r) => (.num n, r)
  else if "null".toList.isPrefixOf (c :: r) then some (.null, r.drop 3)
  else if "true".toList.isPrefixOf (c :: r) then some (.bool true, r.drop 3)
  else if "false".toList.isPrefixOf (c :: r) then some (.bool false, r.drop 4)
  else none

/-- The tokens of a text, in reverse after `acc`; `steps` bounds their number and the spaces. -/
def tokensFrom : (steps : Nat) → (acc : List Token) → List Char → List Token
  | 0, acc, _ => acc
  | _ + 1, acc, [] => acc
  | steps + 1, acc, c :: r =>
    if isSpace c then tokensFrom steps acc r
    else
      match scanToken c r with
      | none => .bad :: acc
      | some (t, r) => tokensFrom steps (t :: acc) r

/-- The tokens of a text. -/
def tokens (cs : List Char) : List Token := (tokensFrom cs.length [] cs).reverse

/-! ### Documents -/

/-- An open array or object: what it holds so far, in reverse. An object may have a key that waits
for its value. -/
inductive Frame
  | arr (items : List Doc)
  | obj (members : List (Option String × Doc)) (key : Option (Option String))

/-- What may come next. -/
inductive Expect
  | value | firstItem | firstKey | key | colon | afterValue | nothing

/-- A document under way. -/
structure Assembly where
  stack : List Frame
  expect : Expect
  result : Option Doc
  trailing : Bool

/-- A finished value goes into the innermost open array or object, or is the document. -/
def Assembly.deliver (stack : List Frame) (d : Doc) : Assembly :=
  match stack with
  | [] => ⟨[], .nothing, some d, false⟩
  | .arr items :: rest => ⟨.arr (d :: items) :: rest, .afterValue, none, false⟩
  | .obj ms k :: rest => ⟨.obj ((k.getD none, d) :: ms) none :: rest, .afterValue, none, false⟩

/-- Puts a value into an open frame and closes it. -/
def Frame.closeWith (d : Doc) : Frame → Doc
  | .arr items => .arr (d :: items).reverse
  | .obj ms k => .obj ((k.getD none, d) :: ms).reverse

/-- The text stops being JSON here: everything open is closed around a last leaf. -/
def Assembly.fail (a : Assembly) : Assembly :=
  match a.result with
  | some d => ⟨[], .nothing, some d, true⟩
  | none => ⟨[], .nothing, some (a.stack.foldl (fun d f => f.closeWith d) .broken), false⟩

/-- A token where a value is expected. -/
def Assembly.value (a : Assembly) (t : Token) : Assembly :=
  match t with
  | .null => .deliver a.stack .null
  | .bool b => .deliver a.stack (.bool b)
  | .num n => .deliver a.stack (n.elim .unreadable .num)
  | .str s => .deliver a.stack (s.elim .unreadable .str)
  | .openArr => ⟨.arr [] :: a.stack, .firstItem, none, false⟩
  | .openObj => ⟨.obj [] none :: a.stack, .firstKey, none, false⟩
  | _ => a.fail

/-- A token where a key is expected. -/
def Assembly.key (a : Assembly) (t : Token) : Assembly :=
  match a.stack, t with
  | .obj ms _ :: rest, .str s => ⟨.obj ms (some s) :: rest, .colon, none, false⟩
  | _, _ => a.fail

/-- The innermost array or object ends. -/
def Assembly.close (a : Assembly) (t : Token) : Assembly :=
  match a.stack, t with
  | .arr items :: rest, .closeArr => .deliver rest (.arr items.reverse)
  | .obj ms _ :: rest, .closeObj => .deliver rest (.obj ms.reverse)
  | _, _ => a.fail

/-- One token of the walk. After a failure the document is complete and nothing changes it. -/
def Assembly.step (a : Assembly) (t : Token) : Assembly :=
  match a.expect, t with
  | .value, t => a.value t
  | .firstItem, .closeArr => a.close .closeArr
  | .firstItem, t => a.value t
  | .firstKey, .closeObj => a.close .closeObj
  | .firstKey, t => a.key t
  | .key, t => a.key t
  | .colon, .colon => { a with expect := .value }
  | .colon, _ => a.fail
  | .afterValue, .comma =>
    match a.stack with
    | .arr _ :: _ => { a with expect := .value }
    | _ => { a with expect := .key }
  | .afterValue, t => a.close t
  | .nothing, _ => { a with trailing := true }

/-- A text that was read: its document, and whether more than blanks follows it. -/
structure Reading where
  doc : Doc
  trailing : Bool

/-- The document of a token sequence. -/
def assemble (ts : List Token) : Reading :=
  let a := ts.foldl Assembly.step ⟨[], .value, none, false⟩
  let a := if a.result.isNone then a.fail else a
  ⟨a.result.getD .broken, a.trailing⟩

/-- The document of a text. -/
def read (s : String) : Reading := assemble (tokens s.toList)

/-! ### Bytes -/

/-- The escape of a lone high surrogate. -/
def loneSurrogate : List Char := ['\\', 'u', 'd', '8', '0', '0']

/-- A decoded byte sequence as a text to be read, in reverse after `acc`. A gap in a string takes
the string's value away, as a lone surrogate does; right after the backslash of an escape it is a
control character, which no string may hold. `escaped` tells that such a backslash comes before. -/
def gapsAsFaults (escaped : Bool) (acc : List Char) : List (Option Char) → List Char
  | [] => acc.reverse
  | none :: r =>
    if escaped then gapsAsFaults false (Char.ofNat 0 :: acc) r
    else gapsAsFaults false (loneSurrogate.reverse ++ acc) r
  | some c :: r => gapsAsFaults (c = '\\' && !escaped) (c :: acc) r

/-- The document of a text given by its bytes. -/
def readBytes (bs : List UInt8) : Reading :=
  assemble (tokens (gapsAsFaults false [] (Text.decode bs)))

end ChatRelay.Json
