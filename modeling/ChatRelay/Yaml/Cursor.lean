/-! # Places in a YAML text

A text is read from the front. A cursor holds what is left of it, and the line and column that were
reached; indentation is counted in columns. A line ends with a line feed, a carriage return, both,
or one of three other line ends; all but two of them read as a line feed. -/

namespace ChatRelay.Yaml

/-! ### Characters -/

/-- The characters that a YAML text may hold. -/
def isAllowed (c : Char) : Bool :=
  let n := c.toNat
  n == 0x09 || n == 0x0A || n == 0x0D || (0x20 ≤ n && n ≤ 0x7E) || n == 0x85
    || (0xA0 ≤ n && n ≤ 0xD7FF) || (0xE000 ≤ n && n ≤ 0xFFFD) || 0x10000 ≤ n

/-- A space or a tab. -/
def isSpace (c : Char) : Bool := c == ' ' || c == '\t'

/-- A character that ends a line. -/
def isBreak (c : Char) : Bool :=
  c == '\n' || c == '\r' || c.toNat == 0x85 || c.toNat == 0x2028 || c.toNat == 0x2029

/-- A space, a tab or the end of a line. -/
def isGap (c : Char) : Bool := isSpace c || isBreak c

/-- The text ends, or a gap follows. -/
def atGap : List Char → Bool
  | [] => true
  | c :: _ => isGap c

/-- The line ends here. -/
def atLineEnd : List Char → Bool
  | [] => true
  | c :: _ => isBreak c

/-- The mark that a text may start with. -/
def byteOrderMark : Char := Char.ofNat 0xFEFF

/-! ### Cursors -/

/-- What is left of the text, and the place reached. -/
structure Cursor where
  rest : List Char
  index : Nat
  line : Nat
  column : Nat
  deriving Inhabited

namespace Cursor

/-- The start of a text. -/
def start (cs : List Char) : Cursor := ⟨cs, 0, 0, 0⟩

/-- Passes over `n` characters of the line. -/
def skip (c : Cursor) (n : Nat) : Cursor :=
  { c with rest := c.rest.drop n, index := c.index + n, column := c.column + n }

/-- Passes over the end of a line: its text, and the start of the next line. -/
def readBreak (c : Cursor) : List Char × Cursor :=
  let next (n : Nat) : Cursor := ⟨c.rest.drop n, c.index + n, c.line + 1, 0⟩
  match c.rest with
  | '\r' :: '\n' :: _ => (['\n'], next 2)
  | b :: _ =>
    if b.toNat == 0x2028 || b.toNat == 0x2029 then ([b], next 1)
    else if isBreak b then (['\n'], next 1)
    else ([], c)
  | [] => ([], c)

/-- Passes over the characters of the line in the class `p`. -/
def skipWhile (c : Cursor) (p : Char → Bool) : Cursor := c.skip (c.rest.takeWhile p).length

/-- Passes over the rest of the line, up to its end. -/
def skipLine (c : Cursor) : Cursor := c.skipWhile fun d => !isBreak d

/-- A line starts here with `---` or `...`, alone or followed by a gap. -/
def atDocumentMark (c : Cursor) : Bool :=
  c.column == 0 &&
    match c.rest with
    | '-' :: '-' :: '-' :: r => atGap r
    | '.' :: '.' :: '.' :: r => atGap r
    | _ => false

end Cursor

end ChatRelay.Yaml
