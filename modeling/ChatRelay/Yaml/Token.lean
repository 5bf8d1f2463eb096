import ChatRelay.Yaml.Scalar

/-! # Tokens of YAML

A text is cut into tokens. Indentation shows as tokens too: a deeper line opens a block, a shallower
one ends the blocks that are deeper than it. Where a mapping starts is only known at its first
colon, behind its first key; so the place of a text that may turn out to be a key is remembered, and
the tokens that make it one are put there later. A key stands on one line and is at most 1024
characters long. -/

namespace ChatRelay.Yaml

/-- A scalar with the tag it carries. -/
structure Scalar where
  text : String
  style : Style
  tag : Option String
  deriving DecidableEq, Repr, Inhabited

/-- A tag as it is written. -/
inductive WrittenTag
  /-- In full. -/
  | whole (uri : String)
  /-- A handle that stands for the first part, and the rest. -/
  | short (handle suffix : String)
  deriving DecidableEq, Repr, Inhabited

/-- The tokens. -/
inductive Token
  | version (major minor : Nat)
  | tagHandle (handle lead : String)
  | documentStart | documentEnd
  | blockSequence | blockMapping | blockEnd
  | flowSequence | flowSequenceEnd | flowMapping | flowMappingEnd
  | item | comma | key | value
  | alias (name : String) | anchor (name : String) | tag (t : WrittenTag)
  | scalar (text : String) (style : Style)
  deriving DecidableEq, Repr, Inhabited

/-- A text that may turn out to be a key. -/
structure PossibleKey where
  /-- It stands where only a key can stand. -/
  needed : Bool
  /-- The number of tokens before it. -/
  number : Nat
  start : Cursor

/-- The state of the scan. -/
structure Scanner where
  cursor : Cursor
  /-- The tokens so far, in reverse. -/
  tokens : List Token
  count : Nat
  /-- The indentation of the innermost block, -1 outside all blocks. -/
  indent : Int
  /-- The indentations around it, from the inside. -/
  outer : List Int
  keyAllowed : Bool
  /-- The possible key outside brackets. -/
  key : Option PossibleKey
  /-- The possible key of each level of brackets, from the inside. -/
  bracketKeys : List (Option PossibleKey)

namespace Scanner

/-- The scan at the start of a text. -/
def start (cs : List Char) : Scanner := ⟨.start cs, [], 0, -1, [], true, none, []⟩

/-- The scan is inside brackets. -/
def inFlow (s : Scanner) : Bool := !s.bracketKeys.isEmpty

/-- Adds a token. -/
def emit (t : Token) (s : Scanner) : Scanner :=
  { s with tokens := t :: s.tokens, count := s.count + 1 }

/-- Puts a token behind the first `number` ones. -/
def insert (number : Nat) (t : Token) (s : Scanner) : Scanner :=
  { s with tokens := s.tokens.insertIdx (s.count - number) t, count := s.count + 1 }

/-- Passes over `n` characters. -/
def skip (n : Nat) (s : Scanner) : Scanner := { s with cursor := s.cursor.skip n }

/-! ### Indentation -/

/-- Opens a block at a column, if it is deeper than the innermost one. The opening token comes
behind the first `number` ones. -/
def openBlock (column number : Nat) (t : Token) (s : Scanner) : Scanner :=
  if s.inFlow then s
  else if s.indent < column then
    { s.insert number t with indent := column, outer := s.indent :: s.outer }
  else s

/-- Ends the blocks that are deeper than a column. -/
def closeBlocks (column : Int) (s : Scanner) : Scanner :=
  if s.inFlow then s else go s.outer s
where
  /-- One block after another. -/
  go : List Int → Scanner → Scanner
    | [], s => s
    | i :: rest, s =>
      if column < s.indent then go rest { s.emit .blockEnd with indent := i, outer := rest } else s

/-! ### Possible keys -/

/-- The possible key of the innermost level. -/
def possibleKey (s : Scanner) : Option PossibleKey := (s.bracketKeys.head?).getD s.key

/-- Sets the possible key of the innermost level. -/
def setKey (k : Option PossibleKey) (s : Scanner) : Scanner :=
  match s.bracketKeys with
  | [] => { s with key := k }
  | _ :: rest => { s with bracketKeys := k :: rest }

/-- Forgets the possible key; one that was needed is missed. -/
def dropKey (s : Scanner) : Option Scanner :=
  match s.possibleKey with
  | some k => if k.needed then none else some (s.setKey none)
  | none => some s

/-- What comes next may be a key. -/
def markKey (s : Scanner) : Option Scanner :=
  if s.keyAllowed then
    (s.dropKey).map fun s' =>
      s'.setKey (some ⟨!s.inFlow && s.indent == s.cursor.column, s.count, s.cursor⟩)
  else some s

/-- The possible key can still be one. -/
def isFresh (s : Scanner) (k : PossibleKey) : Bool :=
  k.start.line == s.cursor.line && s.cursor.index ≤ k.start.index + 1024

/-! ### Blanks and comments -/

/-- Passes over blanks, comments and line ends. -/
def skipBlanks : (steps : Nat) → Scanner → Scanner
  | 0, s => s
  | steps + 1, s =>
    let s := if s.cursor.column = 0 ∧ s.cursor.rest.head? = some byteOrderMark then s.skip 1 else s
    let c := s.cursor.skipWhile fun d => d == ' ' || ((s.inFlow || !s.keyAllowed) && d == '\t')
    let c := if c.rest.head? = some '#' then c.skipLine else c
    match c.rest with
    | [] => { s with cursor := c }
    | d :: _ =>
      if isBreak d then
        skipBlanks steps { s with cursor := c.readBreak.2, keyAllowed := s.keyAllowed || !s.inFlow }
      else { s with cursor := c }

/-! ### Names and tags -/

/-- The characters of anchors and handles. -/
def isNameChar (c : Char) : Bool := c.isAlphanum || c == '_' || c == '-'

/-- The mark that an alias of an anchor or an anchor itself may be followed by. -/
def endsName : List Char → Bool
  | [] => true
  | c :: _ => isGap c || "?:,]\x7d%@".contains c || c.toNat == 0x60

/-- The name of an anchor, behind its mark. -/
def anchorName? (cs : List Char) : Option String :=
  let name := cs.takeWhile isNameChar
  if name.isEmpty || !endsName (cs.drop name.length) then none else some (String.ofList name)

/-- The characters of a tag; in a tag written in full commas and square brackets too. -/
def isTagChar (whole : Bool) (c : Char) : Bool :=
  isNameChar c || ";/?:@&=+$.!~*'()%".contains c || (whole && ",[]".contains c)

/-- The bytes of a tag, its percent escapes resolved. -/
def tagBytes : List Char → Option (List UInt8)
  | [] => some []
  | '%' :: a :: b :: r =>
    match Json.hexValue? a, Json.hexValue? b with
    | some x, some y => (tagBytes r).map (UInt8.ofNat (x * 16 + y) :: ·)
    | _, _ => none
  | '%' :: _ => none
  | c :: r => (tagBytes r).map (String.utf8EncodeChar c ++ ·)

/-- A part of a tag: its text and its length. -/
def tagPart? (whole : Bool) (cs : List Char) : Option (String × Nat) := do
  let part := cs.takeWhile (isTagChar whole)
  let bytes ← tagBytes part
  return (← Text.strict? bytes, part.length)

/-- The handle that stands here, `!` or `!name!`, and its length. Only its name, without the second
mark, is no handle. -/
def handle? (cs : List Char) : Option (String × Nat) :=
  match cs with
  | '!' :: r =>
    let name := r.takeWhile isNameChar
    match r.drop name.length with
    | '!' :: _ => some (String.ofList ('!' :: name ++ ['!']), name.length + 2)
    | _ => if name.isEmpty then some ("!", 1) else none
  | _ => none

/-- A tag and its length. -/
def tag? (inFlow : Bool) (cs : List Char) : Option (WrittenTag × Nat) := do
  let (t, n) ← match cs with
    | '!' :: '<' :: r => do
      let (uri, n) ← tagPart? true r
      if uri.isEmpty || (r.drop n).head? != some '>' then none
      else some (WrittenTag.whole uri, n + 3)
    | _ =>
      match handle? cs with
      | some (handle, n) =>
        if n = 1 then do
          let (suffix, m) ← tagPart? false (cs.drop 1)
          some (if suffix.isEmpty then WrittenTag.whole "!" else .short "!" suffix, m + 1)
        else do
          let (suffix, m) ← tagPart? false (cs.drop n)
          if suffix.isEmpty then none else some (WrittenTag.short handle suffix, n + m)
      | none => do
        let (suffix, m) ← tagPart? false (cs.drop 1)
        some (WrittenTag.short "!" suffix, m + 1)
  let rest := cs.drop n
  if atGap rest || (inFlow && rest.head? == some ',') then some (t, n) else none

/-! ### Directives -/

/-- The rest of a directive's line: blanks and a comment. -/
def endDirective? (c : Cursor) : Option Cursor :=
  let c := c.skipWhile isSpace
  let c := if c.rest.head? = some '#' then c.skipLine else c
  if atLineEnd c.rest then some c.readBreak.2 else none

/-- A number of at most nine digits, and its length. -/
def versionNumber? (cs : List Char) : Option (Nat × Nat) :=
  let digits := cs.takeWhile Char.isDigit
  if digits.isEmpty || 9 < digits.length then none
  else some (digits.foldl (fun n d => n * 10 + (d.toNat - '0'.toNat)) 0, digits.length)

/-- A directive, behind its mark. -/
def directive? (c : Cursor) : Option (Token × Cursor) := do
  let name := c.rest.takeWhile isNameChar
  let c := c.skip name.length
  if name.isEmpty || !atGap c.rest then none
  else
    let c := c.skipWhile isSpace
    if name = "YAML".toList then do
      let (major, n) ← versionNumber? c.rest
      let c := c.skip n
      if c.rest.head? != some '.' then none
      else do
        let c := c.skip 1
        let (minor, n) ← versionNumber? c.rest
        return (.version major minor, ← endDirective? (c.skip n))
    else if name = "TAG".toList then do
      let (handle, n) ← handle? c.rest
      let c := c.skip n
      if !(c.rest.head?.map isSpace).getD false then none
      else do
        let c := c.skipWhile isSpace
        let (lead, n) ← tagPart? true c.rest
        let c := c.skip n
        if lead.isEmpty || !atGap c.rest then none
        else return (.tagHandle handle lead, ← endDirective? c)
    else none

/-! ### One token -/

/-- A line of the document that belongs to none of its blocks. -/
def atMargin (s : Scanner) : Option Scanner :=
  ((s.closeBlocks (-1)).dropKey).map fun s => { s with keyAllowed := false }

/-- An opening bracket. -/
def openBracket (t : Token) (s : Scanner) : Option Scanner :=
  s.markKey.map fun s =>
    ({ s with bracketKeys := none :: s.bracketKeys, keyAllowed := true }.skip 1).emit t

/-- A closing bracket. -/
def closeBracket (t : Token) (s : Scanner) : Option Scanner :=
  s.dropKey.map fun s =>
    ({ s with bracketKeys := s.bracketKeys.drop 1, keyAllowed := false }.skip 1).emit t

/-- A comma. -/
def comma (s : Scanner) : Option Scanner :=
  s.dropKey.map fun s => ({ s with keyAllowed := true }.skip 1).emit .comma

/-- A dash in front of an item. -/
def item (s : Scanner) : Option Scanner :=
  if !s.inFlow && !s.keyAllowed then none
  else
    ((s.openBlock s.cursor.column s.count .blockSequence).dropKey).map fun s =>
      ({ s with keyAllowed := true }.skip 1).emit .item

/-- A question mark in front of a key. -/
def explicitKey (s : Scanner) : Option Scanner :=
  if !s.inFlow && !s.keyAllowed then none
  else
    ((s.openBlock s.cursor.column s.count .blockMapping).dropKey).map fun s =>
      ({ s with keyAllowed := !s.inFlow }.skip 1).emit .key

/-- A colon behind a possible key. -/
def keyFound (k : PossibleKey) (s : Scanner) : Scanner :=
  let s := (s.insert k.number .key).openBlock k.start.column k.number .blockMapping
  ({ s.setKey none with keyAllowed := false }.skip 1).emit .value

/-- A colon without a key before it. -/
def valueAlone (s : Scanner) : Option Scanner :=
  if !s.inFlow && !s.keyAllowed then none
  else
    let s := s.openBlock s.cursor.column s.count .blockMapping
    some (({ s with keyAllowed := !s.inFlow }.skip 1).emit .value)

/-- A colon in front of a value. -/
def value (s : Scanner) : Option Scanner :=
  match s.possibleKey with
  | none => s.valueAlone
  | some k =>
    if s.isFresh k then some (s.keyFound k)
    else if k.needed then none
    else (s.setKey none).valueAlone

/-- An alias or an anchor. -/
def named (t : String → Token) (s : Scanner) : Option Scanner :=
  s.markKey.bind fun s =>
    (anchorName? (s.cursor.rest.drop 1)).map fun name =>
      ({ s with keyAllowed := false }.skip (name.length + 1)).emit (t name)

/-- A tag. -/
def tagged (s : Scanner) : Option Scanner :=
  s.markKey.bind fun s =>
    (tag? s.inFlow s.cursor.rest).map fun (t, n) =>
      ({ s with keyAllowed := false }.skip n).emit (.tag t)

/-- A literal or folded scalar. -/
def block (folded : Bool) (s : Scanner) : Option Scanner :=
  s.dropKey.bind fun s =>
    (readBlock folded s.indent s.cursor).map fun (text, c) =>
      { s with cursor := c, keyAllowed := true }.emit
        (.scalar text (if folded then .folded else .literal))

/-- A quoted scalar. -/
def quoted (quote : Char) (s : Scanner) : Option Scanner :=
  s.markKey.bind fun s =>
    (readQuoted quote s.cursor).map fun (text, c) =>
      { s with cursor := c, keyAllowed := false }.emit (.scalar text .quoted)

/-- A plain scalar. A line end behind it allows a key again. -/
def plain (s : Scanner) : Option Scanner :=
  s.markKey.bind fun s =>
    (readPlain s.inFlow (s.indent + 1).toNat s.cursor).map fun (text, broken, c) =>
      { s with cursor := c, keyAllowed := broken }.emit (.scalar text .plain)

/-- A plain scalar may start with this character, `r` being what follows. -/
def startsPlain (inFlow : Bool) (c : Char) (r : List Char) : Bool :=
  (!isGap c && !"-?:,[]\x7b\x7d#&*!|>'\"%@".contains c && c.toNat != 0x60)
    || (c == '-' && !(r.head?.map isSpace).getD false)
    || (!inFlow && (c == '?' || c == ':') && !atGap r)

/-- The token that starts with the character `c`. -/
def token (c : Char) (r : List Char) (s : Scanner) : Option Scanner :=
  if s.cursor.column = 0 ∧ c = '%' then
    s.atMargin.bind fun s =>
      (directive? (s.cursor.skip 1)).map fun (t, c) => { s with cursor := c }.emit t
  else if s.cursor.atDocumentMark then
    s.atMargin.map fun s => (s.skip 3).emit (if c = '-' then .documentStart else .documentEnd)
  else if c = '[' then s.openBracket .flowSequence
  else if c = '\x7b' then s.openBracket .flowMapping
  else if c = ']' then s.closeBracket .flowSequenceEnd
  else if c = '\x7d' then s.closeBracket .flowMappingEnd
  else if c = ',' then s.comma
  else if c = '-' ∧ atGap r then s.item
  else if c = '?' ∧ (s.inFlow ∨ atGap r) then s.explicitKey
  else if c = ':' ∧ (s.inFlow ∨ atGap r) then s.value
  else if c = '*' then s.named .alias
  else if c = '&' then s.named .anchor
  else if c = '!' then s.tagged
  else if c = '|' ∧ !s.inFlow then s.block false
  else if c = '>' ∧ !s.inFlow then s.block true
  else if c = '\'' ∨ c = '"' then s.quoted c
  else if startsPlain s.inFlow c r then s.plain
  else none

/-- All tokens from here on, if the text is well formed. -/
def run : (steps : Nat) → Scanner → Option (List Token)
  | 0, _ => none
  | steps + 1, s =>
    let s := s.skipBlanks (s.cursor.rest.length + 1)
    let s := s.closeBlocks s.cursor.column
    match s.cursor.rest with
    | [] => ((s.closeBlocks (-1)).dropKey).map fun s => s.tokens.reverse
    | c :: r => (s.token c r).bind (run steps)

end Scanner

/-- The tokens of a text. -/
def tokens (s : String) : Option (List Token) :=
  let cs := s.toList
  let cs := if cs.head? = some byteOrderMark then cs.drop 1 else cs
  if cs.all isAllowed then (Scanner.start cs).run (cs.length + 1) else none

end ChatRelay.Yaml
