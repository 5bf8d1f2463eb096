import ChatRelay.Yaml.Cursor
import ChatRelay.Json.Reader

/-! # Scalars of YAML

A scalar is a text in one of four styles. Plain and quoted scalars may run over several lines; a
line end between two words then reads as a space, and each empty line as a line feed. A literal
scalar keeps its lines, a folded one joins those that start without a blank; both say how their last
line ends.

Every reader here gives the text and the place after it, or nothing if the scalar is malformed. -/

namespace ChatRelay.Yaml

/-- How a scalar is written. -/
inductive Style
  | plain | quoted | literal | folded
  deriving DecidableEq, Repr, Inhabited

/-! ### Gaps between words -/

/-- What stands between two words: blanks, or line ends with the blanks around them left out. -/
structure Gap where
  /-- The blanks, if no line ended. -/
  blanks : List Char
  /-- A line ended. -/
  broken : Bool
  /-- The first line end. -/
  leading : List Char
  /-- The further line ends. -/
  trailing : List Char

namespace Gap

/-- Nothing between two words. -/
def none : Gap := ⟨[], false, [], []⟩

/-- A line that was ended by a backslash. -/
def escaped : Gap := ⟨[], true, [], []⟩

/-- The text that a gap reads as. -/
def text (g : Gap) : List Char :=
  if g.broken then
    if g.leading.head? = some '\n' then (if g.trailing.isEmpty then [' '] else g.trailing)
    else g.leading ++ g.trailing
  else g.blanks

/-- The gap that follows, after `g`. In a line that continues a scalar, no tab may stand left of the
column `margin`. -/
def read (margin : Nat) : (steps : Nat) → Gap → Cursor → Option (Gap × Cursor)
  | 0, g, c => some (g, c)
  | steps + 1, g, c =>
    match c.rest with
    | [] => some (g, c)
    | d :: _ =>
      if isSpace d then
        if g.broken then
          if d = '\t' ∧ c.column < margin then Option.none else read margin steps g (c.skip 1)
        else read margin steps { g with blanks := g.blanks ++ [d] } (c.skip 1)
      else if isBreak d then
        let (b, c) := c.readBreak
        if g.broken then read margin steps { g with trailing := g.trailing ++ b } c
        else read margin steps { g with blanks := [], broken := true, leading := b } c
      else some (g, c)

end Gap

/-! ### Plain scalars -/

/-- The marks that end a plain scalar inside brackets. -/
def isFlowMark (c : Char) : Bool := c == ',' || c == '[' || c == ']' || c == '\x7b' || c == '\x7d'

/-- The length of the word that stands here. A colon ends it where a gap follows. Inside brackets,
marks end it too, and a colon may not stand right before a mark or a question mark. -/
def plainWord (inFlow : Bool) : List Char → Nat → Option Nat
  | [], n => some n
  | c :: r, n =>
    if isGap c then some n
    else if inFlow && c == ':' &&
      (r.head?.map fun d => isFlowMark d || d == '?').getD false then none
    else if c == ':' && atGap r then some n
    else if inFlow && isFlowMark c then some n
    else plainWord inFlow r (n + 1)

/-- The words of a plain scalar after the text `acc` and the gap `g`. Outside brackets a further
line has to reach the column `margin`. Gives the gap passed last. -/
def plainWords (inFlow : Bool) (margin : Nat) :
    (steps : Nat) → (acc : List Char) → Gap → Cursor → Option (List Char × Gap × Cursor)
  | 0, acc, g, c => some (acc, g, c)
  | steps + 1, acc, g, c =>
    if c.atDocumentMark || c.rest.head? == some '#' then some (acc, g, c)
    else
      match plainWord inFlow c.rest 0 with
      | none => none
      | some n =>
        let (acc, g) := if n = 0 then (acc, g) else (acc ++ g.text ++ c.rest.take n, Gap.none)
        let c := c.skip n
        match c.rest with
        | [] => some (acc, g, c)
        | d :: _ =>
          if !isGap d then some (acc, g, c)
          else
            match Gap.read margin (c.rest.length + 1) g c with
            | none => none
            | some (g, c) =>
              if !inFlow && c.column < margin then some (acc, g, c)
              else plainWords inFlow margin steps acc g c

/-- A plain scalar: its text, whether a line ended after it, and the place after it. -/
def readPlain (inFlow : Bool) (margin : Nat) (c : Cursor) : Option (String × Bool × Cursor) :=
  (plainWords inFlow margin (c.rest.length + 1) [] .none c).map fun (cs, g, c) =>
    (String.ofList cs, g.broken, c)

/-! ### Quoted scalars -/

/-- The characters with a short escape. -/
def shortEscape? (c : Char) : Option Char :=
  match c with
  | '0' => some (Char.ofNat 0x00)
  | 'a' => some (Char.ofNat 0x07)
  | 'b' => some (Char.ofNat 0x08)
  | 't' => some '\t'
  | '\t' => some '\t'
  | 'n' => some '\n'
  | 'v' => some (Char.ofNat 0x0B)
  | 'f' => some (Char.ofNat 0x0C)
  | 'r' => some '\r'
  | 'e' => some (Char.ofNat 0x1B)
  | ' ' => some ' '
  | '"' => some '"'
  | '/' => some '/'
  | '\\' => some '\\'
  | 'N' => some (Char.ofNat 0x85)
  | '_' => some (Char.ofNat 0xA0)
  | 'L' => some (Char.ofNat 0x2028)
  | 'P' => some (Char.ofNat 0x2029)
  | _ => none

/-- The number of digits after an escape by code point. -/
def escapeDigits? (c : Char) : Option Nat :=
  match c with
  | 'x' => some 2
  | 'u' => some 4
  | 'U' => some 8
  | _ => none

/-- The character with a code point written in hexadecimal digits. -/
def charOfHex? (digits : List Char) : Option Char := do
  let values ← digits.mapM Json.hexValue?
  let n := values.foldl (fun n v => n * 16 + v) 0
  if n < 0x110000 ∧ !(0xD800 ≤ n ∧ n ≤ 0xDFFF) then some (Char.ofNat n) else none

/-- The character that an escape stands for, and its length behind the backslash. -/
def escape? : List Char → Option (Char × Nat)
  | [] => none
  | c :: r =>
    match shortEscape? c with
    | some d => some (d, 1)
    | none =>
      match escapeDigits? c with
      | none => none
      | some n => if r.length < n then none else (charOfHex? (r.take n)).map (·, n + 1)

/-- The word that stands here in quotes, after `acc`, up to a gap or the closing quote. Says whether
an escaped line end closed it. -/
def quotedWord (quote : Char) :
    (steps : Nat) → (acc : List Char) → Cursor → Option (List Char × Bool × Cursor)
  | 0, acc, c => some (acc, false, c)
  | steps + 1, acc, c =>
    match c.rest with
    | [] => some (acc, false, c)
    | d :: r =>
      if isGap d then some (acc, false, c)
      else if d = quote then
        if quote = '\'' ∧ r.head? = some '\'' then quotedWord quote steps ('\'' :: acc) (c.skip 2)
        else some (acc, false, c)
      else if quote = '"' ∧ d = '\\' then
        if (r.head?.map isBreak).getD false then some (acc, true, ((c.skip 1).readBreak).2)
        else
          match escape? r with
          | none => none
          | some (e, n) => quotedWord quote steps (e :: acc) (c.skip (n + 1))
      else quotedWord quote steps (d :: acc) (c.skip 1)

/-- The words of a quoted scalar after the text `acc`, up to and with the closing quote. -/
def quotedWords (quote : Char) :
    (steps : Nat) → (acc : List Char) → Cursor → Option (List Char × Cursor)
  | 0, _, _ => none
  | steps + 1, acc, c =>
    if c.atDocumentMark || c.rest.isEmpty then none
    else
      match quotedWord quote (c.rest.length + 1) [] c with
      | none => none
      | some (word, escaped, c) =>
        let acc := acc ++ word.reverse
        if c.rest.head? = some quote then some (acc, c.skip 1)
        else
          match Gap.read 0 (c.rest.length + 1) (if escaped then .escaped else .none) c with
          | none => none
          | some (g, c) => quotedWords quote steps (acc ++ g.text) c

/-- A quoted scalar, from its opening quote. -/
def readQuoted (quote : Char) (c : Cursor) : Option (String × Cursor) :=
  (quotedWords quote (c.rest.length + 1) [] (c.skip 1)).map fun (cs, c) => (String.ofList cs, c)

/-! ### Literal and folded scalars -/

/-- What becomes of the line ends after the last line: none is kept, one is, or all are. -/
inductive Chomping
  | strip | clip | keep
  deriving DecidableEq, Repr, Inhabited

/-- What the first line of a literal or folded scalar says. -/
structure BlockHeader where
  chomping : Chomping
  /-- The depth of the lines, relative to the node around them. -/
  depth : Option Nat

/-- The chomping mark. -/
def chomping? (c : Char) : Option Chomping :=
  match c with
  | '+' => some .keep
  | '-' => some .strip
  | _ => none

/-- The depth given by a digit, which is not zero. -/
def depth? (c : Char) : Option Nat :=
  if '1' ≤ c ∧ c ≤ '9' then some (c.toNat - '0'.toNat) else none

/-- The header behind `|` or `>`: a chomping mark and a depth in either order. -/
def readHeader (cs : List Char) : BlockHeader × Nat :=
  match cs with
  | [] => (⟨.clip, none⟩, 0)
  | a :: r =>
    match chomping? a with
    | some k =>
      match r.head?.bind depth? with
      | some d => (⟨k, some d⟩, 2)
      | none => (⟨k, none⟩, 1)
    | none =>
      match depth? a with
      | some d =>
        match r.head?.bind chomping? with
        | some k => (⟨k, some d⟩, 2)
        | none => (⟨.clip, some d⟩, 1)
      | none => (⟨.clip, none⟩, 0)

/-- Passes over indentation and empty lines. `margin` is the depth of the scalar's lines if it is
known; if not, all spaces are indentation. Gives the line ends, the deepest column and the place
after them. -/
def blockGap (margin : Option Nat) :
    (steps : Nat) → (breaks : List Char) → (deepest : Nat) → Cursor →
      Option (List Char × Nat × Cursor)
  | 0, breaks, deepest, c => some (breaks, deepest, c)
  | steps + 1, breaks, deepest, c =>
    let spaces := (c.rest.takeWhile (· == ' ')).length
    let c := c.skip ((margin.map fun m => min spaces (m - c.column)).getD spaces)
    let deepest := max deepest c.column
    match c.rest with
    | [] => some (breaks, deepest, c)
    | d :: _ =>
      if d = '\t' ∧ (margin.map fun m => decide (c.column < m)).getD true then none
      else if isBreak d then
        let (b, c) := c.readBreak
        blockGap margin steps (breaks ++ b) deepest c
      else some (breaks, deepest, c)

/-- The lines of a literal or folded scalar, all of them at the depth `margin`: the text without its
last line end, that line end, the further ones, and the place after them. `leading` and `trailing`
are the line ends before the line that comes next, `wasBlank` says that the line before them started
with a blank. -/
def blockLines (folded : Bool) (margin : Nat) :
    (steps : Nat) → (acc leading trailing : List Char) → (wasBlank : Bool) → Cursor →
      Option (List Char × List Char × List Char × Cursor)
  | 0, acc, leading, trailing, _, c => some (acc, leading, trailing, c)
  | steps + 1, acc, leading, trailing, wasBlank, c =>
    match c.rest with
    | [] => some (acc, leading, trailing, c)
    | d :: _ =>
      if c.column ≠ margin then some (acc, leading, trailing, c)
      else
        let isBlank := isSpace d
        let joint :=
          if folded && leading.head? == some '\n' && !wasBlank && !isBlank then
            if trailing.isEmpty then [' '] else trailing
          else leading ++ trailing
        let line := c.rest.takeWhile fun e => !isBreak e
        let (leading, next) := (c.skip line.length).readBreak
        match blockGap (some margin) (next.rest.length + 1) [] 0 next with
        | none => none
        | some (trailing, _, next) =>
          blockLines folded margin steps (acc ++ joint ++ line) leading trailing isBlank next

/-- A literal or folded scalar, from its mark, in a node of indentation `indent`. -/
def readBlock (folded : Bool) (indent : Int) (c : Cursor) : Option (String × Cursor) :=
  let c := c.skip 1
  let (header, n) := readHeader c.rest
  let c := (c.skip n).skipWhile isSpace
  let c := if c.rest.head? = some '#' then c.skipLine else c
  if !atLineEnd c.rest then none
  else
    let c := c.readBreak.2
    let given := header.depth.map fun d => if 0 ≤ indent then indent.toNat + d else d
    match blockGap given (c.rest.length + 1) [] 0 c with
    | none => none
    | some (breaks, deepest, c) =>
      let margin := given.getD (max (max deepest (indent + 1).toNat) 1)
      match blockLines folded margin (c.rest.length + 1) [] [] breaks false c with
      | none => none
      | some (text, leading, trailing, c) =>
        let close := match header.chomping with
          | .strip => []
          | .clip => leading
          | .keep => leading ++ trailing
        some (String.ofList (text ++ close), c)

end ChatRelay.Yaml
