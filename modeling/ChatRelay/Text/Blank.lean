/-! # Blank characters, trimming and lines

A character is *blank* if it has the Unicode property `White_Space`. Names, prompts, URLs and
addresses are compared and stored without blanks at either end, and a text made of blanks only
counts as absent. JSON has a narrower class of its own (see `Json.Reader`).

`lines` cuts a text at its line feeds; a carriage return before a line feed belongs to the line
end. -/

namespace ChatRelay.Text

/-! ### The class -/

/-- The characters with the property `White_Space`. -/
def isBlank (c : Char) : Bool :=
  (0x09 ≤ c.toNat && c.toNat ≤ 0x0D) || c.toNat == 0x20 || c.toNat == 0x85 || c.toNat == 0xA0
    || c.toNat == 0x1680 || (0x2000 ≤ c.toNat && c.toNat ≤ 0x200A) || c.toNat == 0x2028
    || c.toNat == 0x2029 || c.toNat == 0x202F || c.toNat == 0x205F || c.toNat == 0x3000

/-- A text without blanks at its start. -/
def trimStartChars (cs : List Char) : List Char := cs.dropWhile isBlank

/-- A text without characters of the class `p` at its end. -/
def dropEndChars (p : Char → Bool) (cs : List Char) : List Char :=
  (cs.reverse.dropWhile p).reverse

/-- A text without blanks at either end. -/
def trimChars (cs : List Char) : List Char := dropEndChars isBlank (trimStartChars cs)

/-- `trimChars` on strings. -/
def trim (s : String) : String := String.ofList (trimChars s.toList)

/-- A string without characters of the class `p` at its end. -/
def dropEnd (p : Char → Bool) (s : String) : String := String.ofList (dropEndChars p s.toList)

/-- A text that holds blanks only. -/
def isBlankText (s : String) : Bool := s.toList.all isBlank

/-! ### Lines -/

/-- One step of the cut into pieces: the finished pieces and the open one, both in reverse. -/
def splitStep (sep : Char) (acc : List (List Char) × List Char) (c : Char) :
    List (List Char) × List Char :=
  if c = sep then (acc.2.reverse :: acc.1, []) else (acc.1, c :: acc.2)

/-- The pieces between the separators, one more than there are separators. -/
def splitChars (sep : Char) (cs : List Char) : List (List Char) :=
  let acc := cs.foldl (splitStep sep) ([], [])
  (acc.2.reverse :: acc.1).reverse

/-- A line without the carriage return of its line end. -/
def dropReturn (line : List Char) : List Char :=
  match line.reverse with
  | '\r' :: r => r.reverse
  | _ => line

/-- The lines of a text: cut at line feeds, a last empty piece is no line. A carriage return is
part of a line end only where a line feed follows. -/
def linesChars (cs : List Char) : List (List Char) :=
  let acc := cs.foldl (splitStep '\n') ([], [])
  let whole := (acc.1.reverse).map dropReturn
  if acc.2.isEmpty then whole else whole ++ [acc.2.reverse]

/-! ### Search -/

/-- The text before the first occurrence of `pat` and the text after it. -/
def cutChars (pat : List Char) : List Char → Option (List Char × List Char)
  | cs => go [] cs
where
  /-- The scan, with the text passed so far in reverse. -/
  go (before : List Char) : List Char → Option (List Char × List Char)
    | [] => if pat.isEmpty then some (before.reverse, []) else none
    | c :: r =>
      if pat.isPrefixOf (c :: r) then some (before.reverse, (c :: r).drop pat.length)
      else go (c :: before) r

/-- `cutChars` on strings. -/
def cut (pat s : String) : Option (String × String) :=
  (cutChars pat.toList s.toList).map fun (a, b) => (String.ofList a, String.ofList b)

/-- `pat` occurs in `s`. -/
def occurs (pat s : String) : Bool := (cutChars pat.toList s.toList).isSome

/-- The rest of `s` after a leading `lead`. -/
def dropLead? (lead s : String) : Option String :=
  if lead.toList.isPrefixOf s.toList then some (String.ofList (s.toList.drop lead.length)) else none

/-- An ASCII capital becomes its small letter; every other character stays. -/
def asciiLower (s : String) : String := s.map Char.toLower

end ChatRelay.Text
