import ChatRelay.Text.Blank
import ChatRelay.Text.Utf8

/-! # The environment, and expressions in texts

A variable is set to bytes. Where they are not a text, it counts as not set. Which directory is the
home of the user is for the system to say; the environment holds what it said.

A configuration text may refer to variables of the environment. An expression is `${name}` or
`${name:-default}`. With a default it stands for the variable's value if that is set and not empty,
and else for the default, in which a tilde at the start is the home directory. Without a default it
stands for the value if that is set, and else for itself, so that a missing secret can still be told
from a real one.

A text is cut into segments once: `expand` is the texts of its segments, one after another, and a
text that comes from a variable is not cut again. -/

namespace ChatRelay.Config

/-- The environment of a process. -/
structure Environment where
  /-- The variables that are set, with their bytes. -/
  values : List (String × List UInt8)
  /-- The home directory, as a path is shown. -/
  home? : Option String
  deriving DecidableEq, Repr, Inhabited

namespace Environment

/-- The value of a variable, if it is a text. -/
def get? (env : Environment) (name : String) : Option String :=
  (env.values.lookup name).bind Text.strict?

/-- The value of a variable, if it holds more than blanks. -/
def getFilled? (env : Environment) (name : String) : Option String :=
  (env.get? name).filter fun v => !Text.isBlankText v

/-- A path with the home directory for a tilde at its start. -/
def expandTilde (env : Environment) (path : String) : String :=
  match Text.dropLead? "~" path, env.home? with
  | some rest, some home => home ++ rest
  | _, _ => path

end Environment

/-! ### Segments -/

/-- A piece of a configuration text. -/
inductive Segment
  | literal (c : Char)
  /-- An expression, by what stands between its braces. -/
  | expression (e : List Char)
  /-- The start of an expression that does not end, by what follows its brace. -/
  | unclosed (e : List Char)
  deriving DecidableEq, Repr, Inhabited

namespace Segment

/-- Cuts a text. Inside an expression `inside?` holds, in reverse, what stands behind its brace. -/
def scan : (inside? : Option (List Char)) → List Char → List Segment
  | none, '$' :: '\x7b' :: r => scan (some []) r
  | none, c :: r => literal c :: scan none r
  | none, [] => []
  | some e, '\x7d' :: r => expression e.reverse :: scan none r
  | some e, c :: r => scan (some (c :: e)) r
  | some e, [] => [unclosed e.reverse]

/-- The segments of a text. -/
def ofText (s : String) : List Segment := scan none s.toList

/-- How a segment is written. -/
def written : Segment → List Char
  | literal c => [c]
  | expression e => '$' :: '\x7b' :: e ++ ['\x7d']
  | unclosed e => '$' :: '\x7b' :: e

/-- The value of an expression, if it has one: its variable's, or its default. -/
def value? (env : Environment) (e : List Char) : Option String :=
  match Text.cutChars [':', '-'] e with
  | some (name, default) =>
    let value := (env.get? (String.ofList (Text.trimChars name))).filter fun v => !v.isEmpty
    some (value.getD (env.expandTilde (String.ofList default)))
  | none => env.get? (String.ofList (Text.trimChars e))

/-- What a segment stands for. -/
def expanded (env : Environment) (s : Segment) : List Char :=
  match s with
  | expression e => ((value? env e).map String.toList).getD s.written
  | s => s.written

end Segment

/-- A text with its expressions replaced. -/
def expand (env : Environment) (s : String) : String :=
  String.ofList ((Segment.ofText s).flatMap (Segment.expanded env))

end ChatRelay.Config
