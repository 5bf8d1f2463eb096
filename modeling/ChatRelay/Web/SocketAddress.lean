/-! # Socket addresses

An address to listen on is an IP address and the number of a service there: `127.0.0.1:8787` or
`[::1]:8787`. The four parts of a short address are decimal and have no leading zero. A long address
is eight groups of at most four hexadecimal digits; once, `::` may stand for one or more groups of
zeros, and a short address may stand for the last two groups. It may carry a scope. The number of a
service may have leading zeros.

`read?` reads a whole text, `text` is the normal form: small digits without leading zeros, the first
of the longest runs of two or more zero groups as `::`, and a mapped short address in its own
form. -/

namespace ChatRelay.Web

/-- An IP address and the number of a service there. -/
inductive SocketAddress
  | short (parts : List Nat) (service : Nat)
  | long (groups : List Nat) (scope service : Nat)
  deriving DecidableEq, Repr, Inhabited

namespace SocketAddress

/-! ### Reading -/

/-- The value of a digit in a base of at most sixteen. -/
def digitValue? (base : Nat) (c : Char) : Option Nat :=
  let v :=
    if '0' ≤ c ∧ c ≤ '9' then c.toNat - '0'.toNat
    else if 'a' ≤ c ∧ c ≤ 'f' then c.toNat - 'a'.toNat + 10
    else if 'A' ≤ c ∧ c ≤ 'F' then c.toNat - 'A'.toNat + 10
    else base
  if v < base then some v else none

/-- A number below `limit` with all digits that stand there, at most `most` of them. -/
def number? (base limit most : Nat) (cs : List Char) : Option (Nat × List Char) :=
  let digits := cs.takeWhile fun c => (digitValue? base c).isSome
  let n := digits.foldl (fun n c => n * base + (digitValue? base c).getD 0) 0
  if digits.isEmpty ∨ most < digits.length ∨ limit ≤ n then none
  else some (n, cs.drop digits.length)

/-- The text after the character `c`. -/
def after? (c : Char) : List Char → Option (List Char)
  | d :: r => if c = d then some r else none
  | [] => none

/-- A part of a short address. -/
def part? (cs : List Char) : Option (Nat × List Char) :=
  match number? 10 256 3 cs with
  | none => none
  | some (n, r) =>
    if cs.head? = some '0' ∧ r.length + 1 < cs.length then none else some (n, r)

/-- A short address. -/
def parts? (cs : List Char) : Option (List Nat × List Char) := do
  let (a, r) ← part? cs
  let (b, r) ← part? (← after? '.' r)
  let (c, r) ← part? (← after? '.' r)
  let (d, r) ← part? (← after? '.' r)
  return ([a, b, c, d], r)

/-- The two groups that a short address stands for. -/
def groupsOf : List Nat → List Nat
  | [a, b, c, d] => [a * 256 + b, c * 256 + d]
  | _ => []

/-- Up to `room` groups with colons between them, after `acc`; a short address ends them. Says
whether one did. -/
def groups (first : Bool) : (room : Nat) → List Nat → List Char → List Nat × Bool × List Char
  | 0, acc, cs => (acc, false, cs)
  | room + 1, acc, cs =>
    match if first then some cs else after? ':' cs with
    | none => (acc, false, cs)
    | some r =>
      match if room = 0 then none else parts? r with
      | some (parts, r) => (acc ++ groupsOf parts, true, r)
      | none =>
        match number? 16 65536 4 r with
        | some (g, r) => groups false room (acc ++ [g]) r
        | none => (acc, false, cs)

/-- A long address: eight groups, or fewer with `::` for the zeros that are left out. -/
def groups? (cs : List Char) : Option (List Nat × List Char) :=
  match groups true 8 [] cs with
  | (head, endsShort, r) =>
    if head.length = 8 then some (head, r)
    else if endsShort then none
    else do
      let r ← after? ':' r
      let r ← after? ':' r
      let (tail, _, r) := groups true (7 - head.length) [] r
      return (head ++ List.replicate (8 - head.length - tail.length) 0 ++ tail, r)

/-- The number of the service at the end of an address. -/
def service? (cs : List Char) : Option Nat := do
  let r ← after? ':' cs
  let (service, r) ← number? 10 65536 r.length r
  if r.isEmpty then some service else none

/-- The scope of a long address, zero if there is none. -/
def scope (cs : List Char) : Nat × List Char :=
  match (after? '%' cs).bind fun r => number? 10 (Nat.pow 2 32) r.length r with
  | some (scope, r) => (scope, r)
  | none => (0, cs)

/-- The long address that a text is. -/
def readLong? (cs : List Char) : Option SocketAddress := do
  let r ← after? '[' cs
  let (gs, r) ← groups? r
  let (scope, r) := scope r
  let service ← service? (← after? ']' r)
  return .long gs scope service

/-- The short address that a text is. -/
def readShort? (cs : List Char) : Option SocketAddress := do
  let (parts, r) ← parts? cs
  return .short parts (← service? r)

/-- The address that a text is. -/
def read? (s : String) : Option SocketAddress :=
  (readShort? s.toList).orElse fun _ => readLong? s.toList

/-! ### Writing -/

/-- The text of a short address. -/
def partsText (parts : List Nat) : String := ".".intercalate (parts.map toString)

/-- The text of groups. -/
def groupsText (gs : List Nat) : String :=
  ":".intercalate (gs.map fun g => String.ofList (Nat.toDigits 16 g))

/-- The length of the run of zeros at the start. -/
def zeroRun (gs : List Nat) : Nat := (gs.takeWhile (· == 0)).length

/-- The first of the longest runs of zeros: its start and its length. -/
def longestRun (gs : List Nat) : Nat × Nat :=
  (List.range gs.length).foldl (fun best i =>
    let n := zeroRun (gs.drop i)
    if best.2 < n then (i, n) else best) (0, 0)

/-- The text of a long address. -/
def longText (gs : List Nat) : String :=
  match gs with
  | [0, 0, 0, 0, 0, 65535, a, b] =>
    "::ffff:" ++ partsText [a / 256, a % 256, b / 256, b % 256]
  | gs =>
    let (start, length) := longestRun gs
    if 1 < length then
      groupsText (gs.take start) ++ "::" ++ groupsText (gs.drop (start + length))
    else groupsText gs

/-- The normal form. -/
def text : SocketAddress → String
  | short parts service => s!"{partsText parts}:{service}"
  | long gs 0 service => s!"[{longText gs}]:{service}"
  | long gs scope service => s!"[{longText gs}%{scope}]:{service}"

end SocketAddress

end ChatRelay.Web
