import ChatRelay.Text.Utf8

/-! # Where bytes stop being UTF-8

A byte sequence that is not UTF-8 is at fault where its first gap begins. The piece at fault is as
long as a character could still have been read there, and at least one byte; if the bytes end before
that is settled, the sequence is unfinished. -/

namespace ChatRelay.Text

/-- The first fault of a byte sequence: its place, and the length of the piece, none if it is
unfinished. -/
structure Utf8Fault where
  index : Nat
  length : Option Nat
  deriving DecidableEq, Repr, Inhabited

namespace Utf8Fault

/-- How far an unfinished character goes, `n` bytes of it being read. -/
def extent (p : Pending) (n : Nat) : List UInt8 → Option Nat
  | [] => none
  | b :: r =>
    if p.low ≤ b ∧ b ≤ p.high then extent ⟨p.owed - 1, 0x80, 0xBF, 0⟩ (n + 1) r else some n

/-- The length of the piece at fault that bytes start with. -/
def lengthOf : List UInt8 → Option Nat
  | [] => none
  | b :: r =>
    match leadByte b with
    | some (.inr p) => extent p 1 r
    | _ => some 1

/-- The bytes of the characters in front of the first gap. -/
def validLength : List (Option Char) → Nat
  | some c :: r => c.utf8Size + validLength r
  | _ => 0

/-- The first fault, if there is one. -/
def of? (bs : List UInt8) : Option Utf8Fault :=
  let pieces := decode bs
  if pieces.all Option.isSome then none
  else
    let index := validLength pieces
    some ⟨index, lengthOf (bs.drop index)⟩

/-- The text shown for a fault. -/
def message (f : Utf8Fault) : String :=
  match f.length with
  | some n => s!"invalid utf-8 sequence of {n} bytes from index {f.index}"
  | none => s!"incomplete utf-8 byte sequence from index {f.index}"

end Utf8Fault

end ChatRelay.Text
