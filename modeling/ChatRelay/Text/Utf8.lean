/-! # UTF-8

Bytes become text in two ways: *strictly*, where one invalid sequence spoils the whole, and *with
replacement*, where every maximal invalid piece becomes one U+FFFD. Both read the same scan, which
walks the bytes once and reports a character or a gap (`none`) for each piece.

A cut at a byte limit keeps whole characters: it is made at the limit or, if that lies within a
character, at the last boundary before it. -/

namespace ChatRelay.Text

/-- The bytes of a text. -/
def encode (s : String) : List UInt8 := s.toList.flatMap String.utf8EncodeChar

/-- An unfinished character: how many bytes are owed, the bounds of the next one, and the bits read
so far. -/
structure Pending where
  owed : Nat
  low : UInt8
  high : UInt8
  bits : Nat

/-- What a byte at the start of a character says: a character of its own, the start of a longer
one, or nothing valid. -/
def leadByte (b : UInt8) : Option (Char ⊕ Pending) :=
  if b < 0x80 then some (.inl (Char.ofNat b.toNat))
  else if b < 0xC2 then none
  else if b < 0xE0 then some (.inr ⟨1, 0x80, 0xBF, b.toNat - 0xC0⟩)
  else if b = 0xE0 then some (.inr ⟨2, 0xA0, 0xBF, 0⟩)
  else if b = 0xED then some (.inr ⟨2, 0x80, 0x9F, 0xD⟩)
  else if b < 0xF0 then some (.inr ⟨2, 0x80, 0xBF, b.toNat - 0xE0⟩)
  else if b = 0xF0 then some (.inr ⟨3, 0x90, 0xBF, 0⟩)
  else if b < 0xF4 then some (.inr ⟨3, 0x80, 0xBF, b.toNat - 0xF0⟩)
  else if b = 0xF4 then some (.inr ⟨3, 0x80, 0x8F, 4⟩)
  else none

/-- The scan: the pieces found so far in reverse, and the unfinished character, if any. -/
structure Decoding where
  found : List (Option Char)
  pending : Option Pending

/-- A byte at the start of a character. -/
def Decoding.start (found : List (Option Char)) (b : UInt8) : Decoding :=
  match leadByte b with
  | none => ⟨none :: found, none⟩
  | some (.inl c) => ⟨some c :: found, none⟩
  | some (.inr p) => ⟨found, some p⟩

/-- One byte of the scan. A byte that an unfinished character cannot take ends it as a gap and
starts anew. -/
def Decoding.step (d : Decoding) (b : UInt8) : Decoding :=
  match d.pending with
  | none => .start d.found b
  | some p =>
    if p.low ≤ b ∧ b ≤ p.high then
      let bits := p.bits * 64 + (b.toNat - 0x80)
      if p.owed ≤ 1 then ⟨some (Char.ofNat bits) :: d.found, none⟩
      else ⟨d.found, some ⟨p.owed - 1, 0x80, 0xBF, bits⟩⟩
    else .start (none :: d.found) b

/-- The characters and gaps of a byte sequence, in order. An unfinished character at the end is a
gap. -/
def decode (bs : List UInt8) : List (Option Char) :=
  let d := bs.foldl Decoding.step ⟨[], none⟩
  (if d.pending.isSome then none :: d.found else d.found).reverse

/-- The character that stands for a gap. -/
def replacement : Char := Char.ofNat 0xFFFD

/-- The text of a byte sequence, each gap replaced. -/
def lossy (bs : List UInt8) : String := String.ofList ((decode bs).map (·.getD replacement))

/-- The text of a byte sequence without gaps. -/
def strict? (bs : List UInt8) : Option String :=
  let cs := decode bs
  if cs.all Option.isSome then some (String.ofList (cs.map (·.getD replacement))) else none

/-! ### Cuts -/

/-- The boundary of characters at place `n` of a text: the byte there begins a character, or the
text ends there. None if the place lies within a character or beyond the text. -/
def boundaryAt? (s : String) (n : Nat) : Option s.Pos :=
  if h : String.Pos.Raw.isValid s ⟨n⟩ then
    some (s.pos ⟨n⟩ (String.Pos.Raw.isValid_eq_true_iff.mp h))
  else none

/-- The search for a boundary, byte by byte backwards from place `n`. None if it would go on before
the start of the text. -/
def boundaryBack? (s : String) : Nat → Option s.Pos
  | 0 => boundaryAt? s 0
  | n + 1 => boundaryAt? s (n + 1) <|> boundaryBack? s n

theorem boundaryAt?_of_isValid {s : String} {n : Nat} (h : (⟨n⟩ : String.Pos.Raw).IsValid s) :
    boundaryAt? s n = some (s.pos ⟨n⟩ h) := dif_pos (String.Pos.Raw.isValid_eq_true_iff.mpr h)

/-- The search never goes on before the start of a text. -/
theorem isSome_boundaryBack? (s : String) (n : Nat) : (boundaryBack? s n).isSome := by
  induction n with
  | zero =>
    rw [boundaryBack?, boundaryAt?_of_isValid String.Pos.Raw.isValid_zero]
    rfl
  | succ n ih =>
    rw [boundaryBack?]
    cases boundaryAt? s (n + 1) with
    | none => exact ih
    | some p => rfl

/-- The lead of a text up to the last boundary within its first `n` bytes. -/
def leadWithin (n : Nat) (s : String) : String :=
  (s.sliceTo ((boundaryBack? s n).get (isSome_boundaryBack? s n))).copy

/-- A text of at most `limit` bytes stays; a longer one is cut and marked. -/
def truncate (limit : Nat) (s : String) : String :=
  if s.utf8ByteSize ≤ limit then s else leadWithin limit s ++ "...(truncated)"

end ChatRelay.Text
