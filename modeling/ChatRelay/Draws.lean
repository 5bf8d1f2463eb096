/-! # Fresh values

Ids of calls and messages, and the numbers that simulated tools show, are drawn from a source. The
`n`-th draw is `seed + n · stride` modulo `2^128`. The stride is odd, so the draws of one source are
pairwise distinct until `2^128` of them are used up. -/

namespace ChatRelay

/-- A source of numbers below `2^128`. -/
structure Draws where
  seed : Nat
  used : Nat
  deriving Repr, Inhabited

namespace Draws

/-- The distance between two draws, an odd number. -/
def stride : Nat := 0x9E3779B97F4A7C15F39CC0605CEDC835

/-- The number drawn next, and the source after it. -/
def next (d : Draws) : Nat × Draws :=
  ((d.seed + d.used * stride) % Nat.pow 2 128, { d with used := d.used + 1 })

/-- The last `width` hexadecimal digits of a number, zeros in front. -/
def hex : (width : Nat) → Nat → List Char
  | 0, _ => []
  | width + 1, n => hex width (n / 16) ++ [Nat.digitChar (n % 16)]

/-- A fresh id of a call. -/
def callId (d : Draws) : String × Draws :=
  let (n, d) := d.next
  ("call_" ++ String.ofList (hex 32 n), d)

/-- A fresh id of a message: a random UUID, its version 4 in the third group and its variant in the
fourth. -/
def messageId (d : Draws) : String × Draws :=
  let (n, d) := d.next
  let group (width shift : Nat) : String := String.ofList (hex width (n / Nat.pow 16 shift))
  (group 8 24 ++ "-" ++ group 4 20 ++ "-4" ++ group 3 17 ++ "-"
    ++ String.ofList [Nat.digitChar (8 + n / Nat.pow 16 16 % 4)] ++ group 3 13 ++ "-"
    ++ group 12 0, d)

/-- A number below `bound`. -/
def below (bound : Nat) (d : Draws) : Nat × Draws :=
  let (n, d) := d.next
  (n / Nat.pow 2 64 % bound, d)

end Draws

end ChatRelay
