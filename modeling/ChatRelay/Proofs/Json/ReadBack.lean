import ChatRelay.Json.Decode
import ChatRelay.Json.Writer
import Mathlib.Algebra.Group.Int.Defs
import Mathlib.Algebra.Group.Nat.Defs
import Mathlib.Data.List.Basic
import Mathlib.Data.List.TakeWhile

/-! # Reading what was written

A text that was written is read as the document it was written from (`read_text`), if the document
is *exact*: every key and every string has a value, and every number reads back. Integers of 64 bits
do; for doubles it is a matter of their shortest digits, so a document is called *plain* if it has
none and its integers are of that kind.

The proof follows the two steps of the reader. `Lexes` says that the scan turns characters into
tokens and goes on with what follows them, whatever the number of steps it is allowed, so that scans
can be put together; a number needs to know that no number goes on (`EndsHere`,
`scanNumber_append`). The walk of the tokens of a document delivers it to the frame that is open
(`foldl_tokens`). -/

namespace ChatRelay.Json

/-- A text that was written is read from its characters. -/
theorem decodeText_text {α : Type} (dec : Decoder α) (d : Doc) :
    decodeText dec d.text = (assemble (tokens d.render)).decode dec := by
  unfold decodeText Json.read Doc.text
  rw [String.toList_ofList]

/-! ### Plain documents -/

mutual

/-- A document whose text says all of it. -/
def Doc.isPlain : Doc → Bool
  | .null => true
  | .bool _ => true
  | .num (.int i) => -(2 ^ 63) ≤ i && i < 2 ^ 64
  | .num (.real _) => false
  | .str _ => true
  | .arr items => itemsPlain items
  | .obj members => membersPlain members
  | .unreadable => false
  | .broken => false

/-- Every item is plain. -/
def itemsPlain : List Doc → Bool
  | [] => true
  | d :: rest => d.isPlain && itemsPlain rest

/-- Every member has a key and is plain. -/
def membersPlain : List (Option String × Doc) → Bool
  | [] => true
  | (k, d) :: rest => k.isSome && d.isPlain && membersPlain rest

end

/-! ### Exact documents -/

/-- The text of the number is read as the number itself. -/
def Num.ReadsBack (n : Num) : Prop := scanNumber n.text = some (some n, [])

instance (n : Num) : Decidable n.ReadsBack := inferInstanceAs (Decidable (_ = _))

mutual

/-- Every key and every string has a value, and every number reads back. -/
def Doc.Exact : Doc → Prop
  | .null => True
  | .bool _ => True
  | .num n => n.ReadsBack
  | .str _ => True
  | .arr items => itemsExact items
  | .obj members => membersExact members
  | .unreadable => False
  | .broken => False

/-- Every item is exact. -/
def itemsExact : List Doc → Prop
  | [] => True
  | d :: rest => d.Exact ∧ itemsExact rest

/-- Every member has a key and is exact. -/
def membersExact : List (Option String × Doc) → Prop
  | [] => True
  | (k, d) :: rest => k.isSome = true ∧ d.Exact ∧ membersExact rest

end

/-! ### Tokens of documents -/

mutual

/-- The tokens of a document. -/
def Doc.tokens : Doc → List Token
  | .null => [.null]
  | .bool b => [.bool b]
  | .num n => [.num (some n)]
  | .str s => [.str (some s)]
  | .arr items => .openArr :: (itemTokens items ++ [.closeArr])
  | .obj members => .openObj :: (memberTokens members ++ [.closeObj])
  | .unreadable => [.num none]
  | .broken => [.bad]

/-- The tokens of items. -/
def itemTokens : List Doc → List Token
  | [] => []
  | [d] => d.tokens
  | d :: rest => d.tokens ++ .comma :: itemTokens rest

/-- The tokens of members. -/
def memberTokens : List (Option String × Doc) → List Token
  | [] => []
  | [(k, d)] => .str k :: .colon :: d.tokens
  | (k, d) :: rest => .str k :: .colon :: (d.tokens ++ .comma :: memberTokens rest)

end

/-! ### Strings -/

/-- The scan takes back one escaped character. -/
theorem scanString_escapeChar (c : Char) (acc r : List Char) :
    scanString ⟨acc, true, none⟩ (escapeChar c ++ r) = scanString ⟨c :: acc, true, none⟩ r := by
  unfold escapeChar
  by_cases hquote : c = '"'
  · subst hquote
    simp [scanString, shortEscape?, Quoted.push, Quoted.settle]
  rw [if_neg hquote]
  by_cases hslash : c = '\\'
  · subst hslash
    simp [scanString, shortEscape?, Quoted.push, Quoted.settle]
  rw [if_neg hslash]
  by_cases hspace : ' ' ≤ c
  · rw [if_pos hspace, List.singleton_append, scanString]
    · rw [if_neg (by simp [hslash, Char.not_lt.mpr hspace])]
      rfl
    · exact fun h => hquote h
    · exact fun _ _ _ _ _ h => absurd h hslash
    · exact fun _ _ h => absurd h hslash
  rw [if_neg hspace]
  have hlt : c.toNat < 32 := Nat.lt_of_not_le hspace
  -- what is left are control characters, with a short escape or given by number
  have hshort (d e : Char) (he : shortEscape? e = some d) (hu : e ≠ 'u') (hc : c = d) :
      scanString ⟨acc, true, none⟩ (['\\', e] ++ r) = scanString ⟨c :: acc, true, none⟩ r := by
    subst hc
    rw [List.cons_append, List.singleton_append, scanString]
    · simp only [he]
      rfl
    · exact fun _ _ _ _ _ h _ => hu h
  split
  · exact hshort _ 'b' rfl (by decide) ‹_›
  split
  · exact hshort _ 't' rfl (by decide) ‹_›
  split
  · exact hshort _ 'n' rfl (by decide) ‹_›
  split
  · exact hshort _ 'f' rfl (by decide) ‹_›
  split
  · exact hshort _ 'r' rfl (by decide) ‹_›
  · have hunit : hex4? '0' '0' (hexDigit (c.toNat / 16)) (hexDigit c.toNat) = some c.toNat :=
      (show ∀ n < 32, hex4? '0' '0' (hexDigit (n / 16)) (hexDigit n) = some n by decide) _ hlt
    have hplain : Quoted.unit ⟨acc, true, none⟩ c.toNat = ⟨c :: acc, true, none⟩ := by
      simp [Quoted.unit, show ¬ 0xD800 ≤ c.toNat by omega, show ¬ 0xDC00 ≤ c.toNat by omega]
    rw [List.cons_append, List.cons_append, List.cons_append, List.cons_append, List.cons_append,
      List.cons_append, List.nil_append, scanString, hunit]
    simp only [hplain]

theorem scanString_escaped (cs acc r : List Char) :
    scanString ⟨acc, true, none⟩ (cs.flatMap escapeChar ++ '"' :: r) =
      some (some (String.ofList (acc.reverse ++ cs)), r) := by
  induction cs generalizing acc with
  | nil => simp [scanString, Quoted.value, Quoted.settle]
  | cons c cs ih =>
    rw [List.flatMap_cons, List.append_assoc, scanString_escapeChar, ih, List.reverse_cons,
      List.append_assoc, List.singleton_append]

/-! ### Numbers and what follows them -/

/-- No number goes on here. -/
def EndsHere (r : List Char) : Prop := ∀ c ∈ r.head?, c = ',' ∨ c = ']' ∨ c = '}'

/-- No digit stands where no number goes on. -/
theorem EndsHere.takeWhile {r : List Char} (hr : EndsHere r) :
    r.takeWhile Char.isDigit = [] ∧ r.dropWhile Char.isDigit = r := by
  cases r with
  | nil => exact ⟨rfl, rfl⟩
  | cons c r =>
    have : c.isDigit = false := by
      rcases hr c rfl with rfl | rfl | rfl <;> rfl
    simp [this]

theorem scanDigits?_append (cs : List Char) {r : List Char} (hr : EndsHere r) :
    scanDigits? (cs ++ r) = (scanDigits? cs).map fun p => (p.1, p.2 ++ r) := by
  have htake : (cs ++ r).takeWhile Char.isDigit = cs.takeWhile Char.isDigit := by
    induction cs with
    | nil => exact hr.takeWhile.1
    | cons c cs ih => by_cases hc : c.isDigit <;> simp [hc, ih]
  have hdrop : (cs ++ r).dropWhile Char.isDigit = cs.dropWhile Char.isDigit ++ r := by
    induction cs with
    | nil => exact hr.takeWhile.2
    | cons c cs ih =>
      by_cases hc : c.isDigit
      · simpa [hc] using ih (by simpa [hc] using htake)
      · simp [hc]
  unfold scanDigits?
  rw [htake, hdrop]
  simp only
  split <;> rfl

theorem scanExponent_append (cs : List Char) {r : List Char} (hr : EndsHere r) :
    scanExponent (cs ++ r) = (scanExponent cs).map fun p => (p.1, p.2 ++ r) := by
  cases cs with
  | nil =>
    cases r with
    | nil => rfl
    | cons c r => rcases hr c rfl with rfl | rfl | rfl <;> rfl
  | cons c cs =>
    rw [List.cons_append]
    unfold scanExponent
    simp only
    by_cases he : c = 'e' ∨ c = 'E'
    · rw [if_pos he, if_pos he]
      cases cs with
      | nil =>
        cases r with
        | nil => rfl
        | cons d r => rcases hr d rfl with rfl | rfl | rfl <;> rfl
      | cons d cs =>
        rw [List.cons_append]
        by_cases hplus : d = '+'
        · subst hplus
          simp only [scanDigits?_append cs hr, Option.map_map]
          rfl
        by_cases hminus : d = '-'
        · subst hminus
          simp only [scanDigits?_append cs hr, Option.map_map]
          rfl
        have hdigits := scanDigits?_append (d :: cs) hr
        rw [List.cons_append] at hdigits
        split
        · next h => exact absurd (List.cons.inj h).1 hplus
        · next h => exact absurd (List.cons.inj h).1 hminus
        simp only [Bool.false_eq_true, if_false]
        split
        · next h => exact absurd (List.cons.inj h).1 hplus
        · next h => exact absurd (List.cons.inj h).1 hminus
        simp only [Bool.false_eq_true, if_false]
        rw [hdigits, Option.map_map, Option.map_map]
        rfl
    · rw [if_neg he, if_neg he]
      rfl

theorem scanUnsigned_append (negative : Bool) (cs : List Char) {r : List Char} (hr : EndsHere r) :
    scanUnsigned negative (cs ++ r) = (scanUnsigned negative cs).map fun p => (p.1, p.2 ++ r) := by
  unfold scanUnsigned
  rw [scanDigits?_append cs hr]
  cases scanDigits? cs with
  | none => rfl
  | some p =>
    obtain ⟨ds, rest⟩ := p
    simp only [Option.map_some, Option.bind_eq_bind, Option.bind_some]
    by_cases hzero : ds.length > 1 ∧ ds.head? = some '0'
    · rw [if_pos hzero, if_pos hzero]
      rfl
    · rw [if_neg hzero, if_neg hzero]
      have hexponent := scanExponent_append rest hr
      by_cases hdot : rest.head? = some '.'
      -- a fraction follows
      · obtain ⟨rest, rfl⟩ : ∃ l, rest = '.' :: l := by
          cases rest with
          | nil => cases hdot
          | cons c l => exact ⟨l, by cases hdot; rfl⟩
        simp only [List.cons_append, scanDigits?_append rest hr]
        cases scanDigits? rest with
        | none => rfl
        | some q =>
          obtain ⟨fs, after⟩ := q
          simp only [Option.map_some, Option.bind_some, scanExponent_append after hr]
          cases scanExponent after <;> rfl
      · have hdot' : ∀ l, rest ≠ '.' :: l := by
          rintro l rfl
          exact hdot rfl
        have hdot'' : ∀ l, rest ++ r ≠ '.' :: l := by
          intro l hl
          cases rest with
          | nil =>
            subst hl
            have := hr '.' rfl
            revert this
            decide
          | cons c rest => exact hdot (by cases hl; rfl)
        split
        · next h => exact absurd h (hdot'' _)
        rw [hexponent]
        cases scanExponent rest with
        | none => rfl
        | some q =>
          obtain ⟨e, after⟩ := q
          cases e <;> rfl

/-- **The scan of a number stops where no number goes on.** -/
theorem scanNumber_append (cs : List Char) {r : List Char} (hr : EndsHere r) :
    scanNumber (cs ++ r) = (scanNumber cs).map fun p => (p.1, p.2 ++ r) := by
  by_cases hminus : cs.head? = some '-'
  · obtain ⟨cs, rfl⟩ : ∃ l, cs = '-' :: l := by
      cases cs with
      | nil => cases hminus
      | cons c l => exact ⟨l, by cases hminus; rfl⟩
    exact scanUnsigned_append true cs hr
  · have hplain : scanNumber cs = scanUnsigned false cs := by
      unfold scanNumber
      split
      · exact absurd rfl hminus
      · rfl
    have happend : scanNumber (cs ++ r) = scanUnsigned false (cs ++ r) := by
      unfold scanNumber
      split
      · next l hl =>
        cases cs with
        | nil =>
          obtain rfl : r = '-' :: l := hl
          rcases hr '-' rfl with h | h | h <;> cases h
        | cons c cs => exact absurd (by cases hl; rfl) hminus
      · rfl
    rw [hplain, happend]
    exact scanUnsigned_append false cs hr

/-- A number starts with its sign or a digit. -/
theorem eq_cons_of_scanNumber {cs r : List Char} {v : Option Num}
    (h : scanNumber cs = some (v, r)) : ∃ c cs', cs = c :: cs' ∧ (c = '-' ∨ c.isDigit = true) := by
  cases cs with
  | nil => cases h
  | cons c cs =>
    refine ⟨c, cs, rfl, ?_⟩
    by_cases hminus : c = '-'
    · exact .inl hminus
    · right
      cases hdigit : c.isDigit with
      | true => rfl
      | false =>
        have hnone : scanNumber (c :: cs) = none := by
          unfold scanNumber
          split
          · next hc => exact absurd (List.cons.inj hc).1 hminus
          · simp [scanUnsigned, scanDigits?, hdigit]
        rw [hnone] at h
        cases h

/-! ### Integers -/

theorem digit_digitChar {d : Nat} (h : d < 10) : (Nat.digitChar d).toNat - '0'.toNat = d :=
  (show ∀ d < 10, (Nat.digitChar d).toNat - '0'.toNat = d by decide) d h

/-- The digits of a number of at most 64 bits are all taken up. -/
theorem foldl_whole_toDigits (n : Nat) (h : n < 2 ^ 64) :
    (Nat.toDigits 10 n).foldl Digits.whole ⟨0, 0, false⟩ = ⟨n, 0, false⟩ := by
  induction n using Nat.strongRecOn with
  | ind n ih =>
    have hstep {m d : Nat} (hd : d < 10) (hlt : m * 10 + d < 2 ^ 64) :
        Digits.whole ⟨m, 0, false⟩ (Nat.digitChar d) = ⟨m * 10 + d, 0, false⟩ := by
      simp only [Digits.whole, digit_digitChar hd, Bool.false_eq_true, false_or]
      exact if_neg (Nat.not_le.mpr hlt)
    rw [Nat.toDigits_eq_if (by decide)]
    by_cases hn : n < 10
    · rw [if_pos hn, List.foldl_cons, List.foldl_nil, hstep hn (by omega)]
      simp
    · rw [if_neg hn, List.foldl_append, ih (n / 10) (by omega) (by omega), List.foldl_cons,
        List.foldl_nil, hstep (by omega) (by omega)]
      rw [show n / 10 * 10 + n % 10 = n by omega]

/-- The digits of a number do not start with a zero, unless it is the only one. -/
theorem toDigits_head_zero (n : Nat) :
    ¬ ((Nat.toDigits 10 n).length > 1 ∧ (Nat.toDigits 10 n).head? = some '0') := by
  have hhead : ∀ n, 0 < n → (Nat.toDigits 10 n).head? ≠ some '0' := by
    intro n
    induction n using Nat.strongRecOn with
    | ind n ih =>
      intro hpos
      rw [Nat.toDigits_eq_if (by decide)]
      by_cases hn : n < 10
      · rw [if_pos hn]
        exact (show ∀ d < 10, 0 < d → [Nat.digitChar d].head? ≠ some '0' by decide) n hn hpos
      · rw [if_neg hn, List.head?_append_of_ne_nil _ Nat.toDigits_ne_nil]
        exact ih (n / 10) (by omega) (by omega)
  rintro ⟨hlen, hzero⟩
  cases Nat.eq_zero_or_pos n with
  | inl h => subst h; simp at hlen
  | inr h => exact hhead n h hzero

theorem scanUnsigned_toDigits (negative : Bool) (n : Nat) (h : n < 2 ^ 64) :
    scanUnsigned negative (Nat.toDigits 10 n) = some (wholeValue negative ⟨n, 0, false⟩, []) := by
  have hall : ∀ c ∈ Nat.toDigits 10 n, c.isDigit = true := fun c hc =>
    Nat.isDigit_of_mem_toDigits (by decide) (by decide) hc
  have hdigits : scanDigits? (Nat.toDigits 10 n) = some (Nat.toDigits 10 n, []) := by
    unfold scanDigits?
    rw [List.takeWhile_eq_self_iff.mpr hall, List.dropWhile_eq_nil_iff.mpr hall]
    simp [Nat.toDigits_ne_nil]
  unfold scanUnsigned
  rw [hdigits]
  simp only [Option.bind_eq_bind, Option.bind_some, foldl_whole_toDigits n h]
  rw [if_neg (toDigits_head_zero n)]
  rfl

theorem toDigits_eq_cons (n : Nat) : ∃ c cs, Nat.toDigits 10 n = c :: cs ∧ c.isDigit = true := by
  cases h : Nat.toDigits 10 n with
  | nil => exact absurd h Nat.toDigits_ne_nil
  | cons c cs =>
    have hc : c ∈ Nat.toDigits 10 n := by simp [h]
    exact ⟨c, cs, rfl, Nat.isDigit_of_mem_toDigits (by decide) (by decide) hc⟩

/-- The text of an integer: its digits, after its sign. -/
theorem text_int : ∀ i : Int, Num.text (.int i) =
    if i < 0 then '-' :: Nat.toDigits 10 i.natAbs else Nat.toDigits 10 i.natAbs
  | .ofNat n => Nat.toList_repr
  | .negSucc n => by
    have : Num.text (.int (.negSucc n)) = (Int.repr (.negSucc n)).toList := rfl
    rw [this]
    simp [Int.repr, Nat.toList_repr, Int.negSucc_lt_zero]

/-- An integer of 64 bits is read back. -/
theorem readsBack_int {i : Int} (hlow : -(2 ^ 63) ≤ i) (hhigh : i < 2 ^ 64) :
    (Num.int i).ReadsBack := by
  unfold Num.ReadsBack
  rw [text_int]
  by_cases hi : i < 0
  · rw [if_pos hi]
    show scanUnsigned true _ = _
    rw [scanUnsigned_toDigits true i.natAbs (by omega)]
    simp only [wholeValue, if_true]
    rw [if_pos ⟨by omega, show i.natAbs ≤ 2 ^ 63 by omega⟩, show -(i.natAbs : Int) = i by omega]
  · rw [if_neg hi]
    have hscan : scanNumber (Nat.toDigits 10 i.natAbs) =
        scanUnsigned false (Nat.toDigits 10 i.natAbs) := by
      obtain ⟨c, cs, hd, hc⟩ := toDigits_eq_cons i.natAbs
      rw [hd]
      unfold scanNumber
      split
      · next h => cases h; cases hc
      · rfl
    rw [hscan, scanUnsigned_toDigits false i.natAbs (by omega)]
    simp only [wholeValue, if_true, Bool.false_eq_true, if_false]
    rw [show (i.natAbs : Int) = i by omega]

mutual

theorem exact_of_isPlain : ∀ d : Doc, d.isPlain = true → d.Exact
  | .null, _ => trivial
  | .bool _, _ => trivial
  | .num (.int i), h => by
    simp only [Doc.isPlain, Bool.and_eq_true, decide_eq_true_eq] at h
    exact readsBack_int h.1 h.2
  | .num (.real _), h => by cases h
  | .str _, _ => trivial
  | .arr items, h => exact_items_of_isPlain items h
  | .obj members, h => exact_members_of_isPlain members h
  | .unreadable, h => by cases h
  | .broken, h => by cases h

theorem exact_items_of_isPlain : ∀ ds : List Doc, itemsPlain ds = true → itemsExact ds
  | [], _ => trivial
  | d :: rest, h => by
    rw [itemsPlain, Bool.and_eq_true] at h
    exact ⟨exact_of_isPlain d h.1, exact_items_of_isPlain rest h.2⟩

theorem exact_members_of_isPlain : ∀ ms : List (Option String × Doc), membersPlain ms = true →
    membersExact ms
  | [], _ => trivial
  | (k, d) :: rest, h => by
    rw [membersPlain, Bool.and_eq_true, Bool.and_eq_true] at h
    exact ⟨h.1.1, exact_of_isPlain d h.1.2, exact_members_of_isPlain rest h.2⟩

end

/-! ### Scans -/

/-- The scan turns `cs` into tokens and goes on with `rest`. -/
def Lexes (cs : List Char) (ts : List Token) (rest : List Char) : Prop :=
  ∀ steps acc, cs.length ≤ steps →
    ∃ steps', rest.length ≤ steps' ∧
      tokensFrom steps acc cs = tokensFrom steps' (ts.reverse ++ acc) rest

theorem Lexes.refl (cs : List Char) : Lexes cs [] cs := fun steps _ h => ⟨steps, h, rfl⟩

theorem Lexes.append {cs mid rest : List Char} {ts us : List Token} (h : Lexes cs ts mid)
    (h' : Lexes mid us rest) : Lexes cs (ts ++ us) rest := by
  intro steps acc hs
  obtain ⟨steps', hs', he⟩ := h steps acc hs
  obtain ⟨steps'', hs'', he'⟩ := h' steps' (ts.reverse ++ acc) hs'
  exact ⟨steps'', hs'', by rw [he, he', List.reverse_append, List.append_assoc]⟩

/-- One token. -/
theorem Lexes.token {c : Char} {r rest : List Char} {t : Token} (hc : isSpace c = false)
    (h : scanToken c r = some (t, rest)) (hl : rest.length ≤ r.length) :
    Lexes (c :: r) [t] rest := by
  intro steps acc hs
  obtain ⟨steps, rfl⟩ : ∃ n, steps = n + 1 :=
    ⟨steps - 1, by simp only [List.length_cons] at hs; omega⟩
  refine ⟨steps, by simp only [List.length_cons] at hs; omega, ?_⟩
  simp only [tokensFrom, hc, h, Bool.false_eq_true, if_false]
  rfl

theorem Lexes.cons {c : Char} {r mid rest : List Char} {t : Token} {ts : List Token}
    (hc : isSpace c = false) (h : scanToken c r = some (t, mid)) (hl : mid.length ≤ r.length)
    (h' : Lexes mid ts rest) : Lexes (c :: r) (t :: ts) rest := (Lexes.token hc h hl).append h'

theorem tokens_of_lexes {cs : List Char} {ts : List Token} (h : Lexes cs ts []) :
    tokens cs = ts := by
  obtain ⟨steps, -, he⟩ := h cs.length [] (Nat.le_refl _)
  unfold tokens
  rw [he]
  cases steps <;> simp [tokensFrom]

theorem lexes_quote (s : String) (r : List Char) : Lexes (quote s ++ r) [.str (some s)] r := by
  have hscan : scanToken '"' (s.toList.flatMap escapeChar ++ '"' :: r) =
      some (.str (some s), r) := by
    have := scanString_escaped s.toList [] r
    rw [List.reverse_nil, List.nil_append, String.ofList_toList] at this
    show (scanString ⟨[], true, none⟩ (s.toList.flatMap escapeChar ++ '"' :: r)).map _ = _
    rw [this]
    rfl
  have hquote : quote s ++ r = '"' :: (s.toList.flatMap escapeChar ++ '"' :: r) := by
    simp [quote]
  rw [hquote]
  refine .token rfl hscan ?_
  simp only [List.length_append, List.length_cons]
  omega

theorem lexes_num {n : Num} (hn : n.ReadsBack) {r : List Char} (hr : EndsHere r) :
    Lexes (n.text ++ r) [.num (some n)] r := by
  have hnumber := scanNumber_append n.text hr
  rw [show scanNumber n.text = some (some n, []) from hn, Option.map_some,
    List.nil_append] at hnumber
  obtain ⟨c, cs, hcs, hc⟩ := eq_cons_of_scanNumber hn
  -- neither a blank nor any other token starts with this character
  have hother {d : Char} (hd : d ≠ '-') (hd' : d.isDigit = false) : c ≠ d := by
    rintro rfl
    rcases hc with rfl | hc
    · exact hd rfl
    · rw [hd'] at hc; cases hc
  have hspace : isSpace c = false := by
    simp [isSpace, hother (d := ' '), hother (d := '\n'), hother (d := '\t'), hother (d := '\r')]
  rw [hcs, List.cons_append] at hnumber ⊢
  refine .token hspace ?_ (by simp)
  unfold scanToken
  rw [if_neg (hother (by decide) rfl), if_neg (hother (by decide) rfl),
    if_neg (hother (by decide) rfl), if_neg (hother (by decide) rfl),
      if_neg (hother (by decide) rfl), if_neg (hother (by decide) rfl),
    if_neg (hother (by decide) rfl), if_pos hc, hnumber]
  rfl

/-! The text of an exact document is scanned as its tokens. -/

mutual

theorem lexes_render : ∀ (d : Doc) (r : List Char), d.Exact → EndsHere r →
    Lexes (d.render ++ r) d.tokens r
  | .null, r, _, _ => .token rfl rfl (List.suffix_append ['u', 'l', 'l'] r).length_le
  | .bool true, r, _, _ => .token rfl rfl (List.suffix_append ['r', 'u', 'e'] r).length_le
  | .bool false, r, _, _ => .token rfl rfl (List.suffix_append ['a', 'l', 's', 'e'] r).length_le
  | .num _, _, h, hr => lexes_num h hr
  | .str s, r, _, _ => lexes_quote s r
  | .arr items, r, h, _ => by
    have hitems := lexes_renderItems items (']' :: r) h (by rintro c ⟨⟩; simp)
    simp only [Doc.render, Doc.tokens, List.cons_append, List.append_assoc, List.nil_append]
    exact .cons rfl rfl (Nat.le_refl _) (hitems.append (.token rfl rfl (Nat.le_refl _)))
  | .obj members, r, h, _ => by
    have hmembers := lexes_renderMembers members ('}' :: r) h (by rintro c ⟨⟩; simp)
    simp only [Doc.render, Doc.tokens, List.cons_append, List.append_assoc, List.nil_append]
    exact .cons rfl rfl (Nat.le_refl _) (hmembers.append (.token rfl rfl (Nat.le_refl _)))

theorem lexes_renderItems : ∀ (ds : List Doc) (r : List Char), itemsExact ds → EndsHere r →
    Lexes (renderItems ds ++ r) (itemTokens ds) r
  | [], r, _, _ => .refl r
  | [d], r, h, hr => lexes_render d r h.1 hr
  | d :: e :: rest, r, h, hr => by
    have hd := lexes_render d (',' :: (renderItems (e :: rest) ++ r)) h.1 (by rintro c ⟨⟩; simp)
    have hrest := lexes_renderItems (e :: rest) r h.2 hr
    simp only [renderItems, itemTokens, List.cons_append, List.append_assoc] at hd hrest ⊢
    exact hd.append (.cons rfl rfl (Nat.le_refl _) hrest)

theorem lexes_renderMembers : ∀ (ms : List (Option String × Doc)) (r : List Char),
    membersExact ms → EndsHere r → Lexes (renderMembers ms ++ r) (memberTokens ms) r
  | [], r, _, _ => .refl r
  | [(none, d)], r, h, hr => by cases h.1
  | [(some k, d)], r, h, hr => by
    have hd := lexes_render d r h.2.1 hr
    simp only [renderMembers, memberTokens, Option.getD_some, List.cons_append, List.append_assoc]
    exact (lexes_quote k _).append (.cons rfl rfl (Nat.le_refl _) hd)
  | (none, d) :: e :: rest, r, h, hr => by cases h.1
  | (some k, d) :: e :: rest, r, h, hr => by
    have hd := lexes_render d (',' :: (renderMembers (e :: rest) ++ r)) h.2.1 (by rintro c ⟨⟩; simp)
    have hrest := lexes_renderMembers (e :: rest) r h.2.2 hr
    simp only [renderMembers, memberTokens, Option.getD_some, List.cons_append, List.append_assoc]
      at hd hrest ⊢
    exact (lexes_quote k _).append
      (.cons rfl rfl (Nat.le_refl _) (hd.append (.cons rfl rfl (Nat.le_refl _) hrest)))

end

/-! ### Walks -/

section steps

variable (stack : List Frame) (items : List Doc) (members : List (Option String × Doc))
  (k : Option String)

theorem step_openArr : Assembly.step ⟨stack, .value, none, false⟩ .openArr =
    ⟨.arr [] :: stack, .firstItem, none, false⟩ := rfl

theorem step_openObj : Assembly.step ⟨stack, .value, none, false⟩ .openObj =
    ⟨.obj [] none :: stack, .firstKey, none, false⟩ := rfl

theorem step_firstKey :
    Assembly.step ⟨.obj members none :: stack, .firstKey, none, false⟩ (.str k) =
    ⟨.obj members (some k) :: stack, .colon, none, false⟩ := rfl

theorem step_key : Assembly.step ⟨.obj members none :: stack, .key, none, false⟩ (.str k) =
    ⟨.obj members (some k) :: stack, .colon, none, false⟩ := rfl

theorem step_colon : Assembly.step ⟨stack, .colon, none, false⟩ .colon =
    ⟨stack, .value, none, false⟩ := rfl

theorem deliver_arr (d : Doc) : Assembly.deliver (.arr items :: stack) d =
    ⟨.arr (d :: items) :: stack, .afterValue, none, false⟩ := rfl

theorem deliver_obj (d : Doc) : Assembly.deliver (.obj members (some k) :: stack) d =
    ⟨.obj ((k, d) :: members) none :: stack, .afterValue, none, false⟩ := rfl

theorem step_comma_arr : Assembly.step ⟨.arr items :: stack, .afterValue, none, false⟩ .comma =
    ⟨.arr items :: stack, .value, none, false⟩ := rfl

theorem step_comma_obj :
    Assembly.step ⟨.obj members none :: stack, .afterValue, none, false⟩ .comma =
    ⟨.obj members none :: stack, .key, none, false⟩ := rfl

theorem step_closeArr : Assembly.step ⟨.arr items :: stack, .afterValue, none, false⟩ .closeArr =
    .deliver stack (.arr items.reverse) := rfl

theorem step_closeObj :
    Assembly.step ⟨.obj members none :: stack, .afterValue, none, false⟩ .closeObj =
    .deliver stack (.obj members.reverse) := rfl

/-- In an array that holds nothing yet, a value is taken as anywhere. -/
theorem step_firstItem {t : Token} (ht : t ≠ .closeArr) :
    Assembly.step ⟨stack, .firstItem, none, false⟩ t =
      Assembly.step ⟨stack, .value, none, false⟩ t := by
  cases t with
  | closeArr => exact absurd rfl ht
  | _ => rfl

end steps

theorem tokens_eq_cons (d : Doc) : ∃ t ts, d.tokens = t :: ts ∧ t ≠ .closeArr := by
  cases d <;> exact ⟨_, _, rfl, by simp⟩

theorem itemTokens_cons (d : Doc) (rest : List Doc) :
    ∃ more, itemTokens (d :: rest) = d.tokens ++ more := by
  cases rest with
  | nil => exact ⟨[], by simp [itemTokens]⟩
  | cons e rest => exact ⟨_, rfl⟩

theorem memberTokens_cons (k : Option String) (d : Doc) (rest : List (Option String × Doc)) :
    ∃ more, memberTokens ((k, d) :: rest) = .str k :: more := by
  cases rest <;> exact ⟨_, rfl⟩

/-! The walk of the tokens of an exact document delivers it to the frame that is open. -/

mutual

theorem foldl_tokens : ∀ (d : Doc) (stack : List Frame), d.Exact →
    d.tokens.foldl Assembly.step ⟨stack, .value, none, false⟩ = .deliver stack d
  | .null, _, _ => rfl
  | .bool _, _, _ => rfl
  | .num _, _, _ => rfl
  | .str _, _, _ => rfl
  | .arr [], _, _ => rfl
  | .arr (d :: rest), stack, h => by
    have hitems := foldl_itemTokens (d :: rest) [] stack h (by simp)
    -- the first token of an item may stand in an empty array
    obtain ⟨t, ts, hts, ht⟩ := tokens_eq_cons d
    obtain ⟨more, hmore⟩ := itemTokens_cons d rest
    rw [hmore, hts, List.cons_append, List.foldl_cons] at hitems
    rw [Doc.tokens, List.foldl_cons, List.foldl_append, List.foldl_cons, List.foldl_nil, hmore, hts,
      List.cons_append, List.foldl_cons, step_openArr, step_firstItem _ ht, hitems, List.append_nil,
      step_closeArr, List.reverse_reverse]
  | .obj [], _, _ => rfl
  | .obj ((k, d) :: rest), stack, h => by
    have hmembers := foldl_memberTokens ((k, d) :: rest) [] stack h (by simp)
    obtain ⟨more, hmore⟩ := memberTokens_cons k d rest
    rw [hmore, List.foldl_cons, step_key] at hmembers
    rw [Doc.tokens, List.foldl_cons, List.foldl_append, List.foldl_cons, List.foldl_nil, hmore,
      List.foldl_cons, step_openObj, step_firstKey, hmembers, List.append_nil, step_closeObj,
      List.reverse_reverse]
  | .unreadable, _, h => by cases h
  | .broken, _, h => by cases h

theorem foldl_itemTokens : ∀ (ds : List Doc) (acc : List Doc) (stack : List Frame),
    itemsExact ds → ds ≠ [] →
    (itemTokens ds).foldl Assembly.step ⟨.arr acc :: stack, .value, none, false⟩ =
      ⟨.arr (ds.reverse ++ acc) :: stack, .afterValue, none, false⟩
  | [], _, _, _, h => absurd rfl h
  | [d], acc, stack, h, _ => foldl_tokens d (.arr acc :: stack) h.1
  | d :: e :: rest, acc, stack, h, _ => by
    rw [itemTokens, List.foldl_append, foldl_tokens d (.arr acc :: stack) h.1, List.foldl_cons,
      deliver_arr, step_comma_arr, foldl_itemTokens (e :: rest) (d :: acc) stack h.2 (by simp),
      List.reverse_cons (a := d), List.append_assoc, List.singleton_append]
    exact fun hnil => by cases hnil

theorem foldl_memberTokens : ∀ (ms acc : List (Option String × Doc)) (stack : List Frame),
    membersExact ms → ms ≠ [] →
    (memberTokens ms).foldl Assembly.step ⟨.obj acc none :: stack, .key, none, false⟩ =
      ⟨.obj (ms.reverse ++ acc) none :: stack, .afterValue, none, false⟩
  | [], _, _, _, h => absurd rfl h
  | [(k, d)], acc, stack, h, _ => by
    rw [memberTokens, List.foldl_cons, List.foldl_cons, step_key, step_colon,
      foldl_tokens d (.obj acc (some k) :: stack) h.2.1, deliver_obj]
    rfl
  | (k, d) :: e :: rest, acc, stack, h, _ => by
    rw [memberTokens, List.foldl_cons, List.foldl_cons, List.foldl_append, step_key, step_colon,
      foldl_tokens d (.obj acc (some k) :: stack) h.2.1, deliver_obj, List.foldl_cons,
        step_comma_obj,
      foldl_memberTokens (e :: rest) ((k, d) :: acc) stack h.2.2 (by simp),
      List.reverse_cons (a := (k, d)), List.append_assoc, List.singleton_append]
    exact fun hnil => by cases hnil

end

/-! ### Texts -/

theorem tokens_render {d : Doc} (h : d.Exact) : tokens d.render = d.tokens := by
  have hlex := lexes_render d [] h (by simp [EndsHere])
  rw [List.append_nil] at hlex
  exact tokens_of_lexes hlex

theorem assemble_tokens {d : Doc} (h : d.Exact) : assemble d.tokens = ⟨d, false⟩ := by
  unfold assemble
  rw [foldl_tokens d [] h]
  rfl

/-- **The text of an exact document is read as this document.** -/
theorem read_text {d : Doc} (h : d.Exact) : read d.text = ⟨d, false⟩ := by
  unfold read Doc.text
  rw [String.toList_ofList, tokens_render h, assemble_tokens h]

theorem decodeText_of_exact {α : Type} (dec : Decoder α) {d : Doc} (h : d.Exact) :
    decodeText dec d.text = dec maxDepth d := by
  unfold decodeText Reading.decode
  rw [read_text h]
  cases dec maxDepth d <;> rfl

theorem decodeText_of_isPlain {α : Type} (dec : Decoder α) {d : Doc} (h : d.isPlain = true) :
    decodeText dec d.text = dec maxDepth d := decodeText_of_exact dec (exact_of_isPlain d h)

/-! ### Lines -/

theorem printable_escapeChar (c : Char) : ∀ d ∈ escapeChar c, 32 ≤ d.toNat := by
  have hhex (n : Nat) : 32 ≤ (hexDigit n).toNat :=
    (show ∀ n < 16, 32 ≤ (Nat.digitChar n).toNat by decide) (n % 16) (Nat.mod_lt n (by decide))
  unfold escapeChar
  split
  · simp
  split
  · simp
  split
  · next h => exact List.forall_mem_singleton.mpr h
  split
  · simp
  split
  · simp
  split
  · simp
  split
  · simp
  split
  · simp
  · intro d hd
    simp only [List.mem_cons, List.not_mem_nil, or_false] at hd
    rcases hd with rfl | rfl | rfl | rfl | rfl | rfl
    · decide
    · decide
    · decide
    · decide
    · exact hhex _
    · exact hhex _

theorem printable_quote (s : String) : ∀ c ∈ quote s, 32 ≤ c.toNat := by
  intro c hc
  unfold quote at hc
  rw [List.mem_cons, List.mem_append, List.mem_flatMap] at hc
  rcases hc with rfl | ⟨d, -, hd⟩ | hc
  · decide
  · exact printable_escapeChar d c hd
  · rw [List.mem_singleton.mp hc]
    decide

theorem printable_int (i : Int) : ∀ c ∈ Num.text (.int i), 32 ≤ c.toNat := by
  have hdigit : ∀ c ∈ Nat.toDigits 10 i.natAbs, 32 ≤ c.toNat := by
    intro c hc
    have := Nat.isDigit_of_mem_toDigits (by decide) (by decide) hc
    rw [Char.isDigit, Bool.and_eq_true, decide_eq_true_eq, decide_eq_true_eq] at this
    exact Nat.le_trans (by decide) this.1
  rw [text_int]
  split
  · exact List.forall_mem_cons.mpr ⟨by decide, hdigit⟩
  · exact hdigit

/-! There is no control character in the text of a plain document; so it has one line. -/

mutual

theorem printable_render : ∀ d : Doc, d.isPlain = true → ∀ c ∈ d.render, 32 ≤ c.toNat
  | .null, _ => by simp [Doc.render]
  | .bool true, _ => by simp [Doc.render]
  | .bool false, _ => by simp [Doc.render]
  | .num (.int i), _ => printable_int i
  | .num (.real _), h => by cases h
  | .str s, _ => printable_quote s
  | .arr items, h => by
    rw [Doc.render, List.forall_mem_cons, List.forall_mem_append]
    exact ⟨by decide, printable_renderItems items h, by simp⟩
  | .obj members, h => by
    rw [Doc.render, List.forall_mem_cons, List.forall_mem_append]
    exact ⟨by decide, printable_renderMembers members h, by simp⟩
  | .unreadable, h => by cases h
  | .broken, h => by cases h

theorem printable_renderItems : ∀ ds : List Doc, itemsPlain ds = true →
    ∀ c ∈ renderItems ds, 32 ≤ c.toNat
  | [], _ => by simp [renderItems]
  | [d], h => printable_render d (Bool.and_eq_true_iff.mp h).1
  | d :: e :: rest, h => by
    rw [itemsPlain, Bool.and_eq_true] at h
    rw [renderItems, List.forall_mem_append, List.forall_mem_cons]
    · exact ⟨printable_render d h.1, by decide, printable_renderItems (e :: rest) h.2⟩
    · exact fun hnil => by cases hnil

theorem printable_renderMembers : ∀ ms : List (Option String × Doc), membersPlain ms = true →
    ∀ c ∈ renderMembers ms, 32 ≤ c.toNat
  | [], _ => by simp [renderMembers]
  | [(k, d)], h => by
    rw [membersPlain, Bool.and_eq_true, Bool.and_eq_true] at h
    rw [renderMembers, List.forall_mem_append, List.forall_mem_cons]
    exact ⟨printable_quote _, by decide, printable_render d h.1.2⟩
  | (k, d) :: e :: rest, h => by
    rw [membersPlain, Bool.and_eq_true, Bool.and_eq_true] at h
    rw [renderMembers, List.forall_mem_append, List.forall_mem_cons, List.forall_mem_append,
      List.forall_mem_cons]
    · exact ⟨printable_quote _, by decide, printable_render d h.1.2, by decide,
        printable_renderMembers (e :: rest) h.2⟩
    · exact fun hnil => by cases hnil

end

end ChatRelay.Json
