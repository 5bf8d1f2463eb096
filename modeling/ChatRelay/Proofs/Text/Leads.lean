import ChatRelay.Text.Utf8
import Mathlib.Data.String.Basic

/-! # Leads of a text

The longest lead of whole characters that has at most `n` bytes is found by taking characters as
long as they fit (`longestLead_takeBytesChars`). If it is not the whole text, it is at most three
bytes shorter than `n` (`lt_utf8Len_takeBytesChars`). It depends only on what the text begins with,
up to the first character that does not fit (`takeBytesChars_append_eq`). -/

namespace ChatRelay.Text

open String (utf8Len)

/-- `lead` is the longest lead of whole characters of `cs` that has at most `n` bytes. -/
structure LongestLead (n : Nat) (cs lead : List Char) : Prop where
  starts : lead <+: cs
  fits : utf8Len lead ≤ n
  longest : ∀ lead', lead' <+: cs → utf8Len lead' ≤ n → lead' <+: lead

/-- Takes characters as long as they fit into `n` bytes, in reverse after `acc`. -/
def takeBytesChars (n : Nat) (acc : List Char) : List Char → List Char
  | [] => acc.reverse
  | c :: r =>
    if c.utf8Size ≤ n then takeBytesChars (n - c.utf8Size) (c :: acc) r else acc.reverse

/-- The longest lead of whole characters of `s` whose encoding has at most `n` bytes. -/
def takeBytes (n : Nat) (s : String) : String := String.ofList (takeBytesChars n [] s.toList)

theorem LongestLead.unique {n : Nat} {cs lead lead' : List Char} (h : LongestLead n cs lead)
    (h' : LongestLead n cs lead') : lead = lead' :=
  (h'.longest lead h.starts h.fits).eq_of_length_le (h.longest lead' h'.starts h'.fits).length_le

theorem takeBytesChars_acc (acc cs : List Char) : ∀ n : Nat,
    takeBytesChars n acc cs = acc.reverse ++ takeBytesChars n [] cs := by
  induction cs generalizing acc with
  | nil => simp [takeBytesChars]
  | cons c cs ih =>
    intro n
    unfold takeBytesChars
    split
    · rw [ih (c :: acc), ih [c]]
      simp
    · simp

theorem takeBytesChars_cons (n : Nat) (c : Char) (cs : List Char) :
    takeBytesChars n [] (c :: cs) =
      if c.utf8Size ≤ n then c :: takeBytesChars (n - c.utf8Size) [] cs else [] := by
  rw [takeBytesChars]
  split
  · rw [takeBytesChars_acc]
    rfl
  · rfl

/-- **A cut keeps the longest lead that fits.** -/
theorem longestLead_takeBytesChars (n : Nat) (cs : List Char) :
    LongestLead n cs (takeBytesChars n [] cs) := by
  induction cs generalizing n with
  | nil => exact ⟨List.nil_prefix, Nat.zero_le _, fun lead' h _ => h⟩
  | cons c cs ih =>
    rw [takeBytesChars_cons]
    split
    next hc =>
      obtain ⟨hstarts, hfits, hlongest⟩ := ih (n - c.utf8Size)
      refine ⟨List.cons_prefix_cons.mpr ⟨rfl, hstarts⟩, ?_, fun lead' h hn => ?_⟩
      · rw [String.utf8Len_cons]
        omega
      · cases lead' with
        | nil => exact List.nil_prefix
        | cons d lead' =>
          obtain ⟨rfl, htail⟩ := List.cons_prefix_cons.mp h
          rw [String.utf8Len_cons] at hn
          exact List.cons_prefix_cons.mpr ⟨rfl, hlongest lead' htail (by omega)⟩
    next hc =>
      refine ⟨List.nil_prefix, Nat.zero_le _, fun lead' h hn => ?_⟩
      cases lead' with
      | nil => exact List.nil_prefix
      | cons d lead' =>
        obtain ⟨rfl, -⟩ := List.cons_prefix_cons.mp h
        rw [String.utf8Len_cons] at hn
        omega

/-- A cut leaves out less than a whole character of the room. -/
theorem lt_utf8Len_takeBytesChars {n : Nat} {cs : List Char} (h : n < utf8Len cs) :
    n < utf8Len (takeBytesChars n [] cs) + 4 := by
  induction cs generalizing n with
  | nil => simp at h
  | cons c cs ih =>
    have hsize := c.utf8Size_le_four
    rw [String.utf8Len_cons] at h
    rw [takeBytesChars_cons]
    split
    next hc =>
      have := ih (n := n - c.utf8Size) (by omega)
      rw [String.utf8Len_cons]
      omega
    next hc => omega

/-- The text `before ++ rest` goes beyond `n` bytes within `before` or with the character after
it. -/
def Exceeds (n : Nat) (before rest : List Char) : Prop :=
  n < utf8Len before ∨ ∃ c, rest.head? = some c ∧ n < utf8Len before + c.utf8Size

theorem Exceeds.tail {n : Nat} {c : Char} {before rest : List Char}
    (h : Exceeds n (c :: before) rest) (hc : c.utf8Size ≤ n) :
    Exceeds (n - c.utf8Size) before rest := by
  unfold Exceeds at *
  rw [String.utf8Len_cons] at h
  rcases h with h | ⟨d, hd, h⟩
  · exact .inl (by omega)
  · exact .inr ⟨d, hd, by omega⟩

/-- **What stands behind the first character that does not fit makes no difference**, nor does that
character. -/
theorem takeBytesChars_append_eq {n : Nat} {before rest rest' : List Char}
    (h : Exceeds n before rest) (h' : Exceeds n before rest') :
    takeBytesChars n [] (before ++ rest) = takeBytesChars n [] (before ++ rest') := by
  induction before generalizing n with
  | nil =>
    have hnil : ∀ {r : List Char}, Exceeds n [] r → takeBytesChars n [] r = [] := by
      rintro r (h | ⟨c, hc, h⟩)
      · simp at h
      · cases r with
        | nil => cases hc
        | cons d r =>
          cases hc
          rw [takeBytesChars_cons, if_neg (by simpa using h)]
    rw [List.nil_append, List.nil_append, hnil h, hnil h']
  | cons c before ih =>
    rw [List.cons_append, List.cons_append, takeBytesChars_cons, takeBytesChars_cons]
    split
    next hc => rw [ih (h.tail hc) (h'.tail hc)]
    next => rfl

theorem Exceeds.lt_utf8Len {n : Nat} {before rest : List Char} (h : Exceeds n before rest) :
    n < utf8Len (before ++ rest) := by
  rw [String.utf8Len_append]
  rcases h with h | ⟨c, hc, h⟩
  · omega
  · cases rest with
    | nil => cases hc
    | cons d rest =>
      cases hc
      rw [String.utf8Len_cons]
      omega

end ChatRelay.Text
