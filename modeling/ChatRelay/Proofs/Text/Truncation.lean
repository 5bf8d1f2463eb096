import ChatRelay.Proofs.Text.Leads

/-! # Truncated texts

The search for the place of a cut walks back over the bytes of a text. The boundaries that it can
meet are the ends of the leads of whole characters (`isValid_iff_lead`), so it stops at the last of
them within the limit (`lastBoundary_boundaryBack?`), and what stands before that place is the
longest lead that fits (`leadWithin_eq`). No character has more than four bytes, so the search goes
back three places at most (`truncated_truncate`). -/

namespace ChatRelay.Text

open String (utf8Len)

theorem utf8ByteSize_eq (s : String) : s.utf8ByteSize = utf8Len s.toList := by
  rw [← String.utf8ByteSize_ofList, String.ofList_toList]

/-! ### Boundaries -/

section boundary

variable {s : String} {n : Nat}

/-- **A boundary is the end of a lead of whole characters.** -/
theorem isValid_iff_lead :
    (⟨n⟩ : String.Pos.Raw).IsValid s ↔ ∃ lead, lead <+: s.toList ∧ utf8Len lead = n := by
  rw [String.Pos.Raw.isValid_iff_exists_append]
  constructor
  · rintro ⟨before, after, rfl, hn⟩
    refine ⟨before.toList, ?_, ?_⟩
    · rw [String.toList_append]
      exact List.prefix_append _ _
    · rw [← utf8ByteSize_eq]
      exact (congrArg String.Pos.Raw.byteIdx hn).symm
  · rintro ⟨lead, ⟨rest, hrest⟩, rfl⟩
    refine ⟨String.ofList lead, String.ofList rest, ?_, ?_⟩
    · rw [← String.ofList_append, hrest, String.ofList_toList]
    · rw [String.Pos.Raw.ext_iff, String.byteIdx_rawEndPos, String.utf8ByteSize_ofList]

theorem boundaryAt?_of_not_isValid (h : ¬ (⟨n⟩ : String.Pos.Raw).IsValid s) :
    boundaryAt? s n = none :=
  dif_neg fun hv => h (String.Pos.Raw.isValid_eq_true_iff.mp hv)

/-- `p` is the last boundary among the places up to `n`. -/
structure LastBoundary (n : Nat) (p : s.Pos) : Prop where
  within : p.offset.byteIdx ≤ n
  last : ∀ m ≤ n, (⟨m⟩ : String.Pos.Raw).IsValid s → m ≤ p.offset.byteIdx

theorem lastBoundary_self (h : (⟨n⟩ : String.Pos.Raw).IsValid s) : LastBoundary n (s.pos ⟨n⟩ h) :=
  ⟨Nat.le_refl n, fun _ hm _ => hm⟩

/-- A place that is no boundary is passed over. -/
theorem LastBoundary.succ {p : s.Pos} (hp : LastBoundary n p)
    (h : ¬ (⟨n + 1⟩ : String.Pos.Raw).IsValid s) : LastBoundary (n + 1) p where
  within := Nat.le_succ_of_le hp.within
  last m hm hv := by
    have hne : m ≠ n + 1 := by
      rintro rfl
      exact h hv
    exact hp.last m (by omega) hv

/-- **The search stops at the last boundary** up to the place where it starts. -/
theorem lastBoundary_boundaryBack? (s : String) (n : Nat) :
    ∃ p, boundaryBack? s n = some p ∧ LastBoundary n p := by
  induction n with
  | zero =>
    have h : (⟨0⟩ : String.Pos.Raw).IsValid s := String.Pos.Raw.isValid_zero
    exact ⟨_, boundaryAt?_of_isValid h, lastBoundary_self h⟩
  | succ n ih =>
    rw [boundaryBack?]
    by_cases h : (⟨n + 1⟩ : String.Pos.Raw).IsValid s
    · rw [boundaryAt?_of_isValid h]
      exact ⟨_, rfl, lastBoundary_self h⟩
    · obtain ⟨p, hp, hlast⟩ := ih
      rw [boundaryAt?_of_not_isValid h, hp]
      exact ⟨p, rfl, hlast.succ h⟩

/-! ### Texts before a boundary -/

theorem utf8Len_sliceTo (p : s.Pos) : utf8Len (s.sliceTo p).copy.toList = p.offset.byteIdx := by
  rw [← utf8ByteSize_eq, p.splits.offset_eq_rawEndPos, String.byteIdx_rawEndPos]

theorem sliceTo_starts (p : s.Pos) : (s.sliceTo p).copy.toList <+: s.toList := by
  have hsplit := congrArg String.toList p.splits.eq_append
  rw [String.toList_append] at hsplit
  exact ⟨_, hsplit.symm⟩

/-- What stands before the last boundary up to a place is the longest lead that fits before the
place. -/
theorem LastBoundary.longestLead {p : s.Pos} (h : LastBoundary n p) :
    LongestLead n s.toList (s.sliceTo p).copy.toList where
  starts := sliceTo_starts p
  fits := by
    rw [utf8Len_sliceTo]
    exact h.within
  longest lead hlead hn := by
    have hle := h.last (utf8Len lead) hn (isValid_iff_lead.mpr ⟨lead, hlead, rfl⟩)
    rw [← utf8Len_sliceTo] at hle
    rcases List.prefix_or_prefix_of_prefix hlead (sliceTo_starts p) with hshort | ⟨rest, hrest⟩
    · exact hshort
    · -- a longer lead with no more bytes has no further characters
      rw [← hrest, String.utf8Len_append] at hle
      have hnil : rest = [] := String.utf8Len_eq_zero.mp (by omega)
      exact ⟨[], by rw [← hrest, hnil, List.append_nil, List.append_nil]⟩

end boundary

/-! ### Cuts -/

/-- **The search finds the longest lead that fits.** -/
theorem leadWithin_eq (n : Nat) (s : String) : leadWithin n s = takeBytes n s := by
  obtain ⟨p, hp, hlast⟩ := lastBoundary_boundaryBack? s n
  have hget : (boundaryBack? s n).get (isSome_boundaryBack? s n) = p := Option.get_of_eq_some _ hp
  rw [leadWithin, hget, takeBytes,
    ← hlast.longestLead.unique (longestLead_takeBytesChars n s.toList), String.ofList_toList]

/-- The mark of a text that was cut. -/
def cutMark : String := "...(truncated)"

theorem truncate_of_le {n : Nat} {s : String} (h : s.utf8ByteSize ≤ n) : truncate n s = s :=
  if_pos h

theorem truncate_of_lt {n : Nat} {s : String} (h : n < s.utf8ByteSize) :
    truncate n s = takeBytes n s ++ cutMark := by
  rw [truncate, if_neg (Nat.not_le.mpr h), leadWithin_eq]
  rfl

/-- What is left of a text under a limit: the text itself if it is short enough, and else its
longest lead of whole characters that is, with a mark. The lead ends where the search that goes back
from the limit stops, and leaves less than the room of a character. -/
inductive Truncated (limit : Nat) (s : String) : String → Prop
  | whole (short : s.utf8ByteSize ≤ limit) : Truncated limit s s
  | cut (long : limit < s.utf8ByteSize) {p : s.Pos} (stops : boundaryBack? s limit = some p)
      {lead : List Char} (ends : p.offset.byteIdx = utf8Len lead)
      (longest : LongestLead limit s.toList lead) (room : limit < utf8Len lead + 4) :
      Truncated limit s (String.ofList lead ++ cutMark)

theorem truncated_truncate (limit : Nat) (s : String) : Truncated limit s (truncate limit s) := by
  rcases Nat.lt_or_ge limit s.utf8ByteSize with long | short
  · obtain ⟨p, hp, hlast⟩ := lastBoundary_boundaryBack? s limit
    have hlead := hlast.longestLead.unique (longestLead_takeBytesChars limit s.toList)
    rw [truncate_of_lt long]
    refine .cut long hp ?_ (longestLead_takeBytesChars limit s.toList)
      (lt_utf8Len_takeBytesChars ?_)
    · rw [← hlead, utf8Len_sliceTo]
    · rw [← utf8ByteSize_eq]
      exact long
  · rw [truncate_of_le short]
    exact .whole short

example : truncate 2 "héllo" = "h...(truncated)" := by decide

/-- A text that was cut is longer than the limit, mark included. -/
theorem lt_utf8ByteSize_cut {n : Nat} {s : String} (h : n < s.utf8ByteSize) :
    n < (takeBytes n s ++ cutMark).utf8ByteSize := by
  rw [utf8ByteSize_eq] at h
  have hlead := lt_utf8Len_takeBytesChars h
  have hmark : cutMark.utf8ByteSize = 14 := by decide
  rw [String.utf8ByteSize_append, hmark, takeBytes, String.utf8ByteSize_ofList]
  omega

/-- **Two texts are shown alike** just if they are the same, or both are too long and begin
alike. -/
theorem truncate_eq_truncate_iff {n : Nat} {s t : String} : truncate n s = truncate n t ↔
    s = t ∨ n < s.utf8ByteSize ∧ n < t.utf8ByteSize ∧ takeBytes n s = takeBytes n t := by
  have hfits : ∀ {u v : String}, u.utf8ByteSize ≤ n → n < v.utf8ByteSize →
      u ≠ takeBytes n v ++ cutMark := by
    rintro u v hu hv rfl
    have := lt_utf8ByteSize_cut hv
    omega
  constructor
  · intro h
    rcases Nat.lt_or_ge n s.utf8ByteSize with hs | hs
      <;> rcases Nat.lt_or_ge n t.utf8ByteSize with ht | ht
    · rw [truncate_of_lt hs, truncate_of_lt ht, String.append_left_inj] at h
      exact .inr ⟨hs, ht, h⟩
    · rw [truncate_of_lt hs, truncate_of_le ht] at h
      exact absurd h.symm (hfits ht hs)
    · rw [truncate_of_lt ht, truncate_of_le hs] at h
      exact absurd h (hfits hs ht)
    · rw [truncate_of_le hs, truncate_of_le ht] at h
      exact .inl h
  · rintro (rfl | ⟨hs, ht, h⟩)
    · rfl
    · rw [truncate_of_lt hs, truncate_of_lt ht, h]

end ChatRelay.Text
