import ChatRelay.Proofs.Text.Decoding
import ChatRelay.Proofs.Text.Trimming
import ChatRelay.Proofs.Text.Truncation
import ChatRelay.Proofs.Turn.Effects

/-! # Fetched pages

A page is read piece by piece until one byte more than can be shown is there, and what was read does
not depend on the pieces (`readPieces_eq`). It is decoded and trimmed, and only then is it seen
whether it is too long to be shown. For a page without blanks at its ends the one byte is enough:
what was read of it is too long just if the page is, and is cut in the same place. Blanks at the
start of a page, and where its reading ends, are counted among the bytes read but not among those
shown, so a page can lose its end without a mark. What is shown is right just if what was read is
the whole page, or is too long and begins like it (`page_shown`). -/

namespace ChatRelay.Tools

open Text

/-! ### Reading -/

/-- **Reading does not depend on the pieces.** -/
theorem readPieces_eq {limit : Nat} {before : List UInt8} (pieces : List (List UInt8))
    (h : before.length < limit) : readPieces limit before pieces =
      ((before ++ pieces.flatten).take limit,
        decide (limit ≤ (before ++ pieces.flatten).length)) := by
  induction pieces generalizing before with
  | nil =>
    rw [readPieces, List.flatten_nil, List.append_nil, List.take_of_length_le (by omega),
      decide_eq_false (by omega)]
  | cons piece rest ih =>
    have hbody : before ++ piece.take (limit - before.length) = (before ++ piece).take limit := by
      rw [List.take_append, List.take_of_length_le (Nat.le_of_lt h)]
    rw [readPieces, hbody, List.flatten_cons, ← List.append_assoc, List.length_take]
    split
    next hfull =>
      have hle : limit ≤ (before ++ piece).length := by omega
      have hwhole : limit ≤ (before ++ piece ++ rest.flatten).length := by
        rw [List.length_append]
        omega
      rw [List.take_append_of_le_length hle, decide_eq_true hwhole]
    next hopen =>
      have hlt : (before ++ piece).length < limit := by omega
      rw [List.take_of_length_le (Nat.le_of_lt hlt), ih hlt]

/-- The bytes that are read of a body. -/
def readOf (body : List UInt8) : List UInt8 := body.take (pageLimit + 1)

/-- The text of a body. -/
def textOf (body : List UInt8) : String := trim (lossy body)

theorem pageResult_eq {a : Web.Answer} (url : String) (success : a.isSuccess = true)
    (arrived : a.breaksOff = none ∨ pageLimit < a.pieces.flatten.length) :
    pageResult url a = .ok (pageText url (readOf a.pieces.flatten)) := by
  unfold pageResult
  rw [success, readPieces_eq a.pieces (Nat.succ_pos pageLimit), List.nil_append]
  rcases arrived with h | h
  · rw [h]
    cases decide (pageLimit + 1 ≤ a.pieces.flatten.length) <;> rfl
  · rw [decide_eq_true (show pageLimit + 1 ≤ _ from h)]
    rfl

/-! ### Showing -/

/-- A text is shown as it is if it is short enough, and else its longest lead of whole characters
that is, with a mark. -/
inductive ShowsPage (text : String) : String → Prop
  | whole (short : text.utf8ByteSize ≤ pageLimit) : ShowsPage text text
  | cut (long : pageLimit < text.utf8ByteSize) {lead : List Char}
      (longest : LongestLead pageLimit text.toList lead) :
      ShowsPage text (String.ofList lead ++ cutMark)

theorem showsPage_truncate (text : String) : ShowsPage text (truncate pageLimit text) := by
  rcases Nat.lt_or_ge pageLimit text.utf8ByteSize with long | short
  · rw [truncate_of_lt long]
    exact .cut long (longestLead_takeBytesChars _ _)
  · rw [truncate_of_le short]
    exact .whole short

theorem showsPage_iff {text shown : String} :
    ShowsPage text shown ↔ shown = truncate pageLimit text := by
  constructor
  · rintro (short | ⟨long, longest⟩)
    · rw [truncate_of_le short]
    · rw [truncate_of_lt long, takeBytes, longest.unique (longestLead_takeBytesChars _ _)]
  · rintro rfl
    exact showsPage_truncate text

/-- What is shown has no replacement that the text does not have. -/
theorem ShowsPage.replaced {text shown : String} (h : ShowsPage text shown)
    (hmem : replacement ∈ shown.toList) : replacement ∈ text.toList := by
  cases h with
  | whole => exact hmem
  | cut long longest =>
    rw [String.toList_append, String.toList_ofList] at hmem
    rcases List.mem_append.mp hmem with hmem | hmem
    · exact longest.starts.subset hmem
    · exact absurd hmem (by decide)

/-- Without blanks at the ends, what was read is shown as the whole would be. -/
theorem truncate_read {body : List UInt8} (hwhole : textOf body = lossy body)
    (hread : textOf (readOf body) = lossy (readOf body)) :
    truncate pageLimit (textOf (readOf body)) = truncate pageLimit (textOf body) := by
  rw [hwhole, hread]
  by_cases hlen : body.length ≤ pageLimit
  · rw [readOf, List.take_of_length_le (Nat.le_succ_of_le hlen)]
  · obtain ⟨before, rest, rest', hr, hw, hrest, hrest'⟩ :=
      lossy_take_exceeds (Nat.lt_of_not_le hlen)
    refine truncate_eq_truncate_iff.mpr (.inr ⟨?_, ?_, ?_⟩)
    · rw [utf8ByteSize_eq, readOf, hr]
      exact hrest.lt_utf8Len
    · rw [utf8ByteSize_eq, hw]
      exact hrest'.lt_utf8Len
    · rw [takeBytes, takeBytes, readOf, hr, hw, takeBytesChars_append_eq hrest hrest']

/-! ### Fetching -/

section

variable {σ : Type} {x : Executor σ} {url : String} {w : World σ} {a : Web.Answer} {outside : σ}

theorem fetchPage_fst (sent : x.network.send ⟨"GET", url, [], none⟩ w.outside = (.ok a, outside)) :
    ((x.fetchPage url).run w).1 = pageResult url a := by
  unfold Executor.fetchPage
  rw [Act.run_bind, Act.run_ask, sent]
  rfl

/-- **What is shown of a page.** The result of fetching is a header line and what is shown of the
text that was read. What was read, and so the result, depends on the body only, not on its pieces.
The page is shown as a whole, or its longest lead with a mark, just if its text was read entirely,
or is too long, as is what was read of it, and both begin alike as far as they are shown. That is so
for every page that is at most one byte too long, and for every longer one if neither its text nor
what was read of it has blanks at its ends. -/
theorem page_shown {body : List UInt8}
    (sent : x.network.send ⟨"GET", url, [], none⟩ w.outside = (.ok a, outside))
    (success : a.isSuccess = true) (pieces : a.pieces.flatten = body)
    (arrived : a.breaksOff = none ∨ pageLimit < body.length) :
    ∃ shown, ((x.fetchPage url).run w).1 = .ok ("Content from " ++ url ++ ":\n\n" ++ shown) ∧
      ShowsPage (textOf (readOf body)) shown ∧
      (ShowsPage (textOf body) shown ↔ textOf (readOf body) = textOf body ∨
        pageLimit < (textOf (readOf body)).utf8ByteSize ∧ pageLimit < (textOf body).utf8ByteSize ∧
          takeBytes pageLimit (textOf (readOf body)) = takeBytes pageLimit (textOf body)) ∧
      (body.length ≤ pageLimit + 1 → ShowsPage (textOf body) shown) ∧
      (textOf body = lossy body → textOf (readOf body) = lossy (readOf body) →
        ShowsPage (textOf body) shown) ∧
      (ShowsPage (textOf body) shown → replacement ∈ shown.toList →
        replacement ∈ (lossy body).toList) := by
  subst pieces
  refine ⟨truncate pageLimit (textOf (readOf a.pieces.flatten)), ?_, showsPage_truncate _, ?_,
    fun short => ?_, fun hwhole hread => ?_, fun h hmem => ?_⟩
  · rw [fetchPage_fst sent, pageResult_eq url success arrived]
    simp [pageText, textOf, toString]
  · rw [showsPage_iff, truncate_eq_truncate_iff]
  · rw [readOf, List.take_of_length_le short]
    exact showsPage_truncate _
  · rw [truncate_read hwhole hread]
    exact showsPage_truncate _
  · have := h.replaced hmem
    rw [textOf, trim, String.toList_ofList] at this
    exact trimChars_subset _ this

end

/-! ### Pages of letters -/

/-- An executor whose network answers every request with a page, piece by piece. -/
def pageExecutor (pieces : List (List UInt8)) (breaksOff : Option String) : Executor Unit :=
  .new ⟨fun _ s => (.ok ⟨200, pieces, breaksOff⟩, s)⟩ .none none none

theorem encode_xs (n : Nat) :
    encode (String.ofList (List.replicate n 'x')) = List.replicate n 0x78 := by
  have hx : String.utf8EncodeChar 'x' = [0x78] := by decide
  rw [encode, String.toList_ofList]
  induction n with
  | zero => rfl
  | succ n ih =>
    rw [List.replicate_succ, List.flatMap_cons, ih, hx]
    rfl

theorem utf8ByteSize_xs (n : Nat) : (String.ofList (List.replicate n 'x')).utf8ByteSize = n := by
  rw [String.utf8ByteSize_ofList]
  induction n with
  | zero => rfl
  | succ n ih =>
    rw [List.replicate_succ, String.utf8Len_cons, ih]
    rfl

theorem not_isBlank_xs {n : Nat} {c : Char} (h : c ∈ List.replicate n 'x') : isBlank c = false := by
  rw [List.eq_of_mem_replicate h]
  decide

/-- Of a text that begins with as many letters as fit, these and what fits after them are taken. -/
theorem takeBytesChars_xs {n k : Nat} (h : k ≤ n) (rest : List Char) :
    takeBytesChars n [] (List.replicate k 'x' ++ rest) =
      List.replicate k 'x' ++ takeBytesChars (n - k) [] rest := by
  have hx : 'x'.utf8Size = 1 := by decide
  induction k generalizing n with
  | zero => rfl
  | succ k ih =>
    rw [List.replicate_succ, List.cons_append, takeBytesChars_cons, hx, if_pos (by omega),
      ih (by omega), Nat.sub_sub, Nat.add_comm 1 k]
    rfl

/-- A text of letters with one other in it. -/
def letters (n k : Nat) : String :=
  String.ofList (List.replicate n 'x' ++ 'é' :: List.replicate k 'x')

theorem trim_letters (n k : Nat) : trim (letters n k) = letters n k := by
  have hletter : ∀ c ∈ List.replicate n 'x' ++ 'é' :: List.replicate k 'x', isBlank c = false := by
    intro c hc
    rcases List.mem_append.mp hc with h | h
    · exact not_isBlank_xs h
    · rcases List.mem_cons.mp h with rfl | h
      · decide
      · exact not_isBlank_xs h
  rw [letters, trim, String.toList_ofList, trimChars_eq_self_iff.mpr
    ⟨fun c hc => hletter c (List.mem_of_mem_head? hc), fun c hc =>
      hletter c (List.mem_of_getLast? hc)⟩]

theorem encode_letters (n k : Nat) :
    encode (letters n k) = List.replicate n 0x78 ++ 0xC3 :: 0xA9 :: List.replicate k 0x78 := by
  have hother : encode "é" = [0xC3, 0xA9] := by decide
  rw [letters, ← List.singleton_append, String.ofList_append, String.ofList_append, encode_append,
    encode_append, encode_xs, encode_xs, show String.ofList ['é'] = "é" from rfl, hother]
  rfl

theorem textOf_letters (n k : Nat) :
    textOf (encode (letters n k)) = lossy (encode (letters n k)) := by
  rw [textOf, lossy_encode, trim_letters]

/-- A page is read up to the character at its limit. -/
theorem readOf_letters {n : Nat} (h : n + 1 = pageLimit) (k : Nat) :
    readOf (encode (letters n k)) = encode (letters n 0) := by
  have hroom : pageLimit + 1 = (List.replicate n (0x78 : UInt8)).length + 2 := by
    rw [List.length_replicate]
    omega
  rw [readOf, encode_letters, encode_letters, hroom, List.take_length_add_append]
  rfl

theorem length_encode_letters (n k : Nat) : (encode (letters n k)).length = n + k + 2 := by
  rw [encode_letters, List.length_append, List.length_replicate, List.length_cons, List.length_cons,
    List.length_replicate]
  omega

/-- A text is cut before the character at the limit. -/
theorem truncate_letters {n : Nat} (h : n + 1 = pageLimit) (k : Nat) :
    truncate pageLimit (letters n k) = String.ofList (List.replicate n 'x') ++ cutMark := by
  have hother : 'é'.utf8Size = 2 := by decide
  have hlong : pageLimit < (letters n k).utf8ByteSize := by
    rw [letters, String.utf8ByteSize_ofList, String.utf8Len_append, String.utf8Len_cons, hother,
      ← String.utf8ByteSize_ofList, utf8ByteSize_xs]
    omega
  rw [truncate_of_lt hlong, takeBytes, letters, String.toList_ofList, takeBytesChars_xs (by omega),
    takeBytesChars_cons, hother, if_neg (by omega), List.append_nil]

/-- The pieces in which a page of letters arrives: the second ends within the character at the
limit. -/
theorem flatten_letters (n m k : Nat) :
    [List.replicate n 0x78, List.replicate m 0x78 ++ [0xC3],
      0xA9 :: List.replicate k 0x78].flatten =
      encode (letters (n + m) k) := by
  rw [encode_letters, List.flatten_cons, List.flatten_cons, List.flatten_singleton,
    List.append_assoc, List.singleton_append, ← List.append_assoc, List.replicate_append_replicate]

/-- A page of 9001 bytes comes in three pieces, the second of which ends within the character at the
limit, and then breaks off. Enough of it has come: it is shown up to that character, with a mark. -/
theorem page_shown_in_pieces :
    (((pageExecutor [List.replicate 4000 0x78, List.replicate 3999 0x78 ++ [0xC3],
        0xA9 :: List.replicate 1000 0x78] (some "reset")).fetchPage "http://page.test/p").run
          ⟨(), ⟨0, 0⟩⟩).1 =
      .ok ("Content from http://page.test/p:\n\n" ++
        (String.ofList (List.replicate 7999 'x') ++ cutMark)) := by
  have hlong : pageLimit < (encode (letters (4000 + 3999) 1000)).length := by
    rw [length_encode_letters]
    decide
  obtain ⟨shown, result, -, -, -, unblank, -⟩ :=
    @page_shown Unit (pageExecutor [List.replicate 4000 0x78, List.replicate 3999 0x78 ++ [0xC3],
      0xA9 :: List.replicate 1000 0x78] (some "reset")) "http://page.test/p"
    ⟨(), ⟨0, 0⟩⟩ _ _ _ rfl rfl (flatten_letters 4000 3999 1000) (.inr hlong)
  have hread : textOf (readOf (encode (letters (4000 + 3999) 1000))) =
      lossy (readOf (encode (letters (4000 + 3999) 1000))) := by
    rw [readOf_letters rfl, textOf_letters]
  have hshown := showsPage_iff.mp (unblank (textOf_letters _ _) hread)
  rw [textOf_letters, lossy_encode, truncate_letters rfl] at hshown
  rw [result, hshown]
  rfl

/-! ### A page that begins with a blank -/

theorem encode_blank_xs (n : Nat) :
    encode (String.ofList (' ' :: List.replicate n 'x')) = 0x20 :: List.replicate n 0x78 := by
  have hblank : encode " " = [0x20] := by decide
  rw [← List.singleton_append, String.ofList_append, encode_append, encode_xs,
    show String.ofList [' '] = " " from rfl, hblank]
  rfl

theorem trim_blank_xs (n : Nat) :
    trim (String.ofList (' ' :: List.replicate n 'x')) = String.ofList (List.replicate n 'x') := by
  have hself : trimChars (List.replicate n 'x') = List.replicate n 'x' :=
    trimChars_eq_self_iff.mpr ⟨fun c hc => not_isBlank_xs (List.mem_of_mem_head? hc),
      fun c hc => not_isBlank_xs (List.mem_of_getLast? hc)⟩
  rw [trim, String.toList_ofList, show trimChars (' ' :: List.replicate n 'x') =
    trimChars (List.replicate n 'x')
    from rfl, hself]

/-- **A page can lose its end without a mark**: of a blank and 9000 other characters 8000 are
shown. -/
theorem page_cut_unmarked : ∃ shown,
    (((pageExecutor [0x20 :: List.replicate 9000 0x78] none).fetchPage "http://page.test/p").run
        ⟨(), ⟨0, 0⟩⟩).1 =
      .ok ("Content from http://page.test/p:\n\n" ++ shown) ∧
    shown = String.ofList (List.replicate 8000 'x') ∧
    textOf (0x20 :: List.replicate 9000 0x78) = String.ofList (List.replicate 9000 'x') ∧
    ¬ ShowsPage (textOf (0x20 :: List.replicate 9000 0x78)) shown := by
  have hread : readOf (0x20 :: List.replicate 9000 0x78) = 0x20 :: List.replicate 8000 0x78 := by
    rw [readOf, List.take_succ_cons, List.take_replicate]
    rfl
  have hpage : textOf (0x20 :: List.replicate 9000 0x78) =
      String.ofList (List.replicate 9000 'x') := by
    rw [textOf, ← encode_blank_xs, lossy_encode, trim_blank_xs]
  refine ⟨_, ?_, rfl, hpage, ?_⟩
  · rw [fetchPage_fst rfl, pageResult_eq _ rfl (.inl rfl), List.flatten_singleton, hread, pageText,
      ← encode_blank_xs, lossy_encode, trim_blank_xs,
        truncate_of_le (by rw [utf8ByteSize_xs]; decide)]
    rfl
  · rw [showsPage_iff, hpage, truncate_of_lt (by rw [utf8ByteSize_xs]; decide)]
    intro same
    have hcut := lt_utf8ByteSize_cut (n := pageLimit) (s := String.ofList (List.replicate 9000 'x'))
      (by rw [utf8ByteSize_xs]; decide)
    rw [← same, utf8ByteSize_xs] at hcut
    exact absurd hcut (by decide)

end ChatRelay.Tools
