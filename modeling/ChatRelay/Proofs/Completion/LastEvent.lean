import ChatRelay.Proofs.Completion.EventLines
import ChatRelay.Proofs.Text.Decoding

/-! # A last event without an empty line

A body that ends cleanly may leave its last event without the empty line that ends the others, or
with a part of it. With two more line feeds the event is a complete one (`Completes`,
`cutAt_completed`), and its data lines are those of the part left over (`dataLines_completed`).

The part left over is trimmed before its lines are read. Blanks at its end do not matter: they are
trimmed off the data anyway (`dataLines_append_blank`). Blanks at its start are whole lines, which
do not matter either, and the indentation of the first other line. If that line is a data line but
for the indentation, it is read at the end of the body only (`dataLines_trimChars`). So the two line
feeds make no difference just if the last event says the same without these data
(`last_event_completed`). -/

namespace ChatRelay.Completion

open Text

/-! ### Data lines -/

/-- What the data lines of an event hold. -/
def dataLines (cs : List Char) : List (List Char) := (splitChars '\n' cs).filterMap dataOfLine

/-- What data lines say. -/
def saidBy (data : List (List Char)) : EventOutcome :=
  if data.contains doneMark then .done else .ofData (String.ofList data.flatten)

theorem ofText_eq (event : String) : EventOutcome.ofText event = saidBy (dataLines event.toList) :=
  rfl

/-- The data of a line, carriage returns at its end included. -/
def dataAfterMark (line : List Char) : Option (List Char) :=
  if "data:".toList.isPrefixOf line then some (trimChars (line.drop 5)) else none

theorem dataAfterMark_append_blank {c : Char} (hc : isBlank c = true) (line : List Char) :
    dataAfterMark (line ++ [c]) = dataAfterMark line := by
  have hmark : "data:".toList <+: line ++ [c] ↔ "data:".toList <+: line := by
    refine ⟨fun h => (List.prefix_concat_iff.mp h).resolve_left fun heq => ?_,
      fun h => h.trans (List.prefix_append _ _)⟩
    -- the mark ends in a colon
    have hlast := congrArg List.getLast? heq
    rw [List.getLast?_append] at hlast
    cases hlast
    exact absurd hc (by decide)
  unfold dataAfterMark
  simp only [List.isPrefixOf_iff_prefix, hmark]
  split
  next h =>
    have hlen : 5 ≤ line.length := h.length_le
    rw [List.drop_append_of_le_length hlen, trimChars_append_blank hc]
  next => rfl

/-- Carriage returns at the end of a line do not matter. -/
theorem dataOfLine_eq (line : List Char) : dataOfLine line = dataAfterMark line := by
  induction line using List.reverseRecOn with
  | nil => rfl
  | append_singleton line c ih =>
    by_cases hc : c = '\r'
    · subst hc
      rw [dataOfLine_append_return, ih, dataAfterMark_append_blank (by decide)]
    · have hkeep : dropEndChars (· == '\r') (line ++ [c]) = line ++ [c] := by
        rw [dropEndChars_eq, List.rdropWhile_concat_neg _ _ _ (by simpa using hc)]
      unfold dataOfLine
      rw [hkeep]
      rfl

theorem dataOfLine_append_blank {c : Char} (hc : isBlank c = true) (line : List Char) :
    dataOfLine (line ++ [c]) = dataOfLine line := by
  rw [dataOfLine_eq, dataOfLine_eq, dataAfterMark_append_blank hc]

/-- A line that begins with a blank is no data line. -/
theorem dataOfLine_blank {c : Char} (hc : isBlank c = true) (line : List Char) :
    dataOfLine (c :: line) = none := by
  have hd : 'd' ≠ c := by
    rintro rfl
    exact absurd hc (by decide)
  rw [dataOfLine_eq, dataAfterMark, if_neg]
  rw [List.isPrefixOf_iff_prefix]
  exact fun h => hd (List.cons_prefix_cons.mp h).1

/-! ### Blanks at the end -/

theorem splitChars_append_sep {sep : Char} (cs rest : List Char) :
    splitChars sep (cs ++ sep :: rest) = splitChars sep cs ++ splitChars sep rest := by
  unfold splitChars
  rw [List.foldl_append, List.foldl_cons, splitStep, if_pos rfl, foldl_splitStep_acc]
  simp

theorem splitChars_concat {sep c : Char} (hc : c ≠ sep) (cs : List Char) : ∃ lines line,
    splitChars sep cs = lines ++ [line] ∧ splitChars sep (cs ++ [c]) = lines ++ [line ++ [c]] := by
  unfold splitChars
  refine ⟨(cs.foldl (splitStep sep) ([], [])).1.reverse,
    (cs.foldl (splitStep sep) ([], [])).2.reverse, ?_, ?_⟩
  · simp
  · rw [List.foldl_append, List.foldl_cons, List.foldl_nil, splitStep, if_neg hc]
    simp

theorem dataLines_append_blank {c : Char} (hc : isBlank c = true) (cs : List Char) :
    dataLines (cs ++ [c]) = dataLines cs := by
  unfold dataLines
  by_cases hn : c = '\n'
  · subst hn
    rw [splitChars_append_sep, List.filterMap_append]
    exact List.append_nil _
  · obtain ⟨lines, line, h, h'⟩ := splitChars_concat hn cs
    rw [h, h', List.filterMap_append, List.filterMap_append, List.filterMap_cons,
      List.filterMap_cons, dataOfLine_append_blank hc]

theorem dataLines_dropEndChars (cs : List Char) :
    dataLines (dropEndChars isBlank cs) = dataLines cs := by
  rw [dropEndChars_eq]
  induction cs using List.reverseRecOn with
  | nil => rfl
  | append_singleton cs c ih =>
    by_cases hc : isBlank c = true
    · rw [List.rdropWhile_concat_pos _ _ _ hc, ih, dataLines_append_blank hc]
    · rw [List.rdropWhile_concat_neg _ _ _ hc]

/-! ### Blanks at the start -/

/-- The data of the first line that is not blank, if they are indented. -/
def indentedData? (cs : List Char) : Option (List Char) :=
  if (cs.takeWhile isBlank).getLast?.all (· == '\n') then none
  else (splitChars '\n' (trimStartChars cs)).head?.bind dataOfLine

/-- The first line, and what a character before it makes of it. -/
theorem splitChars_first (sep : Char) (cs : List Char) : ∃ line lines, line <+: cs ∧
    splitChars sep cs = line :: lines ∧ ∀ c, c ≠ sep →
    splitChars sep (c :: cs) = (c :: line) :: lines := by
  by_cases hmem : sep ∈ cs
  · obtain ⟨line, rest, rfl, hline⟩ := List.eq_append_cons_of_mem hmem
    refine ⟨line, splitChars sep rest, List.prefix_append _ _, splitChars_cons hline _, fun c hc =>
      ?_⟩
    have hcons : sep ∉ c :: line := by simp [hline, hc.symm]
    exact splitChars_cons hcons rest
  · exact ⟨cs, [], List.prefix_rfl, splitChars_line hmem, fun c hc =>
      splitChars_line (by simp [hmem, hc.symm])⟩

theorem dataLines_newline (cs : List Char) : dataLines ('\n' :: cs) = dataLines cs := by
  have h : splitChars '\n' ('\n' :: cs) = splitChars '\n' [] ++ splitChars '\n' cs :=
    splitChars_append_sep [] cs
  unfold dataLines
  rw [h]
  rfl

/-- Another blank before a line that begins with a blank does not matter. -/
theorem dataLines_blank_blank {c d : Char} (hc : isBlank c = true) (hd : isBlank d = true)
    (cs : List Char) : dataLines (c :: d :: cs) = dataLines (d :: cs) := by
  by_cases hn : c = '\n'
  · subst hn
    exact dataLines_newline _
  · obtain ⟨line, lines, hline, h, h'⟩ := splitChars_first '\n' (d :: cs)
    have hnone : dataOfLine line = none := by
      cases line with
      | nil => rfl
      | cons e line =>
        obtain ⟨rfl, -⟩ := List.cons_prefix_cons.mp hline
        exact dataOfLine_blank hd _
    unfold dataLines
    rw [h, h' c hn, List.filterMap_cons_none (dataOfLine_blank hc _),
      List.filterMap_cons_none hnone]

/-- A blank before a line that does not begin with one is the end of an empty line or all of the
indentation. -/
theorem dataLines_indented {c : Char} (hc : isBlank c = true) {cs : List Char}
    (hcs : ∀ d ∈ cs.head?, isBlank d ≠ true) :
    dataLines cs = (indentedData? (c :: cs)).toList ++ dataLines (c :: cs) := by
  have htrim : trimStartChars (c :: cs) = cs := by
    rw [trimStartChars, List.dropWhile_cons_of_pos hc]
    cases cs with
    | nil => rfl
    | cons d cs => exact List.dropWhile_cons_of_neg (hcs d rfl)
  have htake : (c :: cs).takeWhile isBlank = [c] := by
    rw [List.takeWhile_cons_of_pos hc]
    cases cs with
    | nil => rfl
    | cons d cs => rw [List.takeWhile_cons_of_neg (hcs d rfl)]
  unfold indentedData?
  rw [htrim, htake]
  by_cases hn : c = '\n'
  · subst hn
    rw [dataLines_newline]
    rfl
  · obtain ⟨line, lines, -, h, h'⟩ := splitChars_first '\n' cs
    rw [if_neg (by simpa using hn)]
    unfold dataLines
    rw [h, h' c hn, List.filterMap_cons_none (dataOfLine_blank hc _), List.head?_cons,
      Option.bind_some]
    cases hline : dataOfLine line with
    | none => rw [List.filterMap_cons_none hline]; rfl
    | some data => rw [List.filterMap_cons_some hline]; rfl

theorem dataLines_trimStartChars (cs : List Char) :
    dataLines (trimStartChars cs) = (indentedData? cs).toList ++ dataLines cs := by
  induction cs with
  | nil => rfl
  | cons c cs ih =>
    by_cases hc : isBlank c = true
    case neg => simp [trimStartChars, indentedData?, hc]
    have htrim : trimStartChars (c :: cs) = trimStartChars cs := List.dropWhile_cons_of_pos hc
    rw [htrim]
    cases cs with
    | nil => exact dataLines_indented hc fun d hd => by cases hd
    | cons d cs =>
      by_cases hd : isBlank d = true
      · -- the indentation is that of the rest
        have hsame : indentedData? (c :: d :: cs) = indentedData? (d :: cs) := by
          unfold indentedData?
          rw [htrim, List.takeWhile_cons_of_pos hc, List.takeWhile_cons_of_pos hd,
            List.getLast?_cons_cons]
        rw [ih, hsame, dataLines_blank_blank hc hd]
      · have hself : trimStartChars (d :: cs) = d :: cs := List.dropWhile_cons_of_neg hd
        rw [hself]
        exact dataLines_indented hc (by simpa using hd)

/-- **Trimming an event** adds the data that are indented, and nothing else. -/
theorem dataLines_trimChars (cs : List Char) :
    dataLines (trimChars cs) = (indentedData? cs).toList ++ dataLines cs := by
  rw [trimChars, dataLines_dropEndChars, dataLines_trimStartChars]

/-! ### Two more line feeds -/

theorem NoEnd.tail {b : UInt8} {body : List UInt8} (h : NoEnd (b :: body)) : NoEnd body :=
  fun before sep hs after he => h (b :: before) sep hs after (by rw [he, List.cons_append])

theorem Cuts.noEnd {body last : List UInt8} {events : List (List UInt8)}
    (h : Cuts body events last) : NoEnd last := by
  induction h with
  | last h => exact h
  | next _ _ ih => exact ih

/-- The part of an empty line that a body ends in, and what two more line feeds leave over. -/
inductive Completes : List UInt8 → List UInt8 → Prop
  | none : Completes [] []
  | feed : Completes [10] [10]
  | feedReturn : Completes [13, 10, 13] [10]

/-- **Two line feeds complete the last event.** -/
theorem cutAt_completed {last : List UInt8} (h : NoEnd last) : ∃ event part rest,
    last = event ++ part ∧ Completes part rest ∧ CutAt (last ++ [10, 10]) event rest := by
  induction last with
  | nil => exact ⟨[], [], [], rfl, .none, cutAt_end (mem_eventEnds.mpr (.inl rfl)) []⟩
  | cons b last ih =>
    by_cases h2 : ∃ r, b :: (last ++ [10, 10]) = 10 :: 10 :: r
    · -- only `b` can be part of this empty line
      obtain ⟨r, hr⟩ := h2
      obtain ⟨rfl, hlast⟩ := List.cons.inj hr
      cases last with
      | nil => exact ⟨[], [10], [10], rfl, .feed, cutAt_end (mem_eventEnds.mpr (.inl rfl)) [10]⟩
      | cons b' last =>
        obtain ⟨rfl, -⟩ := List.cons.inj hlast
        exact absurd rfl (h [] [10, 10] (mem_eventEnds.mpr (.inl rfl)) last)
    by_cases h4 : ∃ r, b :: (last ++ [10, 10]) = 13 :: 10 :: 13 :: 10 :: r
    · obtain ⟨r, hr⟩ := h4
      obtain ⟨rfl, hlast⟩ := List.cons.inj hr
      obtain rfl | ⟨last, rfl⟩ : last = [10, 13] ∨ ∃ last', last = 10 :: 13 :: 10 :: last' := by
        rcases last with _ | ⟨x, _ | ⟨y, _ | ⟨z, last⟩⟩⟩ <;> simp_all
      · exact ⟨[], [13, 10, 13], [10], rfl, .feedReturn,
          cutAt_end (mem_eventEnds.mpr (.inr rfl)) [10]⟩
      · exact absurd rfl (h [] [13, 10, 13, 10] (mem_eventEnds.mpr (.inr rfl)) last)
    obtain ⟨event, part, rest, rfl, hpart, hcut⟩ := ih h.tail
    exact ⟨b :: event, part, rest, rfl, hpart, hcut.cons (fun r hr => h2 ⟨r, hr⟩) fun r hr =>
      h4 ⟨r, hr⟩⟩

/-- A blank byte at the end says nothing. -/
theorem dataLines_append_byte {b : UInt8} (hb : b.toNat < 0x80)
    (hblank : isBlank (Char.ofNat b.toNat) = true) (bs : List UInt8) :
    dataLines (lossy (bs ++ [b])).toList = dataLines (lossy bs).toList := by
  rw [lossy_append_ascii bs hb]
  exact dataLines_append_blank hblank _

theorem dataLines_completed {part rest : List UInt8} (h : Completes part rest)
    (event : List UInt8) :
    dataLines (lossy (event ++ part)).toList = dataLines (lossy event).toList := by
  cases h with
  | none => rw [List.append_nil]
  | feed => exact dataLines_append_byte (by decide) (by decide) event
  | feedReturn =>
    have hsplit : event ++ [13, 10, 13] = ((event ++ [13]) ++ [10]) ++ [13] := by simp
    rw [hsplit, dataLines_append_byte (by decide) (by decide),
      dataLines_append_byte (by decide) (by decide), dataLines_append_byte (by decide) (by decide)]

theorem Completes.rest_skips {part rest : List UInt8} (h : Completes part rest) :
    NoEnd rest ∧ lastOutcome rest = .skip := by
  have hnone : NoEnd [10] := noEnd_nil.cons (by simp) (by simp)
  cases h with
  | none => exact ⟨noEnd_nil, rfl⟩
  | feed => exact ⟨hnone, rfl⟩
  | feedReturn => exact ⟨hnone, rfl⟩

/-! ### The items -/

theorem itemsOf_none (events : List (List UInt8)) (last : List UInt8) :
    itemsOf events last none = (readEvents (events.map outcomeOf ++ [lastOutcome last])).1 := by
  rw [readEvents_append, itemsOf]
  split <;> rfl

theorem readEvents_append_skip (es : List EventOutcome) :
    readEvents (es ++ [.skip]) = readEvents es := by
  rw [readEvents_append]
  split
  next => rfl
  next h =>
    rw [Bool.not_eq_true] at h
    simp [readEvents, ← h]

theorem lastOutcome_eq (last : List UInt8) : lastOutcome last =
    saidBy ((indentedData? (lossy last).toList).toList ++ dataLines (lossy last).toList) := by
  rw [lastOutcome, ofText_eq, trim, String.toList_ofList, dataLines_trimChars]

/-- Another last outcome makes a difference just if it comes to be read and gives other items. -/
theorem items_append_eq_iff {es : List EventOutcome} {last last' : EventOutcome} :
    (readEvents (es ++ [last])).1 = (readEvents (es ++ [last'])).1 ↔
      (readEvents es).2 = true ∨ (readEvents [last]).1 = (readEvents [last']).1 := by
  rw [readEvents_append, readEvents_append]
  cases hended : (readEvents es).2 <;> simp

/-- **What two more line feeds change.** The items of a body are those of its complete events, and
those of a last one, unless the stream has ended before. What the last one says is said by the data
lines of what is left over, in front of which a body without the two line feeds also counts the data
of the first line if these are indented. The items are the same just if the stream has ended before,
or these data change none; so they are the same if there are none. -/
theorem last_event_completed {pieces pieces' : List (List UInt8)}
    (more : pieces'.flatten = pieces.flatten ++ [10, 10]) :
    ∃ events last, Cuts pieces.flatten events last ∧
      streamItems pieces none = (readEvents (events.map outcomeOf ++
        [saidBy ((indentedData? (lossy last).toList).toList ++ dataLines (lossy last).toList)])).1 ∧
      streamItems pieces' none =
        (readEvents (events.map outcomeOf ++ [saidBy (dataLines (lossy last).toList)])).1 ∧
      (streamItems pieces' none = streamItems pieces none ↔
        (readEvents (events.map outcomeOf)).2 = true ∨
        (readEvents [saidBy (dataLines (lossy last).toList)]).1 = (readEvents
          [saidBy ((indentedData? (lossy last).toList).toList ++ dataLines
            (lossy last).toList)]).1) ∧
      (indentedData? (lossy last).toList = none →
        streamItems pieces' none = streamItems pieces none) := by
  have hcuts := cuts_cutEvents pieces.flatten
  generalize (cutEvents pieces.flatten).1 = events, (cutEvents pieces.flatten).2 = last at hcuts
  have hitems : streamItems pieces none = (readEvents (events.map outcomeOf ++
      [saidBy ((indentedData? (lossy last).toList).toList ++ dataLines
          (lossy last).toList)])).1 := by
    rw [streamItems_of_cuts hcuts, itemsOf_none, lastOutcome_eq]
  have hitems' : streamItems pieces' none =
      (readEvents (events.map outcomeOf ++ [saidBy (dataLines (lossy last).toList)])).1 := by
    obtain ⟨event, part, rest, rfl, hpart, hcut⟩ := cutAt_completed hcuts.noEnd
    obtain ⟨hrest, hskip⟩ := hpart.rest_skips
    have hcuts' := hcuts.append (.next hcut (.last hrest))
    rw [← more] at hcuts'
    rw [streamItems_of_cuts hcuts', itemsOf_none, hskip, readEvents_append_skip, List.map_append,
      dataLines_completed hpart]
    rfl
  refine ⟨events, last, hcuts, hitems, hitems', ?_, fun hnone => ?_⟩
  · rw [hitems, hitems', items_append_eq_iff]
  · rw [hitems, hitems', hnone]
    rfl

/-- An event that ends in a part of an empty line, in two pieces. -/
def partlyEnded : List (List UInt8) :=
  [encode "data: \x7b\"choices\":[\x7b\"delta\":\x7b\"conte",
    encode "nt\":\"a\"\x7d\x7d]\x7d\r\n\r"]

theorem last_event_completed_partly :
    streamItems (partlyEnded ++ [[10, 10]]) none = streamItems partlyEnded none := by
  obtain ⟨events, last, hcuts, -, -, -, same⟩ :=
    @last_event_completed partlyEnded (partlyEnded ++ [[10, 10]]) (by simp)
  have hcut := cuts_cutEvents partlyEnded.flatten
  obtain ⟨-, rfl⟩ := hcuts.unique hcut
  exact same (by decide +kernel)

/-- An event in an indented data line. -/
def indentedEvent : List UInt8 :=
  encode " data: \x7b\"choices\":[\x7b\"delta\":\x7b\"content\":\"a\"\x7d\x7d]\x7d"

/-- **An indented event is read at the end of a body only.** -/
theorem indented_event_unended : streamItems [indentedEvent] none = [.ok ⟨[.text "a"], none⟩] ∧
    streamItems [indentedEvent, [10, 10]] none = [] := by
  decide +kernel

end ChatRelay.Completion
