import ChatRelay.Proofs.Completion.EventPieces
import ChatRelay.Proofs.Text.Encoding
import ChatRelay.Proofs.Text.Trimming

/-! # Events by their lines

An event that is sent is some comments and then maybe a data line; its lines and the empty line
after them end in a line feed, or in a carriage return and a line feed (`Event`). A body made of
such events is cut into just these (`cuts_events`), and each says what its data say
(`ofText_event`): the comments do not matter, nor does the kind of line ends. -/

namespace ChatRelay.Completion

open Text

/-! ### Lines -/

/-- Lines with line ends between them. -/
def joinLines (newline : List Char) : List (List Char) → List Char
  | [] => []
  | [l] => l
  | l :: rest => l ++ (newline ++ joinLines newline rest)

/-- The two kinds of line ends. -/
def newlineOf (crlf : Bool) : List Char := if crlf then ['\r', '\n'] else ['\n']

/-- A line without line ends in it. -/
def IsLine (l : List Char) : Prop := '\n' ∉ l ∧ '\r' ∉ l

/-! ### Cutting into lines -/

section split

variable {sep : Char}

theorem foldl_splitStep {l : List Char} (h : sep ∉ l) (acc : List (List Char)) (piece : List Char) :
    l.foldl (splitStep sep) (acc, piece) = (acc, l.reverse ++ piece) := by
  induction l generalizing piece with
  | nil => rfl
  | cons c l ih =>
    have hc : c ≠ sep := fun he => h (he ▸ List.mem_cons_self)
    have hl : sep ∉ l := fun hm => h (List.mem_cons_of_mem _ hm)
    rw [List.foldl_cons, splitStep, if_neg hc, ih hl, List.reverse_cons, List.append_assoc,
      List.singleton_append]

/-- Finished pieces do not matter for what follows. -/
theorem foldl_splitStep_acc (cs : List Char) (acc : List (List Char)) (piece : List Char) :
    cs.foldl (splitStep sep) (acc, piece) =
      ((cs.foldl (splitStep sep) ([], piece)).1 ++ acc,
        (cs.foldl (splitStep sep) ([], piece)).2) := by
  induction cs generalizing acc piece with
  | nil => rfl
  | cons c cs ih =>
    rw [List.foldl_cons, List.foldl_cons]
    by_cases hc : c = sep
    · simp only [splitStep, if_pos hc]
      rw [ih (piece.reverse :: acc), ih [piece.reverse]]
      simp
    · simp only [splitStep, if_neg hc]
      exact ih acc (c :: piece)

theorem splitChars_line {l : List Char} (h : sep ∉ l) : splitChars sep l = [l] := by
  unfold splitChars
  rw [foldl_splitStep h]
  simp

theorem splitChars_cons {l : List Char} (h : sep ∉ l) (rest : List Char) :
    splitChars sep (l ++ sep :: rest) = l :: splitChars sep rest := by
  unfold splitChars
  rw [List.foldl_append, foldl_splitStep h, List.foldl_cons, splitStep, if_pos rfl,
    foldl_splitStep_acc]
  simp

end split

theorem dropEndChars_append_return (l : List Char) :
    dropEndChars (· == '\r') (l ++ ['\r']) = dropEndChars (· == '\r') l := by
  simp [dropEndChars]

theorem dataOfLine_append_return (l : List Char) : dataOfLine (l ++ ['\r']) = dataOfLine l := by
  unfold dataOfLine
  rw [dropEndChars_append_return]

/-- The lines of a text are found again, whichever line ends it has. -/
theorem dataLines_joinLines {lines : List (List Char)} (h : ∀ l ∈ lines, IsLine l) (crlf : Bool) :
    (splitChars '\n' (joinLines (newlineOf crlf) lines)).filterMap dataOfLine =
      lines.filterMap dataOfLine := by
  induction lines with
  | nil => rfl
  | cons l rest ih =>
    obtain ⟨hl, hrest⟩ := List.forall_mem_cons.mp h
    cases rest with
    | nil => rw [joinLines, splitChars_line hl.1]
    | cons l' rest =>
      rw [joinLines, List.filterMap_cons (l := l' :: rest), ← ih hrest]
      · cases crlf with
        | false =>
          show ((splitChars '\n' (l ++ '\n' :: joinLines _ (l' :: rest))).filterMap dataOfLine) = _
          rw [splitChars_cons hl.1, List.filterMap_cons]
        | true =>
          have hreturn : '\n' ∉ l ++ ['\r'] := by simp [hl.1]
          have hassoc : l ++ (newlineOf true ++ joinLines (newlineOf true) (l' :: rest)) =
              (l ++ ['\r']) ++ '\n' :: joinLines (newlineOf true) (l' :: rest) := by
            simp [newlineOf]
          rw [hassoc, splitChars_cons hreturn, List.filterMap_cons, dataOfLine_append_return]
      · exact fun hnil => by cases hnil

/-! ### Cutting into events -/

/-- The bytes of characters. -/
def bytesOf (cs : List Char) : List UInt8 := encode (String.ofList cs)

theorem bytesOf_append (cs cs' : List Char) : bytesOf (cs ++ cs') = bytesOf cs ++ bytesOf cs' := by
  unfold bytesOf
  rw [← encode_append, ← String.ofList_append]

theorem lossy_bytesOf (cs : List Char) : lossy (bytesOf cs) = String.ofList cs := lossy_encode _

/-- Bytes that are neither a line feed nor a carriage return move the cut. -/
theorem CutAt.line {body event rest : List UInt8} (h : CutAt body event rest) {l : List UInt8}
    (hl : 10 ∉ l) (hl' : 13 ∉ l) : CutAt (l ++ body) (l ++ event) rest := by
  induction l with
  | nil => exact h
  | cons b l ih =>
    have hb : b ≠ 10 := fun he => hl (he ▸ List.mem_cons_self)
    have hb' : b ≠ 13 := fun he => hl' (he ▸ List.mem_cons_self)
    have := ih (fun hm => hl (List.mem_cons_of_mem _ hm)) (fun hm =>
      hl' (List.mem_cons_of_mem _ hm))
    exact this.cons (fun _ he => hb (List.cons.inj he).1) (fun _ he => hb' (List.cons.inj he).1)

/-- A line end before another line moves the cut. -/
theorem CutAt.newline {body event rest : List UInt8} (h : CutAt body event rest) (crlf : Bool)
    (hb : ∀ b ∈ body.head?, b ≠ 10 ∧ b ≠ 13) :
    CutAt (bytesOf (newlineOf crlf) ++ body) (bytesOf (newlineOf crlf) ++ event) rest := by
  have hfeed : CutAt (10 :: body) (10 :: event) rest := by
    refine h.cons (fun r he => ?_) (fun _ he => by cases (List.cons.inj he).1)
    obtain ⟨-, rfl⟩ := List.cons.inj he
    exact (hb 10 rfl).1 rfl
  cases crlf with
  | false => exact hfeed
  | true =>
    refine hfeed.cons (fun _ he => by cases (List.cons.inj he).1) fun r he => ?_
    obtain ⟨-, he⟩ := List.cons.inj he
    obtain ⟨-, rfl⟩ := List.cons.inj he
    exact (hb 13 rfl).2 rfl

theorem IsLine.not_mem_bytesOf {l : List Char}
    (h : IsLine l) : 10 ∉ bytesOf l ∧ 13 ∉ bytesOf l := by
  have hfeed := @not_mem_encode (String.ofList l) '\n' (by decide) (by simpa using h.1)
  have hreturn := @not_mem_encode (String.ofList l) '\r' (by decide) (by simpa using h.2)
  exact ⟨hfeed, hreturn⟩

theorem head_bytesOf {l : List Char} (hl : IsLine l) (hne : l ≠ []) (more : List UInt8) :
    ∀ b ∈ (bytesOf l ++ more).head?, b ≠ 10 ∧ b ≠ 13 := by
  intro b hb
  have hbytes : bytesOf l ≠ [] := by
    obtain ⟨c, l, rfl⟩ := List.exists_cons_of_ne_nil hne
    have := @String.utf8EncodeChar_ne_nil c
    simp [bytesOf, encode, this]
  rw [List.head?_append_of_ne_nil _ hbytes] at hb
  have hmem := List.mem_of_mem_head? hb
  refine ⟨?_, ?_⟩
  · rintro rfl
    exact hl.not_mem_bytesOf.1 hmem
  · rintro rfl
    exact hl.not_mem_bytesOf.2 hmem

theorem joinLines_cons (newline l : List Char) (rest : List (List Char)) :
    ∃ more, joinLines newline (l :: rest) = l ++ more := by
  cases rest with
  | nil => exact ⟨[], by simp [joinLines]⟩
  | cons l' rest => exact ⟨_, rfl⟩

/-- Lines that are not empty, with an empty line after them, are cut off there. -/
theorem cutAt_joinLines (crlf : Bool) (rest : List UInt8) {lines : List (List Char)}
    (hne : lines ≠ []) (h : ∀ l ∈ lines, IsLine l ∧ l ≠ []) :
    CutAt (bytesOf (joinLines (newlineOf crlf) lines) ++
        (bytesOf (newlineOf crlf ++ newlineOf crlf) ++ rest))
      (bytesOf (joinLines (newlineOf crlf) lines)) rest := by
  induction lines with
  | nil => exact absurd rfl hne
  | cons l lines ih =>
    obtain ⟨⟨hl, -⟩, hlines⟩ := List.forall_mem_cons.mp h
    obtain ⟨hfeed, hreturn⟩ := hl.not_mem_bytesOf
    cases lines with
    | nil =>
      have hend : bytesOf (newlineOf crlf ++ newlineOf crlf) ∈ eventEnds := by
        cases crlf <;> decide
      have := (cutAt_end hend rest).line hfeed hreturn
      rw [List.append_nil] at this
      exact this
    | cons l' lines =>
      have hl' := hlines l' List.mem_cons_self
      have hcut := ih (by simp) hlines
      -- the next line is not empty, so the line end before it is not the end of the event
      have hhead : ∀ b ∈ (bytesOf (joinLines (newlineOf crlf) (l' :: lines)) ++
          (bytesOf (newlineOf crlf ++ newlineOf crlf) ++ rest)).head?, b ≠ 10 ∧ b ≠ 13 := by
        obtain ⟨more, hmore⟩ := joinLines_cons (newlineOf crlf) l' lines
        rw [hmore, bytesOf_append, List.append_assoc]
        exact head_bytesOf hl'.1 hl'.2 _
      have := (hcut.newline crlf hhead).line hfeed hreturn
      rw [joinLines, bytesOf_append, bytesOf_append, List.append_assoc, List.append_assoc]
      · exact this
      · exact fun hnil => by cases hnil

/-! ### Events -/

/-- An event as it is sent: its comments, its data if it has any, and the kind of its line ends. -/
structure Event where
  comments : List String
  data : Option String
  crlf : Bool

namespace Event

/-- The lines of an event. -/
def lines (e : Event) : List (List Char) :=
  (e.comments.map fun c => ':' :: c.toList) ++ e.data.toList.map fun d =>
    "data: ".toList ++ d.toList

/-- The event without the empty line at its end. -/
def body (e : Event) : List Char := joinLines (newlineOf e.crlf) e.lines

/-- The bytes of an event, the empty line included. -/
def bytes (e : Event) : List UInt8 :=
  bytesOf e.body ++ bytesOf (newlineOf e.crlf ++ newlineOf e.crlf)

/-- An event that is not empty, each comment and the data being one line. -/
structure IsSent (e : Event) : Prop where
  nonempty : e.lines ≠ []
  comments : ∀ c ∈ e.comments, IsLine c.toList
  data : ∀ d ∈ e.data, IsLine d.toList

theorem IsSent.isLine {e : Event} (h : e.IsSent) : ∀ l ∈ e.lines, IsLine l ∧ l ≠ [] := by
  intro l hl
  rcases List.mem_append.mp hl with hl | hl
  · obtain ⟨c, hc, rfl⟩ := List.mem_map.mp hl
    have := h.comments c hc
    exact ⟨⟨by simp [this.1], by simp [this.2]⟩, by simp⟩
  · obtain ⟨d, hd, rfl⟩ := List.mem_map.mp hl
    have := h.data d (by simpa using hd)
    exact ⟨⟨by simp [this.1], by simp [this.2]⟩, by simp⟩

end Event

/-- **A body made of events is cut into them**, and nothing is left over. -/
theorem cuts_events {events : List Event} (h : ∀ e ∈ events, e.IsSent) :
    Cuts (events.flatMap (·.bytes)) (events.map fun e => bytesOf e.body) [] := by
  induction events with
  | nil => exact .last noEnd_nil
  | cons e events ih =>
    obtain ⟨he, hevents⟩ := List.forall_mem_cons.mp h
    have hcut := cutAt_joinLines e.crlf (events.flatMap (·.bytes)) he.nonempty he.isLine
    rw [List.flatMap_cons, List.map_cons, Event.bytes, List.append_assoc]
    exact .next hcut (ih hevents)

/-! ### What events say -/

theorem dropEndChars_of_isLine {l : List Char} (h : IsLine l) : dropEndChars (· == '\r') l = l := by
  rw [dropEndChars_eq, List.rdropWhile_eq_self_iff]
  intro hne hlast
  have : l.getLast hne = '\r' := by simpa using hlast
  exact h.2 (this ▸ List.getLast_mem hne)

theorem dataOfLine_comment {c : List Char} (h : IsLine (':' :: c)) :
    dataOfLine (':' :: c) = none := by
  unfold dataOfLine
  rw [dropEndChars_of_isLine h]
  rfl

theorem dataOfLine_data {d : List Char} (h : IsLine d) :
    dataOfLine ("data: ".toList ++ d) = some (trimChars d) := by
  have hline : IsLine ("data: ".toList ++ d) := ⟨by simp [h.1], by simp [h.2]⟩
  unfold dataOfLine
  rw [dropEndChars_of_isLine hline]
  rfl

/-- What the data of an event say, the mark at the end of the stream included. -/
def dataOutcome (data : String) : EventOutcome :=
  if data.toList = doneMark then .done else .ofData data

/-- **An event says what its data say**, if these have no blanks around them. -/
theorem ofText_event {e : Event} (h : e.IsSent) (ht : ∀ d ∈ e.data, trim d = d) :
    EventOutcome.ofText (String.ofList e.body) = (e.data.map dataOutcome).getD .skip := by
  have hdata : (splitChars '\n' e.body).filterMap dataOfLine = e.data.toList.map String.toList := by
    unfold Event.body
    rw [dataLines_joinLines fun l hl => (h.isLine l hl).1]
    unfold Event.lines
    rw [List.filterMap_append]
    have hcomments : (e.comments.map fun c => ':' :: c.toList).filterMap dataOfLine = [] := by
      rw [List.filterMap_eq_nil_iff]
      intro l hl
      obtain ⟨c, hc, rfl⟩ := List.mem_map.mp hl
      refine dataOfLine_comment (h.isLine _ ?_).1
      exact List.mem_append_left _ hl
    rw [hcomments, List.nil_append]
    cases hd : e.data with
    | none => rfl
    | some d =>
      have htrim : trimChars d.toList = d.toList := by
        have := congrArg String.toList (ht d hd)
        rwa [trim, String.toList_ofList] at this
      have hline := dataOfLine_data (h.data d hd)
      rw [htrim] at hline
      show List.filterMap dataOfLine ["data: ".toList ++ d.toList] = [d.toList]
      rw [List.filterMap_cons_some hline]
      rfl
  unfold EventOutcome.ofText
  rw [String.toList_ofList, hdata]
  cases e.data with
  | none => rfl
  | some d =>
    simp only [Option.toList_some, List.map_cons, List.map_nil, Option.map_some, Option.getD_some,
      List.flatten_cons, List.flatten_nil, List.append_nil, String.ofList_toList]
    unfold dataOutcome
    by_cases hdone : d.toList = doneMark
    · simp [hdone]
    · simp [hdone, Ne.symm hdone]

/-- The events without data are passed over. -/
theorem readEvents_events {events : List Event} (h : ∀ e ∈ events, e.IsSent)
    (ht : ∀ e ∈ events, ∀ d ∈ e.data, trim d = d) :
    readEvents ((events.map fun e => bytesOf e.body).map outcomeOf) =
      readEvents ((events.filterMap (·.data)).map dataOutcome) := by
  induction events with
  | nil => rfl
  | cons e events ih =>
    obtain ⟨he, hevents⟩ := List.forall_mem_cons.mp h
    obtain ⟨hte, htevents⟩ := List.forall_mem_cons.mp ht
    have hout : outcomeOf (bytesOf e.body) = (e.data.map dataOutcome).getD .skip := by
      unfold outcomeOf
      rw [lossy_bytesOf, ofText_event he hte]
    rw [List.map_cons, List.map_cons, hout]
    cases hd : e.data with
    | none =>
      rw [List.filterMap_cons_none hd]
      exact ih hevents htevents
    | some d =>
      rw [List.filterMap_cons_some hd, List.map_cons]
      show readEvents (dataOutcome d :: _) = _
      cases dataOutcome d <;> simp only [readEvents, ih hevents htevents]

end ChatRelay.Completion
