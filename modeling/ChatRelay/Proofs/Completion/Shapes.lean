import ChatRelay.Proofs.Completion.PerIndex
import ChatRelay.Proofs.Json.Meaning
import ChatRelay.Completion.EventStream
import ChatRelay.Completion.Response

/-! # Messages and chunks as documents

The shapes in which an endpoint writes a whole message (`IsBody`) and a chunk of a streamed one
(`IsChunk`). They fix what the members that count hold; the order of members, further members, and
whether a member without a value is `null` or missing are left open. Both are decoded to what they
say: a body by `readResponse_text`, the text of a chunk by `ofData_text`. -/

namespace ChatRelay.Completion

open Json Text

/-! ### Documents -/

/-- A list of items, which may be missing if it is empty. -/
def IsList {α : Type} (shape : Doc → α → Prop) (d : Doc) (as : List α) : Prop :=
  ∃ ds, List.Forall₂ shape ds as ∧ (d = .arr ds ∨ d = .null ∧ ds = [])

/-- A record, which may be missing if it has no members that count. -/
def MayBeRecord (d : Doc) : Prop := d = .null ∨ d.IsRecord

/-! ### Whole messages -/

/-- A call of a message, as an endpoint gives it. -/
structure WholeCall where
  id : Option String
  name : String
  arguments : Option String

/-- A message: maybe a text, and calls. -/
structure WholeMessage where
  text : Option String
  calls : List WholeCall

/-- What a call is when all of it has been received. -/
def WholeCall.pending (c : WholeCall) : PendingCall := ⟨nonEmpty c.id, c.name, c.arguments.getD ""⟩

/-- The calls of a message that can be made. -/
def WholeMessage.drafts (m : WholeMessage) : List CallDraft := m.calls.filterMap (·.pending.draft?)

/-- The document of a call. -/
structure IsCall (d : Doc) (c : WholeCall) : Prop where
  record : d.IsRecord
  id : d.get "id" = .ofString? c.id
  function : (d.get "function").IsRecord
  name : (d.get "function").get "name" = .str c.name
  arguments : (d.get "function").get "arguments" = .ofString? c.arguments

/-- The document of a message. -/
structure IsMessage (d : Doc) (m : WholeMessage) : Prop where
  record : d.IsRecord
  content : d.get "content" = .ofString? m.text
  calls : IsList IsCall (d.get "tool_calls") m.calls

/-- The document of a response with one choice. -/
structure IsBody (d : Doc) (m : WholeMessage) : Prop where
  record : d.IsRecord
  choice : ∃ choice, d.get "choices" = .arr [choice] ∧ choice.IsRecord ∧
    IsMessage (choice.get "message") m

/-! ### Chunks -/

/-- The document of a piece of a call. -/
structure IsPiece (d : Doc) (p : ChunkCall) : Prop where
  record : d.IsRecord
  index : d.get "index" = (p.index.map Doc.ofNat).getD .null
  id : d.get "id" = .ofString? p.id
  function : MayBeRecord (d.get "function")
  name : (d.get "function").get "name" = .ofString? p.name
  arguments : (d.get "function").get "arguments" = .ofString? p.arguments

/-- The document of what a choice adds. -/
structure IsDelta (d : Doc) (c : ChunkChoice) : Prop where
  record : MayBeRecord d
  content : d.get "content" = .ofString? c.content
  calls : IsList IsPiece (d.get "tool_calls") c.calls

/-- The document of a chunk with one choice. -/
structure IsChunk (d : Doc) (c : ChunkChoice) : Prop where
  record : d.IsRecord
  noError : d.member? "error" = none
  choice : ∃ choice, d.get "choices" = .arr [choice] ∧ choice.IsRecord ∧
    IsDelta (choice.get "delta") c ∧ choice.get "finish_reason" = .ofString? c.finishReason

/-! ### Messages and chunks as they are written -/

/-- The document that is written for a call. -/
def WholeCall.doc (c : WholeCall) : Doc :=
  .record [field "id" (.ofString? c.id), field "type" (.str "function"),
    field "function" (.record [field "name" (.str c.name),
      field "arguments" (.ofString? c.arguments)])]

/-- The document that is written for a message as a whole. -/
def WholeMessage.body (m : WholeMessage) : Doc :=
  let message := Doc.record [field "role" (.str "assistant"), field "content" (.ofString? m.text),
    field "tool_calls" (.arr (m.calls.map WholeCall.doc))]
  .record [field "choices" (.arr [.record [field "index" (.ofNat 0), field "message" message]])]

/-- The document that is written for a piece of a call. -/
def ChunkCall.doc (p : ChunkCall) : Doc :=
  .record [field "index" ((p.index.map Doc.ofNat).getD .null), field "id" (.ofString? p.id),
    field "function" (.record [field "name" (.ofString? p.name),
      field "arguments" (.ofString? p.arguments)])]

/-- The document that is written for a chunk. -/
def ChunkChoice.doc (c : ChunkChoice) : Doc :=
  let delta := Doc.record [field "content" (.ofString? c.content),
    field "tool_calls" (.arr (c.calls.map ChunkCall.doc))]
  .record [field "choices" (.arr [.record [field "index" (.ofNat 0), field "delta" delta,
    field "finish_reason" (.ofString? c.finishReason)]])]

theorem forall₂_map_doc {α : Type} {shape : Doc → α → Prop} {doc : α → Doc} {as : List α}
    (h : ∀ a ∈ as, shape (doc a) a) : List.Forall₂ shape (as.map doc) as := by
  rw [List.forall₂_map_left_iff, List.forall₂_same]
  exact h

theorem isPlain_ofString? (s : Option String) : (Doc.ofString? s).isPlain = true := by
  cases s <;> rfl

theorem depth_ofString? (s : Option String) : (Doc.ofString? s).depth = 0 := by
  cases s <;> rfl

theorem isCall_doc (c : WholeCall) : c.doc.isPlain = true ∧ IsCall c.doc c := by
  refine ⟨?_, isRecord_of_keys ["id", "type", "function"] rfl (by decide), rfl,
    isRecord_of_keys ["name", "arguments"] rfl (by decide), rfl, rfl⟩
  simp [WholeCall.doc, Doc.record, field, Doc.isPlain, membersPlain, isPlain_ofString?]

/-- Every message has a body. -/
theorem isBody_body (m : WholeMessage) : m.body.isPlain = true ∧ IsBody m.body m := by
  have hcalls : itemsPlain (m.calls.map WholeCall.doc) = true := by
    rw [itemsPlain_iff, List.forall_mem_map]
    exact fun c _ => (isCall_doc c).1
  have hmessage : IsMessage (.record [field "role" (.str "assistant"),
      field "content" (.ofString? m.text), field "tool_calls" (.arr (m.calls.map WholeCall.doc))])
          m :=
    ⟨isRecord_of_keys ["role", "content", "tool_calls"] rfl (by decide), rfl,
      m.calls.map WholeCall.doc, forall₂_map_doc fun c _ => (isCall_doc c).2, .inl rfl⟩
  refine ⟨?_, isRecord_of_keys ["choices"] rfl (by decide), _, rfl,
    isRecord_of_keys ["index", "message"] rfl (by decide), hmessage⟩
  simp [WholeMessage.body, Doc.record, field, Doc.isPlain, membersPlain, itemsPlain,
    isPlain_ofString?, Doc.ofNat, hcalls]

theorem isPiece_doc {p : ChunkCall} (h : ∀ i ∈ p.index, i < 2 ^ 32) :
    (p.doc.isPlain = true ∧ p.doc.depth = 2) ∧ IsPiece p.doc p := by
  have hindex : ((p.index.map Doc.ofNat).getD .null).isPlain = true ∧
      ((p.index.map Doc.ofNat).getD .null).depth = 0 := by
    cases hi : p.index with
    | none => exact ⟨rfl, rfl⟩
    | some i =>
      have := h i hi
      refine ⟨?_, rfl⟩
      simp only [Option.map_some, Option.getD_some, Doc.ofNat, Doc.isPlain, Bool.and_eq_true,
        decide_eq_true_eq]
      omega
  refine ⟨⟨?_, ?_⟩, isRecord_of_keys ["index", "id", "function"] rfl (by decide), rfl, rfl,
    .inr (isRecord_of_keys ["name", "arguments"] rfl (by decide)), rfl, rfl⟩
  · simp [ChunkCall.doc, Doc.record, field, Doc.isPlain, membersPlain, isPlain_ofString?, hindex.1]
  · simp [ChunkCall.doc, Doc.record, field, Doc.depth, membersDepth, depth_ofString?, hindex.2]

/-- Every chunk can be written. -/
theorem isChunk_doc {c : ChunkChoice} (h : ∀ p ∈ c.calls, ∀ i ∈ p.index, i < 2 ^ 32) :
    (c.doc.isPlain = true ∧ c.doc.depth ≤ maxDepth) ∧ IsChunk c.doc c := by
  have hcalls : itemsPlain (c.calls.map ChunkCall.doc) = true := by
    rw [itemsPlain_iff, List.forall_mem_map]
    exact fun p hp => (isPiece_doc (h p hp)).1.1
  have hdepth : itemsDepth (c.calls.map ChunkCall.doc) ≤ 2 := by
    refine itemsDepth_le ?_
    rw [List.forall_mem_map]
    exact fun p hp => (isPiece_doc (h p hp)).1.2.le
  have hdelta : IsDelta (.record [field "content" (.ofString? c.content),
      field "tool_calls" (.arr (c.calls.map ChunkCall.doc))]) c :=
    ⟨.inr (isRecord_of_keys ["content", "tool_calls"] rfl (by decide)), rfl,
      c.calls.map ChunkCall.doc, forall₂_map_doc fun p hp => (isPiece_doc (h p hp)).2, .inl rfl⟩
  refine ⟨⟨?_, ?_⟩, isRecord_of_keys ["choices"] rfl (by decide), rfl, _, rfl,
    isRecord_of_keys ["index", "delta", "finish_reason"] rfl (by decide), hdelta, rfl⟩
  · simp [ChunkChoice.doc, Doc.record, field, Doc.isPlain, membersPlain, itemsPlain,
      isPlain_ofString?, Doc.ofNat, hcalls]
  · simp [ChunkChoice.doc, Doc.record, field, Doc.depth, membersDepth, itemsDepth, depth_ofString?,
      Doc.ofNat, maxDepth]
    omega

/-! ### Decoding -/

theorem isPlain_choice {d choice : Doc} (hp : d.isPlain = true)
    (h : d.get "choices" = .arr [choice]) : choice.isPlain = true := by
  have := Doc.isPlain_get hp "choices"
  rw [h, Doc.isPlain, itemsPlain_iff] at this
  exact this choice List.mem_cons_self

section decoding

variable {room : Nat}

theorem ne_null_of_isRecord {d : Doc} (h : d.IsRecord) : d ≠ .null := by
  rintro rfl
  exact h

theorem nullable_of_isRecord {α : Type} {dec : Decoder α} {d : Doc} (h : d.IsRecord) :
    nullable dec room d = (dec room d).map some := by
  cases d with
  | obj members => rfl
  | _ => exact h.elim

theorem forall₂_decoded {α β : Type} {shape : Doc → α → Prop} {dec : Decoder β} {f : α → β}
    {ds : List Doc} {as : List α} (h : List.Forall₂ shape ds as) (hp : itemsPlain ds = true)
    (hdec : ∀ d, d.isPlain = true → ∀ a ∈ as, shape d a → dec room d = .ok (f a)) :
    List.Forall₂ (fun d b => dec room d = .ok b) ds (as.map f) := by
  induction h with
  | nil => exact .nil
  | cons hd _ ih =>
    rw [itemsPlain, Bool.and_eq_true] at hp
    exact .cons (hdec _ hp.1 _ List.mem_cons_self hd)
      (ih hp.2 fun d hd a ha => hdec d hd a (List.mem_cons_of_mem _ ha))

/-- A list that may be missing decodes item by item. -/
theorem nullable_list (room : Nat) {α β : Type} {shape : Doc → α → Prop} {dec : Decoder β}
    {f : α → β} {d : Doc} {as : List α} (h : IsList shape d as) (hp : d.isPlain = true)
    (hdec : ∀ d, d.isPlain = true → ∀ a ∈ as, shape d a → dec room d = .ok (f a)) :
    ∃ bs, nullable (list dec) (room + 1) d = .ok bs ∧ bs.getD [] = as.map f := by
  obtain ⟨ds, hds, rfl | ⟨rfl, rfl⟩⟩ := h
  · refine ⟨some (as.map f), ?_, rfl⟩
    simp only [nullable, list_eq_ok (forall₂_decoded hds hp hdec)]
    rfl
  · cases hds
    exact ⟨none, rfl, rfl⟩

/-! ### Decoding a body -/

theorem decodeFunction_eq_ok {d : Doc} (hp : d.isPlain = true) (hr : d.IsRecord) {name : String}
    {arguments : Option String} (hn : d.get "name" = .str name)
    (ha : d.get "arguments" = .ofString? arguments) :
    ReplyDraft.decodeFunction (room + 1) d = .ok (name, arguments.getD "") := by
  obtain ⟨s, hs, h⟩ := record_eq_ok ["name", "arguments"] room (by simp) hp hr
  have hname := h.required "name" (by simp) (by rw [hn]; simp) text
  have harguments := h.nullable "arguments" (by simp) value
  rw [hn] at hname
  rw [ha] at harguments
  unfold ReplyDraft.decodeFunction
  rw [hs]
  simp only [bind, Except.bind, hname, harguments]
  cases arguments with
  | none => rfl
  | some a =>
    simp [text, Doc.ofString?, nullable, value, argumentText, Except.map, pure, Except.pure]

/-- What a call of a whole message is decoded to. -/
def WholeCall.draft (c : WholeCall) : CallDraft := ⟨nonEmpty c.id, trim c.name, c.arguments.getD ""⟩

theorem decodeCall_eq_ok {d : Doc} (hp : d.isPlain = true) {c : WholeCall} (hd : IsCall d c) :
    ReplyDraft.decodeCall (room + 2) d = .ok c.draft := by
  obtain ⟨s, hs, h⟩ := record_eq_ok ["id", "function"] (room + 1) (by simp) hp hd.record
  have hid := h.nullable "id" (by simp) text
  have hfunction := h.required "function" (by simp) (ne_null_of_isRecord hd.function)
    ReplyDraft.decodeFunction
  rw [hd.id, nullable_ofString?] at hid
  rw [decodeFunction_eq_ok (Doc.isPlain_get hp _) hd.function hd.name hd.arguments] at hfunction
  unfold ReplyDraft.decodeCall
  rw [hs]
  simp only [bind, Except.bind, hid, hfunction]
  rfl

/-- The calls without a name are left out in the end. -/
theorem filter_drafts (cs : List WholeCall) :
    (cs.map WholeCall.draft).filter (fun c => !c.name.isEmpty) =
      cs.filterMap (·.pending.draft?) := by
  rw [List.filter_map]
  induction cs with
  | nil => rfl
  | cons c cs ih =>
    have hpending : c.pending.draft? = if (trim c.name).isEmpty then none else some c.draft := rfl
    rw [List.filterMap_cons, hpending, ← ih]
    cases hname : (trim c.name).isEmpty <;> simp [WholeCall.draft, hname]

theorem decodeMessage_eq_ok {d : Doc} (hp : d.isPlain = true) {m : WholeMessage}
    (hd : IsMessage d m) :
    ReplyDraft.decodeMessage (room + 4) d = .ok ⟨nonEmpty m.text, m.drafts⟩ := by
  obtain ⟨s, hs, h⟩ :=
    record_eq_ok ["content", "tool_calls"] (room + 3) (by simp) hp hd.record
  have hcontent := h.nullable "content" (by simp) text
  obtain ⟨bs, hlist, hbs⟩ := nullable_list (room + 2) hd.calls (Doc.isPlain_get hp _)
    fun d hd c _ hc => decodeCall_eq_ok hd hc
  have hcalls := h.nullable "tool_calls" (by simp) (list ReplyDraft.decodeCall)
  rw [hd.content, nullable_ofString?] at hcontent
  rw [hlist] at hcalls
  unfold ReplyDraft.decodeMessage
  rw [hs]
  simp only [bind, Except.bind, hcontent, hcalls]
  rw [hbs, filter_drafts]
  rfl

theorem decodeChoices_eq_ok {d : Doc} (hp : d.isPlain = true) {m : WholeMessage} (hd : IsBody d m) :
    ReplyDraft.decodeChoices (room + 7) d = .ok [⟨nonEmpty m.text, m.drafts⟩] := by
  obtain ⟨choice, hchoices, hr, hm⟩ := hd.choice
  have hpc := isPlain_choice hp hchoices
  have hchoice : ReplyDraft.decodeChoice (room + 5) choice = .ok ⟨nonEmpty m.text, m.drafts⟩ := by
    obtain ⟨s, hs, h⟩ := record_eq_ok ["message"] (room + 4) (by simp) hpc hr
    have hmessage := h.required "message" (by simp) (ne_null_of_isRecord hm.record)
      ReplyDraft.decodeMessage
    rw [decodeMessage_eq_ok (Doc.isPlain_get hpc _) hm] at hmessage
    unfold ReplyDraft.decodeChoice
    rw [hs]
    simp only [bind, Except.bind, hmessage]
  obtain ⟨s, hs, h⟩ := record_eq_ok ["choices"] (room + 6) (by simp) hp hd.record
  have hall := h.defaulted "choices" (by simp) (by rw [hchoices]; simp) []
    (list ReplyDraft.decodeChoice)
  rw [hchoices, list_eq_ok (.cons hchoice .nil)] at hall
  unfold ReplyDraft.decodeChoices
  rw [hs]
  simp only [bind, Except.bind, hall]

/-- **A whole response says what its message says.** -/
theorem readResponse_text {d : Doc} (hp : d.isPlain = true) {m : WholeMessage} (hd : IsBody d m) :
    readResponse d.text = .ok ⟨nonEmpty m.text, m.drafts⟩ := by
  unfold readResponse
  rw [decodeText_of_isPlain _ hp]
  have hroom : maxDepth = 120 + 7 := rfl
  rw [hroom, decodeChoices_eq_ok hp hd]

/-! ### Decoding a chunk -/

theorem nullable_index {d : Doc} {index : Option Nat} (h : ∀ i ∈ index, i < 2 ^ 32)
    (hd : d = (index.map Doc.ofNat).getD .null) : nullable (natural 32) room d = .ok index := by
  subst hd
  cases index with
  | none => rfl
  | some i =>
    have hi : (0 : Int) ≤ i ∧ (i : Int) ≤ (Nat.pow 2 32 - 1 : Nat) := by
      have := h i rfl
      have hpow : Nat.pow 2 32 = 2 ^ 32 := rfl
      omega
    simp only [Option.map_some, Option.getD_some, Doc.ofNat, nullable, natural, integer, if_pos hi]
    rfl

theorem decodePieceFunction_eq_ok {d : Doc} (hp : d.isPlain = true) (hr : d.IsRecord)
    {name arguments : Option String} (hn : d.get "name" = .ofString? name)
    (ha : d.get "arguments" = .ofString? arguments) :
    ChunkCall.decodeFunction (room + 1) d = .ok (name, arguments) := by
  obtain ⟨s, hs, h⟩ := record_eq_ok ["name", "arguments"] room (by simp) hp hr
  have hname := h.nullable "name" (by simp) text
  have harguments := h.nullable "arguments" (by simp) text
  rw [hn, nullable_ofString?] at hname
  rw [ha, nullable_ofString?] at harguments
  unfold ChunkCall.decodeFunction
  rw [hs]
  simp only [bind, Except.bind, hname, harguments]
  rfl

theorem ofString?_inj {s t : Option String} (h : Doc.ofString? s = .ofString? t) : s = t := by
  cases s <;> cases t <;> simp_all [Doc.ofString?]

theorem decodePiece_eq_ok {d : Doc} (hp : d.isPlain = true) {p : ChunkCall}
    (hi : ∀ i ∈ p.index, i < 2 ^ 32) (hd : IsPiece d p) :
    ChunkCall.decode (room + 2) d = .ok p := by
  obtain ⟨s, hs, h⟩ :=
    record_eq_ok ["index", "id", "function"] (room + 1) (by simp) hp hd.record
  have hindex := h.nullable "index" (by simp) (natural 32)
  have hid := h.nullable "id" (by simp) text
  have hfunction := h.nullable "function" (by simp) ChunkCall.decodeFunction
  rw [nullable_index hi hd.index] at hindex
  rw [hd.id, nullable_ofString?] at hid
  unfold ChunkCall.decode
  rw [hs]
  simp only [bind, Except.bind, hindex, hid, hfunction]
  obtain ⟨index, id, name, arguments⟩ := p
  rcases hd.function with hnull | hr
  · -- without a function there is neither a name nor arguments
    have hname := hd.name
    have harguments := hd.arguments
    rw [hnull] at hname harguments ⊢
    obtain rfl : none = name := ofString?_inj hname
    obtain rfl : none = arguments := ofString?_inj harguments
    rfl
  · rw [nullable_of_isRecord hr,
      decodePieceFunction_eq_ok (Doc.isPlain_get hp _) hr hd.name hd.arguments]
    rfl

theorem decodeDelta_eq_ok {d : Doc} (hp : d.isPlain = true) {c : ChunkChoice}
    (hi : ∀ p ∈ c.calls, ∀ i ∈ p.index, i < 2 ^ 32) (hd : IsDelta d c) (hr : d.IsRecord) :
    ChunkChoice.decodeDelta (room + 4) d = .ok (c.content, c.calls) := by
  obtain ⟨s, hs, h⟩ := record_eq_ok ["content", "tool_calls"] (room + 3) (by simp) hp hr
  have hcontent := h.nullable "content" (by simp) text
  obtain ⟨bs, hlist, hbs⟩ := nullable_list (room + 2) (f := id) hd.calls (Doc.isPlain_get hp _)
    fun d hd p hmem hpiece => decodePiece_eq_ok hd (hi p hmem) hpiece
  have hcalls := h.nullable "tool_calls" (by simp) (list ChunkCall.decode)
  rw [hd.content, nullable_ofString?] at hcontent
  rw [hlist] at hcalls
  unfold ChunkChoice.decodeDelta
  rw [hs]
  simp only [bind, Except.bind, hcontent, hcalls]
  rw [hbs, List.map_id]
  rfl

theorem decodeChunk_eq_ok {d : Doc} (hp : d.isPlain = true) {c : ChunkChoice}
    (hi : ∀ p ∈ c.calls, ∀ i ∈ p.index, i < 2 ^ 32) (hd : IsChunk d c) :
    ChunkChoice.decodeChunk (room + 7) d = .ok [c] := by
  obtain ⟨choice, hchoices, hr, hdelta, hreason⟩ := hd.choice
  have hpc := isPlain_choice hp hchoices
  have hchoice : ChunkChoice.decode (room + 5) choice = .ok c := by
    obtain ⟨s, hs, h⟩ :=
      record_eq_ok ["delta", "finish_reason"] (room + 4) (by simp) hpc hr
    have hd := h.nullable "delta" (by simp) ChunkChoice.decodeDelta
    have hf := h.nullable "finish_reason" (by simp) text
    rw [hreason, nullable_ofString?] at hf
    unfold ChunkChoice.decode
    rw [hs]
    simp only [bind, Except.bind, hd, hf]
    obtain ⟨content, calls, finishReason⟩ := c
    rcases hdelta.record with hnull | hrec
    · have hcontent := hdelta.content
      obtain ⟨ds, hds, harr | ⟨-, rfl⟩⟩ := hdelta.calls
      · rw [hnull] at harr
        cases harr
      · cases hds
        rw [hnull] at hcontent ⊢
        obtain rfl : none = content := ofString?_inj hcontent
        rfl
    · rw [nullable_of_isRecord hrec, decodeDelta_eq_ok (Doc.isPlain_get hpc _) hi hdelta hrec]
      rfl
  obtain ⟨s, hs, h⟩ := record_eq_ok ["choices"] (room + 6) (by simp) hp hd.record
  have hall := h.defaulted "choices" (by simp) (by rw [hchoices]; simp) []
    (list ChunkChoice.decode)
  rw [hchoices, list_eq_ok (.cons hchoice .nil)] at hall
  unfold ChunkChoice.decodeChunk
  rw [hs]
  simp only [bind, Except.bind, hall]

end decoding

/-! ### Normal forms -/

theorem normal_ofString? (s : Option String) : (Doc.ofString? s).normal = .ofString? s := by
  cases s <;> rfl

theorem MayBeRecord.get_normal {d : Doc} (h : MayBeRecord d) (hp : d.isPlain = true)
    (key : String) : d.normal.get key = (d.get key).normal := by
  rcases h with rfl | h
  · rfl
  · exact Doc.get_normal hp h key

theorem MayBeRecord.normal {d : Doc} (h : MayBeRecord d) : MayBeRecord d.normal :=
  h.imp (fun hd => by rw [hd]; rfl) Doc.isRecord_normal

theorem IsList.normal {α : Type} {shape : Doc → α → Prop} {d : Doc} {as : List α}
    (h : IsList shape d as) (hp : d.isPlain = true)
    (hn : ∀ d a, d.isPlain = true → shape d a → shape d.normal a) : IsList shape d.normal as := by
  obtain ⟨ds, hds, rfl | ⟨rfl, rfl⟩⟩ := h
  · refine ⟨ds.map Doc.normal, ?_, .inl (Doc.normal_arr ds)⟩
    rw [List.forall₂_map_left_iff]
    induction hds with
    | nil => exact .nil
    | cons hd _ ih =>
      rw [Doc.isPlain, itemsPlain, Bool.and_eq_true] at hp
      exact .cons (hn _ _ hp.1 hd) (ih hp.2)
  · exact ⟨[], hds, .inr ⟨rfl, rfl⟩⟩

theorem IsPiece.normal {d : Doc} {p : ChunkCall} (hp : d.isPlain = true) (h : IsPiece d p) :
    IsPiece d.normal p := by
  have hget := Doc.get_normal hp h.record
  have hf := h.function.get_normal (Doc.isPlain_get hp _)
  refine ⟨Doc.isRecord_normal h.record, ?_, ?_, ?_, ?_, ?_⟩
  · rw [hget, h.index]
    cases p.index <;> rfl
  · rw [hget, h.id, normal_ofString?]
  · rw [hget]
    exact h.function.normal
  · rw [hget, hf, h.name, normal_ofString?]
  · rw [hget, hf, h.arguments, normal_ofString?]

theorem IsDelta.normal {d : Doc} {c : ChunkChoice} (hp : d.isPlain = true) (h : IsDelta d c) :
    IsDelta d.normal c := by
  have hget := h.record.get_normal hp
  refine ⟨h.record.normal, ?_, ?_⟩
  · rw [hget, h.content, normal_ofString?]
  · rw [hget]
    exact h.calls.normal (Doc.isPlain_get hp _) fun _ _ => IsPiece.normal

theorem IsChunk.normal {d : Doc} {c : ChunkChoice} (hp : d.isPlain = true) (h : IsChunk d c) :
    IsChunk d.normal c := by
  obtain ⟨choice, hchoices, hr, hdelta, hreason⟩ := h.choice
  have hget := Doc.get_normal hp h.record
  have hpc := isPlain_choice hp hchoices
  refine ⟨Doc.isRecord_normal h.record, ?_, choice.normal, ?_, Doc.isRecord_normal hr, ?_, ?_⟩
  · rw [Doc.member?_normal hp h.record, h.noError]
    rfl
  · rw [hget, hchoices, Doc.normal_arr, List.map_singleton]
  · rw [Doc.get_normal hpc hr]
    exact hdelta.normal (Doc.isPlain_get hpc _)
  · rw [Doc.get_normal hpc hr, hreason, normal_ofString?]

/-! ### The data of a chunk -/

theorem render_record {d : Doc} (h : d.IsRecord) : ∃ inner, d.render = '{' :: (inner ++ ['}']) := by
  cases d with
  | obj members => exact ⟨_, rfl⟩
  | _ => exact h.elim

/-- **The data of a chunk say what its choice adds**, if it adds anything. -/
theorem ofData_text {d : Doc} (hp : d.isPlain = true) (hdepth : d.depth ≤ maxDepth)
    {c : ChunkChoice} (hi : ∀ p ∈ c.calls, ∀ i ∈ p.index, i < 2 ^ 32) (hd : IsChunk d c) :
    EventOutcome.ofData d.text = if c.delta.isEmpty then .skip else .delta c.delta := by
  have hnonempty : d.text.isEmpty = false := by
    obtain ⟨inner, hinner⟩ := render_record hd.record
    rw [← Bool.not_eq_true, String.isEmpty_iff]
    intro hempty
    have := congrArg String.toList hempty
    rw [Doc.text, String.toList_ofList, hinner] at this
    cases this
  have herror := Doc.member?_meaning hp hd.record hd.noError
  have hdecode : decodeValue ChunkChoice.decodeChunk d.meaning = .ok [c] := by
    have hroom : maxDepth = 120 + 7 := rfl
    unfold decodeValue
    rw [hroom]
    exact decodeChunk_eq_ok (Doc.isPlain_normal d hp) hi (hd.normal hp)
  unfold EventOutcome.ofData
  rw [hnonempty, parse?_text hp hdepth]
  simp only [herror, hdecode, Delta.ofChoices, Bool.false_eq_true, if_false]
  rfl

end ChatRelay.Completion
