import ChatRelay.Proofs.Completion.EventLines
import ChatRelay.Proofs.Completion.Shapes

/-! # Streamed and whole messages

An endpoint may give a message as a whole or as a stream of chunks. Into however many chunks it is
cut, and however these are sent, both ways of reading give the same text and the same calls
(`streamed_eq_whole`).

The bytes of the stream are cut into its events (`EventLines`), the data of an event say what a
chunk adds (`Shapes`), and the pieces of each call are collected at its index (`PerIndex`). What is
left here is that the pieces of a call make just the call that the whole message lists. -/

namespace ChatRelay.Completion

open Json Text

/-! ### Messages in pieces -/

/-- The pieces of a call in order: its name and its arguments are cut anywhere, the first piece has
its id. -/
structure Pieces (ps : List ChunkCall) (c : WholeCall) : Prop where
  name : String.join (ps.filterMap (·.name)) = c.name
  arguments : String.join (ps.filterMap (·.arguments)) = c.arguments.getD ""
  id : ∃ rest, ps.map (·.id) = c.id :: rest ∧ ∀ i ∈ rest, i = none

/-- The pieces with an index. -/
def piecesAt (cs : List ChunkChoice) (i : Nat) : List ChunkCall :=
  (cs.flatMap (·.calls)).filter fun p => p.index = some i

/-- The chunks of a message: in whatever order they bring its text and its calls, the pieces of the
text and those of each call are in order. -/
structure Chunks (cs : List ChunkChoice) (m : WholeMessage) : Prop where
  text : String.join (cs.filterMap (·.content)) = m.text.getD ""
  known : ∀ p ∈ cs.flatMap (·.calls), ∃ i < m.calls.length, p.index = some i
  pieces : ∀ i c, m.calls[i]? = some c → Pieces (piecesAt cs i) c

/-- The mark at the end of a stream, or nothing. -/
def Ending (last : List String) : Prop := last = [] ∨ last = [String.ofList doneMark]

/-- The events of a streamed message: among comments, the chunks as data, and maybe the mark at the
end. -/
structure IsStream (events : List Event) (m : WholeMessage) : Prop where
  nonempty : ∀ e ∈ events, e.lines ≠ []
  comments : ∀ e ∈ events, ∀ c ∈ e.comments, IsLine c.toList
  chunks : ∃ docs cs last, List.Forall₂ IsChunk docs cs ∧ Chunks cs m ∧ Ending last ∧
    (∀ d ∈ docs, d.isPlain = true ∧ d.depth ≤ maxDepth) ∧
    events.filterMap (·.data) = docs.map Doc.text ++ last

/-! ### Pieces of a call -/

/-- The piece that a chunk adds to the call at its index. -/
def ChunkCall.piece (p : ChunkCall) : CallFragment := p.fragment 0

theorem nonEmpty_some (s : String) : nonEmpty (some s) = if s.isEmpty then none else some s := by
  unfold nonEmpty
  rw [Option.filter_some]
  cases s.isEmpty <;> rfl

/-- Empty pieces do not matter. -/
theorem join_nonEmpty {α : Type} (f : α → Option String) (as : List α) :
    String.join (as.filterMap fun a => nonEmpty (f a)) = String.join (as.filterMap f) := by
  induction as with
  | nil => rfl
  | cons a as ih =>
    rw [List.filterMap_cons, List.filterMap_cons]
    cases f a with
    | none => exact ih
    | some s =>
      simp only [nonEmpty_some]
      cases hs : s.isEmpty with
      | true =>
        rw [String.isEmpty_iff] at hs
        simp only [if_true, String.join_cons, hs, String.empty_append]
        exact ih
      | false =>
        simp only [Bool.false_eq_true, if_false, String.join_cons, ih]

/-- **The pieces of a call make the call.** -/
theorem Pieces.pendingOf {ps : List ChunkCall} {c : WholeCall} (h : Pieces ps c) :
    pendingOf .append (ps.map (·.piece)) = some c.pending := by
  obtain ⟨rest, hids, hrest⟩ := h.id
  have hname : String.join ((ps.map (·.piece)).filterMap (·.name)) = c.name := by
    rw [List.filterMap_map, ← h.name]
    exact join_nonEmpty _ ps
  have harguments : String.join ((ps.map (·.piece)).filterMap (·.arguments)) =
      c.arguments.getD "" := by
    rw [List.filterMap_map, ← h.arguments]
    exact join_nonEmpty _ ps
  cases ps with
  | nil => cases hids
  | cons p ps =>
    rw [List.map_cons] at hids
    obtain ⟨hfirst, rfl⟩ := List.cons.inj hids
    -- only the first piece can have an id
    have hid : ((p :: ps).map (·.piece)).findSome? (·.id) = nonEmpty c.id := by
      have hnone : (ps.map (·.piece)).findSome? (·.id) = none := by
        rw [List.findSome?_eq_none_iff]
        intro f hf
        obtain ⟨q, hq, rfl⟩ := List.mem_map.mp hf
        have := hrest q.id (List.mem_map.mpr ⟨q, hq, rfl⟩)
        show nonEmpty q.id = none
        rw [this]
        rfl
      have hpiece : p.piece.id = nonEmpty p.id := rfl
      rw [List.map_cons, List.findSome?_cons, hnone, hpiece, ← hfirst]
      cases nonEmpty p.id <;> rfl
    rw [pendingOf_eq, hid, harguments, NamePolicy.name, hname]
    simp [WholeCall.pending]

/-! ### Pieces of a message -/

/-- A piece with an index is the same wherever it stands in its chunk. -/
theorem fragment_of_index {p : ChunkCall} {i : Nat} (h : p.index = some i) (position : Nat) :
    p.fragment position = p.piece := by
  simp [ChunkCall.fragment, ChunkCall.piece, h]

theorem fragments_delta {c : ChunkChoice} (h : ∀ p ∈ c.calls, ∃ i, p.index = some i) :
    c.delta.fragments = (nonEmpty c.content).toList.map Fragment.text ++
      c.calls.map fun p => .call p.piece := by
  have hcalls : (c.calls.mapIdx fun i p => Fragment.call (p.fragment i)) =
      c.calls.map fun p => .call p.piece := by
    refine List.ext_getElem (by simp) fun i h1 h2 => ?_
    rw [List.getElem_mapIdx, List.getElem_map]
    obtain ⟨j, hj⟩ := h _ (List.getElem_mem (by simpa using h1))
    rw [fragment_of_index hj]
  unfold ChunkChoice.delta
  rw [hcalls]

theorem textsOf_append (fs fs' : List Fragment) : textsOf (fs ++ fs') = textsOf fs ++ textsOf fs' :=
  List.filterMap_append

theorem callPieces_append (i : Nat) (fs fs' : List Fragment) :
    callPieces i (fs ++ fs') = callPieces i fs ++ callPieces i fs' := List.filterMap_append

/-- The pieces of text of a message. -/
theorem textsOf_deltas {cs : List ChunkChoice}
    (h : ∀ p ∈ cs.flatMap (·.calls), ∃ i, p.index = some i) :
    textsOf (cs.flatMap fun c => c.delta.fragments) = cs.filterMap fun c => nonEmpty c.content := by
  induction cs with
  | nil => rfl
  | cons c cs ih =>
    rw [List.flatMap_cons, List.forall_mem_append] at h
    have hcalls : textsOf (c.calls.map fun p => .call p.piece) = [] := by
      simp [textsOf, List.filterMap_map]
    have htext :
        textsOf ((nonEmpty c.content).toList.map Fragment.text) = (nonEmpty c.content).toList := by
      cases nonEmpty c.content <;> rfl
    rw [List.flatMap_cons, textsOf_append, ih h.2, fragments_delta h.1, textsOf_append, htext,
      hcalls, List.append_nil, List.filterMap_cons]
    cases nonEmpty c.content <;> rfl

theorem callPieces_calls {ps : List ChunkCall} (h : ∀ p ∈ ps, ∃ j, p.index = some j) (i : Nat) :
    callPieces i (ps.map fun p => .call p.piece) =
      (ps.filter fun p => p.index = some i).map (·.piece) := by
  induction ps with
  | nil => rfl
  | cons p ps ih =>
    obtain ⟨⟨j, hj⟩, hps⟩ := List.forall_mem_cons.mp h
    have hindex : p.piece.index = j := by simp [ChunkCall.piece, ChunkCall.fragment, hj]
    have hrest : callPieces i (.call p.piece :: ps.map fun p => .call p.piece) =
        (if j = i then [p.piece] else []) ++ callPieces i (ps.map fun p => .call p.piece) := by
      unfold callPieces
      rw [List.filterMap_cons]
      by_cases hi : j = i <;> simp [hindex, hi]
    rw [List.map_cons, hrest, ih hps]
    by_cases hi : j = i <;> simp [hj, hi]

/-- The pieces of a call of a message. -/
theorem callPieces_deltas {cs : List ChunkChoice}
    (h : ∀ p ∈ cs.flatMap (·.calls), ∃ i, p.index = some i) (i : Nat) :
    callPieces i (cs.flatMap fun c => c.delta.fragments) = (piecesAt cs i).map (·.piece) := by
  induction cs with
  | nil => rfl
  | cons c cs ih =>
    rw [List.flatMap_cons, List.forall_mem_append] at h
    have htext : callPieces i ((nonEmpty c.content).toList.map Fragment.text) = [] := by
      cases nonEmpty c.content <;> rfl
    rw [List.flatMap_cons, callPieces_append, ih h.2, fragments_delta h.1, callPieces_append, htext,
      callPieces_calls h.1, List.nil_append, piecesAt, piecesAt, List.flatMap_cons,
        List.filter_append,
      List.map_append]

theorem filterMap_range_getElem? {α β : Type} (f : α → Option β) (as : List α) :
    ((List.range as.length).filterMap fun i => as[i]?.bind f) = as.filterMap f := by
  induction as with
  | nil => rfl
  | cons a as ih =>
    rw [List.length_cons, List.range_succ_eq_map, List.filterMap_cons, List.filterMap_map,
      List.filterMap_cons, ← ih]
    rfl

/-- **The chunks of a message add up to it.** -/
theorem Chunks.addUp {cs : List ChunkChoice} {m : WholeMessage} (h : Chunks cs m) :
    let a := (cs.flatMap fun c => c.delta.fragments).foldl Accumulator.addFragment (.start .append)
    a.fullText = m.text.getD "" ∧ a.drafts = m.drafts := by
  have hindex : ∀ p ∈ cs.flatMap (·.calls), ∃ i, p.index = some i := fun p hp =>
    (h.known p hp).imp fun i hi => hi.2
  have hpieces := callPieces_deltas hindex
  have hbound : ∀ f, .call f ∈ cs.flatMap (fun c => c.delta.fragments) →
      f.index < m.calls.length := by
    intro f hf
    have hmem : f ∈ callPieces f.index (cs.flatMap fun c => c.delta.fragments) :=
      List.mem_filterMap.mpr ⟨_, hf, if_pos rfl⟩
    rw [hpieces] at hmem
    obtain ⟨p, hp, -⟩ := List.mem_map.mp hmem
    obtain ⟨hp, hi⟩ := List.mem_filter.mp hp
    obtain ⟨i, hlt, hi'⟩ := h.known p hp
    rw [decide_eq_true_eq, hi'] at hi
    exact Option.some.inj hi ▸ hlt
  rw [foldl_addFragment .append _ hbound]
  refine ⟨?_, ?_⟩
  · rw [textsOf_deltas hindex, ← h.text]
    exact join_nonEmpty _ cs
  · rw [drafts_eq, filterMap_callTable]
    refine Eq.trans (List.filterMap_congr fun i hi => ?_)
      (filterMap_range_getElem? (fun c => c.pending.draft?) m.calls)
    have hlt := List.mem_range.mp hi
    have hcall := h.pieces i m.calls[i] (List.getElem?_eq_getElem hlt)
    rw [hpieces, hcall.pendingOf, List.getElem?_eq_getElem hlt]
    rfl

/-! ### The items of a stream -/

theorem isLine_text {d : Doc} (h : d.isPlain = true) : IsLine d.text.toList := by
  have hprintable := printable_render d h
  unfold Doc.text
  rw [String.toList_ofList]
  exact ⟨fun hmem => absurd (hprintable _ hmem) (by decide),
    fun hmem => absurd (hprintable _ hmem) (by decide)⟩

theorem trim_text {d : Doc} (h : d.IsRecord) : trim d.text = d.text := by
  obtain ⟨inner, hinner⟩ := render_record h
  unfold trim Doc.text
  rw [String.toList_ofList, hinner, trimChars_eq_self_iff.mpr]
  refine ⟨fun c hc => ?_, fun c hc => ?_⟩
  · cases hc
    decide
  · rw [← List.cons_append, List.getLast?_append_of_ne_nil _ (by simp)] at hc
    cases hc
    decide

/-- The data of a chunk are not the mark at the end. -/
theorem dataOutcome_text {d : Doc} (hp : d.isPlain = true) (hdepth : d.depth ≤ maxDepth)
    {c : ChunkChoice} (hi : ∀ p ∈ c.calls, ∀ i ∈ p.index, i < 2 ^ 32) (hd : IsChunk d c) :
    dataOutcome d.text = if c.delta.isEmpty then .skip else .delta c.delta := by
  have hmark : d.text.toList ≠ doneMark := by
    obtain ⟨inner, hinner⟩ := render_record hd.record
    unfold Doc.text
    rw [String.toList_ofList, hinner]
    simp [doneMark]
  unfold dataOutcome
  rw [if_neg hmark, ofData_text hp hdepth hi hd]

theorem readEvents_ending {last : List String} (h : Ending last) :
    (readEvents (last.map dataOutcome)).1 = [] := by
  rcases h with rfl | rfl
  · rfl
  · have : dataOutcome (String.ofList doneMark) = .done := by
      unfold dataOutcome
      rw [String.toList_ofList, if_pos rfl]
    rw [List.map_singleton, this]
    rfl

theorem line_ending {last : List String} (h : Ending last) {s : String} (hs : s ∈ last) :
    IsLine s.toList ∧ trim s = s := by
  rcases h with rfl | rfl
  · cases hs
  · rw [List.mem_singleton.mp hs, trim, String.toList_ofList]
    exact ⟨by unfold IsLine; decide, rfl⟩

theorem exists_chunk {docs : List Doc} {cs : List ChunkChoice} (h : List.Forall₂ IsChunk docs cs)
    {d : Doc} (hd : d ∈ docs) : ∃ c ∈ cs, IsChunk d c := by
  induction h with
  | nil => cases hd
  | cons hc _ ih =>
    rcases List.mem_cons.mp hd with rfl | hd
    · exact ⟨_, List.mem_cons_self, hc⟩
    · obtain ⟨c, hmem, hc⟩ := ih hd
      exact ⟨c, List.mem_cons_of_mem _ hmem, hc⟩

/-- The items of a stream are the deltas of its chunks that add anything. -/
theorem readEvents_chunks {docs : List Doc} {cs : List ChunkChoice}
    (h : List.Forall₂ IsChunk docs cs) (hi : ∀ p ∈ cs.flatMap (·.calls), ∀ i ∈ p.index, i < 2 ^ 32)
    (hd : ∀ d ∈ docs, d.isPlain = true ∧ d.depth ≤ maxDepth) {last : List String}
    (hlast : Ending last) : (readEvents ((docs.map Doc.text ++ last).map dataOutcome)).1 =
      ((cs.map (·.delta)).filter fun d => !d.isEmpty).map .ok := by
  induction h with
  | nil => exact readEvents_ending hlast
  | @cons d c docs cs hc _ ih =>
    rw [List.flatMap_cons, List.forall_mem_append] at hi
    obtain ⟨⟨hp, hdepth⟩, hdocs⟩ := List.forall_mem_cons.mp hd
    have hout := dataOutcome_text hp hdepth hi.1 hc
    rw [List.map_cons, List.cons_append, List.map_cons, hout, List.map_cons]
    cases hempty : c.delta.isEmpty with
    | true => simpa [readEvents, hempty] using ih hi.2 hdocs
    | false => simpa [readEvents, hempty] using ih hi.2 hdocs

/-- Deltas that add nothing do not matter. -/
theorem flatMap_fragments_filter (ds : List Delta) :
    (ds.filter fun d => !d.isEmpty).flatMap (·.fragments) = ds.flatMap (·.fragments) := by
  induction ds with
  | nil => rfl
  | cons d ds ih =>
    rw [List.flatMap_cons, ← ih, List.filter_cons]
    cases h : d.isEmpty with
    | false => rfl
    | true =>
      have hnil : d.fragments = [] := by
        unfold Delta.isEmpty at h
        exact List.isEmpty_iff.mp (Bool.and_eq_true_iff.mp h).1
      rw [hnil]
      rfl

/-! ### Completed calls -/

/-- A draft as a call, with an id to take if it has none. -/
def CallDraft.named (c : CallDraft) (fresh : String) : ToolCall :=
  .ofRaw (c.id.getD fresh) c.name c.rawArguments

/-- Calls made from the same drafts. They differ at most in the ids that the drafts lack. -/
def SameCalls (drafts : List CallDraft) (calls calls' : List ToolCall) : Prop :=
  ∃ fresh fresh' : List String, fresh.length = drafts.length ∧ fresh'.length = drafts.length ∧
    calls = drafts.zipWith CallDraft.named fresh ∧ calls' = drafts.zipWith CallDraft.named fresh'

theorem completeCalls_eq_named (drafts : List CallDraft) (d : Draws) : ∃ fresh : List String,
    fresh.length = drafts.length ∧
    (completeCalls drafts d).1 = drafts.zipWith CallDraft.named fresh := by
  induction drafts generalizing d with
  | nil => exact ⟨[], rfl, rfl⟩
  | cons c drafts ih =>
    obtain ⟨fresh, hlen, hcalls⟩ := ih (c.complete d).2
    refine ⟨d.callId.1 :: fresh, by simp [hlen], ?_⟩
    have hcall : (c.complete d).1 = c.named d.callId.1 := by
      unfold CallDraft.complete CallDraft.named
      cases c.id <;> rfl
    rw [List.zipWith_cons_cons, ← hcalls, ← hcall]
    rfl

theorem sameCalls_completeCalls (drafts : List CallDraft) (d d' : Draws) :
    SameCalls drafts (completeCalls drafts d).1 (completeCalls drafts d').1 := by
  obtain ⟨fresh, hlen, hcalls⟩ := completeCalls_eq_named drafts d
  obtain ⟨fresh', hlen', hcalls'⟩ := completeCalls_eq_named drafts d'
  exact ⟨fresh, fresh', hlen, hlen', hcalls, hcalls'⟩

/-! ### Both ways -/

/-- What a streamed message is accumulated to. -/
theorem accumulate_stream {m : WholeMessage} (hlen : m.calls.length < 2 ^ 32) {events : List Event}
    (h : IsStream events m) {frames : List (List UInt8)}
    (hframes : frames.flatten = events.flatMap (·.bytes)) :
    (accumulate (streamItems frames none)).1 = .ok ⟨m.text.getD "", m.drafts⟩ := by
  obtain ⟨docs, cs, last, hdocs, hcs, hlast, hplain, hdata⟩ := h.chunks
  have hi : ∀ p ∈ cs.flatMap (·.calls), ∀ i ∈ p.index, i < 2 ^ 32 := by
    intro p hp i hi
    obtain ⟨j, hj, hpj⟩ := hcs.known p hp
    rw [hpj] at hi
    cases hi
    omega
  -- a rendered chunk has no line ends in it and no blanks around it, so sending it changes nothing
  have hlines : ∀ e ∈ events, ∀ d ∈ e.data, IsLine d.toList ∧ trim d = d := by
    intro e he s hs
    have hmem : s ∈ events.filterMap (·.data) := List.mem_filterMap.mpr ⟨e, he, hs⟩
    rw [hdata] at hmem
    rcases List.mem_append.mp hmem with hmem | hmem
    · obtain ⟨d, hd, rfl⟩ := List.mem_map.mp hmem
      obtain ⟨c, -, hc⟩ := exists_chunk hdocs hd
      exact ⟨isLine_text (hplain d hd).1, trim_text hc.record⟩
    · exact line_ending hlast hmem
  have hsent : ∀ e ∈ events, e.IsSent := fun e he =>
    ⟨h.nonempty e he, h.comments e he, fun d hd => (hlines e he d hd).1⟩
  have hcuts := cuts_events hsent
  rw [← hframes] at hcuts
  have hitems : streamItems frames none = ((cs.map (·.delta)).filter fun d =>
      !d.isEmpty).map .ok := by
    have hread := readEvents_chunks hdocs hi hplain hlast
    have hevents := readEvents_events hsent fun e he d hd => (hlines e he d hd).2
    have hend : (readEvents [lastOutcome []]).1 = [] := rfl
    rw [streamItems_of_cuts hcuts, itemsOf, hevents, hdata, hread]
    split
    · rfl
    · rw [hend, List.append_nil]
  obtain ⟨htext, hdrafts⟩ := hcs.addUp
  rw [hitems, accumulate_deltas, flatMap_fragments_filter, List.flatMap_map]
  simp only [htext, hdrafts]

/-- **Both ways of reading a message agree.** Let a message be given as a whole, and as a stream of
chunks in any frames. Then both give the same text, an absent one being empty, and the same calls,
up to the ids that they lack. -/
theorem streamed_eq_whole {m : WholeMessage} (hlen : m.calls.length < 2 ^ 32)
    {body : Doc} (hplain : body.isPlain = true) (hbody : IsBody body m)
    {events : List Event} (hevents : IsStream events m)
    {frames : List (List UInt8)} (hframes : frames.flatten = events.flatMap (·.bytes)) :
    ∃ acc reply, (accumulate (streamItems frames none)).1 = .ok acc ∧
    readResponse body.text = .ok reply ∧
      acc.fullText = reply.content.getD "" ∧ acc.drafts = reply.drafts ∧
      (∀ d d', SameCalls m.drafts (completeCalls acc.drafts d).1
        (completeCalls reply.drafts d').1) ∧
      acc.fullText = m.text.getD "" ∧ acc.drafts = m.drafts := by
  refine ⟨_, _, accumulate_stream hlen hevents hframes, readResponse_text hplain hbody, ?_, rfl,
    sameCalls_completeCalls m.drafts, rfl, rfl⟩
  cases m.text with
  | none => rfl
  | some s =>
    rw [nonEmpty_some]
    cases hs : s.isEmpty with
    | true => exact String.isEmpty_iff.mp hs
    | false => rfl

/-- A message with a text and two calls, of which one lacks an id and arguments. -/
def twoCalls : WholeMessage := ⟨some "é!", [⟨some "c", "get", some "x"⟩, ⟨none, "put", none⟩]⟩

/-- Its chunks, in which the pieces of the calls are mixed. -/
def twoCallsChunks : List ChunkChoice :=
  [⟨some "é", [⟨some 1, none, some "pu", none⟩, ⟨some 0, some "c", none, none⟩], none⟩,
    ⟨some "!", [⟨some 0, none, some "get", some ""⟩, ⟨some 1, none, some "t", none⟩], none⟩,
    ⟨none, [⟨some 0, none, none, some "x"⟩], some "tool_calls"⟩]

/-- The events that send these chunks, with a comment between them. -/
def twoCallsEvents : List Event :=
  [⟨[], some (twoCallsChunks[0].doc.text), false⟩, ⟨[" still here"], none, true⟩,
    ⟨[" more"], some (twoCallsChunks[1].doc.text), true⟩,
      ⟨[], some (twoCallsChunks[2].doc.text), false⟩,
    ⟨[], some (String.ofList doneMark), false⟩]

theorem chunks_twoCalls : Chunks twoCallsChunks twoCalls where
  text := rfl
  known := by simp [twoCallsChunks, twoCalls]
  pieces i c h := by
    match i, h with
    | 0, rfl => exact ⟨rfl, rfl, [none, none], rfl, by simp⟩
    | 1, rfl => exact ⟨rfl, rfl, [none], rfl, by simp⟩

theorem isStream_twoCalls : IsStream twoCallsEvents twoCalls where
  nonempty := by simp [twoCallsEvents, Event.lines]
  comments := by
    have hlines : IsLine " still here".toList ∧ IsLine " more".toList := by
      unfold IsLine
      decide
    simpa [twoCallsEvents] using hlines
  chunks := by
    have hi : ∀ c ∈ twoCallsChunks, ∀ p ∈ c.calls, ∀ i ∈ p.index, i < 2 ^ 32 := by
      simp [twoCallsChunks]
    refine ⟨twoCallsChunks.map ChunkChoice.doc, twoCallsChunks, [String.ofList doneMark],
      forall₂_map_doc fun c hc => (isChunk_doc (hi c hc)).2, chunks_twoCalls, .inr rfl, ?_, rfl⟩
    rw [List.forall_mem_map]
    exact fun c hc => (isChunk_doc (hi c hc)).1

theorem flatten_cut (bytes : List UInt8)
    (n : Nat) : [bytes.take n, [], bytes.drop n].flatten = bytes := by
  simp

theorem streamed_eq_whole_twoCalls :
    let bytes := twoCallsEvents.flatMap (·.bytes)
    let frames := [bytes.take 50, [], bytes.drop 50]
    twoCalls.calls.length < 2 ^ 32 ∧ twoCalls.body.isPlain = true ∧ IsBody twoCalls.body twoCalls ∧
      IsStream twoCallsEvents twoCalls ∧ frames.flatten = bytes ∧
      ∃ acc reply, (accumulate (streamItems frames none)).1 = .ok acc ∧
        readResponse twoCalls.body.text = .ok reply ∧
        acc.fullText = "é!" ∧ reply.content.getD "" = "é!" ∧
        acc.drafts = [⟨some "c", "get", "x"⟩, ⟨none, "put", ""⟩] ∧ reply.drafts = acc.drafts := by
  have hlen : twoCalls.calls.length < 2 ^ 32 := by decide
  obtain ⟨hplain, hbody⟩ := isBody_body twoCalls
  have hframes := flatten_cut (twoCallsEvents.flatMap (·.bytes)) 50
  obtain ⟨acc, reply, hacc, hreply, htext, hdrafts, -, htext', hdrafts'⟩ :=
    streamed_eq_whole hlen hplain hbody isStream_twoCalls hframes
  have hvalue : twoCalls.drafts = [⟨some "c", "get", "x"⟩, ⟨none, "put", ""⟩] := by decide
  exact ⟨hlen, hplain, hbody, isStream_twoCalls, hframes, acc, reply, hacc, hreply, htext',
    htext ▸ htext', hdrafts'.trans hvalue, hdrafts.symm⟩

end ChatRelay.Completion
