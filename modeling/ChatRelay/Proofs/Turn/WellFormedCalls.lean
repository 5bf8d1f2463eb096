import ChatRelay.Proofs.Completion.ReadDeltas
import ChatRelay.Proofs.Completion.StreamedWhole
import ChatRelay.Proofs.Json.LeftOut
import ChatRelay.Proofs.Json.RoundTrip
import ChatRelay.Proofs.Turn.Outcomes

/-! # Calls that can be made

A call has a trimmed name, an id, and the arguments that its text means (`ToolCall.WellFormed`). It
may come from a stream, from a whole response, or from a simulated completion. The first two keep
the text and read the arguments from it, so what is left is that neither gives an empty id or a
blank name: a stream, since nothing that is read from it is empty, and a response, by what its
decoder lets through (`Gives`). A simulated completion makes the arguments and writes their text,
which is read back as the arguments (`parseArguments_text`).

So the calls that a turn runs are those that its follow-up lists: to read the listed text gives the
arguments that the tool was run with (`RunsAs`). -/

namespace ChatRelay

open Json Text

namespace Completion

/-! ### Drafts and calls -/

/-- A draft has a trimmed name, and its id, if it has one, is not empty. -/
structure CallDraft.WellFormed (c : CallDraft) : Prop where
  named : c.name ≠ ""
  trimmed : trim c.name = c.name
  id : c.id ≠ some ""

/-- A call has a trimmed name, an id, and the arguments that its text means. -/
structure ToolCall.WellFormed (c : ToolCall) : Prop where
  named : c.name ≠ ""
  trimmed : trim c.name = c.name
  identified : c.id ≠ ""
  meant : c.arguments = parseArguments c.rawArguments

theorem callId_ne_empty (d : Draws) : d.callId.1 ≠ "" := by
  have hcallId : d.callId.1 = "call_" ++ String.ofList (Draws.hex 32 d.next.1) := rfl
  rw [hcallId]
  intro h
  have hlen := congrArg String.length h
  rw [String.length_append] at hlen
  simp at hlen

/-- Completing a draft adds what it lacks. -/
theorem CallDraft.WellFormed.complete {c : CallDraft} (h : c.WellFormed) (d : Draws) :
    (c.complete d).1.WellFormed := by
  unfold CallDraft.complete
  cases hid : c.id with
  | some id =>
    refine ⟨h.named, h.trimmed, ?_, by simp only [ToolCall.ofRaw]⟩
    rintro rfl
    exact h.id hid
  | none => exact ⟨h.named, h.trimmed, callId_ne_empty d, by simp only [ToolCall.ofRaw]⟩

theorem wellFormed_completeCalls {ds : List CallDraft} (h : ∀ c ∈ ds, c.WellFormed) :
    ∀ d : Draws, ∀ c ∈ (completeCalls ds d).1, c.WellFormed := by
  induction ds with
  | nil => exact fun d c hc => by cases hc
  | cons c ds ih =>
    obtain ⟨hc, hds⟩ := List.forall_mem_cons.mp h
    exact fun d => List.forall_mem_cons.mpr ⟨hc.complete d, ih hds _⟩

/-! ### Streams -/

/-- A stream that is accumulated has no failure. -/
theorem exists_deltas_of_accumulate {items : List StreamItem} {a : Accumulated}
    {chunks : List String} (h : accumulate items = (.ok a, chunks)) :
    ∃ ds : List Delta, items = ds.map .ok := by
  have hfrom : ∀ {start : Accumulator}, accumulateFrom start items = (.ok a, chunks) →
      ∃ ds : List Delta, items = ds.map .ok := by
    clear h
    induction items with
    | nil => exact fun _ => ⟨[], rfl⟩
    | cons item items ih =>
      intro start h
      cases item with
      | error f => cases h
      | ok d =>
        obtain ⟨ds, rfl⟩ := ih h
        exact ⟨d :: ds, rfl⟩
  exact hfrom h

/-- **The calls of a stream.** Their names were trimmed and are not blank, and no id in a stream is
empty. -/
theorem wellFormed_accumulated {pieces : List (List UInt8)} {readError : Option String}
    {a : Accumulated} {chunks : List String}
    (h : accumulate (streamItems pieces readError) = (.ok a, chunks)) :
    ∀ c ∈ a.drafts, c.WellFormed := by
  obtain ⟨ds, hds⟩ := exists_deltas_of_accumulate h
  have hfilled : ∀ d ∈ ds, d.Filled := fun d hd =>
    filled_of_streamItems (hds ▸ List.mem_map_of_mem hd : .ok d ∈ streamItems pieces readError)
  obtain ⟨n, hn⟩ := exists_index_bound (piecesOf ds)
  rw [hds, accumulate_pieces ds hn] at h
  cases h
  intro c hc
  obtain ⟨i, hi, rfl⟩ := List.mem_map.mp hc
  refine ⟨of_decide_eq_true (List.mem_filter.mp hi).2, trim_trim _, fun hid => ?_⟩
  obtain ⟨f, hf, hempty⟩ := List.exists_of_findSome?_eq_some hid
  exact (filled_of_mem_callPieces hfilled hf).id hempty

/-! ### Whole responses -/

section gives

variable {α : Type} {dec : Decoder α} {p : α → Prop}

/-- Whatever a decoder gives has a property. -/
def Gives (dec : Decoder α) (p : α → Prop) : Prop := ∀ room d a, dec room d = .ok a → p a

theorem Gives.list (h : Gives dec p) : Gives (Json.list dec) fun as => ∀ a ∈ as, p a := by
  intro room d as hd
  unfold Json.list at hd
  split at hd
  next => cases hd
  next items room =>
    obtain ⟨bs, hbs, hall⟩ := forall₂_of_decodeItems hd
    obtain rfl : as = bs := hbs
    clear hd
    induction hall with
    | nil => exact fun a ha => by cases ha
    | cons ha _ ih => exact List.forall_mem_cons.mpr ⟨h _ _ _ ha, ih⟩
  next => cases hd

theorem Gives.nullable (h : Gives dec p) : Gives (Json.nullable dec) fun o => ∀ a ∈ o, p a := by
  intro room d o hd a ha
  unfold Json.nullable at hd
  split at hd
  next => cases hd; cases ha
  next =>
    cases hdec : dec room d with
    | error e => rw [hdec] at hd; cases hd
    | ok b =>
      rw [hdec] at hd
      cases hd
      cases ha
      exact h _ _ _ hdec

variable {s : Slots} {key : String} {a : α}

theorem Gives.required (h : Gives dec p) (ha : s.required key dec = .ok a) : p a := by
  unfold Slots.required at ha
  split at ha
  next => exact h _ _ _ ha
  next => cases ha

theorem Gives.defaulted (h : Gives dec p) {default : α} (hdefault : p default)
    (ha : s.defaulted key default dec = .ok a) : p a := by
  unfold Slots.defaulted at ha
  split at ha
  next => exact h _ _ _ ha
  next =>
    cases ha
    exact hdefault

end gives

theorem gives_decodeCall : Gives ReplyDraft.decodeCall fun c => trim c.name = c.name ∧
    c.id ≠ some "" := by
  intro room d c h
  unfold ReplyDraft.decodeCall at h
  obtain ⟨s, -, h⟩ := bind_eq_ok h
  obtain ⟨id, -, h⟩ := bind_eq_ok h
  obtain ⟨⟨name, arguments⟩, -, h⟩ := bind_eq_ok h
  cases h
  exact ⟨trim_trim name, nonEmpty_ne_empty id⟩

/-- Calls with a blank name are left out of a message. -/
theorem gives_decodeMessage : Gives ReplyDraft.decodeMessage fun m =>
    ∀ c ∈ m.drafts, c.WellFormed := by
  intro room d m h
  unfold ReplyDraft.decodeMessage at h
  obtain ⟨s, -, h⟩ := bind_eq_ok h
  obtain ⟨content, -, h⟩ := bind_eq_ok h
  obtain ⟨calls, hcalls, h⟩ := bind_eq_ok h
  cases h
  have hall := gives_decodeCall.list.nullable.defaulted (by simp) hcalls
  intro c hc
  obtain ⟨hmem, hname⟩ := List.mem_filter.mp hc
  cases hcs : calls with
  | none => rw [hcs] at hmem; cases hmem
  | some cs =>
    rw [hcs] at hmem
    obtain ⟨htrim, hid⟩ := hall cs hcs c hmem
    exact ⟨by simpa using hname, htrim, hid⟩

theorem gives_decodeChoices :
    Gives ReplyDraft.decodeChoices fun ms => ∀ m ∈ ms, ∀ c ∈ m.drafts, c.WellFormed := by
  have hchoice : Gives ReplyDraft.decodeChoice fun m => ∀ c ∈ m.drafts, c.WellFormed := by
    intro room d m h
    unfold ReplyDraft.decodeChoice at h
    obtain ⟨s, -, h⟩ := bind_eq_ok h
    exact gives_decodeMessage.required h
  intro room d ms h
  unfold ReplyDraft.decodeChoices at h
  obtain ⟨s, -, h⟩ := bind_eq_ok h
  exact hchoice.list.defaulted (by simp) h

/-- **The calls of a whole response.** -/
theorem wellFormed_response {body : String} {m : ReplyDraft} (h : readResponse body = .ok m) :
    ∀ c ∈ m.drafts, c.WellFormed := by
  unfold readResponse at h
  split at h
  next => cases h
  next => cases h
  next hdec =>
    cases h
    exact gives_decodeChoices _ _ _ (decode_of_decodeText hdec) _ List.mem_cons_self

/-! ### Arguments that are written -/

/-- **Arguments that are written as an object are read back as that object**, if the text may open
as many levels as they have and their numbers read back. -/
theorem parseArguments_text {o : Object} (hs : (Value.obj o).Sorted)
    (hd : (Value.obj o).doc.depth ≤ maxDepth) (hn : ∀ n ∈ (Value.obj o).nums, n.ReadsBack) :
    parseArguments (Value.obj o).text = o := by
  have hkeys : (memberDocs o).map Prod.fst = (o.map Prod.fst).map some := by
    rw [memberDocs_eq_map, List.map_map, List.map_map]
    rfl
  have htrim : trim (Value.obj o).text = (Value.obj o).text :=
    trim_text (isRecord_of_keys _ hkeys hs.1.nodup)
  have hparse : parse? (Value.obj o).text = some (.obj o) := by
    unfold parse? Value.text
    rw [decodeText_of_exact value (exact_doc _ hn), value_doc _ _ hs hd]
    rfl
  have hne : (Value.obj o).text.isEmpty = false := by
    rw [Bool.eq_false_iff]
    intro hempty
    rw [String.isEmpty_iff.mp hempty] at hparse
    cases hparse
  unfold parseArguments
  simp only [htrim, hne, hparse, Bool.false_eq_true, if_false]

/-- Arguments that an endpoint gives as an object are run as that object. -/
theorem parseArguments_argumentText {room : Nat} {d : Doc} {o : Object}
    (h : value room d = .ok (.obj o)) (hroom : room ≤ maxDepth)
    (hn : ∀ n ∈ (Value.obj o).nums, n.ReadsBack) :
    parseArguments (argumentText (some (.obj o))) = o :=
  parseArguments_text (value_ok d room _ h).1 ((depth_value d room _ h).trans hroom) hn

/-- A text, or an integer of at most 64 bits. -/
def IsFlat (v : Value) : Prop :=
  (∃ s, v = .str s) ∨ ∃ i : Int, v = .num (.int i) ∧ (Num.int i).Sized

theorem parseArguments_flat {o : Object} (hs : o.Sorted) (hflat : ∀ m ∈ o, IsFlat m.2) :
    parseArguments (Value.obj o).text = o := by
  refine parseArguments_text ⟨hs, membersSorted_iff.mpr fun m hm => ?_⟩ ?_ fun n hn => ?_
  · obtain ⟨s, hv⟩ | ⟨i, hv, -⟩ := hflat m hm <;> rw [hv] <;> trivial
  · refine Nat.succ_le_succ (membersDepth_le ?_)
    rw [memberDocs_eq_map, List.forall_mem_map]
    intro m hm
    obtain ⟨s, hv⟩ | ⟨i, hv, -⟩ := hflat m hm <;> rw [hv] <;> exact Nat.zero_le 126
  · obtain ⟨e, he, hn⟩ := mem_memberNums.mp hn
    rw [memberDocs_eq_map] at he
    obtain ⟨m, hm, rfl⟩ := List.mem_map.mp he
    obtain ⟨s, hv⟩ | ⟨i, hv, hi⟩ := hflat m hm <;> simp only [hv] at hn
    · cases hn
    · obtain rfl := List.mem_singleton.mp hn
      exact readsBack_int hi.1 hi.2

end Completion

namespace Turn

open Completion Session Tools

/-! ### Simulated completions -/

/-- The arguments of a simulated call are texts and a small number. -/
theorem announce_arguments (message : String) (t : Topic) :
    (announce message t).2 = match t with
      | .weather => [("location", .str ((placeIn? message).getD anywhere))]
      | .search => [("num_results", .num (.int simulatedResultCount)),
          ("query", .str (trim message))]
      | .store => [("query", .str "SELECT * FROM records LIMIT 10")]
      | .bridge => [("action", .str "list")] := by
  cases t <;> rfl

theorem parseArguments_announce (message : String) (t : Topic) :
    parseArguments (Value.obj (announce message t).2).text = (announce message t).2 := by
  have hcount : (Num.int simulatedResultCount).Sized := ⟨by decide, by decide⟩
  rw [announce_arguments]
  cases t with
  | search =>
    have hkeys : "num_results" < "query" := by decide
    have hsorted : Object.Sorted
        [("num_results", .num (.int simulatedResultCount)), ("query", .str (trim message))] :=
      List.pairwise_pair.mpr hkeys
    refine parseArguments_flat hsorted fun m hm => ?_
    simp only [List.mem_cons, List.not_mem_nil, or_false] at hm
    rcases hm with rfl | rfl
    · exact .inr ⟨_, rfl, hcount⟩
    · exact .inl ⟨_, rfl⟩
  | _ =>
    refine parseArguments_flat (List.pairwise_singleton _ _) fun m hm => ?_
    rw [List.mem_singleton.mp hm]
    exact .inl ⟨_, rfl⟩

theorem tool_trimmed (t : Topic) : t.tool ≠ "" ∧ trim t.tool = t.tool := by
  cases t <;> decide +kernel

theorem wellFormed_simulatedReply {message : String} {tools : List ToolDefinition} {d : Draws}
    {c : ToolCall} (hc : c ∈ (simulatedReply message tools d).1.2) : c.WellFormed := by
  unfold simulatedReply at hc
  cases ht : Topic.of? message tools with
  | none => simp [ht] at hc
  | some t =>
    simp only [ht, List.mem_singleton] at hc
    subst hc
    exact ⟨(tool_trimmed t).1, (tool_trimmed t).2, callId_ne_empty d,
      (parseArguments_announce message t).symm⟩

/-! ### Turns -/

section turns

variable {σ : Type}

/-- The completions of a handler are simulated, or come from an endpoint over a network. -/
def Handler.Completes (h : Handler σ) : Prop :=
  h.mode = .simulated ∨ ∃ (e : Endpoint) (network : Web.Network σ),
    h.mode = .live (e.provider network)

/-- The items of a stream are those of the body of some answer. -/
theorem wellFormed_streamed {e : Endpoint} {network : Web.Network σ} {r : Request} {s : σ}
    {items : List StreamItem} {a : Accumulated}
    (hitems : ((e.provider network).stream r s).1 = .ok items)
    (ha : (accumulate items).1 = .ok a) : ∀ c ∈ a.drafts, c.WellFormed := by
  simp only [Endpoint.provider] at hitems
  cases hanswer : e.checked (network.send (e.webRequest { r with stream := true }) s).1 with
  | error f => rw [hanswer] at hitems; cases hitems
  | ok answer =>
    rw [hanswer] at hitems
    cases hitems
    exact wellFormed_accumulated (Prod.ext ha rfl)

/-- A whole reply is read from the body of some answer. -/
theorem wellFormed_whole {e : Endpoint} {network : Web.Network σ} {r : Request} {s : σ}
    {m : ReplyDraft} (hm : ((e.provider network).complete r s).1 = .ok m) :
    ∀ c ∈ m.drafts, c.WellFormed := by
  simp only [Endpoint.provider] at hm
  cases hanswer : e.checked (network.send (e.webRequest { r with stream := false }) s).1 with
  | error f => rw [hanswer] at hm; cases hm
  | ok answer =>
    rw [hanswer] at hm
    have hread : Endpoint.readWhole answer = .ok m := hm
    unfold Endpoint.readWhole at hread
    split at hread
    next => cases hread
    next => exact wellFormed_response hread

theorem wellFormed_asksFor (e : Endpoint) (network : Web.Network σ) (r : Request) (s : σ) :
    ∀ c ∈ asksFor (e.provider network) r s, c.WellFormed := by
  have hnone : ∀ c ∈ ([] : List CallDraft), c.WellFormed := fun c hc => by cases hc
  unfold asksFor
  split
  next =>
    split
    next => exact hnone
    next items hitems =>
      split
      next => exact hnone
      next a ha => exact wellFormed_streamed hitems ha
  next =>
    split
    next => exact hnone
    next m hm => exact wellFormed_whole hm

/-- The calls of the first completion of a turn. -/
theorem Handler.wellFormed_firstCalls {h : Handler σ} (hmode : h.Completes) (i : Input)
    (w : World σ) (tools : List ToolDefinition) : ∀ c ∈ h.firstCalls i w tools, c.WellFormed := by
  intro c hc
  obtain hmode | ⟨e, network, hmode⟩ := hmode
  · unfold firstCalls at hc
    rw [h.first_simulated i w hmode] at hc
    exact wellFormed_simulatedReply hc
  · have hcalls := (h.brings_first i w tools).completed hmode
    rw [hcalls] at hc
    exact wellFormed_completeCalls (wellFormed_asksFor e network _ _) w.draws c hc

/-- The calls that the entries of a request list. -/
def listedCalls (r : Request) : List CallDescriptor :=
  r.messages.flatMap fun m => m.toolCalls.getD []

/-- A follow-up lists the calls of the turn, and no others. -/
theorem listedCalls_followUpRequest (h : Handler σ) (i : Input) (calls : List ToolCall)
    (records : List ToolCallRecord) :
    listedCalls (h.followUpRequest i calls records) = calls.map ToolCall.descriptor := by
  have hwindow : ((lastOf followUpWindow i.history).map entry).flatMap (fun m =>
      m.toolCalls.getD []) = [] := by
    rw [List.flatMap_eq_nil_iff, List.forall_mem_map]
    exact fun m _ => rfl
  have hresults : (records.map resultEntry).flatMap (fun m => m.toolCalls.getD []) = [] := by
    rw [List.flatMap_eq_nil_iff, List.forall_mem_map]
    exact fun r _ => rfl
  unfold listedCalls Handler.followUpRequest request followUpMessages
  simp only [List.flatMap_append, List.flatMap_cons, hwindow, hresults]
  simp [directive, ChatMessage.plain, ChatMessage.ofCalls]

/-- A record tells of a listed call: the tool that the list names was run with what the listed text
means. -/
structure RunsAs (x : Executor σ) (e : CallDescriptor) (r : ToolCallRecord) : Prop where
  id : r.id = e.id
  name : r.name = e.name
  arguments : r.arguments = parseArguments e.arguments
  result : ∃ v, r.result = ((x.execute e.name (parseArguments e.arguments)).run v).1

theorem RecordOf.runsAs {x : Executor σ} {c : ToolCall} {r : ToolCallRecord} (h : RecordOf x c r)
    (hc : c.WellFormed) : RunsAs x c.descriptor r where
  id := h.id
  name := h.name
  arguments := h.arguments.trans hc.meant
  result := by
    obtain ⟨v, hv⟩ := h.result
    exact ⟨v, hv.trans (by rw [hc.meant]; rfl)⟩

/-- **What a turn runs is what its follow-up lists.** -/
theorem runsAs_listed {h : Handler σ} (hmode : h.Completes) (i : Input) (w : World σ)
    {text : String} {records : List ToolCallRecord}
    (ho : ((h.run i).run w).1.outcome = .ok ⟨text, some records⟩) :
    List.Forall₂ (RunsAs h.executor)
      (listedCalls (h.followUpRequest i (h.firstCalls i (h.listed i w) (h.toolsIn i w)) records))
      records := by
  have hcalls := h.wellFormed_firstCalls hmode i (h.listed i w) (h.toolsIn i w)
  obtain ⟨-, hrecords⟩ := h.recorded_records i w ho
  rw [listedCalls_followUpRequest, List.forall₂_map_left_iff]
  have hboth := (List.forall₂_and_left _ _).mpr ⟨hcalls, hrecords records rfl⟩
  exact hboth.imp fun c r hr => hr.2.runsAs hr.1

end turns

/-- **Every call can be made as it is written.** The calls of a stream that is read to its end, of a
whole response and of a simulated completion have a trimmed name, an id, and the arguments that
their text means. Arguments that a response gives as an object, whose text stands for them, are run
as that object if its numbers read back. So the calls of a turn, whose completions are simulated or
come from an endpoint, are well formed, and what it runs is what its follow-up lists. -/
theorem calls_well_formed {σ : Type} (h : Handler σ) (i : Input) (w : World σ) :
    (∀ pieces readError a chunks, accumulate (streamItems pieces readError) = (.ok a, chunks) →
      ∀ d, ∀ c ∈ (completeCalls a.drafts d).1, c.WellFormed) ∧
    (∀ body m, readResponse body = .ok m → ∀ d, ∀ c ∈ (m.complete d).1.calls, c.WellFormed) ∧
    (∀ message offered d, ∀ c ∈ (simulatedReply message offered d).1.2, c.WellFormed) ∧
    (∀ room d o, value room d = .ok (.obj o) → room ≤ maxDepth →
      (∀ n ∈ (Value.obj o).nums, n.ReadsBack) →
      parseArguments (argumentText (some (.obj o))) = o) ∧
    (h.Completes → let calls := h.firstCalls i (h.listed i w) (h.toolsIn i w)
      (∀ c ∈ calls, c.WellFormed) ∧
        ∀ text records, ((h.run i).run w).1.outcome = .ok ⟨text, some records⟩ →
          List.Forall₂ (RunsAs h.executor) (listedCalls (h.followUpRequest i calls records))
              records) :=
  ⟨fun _ _ _ _ ha => wellFormed_completeCalls (wellFormed_accumulated ha),
    fun _ _ hm => wellFormed_completeCalls (wellFormed_response hm),
    fun _ _ _ _ => wellFormed_simulatedReply,
    fun _ _ _ => parseArguments_argumentText,
    fun hmode => ⟨h.wellFormed_firstCalls hmode i _ _, fun _ _ => runsAs_listed hmode i w⟩⟩

end Turn

end ChatRelay
