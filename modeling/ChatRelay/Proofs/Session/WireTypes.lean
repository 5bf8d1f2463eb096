import ChatRelay.Bridge.Message
import ChatRelay.Proofs.Json.RoundTrip
import ChatRelay.Proofs.Session.StoredCalls

/-! # Types that go over the wire

The entries and tools of completion requests, the messages, results, records, states and outcomes of
sessions, and the tools that bridge servers list are all written and read. Each of these types is
written in one form: members in the order of their declaration, under their own names, absent
options left out, a choice as its name. One of the types loses something there, an entry of a
request, since absent content is written as empty. All go round (`wire_types_round_trip`).

For most types there is one argument. What was decoded says for each member what it was decoded
from, and this is written again (`Rewrites.required` and its kin); then the record that is written
is decoded member by member. Results of tools are told apart by their members alone, so they need
more: a text or an error has no member of a report. -/

namespace ChatRelay

open Json

/-! ### Entries of requests -/

namespace Completion

/-- A choice is read from its name. -/
theorem choice_name {α : Type} {ofName? : String → Option α} {name : α → String}
    (hname : ∀ a, ofName? (name a) = some a) (room : Nat) (a : α) :
    choice ofName? room (.str (name a)) = .ok a := by
  simp only [choice, hname]
  rfl

theorem decode_role (room : Nat) (r : Role) : Role.decode room r.doc = .ok r :=
  choice_name (fun r => by cases r <;> rfl) room r

theorem rewrites_role : Rewrites Role.decode Role.doc id :=
  fun room _ r _ _ _ => ⟨trivial, decode_role room r⟩

/-- The document of the function of a descriptor. -/
def CallDescriptor.functionDoc (f : String × String) : Doc :=
  .record [field "name" (.str f.1), field "arguments" (.str f.2)]

theorem rewrites_calledFunction :
    Rewrites CallDescriptor.decodeFunction CallDescriptor.functionDoc id := by
  refine rewrites_record (fun f => isRecord_of_keys ["name", "arguments"] rfl (by decide)) (by simp)
    fun s f _ _ _ => ⟨⟨rfl, trivial, rfl, trivial, trivial⟩, fun t ht => ?_⟩
  have hname : t.required "name" Json.text = .ok f.1 := ht.required_ok "name" (by simp) rfl rfl
  have harguments : t.required "arguments" Json.text = .ok f.2 :=
    ht.required_ok "arguments" (by simp) rfl rfl
  simp only [bind, Except.bind, hname, harguments]
  rfl

theorem rewrites_callDescriptor : Rewrites CallDescriptor.decode CallDescriptor.doc id := by
  refine rewrites_record (fun c => isRecord_of_keys ["id", "type", "function"] rfl (by decide))
    (by simp)
    fun s c hs h hreals => ?_
  obtain ⟨callId, -, h⟩ := bind_eq_ok h
  obtain ⟨kind, -, h⟩ := bind_eq_ok h
  obtain ⟨⟨name, arguments⟩, hfunction, h⟩ := bind_eq_ok h
  cases h
  obtain ⟨hexact, hagain⟩ := rewrites_calledFunction.required hs hfunction (hreals.get "function")
  refine ⟨⟨rfl, trivial, rfl, trivial, rfl, hexact, trivial⟩, fun t ht => ?_⟩
  have hid : t.required "id" Json.text = .ok callId := ht.required_ok "id" (by simp) rfl rfl
  have hkind : t.required "type" Json.text = .ok kind := ht.required_ok "type" (by simp) rfl rfl
  have hfunction : t.required "function" CallDescriptor.decodeFunction = .ok (name, arguments) :=
    ht.required_ok "function" (by simp) rfl hagain
  simp only [bind, Except.bind, hid, hkind, hfunction]
  rfl

/-- The entry with its content as it is written: an absent one is empty. -/
def ChatMessage.written (m : ChatMessage) : ChatMessage :=
  { m with content := some (m.content.getD "") }

theorem isRecord_chatMessage (m : ChatMessage) : m.doc.IsRecord := by
  obtain ⟨role, content, _ | callId, _ | calls⟩ := m
  · exact isRecord_of_keys ["role", "content"] rfl (by decide)
  · exact isRecord_of_keys ["role", "content", "tool_calls"] rfl (by decide)
  · exact isRecord_of_keys ["role", "content", "tool_call_id"] rfl (by decide)
  · exact isRecord_of_keys ["role", "content", "tool_call_id", "tool_calls"] rfl (by decide)

theorem get_toolCallId (m : ChatMessage) :
    m.doc.get "tool_call_id" = (m.toolCallId.map Doc.str).getD .null := by
  obtain ⟨role, content, _ | callId, _ | calls⟩ := m <;> rfl

theorem get_toolCalls (m : ChatMessage) :
    m.doc.get "tool_calls" = (m.toolCalls.map fun cs =>
      Doc.arr (cs.map CallDescriptor.doc)).getD .null := by
  obtain ⟨role, content, _ | callId, _ | calls⟩ := m <;> rfl

theorem rewrites_chatMessage : Rewrites ChatMessage.decode ChatMessage.doc ChatMessage.written := by
  refine rewrites_record isRecord_chatMessage (by simp) fun s m hs h hreals => ?_
  obtain ⟨role, -, h⟩ := bind_eq_ok h
  obtain ⟨content, -, h⟩ := bind_eq_ok h
  obtain ⟨callId, hcallId, h⟩ := bind_eq_ok h
  obtain ⟨calls, hcalls, h⟩ := bind_eq_ok h
  cases h
  have hidReals := hreals.get "tool_call_id"
  have hcallsReals := hreals.get "tool_calls"
  rw [get_toolCallId] at hidReals
  rw [get_toolCalls] at hcallsReals
  obtain ⟨hidExact, hidAgain⟩ :=
    rewrites_text.optional (fun s hnull => by cases hnull) hs hcallId hidReals
  obtain ⟨hcallsExact, hcallsAgain⟩ :=
    (rewrites_list rewrites_callDescriptor).optional
      (fun cs hnull => by cases hnull) hs hcalls hcallsReals
  refine ⟨?_, fun t ht => ?_⟩
  · rw [ChatMessage.doc, exact_record]
    simp only [List.forall_mem_cons, membersExact_field, membersExact_optionalField]
    exact ⟨trivial, trivial, hidExact, hcallsExact, by simp⟩
  have hrole : t.required "role" Role.decode = .ok role :=
    ht.required_ok "role" (by simp) rfl (decode_role _ role)
  have hcontent : t.optional "content" Json.text = .ok (some (content.getD "")) :=
    (ht.optional "content" (by simp) Json.text).trans rfl
  have hcallId : t.optional "tool_call_id" Json.text = .ok callId := by
    rw [ht.optional "tool_call_id" (by simp), get_toolCallId]
    exact hidAgain
  have hcalls : t.optional "tool_calls" (list CallDescriptor.decode) = .ok calls := by
    rw [ht.optional "tool_calls" (by simp), get_toolCalls]
    exact hcallsAgain
  simp only [bind, Except.bind, hrole, hcontent, hcallId, hcalls]
  rfl

/-! ### Tools of requests -/

/-- The document of the function of a tool. -/
def ToolDefinition.functionDoc (f : String × String × Value) : Doc :=
  .record [field "name" (.str f.1), field "description" (.str f.2.1), field "parameters" f.2.2.doc]

theorem rewrites_offeredFunction :
    Rewrites ToolDefinition.decodeFunction ToolDefinition.functionDoc id := by
  refine rewrites_record (fun f =>
    isRecord_of_keys ["name", "description", "parameters"] rfl (by decide))
    (by simp) fun s f hs h hreals => ?_
  obtain ⟨name, -, h⟩ := bind_eq_ok h
  obtain ⟨description, -, h⟩ := bind_eq_ok h
  obtain ⟨parameters, hparameters, h⟩ := bind_eq_ok h
  cases h
  obtain ⟨hexact, hagain⟩ := rewrites_value.required hs hparameters (hreals.get "parameters")
  refine ⟨⟨rfl, trivial, rfl, trivial, rfl, hexact, trivial⟩, fun t ht => ?_⟩
  have hname : t.required "name" Json.text = .ok name := ht.required_ok "name" (by simp) rfl rfl
  have hdescription : t.required "description" Json.text = .ok description :=
    ht.required_ok "description" (by simp) rfl rfl
  have hparameters : t.required "parameters" value = .ok parameters :=
    ht.required_ok "parameters" (by simp) rfl hagain
  simp only [bind, Except.bind, hname, hdescription, hparameters]
  rfl

theorem rewrites_toolDefinition : Rewrites ToolDefinition.decode ToolDefinition.doc id := by
  refine rewrites_record (fun t => isRecord_of_keys ["type", "function"] rfl (by decide)) (by simp)
    fun s f hs h hreals => ?_
  obtain ⟨kind, -, h⟩ := bind_eq_ok h
  obtain ⟨⟨name, description, parameters⟩, hfunction, h⟩ := bind_eq_ok h
  cases h
  obtain ⟨hexact, hagain⟩ := rewrites_offeredFunction.required hs hfunction (hreals.get "function")
  refine ⟨⟨rfl, trivial, rfl, hexact, trivial⟩, fun t ht => ?_⟩
  have hkind : t.required "type" Json.text = .ok kind := ht.required_ok "type" (by simp) rfl rfl
  have hfunction : t.required "function" ToolDefinition.decodeFunction =
      .ok (name, description, parameters) :=
    ht.required_ok "function" (by simp) rfl hagain
  simp only [bind, Except.bind, hkind, hfunction]
  rfl

end Completion

/-! ### Tools of servers -/

namespace Bridge

theorem rewrites_listedTool : Rewrites ListedTool.decode ListedTool.doc id := by
  refine rewrites_record (fun t =>
    isRecord_of_keys ["name", "description", "input_schema"] rfl (by decide))
    (fun t => by simp [ListedTool.doc, Doc.record, field, Doc.member?]) fun s t hs h hreals => ?_
  obtain ⟨name, -, h⟩ := bind_eq_ok h
  obtain ⟨description, -, h⟩ := bind_eq_ok h
  obtain ⟨schema, hschema, h⟩ := bind_eq_ok h
  cases h
  have hnull : Rewritten value s.room Value.null.doc .null :=
    fun _ => ⟨trivial, by cases s.room <;> rfl⟩
  obtain ⟨hexact, hagain⟩ := rewrites_value.defaulted hs hnull hschema (hreals.get "input_schema")
  refine ⟨⟨rfl, trivial, rfl, trivial, rfl, hexact, trivial⟩, fun u hu => ?_⟩
  have hname : u.required "name" Json.text = .ok name := hu.required_ok "name" (by simp) rfl rfl
  have hdescription : u.defaulted "description" "" Json.text = .ok description :=
    hu.defaulted_ok "description" (by simp) rfl rfl
  have hschema : u.defaulted "input_schema" .null value = .ok schema :=
    hu.defaulted_ok "input_schema" (by simp) rfl hagain
  simp only [bind, Except.bind, hname, hdescription, hschema]
  rfl

end Bridge

/-! ### Results and records -/

namespace Tools

/-- The numbers of a report that was read are in range. -/
theorem fits_of_decode_weather {room : Nat} {d : Doc} {w : WeatherReport}
    (h : WeatherReport.decode room d = .ok w) : (ToolResult.weather w).Fits := by
  obtain ⟨s, -, h⟩ := bind_eq_ok h
  obtain ⟨location, -, h⟩ := bind_eq_ok h
  obtain ⟨temperature, htemperature, h⟩ := bind_eq_ok h
  obtain ⟨condition, -, h⟩ := bind_eq_ok h
  obtain ⟨humidity, hhumidity, h⟩ := bind_eq_ok h
  cases h
  obtain ⟨d, -, htemperature⟩ := lookup_of_required htemperature
  obtain ⟨e, -, hhumidity⟩ := lookup_of_required hhumidity
  obtain ⟨-, hlow, hhigh⟩ := integer_eq_ok_iff.mp htemperature
  have hpow : Nat.pow 2 (32 - 1) = 2 ^ 31 := rfl
  have hbelow : temperature < 2 ^ 31 := by omega
  exact ⟨hlow, hbelow, lt_of_natural hhumidity⟩

/-- A result that was read is in range, and took at least one level. -/
theorem fits_of_decode {room : Nat} {d : Doc} {r : ToolResult}
    (h : ToolResult.decode room d = .ok r) : r.Fits ∧ ∃ n, room = n + 1 := by
  unfold ToolResult.decode at h
  split at h
  · cases h
  split at h
  · next w hreport =>
    cases h
    obtain ⟨s, hs, -⟩ := bind_eq_ok hreport
    exact ⟨fits_of_decode_weather hreport, s.room, (walk_of_record hs).1⟩
  split at h
  · next t hcontent =>
    cases h
    obtain ⟨s, hs, -⟩ := bind_eq_ok hcontent
    exact ⟨trivial, s.room, (walk_of_record hs).1⟩
  split at h
  · next t herror =>
    cases h
    obtain ⟨s, hs, -⟩ := bind_eq_ok herror
    exact ⟨trivial, s.room, (walk_of_record hs).1⟩
  · cases h

theorem rewrites_toolResult : Rewrites ToolResult.decode ToolResult.doc id := by
  intro room d r _ h _
  obtain ⟨hfits, n, rfl⟩ := fits_of_decode h
  exact ⟨exact_of_isPlain _ (ToolResult.isPlain_doc hfits), ToolResult.decode_doc hfits n⟩

theorem rewrites_toolCallRecord : Rewrites ToolCallRecord.decode ToolCallRecord.doc id := by
  refine rewrites_record (fun r => r.isRecord_doc) (by simp) fun s r hs h hreals => ?_
  obtain ⟨callId, -, h⟩ := bind_eq_ok h
  obtain ⟨name, -, h⟩ := bind_eq_ok h
  obtain ⟨arguments, harguments, h⟩ := bind_eq_ok h
  obtain ⟨result, hresult, h⟩ := bind_eq_ok h
  cases h
  obtain ⟨hargumentsExact, hargumentsAgain⟩ :=
    rewrites_object.required hs harguments (hreals.get "arguments")
  obtain ⟨hresultExact, hresultAgain⟩ :=
    rewrites_toolResult.required hs hresult (hreals.get "result")
  refine ⟨⟨rfl, trivial, rfl, trivial, rfl, hargumentsExact, rfl, hresultExact, trivial⟩,
    fun t ht => ?_⟩
  have hid : t.required "id" Json.text = .ok callId := ht.required_ok "id" (by simp) rfl rfl
  have hname : t.required "name" Json.text = .ok name := ht.required_ok "name" (by simp) rfl rfl
  have harguments : t.required "arguments" object = .ok arguments :=
    ht.required_ok "arguments" (by simp) rfl hargumentsAgain
  have hresult : t.required "result" ToolResult.decode = .ok result :=
    ht.required_ok "result" (by simp) rfl hresultAgain
  simp only [bind, Except.bind, hid, hname, harguments, hresult]
  rfl

theorem rewrites_records : Rewrites (list ToolCallRecord.decode) recordsDoc id :=
  rewrites_list rewrites_toolCallRecord

end Tools

/-! ### Sessions -/

namespace Session

open Tools

theorem decode_speaker (room : Nat) (p : Speaker) : Speaker.decode room (.str p.name) = .ok p :=
  Completion.choice_name (fun p => by cases p <;> rfl) room p

theorem isRecord_message (m : Message) : m.doc.IsRecord := by
  obtain ⟨id, speaker, content, time, _ | calls⟩ := m
  · exact isRecord_of_keys ["id", "role", "content", "timestamp"] rfl (by decide)
  · exact isRecord_of_keys ["id", "role", "content", "timestamp", "toolCalls"] rfl (by decide)

theorem Message.get_toolCalls (m : Message) :
    m.doc.get "toolCalls" = (m.toolCalls.map recordsDoc).getD .null := by
  obtain ⟨id, speaker, content, time, _ | calls⟩ := m <;> rfl

theorem rewrites_message : Rewrites Message.decode Message.doc id := by
  refine rewrites_record isRecord_message (by simp) fun s m hs h hreals => ?_
  obtain ⟨messageId, -, h⟩ := bind_eq_ok h
  obtain ⟨speaker, -, h⟩ := bind_eq_ok h
  obtain ⟨content, -, h⟩ := bind_eq_ok h
  obtain ⟨time, htime, h⟩ := bind_eq_ok h
  obtain ⟨calls, hcalls, h⟩ := bind_eq_ok h
  cases h
  have hcallsReals := hreals.get "toolCalls"
  rw [Message.get_toolCalls] at hcallsReals
  obtain ⟨htimeExact, htimeAgain⟩ :=
    (rewrites_signed (Nat.le_refl 64)).required hs htime (hreals.get "timestamp")
  obtain ⟨hcallsExact, hcallsAgain⟩ :=
    rewrites_records.nullable (fun cs hnull => by cases hnull) hs hcalls hcallsReals
  refine ⟨?_, fun t ht => ?_⟩
  · rw [Message.doc, exact_record]
    simp only [List.forall_mem_cons, membersExact_field, membersExact_optionalField]
    exact ⟨trivial, trivial, trivial, htimeExact, hcallsExact, by simp⟩
  have hid : t.required "id" Json.text = .ok messageId := ht.required_ok "id" (by simp) rfl rfl
  have hspeaker : t.required "role" Speaker.decode = .ok speaker :=
    ht.required_ok "role" (by simp) rfl (decode_speaker _ speaker)
  have hcontent : t.required "content" Json.text = .ok content :=
    ht.required_ok "content" (by simp) rfl rfl
  have htime : t.required "timestamp" (signed 64) = .ok time :=
    ht.required_ok "timestamp" (by simp) rfl htimeAgain
  have hcalls : t.defaulted "toolCalls" none (nullable (list ToolCallRecord.decode)) =
      .ok calls := by
    rw [ht.nullable "toolCalls" (by simp), Message.get_toolCalls]
    exact hcallsAgain
  simp only [bind, Except.bind, hid, hspeaker, hcontent, htime, hcalls]
  rfl

theorem rewrites_sessionState : Rewrites SessionState.decode SessionState.doc id := by
  refine rewrites_record (fun s =>
    isRecord_of_keys ["sessionId", "messages", "isProcessing", "streamingMessage", "model",
      "systemPrompt", "enabledTools"] rfl (by decide)) (by simp) fun s state hs h hreals => ?_
  obtain ⟨sessionId, -, h⟩ := bind_eq_ok h
  obtain ⟨messages, hmessages, h⟩ := bind_eq_ok h
  obtain ⟨isProcessing, -, h⟩ := bind_eq_ok h
  obtain ⟨streamed, -, h⟩ := bind_eq_ok h
  obtain ⟨model, -, h⟩ := bind_eq_ok h
  obtain ⟨prompt, -, h⟩ := bind_eq_ok h
  obtain ⟨tools, htools, h⟩ := bind_eq_ok h
  cases h
  obtain ⟨hmessagesExact, hmessagesAgain⟩ :=
    (rewrites_list rewrites_message).required hs hmessages (hreals.get "messages")
  obtain ⟨htoolsExact, htoolsAgain⟩ :=
    (rewrites_list rewrites_text).required hs htools (hreals.get "enabledTools")
  refine ⟨⟨rfl, trivial, rfl, hmessagesExact, rfl, trivial, rfl, trivial, rfl, trivial, rfl,
    trivial, rfl, htoolsExact, trivial⟩, fun t ht => ?_⟩
  have hid : t.required "sessionId" Json.text = .ok sessionId :=
    ht.required_ok "sessionId" (by simp) rfl rfl
  have hmessages : t.required "messages" (list Message.decode) = .ok messages :=
    ht.required_ok "messages" (by simp) rfl hmessagesAgain
  have hflag : t.required "isProcessing" boolean = .ok isProcessing :=
    ht.required_ok "isProcessing" (by simp) rfl rfl
  have hstreamed : t.required "streamingMessage" Json.text = .ok streamed :=
    ht.required_ok "streamingMessage" (by simp) rfl rfl
  have hmodel : t.required "model" Json.text = .ok model := ht.required_ok "model" (by simp) rfl rfl
  have hprompt : t.required "systemPrompt" Json.text = .ok prompt :=
    ht.required_ok "systemPrompt" (by simp) rfl rfl
  have htools : t.required "enabledTools" (list Json.text) = .ok tools :=
    ht.required_ok "enabledTools" (by simp) rfl htoolsAgain
  simp only [bind, Except.bind, hid, hmessages, hflag, hstreamed, hmodel, hprompt, htools]
  rfl

theorem isRecord_outcome (o : TurnOutcome) : o.doc.IsRecord := by
  obtain ⟨content, _ | calls⟩ := o
  · exact isRecord_of_keys ["content"] rfl (by decide)
  · exact isRecord_of_keys ["content", "toolCalls"] rfl (by decide)

theorem TurnOutcome.get_toolCalls (o : TurnOutcome) :
    o.doc.get "toolCalls" = (o.toolCalls.map recordsDoc).getD .null := by
  obtain ⟨content, _ | calls⟩ := o <;> rfl

theorem rewrites_turnOutcome : Rewrites TurnOutcome.decode TurnOutcome.doc id := by
  refine rewrites_record isRecord_outcome (by simp) fun s o hs h hreals => ?_
  obtain ⟨content, -, h⟩ := bind_eq_ok h
  obtain ⟨calls, hcalls, h⟩ := bind_eq_ok h
  cases h
  have hcallsReals := hreals.get "toolCalls"
  rw [TurnOutcome.get_toolCalls] at hcallsReals
  obtain ⟨hcallsExact, hcallsAgain⟩ :=
    rewrites_records.nullable (fun cs hnull => by cases hnull) hs hcalls hcallsReals
  refine ⟨?_, fun t ht => ?_⟩
  · rw [TurnOutcome.doc, exact_record]
    simp only [List.forall_mem_cons, membersExact_field, membersExact_optionalField]
    exact ⟨trivial, hcallsExact, by simp⟩
  have hcontent : t.required "content" Json.text = .ok content :=
    ht.required_ok "content" (by simp) rfl rfl
  have hcalls : t.defaulted "toolCalls" none (nullable (list ToolCallRecord.decode)) =
      .ok calls := by
    rw [ht.nullable "toolCalls" (by simp), TurnOutcome.get_toolCalls]
    exact hcallsAgain
  simp only [bind, Except.bind, hcontent, hcalls]
  rfl

/-! ### All types -/

open Completion Bridge

/-- **What goes over the wire can be read, written and read again.** For every text of each type the
text that is written for its value decodes to the value again, for an entry of a request with the
empty content in place of an absent one, and what is decoded is written as the same text, if the
doubles in the value read back. -/
theorem wire_types_round_trip :
    RoundTrips Role.decode Role.doc id ∧
      RoundTrips ChatMessage.decode ChatMessage.doc ChatMessage.written ∧
      RoundTrips ToolDefinition.decode ToolDefinition.doc id ∧
      RoundTrips Message.decode Message.doc id ∧
      RoundTrips ToolResult.decode ToolResult.doc id ∧
      RoundTrips ToolCallRecord.decode ToolCallRecord.doc id ∧
      RoundTrips SessionState.decode SessionState.doc id ∧
      RoundTrips TurnOutcome.decode TurnOutcome.doc id ∧
      RoundTrips ListedTool.decode ListedTool.doc id :=
  ⟨rewrites_role.roundTrips fun _ => rfl, rewrites_chatMessage.roundTrips fun _ => rfl,
    rewrites_toolDefinition.roundTrips fun _ => rfl, rewrites_message.roundTrips fun _ => rfl,
    rewrites_toolResult.roundTrips fun _ => rfl, rewrites_toolCallRecord.roundTrips fun _ => rfl,
    rewrites_sessionState.roundTrips fun _ => rfl, rewrites_turnOutcome.roundTrips fun _ => rfl,
    rewrites_listedTool.roundTrips fun _ => rfl⟩

/-- A tool with its schema under the other name, an unknown member, an escape, and a key that is
given twice. -/
def looseTool : String :=
  "\x7b\"inputSchema\":[1.5,\x7b\"b\":1,\"a\":null,\"b\":2\x7d],\"x\":[],\"name\":\"\\u0041\"\x7d"

/-- The same tool as it is written. -/
def strictTool : String :=
  "\x7b\"name\":\"A\",\"description\":\"\",\"input_schema\":[1.5,\x7b\"a\":null,\"b\":2\x7d]\x7d"

theorem wire_types_round_trip_looseTexts :
    let entry : ChatMessage := ⟨.user, none, none, none⟩
    (∃ tool, decodeText ListedTool.decode looseTool = .ok tool ∧ tool.doc.text = strictTool ∧
      decodeText ListedTool.decode strictTool = .ok tool) ∧
    decodeText ChatMessage.decode "[\"user\",null,null,null]" = .ok entry ∧
      decodeText ChatMessage.decode entry.doc.text = .ok { entry with content := some "" } := by
  intro entry
  obtain ⟨-, hentry, -, -, -, -, -, -, htool⟩ := wire_types_round_trip
  have hread : (decodeText ListedTool.decode looseTool).toOption.map (fun t =>
    (t.doc.text, t.doc.nums)) =
      some (strictTool, [.real ⟨0x3FF8000000000000⟩, .int 2]) := by decide +kernel
  have hentryRead : decodeText ChatMessage.decode "[\"user\",null,null,null]" = .ok entry := rfl
  have hnone : entry.doc.RealsReadBack := fun x hx => by cases hx
  refine ⟨?_, hentryRead, (hentry _ entry hentryRead hnone).1⟩
  cases htext : decodeText ListedTool.decode looseTool with
  | error e =>
    rw [htext] at hread
    cases hread
  | ok tool =>
    rw [htext] at hread
    obtain ⟨hwritten, hnums⟩ := Prod.mk.inj (Option.some.inj hread)
    have hreals : tool.doc.RealsReadBack := by
      intro x hx
      rw [hnums] at hx
      obtain rfl : x = ⟨0x3FF8000000000000⟩ := by simpa using hx
      decide +kernel
    exact ⟨tool, rfl, hwritten, hwritten ▸ (htool _ tool htext hreals).1⟩

end Session

end ChatRelay
