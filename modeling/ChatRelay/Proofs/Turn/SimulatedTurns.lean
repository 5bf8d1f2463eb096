import ChatRelay.Bridge.Client
import ChatRelay.Proofs.Startup.Credentials
import ChatRelay.Proofs.Turn.RequestContext
import ChatRelay.Proofs.Turn.WellFormedCalls

/-! # Turns without an endpoint

A relay without an endpoint and without a search key still answers. The message picks at most one of
the offered tools, the reply announces a call of it, and the follow-up retells what came of it. For
this to work, the arguments that are announced have to be ones that the tool takes: the place of a
weather report and the text of a search are trimmed before they are sent, and trimmed again where
they are read (`placeOf_trimmed`). So no such call ends in an error (`Serves`), and the turn comes
to the same whether it is streamed or not, but for the fresh values in it (`OutcomesAlike`). -/

namespace ChatRelay

/-! ### Bridges -/

namespace Bridge

/-- The bridges of a relay: one without servers, or a client of some. -/
inductive ToolBridge.OfRelay : {σ : Type} → ToolBridge σ → Prop
  | none {σ : Type} : OfRelay (ToolBridge.none : ToolBridge σ)
  | client {σ : Type} (servers : Servers σ) : OfRelay (Client.bridge servers)

/-- A client passes over servers that fail, so there is always a listing. -/
theorem ToolBridge.OfRelay.lists {σ : Type} {b : ToolBridge σ} (hb : b.OfRelay) (s : σ) :
    ∃ tools, (b.list s).1 = .ok tools := by
  cases hb with
  | none => exact ⟨_, rfl⟩
  | client servers => exact ⟨_, rfl⟩

end Bridge

namespace Turn

open Completion Json Session Tools Text

/-! ### Places -/

/-- The place that a weather report is asked for. -/
def placeOf (message : String) : String := (placeIn? message).getD anywhere

theorem placeIn?_trimmed {message place : String} (h : placeIn? message = some place) :
    place ≠ "" ∧ trim place = place := by
  unfold placeIn? at h
  split at h
  next => cases h
  next cs =>
    simp only at h
    split at h
    next => cases h
    next hfull =>
      cases h
      refine ⟨fun hempty => hfull ?_, ?_⟩
      · have hnil := congrArg String.toList hempty
        rw [String.toList_ofList] at hnil
        rw [hnil]
        rfl
      · unfold trim
        rw [String.toList_ofList, trimChars_trimChars]

theorem placeOf_trimmed (message : String) :
    placeOf message ≠ "" ∧ trim (placeOf message) = placeOf message := by
  unfold placeOf
  cases hplace : placeIn? message with
  | none => decide +kernel
  | some place => exact placeIn?_trimmed hplace

theorem not_isBlankText_placeOf (message : String) : isBlankText (placeOf message) = false := by
  obtain ⟨hne, htrim⟩ := placeOf_trimmed message
  rw [← isEmpty_trim, htrim, ← Bool.not_eq_true, String.isEmpty_iff]
  exact hne

/-! ### What tools answer -/

/-- The receipt of a statement, with its hash. -/
def receipt (query : String) (hash : Nat) : String :=
  s!"Structured store synchronized. Query processed: {query}. " ++
    s!"Transaction hash: 0x{String.ofList (Draws.hex 8 hash)}."

/-- The statement of an announced call of the store. -/
def announcedQuery : String := "SELECT * FROM records LIMIT 10"

/-- The result of an announced call: the temperature and the condition of a report and the hash of a
receipt may be any, all else is known from the message and from the tools of the bridge. -/
inductive Serves (message : String) (listed : List ToolDefinition) : Topic → ToolResult → Prop
  | weather {report : WeatherReport} (hlocation : report.location = placeOf message)
      (hhumidity : report.humidity = 50) : Serves message listed .weather (.weather report)
  | search : Serves message listed .search (.content (simulatedSearch
      (Startup.Launched.queryOf (announce message .search).2)))
  | store (hash : Nat) : Serves message listed .store (.content (receipt announcedQuery hash))
  | bridge : Serves message listed .bridge (.content (bridgeListing listed))

theorem Serves.not_isError {message : String} {listed : List ToolDefinition} {t : Topic}
    {r : ToolResult} (hr : Serves message listed t r) : r.isError = false := by
  cases hr <;> rfl

theorem textArgument?_of_trimmed {arguments : Json.Object} {key s : String}
    (harg : arguments.find? key = some (.str s)) (hs : s ≠ "" ∧ trim s = s) :
    textArgument? arguments key = some s := by
  have hfull : (trim s).isEmpty = false := by
    rw [hs.2, ← Bool.not_eq_true, String.isEmpty_iff]
    exact hs.1
  unfold textArgument?
  rw [harg, Option.bind_some, Value.str?, Option.bind_some]
  dsimp only
  rw [hfull, if_neg Bool.false_ne_true, hs.2]

section execute

variable {σ : Type} {arguments : Json.Object} (u : World σ)

theorem execute_weather {x : Executor σ} {place : String}
    (hplace : textArgument? arguments "location" = some place) :
    ((x.execute weatherTool arguments).run u).1 = .weather (fabricateWeather place u.draws).1 := by
  have hrun : ((x.execute weatherTool arguments).run u).1 =
      .weather (fabricateWeather ((textArgument? arguments "location").getD "Global") u.draws).1 :=
        rfl
  rw [hrun, hplace, Option.getD_some]

theorem execute_store {x : Executor σ} {query : String}
    (hquery : textArgument? arguments "query" = some query) :
    ((x.execute storeTool arguments).run u).1 = .content (receipt query u.draws.next.1) := by
  have hrun : ((Executor.queryStore arguments : Act σ _).run u).1 =
      .ok (receipt query u.draws.next.1) := by
    unfold Executor.queryStore
    rw [hquery]
    rfl
  unfold Executor.execute
  rw [if_neg (by decide), if_neg (by decide), if_pos rfl]
  exact congrArg Executor.toResult hrun

theorem execute_bridge {x : Executor σ} (haction : textArgument? arguments "action" = some "list")
    {listed : List ToolDefinition} (hlist : (x.bridge.list u.outside).1 = .ok listed) :
    ((x.execute bridgeTool arguments).run u).1 = .content (bridgeListing listed) := by
  have hrun : ((x.bridgeStatus arguments).run u).1 = .ok (bridgeListing listed) := by
    have hsmall : asciiLower "list" = "list" := by decide +kernel
    unfold Executor.bridgeStatus
    rw [haction]
    simp only [hsmall, if_true]
    rw [Act.run_bind, Act.run_ask, hlist]
    rfl
  unfold Executor.execute
  rw [if_neg (by decide), if_neg (by decide), if_neg (by decide), if_pos rfl]
  exact congrArg Executor.toResult hrun

end execute

/-- **An announced call is served**: its tool takes the arguments, if searches have no key and the
bridge lists its tools. -/
theorem serves_execute {σ : Type} {x : Executor σ} (hkey : x.searchKey = none) {u : World σ}
    {listed : List ToolDefinition} (hlist : (x.bridge.list u.outside).1 = .ok listed)
    (message : String) (t : Topic) :
    Serves message listed t ((x.execute t.tool (announce message t).2).run u).1 := by
  cases t with
  | weather =>
    have hplace : textArgument? (announce message .weather).2 "location" = some (placeOf message) :=
      textArgument?_of_trimmed rfl (placeOf_trimmed message)
    rw [Topic.tool, execute_weather _ hplace]
    exact .weather rfl rfl
  | search =>
    have hnone : textArgument? (announce message .search).2 "url" = none := rfl
    have hrun := Startup.Launched.search_keyless hnone hkey u
    rw [Topic.tool, hrun]
    exact .search
  | store =>
    have hquery : textArgument? (announce message .store).2 "query" = some announcedQuery :=
      textArgument?_of_trimmed rfl (by decide +kernel)
    rw [Topic.tool, execute_store _ hquery]
    exact .store _
  | bridge =>
    have haction : textArgument? (announce message .bridge).2 "action" = some "list" :=
      textArgument?_of_trimmed rfl (by decide +kernel)
    rw [Topic.tool, execute_bridge _ haction hlist]
    exact .bridge

/-! ### Likeness -/

/-- Results that differ at most in the temperature and the condition of a report, or in the hash of
a receipt. -/
inductive ResultsAlike : ToolResult → ToolResult → Prop
  | same (r : ToolResult) : ResultsAlike r r
  | weather {p q : WeatherReport} (hlocation : p.location = q.location)
      (hhumidity : p.humidity = q.humidity) :
      ResultsAlike (.weather p) (.weather q)
  | receipt (query : String) (m n : Nat) :
      ResultsAlike (.content (receipt query m)) (.content (receipt query n))

/-- Records of the same call, but for its id, with results that are alike. -/
structure RecordsAlike (r s : ToolCallRecord) : Prop where
  name : r.name = s.name
  arguments : r.arguments = s.arguments
  result : ResultsAlike r.result s.result

/-- Outcomes with the same text and no call, or with one call each, where the calls are alike and
retold. -/
inductive OutcomesAlike : TurnOutcome → TurnOutcome → Prop
  | plain (text : String) : OutcomesAlike ⟨text, none⟩ ⟨text, none⟩
  | called {r s : ToolCallRecord} (hrecords : RecordsAlike r s) :
      OutcomesAlike ⟨retell r, some [r]⟩ ⟨retell s, some [s]⟩

/-- What serves the same call is alike. -/
theorem Serves.alike {message : String} {listed : List ToolDefinition} {t : Topic}
    {r s : ToolResult} (hr : Serves message listed t r) (hs : Serves message listed t s) :
    ResultsAlike r s := by
  cases hr with
  | weather hlocation hhumidity =>
    cases hs with
    | weather hlocation' hhumidity' =>
      exact .weather (hlocation.trans hlocation'.symm) (hhumidity.trans hhumidity'.symm)
  | search =>
    cases hs
    exact .same _
  | store m =>
    cases hs with
    | store n => exact .receipt announcedQuery m n
  | bridge =>
    cases hs
    exact .same _

/-! ### Runs -/

/-- The record of the call that a message announces, in the world that the tools were listed in. -/
def announcedRecord {σ : Type} (x : Executor σ) (message : String) (u : World σ)
    (t : Topic) : ToolCallRecord :=
  ⟨u.draws.callId.1, t.tool, (announce message t).2,
    ((x.execute t.tool (announce message t).2).run { u with draws := u.draws.callId.2 }).1⟩

/-- What a simulated turn can show for its message: a record whose tool is offered and did not fail;
a report is of the place that it was asked for. -/
structure Usable (tools : List ToolDefinition) (r : ToolCallRecord) : Prop where
  offered : Offers tools r.name
  served : r.result.isError = false
  place : r.name = weatherTool → ∃ report, r.result = .weather report ∧
    r.arguments.find? "location" = some (.str report.location) ∧ isBlankText report.location = false

/-- The chunks of a simulated turn: the words of what is announced, an empty line and the words of
the text, or, if nothing is announced, the words of the text. -/
def simulatedChunks (message text : String) : Option Topic → List String
  | none => words text
  | some t => words (announce message t).1 ++ "\n\n" :: words text

theorem announce_ne_empty (message : String) (t : Topic) : (announce message t).1 ≠ "" := by
  cases t with
  | weather =>
    intro hempty
    have hlead : isBlankText (announce message .weather).1 = false := by
      have hstart : isBlankText (toString "Let me check the current weather in ") =
        false := by decide +kernel
      unfold announce
      simp only [isBlankText_append, hstart, Bool.false_and]
    rw [hempty] at hlead
    cases hlead
  | search => exact (by decide : "I'll search the web for that. " ≠ "")
  | store => exact (by decide : "Running that against the structured store. " ≠ "")
  | bridge => exact (by decide : "Checking the MCP bridge. " ≠ "")

section reply

variable {message : String} {tools : List ToolDefinition} (d : Draws)

theorem simulatedReply_of_no_topic (ht : Topic.of? message tools = none) :
    simulatedReply message tools d = ((acknowledgement message, []), d) := by
  unfold simulatedReply
  rw [ht]

theorem simulatedReply_of_topic {t : Topic} (ht : Topic.of? message tools = some t) :
    simulatedReply message tools d = (((announce message t).1,
      [⟨d.callId.1, t.tool, (announce message t).2, (Value.obj (announce message t).2).text⟩]),
        d.callId.2) := by
  unfold simulatedReply
  rw [ht]

end reply

namespace Handler

variable {σ : Type} (h : Handler σ) (i : Input) (w : World σ)

/-- The topic of a simulated turn. -/
def topicIn : Option Topic := Topic.of? i.message (h.toolsIn i w)

/-- The outcome of a simulated turn. -/
def simulatedOutcome : TurnOutcome :=
  match h.topicIn i w with
  | none => ⟨acknowledgement i.message, none⟩
  | some t =>
    let r := announcedRecord h.executor i.message (h.listed i w) t
    ⟨retell r, some [r]⟩

theorem followUp_simulated (hmode : h.mode = .simulated) (calls : List ToolCall)
    (records : List ToolCallRecord) :
    h.followUp i calls records = pure (simulatedFollowUp records) := by
  unfold followUp
  rw [hmode]

theorem followUpChunks_simulated (hmode : h.mode = .simulated) {lead : String} (hlead : lead ≠ "")
    (text : String) : h.followUpChunks lead text = "\n\n" :: words text := by
  unfold followUpChunks
  rw [hmode, if_neg (by rwa [String.isEmpty_iff])]
  rfl

/-- **A simulated turn** acknowledges the message, or makes the call that it announces and retells
its result. -/
theorem run_simulated (hmode : h.mode = .simulated) : ((h.run i).run w).1 =
    ⟨.ok (h.simulatedOutcome i w), if i.streamed then
      simulatedChunks i.message (h.simulatedOutcome i w).content (h.topicIn i w) else []⟩ := by
  have hfirst : (h.first i ((h.offered i.enabledTools).run w).1).run
      ((h.offered i.enabledTools).run w).2 = _ :=
    h.first_simulated i (h.listed i w) hmode (h.toolsIn i w)
  unfold run simulatedOutcome topicIn
  rw [Act.run_bind, Act.run_bind, hfirst]
  cases ht : Topic.of? i.message (h.toolsIn i w) with
  | none =>
    rw [simulatedReply_of_no_topic _ ht]
    simp only [List.isEmpty_nil, if_true, orElse, not_isBlankText_acknowledgement,
      Bool.false_eq_true, if_false]
    rfl
  | some t =>
    rw [simulatedReply_of_topic _ ht]
    simp only [List.isEmpty_cons, Bool.false_eq_true, if_false]
    rw [Act.run_bind, Act.run_bind, h.followUp_simulated i hmode]
    cases i.streamed with
    | false => rfl
    | true =>
      simp only [if_true, h.followUpChunks_simulated hmode (announce_ne_empty i.message t)]
      rfl

/-- A simulated turn does not look at whether it is streamed. -/
theorem simulatedOutcome_streamed (b : Bool) :
    h.simulatedOutcome { i with streamed := b } w = h.simulatedOutcome i w := rfl

theorem simulatedOutcome_of_topic {t : Topic} (ht : h.topicIn i w = some t) :
    let r := announcedRecord h.executor i.message (h.listed i w) t
    h.simulatedOutcome i w = ⟨retell r, some [r]⟩ := by
  unfold simulatedOutcome
  rw [ht]

theorem simulatedOutcome_of_no_topic (ht : h.topicIn i w = none) :
    h.simulatedOutcome i w = ⟨acknowledgement i.message, none⟩ := by
  unfold simulatedOutcome
  rw [ht]

theorem serves_announcedRecord (hkey : h.executor.searchKey = none) {listed : List ToolDefinition}
    (hlist : (h.executor.bridge.list (h.listed i w).outside).1 = .ok listed) (t : Topic) :
    Serves i.message listed t (announcedRecord h.executor i.message (h.listed i w) t).result :=
  serves_execute (u := { h.listed i w with draws := (h.listed i w).draws.callId.2 })
    hkey hlist i.message t

/-- The topic of a turn is offered. -/
theorem offers_topicIn {t : Topic} (ht : h.topicIn i w = some t) :
    Offers (h.toolsIn i w) t.tool := by
  have hpicked := List.find?_some ht
  rw [Bool.and_eq_true] at hpicked
  obtain ⟨u, hu, hname⟩ := List.any_eq_true.mp hpicked.1
  exact ⟨u, hu, by simpa using hname⟩

/-- Of the world only the parties outside matter for the topic. -/
theorem topicIn_of_outside {v : World σ} (hv : v.outside = w.outside) :
    h.topicIn i v = h.topicIn i w := by
  unfold topicIn
  rw [toolsIn_eq, toolsIn_eq, catalogIn, catalogIn, hv]

/-- **Simulated outcomes in the same surroundings are alike.** -/
theorem simulatedOutcome_alike (hkey : h.executor.searchKey = none)
    (hbridge : h.executor.bridge.OfRelay) {v : World σ} (hv : v.outside = w.outside) :
    OutcomesAlike (h.simulatedOutcome i w) (h.simulatedOutcome i v) := by
  have htopic := h.topicIn_of_outside i w hv
  have hsame : (h.listed i v).outside = (h.listed i w).outside := by
    rw [listed_eq, listed_eq, hv]
  obtain ⟨listed, hlist⟩ := hbridge.lists (h.listed i w).outside
  unfold simulatedOutcome
  rw [htopic]
  cases h.topicIn i w with
  | none => exact .plain _
  | some t =>
    have hserves := h.serves_announcedRecord i w hkey hlist t
    rw [← hsame] at hlist
    exact .called ⟨rfl, rfl, hserves.alike (h.serves_announcedRecord i v hkey hlist t)⟩

theorem usable_announcedRecord (hkey : h.executor.searchKey = none)
    (hbridge : h.executor.bridge.OfRelay) {t : Topic} (ht : h.topicIn i w = some t) :
    Usable (h.toolsIn i w) (announcedRecord h.executor i.message (h.listed i w) t) := by
  obtain ⟨listed, hlist⟩ := hbridge.lists (h.listed i w).outside
  have hserves := h.serves_announcedRecord i w hkey hlist t
  refine ⟨h.offers_topicIn i w ht, hserves.not_isError, fun hweather => ?_⟩
  generalize hresult :
    (announcedRecord h.executor i.message (h.listed i w) t).result = result at hserves
  cases hserves with
  | @weather report hlocation =>
    refine ⟨report, rfl, ?_, ?_⟩
    · rw [hlocation]
      rfl
    · rw [hlocation]
      exact not_isBlankText_placeOf i.message
  | search => exact absurd hweather (by decide : searchTool ≠ weatherTool)
  | store => exact absurd hweather (by decide : storeTool ≠ weatherTool)
  | bridge => exact absurd hweather (by decide : bridgeTool ≠ weatherTool)

end Handler

/-! ### Chunks -/

theorem join_simulatedChunks (message text : String) (topic : Option Topic) :
    String.join (simulatedChunks message text topic) =
      topic.elim "" (fun t => (announce message t).1 ++ "\n\n") ++ text := by
  cases topic with
  | none => exact (join_words text).trans String.empty_append.symm
  | some t =>
    unfold simulatedChunks
    rw [String.join_append, String.join_cons, join_words, join_words, ← String.append_assoc]
    rfl

/-- A streamed simulated turn sends what it announces, an empty line and its text, or the text
alone. -/
theorem Handler.join_chunks_simulated {σ : Type} (h : Handler σ) (i : Input) (w : World σ)
    (hmode : h.mode = .simulated) (hst : i.streamed = true) :
    String.join ((h.run i).run w).1.chunks =
      (h.topicIn i w).elim "" (fun t =>
        (announce i.message t).1 ++ "\n\n") ++ (h.simulatedOutcome i w).content := by
  rw [h.run_simulated i w hmode, hst]
  exact join_simulatedChunks ..

/-- **Turns without an endpoint succeed.** Their text is not blank. They make the call that the
message picks, if it picks one: its tool is offered and does not fail, and a weather report is of
the place that it was asked for. What is sent is the text, after what was announced and an empty
line if there is a call. To leave the stream out changes nothing in the outcome, and in another
world with the same surroundings the outcome is alike. -/
theorem simulated_turn_succeeds {σ : Type} (h : Handler σ) (i : Input) (w : World σ)
    (hmode : h.mode = .simulated) (hkey : h.executor.searchKey = none)
    (hbridge : h.executor.bridge.OfRelay) :
    let run := ((h.run i).run w).1
    ∃ o, run.outcome = .ok o ∧ isBlankText o.content = false ∧
      ((h.topicIn i w = none ∧ o.toolCalls = none ∧
        (i.streamed = true → String.join run.chunks = o.content)) ∨
        ∃ t r, h.topicIn i w = some t ∧ o.toolCalls = some [r] ∧ r.name = t.tool ∧
          Usable (h.toolsIn i w) r ∧
          (i.streamed = true →
            String.join run.chunks = (announce i.message t).1 ++ "\n\n" ++ o.content)) ∧
      ∀ b, ((h.run { i with streamed := b }).run w).1.outcome = .ok o ∧
        ∀ v : World σ, v.outside = w.outside →
          ∃ o', ((h.run { i with streamed := b }).run v).1.outcome = .ok o' ∧
              OutcomesAlike o o' := by
  intro run
  have houtcome (b : Bool) (v : World σ) :
      ((h.run { i with streamed := b }).run v).1.outcome = .ok (h.simulatedOutcome i v) := by
    rw [h.run_simulated _ v hmode, Handler.simulatedOutcome_streamed]
  have hok : run.outcome = .ok (h.simulatedOutcome i w) := houtcome i.streamed w
  have hsent := h.join_chunks_simulated i w hmode
  refine ⟨h.simulatedOutcome i w, hok, h.not_isBlankText_content i w hok, ?_, fun b =>
      ⟨houtcome b w, fun v hv =>
    ⟨_, houtcome b v, h.simulatedOutcome_alike i w hkey hbridge hv⟩⟩⟩
  cases ht : h.topicIn i w with
  | none =>
    refine .inl ⟨rfl, ?_, fun hst => ?_⟩
    · rw [h.simulatedOutcome_of_no_topic i w ht]
    · rw [hsent hst, ht]
      exact String.empty_append
  | some t =>
    refine .inr ⟨t, _, rfl, ?_, rfl, h.usable_announcedRecord i w hkey hbridge ht, fun hst => ?_⟩
    · rw [h.simulatedOutcome_of_topic i w ht]
    · rw [hsent hst, ht]
      rfl

/-- Simulated completions before a bridge with one server, which takes no requests. -/
def mutedBridgeHandler : Handler (Bridge.Client Unit) where
  mode := .simulated
  maxTokens := 100
  executor :=
    { network := ⟨fun _ s => (.error "", s)⟩
      bridge := Bridge.Client.bridge
        { start := fun _ _ s => (.ok (), s)
          write := fun _ _ s => (.error "broken pipe", s)
          stop := fun _ s => ([], s) }
      searchKey := none
      searchEndpoint := "" }

theorem simulated_turn_succeeds_weather :
    let h := mutedBridgeHandler
    let i : Input := { weatherTurn [weatherTool, "kv"] with streamed := true }
    let w : World (Bridge.Client Unit) := ⟨⟨⟨(), 1⟩, [.new "a"], [], 0⟩, ⟨0, 0⟩⟩
    h.mode = .simulated ∧ h.executor.searchKey = none ∧ h.executor.bridge.OfRelay ∧
      ∃ o r report, ((h.run i).run w).1.outcome = .ok o ∧ isBlankText o.content = false ∧
        o.toolCalls = some [r] ∧
        Usable (h.toolsIn i w) r ∧ r.result = .weather report ∧
        r.arguments.find? "location" = some (.str report.location) ∧
        String.join ((h.run i).run w).1.chunks =
          "Let me check the current weather in Paris for you. " ++ "\n\n" ++ o.content ∧
        ((h.run { i with streamed := false }).run w).1.outcome = .ok o := by
  intro h i w
  have hbridge : h.executor.bridge.OfRelay := .client _
  have htopic : h.topicIn i w = some .weather := by decide +kernel
  obtain ⟨o, ho, hfull, hcalls, hsame⟩ := simulated_turn_succeeds h i w rfl rfl hbridge
  obtain ⟨hnone, -⟩ | ⟨t, r, ht, hrecord, hname, husable, hsent⟩ := hcalls
  · rw [htopic] at hnone
    cases hnone
  · rw [htopic] at ht
    cases ht
    obtain ⟨report, hreport, hlocation, -⟩ := husable.place hname
    have hlead : (announce i.message .weather).1 =
        "Let me check the current weather in Paris for you. " := by
      decide +kernel
    rw [hlead] at hsent
    exact ⟨rfl, rfl, hbridge, o, r, report, ho, hfull, hrecord, husable, hreport, hlocation,
      hsent rfl, (hsame false).1⟩

end Turn

end ChatRelay
