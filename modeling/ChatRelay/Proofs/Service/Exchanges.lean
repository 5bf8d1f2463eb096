import ChatRelay.Proofs.Session.RefusedInput
import ChatRelay.Service.Respond

/-! # What a request comes to

A request is answered in one of a few ways (`Exchange`). Either it does not come to a session at
all: its path, its method, the session id in its path or its payload cannot be made sense of, or it
asks about the service. Or it is one operation on a session, or a turn. What holds of all responses
is proved over these cases. -/

namespace ChatRelay.Service

open Json Session Turn

/-! ### Payloads -/

/-- A payload that cannot be read is answered with one status, whatever is wrong with it. -/
theorem readPayload_error {α : Type} {dec : Decoder α} {r : Request} {e : ServiceError}
    (h : readPayload dec r = .error e) : e.status = 400 := by
  unfold readPayload at h
  dsimp only at h
  split at h
  · cases h
    rfl
  split at h
  · cases h
    rfl
  split at h <;> cases h <;> rfl

theorem isTokenChar_eq (c : Char) :
    isTokenChar c = (c.isAlphanum || decide (c ∈ "!#$%&'*+-.^_|~".toList) || c.toNat == 0x60) := by
  unfold isTokenChar
  rw [String.contains_char_eq]

theorem isJsonType_json : isJsonType "application/json" = true := by
  unfold isJsonType
  rw [funext isTokenChar_eq]
  decide +kernel

/-- A payload that says it is JSON, is not too large and decodes is read. -/
theorem readPayload_ok {α : Type} {dec : Decoder α} {r : Request} {p : α}
    (htype : (r.contentType.map isJsonType).getD false = true)
    (hlen : r.payload.length ≤ payloadLimit) (hdec : decodeBytes dec r.payload = .ok p) :
    readPayload dec r = .ok p := by
  unfold readPayload
  simp only [htype, hdec, Bool.not_true, Bool.false_eq_true, if_false, if_neg (Nat.not_lt.mpr hlen)]

/-! ### Exchanges -/

variable {σ : Type}

/-- The request asks an endpoint of a session, with a method that it allows. -/
structure Request.Asks (r : Request) (e : Endpoint) (id : String) : Prop where
  path : ∃ written, Endpoint.ofPath? (pathOf r.target) = some (e, written) ∧
    sessionId? written = some id
  method : r.method ∈ e.allowed

/-- What an endpoint reads its payload with. -/
inductive Endpoint.Reads : Endpoint → {α : Type} → Decoder α → Prop
  | chat : Endpoint.chat.Reads ChatPayload.decode
  | model : Endpoint.model.Reads decodeModel
  | systemPrompt : Endpoint.systemPrompt.Reads decodePrompt
  | enabledTools : Endpoint.enabledTools.Reads decodeTools

theorem Endpoint.mem_ofSession {e : Endpoint} (hhealth : e ≠ .health) (htools : e ≠ .tools) :
    e ∈ Endpoint.ofSession := by
  cases e with
  | health => exact absurd rfl hhealth
  | tools => exact absurd rfl htools
  | _ => decide

/-- No endpoint is asked by a preflight. -/
theorem Endpoint.ne_options_of_mem_allowed {e : Endpoint} {method : String}
    (hmethod : method ∈ e.allowed) : method ≠ "OPTIONS" := by
  have hnone : "OPTIONS" ∉ e.allowed := by cases e <;> decide
  rintro rfl
  exact hnone hmethod

/-- The request sends a message to a session. -/
structure Request.Sends (r : Request) (id : String) (p : ChatPayload) : Prop where
  asks : r.Asks .chat id
  read : readPayload ChatPayload.decode r = .ok p

/-- The request asks for an operation on a session that answers with its state. -/
inductive Operation (r : Request) (id : String) : (Store → Store.Result SessionState) → Prop
  | snapshot (hasks : r.Asks .messages id) : Operation r id (·.snapshot id)
  | setModel (hasks : r.Asks .model id) {model : String}
      (hread : readPayload decodeModel r = .ok model) :
      Operation r id (·.setModel id model)
  | setSystemPrompt (hasks : r.Asks .systemPrompt id) {prompt : String}
      (hread : readPayload decodePrompt r = .ok prompt)
      (hfilled : Text.isBlankText prompt = false) :
      Operation r id (·.setSystemPrompt id prompt)
  | setEnabledTools (hasks : r.Asks .enabledTools id) {tools : List String}
      (hread : readPayload decodeTools r = .ok tools) : Operation r id (·.setEnabledTools id tools)
  | clear (hasks : r.Asks .clear id) : Operation r id (·.clear id)

/-- The text shown for a session id that is not UTF-8. -/
def unreadableIdText : String :=
  "Invalid URL: Invalid UTF-8 in " ++ String.ofList [Char.ofNat 0x60] ++ "session_id"
    ++ String.ofList [Char.ofNat 0x60]

/-- The response to a request, and the agents after it. -/
inductive Exchange (h : Handler σ) (r : Request) (a : Agents σ) : Response × Agents σ → Prop
  /-- A preflight of a cross-origin request. -/
  | preflight (hmethod : r.method = "OPTIONS") : Exchange h r a (⟨200, .none, none, true⟩, a)
  | unknownPath (hmethod : r.method ≠ "OPTIONS")
      (hpath : Endpoint.ofPath? (pathOf r.target) = none) :
      Exchange h r a (notFound.response, a)
  | otherMethod {e : Endpoint} {written : String} (hmethod : r.method ≠ "OPTIONS")
      (hpath : Endpoint.ofPath? (pathOf r.target) = some (e, written))
      (hother : r.method ∉ e.allowed) :
      Exchange h r a (⟨405, .none, some e.allowed, false⟩, a)
  | unreadableId {e : Endpoint} {written : String} (hsession : e ∈ Endpoint.ofSession)
      (hpath : Endpoint.ofPath? (pathOf r.target) = some (e, written))
      (hmethod : r.method ∈ e.allowed) (hid : sessionId? written = none) :
      Exchange h r a (⟨400, .text unreadableIdText, none, false⟩, a)
  | unreadable {e : Endpoint} {id : String} (hasks : r.Asks e id) {α : Type} {dec : Decoder α}
      (hreads : e.Reads dec) {f : ServiceError} (hread : readPayload dec r = .error f) :
      Exchange h r a (f.response, a)
  | blankPrompt {id : String} (hasks : r.Asks .systemPrompt id) {prompt : String}
      (hread : readPayload decodePrompt r = .ok prompt) (hblank : Text.isBlankText prompt = true) :
      Exchange h r a ((ServiceError.mk 400 "systemPrompt must not be empty" none).response, a)
  | health : Exchange h r a (health h, a)
  | tools : Exchange h r a (listTools h a)
  | operates {id : String} {op : Store → Store.Result SessionState} (hop : Operation r id op) :
      Exchange h r a (stateResponse (op a.store).1, a.withStore (op a.store).2)
  /-- The agent of the session cannot be built. -/
  | unbuilt {id : String} {p : ChatPayload} (hsends : r.Sends id p) {f : Failure} {b : Agents σ}
      (hget : Agents.get id a = (.error f, b)) :
      Exchange h r a ((ServiceError.ofFailure f).response, b)
  | runs {id : String} {p : ChatPayload} (hsends : r.Sends id p) (hbuffered : p.stream = false)
      {agent : Agent} {b : Agents σ} (hget : Agents.get id a = (.ok agent, b)) :
      Exchange h r a (stateResponse (Agents.runBuffered h id p.message p.model b).1,
        (Agents.runBuffered h id p.message p.model b).2)
  | streams {id : String} {p : ChatPayload} (hsends : r.Sends id p) {agent : Agent} {b c : Agents σ}
      (hget : Agents.get id a = (.ok agent, b)) {chunks : List String}
      (hrun : Agents.runStreaming h id p.message p.model b = (.ok chunks, c)) :
      Exchange h r a (⟨200, .stream chunks, none, false⟩, c)
  | refusesStream {id : String} {p : ChatPayload} (hsends : r.Sends id p) {agent : Agent}
      {b c : Agents σ} (hget : Agents.get id a = (.ok agent, b)) {f : Failure}
      (hrun : Agents.runStreaming h id p.message p.model b = (.error f, c)) :
      Exchange h r a ((ServiceError.ofFailure f).response, c)

variable (h : Handler σ) {r : Request} (a : Agents σ)

/-- What needs a payload goes on with it, or the payload cannot be read. -/
theorem exchange_withPayload {e : Endpoint} {id : String} (hasks : r.Asks e id) {α : Type}
    {dec : Decoder α} (hreads : e.Reads dec) {k : α → AgentAct σ Response}
    (hk : ∀ p, readPayload dec r = .ok p → Exchange h r a (k p a)) :
    Exchange h r a (withPayload dec r k a) := by
  unfold withPayload
  cases hread : readPayload dec r with
  | error f => exact .unreadable hasks hreads hread
  | ok p => exact hk p hread

theorem exchange_chat {id : String} {p : ChatPayload} (hsends : r.Sends id p) :
    Exchange h r a (chat h id p a) := by
  unfold chat
  rw [Agents.bind_run]
  cases hget : Agents.get id a with
  | mk result b =>
    cases result with
    | error f => exact .unbuilt hsends hget
    | ok agent =>
      cases hstream : p.stream with
      | false =>
        simp only [Bool.false_eq_true, if_false]
        rw [Agents.bind_run]
        exact .runs hsends hstream hget
      | true =>
        simp only [if_true]
        rw [Agents.bind_run]
        cases hrun : Agents.runStreaming h id p.message p.model b with
        | mk result c =>
          cases result with
          | error f => exact .refusesStream hsends hget hrun
          | ok chunks => exact .streams hsends hget hrun

theorem exchange_operation {id : String} {op : Store → Store.Result SessionState}
    (hop : Operation r id op) :
    Exchange h r a ((do return stateResponse (← Agents.onStore op) : AgentAct σ Response) a) :=
  .operates hop

theorem operation_run (op : Store → Store.Result SessionState) :
    ((do return stateResponse (← Agents.onStore op) : AgentAct σ Response) a) =
      (stateResponse (op a.store).1, a.withStore (op a.store).2) := rfl

theorem exchange_changePrompt {id prompt : String} (hasks : r.Asks .systemPrompt id)
    (hread : readPayload decodePrompt r = .ok prompt) :
    Exchange h r a (changePrompt id prompt a) := by
  unfold changePrompt
  split
  next hblank => exact .blankPrompt hasks hread hblank
  next hfilled =>
    exact exchange_operation h a (.setSystemPrompt hasks hread (Bool.eq_false_iff.mpr hfilled))

theorem exchange_serveSession {e : Endpoint} {id : String} (hasks : r.Asks e id) :
    Exchange h r a (serveSession h e id r a) := by
  unfold serveSession
  cases e with
  | health => exact .health
  | tools => exact .tools
  | messages => exact exchange_operation h a (.snapshot hasks)
  | chat =>
    exact exchange_withPayload h a hasks .chat fun p hread => exchange_chat h a ⟨hasks, hread⟩
  | model =>
    exact exchange_withPayload h a hasks .model fun _ hread =>
      exchange_operation h a (.setModel hasks hread)
  | systemPrompt =>
    exact exchange_withPayload h a hasks .systemPrompt fun _ => exchange_changePrompt h a hasks
  | enabledTools =>
    exact exchange_withPayload h a hasks .enabledTools fun _ hread =>
      exchange_operation h a (.setEnabledTools hasks hread)
  | clear => exact exchange_operation h a (.clear hasks)

variable (r)

/-- **Every request comes to one of these.** -/
theorem exchange_respond : Exchange h r a (respond h r a) := by
  unfold respond
  split
  next hmethod => exact .preflight hmethod
  next hmethod =>
    cases hpath : Endpoint.ofPath? (pathOf r.target) with
    | none => exact .unknownPath hmethod hpath
    | some named =>
      obtain ⟨e, written⟩ := named
      simp only
      split
      next hcontains =>
        have hallowed : r.method ∈ e.allowed := by simpa using hcontains
        unfold serveEndpoint
        split
        next => exact .health
        next => exact .tools
        next hhealth htools =>
          cases hid : sessionId? written with
          | some id => exact exchange_serveSession h a ⟨⟨written, hpath, hid⟩, hallowed⟩
          | none => exact .unreadableId (Endpoint.mem_ofSession hhealth htools) hpath hallowed hid
      next hcontains => exact .otherMethod hmethod hpath (by simpa using hcontains)

variable {r}

/-- What is asked of a session is handed on to it. -/
theorem Request.Asks.respond_eq {e : Endpoint} {id : String} (hasks : r.Asks e id) :
    respond h r a = serveSession h e id r a := by
  obtain ⟨⟨written, hpath, hid⟩, hmethod⟩ := hasks
  have hpreflight := Endpoint.ne_options_of_mem_allowed hmethod
  unfold respond
  simp only [if_neg hpreflight, hpath, List.contains_eq_mem, decide_eq_true hmethod, if_true]
  unfold serveEndpoint
  split
  · rfl
  · rfl
  · rw [hid]

theorem withPayload_ok {α : Type} {dec : Decoder α} {p : α} (hread : readPayload dec r = .ok p)
    (k : α → AgentAct σ Response) : withPayload dec r k a = k p a := by
  unfold withPayload
  rw [hread]

theorem withPayload_error {α : Type} {dec : Decoder α} {f : ServiceError}
    (hread : readPayload dec r = .error f) (k : α → AgentAct σ Response) :
    withPayload dec r k a = (f.response, a) := by
  unfold withPayload
  rw [hread]
  rfl

/-- A message to a session that can be read is handed on. -/
theorem Request.Sends.respond_eq {id : String} {p : ChatPayload} (hsends : r.Sends id p) :
    respond h r a = chat h id p a :=
  (hsends.asks.respond_eq h a).trans (withPayload_ok a hsends.read _)

/-- A message to be answered at once is answered with the state after its turn. -/
theorem Request.Sends.respond_buffered {a : Agents σ} {id : String} {p : ChatPayload}
    (hsends : r.Sends id p) (hbuffered : p.stream = false) {agent : Agent} {b : Agents σ}
    (hget : Agents.get id a = (.ok agent, b)) :
    (respond h r a).1 = stateResponse (Agents.runBuffered h id p.message p.model b).1 := by
  rw [hsends.respond_eq]
  unfold chat
  rw [Agents.bind_run, hget]
  simp only [hbuffered, Bool.false_eq_true, if_false]
  rw [Agents.bind_run]
  generalize Agents.runBuffered h id p.message p.model b = run
  rfl

/-- A message to be streamed is answered with the chunks of its turn. -/
theorem Request.Sends.respond_streamed {a : Agents σ} {id : String} {p : ChatPayload}
    (hsends : r.Sends id p) (hstreamed : p.stream = true) {agent : Agent} {b : Agents σ}
    (hget : Agents.get id a = (.ok agent, b)) : (respond h r a).1 =
      match (Agents.runStreaming h id p.message p.model b).1 with
      | .error f => (ServiceError.ofFailure f).response
      | .ok chunks => ⟨200, .stream chunks, none, false⟩ := by
  rw [hsends.respond_eq]
  unfold chat
  rw [Agents.bind_run, hget]
  simp only [hstreamed, if_true]
  rw [Agents.bind_run]
  generalize Agents.runStreaming h id p.message p.model b = run
  obtain ⟨result, c⟩ := run
  cases result <;> rfl

variable (r) in
theorem respond_chat {written id : String} {p : ChatPayload} (hmethod : r.method = "POST")
    (hpath : Endpoint.ofPath? (pathOf r.target) = some (.chat, written))
    (hid : sessionId? written = some id) (hread : readPayload ChatPayload.decode r = .ok p) :
    respond h r a = chat h id p a := by
  have hallowed : r.method ∈ Endpoint.chat.allowed := by
    rw [hmethod]
    decide
  exact Request.Sends.respond_eq h a ⟨⟨⟨written, hpath, hid⟩, hallowed⟩, hread⟩

end ChatRelay.Service
