import ChatRelay.Proofs.Json.Meaning
import ChatRelay.Proofs.Service.Refusals

/-! # Failures as they are sent

A failure of the service is shown by an envelope, an object that says why (`IsEnvelope`), and the
status tells what kind of failure it is (`FailsWith`): nothing is found under the path, what was
sent makes no sense, the first completion of a turn failed, or the store did.

Two failures are answered without an envelope, before the service itself is asked: a method that the
path does not allow, and a session id that is not UTF-8. And the answer to a probe has no body. In
all other cases a status of 400 or more comes with an envelope (`failure_envelope_iff`). -/

namespace ChatRelay.Service

open Json Session Turn

/-! ### Envelopes -/

/-- The members of an envelope: no success, a text, and at most a detail besides, which is a text as
well. -/
structure ShowsFailure (o : Object) : Prop where
  success : o.find? "success" = some (.bool false)
  error : ∃ text, o.find? "error" = some (.str text)
  besides : ∀ m ∈ o, m.1 ≠ "success" → m.1 ≠ "error" → m.1 = "detail" ∧ ∃ text, m.2 = .str text

/-- The text is an envelope of a failure. -/
def IsEnvelope (body : String) : Prop := ∃ o, parse? body = some (.obj o) ∧ ShowsFailure o

theorem not_isEnvelope_of_parse? {body : String} (h : parse? body = none) : ¬ IsEnvelope body := by
  rintro ⟨o, ho, -⟩
  rw [h] at ho
  cases ho

theorem not_isEnvelope_empty : ¬ IsEnvelope "" := not_isEnvelope_of_parse? (by decide +kernel)

theorem not_isEnvelope_unreadableIdText : ¬ IsEnvelope unreadableIdText :=
  not_isEnvelope_of_parse? (by decide +kernel)

/-- **A failure is shown by an envelope.** -/
theorem isEnvelope_response (e : ServiceError) : IsEnvelope e.response.body := by
  obtain ⟨status, error, detail⟩ := e
  cases detail with
  | none =>
    have hdepth : (ServiceError.mk status error none).doc.depth ≤ maxDepth :=
      show 1 ≤ maxDepth by decide
    exact ⟨[("error", .str error), ("success", .bool false)], parse?_text rfl hdepth, rfl,
      ⟨error, rfl⟩, by simp⟩
  | some detail =>
    have hdepth : (ServiceError.mk status error (some detail)).doc.depth ≤ maxDepth :=
      show 1 ≤ maxDepth by decide
    exact ⟨[("detail", .str detail), ("error", .str error), ("success", .bool false)],
      parse?_text rfl hdepth, rfl, ⟨error, rfl⟩, by simp⟩

/-! ### Requests that the service is not asked for -/

variable {σ : Type}

/-- The path has an endpoint, but that does not allow the method. -/
def Request.MissesMethod (r : Request) : Prop :=
  r.method ≠ "OPTIONS" ∧
    ∃ e written, Endpoint.ofPath? (pathOf r.target) = some (e, written) ∧ r.method ∉ e.allowed

/-- The path names a session by an id that is not UTF-8. -/
def Request.MissesId (r : Request) : Prop :=
  ∃ e ∈ Endpoint.ofSession, ∃ written, Endpoint.ofPath? (pathOf r.target) = some (e, written) ∧
    r.method ∈ e.allowed ∧ sessionId? written = none

section

variable (h : Handler σ) {r : Request} (a : Agents σ)

theorem Request.MissesMethod.respond_eq (hmisses : r.MissesMethod) :
    ∃ allowed, respond h r a = (⟨405, .none, some allowed, false⟩, a) := by
  obtain ⟨hmethod, e, written, hpath, hother⟩ := hmisses
  refine ⟨e.allowed, ?_⟩
  unfold respond
  simp only [if_neg hmethod, hpath, List.contains_eq_mem, decide_eq_false hother,
    Bool.false_eq_true, if_false]
  rfl

theorem Request.MissesId.respond_eq (hmisses : r.MissesId) :
    respond h r a = (⟨400, .text unreadableIdText, none, false⟩, a) := by
  obtain ⟨e, hsession, written, hpath, hmethod, hid⟩ := hmisses
  have hpreflight := Endpoint.ne_options_of_mem_allowed hmethod
  unfold respond
  simp only [if_neg hpreflight, hpath, List.contains_eq_mem, decide_eq_true hmethod, if_true]
  unfold serveEndpoint
  split
  · exact absurd hsession (by decide)
  · exact absurd hsession (by decide)
  · rw [hid]
    rfl

end

/-! ### What goes wrong with a request -/

section

variable (h : Handler σ) (r : Request) (a : Agents σ)

/-- The request runs a buffered turn, which takes the lock of its session with this message and
these agents. -/
inductive RunsTurn (id message : String) : Agents σ → Prop
  | intro {p : ChatPayload} (hsends : r.Sends id p) (hbuffered : p.stream = false) {agent : Agent}
      {b c : Agents σ} (hget : Agents.get id a = (.ok agent, b))
      (hprepare : Agents.prepare id p.message p.model b = (.ok message, c)) :
      RunsTurn id message (Agents.await h id c).2

/-- What the request asks of a session ends with a failure: the operation on it, the agent that is
looked for, the preparation of the turn, or the turn. -/
inductive Meets : Failure → Prop
  | operation {id : String} {op : Store → Store.Result SessionState} (hop : Operation r id op)
      {f : Failure} (hfails : (op a.store).1 = .error f) : Meets f
  | agent {id : String} {p : ChatPayload} (hsends : r.Sends id p) {f : Failure} {b : Agents σ}
      (hget : Agents.get id a = (.error f, b)) : Meets f
  | preparation {id : String} {p : ChatPayload} (hsends : r.Sends id p) {agent : Agent}
      {b c : Agents σ} (hget : Agents.get id a = (.ok agent, b)) {f : Failure}
      (hprepare : Agents.prepare id p.message p.model b = (.error f, c)) : Meets f
  | turn {id message : String} {b : Agents σ} (hturn : RunsTurn h r a id message b) {f : Failure}
      (hfails : (Agents.runPrepared h id message b).1 = .error f) : Meets f

/-- **What goes wrong with a request, and the status that tells it.** -/
inductive FailsWith : Nat → Prop
  | unknownPath (hmethod : r.method ≠ "OPTIONS")
      (hpath : Endpoint.ofPath? (pathOf r.target) = none) :
      FailsWith 404
  | otherMethod (hmisses : r.MissesMethod) : FailsWith 405
  | unreadableId (hmisses : r.MissesId) : FailsWith 400
  | unreadablePayload {e : Endpoint} {id : String} (hasks : r.Asks e id) {α : Type}
      {dec : Decoder α} (hreads : e.Reads dec) {f : ServiceError}
      (hread : readPayload dec r = .error f) :
      FailsWith 400
  | blankPrompt {id : String} (hasks : r.Asks .systemPrompt id) {prompt : String}
      (hread : readPayload decodePrompt r = .ok prompt) (hblank : Text.isBlankText prompt = true) :
      FailsWith 400
  | blankModel {id : String} (hasks : r.Asks .model id) {model : String}
      (hread : readPayload decodeModel r = .ok model) (hblank : Text.isBlankText model = true) :
      FailsWith 400
  | blankMessage {id : String} {p : ChatPayload} (hsends : r.Sends id p) {agent : Agent}
      {b : Agents σ} (hget : Agents.get id a = (.ok agent, b))
      (hblank : Text.isBlankText p.message = true) :
      FailsWith 400
  /-- A reply can show the failure of the first completion. -/
  | firstCompletion {id message : String} {b : Agents σ} (hturn : RunsTurn h r a id message b)
      {f : Completion.Failure} (hfirst : Agents.firstFailure? h id message b = some f)
      (hshown : (Agents.runPrepared h id message b).1 ≠ .error (.database .idTaken)) : FailsWith 502
  | store {f : Failure} (hmeets : Meets h r a f) (hinternal : f.IsInternal) : FailsWith 500

end

variable {h : Handler σ} {r : Request} {a : Agents σ}

/-! ### Statuses -/

theorem status_of_isInternal {f : Failure} (hf : f.IsInternal) :
    (ServiceError.ofFailure f).status = 500 := by
  cases hf <;> rfl

/-- An operation answers with the state, or with its failure. -/
theorem Operation.respond_eq {id : String} {op : Store → Store.Result SessionState}
    (hop : Operation r id op) : (respond h r a).1 = stateResponse (op a.store).1 := by
  cases hop with
  | snapshot hasks =>
    rw [hasks.respond_eq]
    unfold serveSession
    simp only [operation_run]
  | setModel hasks hread =>
    rw [hasks.respond_eq]
    unfold serveSession
    simp only [withPayload_ok a hread, operation_run]
  | setSystemPrompt hasks hread hfilled =>
    rw [hasks.respond_eq]
    unfold serveSession
    simp only [withPayload_ok a hread]
    unfold changePrompt
    rw [hfilled]
    simp only [Bool.false_eq_true, if_false]
    rw [operation_run]
  | setEnabledTools hasks hread =>
    rw [hasks.respond_eq]
    unfold serveSession
    simp only [withPayload_ok a hread, operation_run]
  | clear hasks =>
    rw [hasks.respond_eq]
    unfold serveSession
    simp only [operation_run]

/-- A message whose turn cannot be prepared is answered with the failure, streamed or not. -/
theorem respond_of_prepare {id : String} {p : ChatPayload} (hsends : r.Sends id p) {agent : Agent}
    {b c : Agents σ} (hget : Agents.get id a = (.ok agent, b)) {f : Failure}
    (hprepare : Agents.prepare id p.message p.model b = (.error f, c)) :
    (respond h r a).1 = (ServiceError.ofFailure f).response := by
  cases hstream : p.stream with
  | false =>
    rw [hsends.respond_buffered h hstream hget, Agents.runBuffered_of_refused hprepare]
    rfl
  | true =>
    rw [hsends.respond_streamed h hstream hget, Agents.runStreaming_of_refused hprepare]

theorem RunsTurn.respond_eq {id message : String} {b : Agents σ}
    (hturn : RunsTurn h r a id message b) :
    (respond h r a).1 = stateResponse (Agents.runPrepared h id message b).1 := by
  obtain ⟨hsends, hbuffered, hget, hprepare⟩ := hturn
  rw [hsends.respond_buffered h hbuffered hget, Agents.runBuffered_of_prepared hprepare]

/-- What a request meets is what it is answered with. -/
theorem Meets.respond_eq {f : Failure} (hmeets : Meets h r a f) :
    (respond h r a).1 = (ServiceError.ofFailure f).response := by
  cases hmeets with
  | operation hop hfails =>
    rw [hop.respond_eq, hfails]
    rfl
  | agent hsends hget =>
    rw [hsends.respond_eq]
    unfold chat
    rw [Agents.bind_run, hget]
    rfl
  | preparation hsends hget hprepare => exact respond_of_prepare hsends hget hprepare
  | turn hturn hfails =>
    rw [hturn.respond_eq, hfails]
    rfl

/-- **What goes wrong with a request decides its status.** -/
theorem FailsWith.status_eq {n : Nat} (hfails : FailsWith h r a n) :
    (respond h r a).1.status = n := by
  cases hfails with
  | unknownPath hmethod hpath =>
    unfold respond
    simp only [if_neg hmethod, hpath]
    rfl
  | otherMethod hmisses =>
    obtain ⟨allowed, hresponse⟩ := hmisses.respond_eq h a
    rw [hresponse]
  | unreadableId hmisses => rw [hmisses.respond_eq h a]
  | unreadablePayload hasks hreads hread =>
    have hstatus := readPayload_error hread
    rw [hasks.respond_eq]
    unfold serveSession
    cases hreads <;> simp only [withPayload_error a hread] <;> exact hstatus
  | blankPrompt hasks hread hblank =>
    rw [hasks.respond_eq]
    unfold serveSession
    simp only [withPayload_ok a hread]
    unfold changePrompt
    rw [if_pos hblank]
    rfl
  | @blankModel id hasks model hread hblank =>
    have hrefused : (a.store.setModel id model).1 =
        .error (.invalidInput "model must not be empty") := by
      rw [a.store.setModel_of_blank id hblank]
    rw [(Meets.operation (.setModel hasks hread) hrefused).respond_eq]
    rfl
  | blankMessage hsends hget hblank =>
    rw [respond_of_prepare hsends hget (Agents.prepare_of_blank hblank)]
    rfl
  | firstCompletion hturn hfirst hshown =>
    rw [(Meets.turn hturn
      ((Agents.runPrepared_of_firstFailure hfirst).resolve_right hshown)).respond_eq]
    rfl
  | store hmeets hinternal =>
    rw [hmeets.respond_eq]
    exact status_of_isInternal hinternal

theorem Meets.failsWith_of_isInternal {f : Failure} (hmeets : Meets h r a f) (hf : f.IsInternal) :
    FailsWith h r a (ServiceError.ofFailure f).status := by
  rw [status_of_isInternal hf]
  exact .store hmeets hf

/-- What a request meets has its cause: something blank was sent, the first completion failed, or
the store did. -/
theorem Meets.failsWith {f : Failure} (hmeets : Meets h r a f) :
    FailsWith h r a (ServiceError.ofFailure f).status := by
  have hinside := hmeets.failsWith_of_isInternal
  cases hmeets with
  | operation hop hfails =>
    obtain hop | ⟨model, hasks, hread, hblank, hrefused⟩ := hop.failsInside_or a.store
    · exact hinside (hop f hfails)
    · rw [hrefused] at hfails
      cases hfails
      exact .blankModel hasks hread hblank
  | @agent id _ _ _ b hget =>
    have hstore := Agents.failsInside_get id a
    rw [hget] at hstore
    exact hinside (hstore f rfl)
  | @preparation id p hsends _ b _ hget _ hprepare =>
    cases hblank : Text.isBlankText p.message with
    | true =>
      rw [Agents.prepare_of_blank hblank] at hprepare
      cases hprepare
      exact .blankMessage hsends hget hblank
    | false =>
      have hstore := b.store.failsInside_prepareTurn id hblank p.model
      rw [Agents.prepare_run, Prod.mk.injEq] at hprepare
      exact hinside (hstore f hprepare.1)
  | turn hturn hfails =>
    obtain hf | ⟨g, rfl, hfirst⟩ := Agents.runPrepared_fails hfails
    · exact hinside hf
    · refine .firstCompletion hturn hfirst fun htaken => ?_
      rw [hfails] at htaken
      cases htaken

/-- A buffered run that fails was not prepared, or its turn failed. -/
theorem meets_of_runBuffered {id : String} {p : ChatPayload} (hsends : r.Sends id p)
    (hbuffered : p.stream = false) {agent : Agent} {b : Agents σ}
    (hget : Agents.get id a = (.ok agent, b)) {f : Failure}
    (hfails : (Agents.runBuffered h id p.message p.model b).1 = .error f) : Meets h r a f := by
  cases hprepare : Agents.prepare id p.message p.model b with
  | mk result c =>
    cases result with
    | error g =>
      rw [Agents.runBuffered_of_refused hprepare] at hfails
      cases hfails
      exact .preparation hsends hget hprepare
    | ok message =>
      rw [Agents.runBuffered_of_prepared hprepare] at hfails
      exact .turn ⟨hsends, hbuffered, hget, hprepare⟩ hfails

/-- A streamed run fails only if it is not prepared. -/
theorem meets_of_runStreaming {id : String} {p : ChatPayload} (hsends : r.Sends id p)
    {agent : Agent} {b : Agents σ} (hget : Agents.get id a = (.ok agent, b)) {f : Failure}
    (hfails : (Agents.runStreaming h id p.message p.model b).1 = .error f) : Meets h r a f := by
  cases hprepare : Agents.prepare id p.message p.model b with
  | mk result c =>
    cases result with
    | error g =>
      rw [Agents.runStreaming_of_refused hprepare] at hfails
      cases hfails
      exact .preparation hsends hget hprepare
    | ok message =>
      obtain ⟨chunks, hchunks⟩ := Agents.runStreaming_of_prepared (h := h) hprepare
      rw [hchunks] at hfails
      cases hfails

/-! ### All failures -/

/-- The response shows a failure, and its status tells what went wrong. -/
def Shows (h : Handler σ) (r : Request) (a : Agents σ) (response : Response) : Prop :=
  ∃ e : ServiceError, response = e.response ∧ FailsWith h r a e.status

theorem Meets.shows {f : Failure} (hmeets : Meets h r a f) :
    Shows h r a (ServiceError.ofFailure f).response := ⟨_, rfl, hmeets.failsWith⟩

theorem shows_stateResponse {result : Except Failure SessionState}
    (hmeets : ∀ f, result = .error f → Meets h r a f) :
    (stateResponse result).status = 200 ∨ Shows h r a (stateResponse result) := by
  cases result with
  | error f => exact .inr (hmeets f rfl).shows
  | ok state => exact .inl rfl

/-- **A request succeeds, or is not for the service, or is answered with what went wrong.** -/
theorem Exchange.answer {p : Response × Agents σ} (hx : Exchange h r a p) :
    (p.1.status = 200 ∨ Shows h r a p.1) ∨ r.MissesMethod ∨ r.MissesId := by
  cases hx with
  | preflight | health | tools | streams => exact .inl (.inl rfl)
  | unknownPath hmethod hpath => exact .inl (.inr ⟨notFound, rfl, .unknownPath hmethod hpath⟩)
  | otherMethod hmethod hpath hother => exact .inr (.inl ⟨hmethod, _, _, hpath, hother⟩)
  | unreadableId hsession hpath hmethod hid =>
    exact .inr (.inr ⟨_, hsession, _, hpath, hmethod, hid⟩)
  | unreadable hasks hreads hread =>
    refine .inl (.inr ⟨_, rfl, ?_⟩)
    rw [readPayload_error hread]
    exact .unreadablePayload hasks hreads hread
  | blankPrompt hasks hread hblank => exact .inl (.inr ⟨_, rfl, .blankPrompt hasks hread hblank⟩)
  | operates hop =>
    dsimp only
    exact .inl (shows_stateResponse fun _ hfails => .operation hop hfails)
  | unbuilt hsends hget => exact .inl (.inr (Meets.agent hsends hget).shows)
  | runs hsends hbuffered hget =>
    dsimp only
    exact .inl (shows_stateResponse fun _ hfails =>
      meets_of_runBuffered hsends hbuffered hget hfails)
  | refusesStream hsends hget hrun =>
    exact .inl (.inr (meets_of_runStreaming hsends hget (congrArg Prod.fst hrun)).shows)

theorem failsWith_status (hn : 400 ≤ (respond h r a).1.status) :
    FailsWith h r a (respond h r a).1.status := by
  obtain (hok | ⟨e, hshown, hfails⟩) | hmethod | hid := (exchange_respond h r a).answer
  · omega
  · rw [hshown]
    exact hfails
  · have hfails : FailsWith h r a 405 := .otherMethod hmethod
    rwa [hfails.status_eq]
  · have hfails : FailsWith h r a 400 := .unreadableId hid
    rwa [hfails.status_eq]

theorem isEnvelope_body_iff (hn : 400 ≤ (respond h r a).1.status) :
    IsEnvelope (respond h r a).1.body ↔ ¬ r.MissesMethod ∧ ¬ r.MissesId := by
  constructor
  · refine fun henvelope => ⟨fun hmethod => ?_, fun hid => ?_⟩
    · obtain ⟨allowed, hresponse⟩ := hmethod.respond_eq h a
      rw [hresponse] at henvelope
      exact not_isEnvelope_empty henvelope
    · rw [hid.respond_eq h a] at henvelope
      exact not_isEnvelope_unreadableIdText henvelope
  · rintro ⟨hmethod, hid⟩
    obtain (hok | ⟨e, hshown, -⟩) | hmisses := (exchange_respond h r a).answer
    · omega
    · rw [hshown]
      exact isEnvelope_response e
    · exact absurd hmisses (not_or.mpr ⟨hmethod, hid⟩)

/-- **Failures are shown, and their status tells what went wrong.** For every request and whatever
state the service is in: a status of 400 or more is given just if something went wrong that has this
status. And the body that is sent with it is an envelope, unless the request is a probe, which gets
no body, or the service is not asked at all, because the path does not allow the method or the
session id in it is not UTF-8. -/
theorem failure_envelope_iff (h : Handler σ) (r : Request) (a : Agents σ) :
    let response := (respond h r a).1
    (∀ n, 400 ≤ n → (response.status = n ↔ FailsWith h r a n)) ∧
      (400 ≤ response.status →
        (IsEnvelope (sentBody r response) ↔ r.method ≠ "HEAD" ∧ ¬ r.MissesMethod ∧
            ¬ r.MissesId)) := by
  intro response
  refine ⟨fun n hn => ⟨fun hstatus => ?_, FailsWith.status_eq⟩, fun hn => ?_⟩
  · subst hstatus
    exact failsWith_status hn
  · unfold sentBody
    split
    next hprobe => exact iff_of_false not_isEnvelope_empty fun hsent => hsent.1 hprobe
    next hprobe => exact (isEnvelope_body_iff hn).trans (and_iff_right hprobe).symm

/-- A request without a payload. -/
def Request.bare (method target : String) : Request := ⟨method, target, none, []⟩

/-- A message to a session. -/
def greeting : Request where
  method := "POST"
  target := "/api/chat/s/chat"
  contentType := some "application/json"
  payload := Text.encode "\x7b\"message\":\"hi\"\x7d"

/-- An endpoint that cannot be reached. -/
def unreachable : Completion.Provider Unit where
  complete := fun _ s => (.error (.connectionFailed "e" "gone"), s)
  stream := fun _ s => (.error (.connectionFailed "e" "gone"), s)

theorem failure_envelope_iff_lost :
    let lost := Request.bare "GET" "/api/chats"
    let relay := { simulatedHandler with mode := .live unreachable }
    let response := (respond relay lost freshAgents).1
    response.status = 404 ∧ IsEnvelope (sentBody lost response) ∧
      (respond relay greeting freshAgents).1.status = 502 := by
  intro lost relay response
  have hpath : Endpoint.ofPath? (pathOf lost.target) = none := by decide +kernel
  obtain ⟨hstatus, hbody⟩ := failure_envelope_iff relay lost freshAgents
  have hlost : response.status = 404 :=
    (hstatus 404 (by decide)).mpr (.unknownPath (by decide) hpath)
  refine ⟨hlost, (hbody (hlost ▸ by decide)).mpr ⟨by decide, ?_, ?_⟩, ?_⟩
  · rintro ⟨-, e, written, hfound, -⟩
    rw [hpath] at hfound
    cases hfound
  · rintro ⟨e, -, written, hfound, -⟩
    rw [hpath] at hfound
    cases hfound
  · -- the turn is taken up to the failure of its first completion
    have hlen : greeting.payload.length ≤ payloadLimit := by decide +kernel
    have hdec : (decodeBytes ChatPayload.decode greeting.payload).toOption =
        some ⟨"hi", none, false⟩ := by
      decide +kernel
    have hread : readPayload ChatPayload.decode greeting = .ok ⟨"hi", none, false⟩ :=
      readPayload_ok isJsonType_json hlen (eq_ok_of_toOption hdec)
    have hsends : greeting.Sends "s" ⟨"hi", none, false⟩ :=
      ⟨⟨⟨"s", by decide +kernel, by decide +kernel⟩, by decide⟩, hread⟩
    have hget : (Agents.get "s" freshAgents).1 = .ok ⟨"s", "d"⟩ := by decide +kernel
    let b := (Agents.get "s" freshAgents).2
    have hprepare : (Agents.prepare "s" "hi" none b).1 = .ok "hi" := by decide +kernel
    let c := (Agents.await relay "s" (Agents.prepare "s" "hi" none b).2).2
    have hturn : RunsTurn relay greeting freshAgents "s" "hi" c :=
      .intro hsends rfl (Prod.ext hget rfl) (Prod.ext hprepare rfl)
    have hfirst : Agents.firstFailure? relay "s" "hi" c =
      some (.connectionFailed "e" "gone") := by decide +kernel
    have hshown : (Agents.runPrepared relay "s" "hi" c).1 matches .error
      (.completion _) := by decide +kernel
    refine ((failure_envelope_iff relay greeting freshAgents).1 502 (by decide)).mpr
      (.firstCompletion hturn hfirst ?_)
    intro htaken
    rw [htaken] at hshown
    cases hshown

/-- **A failure without an envelope**: a method that the path does not allow, and a session id that
is not UTF-8. -/
theorem failures_without_envelope :
    let put := Request.bare "PUT" "/api/health"
    let garbled := Request.bare "GET" "/api/chat/%ff/messages"
    let refused := (respond simulatedHandler put freshAgents).1
    let unreadable := (respond simulatedHandler garbled freshAgents).1
    (refused.status = 405 ∧ ¬ IsEnvelope (sentBody put refused)) ∧
      unreadable.status = 400 ∧ ¬ IsEnvelope (sentBody garbled unreadable) := by
  intro put garbled refused unreadable
  have hput : put.MissesMethod := ⟨by decide, .health, "", by decide +kernel, by decide⟩
  have hgarbled : garbled.MissesId :=
    ⟨.messages, by decide, "%ff", by decide +kernel, by decide, by decide +kernel⟩
  obtain ⟨allowed, hrefused⟩ := hput.respond_eq simulatedHandler freshAgents
  have hunreadable := hgarbled.respond_eq simulatedHandler freshAgents
  have hrefused' : refused = ⟨405, .none, some allowed, false⟩ := congrArg Prod.fst hrefused
  have hunreadable' : unreadable = ⟨400, .text unreadableIdText, none, false⟩ :=
    congrArg Prod.fst hunreadable
  rw [hrefused', hunreadable']
  exact ⟨⟨rfl, not_isEnvelope_empty⟩, rfl, not_isEnvelope_unreadableIdText⟩

end ChatRelay.Service
