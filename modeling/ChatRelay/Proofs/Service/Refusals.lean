import ChatRelay.Proofs.Service.Exchanges
import ChatRelay.Proofs.Turn.OfferedTools

/-! # Requests that are refused

A response with a status of 400 to 499 tells that the request was refused. Then the request has not
come to a session at all, or it was an operation or a turn that refused its input: every other
failure has a status of 500 or more (`exists_reason_of_status`). Input is refused before anything is
changed, and all that has happened by then is that a session was created, with the settings that it
would get anyway. So nobody can tell that there was a request (`refused_changes_nothing`). -/

namespace ChatRelay.Service

open Session Turn

variable {σ : Type}

/-- The request was refused. -/
def Response.IsRefusal (r : Response) : Prop := 400 ≤ r.status ∧ r.status < 500

instance (r : Response) : Decidable r.IsRefusal := inferInstanceAs (Decidable (_ ∧ _))

theorem not_isRefusal_of_status {r : Response} (h : r.status = 200) : ¬ r.IsRefusal := by
  intro hrefused
  have := hrefused.1
  omega

/-- Only refused input is the caller's fault. -/
theorem exists_reason_of_status {f : Failure} (h : (ServiceError.ofFailure f).response.IsRefusal) :
    ∃ reason, f = .invalidInput reason := by
  have hlt : (ServiceError.ofFailure f).status < 500 := h.2
  cases f with
  | invalidInput reason => exact ⟨reason, rfl⟩
  | completion g => exact absurd (show 502 < 500 from hlt) (by decide)
  | database g => exact absurd (show 500 < 500 from hlt) (by decide)
  | serialization reason => exact absurd (show 500 < 500 from hlt) (by decide)

theorem not_accepts_of_refusal {α : Type} {f : Failure}
    (h : (ServiceError.ofFailure f).response.IsRefusal) :
    ¬ Accepts (.error f : Except Failure α) := by
  obtain ⟨reason, rfl⟩ := exists_reason_of_status h
  exact fun haccepts => haccepts reason rfl

theorem not_accepts_of_stateResponse {result : Except Failure SessionState}
    (h : (stateResponse result).IsRefusal) : ¬ Accepts result := by
  cases result with
  | error f => exact not_accepts_of_refusal h
  | ok state => exact absurd h (not_isRefusal_of_status rfl)

/-- An operation fails inside, unless it is to set a blank model: that is refused before anything is
changed. -/
theorem Operation.failsInside_or {r : Request} {id : String}
    {op : Store → Store.Result SessionState} (hop : Operation r id op)
    (s : Store) : FailsInside (op s).1 ∨
      ∃ model, r.Asks .model id ∧ readPayload decodeModel r = .ok model ∧
      Text.isBlankText model = true ∧
        op s = (.error (.invalidInput "model must not be empty"), s) := by
  cases hop with
  | snapshot => exact .inl (s.failsInside_snapshot id)
  | @setModel hasks model hread =>
    cases hblank : Text.isBlankText model with
    | true => exact .inr ⟨model, hasks, hread, hblank, s.setModel_of_blank id hblank⟩
    | false => exact .inl (s.failsInside_setModel id hblank)
  | @setSystemPrompt _ prompt =>
    exact .inl (s.failsInside_mutate_ok id fun db => db.setSystemPrompt id prompt)
  | @setEnabledTools _ tools =>
    exact .inl (s.failsInside_mutate_ok id fun db =>
      db.setEnabledTools id (Store.normalNames tools))
  | clear => exact .inl (s.failsInside_mutate_ok id fun db => (db.deleteMessages id).2)

/-- An operation accepts its input or leaves the store as it is. -/
theorem Operation.accepts_or {r : Request} {id : String} {op : Store → Store.Result SessionState}
    (hop : Operation r id op) (s : Store) : Accepts (op s).1 ∨ (op s).2 = s := by
  obtain hinside | ⟨model, -, -, -, hrefused⟩ := hop.failsInside_or s
  · exact .inl hinside.accepts
  · rw [hrefused]
    exact .inr rfl

/-- **A refused request leaves the sessions alone.** -/
theorem Exchange.untouched {h : Handler σ} {r : Request} {a : Agents σ} {p : Response × Agents σ}
    (hx : Exchange h r a p) (hrefused : p.1.IsRefusal) : Agents.Untouched a p.2 := by
  cases hx with
  | preflight | unknownPath | otherMethod | unreadableId | unreadable | blankPrompt | health =>
    exact .refl a
  | tools => exact absurd hrefused (not_isRefusal_of_status rfl)
  | operates hop =>
    have hstore := (hop.accepts_or a.store).resolve_left (not_accepts_of_stateResponse hrefused)
    rw [hstore]
    exact .refl a
  | @unbuilt id p hsends f b hget =>
    have haccepts := (Agents.failsInside_get id a).accepts
    rw [hget] at haccepts
    exact absurd haccepts (not_accepts_of_refusal hrefused)
  | @runs id p hsends hbuffered agent b hget =>
    have hb := Agents.get_untouched id a
    rw [hget] at hb
    dsimp only at hrefused
    have hrejects := not_accepts_of_stateResponse hrefused
    have hsame := (Agents.runBuffered_accepts_or h id p.message b p.model).resolve_left hrejects
    rw [hsame]
    exact hb
  | streams => exact absurd hrefused (not_isRefusal_of_status rfl)
  | @refusesStream id p hsends agent b c hget f hrun =>
    have hb := Agents.get_untouched id a
    have hsame := Agents.runStreaming_accepts_or h id p.message b p.model
    rw [hget] at hb
    rw [hrun] at hsame
    rw [hsame.resolve_left (not_accepts_of_refusal hrefused)]
    exact hb

/-- **A refused request changes nothing.** If the response has a status of 400 to 499, every session
has the snapshot afterwards that it had before, the one that the request names included and whether
it existed or not. Nothing was asked of the parties outside, no turn was started, and no message was
stamped. -/
theorem refused_changes_nothing (h : Handler σ) (r : Request) (a : Agents σ)
    (hrefused : (respond h r a).1.IsRefusal) :
    let b := (respond h r a).2
    (∀ id, (b.store.snapshot id).1 = (a.store.snapshot id).1) ∧ b.world = a.world ∧
      b.started = a.started ∧
      b.clock = a.clock := by
  intro b
  have huntouched := (exchange_respond h r a).untouched hrefused
  exact ⟨huntouched.snapshot, huntouched.world, huntouched.started, huntouched.clock⟩

/-- A message of one blank to a session, with a model. -/
def blankMessage : Request where
  method := "POST"
  target := "/api/chat/s/chat"
  contentType := some "application/json"
  payload := Text.encode "\x7b\"message\":\" \",\"model\":\"m\"\x7d"

/-- Agents over a store without sessions. -/
def freshAgents : Agents Unit := .start ⟨.empty, ⟨"d", "p", []⟩⟩ ⟨(), ⟨0, 0⟩⟩ 0

theorem refused_changes_nothing_blankMessage :
    let b := (respond simulatedHandler blankMessage freshAgents).2
    (respond simulatedHandler blankMessage freshAgents).1.IsRefusal ∧
      b.cached = [⟨"s", "d"⟩] ∧ b.store.database.sessions.length = 1 ∧
      ∀ id, (b.store.snapshot id).1 = (freshAgents.store.snapshot id).1 := by
  intro b
  have hdec : Json.decodeBytes ChatPayload.decode blankMessage.payload =
      .ok ⟨" ", some "m", false⟩ := by
    have hsome : (Json.decodeBytes ChatPayload.decode blankMessage.payload).toOption =
        some ⟨" ", some "m", false⟩ := by decide +kernel
    exact eq_ok_of_toOption hsome
  have hlen : blankMessage.payload.length ≤ payloadLimit := by decide +kernel
  have hpath : Endpoint.ofPath? (pathOf blankMessage.target) =
    some (.chat, "s") := by decide +kernel
  have hid : sessionId? "s" = some "s" := by decide +kernel
  have hchat : respond simulatedHandler blankMessage freshAgents =
      chat simulatedHandler "s" ⟨" ", some "m", false⟩ freshAgents :=
    respond_chat simulatedHandler blankMessage freshAgents rfl hpath hid
      (readPayload_ok isJsonType_json hlen hdec)
  have hrun : (chat simulatedHandler "s" ⟨" ", some "m", false⟩ freshAgents).1.IsRefusal ∧
      (chat simulatedHandler "s" ⟨" ", some "m", false⟩ freshAgents).2.cached = [⟨"s", "d"⟩] ∧
      (chat simulatedHandler "s" ⟨" ", some "m",
          false⟩ freshAgents).2.store.database.sessions.length = 1 := by
    decide +kernel
  rw [← hchat] at hrun
  obtain ⟨hrefused, hcached, hcreated⟩ := hrun
  exact ⟨hrefused, hcached, hcreated,
    (refused_changes_nothing simulatedHandler blankMessage freshAgents hrefused).1⟩

end ChatRelay.Service
