import ChatRelay.Proofs.Session.TurnModels

/-! # The model of a handler

The model of a session is kept twice: in its row, and in the handler of the agent that was built for
it. The second copy can be old, since a change of settings writes the row alone. A turn brings it up
to date when it opens, from the state that has its user's message. Only a turn that opens writes it,
and only the holder of the agent's lock opens a turn (`handlerModel_of_moved`), so it stays what it
is until the turn closes, and all requests of the turn carry it (`requests_carry_stored_model`). -/

namespace ChatRelay.Session

open Completion Turn

namespace Scene

/-- The model of an agent's handler. -/
def handlerModel? (s : Scene) (n : Nat) : Option String := (s.agents[n]?).map (·.model)

section Parts

variable (s : Scene) (store : Store) (r : ChatRequest) (i n k : Nat)

@[simp] theorem handlerModel?_withStore : (s.withStore store).handlerModel? n = s.handlerModel? n :=
  rfl

@[simp] theorem handlerModel?_setRequest : (s.setRequest i r).handlerModel? n = s.handlerModel? n :=
  rfl

@[simp] theorem handlerModel?_addRequest : (s.addRequest r).handlerModel? n = s.handlerModel? n :=
  rfl

@[simp] theorem handlerModel?_dropIdle : s.dropIdle.handlerModel? n = s.handlerModel? n := by
  simp [handlerModel?]

/-- A lock that is taken or freed leaves the models alone. -/
theorem handlerModel?_setAgent {a b : BuiltAgent} (ha : s.agents[k]? = some a)
    (hb : b.model = a.model) : (s.setAgent k b).handlerModel? n = s.handlerModel? n := by
  have hlt := (List.getElem?_eq_some_iff.mp ha).1
  unfold handlerModel? setAgent
  by_cases hn : k = n
  · subst hn
    rw [List.getElem?_set_self hlt, ha]
    exact congrArg some hb
  · rw [List.getElem?_set_ne hn]

@[simp] theorem handlerModel?_unlock : (s.unlock i k).handlerModel? n = s.handlerModel? n := by
  unfold unlock
  split
  · next a ha =>
    split
    · exact s.handlerModel?_setAgent n k ha rfl
    · rfl
  · rfl

@[simp] theorem handlerModel?_letGo (phase : Phase) :
    (s.letGo i r phase).handlerModel? n = s.handlerModel? n := by
  simp [letGo]

@[simp] theorem handlerModel?_finish : (s.finish i r).handlerModel? n = s.handlerModel? n :=
  s.handlerModel?_letGo ..

@[simp] theorem handlerModel?_abandon : (s.abandon i r).handlerModel? n = s.handlerModel? n :=
  s.handlerModel?_letGo ..

@[simp] theorem handlerModel?_breakOff (f : Failure) :
    (s.breakOff i r f).handlerModel? n = s.handlerModel? n := by
  unfold breakOff
  split <;> simp

/-- A turn that opens writes the model of its own agent. -/
theorem handlerModel?_setHandlerModel (model : String) :
    (s.setHandlerModel k model).handlerModel? n =
      if k = n then (s.handlerModel? n).map fun _ => model else s.handlerModel? n := by
  unfold setHandlerModel
  split
  · next a ha =>
    have hlt := (List.getElem?_eq_some_iff.mp ha).1
    unfold handlerModel? setAgent
    by_cases hn : k = n
    · subst hn
      simp [hlt]
    · simp [hn]
  · next hnone =>
    by_cases hn : k = n
    · subst hn
      simp [handlerModel?, hnone]
    · simp [hn]

end Parts

theorem handlerModel?_addAgent {s : Scene} {n : Nat} {model : String}
    (h : s.handlerModel? n = some model) (id built : String) :
    (s.addAgent id built).handlerModel? n = some model := by
  obtain ⟨a, ha, hmodel⟩ := Option.map_eq_some_iff.mp h
  have hlt := (List.getElem?_eq_some_iff.mp ha).1
  unfold handlerModel? addAgent
  rw [List.getElem?_append_left hlt, ha]
  exact congrArg some hmodel

theorem handlerModel?_of_holders {s : Scene} {n : Nat} {holder : Option Nat}
    (h : s.holders[n]? = some holder) : ∃ model, s.handlerModel? n = some model := by
  unfold holders at h
  rw [List.getElem?_map] at h
  obtain ⟨a, ha, -⟩ := Option.map_eq_some_iff.mp h
  exact ⟨a.model, by rw [handlerModel?, ha, Option.map_some]⟩

end Scene

/-! ### Moves -/

section Moves

variable {s s' : Scene} {m : Move}

/-- **One move leaves the model of a handler alone**, unless it opens a turn of its agent. -/
theorem handlerModel_of_moved (hm : Moved s m s') {n : Nat} {model : String}
    (h : s.handlerModel? n = some model) :
    s'.handlerModel? n = some model ∨
      ∃ (i : Nat) (r : ChatRequest) (message : String),
        s.requests[i]? = some r ∧ r.phase = .locked message ∧ r.agent = n := by
  cases hm with
  | builds => exact .inl (Scene.handlerModel?_addAgent (by simpa using h) _ _)
  | @locks i r message id held hr hp ha =>
    refine .inl ?_
    rw [Scene.handlerModel?_setRequest,
      s.handlerModel?_setAgent n _ (b := ⟨id, held, some i⟩) ha rfl]
    exact h
  | @opens i r message stamp state hr hp hs =>
    by_cases hn : r.agent = n
    · exact .inr ⟨i, r, message, hr, hp, hn⟩
    · refine .inl ?_
      rw [Scene.handlerModel?_setRequest, Scene.handlerModel?_setHandlerModel, if_neg hn]
      exact h
  | _ => exact .inl (by simpa using h)

/-- One request has moved, and keeps its agent. -/
def OneMoves (s s' : Scene) : Prop :=
  ∃ (i : Nat) (q q' : ChatRequest),
    s.requests[i]? = some q ∧ s'.requests = s.requests.set i q' ∧ q'.agent = q.agent

theorem oneMoves_setRequest {t : Scene} (ht : t.requests = s.requests) {i : Nat}
    {q q' : ChatRequest} (hq : s.requests[i]? = some q) (hagent : q'.agent = q.agent) :
    OneMoves s (t.setRequest i q') :=
  ⟨i, q, q', hq, by rw [Scene.requests_setRequest, ht], hagent⟩

theorem oneMoves_letGo {t : Scene} (ht : t.requests = s.requests) {i : Nat} {q : ChatRequest}
    (hq : s.requests[i]? = some q) (phase : Phase) : OneMoves s (t.letGo i q phase) :=
  ⟨i, q, { q with phase }, hq, by rw [Scene.requests_letGo, ht], rfl⟩

theorem oneMoves_breakOff {t : Scene} (ht : t.requests = s.requests) {i : Nat} {q : ChatRequest}
    (hq : s.requests[i]? = some q) (f : Failure) : OneMoves s (t.breakOff i q f) := by
  cases hst : q.streamed with
  | true =>
    rw [t.breakOff_streamed i hst f]
    exact oneMoves_setRequest ht hq rfl
  | false =>
    rw [t.breakOff_buffered i hst f]
    exact oneMoves_letGo ht hq _

theorem oneMoves_of_moved (hm : Moved s m s') :
    (∃ new, s'.requests = s.requests ++ new) ∨ OneMoves s s' := by
  cases hm with
  | joins => exact .inl ⟨_, rfl⟩
  | turnedAway | changes => exact .inl ⟨[], by simp⟩
  | builds => exact .inl ⟨_, congrArg (· ++ [_]) s.requests_dropIdle⟩
  | leaves hq | abandons hq => exact .inr (oneMoves_letGo rfl hq _)
  | refused hq | completes hq | failsAtOnce hq | records hq =>
    exact .inr (oneMoves_letGo (Scene.requests_withStore ..) hq _)
  | prepared hq | starts hq | passesOn hq =>
    exact .inr (oneMoves_setRequest (Scene.requests_withStore ..) hq rfl)
  | locks hq => exact .inr (oneMoves_setRequest (Scene.requests_setAgent ..) hq rfl)
  | opensNot hq | completesNot hq =>
    exact .inr (oneMoves_breakOff (Scene.requests_withStore ..) hq _)
  | fails hq => exact .inr (oneMoves_breakOff rfl hq _)
  | opens hq => exact .inr (oneMoves_setRequest (by simp) hq rfl)

theorem agent_of_moved (hm : Moved s m s') {n : Nat} {r r' : ChatRequest}
    (hr : s.requests[n]? = some r) (hr' : s'.requests[n]? = some r') : r'.agent = r.agent := by
  obtain ⟨new, hs⟩ | ⟨i, q, q', hq, hs, hagent⟩ := oneMoves_of_moved hm
  · rw [hs, List.getElem?_append_left (List.getElem?_eq_some_iff.mp hr).1, hr] at hr'
    cases hr'
    rfl
  · rw [hs] at hr'
    by_cases hn : i = n
    · subst hn
      rw [hr] at hq
      cases hq
      rw [List.getElem?_set_self (List.getElem?_eq_some_iff.mp hr).1] at hr'
      cases hr'
      exact hagent
    · rw [List.getElem?_set_ne hn, hr] at hr'
      cases hr'
      rfl

end Moves

/-! ### Turns that open -/

theorem Store.modelOf?_of_stateOf {s : Store} {id : String} {state : SessionState}
    (h : s.stateOf id = .ok state) : s.database.modelOf? id = some state.model := by
  unfold Database.modelOf?
  cases hr : s.database.row? id with
  | none =>
    unfold stateOf Database.load at h
    rw [hr] at h
    cases h
  | some r =>
    rw [stateOf_of_row hr] at h
    cases hm : s.database.messagesOf id with
    | error f =>
      rw [hm] at h
      cases h
    | ok ms =>
      rw [hm] at h
      cases h
      rfl

/-- The state that a turn opens with has the model that the row has by then. -/
theorem Store.modelOf?_appendUserMessage {s : Store} {stamp : Stamp} {id text : String}
    {state : SessionState} (h : (s.appendUserMessage stamp id text).1 = .ok state) :
    (s.appendUserMessage stamp id text).2.database.modelOf? id = some state.model := by
  unfold appendUserMessage at h ⊢
  rw [mutate_eq] at h ⊢
  split at h
  · cases h
  · exact modelOf?_of_stateOf h

theorem ChatRequest.input_begun {r : ChatRequest} {message : String} {state : SessionState}
    {input : Input} (h : (r.begun message state).phase.input? = some input) :
    input = Agents.turnInput message r.streamed state := by
  unfold begun at h
  simp only at h
  split at h <;> exact (Option.some.inj h).symm

theorem Phase.hasLock_of_input {p : Phase} {input : Input} (h : p.input? = some input) :
    p.hasLock = true := by
  cases p <;> simp_all [input?, hasLock]

/-- A turn that opens leaves row and handler with one model. -/
theorem models_of_opened {s s' : Scene} {n : Nat} {r : ChatRequest} {message : String}
    {stamp : Stamp} {state : SessionState} (hm : Moved s (.openTurn n stamp) s')
    (hl : s.LocksInOrder) (hr : s.requests[n]? = some r) (hp : r.phase = .locked message)
    (hs : (s.store.appendUserMessage stamp r.sessionId message).1 = .ok state) :
    s'.store.database.modelOf? r.sessionId = some state.model ∧
      s'.handlerModel? r.agent = some state.model := by
  cases hm with
  | opensNot hq hq' hf =>
    cases hr.symm.trans hq
    cases hp.symm.trans hq'
    rw [hs] at hf
    cases hf
  | opens hq hq' hstate =>
    cases hr.symm.trans hq
    cases hp.symm.trans hq'
    cases hs.symm.trans hstate
    obtain ⟨model, hmodel⟩ := Scene.handlerModel?_of_holders (hl.holds n r hr (by rw [hp]; rfl))
    refine ⟨?_, ?_⟩
    · rw [Scene.store_setRequest, Scene.store_setHandlerModel]
      exact Store.modelOf?_appendUserMessage hs
    · rw [Scene.handlerModel?_setRequest, Scene.handlerModel?_setHandlerModel, if_pos rfl,
        Scene.handlerModel?_withStore, hmodel]
      rfl

/-! ### Runs -/

/-- The turn of a request was opened in a run, when the row of its session had the model. From then
on the request has held its agent, and the handler of the agent has had the model. -/
def CarriedIn (done : List Step) (n : Nat) (r : ChatRequest) (model : String) : Prop :=
  ∃ before o later stamp, done = before ++ o :: later ∧ o.move = .openTurn n stamp ∧
    o.after.store.database.modelOf? r.sessionId = some model ∧
    ∀ t ∈ o :: later, t.after.holders[r.agent]? = some (some n) ∧
      t.after.handlerModel? r.agent = some model

/-- All open turns have the models of their handlers. -/
structure Carried (done : List Step) (s : Scene) : Prop where
  locks : s.LocksInOrder
  handlers : ∀ (n : Nat) (r : ChatRequest), s.requests[n]? = some r → ∀ input ∈ r.phase.input?,
    s.handlerModel? r.agent = some input.model
  runs : ∀ (n : Nat) (r : ChatRequest), s.requests[n]? = some r → ∀ input ∈ r.phase.input?,
    CarriedIn done n r input.model

namespace Carried

variable {done : List Step} {s s' : Scene} {m : Move}

theorem start (store : Store) (capacity : Nat) : Carried [] (Scene.start store capacity) where
  locks := Scene.locksInOrder_start store capacity
  handlers := by simp [Scene.start]
  runs := by simp [Scene.start]

/-- The handler of an open turn keeps its model: who opens another turn would hold the same lock. -/
theorem handlerModel (h : Carried done s) (hm : Moved s m s') {n : Nat} {r : ChatRequest}
    {input : Input} (hr : s.requests[n]? = some r) (hinput : r.phase.input? = some input) :
    s'.handlerModel? r.agent = some input.model := by
  obtain hkept | ⟨i, q, message, hq, hp, hagent⟩ :=
    handlerModel_of_moved hm (h.handlers n r hr input hinput)
  · exact hkept
  · have hholds := h.locks.holds n r hr (Phase.hasLock_of_input hinput)
    have hother := h.locks.holds i q hq (by rw [hp]; rfl)
    rw [hagent, hholds] at hother
    cases hother
    cases hr.symm.trans hq
    rw [hp] at hinput
    cases hinput

theorem moved (h : Carried done s) (hm : Moved s m s') : Carried (done ++ [⟨s, m, s'⟩]) s' := by
  have hlocks := h.locks.moved hm
  have hboth (n : Nat) (r' : ChatRequest) (hr' : s'.requests[n]? = some r') (input : Input)
      (hinput : r'.phase.input? = some input) : s'.handlerModel? r'.agent = some input.model ∧
        CarriedIn (done ++ [⟨s, m, s'⟩]) n r' input.model := by
    have hholds := hlocks.holds n r' hr' (Phase.hasLock_of_input hinput)
    cases advance_of_moved hm hr' with
    | idle _ hnone | prepares _ _ _ _ _ hnone =>
      rw [hnone] at hinput
      cases hinput
    | @stays r hr hid _ _ hsame =>
      rw [hsame] at hinput
      have hagent := agent_of_moved hm hr hr'
      have hmodel := h.handlerModel hm hr hinput
      obtain ⟨before, o, later, stamp, rfl, ho, hrow, hall⟩ := h.runs n r hr input hinput
      rw [hagent] at hholds ⊢
      refine ⟨hmodel, before, o, later ++ [⟨s, m, s'⟩], stamp, by simp, ho, by rw [hid]; exact hrow,
        ?_⟩
      rw [← List.cons_append, hagent]
      intro t ht
      rcases List.mem_append.mp ht with ht | ht
      · exact hall t ht
      · rw [List.mem_singleton.mp ht]
        exact ⟨hholds, hmodel⟩
    | @opens r message stamp state hopen hr hp hs heq =>
      subst hopen heq
      obtain ⟨hrow, hmodel⟩ := models_of_opened hm h.locks hr hp hs
      rw [ChatRequest.input_begun hinput]
      refine ⟨hmodel, done, ⟨s, .openTurn n stamp, s'⟩, [], stamp, rfl, rfl, hrow, ?_⟩
      intro t ht
      rw [List.mem_singleton.mp ht]
      exact ⟨hholds, hmodel⟩
  exact ⟨hlocks, fun n r hr input hinput => (hboth n r hr input hinput).1,
    fun n r hr input hinput => (hboth n r hr input hinput).2⟩

/-- **A whole run.** -/
theorem afterAll {ms : List Move} : ∀ {s s' : Scene} {done : List Step}, Carried done s →
    s.afterAll ms = some s' → Carried (done ++ s.steps ms) s' := by
  induction ms with
  | nil =>
    intro s s' done h hs
    cases hs
    simpa [Scene.steps] using h
  | cons m ms ih =>
    intro s s' done h hs
    obtain ⟨t, hm, hs⟩ := Option.bind_eq_some_iff.mp hs
    have hrest := ih (h.moved (moved_of_after hm)) hs
    have hsteps : s.steps (m :: ms) = ⟨s, m, t⟩ :: t.steps ms := by
      rw [Scene.steps, hm]
    rw [hsteps]
    rw [List.append_assoc] at hrest
    exact hrest

end Carried

/-- **The requests of a turn carry the stored model.** In every scene that can be reached, with a
cache of any size, an open turn was opened by a move of its request, and the row of the session had
a model when that move had added the user's message. Whatever the handler of the agent had before,
it has had this model in every scene since then, with the lock held by the request, and so have all
requests for completions that the turn sends: the first, and the one for the follow-up if there are
calls. -/
theorem requests_carry_stored_model {store : Store} {capacity : Nat} {ms : List Move} {s : Scene}
    (hs : (Scene.start store capacity).afterAll ms = some s) {n : Nat} {r : ChatRequest}
    {input : Input} (hr : s.requests[n]? = some r) (hinput : r.phase.input? = some input) :
    ∃ model before o later stamp,
      (Scene.start store capacity).steps ms = before ++ o :: later ∧ o.move = .openTurn n stamp ∧
      o.after.store.database.modelOf? r.sessionId = some model ∧
      (∀ t ∈ o :: later,
        t.after.holders[r.agent]? = some (some n) ∧ t.after.handlerModel? r.agent = some model) ∧
      input.model = model ∧
      ∀ {σ : Type} (h : Handler σ) (log : σ → List Request), h.Logs log → ∀ w : World σ,
        ∃ sent, log ((h.run input).run w).2.outside = log w.outside ++ sent ∧
          (∀ provider, h.mode = .live provider →
            sent = [h.primaryRequest input (h.toolsIn input w)] ∨
            ∃ calls records,
              sent = [h.primaryRequest input (h.toolsIn input w),
                h.followUpRequest input calls records]) ∧
          ∀ q ∈ sent, q.model = model := by
  obtain ⟨before, o, later, stamp, hsteps, ho, hrow, hall⟩ :=
    ((Carried.start store capacity).afterAll hs).runs n r hr input hinput
  refine ⟨input.model, before, o, later, stamp, hsteps, ho, hrow, hall, rfl, fun h log hlogs w =>
    ?_⟩
  obtain ⟨sent, hlog, -, hmodels⟩ := Handler.run_log_model hlogs input w
  obtain ⟨sent', hlog', -, hsent⟩ := Handler.run_sends hlogs input w
  obtain rfl : sent' = sent := List.append_cancel_left (hlog'.symm.trans hlog)
  refine ⟨sent', hlog, fun provider hmode => ?_, hmodels⟩
  obtain ⟨-, hone⟩ | ⟨-, text, records, -, htwo⟩ := hsent provider hmode
  · exact .inl hone
  · exact .inr ⟨_, records, htwo⟩

/-! ### A handler with an old model -/

/-- The agent of a session is built, and its session gets another model before the turn opens and a
third one while it runs. The cache is full when the next session comes, and the agent stays since it
is held. -/
def staleRun : List Move :=
  [.arrive "s" "hi" none false, .change (.setModel "s" "b"), .prepare 0, .lock 0,
    .openTurn 0 ⟨"m1", 1⟩, .change (.setModel "s" "c"), .arrive "other" "hi" none false]

theorem requests_carry_stored_model_staleRun :
    let start := Scene.start ⟨.empty, ⟨"a", "p", []⟩⟩ 1
    ((start.afterAll (staleRun.take 4)).bind (·.handlerModel? 0)) = some "a" ∧
      ∃ s r input, start.afterAll staleRun = some s ∧ s.requests[0]? = some r ∧
        r.phase.input? = some input ∧ s.store.modelOf "s" = "c" ∧
          s.handlerModel? r.agent = some "b" ∧
        ∀ w, ∃ sent, Script.log (((Handler.scripted 100).run input).run w).2.outside =
          Script.log w.outside ++ sent ∧ sent ≠ [] ∧ ∀ q ∈ sent, q.model = "b" := by
  intro start
  have hmodels : (firstTurn? start staleRun).map (fun t => (t.2.1.model, t.2.2.model)) =
      some (none, "b") := by
    decide +kernel
  obtain ⟨s, r, input, hs, hr, hinput, -, hmodel⟩ := exists_firstTurn hmodels
  obtain ⟨model, before, o, later, stamp, hsteps, -, -, hall, rfl, hsent⟩ :=
    requests_carry_stored_model hs hr hinput
  have hlast : (start.afterAll staleRun).map (fun s => (s.store.modelOf "s", s.handlerModel? 0,
      (s.requests[0]?).map (·.agent))) = some ("c", some "b", some 0) := by decide +kernel
  rw [hs] at hlast
  obtain ⟨hstored, hlast⟩ := Prod.mk.inj (Option.some.inj hlast)
  obtain ⟨hhandler, hagent⟩ := Prod.mk.inj hlast
  rw [hr] at hagent
  rw [← Option.some.inj hagent] at hhandler
  refine ⟨by decide +kernel, s, r, input, hs, hr, hinput, hstored, hhandler, fun w => ?_⟩
  obtain ⟨sent, hlog, hshape, hsame⟩ :=
    hsent (Handler.scripted 100) Script.log (Handler.logs_scripted 100) w
  rw [hmodel] at hsame
  refine ⟨sent, hlog, ?_, hsame⟩
  rintro rfl
  obtain hone | ⟨calls, records, htwo⟩ := hshape Script.provider rfl
  · cases hone
  · cases htwo

end ChatRelay.Session
