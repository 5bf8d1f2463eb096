import ChatRelay.Session.Interleaving

/-! # What a move can do

A request that arrives joins the agent of its session, or has one built, or is turned away. Every
other move is made by a request in the phase that the move asks for; it changes the store by at most
one operation, and leaves the request in its next phase or lets it go. `Moved` lists all this once,
one constructor per way, so that what holds along a run is proved over its cases. -/

namespace ChatRelay.Session

open Turn

namespace Scene

/-! ### Parts of a scene -/

/-- The scene over another store. -/
def withStore (s : Scene) (store : Store) : Scene := { s with store }

/-- The scene after a request has come. -/
def addRequest (s : Scene) (r : ChatRequest) : Scene := { s with requests := s.requests ++ [r] }

/-- The scene after an agent was built for a session. -/
def addAgent (s : Scene) (id model : String) : Scene :=
  { s with
    agents := s.agents ++ [⟨id, model, none⟩]
    cached := (id, s.agents.length) :: s.cached }

/-- The holder of each agent's turn lock. -/
def holders (s : Scene) : List (Option Nat) := s.agents.map (·.holder)

section Parts

variable (s : Scene) (store : Store) (r : ChatRequest) (i n : Nat) (a : BuiltAgent)
  (id model : String)

@[simp] theorem store_withStore : (s.withStore store).store = store := rfl

@[simp] theorem requests_withStore : (s.withStore store).requests = s.requests := rfl

@[simp] theorem agents_withStore : (s.withStore store).agents = s.agents := rfl

@[simp] theorem cached_withStore : (s.withStore store).cached = s.cached := rfl

@[simp] theorem holders_withStore : (s.withStore store).holders = s.holders := rfl

@[simp] theorem store_setRequest : (s.setRequest i r).store = s.store := rfl

@[simp] theorem requests_setRequest : (s.setRequest i r).requests = s.requests.set i r := rfl

@[simp] theorem cached_setRequest : (s.setRequest i r).cached = s.cached := rfl

@[simp] theorem holders_setRequest : (s.setRequest i r).holders = s.holders := rfl

@[simp] theorem store_setAgent : (s.setAgent n a).store = s.store := rfl

@[simp] theorem requests_setAgent : (s.setAgent n a).requests = s.requests := rfl

@[simp] theorem cached_setAgent : (s.setAgent n a).cached = s.cached := rfl

@[simp] theorem holders_setAgent : (s.setAgent n a).holders = s.holders.set n a.holder := by
  simp [holders, setAgent]

@[simp] theorem store_addRequest : (s.addRequest r).store = s.store := rfl

@[simp] theorem requests_addRequest : (s.addRequest r).requests = s.requests ++ [r] := rfl

@[simp] theorem cached_addRequest : (s.addRequest r).cached = s.cached := rfl

@[simp] theorem holders_addRequest : (s.addRequest r).holders = s.holders := rfl

@[simp] theorem store_addAgent : (s.addAgent id model).store = s.store := rfl

@[simp] theorem requests_addAgent : (s.addAgent id model).requests = s.requests := rfl

@[simp] theorem cached_addAgent :
    (s.addAgent id model).cached = (id, s.agents.length) :: s.cached := rfl

@[simp] theorem holders_addAgent : (s.addAgent id model).holders = s.holders ++ [none] := by
  simp [holders, addAgent]

@[simp] theorem store_dropIdle : s.dropIdle.store = s.store := by
  unfold dropIdle; split <;> rfl

@[simp] theorem requests_dropIdle : s.dropIdle.requests = s.requests := by
  unfold dropIdle; split <;> rfl

@[simp] theorem agents_dropIdle : s.dropIdle.agents = s.agents := by
  unfold dropIdle; split <;> rfl

@[simp] theorem holders_dropIdle : s.dropIdle.holders = s.holders := by
  simp [holders]

@[simp] theorem store_unlock : (s.unlock i n).store = s.store := by
  unfold unlock; split <;> (try split) <;> rfl

@[simp] theorem requests_unlock : (s.unlock i n).requests = s.requests := by
  unfold unlock; split <;> (try split) <;> rfl

@[simp] theorem cached_unlock : (s.unlock i n).cached = s.cached := by
  unfold unlock; split <;> (try split) <;> rfl

/-- Who lets go of a lock frees it if he holds it. -/
theorem holders_unlock :
    (s.unlock i n).holders =
      if s.holders[n]? = some (some i) then s.holders.set n none else s.holders := by
  have hn : s.holders[n]? = (s.agents[n]?).map (·.holder) := by simp [holders]
  rw [hn]
  unfold unlock
  cases h : s.agents[n]? with
  | none => simp
  | some a => by_cases ha : a.holder = some i <;> simp [ha]

@[simp] theorem store_setHandlerModel : (s.setHandlerModel n model).store = s.store := by
  unfold setHandlerModel; split <;> rfl

@[simp] theorem requests_setHandlerModel : (s.setHandlerModel n model).requests = s.requests := by
  unfold setHandlerModel; split <;> rfl

@[simp] theorem cached_setHandlerModel : (s.setHandlerModel n model).cached = s.cached := by
  unfold setHandlerModel; split <;> rfl

@[simp] theorem holders_setHandlerModel : (s.setHandlerModel n model).holders = s.holders := by
  unfold setHandlerModel
  cases h : s.agents[n]? with
  | none => rfl
  | some a =>
    have ha : s.holders[n]? = some a.holder := by simp [holders, h]
    obtain ⟨hlt, hget⟩ := List.getElem?_eq_some_iff.mp ha
    simp only [holders_setAgent]
    rw [← hget, List.set_getElem_self]

end Parts

section LettingGo

variable (s : Scene) (i : Nat) (r : ChatRequest) (phase : Phase)

@[simp] theorem store_letGo : (s.letGo i r phase).store = s.store := by
  simp [letGo]

@[simp] theorem requests_letGo :
    (s.letGo i r phase).requests = s.requests.set i { r with phase } := by
  simp [letGo]

@[simp] theorem cached_letGo : (s.letGo i r phase).cached = s.cached := by
  simp [letGo]

@[simp] theorem store_finish : (s.finish i r).store = s.store := s.store_letGo i r _

@[simp] theorem requests_finish :
    (s.finish i r).requests = s.requests.set i { r with phase := .finished } :=
  s.requests_letGo i r _

@[simp] theorem cached_finish : (s.finish i r).cached = s.cached := s.cached_letGo i r _

@[simp] theorem store_abandon : (s.abandon i r).store = s.store := s.store_letGo i r _

@[simp] theorem requests_abandon :
    (s.abandon i r).requests = s.requests.set i { r with phase := .abandoned } :=
  s.requests_letGo i r _

end LettingGo

theorem breakOff_streamed (s : Scene) (i : Nat) {r : ChatRequest} (h : r.streamed = true)
    (f : Failure) :
    s.breakOff i r f = s.setRequest i
      { r with phase := .failing (streamFailureText f),
               chunks := r.chunks ++ [streamFailureText f] } :=
  if_pos h

theorem breakOff_buffered (s : Scene) (i : Nat) {r : ChatRequest} (h : r.streamed = false)
    (f : Failure) : s.breakOff i r f = s.finish i r := by
  unfold breakOff
  rw [h]
  rfl

@[simp] theorem store_breakOff (s : Scene) (i : Nat) (r : ChatRequest) (f : Failure) :
    (s.breakOff i r f).store = s.store := by
  unfold breakOff; split <;> simp

end Scene

/-! ### Moves -/

/-- The request whose turn has been opened. -/
def ChatRequest.begun (r : ChatRequest) (message : String) (state : SessionState) : ChatRequest :=
  { r with
    phase := if r.streamed then .opened (Agents.turnInput message r.streamed state)
      else .running (Agents.turnInput message r.streamed state) }

theorem ChatRequest.isOpen_begun (r : ChatRequest) (message : String) (state : SessionState) :
    (r.begun message state).phase.isOpen = true := by
  unfold begun; simp only; split <;> rfl

/-- What a scene becomes on a move. -/
inductive Moved (s : Scene) : Move → Scene → Prop
  /-- The agent of the session is cached. -/
  | joins {id message : String} {model : Option String} {streamed : Bool} {n : Nat}
      (hn : s.cached.lookup id = some n) :
      Moved s (.arrive id message model streamed)
        (s.addRequest ⟨id, n, message, model, streamed, .arrived, []⟩)
  /-- The session cannot be read. -/
  | turnedAway {id message : String} {model : Option String} {streamed : Bool} {f : Failure}
      (hn : s.cached.lookup id = none) (hs : (s.store.snapshot id).1 = .error f) :
      Moved s (.arrive id message model streamed) (s.dropIdle.withStore (s.store.snapshot id).2)
  | builds {id message : String} {model : Option String} {streamed : Bool} {state : SessionState}
      (hn : s.cached.lookup id = none) (hs : (s.store.snapshot id).1 = .ok state) :
      Moved s (.arrive id message model streamed)
        (((s.dropIdle.withStore (s.store.snapshot id).2).addAgent id state.model).addRequest
          ⟨id, s.agents.length, message, model, streamed, .arrived, []⟩)
  | changes (c : Change) : Moved s (.change c) (s.withStore (c.applyTo s.store))
  | leaves {i : Nat} {r : ChatRequest} (hr : s.requests[i]? = some r)
      (hp : r.phase = .arrived ∨ ∃ message, r.phase = .waiting message) :
      Moved s (.leave i) (s.finish i r)
  /-- The caller of a buffered turn goes away. -/
  | abandons {i : Nat} {r : ChatRequest} {input : Input} (hr : s.requests[i]? = some r)
      (hp : r.phase = .running input) (hst : r.streamed = false) :
      Moved s (.leave i) (s.abandon i r)
  | refused {i : Nat} {r : ChatRequest} {f : Failure} (hr : s.requests[i]? = some r)
      (hp : r.phase = .arrived)
      (hs : (s.store.prepareTurn r.sessionId r.message r.model).1 = .error f) :
      Moved s (.prepare i)
        ((s.withStore (s.store.prepareTurn r.sessionId r.message r.model).2).finish i r)
  | prepared {i : Nat} {r : ChatRequest} {message : String} (hr : s.requests[i]? = some r)
      (hp : r.phase = .arrived)
      (hs : (s.store.prepareTurn r.sessionId r.message r.model).1 = .ok message) :
      Moved s (.prepare i)
        ((s.withStore (s.store.prepareTurn r.sessionId r.message r.model).2).setRequest i
          { r with phase := .waiting message })
  | locks {i : Nat} {r : ChatRequest} {message id model : String} (hr : s.requests[i]? = some r)
      (hp : r.phase = .waiting message) (ha : s.agents[r.agent]? = some ⟨id, model, none⟩) :
      Moved s (.lock i) ((s.setAgent r.agent ⟨id, model, some i⟩).setRequest i
        { r with phase := .locked message })
  /-- The turn is given up at once if the state cannot be read, or nothing could be added. -/
  | opensNot {i : Nat} {r : ChatRequest} {message : String} {stamp : Stamp} {f : Failure}
      (hr : s.requests[i]? = some r) (hp : r.phase = .locked message)
      (hs : (s.store.appendUserMessage stamp r.sessionId message).1 = .error f) :
      Moved s (.openTurn i stamp)
        ((s.withStore (s.store.appendUserMessage stamp r.sessionId message).2).breakOff i r f)
  | opens {i : Nat} {r : ChatRequest} {message : String} {stamp : Stamp} {state : SessionState}
      (hr : s.requests[i]? = some r) (hp : r.phase = .locked message)
      (hs : (s.store.appendUserMessage stamp r.sessionId message).1 = .ok state) :
      Moved s (.openTurn i stamp)
        (((s.withStore (s.store.appendUserMessage stamp r.sessionId message).2).setHandlerModel
          r.agent state.model).setRequest i (r.begun message state))
  | starts {i : Nat} {r : ChatRequest} {input : Input} (hr : s.requests[i]? = some r)
      (hp : r.phase = .opened input) :
      Moved s (.startText i) ((s.withStore (s.store.beginStreaming r.sessionId).2).setRequest i
        { r with phase := .running input })
  | passesOn {i : Nat} {r : ChatRequest} {input : Input} {c : String}
      (hr : s.requests[i]? = some r) (hp : r.phase = .running input) (hst : r.streamed = true) :
      Moved s (.chunk i c)
        ((s.withStore (s.store.appendStreamChunk r.sessionId c).2).setRequest i
          { r with chunks := r.chunks ++ [c] })
  | completesNot {i : Nat} {r : ChatRequest} {input : Input} {stamp : Stamp} {o : TurnOutcome}
      {f : Failure} (hr : s.requests[i]? = some r) (hp : r.phase = .running input)
      (hs : (s.store.completeTurn stamp r.sessionId o.content o.toolCalls).1 = .error f) :
      Moved s (.complete i stamp o)
        ((s.withStore (s.store.completeTurn stamp r.sessionId o.content o.toolCalls).2).breakOff
          i r f)
  | completes {i : Nat} {r : ChatRequest} {input : Input} {stamp : Stamp} {o : TurnOutcome}
      {state : SessionState} (hr : s.requests[i]? = some r) (hp : r.phase = .running input)
      (hs : (s.store.completeTurn stamp r.sessionId o.content o.toolCalls).1 = .ok state) :
      Moved s (.complete i stamp o)
        ((s.withStore (s.store.completeTurn stamp r.sessionId o.content o.toolCalls).2).finish i r)
  /-- A streamed turn shows its failure first. -/
  | fails {i : Nat} {r : ChatRequest} {input : Input} {stamp : Stamp} {f : Completion.Failure}
      (hr : s.requests[i]? = some r) (hp : r.phase = .running input) (hst : r.streamed = true) :
      Moved s (.fail i stamp f) (s.breakOff i r (.completion f))
  | failsAtOnce {i : Nat} {r : ChatRequest} {input : Input} {stamp : Stamp}
      {f : Completion.Failure} (hr : s.requests[i]? = some r) (hp : r.phase = .running input)
      (hst : r.streamed = false) :
      Moved s (.fail i stamp f)
        ((s.withStore (s.store.failTurn stamp r.sessionId
          (bufferedFailureText (.completion f))).2).finish i r)
  | records {i : Nat} {r : ChatRequest} {text : String} {stamp : Stamp}
      (hr : s.requests[i]? = some r) (hp : r.phase = .failing text) :
      Moved s (.recordFailure i stamp)
        ((s.withStore (s.store.failTurn stamp r.sessionId text).2).finish i r)

namespace Scene

theorem moved_arrive (s : Scene) (id message : String) (model : Option String) (streamed : Bool) :
    Moved s (.arrive id message model streamed) (s.arrive id message model streamed) := by
  unfold arrive agentFor
  cases hn : s.cached.lookup id with
  | some n => exact .joins hn
  | none =>
    have hd : s.dropIdle.store.snapshot id = s.store.snapshot id := by rw [store_dropIdle]
    simp only [hd]
    have hturned := @Moved.turnedAway s id message model streamed
    have hbuilds := @Moved.builds s id message model streamed
    rw [← s.agents_dropIdle] at hbuilds
    generalize s.store.snapshot id = result at hturned hbuilds ⊢
    obtain ⟨f | state, store⟩ := result
    · exact hturned hn rfl
    · exact hbuilds hn rfl

theorem moved_prepare {s : Scene} {i : Nat} {r : ChatRequest} (hr : s.requests[i]? = some r)
    (hp : r.phase = .arrived) : Moved s (.prepare i) (s.prepare i r) := by
  have hrefused := @Moved.refused s i r
  have hprepared := @Moved.prepared s i r
  unfold prepare
  generalize s.store.prepareTurn r.sessionId r.message r.model = result at hrefused hprepared ⊢
  obtain ⟨f | message, store⟩ := result
  · exact hrefused hr hp rfl
  · exact hprepared hr hp rfl

theorem moved_lock {s s' : Scene} {i : Nat} {r : ChatRequest} {message : String}
    (hr : s.requests[i]? = some r) (hp : r.phase = .waiting message)
    (h : s.lock i r message = some s') : Moved s (.lock i) s' := by
  unfold lock at h
  split at h
  · rename_i id model ha
    cases h
    exact .locks hr hp ha
  · cases h

theorem moved_openTurn {s : Scene} {i : Nat} {r : ChatRequest} {message : String}
    (hr : s.requests[i]? = some r) (hp : r.phase = .locked message) (stamp : Stamp) :
    Moved s (.openTurn i stamp) (s.openTurn i r message stamp) := by
  have hopensNot := @Moved.opensNot s i r message stamp
  have hopens := @Moved.opens s i r message stamp
  unfold openTurn
  generalize s.store.appendUserMessage stamp r.sessionId message = result at hopensNot hopens ⊢
  obtain ⟨f | state, store⟩ := result
  · exact hopensNot hr hp rfl
  · exact hopens hr hp rfl

theorem moved_complete {s : Scene} {i : Nat} {r : ChatRequest} {input : Input}
    (hr : s.requests[i]? = some r) (hp : r.phase = .running input) (stamp : Stamp)
    (o : TurnOutcome) : Moved s (.complete i stamp o) (s.complete i r stamp o) := by
  have hnot := @Moved.completesNot s i r input stamp o
  have hcompletes := @Moved.completes s i r input stamp o
  unfold complete
  generalize s.store.completeTurn stamp r.sessionId o.content o.toolCalls =
    result at hnot hcompletes ⊢
  obtain ⟨f | state, store⟩ := result
  · exact hnot hr hp rfl
  · exact hcompletes hr hp rfl

theorem moved_fail {s : Scene} {i : Nat} {r : ChatRequest} {input : Input}
    (hr : s.requests[i]? = some r) (hp : r.phase = .running input) (stamp : Stamp)
    (f : Completion.Failure) : Moved s (.fail i stamp f) (s.fail i r stamp f) := by
  unfold fail
  by_cases hst : r.streamed = true
  · rw [if_pos hst]
    exact .fails hr hp hst
  · rw [if_neg hst]
    exact .failsAtOnce hr hp (by simpa using hst)

theorem moved_act {s s' : Scene} {i : Nat} {r : ChatRequest} {m : Move}
    (hr : s.requests[i]? = some r) (hi : m.request? = some i) (h : s.act i r m = some s') :
    Moved s m s' := by
  unfold act at h
  split at h <;> simp only [Move.request?, Option.some.injEq] at hi <;> try subst hi
  · cases h
    exact .leaves hr (.inl ‹_›)
  · cases h
    exact .leaves hr (.inr ⟨_, ‹_›⟩)
  · split at h
    · cases h
    · cases h
      exact .abandons hr ‹_› (Bool.eq_false_iff.mpr ‹_›)
  · cases h
    exact moved_prepare hr ‹_›
  · exact moved_lock hr ‹_› h
  · cases h
    exact moved_openTurn hr ‹_› _
  · cases h
    exact .starts hr ‹_›
  · split at h
    · cases h
      exact .passesOn hr ‹_› ‹_›
    · cases h
  · cases h
    exact moved_complete hr ‹_› _ _
  · cases h
    exact moved_fail hr ‹_› _ _
  · cases h
    exact .records hr ‹_›
  · cases h

end Scene

/-- **Every move is one of the ways listed.** -/
theorem moved_of_after {s s' : Scene} {m : Move} (h : s.after m = some s') : Moved s m s' := by
  unfold Scene.after at h
  split at h
  · cases h
    exact Scene.moved_arrive ..
  · cases h
    exact .changes _
  · cases hi : m.request? with
    | none => simp [hi] at h
    | some i =>
      cases hr : s.requests[i]? with
      | none => simp [hi, hr] at h
      | some r =>
        rw [hi] at h
        simp only [bind, Option.bind, hr] at h
        exact Scene.moved_act hr hi h

end ChatRelay.Session
