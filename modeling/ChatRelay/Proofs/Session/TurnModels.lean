import ChatRelay.Proofs.Session.SessionModels
import ChatRelay.Proofs.Turn.Requests

/-! # The model that a turn runs with

A request that comes with a model sets it when it is prepared, and waits for its turn only then. Its
turn runs with the model that the session has when the turn opens. Until then other requests of the
session can be prepared and set theirs, the turn lock notwithstanding. So a turn runs with the model
it asked for just if none that was prepared in between has set another one
(`runs_with_model_iff`). -/

namespace ChatRelay.Session

open Completion Turn

/-! ### Requests on a move -/

/-- How a request that is there after a move has come to where it stands. -/
inductive Advance (s : Scene) (m : Move) (n : Nat) (r' : ChatRequest) : Prop
  /-- It has no message prepared, and no turn. -/
  | idle (hprepared : r'.phase.prepared? = none) (hinput : r'.phase.input? = none)
  | stays {r : ChatRequest} (hr : s.requests[n]? = some r) (hid : r'.sessionId = r.sessionId)
      (hmodel : r'.model = r.model) (hprepared : r'.phase.prepared? = r.phase.prepared?)
      (hinput : r'.phase.input? = r.phase.input?)
  | prepares {r : ChatRequest} (hm : m = .prepare n) (hr : s.requests[n]? = some r)
      (hsome : Text.isBlankText r.message = false) (hid : r'.sessionId = r.sessionId)
      (hmodel : r'.model = r.model) (hinput : r'.phase.input? = none)
  | opens {r : ChatRequest} {message : String} {stamp : Stamp} {state : SessionState}
      (hm : m = .openTurn n stamp) (hr : s.requests[n]? = some r) (hp : r.phase = .locked message)
      (hs : (s.store.appendUserMessage stamp r.sessionId message).1 = .ok state)
      (hr' : r' = r.begun message state)

namespace Advance

variable {s s' : Scene} {m : Move}

theorem of_same {n : Nat} {r : ChatRequest} (hr : s'.requests[n]? = some r)
    (hs : s'.requests = s.requests) : Advance s m n r := by
  rw [hs] at hr
  exact .stays hr rfl rfl rfl rfl

theorem of_add {n : Nat} {r q : ChatRequest} (hr : s'.requests[n]? = some r)
    (hs : s'.requests = s.requests ++ [q]) (hq : q.phase = .arrived) : Advance s m n r := by
  rw [hs] at hr
  rcases Nat.lt_or_ge n s.requests.length with hn | hn
  · rw [List.getElem?_append_left hn] at hr
    exact .stays hr rfl rfl rfl rfl
  · rw [List.getElem?_append_right hn] at hr
    obtain rfl := List.mem_singleton.mp (List.mem_of_getElem? hr)
    exact .idle (by rw [hq]; rfl) (by rw [hq]; rfl)

/-- Only the request that makes the move changes. -/
theorem of_set {n i : Nat} {r q : ChatRequest} (hr : s'.requests[n]? = some r)
    (hs : s'.requests = s.requests.set i q) (hq : Advance s m i q) : Advance s m n r := by
  rw [hs] at hr
  by_cases hn : i = n
  · subst hn
    obtain ⟨hlt, hget⟩ := List.getElem?_eq_some_iff.mp hr
    rw [List.getElem_set_self] at hget
    rw [← hget]
    exact hq
  · rw [List.getElem?_set_ne hn] at hr
    exact .stays hr rfl rfl rfl rfl

theorem of_setRequest {store : Store} {n i : Nat} {r q : ChatRequest}
    (hr : ((s.withStore store).setRequest i q).requests[n]? = some r) (hq : Advance s m i q) :
    Advance s m n r := of_set hr rfl hq

theorem of_letGo {t : Scene} {n i : Nat} {r q : ChatRequest} {phase : Phase}
    (hr : (t.letGo i q phase).requests[n]? = some r) (ht : t.requests = s.requests)
    (hphase : phase.isFinished = true) : Advance s m n r := by
  refine of_set hr (by rw [Scene.requests_letGo, ht]) ?_
  cases phase with
  | finished | abandoned => exact .idle rfl rfl
  | _ => exact nomatch hphase

theorem of_finish {t : Scene} {n i : Nat} {r q : ChatRequest}
    (hr : (t.finish i q).requests[n]? = some r) (ht : t.requests = s.requests) : Advance s m n r :=
  of_letGo hr ht rfl

theorem of_breakOff {t : Scene} {n i : Nat} {r q : ChatRequest} {f : Failure}
    (hr : (t.breakOff i q f).requests[n]? = some r) (ht : t.requests = s.requests) :
    Advance s m n r := by
  cases hst : q.streamed with
  | true =>
    rw [t.breakOff_streamed i hst f] at hr
    exact of_set hr (by rw [Scene.requests_setRequest, ht]) (.idle rfl rfl)
  | false =>
    rw [t.breakOff_buffered i hst f] at hr
    exact of_finish hr ht

end Advance

/-- **One move.** -/
theorem advance_of_moved {s s' : Scene} {m : Move} (hm : Moved s m s') {n : Nat} {r' : ChatRequest}
    (hr' : s'.requests[n]? = some r') : Advance s m n r' := by
  cases hm with
  | joins => exact .of_add hr' rfl rfl
  | turnedAway => exact .of_same hr' (by simp)
  | builds => exact .of_add hr' (congrArg (· ++ [_]) s.requests_dropIdle) rfl
  | changes => exact .of_same hr' rfl
  | leaves | refused | completes | failsAtOnce | records => exact .of_finish hr' (by simp)
  | abandons => exact .of_letGo hr' rfl rfl
  | prepared hr _ hs =>
    exact .of_setRequest hr' (.prepares rfl hr (Store.not_blank_of_prepareTurn_ok hs) rfl rfl rfl)
  | locks hr hp => exact .of_set hr' rfl (.stays hr rfl rfl (by rw [hp]; rfl) (by rw [hp]; rfl))
  | opensNot | completesNot | fails => exact .of_breakOff hr' (by simp)
  | opens hr hp hs => exact .of_set hr' (by simp) (.opens rfl hr hp hs rfl)
  | starts hr hp => exact .of_setRequest hr' (.stays hr rfl rfl (by rw [hp]; rfl) (by rw [hp]; rfl))
  | passesOn hr => exact .of_setRequest hr' (.stays hr rfl rfl rfl rfl)

/-! ### The past of a turn -/

/-- The step in which a request was prepared. -/
structure Step.Prepares (p : Step) (n : Nat) (r : ChatRequest) : Prop where
  move : p.move = .prepare n
  sets : p.modelSet? r.sessionId = givenModel? r.model

/-- The request was prepared in a run. -/
def PreparedIn (done : List Step) (n : Nat) (r : ChatRequest) : Prop :=
  ∃ before p between, done = before ++ p :: between ∧ p.Prepares n r

/-- The request was prepared in a run and has opened its turn later, with the model that was set
last. -/
def OpenedIn (first : String → String) (done : List Step) (n : Nat) (r : ChatRequest)
    (input : Input) : Prop :=
  ∃ before p between o later stamp, done = before ++ p :: between ++ o :: later ∧ p.Prepares n r ∧
    o.move = .openTurn n stamp ∧
    input.model = lastModel r.sessionId (before ++ p :: between) (first r.sessionId)

theorem PreparedIn.concat {done : List Step} {n : Nat} {r : ChatRequest} (h : PreparedIn done n r)
    (t : Step) : PreparedIn (done ++ [t]) n r := by
  obtain ⟨before, p, between, rfl, hp⟩ := h
  exact ⟨before, p, between ++ [t], by simp, hp⟩

theorem OpenedIn.concat {first : String → String} {done : List Step} {n : Nat} {r : ChatRequest}
    {input : Input} (h : OpenedIn first done n r input) (t : Step) :
    OpenedIn first (done ++ [t]) n r input := by
  obtain ⟨before, p, between, o, later, stamp, rfl, hp, ho, hmodel⟩ := h
  exact ⟨before, p, between, o, later ++ [t], stamp, by simp, hp, ho, hmodel⟩

/-- A scene is what a run has made of it: its sessions have the models that were set last, and its
requests that wait or run have come there step by step. -/
structure Traced (first : String → String) (done : List Step) (s : Scene) : Prop where
  models : ∀ id, s.store.modelOf id = lastModel id done (first id)
  waits : ∀ (n : Nat) (r : ChatRequest), s.requests[n]? = some r → ∀ message ∈ r.phase.prepared?,
    PreparedIn done n r
  runs : ∀ (n : Nat) (r : ChatRequest), s.requests[n]? = some r → ∀ input ∈ r.phase.input?,
    OpenedIn first done n r input

namespace Traced

variable {first : String → String} {done : List Step} {s s' : Scene}

theorem start (store : Store) (capacity : Nat) :
    Traced store.modelOf [] (Scene.start store capacity) where
  models _ := rfl
  waits := by simp [Scene.start]
  runs := by simp [Scene.start]

theorem moved (h : Traced first done s) {m : Move} (hm : Moved s m s') :
    Traced first (done ++ [⟨s, m, s'⟩]) s' where
  models id := by
    rw [modelOf_moved hm id, h.models id, lastModel_append, lastModel_singleton]
  waits n r' hr' message hmessage := by
    cases advance_of_moved hm hr' with
    | idle hprepared => rw [hprepared] at hmessage; cases hmessage
    | @stays r hr hid hmodel hprepared =>
      rw [hprepared] at hmessage
      obtain ⟨before, p, between, hdone, hp⟩ := (h.waits n r hr message hmessage).concat ⟨s, m, s'⟩
      exact ⟨before, p, between, hdone, hp.move, by rw [hid, hmodel]; exact hp.sets⟩
    | @prepares r hprepare hr hsome hid hmodel =>
      subst hprepare
      refine ⟨done, ⟨s, .prepare n, s'⟩, [], rfl, rfl, ?_⟩
      simp [Step.modelSet?, hr, hsome, hid, hmodel]
    | @opens r _ _ state hopen hr hp hs heq =>
      rw [heq] at hmessage
      unfold ChatRequest.begun at hmessage
      simp only at hmessage
      split at hmessage <;> cases hmessage
  runs n r' hr' input hinput := by
    cases advance_of_moved hm hr' with
    | idle _ hnone => rw [hnone] at hinput; cases hinput
    | @stays r hr hid hmodel _ hsame =>
      rw [hsame] at hinput
      obtain ⟨before, p, between, o, later, stamp, hdone, hp, ho, hlast⟩ :=
        (h.runs n r hr input hinput).concat ⟨s, m, s'⟩
      refine ⟨before, p, between, o, later, stamp, hdone, ⟨hp.move, ?_⟩, ho, ?_⟩
      · rw [hid, hmodel]
        exact hp.sets
      · rw [hid]
        exact hlast
    | prepares _ _ _ _ _ hnone => rw [hnone] at hinput; cases hinput
    | @opens r message stamp state hopen hr hp hs heq =>
      subst hopen heq
      obtain ⟨before, p, between, hdone, hprepares⟩ := h.waits n r hr message (by rw [hp]; rfl)
      -- the turn gets the state of its session, which has the model that was set last
      have hinput' : input = Agents.turnInput message r.streamed state := by
        unfold ChatRequest.begun at hinput
        simp only at hinput
        split at hinput <;> exact (Option.some.inj hinput).symm
      have hmodel : input.model = s.store.modelOf r.sessionId := by
        rw [hinput']
        exact Store.model_appendUserMessage hs
      refine ⟨before, p, between, ⟨s, .openTurn n stamp, s'⟩, [], stamp, by rw [hdone],
        ⟨hprepares.move, hprepares.sets⟩, rfl, ?_⟩
      rw [hmodel, h.models, hdone]
      rfl

/-- **A whole run.** -/
theorem afterAll {ms : List Move} : ∀ {s s' : Scene} {done : List Step}, Traced first done s →
    s.afterAll ms = some s' → Traced first (done ++ s.steps ms) s' := by
  induction ms with
  | nil =>
    intro s s' done h hs
    cases hs
    simpa [Scene.steps] using h
  | cons m ms ih =>
    intro s s' done h hs
    obtain ⟨t, hm, hs⟩ := Option.bind_eq_some_iff.mp hs
    have hrest := ih (h.moved (moved_of_after hm)) hs
    have hsteps : s.steps (m :: ms) = ⟨s, m, t⟩ :: t.steps ms := by
      rw [Scene.steps, hm]
    rw [hsteps]
    rw [List.append_assoc] at hrest
    exact hrest

end Traced

/-! ### The model of a turn -/

/-- A request that asked for a model has it at its opening if the last model set since its
preparation, if any, is the same. -/
theorem lastModel_prepared_iff {id model first : String} {before between : List Step} {p : Step}
    (hp : p.modelSet? id = some model) :
    lastModel id (before ++ p :: between) first = model ↔
      ∀ other ∈ (between.filterMap (Step.modelSet? id)).getLast?, other = model := by
  rw [List.append_cons, lastModel_append, lastModel_append, lastModel_singleton, hp]
  unfold lastModel
  cases (between.filterMap (Step.modelSet? id)).getLast? <;> simp

/-- **The model that a turn runs with.** In every scene that can be reached, the turn of a request,
once it is open, has the model that was set last for its session before it was opened, by whatever
request or change. If the request came with a model that is not blank, it set it when it was
prepared; so the turn has this model just if the last model set between its preparation and its
opening, if any, is the same. All requests that the turn sends for completions, the first and the
one for the follow-up, carry the model that the turn has; there are such requests if there is an
endpoint to send them to. -/
theorem runs_with_model_iff {store : Store} {capacity : Nat} {ms : List Move} {s : Scene}
    (hs : (Scene.start store capacity).afterAll ms = some s) {n : Nat} {r : ChatRequest}
    {input : Input} (hr : s.requests[n]? = some r) (hinput : r.phase.input? = some input) :
    (∃ before p between o later stamp,
      (Scene.start store capacity).steps ms = before ++ p :: between ++ o :: later ∧
      p.move = .prepare n ∧ o.move = .openTurn n stamp ∧
      input.model = lastModel r.sessionId (before ++ p :: between) (store.modelOf r.sessionId) ∧
      ∀ m, r.model = some m → Text.isBlankText m = false →
        (input.model = Text.trim m ↔
          ∀ other ∈ (between.filterMap (Step.modelSet? r.sessionId)).getLast?,
            other = Text.trim m)) ∧
    ∀ {σ : Type} (h : Handler σ) (log : σ → List Request), h.Logs log → ∀ w : World σ,
      ∃ sent, log ((h.run input).run w).2.outside = log w.outside ++ sent ∧
        (sent = [] ↔ h.mode = .simulated) ∧ ∀ q ∈ sent, q.model = input.model := by
  have htraced := (Traced.start store capacity).afterAll hs
  obtain ⟨before, p, between, o, later, stamp, hsteps, hp, ho, hmodel⟩ :=
    htraced.runs n r hr input hinput
  refine ⟨⟨before, p, between, o, later, stamp, hsteps, hp.move, ho, hmodel, fun m hm hsome => ?_⟩,
    fun h log hlogs w => Handler.run_log_model hlogs input w⟩
  rw [hmodel]
  refine lastModel_prepared_iff ?_
  rw [hp.sets, hm]
  exact givenModel?_of_not_blank hsome

/-! ### Two requests that overlap -/

/-- The moves of two requests of a session, each with a model of its own; the second is prepared
only after the turn of the first has opened. -/
def queuedRun : List Move :=
  [.arrive "s" "hi" (some " a ") true, .arrive "s" "again" (some "b") false, .prepare 0, .lock 0,
    .openTurn 0 ⟨"m1", 1⟩, .prepare 1]

/-- The same requests; the second is prepared as soon as the first has the lock. -/
def overtakenRun : List Move :=
  [.arrive "s" "hi" (some " a ") true, .arrive "s" "again" (some "b") false, .prepare 0, .lock 0,
    .prepare 1, .openTurn 0 ⟨"m1", 1⟩]

/-- The request and its turn, if the first request of the run has opened it. -/
def firstTurn? (s : Scene) (ms : List Move) : Option (Scene × ChatRequest × Input) := do
  let s ← s.afterAll ms
  let r ← s.requests[0]?
  return (s, r, ← r.phase.input?)

theorem exists_firstTurn {s : Scene} {ms : List Move} {asked : Option String} {got : String}
    (h : (firstTurn? s ms).map (fun t => (t.2.1.model, t.2.2.model)) = some (asked, got)) :
    ∃ s' r input, s.afterAll ms = some s' ∧ s'.requests[0]? = some r ∧ r.phase.input? = some input ∧
      r.model = asked ∧ input.model = got := by
  obtain ⟨⟨s', r, input⟩, hturn, hmodels⟩ := Option.map_eq_some_iff.mp h
  obtain ⟨rfl, rfl⟩ := Prod.mk.inj hmodels
  unfold firstTurn? at hturn
  obtain ⟨t, hs, hturn⟩ := Option.bind_eq_some_iff.mp hturn
  obtain ⟨q, hr, hturn⟩ := Option.bind_eq_some_iff.mp hturn
  obtain ⟨i, hi, hturn⟩ := Option.bind_eq_some_iff.mp hturn
  cases hturn
  exact ⟨s', r, input, hs, hr, hi, rfl, rfl⟩

theorem runs_with_model_queuedRun :
    let start := Scene.start ⟨.empty, ⟨"m", "p", []⟩⟩ 2
    ∃ s r input, start.afterAll queuedRun = some s ∧ s.requests[0]? = some r ∧
      r.phase.input? = some input ∧ r.model = some " a " ∧ Text.isBlankText " a " = false ∧
      input.model = "a" ∧
      ∀ w, ∃ sent, Script.log (((Handler.scripted 100).run input).run w).2.outside =
        Script.log w.outside ++ sent ∧ sent ≠ [] ∧ ∀ q ∈ sent, q.model = "a" := by
  intro start
  have hmodels : (firstTurn? start queuedRun).map (fun t => (t.2.1.model, t.2.2.model)) =
      some (some " a ", "a") := by decide +kernel
  obtain ⟨s, r, input, hs, hr, hinput, hasked, hmodel⟩ := exists_firstTurn hmodels
  obtain ⟨-, hsent⟩ := runs_with_model_iff hs hr hinput
  refine ⟨s, r, input, hs, hr, hinput, hasked, by decide +kernel, hmodel, fun w => ?_⟩
  obtain ⟨sent, hlog, hnil, hall⟩ :=
    hsent (Handler.scripted 100) Script.log (Handler.logs_scripted 100) w
  rw [hmodel] at hall
  refine ⟨sent, hlog, fun hsent => ?_, hall⟩
  have hmode := hnil.mp hsent
  cases hmode

/-- **A turn with the model of another request.** Both requests are prepared before the turn of the
first opens; it asked for one model and runs with the other, in all requests that it sends. -/
theorem runs_with_other_model :
    let start := Scene.start ⟨.empty, ⟨"m", "p", []⟩⟩ 2
    ∃ s r input, start.afterAll overtakenRun = some s ∧ s.requests[0]? = some r ∧
      r.phase.input? = some input ∧ r.model = some " a " ∧ Text.isBlankText " a " = false ∧
      input.model = "b" ∧
      ∀ w, ∃ sent, Script.log (((Handler.scripted 100).run input).run w).2.outside =
        Script.log w.outside ++ sent ∧ sent ≠ [] ∧ ∀ q ∈ sent, q.model ≠ Text.trim " a " := by
  intro start
  have hmodels : (firstTurn? start overtakenRun).map (fun t => (t.2.1.model, t.2.2.model)) =
      some (some " a ", "b") := by decide +kernel
  obtain ⟨s, r, input, hs, hr, hinput, hasked, hmodel⟩ := exists_firstTurn hmodels
  refine ⟨s, r, input, hs, hr, hinput, hasked, by decide +kernel, hmodel, fun w => ?_⟩
  obtain ⟨sent, hlog, hnil, hall⟩ := Handler.run_log_model (Handler.logs_scripted 100) input w
  refine ⟨sent, hlog, fun hsent => ?_, fun q hq => ?_⟩
  · have hmode := hnil.mp hsent
    cases hmode
  · rw [hall q hq, hmodel]
    decide +kernel

end ChatRelay.Session
