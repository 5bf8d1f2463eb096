import ChatRelay.Proofs.Session.Operations
import ChatRelay.Proofs.Session.TurnLock

/-! # Turns come in pairs

The history of a session is written by its turns alone, and only one of them runs at a time. So as
long as the session can be read and is not cleared, each turn adds the user's message and then,
before any other turn opens, one reply, unless its request is dropped while it runs: then the user's
message stays without a reply (`history_of_turns`). What the turns have added is kept as a `Talk`:
the turns that are over, and the one that runs. -/

namespace ChatRelay.Session

/-! ### Steps of a run -/

/-- A move that was made, with the scenes before and after it. -/
structure Step where
  before : Scene
  move : Move
  after : Scene

/-- The moves of a run, each with the scenes around it. -/
def Scene.steps (s : Scene) : List Move → List Step
  | [] => []
  | m :: ms =>
    match s.after m with
    | none => []
    | some t => ⟨s, m, t⟩ :: t.steps ms

/-- The move removes the history of the session. -/
def Move.clears (id : String) : Move → Bool
  | .change (.clear id') => id' == id
  | _ => false

namespace Step

/-- The session is not cleared and can be read afterwards, and the id of a message that is added is
not yet in use. -/
structure Undisturbed (id : String) (t : Step) : Prop where
  fresh : ∀ stamp ∈ t.move.stamp?, t.before.store.database.Unused stamp.id
  readable : t.after.store.Reads id
  notCleared : t.move.clears id = false

instance (id : String) (t : Step) : Decidable (t.Undisturbed id) :=
  decidable_of_iff ((∀ stamp ∈ t.move.stamp?, t.before.store.database.Unused stamp.id) ∧
      t.after.store.Reads id ∧ t.move.clears id = false)
    ⟨fun ⟨hf, hr, hc⟩ => ⟨hf, hr, hc⟩, fun ⟨hf, hr, hc⟩ => ⟨hf, hr, hc⟩⟩

/-- The request that opens a turn of the session. -/
def opening? (id : String) (t : Step) : Option Nat :=
  match t.move with
  | .openTurn i _ => if (t.before.requests[i]?).any (·.sessionId == id) then some i else none
  | _ => none

/-- The request whose turn of the session is dropped while it runs. -/
def dropping? (id : String) (t : Step) : Option Nat :=
  match t.move with
  | .leave i =>
    if (t.before.requests[i]?).any fun r => r.sessionId == id && r.phase.isOpen then some i
    else none
  | _ => none

end Step

/-! ### Talks -/

/-- A turn that is over: its request, the user's message, and the reply, if the turn was closed. -/
structure PastTurn where
  request : Nat
  question : Message
  answer : Option Message
  deriving Repr, Inhabited

/-- What the turns of a session have added to its history. -/
structure Talk where
  past : List PastTurn
  /-- The request of the running turn, and the user's message. -/
  running : Option (Nat × Message)
  deriving Repr, Inhabited

/-- The request asks for a turn of the session with this message of the user. -/
structure ChatRequest.Asks (r : ChatRequest) (id : String) (m : Message) : Prop where
  session : r.sessionId = id
  speaker : m.speaker = .user
  content : m.content = Text.trim r.message

/-- What a request whose turn is over has left: a reply, or nothing if it was dropped. -/
inductive Phase.Leaves : Phase → Option Message → Prop
  | reply {m : Message} (h : m.speaker = .assistant) : Leaves finished (some m)
  | nothing : Leaves abandoned none

theorem Phase.Leaves.isFinished {p : Phase} {answer : Option Message} (h : p.Leaves answer) :
    p.isFinished = true := by
  cases h <;> rfl

namespace Talk

/-- The messages of a talk: of each turn that is over the user's message and its reply, if it has
one, and the user's message of the running turn. -/
def messages (t : Talk) : List Message :=
  t.past.flatMap (fun e => e.question :: e.answer.toList) ++ t.running.toList.map Prod.snd

/-- The requests of a talk, in the order of their turns. -/
def requests (t : Talk) : List Nat := t.past.map (·.request) ++ t.running.toList.map Prod.fst

/-- The requests whose turns are over without a reply, in the order of their turns. -/
def unanswered (t : Talk) : List Nat :=
  (t.past.filter fun e => e.answer.isNone).map (·.request)

/-- The turns that are over make pairs. -/
def IsPaired (t : Talk) : Prop := ∀ e ∈ t.past, ∃ answer, e.answer = some answer

theorem isPaired_iff {t : Talk} : t.IsPaired ↔ t.unanswered = [] := by
  unfold IsPaired unanswered
  rw [List.map_eq_nil_iff, List.filter_eq_nil_iff]
  exact forall₂_congr fun e _ => by cases e.answer <;> simp

/-- The talk consists of the turns of a session: those that are over, whose requests are over too,
and the one that runs, if any. -/
structure IsOf (t : Talk) (s : Scene) (id : String) : Prop where
  past : ∀ e ∈ t.past, ∃ r, s.requests[e.request]? = some r ∧ r.phase.Leaves e.answer ∧
    r.Asks id e.question
  running : ∀ p ∈ t.running, ∃ r, s.requests[p.1]? = some r ∧ r.phase.isOpen = true ∧ r.Asks id p.2
  all : ∀ (i : Nat) (r : ChatRequest), s.requests[i]? = some r → r.sessionId = id →
    r.phase.isOpen = true → t.running.map Prod.fst = some i
  once : t.requests.Nodup

/-- The talk with one more turn. -/
def opened (t : Talk) (i : Nat) (m : Message) : Talk := { t with running := some (i, m) }

/-- The talk after the end of its running turn. -/
def ended (t : Talk) (i : Nat) (question : Message) (answer : Option Message) : Talk where
  past := t.past ++ [⟨i, question, answer⟩]
  running := none

theorem messages_opened {t : Talk} (h : t.running = none) (i : Nat) (m : Message) :
    (t.opened i m).messages = t.messages ++ [m] := by
  simp [messages, opened, h]

theorem requests_opened {t : Talk} (h : t.running = none) (i : Nat) (m : Message) :
    (t.opened i m).requests = t.requests ++ [i] := by
  simp [requests, opened, h]

theorem messages_ended {t : Talk} {i : Nat} {question : Message}
    (h : t.running = some (i, question)) (answer : Option Message) :
    (t.ended i question answer).messages = t.messages ++ answer.toList := by
  simp [messages, ended, h]

theorem requests_ended {t : Talk} {i : Nat} {question : Message}
    (h : t.running = some (i, question)) (answer : Option Message) :
    (t.ended i question answer).requests = t.requests := by
  simp [requests, ended, h]

theorem unanswered_ended (t : Talk) (i : Nat) (question : Message) (answer : Option Message) :
    (t.ended i question answer).unanswered =
      t.unanswered ++ if answer.isNone then [i] else [] := by
  cases answer <;> simp [unanswered, ended]

theorem isOf_start (store : Store) (capacity : Nat) (id : String) :
    (⟨[], none⟩ : Talk).IsOf (Scene.start store capacity) id where
  past := by simp
  running := by simp
  all := by simp [Scene.start]
  once := by simp [requests]

/-! ### Requests that go on -/

namespace IsOf

variable {t : Talk} {s s' : Scene} {id : String}

/-- A talk stays what it is while no turn of the session opens or closes. -/
theorem keep (h : t.IsOf s id)
    (hold : ∀ (i : Nat) (r : ChatRequest), s.requests[i]? = some r →
      ∃ r', s'.requests[i]? = some r' ∧ r'.sessionId = r.sessionId ∧ r'.message = r.message ∧
        (r.phase.isFinished = true → r'.phase = r.phase) ∧
        (r.sessionId = id → r.phase.isOpen = true → r'.phase.isOpen = true))
    (hnew : ∀ (i : Nat) (r' : ChatRequest), s'.requests[i]? = some r' → r'.sessionId = id →
      r'.phase.isOpen = true →
      ∃ r, s.requests[i]? = some r ∧ r.sessionId = id ∧ r.phase.isOpen = true) : t.IsOf s' id where
  past := fun e he => by
    obtain ⟨r, hr, hl, hq⟩ := h.past e he
    obtain ⟨r', hr', hid, hm, hf, -⟩ := hold _ r hr
    exact ⟨r', hr', hf hl.isFinished ▸ hl, by rw [hid, hq.session], hq.speaker,
      by rw [hm, hq.content]⟩
  running := fun p hp => by
    obtain ⟨r, hr, ho, hq⟩ := h.running p hp
    obtain ⟨r', hr', hid, hm, -, ho'⟩ := hold _ r hr
    exact ⟨r', hr', ho' hq.session ho, by rw [hid, hq.session], hq.speaker, by rw [hm, hq.content]⟩
  all := fun i r' hr' hid ho => by
    obtain ⟨r, hr, hid, ho⟩ := hnew i r' hr' hid ho
    exact h.all i r hr hid ho
  once := h.once

theorem keep_requests (h : t.IsOf s id) (hs : s'.requests = s.requests) : t.IsOf s' id :=
  h.keep (fun _ r hr => ⟨r, hs ▸ hr, rfl, rfl, fun _ => rfl, fun _ ho => ho⟩)
    fun _ r hr hid ho => ⟨r, hs ▸ hr, hid, ho⟩

theorem keep_addRequest (h : t.IsOf s id) {q : ChatRequest} (hs : s'.requests = s.requests ++ [q])
    (hq : q.phase.isOpen = false) : t.IsOf s' id := by
  refine h.keep (fun i r hr => ⟨r, ?_, rfl, rfl, fun _ => rfl, fun _ ho => ho⟩)
    fun i r hr hid ho => ?_
  · rw [hs, List.getElem?_append_left (List.getElem?_eq_some_iff.mp hr).1]
    exact hr
  · rw [hs] at hr
    rcases Nat.lt_or_ge i s.requests.length with hi | hi
    · rw [List.getElem?_append_left hi] at hr
      exact ⟨r, hr, hid, ho⟩
    · rw [List.getElem?_append_right hi] at hr
      have : r = q := List.mem_singleton.mp (List.mem_of_getElem? hr)
      rw [this, hq] at ho
      cases ho

theorem keep_set (h : t.IsOf s id) {i : Nat} {r r' : ChatRequest} (hr : s.requests[i]? = some r)
    (hs : s'.requests = s.requests.set i r') (hid : r'.sessionId = r.sessionId)
    (hm : r'.message = r.message)
    (hf : r.phase.isFinished = true → r'.phase = r.phase)
    (ho : r.sessionId = id → r'.phase.isOpen = r.phase.isOpen) : t.IsOf s' id := by
  have hi := (List.getElem?_eq_some_iff.mp hr).1
  refine h.keep (fun j q hq => ?_) fun j q hq hqid hqo => ?_
  · by_cases hij : i = j
    · subst hij
      rw [hr] at hq
      cases hq
      exact ⟨r', by simp [hs, hi], hid, hm, hf, fun hsid ho' => by rw [ho hsid, ho']⟩
    · refine ⟨q, ?_, rfl, rfl, fun _ => rfl, fun _ ho => ho⟩
      rw [hs, List.getElem?_set_ne hij]
      exact hq
  · rw [hs] at hq
    by_cases hij : i = j
    · subst hij
      have : q = r' := by simpa [hi] using hq.symm
      subst this
      exact ⟨r, hr, hid ▸ hqid, by rw [← ho (hid ▸ hqid), hqo]⟩
    · rw [List.getElem?_set_ne hij] at hq
      exact ⟨q, hq, hqid, hqo⟩

/-- A request that lets go, and whose turn was not open, if it was one of the session. -/
theorem keep_letGo (h : t.IsOf s id) {i : Nat} {r : ChatRequest} {phase : Phase}
    (hr : s.requests[i]? = some r) (hs : s'.requests = s.requests.set i { r with phase })
    (hphase : phase.isOpen = false) (hf : r.phase.isFinished = false)
    (ho : r.sessionId = id → r.phase.isOpen = false) : t.IsOf s' id := by
  refine h.keep_set hr hs ?_ ?_ ?_ fun hid => ?_
  · rfl
  · rfl
  · rw [hf]
    exact fun hfalse => nomatch hfalse
  · rw [ho hid]
    exact hphase

theorem keep_setRequest (h : t.IsOf s id) (store : Store) {i : Nat} {r r' : ChatRequest}
    (hr : s.requests[i]? = some r) (hid : r'.sessionId = r.sessionId) (hm : r'.message = r.message)
    (hf : r.phase.isFinished = true → r'.phase = r.phase)
    (ho : r.sessionId = id → r'.phase.isOpen = r.phase.isOpen) :
    t.IsOf ((s.withStore store).setRequest i r') id := h.keep_set hr rfl hid hm hf ho

theorem keep_breakOff (h : t.IsOf s id) {i : Nat} {r : ChatRequest} (hr : s.requests[i]? = some r)
    (hid : r.sessionId ≠ id) (hf : r.phase.isFinished = false) (store : Store) (f : Failure) :
    t.IsOf ((s.withStore store).breakOff i r f) id := by
  cases hst : r.streamed with
  | true =>
    rw [Scene.breakOff_streamed _ i hst f]
    exact h.keep_set hr rfl rfl rfl (by simp [hf]) fun h => absurd h hid
  | false =>
    rw [Scene.breakOff_buffered _ i hst f]
    exact h.keep_letGo hr (Scene.requests_finish (s.withStore store) i r) rfl hf
      fun h => absurd h hid

/-! ### Turns that open and close -/

/-- No turn of a session is open while another of its requests has the lock. -/
theorem running_eq_none (h : t.IsOf s id) (hl : s.LocksInOrder) {i : Nat} {r : ChatRequest}
    (hr : s.requests[i]? = some r) (hid : r.sessionId = id) (hlock : r.phase.hasLock = true)
    (hopen : r.phase.isOpen = false) : t.running = none := by
  cases hrun : t.running with
  | none => rfl
  | some p =>
    obtain ⟨q, hq, ho, hqa⟩ := h.running p hrun
    have hip := hl.exclusive hr hq (hid.trans hqa.session.symm) hlock (Phase.hasLock_of_isOpen ho)
    rw [← hip, hr] at hq
    cases hq
    rw [hopen] at ho
    cases ho

theorem mem_requests (h : t.IsOf s id) {i : Nat} (hi : i ∈ t.requests) :
    ∃ r, s.requests[i]? = some r ∧ (r.phase.isFinished = true ∨ r.phase.isOpen = true) := by
  rw [requests, List.mem_append, List.mem_map, List.mem_map] at hi
  rcases hi with ⟨e, he, rfl⟩ | ⟨p, hp, rfl⟩
  · obtain ⟨r, hr, hl, -⟩ := h.past e he
    exact ⟨r, hr, .inl hl.isFinished⟩
  · obtain ⟨r, hr, ho, -⟩ := h.running p (Option.mem_toList.mp hp)
    exact ⟨r, hr, .inr ho⟩

/-- A turn opens: the user's message is the last of the talk, and waits. -/
theorem opened (h : t.IsOf s id) (hrun : t.running = none) {i : Nat} {r r' : ChatRequest}
    {m : Message} (hr : s.requests[i]? = some r) (hf : r.phase.isFinished = false)
    (hro : r.phase.isOpen = false) (hs : s'.requests = s.requests.set i r')
    (ho : r'.phase.isOpen = true) (hm : r'.Asks id m) : (t.opened i m).IsOf s' id where
  past := fun e he => by
    obtain ⟨q, hq, hql, hqa⟩ := h.past e he
    have hne : i ≠ e.request := by
      rintro rfl
      rw [hr] at hq
      cases hq
      exact absurd (hf.symm.trans hql.isFinished) (by decide)
    exact ⟨q, by rw [hs, List.getElem?_set_ne hne, hq], hql, hqa⟩
  running := fun p hp => by
    cases hp
    exact ⟨r', by simp [hs, (List.getElem?_eq_some_iff.mp hr).1], ho, hm⟩
  all := fun j q hq hid hqo => by
    by_cases hij : i = j
    · rw [hij]; rfl
    · rw [hs, List.getElem?_set_ne hij] at hq
      have := h.all j q hq hid hqo
      rw [hrun] at this
      cases this
  once := by
    rw [requests_opened hrun]
    refine List.nodup_append.mpr ⟨h.once, by simp, fun j hj k hk => ?_⟩
    rw [List.mem_singleton] at hk
    rintro rfl
    obtain ⟨q, hq, hqp⟩ := h.mem_requests hj
    rw [hk, hr] at hq
    cases hq
    simp [hf, hro] at hqp

/-- The open turn of the session is the running one of the talk. -/
theorem running_of_isOpen (h : t.IsOf s id) {i : Nat} {r : ChatRequest}
    (hr : s.requests[i]? = some r) (hid : r.sessionId = id) (ho : r.phase.isOpen = true) :
    ∃ m, t.running = some (i, m) := by
  have := h.all i r hr hid ho
  cases hrun : t.running with
  | none => simp [hrun] at this
  | some p =>
    rw [hrun] at this
    cases this
    exact ⟨p.2, rfl⟩

/-- A turn is over: its reply is the last message of the talk, if it has one. -/
theorem ended (h : t.IsOf s id) {i : Nat} {r : ChatRequest} {question : Message} {phase : Phase}
    {answer : Option Message} (hr : s.requests[i]? = some r) (ho : r.phase.isOpen = true)
    (hrun : t.running = some (i, question)) (hl : phase.Leaves answer)
    (hs : s'.requests = s.requests.set i { r with phase }) :
    (t.ended i question answer).IsOf s' id where
  past := fun e he => by
    rw [Talk.ended, List.mem_append, List.mem_singleton] at he
    rcases he with he | rfl
    · obtain ⟨q, hq, hql, hqa⟩ := h.past e he
      have hne : i ≠ e.request := by
        rintro rfl
        rw [hr] at hq
        cases hq
        exact absurd (Phase.not_isFinished_of_hasLock (Phase.hasLock_of_isOpen ho))
          (by rw [hql.isFinished]; decide)
      exact ⟨q, by rw [hs, List.getElem?_set_ne hne, hq], hql, hqa⟩
    · obtain ⟨q, hq, -, hqa⟩ := h.running _ hrun
      rw [hr] at hq
      cases hq
      exact ⟨{ r with phase }, by simp [hs, (List.getElem?_eq_some_iff.mp hr).1], hl,
        hqa.session, hqa.speaker, hqa.content⟩
  running := by simp [Talk.ended]
  all := fun j q hq hid hqo => by
    by_cases hij : i = j
    · subst hij
      have : q = { r with phase } := by
        simpa [hs, (List.getElem?_eq_some_iff.mp hr).1] using hq.symm
      subst this
      cases hl <;> cases hqo
    · rw [hs, List.getElem?_set_ne hij] at hq
      have := h.all j q hq hid hqo
      rw [hrun] at this
      cases this
      exact absurd rfl hij
  once := by
    rw [requests_ended hrun]
    exact h.once

end IsOf

end Talk

/-! ### Prepared messages -/

/-- The message that a turn was prepared with and that is not added yet. -/
def Phase.prepared? : Phase → Option String
  | waiting message | locked message => some message
  | _ => none

/-- Turns are prepared with the trimmed messages of their requests. -/
def Scene.PreparedTrimmed (s : Scene) : Prop :=
  ∀ r ∈ s.requests, ∀ message ∈ r.phase.prepared?, message = Text.trim r.message

namespace Scene.PreparedTrimmed

variable {s s' : Scene}

theorem set (h : s.PreparedTrimmed) {i : Nat} {r : ChatRequest}
    (hs : s'.requests = s.requests.set i r)
    (hr : ∀ message ∈ r.phase.prepared?, message = Text.trim r.message) : s'.PreparedTrimmed := by
  intro q hq
  rw [hs] at hq
  rcases List.mem_or_eq_of_mem_set hq with hq | rfl
  · exact h q hq
  · exact hr

theorem breakOff (h : s.PreparedTrimmed) (i : Nat) (r : ChatRequest) (f : Failure) :
    (s.breakOff i r f).PreparedTrimmed := by
  cases hst : r.streamed with
  | true =>
    rw [breakOff_streamed s i hst f]
    exact h.set rfl (by simp [Phase.prepared?])
  | false =>
    rw [breakOff_buffered s i hst f]
    exact h.set (requests_finish s i r) (by simp [Phase.prepared?])

theorem moved (h : s.PreparedTrimmed) {m : Move} (hm : Moved s m s') : s'.PreparedTrimmed := by
  have hset (store : Store) (i : Nat) (r : ChatRequest)
      (hr : ∀ message ∈ r.phase.prepared?, message = Text.trim r.message) :
      ((s.withStore store).setRequest i r).PreparedTrimmed := h.set rfl hr
  have hfinish (store : Store) (i : Nat) (r : ChatRequest) :
      ((s.withStore store).finish i r).PreparedTrimmed :=
    h.set (requests_finish (s.withStore store) i r) (by simp [Phase.prepared?])
  have hbreak (store : Store) (i : Nat) (r : ChatRequest) (f : Failure) :
      ((s.withStore store).breakOff i r f).PreparedTrimmed :=
    breakOff (s := s.withStore store) h i r f
  have hadd (q : ChatRequest) (hs : s'.requests = s.requests ++ [q]) (hq : q.phase = .arrived) :
      s'.PreparedTrimmed := by
    intro r hr
    rw [hs, List.mem_append, List.mem_singleton] at hr
    rcases hr with hr | rfl
    · exact h r hr
    · simp [hq, Phase.prepared?]
  cases hm with
  | joins => exact hadd _ rfl rfl
  | turnedAway => intro r hr; exact h r (by simpa using hr)
  | @builds id message model streamed =>
    exact hadd ⟨id, s.agents.length, message, model, streamed, .arrived, []⟩ (by simp) rfl
  | changes => exact h
  | leaves => exact hfinish s.store _ _
  | @abandons i r => exact h.set (s.requests_abandon i r) (by simp [Phase.prepared?])
  | refused => exact hfinish _ _ _
  | prepared hr hp hs =>
    refine hset _ _ _ fun message hm => ?_
    cases hm
    exact Store.prepareTurn_ok hs
  | locks hr hp =>
    refine h.set rfl fun message hm => ?_
    cases hm
    exact h _ (List.mem_of_getElem? hr) _ (by rw [hp]; rfl)
  | opensNot => exact hbreak _ _ _ _
  | @opens i r message stamp state =>
    have hp : (r.begun message state).phase.prepared? = none := by
      unfold ChatRequest.begun; simp only; split <;> rfl
    exact h.set (i := i) (r := r.begun message state) (by simp) (by simp [hp])
  | starts => exact hset _ _ _ (by simp [Phase.prepared?])
  | passesOn hr hp => exact hset _ _ _ (by simp [hp, Phase.prepared?])
  | completesNot => exact hbreak _ _ _ _
  | completes => exact hfinish _ _ _
  | fails => exact hbreak s.store _ _ _
  | failsAtOnce => exact hfinish _ _ _
  | records => exact hfinish _ _ _

end Scene.PreparedTrimmed

/-! ### One move -/

/-- A change leaves the history of a session alone unless it clears it. -/
theorem Change.rowsOf_applyTo {s : Store} {c : Change} {id : String} (h : c ≠ .clear id) :
    (c.applyTo s).database.rowsOf id = s.database.rowsOf id := by
  cases c with
  | clear id' => exact Store.rowsOf_clear fun hid => h (by rw [hid])
  | read id' | setModel id' model | setSystemPrompt id' prompt | setEnabledTools id' tools =>
    refine Database.rowsOf_congr ?_ id
    simp [Change.applyTo]

/-- The history of a session is what it was before, and the talk of its turns. -/
structure Talk.Continues (t : Talk) (s : Scene) (id : String) (before : List Message) : Prop where
  isOf : t.IsOf s id
  history : s.store.database.messagesOf id = .ok (before ++ t.messages)

/-- A talk has gained the turns that steps have opened, and those that they have dropped stay
without a reply. -/
structure Talk.Gains (t t' : Talk) (id : String) (steps : List Step) : Prop where
  requests : t'.requests = t.requests ++ steps.filterMap (Step.opening? id)
  unanswered : t'.unanswered = t.unanswered ++ steps.filterMap (Step.dropping? id)

theorem Talk.Gains.append {t t₁ t₂ : Talk} {id : String} {steps steps' : List Step}
    (h : t.Gains t₁ id steps) (h' : t₁.Gains t₂ id steps') : t.Gains t₂ id (steps ++ steps') where
  requests := by rw [h'.requests, h.requests, List.filterMap_append, List.append_assoc]
  unanswered := by rw [h'.unanswered, h.unanswered, List.filterMap_append, List.append_assoc]

namespace Talk.Continues

variable {t : Talk} {s s' : Scene} {id : String} {before : List Message}

theorem keep_history (h : t.Continues s id before) (ht : t.IsOf s' id)
    (hm : s'.store.database.rowsOf id = s.store.database.rowsOf id) : t.Continues s' id before :=
  ⟨ht, (Database.messagesOf_congr hm).trans h.history⟩

/-- A turn opens, of this session or of another. -/
theorem opened (h : t.Continues s id before) (hl : s.LocksInOrder) (hp : s.PreparedTrimmed)
    {i : Nat} {r r' : ChatRequest} {message : String} {stamp : Stamp}
    (hr : s.requests[i]? = some r) (hphase : r.phase = .locked message)
    (ho : r'.phase.isOpen = true) (hsame : r'.sessionId = r.sessionId ∧ r'.message = r.message)
    (hs : s'.requests = s.requests.set i r')
    (hstore : s'.store = s.store.opened stamp r.sessionId message) :
    ∃ t' : Talk, t'.Continues s' id before ∧ t.Gains t' id [⟨s, .openTurn i stamp, s'⟩] := by
  have hrows := s.store.rowsOf_opened stamp r.sessionId id message
  rw [← hstore] at hrows
  by_cases hid : r.sessionId = id
  -- the request holds the lock, so no other turn of the session is open
  · have hrun := h.isOf.running_eq_none hl hr hid (by rw [hphase]; rfl) (by rw [hphase]; rfl)
    have hmessage := hp r (List.mem_of_getElem? hr) message (by rw [hphase]; rfl)
    let m := Store.userMessage stamp message
    have hasks : r'.Asks id m := ⟨by rw [hsame.1, hid], rfl, by rw [hsame.2]; exact hmessage⟩
    have hof : (t.opened i m).IsOf s' id :=
      h.isOf.opened hrun hr (by rw [hphase]; rfl) (by rw [hphase]; rfl) hs ho hasks
    refine ⟨t.opened i m, ⟨hof, ?_⟩, ?_, ?_⟩
    · rw [if_pos hid] at hrows
      unfold Database.messagesOf
      rw [hrows, messages_opened hrun, ← List.append_assoc, readMessages_eq_ok]
      exact List.rel_append (readMessages_eq_ok.mp h.history)
        (.cons (message_ofMessage_plain _ _ _ rfl) .nil)
    · simp [requests_opened hrun, Step.opening?, hr, hid]
    · simp [unanswered, Talk.opened, Step.dropping?]
  · rw [if_neg hid, List.append_nil] at hrows
    have hof : t.IsOf s' id := h.isOf.keep_set hr hs hsame.1 hsame.2
      (by simp [hphase, Phase.isFinished]) fun h => absurd h hid
    refine ⟨t, h.keep_history hof hrows, ?_, ?_⟩
    · simp [Step.opening?, hr, hid]
    · simp [Step.dropping?]

/-- A turn closes, of this session or of another. -/
theorem closed (h : t.Continues s id before) (stamp : Stamp) (text : String)
    (calls : Option (List Tools.ToolCallRecord)) {i : Nat} {r : ChatRequest}
    (hr : s.requests[i]? = some r) (ho : r.phase.isOpen = true) (hreads : s'.store.Reads id)
    (hs : s'.requests = s.requests.set i { r with phase := .finished })
    (hstore : s'.store = s.store.closed stamp r.sessionId text calls) :
    ∃ t' : Talk, t'.Continues s' id before ∧ t.Gains t' id [] := by
  have hrows := s.store.rowsOf_closed stamp r.sessionId id text calls
  rw [← hstore] at hrows
  by_cases hid : r.sessionId = id
  · obtain ⟨question, hrun⟩ := h.isOf.running_of_isOpen hr hid ho
    rw [if_pos hid] at hrows
    obtain ⟨answer, hanswer, hhistory⟩ :=
      Database.messagesOf_append hrows h.history (Store.reads_iff.mp hreads)
    have hspeaker : answer.speaker = .assistant := by
      have hname := (message_eq_ok hanswer).1
      cases hsp : answer.speaker with
      | assistant => rfl
      | user =>
        rw [hsp] at hname
        have : "assistant" = "user" := hname
        exact absurd this (by decide)
    refine ⟨t.ended i question (some answer),
      ⟨h.isOf.ended hr ho hrun (.reply hspeaker) hs, ?_⟩, ?_, ?_⟩
    · rw [hhistory, messages_ended hrun, List.append_assoc]
      rfl
    · simp [requests_ended hrun]
    · simp [unanswered_ended]
  · rw [if_neg hid, List.append_nil] at hrows
    have hf := Phase.not_isFinished_of_hasLock (Phase.hasLock_of_isOpen ho)
    have hof : t.IsOf s' id := h.isOf.keep_letGo hr hs rfl hf fun h => absurd h hid
    exact ⟨t, h.keep_history hof hrows, ⟨by simp, by simp⟩⟩

/-- A turn is dropped while it runs, of this session or of another: its message stays without a
reply. -/
theorem dropped (h : t.Continues s id before) {i : Nat} {r : ChatRequest}
    (hr : s.requests[i]? = some r) (ho : r.phase.isOpen = true) :
    ∃ t' : Talk, t'.Continues (s.abandon i r) id before ∧
      t.Gains t' id [⟨s, .leave i, s.abandon i r⟩] := by
  have hs := s.requests_abandon i r
  by_cases hid : r.sessionId = id
  · obtain ⟨question, hrun⟩ := h.isOf.running_of_isOpen hr hid ho
    refine ⟨t.ended i question none, ⟨h.isOf.ended hr ho hrun .nothing hs, ?_⟩, ?_, ?_⟩
    · rw [Scene.store_abandon, messages_ended hrun, Option.toList_none, List.append_nil]
      exact h.history
    · simp [requests_ended hrun, Step.opening?]
    · simp [unanswered_ended, Step.dropping?, hr, hid, ho]
  · have hf := Phase.not_isFinished_of_hasLock (Phase.hasLock_of_isOpen ho)
    have hof : t.IsOf (s.abandon i r) id := h.isOf.keep_letGo hr hs rfl hf fun h => absurd h hid
    refine ⟨t, h.keep_history hof (by simp), ?_, ?_⟩
    · simp [Step.opening?]
    · simp [Step.dropping?, hr, hid]

/-- A turn of another session that is given up. -/
theorem brokenOff (h : t.Continues s id before) {i : Nat} {r : ChatRequest}
    (hr : s.requests[i]? = some r) (hid : r.sessionId ≠ id) (hf : r.phase.isFinished = false)
    {store : Store} (hrows : store.database.rowsOf id = s.store.database.rowsOf id) (f : Failure) :
    t.Continues ((s.withStore store).breakOff i r f) id before :=
  h.keep_history (h.isOf.keep_breakOff hr hid hf store f) (by simpa using hrows)

/-- **One move.** A talk goes on over every move that leaves the session undisturbed: the move opens
a turn, closes the open turn, drops it, or adds nothing. -/
theorem moved (h : t.Continues s id before) (hl : s.LocksInOrder) (hp : s.PreparedTrimmed)
    {m : Move} (hm : Moved s m s') (hu : (⟨s, m, s'⟩ : Step).Undisturbed id) :
    ∃ t' : Talk, t'.Continues s' id before ∧ t.Gains t' id [⟨s, m, s'⟩] := by
  have gains {t' : Talk} (hopen : (⟨s, m, s'⟩ : Step).opening? id = none)
      (hdrop : (⟨s, m, s'⟩ : Step).dropping? id = none) (ht : t.Gains t' id []) :
      t.Gains t' id [⟨s, m, s'⟩] :=
    ⟨by simpa [hopen] using ht.requests, by simpa [hdrop] using ht.unanswered⟩
  have stays (ht : t.IsOf s' id)
      (hrows : s'.store.database.rowsOf id = s.store.database.rowsOf id)
      (hopen : (⟨s, m, s'⟩ : Step).opening? id = none)
      (hdrop : (⟨s, m, s'⟩ : Step).dropping? id = none) :
      ∃ t' : Talk, t'.Continues s' id before ∧ t.Gains t' id [⟨s, m, s'⟩] :=
    ⟨t, h.keep_history ht hrows, gains hopen hdrop ⟨by simp, by simp⟩⟩
  have same (hmsg : s'.store.database.messages = s.store.database.messages) :
      s'.store.database.rowsOf id = s.store.database.rowsOf id := Database.rowsOf_congr hmsg id
  cases hm with
  | joins => exact stays (h.isOf.keep_addRequest rfl rfl) rfl rfl rfl
  | turnedAway =>
    exact stays (h.isOf.keep_requests (by simp)) (same (by simp)) rfl rfl
  | @builds id' message model streamed =>
    exact stays (h.isOf.keep_addRequest (q := ⟨id', s.agents.length, message, model, streamed,
      .arrived, []⟩) (by simp) rfl) (same (by simp)) rfl rfl
  | changes c =>
    have hc : c ≠ .clear id := by
      rintro rfl
      simpa [Move.clears] using hu.notCleared
    exact stays (h.isOf.keep_requests rfl) (Change.rowsOf_applyTo hc) rfl rfl
  | @leaves i r hr hphase =>
    have hidle : r.phase.isOpen = false ∧ r.phase.isFinished = false := by
      rcases hphase with hphase | ⟨message, hphase⟩ <;> rw [hphase] <;> exact ⟨rfl, rfl⟩
    refine stays (h.isOf.keep_letGo hr (Scene.requests_finish ..) rfl hidle.2 fun _ => hidle.1)
      (by simp) rfl ?_
    simp [Step.dropping?, hr, hidle.1]
  | abandons hr hphase => exact h.dropped hr (by rw [hphase]; rfl)
  | refused hr hphase =>
    exact stays (h.isOf.keep_letGo hr (Scene.requests_finish ..) rfl (by rw [hphase]; rfl)
      fun _ => by rw [hphase]; rfl) (same (by simp)) rfl rfl
  | prepared hr hphase =>
    exact stays (h.isOf.keep_setRequest _ hr rfl rfl (by simp [hphase, Phase.isFinished])
      fun _ => by rw [hphase]; rfl) (same (by simp)) rfl rfl
  | locks hr hphase =>
    exact stays (h.isOf.keep_set hr rfl rfl rfl (by simp [hphase, Phase.isFinished])
      fun _ => by rw [hphase]; rfl) rfl rfl rfl
  | @opensNot i r message stamp f hr hphase hs =>
    have hfresh := hu.fresh stamp rfl
    by_cases hid : r.sessionId = id
    -- a session that can be read after the move has not refused to open the turn
    · subst hid
      have hreads := hu.readable
      rw [Scene.store_breakOff, Scene.store_withStore,
        ← Store.appendUserMessage_ok_iff hfresh, hs] at hreads
      obtain ⟨state, hstate⟩ := hreads
      cases hstate
    · refine ⟨t, h.brokenOff hr hid (by rw [hphase]; rfl) ?_ f,
        gains (by simp [Step.opening?, hr, hid]) rfl ⟨by simp, by simp⟩⟩
      rw [Store.appendUserMessage_eq hfresh, Store.rowsOf_opened, if_neg hid, List.append_nil]
  | @opens i r message stamp state hr hphase hs =>
    exact h.opened hl hp hr hphase (r.isOpen_begun message state) ⟨rfl, rfl⟩ (by simp)
      (by simp [Store.appendUserMessage_eq (hu.fresh stamp rfl)])
  | starts hr hphase =>
    exact stays (h.isOf.keep_setRequest _ hr rfl rfl (by simp [hphase, Phase.isFinished])
      fun _ => by rw [hphase]; rfl) (same (by simp)) rfl rfl
  | passesOn hr =>
    exact stays (h.isOf.keep_setRequest _ hr rfl rfl (fun _ => rfl) fun _ => rfl)
      (same (by simp)) rfl rfl
  | @completesNot i r input stamp o f hr hphase hs =>
    have hfresh := hu.fresh stamp rfl
    by_cases hid : r.sessionId = id
    -- as above: the reply is added and can be read, so the turn was not refused
    · subst hid
      have hreads := hu.readable
      rw [Scene.store_breakOff, Scene.store_withStore,
        ← Store.completeTurn_ok_iff hfresh, hs] at hreads
      obtain ⟨state, hstate⟩ := hreads
      cases hstate
    · refine ⟨t, h.brokenOff hr hid (by rw [hphase]; rfl) ?_ f, gains rfl rfl ⟨by simp, by simp⟩⟩
      rw [Store.completeTurn_eq hfresh, Store.rowsOf_closed, if_neg hid, List.append_nil]
  | @completes i r input stamp o state hr hphase =>
    obtain ⟨t', ht', hgains⟩ := h.closed stamp o.content o.toolCalls hr
      (by rw [hphase]; rfl) hu.readable (Scene.requests_finish ..)
      (by simp [Store.completeTurn_eq (hu.fresh stamp rfl)])
    exact ⟨t', ht', gains rfl rfl hgains⟩
  | @fails i r input stamp f hr hphase hst =>
    refine stays ?_ (by simp) rfl rfl
    rw [Scene.breakOff_streamed s i hst _]
    -- a streamed turn that fails stays open until its reply is recorded
    exact h.isOf.keep_set hr rfl rfl rfl (by simp [hphase, Phase.isFinished])
      fun _ => by rw [hphase]; rfl
  | @failsAtOnce i r input stamp f hr hphase =>
    let text := bufferedFailureText (.completion f)
    obtain ⟨t', ht', hgains⟩ := h.closed stamp text none hr
      (by rw [hphase]; rfl) hu.readable (Scene.requests_finish ..)
      (by rw [Scene.store_finish, Scene.store_withStore, Store.failTurn_eq (hu.fresh stamp rfl)])
    exact ⟨t', ht', gains rfl rfl hgains⟩
  | @records i r text stamp hr hphase =>
    obtain ⟨t', ht', hgains⟩ := h.closed stamp text none hr
      (by rw [hphase]; rfl) hu.readable (Scene.requests_finish ..)
      (by rw [Scene.store_finish, Scene.store_withStore, Store.failTurn_eq (hu.fresh stamp rfl)])
    exact ⟨t', ht', gains rfl rfl hgains⟩

/-- **A whole run.** -/
theorem afterAll {ms : List Move} : ∀ {s s' : Scene} {t : Talk}, t.Continues s id before →
    s.LocksInOrder → s.PreparedTrimmed → s.afterAll ms = some s' →
    (∀ p ∈ s.steps ms, p.Undisturbed id) →
    ∃ t' : Talk, t'.Continues s' id before ∧ t.Gains t' id (s.steps ms) := by
  induction ms with
  | nil =>
    intro s s' t h _ _ hs _
    cases hs
    exact ⟨t, h, ⟨by simp [Scene.steps], by simp [Scene.steps]⟩⟩
  | cons m ms ih =>
    intro s s' t h hl hp hs hu
    obtain ⟨u, hm, hs⟩ := Option.bind_eq_some_iff.mp hs
    have hsteps : s.steps (m :: ms) = [⟨s, m, u⟩] ++ u.steps ms := by
      rw [Scene.steps, hm]
      rfl
    rw [hsteps, List.forall_mem_append] at hu
    have hmoved := moved_of_after hm
    obtain ⟨t₁, h₁, hgains₁⟩ := h.moved hl hp hmoved (hu.1 _ (List.mem_singleton_self _))
    obtain ⟨t₂, h₂, hgains₂⟩ := ih h₁ (hl.moved hmoved) (hp.moved hmoved) hs hu.2
    exact ⟨t₂, h₂, hsteps ▸ hgains₁.append hgains₂⟩

end Talk.Continues

/-! ### Runs -/

/-- **One turn at a time.** In every scene that can be reached, from whatever store and with
whatever capacity of the cache, a session has at most one turn that runs. If it could be read at the
start and was left undisturbed, its history is the one at the start, then the user's message of each
turn that is over, with its reply unless the turn was dropped while it ran, then the user's message
of the running turn, if there is one. These turns are the ones that were opened, in that order and
each once, and those without a reply are the ones that were dropped. So the turns that are over make
pairs just if none was dropped. -/
theorem history_of_turns {store : Store} {capacity : Nat} {ms : List Move} {s : Scene}
    (hs : (Scene.start store capacity).afterAll ms = some s) (id : String) :
    (s.openTurns id).length ≤ 1 ∧
      (store.Reads id → (∀ p ∈ (Scene.start store capacity).steps ms, p.Undisturbed id) →
        ∃ (before now : SessionState) (t : Talk), (store.snapshot id).1 = .ok before ∧
          (s.store.snapshot id).1 = .ok now ∧ now.messages = before.messages ++ t.messages ∧
          t.IsOf s id ∧
          t.requests = ((Scene.start store capacity).steps ms).filterMap (Step.opening? id) ∧
          t.unanswered = ((Scene.start store capacity).steps ms).filterMap (Step.dropping? id) ∧
          (t.IsPaired ↔
            ∀ p ∈ (Scene.start store capacity).steps ms, p.dropping? id = none)) := by
  have hl := Scene.locksInOrder_start store capacity
  refine ⟨(hl.afterAll hs).length_openTurns id, fun hreads hu => ?_⟩
  obtain ⟨before, hbefore⟩ := hreads
  have hstart : (⟨[], none⟩ : Talk).Continues (Scene.start store capacity) id before.messages :=
    ⟨Talk.isOf_start store capacity id, by
      simpa [Talk.messages, Scene.start] using Store.messages_snapshot hbefore⟩
  have hp : (Scene.start store capacity).PreparedTrimmed := by
    intro r hr
    cases hr
  obtain ⟨t, ht, hgains⟩ := hstart.afterAll hl hp hs hu
  obtain ⟨now, hnow⟩ : s.store.Reads id := Store.reads_iff.mpr ⟨_, ht.history⟩
  have hmessages := Store.messages_snapshot hnow
  rw [ht.history, Except.ok.injEq] at hmessages
  have hdropped : t.unanswered = _ := hgains.unanswered
  rw [show (⟨[], none⟩ : Talk).unanswered = [] from rfl, List.nil_append] at hdropped
  refine ⟨before, now, t, hbefore, hnow, hmessages.symm, ht.isOf, ?_, hdropped, ?_⟩
  · simpa [Talk.requests] using hgains.requests
  · rw [Talk.isPaired_iff, hdropped, List.filterMap_eq_nil_iff]

/-- A cache of one agent: that of the session that nobody waits for any more is dropped, the other
is kept while its turn runs and another waits for it. -/
def crowdedRun : List Move :=
  [.arrive "b" "yo" none false, .leave 0, .arrive "a" " hi " none false, .prepare 1,
    .arrive "a" "more" none true, .prepare 2, .lock 1, .openTurn 1 ⟨"m1", 1⟩,
    .arrive "b" "again" none false, .complete 1 ⟨"m2", 2⟩ ⟨"hello", none⟩, .lock 2,
    .openTurn 2 ⟨"m3", 3⟩, .startText 2, .chunk 2 "ok"]

theorem history_of_turns_crowdedRun :
    let start := Scene.start ⟨.empty, ⟨"m", "p", []⟩⟩ 1
    ∃ s, start.afterAll crowdedRun = some s ∧ (s.openTurns "a").length ≤ 1 ∧
      start.store.Reads "a" ∧ (∀ p ∈ start.steps crowdedRun, p.Undisturbed "a") ∧
      ∃ (before now : SessionState) (t : Talk), (start.store.snapshot "a").1 = .ok before ∧
        (s.store.snapshot "a").1 = .ok now ∧ now.messages = before.messages ++ t.messages ∧
        t.IsOf s "a" ∧ t.requests = [1, 2] ∧ t.IsPaired := by
  intro start
  obtain ⟨s, hs⟩ : ∃ s, start.afterAll crowdedRun = some s :=
    Option.isSome_iff_exists.mp (by decide +kernel)
  have hreads : start.store.Reads "a" := by decide +kernel
  have hu : ∀ p ∈ start.steps crowdedRun, p.Undisturbed "a" := by decide +kernel
  have hopened : (start.steps crowdedRun).filterMap (Step.opening? "a") = [1, 2] := by
    decide +kernel
  have hdropped : ∀ p ∈ start.steps crowdedRun, p.dropping? "a" = none := by decide +kernel
  obtain ⟨hone, htalk⟩ := history_of_turns hs "a"
  obtain ⟨before, now, t, hbefore, hnow, hmessages, hof, hrequests, -, hpaired⟩ := htalk hreads hu
  exact ⟨s, hs, hone, hreads, hu, before, now, t, hbefore, hnow, hmessages, hof,
    hrequests.trans hopened, hpaired.mpr hdropped⟩

/-- The caller of a buffered turn goes away while the turn runs, and another asks for the next
one. -/
def droppedRun : List Move :=
  [.arrive "s" "hi" none false, .prepare 0, .lock 0, .openTurn 0 ⟨"m1", 1⟩, .leave 0,
    .arrive "s" "again" none false, .prepare 1, .lock 1, .openTurn 1 ⟨"m2", 2⟩]

/-- **A turn that is dropped is left open.** The next turn of the session opens while the dropped
one is not closed, and the history has two messages of the user in a row. -/
theorem second_turn_opens_after_drop :
    let start := Scene.start ⟨.empty, ⟨"m", "p", []⟩⟩ 1
    (∀ p ∈ start.steps droppedRun, p.Undisturbed "s") ∧
      ∃ s state, start.afterAll droppedRun = some s ∧
        s.requests.map (·.phase.isOpen) = [false, true] ∧
        (start.steps droppedRun).filterMap (Step.opening? "s") = [0, 1] ∧
        (start.steps droppedRun).filterMap (Step.dropping? "s") = [0] ∧
        (s.store.snapshot "s").1 = .ok state ∧
        state.messages.map (·.speaker) = [.user, .user] := by
  intro start
  have hu : ∀ p ∈ start.steps droppedRun, p.Undisturbed "s" := by decide +kernel
  have hscene : ((start.afterAll droppedRun).map fun s => s.requests.map (·.phase.isOpen)) =
      some [false, true] := by decide +kernel
  have hopened : (start.steps droppedRun).filterMap (Step.opening? "s") = [0, 1] := by
    decide +kernel
  have hdropped : (start.steps droppedRun).filterMap (Step.dropping? "s") = [0] := by
    decide +kernel
  have hspeakers : ∀ s ∈ start.afterAll droppedRun,
      (s.store.snapshot "s").1.map (·.messages.map (·.speaker)) = .ok [.user, .user] := by
    decide +kernel
  obtain ⟨s, hs, hphases⟩ := Option.map_eq_some_iff.mp hscene
  have hsnapshot := hspeakers s hs
  cases hstate : (s.store.snapshot "s").1 with
  | error f =>
    rw [hstate] at hsnapshot
    cases hsnapshot
  | ok state =>
    rw [hstate] at hsnapshot
    injection hsnapshot with hmessages
    exact ⟨hu, s, state, hs, hphases, hopened, hdropped, hstate, hmessages⟩

end ChatRelay.Session
