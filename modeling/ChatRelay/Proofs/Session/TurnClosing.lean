import ChatRelay.Proofs.Json.ReadBack
import ChatRelay.Proofs.Session.Operations
import ChatRelay.Proofs.Turn.FreshValues
import ChatRelay.Session.Agent
import ChatRelay.Turn.Script

/-! # Turns that close

A turn should leave its session idle, with the user's message and one reply added to the history. It
does so on most of its ways out, but not on all. The message that opens a turn stays even if the
state cannot be read afterwards; a buffered turn then gives up and leaves the session open. A reply
whose calls do not read back closes the turn and still counts as a failure; a streamed turn then
adds a second reply. These are the only exceptions (`turn_closes_iff`). -/

namespace ChatRelay.Session

open Tools Turn

/-! ### Closed turns -/

/-- Between two databases a session got the user's message and one reply, and is idle. -/
structure ClosedTurn (db db' : Database) (id message : String) : Prop where
  idle : ∃ r, db'.row? id = some r ∧ r.isProcessing = false ∧ r.streamingMessage = ""
  pair : ∃ u v, db'.rowsOf id = db.rowsOf id ++ [u, v] ∧ u.role = Speaker.user.name ∧
    u.content = message ∧ v.role = Speaker.assistant.name

theorem ClosedTurn.length_rowsOf {db db' : Database} {id message : String}
    (h : ClosedTurn db db' id message) : (db'.rowsOf id).length = (db.rowsOf id).length + 2 := by
  obtain ⟨u, v, hrows, -⟩ := h.pair
  simp [hrows]

/-- The calls of an outcome can be read again once they are stored. -/
def TurnOutcome.ReadsBack (o : TurnOutcome) : Prop :=
  ∀ rs ∈ Message.recordsOf o.toolCalls, ∃ rs', readRecords (recordsDoc rs).text = .ok rs'

namespace Store

variable {s s' : Store} {id message : String} {stamp : Stamp}

/-- What is opened and then closed is a closed turn; what streams in between does not matter. -/
theorem closedTurn_closed (hm : s'.database.messages =
    (s.opened stamp id message).database.messages) (stamp' : Stamp) (text : String) (calls :
    Option (List ToolCallRecord)) :
    ClosedTurn s.database (s'.closed stamp' id text calls).database id message where
  idle := s'.row?_closed stamp' id text calls
  pair := by
    have hrows := s'.rowsOf_closed stamp' id id text calls
    rw [if_pos rfl, Database.rowsOf_congr hm, rowsOf_opened, if_pos rfl, List.append_assoc] at hrows
    exact ⟨_, _, hrows, rfl, rfl, rfl⟩

/-- A turn that is only opened is not closed. -/
theorem not_closedTurn_opened (s : Store) (stamp : Stamp) (id message : String) :
    ¬ ClosedTurn s.database (s.opened stamp id message).database id message := by
  intro h
  have := h.length_rowsOf
  rw [rowsOf_opened, if_pos rfl, List.length_append, List.length_singleton] at this
  omega

/-- A turn that is closed twice is not closed by one reply. -/
theorem not_closedTurn_closed_closed
    (hm : s'.database.messages = (s.opened stamp id message).database.messages)
    {stamp' stamp'' : Stamp} {text text' : String} {calls calls' : Option (List ToolCallRecord)} :
    ¬ ClosedTurn s.database
      ((s'.closed stamp' id text calls).closed stamp'' id text' calls').database
      id message := by
  intro h
  have := h.length_rowsOf
  rw [rowsOf_closed, if_pos rfl, rowsOf_closed, if_pos rfl, Database.rowsOf_congr hm, rowsOf_opened,
    if_pos rfl] at this
  simp only [List.length_append, List.length_singleton] at this
  omega

theorem reads_congr (h : s'.database.messages = s.database.messages) :
    s'.Reads id ↔ s.Reads id := by
  rw [reads_iff, reads_iff]
  exact Database.readable_congr (Database.rowsOf_congr h id)

/-- The user's message never spoils a history. -/
theorem reads_opened : (s.opened stamp id message).Reads id ↔ s.Reads id := by
  rw [reads_iff, reads_iff]
  have hrows := s.rowsOf_opened stamp id id message
  rw [if_pos rfl] at hrows
  rw [Database.readable_append hrows]
  rw [List.forall_mem_singleton]
  exact and_iff_left ⟨_, message_ofMessage_plain _ _ _ rfl⟩

/-- A reply spoils a history if its calls do not read back. -/
theorem reads_closed {o : TurnOutcome} :
    (s.closed stamp id o.content o.toolCalls).Reads id ↔ s.Reads id ∧ o.ReadsBack := by
  rw [reads_iff, reads_iff]
  have hrows := s.rowsOf_closed stamp id id o.content o.toolCalls
  rw [if_pos rfl] at hrows
  rw [Database.readable_append hrows]
  rw [List.forall_mem_singleton, message_ofMessage_ok_iff]
  rfl

end Store

/-! ### Fresh ids -/

/-- The ids that a source gives for messages between two of its states are distinct and not in
use. -/
structure FreshIds (d d' : Draws) (db : Database) : Prop where
  unused : ∀ k, d.used ≤ k → k < d'.used → db.Unused (Draws.messageId ⟨d.seed, k⟩).1
  distinct : ∀ k l, d.used ≤ k → k < l → l < d'.used →
    (Draws.messageId ⟨d.seed, k⟩).1 ≠ (Draws.messageId ⟨d.seed, l⟩).1

instance (d d' : Draws) (db : Database) : Decidable (FreshIds d d' db) :=
  decidable_of_iff (∀ k < d'.used, d.used ≤ k → db.Unused (Draws.messageId ⟨d.seed, k⟩).1 ∧
      ∀ l < d'.used, k < l → (Draws.messageId ⟨d.seed, k⟩).1 ≠ (Draws.messageId ⟨d.seed, l⟩).1)
    ⟨fun h => ⟨fun k hd hk => (h k hk hd).1,
        fun k l hd hkl hl => (h k (Nat.lt_trans hkl hl) hd).2 l hl hkl⟩,
      fun h k hk hd => ⟨h.unused k hd hk, fun l hl hkl => h.distinct k l hd hkl hl⟩⟩

namespace FreshIds

variable {b c d d' : Draws} {db : Database}

theorem unused_messageId (h : FreshIds d d' db) (hc : d.MovesTo c) (hlt : c.used < d'.used) :
    db.Unused c.messageId.1 := by
  have := h.unused c.used hc.2 hlt
  rw [← hc.1] at this
  exact this

theorem messageId_ne (h : FreshIds d d' db) (hb : d.MovesTo b) (hbc : b.messageId.2.MovesTo c)
    (hlt : c.used < d'.used) : b.messageId.1 ≠ c.messageId.1 := by
  have hused : b.used + 1 ≤ c.used := hbc.2
  have hseed : c.seed = b.seed := hbc.1
  have := h.distinct b.used c.used hb.2 (by omega) hlt
  rw [← hb.1, ← hseed] at this
  have hb' : (⟨c.seed, b.used⟩ : Draws) = b := by rw [hseed]
  rw [hb'] at this
  exact this

end FreshIds

theorem Database.unused_append {db db' : Database} {n : Nat} {id id' : String} {m : Message}
    (h : db'.messages = db.messages ++ [.ofMessage n id m]) :
    db'.Unused id' ↔ db.Unused id' ∧ m.id ≠ id' := by
  have hm : (MessageRow.ofMessage n id m).id = m.id := rfl
  simp [Unused, h, List.mem_append, or_imp, forall_and, hm]

theorem eq_ok_of_toOption {ε α : Type} {r : Except ε α} {x : α} (h : r.toOption = some x) :
    r = .ok x := by
  cases r with
  | error f => cases h
  | ok y => exact congrArg Except.ok (Option.some.inj h)

/-! ### Actions of a turn -/

namespace Agents

variable {σ : Type}

/-- The stamp that the next message gets. -/
def nextStamp (a : Agents σ) : Stamp := ⟨a.world.draws.messageId.1, a.clock⟩

/-- The agents after a stamp was drawn. -/
def stamped (a : Agents σ) : Agents σ :=
  { a with
    world := { a.world with draws := a.world.draws.messageId.2 }
    clock := a.clock + 1 }

/-- The agents over another store. -/
def withStore (a : Agents σ) (store : Store) : Agents σ := { a with store }

theorem bind_run {α β : Type} (x : AgentAct σ α) (f : α → AgentAct σ β) (a : Agents σ) :
    (x >>= f) a = f (x a).1 (x a).2 := rfl

theorem onStore_run {α : Type} (op : Store → Store.Result α) (a : Agents σ) :
    onStore op a = ((op a.store).1, a.withStore (op a.store).2) := rfl

theorem inWorld_run {α : Type} (act : Act σ α) (a : Agents σ) :
    inWorld act a = ((act.run a.world).1, { a with world := (act.run a.world).2 }) := rfl

theorem openTurn_run (id message : String) (a : Agents σ) : openTurn id message a =
    ((a.store.appendUserMessage a.nextStamp id message).1,
      a.stamped.withStore (a.store.appendUserMessage a.nextStamp id message).2) := rfl

theorem completeTurn_run (id : String) (o : TurnOutcome) (a : Agents σ) : completeTurn id o a =
    ((a.store.completeTurn a.nextStamp id o.content o.toolCalls).1,
      a.stamped.withStore (a.store.completeTurn a.nextStamp id o.content o.toolCalls).2) := rfl

/-- A failure closes a turn like an outcome without calls. -/
theorem failTurn_run (id text : String) (a : Agents σ) :
    failTurn id text a = completeTurn id ⟨text, none⟩ a := rfl

/-- What the handler makes of a turn that opens now, none if it does not open. -/
def turnOutcome (h : Handler σ) (id message : String) (streamed : Bool) (a : Agents σ) :
    Option (Except Completion.Failure TurnOutcome) :=
  match openTurn id message a with
  | (.error _, _) => none
  | (.ok state, b) => some ((h.run (turnInput message streamed state)).run b.world).1.outcome

theorem runPrepared_error {h : Handler σ} {id message : String} {a : Agents σ} {f : Failure}
    (hs : (openTurn id message a).1 = .error f) :
    (runPrepared h id message a).2 = (openTurn id message a).2 := by
  unfold runPrepared
  rw [bind_run, hs]
  rfl

theorem turnOutcome_of_ok {h : Handler σ} {id message : String} {a : Agents σ}
    {state : SessionState} (hs : (openTurn id message a).1 = .ok state) (streamed : Bool) :
    turnOutcome h id message streamed a =
      some ((h.run (turnInput message streamed state)).run
        (openTurn id message a).2.world).1.outcome := by
  unfold turnOutcome
  generalize openTurn id message a = opened at hs ⊢
  obtain ⟨result, b⟩ := opened
  cases hs
  rfl

theorem turnOutcome_of_error {h : Handler σ} {id message : String} {a : Agents σ} {f : Failure}
    (hs : (openTurn id message a).1 = .error f) (streamed : Bool) :
    turnOutcome h id message streamed a = none := by
  unfold turnOutcome
  generalize openTurn id message a = opened at hs ⊢
  obtain ⟨result, b⟩ := opened
  cases hs
  rfl

/-- A buffered turn that has opened is closed once, with the outcome or with its failure, and what
closes it answers. -/
theorem runPrepared_ok {h : Handler σ} {id message : String} {a : Agents σ} {state : SessionState}
    (hs : (openTurn id message a).1 = .ok state) :
    ∃ (b : Agents σ) (o : TurnOutcome), b.store = (openTurn id message a).2.store ∧
      (openTurn id message a).2.world.draws.MovesTo b.world.draws ∧
      (runPrepared h id message a).2 = (completeTurn id o b).2 ∧
      (turnOutcome h id message false a = some (.ok o) ∧
          (runPrepared h id message a).1 = (completeTurn id o b).1 ∨
        ∃ f, turnOutcome h id message false a = some (.error f) ∧
          o = ⟨bufferedFailureText (.completion f), none⟩ ∧
          (runPrepared h id message a).1 = (completeTurn id o b).1.bind fun _ =>
            .error (.completion f)) := by
  rw [turnOutcome_of_ok hs]
  unfold runPrepared
  rw [bind_run, hs]
  simp only
  rw [bind_run, bind_run, inWorld_run]
  generalize hc : (remember ⟨id, state.model⟩ (openTurn id message a).2).2 = c
  have hstore : c.store = (openTurn id message a).2.store := by rw [← hc]; rfl
  have hworld : c.world = (openTurn id message a).2.world := by rw [← hc]; rfl
  have hmoves := h.advances_run (turnInput message false state) c.world
  rw [hworld] at hmoves ⊢
  generalize (h.run (turnInput message false state)).run (openTurn id message a).2.world = result
    at hmoves ⊢
  simp only
  cases result.1.outcome with
  | ok o => exact ⟨{ c with world := result.2 }, o, hstore, hmoves, rfl, .inl ⟨rfl, rfl⟩⟩
  | error f =>
    refine ⟨{ c with world := result.2 }, ⟨bufferedFailureText (.completion f), none⟩, hstore,
      hmoves, ?_⟩
    simp only
    rw [bind_run, failTurn_run]
    cases (completeTurn id ⟨bufferedFailureText (.completion f),
      none⟩ { c with world := result.2 }).1 <;>
      exact ⟨rfl, .inr ⟨f, rfl, rfl, rfl⟩⟩

/-- Chunks are collected beside the messages. -/
theorem collectChunks_run (id : String) (cs : List String) : ∀ a : Agents σ,
    (collectChunks id cs a).2.store.database.messages = a.store.database.messages ∧
      (collectChunks id cs a).2.world = a.world := by
  induction cs with
  | nil => exact fun a => ⟨rfl, rfl⟩
  | cons c cs ih =>
    intro a
    unfold collectChunks
    rw [bind_run, onStore_run]
    obtain ⟨hm, hw⟩ := ih (a.withStore (a.store.appendStreamChunk id c).2)
    exact ⟨hm.trans (a.store.messages_appendStreamChunk id c), hw⟩

/-- A failure of a streamed turn is recorded as its reply. -/
theorem streamPrepared_run (h : Handler σ) (id message : String) (a : Agents σ) :
    (streamPrepared h id message a).2 =
      match (streamTurn h id message a).1.2 with
      | none => (streamTurn h id message a).2
      | some f => (failTurn id (streamFailureText f) (streamTurn h id message a).2).2 := by
  unfold streamPrepared
  rw [bind_run]
  generalize streamTurn h id message a = result
  obtain ⟨⟨chunks, _ | f⟩, b⟩ := result <;> rfl

/-- A streamed turn that has opened is completed if its first completion did not fail; whether that
succeeds or not, it is the end of it. -/
theorem streamTurn_ok {h : Handler σ} {id message : String} {a : Agents σ} {state : SessionState}
    (hs : (openTurn id message a).1 = .ok state) :
    ∃ b : Agents σ,
      b.store.database.messages = (openTurn id message a).2.store.database.messages ∧
      (openTurn id message a).2.world.draws.MovesTo b.world.draws ∧
      ((∃ f, turnOutcome h id message true a = some (.error f) ∧
          (streamTurn h id message a).1.2 = some (.completion f) ∧
          (streamTurn h id message a).2 = b) ∨
        ∃ o, turnOutcome h id message true a = some (.ok o) ∧
          (streamTurn h id message a).2 = (completeTurn id o b).2 ∧
          ((∃ state', (completeTurn id o b).1 = .ok state' ∧
            (streamTurn h id message a).1.2 = none) ∨
            ∃ f, (completeTurn id o b).1 = .error f ∧
            (streamTurn h id message a).1.2 = some f)) := by
  rw [turnOutcome_of_ok hs]
  unfold streamTurn
  rw [bind_run, hs]
  simp only
  rw [bind_run, bind_run, onStore_run, Store.beginStreaming_ok]
  simp only
  generalize hc : (remember ⟨id, state.model⟩ (openTurn id message a).2).2 = c
  have hmessages : (c.store.beginStreaming id).2.database.messages =
      (openTurn id message a).2.store.database.messages := by
    rw [Store.messages_beginStreaming, ← hc]; rfl
  have hworld : c.world = (openTurn id message a).2.world := by rw [← hc]; rfl
  have hmoves := h.advances_run (turnInput message true state) c.world
  rw [bind_run, inWorld_run, bind_run]
  rw [hworld] at hmoves
  have hw : (c.withStore (c.store.beginStreaming id).2).world = (openTurn id message a).2.world :=
    hworld
  rw [hw]
  generalize (h.run (turnInput message true state)).run (openTurn id message a).2.world = result
    at hmoves ⊢
  simp only
  obtain ⟨hm', hw'⟩ := collectChunks_run id result.1.chunks
    { c.withStore (c.store.beginStreaming id).2 with world := result.2 }
  generalize collectChunks id result.1.chunks
    { c.withStore (c.store.beginStreaming id).2 with world := result.2 } = collected at hm' hw' ⊢
  refine ⟨collected.2, hm'.trans hmessages, by rw [hw']; exact hmoves, ?_⟩
  cases result.1.outcome with
  | error f => exact .inl ⟨f, rfl, rfl, rfl⟩
  | ok o =>
    refine .inr ⟨o, rfl, ?_⟩
    simp only
    rw [bind_run]
    cases (completeTurn id o collected.2).1 with
    | error f => exact ⟨rfl, .inr ⟨f, rfl, rfl⟩⟩
    | ok state' => exact ⟨rfl, .inl ⟨state', rfl, rfl⟩⟩

theorem streamTurn_error {h : Handler σ} {id message : String} {a : Agents σ} {f : Failure}
    (hs : (openTurn id message a).1 = .error f) :
    (streamTurn h id message a).1.2 = some f ∧
      (streamTurn h id message a).2 = (openTurn id message a).2 := by
  unfold streamTurn
  rw [bind_run, hs]
  exact ⟨rfl, rfl⟩

/-! ### Turns with fresh ids -/

theorem openTurn_fresh {a : Agents σ} (hu : a.store.database.Unused a.nextStamp.id)
    (id message : String) :
    (openTurn id message a).2.store = a.store.opened a.nextStamp id message ∧
      ((∃ state, (openTurn id message a).1 = .ok state) ↔ a.store.Reads id) := by
  rw [openTurn_run]
  refine ⟨congrArg Prod.snd (Store.appendUserMessage_eq hu id message), ?_⟩
  rw [Store.appendUserMessage_ok_iff hu, Store.appendUserMessage_eq hu, Store.reads_opened]

theorem completeTurn_fresh {b : Agents σ} (hu : b.store.database.Unused b.nextStamp.id)
    (id : String) (o : TurnOutcome) :
    (completeTurn id o b).2.store = b.store.closed b.nextStamp id o.content o.toolCalls ∧
      ((∃ state, (completeTurn id o b).1 = .ok state) ↔ b.store.Reads id ∧ o.ReadsBack) := by
  rw [completeTurn_run]
  refine ⟨congrArg Prod.snd (Store.completeTurn_eq hu id o.content o.toolCalls), ?_⟩
  rw [Store.completeTurn_ok_iff hu, Store.completeTurn_eq hu, Store.reads_closed]

section Closing

variable {a b : Agents σ} {d : Draws} {id message : String}

/-- The user's message gets an unused id. -/
theorem unused_of_moves (hf : FreshIds a.world.draws d a.store.database)
    (hmoves : (openTurn id message a).2.world.draws.MovesTo b.world.draws)
    (hlt : b.world.draws.used < d.used) : a.store.database.Unused a.nextStamp.id :=
  hf.unused_messageId (.refl _) (Nat.lt_of_succ_lt (Nat.lt_of_le_of_lt hmoves.2 hlt))

/-- What is added to a turn after its opening gets an unused id. -/
theorem unused_after_opening (hf : FreshIds a.world.draws d a.store.database)
    (hm : b.store.database.messages = (openTurn id message a).2.store.database.messages)
    (hmoves : (openTurn id message a).2.world.draws.MovesTo b.world.draws)
    (hlt : b.world.draws.used < d.used) : b.store.database.Unused b.nextStamp.id := by
  have hd : a.world.draws.MovesTo b.world.draws := (Draws.MovesTo.messageId _).trans hmoves
  have hu := unused_of_moves hf hmoves hlt
  rw [(openTurn_fresh hu id message).1, Store.messages_opened] at hm
  rw [Database.unused_append hm]
  exact ⟨hf.unused_messageId hd hlt, hf.messageId_ne (.refl _) hmoves hlt⟩

/-- A turn that is completed after its opening is closed, whatever the answer. -/
theorem closedTurn_completeTurn {o : TurnOutcome}
    (hm : b.store.database.messages = (openTurn id message a).2.store.database.messages)
    (hmoves : (openTurn id message a).2.world.draws.MovesTo b.world.draws)
    (hf : FreshIds a.world.draws (completeTurn id o b).2.world.draws a.store.database) :
    ClosedTurn a.store.database (completeTurn id o b).2.store.database id message := by
  have hlt : b.world.draws.used < (completeTurn id o b).2.world.draws.used := Nat.lt_succ_self _
  have hu := unused_of_moves hf hmoves hlt
  have hu' := unused_after_opening hf hm hmoves hlt
  rw [(openTurn_fresh hu id message).1] at hm
  rw [(completeTurn_fresh hu' id o).1]
  exact Store.closedTurn_closed hm _ _ _

/-- What is added after the reply gets an unused id: three ids are drawn, of the message, of the
reply and of what comes after it. -/
theorem unused_after_reply {o : TurnOutcome}
    (hm : b.store.database.messages = (openTurn id message a).2.store.database.messages)
    (hmoves : (openTurn id message a).2.world.draws.MovesTo b.world.draws)
    (hf : FreshIds a.world.draws d a.store.database)
    (hlt : (completeTurn id o b).2.world.draws.used < d.used) :
    (completeTurn id o b).2.store.database.Unused (completeTurn id o b).2.nextStamp.id := by
  let c := (completeTurn id o b).2
  have hbc : b.world.draws.messageId.2.MovesTo c.world.draws := .refl _
  have hb : b.world.draws.used < d.used := Nat.lt_of_succ_lt (Nat.lt_of_le_of_lt hbc.2 hlt)
  have hab : a.world.draws.MovesTo b.world.draws := (Draws.MovesTo.messageId _).trans hmoves
  have hac : a.world.draws.messageId.2.MovesTo c.world.draws :=
    hmoves.trans ((Draws.MovesTo.messageId _).trans hbc)
  have hu := unused_of_moves hf hmoves hb
  obtain ⟨hclosed, -⟩ := completeTurn_fresh (unused_after_opening hf hm hmoves hb) id o
  have hmessages := Store.messages_closed b.store b.nextStamp id o.content o.toolCalls
  rw [← hclosed] at hmessages
  rw [(openTurn_fresh hu id message).1, Store.messages_opened] at hm
  rw [Database.unused_append hmessages, Database.unused_append hm]
  exact ⟨⟨hf.unused_messageId ((Draws.MovesTo.messageId _).trans hac) hlt,
    hf.messageId_ne (.refl _) hac hlt⟩, hf.messageId_ne hab hbc hlt⟩

/-- A turn that is completed twice is not closed. -/
theorem not_closedTurn_completeTurn_twice {o o' : TurnOutcome}
    (hm : b.store.database.messages = (openTurn id message a).2.store.database.messages)
    (hmoves : (openTurn id message a).2.world.draws.MovesTo b.world.draws)
    (hf : FreshIds a.world.draws (completeTurn id o' (completeTurn id o b).2).2.world.draws
      a.store.database) :
    ¬ ClosedTurn a.store.database (completeTurn id o' (completeTurn id o b).2).2.store.database id
      message := by
  let c := (completeTurn id o b).2
  have hc : c.world.draws.used < (completeTurn id o' c).2.world.draws.used := Nat.lt_succ_self _
  have hb : b.world.draws.used < (completeTurn id o' c).2.world.draws.used := Nat.lt_of_succ_lt hc
  have hub := unused_after_opening hf hm hmoves hb
  rw [(completeTurn_fresh (unused_after_reply hm hmoves hf hc) id o').1,
    (completeTurn_fresh hub id o).1]
  rw [(openTurn_fresh (unused_of_moves hf hmoves hb) id message).1] at hm
  exact Store.not_closedTurn_closed_closed hm

/-- A turn that is completed after its opening answers with a state if the history could be read
before the turn and the calls read back. -/
theorem completeTurn_ok_iff_reads {o : TurnOutcome}
    (hm : b.store.database.messages = (openTurn id message a).2.store.database.messages)
    (hmoves : (openTurn id message a).2.world.draws.MovesTo b.world.draws)
    (hlt : b.world.draws.used < d.used) (hf : FreshIds a.world.draws d a.store.database) :
    (∃ state, (completeTurn id o b).1 = .ok state) ↔ a.store.Reads id ∧ o.ReadsBack := by
  have hu := unused_of_moves hf hmoves hlt
  rw [(completeTurn_fresh (unused_after_opening hf hm hmoves hlt) id o).2, Store.reads_congr hm,
    (openTurn_fresh hu id message).1, Store.reads_opened]

end Closing

/-- A buffered turn of a session that cannot be read opens it and gives up. -/
theorem runPrepared_of_not_reads {h : Handler σ} {id : String} {a : Agents σ}
    (hu : a.store.database.Unused a.nextStamp.id) (hr : ¬ a.store.Reads id) (message : String) :
    (runPrepared h id message a).2.store = a.store.opened a.nextStamp id message := by
  obtain ⟨hopened, hreads⟩ := openTurn_fresh hu id message
  cases hs : (openTurn id message a).1 with
  | ok state => exact absurd (hreads.mp ⟨state, hs⟩) hr
  | error f => rw [runPrepared_error hs, hopened]

/-- **A buffered turn closes just if its history can be read when it opens.** -/
theorem runPrepared_closes_iff {h : Handler σ} {id message : String} {a : Agents σ}
    (hf : FreshIds a.world.draws (runPrepared h id message a).2.world.draws a.store.database) :
    ClosedTurn a.store.database (runPrepared h id message a).2.store.database id message ↔
      a.store.Reads id := by
  cases hs : (openTurn id message a).1 with
  | error f =>
    rw [runPrepared_error (h := h) hs] at hf
    have hu := hf.unused_messageId (.refl _) (Nat.lt_succ_self a.world.draws.used)
    have hr : ¬ a.store.Reads id := by
      rw [← (openTurn_fresh hu id message).2, hs]
      simp
    rw [runPrepared_of_not_reads hu hr]
    exact iff_of_false (a.store.not_closedTurn_opened a.nextStamp id message) hr
  | ok state =>
    obtain ⟨b, o, hstore, hmoves, hrun, -⟩ := runPrepared_ok (h := h) hs
    rw [hrun] at hf ⊢
    have hm := congrArg (·.database.messages) hstore
    have hu := unused_of_moves hf hmoves (Nat.lt_succ_self _)
    exact iff_of_true (closedTurn_completeTurn hm hmoves hf)
      ((openTurn_fresh hu id message).2.mp ⟨state, hs⟩)

/-- A buffered turn whose calls do not read back spoils the history. -/
theorem not_reads_runPrepared {h : Handler σ} {id message : String} {a : Agents σ} {o : TurnOutcome}
    (hf : FreshIds a.world.draws (runPrepared h id message a).2.world.draws a.store.database)
    (ho : turnOutcome h id message false a = some (.ok o)) (hback : ¬ o.ReadsBack) :
    ¬ (runPrepared h id message a).2.store.Reads id := by
  cases hs : (openTurn id message a).1 with
  | error f =>
    rw [turnOutcome_of_error hs] at ho
    cases ho
  | ok state =>
    obtain ⟨b, o', hstore, hmoves, hrun, hout⟩ := runPrepared_ok (h := h) hs
    have : o' = o := by
      rw [ho] at hout
      rcases hout with ⟨hout, -⟩ | ⟨f, hout, -⟩
      · cases hout; rfl
      · cases hout
    subst this
    rw [hrun] at hf ⊢
    have hm := congrArg (·.database.messages) hstore
    have hu := unused_after_opening hf hm hmoves (Nat.lt_succ_self _)
    rw [(completeTurn_fresh hu id o').1, Store.reads_closed]
    exact fun h => hback h.2

/-- **A streamed turn closes unless its own calls do not read back.** -/
theorem streamPrepared_closes_iff {h : Handler σ} {id message : String} {a : Agents σ}
    (hf : FreshIds a.world.draws (streamPrepared h id message a).2.world.draws a.store.database) :
    ClosedTurn a.store.database (streamPrepared h id message a).2.store.database id message ↔
      ∀ o, turnOutcome h id message true a = some (.ok o) → o.ReadsBack := by
  have hrun := streamPrepared_run h id message a
  cases hs : (openTurn id message a).1 with
  | error f =>
    obtain ⟨hfailure, hstate⟩ := streamTurn_error (h := h) hs
    simp only [hfailure, hstate, failTurn_run] at hrun
    rw [hrun] at hf ⊢
    rw [turnOutcome_of_error hs]
    exact iff_of_true (closedTurn_completeTurn rfl (.refl _) hf) (by simp)
  | ok state =>
    obtain ⟨b, hm, hmoves, ⟨f, hout, hfailure, hstate⟩ | ⟨o, hout, hstate, hanswer⟩⟩ :=
      streamTurn_ok (h := h) hs
    · simp only [hfailure, hstate, failTurn_run] at hrun
      rw [hrun] at hf ⊢
      rw [hout]
      exact iff_of_true (closedTurn_completeTurn hm hmoves hf) (by simp)
    · rw [hout]
      simp only [Option.some.injEq, Except.ok.injEq, forall_eq']
      rcases hanswer with ⟨state', hcomplete, hfailure⟩ | ⟨f, hcomplete, hfailure⟩
      · simp only [hfailure, hstate] at hrun
        rw [hrun] at hf ⊢
        have hok := (completeTurn_ok_iff_reads hm hmoves (Nat.lt_succ_self _) hf).mp
          ⟨state', hcomplete⟩
        exact iff_of_true (closedTurn_completeTurn hm hmoves hf) hok.2
      · simp only [hfailure, hstate, failTurn_run] at hrun
        rw [hrun] at hf ⊢
        refine iff_of_false (not_closedTurn_completeTurn_twice hm hmoves hf) fun hback => ?_
        -- the turn has opened, so the history was readable, and only the reply can have spoiled it
        have hlt : b.world.draws.used < (completeTurn id ⟨streamFailureText f, none⟩
            (completeTurn id o b).2).2.world.draws.used := Nat.lt_succ_of_lt (Nat.lt_succ_self _)
        have hu := unused_of_moves hf hmoves hlt
        have hreads := (openTurn_fresh hu id message).2.mp ⟨state, hs⟩
        obtain ⟨state', hok⟩ := (completeTurn_ok_iff_reads hm hmoves hlt hf).mpr ⟨hreads, hback⟩
        rw [hcomplete] at hok
        cases hok

/-! ### Whole turns -/

/-- The agents when a turn takes its lock: the message is prepared, and the turns that were started
earlier are over. A turn that is refused gets no further than its preparation. -/
def atLock (wait : AgentAct σ Unit) (id message : String) (model : Option String) (a : Agents σ) :
    Agents σ :=
  match prepare id message model a with
  | (.error _, b) => b
  | (.ok _, b) => (wait b).2

theorem prepare_run (id message : String) (model : Option String) (a : Agents σ) :
    prepare id message model a = ((a.store.prepareTurn id message model).1,
      a.withStore (a.store.prepareTurn id message model).2) := by
  unfold prepare
  rw [onStore_run]

/-- **When turns close.** Let the ids of the turn be fresh. A buffered turn, however it returns,
closes just if the history of its session can be read when it takes the lock. A streamed turn, once
its channel has closed, is closed unless the calls of its own outcome do not read back. -/
theorem turn_closes_iff (h : Handler σ) (a : Agents σ) (id message : String) (model : Option String)
    (hm : Text.isBlankText message = false) :
    (let before := a.atLock (await h id) id message model
      let after := (runBuffered h id message model a).2
      FreshIds before.world.draws after.world.draws before.store.database →
        (ClosedTurn before.store.database after.store.database id (Text.trim message) ↔
          before.store.Reads id)) ∧
    (∀ chunks, (runStreaming h id message model a).1 = .ok chunks →
      let before := a.atLock (takeUp h) id message model
      let after := (runStreaming h id message model a).2
      FreshIds before.world.draws after.world.draws before.store.database →
        (ClosedTurn before.store.database after.store.database id (Text.trim message) ↔
          ∀ o, turnOutcome h id (Text.trim message) true before = some (.ok o) → o.ReadsBack)) := by
  have hmessages := Store.messages_prepareTurn a.store id message model
  have hrefused (f : Failure) := @Store.not_reads_of_prepareTurn_error a.store id message model f hm
  have hprepared (m : String) := @Store.prepareTurn_ok a.store id message m model
  unfold atLock runBuffered runStreaming
  rw [bind_run, bind_run, prepare_run]
  generalize a.store.prepareTurn id message model = result at hmessages hrefused hprepared ⊢
  obtain ⟨f | prepared, store⟩ := result
  · -- a turn that is refused leaves the history as it is
    have hnot : ¬ ClosedTurn store.database store.database id (Text.trim message) :=
        fun hclosed => by
      have := hclosed.length_rowsOf
      omega
    have hreads : ¬ store.Reads id := fun hr => hrefused f rfl ((Store.reads_congr hmessages).mp hr)
    exact ⟨fun _ => iff_of_false hnot hreads, fun chunks hok => by cases hok⟩
  · obtain rfl := hprepared prepared rfl
    -- from here on the turn runs on whatever the turns before it have left
    have hbuffered :=
      @runPrepared_closes_iff σ h id (Text.trim message) (await h id (a.withStore store)).2
    have hstreamed :=
      @streamPrepared_closes_iff σ h id (Text.trim message) (takeUp h (a.withStore store)).2
    exact ⟨hbuffered, fun _ _ => hstreamed⟩

/-! ### A session that is left open -/

theorem runBuffered_of_idle {h : Handler σ} {id message : String} {a : Agents σ}
    (hm : Text.isBlankText message = false) (hb : a.isBusy id = false) :
    runBuffered h id message none a = runPrepared h id (Text.trim message) a := by
  have hp : a.store.prepareTurn id message none = (.ok (Text.trim message), a.store) := by
    rw [Store.prepareTurn_eq, Text.isEmpty_trim, hm]
    rfl
  have hawait : await h id a = ((), a) := by
    unfold await
    rw [bind_run]
    have hget : (MonadState.get : AgentAct σ (Agents σ)) a = (a, a) := rfl
    rw [hget, hb]
    rfl
  unfold runBuffered
  rw [bind_run, prepare_run, hp]
  simp only
  rw [bind_run]
  have hstore : a.withStore a.store = a := rfl
  rw [hstore, hawait]

/-- Parties of which the endpoint asks for one call with the given arguments, and for nothing
more. -/
def oneCall (arguments : String) : Script where
  tools := []
  listError := none
  answers := []
  completions := [.ok ⟨none, [⟨some "c", "t", arguments⟩]⟩]
  streams := []
  seen := []

/-- A handler that asks the parties of a script. -/
def scriptedHandler : Handler Script where
  mode := .live Script.provider
  maxTokens := 100
  executor := ⟨⟨fun _ s => (.error "", s)⟩, Script.bridge, none, ""⟩

/-- Agents of which none has run a turn. -/
def idleAgents (arguments : String) : Agents Script :=
  start ⟨.empty, ⟨"m", "p", []⟩⟩ ⟨oneCall arguments, ⟨0, 0⟩⟩ 0

/-- The call is recorded with the arguments that its text means, and fails. -/
def oneRecord (arguments : String) : ToolCallRecord :=
  ⟨"c", "t", Completion.parseArguments arguments, .error (Fault.bridge (.unknownTool "t")).message⟩

theorem outcome_oneCall (arguments message : String) (state : SessionState) (d : Draws) :
    ((scriptedHandler.run (turnInput message false state)).run ⟨oneCall arguments, d⟩).1.outcome =
      .ok ⟨orElse emptyFollowUpText "", some [oneRecord arguments]⟩ := by
  have hweather : "t" ≠ weatherTool := by decide
  have hsearch : "t" ≠ searchTool := by decide
  have hstore : "t" ≠ storeTool := by decide
  have hbridge : "t" ≠ bridgeTool := by decide
  simp only [Handler.run, Handler.offered, Handler.first, Handler.runCalls, Handler.runCall,
    Handler.followUp, scriptedHandler, Act.run_bind, Act.run_pure, Act.run_ask, Act.run_draw,
    Script.bridge, Script.provider, Script.listing, Script.answer, oneCall,
      Completion.completeCalls,
    Completion.ReplyDraft.complete, Completion.CallDraft.complete, Completion.ToolCall.ofRaw,
      turnInput,
    Executor.execute, Executor.viaBridge, Executor.toResult, hweather, hsearch, hstore, hbridge,
    Bool.false_eq_true, if_false, List.isEmpty_cons, List.lookup_nil, Option.getD_none, oneRecord]

theorem turn_closes_oneCall :
    let h := scriptedHandler
    let a := idleAgents ""
    let before := a.atLock (await h "s") "s" "hi" none
    let after := (runBuffered h "s" "hi" none a).2
    let before' := a.atLock (takeUp h) "s" "hi" none
    let after' := (runStreaming h "s" "hi" none a).2
    Text.isBlankText "hi" = false ∧
      FreshIds before.world.draws after.world.draws before.store.database ∧ before.store.Reads "s" ∧
      ClosedTurn before.store.database after.store.database "s" (Text.trim "hi") ∧
      (runStreaming h "s" "hi" none a).1 = .ok [] ∧
      FreshIds before'.world.draws after'.world.draws before'.store.database ∧
      (ClosedTurn before'.store.database after'.store.database "s" (Text.trim "hi") ↔
        ∀ o, turnOutcome h "s" (Text.trim "hi") true before' = some (.ok o) → o.ReadsBack) := by
  have hiff := turn_closes_iff scriptedHandler (idleAgents "") "s" "hi" none (by decide)
  dsimp only at hiff ⊢
  refine ⟨by decide, ?fresh, ?reads, (hiff.1 ?fresh).mpr ?reads, ?sent, ?fresh',
    hiff.2 [] ?sent ?fresh'⟩
  case fresh => decide +kernel
  case reads => decide +kernel
  case fresh' => decide +kernel
  case sent =>
    have hsome : (runStreaming scriptedHandler "s" "hi" none (idleAgents "")).1.toOption =
        some [] := by
      decide +kernel
    cases hrun : (runStreaming scriptedHandler "s" "hi" none (idleAgents "")).1 with
    | error f => rw [hrun] at hsome; cases hsome
    | ok chunks => rw [hrun] at hsome; cases hsome; rfl

/-- Arguments that nest as deep as a text can be read. -/
def deepArguments : List Char :=
  ['{', '"', 'a', '"', ':'] ++ List.replicate 126 '[' ++ List.replicate 126 ']' ++ ['}']

theorem parse?_trim_ofList (cs : List Char) : Json.parse? (Text.trim (String.ofList cs)) =
    ((Json.assemble (Json.tokens (Text.trimChars cs))).decode Json.value).toOption := by
  unfold Json.parse? Json.decodeText Json.read Text.trim
  rw [String.toList_ofList, String.toList_ofList]

theorem isEmpty_trim_ofList (cs : List Char) :
    (Text.trim (String.ofList cs)).isEmpty = (Text.trimChars cs).isEmpty := by
  unfold Text.trim
  rw [String.toList_ofList, Bool.eq_iff_iff, String.isEmpty_iff, List.isEmpty_iff,
    ← String.toList_inj, String.toList_ofList]
  simp

/-- In a record the arguments stand two levels deeper, too deep to be read again. -/
theorem not_readsBack_deep {arguments : Json.Object} {text : String} {result : ToolResult}
    (ha : Completion.parseArguments (String.ofList deepArguments) = arguments)
    (hr : result = .error (Fault.bridge (.unknownTool "t")).message) :
    ¬ TurnOutcome.ReadsBack ⟨text, some [⟨"c", "t", arguments, result⟩]⟩ := by
  intro h
  obtain ⟨rs, hrs⟩ := h _ rfl
  have hfault : ((Json.assemble
    (Json.tokens (recordsDoc [⟨"c", "t", arguments, result⟩]).render)).decode
      (Json.list ToolCallRecord.decode)).toOption.isSome = false := by
    simp only [Completion.parseArguments, parse?_trim_ofList, isEmpty_trim_ofList] at ha
    subst ha hr
    decide +kernel
  unfold readRecords at hrs
  rw [Json.decodeText_text] at hrs
  cases hdec : (Json.assemble
    (Json.tokens (recordsDoc [⟨"c", "t", arguments, result⟩]).render)).decode
      (Json.list ToolCallRecord.decode) with
  | ok rs' => rw [hdec] at hfault; cases hfault
  | error f => rw [hdec] at hrs; cases hrs

/-- After a turn whose call is recorded with arguments that nest too deep, the session cannot be
read. -/
theorem not_reads_deep : let a := idleAgents (String.ofList deepArguments)
    ¬ (runPrepared scriptedHandler "s" "hi" a).2.store.Reads "s" := by
  intro a
  have hf : FreshIds a.world.draws (runPrepared scriptedHandler "s" "hi" a).2.world.draws
      a.store.database := by decide +kernel
  obtain ⟨state, hs⟩ :=
    (openTurn_fresh (show a.store.database.Unused a.nextStamp.id by decide +kernel)
    "s" "hi").2.mpr (by decide +kernel)
  have ho := turnOutcome_of_ok (h := scriptedHandler) hs false
  rw [show (openTurn "s" "hi" a).2.world = ⟨oneCall (String.ofList deepArguments), ⟨0, 1⟩⟩ from rfl,
    outcome_oneCall] at ho
  exact not_reads_runPrepared hf ho (not_readsBack_deep rfl rfl)

/-- **A session left open.** The first turn records a call whose arguments nest too deep. It closes,
but its history cannot be read any more; the next buffered turn opens, gives up, and stays open for
good. -/
theorem turn_left_open :
    let first := (runBuffered scriptedHandler "s" "hi" none
      (idleAgents (String.ofList deepArguments))).2
    let second := (runBuffered scriptedHandler "s" "again" none first).2
    Text.isBlankText "again" = false ∧
      (∃ r, second.store.database.row? "s" = some r ∧ r.isProcessing = true) ∧
      ¬ ClosedTurn first.store.database second.store.database "s" "again" := by
  intro first second
  have hfirst : first =
      (runPrepared scriptedHandler "s" "hi" (idleAgents (String.ofList deepArguments))).2 := by
    have := @runBuffered_of_idle _ scriptedHandler "s" "hi"
      (idleAgents (String.ofList deepArguments)) (by decide) (by decide)
    rw [show Text.trim "hi" = "hi" by decide +kernel] at this
    exact congrArg Prod.snd this
  have hu : first.store.database.Unused first.nextStamp.id := by
    rw [hfirst]
    decide +kernel
  have hidle : first.isBusy "s" = false := by
    rw [hfirst]
    decide +kernel
  have hr : ¬ first.store.Reads "s" := by
    rw [hfirst]
    exact not_reads_deep
  have hsecond : second.store = first.store.opened first.nextStamp "s" "again" := by
    have := @runBuffered_of_idle _ scriptedHandler "s" "again" first (by decide) hidle
    rw [show Text.trim "again" = "again" by decide +kernel] at this
    rw [show second = (runPrepared scriptedHandler "s" "again" first).2 from congrArg Prod.snd this]
    exact runPrepared_of_not_reads hu hr "again"
  rw [hsecond]
  exact ⟨by decide, first.store.row?_opened _ _ _, first.store.not_closedTurn_opened _ _ _⟩

end Agents

end ChatRelay.Session
