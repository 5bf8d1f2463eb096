import ChatRelay.Proofs.Session.SessionRows
import ChatRelay.Proofs.Turn.RequestContext

/-! # The requests of a session's turn

A turn starts from the state that its own opening answers with, and the last message of that state
is the one it has just added (`openTurn_state`). It is cut off again, so the turn has as its history
what was stored before it, and the message on its own; with the prompt and the enabled tools of the
same state this is the context of its requests (`turn_requests`). -/

namespace ChatRelay.Session

open Completion Tools Turn

namespace Agents

variable {σ : Type}

/-! ### The state that a turn opens with -/

/-- **A turn that opens** adds the user's message to the history and finds the settings of its
session. -/
theorem openTurn_state {a : Agents σ} {id : String} {history : List Message}
    (hu : a.store.database.Unused a.nextStamp.id)
    (hms : a.store.database.messagesOf id = .ok history) (message : String) :
    ∃ state, (openTurn id message a).1 = .ok state ∧
      state.messages = history ++ [Store.userMessage a.nextStamp message] ∧
      state.systemPrompt = (a.store.rowOf id).systemPrompt ∧
      state.enabledTools = readNames (a.store.rowOf id).enabledTools := by
  have hreads : a.store.Reads id := Store.reads_iff.mpr ⟨history, hms⟩
  obtain ⟨-, hopens⟩ := openTurn_fresh hu id message
  obtain ⟨state, hstate⟩ := hopens.mpr hreads
  refine ⟨state, hstate, ?_⟩
  rw [openTurn_run, Store.appendUserMessage_eq hu] at hstate
  obtain ⟨r, hrow, -⟩ := a.store.row?_opened a.nextStamp id message
  have hafter := Store.stateOf_eq_ok hrow hstate
  -- the history has grown by the one row, which is read as the message it was written from
  have hrows := a.store.rowsOf_opened a.nextStamp id id message
  rw [if_pos rfl] at hrows
  obtain ⟨m, hm, hgrown⟩ := Database.messagesOf_append hrows hms ⟨_, hafter⟩
  have hread := message_ofMessage_plain (a.store.ensured id).database.nextNumber id
    (Store.userMessage a.nextStamp message) rfl
  obtain rfl : Store.userMessage a.nextStamp message = m := Except.ok.inj (hread.symm.trans hm)
  obtain ⟨ms, hfields⟩ := Store.stateOf_eq hstate
  rw [Store.rowOf_opened, if_pos rfl] at hfields
  exact ⟨Except.ok.inj (hafter.symm.trans hgrown), congrArg (·.systemPrompt) hfields,
    congrArg (·.enabledTools) hfields⟩

/-! ### The parties outside -/

/-- A buffered turn that has opened talks to the parties outside as its handler does. -/
theorem outside_runPrepared {h : Handler σ} {id message : String} {a : Agents σ}
    {state : SessionState} (hs : (openTurn id message a).1 = .ok state) :
    (runPrepared h id message a).2.world.outside =
      ((h.run (turnInput message false state)).run (openTurn id message a).2.world).2.outside := by
  unfold runPrepared
  rw [bind_run, hs]
  simp only
  rw [bind_run, bind_run, inWorld_run]
  generalize hc : (remember ⟨id, state.model⟩ (openTurn id message a).2).2 = c
  have hworld : c.world = (openTurn id message a).2.world := by rw [← hc]; rfl
  rw [hworld]
  generalize (h.run (turnInput message false state)).run (openTurn id message a).2.world = result
  simp only
  cases result.1.outcome with
  | ok o => rfl
  | error f =>
    simp only
    rw [bind_run, failTurn_run]
    cases (completeTurn id ⟨bufferedFailureText (.completion f),
      none⟩ { c with world := result.2 }).1 <;> rfl

theorem outside_streamTurn {h : Handler σ} {id message : String} {a : Agents σ}
    {state : SessionState} (hs : (openTurn id message a).1 = .ok state) :
    (streamTurn h id message a).2.world.outside =
      ((h.run (turnInput message true state)).run (openTurn id message a).2.world).2.outside := by
  unfold streamTurn
  rw [bind_run, hs]
  simp only
  rw [bind_run, bind_run, onStore_run, Store.beginStreaming_ok]
  simp only
  generalize hc : (remember ⟨id, state.model⟩ (openTurn id message a).2).2 = c
  rw [bind_run, inWorld_run, bind_run]
  have hworld : (c.withStore (c.store.beginStreaming id).2).world =
      (openTurn id message a).2.world := by
    rw [← hc]; rfl
  rw [hworld]
  generalize (h.run (turnInput message true state)).run (openTurn id message a).2.world = result
  simp only
  -- chunks are collected in the store alone
  obtain ⟨-, hcollected⟩ := collectChunks_run id result.1.chunks
    { c.withStore (c.store.beginStreaming id).2 with world := result.2 }
  generalize collectChunks id result.1.chunks
    { c.withStore (c.store.beginStreaming id).2 with world := result.2 } = collected at hcollected ⊢
  have houtside : collected.2.world.outside = result.2.outside := by rw [hcollected]
  rw [← houtside]
  cases result.1.outcome with
  | error f => rfl
  | ok o =>
    simp only
    rw [bind_run]
    cases (completeTurn id o collected.2).1 <;> rfl

theorem outside_streamPrepared (h : Handler σ) (id message : String) (a : Agents σ) :
    (streamPrepared h id message a).2.world.outside =
      (streamTurn h id message a).2.world.outside := by
  rw [streamPrepared_run]
  split <;> rfl

/-! ### Turns -/

/-- Between two states of the agents a turn of a session has run: it has added the message to the
history, and has sent requests that hold this history, the message, and the settings of the
session. -/
def RanInContext (h : Handler σ) (log : σ → List Request) (id message : String) (streamed : Bool)
    (history : List Message) (before after : Agents σ) : Prop :=
  (∃ state, (openTurn id message before).1 = .ok state ∧
    state.messages = history ++ [Store.userMessage before.nextStamp message]) ∧
  ∃ outcome sent, turnOutcome h id message streamed before = some outcome ∧
    log after.world.outside = log before.world.outside ++ sent ∧ (h.mode = .simulated → sent = []) ∧
    ∀ provider, h.mode = .live provider →
      SendsInContext h provider before.world (before.store.rowOf id).systemPrompt history message
        (readNames (before.store.rowOf id).enabledTools) outcome sent

section

variable {h : Handler σ} {log : σ → List Request} {id message : String} {history : List Message}
  {a : Agents σ}

/-- What a turn sends, streamed or not, is what its handler sends. -/
theorem ranInContext_of_outside (hl : h.Logs log) (hu : a.store.database.Unused a.nextStamp.id)
    (hms : a.store.database.messagesOf id = .ok history) {streamed : Bool} {after : Agents σ}
    (hafter : ∀ state, (openTurn id message a).1 = .ok state → after.world.outside =
      ((h.run (turnInput message streamed state)).run (openTurn id message a).2.world).2.outside) :
    RanInContext h log id message streamed history a after := by
  obtain ⟨state, hstate, hmessages, hprompt, henabled⟩ := openTurn_state hu hms message
  obtain ⟨sent, hlog, hnone, hsent⟩ :=
    run_sends_in_context hl (turnInput message streamed state) (openTurn id message a).2.world
  have hhistory : (turnInput message streamed state).history = history := by
    unfold turnInput
    rw [hmessages, List.dropLast_concat]
  refine ⟨⟨state, hstate, hmessages⟩, _, sent, turnOutcome_of_ok hstate streamed, ?_, hnone,
    fun provider hmode => ?_⟩
  · rw [hafter state hstate, hlog]
    rfl
  · have houtside : (openTurn id message a).2.world.outside = a.world.outside := rfl
    have hcontext := (hsent provider hmode).of_outside houtside
    rw [hhistory] at hcontext
    rw [← hprompt, ← henabled]
    exact hcontext

theorem runPrepared_in_context (hl : h.Logs log) (hu : a.store.database.Unused a.nextStamp.id)
    (hms : a.store.database.messagesOf id = .ok history) :
    RanInContext h log id message false history a (runPrepared h id message a).2 :=
  ranInContext_of_outside hl hu hms fun _ hstate => outside_runPrepared hstate

theorem streamPrepared_in_context (hl : h.Logs log) (hu : a.store.database.Unused a.nextStamp.id)
    (hms : a.store.database.messagesOf id = .ok history) :
    RanInContext h log id message true history a (streamPrepared h id message a).2 :=
  ranInContext_of_outside hl hu hms fun _ hstate =>
    (outside_streamPrepared h id message a).trans (outside_streamTurn hstate)

end

/-- **The requests of a turn hold its context**, be it buffered or streamed. When the turn takes the
lock, let the stored messages of its session be the given history and the id of its own message
unused. -/
theorem turn_requests (h : Handler σ) (log : σ → List Request) (hl : h.Logs log) (a : Agents σ)
    (id message : String) (model : Option String) (hm : Text.isBlankText message = false)
    (history : List Message) :
    (let before := a.atLock (await h id) id message model
      let after := (runBuffered h id message model a).2
      before.store.database.messagesOf id = .ok history →
        before.store.database.Unused before.nextStamp.id →
        RanInContext h log id (Text.trim message) false history before after) ∧
    (let before := a.atLock (takeUp h) id message model
      let after := (runStreaming h id message model a).2
      before.store.database.messagesOf id = .ok history →
        before.store.database.Unused before.nextStamp.id →
        RanInContext h log id (Text.trim message) true history before after) := by
  have hmessages := Store.messages_prepareTurn a.store id message model
  have hrefused (f : Failure) := @Store.not_reads_of_prepareTurn_error a.store id message model f hm
  have hprepared (m : String) := @Store.prepareTurn_ok a.store id message m model
  unfold atLock runBuffered runStreaming
  rw [bind_run, bind_run, prepare_run]
  generalize a.store.prepareTurn id message model = result at hmessages hrefused hprepared ⊢
  obtain ⟨f | prepared, store⟩ := result
  · -- a turn is refused only if the history cannot be read
    have hnot : store.database.messagesOf id ≠ .ok history := fun hms =>
      hrefused f rfl ((Store.reads_congr hmessages).mp (Store.reads_iff.mpr ⟨history, hms⟩))
    exact ⟨fun hms => absurd hms hnot, fun hms => absurd hms hnot⟩
  · obtain rfl := hprepared prepared rfl
    exact ⟨fun hms hu => runPrepared_in_context hl hu hms, fun hms hu =>
      streamPrepared_in_context hl hu hms⟩

/-! ### A history that is longer than the windows -/

/-- Eleven messages of the user. -/
def longHistory : List Message :=
  (List.range 11).map fun k => ⟨String.ofList (List.replicate k 'i'), .user, "q", 0, none⟩

/-- Agents over a session with this history and one enabled tool; the endpoint asks for one call. -/
def longTalk : Agents Script :=
  start ⟨{ sessions := [⟨"s", "m", "p", namesText [weatherTool], false, ""⟩]
           messages := longHistory.map (.ofMessage 1 "s")
           nextNumber := 2 }, ⟨"m", "p", []⟩⟩ ⟨oneCall "", ⟨0, 0⟩⟩ 0

theorem messagesOf_longHistory {db : Database}
    (h : db.rowsOf "s" = longHistory.map (.ofMessage 1 "s")) :
    db.messagesOf "s" = .ok longHistory := by
  unfold Database.messagesOf
  rw [h, readMessages_eq_ok, List.forall₂_map_left_iff, List.forall₂_same]
  intro m hm
  obtain ⟨k, -, rfl⟩ := List.mem_map.mp hm
  exact message_ofMessage_plain 1 "s" _ rfl

theorem turn_requests_longTalk :
    let h := Handler.scripted 100
    let before := longTalk.atLock (await h "s") "s" " hi " none
    let after := (runBuffered h "s" " hi " none longTalk).2
    let before' := longTalk.atLock (takeUp h) "s" " hi " none
    let after' := (runStreaming h "s" " hi " none longTalk).2
    h.Logs Script.log ∧ Text.isBlankText " hi " = false ∧
      (before.store.database.messagesOf "s" = .ok longHistory ∧
        before.store.database.Unused before.nextStamp.id ∧
        RanInContext h Script.log "s" (Text.trim " hi ") false longHistory before after ∧
        (Script.log before.world.outside).length = 0 ∧
          (Script.log after.world.outside).length = 2) ∧
      (before'.store.database.messagesOf "s" = .ok longHistory ∧
        before'.store.database.Unused before'.nextStamp.id ∧
        RanInContext h Script.log "s" (Text.trim " hi ") true longHistory before' after' ∧
        (Script.log before'.world.outside).length = 0 ∧
            (Script.log after'.world.outside).length = 1) := by
  intro h before after before' after'
  have hm : Text.isBlankText " hi " = false := by decide +kernel
  have hms : before.store.database.messagesOf "s" = .ok longHistory :=
    messagesOf_longHistory (by decide +kernel)
  have hms' : before'.store.database.messagesOf "s" = .ok longHistory :=
    messagesOf_longHistory (by decide +kernel)
  have hu : before.store.database.Unused before.nextStamp.id := by decide +kernel
  have hu' : before'.store.database.Unused before'.nextStamp.id := by decide +kernel
  obtain ⟨hbuffered, hstreamed⟩ :=
    turn_requests h Script.log (Handler.logs_scripted 100) longTalk "s" " hi " none hm longHistory
  exact ⟨Handler.logs_scripted 100, hm,
    ⟨hms, hu, hbuffered hms hu, by decide +kernel, by decide +kernel⟩,
    hms', hu', hstreamed hms' hu', by decide +kernel, by decide +kernel⟩

end Agents

end ChatRelay.Session
