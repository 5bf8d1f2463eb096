import ChatRelay.Proofs.Session.FailureCauses
import ChatRelay.Proofs.Session.SessionRows

/-! # Input that is refused

Two things are refused as input: a turn with a blank message, and a model that is blank. Both are
looked at before anything is changed, also when the blank message comes with a model. No other
operation refuses its input: what goes wrong there lies with the database or with a completion. So a
preparation accepts its input or leaves the store as it is (`prepareTurn_accepts_or`), and a turn
accepts it or changes nothing (`runBuffered_accepts_or`, `runStreaming_accepts_or`). -/

namespace ChatRelay.Session

open Tools Turn

/-- The input was not refused; something else may have gone wrong. -/
def Accepts {α : Type} (r : Except Failure α) : Prop := ∀ reason, r ≠ .error (.invalidInput reason)

section accepts

variable {α β : Type}

theorem accepts_ok (a : α) : Accepts (.ok a : Except Failure α) := fun _ h => by cases h

theorem FailsInside.accepts {r : Except Failure α} (h : FailsInside r) : Accepts r := fun _ hr =>
  nomatch h _ hr

/-- What an error says does not depend on what was wanted. -/
theorem Accepts.error {f : Failure} (h : Accepts (.error f : Except Failure α)) :
    Accepts (.error f : Except Failure β) := by
  intro reason hf
  cases hf
  exact h reason rfl

end accepts

namespace Store

variable (s : Store) (id : String)

/-! ### The store -/

/-- **A blank message is refused before anything is changed**, whatever model comes with it. -/
theorem prepareTurn_accepts_or (message : String) (model : Option String) :
    Accepts (s.prepareTurn id message model).1 ∨ (s.prepareTurn id message model).2 = s := by
  cases hblank : Text.isBlankText message with
  | true =>
    rw [s.prepareTurn_of_blank id hblank]
    exact .inr rfl
  | false => exact .inl (s.failsInside_prepareTurn id hblank model).accepts

/-! ### Snapshots -/

/-- The snapshot of a session is its row and its history, whether it exists or not. -/
theorem snapshot_fst : (s.snapshot id).1 = (s.database.messagesOf id).map fun ms =>
    ⟨id, ms, (s.rowOf id).isProcessing, (s.rowOf id).streamingMessage, (s.rowOf id).model,
      (s.rowOf id).systemPrompt, readNames (s.rowOf id).enabledTools⟩ := by
  rw [snapshot_eq, stateOf_of_row (row?_ensured_self s id)]
  unfold Database.messagesOf
  rw [rowsOf_ensured]

/-- **A session that is created changes no snapshot**, its own included. -/
theorem snapshot_snapshot (id' : String) :
    ((s.snapshot id).2.snapshot id').1 = (s.snapshot id').1 := by
  have hmessages : (s.snapshot id).2.database.messagesOf id' = s.database.messagesOf id' := by
    unfold Database.messagesOf
    rw [Database.rowsOf_congr (s.snapshot_messages_eq id)]
  rw [snapshot_fst, snapshot_fst, hmessages, rowOf_snapshot]

end Store

/-! ### Turns -/

namespace Agents

variable {σ : Type} (h : Handler σ) (id message : String) (a : Agents σ)

/-- A turn that is prepared fails for other reasons only. -/
theorem accepts_runPrepared : Accepts (runPrepared h id message a).1 := by
  intro reason hrun
  rcases runPrepared_fails hrun with hinside | ⟨g, hcompletion, -⟩
  · cases hinside
  · cases hcompletion

/-- **A turn is refused before anything is changed**: what goes on with a message is accepted, and
what does not go on has changed nothing. -/
theorem prepare_accepts_or {β : Type} {model : Option String}
    {rest : Except Failure String → AgentAct σ (Except Failure β)}
    (hrefused : ∀ f b, rest (.error f) b = (.error f, b))
    (haccepted : ∀ message b, Accepts (rest (.ok message) b).1) :
    Accepts ((prepare id message model >>= rest) a).1 ∨
    ((prepare id message model >>= rest) a).2 = a := by
  have hprepared := a.store.prepareTurn_accepts_or id message model
  rw [bind_run, prepare_run]
  generalize a.store.prepareTurn id message model = prepared at hprepared
  obtain ⟨f | message, store⟩ := prepared
  · simp only [hrefused]
    refine hprepared.imp (fun hf => hf.error) fun hstore => ?_
    obtain rfl : store = a.store := hstore
    rfl
  · exact .inl (haccepted message _)

theorem runBuffered_accepts_or (model : Option String) :
    Accepts (runBuffered h id message model a).1 ∨ (runBuffered h id message model a).2 = a :=
  prepare_accepts_or id message a (fun _ _ => rfl) fun _ _ => accepts_runPrepared h id _ _

theorem runStreaming_accepts_or (model : Option String) :
    Accepts (runStreaming h id message model a).1 ∨ (runStreaming h id message model a).2 = a :=
  prepare_accepts_or id message a (fun _ _ => rfl) fun _ _ => accepts_ok _

/-! ### Agents -/

/-- Sessions may have been created, and agents built or dropped; all else is as before. -/
structure Untouched (a b : Agents σ) : Prop where
  store : b.store = a.store ∨ ∃ id, b.store = (a.store.snapshot id).2
  world : b.world = a.world
  started : b.started = a.started
  clock : b.clock = a.clock

theorem Untouched.refl : Untouched a a := ⟨.inl rfl, rfl, rfl, rfl⟩

theorem Untouched.snapshot {a b : Agents σ} (hb : Untouched a b) (id : String) :
    (b.store.snapshot id).1 = (a.store.snapshot id).1 := by
  obtain hstore | ⟨id', hstore⟩ := hb.store
  · rw [hstore]
  · rw [hstore, a.store.snapshot_snapshot]

/-- The agents after the idle ones were dropped, if the cache was full. -/
def makeRoom : Agents σ :=
  if a.capacity ≤ a.cached.length then
    { a with cached := a.cached.filter fun b => a.isBusy b.sessionId }
  else a

theorem makeRoom_untouched : Untouched a a.makeRoom := by
  unfold makeRoom
  split <;> exact ⟨.inl rfl, rfl, rfl, rfl⟩

theorem makeRoom_store : a.makeRoom.store = a.store := by
  unfold makeRoom
  split <;> rfl

theorem get_run : get id a =
    match a.cached? id with
    | some agent => (.ok agent, a)
    | none =>
      match onStore (·.snapshot id) a.makeRoom with
      | (.error f, b) => (.error f, b)
      | (.ok state, b) => (.ok ⟨id, state.model⟩,
          { b with cached := ⟨id, state.model⟩ :: b.cached }) := by
  have hstate : (MonadState.get : AgentAct σ (Agents σ)) a = (a, a) := rfl
  have hroom : (modify fun a => if a.capacity ≤ a.cached.length then
      { a with cached := a.cached.filter fun b => a.isBusy b.sessionId } else a :
        AgentAct σ PUnit) a =
      ((), a.makeRoom) := rfl
  unfold get
  rw [bind_run, hstate]
  cases a.cached? id with
  | some agent => rfl
  | none =>
    simp only
    rw [bind_run, bind_run, hroom]
    generalize onStore (fun s : Store => s.snapshot id) a.makeRoom = looked
    obtain ⟨f | state, b⟩ := looked <;> rfl

theorem failsInside_get : FailsInside (get id a).1 := by
  have hsnapshot := a.store.failsInside_snapshot id
  rw [get_run]
  cases a.cached? id with
  | some agent => exact failsInside_ok agent
  | none =>
    simp only [onStore_run, makeRoom_store]
    cases hstate : (a.store.snapshot id).1 with
    | error f =>
      rw [hstate] at hsnapshot
      exact hsnapshot.error
    | ok state => exact failsInside_ok _

/-- Building an agent creates its session at most. -/
theorem get_untouched : Untouched a (get id a).2 := by
  have hroom := a.makeRoom_untouched
  rw [get_run]
  cases a.cached? id with
  | some agent => exact .refl a
  | none =>
    simp only [onStore_run, makeRoom_store]
    cases (a.store.snapshot id).1
      <;> exact ⟨.inr ⟨id, rfl⟩, hroom.world, hroom.started, hroom.clock⟩

end Agents

end ChatRelay.Session
