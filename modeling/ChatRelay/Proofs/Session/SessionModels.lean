import ChatRelay.Proofs.Session.SessionRows
import ChatRelay.Proofs.Session.TurnPairs

/-! # The model of a session

A session's model changes in two ways only: a request that comes with a model sets it when it is
prepared, and a change of settings sets it. Everything else that happens leaves it alone
(`modelOf_moved`), so it is always the one that was set last (`modelOf_afterAll`). -/

namespace ChatRelay.Session

open Tools

/-- The model that comes with a request: trimmed, and none if that is empty. -/
def givenModel? (model : Option String) : Option String :=
  (model.map Text.trim).filter fun m => !m.isEmpty

theorem givenModel?_of_not_blank {m : String} (h : Text.isBlankText m = false) :
    givenModel? (some m) = some (Text.trim m) := by
  simp [givenModel?, Text.isEmpty_trim, h]

/-! ### Operations -/

/-- The model in the row of a session. -/
def Database.modelOf? (db : Database) (id : String) : Option String := (db.row? id).map (·.model)

namespace Store

/-- The model that a session has, or gets when it is created. -/
def modelOf (s : Store) (id : String) : String := (s.database.modelOf? id).getD s.defaults.model

theorem modelOf_eq (s : Store) (id : String) : s.modelOf id = (s.rowOf id).model := by
  unfold modelOf Database.modelOf? rowOf
  cases s.database.row? id <;> rfl

section Kept

variable (s : Store) (stamp : Stamp) (id id' text : String)

@[simp] theorem modelOf_ensured : (s.ensured id).modelOf id' = s.modelOf id' := by
  rw [modelOf_eq, rowOf_ensured, modelOf_eq]

@[simp] theorem modelOf_snapshot : (s.snapshot id).2.modelOf id' = s.modelOf id' := by
  rw [snapshot_eq, modelOf_ensured]

@[simp] theorem modelOf_appendUserMessage :
    (s.appendUserMessage stamp id text).2.modelOf id' = s.modelOf id' := by
  obtain h | h := appendUserMessage_cases s stamp id text
  · rw [h, modelOf_eq, rowOf_opened, modelOf_eq]
    split <;> rfl
  · rw [h, modelOf_ensured]

@[simp] theorem modelOf_completeTurn (calls : Option (List ToolCallRecord)) :
    (s.completeTurn stamp id text calls).2.modelOf id' = s.modelOf id' := by
  obtain h | h := completeTurn_cases s stamp id text calls
  · rw [h, modelOf_eq, rowOf_closed, modelOf_eq]
    split <;> rfl
  · rw [h, modelOf_ensured]

@[simp] theorem modelOf_failTurn : (s.failTurn stamp id text).2.modelOf id' = s.modelOf id' :=
  modelOf_completeTurn s stamp id id' text none

@[simp] theorem modelOf_beginStreaming : (s.beginStreaming id).2.modelOf id' = s.modelOf id' := by
  rw [modelOf_eq, rowOf_beginStreaming, modelOf_eq]
  split <;> rfl

@[simp] theorem modelOf_appendStreamChunk :
    (s.appendStreamChunk id text).2.modelOf id' = s.modelOf id' := by
  rw [modelOf_eq, rowOf_appendStreamChunk, modelOf_eq]
  split <;> rfl

@[simp] theorem modelOf_setSystemPrompt :
    (s.setSystemPrompt id text).2.modelOf id' = s.modelOf id' := by
  rw [modelOf_eq, rowOf_setSystemPrompt, modelOf_eq]
  split <;> rfl

@[simp] theorem modelOf_setEnabledTools (tools : List String) :
    (s.setEnabledTools id tools).2.modelOf id' = s.modelOf id' := by
  rw [modelOf_eq, rowOf_setEnabledTools, modelOf_eq]
  split <;> rfl

@[simp] theorem modelOf_clear : (s.clear id).2.modelOf id' = s.modelOf id' := by
  rw [modelOf_eq, rowOf_clear, modelOf_eq]

end Kept

/-- Setting a model sets it for its session, also if the state cannot be read afterwards. -/
theorem modelOf_setModel (s : Store) (id id' model : String) : (s.setModel id model).2.modelOf id' =
    (if id' = id then givenModel? (some model) else none).getD (s.modelOf id') := by
  rw [modelOf_eq, rowOf_setModel, modelOf_eq]
  unfold givenModel?
  by_cases h : id' = id
  · cases hempty : (Text.trim model).isEmpty <;> simp [h, hempty, Option.filter]
  · simp [h]

/-- Preparing a turn sets the model that comes with it, unless the message is blank. -/
theorem modelOf_prepareTurn (s : Store) (id id' message : String) (model : Option String) :
    (s.prepareTurn id message model).2.modelOf id' =
      (if id' = id ∧ Text.isBlankText message = false then givenModel? model else none).getD
        (s.modelOf id') := by
  rw [prepareTurn_eq, Text.isEmpty_trim]
  by_cases hblank : Text.isBlankText message
  · simp [hblank]
  · rw [if_neg hblank]
    have hfalse : Text.isBlankText message = false := by simpa using hblank
    cases model with
    | none => simp [givenModel?]
    | some m =>
      by_cases hm : (Text.trim m).isEmpty
      · simp [givenModel?, Option.filter, hm]
      · have hgiven : givenModel? (some (Text.trim m)) =
          givenModel? (some m) := by simp [givenModel?]
        simp only [Option.filter, hm, hfalse]
        simp only [Bool.not_false, and_true, if_true]
        rw [modelOf_setModel, hgiven]

theorem not_blank_of_prepareTurn_ok {s : Store} {id message m : String} {model : Option String}
    (h : (s.prepareTurn id message model).1 = .ok m) : Text.isBlankText message = false := by
  rw [prepareTurn_eq, Text.isEmpty_trim] at h
  cases hblank : Text.isBlankText message with
  | false => rfl
  | true =>
    rw [if_pos hblank] at h
    cases h

/-! ### Answers -/

theorem model_stateOf {s : Store} {id : String} {state : SessionState}
    (h : s.stateOf id = .ok state) : state.model = s.modelOf id := by
  obtain ⟨ms, rfl⟩ := stateOf_eq h
  exact (modelOf_eq s id).symm

/-- A turn that opens has the model of its session. -/
theorem model_appendUserMessage {s : Store} {stamp : Stamp} {id text : String}
    {state : SessionState} (h : (s.appendUserMessage stamp id text).1 = .ok state) :
    state.model = s.modelOf id := by
  rw [← modelOf_appendUserMessage s stamp id id text]
  unfold appendUserMessage at h ⊢
  rw [mutate_eq] at h ⊢
  split at h
  · cases h
  · exact model_stateOf h

end Store

/-! ### Runs -/

/-- The model that a step sets for a session. -/
def Step.modelSet? (id : String) (t : Step) : Option String :=
  match t.move with
  | .prepare i =>
    (t.before.requests[i]?).bind fun r =>
      if id = r.sessionId ∧ Text.isBlankText r.message = false then givenModel? r.model else none
  | .change (.setModel id' model) => if id = id' then givenModel? (some model) else none
  | _ => none

/-- **One move.** The model of a session is the one that the move sets, or the one before it. -/
theorem modelOf_moved {s s' : Scene} {m : Move} (hm : Moved s m s') (id : String) :
    s'.store.modelOf id = ((⟨s, m, s'⟩ : Step).modelSet? id).getD (s.store.modelOf id) := by
  cases hm with
  | changes c =>
    cases c with
    | setModel => simp [Step.modelSet?, Change.applyTo, Store.modelOf_setModel]
    | read | setSystemPrompt | setEnabledTools | clear => simp [Step.modelSet?, Change.applyTo]
  | refused hr | prepared hr => simp [Step.modelSet?, hr, Store.modelOf_prepareTurn]
  | _ => simp [Step.modelSet?]

/-- The model that was set last for a session in a run, or else the given one. -/
def lastModel (id : String) (steps : List Step) (model : String) : String :=
  ((steps.filterMap (Step.modelSet? id)).getLast?).getD model

theorem lastModel_append (id : String) (steps later : List Step) (model : String) :
    lastModel id (steps ++ later) model = lastModel id later (lastModel id steps model) := by
  unfold lastModel
  rw [List.filterMap_append, List.getLast?_append]
  cases (later.filterMap (Step.modelSet? id)).getLast? <;> rfl

theorem lastModel_singleton (id : String) (t : Step) (model : String) :
    lastModel id [t] model = (t.modelSet? id).getD model := by
  unfold lastModel
  cases h : t.modelSet? id <;> simp [h]

end ChatRelay.Session
