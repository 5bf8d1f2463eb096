import ChatRelay.Proofs.Session.Operations

/-! # The row of a session

Every operation creates its session first, so a session has a row at all times: its own, or the one
it gets when it is created (`Store.rowOf`). An operation writes the row of its session and no other
(`rowOf_altered`), and what it writes is the same whether the state can be read afterwards or
not. -/

namespace ChatRelay.Session

open Tools

namespace Store

/-- The row that a session has, or gets when it is created. -/
def rowOf (s : Store) (id : String) : SessionRow :=
  (s.database.row? id).getD
    ⟨id, s.defaults.model, s.defaults.systemPrompt, namesText s.defaults.enabledTools, false, ""⟩

theorem rowOf_congr {s t : Store} {id : String} (hd : t.defaults = s.defaults)
    (hrow : t.database.row? id = s.database.row? id) : t.rowOf id = s.rowOf id := by
  unfold rowOf
  rw [hd, hrow]

theorem row?_ensured_self (s : Store)
    (id : String) : (s.ensured id).database.row? id = some (s.rowOf id) :=
  Database.row?_ensure _ _ _

@[simp] theorem rowOf_ensured (s : Store) (id id' : String) :
    (s.ensured id).rowOf id' = s.rowOf id' := by
  by_cases h : id' = id
  · subst h
    unfold rowOf
    rw [row?_ensured_self]
    rfl
  · exact rowOf_congr rfl (Database.row?_ensure_ne _ _ h)

/-- **An operation writes the row of its session.** -/
theorem rowOf_altered (s : Store) (id : String) (f : SessionRow → SessionRow) {t : Store}
    (hf : ∀ r, (f r).id = r.id) (hd : t.defaults = s.defaults)
    (hrow : ∀ id', t.database.row? id' = ((s.ensured id).database.alter id f).row? id')
    (id' : String) : t.rowOf id' = if id' = id then f (s.rowOf id') else s.rowOf id' := by
  have hrow := hrow id'
  rw [Database.row?_alter _ _ _ _ hf] at hrow
  by_cases h : id' = id
  · subst h
    rw [row?_ensured_self] at hrow
    rw [if_pos rfl]
    unfold rowOf at hrow ⊢
    rw [hrow]
    simp
  · have hsame : t.database.row? id' = (s.ensured id).database.row? id' := by
      rw [hrow]
      simp [h]
    rw [if_neg h, rowOf_congr (s := s.ensured id) hd hsame, rowOf_ensured]

theorem insert_ensured_refused {s : Store} {m : Message} (id : String)
    (hu : ¬ s.database.Unused m.id) : ∃ f, (s.ensured id).database.insert id m = .error f := by
  have hensured : ¬ (s.ensured id).database.Unused m.id := fun h => hu (h.mono (by simp))
  exact Database.insert_error (.inl hensured)

section Operations

variable (s : Store) (stamp : Stamp) (id id' text : String)

@[simp] theorem rowOf_snapshot : (s.snapshot id).2.rowOf id' = s.rowOf id' := by
  rw [snapshot_eq, rowOf_ensured]

@[simp] theorem rowOf_clear : (s.clear id).2.rowOf id' = s.rowOf id' :=
  (rowOf_congr (s := s.ensured id) rfl rfl).trans (rowOf_ensured s id id')

theorem rowOf_setSystemPrompt : (s.setSystemPrompt id text).2.rowOf id' =
    if id' = id then { s.rowOf id' with systemPrompt := text } else s.rowOf id' :=
  rowOf_altered s id (fun r => { r with systemPrompt := text }) (by intro; rfl) (by rfl)
    (by intro; rfl) id'

theorem rowOf_setEnabledTools (tools : List String) : (s.setEnabledTools id tools).2.rowOf id' =
    if id' = id then { s.rowOf id' with enabledTools := namesText (normalNames tools) }
    else s.rowOf id' :=
  rowOf_altered s id (fun r => { r with enabledTools := namesText (normalNames tools) })
    (by intro; rfl) (by rfl)
    (by intro; rfl) id'

theorem rowOf_setModel : (s.setModel id text).2.rowOf id' =
    if id' = id ∧ (Text.trim text).isEmpty = false then { s.rowOf id' with model := Text.trim text }
    else s.rowOf id' := by
  rw [setModel_eq]
  by_cases hempty : (Text.trim text).isEmpty
  · rw [if_pos hempty, hempty]
    simp
  · have hset : ((s.mutate id fun db => .ok (db.setModel id (Text.trim text))).2).rowOf id' =
        if id' = id then { s.rowOf id' with model := Text.trim text } else s.rowOf id' :=
      rowOf_altered s id (fun r => { r with model := Text.trim text }) (by intro; rfl) (by rfl)
        (by intro; rfl) id'
    rw [if_neg hempty, hset]
    simp [hempty]

theorem rowOf_beginStreaming : (s.beginStreaming id).2.rowOf id' =
    if id' = id then { s.rowOf id' with streamingMessage := "" } else s.rowOf id' :=
  rowOf_altered s id (fun r => { r with streamingMessage := "" }) (by intro; rfl) (by rfl)
    (by intro; rfl) id'

theorem rowOf_appendStreamChunk : (s.appendStreamChunk id text).2.rowOf id' =
    if id' = id then { s.rowOf id' with streamingMessage := (s.rowOf id').streamingMessage ++ text }
    else s.rowOf id' := by
  have hrow := row?_ensured_self s id
  have hstore : (s.appendStreamChunk id text).2 =
      ⟨(s.ensured id).database.setStreaming id ((s.rowOf id).streamingMessage ++ text),
          s.defaults⟩ := by
    unfold ensured at hrow ⊢
    unfold appendStreamChunk change Database.appendStreaming
    simp only [hrow]
  rw [hstore, rowOf_altered s id (fun r =>
    { r with streamingMessage := (s.rowOf id).streamingMessage ++ text })
    (by intro; rfl) (by rfl) (by intro; rfl) id']
  by_cases h : id' = id <;> simp [h]

theorem rowOf_opened : (s.opened stamp id text).rowOf id' =
    if id' = id then { s.rowOf id' with isProcessing := true } else s.rowOf id' :=
  rowOf_altered s id (fun r => { r with isProcessing := true }) (by intro; rfl) (by rfl)
    (by intro; rfl) id'

theorem rowOf_closed (calls : Option (List ToolCallRecord)) :
    (s.closed stamp id text calls).rowOf id' =
    if id' = id then { s.rowOf id' with isProcessing := false, streamingMessage := "" }
    else s.rowOf id' :=
  rowOf_altered s id (fun r => { r with isProcessing := false, streamingMessage := "" })
    (by intro; rfl)
    (by rfl) (by intro; rfl) id'

/-- A message is added or refused; the session exists afterwards in any case. -/
theorem appendUserMessage_cases : (s.appendUserMessage stamp id text).2 = s.opened stamp id text ∨
    (s.appendUserMessage stamp id text).2 = s.ensured id := by
  by_cases hu : s.database.Unused stamp.id
  · exact .inl (by rw [appendUserMessage_eq hu])
  · obtain ⟨f, hf⟩ := insert_ensured_refused (m := userMessage stamp text) id hu
    unfold userMessage at hf
    refine .inr ?_
    simp only [appendUserMessage, mutate_eq, Database.beginTurn, hf, Except.map]

theorem completeTurn_cases (calls : Option (List ToolCallRecord)) :
    (s.completeTurn stamp id text calls).2 = s.closed stamp id text calls ∨
      (s.completeTurn stamp id text calls).2 = s.ensured id := by
  by_cases hu : s.database.Unused stamp.id
  · exact .inl (by rw [completeTurn_eq hu])
  · obtain ⟨f, hf⟩ := insert_ensured_refused (m := replyMessage stamp text calls) id hu
    unfold replyMessage at hf
    refine .inr ?_
    simp only [completeTurn, mutate_eq, Database.finishTurn, hf, Except.map]

end Operations

/-- The state of a session is its row and its history. -/
theorem stateOf_eq {s : Store} {id : String} {state : SessionState} (h : s.stateOf id = .ok state) :
    ∃ ms, state = ⟨id, ms, (s.rowOf id).isProcessing, (s.rowOf id).streamingMessage,
      (s.rowOf id).model, (s.rowOf id).systemPrompt, readNames (s.rowOf id).enabledTools⟩ := by
  cases hr : s.database.row? id with
  | none =>
    unfold stateOf Database.load at h
    rw [hr] at h
    cases h
  | some r =>
    have hrow : s.rowOf id = r := by
      unfold rowOf
      rw [hr]
      rfl
    rw [stateOf_of_row hr] at h
    cases hm : s.database.messagesOf id with
    | error f =>
      rw [hm] at h
      cases h
    | ok ms =>
      rw [hm] at h
      cases h
      rw [hrow]
      exact ⟨ms, rfl⟩

end Store

end ChatRelay.Session
