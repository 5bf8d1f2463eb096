import ChatRelay.Session.Store
import Mathlib.Data.List.Forall2

/-! # What operations do to the tables

Two views of the database are enough for what is said about sessions: the row of a session, `row?`,
and the rows of its messages, `rowsOf`. Settings, flag and streamed text change the first and leave
the second alone (`row?_alter`, `rowsOf_alter`); a message with an unused id makes the second longer
by one row (`insert_of_unused`, `rowsOf_withMessage`) and leaves the first alone.

A history is readable if each of its rows is (`readMessages_eq_ok`), so what can be read of a
history stays readable when the history grows, and what cannot be read stays unreadable. -/

namespace ChatRelay.Session

open Tools

/-! ### Rows -/

theorem readMessages_eq_ok {rows : List MessageRow} {ms : List Message} :
    readMessages rows = .ok ms ↔ List.Forall₂ (fun r m => r.message = .ok m) rows ms := by
  induction rows generalizing ms with
  | nil => simp [readMessages, eq_comm]
  | cons r rows ih =>
    unfold readMessages
    cases hr : r.message with
    | error f => simp [List.forall₂_cons_left_iff, hr]
    | ok m =>
      cases hs : readMessages rows with
      | error f =>
        have hno : ∀ ms', ¬ List.Forall₂ (fun r m => r.message = .ok m) rows ms' := fun ms' h => by
          rw [ih.mpr h] at hs
          cases hs
        simp [Except.map, List.forall₂_cons_left_iff, hno]
      | ok ms' =>
        have hs' := ih.mp hs
        simp only [Except.map, Except.ok.injEq, List.forall₂_cons_left_iff]
        constructor
        · rintro rfl
          exact ⟨m, ms', hr, hs', rfl⟩
        · rintro ⟨m', ms'', hm, hms, rfl⟩
          rw [hr] at hm
          cases hm
          rw [ih.mpr hms] at hs
          cases hs
          rfl

/-- The message of a row that was written without calls. -/
theorem message_ofMessage_plain (number : Nat) (sessionId : String) (m : Message)
    (h : m.toolCalls = none) : (MessageRow.ofMessage number sessionId m).message = .ok m := by
  obtain ⟨id, speaker, content, time, calls⟩ := m
  cases h
  cases speaker <;> rfl

/-- The row of a message can be read if its calls read back. -/
theorem message_ofMessage_ok_iff (number : Nat) (sessionId : String) (m : Message) :
    (∃ m', (MessageRow.ofMessage number sessionId m).message = .ok m') ↔
      ∀ rs ∈ m.toolCalls, ∃ rs', readRecords (recordsDoc rs).text = .ok rs' := by
  have hs : Speaker.ofName? m.speaker.name = some m.speaker := by cases m.speaker <;> rfl
  unfold MessageRow.message MessageRow.ofMessage
  simp only [hs]
  cases m.toolCalls with
  | none => simp
  | some rs =>
    simp only [Option.map_some, Option.mem_def, Option.some.injEq, forall_eq']
    cases readRecords (recordsDoc rs).text <;> simp

/-- A row that can be read has the speaker, the id and the text of its message. -/
theorem message_eq_ok {r : MessageRow} {m : Message} (h : r.message = .ok m) :
    r.role = m.speaker.name ∧ r.id = m.id ∧ r.content = m.content := by
  unfold MessageRow.message at h
  cases hs : Speaker.ofName? r.role with
  | none => simp [hs] at h
  | some speaker =>
    have hname : r.role = speaker.name := by
      have : speaker.name = r.role := by simpa using List.find?_some hs
      exact this.symm
    simp only [hs] at h
    cases hc : r.toolCalls with
    | none =>
      simp only [hc, Except.ok.injEq] at h
      subst h
      exact ⟨hname, rfl, rfl⟩
    | some text =>
      simp only [hc] at h
      cases hr : readRecords text with
      | error f => simp [hr] at h
      | ok rs =>
        simp only [hr, Except.ok.injEq] at h
        subst h
        exact ⟨hname, rfl, rfl⟩

namespace Database

/-! ### Rows of sessions -/

theorem row?_id {db : Database} {id : String} {r : SessionRow} (h : db.row? id = some r) :
    r.id = id := by
  simpa using List.find?_some h

/-- Rows keep their ids when they are altered. -/
theorem row?_alter (db : Database) (id id' : String) (f : SessionRow → SessionRow)
    (hf : ∀ r, (f r).id = r.id) :
    (db.alter id f).row? id' = (db.row? id').map fun r => if id' = id then f r else r := by
  have hfun : ((fun r : SessionRow => r.id == id') ∘ fun r => if r.id = id then f r else r) =
      fun r => r.id == id' := by
    funext r
    simp only [Function.comp_apply]
    split <;> simp [hf]
  unfold row? alter
  rw [List.find?_map, hfun]
  cases h : List.find? (fun r : SessionRow => r.id == id') db.sessions with
  | none => rfl
  | some r =>
    have hr : r.id = id' := @row?_id db _ _ h
    simp [hr]

theorem row?_alter_self (db : Database) (id : String) (f : SessionRow → SessionRow)
    (hf : ∀ r, (f r).id = r.id) : (db.alter id f).row? id = (db.row? id).map f := by
  simp [row?_alter db id id f hf]

/-- A turn that was left open is closed in the row of its session. -/
theorem row?_recover (db : Database) (id : String) : db.recover.2.row? id =
    (db.row? id).map fun r => { r with isProcessing := false, streamingMessage := "" } := by
  unfold row? recover
  rw [List.find?_map]
  rfl

@[simp] theorem messages_alter (db : Database) (id : String) (f : SessionRow → SessionRow) :
    (db.alter id f).messages = db.messages := rfl

@[simp] theorem messages_ensure (db : Database) (id : String) (d : Defaults) :
    (db.ensure id d).messages = db.messages := by
  unfold ensure; split <;> rfl

/-- A session that exists is not changed, and one that does not gets the defaults. -/
theorem row?_ensure (db : Database) (id : String) (d : Defaults) :
    (db.ensure id d).row? id = some ((db.row? id).getD
      ⟨id, d.model, d.systemPrompt, namesText d.enabledTools, false, ""⟩) := by
  unfold ensure
  cases h : db.row? id with
  | some r => simp [h]
  | none =>
    unfold row? at h ⊢
    simp [List.find?_append, h]

theorem row?_ensure_ne (db : Database) (d : Defaults) {id id' : String} (h : id' ≠ id) :
    (db.ensure id d).row? id' = db.row? id' := by
  unfold ensure
  cases hr : db.row? id with
  | some r => rfl
  | none =>
    unfold row?
    have hne : ((id : String) == id') = false := by simpa using Ne.symm h
    simp [List.find?_append, hne]

/-! ### Rows of messages -/

/-- No message has the id. -/
def Unused (db : Database) (id : String) : Prop := ∀ r ∈ db.messages, r.id ≠ id

instance (db : Database) (id : String) : Decidable (db.Unused id) := by
  unfold Unused; infer_instance

/-- The database with one more message. -/
def withMessage (db : Database) (id : String) (m : Message) : Database :=
  { db with
    messages := db.messages ++ [.ofMessage db.nextNumber id m]
    nextNumber := db.nextNumber + 1 }

@[simp] theorem row?_withMessage (db : Database) (id id' : String) (m : Message) :
    (db.withMessage id m).row? id' = db.row? id' := rfl

@[simp] theorem messages_withMessage (db : Database) (id : String) (m : Message) :
    (db.withMessage id m).messages = db.messages ++ [.ofMessage db.nextNumber id m] := rfl

theorem rowsOf_congr {db db' : Database} (h : db'.messages = db.messages) (id : String) :
    db'.rowsOf id = db.rowsOf id := by
  unfold rowsOf; rw [h]

@[simp] theorem rowsOf_alter (db : Database) (id id' : String) (f : SessionRow → SessionRow) :
    (db.alter id f).rowsOf id' = db.rowsOf id' := rfl

@[simp] theorem rowsOf_ensure (db : Database) (id id' : String) (d : Defaults) :
    (db.ensure id d).rowsOf id' = db.rowsOf id' := rowsOf_congr (messages_ensure db id d) id'

theorem rowsOf_withMessage (db : Database) (id id' : String) (m : Message) :
    (db.withMessage id m).rowsOf id' =
      db.rowsOf id' ++ if id = id' then [.ofMessage db.nextNumber id m] else [] := by
  have hs : (MessageRow.ofMessage db.nextNumber id m).sessionId = id := rfl
  unfold rowsOf withMessage
  rw [List.filter_append]
  by_cases h : id = id'
  · subst h; simp [hs]
  · simp [hs, h]

/-- **A message with an unused id can be added to a session that exists.** -/
theorem insert_of_unused {db : Database} {id : String} {m : Message} {r : SessionRow}
    (hu : db.Unused m.id) (hr : db.row? id = some r) :
    db.insert id m = .ok (db.withMessage id m) := by
  have hany : (db.messages.any (·.id == m.id)) = false := by
    simpa [Unused] using hu
  unfold insert
  rw [hany, hr]
  rfl

/-- A message is not added with an id that is taken, nor to a session that does not exist. -/
theorem insert_error {db : Database} {id : String} {m : Message}
    (h : ¬ db.Unused m.id ∨ db.row? id = none) : ∃ f, db.insert id m = .error f := by
  unfold insert
  split
  · exact ⟨_, rfl⟩
  · next hany =>
    have hu : db.Unused m.id := by simpa [Unused] using hany
    rw [h.resolve_left (not_not_intro hu)]
    exact ⟨_, rfl⟩

/-- The deletion of a history leaves the histories of the others alone. -/
theorem rowsOf_deleteMessages (db : Database) (id id' : String) :
    (db.deleteMessages id).2.rowsOf id' = if id' = id then [] else db.rowsOf id' := by
  unfold deleteMessages rowsOf
  simp only [List.filter_filter]
  split
  · next h => simp [h]
  · next h =>
    congr 1
    funext r
    by_cases hr : r.sessionId = id'
    · simp [hr, h]
    · simp [hr]

/-- An id that is taken stays taken. -/
theorem Unused.mono {db db' : Database} {id : String} (h : db'.Unused id)
    (hsub : ∀ r ∈ db.messages, r ∈ db'.messages) : db.Unused id := fun r hr => h r (hsub r hr)

/-! ### Histories -/

/-- The history of a session can be read. -/
def Readable (db : Database) (id : String) : Prop := ∃ ms, db.messagesOf id = .ok ms

/-- A history is readable if all its rows are. -/
theorem readable_iff {db : Database} {id : String} :
    db.Readable id ↔ ∀ r ∈ db.rowsOf id, ∃ m, r.message = .ok m := by
  unfold Readable messagesOf
  simp only [readMessages_eq_ok]
  generalize db.rowsOf id = rows
  constructor
  · rintro ⟨ms, h⟩
    induction h with
    | nil => simp
    | cons hm _ ih => simpa using ⟨⟨_, hm⟩, ih⟩
  · intro h
    induction rows with
    | nil => exact ⟨[], .nil⟩
    | cons r rows ih =>
      obtain ⟨m, hm⟩ := h r List.mem_cons_self
      obtain ⟨ms, hms⟩ := ih fun r' hr' => h r' (List.mem_cons_of_mem _ hr')
      exact ⟨m :: ms, .cons hm hms⟩

theorem readable_congr {db db' : Database} {id : String} (h : db'.rowsOf id = db.rowsOf id) :
    db'.Readable id ↔ db.Readable id := by
  rw [readable_iff, readable_iff, h]

/-- **A history that grows is readable if what was there and what is new are.** -/
theorem readable_append {db db' : Database} {id : String} {rows : List MessageRow}
    (h : db'.rowsOf id = db.rowsOf id ++ rows) :
    db'.Readable id ↔ db.Readable id ∧ ∀ r ∈ rows, ∃ m, r.message = .ok m := by
  rw [readable_iff, readable_iff, h]
  simp [List.mem_append, or_imp, forall_and]

theorem messagesOf_congr {db db' : Database} {id : String} (h : db'.rowsOf id = db.rowsOf id) :
    db'.messagesOf id = db.messagesOf id := by
  unfold messagesOf; rw [h]

/-- A history that grows by a row and stays readable grows by the message of the row. -/
theorem messagesOf_append {db db' : Database} {id : String} {row : MessageRow} {ms : List Message}
    (h : db'.rowsOf id = db.rowsOf id ++ [row]) (hms : db.messagesOf id = .ok ms)
    (hr : db'.Readable id) : ∃ m, row.message = .ok m ∧ db'.messagesOf id = .ok (ms ++ [m]) := by
  obtain ⟨m, hm⟩ := ((readable_append h).mp hr).2 row (List.mem_singleton.mpr rfl)
  refine ⟨m, hm, ?_⟩
  unfold messagesOf at hms ⊢
  rw [readMessages_eq_ok] at hms ⊢
  rw [h]
  exact List.rel_append hms (.cons hm .nil)

/-- What a session loads as. -/
theorem load_of_row {db : Database} {id : String} {r : SessionRow} {ms : List Message}
    (hr : db.row? id = some r) (hm : db.messagesOf id = .ok ms) :
    db.load id = .ok (some ⟨id, ms, r.isProcessing, r.streamingMessage, r.model, r.systemPrompt,
      readNames r.enabledTools⟩) := by
  unfold load; rw [hr, hm]

/-- The messages that a session loads with are its history. -/
theorem messagesOf_of_load {db : Database} {id : String} {state : SessionState}
    (h : db.load id = .ok (some state)) : db.messagesOf id = .ok state.messages := by
  unfold load at h
  cases hr : db.row? id with
  | none => rw [hr] at h; cases h
  | some r =>
    rw [hr] at h
    cases hm : db.messagesOf id with
    | error f => rw [hm] at h; cases h
    | ok ms =>
      rw [hm] at h
      cases h
      rfl

end Database

end ChatRelay.Session
