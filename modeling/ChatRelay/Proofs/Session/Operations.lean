import ChatRelay.Proofs.Session.Tables
import ChatRelay.Proofs.Text.Trimming

/-! # What operations do to a store

Every operation creates its session first. Opening and closing a turn add one row to the history of
the session and set its flag; with an unused id they cannot fail before that, and their answer is
the state as it can then be read (`appendUserMessage_eq`, `completeTurn_eq`, `failTurn_eq`). All
other operations but the clearing of a history leave the messages of every session alone. -/

namespace ChatRelay.Session

open Tools

namespace Store

/-! ### Reading -/

/-- The snapshot of a session can be rebuilt. -/
def Reads (s : Store) (id : String) : Prop := ∃ state, (s.snapshot id).1 = .ok state

instance (s : Store) (id : String) : Decidable (s.Reads id) :=
  decidable_of_iff ((s.snapshot id).1.toOption.isSome = true) (by
    unfold Reads
    cases (s.snapshot id).1 <;> simp [Except.toOption])

/-- The state of a session that exists is its row and its history. -/
theorem stateOf_of_row {s : Store} {id : String} {r : SessionRow}
    (hr : s.database.row? id = some r) : s.stateOf id = (s.database.messagesOf id).map fun ms =>
      ⟨id, ms, r.isProcessing, r.streamingMessage, r.model, r.systemPrompt,
        readNames r.enabledTools⟩ := by
  unfold stateOf
  cases hm : s.database.messagesOf id with
  | error f => simp [Database.load, hr, hm, Except.map]
  | ok ms => simp [Database.load_of_row hr hm, Except.map]

theorem stateOf_eq_ok {s : Store} {id : String} {r : SessionRow} {state : SessionState}
    (hr : s.database.row? id = some r) (h : s.stateOf id = .ok state) :
    s.database.messagesOf id = .ok state.messages := by
  rw [stateOf_of_row hr] at h
  cases hm : s.database.messagesOf id with
  | error f => simp [hm, Except.map] at h
  | ok ms =>
    simp only [hm, Except.map, Except.ok.injEq] at h
    rw [← h]

/-- The state can be read if the history can. -/
theorem stateOf_ok_iff {s : Store} {id : String} {r : SessionRow}
    (hr : s.database.row? id = some r) :
    (∃ state, s.stateOf id = .ok state) ↔ s.database.Readable id := by
  rw [stateOf_of_row hr]
  unfold Database.Readable
  cases s.database.messagesOf id <;> simp [Except.map]

/-- The database in which a session exists. -/
def ensured (s : Store) (id : String) : Store :=
  { s with database := s.database.ensure id s.defaults }

theorem mutate_eq (s : Store) (id : String) (op : Database → Except Failure Database) :
    s.mutate id op =
      match op (s.ensured id).database with
      | .error f => (.error f, s.ensured id)
      | .ok db => (({ s with database := db } : Store).stateOf id, { s with database := db }) := by
  unfold mutate change ensured
  cases h : op (s.database.ensure id s.defaults) <;> simp [h, Except.map]

theorem row?_ensured (s : Store) (id : String) : ∃ r, (s.ensured id).database.row? id = some r :=
  ⟨_, Database.row?_ensure _ _ _⟩

@[simp] theorem rowsOf_ensured (s : Store) (id id' : String) :
    (s.ensured id).database.rowsOf id' = s.database.rowsOf id' := Database.rowsOf_ensure _ _ _ _

@[simp] theorem messages_ensured (s : Store) (id : String) :
    (s.ensured id).database.messages = s.database.messages := Database.messages_ensure _ _ _

theorem snapshot_eq (s : Store) (id : String) :
    s.snapshot id = ((s.ensured id).stateOf id, s.ensured id) := mutate_eq s id .ok

theorem reads_iff {s : Store} {id : String} : s.Reads id ↔ s.database.Readable id := by
  obtain ⟨r, hr⟩ := row?_ensured s id
  unfold Reads
  rw [snapshot_eq, stateOf_ok_iff hr]
  exact Database.readable_congr (rowsOf_ensured s id id)

/-- The messages of the snapshot are the history. -/
theorem messages_snapshot {s : Store} {id : String} {state : SessionState}
    (h : (s.snapshot id).1 = .ok state) : s.database.messagesOf id = .ok state.messages := by
  obtain ⟨r, hr⟩ := row?_ensured s id
  rw [snapshot_eq] at h
  have := stateOf_eq_ok hr h
  unfold Database.messagesOf at this ⊢
  rwa [rowsOf_ensured] at this

/-! ### Turns -/

/-- The user's message of a turn. -/
def userMessage (stamp : Stamp) (text : String) : Message :=
  ⟨stamp.id, .user, text, stamp.time, none⟩

/-- The message that closes a turn. -/
def replyMessage (stamp : Stamp) (text : String) (calls : Option (List ToolCallRecord)) : Message :=
  ⟨stamp.id, .assistant, text, stamp.time, Message.recordsOf calls⟩

/-- The store in which a turn was opened. -/
def opened (s : Store) (stamp : Stamp) (id text : String) : Store where
  database := ((s.ensured id).database.withMessage id (userMessage stamp text)).alter id fun r =>
    { r with isProcessing := true }
  defaults := s.defaults

/-- The store in which a turn was closed. -/
def closed (s : Store) (stamp : Stamp) (id text : String) (calls : Option (List ToolCallRecord)) :
    Store where
  database := ((s.ensured id).database.withMessage id (replyMessage stamp text calls)).alter id
    fun r => { r with isProcessing := false, streamingMessage := "" }
  defaults := s.defaults

theorem insert_ensured {s : Store} {m : Message} (id : String) (hu : s.database.Unused m.id) :
    (s.ensured id).database.insert id m = .ok ((s.ensured id).database.withMessage id m) := by
  obtain ⟨r, hr⟩ := row?_ensured s id
  exact Database.insert_of_unused (hu.mono (by simp)) hr

/-- **Opening a turn.** The user's message stays even if the state cannot be read afterwards. -/
theorem appendUserMessage_eq {s : Store} {stamp : Stamp} (hu : s.database.Unused stamp.id)
    (id text : String) : s.appendUserMessage stamp id text =
      ((s.opened stamp id text).stateOf id, s.opened stamp id text) := by
  have hi := insert_ensured (m := userMessage stamp text) id hu
  unfold userMessage at hi
  simp only [appendUserMessage, mutate_eq, Database.beginTurn, hi, Except.map]
  rfl

/-- **Closing a turn.** The reply stays even if the state cannot be read afterwards. -/
theorem completeTurn_eq {s : Store} {stamp : Stamp} (hu : s.database.Unused stamp.id)
    (id text : String) (calls : Option (List ToolCallRecord)) : s.completeTurn stamp id text calls =
      ((s.closed stamp id text calls).stateOf id, s.closed stamp id text calls) := by
  have hi := insert_ensured (m := replyMessage stamp text calls) id hu
  unfold replyMessage at hi
  simp only [completeTurn, mutate_eq, Database.finishTurn, hi, Except.map]
  rfl

/-- A failure closes a turn like a reply without calls. -/
theorem failTurn_eq {s : Store} {stamp : Stamp} (hu : s.database.Unused stamp.id)
    (id text : String) : s.failTurn stamp id text =
      ((s.closed stamp id text none).stateOf id, s.closed stamp id text none) :=
  completeTurn_eq hu id text none

theorem row?_opened (s : Store) (stamp : Stamp) (id text : String) :
    ∃ r, (s.opened stamp id text).database.row? id = some r ∧ r.isProcessing = true := by
  obtain ⟨r, hr⟩ := row?_ensured s id
  refine ⟨{ r with isProcessing := true }, ?_, rfl⟩
  unfold opened
  rw [Database.row?_alter_self]
  · simp [hr]
  · intro r; rfl

theorem row?_closed (s : Store) (stamp : Stamp) (id text : String)
    (calls : Option (List ToolCallRecord)) :
    ∃ r, (s.closed stamp id text calls).database.row? id = some r ∧ r.isProcessing = false ∧
      r.streamingMessage = "" := by
  obtain ⟨r, hr⟩ := row?_ensured s id
  refine ⟨{ r with isProcessing := false, streamingMessage := "" }, ?_, rfl, rfl⟩
  unfold closed
  rw [Database.row?_alter_self]
  · simp [hr]
  · intro r; rfl

theorem messages_opened (s : Store) (stamp : Stamp) (id text : String) :
    (s.opened stamp id text).database.messages = s.database.messages ++
      [.ofMessage (s.ensured id).database.nextNumber id (userMessage stamp text)] := by
  simp [opened]

theorem messages_closed (s : Store) (stamp : Stamp) (id text : String)
    (calls : Option (List ToolCallRecord)) :
    (s.closed stamp id text calls).database.messages = s.database.messages ++
      [.ofMessage (s.ensured id).database.nextNumber id (replyMessage stamp text calls)] := by
  simp [closed]

/-- Opening a turn answers with a state if the history with the user's message can be read. -/
theorem appendUserMessage_ok_iff {s : Store} {stamp : Stamp} (hu : s.database.Unused stamp.id)
    (id text : String) : (∃ state, (s.appendUserMessage stamp id text).1 = .ok state) ↔
      (s.appendUserMessage stamp id text).2.Reads id := by
  obtain ⟨r, hr, -⟩ := row?_opened s stamp id text
  rw [appendUserMessage_eq hu, reads_iff]
  exact stateOf_ok_iff hr

/-- Closing a turn answers with a state if the history with the reply can be read. -/
theorem completeTurn_ok_iff {s : Store} {stamp : Stamp} (hu : s.database.Unused stamp.id)
    (id text : String) (calls : Option (List ToolCallRecord)) :
    (∃ state, (s.completeTurn stamp id text calls).1 = .ok state) ↔
      (s.completeTurn stamp id text calls).2.Reads id := by
  obtain ⟨r, hr, -⟩ := row?_closed s stamp id text calls
  rw [completeTurn_eq hu, reads_iff]
  exact stateOf_ok_iff hr

theorem rowsOf_opened (s : Store) (stamp : Stamp) (id id' text : String) :
    (s.opened stamp id text).database.rowsOf id' = s.database.rowsOf id' ++
      if id = id' then
        [.ofMessage (s.ensured id).database.nextNumber id (userMessage stamp text)]
      else [] := by
  unfold opened
  rw [Database.rowsOf_alter, Database.rowsOf_withMessage, rowsOf_ensured]

theorem rowsOf_closed (s : Store) (stamp : Stamp) (id id' text : String)
    (calls : Option (List ToolCallRecord)) :
    (s.closed stamp id text calls).database.rowsOf id' = s.database.rowsOf id' ++
      if id = id' then
        [.ofMessage (s.ensured id).database.nextNumber id (replyMessage stamp text calls)]
      else [] := by
  unfold closed
  rw [Database.rowsOf_alter, Database.rowsOf_withMessage, rowsOf_ensured]

/-! ### Operations that leave the messages alone -/

theorem messages_change {α : Type} {s : Store} {id : String}
    {op : Database → Except Failure (α × Database)}
    (h : ∀ db a db', op db = .ok (a, db') → db'.messages = db.messages) :
    (s.change id op).2.database.messages = s.database.messages := by
  unfold change
  cases ho : op (s.database.ensure id s.defaults) with
  | error f => simp [ho]
  | ok p => simpa [ho] using h _ _ _ ho

theorem messages_mutate {s : Store} {id : String} {op : Database → Except Failure Database}
    (h : ∀ db db', op db = .ok db' → db'.messages = db.messages) :
    (s.mutate id op).2.database.messages = s.database.messages := by
  rw [mutate_eq]
  cases ho : op (s.ensured id).database with
  | error f => simp
  | ok db => simpa using h _ _ ho

theorem setModel_eq (s : Store) (id model : String) :
    s.setModel id model =
      if (Text.trim model).isEmpty then (.error (.invalidInput "model must not be empty"), s)
      else s.mutate id fun db => .ok (db.setModel id (Text.trim model)) := rfl

/-- A turn is prepared by setting the model that comes with it, if any. -/
theorem prepareTurn_eq (s : Store) (id message : String) (model : Option String) :
    s.prepareTurn id message model =
      if (Text.trim message).isEmpty then (.error (.invalidInput "message must not be empty"), s)
      else
        match model.filter fun m => !(Text.trim m).isEmpty with
        | none => (.ok (Text.trim message), s)
        | some m =>
          ((s.setModel id (Text.trim m)).1.map fun _ => Text.trim message,
            (s.setModel id (Text.trim m)).2) := by
  unfold prepareTurn
  simp only
  by_cases hb : (Text.trim message).isEmpty
  · rw [if_pos hb, if_pos hb]
  · rw [if_neg hb, if_neg hb]
    cases model.filter fun m => !(Text.trim m).isEmpty with
    | none => rfl
    | some m =>
      simp only
      generalize s.setModel id (Text.trim m) = result
      obtain ⟨r, s'⟩ := result
      cases r <;> rfl

@[simp] theorem snapshot_messages_eq (s : Store) (id : String) :
    (s.snapshot id).2.database.messages = s.database.messages := by
  rw [snapshot_eq, messages_ensured]

@[simp] theorem messages_setSystemPrompt (s : Store) (id prompt : String) :
    (s.setSystemPrompt id prompt).2.database.messages = s.database.messages :=
  messages_mutate fun db db' h => by cases h; rfl

@[simp] theorem messages_setEnabledTools (s : Store) (id : String) (tools : List String) :
    (s.setEnabledTools id tools).2.database.messages = s.database.messages :=
  messages_mutate fun db db' h => by cases h; rfl

@[simp] theorem messages_setModel (s : Store) (id model : String) :
    (s.setModel id model).2.database.messages = s.database.messages := by
  rw [setModel_eq]
  by_cases hb : (Text.trim model).isEmpty
  · rw [if_pos hb]
  · rw [if_neg hb]
    exact messages_mutate fun db db' h => by cases h; rfl

/-- The message of a prepared turn is the trimmed message. -/
theorem prepareTurn_ok {s : Store} {id message m : String} {model : Option String}
    (h : (s.prepareTurn id message model).1 = .ok m) : m = Text.trim message := by
  rw [prepareTurn_eq] at h
  by_cases hb : (Text.trim message).isEmpty
  · rw [if_pos hb] at h
    cases h
  · rw [if_neg hb] at h
    cases hm : model.filter fun m => !(Text.trim m).isEmpty with
    | none =>
      rw [hm] at h
      injection h with h
      exact h.symm
    | some given =>
      rw [hm] at h
      simp only at h
      cases hs : (s.setModel id (Text.trim given)).1 with
      | error f => simp [hs, Except.map] at h
      | ok state =>
        simp only [hs, Except.map, Except.ok.injEq] at h
        exact h.symm

/-- A change of settings answers with a state if the history can be read. -/
theorem mutate_alter_ok_iff (s : Store) (id : String) (f : SessionRow → SessionRow)
    (hf : ∀ r, (f r).id = r.id) :
    (∃ state, (s.mutate id fun db => .ok (db.alter id f)).1 = .ok state) ↔ s.Reads id := by
  obtain ⟨r, hr⟩ := row?_ensured s id
  rw [mutate_eq, reads_iff]
  simp only
  rw [stateOf_ok_iff (r := f r) (by rw [Database.row?_alter_self _ _ _ hf, hr]; rfl)]
  exact Database.readable_congr (by simp)

/-- A turn with a message is prepared unless the history of its session cannot be read. -/
theorem not_reads_of_prepareTurn_error {s : Store} {id message : String} {model : Option String}
    {f : Failure} (hm : Text.isBlankText message = false)
    (h : (s.prepareTurn id message model).1 = .error f) : ¬ s.Reads id := by
  rw [prepareTurn_eq, Text.isEmpty_trim, hm] at h
  cases hgiven : model.filter fun m => !(Text.trim m).isEmpty with
  | none => simp [hgiven] at h
  | some given =>
    have hnonempty : (Text.trim given).isEmpty = false := by
      simpa using (Option.filter_eq_some_iff.mp hgiven).2
    rw [hgiven] at h
    simp only [Bool.false_eq_true, if_false, setModel_eq, Text.trim_trim, hnonempty] at h
    intro hreads
    obtain ⟨state, hstate⟩ := (mutate_alter_ok_iff s id
      (fun r => { r with model := Text.trim given }) fun _ => rfl).mpr hreads
    unfold Database.setModel at h
    rw [hstate] at h
    cases h

@[simp] theorem messages_prepareTurn (s : Store) (id message : String) (model : Option String) :
    (s.prepareTurn id message model).2.database.messages = s.database.messages := by
  rw [prepareTurn_eq]
  by_cases hb : (Text.trim message).isEmpty
  · rw [if_pos hb]
  · rw [if_neg hb]
    cases model.filter fun m => !(Text.trim m).isEmpty with
    | none => rfl
    | some m =>
      simp only
      exact messages_setModel s id (Text.trim m)

@[simp] theorem messages_beginStreaming (s : Store) (id : String) :
    (s.beginStreaming id).2.database.messages = s.database.messages :=
  messages_change fun db a db' h => by cases h; rfl

@[simp] theorem messages_appendStreamChunk (s : Store) (id chunk : String) :
    (s.appendStreamChunk id chunk).2.database.messages = s.database.messages :=
  messages_change fun db a db' h => by
    unfold Database.appendStreaming at h
    split at h
    · cases h
    · cases h; rfl

/-- Clearing a session leaves the histories of the others alone. -/
theorem rowsOf_clear {s : Store} {id id' : String} (h : id' ≠ id) :
    (s.clear id').2.database.rowsOf id = s.database.rowsOf id := by
  unfold clear
  simp only [mutate_eq]
  rw [Database.rowsOf_deleteMessages, if_neg (Ne.symm h), rowsOf_ensured]

/-- Starting the text of a turn never fails. -/
theorem beginStreaming_ok (s : Store) (id : String) : (s.beginStreaming id).1 = .ok () := rfl

end Store

end ChatRelay.Session
