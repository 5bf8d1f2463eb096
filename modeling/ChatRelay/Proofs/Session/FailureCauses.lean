import ChatRelay.Proofs.Session.TurnClosing
import ChatRelay.Proofs.Turn.Outcomes

/-! # Why operations and turns fail

An operation of the store fails inside (`FailsInside`): the fault lies with the database or with
what is stored there. Only a blank model and a blank message are faults of the input, and these are
looked at before anything else (`setModel_of_blank`, `prepareTurn_of_blank`). A buffered turn has
one more reason to fail, its first completion (`firstFailure?`). That is then what the turn fails
with, unless the id of the reply that is to show it is taken (`runPrepared_of_firstFailure`); and a
turn fails with a completion for no other reason (`runPrepared_fails`). -/

namespace ChatRelay.Session

open Tools Turn

/-- The fault lies with the database or with what it holds. -/
inductive Failure.IsInternal : Failure → Prop
  | database (f : DatabaseFault) : IsInternal (.database f)
  | serialization (reason : String) : IsInternal (.serialization reason)

/-- If this is a failure, it is an internal one. -/
def FailsInside {α : Type} (r : Except Failure α) : Prop := ∀ f, r = .error f → f.IsInternal

section failsInside

variable {α β : Type}

theorem failsInside_ok (a : α) : FailsInside (.ok a : Except Failure α) := fun _ h => by cases h

theorem failsInside_database (f : DatabaseFault) :
    FailsInside (.error (.database f) : Except Failure α) := by
  rintro _ ⟨⟩
  exact .database f

/-- What an error says does not depend on what was wanted. -/
theorem FailsInside.error {f : Failure} (h : FailsInside (.error f : Except Failure α)) :
    FailsInside (.error f : Except Failure β) := by
  rintro _ ⟨⟩
  exact h f rfl

theorem FailsInside.map {r : Except Failure α} (h : FailsInside r)
    (f : α → β) : FailsInside (r.map f) := by
  cases r with
  | error g => exact h.error
  | ok a => exact failsInside_ok (f a)

end failsInside

/-! ### The database -/

theorem MessageRow.failsInside_message (r : MessageRow) : FailsInside r.message := by
  unfold MessageRow.message readRecords
  intro f h
  repeat' split at h
  all_goals cases h
  next => exact .database _
  next hrecords =>
    split at hrecords <;> cases hrecords
    exact .serialization _

theorem failsInside_readMessages (rs : List MessageRow) : FailsInside (readMessages rs) := by
  induction rs with
  | nil => exact failsInside_ok []
  | cons r rs ih =>
    have hr := r.failsInside_message
    rw [readMessages]
    cases hm : r.message with
    | error f =>
      rw [hm] at hr
      exact hr.error
    | ok m => exact ih.map _

theorem Database.failsInside_insert (db : Database) (id : String) (m : Message) :
    FailsInside (db.insert id m) := by
  unfold Database.insert
  split
  · exact failsInside_database _
  split
  · exact failsInside_database _
  · exact failsInside_ok _

theorem Database.insert_of_used {db : Database} {m : Message} (hu : ¬ db.Unused m.id)
    (id : String) : db.insert id m = .error (.database .idTaken) := by
  have hany : db.messages.any (·.id == m.id) = true := by
    simpa [Unused] using hu
  unfold insert
  rw [if_pos hany]

namespace Store

variable (s : Store) (id : String)

/-! ### The store -/

theorem failsInside_stateOf : FailsInside (s.stateOf id) := by
  have hmessages : FailsInside (s.database.messagesOf id) := failsInside_readMessages _
  unfold stateOf Database.load
  cases s.database.row? id with
  | none => exact failsInside_database _
  | some r =>
    cases hm : s.database.messagesOf id with
    | error f =>
      rw [hm] at hmessages
      exact hmessages.error
    | ok ms => exact failsInside_ok _

theorem failsInside_mutate {op : Database → Except Failure Database}
    (h : ∀ db, FailsInside (op db)) : FailsInside (s.mutate id op).1 := by
  have hop := h (s.ensured id).database
  rw [mutate_eq]
  cases ho : op (s.ensured id).database with
  | error f =>
    rw [ho] at hop
    exact hop.error
  | ok db => exact failsInside_stateOf _ id

/-- An operation that changes settings or removes messages fails inside. -/
theorem failsInside_mutate_ok (op : Database → Database) :
    FailsInside (s.mutate id fun db => .ok (op db)).1 :=
  s.failsInside_mutate id fun _ => failsInside_ok _

theorem failsInside_snapshot : FailsInside (s.snapshot id).1 :=
  s.failsInside_mutate_ok id fun db => db

/-- **A blank model is refused before anything is changed.** -/
theorem setModel_of_blank {model : String} (h : Text.isBlankText model = true) :
    s.setModel id model = (.error (.invalidInput "model must not be empty"), s) := by
  rw [setModel_eq, Text.isEmpty_trim, if_pos h]

theorem failsInside_setModel {model : String} (h : Text.isBlankText model = false) :
    FailsInside (s.setModel id model).1 := by
  rw [setModel_eq, Text.isEmpty_trim, h]
  simp only [Bool.false_eq_true, if_false]
  exact s.failsInside_mutate_ok id fun db => db.setModel id (Text.trim model)

/-- **A blank message is refused before anything is changed**, whatever model comes with it. -/
theorem prepareTurn_of_blank {message : String} (h : Text.isBlankText message = true)
    (model : Option String) :
    s.prepareTurn id message model = (.error (.invalidInput "message must not be empty"), s) := by
  rw [prepareTurn_eq, Text.isEmpty_trim, if_pos h]

theorem failsInside_prepareTurn {message : String} (h : Text.isBlankText message = false)
    (model : Option String) : FailsInside (s.prepareTurn id message model).1 := by
  rw [prepareTurn_eq, Text.isEmpty_trim, h]
  simp only [Bool.false_eq_true, if_false]
  split
  next => exact failsInside_ok _
  next given hgiven =>
    have hkept := (Option.filter_eq_some_iff.mp hgiven).2
    have hfilled : Text.isBlankText (Text.trim given) = false := by
      rw [← Text.isEmpty_trim, Text.trim_trim]
      rwa [Bool.not_eq_true'] at hkept
    have hset := s.failsInside_setModel id hfilled
    generalize s.setModel id (Text.trim given) = result at hset ⊢
    exact hset.map _

/-! ### Ids that are taken -/

section taken

variable {s : Store} {stamp : Stamp} (hu : ¬ s.database.Unused stamp.id) (id text : String)
include hu

theorem insert_ensured_of_used {m : Message} (hm : m.id = stamp.id) :
    (s.ensured id).database.insert id m = .error (.database .idTaken) := by
  refine Database.insert_of_used ?_ id
  unfold Database.Unused
  rwa [messages_ensured, hm]

/-- A turn does not open with a message whose id is taken. -/
theorem appendUserMessage_of_used :
    (s.appendUserMessage stamp id text).1 = .error (.database .idTaken) := by
  simp only [appendUserMessage, mutate_eq, Database.beginTurn, insert_ensured_of_used hu,
    Except.map]

/-- A turn is not closed by a message whose id is taken. -/
theorem completeTurn_of_used (calls : Option (List ToolCallRecord)) :
    (s.completeTurn stamp id text calls).1 = .error (.database .idTaken) := by
  simp only [completeTurn, mutate_eq, Database.finishTurn, insert_ensured_of_used hu, Except.map]

end taken

end Store

/-! ### Turns -/

namespace Agents

variable {σ : Type} (h : Handler σ) (id message : String) (a : Agents σ)

theorem failsInside_openTurn : FailsInside (openTurn id message a).1 := by
  rw [openTurn_run]
  exact a.store.failsInside_mutate id fun db => (db.failsInside_insert id _).map _

theorem failsInside_completeTurn (o : TurnOutcome) : FailsInside (completeTurn id o a).1 := by
  rw [completeTurn_run]
  exact a.store.failsInside_mutate id fun db => (db.failsInside_insert id _).map _

/-- The failure of the first completion of a buffered turn that opens now; none if it opens and
brings a completion, and none if it does not open. -/
def firstFailure? : Option Completion.Failure :=
  match openTurn id message a with
  | (.error _, _) => none
  | (.ok state, b) =>
    let i := turnInput message false state
    match h.mode with
    | .simulated => none
    | .live provider => refusal? provider (h.primaryRequest i (h.toolsIn i b.world))
      (h.listed i b.world).outside

variable {h id message a}

theorem turnOutcome_eq_error_iff {f : Completion.Failure} :
    turnOutcome h id message false a = some (.error f) ↔ firstFailure? h id message a = some f := by
  unfold turnOutcome firstFailure?
  generalize openTurn id message a = opened
  obtain ⟨_ | state, b⟩ := opened
  · exact iff_of_false nofun nofun
  · simp only [Option.some.injEq]
    rw [h.outcome_error_iff]
    cases h.mode with
    | simulated => simp
    | live provider => simp

/-- **Why a buffered turn fails.** -/
theorem runPrepared_fails {f : Failure} (hf : (runPrepared h id message a).1 = .error f) :
    f.IsInternal ∨ ∃ g, f = .completion g ∧ firstFailure? h id message a = some g := by
  cases hs : (openTurn id message a).1 with
  | error g =>
    have hrun : (runPrepared h id message a).1 = .error g := by
      unfold runPrepared
      rw [bind_run, hs]
      rfl
    have hopen := failsInside_openTurn id message a
    rw [hrun] at hf
    rw [hs] at hopen
    exact .inl (hopen.error f hf)
  | ok state =>
    obtain ⟨b, o, -, -, -, ⟨-, hrun⟩ | ⟨g, hfails, -, hrun⟩⟩ := runPrepared_ok (h := h) hs
    · exact .inl (failsInside_completeTurn id b o f (hrun.symm.trans hf))
    · have hclose := failsInside_completeTurn id b o
      rw [hrun] at hf
      cases hc : (completeTurn id o b).1 with
      | error e =>
        rw [hc] at hf hclose
        exact .inl (hclose.error f hf)
      | ok state' =>
        rw [hc] at hf
        cases hf
        exact .inr ⟨g, rfl, turnOutcome_eq_error_iff.mp hfails⟩

/-- The history of a turn that has opened can be read. -/
theorem reads_of_openTurn {state : SessionState} (hs : (openTurn id message a).1 = .ok state) :
    (openTurn id message a).2.store.Reads id := by
  have hu : a.store.database.Unused a.nextStamp.id := by
    by_contra hu
    rw [openTurn_run, Store.appendUserMessage_of_used hu] at hs
    cases hs
  obtain ⟨hopened, hreads⟩ := openTurn_fresh hu id message
  rw [hopened, Store.reads_opened]
  exact hreads.mp ⟨state, hs⟩

/-- A message without calls closes a turn whose history can be read, unless its id is taken. -/
theorem completeTurn_plain (hr : a.store.Reads id) (text : String) :
    (∃ state, (completeTurn id ⟨text, none⟩ a).1 = .ok state) ∨
      (completeTurn id ⟨text, none⟩ a).1 = .error (.database .idTaken) := by
  by_cases hu : a.store.database.Unused a.nextStamp.id
  · exact .inl ((completeTurn_fresh hu id ⟨text, none⟩).2.mpr ⟨hr, fun _ hrecords =>
      nomatch hrecords⟩)
  · exact .inr (Store.completeTurn_of_used hu id text none)

/-- **What a failed first completion comes to.** The turn fails with it, unless the id of the reply
that shows it is taken. -/
theorem runPrepared_of_firstFailure {f : Completion.Failure}
    (hf : firstFailure? h id message a = some f) :
    (runPrepared h id message a).1 = .error (.completion f) ∨
      (runPrepared h id message a).1 = .error (.database .idTaken) := by
  have hfails := turnOutcome_eq_error_iff.mpr hf
  cases hs : (openTurn id message a).1 with
  | error g =>
    rw [turnOutcome_of_error hs] at hfails
    cases hfails
  | ok state =>
    obtain ⟨b, o, hstore, -, -, ⟨hok, -⟩ | ⟨g, herror, ho, hrun⟩⟩ := runPrepared_ok (h := h) hs
    · rw [hok] at hfails
      cases hfails
    · rw [herror] at hfails
      cases hfails
      have hreads := reads_of_openTurn hs
      rw [← hstore] at hreads
      rw [hrun, ho]
      rcases completeTurn_plain hreads (bufferedFailureText (.completion f)) with
        ⟨state', hok⟩ | htaken
      · rw [hok]
        exact .inl rfl
      · rw [htaken]
        exact .inr rfl

/-! ### Runs -/

section runs

variable {prepared : String} {model : Option String} {f : Failure} {b : Agents σ}

theorem prepare_of_blank (hblank : Text.isBlankText message = true) :
    prepare id message model a = (.error (.invalidInput "message must not be empty"), a) := by
  rw [prepare_run, a.store.prepareTurn_of_blank id hblank]
  rfl

theorem runBuffered_of_refused (hprepare : prepare id message model a = (.error f, b)) :
    runBuffered h id message model a = (.error f, b) := by
  unfold runBuffered
  rw [bind_run, hprepare]
  rfl

theorem runBuffered_of_prepared (hprepare : prepare id message model a = (.ok prepared, b)) :
    runBuffered h id message model a = runPrepared h id prepared (await h id b).2 := by
  unfold runBuffered
  rw [bind_run, hprepare]
  rfl

theorem runStreaming_of_refused (hprepare : prepare id message model a = (.error f, b)) :
    runStreaming h id message model a = (.error f, b) := by
  unfold runStreaming
  rw [bind_run, hprepare]
  rfl

/-- A streamed turn that is prepared has chunks, whatever comes of it. -/
theorem runStreaming_of_prepared (hprepare : prepare id message model a = (.ok prepared, b)) :
    ∃ chunks, (runStreaming h id message model a).1 = .ok chunks := by
  unfold runStreaming
  rw [bind_run, hprepare]
  exact ⟨_, rfl⟩

end runs

end Agents

end ChatRelay.Session
