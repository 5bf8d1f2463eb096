import ChatRelay.Proofs.Session.Moves
import ChatRelay.Proofs.Session.Operations
import ChatRelay.Proofs.Session.SessionRecords
import ChatRelay.Session.Delivery

/-! # What reaches the file, operation by operation

An operation of the store is not one change of the database: it first creates the session, which is
committed on its own, and then makes its change. An operation with a blank model or message commits
nothing. So the operations of a run have a list of commits (`Delivery.commits`), and the database of
the run is what the commits make of the one before it, one after another (`database_of_acts`). A
process that dies leaves what some of the first commits have made. -/

namespace ChatRelay.Session

open Tools

/-! ### Operations of the store -/

/-- An operation of the store with what it is given. -/
inductive StoreCall
  | snapshot (id : String)
  | appendUserMessage (stamp : Stamp) (id text : String)
  | beginStreaming (id : String)
  | appendStreamChunk (id chunk : String)
  | completeTurn (stamp : Stamp) (id text : String) (calls : Option (List ToolCallRecord))
  | failTurn (stamp : Stamp) (id text : String)
  | setModel (id model : String)
  | setSystemPrompt (id prompt : String)
  | setEnabledTools (id : String) (tools : List String)
  | clear (id : String)
  | prepareTurn (id message : String) (model : Option String)

namespace StoreCall

/-- The store after an operation, whatever it answers. -/
def applyTo (s : Store) : StoreCall → Store
  | snapshot id => (s.snapshot id).2
  | appendUserMessage stamp id text => (s.appendUserMessage stamp id text).2
  | beginStreaming id => (s.beginStreaming id).2
  | appendStreamChunk id chunk => (s.appendStreamChunk id chunk).2
  | completeTurn stamp id text calls => (s.completeTurn stamp id text calls).2
  | failTurn stamp id text => (s.failTurn stamp id text).2
  | setModel id model => (s.setModel id model).2
  | setSystemPrompt id prompt => (s.setSystemPrompt id prompt).2
  | setEnabledTools id tools => (s.setEnabledTools id tools).2
  | clear id => (s.clear id).2
  | prepareTurn id message model => (s.prepareTurn id message model).2

/-- The commits that set a model: none if it is blank. -/
def modelCommits (d : Defaults) (id model : String) : List Operation :=
  let model := Text.trim model
  if model.isEmpty then [] else [.ensure id d, .setModel id model]

/-- What an operation commits, in order. What fails commits nothing. -/
def commits (d : Defaults) : StoreCall → List Operation
  | snapshot id => [.ensure id d]
  | appendUserMessage stamp id text => [.ensure id d, .beginTurn id (Store.userMessage stamp text)]
  | beginStreaming id => [.ensure id d, .setStreaming id ""]
  | appendStreamChunk id chunk => [.ensure id d, .appendStreaming id chunk]
  | completeTurn stamp id text calls =>
    [.ensure id d, .finishTurn id (Store.replyMessage stamp text calls)]
  | failTurn stamp id text => [.ensure id d, .finishTurn id (Store.replyMessage stamp text none)]
  | setModel id model => modelCommits d id model
  | setSystemPrompt id prompt => [.ensure id d, .setSystemPrompt id prompt]
  | setEnabledTools id tools => [.ensure id d, .setEnabledTools id (Store.normalNames tools)]
  | clear id => [.ensure id d, .deleteMessages id]
  | prepareTurn id message model =>
    if (Text.trim message).isEmpty then []
    else (model.filter fun m => !(Text.trim m).isEmpty).elim [] (modelCommits d id)

end StoreCall

/-! ### What a commit writes -/

namespace Operation

/-- What an operation may make of the row of a session: it sets its own model or tools, or leaves
them. -/
structure Writes (op : Operation) (r r' : SessionRow) : Prop where
  id : r'.id = r.id
  model : r'.model = r.model ∨ op = .setModel r.id r'.model
  tools : r'.enabledTools = r.enabledTools ∨
    ∃ tools, op = .setEnabledTools r.id tools ∧ r'.enabledTools = namesText tools

/-- The operation writes every row of the first database, and the second has these rows. -/
def WritesRows (op : Operation) (db db' : Database) : Prop :=
  ∃ f, db'.sessions = db.sessions.map f ∧ ∀ r, op.Writes r (f r)

variable {op : Operation} {db : Database}

theorem writesRows_self : op.WritesRows db db :=
  ⟨id, (List.map_id _).symm, fun _ => ⟨rfl, .inl rfl, .inl rfl⟩⟩

theorem writesRows_alter {id : String} {f : SessionRow → SessionRow}
    (hf : ∀ r, r.id = id → op.Writes r (f r)) : op.WritesRows db (db.alter id f) := by
  refine ⟨fun r => if r.id = id then f r else r, rfl, fun r => ?_⟩
  simp only
  split
  next hr => exact hf r hr
  next => exact ⟨rfl, .inl rfl, .inl rfl⟩

theorem writesRows_insert_alter {id : String} {m : Message} {f : SessionRow → SessionRow}
    (hf : ∀ r, r.id = id → op.Writes r (f r)) {db' : Database}
    (hdb : (db.insert id m).map (fun db => db.alter id f) = .ok db') : op.WritesRows db db' := by
  unfold Database.insert at hdb
  split at hdb
  · cases hdb
  · split at hdb
    · cases hdb
    · cases hdb
      exact writesRows_alter hf

/-- **A commit creates a session, or writes the rows that are there.** -/
theorem sessions_on {db' : Database} (hop : op.on db = .ok db') :
    (∃ id d, op = .ensure id d ∧ db' = db.ensure id d) ∨ op.WritesRows db db' := by
  cases op with
  | ensure id d =>
    cases hop
    exact .inl ⟨id, d, rfl, rfl⟩
  | setModel id model =>
    cases hop
    exact .inr (writesRows_alter fun r hr => ⟨rfl, .inr (by rw [hr]), .inl rfl⟩)
  | setEnabledTools id tools =>
    cases hop
    exact .inr (writesRows_alter fun r hr => ⟨rfl, .inl rfl, .inr ⟨tools, by rw [hr], rfl⟩⟩)
  | setSystemPrompt id | setStreaming id =>
    cases hop
    exact .inr (writesRows_alter fun _ _ => ⟨rfl, .inl rfl, .inl rfl⟩)
  | appendStreaming id chunk =>
    simp only [on, Database.appendStreaming] at hop
    split at hop
    · cases hop
    · cases hop
      exact .inr (writesRows_alter fun _ _ => ⟨rfl, .inl rfl, .inl rfl⟩)
  | beginTurn id m =>
    exact .inr (writesRows_insert_alter (f := fun r => { r with isProcessing := true })
      (fun _ _ => ⟨rfl, .inl rfl, .inl rfl⟩) hop)
  | finishTurn id m =>
    exact .inr (writesRows_insert_alter (f := fun r =>
      { r with isProcessing := false, streamingMessage := "" })
      (fun _ _ => ⟨rfl, .inl rfl, .inl rfl⟩) hop)
  | deleteMessages id =>
    cases hop
    exact .inr writesRows_self
  | load id =>
    simp only [on] at hop
    cases hload : db.load id with
    | error f =>
      rw [hload] at hop
      cases hop
    | ok state =>
      rw [hload] at hop
      cases hop
      exact .inr writesRows_self

end Operation

/-! ### Commits one after another -/

/-- The database after commits, one after another. -/
def Database.committed (db : Database) (ops : List Operation) : Database := (db.run ops).1

namespace Database

@[simp] theorem committed_nil (db : Database) : db.committed [] = db := rfl

theorem committed_cons (db : Database) (op : Operation) (ops : List Operation) :
    db.committed (op :: ops) =
      match op.on db with
      | .ok db' => db'.committed ops
      | .error _ => db.committed ops := by
  unfold committed
  rw [run]
  cases op.on db <;> rfl

/-- What an operation of the store commits: its session is there before the change. -/
theorem committed_ensure (db : Database) (id : String) (d : Defaults) (op : Operation) :
    db.committed [.ensure id d, op] =
      match op.on (db.ensure id d) with
      | .ok db' => db'
      | .error _ => db.ensure id d := by
  have hensure : db.committed [.ensure id d, op] = (db.ensure id d).committed [op] :=
    committed_cons ..
  rw [hensure, committed_cons]
  cases op.on (db.ensure id d) <;> rfl

theorem committed_append (db : Database) (ops later : List Operation) :
    db.committed (ops ++ later) = (db.committed ops).committed later := by
  induction ops generalizing db with
  | nil => rfl
  | cons op ops ih =>
    rw [List.cons_append, committed_cons, committed_cons]
    cases op.on db with
    | ok db' => exact ih db'
    | error f => exact ih db

/-- What every commit keeps is kept by all of them. -/
theorem committed_keeps {P : Database → Prop} {ops : List Operation}
    (hstep : ∀ op ∈ ops, ∀ db db', P db → op.on db = .ok db' → P db') :
    ∀ {db : Database}, P db → P (db.committed ops) := by
  induction ops with
  | nil => exact fun h => h
  | cons op ops ih =>
    intro db h
    obtain ⟨hop, hops⟩ := List.forall_mem_cons.mp hstep
    rw [committed_cons]
    cases hon : op.on db with
    | ok db' => exact ih hops (hop db db' h hon)
    | error f => exact ih hops h

end Database

namespace Store

/-- An operation that creates its session and then makes one change. -/
theorem database_change {α : Type} {s : Store} {id : String}
    {call : Database → Except Failure (α × Database)} {op : Operation}
    (h : ∀ db, op.on db = (call db).map (·.2)) :
    (s.change id call).2 = { s with database := s.database.committed [.ensure id s.defaults,
      op] } := by
  rw [Database.committed_ensure, h]
  simp only [change]
  cases call (s.database.ensure id s.defaults) <;> rfl

theorem database_mutate {s : Store} {id : String} {call : Database → Except Failure Database}
    (op : Operation) (h : ∀ db, op.on db = call db) :
    (s.mutate id call).2 = { s with database := s.database.committed [.ensure id s.defaults,
      op] } := by
  rw [mutate_eq, Database.committed_ensure, h]
  unfold ensured
  cases call (s.database.ensure id s.defaults) <;> rfl

theorem setModel_commits (s : Store) (id model : String) : (s.setModel id model).2 =
    { s with database := s.database.committed (StoreCall.modelCommits s.defaults id model) } := by
  rw [setModel_eq]
  unfold StoreCall.modelCommits
  by_cases hb : (Text.trim model).isEmpty
  · rw [if_pos hb, if_pos hb]
    rfl
  · rw [if_neg hb, if_neg hb]
    exact database_mutate (.setModel id _) fun _ => rfl

theorem prepareTurn_commits (s : Store) (id message : String) (model : Option String) :
    (s.prepareTurn id message model).2 = { s with
      database := s.database.committed
        ((StoreCall.prepareTurn id message model).commits s.defaults) } := by
  rw [prepareTurn_eq]
  simp only [StoreCall.commits]
  by_cases hb : (Text.trim message).isEmpty
  · rw [if_pos hb, if_pos hb]
    rfl
  · rw [if_neg hb, if_neg hb]
    cases model.filter fun m => !(Text.trim m).isEmpty with
    | none => rfl
    | some m =>
      have htrim : StoreCall.modelCommits s.defaults id (Text.trim m) =
          StoreCall.modelCommits s.defaults id m := by
        unfold StoreCall.modelCommits
        rw [Text.trim_trim]
      rw [Option.elim_some, ← htrim, ← setModel_commits]

end Store

/-- **One operation of the store.** Its commits make the database after it. -/
theorem StoreCall.applyTo_eq (s : Store) (c : StoreCall) :
    c.applyTo s = { s with database := s.database.committed (c.commits s.defaults) } := by
  cases c with simp only [applyTo, commits]
  | snapshot id =>
    rw [Store.snapshot_eq]
    rfl
  | appendUserMessage stamp id text =>
    exact Store.database_mutate (.beginTurn id (Store.userMessage stamp text)) fun _ => rfl
  | completeTurn stamp id text calls =>
    exact Store.database_mutate (.finishTurn id (Store.replyMessage stamp text calls)) fun _ => rfl
  | failTurn stamp id text =>
    exact Store.database_mutate (.finishTurn id (Store.replyMessage stamp text none)) fun _ => rfl
  | setSystemPrompt | setEnabledTools | clear => exact Store.database_mutate _ fun _ => rfl
  | beginStreaming | appendStreamChunk => exact Store.database_change fun _ => rfl
  | setModel id model => exact s.setModel_commits id model
  | prepareTurn id message model => exact s.prepareTurn_commits id message model

/-! ### Moves -/

/-- The operation that a change is. -/
def Change.call : Change → StoreCall
  | read id => .snapshot id
  | setModel id model => .setModel id model
  | setSystemPrompt id prompt => .setSystemPrompt id prompt
  | setEnabledTools id tools => .setEnabledTools id tools
  | clear id => .clear id

/-- The operation of the store that a request makes on a move of its own. -/
def ChatRequest.call? (r : ChatRequest) : Move → Option StoreCall
  | .prepare _ => some (.prepareTurn r.sessionId r.message r.model)
  | .openTurn _ stamp =>
    match r.phase with
    | .locked message => some (.appendUserMessage stamp r.sessionId message)
    | _ => none
  | .startText _ => some (.beginStreaming r.sessionId)
  | .chunk _ c => some (.appendStreamChunk r.sessionId c)
  | .complete _ stamp o => some (.completeTurn stamp r.sessionId o.content o.toolCalls)
  | .fail _ stamp f =>
    if r.streamed then none
    else some (.failTurn stamp r.sessionId (bufferedFailureText (.completion f)))
  | .recordFailure _ stamp =>
    match r.phase with
    | .failing text => some (.failTurn stamp r.sessionId text)
    | _ => none
  | _ => none

/-- The operation of the store that a move makes, if any. -/
def Scene.call? (s : Scene) : Move → Option StoreCall
  | .arrive id .. => if (s.cached.lookup id).isSome then none else some (.snapshot id)
  | .change c => some c.call
  | m => do (← s.requests[← m.request?]?).call? m

/-- **One move makes one operation of the store at most.** -/
theorem store_of_moved {s s' : Scene} {m : Move} (hm : Moved s m s') :
    s'.store = (s.call? m).elim s.store (·.applyTo s.store) := by
  cases hm with
  | joins hn => simp [Scene.call?, hn]
  | turnedAway hn | builds hn => simp [Scene.call?, hn, StoreCall.applyTo]
  | changes c => cases c <;> rfl
  | leaves | abandons | locks => simp [Scene.call?, Move.request?, ChatRequest.call?]
  | refused hr | prepared hr | starts hr | passesOn hr | completesNot hr | completes hr =>
    simp [Scene.call?, Move.request?, hr, ChatRequest.call?, StoreCall.applyTo]
  | opensNot hr hp | opens hr hp | records hr hp =>
    simp [Scene.call?, Move.request?, hr, ChatRequest.call?, hp, StoreCall.applyTo]
  | fails hr hp hst | failsAtOnce hr hp hst =>
    simp [Scene.call?, Move.request?, hr, ChatRequest.call?, hst, StoreCall.applyTo]

/-! ### Runs -/

/-- What a process does next: a move of its requests, or an operation of the store on its own. -/
inductive Act
  | move (m : DeliveryMove)
  | call (c : StoreCall)

namespace Delivery

/-- The delivery after an act; none if the act is a move that cannot be made. -/
def afterAct (d : Delivery) : Act → Option Delivery
  | .move m => d.after m
  | .call c => some { d with scene := d.scene.withStore (c.applyTo d.scene.store) }

/-- The operation of the store that an act makes, if any. -/
def call? (d : Delivery) : Act → Option StoreCall
  | .move (.move m) => d.scene.call? m
  | .move (.store i c) => (d.scene.requests[i]?).map fun r => .appendStreamChunk r.sessionId c
  | .move (.send _) => none
  | .call c => some c

/-- The delivery after acts, one after another. -/
def afterActs (d : Delivery) : List Act → Option Delivery
  | [] => some d
  | a :: acts => (d.afterAct a).bind (afterActs · acts)

/-- What an act commits, in order. -/
def commitsOf (d : Delivery) (a : Act) : List Operation :=
  (d.call? a).elim [] (StoreCall.commits d.scene.store.defaults)

/-- What acts commit, in order, up to one that cannot be made. -/
def commits (d : Delivery) : List Act → List Operation
  | [] => []
  | a :: acts =>
    match d.afterAct a with
    | none => []
    | some d' => d.commitsOf a ++ d'.commits acts

theorem store_of_after {d d' : Delivery} {a : Act} (h : d.afterAct a = some d') :
    d'.scene.store = (d.call? a).elim d.scene.store (·.applyTo d.scene.store) := by
  cases a with
  | call c =>
    cases h
    rfl
  | move m =>
    cases m with
    | move m =>
      simp only [afterAct, after] at h
      split at h
      · cases h
      · obtain ⟨s, hs, rfl⟩ := Option.map_eq_some_iff.mp h
        exact store_of_moved (moved_of_after hs)
    | store i c =>
      obtain ⟨r, hr, h⟩ := Option.bind_eq_some_iff.mp h
      simp only [call?, hr]
      split at h
      · split at h
        · cases h
          rfl
        · cases h
      · cases h
    | send i =>
      obtain ⟨r, hr, h⟩ := Option.bind_eq_some_iff.mp h
      obtain ⟨c, hc, h⟩ := Option.bind_eq_some_iff.mp h
      cases h
      rfl

/-- **One act.** -/
theorem database_of_act {d d' : Delivery} {a : Act} (h : d.afterAct a = some d') :
    d'.scene.store =
      { d.scene.store with database := d.scene.store.database.committed (d.commitsOf a) } := by
  rw [store_of_after h]
  unfold commitsOf
  cases d.call? a with
  | none => rfl
  | some c => exact c.applyTo_eq d.scene.store

/-- **A whole run.** What its acts commit makes its database. -/
theorem database_of_acts {acts : List Act} : ∀ {d d' : Delivery}, d.afterActs acts = some d' →
    d'.scene.store.database = d.scene.store.database.committed (d.commits acts) := by
  induction acts with
  | nil =>
    intro d d' h
    cases h
    rfl
  | cons a acts ih =>
    intro d d' h
    obtain ⟨t, ht, h⟩ := Option.bind_eq_some_iff.mp h
    rw [ih h, database_of_act ht, commits, ht]
    exact (Database.committed_append _ _ _).symm

end Delivery

end ChatRelay.Session
