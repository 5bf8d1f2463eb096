import ChatRelay.Proofs.Session.StoredCalls
import Mathlib.Logic.Function.Basic

/-! # The database as one record per session

All sessions share two tables, one numbering of messages and one rule that ids of messages are not
used twice. Seen from outside, there is one record for each session: its settings, its flag, its
streamed text and its messages. An operation changes the record of its own session as it would if
there were no others (`Holds.on`), unless it needs a session that does not exist or an id that is
taken; then it fails and no record changes (`Holds.fails`). So after any operations each session
loads as its own successful operations make it (`loads_own_operations`).

This needs messages whose calls can be read again as they were: what the arguments may nest is
bounded, and their doubles have to read back. -/

namespace ChatRelay.Session

open Json Tools

theorem readNames_namesText (names : List String) : readNames (namesText names) = names := by
  have hplain : (Doc.arr (names.map .str)).isPlain = true := by
    rw [Doc.isPlain, itemsPlain_iff]
    intro d hd
    obtain ⟨name, -, rfl⟩ := List.mem_map.mp hd
    rfl
  have hitems : List.Forall₂ (fun d name =>
      Json.text (maxDepth - 1) d = .ok name) (names.map .str) names := by
    rw [List.forall₂_map_left_iff, List.forall₂_same]
    exact fun _ _ => rfl
  have hread : decodeText (list Json.text) (Doc.arr (names.map .str)).text = .ok names := by
    rw [decodeText_of_isPlain _ hplain]
    exact list_eq_ok hitems
  unfold readNames namesText
  rw [hread]
  rfl

/-! ### Records -/

/-- All that is known of one session. -/
structure SessionRecord where
  model : String
  systemPrompt : String
  enabledTools : List String
  isProcessing : Bool
  streamingMessage : String
  messages : List Message

namespace SessionRecord

/-- A session with its first settings. -/
def new (d : Defaults) : SessionRecord := ⟨d.model, d.systemPrompt, d.enabledTools, false, "", []⟩

/-- What a session with this record loads as. -/
def state (id : String) (r : SessionRecord) : SessionState :=
  ⟨id, r.messages, r.isProcessing, r.streamingMessage, r.model, r.systemPrompt, r.enabledTools⟩

/-- The row of a session with this record. -/
def row (id : String) (r : SessionRecord) : SessionRow :=
  ⟨id, r.model, r.systemPrompt, namesText r.enabledTools, r.isProcessing, r.streamingMessage⟩

/-- The record with one more message. -/
def add (m : Message) (r : SessionRecord) : SessionRecord :=
  { r with messages := r.messages ++ [m] }

end SessionRecord

/-- The sessions that exist, with their records. -/
abbrev Records := String → Option SessionRecord

/-- A message of some session has the id. -/
def Records.Taken (records : Records) (id : String) : Prop :=
  ∃ session, ∃ r ∈ records session, ∃ m ∈ r.messages, m.id = id

/-! ### Operations -/

/-- An operation on the database. -/
inductive Operation
  | ensure (id : String) (defaults : Defaults)
  | setModel (id model : String)
  | setSystemPrompt (id prompt : String)
  | setEnabledTools (id : String) (tools : List String)
  | setStreaming (id text : String)
  | appendStreaming (id chunk : String)
  | beginTurn (id : String) (m : Message)
  | finishTurn (id : String) (m : Message)
  | deleteMessages (id : String)
  | load (id : String)

namespace Operation

/-- The session that an operation is for. -/
def session : Operation → String
  | ensure id _ | setModel id _ | setSystemPrompt id _ | setEnabledTools id _ | setStreaming id _
  | appendStreaming id _ | beginTurn id _ | finishTurn id _ | deleteMessages id | load id => id

/-- The message that an operation adds. -/
def message? : Operation → Option Message
  | beginTurn _ m | finishTurn _ m => some m
  | _ => none

/-- The database after an operation that succeeds. -/
def on (db : Database) : Operation → Except Failure Database
  | ensure id d => .ok (db.ensure id d)
  | setModel id model => .ok (db.setModel id model)
  | setSystemPrompt id prompt => .ok (db.setSystemPrompt id prompt)
  | setEnabledTools id tools => .ok (db.setEnabledTools id tools)
  | setStreaming id text => .ok (db.setStreaming id text)
  | appendStreaming id chunk => (db.appendStreaming id chunk).map (·.2)
  | beginTurn id m => db.beginTurn id m
  | finishTurn id m => db.finishTurn id m
  | deleteMessages id => .ok (db.deleteMessages id).2
  | load id => (db.load id).map fun _ => db

/-- What a successful operation makes of the record of its session. A session that exists is not
created again, and one that does not exist has no settings to change. -/
def change : Operation → Option SessionRecord → Option SessionRecord
  | ensure _ d => fun r => some (r.getD (.new d))
  | setModel _ model => .map fun r => { r with model }
  | setSystemPrompt _ prompt => .map fun r => { r with systemPrompt := prompt }
  | setEnabledTools _ tools => .map fun r => { r with enabledTools := tools }
  | setStreaming _ text => .map fun r => { r with streamingMessage := text }
  | appendStreaming _ chunk => .map fun r =>
    { r with streamingMessage := r.streamingMessage ++ chunk }
  | beginTurn _ m => .map fun r => { r.add m with isProcessing := true }
  | finishTurn _ m => .map fun r => { r.add m with isProcessing := false, streamingMessage := "" }
  | deleteMessages _ => .map fun r => { r with messages := [] }
  | load _ => id

/-- What an operation needs: text is appended for a session that exists, and a message is added to a
session that exists with an id that no message of any session has. -/
def Allowed (records : Records) : Operation → Prop
  | appendStreaming id _ => records id ≠ none
  | beginTurn id m | finishTurn id m => records id ≠ none ∧ ¬ records.Taken m.id
  | _ => True

/-- The message that an operation adds can be read again as it was. -/
def Readable (op : Operation) : Prop := ∀ m ∈ op.message?, m.Exact ∧ m.Shallow

end Operation

/-- Operations one after another: the database after them, and those that succeeded. -/
def Database.run (db : Database) : List Operation → Database × List Operation
  | [] => (db, [])
  | op :: ops =>
    match op.on db with
    | .error _ => db.run ops
    | .ok db =>
      let (last, succeeded) := db.run ops
      (last, op :: succeeded)

/-- The record that a session's own operations make. -/
def ownRecord (id : String) (r : Option SessionRecord) (ops : List Operation) :
    Option SessionRecord :=
  (ops.filter (·.session == id)).foldl (fun r op => op.change r) r

theorem ownRecord_cons (id : String) (r : Option SessionRecord) (op : Operation)
    (ops : List Operation) :
    ownRecord id r (op :: ops) = ownRecord id (if id = op.session then op.change r else r) ops := by
  unfold ownRecord
  by_cases h : id = op.session
  · subst h
    rw [List.filter_cons_of_pos (by simp), if_pos rfl, List.foldl_cons]
  · rw [List.filter_cons_of_neg (by simpa using Ne.symm h), if_neg h]

namespace Database

/-- The sessions of the database are those with a record, and have what it says. -/
structure Holds (db : Database) (records : Records) : Prop where
  row : ∀ id, db.row? id = (records id).map (SessionRecord.row id)
  messages : ∀ id, db.messagesOf id = .ok ((records id).elim [] (·.messages))

variable {db : Database} {records : Records}

theorem holds_empty : empty.Holds fun _ => none := ⟨fun _ => rfl, fun _ => rfl⟩

theorem Holds.load (h : db.Holds records) (id : String) :
    db.load id = .ok ((records id).map (SessionRecord.state id)) := by
  have hrow := h.row id
  have hmessages := h.messages id
  cases hr : records id with
  | none =>
    rw [hr] at hrow
    unfold Database.load
    rw [hrow]
    rfl
  | some r =>
    rw [hr] at hrow hmessages
    have hload := load_of_row hrow hmessages
    rw [hload]
    unfold SessionRecord.row SessionRecord.state
    simp only [readNames_namesText, Option.map_some, Option.elim_some]

theorem map_id_of_messagesOf {id : String} {ms : List Message} (h : db.messagesOf id = .ok ms) :
    (db.rowsOf id).map (·.id) = ms.map (·.id) := by
  unfold messagesOf at h
  rw [readMessages_eq_ok] at h
  generalize db.rowsOf id = rows at h
  induction h with
  | nil => rfl
  | cons hm _ ih => rw [List.map_cons, List.map_cons, (message_eq_ok hm).2.1, ih]

/-- The ids that are taken are those of the messages of some record. -/
theorem Holds.unused_iff (h : db.Holds records)
    (id : String) : db.Unused id ↔ ¬ records.Taken id := by
  have hids (session : String) := map_id_of_messagesOf (h.messages session)
  constructor
  · rintro hu ⟨session, r, hr, m, hm, rfl⟩
    have hmem : m.id ∈ (db.rowsOf session).map (·.id) := by
      rw [hids, Option.mem_def.mp hr, Option.elim_some]
      exact List.mem_map_of_mem hm
    obtain ⟨row, hrow, hid⟩ := List.mem_map.mp hmem
    exact hu row (List.mem_filter.mp hrow).1 hid
  · intro hfree row hrow hid
    have hmem : id ∈ (db.rowsOf row.sessionId).map (·.id) :=
      List.mem_map.mpr ⟨row, List.mem_filter.mpr ⟨hrow, beq_self_eq_true _⟩, hid⟩
    rw [hids] at hmem
    obtain ⟨m, hm, hid'⟩ := List.mem_map.mp hmem
    cases hr : records row.sessionId with
    | none =>
      rw [hr] at hm
      cases hm
    | some r =>
      rw [hr] at hm
      exact hfree ⟨row.sessionId, r, hr, m, hm, hid'⟩

theorem Holds.row?_ne_none_iff (h : db.Holds records) (id : String) :
    db.row? id ≠ none ↔ records id ≠ none := by
  rw [h.row, ne_eq, Option.map_eq_none_iff]

/-! ### One operation -/

theorem Holds.ensure (h : db.Holds records) (id : String) (d : Defaults) :
    (db.ensure id d).Holds (Function.update records id
      ((Operation.ensure id d).change (records id))) := by
  constructor
  · intro id'
    rw [Function.update_apply]
    split
    · next hid =>
      subst hid
      rw [row?_ensure, h.row]
      cases records id' <;> rfl
    · next hid => rw [row?_ensure_ne db d hid, h.row]
  · intro id'
    rw [messagesOf_congr (rowsOf_ensure db id id' d), h.messages, Function.update_apply]
    split
    · next hid =>
      subst hid
      cases records id' <;> rfl
    · rfl

/-- A change of a row that is one of the record. -/
theorem Holds.alter (h : db.Holds records) {id : String} {f : SessionRow → SessionRow}
    {g : SessionRecord → SessionRecord} (hf : ∀ r, f (r.row id) = (g r).row id)
    (hid : ∀ r, (f r).id = r.id) (hg : ∀ r, (g r).messages = r.messages) :
    (db.alter id f).Holds (Function.update records id ((records id).map g)) := by
  constructor
  · intro id'
    rw [row?_alter db id id' f hid, h.row, Function.update_apply]
    by_cases heq : id' = id
    · subst heq
      cases records id' <;> simp [hf]
    · cases records id' <;> simp [heq]
  · intro id'
    rw [messagesOf_congr (rowsOf_alter db id id' f), h.messages, Function.update_apply]
    split
    · next heq =>
      subst heq
      cases records id' <;> simp [hg]
    · rfl

theorem Holds.setStreaming (h : db.Holds records) (id text : String) :
    (db.setStreaming id text).Holds
    (Function.update records id ((Operation.setStreaming id text).change (records id))) :=
  h.alter (fun _ => rfl) (fun _ => rfl) fun _ => rfl

theorem Holds.withMessage (h : db.Holds records) {id : String} {m : Message} (hm : m.Exact)
    (hd : m.Shallow) (hr : records id ≠ none) :
    (db.withMessage id m).Holds (Function.update records id
      ((records id).map (SessionRecord.add m))) := by
  obtain ⟨r, hr⟩ := Option.ne_none_iff_exists'.mp hr
  constructor
  · intro id'
    rw [row?_withMessage, h.row, Function.update_apply]
    split
    · next hid =>
      subst hid
      rw [hr]
      rfl
    · rfl
  · intro id'
    have hrows := rowsOf_withMessage db id id' m
    rw [Function.update_apply]
    by_cases hid : id' = id
    · subst hid
      have hold := h.messages id'
      rw [if_pos rfl] at hrows ⊢
      rw [hr] at hold ⊢
      unfold messagesOf at hold ⊢
      rw [readMessages_eq_ok] at hold ⊢
      rw [hrows]
      exact List.rel_append hold (.cons (hm.message_ofMessage hd _ _) .nil)
    · rw [if_neg (Ne.symm hid), List.append_nil] at hrows
      rw [if_neg hid, messagesOf_congr hrows, h.messages]

theorem Holds.deleteMessages (h : db.Holds records) (id : String) : (db.deleteMessages id).2.Holds
    (Function.update records id ((Operation.deleteMessages id).change (records id))) := by
  constructor
  · intro id'
    have hrow : (db.deleteMessages id).2.row? id' = db.row? id' := rfl
    rw [hrow, h.row, Function.update_apply]
    split
    · next hid =>
      subst hid
      cases records id' <;> rfl
    · rfl
  · intro id'
    have hrows := rowsOf_deleteMessages db id id'
    rw [Function.update_apply]
    by_cases hid : id' = id
    · subst hid
      rw [if_pos rfl] at hrows ⊢
      unfold messagesOf
      rw [hrows]
      cases records id' <;> rfl
    · rw [if_neg hid] at hrows ⊢
      rw [messagesOf_congr hrows, h.messages]

/-- A message is added together with a change of the row. -/
theorem Holds.insert_alter (h : db.Holds records) {id : String} {m : Message}
    (hm : m.Exact ∧ m.Shallow) (ha : records id ≠ none ∧ ¬ records.Taken m.id)
    {f : SessionRow → SessionRow} {g : SessionRecord → SessionRecord}
    (hf : ∀ r, f (r.row id) = (g r).row id) (hid : ∀ r, (f r).id = r.id)
    (hg : ∀ r, (g r).messages = r.messages) :
    ∃ db', (db.insert id m).map (fun db => db.alter id f) = .ok db' ∧
      db'.Holds (Function.update records id ((records id).map fun r => g (r.add m))) := by
  obtain ⟨hsession, hfree⟩ := ha
  obtain ⟨r, hr⟩ := Option.ne_none_iff_exists'.mp ((h.row?_ne_none_iff id).mpr hsession)
  have hinsert := insert_of_unused ((h.unused_iff m.id).mpr hfree) hr
  have hadded := (h.withMessage hm.1 hm.2 hsession).alter hf hid hg
  refine ⟨_, by rw [hinsert]; rfl, ?_⟩
  rwa [Function.update_idem, Function.update_self, Option.map_map] at hadded

/-- **What is allowed succeeds, and changes the record of its own session only.** -/
theorem Holds.on (h : db.Holds records) {op : Operation} (hop : op.Readable)
    (ha : op.Allowed records) : ∃ db', op.on db = .ok db' ∧
      db'.Holds (Function.update records op.session (op.change (records op.session))) := by
  cases op with
  | ensure id d => exact ⟨_, rfl, h.ensure id d⟩
  | setModel id model => exact ⟨_, rfl, h.alter (fun _ => rfl) (fun _ => rfl) fun _ => rfl⟩
  | setSystemPrompt id prompt => exact ⟨_, rfl, h.alter (fun _ => rfl) (fun _ => rfl) fun _ => rfl⟩
  | setEnabledTools id tools => exact ⟨_, rfl, h.alter (fun _ => rfl) (fun _ => rfl) fun _ => rfl⟩
  | setStreaming id text => exact ⟨_, rfl, h.setStreaming id text⟩
  | appendStreaming id chunk =>
    obtain ⟨r, hr⟩ := Option.ne_none_iff_exists'.mp ha
    have hrow : db.row? id = some (r.row id) := by
      rw [h.row, hr]
      rfl
    have happend : db.appendStreaming id chunk =
        .ok (r.streamingMessage ++ chunk, db.setStreaming id (r.streamingMessage ++ chunk)) := by
      unfold appendStreaming
      rw [hrow]
      rfl
    have hset := h.setStreaming id (r.streamingMessage ++ chunk)
    rw [hr] at hset
    refine ⟨db.setStreaming id (r.streamingMessage ++ chunk), ?_, ?_⟩
    · simp only [Operation.on, happend, Except.map]
    · simpa only [Operation.session, Operation.change, hr, Option.map_some] using hset
  | beginTurn id m =>
    exact h.insert_alter (g := fun r => { r with isProcessing := true }) (hop m rfl) ha
      (fun _ => rfl)
      (fun _ => rfl) fun _ => rfl
  | finishTurn id m =>
    exact h.insert_alter (g := fun r => { r with isProcessing := false, streamingMessage := "" })
      (hop m rfl) ha
      (fun _ => rfl) (fun _ => rfl) fun _ => rfl
  | deleteMessages id => exact ⟨_, rfl, h.deleteMessages id⟩
  | load id =>
    have hload : Operation.on db (.load id) = .ok db := by
      simp only [Operation.on, h.load, Except.map]
    have hsame : Function.update records id (records id) = records :=
      Function.update_eq_self id records
    exact ⟨db, hload, hsame.symm ▸ h⟩

/-- **What is not allowed fails.** -/
theorem Holds.fails (h : db.Holds records) {op : Operation} (ha : ¬ op.Allowed records) :
    ∃ f, op.on db = .error f := by
  have hinsert {id : String} {m : Message} (hno : ¬ (records id ≠ none ∧ ¬ records.Taken m.id)) :
      ∃ f, db.insert id m = .error f := by
    rw [← h.unused_iff, ← h.row?_ne_none_iff, and_comm, not_and_or, not_ne_iff] at hno
    exact insert_error hno
  cases op with
  | appendStreaming id chunk =>
    have hrow : db.row? id = none := by
      rw [h.row, not_ne_iff.mp ha]
      rfl
    refine ⟨.database .noRow, ?_⟩
    simp only [Operation.on, appendStreaming, hrow, Except.map]
  | beginTurn id m =>
    obtain ⟨f, hf⟩ := hinsert ha
    refine ⟨f, ?_⟩
    simp only [Operation.on, beginTurn, hf, Except.map]
  | finishTurn id m =>
    obtain ⟨f, hf⟩ := hinsert ha
    refine ⟨f, ?_⟩
    simp only [Operation.on, finishTurn, hf, Except.map]
  | _ => exact absurd trivial ha

/-! ### Any number of operations -/

/-- **Each session has the record that its own successful operations make.** -/
theorem Holds.run {ops : List Operation} (hops : ∀ op ∈ ops, op.Readable) : ∀ {db : Database}
    {records : Records}, db.Holds records →
      (db.run ops).1.Holds fun id => ownRecord id (records id) (db.run ops).2 := by
  induction ops with
  | nil => exact fun h => h
  | cons op ops ih =>
    intro db records h
    rw [List.forall_mem_cons] at hops
    by_cases ha : op.Allowed records
    · obtain ⟨db', hon, hnext⟩ := h.on hops.1 ha
      have hrest := ih hops.2 hnext
      have hrecords (id : String) : ownRecord id (records id) (op :: (db'.run ops).2) =
          ownRecord id (Function.update records op.session (op.change (records op.session)) id)
            (db'.run ops).2 := by
        rw [ownRecord_cons, Function.update_apply]
        by_cases hid : id = op.session
        · rw [if_pos hid, if_pos hid, hid]
        · rw [if_neg hid, if_neg hid]
      unfold Database.run
      simp only [hon, hrecords]
      exact hrest
    · obtain ⟨f, hon⟩ := h.fails ha
      have hrest := ih hops.2 h
      unfold Database.run
      simp only [hon]
      exact hrest

end Database

/-! ### A reply with a double -/

/-- A call whose argument is a double. -/
def realCall (x : Number.Binary64) : ToolCallRecord :=
  ⟨"c", "t", [("x", .num (.real x))], .content "r"⟩

theorem nums_realCall (x : Number.Binary64) : (Value.obj (realCall x).arguments).nums = [.real x] :=
  rfl

/-- A reply with one call, of which the argument is a double. -/
def realReply (x : Number.Binary64) : Message := ⟨"2", .assistant, "done", 0, some [realCall x]⟩

/-- The numbers among the arguments of calls. -/
def argumentNums (rs : List ToolCallRecord) : List Json.Num :=
  rs.flatMap fun r => (Value.obj r.arguments).nums

/-- What a reply with a double loads as shows how the double reads back. -/
theorem argumentNums_of_message {x : Number.Binary64} {number : Nat} {id : String} {m : Message}
    (h : (MessageRow.ofMessage number id (realReply x)).message = .ok m) :
    ((assemble (tokens (recordsDoc [realCall x]).render)).decode
      (list ToolCallRecord.decode)).toOption.map
      argumentNums = m.toolCalls.map argumentNums := by
  rw [← decodeText_text]
  unfold MessageRow.message MessageRow.ofMessage realReply readRecords at h
  simp only [Option.map_some] at h
  cases hread : decodeText (list ToolCallRecord.decode) (recordsDoc [realCall x]).text with
  | error e =>
    rw [hread] at h
    cases h
  | ok rs =>
    rw [hread] at h
    cases h
    rfl

theorem wellFormed_realReply (x : Number.Binary64) :
    (realReply x).WellFormed ∧ (realReply x).Shallow := by
  constructor
  · rintro _ ⟨⟩ r hr
    rw [List.mem_singleton] at hr
    subst hr
    refine ⟨⟨List.pairwise_singleton _ _, trivial, trivial⟩, ?_, trivial⟩
    intro n hn
    rw [nums_realCall, List.mem_singleton] at hn
    subst hn
    trivial
  · rintro _ ⟨⟩ r hr
    rw [List.mem_singleton] at hr
    subst hr
    exact (by decide : 1 ≤ storedDepth)

theorem exact_realReply {x : Number.Binary64} (h : (Num.real x).ReadsBack) :
    (realReply x).Exact := by
  rintro _ ⟨⟩ r hr
  refine ⟨(wellFormed_realReply x).1 _ rfl r hr, ?_⟩
  rw [List.mem_singleton] at hr
  subst hr
  intro y hy
  rw [nums_realCall, List.mem_singleton] at hy
  rwa [hy]

/-! ### Sessions -/

/-- **The database is one record for each session.** After any operations each session loads as its
own operations make it, those that succeeded, in their order. And whatever comes next, either it is
allowed and succeeds, and its session loads as this one operation makes it while the others load as
before, or it fails and there is no change. -/
theorem loads_own_operations {ops : List Operation} (hops : ∀ op ∈ ops, op.Readable) :
    let db := (Database.empty.run ops).1
    let records : Records := fun id => ownRecord id none (Database.empty.run ops).2
    (∀ id, db.load id = .ok ((records id).map (SessionRecord.state id))) ∧
      ∀ op : Operation, op.Readable →
        (op.Allowed records → ∃ db', op.on db = .ok db' ∧
          db'.load op.session =
            .ok ((op.change (records op.session)).map (SessionRecord.state op.session)) ∧
          ∀ id, id ≠ op.session → db'.load id = db.load id) ∧
        (¬ op.Allowed records → (∃ f, op.on db = .error f) ∧ db.run [op] = (db, [])) := by
  intro db records
  have h : db.Holds records := Database.holds_empty.run hops
  refine ⟨h.load, fun op hop => ⟨fun ha => ?_, fun ha => ?_⟩⟩
  · obtain ⟨db', hon, hnext⟩ := h.on hop ha
    refine ⟨db', hon, ?_, fun id hid => ?_⟩
    · rw [hnext.load, Function.update_self]
    · rw [hnext.load, Function.update_of_ne hid, h.load]
  · obtain ⟨f, hon⟩ := h.fails ha
    refine ⟨⟨f, hon⟩, ?_⟩
    unfold Database.run
    rw [hon]
    rfl

/-- Two sessions that take turns, an id that is used twice, a session that does not exist, and a
history that is deleted. -/
def sharedTables : List Operation :=
  [.ensure "a" ⟨"m", "p", ["t"]⟩, .ensure "b" ⟨"m", "p", ["t"]⟩,
    .beginTurn "a" ⟨"1", .user, "hi", 0, none⟩, .beginTurn "b" ⟨"1", .user, "hi", 0, none⟩,
    .appendStreaming "c" "x", .appendStreaming "a" "do", .appendStreaming "a" "ne",
    .beginTurn "b" ⟨"3", .user, "ho", 0, none⟩, .setModel "b" "n", .ensure "b" ⟨"o", "p", []⟩,
    .finishTurn "a" (realReply ⟨0x3FF8000000000000⟩), .deleteMessages "b", .setEnabledTools "c" []]

theorem loads_own_operations_sharedTables :
    let db := (Database.empty.run sharedTables).1
    (∀ op ∈ sharedTables, op.Readable) ∧
      db.load "a" = .ok (some ⟨"a", [⟨"1", .user, "hi", 0, none⟩, realReply ⟨0x3FF8000000000000⟩],
        false, "", "m", "p", ["t"]⟩) ∧
      db.load "b" = .ok (some ⟨"b", [], true, "", "n", "p", ["t"]⟩) ∧
      db.load "c" = .ok none := by
  have hback : (Num.real ⟨0x3FF8000000000000⟩).ReadsBack := by decide +kernel
  have hplain (m : Message) (h : m.toolCalls = none) : m.Exact ∧ m.Shallow := by
    simp [Message.Exact, Message.Shallow, h]
  have hops : ∀ op ∈ sharedTables, op.Readable := by
    unfold sharedTables Operation.Readable
    simp only [List.forall_mem_cons]
    simp [Operation.message?, hplain, exact_realReply hback, (wellFormed_realReply _).2]
  obtain ⟨hload, -⟩ := loads_own_operations hops
  refine ⟨hops, (hload "a").trans ?_, (hload "b").trans ?_, (hload "c").trans ?_⟩
  · rfl
  · rfl
  · rfl

/-- **A double that is lost.** It is finite and its text is its shortest one, but the text reads as
its neighbour. -/
theorem stored_double_not_loaded :
    let ops := [Operation.ensure "s" ⟨"m", "p", []⟩,
      .finishTurn "s" (realReply ⟨0x3FED291960F13D94⟩)]
    let db := (Database.empty.run ops).1
    (∀ op ∈ ops, ∀ m ∈ op.message?, m.WellFormed ∧ m.Shallow) ∧ (Database.empty.run ops).2 = ops ∧
      db.load "s" ≠ .ok ((ownRecord "s" none ops).map (SessionRecord.state "s")) := by
  intro ops db
  have hops : ∀ op ∈ ops, ∀ m ∈ op.message?, m.WellFormed ∧ m.Shallow := by
    simp [ops, Operation.message?, wellFormed_realReply]
  refine ⟨hops, rfl, fun hload => ?_⟩
  -- the message that is loaded, and the numbers in its call
  have hmessages : db.messagesOf "s" = .ok [realReply ⟨0x3FED291960F13D94⟩] :=
    Database.messagesOf_of_load hload
  have hrow : readMessages [.ofMessage 1 "s" (realReply ⟨0x3FED291960F13D94⟩)] =
      .ok [realReply ⟨0x3FED291960F13D94⟩] := hmessages
  obtain ⟨hmessage, -⟩ := List.forall₂_cons.mp (readMessages_eq_ok.mp hrow)
  have hnums := argumentNums_of_message hmessage
  revert hnums
  decide +kernel

end ChatRelay.Session
