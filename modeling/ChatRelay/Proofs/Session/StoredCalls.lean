import ChatRelay.Proofs.Json.Values
import ChatRelay.Proofs.Session.TurnClosing

/-! # Calls that are stored

The calls of a turn are stored with its reply, as one text, and read whenever the session is loaded.
The arguments come from a text as well, but there they are the whole of it, and in the stored text
they stand two levels deeper, within a record and within the list. So what nests as deep as a text
may be read, or one level less, is stored and cannot be read again. Everything else about a call
reads back: its strings, its numbers but for doubles that lose digits, and which kind of result it
had (`loads_stored_turn`). -/

namespace ChatRelay.Completion

open Json

/-- Arguments are sorted, and their integers have at most 64 bits, whatever text they come from. -/
theorem value_parseArguments (raw : String) : (Value.obj (parseArguments raw)).Sorted ∧
    ∀ n ∈ (Value.obj (parseArguments raw)).nums, n.Sized := by
  have hempty : (Value.obj []).Sorted ∧ ∀ n ∈ (Value.obj []).nums, n.Sized :=
    ⟨⟨.nil, trivial⟩, fun n hn => by cases hn⟩
  unfold parseArguments
  simp only
  split
  · exact hempty
  · split
    · next o ho => exact value_of_parse? ho
    · exact hempty

end ChatRelay.Completion

namespace ChatRelay.Tools

open Json

/-! ### Results -/

/-- The numbers of a report are in the range of their types. -/
def ToolResult.Fits : ToolResult → Prop
  | weather w => -(2 ^ 31) ≤ w.temperature ∧ w.temperature < 2 ^ 31 ∧ w.humidity < 2 ^ 8
  | _ => True

namespace ToolResult

theorem isPlain_doc {r : ToolResult} (h : r.Fits) : r.doc.isPlain = true := by
  cases r with
  | weather w =>
    obtain ⟨hlow, hhigh, hhumidity⟩ := h
    simp [doc, WeatherReport.doc, Doc.record, field, Doc.isPlain, membersPlain, Doc.ofInt,
      Doc.ofNat]
    omega
  | content t => rfl
  | error t => rfl

theorem isRecord_doc (r : ToolResult) : r.doc.IsRecord := by
  cases r <;> simp [doc, WeatherReport.doc, Doc.record, field, Doc.IsRecord]

theorem depth_doc (r : ToolResult) : r.doc.depth = 1 := by
  cases r <;> rfl

/-- Nothing in a result is too deep or without a value. -/
theorem anyValue_doc {r : ToolResult} (h : r.Fits)
    (room : Nat) : anyValue (room + 1) r.doc = .ok () := by
  have hdepth : r.doc.depth ≤ room + 1 := by
    rw [depth_doc]
    omega
  unfold anyValue
  rw [value_eq_meaning r.doc (room + 1) (isPlain_doc h) hdepth]
  rfl

theorem decode_weather {w : WeatherReport} (h : (weather w).Fits) (room : Nat) :
    WeatherReport.decode (room + 1) w.doc = .ok w := by
  obtain ⟨s, hs, holds⟩ := record_eq_ok ["location", "temperature", "condition", "humidity"] room
    (by simp) (isPlain_doc h) (isRecord_doc (weather w))
  have hlocation := holds.required "location" (by simp) (fun hnull => by cases hnull) Json.text
  have htemperature :=
    holds.required "temperature" (by simp) (fun hnull => by cases hnull) (signed 32)
  have hcondition := holds.required "condition" (by simp) (fun hnull => by cases hnull) Json.text
  have hhumidity := holds.required "humidity" (by simp) (fun hnull => by cases hnull) (natural 8)
  obtain ⟨hlow, hhigh, hbits⟩ := h
  have hsigned : signed 32 room (.ofInt w.temperature) = .ok w.temperature := by
    simp only [signed, integer, Doc.ofInt]
    exact if_pos ⟨hlow, Int.le_sub_one_of_lt hhigh⟩
  have hnatural : natural 8 room (.ofNat w.humidity) = .ok w.humidity := by
    have hbounds : (0 : Int) ≤ w.humidity ∧
        (w.humidity : Int) ≤ ((Nat.pow 2 8 - 1 : Nat) : Int) := by
      have : (Nat.pow 2 8 - 1 : Nat) = 255 := rfl
      omega
    simp only [natural, integer, Doc.ofNat]
    rw [if_pos hbounds]
    rfl
  have hdoc : (weather w).doc = w.doc := rfl
  rw [hdoc] at hs
  rw [show (weather w).doc.get "location" = .str w.location from rfl] at hlocation
  rw [show (weather w).doc.get "temperature" = .ofInt w.temperature from rfl,
    hsigned] at htemperature
  rw [show (weather w).doc.get "condition" = .str w.condition from rfl] at hcondition
  rw [show (weather w).doc.get "humidity" = .ofNat w.humidity from rfl, hnatural] at hhumidity
  unfold WeatherReport.decode
  simp only [bind, Except.bind, hs, hlocation, htemperature, hcondition, hhumidity]
  rfl

/-- A result of another kind is no report. -/
theorem decode_weather_error {r : ToolResult} (h : r.Fits) (hr : r.doc.member? "location" = none)
    (room : Nat) : WeatherReport.decode (room + 1) r.doc = .error .unfit := by
  obtain ⟨s, hs, holds⟩ := record_eq_ok ["location", "temperature", "condition", "humidity"] room
    (by simp) (isPlain_doc h) (isRecord_doc r)
  have hlocation := holds.missing "location" (by simp) hr Json.text
  unfold WeatherReport.decode
  simp only [bind, Except.bind, hs, hlocation]

theorem decodeTextMember_doc {r : ToolResult} (h : r.Fits) (name : String) {t : String}
    (hr : r.doc.member? name = some (.str t)) (room : Nat) :
    decodeTextMember name (room + 1) r.doc = .ok t := by
  obtain ⟨s, hs, holds⟩ := record_eq_ok [name] room (by simp) (isPlain_doc h) (isRecord_doc r)
  have hget : r.doc.get name = .str t := by
    unfold Doc.get
    rw [hr]
    rfl
  have htext := holds.required name (by simp) (by rw [hget]; exact fun hnull => by cases hnull)
    Json.text
  rw [hget] at htext
  unfold decodeTextMember
  simp only [bind, Except.bind, hs, holds.named, htext]
  rfl

theorem decodeTextMember_error {r : ToolResult} (h : r.Fits) (name : String)
    (hr : r.doc.member? name = none) (room : Nat) :
    decodeTextMember name (room + 1) r.doc = .error .unfit := by
  obtain ⟨s, hs, holds⟩ := record_eq_ok [name] room (by simp) (isPlain_doc h) (isRecord_doc r)
  have htext := holds.missing name (by simp) hr Json.text
  unfold decodeTextMember
  simp only [bind, Except.bind, hs, holds.named, htext]
  rfl

/-- **A result is read as what it was**, not as another kind of result. -/
theorem decode_doc {r : ToolResult} (h : r.Fits)
    (room : Nat) : decode (room + 1) r.doc = .ok r := by
  have hany := anyValue_doc h room
  unfold decode
  rw [hany]
  cases r with
  | weather w =>
    have hreport := decode_weather h room
    simp only [doc, hreport]
  | content t =>
    have hreport := decode_weather_error h rfl room
    have htext := decodeTextMember_doc h "content" rfl room
    simp only [hreport, htext]
  | error t =>
    have hreport := decode_weather_error h rfl room
    have hcontent := decodeTextMember_error h "content" rfl room
    have htext := decodeTextMember_doc h "error" rfl room
    simp only [hreport, hcontent, htext]

end ToolResult

/-! ### Records -/

/-- Every value in a record has its form: the keys of the arguments increase at every level, their
integers have at most 64 bits, and the result is in range. -/
structure ToolCallRecord.WellFormed (r : ToolCallRecord) : Prop where
  sorted : (Value.obj r.arguments).Sorted
  sized : ∀ n ∈ (Value.obj r.arguments).nums, n.Sized
  result : r.result.Fits

/-- The text of a record says exactly what it is: it is well formed, and the doubles in its
arguments read back. -/
structure ToolCallRecord.Exact (r : ToolCallRecord) : Prop where
  wellFormed : r.WellFormed
  reals : ∀ x, .real x ∈ (Value.obj r.arguments).nums → (Num.real x).ReadsBack

/-- A record as turns make them: the arguments are what some text means, the result is in range, and
the doubles in the arguments read back. -/
structure ToolCallRecord.Made (r : ToolCallRecord) : Prop where
  arguments : ∃ raw, r.arguments = Completion.parseArguments raw
  result : r.result.Fits
  reals : ∀ x, .real x ∈ (Value.obj r.arguments).nums → (Num.real x).ReadsBack

/-- The levels of arrays and objects in the arguments of a record. -/
def ToolCallRecord.depth (r : ToolCallRecord) : Nat := (Value.obj r.arguments).doc.depth

namespace ToolCallRecord

variable {r : ToolCallRecord}

theorem Made.wellFormed (h : r.Made) : r.WellFormed := by
  obtain ⟨raw, hraw⟩ := h.arguments
  obtain ⟨hsorted, hsized⟩ := Completion.value_parseArguments raw
  rw [← hraw] at hsorted hsized
  exact ⟨hsorted, hsized, h.result⟩

theorem Made.exact (h : r.Made) : r.Exact := ⟨h.wellFormed, h.reals⟩

theorem Exact.readsBack (h : r.Exact) : ∀ n ∈ (Value.obj r.arguments).nums, n.ReadsBack := by
  intro n hn
  cases n with
  | real x => exact h.reals x hn
  | int i =>
    have hsized : (Num.int i).Sized := h.wellFormed.sized _ hn
    exact readsBack_int hsized.1 hsized.2

theorem Exact.exact_doc (h : r.Exact) : r.doc.Exact :=
  ⟨rfl, trivial, rfl, trivial, rfl, Json.exact_doc _ h.readsBack, rfl,
    exact_of_isPlain _ (ToolResult.isPlain_doc h.wellFormed.result), trivial⟩

theorem made_of_error {id name raw text : String} {o : Object}
    (ho : o = Completion.parseArguments raw) (h : ∀ n ∈ (Value.obj o).nums, n.ReadsBack) :
    Made ⟨id, name, o, .error text⟩ :=
  ⟨⟨raw, ho⟩, trivial, fun _ hx => h _ hx⟩

theorem isRecord_doc (r : ToolCallRecord) : r.doc.IsRecord := by
  simp [doc, Doc.record, field, Doc.IsRecord]

theorem object_doc (room : Nat) (o : Object) : object room (Value.obj o).doc =
    match value room (Value.obj o).doc with
    | .ok (.obj o') => .ok o'
    | .ok _ => .error .unfit
    | .error e => .error e := rfl

/-- What a record decodes to is a matter of its arguments. -/
theorem Exact.decode_eq (h : r.Exact) (room : Nat) : decode (room + 2) r.doc =
    (object (room + 1) (Value.obj r.arguments).doc).map fun arguments => { r with arguments } := by
  obtain ⟨s, hs, holds⟩ := record_eq_ok_of_exact ["id", "name", "arguments", "result"] (room + 1)
    (by simp) h.exact_doc r.isRecord_doc
  have hnotNull : r.result.doc ≠ .null := by
    cases r.result <;> exact fun hnull => by cases hnull
  have hid := holds.required "id" (by simp) (fun hnull => by cases hnull) Json.text
  have hname := holds.required "name" (by simp) (fun hnull => by cases hnull) Json.text
  have harguments := holds.required "arguments" (by simp) (fun hnull => by cases hnull) object
  have hresult := holds.required "result" (by simp) hnotNull ToolResult.decode
  rw [show r.doc.get "id" = .str r.id from rfl] at hid
  rw [show r.doc.get "name" = .str r.name from rfl] at hname
  rw [show r.doc.get "arguments" = (Value.obj r.arguments).doc from rfl] at harguments
  rw [show r.doc.get "result" = r.result.doc from rfl,
    ToolResult.decode_doc h.wellFormed.result] at hresult
  unfold decode
  simp only [bind, Except.bind, hs, hid, hname, harguments, hresult, Json.text]
  cases object (room + 1) (Value.obj r.arguments).doc <;> rfl

/-- **A record is read again** if the levels of its arguments are allowed, and only then. -/
theorem Exact.decode_doc (h : r.Exact) {room : Nat} (hd : r.depth ≤ room + 1) :
    decode (room + 2) r.doc = .ok r := by
  have hobject : object (room + 1) (Value.obj r.arguments).doc = .ok r.arguments := by
    rw [object_doc, value_doc _ _ h.wellFormed.sorted hd]
  rw [h.decode_eq, hobject]
  rfl

theorem Exact.depth_le_of_decode (h : r.Exact) {room : Nat} {r' : ToolCallRecord}
    (hr : decode (room + 2) r.doc = .ok r') : r.depth ≤ room + 1 := by
  rw [h.decode_eq, object_doc] at hr
  cases hv : value (room + 1) (Value.obj r.arguments).doc with
  | ok v => exact (value_ok _ _ _ hv).2.2
  | error e =>
    rw [hv] at hr
    cases hr

end ToolCallRecord

end ChatRelay.Tools

namespace ChatRelay.Session

open Json Tools

/-! ### Stored lists of records -/

theorem exact_recordsDoc {rs : List ToolCallRecord} (h : ∀ r ∈ rs, r.Exact) :
    (recordsDoc rs).Exact :=
  itemsExact_iff.mpr (List.forall_mem_map.mpr fun r hr => (h r hr).exact_doc)

/-- The levels that the arguments of a stored record may have. -/
def storedDepth : Nat := maxDepth - 2

theorem readRecords_eq {rs : List ToolCallRecord} (h : ∀ r ∈ rs, r.Exact) :
    readRecords (recordsDoc rs).text =
    match decodeItems ToolCallRecord.decode (storedDepth + 1) (rs.map ToolCallRecord.doc) [] with
    | .ok rs => .ok rs
    | .error _ => .error (.serialization "stored tool calls cannot be read") := by
  unfold readRecords
  rw [decodeText_of_exact _ (exact_recordsDoc h)]
  rfl

/-- **Stored records are read again** if none of them has arguments that nest too deep. -/
theorem readRecords_text {rs : List ToolCallRecord} (h : ∀ r ∈ rs, r.Exact)
    (hd : ∀ r ∈ rs, r.depth ≤ storedDepth) : readRecords (recordsDoc rs).text = .ok rs := by
  have hitems : List.Forall₂ (fun d r => ToolCallRecord.decode (storedDepth + 1) d = .ok r)
      (rs.map ToolCallRecord.doc) rs := by
    rw [List.forall₂_map_left_iff, List.forall₂_same]
    exact fun r hr => (h r hr).decode_doc (hd r hr)
  rw [readRecords_eq h, decodeItems_eq_ok hitems]
  rfl

theorem depth_le_of_readRecords {rs rs' : List ToolCallRecord} (h : ∀ r ∈ rs, r.Exact)
    (hok : readRecords (recordsDoc rs).text = .ok rs') : ∀ r ∈ rs, r.depth ≤ storedDepth := by
  intro r hr
  rw [readRecords_eq h] at hok
  cases hitems : decodeItems ToolCallRecord.decode (storedDepth + 1) (rs.map ToolCallRecord.doc)
    [] with
  | error e =>
    rw [hitems] at hok
    cases hok
  | ok as =>
    obtain ⟨a, ha⟩ := item_ok_of_decodeItems hitems r.doc (List.mem_map.mpr ⟨r, hr, rfl⟩)
    exact (h r hr).depth_le_of_decode ha

/-! ### Stored messages -/

namespace Message

/-- The calls of a message are as turns make them. -/
def Made (m : Message) : Prop := ∀ rs ∈ m.toolCalls, ∀ r ∈ rs, r.Made

/-- The calls of a message are well formed. -/
def WellFormed (m : Message) : Prop := ∀ rs ∈ m.toolCalls, ∀ r ∈ rs, r.WellFormed

/-- The texts of the calls of a message say exactly what they are. -/
def Exact (m : Message) : Prop := ∀ rs ∈ m.toolCalls, ∀ r ∈ rs, r.Exact

theorem Made.exact {m : Message} (h : m.Made) : m.Exact := fun rs hrs r hr => (h rs hrs r hr).exact

/-- None of the calls of a message has arguments that nest too deep to be read again. -/
def Shallow (m : Message) : Prop := ∀ rs ∈ m.toolCalls, ∀ r ∈ rs, r.depth ≤ storedDepth

/-- **A message is read from its row as it was**, if its calls do not nest too deep. -/
theorem Exact.message_ofMessage {m : Message} (h : m.Exact) (hd : m.Shallow) (number : Nat)
    (sessionId : String) : (MessageRow.ofMessage number sessionId m).message = .ok m := by
  obtain ⟨id, speaker, content, time, calls⟩ := m
  have hs : Speaker.ofName? speaker.name = some speaker := by cases speaker <;> rfl
  cases calls with
  | none => exact message_ofMessage_plain number sessionId _ rfl
  | some rs =>
    have hread := readRecords_text (h rs rfl) (hd rs rfl)
    unfold MessageRow.message MessageRow.ofMessage
    simp only [hs, Option.map_some, hread]

theorem Exact.shallow_of_message {m m' : Message} (h : m.Exact) {number : Nat} {sessionId : String}
    (hm : (MessageRow.ofMessage number sessionId m).message = .ok m') : m.Shallow := by
  intro rs hrs
  obtain ⟨rs', hread⟩ := (message_ofMessage_ok_iff number sessionId m).mp ⟨m', hm⟩ rs hrs
  exact depth_le_of_readRecords (h rs hrs) hread

theorem Made.message_ofMessage {m : Message} (h : m.Made) (hd : m.Shallow) (number : Nat)
    (sessionId : String) : (MessageRow.ofMessage number sessionId m).message = .ok m :=
  h.exact.message_ofMessage hd number sessionId

theorem Made.shallow_of_message {m m' : Message} (h : m.Made) {number : Nat} {sessionId : String}
    (hm : (MessageRow.ofMessage number sessionId m).message = .ok m') : m.Shallow :=
  h.exact.shallow_of_message hm

end Message

/-! ### Stored turns -/

/-- What a turn leaves when it is finished: one more row, and the session idle. -/
theorem Database.finishTurn_of_unused {db : Database} {id : String} {m : Message} {r : SessionRow}
    (hr : db.row? id = some r) (hu : db.Unused m.id) : ∃ db', db.finishTurn id m = .ok db' ∧
      db'.rowsOf id = db.rowsOf id ++ [.ofMessage db.nextNumber id m] ∧
      db'.row? id = some { r with isProcessing := false, streamingMessage := "" } := by
  refine ⟨_, by rw [finishTurn, insert_of_unused hu hr]; rfl, ?_, ?_⟩
  · rw [rowsOf_alter, rowsOf_withMessage, if_pos rfl]
  · have hrow := (db.withMessage id m).row?_alter_self id
      (fun r => { r with isProcessing := false, streamingMessage := "" }) fun _ => rfl
    rw [row?_withMessage, hr] at hrow
    exact hrow

/-- A session of which a row cannot be read does not load. -/
theorem Database.load_ne_of_row {db : Database} {id : String} {row : MessageRow}
    (hrow : row ∈ db.rowsOf id) (hno : ∀ m, row.message ≠ .ok m) (state : SessionState) :
    db.load id ≠ .ok (some state) := by
  intro hload
  obtain ⟨m, hmessage⟩ := readable_iff.mp ⟨_, messagesOf_of_load hload⟩ row hrow
  exact hno m hmessage

/-- **A finished turn is loaded as it was**, its calls included, if the arguments of each call nest
at most two levels less deep than a text may. Otherwise it is stored all the same, and the session
does not load any more, whatever is added to its history. -/
theorem loads_stored_turn {db : Database} {id : String} {m : Message} {r : SessionRow}
    {ms : List Message} (hr : db.row? id = some r) (hms : db.messagesOf id = .ok ms)
    (hu : db.Unused m.id) (hm : m.Made) : ∃ db', db.finishTurn id m = .ok db' ∧
      (m.Shallow → db'.load id = .ok (some
        ⟨id, ms ++ [m], false, "", r.model, r.systemPrompt, readNames r.enabledTools⟩)) ∧
      (¬ m.Shallow → ∀ (later : Database) (rows : List MessageRow),
        later.rowsOf id = db'.rowsOf id ++ rows → ∀ state, later.load id ≠ .ok (some state)) := by
  obtain ⟨db', hfinish, hrows, hrow⟩ := Database.finishTurn_of_unused hr hu
  refine ⟨db', hfinish, fun hd => ?_, fun hd later rows hlater => ?_⟩
  · have hmessage := hm.message_ofMessage hd db.nextNumber id
    have hhistory : db'.messagesOf id = .ok (ms ++ [m]) := by
      unfold Database.messagesOf at hms ⊢
      rw [readMessages_eq_ok] at hms ⊢
      rw [hrows]
      exact List.rel_append hms (.cons hmessage .nil)
    exact Database.load_of_row hrow hhistory
  · have hmem : .ofMessage db.nextNumber id m ∈ later.rowsOf id := by
      rw [hlater, hrows]
      simp
    exact Database.load_ne_of_row hmem fun m' hm' => hd (hm.shallow_of_message hm')

/-! ### Calls on either side of the bound -/

/-- A text of arguments that nest one level more than this. -/
def nestedArguments (levels : Nat) : List Char :=
  ['{', '"', 'a', '"', ':'] ++ List.replicate levels '[' ++ List.replicate levels ']' ++ ['}']

/-- A reply with one call, of which the arguments have the given text. -/
def oneCallReply (arguments : String) : Message :=
  Store.replyMessage ⟨"m1", 0⟩ "done" (some [Agents.oneRecord arguments])

/-- A database with one session, which is empty. -/
def oneSession : Database := Database.empty.ensure "s" ⟨"m", "p", []⟩

theorem forall_oneCallReply {p : ToolCallRecord → Prop} {arguments : String}
    (h : p (Agents.oneRecord arguments)) :
    ∀ rs ∈ (oneCallReply arguments).toolCalls, ∀ r ∈ rs, p r := by
  intro rs hrs r hr
  have hrecords : [Agents.oneRecord arguments] = rs := Option.some.inj hrs
  subst hrecords
  rw [List.mem_singleton.mp hr]
  exact h

theorem made_oneCallReply {arguments : String}
    (h : ∀ n ∈ (Value.obj (Completion.parseArguments arguments)).nums, n.ReadsBack) :
    (oneCallReply arguments).Made := by
  refine forall_oneCallReply ?_
  unfold Agents.oneRecord
  exact ToolCallRecord.made_of_error rfl h

theorem parseArguments_ofList (cs : List Char) : Completion.parseArguments (String.ofList cs) =
    if (Text.trimChars cs).isEmpty then []
    else
      match ((assemble (Json.tokens (Text.trimChars cs))).decode value).toOption with
      | some (.obj o) => o
      | _ => [] := by
  unfold Completion.parseArguments
  cases hread : ((assemble (Json.tokens (Text.trimChars cs))).decode value).toOption with
  | none => simp only [Agents.isEmpty_trim_ofList, Agents.parse?_trim_ofList, hread]
  | some v => cases v <;> simp only [Agents.isEmpty_trim_ofList, Agents.parse?_trim_ofList, hread]

theorem loads_stored_turn_reals :
    let m := oneCallReply (String.ofList ['{', '"', 'a', '"', ':', '[', '1', '.', '5', ',', '-',
      '7', ']', '}'])
    oneSession.messagesOf "s" = .ok [] ∧ oneSession.Unused m.id ∧ m.Made ∧ m.Shallow ∧
      ∃ db' state, oneSession.finishTurn "s" m = .ok db' ∧ db'.load "s" = .ok (some state) ∧
        state.messages = [m] := by
  intro m
  have hrow : oneSession.row? "s" = some ⟨"s", "m", "p", namesText [], false,
    ""⟩ := by decide +kernel
  have hu : oneSession.Unused m.id := by decide +kernel
  have hmade : m.Made := made_oneCallReply (by rw [parseArguments_ofList]; decide +kernel)
  have hshallow : m.Shallow := forall_oneCallReply (by
    unfold ToolCallRecord.depth Agents.oneRecord
    rw [parseArguments_ofList]
    decide +kernel)
  obtain ⟨db', hfinish, hload, -⟩ :=
    loads_stored_turn hrow (rfl : oneSession.messagesOf "s" = .ok []) hu hmade
  exact ⟨rfl, hu, hmade, hshallow, db', _, hfinish, hload hshallow, rfl⟩

/-- **A turn that is lost.** The arguments have a text that may be read, and one level too many to
be read again. -/
theorem stored_turn_lost :
    let m := oneCallReply (String.ofList (nestedArguments 125))
    m.Made ∧ ∃ db', oneSession.finishTurn "s" m = .ok db' ∧
        ∀ state, db'.load "s" ≠ .ok (some state) := by
  intro m
  have hrow : oneSession.row? "s" = some ⟨"s", "m", "p", namesText [], false,
    ""⟩ := by decide +kernel
  have hmade : m.Made := made_oneCallReply (by rw [parseArguments_ofList]; decide +kernel)
  have hdeep : ¬ m.Shallow := by
    intro hshallow
    have hdepth := hshallow _ rfl _ (List.mem_singleton.mpr rfl)
    unfold ToolCallRecord.depth Agents.oneRecord at hdepth
    rw [parseArguments_ofList] at hdepth
    revert hdepth
    decide +kernel
  have hu : oneSession.Unused m.id := by decide +kernel
  obtain ⟨db', hfinish, hrows, -⟩ := Database.finishTurn_of_unused hrow hu
  have hmem : .ofMessage oneSession.nextNumber "s" m ∈ db'.rowsOf "s" := by
    rw [hrows]
    exact List.mem_append_right _ (List.mem_singleton.mpr rfl)
  exact ⟨hmade, db', hfinish,
    Database.load_ne_of_row hmem fun m' hm' => hdeep (hmade.shallow_of_message hm')⟩

end ChatRelay.Session
