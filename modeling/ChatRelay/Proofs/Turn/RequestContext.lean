import ChatRelay.Proofs.Session.StoredCalls
import ChatRelay.Proofs.Turn.Outcomes

/-! # What the requests of a turn hold

The request for the first completion looks back at the last ten messages before the turn, the one
for the follow-up at the last five, each message in the role of its speaker; both end the history
with the user's message, which is no part of it. The follow-up lists the calls of the first
completion as they were written and answers each, under its id, with the text of its recorded
result; a result can be read from that text as what it was, since all results that tools give are in
range (`fits_execute`). `AsksFirst` and `AsksFollowUp` say this of one request each. -/

namespace ChatRelay

open Json

/-! ### Results of tools -/

namespace Tools

/-- A fabricated report is in range. -/
theorem fits_fabricateWeather (location : String) (d : Draws) :
    (ToolResult.weather (fabricateWeather location d).1).Fits := by
  have hlt : (d.below 10).1 < 10 := Nat.mod_lt _ (by decide)
  have htemperature : (fabricateWeather location d).1.temperature = 20 + ((d.below 10).1 : Int) :=
    rfl
  have hhumidity : (fabricateWeather location d).1.humidity = 50 := rfl
  refine ⟨?_, ?_, ?_⟩
  · rw [htemperature]
    omega
  · rw [htemperature]
    omega
  · rw [hhumidity]
    decide

theorem fits_toResult (r : Except Fault String) : (Executor.toResult r).Fits := by
  cases r <;> trivial

/-- **Whatever a tool gives is in range.** -/
theorem fits_execute {σ : Type} (x : Executor σ) (name : String) (arguments : Object)
    (w : World σ) : ((x.execute name arguments).run w).1.Fits := by
  unfold Executor.execute
  split
  · exact fits_fabricateWeather _ w.draws
  · repeat' split
    all_goals exact fits_toResult _

/-- The text of a result is read as the result. -/
theorem ToolResult.decodeText_doc {r : ToolResult} (h : r.Fits) :
    decodeText ToolResult.decode r.doc.text = .ok r := by
  rw [decodeText_of_isPlain _ (isPlain_doc h)]
  exact decode_doc h _

end Tools

namespace Turn

open Completion Session Tools

/-! ### Windows -/

theorem lastOf_suffix {α : Type} (n : Nat) (xs : List α) : lastOf n xs <:+ xs :=
  List.drop_suffix _ _

theorem length_lastOf {α : Type} (n : Nat)
    (xs : List α) : (lastOf n xs).length = min n xs.length := by
  unfold lastOf
  rw [List.length_drop]
  omega

/-- The window is the end of the history: its last `n` messages, or all if there are fewer. -/
def IsWindow (n : Nat) (history window : List Message) : Prop :=
  window <:+ history ∧ window.length = min n history.length

theorem isWindow_lastOf (n : Nat) (history : List Message) :
    IsWindow n history (lastOf n history) :=
  ⟨lastOf_suffix n history, length_lastOf n history⟩

/-! ### Entries -/

/-- The entry has the role and the text, and nothing else. -/
structure Says (role : Role) (text : String) (e : ChatMessage) : Prop where
  role : e.role = role
  content : e.content = some text
  noCall : e.toolCallId = none
  noCalls : e.toolCalls = none

/-- The entry repeats a stored message: in the role of its speaker, and with its text. -/
inductive Repeats (m : Message) (e : ChatMessage) : Prop
  | user (hm : m.speaker = .user) (he : Says .user m.content e)
  | assistant (hm : m.speaker = .assistant) (he : Says .assistant m.content e)

/-- The entry is the system directive: the trimmed prompt, or the fallback if the prompt is
blank. -/
structure Directs (fallback prompt : String) (e : ChatMessage) : Prop where
  given : Text.trim prompt ≠ "" → Says .system (Text.trim prompt) e
  blank : Text.trim prompt = "" → Says .system fallback e

theorem says_plain (role : Role) (text : String) : Says role text (.plain role text) :=
  ⟨rfl, rfl, rfl, rfl⟩

theorem repeats_entry (m : Message) : Repeats m (entry m) := by
  unfold entry
  cases hm : m.speaker with
  | user => exact .user hm (says_plain _ _)
  | assistant => exact .assistant hm (says_plain _ _)

theorem repeats_window (window : List Message) :
    List.Forall₂ Repeats window (window.map entry) := by
  rw [List.forall₂_map_right_iff, List.forall₂_same]
  exact fun m _ => repeats_entry m

theorem directs_directive (fallback prompt : String) :
    Directs fallback prompt (directive fallback prompt) where
  given h := by
    have hfull : (Text.trim prompt).isEmpty = false := by simpa using h
    unfold directive
    simp only [hfull, Bool.false_eq_true, if_false]
    exact says_plain _ _
  blank h := by
    unfold directive
    rw [h]
    exact says_plain _ _

/-! ### Requests -/

/-- The request for the first completion of a turn: the system directive, the last ten messages
before the turn in order, and the user's message. It names the tools of the catalog that are
enabled, and leaves the choice to the model, if there are any, and has neither member if there are
none. -/
structure AsksFirst (q : Request) (prompt : String) (history : List Message) (message : String)
    (catalog : List ToolDefinition) (enabled : List String) : Prop where
  context : ∃ system window entries user, q.messages = system :: entries ++ [user] ∧
    Directs "You are a helpful AI assistant." prompt system ∧ IsWindow 10 history window ∧
    List.Forall₂ Repeats window entries ∧ Says .user message user
  offers : (∃ t ∈ catalog, t.name ∈ enabled) →
    q.tools = some (catalog.filter fun t => t.name ∈ enabled) ∧ q.toolChoice = some "auto"
  offersNone : (∀ t ∈ catalog, t.name ∉ enabled) → q.tools = none ∧ q.toolChoice = none

/-- A descriptor repeats a call, with its arguments as they were written. -/
structure Describes (c : ToolCall) (d : CallDescriptor) : Prop where
  id : d.id = c.id
  kind : d.kind = "function"
  name : d.name = c.name
  arguments : d.arguments = c.rawArguments

/-- An entry answers a recorded call: under its id, with a text that is read as its result. -/
structure Answers (r : ToolCallRecord) (e : ChatMessage) : Prop where
  role : e.role = .tool
  callId : e.toolCallId = some r.id
  noCalls : e.toolCalls = none
  content : ∃ text, e.content = some text ∧ decodeText ToolResult.decode text = .ok r.result

/-- The entry of the assistant that lists calls. -/
structure Lists (descriptors : List CallDescriptor) (e : ChatMessage) : Prop where
  role : e.role = .assistant
  noText : e.content = none
  noCall : e.toolCallId = none
  calls : e.toolCalls = some descriptors

/-- The request for the follow-up of a turn: the system directive, the last five messages before the
turn in order, the user's message, one entry with all calls, and one entry for each call. It names
no tools. -/
structure AsksFollowUp (q : Request) (prompt : String) (history : List Message) (message : String)
    (calls : List ToolCall) (records : List ToolCallRecord) : Prop where
  context : ∃ system window entries user list descriptors answers,
    q.messages = system :: entries ++ [user, list] ++ answers ∧
    Directs "You are a helpful assistant." prompt system ∧ IsWindow 5 history window ∧
    List.Forall₂ Repeats window entries ∧ Says .user message user ∧ Lists descriptors list ∧
    List.Forall₂ Describes calls descriptors ∧ List.Forall₂ Answers records answers
  offersNone : q.tools = none ∧ q.toolChoice = none

theorem answers_resultEntry {r : ToolCallRecord} (h : r.result.Fits) : Answers r (resultEntry r) :=
  ⟨rfl, rfl, rfl, r.result.doc.text, rfl, ToolResult.decodeText_doc h⟩

namespace Handler

variable {σ : Type} (h : Handler σ) (i : Input) (w : World σ)

theorem asksFirst_primaryRequest :
    AsksFirst (h.primaryRequest i (h.toolsIn i w)) i.systemPrompt i.history
    i.message (h.catalogIn w) i.enabledTools where
  context := ⟨_, _, _, _, rfl, directs_directive _ _, isWindow_lastOf 10 i.history,
    repeats_window _, says_plain _ _⟩
  offers := by
    rintro ⟨t, hmem, henabled⟩
    have hne : (h.toolsIn i w).isEmpty = false := by
      rw [List.isEmpty_eq_false_iff]
      exact List.ne_nil_of_mem ((h.mem_toolsIn i w).mpr ⟨hmem, henabled⟩)
    have htools : h.toolsIn i w = (h.catalogIn w).filter fun t => t.name ∈ i.enabledTools := by
      rw [h.toolsIn_eq]
      unfold filterEnabled
      exact List.filter_congr fun t _ => List.contains_eq_mem ..
    rw [← htools]
    unfold primaryRequest request
    simp only [hne, Bool.false_eq_true, if_false, and_self]
  offersNone := by
    intro hnone
    have hempty : (h.toolsIn i w).isEmpty = true := by
      rw [List.isEmpty_iff, List.eq_nil_iff_forall_not_mem]
      intro t ht
      obtain ⟨hmem, henabled⟩ := (h.mem_toolsIn i w).mp ht
      exact hnone t hmem henabled
    unfold primaryRequest request
    simp only [hempty, if_true, and_self]

theorem asksFollowUp_followUpRequest (calls : List ToolCall) {records : List ToolCallRecord}
    (hfits : ∀ r ∈ records, r.result.Fits) :
    AsksFollowUp (h.followUpRequest i calls records) i.systemPrompt
      i.history i.message calls records where
  context := by
    refine ⟨_, _, _, _, _, calls.map ToolCall.descriptor, records.map resultEntry, rfl,
      directs_directive _ _, isWindow_lastOf 5 i.history, repeats_window _, says_plain _ _,
      ⟨rfl, rfl, rfl, rfl⟩, ?_, ?_⟩
    · rw [List.forall₂_map_right_iff, List.forall₂_same]
      exact fun c _ => ⟨rfl, rfl, rfl, rfl⟩
    · rw [List.forall₂_map_right_iff, List.forall₂_same]
      exact fun r hr => answers_resultEntry (hfits r hr)
  offersNone := ⟨rfl, rfl⟩

theorem fits_of_recordOf {calls : List ToolCall} {records : List ToolCallRecord}
    (hall : List.Forall₂ (RecordOf h.executor) calls records) : ∀ r ∈ records, r.result.Fits := by
  induction hall with
  | nil => simp
  | cons hrecord _ ih =>
    rw [List.forall_mem_cons]
    obtain ⟨v, hresult⟩ := hrecord.result
    refine ⟨?_, ih⟩
    rw [hresult]
    exact fits_execute ..

end Handler

/-! ### Turns -/

/-- A turn with the given prompt, history, message and enabled tools has sent its requests. The
first completion is what the endpoint answers the first request with once the tools of the bridge
were listed; its calls get ids if they lack them, and are recorded in the outcome, one by one. -/
inductive SendsInContext {σ : Type} (h : Handler σ) (provider : Provider σ) (w : World σ)
    (prompt : String) (history : List Message) (message : String) (enabled : List String)
    (outcome : Except Completion.Failure TurnOutcome) : List Request → Prop
  | once {first : Request} (hfirst : AsksFirst first prompt history message (h.catalogIn w) enabled)
      (hcalls : asksFor provider first (h.executor.bridge.list w.outside).2 = []) :
      SendsInContext h provider w prompt history message enabled outcome [first]
  | twice {first followUp : Request} {calls : List ToolCall} {text : String}
      {records : List ToolCallRecord}
      (hfirst : AsksFirst first prompt history message (h.catalogIn w) enabled)
      (hcalls : calls.map (fun c => (c.name, c.rawArguments, c.arguments)) =
        (asksFor provider first (h.executor.bridge.list w.outside).2).map fun c =>
          (c.name, c.rawArguments, parseArguments c.rawArguments))
      (hne : calls ≠ []) (houtcome : outcome = .ok ⟨text, some records⟩)
      (hrecords : List.Forall₂ (fun c r => r.id = c.id ∧ r.name = c.name ∧
        r.arguments = c.arguments)
        calls records)
      (hfollowUp : AsksFollowUp followUp prompt history message calls records) :
      SendsInContext h provider w prompt history message enabled outcome [first, followUp]

/-- Of the world only the parties outside matter. -/
theorem SendsInContext.of_outside {σ : Type} {h : Handler σ} {provider : Provider σ}
    {w w' : World σ} {prompt message : String} {history : List Message} {enabled : List String}
    {outcome : Except Completion.Failure TurnOutcome} {sent : List Request}
    (hw : w.outside = w'.outside)
    (hs : SendsInContext h provider w prompt history message enabled outcome sent) :
    SendsInContext h provider w' prompt history message enabled outcome sent := by
  have hcatalog : h.catalogIn w = h.catalogIn w' := by
    unfold Handler.catalogIn
    rw [hw]
  cases hs with
  | once hfirst hcalls =>
    rw [hcatalog] at hfirst
    rw [hw] at hcalls
    exact .once hfirst hcalls
  | twice hfirst hcalls hne houtcome hrecords hfollowUp =>
    rw [hcatalog] at hfirst
    rw [hw] at hcalls
    exact .twice hfirst hcalls hne houtcome hrecords hfollowUp

/-- **The requests of a turn hold its context.** -/
theorem run_sends_in_context {σ : Type} {h : Handler σ} {log : σ → List Request} (hl : h.Logs log)
    (i : Input) (w : World σ) : ∃ sent, log ((h.run i).run w).2.outside = log w.outside ++ sent ∧
      (h.mode = .simulated → sent = []) ∧ ∀ provider, h.mode = .live provider →
        SendsInContext h provider w i.systemPrompt i.history i.message i.enabledTools
          ((h.run i).run w).1.outcome sent := by
  obtain ⟨sent, hlog, hnone, hsent⟩ := Handler.run_sends hl i w
  refine ⟨sent, hlog, hnone, fun provider hmode => ?_⟩
  have hfirst := h.asksFirst_primaryRequest i w
  have hraw := (h.brings_first i (h.listed i w) (h.toolsIn i w)).asked hmode
  rw [show (h.listed i w).outside = _ from congrArg World.outside (h.listed_eq i w)] at hraw
  obtain ⟨hcalls, rfl⟩ | ⟨hcalls, text, records, houtcome, rfl⟩ := hsent provider hmode
  · rw [hcalls] at hraw
    exact .once hfirst (List.map_eq_nil_iff.mp hraw.symm)
  · obtain ⟨-, hall⟩ := h.recorded_records i w houtcome
    have hrecords := hall records rfl
    have hfollowUp := h.asksFollowUp_followUpRequest i
      (h.firstCalls i (h.listed i w) (h.toolsIn i w)) (h.fits_of_recordOf hrecords)
    exact .twice hfirst hraw hcalls houtcome
      (hrecords.imp fun c r hr => ⟨hr.id, hr.name, hr.arguments⟩) hfollowUp

end Turn

end ChatRelay
