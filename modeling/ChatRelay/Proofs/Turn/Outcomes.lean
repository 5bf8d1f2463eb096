import ChatRelay.Proofs.Turn.Chunks
import ChatRelay.Proofs.Turn.OfferedTools
import ChatRelay.Proofs.Turn.SteadyTools
import Mathlib.Data.List.Forall2

/-! # What a turn comes to

A turn fails just if its endpoint brings no first completion: the endpoint refuses, or a failure
stands among the items of its stream (`outcome_error_iff`). Whatever happens to the catalog, to a
tool or to the follow-up ends up in an outcome, whose text is never blank. The outcome records the
calls of the first completion one by one, each with what its tool gives for it alone
(`recorded_records`), and the endpoint is asked a second time just if there are any. -/

namespace ChatRelay

/-! ### Failures of completions -/

namespace Completion

/-- The first failure among the items of a stream. -/
def failureIn? (items : List StreamItem) : Option Failure :=
  items.findSome? fun
    | .error f => some f
    | .ok _ => none

theorem accumulateFrom_error_iff {items : List StreamItem} {f : Failure} : ∀ {a : Accumulator},
    (accumulateFrom a items).1 = .error f ↔ failureIn? items = some f := by
  induction items with
  | nil =>
    intro a
    simp [accumulateFrom, failureIn?]
  | cons item items ih =>
    intro a
    cases item with
    | error e => simp [accumulateFrom, failureIn?]
    | ok d => exact ih

end Completion

namespace Turn

open Completion Session Tools

variable {σ : Type}

/-- Why a provider brings no completion for a request: it refuses, or an item of its stream is a
failure. None if it brings one. -/
def refusal? (provider : Provider σ) (r : Request) (s : σ) : Option Completion.Failure :=
  if r.stream then
    match (provider.stream r s).1 with
    | .error f => some f
    | .ok items => failureIn? items
  else
    match (provider.complete r s).1 with
    | .error f => some f
    | .ok _ => none

/-! ### Texts that are not blank -/

theorem not_isBlankText_orElse {fallback : String} (h : Text.isBlankText fallback = false)
    (text : String) : Text.isBlankText (orElse fallback text) = false := by
  unfold orElse
  split
  · exact h
  · next hfull => exact Bool.eq_false_iff.mpr hfull

theorem not_isBlankText_toolsAcknowledgement (records : List ToolCallRecord) :
    Text.isBlankText (toolsAcknowledgement records) = false := by
  have hstart : Text.isBlankText (toString "I ran ") = false := by decide +kernel
  unfold toolsAcknowledgement
  simp only [Text.isBlankText_append]
  rw [hstart]
  rfl

theorem not_isBlankText_retell (r : ToolCallRecord) : Text.isBlankText (retell r) = false := by
  have hweather : Text.isBlankText (toString "It is currently ") = false := by decide +kernel
  have hcontent : Text.isBlankText (toString "Here is what ") = false := by decide +kernel
  have herror : Text.isBlankText (toString "The ") = false := by decide +kernel
  unfold retell
  split
  · simp only [Text.isBlankText_append, hweather, Bool.false_and]
  · simp only [Text.isBlankText_append, hcontent, Bool.false_and]
  · simp only [Text.isBlankText_append, herror, Bool.false_and]

theorem not_isBlankText_simulatedFollowUp {records : List ToolCallRecord} (h : records ≠ []) :
    Text.isBlankText (simulatedFollowUp records) = false := by
  obtain ⟨r, rest, rfl⟩ := List.exists_cons_of_ne_nil h
  unfold simulatedFollowUp
  cases rest with
  | nil => simpa using not_isBlankText_retell r
  | cons next rest =>
    rw [List.map_cons, List.map_cons, String.intercalate_cons_cons, Text.isBlankText_append,
      Text.isBlankText_append, not_isBlankText_retell]
    rfl

/-! ### Records -/

/-- The record of a call: it repeats the call, and its result is what the tool gives for it in some
world. If the parties behind the executor are steady, the result is that of the call alone: it
depends on nothing but the fresh values that it draws, and for all tools but two it draws none. -/
structure RecordOf (x : Executor σ) (c : ToolCall) (r : ToolCallRecord) : Prop where
  id : r.id = c.id
  name : r.name = c.name
  arguments : r.arguments = c.arguments
  result : ∃ v, r.result = ((x.execute c.name c.arguments).run v).1
  drawn : x.Steady → ∃ d, ∀ v : World σ, v.draws = d →
    r.result = ((x.execute c.name c.arguments).run v).1
  alone : x.Steady → c.name ≠ weatherTool → c.name ≠ storeTool →
    ∀ v, r.result = ((x.execute c.name c.arguments).run v).1

namespace Handler

variable (h : Handler σ) (i : Input) (w : World σ)

theorem recordOf_runCall (c : ToolCall) : RecordOf h.executor c ((h.runCall c).run w).1 where
  id := rfl
  name := rfl
  arguments := rfl
  result := ⟨w, rfl⟩
  drawn hx := ⟨w.draws, fun _ hv => hx.result_of_draws c.name c.arguments hv.symm⟩
  alone hx hweather hstore v := hx.result_of_name hweather hstore c.arguments w v

/-- Every call gets its record, in order, whatever became of the calls before it. -/
theorem recordOf_runCalls (calls : List ToolCall) : ∀ u : World σ,
    List.Forall₂ (RecordOf h.executor) calls ((h.runCalls calls).run u).1 := by
  induction calls with
  | nil => exact fun u => .nil
  | cons c calls ih =>
    intro u
    have hrest := ih ((h.runCall c).run u).2
    exact .cons (h.recordOf_runCall u c) hrest

/-! ### First completions -/

theorem first_error_iff {provider : Provider σ} (hmode : h.mode = .live provider)
    {tools : List ToolDefinition} {f : Completion.Failure} :
    ((h.first i tools).run w).1.1 = .error f ↔
      refusal? provider (h.primaryRequest i tools) w.outside = some f := by
  have hstream : (h.primaryRequest i tools).stream = i.streamed := rfl
  unfold refusal?
  cases hst : i.streamed with
  | false =>
    rw [h.first_whole i w tools hmode hst, hstream, hst]
    cases (provider.complete (h.primaryRequest i tools) w.outside).1 <;> simp
  | true =>
    rw [h.first_streamed i w tools hmode hst, hstream, hst]
    cases (provider.stream (h.primaryRequest i tools) w.outside).1 with
    | error e => simp
    | ok items =>
      have hfold : (accumulate items).1 = .error f ↔ failureIn? items = some f :=
        accumulateFrom_error_iff
      simp only [if_true]
      rw [← hfold]
      obtain ⟨e | done, chunks⟩ := accumulate items <;> simp

/-! ### Follow-ups -/

theorem not_isBlankText_followUp (calls : List ToolCall) {records : List ToolCallRecord}
    (hrecords : records ≠ []) :
    Text.isBlankText ((h.followUp i calls records).run w).1 = false := by
  have hempty : Text.isBlankText emptyFollowUpText = false := by decide +kernel
  unfold followUp
  cases h.mode with
  | simulated => exact not_isBlankText_simulatedFollowUp hrecords
  | live provider =>
    simp only
    rw [Act.run_bind, Act.run_ask]
    cases (provider.complete (h.followUpRequest i calls records) w.outside).1 with
    | error f => exact not_isBlankText_toolsAcknowledgement records
    | ok draft => exact not_isBlankText_orElse hempty _

/-! ### Runs -/

/-- **A turn fails just if its first completion does.** -/
theorem outcome_error_iff {f : Completion.Failure} : ((h.run i).run w).1.outcome = .error f ↔
    ∃ provider, h.mode = .live provider ∧
      refusal? provider (h.primaryRequest i (h.toolsIn i w)) (h.listed i w).outside = some f := by
  have hfails : ((h.run i).run w).1.outcome = .error f ↔
      ((h.first i (h.toolsIn i w)).run (h.listed i w)).1.1 = .error f := by
    have hruns := h.runs_run i w
    generalize (h.run i).run w = result at hruns
    cases hruns with
    | fails hfirst => simp [hfirst]
    | answers hfirst => simp [hfirst]
    | callsTools hfirst => simp [hfirst]
  rw [hfails]
  constructor
  · intro herror
    cases hmode : h.mode with
    | simulated =>
      rw [h.first_simulated i _ hmode] at herror
      cases herror
    | live provider => exact ⟨provider, rfl, (h.first_error_iff i _ hmode).mp herror⟩
  · rintro ⟨provider, hmode, hrefusal⟩
    exact (h.first_error_iff i _ hmode).mpr hrefusal

theorem recorded_records {o : TurnOutcome} (ho : ((h.run i).run w).1.outcome = .ok o) :
    let calls := h.firstCalls i (h.listed i w) (h.toolsIn i w)
    (o.toolCalls = none ↔ calls = []) ∧
      ∀ records ∈ o.toolCalls, List.Forall₂ (RecordOf h.executor) calls records := by
  intro calls
  have hcalls : calls = h.firstCalls i (h.listed i w) (h.toolsIn i w) := rfl
  unfold firstCalls at hcalls
  have hruns := h.runs_run i w
  revert ho
  generalize (h.run i).run w = result at hruns
  cases hruns with
  | fails hfirst =>
    intro ho
    cases ho
  | answers hfirst hnone =>
    intro ho
    cases ho
    rw [hfirst] at hcalls
    exact ⟨iff_of_true rfl (hcalls.trans hnone), fun records hr => nomatch hr⟩
  | @callsTools first chunks u v x records text hfirst hsome hrecords htext =>
    intro ho
    cases ho
    rw [hfirst] at hcalls
    rw [hcalls]
    refine ⟨iff_of_false (fun hnone => nomatch hnone) hsome, fun others hothers => ?_⟩
    cases hothers
    have hall := h.recordOf_runCalls first.calls u
    rwa [hrecords] at hall

/-- The text of an outcome says something. -/
theorem not_isBlankText_content {o : TurnOutcome} (ho : ((h.run i).run w).1.outcome = .ok o) :
    Text.isBlankText o.content = false := by
  have hempty : Text.isBlankText emptyCompletionText = false := by decide +kernel
  have hruns := h.runs_run i w
  revert ho
  generalize (h.run i).run w = result at hruns
  cases hruns with
  | fails hfirst =>
    intro ho
    cases ho
  | answers hfirst hnone =>
    intro ho
    cases ho
    exact not_isBlankText_orElse hempty _
  | @callsTools first chunks u v x records text hfirst hsome hrecords htext =>
    intro ho
    cases ho
    have hlength := (h.recordOf_runCalls first.calls u).length_eq
    rw [hrecords] at hlength
    have hne : records ≠ [] := by
      rintro rfl
      exact hsome (List.length_eq_zero_iff.mp hlength)
    have htold := h.not_isBlankText_followUp i v first.calls hne
    rwa [htext] at htold

/-- How often the endpoint is asked. -/
theorem length_log {log : σ → List Request} (hl : h.Logs log) :
    let calls := h.firstCalls i (h.listed i w) (h.toolsIn i w)
    ∃ sent, log ((h.run i).run w).2.outside = log w.outside ++ sent ∧
      (h.mode = .simulated → sent = []) ∧
      ∀ provider, h.mode = .live provider → sent.length = if calls = [] then 1 else 2 := by
  intro calls
  obtain ⟨sent, hlog, hsent⟩ := run_log hl i w
  refine ⟨sent, hlog, fun hmode => ?_, fun provider hmode => ?_⟩
  · have hfirst : h.firstRequests i (h.toolsIn i w) = [] := firstRequests_eq_nil_iff.mpr hmode
    rcases hsent with ⟨-, rfl⟩ | ⟨-, text, records, -, rfl⟩
    · exact hfirst
    · rw [hfirst]
      unfold secondRequests
      rw [hmode]
      rfl
  · rcases hsent with ⟨hnone, rfl⟩ | ⟨hsome, text, records, -, rfl⟩
    · rw [if_pos hnone]
      unfold firstRequests
      rw [hmode]
      rfl
    · rw [if_neg hsome]
      unfold firstRequests secondRequests
      rw [hmode]
      rfl

end Handler

/-- **What a turn comes to.** Its first completion brings the calls of the simulation, or those that
its endpoint answers with. It fails just if there is an endpoint and that brings no first
completion, and with the endpoint's own failure. Otherwise its text is not blank; there are records
just if the first completion has calls, and then one for each, in order, that repeats the call and
has the result of that call alone. Without an endpoint nothing is asked; an endpoint is asked twice
if there are calls, and once if not. -/
theorem turn_outcome (h : Handler σ) (i : Input) (w : World σ) :
    let outcome := ((h.run i).run w).1.outcome
    let request := h.primaryRequest i (h.toolsIn i w)
    let calls := h.firstCalls i (h.listed i w) (h.toolsIn i w)
    (∃ u, h.Brings i (h.toolsIn i w) (h.listed i w) calls u) ∧
      (∀ provider, h.mode = .live provider →
        calls.map (fun c => (c.name, c.rawArguments, c.arguments)) =
          (asksFor provider request (h.listed i w).outside).map fun c =>
            (c.name, c.rawArguments, parseArguments c.rawArguments)) ∧
      (∀ f, outcome = .error f ↔ ∃ provider, h.mode = .live provider ∧
        refusal? provider request (h.listed i w).outside = some f) ∧
      (∀ o, outcome = .ok o → Text.isBlankText o.content = false ∧
        (o.toolCalls = none ↔ calls = []) ∧
        ∀ records ∈ o.toolCalls, List.Forall₂ (RecordOf h.executor) calls records) ∧
      ∀ log : σ → List Request, h.Logs log →
        ∃ sent, log ((h.run i).run w).2.outside = log w.outside ++ sent ∧
          (h.mode = .simulated → sent = []) ∧
          ∀ provider, h.mode = .live provider → sent.length = if calls = [] then 1 else 2 :=
  have hbrings := h.brings_first i (h.listed i w) (h.toolsIn i w)
  ⟨⟨_, hbrings⟩, fun _ hmode => hbrings.asked hmode, fun _ => h.outcome_error_iff i w,
    fun _ ho => ⟨h.not_isBlankText_content i w ho, h.recorded_records i w ho⟩,
    fun _ hl => h.length_log i w hl⟩

/-- An endpoint that asks for a tool of the bridge and for a search and is gone after that; a stream
of it breaks at once. The bridge has no tools. All that is known outside are the requests so far. -/
def goneAfterCalls : Handler (List Request) where
  mode := .live
    { complete := fun r s =>
      (if s.isEmpty then .ok ⟨none, [⟨some "a", "kv", ""⟩, ⟨some "b", searchTool, ""⟩]⟩
        else .error (.connectionFailed "e" "gone"), s ++ [r])
      stream := fun r s => (.ok [.error (.streamError "cut")], s ++ [r]) }
  maxTokens := 100
  executor := ⟨⟨fun _ s => (.error "", s)⟩, .none, none, ""⟩

theorem turn_outcome_goneAfterCalls :
    let h := goneAfterCalls
    let w : World (List Request) := ⟨[], ⟨0, 0⟩⟩
    let i : Input := ⟨"hi", [], "", [], "m", false⟩
    let calls := h.firstCalls i (h.listed i w) (h.toolsIn i w)
    ((h.run { i with streamed := true }).run w).1.outcome = .error (.streamError "cut") ∧
      (∃ o, ((h.run i).run w).1.outcome = .ok o ∧ Text.isBlankText o.content = false ∧
        ∃ records ∈ o.toolCalls, records.length = 2 ∧
          List.Forall₂ (RecordOf h.executor) calls records) ∧
      h.executor.Steady ∧ h.Logs id ∧
      ∃ sent, ((h.run i).run w).2.outside = sent ∧ sent.length = 2 := by
  intro h w i calls
  have hlogs : h.Logs id :=
    ⟨fun _ hp _ _ => by cases hp; rfl, fun _ hp _ _ => by cases hp; rfl, fun _ => rfl, fun _ _ _ =>
      rfl, fun _ _ => rfl⟩
  have hcalls : calls.map (·.name) = ["kv", searchTool] := by decide +kernel
  have hne : calls ≠ [] := by
    intro hnil
    rw [hnil] at hcalls
    cases hcalls
  obtain ⟨-, -, hfails, -, -⟩ := turn_outcome h { i with streamed := true } w
  obtain ⟨-, -, -, hok, hlog⟩ := turn_outcome h i w
  refine ⟨(hfails _).mpr ⟨_, rfl, rfl⟩, ?_, ⟨fun _ _ _ => rfl, fun _ _ => rfl, fun _ _ _ _ => rfl⟩,
    hlogs, ?_⟩
  · obtain ⟨o, ho⟩ : ∃ o, ((h.run i).run w).1.outcome = .ok o := ⟨_, rfl⟩
    obtain ⟨hfull, hnone, hrecords⟩ := hok o ho
    obtain ⟨records, hsome⟩ := Option.ne_none_iff_exists'.mp (mt hnone.mp hne)
    have hall := hrecords records hsome
    refine ⟨o, ho, hfull, records, hsome, ?_, hall⟩
    have htwo := congrArg List.length hcalls
    rw [← hall.length_eq]
    simpa using htwo
  · obtain ⟨sent, hsent, -, hlive⟩ := hlog id hlogs
    have htwo := hlive _ rfl
    rw [if_neg hne] at htwo
    exact ⟨sent, hsent, htwo⟩

end Turn

end ChatRelay
