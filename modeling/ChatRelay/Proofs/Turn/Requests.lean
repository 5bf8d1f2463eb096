import ChatRelay.Proofs.Turn.Stages
import ChatRelay.Turn.Script

/-! # The requests of a turn

A turn asks its endpoint once, and a second time if the first completion has calls; without a live
endpoint it asks nothing. Who keeps a log of requests outside therefore finds one or two more of
them after a turn (`run_log`), and all of them carry the model that the turn runs with. Tools have
no part in this: they talk to the bridge and to web servers. -/

namespace ChatRelay.Turn

open Completion Session Tools

variable {σ : Type}

/-- The parties outside keep a log of the requests that a handler sends for completions. -/
structure Handler.Logs (h : Handler σ) (log : σ → List Request) : Prop where
  complete : ∀ provider, h.mode = .live provider →
    ∀ r s, log (provider.complete r s).2 = log s ++ [r]
  stream : ∀ provider, h.mode = .live provider → ∀ r s, log (provider.stream r s).2 = log s ++ [r]
  list : ∀ s, log (h.executor.bridge.list s).2 = log s
  call : ∀ name arguments s, log (h.executor.bridge.call name arguments s).2 = log s
  send : ∀ r s, log (h.executor.network.send r s).2 = log s

namespace Handler

variable {h : Handler σ} {log : σ → List Request}

/-- Tools ask nothing of the endpoint. -/
theorem Logs.respectful (hl : h.Logs log) :
    h.executor.Respectful fun w w' => log w'.outside = log w.outside where
  refl _ := rfl
  trans h h' := h'.trans h
  draw _ _ := rfl
  send r _ w := hl.send r w.outside
  list w := hl.list w.outside
  call name arguments w := hl.call name arguments w.outside

theorem log_listed (hl : h.Logs log) (i : Input) (w : World σ) :
    log (h.listed i w).outside = log w.outside := respects_offered hl.respectful i.enabledTools w

/-- The request for the first completion, if there is an endpoint to ask. -/
def firstRequests (h : Handler σ) (i : Input) (tools : List ToolDefinition) : List Request :=
  match h.mode with
  | .live _ => [h.primaryRequest i tools]
  | .simulated => []

/-- The request for the follow-up, if there is an endpoint to ask. -/
def secondRequests (h : Handler σ) (i : Input) (calls : List ToolCall)
    (records : List ToolCallRecord) : List Request :=
  match h.mode with
  | .live _ => [h.followUpRequest i calls records]
  | .simulated => []

theorem log_first (hl : h.Logs log) (i : Input) (tools : List ToolDefinition) (w : World σ) :
    log ((h.first i tools).run w).2.outside = log w.outside ++ h.firstRequests i tools := by
  have hcomplete := hl.complete
  have hstream := hl.stream
  unfold firstRequests
  cases hmode : h.mode with
  | simulated =>
    rw [h.first_simulated i w hmode]
    exact (List.append_nil _).symm
  | live provider =>
    simp only
    -- streamed or not, the endpoint gets the one request before anything else happens
    cases hst : i.streamed with
    | true =>
      rw [h.first_streamed i w tools hmode hst]
      have hsent := hstream provider hmode (h.primaryRequest i tools) w.outside
      cases (provider.stream (h.primaryRequest i tools) w.outside).1 with
      | error f => exact hsent
      | ok items =>
        simp only
        obtain ⟨f | done, chunks⟩ := accumulate items
        · exact hsent
        · exact hsent
    | false =>
      rw [h.first_whole i w tools hmode hst]
      have hsent := hcomplete provider hmode (h.primaryRequest i tools) w.outside
      cases (provider.complete (h.primaryRequest i tools) w.outside).1 with
      | error f => exact hsent
      | ok draft => exact hsent

theorem log_followUp (hl : h.Logs log) (i : Input) (calls : List ToolCall)
    (records : List ToolCallRecord)
    (w : World σ) : log ((h.followUp i calls records).run w).2.outside =
      log w.outside ++ h.secondRequests i calls records := by
  have hcomplete := hl.complete
  unfold followUp secondRequests
  cases hmode : h.mode with
  | simulated => exact (List.append_nil _).symm
  | live provider =>
    have hsent := hcomplete provider hmode (h.followUpRequest i calls records) w.outside
    simp only
    rw [Act.run_bind, Act.run_ask]
    cases hreply : (provider.complete (h.followUpRequest i calls records) w.outside).1 with
    | error f => exact hsent
    | ok draft => exact hsent

/-- **The requests of a turn.** The first is for the first completion and offers the tools that are
enabled; a second, if there are calls, is for the follow-up, which tells what the outcome records of
them. -/
theorem run_log (hl : h.Logs log) (i : Input) (w : World σ) :
    let calls := h.firstCalls i (h.listed i w) (h.toolsIn i w)
    ∃ sent, log ((h.run i).run w).2.outside = log w.outside ++ sent ∧
      (calls = [] ∧ sent = h.firstRequests i (h.toolsIn i w) ∨
        calls ≠ [] ∧ ∃ text records, ((h.run i).run w).1.outcome = .ok ⟨text, some records⟩ ∧
          sent = h.firstRequests i (h.toolsIn i w) ++ h.secondRequests i calls records) := by
  intro calls
  have hfirstlog := log_first hl i (h.toolsIn i w) (h.listed i w)
  rw [log_listed hl] at hfirstlog
  have hcalls : calls = h.firstCalls i (h.listed i w) (h.toolsIn i w) := rfl
  unfold firstCalls at hcalls
  have hruns := h.runs_run i w
  generalize (h.run i).run w = result at hruns
  cases hruns with
  | fails hfirst =>
    rw [hfirst] at hfirstlog hcalls
    exact ⟨_, hfirstlog, .inl ⟨hcalls, rfl⟩⟩
  | answers hfirst hnone =>
    rw [hfirst] at hfirstlog hcalls
    exact ⟨_, hfirstlog, .inl ⟨hcalls.trans hnone, rfl⟩⟩
  | @callsTools first chunks u v x records text hfirst hsome hrecords htext =>
    rw [hfirst] at hfirstlog hcalls
    have hquiet := respects_runCalls hl.respectful first.calls u
    have hsecond := log_followUp hl i first.calls records v
    rw [hrecords] at hquiet
    rw [htext, hquiet, hfirstlog, List.append_assoc] at hsecond
    rw [hcalls]
    exact ⟨_, hsecond, .inr ⟨hsome, text, records, rfl, rfl⟩⟩

/-- **What a turn sends**: nothing without an endpoint. An endpoint gets the request for the first
completion and, if that has calls, the one for the follow-up. -/
theorem run_sends (hl : h.Logs log) (i : Input) (w : World σ) :
    let calls := h.firstCalls i (h.listed i w) (h.toolsIn i w)
    let primary := h.primaryRequest i (h.toolsIn i w)
    ∃ sent, log ((h.run i).run w).2.outside = log w.outside ++ sent ∧
      (h.mode = .simulated → sent = []) ∧
      ∀ provider, h.mode = .live provider →
        calls = [] ∧ sent = [primary] ∨
          calls ≠ [] ∧ ∃ text records, ((h.run i).run w).1.outcome = .ok ⟨text, some records⟩ ∧
            sent = [primary, h.followUpRequest i calls records] := by
  intro calls primary
  obtain ⟨sent, hlog, hsent⟩ := run_log hl i w
  unfold firstRequests secondRequests at hsent
  refine ⟨sent, hlog, fun hmode => ?_, fun provider hmode => ?_⟩
  · rw [hmode] at hsent
    obtain ⟨-, hsent⟩ | ⟨-, text, records, -, hsent⟩ := hsent <;> exact hsent
  · rw [hmode] at hsent
    exact hsent

theorem firstRequests_eq_nil_iff {i : Input} {tools : List ToolDefinition} :
    h.firstRequests i tools = [] ↔ h.mode = .simulated := by
  unfold firstRequests
  cases h.mode <;> simp

/-- **Every request of a turn carries the model that the turn runs with.** If there is an endpoint,
it gets at least one. -/
theorem run_log_model (hl : h.Logs log) (i : Input) (w : World σ) :
    ∃ sent, log ((h.run i).run w).2.outside = log w.outside ++ sent ∧
      (sent = [] ↔ h.mode = .simulated) ∧ ∀ r ∈ sent, r.model = i.model := by
  have hfirst (tools) : ∀ r ∈ h.firstRequests i tools, r.model = i.model := by
    unfold firstRequests
    cases h.mode <;> simp [primaryRequest, request]
  have hsecond (calls records) : ∀ r ∈ h.secondRequests i calls records, r.model = i.model := by
    unfold secondRequests
    cases h.mode <;> simp [followUpRequest, request]
  obtain ⟨sent, hlog, ⟨-, rfl⟩ | ⟨-, text, records, -, rfl⟩⟩ := run_log hl i w
  · exact ⟨_, hlog, firstRequests_eq_nil_iff, hfirst _⟩
  · refine ⟨_, hlog, ?_, fun r hr => ?_⟩
    · rw [List.append_eq_nil_iff, firstRequests_eq_nil_iff]
      refine and_iff_left_of_imp fun hmode => ?_
      unfold secondRequests
      rw [hmode]
    · rcases List.mem_append.mp hr with hr | hr
      · exact hfirst _ r hr
      · exact hsecond _ _ r hr

end Handler

/-! ### Scripted parties -/

/-- A script keeps a log of the requests it gets. -/
def Script.log (s : Script) : List Request := s.seen.reverse

/-- A handler whose endpoint and bridge are scripted, and that has no network. -/
def Handler.scripted (maxTokens : Nat) : Handler Script where
  mode := .live Script.provider
  maxTokens
  executor := ⟨⟨fun _ s => (.error "", s)⟩, Script.bridge, none, ""⟩

theorem Handler.logs_scripted (maxTokens : Nat) : (Handler.scripted maxTokens).Logs Script.log where
  complete provider hp r s := by
    cases hp
    obtain ⟨tools, listError, answers, completions, streams, seen⟩ := s
    cases completions <;> simp [Script.provider, Script.log]
  stream provider hp r s := by
    cases hp
    obtain ⟨tools, listError, answers, completions, streams, seen⟩ := s
    cases streams <;> simp [Script.provider, Script.log]
  list _ := rfl
  call _ _ _ := rfl
  send _ _ := rfl

end ChatRelay.Turn
