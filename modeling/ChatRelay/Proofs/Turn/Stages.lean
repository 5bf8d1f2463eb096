import ChatRelay.Proofs.Turn.Effects

/-! # The stages of a turn

A turn lists the tools, gets its first completion, and then is over or runs the calls and gets a
follow-up. `Handler.Runs` lists the three ways in which this can go, so that what holds of a turn is
proved over its cases. -/

namespace ChatRelay.Turn

open Completion Session Tools

namespace Handler

variable {σ : Type} (h : Handler σ) (i : Input) (w : World σ)

/-- The tools that a turn offers in a world. -/
def toolsIn : List ToolDefinition := ((h.offered i.enabledTools).run w).1

/-- The world in which a turn asks for its first completion. -/
def listed : World σ := ((h.offered i.enabledTools).run w).2

/-- The catalog that a turn finds: without the bridge if that does not answer. -/
def catalogIn : List ToolDefinition :=
  catalog ((h.executor.bridge.list w.outside).1.toOption.getD [])

theorem toolsIn_eq : h.toolsIn i w = filterEnabled i.enabledTools (h.catalogIn w) := by
  unfold toolsIn catalogIn offered
  rw [Act.run_bind, Act.run_ask]
  cases (h.executor.bridge.list w.outside).1 <;> rfl

/-- **An offered tool is in the catalog and enabled.** -/
theorem mem_toolsIn {t : ToolDefinition} :
    t ∈ h.toolsIn i w ↔ t ∈ h.catalogIn w ∧ t.name ∈ i.enabledTools := by
  rw [toolsIn_eq, filterEnabled, List.mem_filter, List.contains_iff_mem]

/-- What a turn comes to, and the world after it. -/
inductive Runs : Run × World σ → Prop
  /-- There is no first completion. -/
  | fails {f : Completion.Failure} {chunks : List String} {u : World σ}
      (hfirst : (h.first i (h.toolsIn i w)).run (h.listed i w) = ((.error f, chunks), u)) :
      Runs (⟨.error f, chunks⟩, u)
  /-- The first completion has no calls. -/
  | answers {first : First} {chunks : List String} {u : World σ}
      (hfirst : (h.first i (h.toolsIn i w)).run (h.listed i w) = ((.ok first, chunks), u))
      (hcalls : first.calls = []) :
      Runs (⟨.ok ⟨orElse emptyCompletionText first.text, none⟩, chunks⟩, u)
  | callsTools {first : First} {chunks : List String} {u v x : World σ}
      {records : List ToolCallRecord} {text : String}
      (hfirst : (h.first i (h.toolsIn i w)).run (h.listed i w) = ((.ok first, chunks), u))
      (hcalls : first.calls ≠ []) (hrecords : (h.runCalls first.calls).run u = (records, v))
      (htext : (h.followUp i first.calls records).run v = (text, x)) :
      Runs (⟨.ok ⟨text, some records⟩,
        chunks ++ if i.streamed then h.followUpChunks first.text text else []⟩, x)

/-- **A turn runs in one of these ways.** -/
theorem runs_run : h.Runs i w ((h.run i).run w) := by
  unfold run
  rw [Act.run_bind, Act.run_bind]
  generalize hfirst : (h.first i ((h.offered i.enabledTools).run w).1).run
    ((h.offered i.enabledTools).run w).2 = result
  obtain ⟨⟨f | first, chunks⟩, u⟩ := result
  · exact .fails hfirst
  · by_cases hcalls : first.calls = []
    · simp only [hcalls, List.isEmpty_nil, if_true]
      exact .answers hfirst hcalls
    · have hne : first.calls.isEmpty = false := by simpa using hcalls
      simp only [hne, Bool.false_eq_true, if_false]
      exact .callsTools hfirst hcalls rfl rfl

/-! ### First completions -/

/-- The calls of the first completion, none if there is no completion. -/
def firstCalls (tools : List ToolDefinition) : List ToolCall :=
  match ((h.first i tools).run w).1.1 with
  | .ok first => first.calls
  | .error _ => []

theorem first_simulated (hmode : h.mode = .simulated) (tools : List ToolDefinition) :
    (h.first i tools).run w =
      ((.ok ⟨(simulatedReply i.message tools w.draws).1.1,
        (simulatedReply i.message tools w.draws).1.2⟩, if i.streamed
          then words (simulatedReply i.message tools w.draws).1.1 else []),
        { w with draws := (simulatedReply i.message tools w.draws).2 }) := by
  unfold first
  rw [hmode]
  rfl

section live

variable {provider : Provider σ} (tools : List ToolDefinition)

/-- The world after the first request was answered whole. -/
def answeredWhole (provider : Provider σ) (i : Input) (tools : List ToolDefinition)
    (w : World σ) : World σ :=
  { w with outside := (provider.complete (h.primaryRequest i tools) w.outside).2 }

/-- The world after the first request was answered by a stream. -/
def answeredInPieces (provider : Provider σ) (i : Input) (tools : List ToolDefinition)
    (w : World σ) : World σ :=
  { w with outside := (provider.stream (h.primaryRequest i tools) w.outside).2 }

theorem first_whole (hmode : h.mode = .live provider) (hst : i.streamed = false) :
    (h.first i tools).run w =
      match (provider.complete (h.primaryRequest i tools) w.outside).1 with
      | .error f => ((.error f, []), h.answeredWhole provider i tools w)
      | .ok draft =>
        ((.ok ⟨draft.content.getD "", (completeCalls draft.drafts w.draws).1⟩, []),
          { h.answeredWhole provider i tools w
            with draws := (completeCalls draft.drafts w.draws).2 }) := by
  unfold first
  rw [hmode, hst]
  simp only [Bool.false_eq_true, if_false]
  rw [Act.run_bind, Act.run_ask]
  cases (provider.complete (h.primaryRequest i tools) w.outside).1 <;> rfl

theorem first_streamed (hmode : h.mode = .live provider) (hst : i.streamed = true) :
    (h.first i tools).run w =
      match (provider.stream (h.primaryRequest i tools) w.outside).1 with
      | .error f => ((.error f, []), h.answeredInPieces provider i tools w)
      | .ok items =>
        match accumulate items with
        | (.error f, chunks) => ((.error f, chunks), h.answeredInPieces provider i tools w)
        | (.ok done, chunks) =>
          ((.ok ⟨done.fullText, (completeCalls done.drafts w.draws).1⟩, chunks),
            { h.answeredInPieces provider i tools w with
              draws := (completeCalls done.drafts w.draws).2 }) := by
  unfold first
  rw [hmode, hst]
  simp only [if_true]
  rw [Act.run_bind, Act.run_ask]
  cases (provider.stream (h.primaryRequest i tools) w.outside).1 with
  | error f => rfl
  | ok items =>
    simp only
    obtain ⟨f | done, chunks⟩ := accumulate items <;> rfl

end live

end Handler

end ChatRelay.Turn
