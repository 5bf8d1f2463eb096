import ChatRelay.Proofs.Turn.Requests

/-! # Which tools a turn runs

A turn hands the calls of its first completion to its executor, one after another and each once, and
does nothing else with it (`executes_run`). What it offers is another matter: the tools of the
catalog that the session has enabled. A simulated completion asks for offered tools only, but a live
one is not held to them. So a live turn keeps to the offered tools just if its completion does
(`runs_as_asked`), and a session without enabled tools can run one (`runs_disabled_tool`). -/

namespace ChatRelay.Turn

open Completion Session Tools

variable {σ : Type}

/-- The calls that a run has made, with their results. -/
def Run.records (r : Run) : List ToolCallRecord :=
  match r.outcome with
  | .ok o => o.toolCalls.getD []
  | .error _ => []

/-- The calls that a provider answers a request with, none if it fails. -/
def asksFor (provider : Provider σ) (r : Request) (s : σ) : List CallDraft :=
  if r.stream then
    match (provider.stream r s).1 with
    | .error _ => []
    | .ok items =>
      match (accumulate items).1 with
      | .error _ => []
      | .ok done => done.drafts
  else
    match (provider.complete r s).1 with
    | .error _ => []
    | .ok draft => draft.drafts

/-- The parties outside after a provider was asked. -/
def afterAsking (provider : Provider σ) (r : Request) (s : σ) : σ :=
  if r.stream then (provider.stream r s).2 else (provider.complete r s).2

/-- A tool of the name is offered. -/
def Offers (tools : List ToolDefinition) (name : String) : Prop := ∃ t ∈ tools, t.name = name

/-! ### Calls that are executed -/

/-- Calls are handed to an executor one after another, each once, in the world that the one before
has left. The record of a call repeats it and has what the executor makes of it. -/
inductive Executes (x : Executor σ) :
    List ToolCall → World σ → List ToolCallRecord → World σ → Prop
  | nil {w : World σ} : Executes x [] w [] w
  | cons {c : ToolCall} {calls : List ToolCall} {records : List ToolCallRecord}
      {result : ToolResult} {u v w : World σ}
      (hcall : (x.execute c.name c.arguments).run u = (result, v))
      (hrest : Executes x calls v records w) :
      Executes x (c :: calls) u (⟨c.id, c.name, c.arguments, result⟩ :: records) w

/-- Without records nothing was executed. -/
theorem Executes.calls_eq_nil {x : Executor σ} {calls : List ToolCall} {u v : World σ}
    (h : Executes x calls u [] v) : calls = [] := by
  cases h
  rfl

namespace Handler

/-- The first completion of a turn, asked for in the world `w`, brings calls: those of the
simulation, or those that the endpoint answers with, which get the ids that they lack. -/
inductive Brings (h : Handler σ) (i : Input) (tools : List ToolDefinition) (w : World σ) :
    List ToolCall → World σ → Prop
  | simulated (hmode : h.mode = .simulated) :
      Brings h i tools w (simulatedReply i.message tools w.draws).1.2
        { w with draws := (simulatedReply i.message tools w.draws).2 }
  | live {provider : Provider σ} {calls : List ToolCall} {draws : Draws}
      (hmode : h.mode = .live provider)
      (hcalls : completeCalls (asksFor provider (h.primaryRequest i tools) w.outside) w.draws =
        (calls, draws)) :
      Brings h i tools w calls ⟨afterAsking provider (h.primaryRequest i tools) w.outside, draws⟩

/-- What a turn does after its calls: an endpoint is asked once more if there were any. -/
inductive Closes (h : Handler σ) (i : Input) (calls : List ToolCall) (records : List ToolCallRecord)
    (w : World σ) : World σ → Prop
  | nothing (hcalls : calls = []) : Closes h i calls records w w
  | simulated (hmode : h.mode = .simulated) (hcalls : calls ≠ []) : Closes h i calls records w w
  | live {provider : Provider σ} (hmode : h.mode = .live provider) (hcalls : calls ≠ []) :
      Closes h i calls records w
        { w with outside := (provider.complete (h.followUpRequest i calls records) w.outside).2 }

end Handler

/-! ### First completions -/

/-- Completing a call changes neither its name nor the text of its arguments, and the arguments are
what the text means. -/
theorem completeCalls_asked (ds : List CallDraft) : ∀ d : Draws,
    (completeCalls ds d).1.map (fun c => (c.name, c.rawArguments, c.arguments)) =
      ds.map fun c => (c.name, c.rawArguments, parseArguments c.rawArguments) := by
  induction ds with
  | nil => exact fun d => rfl
  | cons c ds ih =>
    intro d
    have hrest := ih (c.complete d).2
    have hhead : ((c.complete d).1.name, (c.complete d).1.rawArguments,
      (c.complete d).1.arguments) =
        (c.name, c.rawArguments, parseArguments c.rawArguments) := by
      unfold CallDraft.complete
      cases c.id <;> simp only [ToolCall.ofRaw]
    rw [completeCalls, List.map_cons, List.map_cons, hrest, hhead]

/-- Calls have the names that were asked for. -/
theorem forall_names_iff {calls : List ToolCall} {asked : List CallDraft}
    (h : calls.map (fun c => (c.name, c.rawArguments, c.arguments)) =
      asked.map fun c => (c.name, c.rawArguments, parseArguments c.rawArguments))
    (p : String → Prop) : (∀ c ∈ calls, p c.name) ↔ ∀ c ∈ asked, p c.name := by
  have hnames := congrArg (List.map Prod.fst) h
  rw [List.map_map, List.map_map] at hnames
  have hiff : (∀ n ∈ calls.map (·.name), p n) ↔ ∀ n ∈ asked.map (·.name), p n := by
    rw [show calls.map (·.name) = asked.map (·.name) from hnames]
  rwa [List.forall_mem_map, List.forall_mem_map] at hiff

/-- A simulated completion picks its tool among those that are offered. -/
theorem offers_simulatedReply {message : String} {tools : List ToolDefinition} {d : Draws}
    {c : ToolCall} (hc : c ∈ (simulatedReply message tools d).1.2) : Offers tools c.name := by
  unfold simulatedReply at hc
  cases ht : Topic.of? message tools with
  | none => simp [ht] at hc
  | some t =>
    simp only [ht, List.mem_singleton] at hc
    have hpicked := List.find?_some ht
    rw [Bool.and_eq_true] at hpicked
    obtain ⟨u, hu, hname⟩ := List.any_eq_true.mp hpicked.1
    rw [hc]
    exact ⟨u, hu, by simpa using hname⟩

namespace Handler

variable (h : Handler σ) (i : Input) (w : World σ)

theorem Brings.offers {h : Handler σ} {i : Input} {tools : List ToolDefinition} {w u : World σ}
    {calls : List ToolCall} (hb : h.Brings i tools w calls u) (hmode : h.mode = .simulated) :
    ∀ c ∈ calls, Offers tools c.name := by
  cases hb with
  | simulated => exact fun c hc => offers_simulatedReply hc
  | live hlive =>
    rw [hmode] at hlive
    cases hlive

/-- A live completion brings the calls that the endpoint answers with. -/
theorem Brings.completed {h : Handler σ} {i : Input} {tools : List ToolDefinition} {w u : World σ}
    {calls : List ToolCall} {provider : Provider σ} (hb : h.Brings i tools w calls u)
    (hmode : h.mode = .live provider) : calls =
      (completeCalls (asksFor provider (h.primaryRequest i tools) w.outside) w.draws).1 := by
  cases hb with
  | simulated hsimulated =>
    rw [hmode] at hsimulated
    cases hsimulated
  | live hlive hcalls =>
    rw [hmode] at hlive
    cases hlive
    rw [hcalls]

theorem Brings.asked {h : Handler σ} {i : Input} {tools : List ToolDefinition} {w u : World σ}
    {calls : List ToolCall} {provider : Provider σ} (hb : h.Brings i tools w calls u)
    (hmode : h.mode = .live provider) :
    calls.map (fun c => (c.name, c.rawArguments, c.arguments)) =
      (asksFor provider (h.primaryRequest i tools) w.outside).map fun c =>
        (c.name, c.rawArguments, parseArguments c.rawArguments) := by
  rw [hb.completed hmode]
  exact completeCalls_asked _ w.draws

theorem Brings.draws {h : Handler σ} {i : Input} {tools : List ToolDefinition} {w u : World σ}
    {calls : List ToolCall} {provider : Provider σ} (hb : h.Brings i tools w calls u)
    (hmode : h.mode = .live provider) : u.draws =
      (completeCalls (asksFor provider (h.primaryRequest i tools) w.outside) w.draws).2 := by
  cases hb with
  | simulated hsimulated =>
    rw [hmode] at hsimulated
    cases hsimulated
  | live hlive hcalls =>
    rw [hmode] at hlive
    cases hlive
    rw [hcalls]

/-- A follow-up draws nothing. -/
theorem Closes.draws {h : Handler σ} {i : Input} {calls : List ToolCall}
    {records : List ToolCallRecord} {v x : World σ} (hc : h.Closes i calls records v x) :
    x.draws = v.draws := by
  cases hc <;> rfl

/-- **The first completion** brings the calls that it is asked for, and nothing else happens. -/
theorem brings_first (tools : List ToolDefinition) :
    h.Brings i tools w (h.firstCalls i w tools) ((h.first i tools).run w).2 := by
  unfold firstCalls
  cases hmode : h.mode with
  | simulated =>
    rw [h.first_simulated i w hmode]
    exact .simulated hmode
  | live provider =>
    have hstream : (h.primaryRequest i tools).stream = i.streamed := rfl
    have hlive := @Brings.live σ h i tools w provider
    unfold asksFor afterAsking at hlive
    cases hst : i.streamed with
    | false =>
      rw [hstream, hst] at hlive
      rw [h.first_whole i w tools hmode hst]
      unfold answeredWhole
      cases hr : (provider.complete (h.primaryRequest i tools) w.outside).1 with
      | error f =>
        rw [hr] at hlive
        exact hlive hmode rfl
      | ok draft =>
        rw [hr] at hlive
        exact hlive hmode rfl
    | true =>
      rw [hstream, hst] at hlive
      rw [h.first_streamed i w tools hmode hst]
      unfold answeredInPieces
      cases hr : (provider.stream (h.primaryRequest i tools) w.outside).1 with
      | error f =>
        rw [hr] at hlive
        exact hlive hmode rfl
      | ok items =>
        rw [hr] at hlive
        simp only at hlive ⊢
        generalize accumulate items = result at hlive ⊢
        obtain ⟨f | done, chunks⟩ := result
        · exact hlive hmode rfl
        · exact hlive hmode rfl

/-! ### Runs -/

theorem executes_runCalls (calls : List ToolCall) : ∀ u : World σ,
    Executes h.executor calls u ((h.runCalls calls).run u).1 ((h.runCalls calls).run u).2 := by
  induction calls with
  | nil => exact fun u => .nil
  | cons c calls ih =>
    intro u
    exact .cons rfl (ih ((h.executor.execute c.name c.arguments).run u).2)

theorem closes_followUp {calls : List ToolCall} (hcalls : calls ≠ [])
    (records : List ToolCallRecord) :
    h.Closes i calls records w ((h.followUp i calls records).run w).2 := by
  cases hmode : h.mode with
  | simulated =>
    have hrun : ((h.followUp i calls records).run w).2 = w := by
      unfold followUp
      rw [hmode]
      rfl
    rw [hrun]
    exact .simulated hmode hcalls
  | live provider =>
    have hrun : ((h.followUp i calls records).run w).2 =
        { w with outside := (provider.complete (h.followUpRequest i calls records)
            w.outside).2 } := by
      unfold followUp
      rw [hmode]
      simp only
      rw [Act.run_bind, Act.run_ask]
      cases (provider.complete (h.followUpRequest i calls records) w.outside).1 <;> rfl
    rw [hrun]
    exact .live hmode hcalls

theorem listed_eq : h.listed i w = { w with outside := (h.executor.bridge.list w.outside).2 } := by
  unfold listed offered
  rw [Act.run_bind, Act.run_ask]
  cases (h.executor.bridge.list w.outside).1 <;> rfl

/-- **All that a turn does**: it lists the tools of the bridge, has its first completion, executes
the calls of that, and has its follow-up. -/
theorem executes_run : ∃ u v,
    h.Brings i (h.toolsIn i w) (h.listed i w) (h.firstCalls i (h.listed i w) (h.toolsIn i w)) u ∧
      Executes h.executor (h.firstCalls i (h.listed i w) (h.toolsIn i w)) u
        ((h.run i).run w).1.records v ∧
      h.Closes i (h.firstCalls i (h.listed i w) (h.toolsIn i w)) ((h.run i).run w).1.records v
        ((h.run i).run w).2 := by
  have hbrings := h.brings_first i (h.listed i w) (h.toolsIn i w)
  have hruns := h.runs_run i w
  generalize (h.run i).run w = result at hruns
  unfold firstCalls at hbrings ⊢
  cases hruns with
  | @fails f chunks u hfirst =>
    rw [hfirst] at hbrings ⊢
    exact ⟨u, u, hbrings, .nil, .nothing rfl⟩
  | @answers first chunks u hfirst hcalls =>
    rw [hfirst] at hbrings ⊢
    simp only [hcalls] at hbrings ⊢
    exact ⟨u, u, hbrings, .nil, .nothing rfl⟩
  | @callsTools first chunks u v x records text hfirst hcalls hrecords htext =>
    rw [hfirst] at hbrings ⊢
    have hexecutes := h.executes_runCalls first.calls u
    have hcloses := h.closes_followUp i v hcalls records
    rw [hrecords] at hexecutes
    rw [htext] at hcloses
    exact ⟨u, v, hbrings, hexecutes, hcloses⟩

/-- A turn without calls has not run any tool: with other tools behind the executor it is the
same. -/
theorem run_of_no_calls (hnone : h.firstCalls i (h.listed i w) (h.toolsIn i w) = [])
    {x : Executor σ} (hlist : x.bridge.list = h.executor.bridge.list) :
    (({ h with executor := x } : Handler σ).run i).run w = (h.run i).run w := by
  let g : Handler σ := { h with executor := x }
  have hoffered : g.offered i.enabledTools = h.offered i.enabledTools := by
    unfold offered
    rw [hlist]
  have hfirst (tools : List ToolDefinition) : g.first i tools = h.first i tools := rfl
  show (g.run i).run w = (h.run i).run w
  unfold run
  rw [hoffered, Act.run_bind, Act.run_bind, Act.run_bind, Act.run_bind, hfirst]
  unfold firstCalls toolsIn listed at hnone
  generalize (h.first i ((h.offered i.enabledTools).run w).1).run
    ((h.offered i.enabledTools).run w).2 =
    result at hnone ⊢
  obtain ⟨⟨f | first, chunks⟩, u⟩ := result
  · rfl
  · have hcalls : first.calls = [] := hnone
    simp only [hcalls, List.isEmpty_nil, if_true]

end Handler

/-- **A turn runs what it is asked for.** What it offers is in the catalog and enabled. Between its
first completion and its follow-up it hands the calls of the first completion to the executor, in
order and each once, and it executes nothing else. Without a live endpoint all these calls are for
offered tools, so nothing runs if nothing is enabled. With one they are the calls of its reply,
whatever they name, with the arguments that their texts mean; so all that runs is offered just if
the endpoint asks for offered tools only. A turn that records no call has executed none, and other
tools make no difference to it. -/
theorem runs_as_asked (h : Handler σ) (i : Input) (w : World σ) :
    let tools := h.toolsIn i w
    let listed : World σ := { w with outside := (h.executor.bridge.list w.outside).2 }
    let records := ((h.run i).run w).1.records
    (∀ t, t ∈ tools ↔ t ∈ h.catalogIn w ∧ t.name ∈ i.enabledTools) ∧
      ∃ calls u v, h.Brings i tools listed calls u ∧ Executes h.executor calls u records v ∧
        h.Closes i calls records v ((h.run i).run w).2 ∧
        (h.mode = .simulated →
          (∀ c ∈ calls, Offers tools c.name) ∧ (i.enabledTools = [] → calls = [])) ∧
        (∀ provider, h.mode = .live provider →
          let asked := asksFor provider (h.primaryRequest i tools) listed.outside
          calls.map (fun c => (c.name, c.rawArguments, c.arguments)) =
              asked.map (fun c => (c.name, c.rawArguments, parseArguments c.rawArguments)) ∧
            ((∀ c ∈ calls, Offers tools c.name) ↔ ∀ c ∈ asked, Offers tools c.name)) ∧
        (records = [] → calls = [] ∧ ∀ x : Executor σ, x.bridge.list = h.executor.bridge.list →
          (({ h with executor := x } : Handler σ).run i).run w = (h.run i).run w) := by
  intro tools listed records
  have htools : ∀ t, t ∈ tools ↔ t ∈ h.catalogIn w ∧ t.name ∈ i.enabledTools :=
    fun t => h.mem_toolsIn i w
  have hlisted : h.listed i w = listed := h.listed_eq i w
  obtain ⟨u, v, hbrings, hexecutes, hcloses⟩ := h.executes_run i w
  have hnone := h.run_of_no_calls i w
  rw [hlisted] at hbrings hexecutes hcloses hnone
  generalize h.firstCalls i listed (h.toolsIn i w) = calls at hbrings hexecutes hcloses hnone
  refine ⟨htools, calls, u, v, hbrings, hexecutes, hcloses, fun hmode => ?_, fun provider hmode =>
    ?_, fun hempty => ?_⟩
  · have hoffers := hbrings.offers hmode
    refine ⟨hoffers, fun henabled => List.eq_nil_iff_forall_not_mem.mpr fun c hc => ?_⟩
    -- nothing is offered, so nothing that runs could be
    obtain ⟨t, ht, -⟩ := hoffers c hc
    have hmem := ((htools t).mp ht).2
    rw [henabled] at hmem
    cases hmem
  · intro asked
    have hasked := hbrings.asked hmode
    exact ⟨hasked, forall_names_iff hasked (Offers tools)⟩
  · rw [show ((h.run i).run w).1.records = [] from hempty] at hexecutes
    exact ⟨hexecutes.calls_eq_nil, fun x hlist => hnone hexecutes.calls_eq_nil hlist⟩

/-- A buffered turn of a session with the given tools enabled. -/
def weatherTurn (enabledTools : List String) : Input :=
  ⟨"What is the weather in Paris?", [], "", enabledTools, "m", false⟩

/-- Simulated completions, and nobody outside. -/
def simulatedHandler : Handler Unit :=
  ⟨.simulated, 100, ⟨⟨fun _ s => (.error "", s)⟩, .none, none, ""⟩⟩

/-- Parties of which the endpoint asks for the structured store. -/
def storeAsked : Script where
  tools := []
  listError := none
  answers := []
  completions := [.ok ⟨none, [⟨some "c", storeTool, "\x7b\"query\":\"q\"\x7d"⟩]⟩]
  streams := []
  seen := []

theorem runs_as_asked_weather :
    let w : World Unit := ⟨(), ⟨0, 0⟩⟩
    let s : World Script := ⟨storeAsked, ⟨0, 0⟩⟩
    let live := Handler.scripted 100
    let turn := weatherTurn [storeTool]
    (∃ calls u v, simulatedHandler.mode = .simulated ∧
        Executes simulatedHandler.executor calls u
          ((simulatedHandler.run (weatherTurn [weatherTool])).run w).1.records v ∧
        ∀ c ∈ calls, Offers (simulatedHandler.toolsIn (weatherTurn [weatherTool]) w) c.name) ∧
      ((simulatedHandler.run (weatherTurn [])).run w).1.records = [] ∧
      ∃ calls u v, live.mode = .live Script.provider ∧
        Executes live.executor calls u ((live.run turn).run s).1.records v ∧
        calls.map (·.name) = [storeTool] ∧ ∀ c ∈ calls, Offers (live.toolsIn turn s) c.name := by
  intro w s live turn
  obtain ⟨-, busy, u, v, -, hbusy, -, hsimulated, -⟩ :=
    runs_as_asked simulatedHandler (weatherTurn [weatherTool]) w
  obtain ⟨-, idle, u', v', -, hidle, -, hnothing, -⟩ :=
    runs_as_asked simulatedHandler (weatherTurn []) w
  obtain ⟨-, calls, u'', v'', -, hlive, -, -, hasked, -⟩ := runs_as_asked live turn s
  obtain ⟨hwritten, hoffers⟩ := hasked Script.provider rfl
  have hdrafts : (asksFor Script.provider (live.primaryRequest turn (live.toolsIn turn s))
      (live.executor.bridge.list s.outside).2).map (·.name) = [storeTool] := by decide +kernel
  have hnames : calls.map (·.name) = [storeTool] := by
    have hfirst := congrArg (List.map Prod.fst) hwritten
    rw [List.map_map, List.map_map] at hfirst
    exact Eq.trans hfirst hdrafts
  have hoffered : (live.toolsIn turn s).map (·.name) = [storeTool] := by decide +kernel
  refine ⟨⟨busy, u, v, rfl, hbusy, (hsimulated rfl).1⟩, ?_, calls, u'', v'', rfl, hlive, hnames,
    fun c hc => ?_⟩
  · rw [(hnothing rfl).2 rfl] at hidle
    cases hrecords : ((simulatedHandler.run (weatherTurn [])).run w).1.records with
    | nil => rfl
    | cons r records =>
      rw [hrecords] at hidle
      cases hidle
  · have hname : c.name ∈ (live.toolsIn turn s).map (·.name) := by
      rw [hoffered, ← hnames]
      exact List.mem_map_of_mem hc
    exact List.mem_map.mp hname

/-- **A disabled tool that runs.** Nothing is enabled, so nothing is offered, but the endpoint asks
for the structured store, and the turn executes that call, which draws a number for its receipt. -/
theorem runs_disabled_tool :
    let h := Handler.scripted 100
    let w : World Script := ⟨storeAsked, ⟨0, 0⟩⟩
    h.toolsIn (weatherTurn []) w = [] ∧
      ∃ c u v, h.Brings (weatherTurn []) [] (h.listed (weatherTurn []) w) [c] u ∧
        Executes h.executor [c] u ((h.run (weatherTurn [])).run w).1.records v ∧
        c.name = storeTool ∧ ¬ Offers (h.toolsIn (weatherTurn []) w) c.name ∧
        u.draws.used = 0 ∧ v.draws.used = 1 ∧
        ((h.run (weatherTurn [])).run w).2.draws.used = 1 := by
  intro h w
  have htools : h.toolsIn (weatherTurn []) w = [] := by
    refine List.eq_nil_iff_forall_not_mem.mpr fun t ht => ?_
    have henabled := ((h.mem_toolsIn (weatherTurn []) w).mp ht).2
    cases henabled
  have hnames : (h.firstCalls (weatherTurn []) (h.listed (weatherTurn []) w) []).map (·.name) =
      [storeTool] := by decide +kernel
  obtain ⟨c, hcalls, hname⟩ := List.map_eq_singleton_iff.mp hnames
  obtain ⟨u, v, hbrings, hexecutes, hcloses⟩ := h.executes_run (weatherTurn []) w
  rw [htools, hcalls] at hbrings hexecutes hcloses
  -- the first completion draws nothing, since its call has an id, and the whole turn draws once
  have hfirst : (completeCalls (asksFor Script.provider (h.primaryRequest (weatherTurn []) [])
      (h.listed (weatherTurn []) w).outside) (h.listed (weatherTurn []) w).draws).2.used = 0 := by
    decide +kernel
  have hturn : ((h.run (weatherTurn [])).run w).2.draws.used = 1 := by decide +kernel
  have hoffers : ¬ Offers (h.toolsIn (weatherTurn []) w) c.name := by
    rw [htools]
    rintro ⟨t, ht, -⟩
    cases ht
  have hu : u.draws.used = 0 := (congrArg Draws.used (hbrings.draws rfl)).trans hfirst
  have hv : v.draws.used = 1 := (congrArg Draws.used hcloses.draws).symm.trans hturn
  exact ⟨htools, c, u, v, hbrings, hexecutes, hname, hoffers, hu, hv, hturn⟩

end ChatRelay.Turn
