import ChatRelay.Proofs.Bridge.Dispatch
import Mathlib.Algebra.Order.BigOperators.Group.List
import Mathlib.Algebra.Order.Ring.Nat

/-! # Whole tasks as runs

A listing makes the steps of one task in a row (`list_is_run`), and calls that are made together
make those of several tasks in turn (`callTogether_is_run`). So what holds in every run holds of
them. The turns suffice for every call to end (`ends_takeTurns`); hence a single call ends with a
result of its own (`call_is_run`). -/

namespace ChatRelay.Bridge

open Json Completion Client

variable {σ : Type} {servers : Servers σ}

/-! ### Moves -/

namespace SharedClient

theorem afterAll_cons (s : SharedClient σ) (m : TaskMove) (ms : List TaskMove) :
    s.afterAll servers (m :: ms) = (s.after servers m).afterAll servers ms := rfl

theorem afterAll_append (s : SharedClient σ) (ms more : List TaskMove) :
    s.afterAll servers (ms ++ more) = (s.afterAll servers ms).afterAll servers more :=
  List.foldl_append

theorem after_step {s : SharedClient σ} {i : Nat} {t : Task} (ht : s.tasks[i]? = some t)
    (timing : Timing) : s.after servers (.step i timing) =
      ⟨((t.step servers timing).run s.client).2,
        s.tasks.set i ((t.step servers timing).run s.client).1⟩ := by
  unfold after
  dsimp only
  rw [ht]
  rfl

theorem after_step_none {s : SharedClient σ} {i : Nat} (ht : s.tasks[i]? = none) (timing : Timing) :
    s.after servers (.step i timing) = s := by
  unfold after
  dsimp only
  rw [ht]

theorem step_to {s : SharedClient σ} {i : Nat} {t t' : Task} {c' : Client σ} (timing : Timing)
    (ht : s.tasks[i]? = some t) (h : (t.step servers timing).run s.client = (t', c')) :
    (s.after servers (.step i timing)).client = c' ∧
    (s.after servers (.step i timing)).tasks[i]? = some t' := by
  rw [after_step ht, h]
  exact ⟨rfl, List.getElem?_set_self (List.getElem?_eq_some_iff.mp ht).1⟩

/-- The last task makes a step. -/
theorem after_step_last (c : Client σ) (ts : List Task) (t : Task) (timing : Timing) :
    (⟨c, ts ++ [t]⟩ : SharedClient σ).after servers (.step ts.length timing) =
      ⟨((t.step servers timing).run c).2, ts ++ [((t.step servers timing).run c).1]⟩ := by
  rw [after_step (t := t) (by simp)]
  simp

/-- Steps of some tasks by their numbers. -/
def steps (ms : List (Nat × Timing)) : List TaskMove := ms.map fun m => .step m.1 m.2

theorem steps_append (ms more : List (Nat × Timing)) :
    steps (ms ++ more) = steps ms ++ steps more :=
  List.map_append

end SharedClient

/-! ### Listings -/

theorem listServers_cons (server : String) (rest : List String) (round : List (String × ToolsReply))
    (c : Client σ) : (listServers servers (server :: rest) (foundIn round)).run c =
      (listServers servers rest
        (foundIn (round ++ [(server, ((askTools servers server).run c).1)]))).run
        ((askTools servers server).run c).2 := by
  rw [foundIn_concat]
  change (listServers servers rest
    (foundIn round ++ ((listServer servers server).run c).1.map (server, ·))).run
    ((listServer servers server).run c).2 = _
  rw [listServer_run]

/-- The steps that are left of a listing make the rest of it. -/
theorem listServers_is_run (servers : Servers σ) (ts : List Task) (rest : List String) :
    ∀ (round : List (String × ToolsReply)) (c : Client σ), RoundFits round → ∃ n round' c',
      (listServers servers rest (foundIn round) >>= settle).run c = (toolsAfter round', c') ∧
        c'.routes = tableAfter round' ∧ round'.map Prod.fst = round.map Prod.fst ++ rest ∧
        RoundFits round' ∧
      (⟨c, ts ++ [⟨round, [], .listing rest⟩]⟩ : SharedClient σ).afterAll servers
          (SharedClient.steps (List.replicate n (ts.length, .inTime))) =
        ⟨c', ts ++ [⟨round', [], .listed (toolsAfter round')⟩]⟩ := by
  induction rest with
  | nil =>
    intro round c fits
    refine ⟨1, round, _, rfl, rfl, (List.append_nil _).symm, fits, ?_⟩
    change (⟨c, ts ++ [⟨round, [], .listing []⟩]⟩ : SharedClient σ).after servers
      (.step ts.length .inTime) = _
    rw [SharedClient.after_step_last]
    rfl
  | cons server rest ih =>
    intro round c fits
    have fits' := @RoundFits.concat round fits server _ (replyFits_askTools servers server c)
    have more : (listServers servers (server :: rest) (foundIn round) >>= settle).run c =
        (listServers servers rest
          (foundIn (round ++ [(server, ((askTools servers server).run c).1)])) >>=
          settle).run ((askTools servers server).run c).2 := by
      rw [StateT.run_bind, StateT.run_bind, listServers_cons]
    have step := listOn_run servers .inTime ⟨round, [], .listing (server :: rest)⟩ (server :: rest)
      (fun rest _ => .listing rest) .listed c
    rw [askNext_run] at step
    rw [more]
    cases rest with
    | nil =>
      -- the last answer ends the listing within its step
      refine ⟨1, _, _, rfl, rfl, List.map_append, fits', ?_⟩
      change (⟨c, ts ++ [⟨round, [], .listing [server]⟩]⟩ : SharedClient σ).after servers
        (.step ts.length .inTime) = _
      rw [SharedClient.after_step_last]
      unfold Task.step
      dsimp only
      rw [step]
      rfl
    | cons next rest =>
      obtain ⟨n, round', c', hwhole, htable, hasked, hfits, hrun⟩ :=
        ih (round ++ [(server, ((askTools servers server).run c).1)])
          ((askTools servers server).run c).2 fits'
      refine ⟨n + 1, round', c', hwhole, htable, by simpa using hasked, hfits, ?_⟩
      rw [List.replicate_succ]
      change ((⟨c, ts ++ [⟨round, [], .listing (server :: next :: rest)⟩]⟩ : SharedClient σ).after
        servers (.step ts.length .inTime)).afterAll servers _ = _
      rw [SharedClient.after_step_last]
      unfold Task.step
      dsimp only
      rw [step]
      exact hrun

/-- **A listing is a run** of one task. -/
theorem list_is_run (servers : Servers σ) (s : SharedClient σ) : ∃ n round c' tools,
    (Client.list servers).run s.client = (tools, c') ∧
    Agrees s.client.names round tools c'.routes ∧
    s.afterAll servers (.list :: SharedClient.steps (List.replicate n (s.tasks.length, .inTime))) =
      ⟨c', s.tasks ++ [⟨round, [], .listed tools⟩]⟩ := by
  obtain ⟨n, round, c', hwhole, htable, hasked, hfits, hrun⟩ :=
    listServers_is_run servers s.tasks s.client.names [] s.client fun _ h =>
      (List.not_mem_nil h).elim
  exact ⟨n, round, c', _, hwhole, htable ▸ agrees_settled hfits hasked, hrun⟩

/-! ### Steps of calls -/

theorem settle_run (k : Call) (found : List (String × ToolDefinition)) (c : Client σ) :
    (settle found >>= fun _ => get >>= fun c => match c.routes.lookup k.tool with
      | some server => (pure { k with stage := .calling server } : ClientAct σ Call)
      | none => pure { k with stage := .done (.error (.unknownTool k.tool)) }) c =
      ({ k with stage := stageFor (tableOf (distinct found)) k.tool },
        { c with routes := tableOf (distinct found) }) := by
  change (match (tableOf (distinct found)).lookup k.tool with
    | some server => (pure { k with stage := .calling server } : ClientAct σ Call)
    | none => pure { k with stage := .done (.error (.unknownTool k.tool)) })
      { c with routes := tableOf (distinct found) } = _
  unfold stageFor
  cases (tableOf (distinct found)).lookup k.tool <;> rfl

/-- A step of a call that lists asks the next server; after the last the table is set, and the call
looks into it at once. -/
theorem step_listing_run {k : Call} {round : List (String × ToolsReply)} {rest : List String}
    (hstage : k.stage = .listing rest (foundIn round)) (late : Bool) (c : Client σ) :
    (k.step servers late).run c =
      match (Task.askNext servers .inTime round rest).run c with
      | ((round, []), c) =>
        ({ k with stage := stageFor (tableAfter round) k.tool },
          { c with routes := tableAfter round })
      | ((round, rest), c) => ({ k with stage := .listing rest (foundIn round) }, c) := by
  rw [askNext_run]
  unfold Call.step
  rw [hstage]
  cases rest with
  | nil => exact settle_run k (foundIn round) c
  | cons server rest =>
    dsimp only
    rw [StateT.run_bind, listServer_run]
    cases rest with
    | nil =>
      refine (settle_run k _ _).trans ?_
      rw [← foundIn_concat]
      rfl
    | cons next rest =>
      have found := foundIn_concat round server ((askTools servers server).run c).1
      exact congrArg (fun found => ({ k with stage := .listing (next :: rest) found }, _))
        found.symm

/-- A call that does not list ends with its next step. -/
theorem step_ends (servers : Servers σ) {k : Call}
    (hstage : ∀ rest found, k.stage ≠ .listing rest found) (late : Bool) (c : Client σ) :
    ∃ r, ((k.step servers late).run c).1 = { k with stage := .done r } := by
  obtain ⟨tool, arguments, stage⟩ := k
  cases stage with
  | listing rest found => exact (hstage rest found rfl).elim
  | calling server => exact ⟨_, rfl⟩
  | done r => exact ⟨r, rfl⟩

theorem stageFor_ne_listing {table : RouteTable} {tool : String} (rest : List String)
    (found : List (String × ToolDefinition)) : stageFor table tool ≠ .listing rest found := by
  unfold stageFor
  cases table.lookup tool with
  | none => nofun
  | some server => nofun

/-- The task of a number is at a call; if that lists tools, it has found what its round lists. -/
def SharedClient.IsAt (s : SharedClient σ) (i : Nat) (k : Call) : Prop :=
  ∃ t, s.tasks[i]? = some t ∧ t.work = .call k ∧
    ∀ rest found, k.stage = .listing rest found → found = foundIn t.round

namespace SharedClient

/-- Steps of one task that make a step of its call. -/
def Makes (servers : Servers σ) (s : SharedClient σ) (i : Nat) (x : Call × Client σ) : Prop :=
  ∃ ms : List (Nat × Timing), (∀ m ∈ ms, m.1 = i) ∧ (s.afterAll servers (steps ms)).client = x.2 ∧
    (s.afterAll servers (steps ms)).IsAt i x.1

theorem makes_listing {s : SharedClient σ} {i : Nat} {t : Task} {k : Call} {rest : List String}
    (ht : s.tasks[i]? = some t) (hk : t.work = .call k)
    (hstage : k.stage = .listing rest (foundIn t.round)) (late : Bool) :
    s.Makes servers i ((k.step servers late).run s.client) := by
  have hstep := listOn_run servers .inTime t rest
    (fun rest found => .call { k with stage := .listing rest found }) (fun _ => .looking k) s.client
  rw [← step_listing_call hk hstage] at hstep
  rw [step_listing_run hstage]
  generalize (Task.askNext servers .inTime t.round rest).run s.client = asked at hstep ⊢
  obtain ⟨⟨round', rest'⟩, c'⟩ := asked
  obtain ⟨hclient, ht'⟩ := step_to _ ht hstep
  cases rest' with
  | nil =>
    -- the call looks into the table in a step of its own
    obtain ⟨hclient', ht''⟩ :=
      step_to .inTime ht' (lookAgain_run { t with round := round', work := .looking k } k _)
    refine ⟨[(i, .inTime), (i, .inTime)], by simp, hclient'.trans hclient, _, ht'', ?_, ?_⟩
    · rw [hclient]
    · exact fun rest found h => (stageFor_ne_listing rest found h).elim
  | cons next rest' =>
    refine ⟨[(i, .inTime)], by simp, hclient, _, ht', rfl, ?_⟩
    rintro rest found ⟨⟩
    rfl

/-- A step of a call is made by steps of its task. -/
theorem IsAt.makes (servers : Servers σ) {s : SharedClient σ} {i : Nat} {k : Call} (h : s.IsAt i k)
    (late : Bool) :
    s.Makes servers i ((k.step servers late).run s.client) := by
  obtain ⟨t, ht, hk, hfound⟩ := h
  by_cases hlisting : ∃ rest found, k.stage = .listing rest found
  · obtain ⟨rest, found, hstage⟩ := hlisting
    exact makes_listing ht hk (hstage.trans (congrArg _ (hfound _ _ hstage))) late
  · have hstage : ∀ rest found, k.stage ≠ .listing rest found :=
      fun rest found h => hlisting ⟨rest, found, h⟩
    obtain ⟨r, hr⟩ := step_ends servers hstage late s.client
    have hstep := step_call_run servers hk hstage (if late then .late else .inTime) s.client
    have same : k.stepIn servers (if late then .late else .inTime) = k.step servers late := by
      cases late <;> rfl
    rw [same] at hstep
    obtain ⟨hclient, ht'⟩ := step_to _ ht hstep
    refine ⟨[(i, if late then .late else .inTime)], by simp, hclient, _, ht', rfl,
      fun rest found h => ?_⟩
    rw [hr] at h
    cases h

/-- Steps of others leave a task where it is. -/
theorem IsAt.other {s : SharedClient σ} {i j : Nat} {k : Call} (h : s.IsAt i k) (ne : j ≠ i)
    (timing : Timing) : (s.after servers (.step j timing)).IsAt i k := by
  obtain ⟨t, ht, hk⟩ := h
  cases hu : s.tasks[j]? with
  | none =>
    rw [after_step_none hu]
    exact ⟨t, ht, hk⟩
  | some u =>
    rw [after_step hu]
    exact ⟨t, (List.getElem?_set_ne ne).trans ht, hk⟩

theorem IsAt.others {i : Nat} {k : Call} (ms : List (Nat × Timing)) :
    ∀ {s : SharedClient σ}, s.IsAt i k →
    (∀ m ∈ ms, m.1 ≠ i) → (s.afterAll servers (steps ms)).IsAt i k := by
  induction ms with
  | nil => exact fun h _ => h
  | cons m ms ih =>
    intro s h ne
    rw [List.forall_mem_cons] at ne
    exact ih (h.other ne.1 m.2) ne.2

end SharedClient

/-! ### Calls in turn -/

/-- Steps that are left of a call at most. -/
def Client.Stage.left : Stage → Nat
  | .listing rest _ => max rest.length 1 + 1
  | .calling _ => 1
  | .done _ => 0

theorem left_stageFor (table : RouteTable) (tool : String) : (stageFor table tool).left ≤ 1 := by
  unfold stageFor
  cases table.lookup tool with
  | none => exact Nat.zero_le 1
  | some server => exact Nat.le_refl 1

/-- A step changes the stage of a call only, and there are fewer left if there were any. -/
theorem step_stage (servers : Servers σ) (k : Call) (late : Bool) (c : Client σ) :
    ∃ stage, ((k.step servers late).run c).1 = { k with stage } ∧
    (k.stage.left ≠ 0 → stage.left < k.stage.left) := by
  obtain ⟨tool, arguments, stage⟩ := k
  cases stage with
  | done r => exact ⟨.done r, rfl, fun h => (h rfl).elim⟩
  | calling server => exact ⟨_, rfl, fun _ => Nat.zero_lt_one⟩
  | listing rest found =>
    cases rest with
    | nil =>
      refine ⟨_, congrArg Prod.fst (settle_run ⟨tool, arguments, .listing [] found⟩ found c),
        fun _ => ?_⟩
      exact Nat.lt_of_le_of_lt (left_stageFor ..) (Nat.lt_succ_self 1)
    | cons server rest =>
      cases rest with
      | nil =>
        refine ⟨_, congrArg Prod.fst (settle_run ⟨tool, arguments, .listing [server] found⟩
          (found ++ ((listServer servers server).run c).1.map (server, ·))
            ((listServer servers server).run c).2),
          fun _ => ?_⟩
        exact Nat.lt_of_le_of_lt (left_stageFor ..) (Nat.lt_succ_self 1)
      | cons next rest =>
        refine ⟨.listing (next :: rest) _, rfl, fun _ => ?_⟩
        simp [Stage.left]

theorem stage_of_result? {k : Call} {r : Except Failure String} (h : k.result? = some r) :
    k.stage = .done r := by
  unfold Call.result? at h
  cases hstage : k.stage with
  | done r' =>
    rw [hstage] at h
    rw [Option.some.inj h]
  | listing rest found => simp [hstage] at h
  | calling server => simp [hstage] at h

theorem left_of_result? {k : Call} (h : k.result? = none) : k.stage.left ≠ 0 := by
  unfold Call.result? at h
  cases hstage : k.stage with
  | done r => simp [hstage] at h
  | listing rest found => exact Nat.succ_ne_zero _
  | calling server => exact Nat.one_ne_zero

/-- What the next turn leads to. -/
theorem takeTurns_cons (servers : Servers σ) (steps : Nat) (held : List String) (n : Nat) (k : Call)
    (rest : List (Nat × Call)) (c : Client σ) :
    ∃ late held', (takeTurns servers (steps + 1) held ((n, k) :: rest)).run c =
      match ((k.step servers late).run c).1.result? with
      | some r => ((n, r) :: ((takeTurns servers steps held' rest).run
          ((k.step servers late).run c).2).1,
            ((takeTurns servers steps held' rest).run ((k.step servers late).run c).2).2)
      | none => (takeTurns servers steps held' (rest ++ [(n, ((k.step servers late).run c).1)])).run
          ((k.step servers late).run c).2 := by
  refine ⟨(k.server?.map held.contains).getD false,
    if ((k.step servers ((k.server?.map held.contains).getD
    false)).run c).1.isTimedOut then k.server?.toList ++ held else held, ?_⟩
  generalize hlate : (k.server?.map held.contains).getD false = late
  change (let late := (k.server?.map held.contains).getD false
    let held' := if ((k.step servers late).run c).1.isTimedOut then k.server?.toList ++ held
      else held
    match ((k.step servers late).run c).1.result? with
      | some r => (do return (n, r) :: (← takeTurns servers steps held' rest) : ClientAct σ _)
      | none => takeTurns servers steps held' (rest ++ [(n, ((k.step servers late).run c).1)]))
    ((k.step servers ((k.server?.map held.contains).getD false)).run c).2 = _
  rw [hlate]
  dsimp only
  cases ((k.step servers late).run c).1.result? <;> rfl

/-- The numbers of the tasks of queued calls, which begin at some number. -/
def numbers (base : Nat) (queue : List (Nat × Call)) : List Nat := queue.map fun x => base + x.1

theorem numbers_rotate (base : Nat) (x y : Nat × Call) (rest : List (Nat × Call))
    (same : y.1 = x.1) : (numbers base (rest ++ [y])).Perm (numbers base (x :: rest)) := by
  unfold numbers
  rw [List.map_append, List.map_singleton, List.map_cons, same]
  exact List.perm_append_singleton ..

namespace SharedClient

/-- Queued calls are what their tasks are at. -/
def Queued (s : SharedClient σ) (base : Nat) (queue : List (Nat × Call)) : Prop :=
  ∀ x ∈ queue, s.IsAt (base + x.1) x.2

/-- A result belongs to a call of the queue, and its task has ended with it. -/
def EndedWith (s : SharedClient σ) (base : Nat) (queue : List (Nat × Call))
    (x : Nat × Except Failure String) : Prop :=
  ∃ k, (x.1, k) ∈ queue ∧ s.IsAt (base + x.1) { k with stage := .done x.2 }

theorem EndedWith.cons {s : SharedClient σ} {base : Nat} {queue : List (Nat × Call)}
    {x : Nat × Except Failure String} (h : s.EndedWith base queue x) (y : Nat × Call) :
    s.EndedWith base (y :: queue) x := by
  obtain ⟨k, hk, hat⟩ := h
  exact ⟨k, List.mem_cons_of_mem _ hk, hat⟩

/-- A call at the end of the queue was at its front. -/
theorem EndedWith.rotate {s : SharedClient σ} {base n : Nat} {k : Call} {stage : Stage}
    {rest : List (Nat × Call)} {x : Nat × Except Failure String}
    (h : s.EndedWith base (rest ++ [(n, { k with stage })]) x) :
    s.EndedWith base ((n, k) :: rest) x := by
  obtain ⟨k', hk', hat⟩ := h
  rcases List.mem_append.mp hk' with hk' | hk'
  · exact ⟨k', List.mem_cons_of_mem _ hk', hat⟩
  · cases List.mem_singleton.mp hk'
    exact ⟨k, List.mem_cons_self, hat⟩

end SharedClient

/-- **Calls that take turns** make the steps of their tasks. -/
theorem takeTurns_is_run (servers : Servers σ) (base : Nat) (turns : Nat) : ∀ (held : List String)
    (queue : List (Nat × Call)) (s : SharedClient σ), (numbers base queue).Nodup →
    s.Queued base queue →
    ∃ ms : List (Nat × Timing), (∀ m ∈ ms, m.1 ∈ numbers base queue) ∧
      (s.afterAll servers (SharedClient.steps ms)).client =
        ((takeTurns servers turns held queue).run s.client).2 ∧
      ∀ x ∈ ((takeTurns servers turns held queue).run s.client).1,
        (s.afterAll servers (SharedClient.steps ms)).EndedWith base queue x := by
  induction turns with
  | zero => exact fun held queue s _ _ => ⟨[], by simp, rfl, fun x hx => (List.not_mem_nil hx).elim⟩
  | succ turns ih =>
    intro held queue s distinct queued
    cases queue with
    | nil => exact ⟨[], by simp, rfl, fun x hx => (List.not_mem_nil hx).elim⟩
    | cons x rest =>
      obtain ⟨n, k⟩ := x
      obtain ⟨late, held', next⟩ := takeTurns_cons servers turns held n k rest s.client
      obtain ⟨stage, hstage, -⟩ := step_stage servers k late s.client
      obtain ⟨here, others⟩ := List.forall_mem_cons.mp queued
      obtain ⟨own, hown, hclient, hat⟩ := here.makes servers late
      obtain ⟨fresh, distinct'⟩ : base + n ∉ numbers base rest ∧ (numbers base rest).Nodup :=
        List.nodup_cons.mp distinct
      -- the moves of the front task leave the others where they are
      have queued' : (s.afterAll servers (SharedClient.steps own)).Queued base rest := fun y hy =>
        (others y hy).others own fun m hm same =>
          fresh ((same.symm.trans (hown m hm)) ▸ List.mem_map.mpr ⟨y, hy, rfl⟩)
      have moved : ∀ {ms : List (Nat × Timing)}, (∀ m ∈ ms, m.1 ∈ numbers base ((n, k) :: rest)) →
          ∀ m ∈ own ++ ms, m.1 ∈ numbers base ((n, k) :: rest) := fun hms m hm =>
        (List.mem_append.mp hm).elim (fun hm => hown m hm ▸ List.mem_cons_self) (hms m)
      rw [hstage] at next hat
      rw [← hclient] at next
      rw [next]
      cases hresult : ({ k with stage } : Call).result? with
      | some r =>
        have ended : stage = .done r := stage_of_result? hresult
        obtain ⟨ms, hms, hend, hresults⟩ := ih held' rest _ distinct' queued'
        refine ⟨own ++ ms, moved fun m hm => List.mem_cons_of_mem _ (hms m hm), ?_⟩
        rw [SharedClient.steps_append, SharedClient.afterAll_append]
        refine ⟨hend, List.forall_mem_cons.mpr ⟨⟨k, List.mem_cons_self, ?_⟩, fun y hy =>
          (hresults y hy).cons _⟩⟩
        exact (ended ▸ hat).others ms fun m hm same => fresh (same ▸ hms m hm)
      | none =>
        have rotate := numbers_rotate base (n, k) (n, { k with stage }) rest rfl
        obtain ⟨ms, hms, hend, hresults⟩ := ih held' _ _ (rotate.nodup_iff.mpr distinct)
          (List.forall_mem_append.mpr ⟨queued', List.forall_mem_singleton.mpr hat⟩)
        refine ⟨own ++ ms, moved fun m hm => rotate.subset (hms m hm), ?_⟩
        rw [SharedClient.steps_append, SharedClient.afterAll_append]
        exact ⟨hend, fun y hy => (hresults y hy).rotate⟩

/-- **There are turns enough** for every call to end. -/
theorem ends_takeTurns (servers : Servers σ)
    (steps : Nat) : ∀ (held : List String) (queue : List (Nat × Call))
    (c : Client σ), (∀ x ∈ queue, x.2.stage.left ≠ 0) →
    (queue.map fun x => x.2.stage.left).sum ≤ steps →
    ∀ x ∈ queue, ∃ r, (x.1, r) ∈ ((takeTurns servers steps held queue).run c).1 := by
  induction steps with
  | zero =>
    intro held queue c busy few x hx
    have none_left : x.2.stage.left = 0 :=
      List.sum_eq_zero_iff_forall_eq_nat.mp (Nat.le_zero.mp few) _ (List.mem_map.mpr ⟨x, hx, rfl⟩)
    exact (busy x hx none_left).elim
  | succ steps ih =>
    intro held queue c busy few x hx
    cases queue with
    | nil => cases hx
    | cons y rest =>
      obtain ⟨n, k⟩ := y
      obtain ⟨late, held', next⟩ := takeTurns_cons servers steps held n k rest c
      obtain ⟨stage, hstage, fewer⟩ := step_stage servers k late c
      obtain ⟨here, others⟩ := List.forall_mem_cons.mp busy
      rw [List.map_cons, List.sum_cons] at few
      have less := fewer here
      rw [hstage] at next
      rw [next]
      cases hresult : ({ k with stage } : Call).result? with
      | some r =>
        rcases List.mem_cons.mp hx with rfl | hx
        · exact ⟨r, List.mem_cons_self⟩
        · obtain ⟨r', hr'⟩ := ih held' rest ((k.step servers late).run c).2 others (by omega) x hx
          exact ⟨r', List.mem_cons_of_mem _ hr'⟩
      | none =>
        have still : stage.left ≠ 0 := left_of_result? hresult
        have busy' : ∀ y ∈ rest ++ [(n, ({ k with stage } : Call))], y.2.stage.left ≠ 0 :=
          List.forall_mem_append.mpr ⟨others, List.forall_mem_singleton.mpr still⟩
        have few' : ((rest ++ [(n, ({ k with stage } : Call))]).map fun y => y.2.stage.left).sum ≤
            steps := by
          rw [List.map_append, List.sum_append, List.map_singleton, List.sum_singleton]
          dsimp only at few ⊢
          omega
        rcases List.mem_cons.mp hx with rfl | hx
        · exact ih held' _ _ busy' few' (n, { k with stage })
            (List.mem_append_right _ List.mem_cons_self)
        · exact ih held' _ _ busy' few' x (List.mem_append_left _ hx)

/-! ### Whole calls -/

/-- Calls begin together: nothing else happens. -/
theorem afterAll_begin (calls : List (String × Object)) : ∀ s : SharedClient σ,
    s.afterAll servers (calls.map fun x => .call x.1 x.2) =
      ⟨s.client, s.tasks ++ calls.map fun x => .call s.client x.1 x.2⟩ := by
  induction calls with
  | nil => exact fun s => by rw [List.map_nil, List.map_nil, List.append_nil]; rfl
  | cons x calls ih =>
    intro s
    rw [List.map_cons, SharedClient.afterAll_cons, ih]
    simp [SharedClient.after]

theorem left_begin (c : Client σ) (tool : String) (arguments : Object) :
    (Call.begin c tool arguments).stage.left ≠ 0 ∧
      (Call.begin c tool arguments).stage.left ≤ c.transports.length + 3 := by
  unfold Call.begin
  cases c.routes.lookup tool with
  | none =>
    have length : c.names.length = c.transports.length := List.length_map _
    simp only [Stage.left, length]
    omega
  | some server =>
    simp only [Stage.left]
    omega

/-- The calls that begin together, with their numbers. -/
def begun (c : Client σ) (calls : List (String × Object)) : List (Nat × Call) :=
  (List.range calls.length).zip (calls.map fun x => Call.begin c x.1 x.2)

theorem mem_begun {c : Client σ} {calls : List (String × Object)} {x : Nat × Call} :
    x ∈ begun c calls ↔ ∃ y, calls[x.1]? = some y ∧ Call.begin c y.1 y.2 = x.2 := by
  obtain ⟨n, k⟩ := x
  simp only [begun, List.mem_iff_getElem?, List.getElem?_zip_eq_some, List.getElem?_map,
    Option.map_eq_some_iff]
  constructor
  · rintro ⟨i, hi, y, hy, hk⟩
    obtain ⟨hlt, rfl⟩ := List.getElem?_eq_some_iff.mp hi
    rw [List.getElem_range]
    exact ⟨y, hy, hk⟩
  · rintro ⟨y, hy, hk⟩
    exact ⟨n, List.getElem?_range (List.getElem?_eq_some_iff.mp hy).1, y, hy, hk⟩

/-- The turns of some calls, and their results by number. -/
def resultsTogether (servers : Servers σ) (calls : List (String × Object)) :
    ClientAct σ (List (Nat × Except Failure String)) := fun c =>
  (takeTurns servers (calls.length * (c.transports.length + 3) + 1) [] (begun c calls)).run c

/-- Every call has a result. -/
theorem results_total (servers : Servers σ) (calls : List (String × Object)) (c : Client σ)
    {n : Nat} (hn : n < calls.length) :
    ∃ r, ((resultsTogether servers calls).run c).1.lookup n = some r ∧
      (n, r) ∈ ((resultsTogether servers calls).run c).1 := by
  have busy : ∀ x ∈ begun c calls, x.2.stage.left ≠ 0 ∧
      x.2.stage.left ≤ c.transports.length + 3 := by
    intro x hx
    obtain ⟨y, -, hk⟩ := mem_begun.mp hx
    rw [← hk]
    exact left_begin c y.1 y.2
  have few : ((begun c calls).map fun x => x.2.stage.left).sum ≤
      calls.length * (c.transports.length + 3) + 1 := by
    have length : (begun c calls).length = calls.length := by simp [begun]
    have bound := List.sum_le_card_nsmul ((begun c calls).map fun x =>
      x.2.stage.left) (c.transports.length + 3)
      (List.forall_mem_map.mpr fun x hx => (busy x hx).2)
    rw [List.length_map, length, nsmul_eq_mul, Nat.cast_id] at bound
    exact Nat.le_succ_of_le bound
  have there : (n, Call.begin c calls[n].1 calls[n].2) ∈ begun c calls :=
    mem_begun.mpr ⟨calls[n], List.getElem?_eq_getElem hn, rfl⟩
  obtain ⟨r, hr⟩ :=
    ends_takeTurns servers _ [] (begun c calls) c (fun x hx => (busy x hx).1) few _ there
  have found : (((resultsTogether servers calls).run c).1.lookup n).isSome = true :=
    List.lookup_isSome_iff.mpr ⟨_, hr, by simp⟩
  obtain ⟨r', hr'⟩ := Option.isSome_iff_exists.mp found
  obtain ⟨before, after, hsplit, -⟩ := List.lookup_eq_some_iff.mp hr'
  exact ⟨r', hr', hsplit ▸ List.mem_append_right _ List.mem_cons_self⟩

theorem callTogether_run (calls : List (String × Object)) (c : Client σ) :
    (callTogether servers calls).run c =
      ((List.range calls.length).filterMap (((resultsTogether servers calls).run c).1.lookup ·),
        ((resultsTogether servers calls).run c).2) := rfl

theorem found_begin {c : Client σ} {tool : String} {arguments : Object} {rest : List String}
    {found : List (String × ToolDefinition)}
    (h : (Call.begin c tool arguments).stage = .listing rest found) : found = [] := by
  unfold Call.begin at h
  cases hserver : c.routes.lookup tool with
  | none =>
    rw [hserver] at h
    cases h
    rfl
  | some server =>
    rw [hserver] at h
    cases h

/-- Calls that have just begun are tasks. -/
theorem queued_begun (s : SharedClient σ) (calls : List (String × Object)) :
    (⟨s.client, s.tasks ++ calls.map fun x =>
      .call s.client x.1 x.2⟩ : SharedClient σ).Queued s.tasks.length
      (begun s.client calls) := by
  intro x hx
  obtain ⟨y, hy, hk⟩ := mem_begun.mp hx
  refine ⟨.call s.client y.1 y.2, ?_, congrArg Work.call hk, fun rest found h => ?_⟩
  · rw [List.getElem?_append_right (Nat.le_add_right ..), Nat.add_sub_cancel_left,
      List.getElem?_map, hy]
    rfl
  · rw [← hk] at h
    exact found_begin h

/-- **Calls that are made together are a run**, and each ends with its result. -/
theorem callTogether_is_run (servers : Servers σ) (s : SharedClient σ)
    (calls : List (String × Object)) : ∃ ms : List (Nat × Timing), ∃ s', s' = s.afterAll servers
        (calls.map (fun x => .call x.1 x.2) ++ SharedClient.steps ms) ∧
        (∀ m ∈ ms, s.tasks.length ≤ m.1) ∧
      s'.client = ((callTogether servers calls).run s.client).2 ∧
      ((callTogether servers calls).run s.client).1.length = calls.length ∧
      ∀ n y r, calls[n]? = some y → ((callTogether servers calls).run s.client).1[n]? = some r →
        s'.IsAt (s.tasks.length + n) ⟨y.1, y.2, .done r⟩ := by
  have distinct : (numbers s.tasks.length (begun s.client calls)).Nodup := by
    have fst : (begun s.client calls).map Prod.fst = List.range calls.length :=
      List.map_fst_zip (by simp)
    have shifted : numbers s.tasks.length (begun s.client calls) =
        (List.range calls.length).map (s.tasks.length + ·) := by
      rw [← fst, List.map_map]
      rfl
    rw [shifted]
    exact List.nodup_range.map fun _ _ => Nat.add_left_cancel
  obtain ⟨ms, hms, hclient, hresults⟩ := takeTurns_is_run servers s.tasks.length
    (calls.length * (s.client.transports.length + 3) + 1) [] (begun s.client calls) _ distinct
    (queued_begun s calls)
  have whole : ((callTogether servers calls).run s.client).1 =
      (List.range calls.length).map fun n =>
        (((resultsTogether servers calls).run s.client).1.lookup n).getD (.ok "") := by
    rw [callTogether_run, ← List.filterMap_eq_map]
    refine List.filterMap_congr fun n hn => ?_
    obtain ⟨r, hr, -⟩ := results_total servers calls s.client (List.mem_range.mp hn)
    simp only [hr, Function.comp_apply, Option.getD_some]
  refine ⟨ms, _, rfl, fun m hm => ?_, ?_, ?_, fun n y r hy hr => ?_⟩
  · obtain ⟨x, -, hm⟩ := List.mem_map.mp (hms m hm)
    exact hm ▸ Nat.le_add_right ..
  · rw [SharedClient.afterAll_append, afterAll_begin]
    exact hclient
  · rw [whole, List.length_map, List.length_range]
  · have hn : n < calls.length := (List.getElem?_eq_some_iff.mp hy).1
    obtain ⟨r', hlookup, hmem⟩ := results_total servers calls s.client hn
    rw [whole, List.getElem?_map, List.getElem?_range hn, Option.map_some, hlookup] at hr
    obtain ⟨k, hk, hat⟩ := hresults _ hmem
    obtain ⟨y', hy', hbegin⟩ := mem_begun.mp hk
    cases hy.symm.trans hy'
    rw [SharedClient.afterAll_append, afterAll_begin]
    dsimp only at hbegin hat
    subst hbegin
    cases hr
    exact hat

/-- **A call is a run**, and ends with its result. -/
theorem call_is_run (servers : Servers σ) (s : SharedClient σ) (tool : String)
    (arguments : Object) : ∃ ms : List (Nat × Timing), ∃ s',
      s' = s.afterAll servers (.call tool arguments :: SharedClient.steps ms) ∧
      (∀ m ∈ ms, s.tasks.length ≤ m.1) ∧
      s'.client = ((Client.call servers tool arguments).run s.client).2 ∧
      s'.IsAt s.tasks.length ⟨tool, arguments,
        .done ((Client.call servers tool arguments).run s.client).1⟩ := by
  obtain ⟨ms, s', hs', hms, hclient, hlength, hresults⟩ :=
    callTogether_is_run servers s [(tool, arguments)]
  refine ⟨ms, s', hs', hms, hclient, hresults 0 (tool, arguments) _ rfl ?_⟩
  change _ = some ((((callTogether servers [(tool, arguments)]).run s.client).1.head?).getD _)
  obtain ⟨r, hr⟩ := List.length_eq_one_iff.mp hlength
  rw [hr]
  rfl

end ChatRelay.Bridge
