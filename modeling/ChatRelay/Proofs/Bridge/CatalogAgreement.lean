import ChatRelay.Proofs.Bridge.WholeTasks
import ChatRelay.Proofs.Turn.Stages

/-! # Catalog and dispatch agree

However tasks of one client interleave, a listing returns the tools of the table that it sets, and a
call is written to the server that a table names for its tool and to no other
(`SharedClient.Agreed`). The servers stand in the order of their names, whatever order they were
configured in, so the owner of a tool is the first of them that lists it
(`catalog_and_dispatch_agree`). -/

namespace ChatRelay.Bridge

open Json Completion Client Tools

variable {σ : Type} {servers : Servers σ} {log : σ → List (String × String)}

/-! ### The catalog -/

theorem names_builtinDefinitions : builtinDefinitions.map (·.name) = builtinNames := rfl

/-- **The catalog names no tool twice** if the bridge does not. -/
theorem nodup_catalog {tools : List ToolDefinition} (h : (tools.map (·.name)).Nodup) :
    ((catalog tools).map (·.name)).Nodup := by
  have kept : (tools.filter fun t => !isBuiltin t.name).Sublist tools := List.filter_sublist
  unfold catalog
  rw [List.map_append, names_builtinDefinitions, List.nodup_append']
  refine ⟨by decide, h.sublist (kept.map _), fun name builtin offered => ?_⟩
  obtain ⟨t, ht, rfl⟩ := List.mem_map.mp offered
  have other := (List.mem_filter.mp ht).2
  rw [isBuiltin, List.contains_iff_mem.mpr builtin] at other
  cases other

/-! ### Runs -/

/-- A line that was written for some tasks: a request for tools, or the call of a task that has
ended, at the server that a table named for its tool. -/
inductive LineOf (names : List String) (tasks : List Task) : String × String → Prop
  | list (server : String) (id : Nat) :
      LineOf names tasks (server, requestLine id "tools/list" none)
  | call {t : Task} {k : Call} {server : String} {r : Except Failure String} (ht : t ∈ tasks)
      (hk : t.work = .call k) (ended : k.stage = .done r)
      (named : Looked names t.round k.tool t.looked (some server))
      (known : ∀ name, r ≠ .error (.unknownTool name)) (id : Nat) :
      LineOf names tasks (server, requestLine id "tools/call" (some k.params))

theorem LineOf.mono {names : List String} {tasks tasks' : List Task} {line : String × String}
    (h : LineOf names tasks line)
    (stays : ∀ t ∈ tasks, ∀ k r, t.work = .call k → k.stage = .done r → t ∈ tasks') :
    LineOf names tasks' line := by
  cases h with
  | list server id => exact .list server id
  | call ht hk ended named known id => exact .call (stays _ ht _ _ hk ended) hk ended named known id

/-- Tasks that have ended are still there after another task's step, and after their own. -/
theorem mem_set_of_ended {tasks : List Task} {i : Nat} {t t' u : Task} (ht : tasks[i]? = some t)
    (hu : u ∈ tasks) (stays : u = t → t' = t) : u ∈ tasks.set i t' := by
  obtain ⟨j, hj⟩ := List.mem_iff_getElem?.mp hu
  refine List.mem_iff_getElem?.mpr ⟨j, ?_⟩
  by_cases same : i = j
  · subst same
    cases ht.symm.trans hj
    rw [stays rfl]
    exact List.getElem?_set_self (List.getElem?_eq_some_iff.mp hj).1
  · rw [List.getElem?_set_ne same]
    exact hj

namespace SharedClient

/-- What holds of a client and its tasks from their beginning on. -/
structure Sound (log : σ → List (String × String)) (c : Client σ) (s : SharedClient σ) : Prop where
  names : s.client.names = c.names
  table : TableIn c.names s.client.routes
  tasks : ∀ t ∈ s.tasks, t.Sound c.names
  fits : ∀ t ∈ s.tasks, RoundFits t.round
  lines : ∃ lines, log s.client.wire.outside = log c.wire.outside ++ lines ∧
    ∀ line ∈ lines, LineOf c.names s.tasks line

theorem sound_start {c : Client σ} (fresh : c.routes = []) : (start c).Sound log c where
  names := rfl
  table := by
    rintro tool server h
    rw [start, fresh] at h
    cases h
  tasks := fun t ht => (List.not_mem_nil ht).elim
  fits := fun t ht => (List.not_mem_nil ht).elim
  lines := ⟨[], (List.append_nil _).symm, fun line hline => (List.not_mem_nil hline).elim⟩

theorem sound_list (c : Client σ) : (Task.list c).Sound c.names := .listing rfl

theorem sound_call {c : Client σ} (known : TableIn c.names c.routes) (tool : String)
    (arguments : Object) : (Task.call c tool arguments).Sound c.names := by
  unfold Task.call Call.begin
  cases hserver : c.routes.lookup tool with
  | none => exact .callLists rfl rfl hserver
  | some server => exact .calling (known _ _ hserver) rfl (.atOnce hserver)

/-- A task begins. -/
theorem Sound.begin {c : Client σ} {s : SharedClient σ} (h : s.Sound log c) {t : Task}
    (ht : t.Sound c.names) (unasked : t.round = []) :
    (⟨s.client, s.tasks ++ [t]⟩ : SharedClient σ).Sound log c where
  names := h.names
  table := h.table
  tasks u hu := by
    rcases List.mem_append.mp hu with hu | hu
    · exact h.tasks u hu
    · exact List.mem_singleton.mp hu ▸ ht
  fits u hu := by
    rcases List.mem_append.mp hu with hu | hu
    · exact h.fits u hu
    · rw [List.mem_singleton.mp hu, unasked]
      exact fun _ hx => (List.not_mem_nil hx).elim
  lines := by
    obtain ⟨lines, hlog, hlines⟩ := h.lines
    exact ⟨lines, hlog, fun line hline => (hlines line hline).mono fun u hu _ _ _ _ =>
      List.mem_append_left _ hu⟩

/-- A task makes a step. -/
theorem Sound.step {c : Client σ} {s : SharedClient σ} (h : s.Sound log c) {i : Nat} {t : Task}
    {x : Task × Client σ} (ht : s.tasks[i]? = some t) (well : StepsWell log t s.client x) :
    (⟨x.2, s.tasks.set i x.1⟩ : SharedClient σ).Sound log c := by
  obtain ⟨done, sound, fits, known⟩ := well
  rw [h.names] at sound known
  refine ⟨done.names.trans h.names, known, fun u hu => ?_, fun u hu => ?_, ?_⟩
  · rcases List.mem_or_eq_of_mem_set hu with hu | rfl
    · exact h.tasks u hu
    · exact sound
  · rcases List.mem_or_eq_of_mem_set hu with hu | rfl
    · exact h.fits u hu
    · exact fits
  · obtain ⟨lines, hlog, hlines⟩ := h.lines
    have kept : ∀ line ∈ lines, LineOf c.names (s.tasks.set i x.1) line := fun line hline =>
      (hlines line hline).mono fun u hu k r hk ended => mem_set_of_ended ht hu fun same =>
        (done.ended k r (same ▸ hk) ended).1
    rcases done.written with none | ⟨line, hline, one⟩
    · exact ⟨lines, none.trans hlog, kept⟩
    · refine ⟨lines ++ [line], by rw [one, hlog, List.append_assoc], fun line' hline' => ?_⟩
      rcases List.mem_append.mp hline' with hline' | hline'
      · exact kept line' hline'
      · cases List.mem_singleton.mp hline'
        have there : x.1 ∈ s.tasks.set i x.1 :=
          List.mem_of_getElem? (List.getElem?_set_self (List.getElem?_eq_some_iff.mp ht).1)
        rw [h.names] at hline
        cases hline with
        | list server id => exact .list server id
        | call hk named known ended id =>
          rw [ended] at there ⊢
          exact .call there rfl rfl named known id

theorem Sound.after (hl : LineLog servers log) {c : Client σ} {s : SharedClient σ}
    (h : s.Sound log c) (m : TaskMove) : (s.after servers m).Sound log c := by
  cases m with
  | list => exact h.begin (h.names ▸ sound_list s.client) rfl
  | call tool arguments =>
    exact h.begin (h.names ▸ sound_call (h.names.symm ▸ h.table) tool arguments) rfl
  | step i timing =>
    cases ht : s.tasks[i]? with
    | none => exact (after_step_none ht timing).symm ▸ h
    | some t =>
      rw [after_step ht]
      have there := List.mem_of_getElem? ht
      exact h.step ht (dispatched_step hl (h.names.symm ▸ h.tasks t there) (h.fits t there)
        (h.names.symm ▸ h.table) timing)

theorem Sound.afterAll (hl : LineLog servers log) {c : Client σ} (ms : List TaskMove) :
    ∀ {s : SharedClient σ}, s.Sound log c → (s.afterAll servers ms).Sound log c := by
  induction ms with
  | nil => exact fun h => h
  | cons m ms ih => exact fun h => ih (h.after hl m)

/-! ### Agreement -/

/-- What holds of some tasks that share a client, which was `c` before them. -/
structure Agreed (servers : Servers σ) (log : σ → List (String × String)) (c : Client σ)
    (s : SharedClient σ) : Prop where
  names : s.client.names = c.names
  /-- What a task does next, whatever its timing. -/
  steps : ∀ t ∈ s.tasks, ∀ timing,
    Dispatched log t s.client ((t.step servers timing).run s.client).1
      ((t.step servers timing).run s.client).2
  /-- What servers reply to a listing is noted as it comes. -/
  noted : ∀ t ∈ s.tasks, ∀ timing,
    NotesOne servers s.client timing t.round ((t.step servers timing).run s.client).1.round
  /-- What a listing returned are the tools of its round; the catalog puts them behind the built-in
  ones. -/
  listed : ∀ t ∈ s.tasks, ∀ tools, t.work = .listed tools →
    (∃ table, Agrees c.names t.round tools table) ∧
    catalog tools = builtinDefinitions ++ tools.filter (fun t => !isBuiltin t.name) ∧
    builtinDefinitions.map (·.name) = builtinNames ∧ ((catalog tools).map (·.name)).Nodup
  /-- A call ends without a server just if the tables that it looked into have none. -/
  called : ∀ t ∈ s.tasks, ∀ k r, t.work = .call k → k.stage = .done r →
    ∃ server?, Looked c.names t.round k.tool t.looked server? ∧
      (server? = none ↔ r = .error (.unknownTool k.tool))
  /-- All that was written so far. -/
  lines : ∃ lines, log s.client.wire.outside = log c.wire.outside ++ lines ∧
    ∀ line ∈ lines, LineOf c.names s.tasks line
  /-- A turn that lists the tools finds the catalog of a listing that nobody interrupts. -/
  list : ∃ n round c' tools, (Client.list servers).run s.client = (tools, c') ∧
    Agrees c.names round tools c'.routes ∧
    s.afterAll servers (.list :: SharedClient.steps (List.replicate n (s.tasks.length, .inTime))) =
      ⟨c', s.tasks ++ [⟨round, [], .listed tools⟩]⟩ ∧
    ∀ (h : Turn.Handler (Client σ)) (w : World (Client σ)),
      h.executor.bridge = Client.bridge servers →
      w.outside = s.client → h.catalogIn w = catalog tools
  /-- So are calls, alone or together, with the results of their tasks. -/
  call : ∀ tool arguments, ∃ ms s',
    s' = s.afterAll servers (.call tool arguments :: SharedClient.steps ms) ∧
    (∀ m ∈ ms, s.tasks.length ≤ m.1) ∧
      s'.client = ((Client.call servers tool arguments).run s.client).2 ∧
    s'.IsAt s.tasks.length ⟨tool, arguments,
      .done ((Client.call servers tool arguments).run s.client).1⟩
  callTogether : ∀ calls, ∃ ms s', s' = s.afterAll servers
      (calls.map (fun x => .call x.1 x.2) ++ SharedClient.steps ms) ∧
        (∀ m ∈ ms, s.tasks.length ≤ m.1) ∧
    s'.client = ((Client.callTogether servers calls).run s.client).2 ∧
    ((Client.callTogether servers calls).run s.client).1.length = calls.length ∧
    ∀ n y r, calls[n]? = some y → ((Client.callTogether servers calls).run s.client).1[n]? =
      some r →
      s'.IsAt (s.tasks.length + n) ⟨y.1, y.2, .done r⟩

theorem Sound.agreed (hl : LineLog servers log) {c : Client σ} {s : SharedClient σ}
    (h : s.Sound log c) : s.Agreed servers log c where
  names := h.names
  steps t ht timing :=
    (dispatched_step hl (h.names.symm ▸ h.tasks t ht) (h.fits t ht)
      (h.names.symm ▸ h.table) timing).1
  noted t ht timing := notesOne_step (h.names.symm ▸ h.tasks t ht) timing
  listed t ht tools hk := by
    cases h.tasks t ht with
    | listed asked =>
      cases hk
      have agrees := agrees_settled (h.fits _ ht) asked
      exact ⟨⟨_, agrees⟩, rfl, rfl, nodup_catalog agrees.distinct⟩
    | _ => cases hk
  called t ht k r hk hstage := by
    cases h.tasks t ht with
    | done hstage' found known =>
      cases hk
      cases hstage.symm.trans hstage'
      exact ⟨_, found, known⟩
    | callLists _ hstage' =>
      cases hk
      cases hstage.symm.trans hstage'
    | calling _ hstage' =>
      cases hk
      cases hstage.symm.trans hstage'
    | _ => cases hk
  lines := h.lines
  list := by
    obtain ⟨n, round, c', tools, hrun, agrees, hmoves⟩ := list_is_run servers s
    refine ⟨n, round, c', tools, hrun, h.names ▸ agrees, hmoves, fun handler w hbridge hw => ?_⟩
    unfold Turn.Handler.catalogIn
    rw [hbridge, hw]
    exact congrArg (fun x => catalog x.1) hrun
  call := call_is_run servers s
  callTogether := callTogether_is_run servers s

end SharedClient

variable {commands : List (String × Config.ServerCommand)}

/-- **Catalog and dispatch agree**, in every run of tasks on the servers that run. These are
configured servers that did not fail to start, and they stand in the order of their names, whatever
order they were started in. -/
theorem catalog_and_dispatch_agree (hl : LineLog servers log) (keys : (commands.map Prod.fst).Nodup)
    (timeout : Option Nat) (outside : σ) (ms : List TaskMove) :
    (Client.start servers commands timeout outside).1.names.Pairwise (· < ·) ∧
    ((Client.start servers commands timeout outside).1.names ++
      (Client.start servers commands timeout outside).2.map Prod.fst).Perm (commands.map Prod.fst) ∧
    (∀ commands' outside', commands'.Perm commands →
      (Client.start servers commands' timeout outside').1.names.Perm
        (Client.start servers commands timeout outside).1.names →
      (Client.start servers commands' timeout outside').1.names =
        (Client.start servers commands timeout outside).1.names) ∧
    ((SharedClient.start (Client.start servers commands timeout outside).1).afterAll servers
      ms).Agreed servers log
      (Client.start servers commands timeout outside).1 :=
  ⟨names_start servers keys timeout outside, perm_names_start servers commands timeout outside,
    fun _ _ same running => names_start_eq keys same running,
      ((SharedClient.sound_start rfl).afterAll hl ms).agreed hl⟩

/-- What two servers write on the lines that they get, one line after another: they greet back, then
`alpha` lists a tool that `kv` lists too and one with a built-in name. -/
def listerAnswers : List String :=
  ["\x7b\"id\":1,\"result\":\x7b\x7d\x7d\n", "", "\x7b\"id\":2,\"result\":\x7b\x7d\x7d\n", "",
    "\x7b\"id\":3,\"result\":\x7b\"tools\":[\x7b\"name\":\"look\"\x7d,\x7b\"name\":\"get_weather\"\x7d]\x7d\x7d\n",
    "\x7b\"id\":4,\"result\":\x7b\"tools\":[\x7b\"name\":\"fetch\"\x7d,\x7b\"name\":\"look\"\x7d]\x7d\x7d\n",
    "\x7b\"id\":5,\"result\":\x7b\x7d\x7d\n",
    "\x7b\"id\":6,\"result\":\x7b\"tools\":[\x7b\"name\":\"fetch\"\x7d,\x7b\"name\":\"look\"\x7d]\x7d\x7d\n"]

/-- The servers; their state is the number of lines so far. -/
def listers : Servers Nat where
  start _ _ n := (.ok (), n)
  write _ _ n := (.ok ⟨Text.encode (listerAnswers.getD n ""), false⟩, n + 1)
  stop _ n := ([], n)

/-- Their commands, not in the order of their names. -/
def listerCommands : List (String × Config.ServerCommand) := [("kv", default), ("alpha", default)]

/-- A listing, then a call of a tool that both servers list; meanwhile a second listing misses a
server. -/
def listerMoves : List TaskMove :=
  [.list, .step 0 .inTime, .step 0 .inTime, .call "look" [], .list, .step 2 .missed,
    .step 1 .inTime, .step 2 .inTime]

/-- The client of the two servers. -/
def listerClient : Client (Nat × List (String × String)) :=
  (Client.start listers.logged listerCommands none (0, [])).1

/-- The servers in the order of their commands, and what is outside when they run. -/
def startedListers :
    List Transport × List (String × Failure) × Wire (Nat × List (String × String)) :=
  startAll listers.logged listerCommands ⟨(0, []), 1⟩

/-- The second server comes first. -/
theorem listerClient_eq :
    listerClient = ⟨startedListers.2.2, startedListers.1.reverse, [], defaultCallTimeout⟩ := by
  have started : startedListers.1.map (·.server) = ["kv", "alpha"] := by decide +kernel
  obtain ⟨t, rest, htransports, ht, hrest⟩ := List.map_eq_cons_iff.mp started
  obtain ⟨u, rfl, hu⟩ := List.map_eq_singleton_iff.mp hrest
  have sorted : [t, u].mergeSort (fun a b => a.server ≤ b.server) = [u, t] := by
    simp [List.mergeSort, ht, hu]
  rw [listerClient, start_eq, ← startedListers, htransports, sorted]
  rfl

/-- What the tasks come to. -/
def afterListers : SharedClient (Nat × List (String × String)) :=
  (SharedClient.start listerClient).afterAll listers.logged listerMoves

/-- The names of the tools that a task has listed. -/
def Task.shown (t : Task) : Option (List String) :=
  match t.work with
  | .listed tools => some (tools.map (·.name))
  | _ => none

/-- Two servers with a tool in common. The first listing names it once, and the call goes to the
server that comes first; the second listing misses that server, and names the tool of the other. -/
theorem catalog_and_dispatch_agree_listers :
    (LineLog listers.logged (Prod.snd : Nat × List (String × String) → List (String × String)) ∧
      (listerCommands.map Prod.fst).Nodup) ∧
    listerClient.names.Pairwise (· < ·) ∧
    afterListers.Agreed listers.logged Prod.snd listerClient ∧
    (afterListers.tasks.map Task.shown, listerClient.names,
      afterListers.client.wire.outside.2.drop 4) =
      ([some ["look", "get_weather", "fetch"], none, some ["fetch", "look"]], ["alpha", "kv"],
        [("alpha", requestLine 3 "tools/list" none), ("kv", requestLine 4 "tools/list" none),
          ("alpha", requestLine 5 "tools/call"
            (some (.obj [("arguments", .obj []), ("name", .str "look")]))),
          ("kv", requestLine 6 "tools/list" none)]) := by
  obtain ⟨sorted, -, -, agreed⟩ := catalog_and_dispatch_agree (lineLog_logged listers)
    (show (listerCommands.map Prod.fst).Nodup by decide) none (0, []) listerMoves
  refine ⟨⟨lineLog_logged listers, by decide⟩, sorted, agreed, ?_⟩
  rw [afterListers, listerClient_eq]
  decide +kernel

end ChatRelay.Bridge
