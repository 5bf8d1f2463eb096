import ChatRelay.Proofs.Bridge.Owners

/-! # Where calls are sent

What a task meets on its way (`Task.Sound`) is kept by its own steps and not touched by those of
others: a listing has asked the servers in order, and a call goes to the server that a table named
for its tool, the one of its beginning or, if that names none, the one that it finds after a listing
(`Looked`). One step of a task, and all that it leaves alone, is `Dispatched`. -/

namespace ChatRelay.Bridge

open Json Completion Client

variable {σ : Type} {servers : Servers σ} {log : σ → List (String × String)}

/-! ### Steps -/

theorem foundIn_concat (round : List (String × ToolsReply)) (server : String) (reply : ToolsReply) :
    foundIn (round ++ [(server, reply)]) = foundIn round ++ (listedBy reply).map (server, ·) := by
  simp [foundIn]

theorem requested_askToolsIn (hl : LineLog servers log) (server : String) (timing : Timing)
    (c : Client σ) :
    Requested log server "tools/list" none c ((askToolsIn servers server timing).run c).2 := by
  cases timing with
  | inTime => exact requested_askTools hl server c
  | late => exact requested_askTools hl server c
  | missed => exact .refl ..

theorem askNext_run (timing : Timing) (round : List (String × ToolsReply)) (rest : List String)
    (c : Client σ) : (Task.askNext servers timing round rest).run c = match rest with
      | [] => ((round, []), c)
      | server :: rest => ((round ++ [(server, ((askToolsIn servers server timing).run c).1)],
          rest), ((askToolsIn servers server timing).run c).2) := by
  cases rest <;> rfl

/-- Asking the next server goes on with the round, and sends at most one request. -/
theorem requested_askNext (hl : LineLog servers log) {timing : Timing}
    {round round' : List (String × ToolsReply)} {rest rest' : List String} {c c' : Client σ}
    (fits : RoundFits round)
    (h : (Task.askNext servers timing round rest).run c = ((round', rest'), c')) :
    round'.map Prod.fst ++ rest' = round.map Prod.fst ++ rest ∧ RoundFits round' ∧
      ∃ server, Requested log server "tools/list" none c c' := by
  rw [askNext_run] at h
  cases rest with
  | nil =>
    cases h
    exact ⟨rfl, fits, "", .refl ..⟩
  | cons server rest =>
    cases h
    exact ⟨by simp, fits.concat (replyFits_askToolsIn servers server timing c), server,
      requested_askToolsIn hl server timing c⟩

theorem listOn_run (servers : Servers σ) (timing : Timing) (t : Task) (rest : List String)
    (more : List String → List (String × ToolDefinition) → Work)
    (settled : List ToolDefinition → Work)
    (c : Client σ) : (t.listOn servers timing rest more settled).run c =
      match (Task.askNext servers timing t.round rest).run c with
      | ((round, []), c) =>
        ({ t with round, work := settled (toolsAfter round) },
          { c with routes := tableAfter round })
      | ((round, rest), c) => ({ t with round, work := more rest (foundIn round) }, c) := by
  rw [askNext_run]
  unfold Task.listOn
  cases rest with
  | nil => rfl
  | cons server rest => cases rest <;> rfl

theorem lookAgain_run (t : Task) (k : Call) (c : Client σ) : (t.lookAgain k).run c =
    ({ t with looked := t.looked ++ [c.routes],
              work := .call { k with stage := stageFor c.routes k.tool } }, c) :=
  rfl

/-- A call at its server: one request to it unless its time is up before, and a result. -/
theorem stepIn_calling_run (hl : LineLog servers log) {k : Call} {server : String} {c : Client σ}
    (there : server ∈ c.names) (hstage : k.stage = .calling server) (timing : Timing) :
    ∃ r, ((k.stepIn servers timing).run c).1 = { k with stage := .done r } ∧
      (∀ name, r ≠ .error (.unknownTool name)) ∧
      Requested log server "tools/call" (some k.params) c ((k.stepIn servers timing).run c).2 := by
  have asked : ∀ late, ∃ r, ((k.step servers late).run c).1 = { k with stage := .done r } ∧
      (∀ name, r ≠ .error (.unknownTool name)) ∧
      Requested log server "tools/call" (some k.params) c ((k.step servers late).run c).2 := by
    intro late
    obtain ⟨sent, answered⟩ := requested_atServer hl late k there
    refine ⟨((k.atServer servers late server).run c).1, ?_, answered, ?_⟩
    · unfold Call.step
      rw [hstage]
      rfl
    · unfold Call.step
      rw [hstage]
      exact sent
  cases timing with
  | inTime => exact asked false
  | late => exact asked true
  | missed =>
    refine ⟨.error (k.timeout c.callTimeout), ?_, ?_, ?_⟩
    · unfold Call.stepIn
      rw [hstage]
      rfl
    · intro name h
      cases h
    · unfold Call.stepIn
      rw [hstage]
      exact .refl ..

theorem step_done_run {k : Call} {r : Except Failure String} (hstage : k.stage = .done r)
    (late : Bool) (c : Client σ) : (k.step servers late).run c = (k, c) := by
  unfold Call.step
  rw [hstage]
  rfl

theorem stepIn_done_run {k : Call} {r : Except Failure String} (hstage : k.stage = .done r)
    (timing : Timing) (c : Client σ) : (k.stepIn servers timing).run c = (k, c) := by
  cases timing with
  | inTime => exact step_done_run hstage false c
  | late => exact step_done_run hstage true c
  | missed =>
    unfold Call.stepIn
    rw [hstage]
    rfl

/-- The task lists tools, for itself or for a call. -/
def Task.isListing (t : Task) : Bool :=
  match t.work with
  | .listing _ => true
  | .call k =>
    match k.stage with
    | .listing .. => true
    | _ => false
  | _ => false

theorem isListing_of_stage {k : Call} {stage : Stage} (hstage : k.stage = stage)
    (round : List (String × ToolsReply)) (looked : List RouteTable) :
    (⟨round, looked, .call k⟩ : Task).isListing =
      (⟨round, looked, .call { k with stage }⟩ : Task).isListing := by
  subst hstage
  rfl

theorem step_listing_call {t : Task} {k : Call} {rest : List String}
    {found : List (String × ToolDefinition)} (hk : t.work = .call k)
    (hstage : k.stage = .listing rest found) (timing : Timing) :
    t.step servers timing = t.listOn servers timing rest
      (fun rest found => .call { k with stage := .listing rest found }) fun _ => .looking k := by
  unfold Task.step
  rw [hk]
  dsimp only
  rw [hstage]

theorem step_call_run (servers : Servers σ) {t : Task} {k : Call} (hk : t.work = .call k)
    (hstage : ∀ rest found, k.stage ≠ .listing rest found) (timing : Timing) (c : Client σ) :
    (t.step servers timing).run c =
      ({ t with work := .call ((k.stepIn servers timing).run c).1 },
        ((k.stepIn servers timing).run c).2) := by
  unfold Task.step
  rw [hk]
  dsimp only
  cases h : k.stage with
  | listing rest found => exact (hstage rest found h).elim
  | calling server => rfl
  | done r => rfl

/-! ### What a task meets -/

/-- What a call finds that looks for its tool: in the table of its beginning, or, if that has no
such tool, in the table that it looks into after asking all servers. -/
inductive Looked (names : List String) (round : List (String × ToolsReply)) (tool : String) :
    List RouteTable → Option String → Prop
  | atOnce {table : RouteTable} {server : String} (h : table.lookup tool = some server) :
      Looked names round tool [table] (some server)
  | afresh {table later : RouteTable} (h : table.lookup tool = none)
      (asked : round.map Prod.fst = names) :
      Looked names round tool [table, later] (later.lookup tool)

/-- A task that began on some servers. -/
inductive Task.Sound (names : List String) : Task → Prop
  | listing {round rest} (asked : round.map Prod.fst ++ rest = names) :
      Task.Sound names ⟨round, [], .listing rest⟩
  | listed {round} (asked : round.map Prod.fst = names) :
      Task.Sound names ⟨round, [], .listed (toolsAfter round)⟩
  | callLists {round rest found table} {k : Call} (asked : round.map Prod.fst ++ rest = names)
      (hstage : k.stage = .listing rest found) (unnamed : table.lookup k.tool = none) :
      Task.Sound names ⟨round, [table], .call k⟩
  | looking {round table} {k : Call} (asked : round.map Prod.fst = names)
      (unnamed : table.lookup k.tool = none) :
      Task.Sound names ⟨round, [table], .looking k⟩
  | calling {round looked server} {k : Call} (there : server ∈ names)
      (hstage : k.stage = .calling server)
      (named : Looked names round k.tool looked (some server)) :
      Task.Sound names ⟨round, looked, .call k⟩
  | done {round looked server? r} {k : Call} (hstage : k.stage = .done r)
      (found : Looked names round k.tool looked server?)
      (known : server? = none ↔ r = .error (.unknownTool k.tool)) :
      Task.Sound names ⟨round, looked, .call k⟩

/-- The table leads to these servers only. -/
def TableIn (names : List String) (table : RouteTable) : Prop :=
  ∀ tool server, table.lookup tool = some server → server ∈ names

theorem tableIn_tableAfter {names : List String} {round : List (String × ToolsReply)}
    (asked : round.map Prod.fst = names) : TableIn names (tableAfter round) := by
  intro tool server h
  rw [lookup_tableAfter, Option.map_eq_some_iff] at h
  obtain ⟨x, hx, rfl⟩ := h
  obtain ⟨y, hy, hfound⟩ := List.exists_of_findSome?_eq_some hx
  obtain ⟨t, -, rfl⟩ := Option.map_eq_some_iff.mp hfound
  exact asked ▸ List.mem_map.mpr ⟨y, hy, rfl⟩

/-- A line that a step of a task may write: a request for tools, or the call of a task that then
ends, at the server that a table named for its tool. -/
inductive TaskLine (names : List String) (t t' : Task) : String × String → Prop
  | list (server : String) (id : Nat) :
      TaskLine names t t' (server, requestLine id "tools/list" none)
  | call {k : Call} {server : String} {r : Except Failure String} (hk : t.work = .call k)
      (named : Looked names t.round k.tool t.looked (some server))
      (known : ∀ name, r ≠ .error (.unknownTool name))
      (ended : t' = { t with work := .call { k with stage := .done r } }) (id : Nat) :
      TaskLine names t t' (server, requestLine id "tools/call" (some k.params))

/-- One step of a task. -/
structure Dispatched (log : σ → List (String × String)) (t : Task) (c : Client σ) (t' : Task)
    (c' : Client σ) : Prop where
  names : c'.names = c.names
  /-- A listing that ends sets the table to what it returns. -/
  settled : t.isListing = true → t'.isListing = false →
    ∃ tools, Agrees c.names t'.round tools c'.routes ∧
    ∀ shown, t'.work = .listed shown → shown = tools
  /-- Nothing else sets the table. -/
  unsettled : ¬ (t.isListing = true ∧ t'.isListing = false) → c'.routes = c.routes
  /-- The table is looked into as it is. -/
  looks : t'.looked = t.looked ∨ t'.looked = t.looked ++ [c.routes]
  /-- At most one line is written. -/
  written : log c'.wire.outside = log c.wire.outside ∨
    ∃ line, TaskLine c.names t t' line ∧ log c'.wire.outside = log c.wire.outside ++ [line]
  /-- A call that has ended does nothing more. -/
  ended : ∀ k r, t.work = .call k → k.stage = .done r → t' = t ∧ c' = c

/-- What one step leads to: besides what it does, a sound task, with replies that can have been
read, and a table of known servers. -/
def StepsWell (log : σ → List (String × String)) (t : Task) (c : Client σ) (x : Task × Client σ) :
    Prop :=
  Dispatched log t c x.1 x.2 ∧ x.1.Sound c.names ∧ RoundFits x.1.round ∧ TableIn c.names x.2.routes

/-- A step of a listing, for a task or for a call. -/
theorem stepsWell_listOn (hl : LineLog servers log) {t : Task} (fits : RoundFits t.round)
    {rest : List String} {more : List String → List (String × ToolDefinition) → Work}
    {settled : List ToolDefinition → Work} {c : Client σ}
    (asked : t.round.map Prod.fst ++ rest = c.names) (known : TableIn c.names c.routes)
    (timing : Timing) (hlisting : t.isListing = true)
    (hmore : ∀ round rest found, round.map Prod.fst ++ rest = c.names →
      (⟨round, t.looked, more rest found⟩ : Task).Sound c.names ∧
        (⟨round, t.looked, more rest found⟩ : Task).isListing = true)
    (hsettled : ∀ round, round.map Prod.fst = c.names →
      (⟨round, t.looked, settled (toolsAfter round)⟩ : Task).Sound c.names ∧
        (⟨round, t.looked, settled (toolsAfter round)⟩ : Task).isListing = false ∧
        ∀ shown, settled (toolsAfter round) = .listed shown → shown = toolsAfter round) :
    StepsWell log t c ((t.listOn servers timing rest more settled).run c) := by
  have busy : ∀ k r, t.work = .call k → k.stage ≠ .done r := by
    intro k r hk hstage
    unfold Task.isListing at hlisting
    rw [hk] at hlisting
    dsimp only at hlisting
    rw [hstage] at hlisting
    cases hlisting
  rw [listOn_run]
  rcases hnext : (Task.askNext servers timing t.round rest).run c with ⟨⟨round', rest'⟩, c'⟩
  obtain ⟨on, fits', server, sent⟩ := requested_askNext hl fits hnext
  have asked' : round'.map Prod.fst ++ rest' = c.names := on.trans asked
  have written : ∀ t', log c'.wire.outside = log c.wire.outside ∨
      ∃ line, TaskLine c.names t t' line ∧ log c'.wire.outside = log c.wire.outside ++ [line] :=
    fun t' => sent.written.imp_right fun ⟨id, one⟩ => ⟨_, .list server id, one⟩
  cases rest' with
  | nil =>
    -- all servers were asked, and the table is set
    have all : round'.map Prod.fst = c.names := (List.append_nil _).symm.trans asked'
    obtain ⟨sound, ends, shown⟩ := hsettled round' all
    refine ⟨⟨sent.names, fun _ _ => ⟨_, agrees_settled fits' all, shown⟩, ?_, .inl rfl, written _,
      ?_⟩, sound, fits', tableIn_tableAfter all⟩
    · exact fun h => (h ⟨hlisting, ends⟩).elim
    · exact fun k r hk hdone => (busy k r hk hdone).elim
  | cons next rest' =>
    obtain ⟨sound, still⟩ := hmore round' (next :: rest') (foundIn round') asked'
    refine ⟨⟨sent.names, fun _ h => ?_, fun _ => sent.routes, .inl rfl, written _, ?_⟩, sound,
      fits', sent.routes ▸ known⟩
    · cases still.symm.trans h
    · exact fun k r hk hdone => (busy k r hk hdone).elim

theorem stepsWell_looking {round : List (String × ToolsReply)} {table : RouteTable} {k : Call}
    {c : Client σ} (fits : RoundFits round) (asked : round.map Prod.fst = c.names)
    (unnamed : table.lookup k.tool = none) (known : TableIn c.names c.routes) :
    StepsWell log ⟨round, [table], .looking k⟩ c (⟨round, [table, c.routes],
      .call { k with stage := stageFor c.routes k.tool }⟩, c) := by
  have found : Looked c.names round k.tool [table, c.routes] (c.routes.lookup k.tool) :=
    .afresh unnamed asked
  refine ⟨⟨rfl, ?_, fun _ => rfl, .inr rfl, .inl rfl, ?_⟩, ?_, fits, known⟩
  · rintro ⟨⟩
  · rintro k' r ⟨⟩
  · unfold stageFor
    cases hserver : c.routes.lookup k.tool with
    | some server => exact .calling (known _ _ hserver) rfl (hserver ▸ found)
    | none =>
      exact .done (r := .error (.unknownTool k.tool)) rfl (hserver ▸ found)
        ⟨fun _ => rfl, fun _ => rfl⟩

theorem stepsWell_calling (hl : LineLog servers log) {round : List (String × ToolsReply)}
    {looked : List RouteTable} {k : Call} {server : String} {c : Client σ} (fits : RoundFits round)
    (there : server ∈ c.names) (hstage : k.stage = .calling server)
    (named : Looked c.names round k.tool looked (some server)) (known : TableIn c.names c.routes)
    (timing : Timing) :
    StepsWell log ⟨round, looked, .call k⟩ c
      (⟨round, looked, .call ((k.stepIn servers timing).run c).1⟩,
        ((k.stepIn servers timing).run c).2) := by
  obtain ⟨r, hresult, answered, sent⟩ := stepIn_calling_run hl there hstage timing
  rw [hresult]
  refine ⟨⟨sent.names, fun h => ?_, fun _ => sent.routes, .inl rfl, ?_, ?_⟩, .done rfl named ?_,
    fits, sent.routes ▸ known⟩
  · cases (isListing_of_stage hstage ..).symm.trans h
  · exact sent.written.imp_right fun ⟨id, one⟩ => ⟨_, .call rfl named answered rfl id, one⟩
  · rintro k' r ⟨⟩ hdone
    cases hstage.symm.trans hdone
  · constructor
    · intro h
      cases h
    · exact fun h => (answered _ h).elim

/-- **One step of a task**: what it does, and that it leaves a sound task and a table of known
servers. -/
theorem dispatched_step (hl : LineLog servers log) {t : Task} {c : Client σ}
    (sound : t.Sound c.names) (fits : RoundFits t.round) (known : TableIn c.names c.routes)
    (timing : Timing) :
    StepsWell log t c ((t.step servers timing).run c) := by
  -- a case for each place where a task can be
  cases sound with
  | listing asked =>
    refine stepsWell_listOn hl fits asked known timing rfl (fun _ _ _ asked' =>
        ⟨.listing asked', rfl⟩) fun _ all =>
      ⟨.listed all, rfl, ?_⟩
    rintro shown ⟨⟩
    rfl
  | listed asked =>
    refine ⟨⟨rfl, ?_, fun _ => rfl, .inl rfl, .inl rfl, ?_⟩, .listed asked, fits, known⟩
    · rintro ⟨⟩
    · rintro k r ⟨⟩
  | callLists asked hstage unnamed =>
    rw [step_listing_call rfl hstage]
    refine stepsWell_listOn hl fits asked known timing (isListing_of_stage hstage ..)
      (fun _ _ _ asked' => ⟨.callLists asked' rfl unnamed, rfl⟩) fun _ all =>
        ⟨.looking all unnamed, rfl, ?_⟩
    rintro shown ⟨⟩
  | looking asked unnamed => exact stepsWell_looking fits asked unnamed known
  | calling there hstage named =>
    rw [step_call_run servers rfl (by simp [hstage])]
    exact stepsWell_calling hl fits there hstage named known timing
  | done hstage found ends =>
    rw [step_call_run servers rfl (by simp [hstage]), stepIn_done_run hstage]
    refine ⟨⟨rfl, fun h => ?_, fun _ => rfl, .inl rfl, .inl rfl, fun _ _ _ _ => ⟨rfl, rfl⟩⟩,
      .done hstage found ends, fits, known⟩
    cases (isListing_of_stage hstage ..).symm.trans h

/-! ### What a listing notes -/

/-- What a task notes of a server that it asks: what the request comes to, if it is made in time. -/
inductive Noted (servers : Servers σ) (c : Client σ) (server : String) : Timing → ToolsReply → Prop
  | heard {t : Transport} (there : c.transport? server = some t) :
      Noted servers c server .inTime (t.request servers "tools/list" none c.wire).1
  | late : Noted servers c server .late none
  | missed : Noted servers c server .missed none

theorem noted_askToolsIn {server : String} {c : Client σ} (there : server ∈ c.names)
    (timing : Timing) :
    Noted servers c server timing ((askToolsIn servers server timing).run c).1 := by
  cases timing with
  | inTime =>
    obtain ⟨t, ht⟩ := Option.isSome_iff_exists.mp (transport?_isSome_iff.mpr there)
    have asked : ((askTools servers server).run c).1 =
        (t.request servers "tools/list" none c.wire).1 := by
      rw [askTools_run, ht]
      change (ask servers t "tools/list" none c).1 = _
      unfold ask
      generalize t.request servers "tools/list" none c.wire = result
      obtain ⟨_ | r, u, w⟩ := result <;> rfl
    exact asked ▸ .heard ht
  | late => exact .late
  | missed => exact .missed

/-- From one round to the next at most one server is asked. -/
def NotesOne (servers : Servers σ) (c : Client σ) (timing : Timing)
    (round round' : List (String × ToolsReply)) : Prop :=
  round' = round ∨ ∃ server reply, round' = round ++ [(server, reply)] ∧
    Noted servers c server timing reply

theorem notesOne_listOn {t : Task} {rest : List String} {c : Client σ}
    (asked : t.round.map Prod.fst ++ rest = c.names) (timing : Timing)
    (more : List String → List (String × ToolDefinition) → Work)
    (settled : List ToolDefinition → Work) : NotesOne servers c timing t.round
      ((t.listOn servers timing rest more settled).run c).1.round := by
  rw [listOn_run, askNext_run]
  cases rest with
  | nil => exact .inl rfl
  | cons server rest =>
    have there : server ∈ c.names := asked ▸ List.mem_append_right _ List.mem_cons_self
    have noted := @noted_askToolsIn _ servers _ _ there timing
    cases rest with
    | nil => exact .inr ⟨server, _, rfl, noted⟩
    | cons next rest => exact .inr ⟨server, _, rfl, noted⟩

/-- **A step notes what its request came to.** -/
theorem notesOne_step {t : Task} {c : Client σ} (sound : t.Sound c.names) (timing : Timing) :
    NotesOne servers c timing t.round ((t.step servers timing).run c).1.round := by
  cases sound with
  | listing asked => exact notesOne_listOn asked timing _ _
  | listed => exact .inl rfl
  | callLists asked hstage =>
    rw [step_listing_call rfl hstage]
    exact notesOne_listOn asked timing _ _
  | looking => exact .inl rfl
  | calling there hstage =>
    rw [step_call_run servers rfl (by simp [hstage])]
    exact .inl rfl
  | done hstage =>
    rw [step_call_run servers rfl (by simp [hstage])]
    exact .inl rfl

end ChatRelay.Bridge
