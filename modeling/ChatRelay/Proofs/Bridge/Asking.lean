import ChatRelay.Bridge.Tasks
import ChatRelay.Proofs.Bridge.RequestMoves
import Mathlib.Data.List.Nodup

/-! # What requests leave alone

A request of the client is written to one server and changes the way to it, and nothing else: the
client keeps its servers and its table. `Requested` says so, with the line that was written; servers
that keep a log of their lines (`LineLog`) find that one more in it, or none if the way was
closed. -/

namespace ChatRelay.Bridge

open Json Completion

variable {σ : Type} {servers : Servers σ} {log : σ → List (String × String)}

/-! ### Transports -/

namespace Transport

variable {t : Transport} {method : String} {params : Option Value} {w : Wire σ}

theorem server_read (t : Transport) (id : Nat) : (t.read id).2.server = t.server := by
  unfold read
  dsimp only
  split
  · rfl
  · rfl
  · split <;> rfl

theorem server_write (t : Transport) (message : Doc) (w : Wire σ) :
    (t.write servers message w).2.1.server = t.server := by
  unfold write
  split
  · rfl
  · split <;> rfl

theorem server_request (t : Transport) (method : String) (params : Option Value) (w : Wire σ) :
    (t.request servers method params w).2.1.server = t.server := by
  by_cases isOpen : t.isOpen = true
  · rcases written : servers.write t.server
      (callDoc (some w.nextId) method params).text w.outside with
      ⟨reason | out, outside⟩
    · rw [request_unwritten isOpen written]
    · rw [request_written isOpen written]
      exact server_read _ _
  · rw [request_closed (by simpa using isOpen)]

/-- A failed request never blames the tool. -/
theorem request_ne_unknownTool {name : String} :
    (t.request servers method params w).1 ≠ some (.error (.unknownTool name)) := by
  by_cases isOpen : t.isOpen = true
  · rcases written : servers.write t.server
      (callDoc (some w.nextId) method params).text w.outside with
      ⟨reason | out, outside⟩
    · rw [request_unwritten isOpen written]
      intro h
      cases h
    · rw [request_written isOpen written]
      intro h
      dsimp only at h
      unfold read at h
      dsimp only at h
      split at h
      next r _ =>
        unfold Transport.resultOf at h
        cases he : r.error <;> simp [he] at h
      · cases h
      · split at h <;> cases h
  · rw [request_closed (by simpa using isOpen)]
    intro h
    cases h

end Transport

/-! ### The log of lines -/

/-- The servers keep a log of the lines that are written to them. -/
structure LineLog (servers : Servers σ) (log : σ → List (String × String)) : Prop where
  write : ∀ server line s, log (servers.write server line s).2 = log s ++ [(server, line)]

/-- The same servers, with a log of the lines. -/
def Servers.logged (servers : Servers σ) : Servers (σ × List (String × String)) where
  start server command s :=
    let (r, t) := servers.start server command s.1
    (r, (t, s.2))
  write server line s :=
    let (r, t) := servers.write server line s.1
    (r, (t, s.2 ++ [(server, line)]))
  stop server s :=
    let (bytes, t) := servers.stop server s.1
    (bytes, (t, s.2))

/-- Any servers can keep a log. -/
theorem lineLog_logged (servers : Servers σ) : LineLog servers.logged Prod.snd := ⟨fun _ _ _ => rfl⟩

/-- The line of a request. -/
def requestLine (id : Nat) (method : String) (params : Option Value) : String :=
  (callDoc (some id) method params).text

theorem Transport.log_request (hl : LineLog servers log) (t : Transport) (method : String)
    (params : Option Value) (w : Wire σ) :
    log (t.request servers method params w).2.2.outside = log w.outside ∨
      ∃ id, log (t.request servers method params w).2.2.outside =
        log w.outside ++ [(t.server, requestLine id method params)] := by
  by_cases isOpen : t.isOpen = true
  · have noted := hl.write t.server (callDoc (some w.nextId) method params).text w.outside
    rcases written : servers.write t.server
      (callDoc (some w.nextId) method params).text w.outside with
      ⟨reason | out, outside⟩
    · rw [request_unwritten isOpen written]
      rw [written] at noted
      exact .inr ⟨w.nextId, noted⟩
    · rw [request_written isOpen written]
      rw [written] at noted
      exact .inr ⟨w.nextId, noted⟩
  · rw [request_closed (by simpa using isOpen)]
    exact .inl rfl

/-! ### Requests of the client -/

namespace Client

theorem names_setTransport (c : Client σ) (t : Transport)
    (w : Wire σ) : (c.setTransport t w).names = c.names := by
  unfold setTransport names
  rw [List.map_map]
  refine List.map_congr_left fun u _ => ?_
  by_cases same : u.server = t.server
  · simp [same]
  · simp [same]

theorem server_of_transport? {c : Client σ} {server : String} {t : Transport}
    (h : c.transport? server = some t) : t.server = server := by
  simpa using List.find?_some h

theorem transport?_isSome_iff {c : Client σ} {server : String} :
    (c.transport? server).isSome = true ↔ server ∈ c.names := by
  simp [transport?, names]

/-- From the first client to the second, at most one request was written, to one server. -/
structure Requested (log : σ → List (String × String)) (server method : String)
    (params : Option Value) (c c' : Client σ) : Prop where
  names : c'.names = c.names
  routes : c'.routes = c.routes
  written : log c'.wire.outside = log c.wire.outside ∨
    ∃ id, log c'.wire.outside = log c.wire.outside ++ [(server, requestLine id method params)]

theorem Requested.refl (server method : String) (params : Option Value) (c : Client σ) :
    Requested log server method params c c := ⟨rfl, rfl, .inl rfl⟩

theorem requested_ask (hl : LineLog servers log) (t : Transport) (method : String)
    (params : Option Value) (c : Client σ) : Requested log t.server method params c
      ((ask servers t method params).run c).2 := by
  have written := t.log_request hl method params c.wire
  change Requested log t.server method params c (ask servers t method params c).2
  unfold ask
  generalize t.request servers method params c.wire = result at written
  obtain ⟨r, u, w⟩ := result
  cases r with
  | none => exact ⟨names_setTransport .., rfl, written⟩
  | some r => exact ⟨names_setTransport .., rfl, written⟩

theorem askTools_run (server : String) (c : Client σ) : (askTools servers server).run c =
    match c.transport? server with
    | none => (none, c)
    | some t => (ask servers t "tools/list" none).run c := by
  unfold askTools
  rw [StateT.run_bind, StateT.run_get, pure_bind]
  dsimp only
  cases c.transport? server <;> rfl

theorem requested_askTools (hl : LineLog servers log) (server : String) (c : Client σ) :
    Requested log server "tools/list" none c ((askTools servers server).run c).2 := by
  rw [askTools_run]
  cases ht : c.transport? server with
  | none => exact .refl ..
  | some t =>
    rw [← server_of_transport? ht]
    exact requested_ask hl t ..

/-- What a server lists is what its reply lists. -/
theorem listServer_run (server : String) (c : Client σ) : (listServer servers server).run c =
    (listedBy ((askTools servers server).run c).1, ((askTools servers server).run c).2) := by
  rw [askTools_run]
  unfold listServer
  rw [StateT.run_bind, StateT.run_get, pure_bind]
  dsimp only
  cases c.transport? server with
  | none => rfl
  | some t =>
    dsimp only
    rw [StateT.run_bind]
    generalize (ask servers t "tools/list" none).run c = reply
    obtain ⟨_ | _ | result, c'⟩ := reply <;> rfl

/-- What a call comes to at its server. -/
theorem atServer_run (late : Bool) (k : Call) (server : String) (c : Client σ) :
    (k.atServer servers late server).run c =
      match c.transport? server with
      | none => (.error (.unknownTool k.tool), c)
      | some t =>
        match (ask servers t "tools/call" (some k.params)).run c with
        | (none, c) => (.error (k.timeout c.callTimeout), c)
        | (some r, c) =>
          (if late then .error (k.timeout c.callTimeout) else r.bind (outcomeOf server k.tool),
            c) := by
  unfold Call.atServer
  rw [StateT.run_bind, StateT.run_get, pure_bind]
  dsimp only
  cases c.transport? server with
  | none => rfl
  | some t =>
    dsimp only
    rw [StateT.run_bind]
    generalize (ask servers t "tools/call" (some k.params)).run c = result
    obtain ⟨_ | r, c'⟩ := result
    · rfl
    · cases late <;> rfl

theorem outcomeOf_ne_unknownTool {server tool name : String} {result : Value} :
    outcomeOf server tool result ≠ .error (.unknownTool name) := by
  unfold outcomeOf
  split
  · intro h
    cases h
  · split <;> intro h <;> cases h

/-- **A call is written to its server only**, and if there is such a server it does not end as
unknown. -/
theorem requested_atServer (hl : LineLog servers log) (late : Bool) (k : Call) {server : String}
    {c : Client σ} (there : server ∈ c.names) :
    Requested log server "tools/call" (some k.params) c ((k.atServer servers late server).run c).2 ∧
      ∀ name, ((k.atServer servers late server).run c).1 ≠ .error (.unknownTool name) := by
  obtain ⟨t, ht⟩ := Option.isSome_iff_exists.mp (transport?_isSome_iff.mpr there)
  have asked := requested_ask hl t "tools/call" (some k.params) c
  rw [server_of_transport? ht] at asked
  have known : ∀ name,
      ((ask servers t "tools/call" (some k.params)).run c).1 ≠
          some (.error (.unknownTool name)) := by
    intro name
    change (ask servers t "tools/call" (some k.params) c).1 ≠ _
    unfold ask
    have fine : (t.request servers "tools/call" (some k.params) c.wire).1 ≠
        some (.error (.unknownTool name)) :=
      t.request_ne_unknownTool
    generalize t.request servers "tools/call" (some k.params) c.wire = result at fine
    obtain ⟨_ | r, u, w⟩ := result
    · intro h
      cases h
    · exact fine
  rw [atServer_run, ht]
  dsimp only
  generalize (ask servers t "tools/call" (some k.params)).run c = result at asked known
  obtain ⟨_ | r, c'⟩ := result
  · refine ⟨asked, fun name h => ?_⟩
    cases h
  · refine ⟨asked, fun name h => ?_⟩
    cases late with
    | true => cases h
    | false =>
      dsimp only [Bool.false_eq_true, if_false] at h
      cases r with
      | error f =>
        cases h
        exact known name rfl
      | ok result => exact outcomeOf_ne_unknownTool h

/-! ### The servers of a client -/

theorem server_greet (t : Transport) (w : Wire σ) : (greet servers t w).2.1.server = t.server := by
  have asked : (t.request servers "initialize" (some greeting) w).2.1.server = t.server :=
    t.server_request ..
  unfold greet
  generalize t.request servers "initialize" (some greeting) w = result at asked
  obtain ⟨_ | f | r, u, w'⟩ := result
  · exact asked
  · exact asked
  · dsimp only [Transport.notify]
    have noted : (u.write servers (callDoc none "notifications/initialized" none) w').2.1.server =
        u.server :=
      u.server_write ..
    generalize u.write servers (callDoc none "notifications/initialized" none) w' =
      result at noted ⊢
    obtain ⟨_ | _, v, w''⟩ := result
    · exact noted.trans asked
    · exact noted.trans asked

theorem server_startServer {name : String} {command : Config.ServerCommand} {w w' : Wire σ}
    {t : Transport} (h : startServer servers name command w = (.ok t, w')) : t.server = name := by
  unfold startServer at h
  split at h
  · cases h
  next s _ =>
    have greeted : (greet servers (.new name) { w with outside := s }).2.1.server = name :=
      server_greet ..
    generalize greet servers (.new name) { w with outside := s } = result at greeted h
    obtain ⟨_ | reason, u, w''⟩ := result
    · cases h
      exact greeted
    · cases h

/-- A configured server runs or is among the failures. -/
theorem perm_startAll (commands : List (String × Config.ServerCommand)) : ∀ w : Wire σ,
    ((startAll servers commands w).1.map (·.server) ++
      (startAll servers commands w).2.1.map Prod.fst).Perm
      (commands.map Prod.fst) := by
  induction commands with
  | nil => exact fun w => .nil
  | cons x commands ih =>
    intro w
    obtain ⟨name, command⟩ := x
    unfold startAll
    split
    next t w' hstart =>
      rw [List.map_cons, List.map_cons, server_startServer hstart]
      exact (ih w').cons name
    next f w' hstart => exact List.perm_middle.trans ((ih w').cons name)

variable {commands commands' : List (String × Config.ServerCommand)}

theorem start_eq (servers : Servers σ) (commands : List (String × Config.ServerCommand))
    (timeout : Option Nat) (s : σ) : start servers commands timeout s =
      (⟨(startAll servers commands ⟨s, 1⟩).2.2,
        (startAll servers commands ⟨s, 1⟩).1.mergeSort fun a b => a.server ≤ b.server, [],
        timeout.getD defaultCallTimeout⟩, (startAll servers commands ⟨s, 1⟩).2.1) := rfl

theorem perm_names_start (servers : Servers σ) (commands : List (String × Config.ServerCommand))
    (timeout : Option Nat) (s : σ) :
    ((start servers commands timeout s).1.names ++
      (start servers commands timeout s).2.map Prod.fst).Perm
      (commands.map Prod.fst) :=
  ((((List.mergeSort_perm _ _).map _).append_right _).trans (perm_startAll commands ⟨s, 1⟩))

/-- **The servers stand in the order of their names.** -/
theorem names_start (servers : Servers σ) (keys : (commands.map Prod.fst).Nodup)
    (timeout : Option Nat) (s : σ) :
    (start servers commands timeout s).1.names.Pairwise (· < ·) := by
  have distinct : (start servers commands timeout s).1.names.Nodup :=
    (List.nodup_append.mp ((perm_names_start servers commands timeout s).nodup_iff.mpr keys)).1
  have sorted : (start servers commands timeout s).1.transports.Pairwise
      fun a b => decide (a.server ≤ b.server) = true := by
    refine List.pairwise_mergeSort (fun a b c hab hbc => ?_) (fun a b => ?_) _
    · exact decide_eq_true (String.le_trans (of_decide_eq_true hab) (of_decide_eq_true hbc))
    · simpa using String.le_total a.server b.server
  have ordered : (start servers commands timeout s).1.names.Pairwise (· ≤ ·) :=
    List.pairwise_map.mpr (sorted.imp of_decide_eq_true)
  exact (ordered.and distinct).imp fun h => String.not_le.mp fun back =>
    h.2 (String.le_antisymm h.1 back)

/-- **The order in which servers are started does not matter** for the order of those that run. -/
theorem names_start_eq (keys : (commands.map Prod.fst).Nodup) (same : commands'.Perm commands)
    {timeout : Option Nat} {s s' : σ}
    (running : (start servers commands' timeout s').1.names.Perm
      (start servers commands timeout s).1.names) :
    (start servers commands' timeout s').1.names = (start servers commands timeout s).1.names := by
  have keys' : (commands'.map Prod.fst).Nodup := (same.map _).nodup_iff.mpr keys
  refine List.Perm.eq_of_pairwise (fun a b _ _ hab hba => ?_) (names_start servers keys' timeout s')
    (names_start servers keys timeout s) running
  exact (String.lt_asymm hab hba).elim

end Client

end ChatRelay.Bridge
