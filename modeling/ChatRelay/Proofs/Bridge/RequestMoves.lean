import ChatRelay.Proofs.Bridge.SharedTransport

/-! # A request as moves of one caller

`Transport.request` does at once what a caller of a shared transport does in several moves: it
sends, the server writes on that, and it reads line after line until its wait ends. What a wait
comes to is found by induction on the lines (`reads_are_read`), and with the moves in front of it
this is the whole request (`request_is_run`). -/

namespace ChatRelay.Bridge

open Json

/-! ### Waiting line by line -/

namespace Transport

variable {t : Transport} {id : Nat} {line : List UInt8} {rest : List (List UInt8)}

theorem read_nil (none : t.channel.lines = []) : t.read id =
    (if t.channel.isClosed then some (.error (t.failure "server closed its output"))
      else Option.none, t) := by
  obtain ⟨server, isOpen, lines, opened, closed⟩ := t
  cases none
  cases closed <;> rfl

theorem read_missed (next : t.channel.lines = line :: rest) (missed : meet id line = none) :
    t.read id = ({ t with channel := { t.channel with lines := rest } } : Transport).read id := by
  unfold read Channel.await
  simp only [next, Bridge.await, missed]

theorem read_met {a : Awaited} (next : t.channel.lines = line :: rest)
    (met : meet id line = some a) : t.read id = (some (Shared.resultOf t a),
      { t with channel := { t.channel with lines := rest } }) := by
  unfold read Channel.await
  simp only [next, Bridge.await, met]
  rcases meet_cases met with ⟨r, -, rfl⟩ | ⟨f, -, rfl⟩
  · rfl
  · rfl

/-- The transport after what the server does on a line. -/
def hear (t : Transport) (out : Output) : Transport :=
  let channel := t.channel.receive out.bytes
  { t with channel := if out.closes then channel.close else channel }

section Request

variable {σ : Type} {servers : Servers σ} {method : String} {params : Option Value} {w : Wire σ}

theorem request_closed (closed : t.isOpen = false) : t.request servers method params w =
    (some (.error (t.failure "transport is closed")), t, { w with nextId := w.nextId + 1 }) := by
  simp only [request, write, closed]
  rfl

theorem request_unwritten (isOpen : t.isOpen = true) {reason : String} {outside : σ}
    (failed : servers.write t.server (callDoc (some w.nextId) method params).text w.outside =
      (.error reason, outside)) : t.request servers method params w =
    (some (.error (t.failure s!"write failed: {reason}")), t, ⟨outside, w.nextId + 1⟩) := by
  simp only [request, write, isOpen, failed]
  rfl

theorem request_written (isOpen : t.isOpen = true) {out : Output} {outside : σ}
    (written : servers.write t.server (callDoc (some w.nextId) method params).text w.outside =
      (.ok out, outside)) : t.request servers method params w =
    (((t.hear out).read w.nextId).1, ((t.hear out).read w.nextId).2, ⟨outside, w.nextId + 1⟩) := by
  have spoken : t.write servers (callDoc (some w.nextId) method params)
    { w with nextId := w.nextId + 1 } =
      (.ok (), t.hear out, ⟨outside, w.nextId + 1⟩) := by
    simp only [write, written]
    rw [if_neg (by simp [isOpen])]
    rfl
  simp only [request, spoken]

end Request

end Transport

namespace Shared

variable {σ : Type} {s : Shared} {i : Nat} {c : Caller}

theorem afterAll_append (s : Shared) (ms more : List CallerMove) :
    s.afterAll (ms ++ more) = (s.afterAll ms).bind (afterAll · more) := by
  induction ms generalizing s with
  | nil => rfl
  | cons m ms ih =>
    simp only [List.cons_append, afterAll]
    cases s.after m with
    | none => rfl
    | some s' => exact ih s'

/-- What is shared when a wait has come to what it comes to: the caller has a result, or reads
on. -/
def waited (s : Shared) (i : Nat) (c : Caller) (w : Option (Except Failure Value) × Transport) :
    Shared :=
  match w.1 with
  | some r => { s with transport := w.2 }.finish i c r
  | none => { s with transport := w.2 }

/-- Line after line, a caller that reads comes to what its wait comes to. -/
theorem reads_are_read (reading : c.phase = .reading) (lines : List (List UInt8)) (s : Shared)
    (here : s.callers[i]? = some c) (unread : s.transport.channel.lines = lines) :
    ∃ n, s.afterAll (List.replicate n (.read i)) = some (s.waited i c (s.transport.read c.id)) := by
  induction lines generalizing s with
  | nil =>
    rw [Transport.read_nil unread]
    by_cases closed : s.transport.channel.isClosed = true
    · have moved : s.after (.read i) = some (s.finish i c (resultOf s.transport .unanswered)) := by
        rw [after_read here reading]
        simp only [Shared.read, unread, closed, if_true]
      refine ⟨1, ?_⟩
      rw [List.replicate_one, afterAll, moved, if_pos closed]
      rfl
    · refine ⟨0, ?_⟩
      rw [if_neg closed]
      rfl
  | cons line rest ih =>
    cases hm : meet c.id line with
    | none =>
      have moved := (after_read here reading).trans (read_missed unread hm)
      obtain ⟨n, run⟩ := ih (s.withLines rest) here rfl
      refine ⟨n + 1, ?_⟩
      rw [List.replicate_succ, afterAll, moved, Transport.read_missed unread hm]
      exact run
    | some a =>
      have moved := (after_read here reading).trans (read_met unread hm)
      refine ⟨1, ?_⟩
      rw [List.replicate_one, afterAll, moved, Transport.read_met unread hm]
      rfl

/-! ### A whole request -/

/-- The move is one of the server, or part of the request of the caller `i`. -/
def ForRequest (i : Nat) : CallerMove → Prop
  | .send j | .sendFails j _ | .read j => j = i
  | .serverWrites _ | .serverCloses => True
  | _ => False

theorem after_send (here : s.callers[i]? = some c) (queued : c.phase = .queued)
    (free : s.holder = none) : s.after (.send i) = some (s.send i c) := by
  simp only [Shared.after, here, Option.bind_some, act, queued, free, if_true]

theorem after_sendFails (here : s.callers[i]? = some c) (queued : c.phase = .queued)
    (free : s.holder = none) (reason : String) :
    s.after (.sendFails i reason) = s.sendFails i c reason := by
  simp only [Shared.after, here, Option.bind_some, act, queued, free, if_true]

/-- What the server does on a line, as moves. -/
def movesOf (out : Output) : List CallerMove :=
  .serverWrites out.bytes :: if out.closes then [.serverCloses] else []

theorem afterAll_movesOf (s : Shared) (out : Output) :
    s.afterAll (movesOf out) = some { s with transport := s.transport.hear out } := by
  unfold movesOf Transport.hear
  cases out.closes <;> rfl

theorem callers_waited (here : s.callers[i]? = some c) (reading : c.phase = .reading)
    (w : Option (Except Failure Value) × Transport) : ∃ c', (s.waited i c w).callers[i]? = some c' ∧
      c'.id = c.id ∧ c'.phase = (w.1.map CallerPhase.done).getD .reading := by
  obtain ⟨r, t⟩ := w
  cases r with
  | none => exact ⟨c, here, rfl, reading⟩
  | some r =>
    have there : ({ s with transport := t } : Shared).callers[i]? = some c := here
    exact ⟨_, callers_finish there r, rfl, rfl⟩

theorem transport_waited (w : Option (Except Failure Value) × Transport) :
    (s.waited i c w).transport = w.2 := by
  obtain ⟨r, t⟩ := w
  cases r <;> rfl

/-- A request on a free transport is a run of one more caller and the server: the transport is left
as the run leaves it, and the caller has the result of the request, or still reads if it has
none. -/
theorem request_is_run (servers : Servers σ) (free : s.holder = none) (method : String)
    (params : Option Value) (w : Wire σ) (ids : w.nextId = s.nextId) :
    ∃ ms s' c, s.afterAll (.call method params :: ms) = some s' ∧
      (∀ m ∈ ms, ForRequest s.callers.length m) ∧
      s'.transport = (s.transport.request servers method params w).2.1 ∧
      s'.callers[s.callers.length]? = some c ∧ c.id = s.nextId ∧
      c.phase = ((s.transport.request servers method params w).1.map CallerPhase.done).getD
        .reading := by
  let i := s.callers.length
  let c : Caller := ⟨s.nextId, method, params, .queued⟩
  let s₁ : Shared := { s with nextId := s.nextId + 1, callers := s.callers ++ [c] }
  have here : s₁.callers[i]? = some c := by simp [s₁, i]
  have called (ms : List CallerMove) : s.afterAll (.call method params :: ms) = s₁.afterAll ms :=
    rfl
  by_cases isOpen : s.transport.isOpen = true
  · rcases written : servers.write s.transport.server (callDoc (some w.nextId) method params).text
      w.outside with ⟨reason | out, outside⟩
    · let r : Except Failure Value := .error (s.transport.failure s!"write failed: {reason}")
      have failed : s₁.sendFails i c reason = some (s₁.finish i c r) := if_pos isOpen
      rw [Transport.request_unwritten isOpen written]
      refine ⟨[.sendFails i reason], s₁.finish i c r, _, ?_, ?_, rfl, callers_finish here r, rfl,
        rfl⟩
      · rw [called, afterAll, after_sendFails here rfl free, failed]
        rfl
      · simp [ForRequest, i]
    · let c₂ : Caller := { c with phase := .reading }
      let s₂ : Shared := { s₁.send i c with transport := s.transport.hear out }
      have sent : s₁.send i c = { s₁ with holder := some i,
                                          received := c.id :: s₁.received }.setPhase i c
          .reading := if_pos isOpen
      have here₂ : s₂.callers[i]? = some c₂ := by simp [s₂, sent, setPhase, s₁, i, c₂]
      obtain ⟨n, reads⟩ := reads_are_read rfl _ s₂ here₂ rfl
      obtain ⟨c', there, id, phase⟩ := callers_waited here₂ rfl (s₂.transport.read c₂.id)
      have same : s₂.transport.read c₂.id = (s.transport.hear out).read w.nextId := by rw [ids]
      rw [Transport.request_written isOpen written, ← same]
      refine ⟨.send i :: (movesOf out ++ List.replicate n (.read i)), _, c', ?_, ?_,
        transport_waited _, there, id, phase⟩
      · have heard : (s₁.send i c).afterAll (movesOf out) = some s₂ := by
          have unread : (s₁.send i c).transport = s.transport := by
            rw [sent]
            rfl
          rw [afterAll_movesOf, unread]
        rw [called, afterAll, after_send here rfl free, Option.bind_some, afterAll_append, heard]
        exact reads
      · intro m hm
        simp only [movesOf, List.mem_cons, List.mem_append, List.mem_replicate] at hm
        rcases hm with rfl | (rfl | hm) | ⟨-, rfl⟩
        · exact rfl
        · trivial
        · split at hm
          · cases List.mem_singleton.mp hm
            trivial
          · cases hm
        · exact rfl
  · have closed : s.transport.isOpen = false := by simpa using isOpen
    let r : Except Failure Value := .error (s.transport.failure "transport is closed")
    have sent : s₁.send i c = s₁.finish i c r := if_neg isOpen
    rw [Transport.request_closed closed]
    refine ⟨[.send i], s₁.finish i c r, _, ?_, ?_, rfl, callers_finish here r, rfl, rfl⟩
    · rw [called, afterAll, after_send here rfl free, sent]
      rfl
    · simp [ForRequest, i]

end Shared

end ChatRelay.Bridge
