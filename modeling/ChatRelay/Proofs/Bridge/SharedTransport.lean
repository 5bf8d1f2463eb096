import ChatRelay.Proofs.Bridge.Answers

/-! # Callers get the answers to their own requests

In a run of `Shared` the server may answer what it has received in any order, late, twice or never,
and callers may give up. A run is orderly if the server answers no request before it has received
it, and if callers give up between two lines (`Orderly`).

What holds after every move is `InOrder`: ids are told apart, what the server has answered it has
received, and each caller stands in the output where its phase says. A caller in the queue has no
answer there yet, so the caller that has the transport has passed over all lines without meeting one
(`Standing`). A caller that has a result met the first answer to its request, or was told why there
is none (`Settled`). -/

namespace ChatRelay.Bridge

open Json

namespace Shared

/-! ### Orderly runs -/

/-- What the server has written after a move, with nothing read. -/
def outputAfter (out : Channel) : CallerMove → Channel
  | .serverWrites bytes => out.receive bytes
  | .serverCloses => out.close
  | _ => out

/-- What the server writes in a run. -/
def output (ms : List CallerMove) : Channel := ms.foldl outputAfter .empty

/-- Among the lines are answers only to requests that were received. -/
def OnlyAnswers (received : List Nat) (lines : List (List UInt8)) : Prop :=
  ∀ line ∈ lines, ∀ r ∈ responseIn? line, ∀ id ∈ r.id, id ∈ received

instance (received : List Nat) (lines : List (List UInt8)) :
    Decidable (OnlyAnswers received lines) :=
  inferInstanceAs (Decidable (∀ line ∈ lines, ∀ r ∈ responseIn? line, ∀ id ∈ r.id, id ∈ received))

/-- The server answers with a move only what it has received, and a caller that gives up has not
read the start of a line. -/
def Orderly (s : Shared) : CallerMove → Prop
  | .giveUp _ lost => lost = 0
  | .serverWrites bytes => OnlyAnswers s.received
      ((s.transport.channel.receive bytes).lines.drop s.transport.channel.lines.length)
  | .serverCloses => OnlyAnswers s.received
      (s.transport.channel.close.lines.drop s.transport.channel.lines.length)
  | _ => True

instance (s : Shared) : ∀ m, Decidable (s.Orderly m)
  | .giveUp _ lost => inferInstanceAs (Decidable (lost = 0))
  | .serverWrites _ => inferInstanceAs (Decidable (OnlyAnswers _ _))
  | .serverCloses => inferInstanceAs (Decidable (OnlyAnswers _ _))
  | .call _ _ | .callElsewhere | .send _ | .sendFails _ _ | .read _ | .close => isTrue trivial

/-- All moves of a run are orderly. -/
def OrderlyRun : Shared → List CallerMove → Prop
  | _, [] => True
  | s, m :: ms => s.Orderly m ∧ ∀ s' ∈ s.after m, OrderlyRun s' ms

instance decidableOrderlyRun : ∀ (s : Shared) (ms : List CallerMove), Decidable (OrderlyRun s ms)
  | _, [] => isTrue trivial
  | s, m :: ms =>
    have := fun s' => decidableOrderlyRun s' ms
    inferInstanceAs (Decidable (s.Orderly m ∧ ∀ s' ∈ s.after m, OrderlyRun s' ms))

/-! ### Where callers stand -/

/-- The result tells of trouble with the transport. -/
def IsTrouble (r : Except Failure Value) : Prop :=
  ∃ server reason, r = .error (.transportError server reason)

/-- A caller has the first answer to its request, from a line that was read; or there is trouble,
because its request did not reach the server, because it met a line that is not text before any
answer, or because the output has ended without an answer. -/
def Settled (out : Channel) (past : List (List UInt8)) (received : List Nat) (id : Nat)
    (r : Except Failure Value) : Prop :=
  (∃ response, firstAnswer? id past = some response ∧ r = Transport.resultOf response) ∨
    IsTrouble r ∧ (id ∉ received ∨
      (∃ before line after, out.lines = before ++ line :: after ∧ firstAnswer? id before = none ∧
        ¬ IsText line) ∨
      out.isClosed = true ∧ firstAnswer? id out.lines = none)

/-- Where a caller stands in the output `out`, of which the lines `past` were read. -/
def Standing (out : Channel) (past : List (List UInt8)) (holder : Option Nat) (received : List Nat)
    (i id : Nat) : CallerPhase → Prop
  | .queued => id ∉ received
  | .reading => holder = some i ∧ firstAnswer? id past = none
  | .done r => Settled out past received id r
  | .gaveUp => True

/-- The output `out`, of which the lines `past` were read, and the callers agree. -/
structure InOrder (out : Channel) (past : List (List UInt8)) (s : Shared) : Prop where
  ids : ∀ {i j : Nat} {c c' : Caller}, s.callers[i]? = some c → s.callers[j]? = some c' →
    c.id = c'.id → i = j
  fresh : ∀ {i : Nat} {c : Caller}, s.callers[i]? = some c → c.id < s.nextId
  known : ∀ id ∈ s.received, id < s.nextId
  answers : OnlyAnswers s.received out.lines
  unread : ReadOff past out s.transport.channel
  ended : out.isClosed = true → out.opened = []
  standing : ∀ {i : Nat} {c : Caller}, s.callers[i]? = some c →
    Standing out past s.holder s.received i c.id c.phase

variable {out : Channel} {past : List (List UInt8)} {s s' : Shared}

/-- What has not been received has no answer. -/
theorem firstAnswer?_of_not_received {received : List Nat} {lines : List (List UInt8)} {id : Nat}
    (answers : OnlyAnswers received lines) (new : id ∉ received) :
    firstAnswer? id lines = none := by
  rw [firstAnswer?_eq_none_iff]
  intro line hline
  by_contra some
  obtain ⟨r, hr⟩ := Option.ne_none_iff_exists'.mp some
  obtain ⟨there, hid⟩ := responseIn?_of_answerTo? hr
  exact new (answers line hline r there id hid)

theorem inOrder_start (server : String) : InOrder .empty [] (.start server) where
  ids := by simp [start]
  fresh := by simp [start]
  known := by simp [start]
  answers := by simp [OnlyAnswers, Channel.empty]
  unread := ⟨rfl, rfl, rfl⟩
  ended := fun _ => rfl
  standing := by simp [start]

/-! ### Moves of the server -/

/-- What an output becomes when more is written. -/
structure Grows (out out' : Channel) : Prop where
  lines : ∃ new, out'.lines = out.lines ++ new ∧ (out.isClosed = true → new = [])
  isClosed : out.isClosed = true → out'.isClosed = true

theorem Settled.grow {out' : Channel} {received : List Nat} {id : Nat} {r : Except Failure Value}
    (settled : Settled out past received id r) (grows : Grows out out') :
    Settled out' past received id r := by
  obtain ⟨new, hnew, nothing⟩ := grows.lines
  rcases settled with answered |
    ⟨trouble, unsent | ⟨before, line, after, hout, none, broken⟩ | ⟨closed, none⟩⟩
  · exact .inl answered
  · exact .inr ⟨trouble, .inl unsent⟩
  · refine .inr ⟨trouble, .inr (.inl ⟨before, line, after ++ new, ?_, none, broken⟩)⟩
    rw [hnew, hout, List.append_assoc]
    rfl
  · refine .inr ⟨trouble, .inr (.inr ⟨grows.isClosed closed, ?_⟩)⟩
    rw [hnew, nothing closed, List.append_nil]
    exact none

theorem Standing.grow {out' : Channel} {holder : Option Nat} {received : List Nat} {i id : Nat}
    {phase : CallerPhase} (standing : Standing out past holder received i id phase)
    (grows : Grows out out') : Standing out' past holder received i id phase := by
  cases phase with
  | queued => exact standing
  | reading => exact standing
  | done r => exact Settled.grow standing grows
  | gaveUp => trivial

/-- Whatever the server writes is added to the output and to what is unread of it. -/
theorem InOrder.written {out' channel : Channel} (inv : InOrder out past s)
    (unread : ReadOff past out' channel)
    (more : ∃ new, channel.lines = s.transport.channel.lines ++ new)
    (only : OnlyAnswers s.received (channel.lines.drop s.transport.channel.lines.length))
    (grows : Grows out out') (ended : out'.isClosed = true → out'.opened = []) :
    InOrder out' past { s with transport := { s.transport with channel } } where
  ids := inv.ids
  fresh := inv.fresh
  known := inv.known
  unread := unread
  ended := ended
  standing := fun here => (inv.standing here).grow grows
  answers := by
    obtain ⟨new, hnew⟩ := more
    rw [hnew, List.drop_left] at only
    intro line hline
    rw [unread.lines, hnew, ← List.append_assoc, ← inv.unread.lines, List.mem_append] at hline
    rcases hline with old | new
    · exact inv.answers line old
    · exact only line new

theorem InOrder.serverWrites (inv : InOrder out past s) {bytes : List UInt8}
    (orderly : s.Orderly (.serverWrites bytes)) : InOrder (out.receive bytes) past
      { s with transport := { s.transport
        with channel := s.transport.channel.receive bytes } } := by
  obtain ⟨new, hnew, -⟩ := s.transport.channel.lines_receive bytes
  refine inv.written (inv.unread.receive bytes) ⟨new, hnew⟩ orderly ⟨out.lines_receive bytes, ?_⟩ ?_
  · intro closed
    unfold Channel.receive
    rw [if_pos closed]
    exact closed
  · intro closed
    unfold Channel.receive at closed ⊢
    split at closed
    · rename_i before
      rw [if_pos before]
      exact inv.ended before
    · exact absurd closed ‹_›

theorem InOrder.serverCloses (inv : InOrder out past s) (orderly : s.Orderly .serverCloses) :
    InOrder out.close past
      { s with transport := { s.transport with channel := s.transport.channel.close } } := by
  refine inv.written inv.unread.close s.transport.channel.lines_close orderly ⟨?_, fun _ => rfl⟩
    fun _ => rfl
  by_cases closed : out.isClosed = true
  · refine ⟨[], ?_, fun _ => rfl⟩
    simp [Channel.close, inv.ended closed]
  · obtain ⟨new, hnew⟩ := out.lines_close
    exact ⟨new, hnew, fun h => absurd h closed⟩

/-! ### Moves of callers -/

/-- A caller that does not have the transport stands where it stood, whatever the one that has it
does. -/
theorem Standing.other {holder holder' : Option Nat} {received : List Nat} {j id : Nat}
    {phase : CallerPhase} (standing : Standing out past holder received j id phase)
    (waits : holder ≠ some j) (more : List (List UInt8)) :
    Standing out (past ++ more) holder' received j id phase := by
  cases phase with
  | queued => exact standing
  | reading => exact absurd standing.1 waits
  | done r =>
    rcases standing with ⟨response, first, rfl⟩ | trouble
    · exact .inl ⟨response, firstAnswer?_append_of_some first more, rfl⟩
    · exact .inr trouble
  | gaveUp => trivial

/-- A caller stands where it stood when the request of another one is received. -/
theorem Standing.received {holder : Option Nat} {received : List Nat} {j id new : Nat}
    {phase : CallerPhase} (standing : Standing out past holder received j id phase)
    (ne : id ≠ new) : Standing out past holder (new :: received) j id phase := by
  have still {known : List Nat} (h : id ∉ known) : id ∉ new :: known := by
    rw [List.mem_cons, not_or]
    exact ⟨ne, h⟩
  cases phase with
  | queued => exact still standing
  | reading => exact standing
  | done r =>
    rcases standing with answered | ⟨trouble, unsent | rest⟩
    · exact .inl answered
    · exact .inr ⟨trouble, .inl (still unsent)⟩
    · exact .inr ⟨trouble, .inr rest⟩
  | gaveUp => trivial

/-- One caller changes its phase, and the others keep theirs: either nothing of the transport
changes hands, or no other caller has it. -/
theorem InOrder.moved (inv : InOrder out past s) {i : Nat} {c : Caller} {phase : CallerPhase}
    {more : List (List UInt8)}
    (here : s.callers[i]? = some c) (callers : s'.callers = s.callers.set i { c with phase })
    (nextId : s'.nextId = s.nextId)
    (received : s'.received = s.received ∨ s'.received = c.id :: s.received)
    (unread : ReadOff (past ++ more) out s'.transport.channel)
    (own : Standing out (past ++ more) s'.holder s'.received i c.id phase)
    (others : more = [] ∧ s'.holder = s.holder ∨ ∀ j ≠ i, s.holder ≠ some j) :
    InOrder out (past ++ more) s' := by
  -- every caller is one that was there, with its id; only `i` has another phase
  have old {j : Nat} {c' : Caller} (there : s'.callers[j]? = some c') :
      ∃ c₀, s.callers[j]? = some c₀ ∧ c'.id = c₀.id ∧ (j ≠ i → c' = c₀) ∧
          (j = i → c'.phase = phase) := by
    rw [callers, List.getElem?_set] at there
    by_cases hj : i = j
    · subst hj
      have bound : i < s.callers.length := (List.getElem?_eq_some_iff.mp here).1
      simp only [if_true, bound, Option.some.injEq] at there
      subst there
      exact ⟨c, here, rfl, fun ne => absurd rfl ne, fun _ => rfl⟩
    · rw [if_neg hj] at there
      exact ⟨c', there, rfl, fun _ => rfl, fun eq => absurd eq.symm hj⟩
  constructor
  · intro j k c' c'' hj hk same
    obtain ⟨d, hd, hid, -⟩ := old hj
    obtain ⟨d', hd', hid', -⟩ := old hk
    exact inv.ids hd hd' (by rw [← hid, ← hid', same])
  · intro j c' hj
    obtain ⟨d, hd, hid, -⟩ := old hj
    rw [hid, nextId]
    exact inv.fresh hd
  · intro id hid
    rw [nextId]
    rcases received with same | new
    · rw [same] at hid
      exact inv.known id hid
    · rw [new, List.mem_cons] at hid
      rcases hid with rfl | hid
      · exact inv.fresh here
      · exact inv.known id hid
  · intro line hline r hr id hid
    have before := inv.answers line hline r hr id hid
    rcases received with same | new
    · rw [same]
      exact before
    · rw [new]
      exact List.mem_cons_of_mem _ before
  · exact unread
  · exact inv.ended
  · intro j c' hj
    obtain ⟨d, hd, hid, hne, heq⟩ := old hj
    by_cases hji : j = i
    · subst hji
      cases here.symm.trans hd
      rw [hid, heq rfl]
      exact own
    · have hcd := hne hji
      subst hcd
      have stood : Standing out (past ++ more) s'.holder s.received j c'.id c'.phase := by
        rcases others with ⟨rfl, holder⟩ | free
        · rw [holder, List.append_nil]
          exact inv.standing hd
        · exact (inv.standing hd).other (free j hji) more
      rcases received with same | new
      · rw [same]
        exact stood
      · rw [new]
        exact stood.received fun eq => hji (inv.ids hd here eq)

/-- One caller changes its phase and reads nothing. -/
theorem InOrder.stayed (inv : InOrder out past s) {i : Nat} {c : Caller} {phase : CallerPhase}
    (here : s.callers[i]? = some c) (callers : s'.callers = s.callers.set i { c with phase })
    (nextId : s'.nextId = s.nextId)
    (received : s'.received = s.received ∨ s'.received = c.id :: s.received)
    (channel : s'.transport.channel = s.transport.channel)
    (own : Standing out past s'.holder s'.received i c.id phase)
    (others : s'.holder = s.holder ∨ ∀ j ≠ i, s.holder ≠ some j) : InOrder out past s' := by
  have unread : ReadOff (past ++ []) out s'.transport.channel := by
    rw [channel, List.append_nil]
    exact inv.unread
  have moved := inv.moved here callers nextId received unread
    (by rw [List.append_nil]; exact own) (others.imp_left fun holder => ⟨rfl, holder⟩)
  rwa [List.append_nil] at moved

theorem InOrder.call (inv : InOrder out past s) (method : String) (params : Option Value) :
    InOrder out past
      { s with nextId := s.nextId + 1,
               callers := s.callers ++ [⟨s.nextId, method, params, .queued⟩] } := by
  have old {j : Nat} {c : Caller}
      (there : (s.callers ++ [⟨s.nextId, method, params, .queued⟩])[j]? = some c) :
      s.callers[j]? = some c ∨ j = s.callers.length ∧ c = ⟨s.nextId, method, params, .queued⟩ := by
    rw [List.getElem?_append] at there
    split at there
    · exact .inl there
    · rw [List.getElem?_singleton] at there
      split at there
      · refine .inr ⟨by omega, (Option.some.inj there).symm⟩
      · cases there
  constructor
  · intro j k c c' hj hk same
    rcases old hj with hj | ⟨rfl, rfl⟩
    · rcases old hk with hk | ⟨rfl, rfl⟩
      · exact inv.ids hj hk same
      · have := inv.fresh hj
        dsimp only at same
        omega
    · rcases old hk with hk | ⟨rfl, rfl⟩
      · have := inv.fresh hk
        dsimp only at same
        omega
      · rfl
  · intro j c hj
    rcases old hj with hj | ⟨-, rfl⟩
    · exact Nat.lt_succ_of_lt (inv.fresh hj)
    · exact Nat.lt_succ_self _
  · exact fun id hid => Nat.lt_succ_of_lt (inv.known id hid)
  · exact inv.answers
  · exact inv.unread
  · exact inv.ended
  · intro j c hj
    rcases old hj with hj | ⟨-, rfl⟩
    · exact inv.standing hj
    · intro received
      exact absurd (inv.known _ received) (Nat.lt_irrefl _)

/-- The caller that takes the free transport has no answer yet. -/
theorem InOrder.sender (inv : InOrder out past s) {i : Nat} {c : Caller}
    (here : s.callers[i]? = some c) (queued : c.phase = .queued) (free : s.holder = none) :
    c.id ∉ s.received ∧ ∀ j ≠ i, s.holder ≠ some j := by
  have standing := inv.standing here
  rw [queued] at standing
  refine ⟨standing, fun j _ holds => ?_⟩
  rw [free] at holds
  cases holds

theorem InOrder.send (inv : InOrder out past s) {i : Nat} {c : Caller}
    (here : s.callers[i]? = some c) (queued : c.phase = .queued) (free : s.holder = none) :
    InOrder out past (s.send i c) := by
  obtain ⟨unsent, nobody⟩ := inv.sender here queued free
  unfold Shared.send
  split
  · refine inv.stayed here rfl rfl (.inr rfl) rfl ⟨rfl, ?_⟩ (.inr nobody)
    -- nothing that was written so far answers this request, so nothing that was read does
    have none := firstAnswer?_of_not_received inv.answers unsent
    rw [inv.unread.lines, firstAnswer?_append, Option.or_eq_none_iff] at none
    exact none.1
  · exact inv.stayed here rfl rfl (.inl rfl) rfl (.inr ⟨⟨_, _, rfl⟩, .inl unsent⟩) (.inr nobody)

theorem InOrder.sendFails (inv : InOrder out past s) {i : Nat} {c : Caller} {reason : String}
    (here : s.callers[i]? = some c) (queued : c.phase = .queued) (free : s.holder = none)
    (failed : s.sendFails i c reason = some s') : InOrder out past s' := by
  obtain ⟨unsent, nobody⟩ := inv.sender here queued free
  unfold Shared.sendFails at failed
  split at failed
  · cases failed
    exact inv.stayed here rfl rfl (.inl rfl) rfl (.inr ⟨⟨_, _, rfl⟩, .inl unsent⟩) (.inr nobody)
  · cases failed

/-- The caller that reads has the transport, and met no answer so far. -/
theorem InOrder.reader (inv : InOrder out past s) {i : Nat} {c : Caller}
    (here : s.callers[i]? = some c) (reading : c.phase = .reading) :
    firstAnswer? c.id past = none ∧ s.holder = some i ∧ ∀ j ≠ i, s.holder ≠ some j := by
  have standing := inv.standing here
  rw [reading] at standing
  refine ⟨standing.2, standing.1, fun j hj holds => hj ?_⟩
  rw [standing.1] at holds
  exact (Option.some.inj holds).symm

theorem InOrder.read (inv : InOrder out past s) {i : Nat} {c : Caller}
    (here : s.callers[i]? = some c) (reading : c.phase = .reading) (moved : s.read i c = some s') :
    ∃ past', InOrder out past' s' := by
  obtain ⟨none, holds, alone⟩ := inv.reader here reading
  unfold Shared.read at moved
  cases hl : s.transport.channel.lines with
  | nil =>
    simp only [hl] at moved
    split at moved
    · rename_i closed
      cases moved
      refine ⟨past, inv.stayed here rfl rfl (.inl rfl) rfl ?_ (.inr alone)⟩
      have all : out.lines = past := by rw [inv.unread.lines, hl, List.append_nil]
      refine .inr ⟨⟨_, _, rfl⟩, .inr (.inr ⟨inv.unread.isClosed.trans closed, ?_⟩)⟩
      rw [all]
      exact none
    · cases moved
  | cons line rest =>
    have unread := inv.unread.read hl
    have whole : out.lines = past ++ line :: rest := by rw [inv.unread.lines, hl]
    simp only [hl] at moved
    cases hm : meet c.id line with
    | none =>
      simp only [hm, Option.some.injEq] at moved
      subst moved
      obtain ⟨-, noAnswer⟩ := meet_eq_none_iff.mp hm
      have same : s.callers = s.callers.set i { c with phase := .reading } := by
        obtain ⟨bound, rfl⟩ := List.getElem?_eq_some_iff.mp here
        rw [← reading]
        exact (List.set_getElem_self bound).symm
      refine ⟨past ++ [line], inv.moved here same rfl (.inl rfl) unread ⟨holds, ?_⟩ (.inr alone)⟩
      rw [firstAnswer?_append, none]
      simp [firstAnswer?, noAnswer]
    | some a =>
      simp only [hm, Option.some.injEq] at moved
      subst moved
      refine ⟨past ++ [line], inv.moved here rfl rfl (.inl rfl) unread ?_ (.inr alone)⟩
      rcases meet_cases hm with ⟨r, hr, rfl⟩ | ⟨f, broken, rfl⟩
      · exact .inl ⟨r, firstAnswer?_at none hr, rfl⟩
      · exact .inr ⟨⟨_, _, rfl⟩, .inr (.inl ⟨past, line, rest, whole, none, broken⟩)⟩

theorem InOrder.giveUp (inv : InOrder out past s) {i : Nat} {c : Caller}
    (here : s.callers[i]? = some c) (reading : c.phase = .reading)
    (moved : s.giveUp i c 0 = some s') : InOrder out past s' := by
  unfold Shared.giveUp at moved
  rw [Option.map_eq_some_iff] at moved
  obtain ⟨channel, lost, rfl⟩ := moved
  rw [Channel.lose?_zero lost]
  exact inv.stayed here rfl rfl (.inl rfl) rfl trivial (.inr (inv.reader here reading).2.2)

/-- A move of a caller's own. -/
theorem InOrder.act (inv : InOrder out past s) {i : Nat} {c : Caller} {m : CallerMove}
    (here : s.callers[i]? = some c) (orderly : s.Orderly m) (moved : s.act i c m = some s') :
    ∃ past', InOrder out past' s' := by
  unfold Shared.act at moved
  split at moved
  · rename_i queued
    split at moved
    · rename_i free
      cases moved
      exact ⟨past, inv.send here queued free⟩
    · cases moved
  · rename_i queued
    split at moved
    · rename_i free
      exact ⟨past, inv.sendFails here queued free moved⟩
    · cases moved
  · rename_i reading
    exact inv.read here reading moved
  · rename_i queued
    cases moved
    exact ⟨past, inv.stayed here rfl rfl (.inl rfl) rfl trivial (.inl rfl)⟩
  · rename_i reading
    cases (orderly : _ = 0)
    exact ⟨past, inv.giveUp here reading moved⟩
  · cases moved

/-- An orderly move keeps the output and the callers in agreement. -/
theorem InOrder.after (inv : InOrder out past s) {m : CallerMove} (orderly : s.Orderly m)
    (moved : s.after m = some s') : ∃ past', InOrder (outputAfter out m) past' s' := by
  have byCaller {i : Nat} (moved : ((s.callers[i]?).bind fun c => s.act i c m) = some s') :
      ∃ past', InOrder out past' s' := by
    obtain ⟨c, here, acted⟩ := Option.bind_eq_some_iff.mp moved
    exact inv.act here orderly acted
  cases m with
  | call method params =>
    cases moved
    exact ⟨past, inv.call method params⟩
  | callElsewhere =>
    cases moved
    refine ⟨past, { inv with fresh := fun here => ?_, known := fun id hid => ?_ }⟩
    · exact Nat.lt_succ_of_lt (inv.fresh here)
    · exact Nat.lt_succ_of_lt (inv.known id hid)
  | close =>
    simp only [Shared.after] at moved
    split at moved
    · cases moved
      exact ⟨past, { inv with }⟩
    · cases moved
  | serverWrites bytes =>
    cases moved
    exact ⟨past, inv.serverWrites orderly⟩
  | serverCloses =>
    cases moved
    exact ⟨past, inv.serverCloses orderly⟩
  | send i => exact byCaller moved
  | sendFails i reason => exact byCaller moved
  | read i => exact byCaller moved
  | giveUp i lost => exact byCaller moved

/-- An orderly run keeps the output and the callers in agreement. -/
theorem InOrder.afterAll {ms : List CallerMove} (inv : InOrder out past s)
    (orderly : s.OrderlyRun ms) (run : s.afterAll ms = some s') :
    ∃ past', InOrder (ms.foldl outputAfter out) past' s' := by
  induction ms generalizing out past s with
  | nil =>
    cases run
    exact ⟨past, inv⟩
  | cons m ms ih =>
    obtain ⟨s₁, moved, rest⟩ := Option.bind_eq_some_iff.mp run
    obtain ⟨past₁, inv₁⟩ := inv.after orderly.1 moved
    exact ih inv₁ (orderly.2 s₁ moved) rest

/-! ### Answers to callers -/

/-- The result came from the server. -/
def FromServer (r : Except Failure Value) : Prop :=
  (∃ v, r = .ok v) ∨ ∃ code message, r = .error (.serverError code message)

theorem FromServer.not_trouble {r : Except Failure Value} (fromServer : FromServer r) :
    ¬ IsTrouble r := by
  rintro ⟨server, reason, rfl⟩
  rcases fromServer with ⟨v, h⟩ | ⟨code, message, h⟩
  · cases h
  · cases h

section Reading

variable {i : Nat} {c : Caller} {line : List UInt8} {rest : List (List UInt8)}

/-- What is shared when the line at the front was read. -/
def withLines (s : Shared) (lines : List (List UInt8)) : Shared :=
  { s with transport := { s.transport with channel := { s.transport.channel with lines } } }

theorem after_read (here : s.callers[i]? = some c) (reading : c.phase = .reading) :
    s.after (.read i) = s.read i c := by
  simp only [Shared.after, here, Option.bind_some, act, reading]

theorem read_missed (next : s.transport.channel.lines = line :: rest)
    (missed : meet c.id line = none) : s.read i c = some (s.withLines rest) := by
  simp only [Shared.read, next, missed]
  rfl

theorem read_met {a : Awaited} (next : s.transport.channel.lines = line :: rest)
    (met : meet c.id line = some a) :
    s.read i c = some ((s.withLines rest).finish i c (resultOf s.transport a)) := by
  simp only [Shared.read, next, met]
  rfl

theorem callers_finish (here : s.callers[i]? = some c) (r : Except Failure Value) :
    (s.finish i c r).callers[i]? = some { c with phase := .done r } := by
  have bound : i < s.callers.length := (List.getElem?_eq_some_iff.mp here).1
  simp [finish, setPhase, bound]

theorem resultOf_withLines (s : Shared) (lines : List (List UInt8)) (a : Awaited) :
    resultOf (s.withLines lines).transport a = resultOf s.transport a := by
  cases a <;> rfl

/-- The caller has the result, or only needs to read on to have it. -/
def Gets (s : Shared) (i : Nat) (r : Except Failure Value) : Prop :=
  ∃ n s' c', s.afterAll (List.replicate n (.read i)) = some s' ∧ s'.callers[i]? = some c' ∧
    c'.phase = .done r

theorem gets_of_done {r : Except Failure Value} (here : s.callers[i]? = some c)
    (done : c.phase = .done r) : s.Gets i r := ⟨0, s, c, rfl, here, done⟩

/-- A caller that reads gets what it makes of the first unread line that ends its wait. -/
theorem gets_of_met {a : Awaited} (reading : c.phase = .reading) (met : meet c.id line = some a)
    (before : List (List UInt8)) (missed : ∀ l ∈ before, meet c.id l = none) (s : Shared)
    (here : s.callers[i]? = some c) (unread : s.transport.channel.lines = before ++ line :: rest) :
    s.Gets i (resultOf s.transport a) := by
  induction before generalizing s with
  | nil =>
    have moved := (after_read here reading).trans (read_met unread met)
    have there : (s.withLines rest).callers[i]? = some c := here
    refine ⟨1, (s.withLines rest).finish i c (resultOf s.transport a), _, ?_,
      callers_finish there _, rfl⟩
    rw [List.replicate_one, Shared.afterAll, moved]
    rfl
  | cons l before ih =>
    have moved := (after_read here reading).trans (read_missed unread (missed l List.mem_cons_self))
    have missed' : ∀ l' ∈ before, meet c.id l' = none :=
      fun l' hl' => missed l' (List.mem_cons_of_mem _ hl')
    obtain ⟨n, s', c', run, there, done⟩ :=
      ih missed' (s.withLines (before ++ line :: rest)) here rfl
    rw [resultOf_withLines] at done
    refine ⟨n + 1, s', c', ?_, there, done⟩
    rw [List.replicate_succ, Shared.afterAll, moved]
    exact run

/-- The first line that ends the wait for an id, where one does. -/
theorem first_met {id : Nat} {lines : List (List UInt8)} (ends : ∃ l ∈ lines, meet id l ≠ none) :
    ∃ before l after a, lines = before ++ l :: after ∧ (∀ l' ∈ before, meet id l' = none) ∧
      meet id l = some a := by
  obtain ⟨l', hl', met⟩ := ends
  cases hf : lines.find? (fun l => (meet id l).isSome) with
  | none =>
    have := List.find?_eq_none.mp hf l' hl'
    rw [Option.isSome_iff_ne_none] at this
    exact absurd met this
  | some l =>
    obtain ⟨hl, before, after, rfl, missed⟩ := List.find?_eq_some_iff_append.mp hf
    obtain ⟨a, ha⟩ := Option.isSome_iff_exists.mp hl
    exact ⟨before, l, after, a, rfl, fun l' hl' => by simpa using missed l' hl', ha⟩

end Reading

/-- The lines that were read without an answer stand in front of the first answer. -/
theorem unread_of_answered {id : Nat} {before after unread : List (List UInt8)} {line : List UInt8}
    {response : RpcResponse} (whole : past ++ unread = before ++ line :: after)
    (none : firstAnswer? id past = none) (answer : answerTo? id line = some response) :
    ∃ ahead, before = past ++ ahead ∧ unread = ahead ++ line :: after := by
  rcases List.append_eq_append_iff.mp whole with ⟨ahead, hb, hu⟩ | ⟨behind, hp, hu⟩
  · exact ⟨ahead, hb, hu⟩
  · cases behind with
    | nil => exact ⟨[], by simpa using hp.symm, by simpa using hu.symm⟩
    | cons l behind =>
      obtain ⟨rfl, -⟩ := List.cons.inj hu
      rw [firstAnswer?_eq_none_iff] at none
      have read : line ∈ past := by simp [hp]
      rw [none line read] at answer
      cases answer

/-- A caller that reads, and whose request is answered, gets the answer, unless a line that is not
text stands in front of it. -/
theorem InOrder.reads_answer (inv : InOrder out past s) {i : Nat} {c : Caller}
    (here : s.callers[i]? = some c) (reading : c.phase = .reading)
    {before after : List (List UInt8)} {line : List UInt8} {response : RpcResponse}
    (whole : out.lines = before ++ line :: after) (answer : answerTo? c.id line = some response)
    (passed : firstAnswer? c.id before = none) :
    s.Gets i (Transport.resultOf response) ∨
      (∃ l ∈ before, ¬ IsText l) ∧ ∃ r, IsTrouble r ∧ s.Gets i r := by
  have none := (inv.reader here reading).1
  have split : past ++ s.transport.channel.lines = before ++ line :: after :=
    inv.unread.lines.symm.trans whole
  obtain ⟨ahead, -, unread⟩ := unread_of_answered split none answer
  have ends : ∃ l ∈ s.transport.channel.lines, meet c.id l ≠ Option.none :=
    ⟨line, by simp [unread], by simp [meet_eq_answered answer]⟩
  obtain ⟨pre, l, post, a, lines, missed, met⟩ := first_met ends
  have gets := gets_of_met reading met pre missed s here lines
  -- up to the line that ends the wait there is no answer: it is the answer or stands in front of it
  have none' : firstAnswer? c.id (past ++ pre) = Option.none := by
    rw [firstAnswer?_append, none, Option.none_or]
    exact firstAnswer?_eq_none_iff.mpr fun l' hl' => (meet_eq_none_iff.mp (missed l' hl')).2
  have split' : (past ++ pre) ++ l :: post = before ++ line :: after := by
    rw [List.append_assoc, ← lines]
    exact split
  obtain ⟨between, hbefore, rest⟩ := unread_of_answered split' none' answer
  cases between with
  | nil =>
    obtain ⟨rfl, -⟩ := List.cons.inj rest
    rw [meet_eq_answered answer] at met
    cases met
    exact .inl gets
  | cons l' between =>
    obtain ⟨rfl, -⟩ := List.cons.inj rest
    have there : l ∈ before := by simp [hbefore]
    rcases meet_cases met with ⟨r, hr, -⟩ | ⟨f, broken, rfl⟩
    · rw [firstAnswer?_eq_none_iff.mp passed l there] at hr
      cases hr
    · exact .inr ⟨⟨l, there, broken⟩, _, ⟨_, _, rfl⟩, gets⟩

/-- A caller whose request is answered and that does not give up gets the answer, unless a line that
is not text stands in front of it. -/
theorem InOrder.answered (inv : InOrder out past s) {i : Nat} {c : Caller}
    (here : s.callers[i]? = some c) {before after : List (List UInt8)} {line : List UInt8}
    {response : RpcResponse} (whole : out.lines = before ++ line :: after)
    (answer : answerTo? c.id line = some response) (passed : firstAnswer? c.id before = none) :
    c.phase = .gaveUp ∨ s.Gets i (Transport.resultOf response) ∨
      (∃ l ∈ before, ¬ IsText l) ∧ ∃ r, IsTrouble r ∧ s.Gets i r := by
  have first : firstAnswer? c.id out.lines = some response := by
    rw [whole]
    exact firstAnswer?_at passed answer
  -- what is answered has been received, so the caller has sent its request
  have received : c.id ∈ s.received := by
    by_contra unsent
    rw [firstAnswer?_of_not_received inv.answers unsent] at first
    cases first
  have standing := inv.standing here
  cases hp : c.phase with
  | queued =>
    rw [hp] at standing
    exact absurd received standing
  | reading => exact .inr (inv.reads_answer here hp whole answer passed)
  | done r =>
    rw [hp] at standing
    have has := gets_of_done here hp
    rcases standing with ⟨response', first', rfl⟩ |
      ⟨trouble, unsent | ⟨before', l, after', whole', none', broken⟩ | ⟨-, no⟩⟩
    · have first'' := firstAnswer?_append_of_some first' s.transport.channel.lines
      rw [← inv.unread.lines, first] at first''
      cases first''
      exact .inr (.inl has)
    · exact absurd received unsent
    · -- the line that broke the wait stands in front of the answer
      have split : before' ++ l :: after' = before ++ line :: after := whole'.symm.trans whole
      obtain ⟨ahead, rfl, same⟩ := unread_of_answered split none' answer
      cases ahead with
      | nil =>
        obtain ⟨rfl, -⟩ := List.cons.inj same
        exact absurd (isText_of_answerTo? answer) broken
      | cons l' ahead =>
        obtain ⟨rfl, -⟩ := List.cons.inj same
        exact .inr (.inr ⟨⟨l, by simp, broken⟩, r, trouble, has⟩)
    · rw [first] at no
      cases no
  | gaveUp => exact .inl rfl

/-- In every orderly run, with any number of callers in any order, a caller with a result from the
server has the first answer to its own request, and the line with that answer has been read. A line
that answers the request of one caller answers that of no other, given up or not, so it ends one
wait at most. And a caller whose request is answered gets the answer, unless it gives up: it has it,
or only needs to read on. The exception is a line that is not text and stands in front of the
answer: it may end the wait, with trouble. -/
theorem callers_get_own_answers {server : String} {ms : List CallerMove}
    (orderly : (start server).OrderlyRun ms) (run : (start server).afterAll ms = some s) :
    (∃ past, (output ms).lines = past ++ s.transport.channel.lines ∧
      ∀ (i : Nat) (c : Caller) (r : Except Failure Value),
        s.callers[i]? = some c → c.phase = .done r → FromServer r →
        ∃ response, firstAnswer? c.id past = some response ∧ r = Transport.resultOf response) ∧
    (∀ (i j : Nat) (c c' : Caller) (line : List UInt8) (response response' : RpcResponse),
      s.callers[i]? = some c → s.callers[j]? = some c' →
      answerTo? c.id line = some response → answerTo? c'.id line = some response' → i = j) ∧
    (∀ (i : Nat) (c : Caller) (before after : List (List UInt8)) (line : List UInt8)
        (response : RpcResponse),
      s.callers[i]? = some c → (output ms).lines = before ++ line :: after →
      answerTo? c.id line = some response → firstAnswer? c.id before = none →
      c.phase = .gaveUp ∨ s.Gets i (Transport.resultOf response) ∨
        (∃ l ∈ before, ¬ IsText l) ∧ ∃ r, IsTrouble r ∧ s.Gets i r) := by
  obtain ⟨past, inv⟩ := (inOrder_start server).afterAll orderly run
  refine ⟨⟨past, inv.unread.lines, ?_⟩, ?_, ?_⟩
  · intro i c r here done fromServer
    have standing := inv.standing here
    rw [done] at standing
    rcases standing with answered | ⟨trouble, -⟩
    · exact answered
    · exact absurd trouble fromServer.not_trouble
  · intro i j c c' line response response' hi hj answer answer'
    exact inv.ids hi hj (answerTo?_unique answer answer')
  · intro i c before after line response here whole answer passed
    exact inv.answered here whole answer passed

/-- The id and the result of a caller that got a text. -/
def textFor? (s : Shared) (i : Nat) : Option (Nat × String) :=
  match s.callers[i]? with
  | some ⟨id, _, _, .done (.ok (.str text))⟩ => some (id, text)
  | _ => none

theorem caller_of_textFor? {i id : Nat} {text : String} (h : textFor? s i = some (id, text)) :
    ∃ c, s.callers[i]? = some c ∧ c.id = id ∧ c.phase = .done (.ok (.str text)) := by
  unfold textFor? at h
  split at h
  · rename_i here
    cases h
    exact ⟨_, here, rfl, rfl⟩
  · cases h

/-- Three callers on a transport, and one elsewhere. The first gives up while it reads, the third
while it waits. Then the answer to the first comes late, in front of the answer to the second. -/
def lateRun : List CallerMove :=
  [.call "a" none, .callElsewhere, .call "b" none, .call "c" none, .send 0, .giveUp 2 0,
    .giveUp 0 0, .send 1,
    .serverWrites (Text.encode "\x7b\"id\":1,\"result\":\"late\"\x7d\n"), .read 1,
    .serverWrites (Text.encode "\x7b\"id\":3,\"result\":\"own\"\x7d\n"), .read 1]

/-- The second caller has the answer to its own request. -/
theorem callers_get_own_answers_lateRun : ∃ s past response,
    (start "server").afterAll lateRun = some s ∧ textFor? s 1 = some (3, "own") ∧
      (output lateRun).lines = past ++ s.transport.channel.lines ∧
      firstAnswer? 3 past = some response ∧ Transport.resultOf response = .ok (.str "own") := by
  have orderly : (start "server").OrderlyRun lateRun := by decide +kernel
  have result : ((start "server").afterAll lateRun).bind (textFor? · 1) = some (3, "own") := by
    decide +kernel
  obtain ⟨s, run, own⟩ := Option.bind_eq_some_iff.mp result
  obtain ⟨c, here, hid, done⟩ := caller_of_textFor? own
  obtain ⟨⟨past, whole, answers⟩, -, -⟩ := callers_get_own_answers orderly run
  obtain ⟨response, first, same⟩ := answers 1 c _ here done (.inl ⟨_, rfl⟩)
  rw [hid] at first
  exact ⟨s, past, response, run, own, whole, first, same.symm⟩

/-- The id of a caller that met trouble, and what it was told. -/
def troubleFor? (s : Shared) (i : Nat) : Option (Nat × String) :=
  match s.callers[i]? with
  | some ⟨id, _, _, .done (.error (.transportError _ reason))⟩ => some (id, reason)
  | _ => none

theorem caller_of_troubleFor? {i id : Nat} {reason : String}
    (h : troubleFor? s i = some (id, reason)) : ∃ c server, s.callers[i]? = some c ∧ c.id = id ∧
      c.phase = .done (.error (.transportError server reason)) := by
  unfold troubleFor? at h
  split at h
  · rename_i here
    cases h
    exact ⟨_, _, here, rfl, rfl⟩
  · cases h

/-- The answer of a server to its first request. -/
def ownAnswer : List UInt8 := Text.encode "\x7b\"id\":1,\"result\":\"own\"\x7d\n"

/-- A server that writes a line that is not text, and then answers what it has received. -/
def brokenLineRun : List CallerMove :=
  [.call "a" none, .send 0, .serverWrites [0xFF, 0x0A], .serverWrites ownAnswer, .read 0]

/-- **A line that is not text ends the wait.** The caller fails, though the server has answered its
request, and nothing but its request. -/
theorem answered_caller_fails_at_broken_line :
    (start "server").OrderlyRun brokenLineRun ∧
      (∃ s c server, (start "server").afterAll brokenLineRun = some s ∧ s.callers[0]? = some c ∧
        c.id = 1 ∧ c.phase = .done (.error (.transportError server
          "read failed: invalid utf-8 sequence of 1 bytes from index 0"))) ∧
      ownAnswer ∈ (output brokenLineRun).lines ∧
      ∃ response, answerTo? 1 ownAnswer = some response := by
  have orderly : (start "server").OrderlyRun brokenLineRun := by decide +kernel
  have result : ((start "server").afterAll brokenLineRun).bind (troubleFor? · 0) =
      some (1, "read failed: invalid utf-8 sequence of 1 bytes from index 0") := by decide +kernel
  have written : ownAnswer ∈ (output brokenLineRun).lines := by decide +kernel
  have answers : (answerTo? 1 ownAnswer).isSome = true := by decide +kernel
  obtain ⟨s, run, trouble⟩ := Option.bind_eq_some_iff.mp result
  obtain ⟨c, server, here, hid, done⟩ := caller_of_troubleFor? trouble
  exact ⟨orderly, ⟨s, c, server, run, here, hid, done⟩, written,
    Option.isSome_iff_exists.mp answers⟩

end Shared

end ChatRelay.Bridge
