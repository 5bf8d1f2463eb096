import ChatRelay.Proofs.Session.TurnStanding

/-! # What a turn has streamed

A chunk is stored before it is sent, and other requests can move in between. So what the caller of a
streamed turn has got is at all times what the turn has produced but for the chunk that is on its
way (`Logged`), and the text that a snapshot shows is never behind it (`flag_and_text_of_turns`). A
chunk that is stored and then sent is passed on as in a scene (`after_store_send`), and the runs of
a scene are runs here (`afterAll_map_move`). -/

namespace ChatRelay.Session

/-! ### What was produced and what was sent -/

/-- The text of the request has not started. -/
def Phase.isAhead : Phase → Bool
  | arrived | waiting _ | locked _ | opened _ => true
  | _ => false

/-- A request has sent what it has produced, but for the chunk that it has stored last; and it has
produced nothing before its text has started, or if it is not streamed. -/
def Logged (produced : List String) (unsent : Option String) : Option ChatRequest → Prop
  | none => produced = [] ∧ unsent = none
  | some r =>
    match r.phase with
    | .running _ => r.chunks ++ unsent.toList = produced ∧ (r.streamed = false → produced = [])
    | .failing text => r.chunks = produced ++ [text] ∧ unsent = none ∧ r.streamed = true
    | .finished | .abandoned => unsent = none
    | _ => r.chunks = [] ∧ produced = [] ∧ unsent = none

section

variable {r : ChatRequest} {produced : List String} {unsent : Option String}

theorem logged_ahead (hp : r.phase.isAhead = true) :
    Logged produced unsent (some r) ↔ r.chunks = [] ∧ produced = [] ∧ unsent = none := by
  unfold Logged
  cases h : r.phase <;> simp_all [Phase.isAhead]

theorem logged_running {input : Turn.Input} (hp : r.phase = .running input) :
    Logged produced unsent (some r) ↔
      r.chunks ++ unsent.toList = produced ∧ (r.streamed = false → produced = []) := by
  simp [Logged, hp]

theorem logged_failing {text : String} (hp : r.phase = .failing text) :
    Logged produced unsent (some r) ↔ r.chunks = produced ++ [text] ∧ unsent = none ∧
    r.streamed = true := by
  simp [Logged, hp]

/-- A turn that is given up shows its failure after its chunks, if it is streamed. -/
theorem logged_breakOff {s : Scene} {i : Nat} {f : Failure} (hc : r.chunks = produced)
    (hu : unsent = none) :
    ∃ r', (s.breakOff i r f).requests = s.requests.set i r' ∧ Logged produced unsent (some r') := by
  cases hst : r.streamed with
  | true =>
    rw [s.breakOff_streamed i hst f]
    refine ⟨_, rfl, (logged_failing rfl).mpr ⟨?_, hu, hst⟩⟩
    rw [hc]
  | false =>
    rw [s.breakOff_buffered i hst f]
    exact ⟨_, s.requests_finish i r, hu⟩

end

section

variable {s s' : Scene} {produced : Nat → List String} {unsent : Nat → Option String}

/-- Only the request that makes a move changes. -/
theorem logged_set (added : Nat → List String) (unsent' : Nat → Option String)
    (h : ∀ n, Logged (produced n) (unsent n) s.requests[n]?) {i : Nat} {r r' : ChatRequest}
    (hr : s.requests[i]? = some r) (hs : s'.requests = s.requests.set i r')
    (hi : Logged (produced i ++ added i) (unsent' i) (some r'))
    (hothers : ∀ n, n ≠ i → added n = [] ∧ unsent' n = unsent n) (n : Nat) :
    Logged (produced n ++ added n) (unsent' n) s'.requests[n]? := by
  rw [hs]
  by_cases hn : n = i
  · subst hn
    rw [List.getElem?_set_self (List.getElem?_eq_some_iff.mp hr).1]
    exact hi
  · obtain ⟨hadded, hunsent⟩ := hothers n hn
    rw [List.getElem?_set_ne (Ne.symm hn), hadded, hunsent, List.append_nil]
    exact h n

/-- A request that has come has produced nothing. -/
theorem logged_add (h : ∀ n, Logged (produced n) (unsent n) s.requests[n]?) {r : ChatRequest}
    (hs : s'.requests = s.requests ++ [r]) (hp : r.phase = .arrived) (hc : r.chunks = [])
    (n : Nat) : Logged (produced n) (unsent n) s'.requests[n]? := by
  have hn := h n
  rw [hs]
  rcases Nat.lt_trichotomy n s.requests.length with hlt | heq | hgt
  · rw [List.getElem?_append_left hlt]
    exact hn
  · rw [List.getElem?_eq_none (Nat.le_of_eq heq.symm)] at hn
    rw [List.getElem?_append_right (Nat.le_of_eq heq.symm), heq, Nat.sub_self]
    obtain ⟨hproduced, hunsent⟩ := hn
    unfold Logged
    simp only [List.getElem?_cons_zero, hp]
    rw [heq] at hproduced hunsent
    exact ⟨hc, hproduced, hunsent⟩
  · have hout : s.requests.length + 1 ≤ n := hgt
    rw [List.getElem?_eq_none (Nat.le_of_lt hgt)] at hn
    rw [List.getElem?_eq_none (by simpa using hout)]
    exact hn

/-- **One move of the scene**, of a request that has sent all its chunks. -/
theorem logged_moved {m : Move} (h : ∀ n, Logged (produced n) (unsent n) s.requests[n]?)
    (hm : Moved s m s') (hsent : ∀ i ∈ m.request?, unsent i = none) (n : Nat) :
    Logged (produced n ++ (DeliveryMove.move m).produced n) (unsent n) s'.requests[n]? := by
  have same (hs : s'.requests = s.requests) :
      Logged (produced n ++ []) (unsent n) s'.requests[n]? := by
    rw [hs, List.append_nil]
    exact h n
  have set {i : Nat} {r r' : ChatRequest} (hr : s.requests[i]? = some r)
      (hs : s'.requests = s.requests.set i r') (hi : Logged (produced i) (unsent i) (some r')) :
      Logged (produced n ++ []) (unsent n) s'.requests[n]? := by
    refine logged_set (fun _ => []) unsent h hr hs ?_ (fun _ _ => ⟨rfl, rfl⟩) n
    rw [List.append_nil]
    exact hi
  have hlog {i : Nat} {r : ChatRequest} (hr : s.requests[i]? = some r) :
      Logged (produced i) (unsent i) (some r) := hr ▸ h i
  cases hm with
  | joins =>
    rw [show (DeliveryMove.move _).produced n = [] from rfl, List.append_nil]
    exact logged_add h rfl rfl rfl n
  | turnedAway => exact same (by simp)
  | @builds id message model streamed =>
    rw [show (DeliveryMove.move _).produced n = [] from rfl, List.append_nil]
    exact logged_add (r := ⟨id, s.agents.length, message, model, streamed, .arrived, []⟩) h
      (by simp) rfl rfl n
  | changes => exact same rfl
  | leaves hr => exact set hr (Scene.requests_finish ..) (hsent _ rfl)
  | abandons hr => exact set hr (Scene.requests_abandon ..) (hsent _ rfl)
  | @refused i r f hr =>
    generalize (s.store.prepareTurn r.sessionId r.message r.model).2 = store at set ⊢
    exact set hr (Scene.requests_finish ..) (hsent _ rfl)
  | @prepared i r message hr hp =>
    generalize (s.store.prepareTurn r.sessionId r.message r.model).2 = store at set ⊢
    have hahead := (logged_ahead (by rw [hp]; rfl)).mp (hlog hr)
    exact set hr rfl ((logged_ahead rfl).mpr hahead)
  | locks hr hp =>
    have hahead := (logged_ahead (by rw [hp]; rfl)).mp (hlog hr)
    exact set hr rfl ((logged_ahead rfl).mpr hahead)
  | @opensNot i r message stamp f hr hp =>
    obtain ⟨hchunks, hproduced, hunsent⟩ := (logged_ahead (by rw [hp]; rfl)).mp (hlog hr)
    obtain ⟨r', hs, hr'⟩ := logged_breakOff (i := i) (f := f) (hchunks.trans hproduced.symm) hunsent
    exact set hr hs hr'
  | @opens i r message stamp state hr hp =>
    obtain ⟨hchunks, hproduced, hunsent⟩ := (logged_ahead (by rw [hp]; rfl)).mp (hlog hr)
    have hs : (((s.withStore
      (s.store.appendUserMessage stamp r.sessionId message).2).setHandlerModel
        r.agent state.model).setRequest i (r.begun message state)).requests =
          s.requests.set i (r.begun message state) := by simp
    refine set hr hs ?_
    cases hst : r.streamed with
    | true =>
      have hahead : (r.begun message state).phase.isAhead = true := by
        unfold ChatRequest.begun
        rw [hst]
        rfl
      exact (logged_ahead hahead).mpr ⟨hchunks, hproduced, hunsent⟩
    | false =>
      have hrunning : (r.begun message state).phase =
          .running (Agents.turnInput message false state) := by
        unfold ChatRequest.begun
        rw [hst]
        rfl
      refine (logged_running hrunning).mpr ⟨?_, fun _ => hproduced⟩
      rw [hunsent, hproduced]
      exact (List.append_nil r.chunks).trans hchunks
  | @starts i r input hr hp =>
    obtain ⟨hchunks, hproduced, hunsent⟩ := (logged_ahead (by rw [hp]; rfl)).mp (hlog hr)
    refine set hr rfl ((logged_running rfl).mpr ⟨?_, fun _ => hproduced⟩)
    rw [hunsent, hproduced]
    exact (List.append_nil r.chunks).trans hchunks
  | @passesOn i r input c hr hp hst =>
    obtain ⟨hchunks, -⟩ := (logged_running hp).mp (hlog hr)
    have hunsent := hsent i rfl
    have hs : ((s.withStore (s.store.appendStreamChunk r.sessionId c).2).setRequest i
        { r with chunks := r.chunks ++ [c] }).requests =
          s.requests.set i { r with chunks := r.chunks ++ [c] } := rfl
    refine logged_set (fun n => (DeliveryMove.move (.chunk i c)).produced n) unsent h hr hs
      ((logged_running (r := { r with chunks := r.chunks ++ [c] }) hp).mpr ⟨?_, fun hfalse => ?_⟩)
      (fun m hm => ⟨if_neg (Ne.symm hm), rfl⟩) n
    · rw [hunsent] at hchunks ⊢
      rw [← hchunks]
      simp [DeliveryMove.produced]
    · rw [hst] at hfalse
      cases hfalse
  | @completesNot i r input stamp o f hr hp =>
    obtain ⟨hchunks, -⟩ := (logged_running hp).mp (hlog hr)
    have hunsent := hsent i rfl
    rw [hunsent, Option.toList_none, List.append_nil] at hchunks
    obtain ⟨r', hs, hr'⟩ := logged_breakOff (i := i) (f := f) hchunks hunsent
    exact set hr hs hr'
  | completes hr => exact set hr (Scene.requests_finish ..) (hsent _ rfl)
  | @fails i r input stamp f hr hp hst =>
    obtain ⟨hchunks, -⟩ := (logged_running hp).mp (hlog hr)
    have hunsent := hsent i rfl
    rw [hunsent, Option.toList_none, List.append_nil] at hchunks
    obtain ⟨r', hs, hr'⟩ := logged_breakOff (i := i) (f := .completion f) hchunks hunsent
    exact set hr hs hr'
  | failsAtOnce hr => exact set hr (Scene.requests_finish ..) (hsent _ rfl)
  | records hr => exact set hr (Scene.requests_finish ..) (hsent _ rfl)

end

/-- An open turn has sent the beginning of what it has produced. -/
theorem Logged.produced_eq {produced : List String} {unsent : Option String} {r : ChatRequest}
    (h : Logged produced unsent (some r)) (ho : r.phase.isOpen = true) :
    produced = r.sent ++ unsent.toList ∧ (r.streamed = false → produced = []) := by
  cases hp : r.phase with
  | opened input =>
    obtain ⟨hchunks, hproduced, hunsent⟩ := (logged_ahead (by rw [hp]; rfl)).mp h
    simp [ChatRequest.sent, hp, hchunks, hproduced, hunsent]
  | running input =>
    obtain ⟨hchunks, hproduced⟩ := (logged_running hp).mp h
    refine ⟨?_, hproduced⟩
    simp [ChatRequest.sent, hp, hchunks]
  | failing text =>
    obtain ⟨hchunks, hunsent, hst⟩ := (logged_failing hp).mp h
    simp [ChatRequest.sent, hp, hchunks, hunsent, hst]
  | arrived | waiting message | locked message | finished | abandoned =>
    rw [hp] at ho
    cases ho

/-! ### One move -/

/-- What a delivery becomes on a move. -/
inductive Delivered (d : Delivery) : DeliveryMove → Delivery → Prop
  | moves {m : Move} {s' : Scene} (hsent : ∀ i ∈ m.request?, d.unsent i = none)
      (hm : Moved d.scene m s') :
      Delivered d (.move m) { d with scene := s' }
  | stores {i : Nat} {r : ChatRequest} {input : Turn.Input} {c : String}
      (hr : d.scene.requests[i]? = some r) (hp : r.phase = .running input) (hst : r.streamed = true)
      (hu : d.unsent i = none) :
      Delivered d (.store i c) (d.keepChunk i r c)
  | sends {i : Nat} {r : ChatRequest} {c : String} (hr : d.scene.requests[i]? = some r)
      (hu : d.unsent i = some c) : Delivered d (.send i) (d.sendChunk i r c)

namespace Delivery

variable {d d' : Delivery} {m : DeliveryMove} {done : List DeliveryMove} {id : String}

theorem delivered_of_after (h : d.after m = some d') : Delivered d m d' := by
  unfold after at h
  cases m with
  | move m =>
    by_cases hsent : (m.request?.bind d.unsent).isSome = true
    · simp [hsent] at h
    · simp only [hsent, Bool.false_eq_true, if_false, Option.map_eq_some_iff] at h
      obtain ⟨s', hs', rfl⟩ := h
      refine .moves (fun i hi => ?_) (moved_of_after hs')
      rw [Option.mem_def.mp hi] at hsent
      simpa using hsent
  | store i c =>
    obtain ⟨r, hr, h⟩ := Option.bind_eq_some_iff.mp h
    split at h
    · next hp hu =>
      by_cases hst : r.streamed = true
      · rw [if_pos hst] at h
        cases h
        exact .stores hr hp hst hu
      · rw [if_neg hst] at h
        cases h
    · cases h
  | send i =>
    obtain ⟨r, hr, h⟩ := Option.bind_eq_some_iff.mp h
    obtain ⟨c, hu, h⟩ := Option.bind_eq_some_iff.mp h
    cases h
    exact .sends hr hu

/-- **A chunk that is stored and then sent has been passed on.** -/
theorem after_store_send (d : Delivery) {i : Nat} (c : String) (hu : d.unsent i = none) :
    (d.after (.store i c)).bind (·.after (.send i)) = d.after (.move (.chunk i c)) := by
  cases hr : d.scene.requests[i]? with
  | none => simp [after, Scene.after, Move.request?, hr, hu]
  | some r =>
    have hunsent : (fun j => if j = i then none else if j = i then some c else d.unsent j) =
        d.unsent := by
      funext j
      by_cases hj : j = i
      · rw [if_pos hj, hj, hu]
      · rw [if_neg hj, if_neg hj]
    cases hp : r.phase with
    | running input =>
      cases hst : r.streamed with
      | true =>
        have hstored : d.after (.store i c) = some (d.keepChunk i r c) := by
          simp [after, hr, hp, hu, hst]
        have hsent : (d.keepChunk i r c).after (.send i) =
            some ((d.keepChunk i r c).sendChunk i r c) := by
          simp [after, keepChunk, hr]
        have hchunk : d.scene.after (.chunk i c) = some (d.scene.chunk i r c) := by
          simp [Scene.after, Move.request?, hr, Scene.act, hp, hst]
        have hwhole : d.after (.move (.chunk i c)) =
            some { d with scene := d.scene.chunk i r c } := by
          simp [after, Move.request?, hu, hchunk]
        rw [hstored, Option.bind_some, hsent, hwhole]
        unfold sendChunk keepChunk
        simp only [hunsent]
        rfl
      | false => simp [after, Scene.after, Move.request?, hr, hp, hu, Scene.act, hst]
    | _ => simp [after, Scene.after, Move.request?, hr, hp, hu, Scene.act]

/-- The moves of a scene are moves of a delivery. -/
theorem afterAll_map_move (ms : List Move) : ∀ s : Scene,
    (⟨s, fun _ => none⟩ : Delivery).afterAll (ms.map .move) =
      (s.afterAll ms).map (⟨·, fun _ => none⟩) := by
  induction ms with
  | nil => exact fun s => rfl
  | cons m ms ih =>
    intro s
    have hnone : (m.request?.bind fun _ => (none : Option String)) = none := by
      cases m.request? <;> rfl
    have hafter : (⟨s, fun _ => none⟩ : Delivery).after (.move m) =
        (s.after m).map (⟨·, fun _ => none⟩) := by
      simp [after, hnone]
    rw [List.map_cons, afterAll, Scene.afterAll, hafter]
    cases s.after m with
    | none => rfl
    | some t => exact ih t

theorem producedBy_concat (n : Nat) (done : List DeliveryMove) (m : DeliveryMove) :
    producedBy n (done ++ [m]) = producedBy n done ++ m.produced n := by
  simp [producedBy]

/-- The locks of a delivery are in order, and its requests have sent what they have produced in a
run. -/
structure InOrder (d : Delivery) (done : List DeliveryMove) : Prop where
  locks : d.scene.LocksInOrder
  logs : ∀ n, Logged (producedBy n done) (d.unsent n) d.scene.requests[n]?

theorem inOrder_start (store : Store) (capacity : Nat) : (start store capacity).InOrder [] :=
  ⟨Scene.locksInOrder_start store capacity, fun _ => ⟨rfl, rfl⟩⟩

/-- A request with a chunk on its way is running. -/
theorem InOrder.running_of_unsent (h : d.InOrder done) {i : Nat} {r : ChatRequest} {c : String}
    (hr : d.scene.requests[i]? = some r) (hu : d.unsent i = some c) :
    ∃ input, r.phase = .running input := by
  have hlog := h.logs i
  rw [hr, hu] at hlog
  unfold Logged at hlog
  cases hp : r.phase <;> simp_all

theorem InOrder.after (h : d.InOrder done) (hm : Delivered d m d') : d'.InOrder (done ++ [m]) := by
  cases hm with
  | moves hsent hm =>
    refine ⟨h.locks.moved hm, fun n => ?_⟩
    rw [producedBy_concat]
    exact logged_moved h.logs hm hsent n
  | @stores i r input c hr hp hst hu =>
    obtain ⟨hchunks, -⟩ := (logged_running hp).mp (hr ▸ h.logs i)
    have hself : d.scene.requests = d.scene.requests.set i r := by
      obtain ⟨hlt, hget⟩ := List.getElem?_eq_some_iff.mp hr
      rw [← hget, List.set_getElem_self]
    have hlogs := logged_set (fun n =>
      (DeliveryMove.store i c).produced n) (d.keepChunk i r c).unsent h.logs hr
      hself ((logged_running hp).mpr ⟨?_, fun hfalse => ?_⟩) fun n hn =>
        ⟨if_neg (Ne.symm hn), if_neg hn⟩
    · refine ⟨h.locks.withStore _, fun n => ?_⟩
      rw [producedBy_concat]
      exact hlogs n
    · rw [hu, Option.toList_none, List.append_nil] at hchunks
      simp [DeliveryMove.produced, keepChunk, hchunks]
    · rw [hst] at hfalse
      cases hfalse
  | @sends i r c hr hu =>
    obtain ⟨input, hp⟩ := h.running_of_unsent hr hu
    obtain ⟨hchunks, hproduced⟩ := (logged_running hp).mp (hr ▸ h.logs i)
    have hs : (d.sendChunk i r c).scene.requests =
        d.scene.requests.set i { r with chunks := r.chunks ++ [c] } := rfl
    have hlogs := logged_set (fun _ => []) (d.sendChunk i r c).unsent h.logs hr hs
      ((logged_running (r := { r with chunks := r.chunks ++ [c] }) hp).mpr ⟨?_, ?_⟩)
      fun n hn => ⟨rfl, if_neg hn⟩
    · refine ⟨h.locks.setRequest hr rfl rfl (by rw [hp]; rfl) fun hl => hl, fun n => ?_⟩
      rw [producedBy_concat]
      exact hlogs n
    · rw [hu] at hchunks
      simp [sendChunk, ← hchunks]
    · rw [List.append_nil]
      exact hproduced

end Delivery

/-! ### Runs -/

/-- A move that was made, with the deliveries before and after it. -/
structure DeliveryStep where
  before : Delivery
  move : DeliveryMove
  after : Delivery

/-- The id of a message that is added is not yet in use, and the session can be read afterwards. -/
structure DeliveryStep.Orderly (id : String) (t : DeliveryStep) : Prop where
  fresh : ∀ stamp ∈ t.move.stamp?, t.before.scene.store.database.Unused stamp.id
  readable : t.after.scene.store.Reads id

instance (id : String) (t : DeliveryStep) : Decidable (t.Orderly id) :=
  decidable_of_iff ((∀ stamp ∈ t.move.stamp?, t.before.scene.store.database.Unused stamp.id) ∧
      t.after.scene.store.Reads id)
    ⟨fun ⟨hf, hr⟩ => ⟨hf, hr⟩, fun ⟨hf, hr⟩ => ⟨hf, hr⟩⟩

/-- How a move ends the turn that it ends. -/
def DeliveryMove.turnEnd : DeliveryMove → TurnEnd
  | move m => m.turnEnd
  | store .. | send _ => .closed

/-- How the open turn of the session is over with the step, if it is. -/
def DeliveryStep.ending? (id : String) (t : DeliveryStep) : Option TurnEnd :=
  t.before.scene.ended? id t.move.turnEnd t.after.scene

namespace Delivery

variable {d d' : Delivery} {m : DeliveryMove} {done : List DeliveryMove} {id : String}

/-- The moves of a run, each with the deliveries around it. -/
def steps (d : Delivery) : List DeliveryMove → List DeliveryStep
  | [] => []
  | m :: ms =>
    match d.after m with
    | none => []
    | some t => ⟨d, m, t⟩ :: t.steps ms

theorem turnMove_of_delivered (hm : Delivered d m d')
    (ho : (⟨d, m, d'⟩ : DeliveryStep).Orderly id) :
    TurnMove d.scene id (fun n => m.produced n) m.turnEnd d'.scene := by
  cases hm with
  | moves hsent hm => exact turnMove_of_moved hm ho.fresh ho.readable
  | @stores i r input c hr hp hst hu =>
    exact turnMove_of_append hr (by rw [hp]; rfl) (Scene.busy_congr rfl) rfl fun _ => rfl
  | @sends i r c hr hu =>
    exact .keeps (Scene.busy_keep id hr rfl rfl fun _ => rfl) rfl fun _ _ => rfl

/-- A delivery that a run has made, and its session, whose turns have ended in the given ways. -/
structure Follows (d : Delivery) (id : String) (ends : List TurnEnd) (done : List DeliveryMove) :
    Prop where
  inOrder : d.InOrder done
  stands : Stands d.scene id ends fun n => producedBy n done

/-- **One move.** -/
theorem Follows.after {ends : List TurnEnd} (h : d.Follows id ends done) (hm : Delivered d m d')
    (ho : (⟨d, m, d'⟩ : DeliveryStep).Orderly id) :
    d'.Follows id (ends ++ ((⟨d, m, d'⟩ : DeliveryStep).ending? id).toList) (done ++ [m]) := by
  refine ⟨h.inOrder.after hm, ?_⟩
  have hfirst (n : Nat) (r : ChatRequest) (hr : d.scene.requests[n]? = some r)
      (hp : (∃ message, r.phase = .locked message) ∨ (∃ input, r.phase = .opened input) ∨
        (r.phase.isOpen = true ∧ r.streamed = false)) : producedBy n done = [] := by
    have hlog := h.inOrder.logs n
    rw [hr] at hlog
    obtain ⟨message, hp⟩ | ⟨input, hp⟩ | ⟨hopen, hst⟩ := hp
    · exact ((logged_ahead (by rw [hp]; rfl)).mp hlog).2.1
    · exact ((logged_ahead (by rw [hp]; rfl)).mp hlog).2.1
    · exact (hlog.produced_eq hopen).2 hst
  have hstands := h.stands.moved h.inOrder.locks hfirst (turnMove_of_delivered hm ho)
  simp only [producedBy_concat]
  exact hstands

/-- **A whole run.** -/
theorem Follows.afterAll {ms : List DeliveryMove} :
    ∀ {d d' : Delivery} {ends : List TurnEnd} {done : List DeliveryMove},
      d.Follows id ends done → d.afterAll ms = some d' → (∀ t ∈ d.steps ms, t.Orderly id) →
        d'.Follows id (ends ++ (d.steps ms).filterMap (DeliveryStep.ending? id)) (done ++ ms) := by
  induction ms with
  | nil =>
    intro d d' ends done h hd _
    cases hd
    simpa [steps] using h
  | cons m ms ih =>
    intro d d' ends done h hd hsteps
    obtain ⟨t, ht, hd⟩ := Option.bind_eq_some_iff.mp hd
    have hlist : d.steps (m :: ms) = [⟨d, m, t⟩] ++ t.steps ms := by
      rw [steps, ht]
      rfl
    rw [hlist, List.forall_mem_append] at hsteps
    have hone := h.after (delivered_of_after ht) (hsteps.1 _ (List.mem_singleton_self _))
    have hrest := ih hone hd hsteps.2
    rw [List.append_assoc, List.append_assoc] at hrest
    have hhead : [(⟨d, m, t⟩ : DeliveryStep)].filterMap (DeliveryStep.ending? id) =
        ((⟨d, m, t⟩ : DeliveryStep).ending? id).toList := by
      rw [List.filterMap_cons]
      cases (⟨d, m, t⟩ : DeliveryStep).ending? id <;> rfl
    rw [hlist, List.filterMap_append, hhead]
    exact hrest

end Delivery

/-- A store that is opened on a database, whatever it holds, has all its turns closed. -/
theorem follows_start (db : Database) (defaults : Defaults) (capacity : Nat) (id : String) :
    (Delivery.start (.openOn db defaults) capacity).Follows id [] [] := by
  refine ⟨Delivery.inOrder_start _ capacity, ⟨fun _ => Store.standing_openOn db defaults id, ?_⟩⟩
  rintro n ⟨r, hr, -⟩
  cases hr

/-- **The flag and the text of a session.** At every moment a snapshot shows that a turn is running
just if a turn of the session lies between its opening and its closing, or the turn that was over
last was dropped while it ran. It shows no text unless an open turn is streamed, and then the chunks
that the turn has produced so far, in order. What the turn has sent, without the text of a failure,
is the beginning of that. -/
theorem flag_and_text_of_turns {db : Database} {defaults : Defaults} {capacity : Nat}
    {ms : List DeliveryMove} {d : Delivery} {id : String} {state : SessionState}
    (hd : (Delivery.start (.openOn db defaults) capacity).afterAll ms = some d)
    (hsteps : ∀ t ∈ (Delivery.start (.openOn db defaults) capacity).steps ms, t.Orderly id)
    (hstate : (d.scene.store.snapshot id).1 = .ok state) :
    (state.isProcessing = true ↔ d.scene.openTurns id ≠ [] ∨
        (((Delivery.start (.openOn db defaults) capacity).steps ms).filterMap
          (DeliveryStep.ending? id)).getLast? = some .dropped) ∧
      ((∀ r ∈ d.scene.openTurns id, r.streamed = false) → state.streamingMessage = "") ∧
      ∀ (n : Nat) (r : ChatRequest), d.scene.requests[n]? = some r → r ∈ d.scene.openTurns id →
        state.streamingMessage = String.join (producedBy n ms) ∧
        ∃ rest, state.streamingMessage = String.join r.sent ++ rest := by
  have hfollows := (follows_start db defaults capacity id).afterAll hd hsteps
  rw [List.nil_append, List.nil_append] at hfollows
  obtain ⟨hflag, htext⟩ := Store.standing_of_snapshot hstate
  have hbusy {n : Nat} (hn : d.scene.Busy id n) : state.isProcessing = true ∧
      state.streamingMessage = String.join (producedBy n ms) := by
    rw [hflag, htext, hfollows.stands.busy n hn]
    exact ⟨rfl, rfl⟩
  have hidle (hno : ¬ ∃ n, d.scene.Busy id n) :
      (state.isProcessing = true ↔
        (((Delivery.start (.openOn db defaults) capacity).steps ms).filterMap
          (DeliveryStep.ending? id)).getLast? = some .dropped) ∧ state.streamingMessage = "" := by
    rw [hflag, htext, hfollows.stands.idle fun n hn => hno ⟨n, hn⟩]
    exact ⟨decide_eq_true_iff, rfl⟩
  have hopen {n : Nat} {r : ChatRequest} (hr : d.scene.requests[n]? = some r)
      (hmem : r ∈ d.scene.openTurns id) : d.scene.Busy id n ∧
        producedBy n ms = r.sent ++ (d.unsent n).toList ∧
        (r.streamed = false → producedBy n ms = []) := by
    obtain ⟨-, hid, ho⟩ := Scene.mem_openTurns.mp hmem
    exact ⟨⟨r, hr, hid, ho⟩, Logged.produced_eq (hr ▸ hfollows.inOrder.logs n) ho⟩
  refine ⟨?_, fun hbuffered => ?_, fun n r hr hmem => ?_⟩
  · rw [Scene.openTurns_ne_nil_iff]
    by_cases hno : ∃ n, d.scene.Busy id n
    · obtain ⟨n, hn⟩ := hno
      exact iff_of_true (hbusy hn).1 (.inl ⟨n, hn⟩)
    · rw [(hidle hno).1, or_iff_right hno]
  · by_cases hno : ∃ n, d.scene.Busy id n
    · obtain ⟨n, r, hr, hid, ho⟩ := hno
      have hmem := Scene.mem_openTurns.mpr ⟨List.mem_of_getElem? hr, hid, ho⟩
      obtain ⟨hn, -, hproduced⟩ := hopen hr hmem
      rw [(hbusy hn).2, hproduced (hbuffered r hmem)]
      rfl
    · exact (hidle hno).2
  · obtain ⟨hn, hproduced, -⟩ := hopen hr hmem
    have htext := (hbusy hn).2
    refine ⟨htext, String.join (d.unsent n).toList, ?_⟩
    rw [htext, hproduced, String.join_append]

/-- A database in which a turn was left open. -/
def leftOpen : Database := ⟨[⟨"s", "m", "p", "[]", true, "old"⟩], [], 1⟩

/-- A streamed turn that fails after its second chunk, next to a buffered turn of another session.
Its own session is cleared and gets another prompt while a chunk is on its way. -/
def brokenText : List DeliveryMove :=
  [.move (.arrive "s" "hi" none true), .move (.arrive "t" "ho" none false), .move (.prepare 0),
    .move (.prepare 1), .move (.lock 0), .move (.lock 1), .move (.openTurn 0 ⟨"m1", 1⟩),
    .move (.openTurn 1 ⟨"m2", 2⟩), .move (.startText 0), .store 0 "He",
      .move (.change (.clear "s")), .send 0,
    .store 0 "llo", .move (.change (.setSystemPrompt "s" "q")), .send 0,
    .move (.fail 0 ⟨"m3", 3⟩ (.streamError "cut")), .move (.complete 1 ⟨"m4", 4⟩ ⟨"done", none⟩)]

theorem flag_and_text_of_turns_brokenText :
    let start := Delivery.start (.openOn leftOpen ⟨"m", "p", []⟩) 2
    (∀ t ∈ start.steps brokenText, t.Orderly "s") ∧
      ∃ d r state, start.afterAll brokenText = some d ∧ d.scene.requests[0]? = some r ∧
        r ∈ d.scene.openTurns "s" ∧ (d.scene.store.snapshot "s").1 = .ok state ∧
        state.isProcessing = true ∧ state.streamingMessage = "Hello" ∧
        ∃ rest, state.streamingMessage = String.join r.sent ++ rest := by
  intro start
  have hsteps : ∀ t ∈ start.steps brokenText, t.Orderly "s" := by decide +kernel
  have hopen : ((start.afterAll brokenText).map fun d => (d.scene.requests[0]?).any fun r =>
      r.sessionId == "s" && r.phase.isOpen) = some true := by decide +kernel
  have hreads : ∀ d ∈ start.afterAll brokenText, d.scene.store.Reads "s" := by decide +kernel
  obtain ⟨d, hd, hopen⟩ := Option.map_eq_some_iff.mp hopen
  obtain ⟨r, hr, hturn⟩ : ∃ r, d.scene.requests[0]? = some r ∧
      (r.sessionId == "s" && r.phase.isOpen) = true := by
    cases hr : d.scene.requests[0]? with
    | none =>
      rw [hr] at hopen
      cases hopen
    | some r =>
      rw [hr] at hopen
      exact ⟨r, rfl, hopen⟩
  rw [Bool.and_eq_true, beq_iff_eq] at hturn
  have hmem := Scene.mem_openTurns.mpr ⟨List.mem_of_getElem? hr, hturn⟩
  obtain ⟨state, hstate⟩ := hreads d hd
  obtain ⟨hflag, -, htext⟩ := flag_and_text_of_turns hd hsteps hstate
  obtain ⟨hstored, hsent⟩ := htext 0 r hr hmem
  have hproduced : String.join (producedBy 0 brokenText) = "Hello" := by decide +kernel
  exact ⟨hsteps, d, r, state, hd, hr, hmem, hstate, hflag.mpr (.inl (List.ne_nil_of_mem hmem)),
    hstored.trans hproduced, hsent⟩

/-- The caller of a buffered turn goes away while the turn runs. -/
def droppedTurn : List DeliveryMove :=
  [.move (.arrive "s" "hi" none false), .move (.prepare 0), .move (.lock 0),
    .move (.openTurn 0 ⟨"m1", 1⟩), .move (.leave 0)]

/-- Later another turn of the session runs to its end. -/
def nextTurn : List DeliveryMove :=
  [.move (.arrive "s" "again" none false), .move (.prepare 1), .move (.lock 1),
    .move (.openTurn 1 ⟨"m2", 2⟩), .move (.complete 1 ⟨"m3", 3⟩ ⟨"hello", none⟩)]

/-- **The flag outlives a turn that is dropped.** It is set while no turn of the session runs, and
the next turn clears it, though the dropped one is never closed. -/
theorem flag_set_after_drop :
    let start := Delivery.start (.openOn .empty ⟨"m", "p", []⟩) 2
    (∀ t ∈ start.steps (droppedTurn ++ nextTurn), t.Orderly "s") ∧
      (∃ d state, start.afterAll droppedTurn = some d ∧ d.scene.openTurns "s" = [] ∧
        (d.scene.store.snapshot "s").1 = .ok state ∧ state.isProcessing = true) ∧
      ∃ d state, start.afterAll (droppedTurn ++ nextTurn) = some d ∧
        (d.scene.store.snapshot "s").1 = .ok state ∧ state.isProcessing = false := by
  intro start
  have hsteps : ∀ t ∈ start.steps (droppedTurn ++ nextTurn), t.Orderly "s" := by decide +kernel
  have hdropped : ((start.afterAll droppedTurn).map fun d => (d.scene.openTurns "s").isEmpty) =
      some true := by decide +kernel
  have hset : ∀ d ∈ start.afterAll droppedTurn,
      (d.scene.store.snapshot "s").1.map (·.isProcessing) = .ok true := by decide +kernel
  have hnext : (start.afterAll (droppedTurn ++ nextTurn)).isSome = true := by decide +kernel
  have hclear : ∀ d ∈ start.afterAll (droppedTurn ++ nextTurn),
      (d.scene.store.snapshot "s").1.map (·.isProcessing) = .ok false := by decide +kernel
  have shows {r : Except Failure SessionState} {flag : Bool}
      (h : r.map (·.isProcessing) = .ok flag) :
          ∃ state, r = .ok state ∧ state.isProcessing = flag := by
    cases r with
    | error f => cases h
    | ok state =>
      injection h with h
      exact ⟨state, rfl, h⟩
  obtain ⟨d, hd, hnone⟩ := Option.map_eq_some_iff.mp hdropped
  obtain ⟨state, hstate, hflag⟩ := shows (hset d hd)
  obtain ⟨d', hd'⟩ := Option.isSome_iff_exists.mp hnext
  obtain ⟨state', hstate', hflag'⟩ := shows (hclear d' hd')
  exact ⟨hsteps, ⟨d, state, hd, List.isEmpty_iff.mp hnone, hstate, hflag⟩,
    d', state', hd', hstate', hflag'⟩

end ChatRelay.Session
