import ChatRelay.Proofs.Session.SessionRows
import ChatRelay.Proofs.Session.TurnLock
import ChatRelay.Session.Delivery

/-! # The flag and the text of a session

The flag of a session is set while one of its turns is open, and its text is what this turn has
produced so far. Only the turn that holds the lock of the session writes them; what other requests
do to the session at the same time, clearing its history included, leaves them alone. A turn that is
dropped while it runs takes its flag with it: nobody clears it until another turn of the session is
closed. `TurnMove` lists what a move can do to the turns of one session (`turnMove_of_moved`), and
`Stands` is kept by each of these ways (`Stands.moved`). -/

namespace ChatRelay.Session

open Tools

/-! ### Operations -/

/-- What is known of a session's running turn. -/
structure Standing where
  isProcessing : Bool
  text : String
  deriving DecidableEq, Repr

/-- No turn is running. -/
def Standing.idle : Standing := ⟨false, ""⟩

namespace Store

/-- The flag and the text of a session. -/
def standing (s : Store) (id : String) : Standing :=
  ⟨(s.rowOf id).isProcessing, (s.rowOf id).streamingMessage⟩

section

variable (s : Store) (stamp : Stamp) (id id' text : String)

@[simp] theorem standing_snapshot : (s.snapshot id).2.standing id' = s.standing id' := by
  unfold standing
  rw [rowOf_snapshot]

@[simp] theorem standing_clear : (s.clear id).2.standing id' = s.standing id' := by
  unfold standing
  rw [rowOf_clear]

@[simp] theorem standing_setSystemPrompt :
    (s.setSystemPrompt id text).2.standing id' = s.standing id' := by
  unfold standing
  rw [rowOf_setSystemPrompt]
  split <;> rfl

@[simp] theorem standing_setEnabledTools (tools : List String) :
    (s.setEnabledTools id tools).2.standing id' = s.standing id' := by
  unfold standing
  rw [rowOf_setEnabledTools]
  split <;> rfl

@[simp] theorem standing_setModel : (s.setModel id text).2.standing id' = s.standing id' := by
  unfold standing
  rw [rowOf_setModel]
  split <;> rfl

@[simp] theorem standing_prepareTurn (model : Option String) :
    (s.prepareTurn id text model).2.standing id' = s.standing id' := by
  rw [prepareTurn_eq]
  by_cases hblank : (Text.trim text).isEmpty = true
  · simp only [hblank, if_true]
  · rw [if_neg hblank]
    cases model.filter fun m => !(Text.trim m).isEmpty with
    | none => simp only
    | some m => simp only [standing_setModel]

@[simp] theorem standing_applyTo (c : Change) : (c.applyTo s).standing id = s.standing id := by
  cases c <;> simp [Change.applyTo]

theorem standing_beginStreaming : (s.beginStreaming id).2.standing id' =
    if id' = id then { s.standing id' with text := "" } else s.standing id' := by
  unfold standing
  rw [rowOf_beginStreaming]
  split <;> rfl

theorem standing_appendStreamChunk : (s.appendStreamChunk id text).2.standing id' =
    if id' = id then { s.standing id' with text := (s.standing id').text ++ text }
    else s.standing id' := by
  unfold standing
  rw [rowOf_appendStreamChunk]
  split <;> rfl

theorem standing_opened : (s.opened stamp id text).standing id' =
    if id' = id then { s.standing id' with isProcessing := true } else s.standing id' := by
  unfold standing
  rw [rowOf_opened]
  split <;> rfl

theorem standing_closed (calls : Option (List ToolCallRecord)) :
    (s.closed stamp id text calls).standing id' = if id' = id then .idle else s.standing id' := by
  unfold standing
  rw [rowOf_closed]
  split <;> rfl

end

/-- A store that is opened has no turn running. -/
theorem standing_openOn (db : Database) (d : Defaults)
    (id : String) : (openOn db d).standing id = .idle := by
  have hrow := db.row?_recover id
  unfold standing rowOf openOn
  cases hr : db.row? id with
  | none =>
    rw [hr] at hrow
    rw [hrow]
    rfl
  | some r =>
    rw [hr] at hrow
    rw [hrow]
    rfl

/-- What a snapshot shows. -/
theorem standing_of_snapshot {s : Store} {id : String} {state : SessionState}
    (h : (s.snapshot id).1 = .ok state) :
    state.isProcessing = (s.standing id).isProcessing ∧
    state.streamingMessage = (s.standing id).text := by
  rw [snapshot_eq] at h
  obtain ⟨ms, rfl⟩ := stateOf_eq h
  unfold standing
  rw [rowOf_ensured]
  exact ⟨rfl, rfl⟩

end Store

/-! ### Open turns -/

namespace Scene

variable {s s' : Scene} {id : String} {i n : Nat} {r r' : ChatRequest}

/-- The request has an open turn of the session. -/
def Busy (s : Scene) (id : String) (n : Nat) : Prop :=
  ∃ r, s.requests[n]? = some r ∧ r.sessionId = id ∧ r.phase.isOpen = true

theorem busy_iff (hr : s.requests[i]? = some r) :
    s.Busy id i ↔ r.sessionId = id ∧ r.phase.isOpen = true := by
  constructor
  · rintro ⟨q, hq, hid, ho⟩
    rw [hr] at hq
    cases hq
    exact ⟨hid, ho⟩
  · rintro ⟨hid, ho⟩
    exact ⟨r, hr, hid, ho⟩

theorem mem_openTurns : r ∈ s.openTurns id ↔ r ∈ s.requests ∧ r.sessionId = id ∧
    r.phase.isOpen = true := by
  unfold openTurns
  rw [List.mem_filter, Bool.and_eq_true, beq_iff_eq]

theorem openTurns_ne_nil_iff : s.openTurns id ≠ [] ↔ ∃ n, s.Busy id n := by
  constructor
  · intro hne
    obtain ⟨r, hr⟩ := List.exists_mem_of_ne_nil _ hne
    obtain ⟨hmem, hid, ho⟩ := mem_openTurns.mp hr
    obtain ⟨n, hn⟩ := List.mem_iff_getElem?.mp hmem
    exact ⟨n, r, hn, hid, ho⟩
  · rintro ⟨n, r, hr, hid, ho⟩
    exact List.ne_nil_of_mem (mem_openTurns.mpr ⟨List.mem_of_getElem? hr, hid, ho⟩)

theorem busy_congr (hs : s'.requests = s.requests) (n : Nat) : s'.Busy id n ↔ s.Busy id n := by
  unfold Busy
  rw [hs]

/-- A request that comes has no open turn. -/
theorem busy_add (hs : s'.requests = s.requests ++ [r]) (hr : r.phase.isOpen = false) (n : Nat) :
    s'.Busy id n ↔ s.Busy id n := by
  have hnew (m : Nat) : ¬ ∃ q, [r][m]? = some q ∧ q.sessionId = id ∧ q.phase.isOpen = true := by
    rintro ⟨q, hq, -, ho⟩
    rw [List.mem_singleton.mp (List.mem_of_getElem? hq), hr] at ho
    cases ho
  unfold Busy
  rw [hs]
  rcases Nat.lt_or_ge n s.requests.length with hn | hn
  · rw [List.getElem?_append_left hn]
  · rw [List.getElem?_append_right hn, List.getElem?_eq_none hn]
    simpa using hnew _

theorem busy_set (hr : s.requests[i]? = some r) (hs : s'.requests = s.requests.set i r')
    (hid : r'.sessionId = r.sessionId) (n : Nat) :
    s'.Busy id n ↔ if n = i then r.sessionId = id ∧ r'.phase.isOpen = true else s.Busy id n := by
  have hlt := (List.getElem?_eq_some_iff.mp hr).1
  by_cases hn : n = i
  · subst hn
    have hr' : s'.requests[n]? = some r' := by
      rw [hs, List.getElem?_set_self hlt]
    rw [busy_iff hr', hid, if_pos rfl]
  · unfold Busy
    rw [hs, List.getElem?_set_ne (Ne.symm hn), if_neg hn]

/-- A move of a request opens or closes no turn of a session, if it opens or closes none of its own
there. -/
theorem busy_keep (id : String) (hr : s.requests[i]? = some r)
    (hs : s'.requests = s.requests.set i r') (hid : r'.sessionId = r.sessionId)
    (ho : r.sessionId = id → r'.phase.isOpen = r.phase.isOpen)
    (n : Nat) : s'.Busy id n ↔ s.Busy id n := by
  rw [busy_set hr hs hid]
  split
  · next hn =>
    subst hn
    rw [busy_iff hr]
    constructor
    · rintro ⟨hid, hopen⟩
      exact ⟨hid, ho hid ▸ hopen⟩
    · rintro ⟨hid, hopen⟩
      exact ⟨hid, (ho hid).symm ▸ hopen⟩
  · rfl

theorem requests_breakOff (s : Scene) (i : Nat) (r : ChatRequest) (f : Failure) :
    ∃ r', (s.breakOff i r f).requests = s.requests.set i r' ∧ r'.sessionId = r.sessionId ∧
      r'.phase.isOpen = r.streamed := by
  cases hst : r.streamed with
  | true =>
    rw [breakOff_streamed s i hst f]
    exact ⟨_, rfl, rfl, rfl⟩
  | false =>
    rw [breakOff_buffered s i hst f]
    exact ⟨_, requests_finish s i r, rfl, rfl⟩

end Scene

/-- How a turn is over. -/
inductive TurnEnd
  /-- It has recorded its reply. -/
  | closed
  /-- Its request was dropped. -/
  | dropped
  deriving DecidableEq, Repr

/-- How a move ends the turn that it ends. -/
def Move.turnEnd : Move → TurnEnd
  | leave _ => .dropped
  | _ => .closed

/-- How the open turn of a session is over after a move, if it was open before. -/
def Scene.ended? (s : Scene) (id : String) (e : TurnEnd) (s' : Scene) : Option TurnEnd :=
  if !(s.openTurns id).isEmpty && (s'.openTurns id).isEmpty then some e else none

/-- What a move can do to the turns of a session, where it adds the given chunks to what requests
have produced, and ends the turns that it ends in the given way. -/
inductive TurnMove (s : Scene) (id : String) (added : Nat → List String) (e : TurnEnd)
    (s' : Scene) : Prop
  /-- It leaves them alone. -/
  | keeps (hbusy : ∀ n, s'.Busy id n ↔ s.Busy id n)
      (hstanding : s'.store.standing id = s.store.standing id)
      (hadded : ∀ n, s.Busy id n → added n = [])
  | opens {i : Nat} {r : ChatRequest} {message : String} (hr : s.requests[i]? = some r)
      (hid : r.sessionId = id) (hp : r.phase = .locked message)
      (hbusy : ∀ n, s'.Busy id n ↔ n = i ∨ s.Busy id n)
      (hstanding : s'.store.standing id = { s.store.standing id with isProcessing := true })
      (hadded : ∀ n, added n = [])
  /-- The text of the turn starts. -/
  | starts {i : Nat} {r : ChatRequest} {input : Turn.Input} (hr : s.requests[i]? = some r)
      (hid : r.sessionId = id) (hp : r.phase = .opened input)
      (hbusy : ∀ n, s'.Busy id n ↔ s.Busy id n)
      (hstanding : s'.store.standing id = { s.store.standing id with text := "" })
      (hadded : ∀ n, added n = [])
  | stores {i : Nat} {r : ChatRequest} {c : String} (hr : s.requests[i]? = some r)
      (hid : r.sessionId = id) (ho : r.phase.isOpen = true)
      (hbusy : ∀ n, s'.Busy id n ↔ s.Busy id n)
      (hstanding : s'.store.standing id =
        { s.store.standing id with text := (s.store.standing id).text ++ c })
      (hadded : added i = [c])
  | closes {i : Nat} {r : ChatRequest} (he : e = .closed) (hr : s.requests[i]? = some r)
      (hid : r.sessionId = id) (ho : r.phase.isOpen = true)
      (hbusy : ∀ n, s'.Busy id n ↔ n ≠ i ∧ s.Busy id n) (hstanding : s'.store.standing id = .idle)
  /-- A buffered turn is over, and the store does not hear of it. -/
  | drops {i : Nat} {r : ChatRequest} (he : e = .dropped) (hr : s.requests[i]? = some r)
      (hid : r.sessionId = id) (ho : r.phase.isOpen = true) (hst : r.streamed = false)
      (hbusy : ∀ n, s'.Busy id n ↔ n ≠ i ∧ s.Busy id n)
      (hstanding : s'.store.standing id = s.store.standing id)

/-- The lock of a session is held by the request of its open turn alone. -/
theorem Scene.LocksInOrder.eq_of_busy {s : Scene} (hl : s.LocksInOrder) {id : String} {i n : Nat}
    {r : ChatRequest} (hr : s.requests[i]? = some r) (hid : r.sessionId = id)
    (hlock : r.phase.hasLock = true) (hn : s.Busy id n) : n = i := by
  obtain ⟨q, hq, hqid, ho⟩ := hn
  exact hl.exclusive hq hr (hqid.trans hid.symm) (Phase.hasLock_of_isOpen ho) hlock

section

variable {s s' : Scene} {id : String} {m : Move} {e : TurnEnd}

/-- A turn that is given up belongs to another session. -/
theorem turnMove_of_breakOff {i : Nat} {r : ChatRequest} {store : Store} {f : Failure}
    {added : Nat → List String} (hr : s.requests[i]? = some r) (hid : r.sessionId ≠ id)
    (hstanding : store.standing id = s.store.standing id) (hadded : ∀ n, added n = []) :
    TurnMove s id added e ((s.withStore store).breakOff i r f) := by
  obtain ⟨r', hs, hid', -⟩ := Scene.requests_breakOff (s.withStore store) i r f
  refine .keeps (Scene.busy_keep id hr hs hid' fun h => absurd h hid) ?_ fun n _ => hadded n
  rw [Scene.store_breakOff]
  exact hstanding

/-- The turn of a request that lets go is not open any more. -/
theorem Scene.busy_letGo {i : Nat} {r : ChatRequest} {phase : Phase}
    (hr : s.requests[i]? = some r) (hs : s'.requests = s.requests.set i { r with phase })
    (hphase : phase.isOpen = false) (n : Nat) : s'.Busy id n ↔ n ≠ i ∧ s.Busy id n := by
  rw [busy_set hr hs rfl]
  by_cases hn : n = i
  · simp [hn, hphase]
  · simp [hn]

/-- A request that closes its turn, and is over. -/
theorem turnMove_of_finish {i : Nat} {r : ChatRequest} {stamp : Stamp} {text : String}
    {calls : Option (List ToolCallRecord)} {store : Store} {added : Nat → List String}
    (hr : s.requests[i]? = some r) (ho : r.phase.isOpen = true)
    (hstore : store = s.store.closed stamp r.sessionId text calls) (hadded : ∀ n, added n = []) :
    TurnMove s id added .closed ((s.withStore store).finish i r) := by
  have hs := Scene.requests_finish (s.withStore store) i r
  have hstanding : ((s.withStore store).finish i r).store.standing id =
      if id = r.sessionId then .idle else s.store.standing id := by
    rw [Scene.store_finish, Scene.store_withStore, hstore, Store.standing_closed]
  by_cases hid : r.sessionId = id
  · rw [if_pos hid.symm] at hstanding
    exact .closes rfl hr hid ho (Scene.busy_letGo hr hs rfl) hstanding
  · rw [if_neg (Ne.symm hid)] at hstanding
    exact .keeps (Scene.busy_keep id hr hs rfl fun h => absurd h hid) hstanding fun n _ => hadded n

/-- A request that is dropped while it runs its buffered turn. -/
theorem turnMove_of_abandon {i : Nat} {r : ChatRequest} {added : Nat → List String}
    (hr : s.requests[i]? = some r) (ho : r.phase.isOpen = true) (hst : r.streamed = false)
    (hadded : ∀ n, added n = []) : TurnMove s id added .dropped (s.abandon i r) := by
  have hs := s.requests_abandon i r
  have hstanding : (s.abandon i r).store.standing id = s.store.standing id := by simp
  by_cases hid : r.sessionId = id
  · exact .drops rfl hr hid ho hst (Scene.busy_letGo hr hs rfl) hstanding
  · exact .keeps (Scene.busy_keep id hr hs rfl fun h => absurd h hid) hstanding fun n _ => hadded n

/-- A request that stores a chunk of its turn. -/
theorem turnMove_of_append {i : Nat} {r : ChatRequest} {c : String} {added : Nat → List String}
    (hr : s.requests[i]? = some r) (ho : r.phase.isOpen = true)
    (hbusy : ∀ n, s'.Busy id n ↔ s.Busy id n)
    (hstore : s'.store = (s.store.appendStreamChunk r.sessionId c).2)
    (hadded : ∀ n, added n = if i = n then [c] else []) : TurnMove s id added e s' := by
  have hstanding := s.store.standing_appendStreamChunk r.sessionId id c
  rw [← hstore] at hstanding
  by_cases hid : r.sessionId = id
  · rw [if_pos hid.symm] at hstanding
    exact .stores hr hid ho hbusy hstanding ((hadded i).trans (if_pos rfl))
  · rw [if_neg (Ne.symm hid)] at hstanding
    refine .keeps hbusy hstanding fun n hn => (hadded n).trans (if_neg ?_)
    rintro rfl
    exact hid ((Scene.busy_iff hr).mp hn).1

/-- **Every move does one of these.** -/
theorem turnMove_of_moved (hm : Moved s m s')
    (hfresh : ∀ stamp ∈ m.stamp?, s.store.database.Unused stamp.id) (hreads : s'.store.Reads id) :
    TurnMove s id (fun n => (DeliveryMove.move m).produced n) m.turnEnd s' := by
  cases hm with
  | joins => exact .keeps (Scene.busy_add rfl rfl) rfl fun n _ => rfl
  | turnedAway => exact .keeps (Scene.busy_congr (by simp)) (by simp) fun n _ => rfl
  | @builds id' message model streamed =>
    exact .keeps
      (Scene.busy_add (r := ⟨id', s.agents.length, message, model, streamed, .arrived, []⟩)
        (by simp) rfl)
      (by simp) fun n _ => rfl
  | changes c => exact .keeps (Scene.busy_congr rfl) (by simp) fun n _ => rfl
  | leaves hr hp =>
    refine .keeps (Scene.busy_keep id hr (Scene.requests_finish ..) rfl fun _ =>
      ?_) (by simp) fun n _ => rfl
    rcases hp with hp | ⟨message, hp⟩ <;> rw [hp] <;> rfl
  | abandons hr hp hst => exact turnMove_of_abandon hr (by rw [hp]; rfl) hst fun _ => rfl
  | @refused i r f hr hp hs =>
    have hstanding := s.store.standing_prepareTurn r.sessionId id r.message r.model
    generalize (s.store.prepareTurn r.sessionId r.message r.model).2 = store at hstanding ⊢
    exact .keeps (Scene.busy_keep id hr (Scene.requests_finish ..) rfl fun _ => by rw [hp]; rfl)
      (by simpa using hstanding) fun n _ => rfl
  | @prepared i r message hr hp hs =>
    have hstanding := s.store.standing_prepareTurn r.sessionId id r.message r.model
    generalize (s.store.prepareTurn r.sessionId r.message r.model).2 = store at hstanding ⊢
    exact .keeps (Scene.busy_keep id hr rfl rfl fun _ => by rw [hp]; rfl) hstanding fun n _ => rfl
  | locks hr hp =>
    exact .keeps (Scene.busy_keep id hr rfl rfl fun _ => by rw [hp]; rfl) rfl fun n _ => rfl
  | @opensNot i r message stamp f hr hp hs =>
    have hu := hfresh stamp rfl
    by_cases hid : r.sessionId = id
    -- a session that can be read after the move has not refused to open the turn
    · subst hid
      rw [Scene.store_breakOff, Scene.store_withStore, ← Store.appendUserMessage_ok_iff hu,
        hs] at hreads
      obtain ⟨state, hstate⟩ := hreads
      cases hstate
    · refine turnMove_of_breakOff hr hid ?_ fun _ => rfl
      rw [Store.appendUserMessage_eq hu, Store.standing_opened, if_neg (Ne.symm hid)]
  | @opens i r message stamp state hr hp hs =>
    have hu := hfresh stamp rfl
    have hrequests : (((s.withStore
      (s.store.appendUserMessage stamp r.sessionId message).2).setHandlerModel
        r.agent state.model).setRequest i (r.begun message state)).requests =
          s.requests.set i (r.begun message state) := by simp
    have hstanding : (((s.withStore
      (s.store.appendUserMessage stamp r.sessionId message).2).setHandlerModel
        r.agent state.model).setRequest i (r.begun message state)).store.standing id =
          if id = r.sessionId then { s.store.standing id with isProcessing := true }
          else s.store.standing id := by
      rw [Scene.store_setRequest, Scene.store_setHandlerModel, Scene.store_withStore,
        Store.appendUserMessage_eq hu, Store.standing_opened]
    by_cases hid : r.sessionId = id
    · rw [if_pos hid.symm] at hstanding
      refine .opens hr hid hp (fun n => ?_) hstanding fun _ => rfl
      rw [Scene.busy_set hr hrequests rfl]
      by_cases hn : n = i
      · simp [hn, hid, r.isOpen_begun]
      · simp [hn]
    · rw [if_neg (Ne.symm hid)] at hstanding
      exact .keeps (Scene.busy_keep id hr hrequests rfl fun h => absurd h hid) hstanding fun _ _ =>
        rfl
  | @starts i r input hr hp =>
    have hstanding := s.store.standing_beginStreaming r.sessionId id
    have hs : ((s.withStore (s.store.beginStreaming r.sessionId).2).setRequest i
        { r with phase := .running input }).requests =
          s.requests.set i { r with phase := .running input } := rfl
    have hbusy (n : Nat) := Scene.busy_keep id hr hs rfl (fun _ => by rw [hp]; rfl) n
    by_cases hid : r.sessionId = id
    · rw [if_pos hid.symm] at hstanding
      exact .starts hr hid hp hbusy hstanding fun _ => rfl
    · rw [if_neg (Ne.symm hid)] at hstanding
      exact .keeps hbusy hstanding fun _ _ => rfl
  | @passesOn i r input c hr hp hst =>
    have hs : ((s.withStore (s.store.appendStreamChunk r.sessionId c).2).setRequest i
        { r with chunks := r.chunks ++ [c] }).requests =
          s.requests.set i { r with chunks := r.chunks ++ [c] } := rfl
    exact turnMove_of_append hr (by rw [hp]; rfl) (Scene.busy_keep id hr hs rfl fun _ =>
      rfl) rfl fun _ => rfl
  | @completesNot i r input stamp o f hr hp hs =>
    have hu := hfresh stamp rfl
    by_cases hid : r.sessionId = id
    · subst hid
      rw [Scene.store_breakOff, Scene.store_withStore, ← Store.completeTurn_ok_iff hu, hs] at hreads
      obtain ⟨state, hstate⟩ := hreads
      cases hstate
    · refine turnMove_of_breakOff hr hid ?_ fun _ => rfl
      rw [Store.completeTurn_eq hu, Store.standing_closed, if_neg (Ne.symm hid)]
  | @completes i r input stamp o state hr hp hs =>
    exact turnMove_of_finish hr (by rw [hp]; rfl) (by rw [Store.completeTurn_eq (hfresh stamp rfl)])
      fun _ => rfl
  | @fails i r input stamp f hr hp hst =>
    obtain ⟨r', hs, hid, ho⟩ := Scene.requests_breakOff s i r (.completion f)
    refine .keeps (Scene.busy_keep id hr hs hid fun _ => ?_) (by simp) fun _ _ => rfl
    rw [ho, hst, hp]
    rfl
  | @failsAtOnce i r input stamp f hr hp hst =>
    exact turnMove_of_finish hr (by rw [hp]; rfl) (by rw [Store.failTurn_eq (hfresh stamp rfl)])
      fun _ => rfl
  | @records i r text stamp hr hp =>
    exact turnMove_of_finish hr (by rw [hp]; rfl) (by rw [Store.failTurn_eq (hfresh stamp rfl)])
      fun _ => rfl

/-! ### The flag and the text -/

/-- The flag of the session is set while a turn is open, and its text is what the turn has produced.
While none is open there is no text, and the flag is set if the turn that was over last was
dropped. -/
structure Stands (s : Scene) (id : String) (ends : List TurnEnd) (produced : Nat → List String) :
    Prop where
  idle : (∀ n, ¬ s.Busy id n) →
    s.store.standing id = ⟨decide (ends.getLast? = some .dropped), ""⟩
  busy : ∀ n, s.Busy id n → s.store.standing id = ⟨true, String.join (produced n)⟩

theorem join_concat (cs : List String) (c : String) :
    String.join (cs ++ [c]) = String.join cs ++ c := by
  rw [String.join_append]
  simp [String.join]

theorem Scene.openTurns_eq_nil_iff : s.openTurns id = [] ↔ ∀ n, ¬ s.Busy id n := by
  rw [← not_exists, ← openTurns_ne_nil_iff, not_not]

/-- A turn that was not open before a move has not been ended by it. -/
theorem Scene.ended?_eq_none_of_idle (h : ∀ n, ¬ s.Busy id n) : s.ended? id e s' = none := by
  unfold ended?
  rw [openTurns_eq_nil_iff.mpr h]
  rfl

/-- The only open turn of a session is ended by the move after which it is not open. -/
theorem Scene.LocksInOrder.ended?_eq (hl : s.LocksInOrder) {i : Nat} {r : ChatRequest}
    (hr : s.requests[i]? = some r) (hid : r.sessionId = id) (ho : r.phase.isOpen = true)
    (hbusy : ∀ n, s'.Busy id n ↔ n ≠ i ∧ s.Busy id n) : s.ended? id e s' = some e := by
  have hbefore : (s.openTurns id).isEmpty = false := by
    rw [List.isEmpty_eq_false_iff]
    exact Scene.openTurns_ne_nil_iff.mpr ⟨i, (Scene.busy_iff hr).mpr ⟨hid, ho⟩⟩
  have hafter : s'.openTurns id = [] := Scene.openTurns_eq_nil_iff.mpr fun n hn =>
    ((hbusy n).mp hn).1 (hl.eq_of_busy hr hid (Phase.hasLock_of_isOpen ho) ((hbusy n).mp hn).2)
  unfold Scene.ended?
  rw [hbefore, hafter]
  rfl

/-- **One move.** A turn that has not started its text has produced nothing, and neither has a
buffered one. -/
theorem Stands.moved {ends : List TurnEnd} {produced added : Nat → List String}
    (h : Stands s id ends produced) (hl : s.LocksInOrder)
    (hfirst : ∀ (n : Nat) (r : ChatRequest), s.requests[n]? = some r →
      (∃ message, r.phase = .locked message) ∨ (∃ input, r.phase = .opened input) ∨
        (r.phase.isOpen = true ∧ r.streamed = false) → produced n = [])
    (hm : TurnMove s id added e s') :
    Stands s' id (ends ++ (s.ended? id e s').toList) fun n => produced n ++ added n := by
  cases hm with
  | keeps hbusy hstanding hadded =>
    constructor
    · intro hidle
      have hbefore : ∀ n, ¬ s.Busy id n := fun n hn => hidle n ((hbusy n).mpr hn)
      rw [hstanding, h.idle hbefore, Scene.ended?_eq_none_of_idle hbefore]
      simp
    · intro n hn
      have hn := (hbusy n).mp hn
      rw [hstanding, h.busy n hn, hadded n hn, List.append_nil]
  | @opens i r message hr hid hp hbusy hstanding hadded =>
    -- the request holds the lock, so no other turn of the session is open
    have hidle : ∀ n, ¬ s.Busy id n := by
      intro n hn
      obtain rfl := hl.eq_of_busy hr hid (by rw [hp]; rfl) hn
      have ho := ((Scene.busy_iff hr).mp hn).2
      rw [hp] at ho
      cases ho
    rw [h.idle hidle] at hstanding
    constructor
    · intro hnone
      exact absurd ((hbusy i).mpr (.inl rfl)) (hnone i)
    · intro n hn
      obtain rfl := ((hbusy n).mp hn).resolve_right (hidle n)
      rw [hstanding, hfirst n r hr (.inl ⟨message, hp⟩), hadded]
      rfl
  | @starts i r input hr hid hp hbusy hstanding hadded =>
    have hi : s.Busy id i := (Scene.busy_iff hr).mpr ⟨hid, by rw [hp]; rfl⟩
    constructor
    · intro hnone
      exact absurd ((hbusy i).mpr hi) (hnone i)
    · intro n hn
      obtain rfl := hl.eq_of_busy hr hid (by rw [hp]; rfl) ((hbusy n).mp hn)
      rw [hstanding, h.busy n hi, hfirst n r hr (.inr (.inl ⟨input, hp⟩)), hadded]
      rfl
  | @stores i r c hr hid ho hbusy hstanding hadded =>
    have hi : s.Busy id i := (Scene.busy_iff hr).mpr ⟨hid, ho⟩
    constructor
    · intro hnone
      exact absurd ((hbusy i).mpr hi) (hnone i)
    · intro n hn
      obtain rfl := hl.eq_of_busy hr hid (Phase.hasLock_of_isOpen ho) ((hbusy n).mp hn)
      rw [hstanding, h.busy n hi, hadded, join_concat]
  | @closes i r he hr hid ho hbusy hstanding =>
    have hnone : ∀ n, ¬ s'.Busy id n := fun n hn => ((hbusy n).mp hn).1
      (hl.eq_of_busy hr hid (Phase.hasLock_of_isOpen ho) ((hbusy n).mp hn).2)
    constructor
    · intro _
      rw [hstanding, hl.ended?_eq hr hid ho hbusy, he]
      simp [Standing.idle]
    · exact fun n hn => absurd hn (hnone n)
  | @drops i r he hr hid ho hst hbusy hstanding =>
    have hi : s.Busy id i := (Scene.busy_iff hr).mpr ⟨hid, ho⟩
    have hnone : ∀ n, ¬ s'.Busy id n := fun n hn => ((hbusy n).mp hn).1
      (hl.eq_of_busy hr hid (Phase.hasLock_of_isOpen ho) ((hbusy n).mp hn).2)
    constructor
    · intro _
      rw [hstanding, h.busy i hi, hfirst i r hr (.inr (.inr ⟨ho, hst⟩)),
        hl.ended?_eq hr hid ho hbusy, he]
      simp [String.join]
    · exact fun n hn => absurd hn (hnone n)

end

end ChatRelay.Session
