import ChatRelay.Proofs.Session.Moves
import Mathlib.Data.List.Nodup

/-! # One turn at a time

Agents are dropped and built again, and each has a lock of its own, so two locks could guard one
session. They do not, since a handle keeps its agent cached: a request that has not let go finds its
agent in the cache (`LocksInOrder.handleCached`), and the cache has one agent per session. So all
requests of a session that have not let go wait for one lock, and a turn is open only while its
request holds it. -/

namespace ChatRelay.Session

namespace Phase

/-- The request holds the turn lock of its agent. -/
def hasLock : Phase → Bool
  | locked _ | opened _ | running _ | failing _ => true
  | _ => false

theorem hasLock_of_isOpen {p : Phase} (h : p.isOpen = true) : p.hasLock = true := by
  cases p <;> simp_all [isOpen, hasLock]

theorem not_isFinished_of_hasLock {p : Phase} (h : p.hasLock = true) : p.isFinished = false := by
  cases p <;> simp_all [isFinished, hasLock]

end Phase

namespace Scene

/-- **The locks are in order.** -/
structure LocksInOrder (s : Scene) : Prop where
  cachedOnce : (s.cached.map Prod.fst).Nodup
  handleCached : ∀ r ∈ s.requests, r.phase.isFinished = false → (r.sessionId, r.agent) ∈ s.cached
  holds : ∀ (i : Nat) (r : ChatRequest), s.requests[i]? = some r → r.phase.hasLock = true →
    s.holders[r.agent]? = some (some i)

theorem locksInOrder_start (store : Store) (capacity : Nat) :
    (start store capacity).LocksInOrder where
  cachedOnce := List.nodup_nil
  handleCached := by simp [start]
  holds := by simp [start]

/-! ### The cache -/

theorem lookup_cached {s : Scene} (hs : (s.cached.map Prod.fst).Nodup) {id : String} {n n' : Nat}
    (h : (id, n) ∈ s.cached) (h' : (id, n') ∈ s.cached) : n = n' := by
  have : (id, n) = (id, n') := List.inj_on_of_nodup_map hs h h' rfl
  exact (Prod.mk.inj this).2

/-- Dropping idle agents keeps those that somebody holds. -/
theorem mem_cached_dropIdle {s : Scene} {r : ChatRequest} (hr : r ∈ s.requests)
    (hp : r.phase.isFinished = false) (h : (r.sessionId, r.agent) ∈ s.cached) :
    (r.sessionId, r.agent) ∈ s.dropIdle.cached := by
  unfold dropIdle
  split
  · have hheld : s.isHeld r.agent = true := by
      unfold isHeld
      exact List.any_eq_true.mpr ⟨r, hr, by simp [hp]⟩
    exact List.mem_filter.mpr ⟨h, hheld⟩
  · exact h

theorem cached_dropIdle_sublist (s : Scene) : s.dropIdle.cached.Sublist s.cached := by
  unfold dropIdle
  split
  · exact List.filter_sublist
  · exact List.Sublist.refl _

namespace LocksInOrder

variable {s : Scene}

/-- The store has no part in this. -/
theorem withStore (h : s.LocksInOrder) (store : Store) : (s.withStore store).LocksInOrder :=
  ⟨h.cachedOnce, h.handleCached, h.holds⟩

theorem dropIdle (h : s.LocksInOrder) : s.dropIdle.LocksInOrder where
  cachedOnce := (s.cached_dropIdle_sublist.map Prod.fst).nodup h.cachedOnce
  handleCached := fun r hr hp => by
    rw [requests_dropIdle] at hr
    exact mem_cached_dropIdle hr hp (h.handleCached r hr hp)
  holds := by
    rw [requests_dropIdle, holders_dropIdle]
    exact h.holds

/-- A new agent is nobody's yet, and its session had none in the cache. -/
theorem addAgent (h : s.LocksInOrder) {id : String} (hn : s.cached.lookup id = none)
    (model : String) : (s.addAgent id model).LocksInOrder where
  cachedOnce := by
    have hid : id ∉ s.cached.map Prod.fst := by
      intro hmem
      obtain ⟨p, hp, rfl⟩ := List.mem_map.mp hmem
      have := List.lookup_eq_none_iff.mp hn p hp
      simp at this
    rw [cached_addAgent, List.map_cons]
    exact List.nodup_cons.mpr ⟨hid, h.cachedOnce⟩
  handleCached := fun r hr hp => List.mem_cons_of_mem _ (h.handleCached r hr hp)
  holds := fun i r hr hp => by
    have hi := h.holds i r hr hp
    have hlt := (List.getElem?_eq_some_iff.mp hi).1
    rw [holders_addAgent, List.getElem?_append_left hlt]
    exact hi

/-- A request comes with a handle on a cached agent, and without its lock. -/
theorem addRequest (h : s.LocksInOrder) {r : ChatRequest} (hr : (r.sessionId, r.agent) ∈ s.cached)
    (hp : r.phase.hasLock = false) : (s.addRequest r).LocksInOrder where
  cachedOnce := h.cachedOnce
  handleCached := fun r' hr' hp' => by
    rw [requests_addRequest, List.mem_append, List.mem_singleton] at hr'
    rcases hr' with hr' | rfl
    · exact h.handleCached r' hr' hp'
    · exact hr
  holds := fun i r' hr' hp' => by
    rw [requests_addRequest] at hr'
    rcases Nat.lt_or_ge i s.requests.length with hi | hi
    · rw [List.getElem?_append_left hi] at hr'
      exact h.holds i r' hr' hp'
    · have : r' = r := by
        rw [List.getElem?_append_right hi] at hr'
        exact (List.mem_singleton.mp (List.mem_of_getElem? hr'))
      subst this
      rw [hp] at hp'
      cases hp'

/-! ### Requests -/

theorem setHandlerModel (h : s.LocksInOrder) (n : Nat) (model : String) :
    (s.setHandlerModel n model).LocksInOrder where
  cachedOnce := by rw [cached_setHandlerModel]; exact h.cachedOnce
  handleCached := by rw [requests_setHandlerModel, cached_setHandlerModel]; exact h.handleCached
  holds := by rw [requests_setHandlerModel, holders_setHandlerModel]; exact h.holds

/-- A request may change as long as it has the lock if its phase says so, and the locks of the
others stay where they are. -/
theorem update (h : s.LocksInOrder) {t : Scene} {i : Nat} {r r' : ChatRequest}
    (hr : s.requests[i]? = some r) (ht : t.requests = s.requests.set i r')
    (hc : t.cached = s.cached) (hid : r'.sessionId = r.sessionId) (ha : r'.agent = r.agent)
    (hf : r'.phase.isFinished = false → r.phase.isFinished = false)
    (hown : r'.phase.hasLock = true → t.holders[r.agent]? = some (some i))
    (hothers : ∀ n j : Nat, j ≠ i → s.holders[n]? = some (some j) → t.holders[n]? = some (some j)) :
    t.LocksInOrder where
  cachedOnce := by rw [hc]; exact h.cachedOnce
  handleCached := fun q hq hqp => by
    rw [ht] at hq
    rw [hc]
    rcases List.mem_or_eq_of_mem_set hq with hq | rfl
    · exact h.handleCached q hq hqp
    · rw [hid, ha]
      exact h.handleCached r (List.mem_of_getElem? hr) (hf hqp)
  holds := fun j q hq hqp => by
    rw [ht] at hq
    by_cases hij : i = j
    · subst hij
      have : q = r' := by simpa [(List.getElem?_eq_some_iff.mp hr).1] using hq.symm
      subst this
      rw [ha]
      exact hown hqp
    · rw [List.getElem?_set_ne hij] at hq
      exact hothers _ j (Ne.symm hij) (h.holds j q hq hqp)

/-- A request that goes on with the lock it has, or without one. -/
theorem setRequest (h : s.LocksInOrder) {i : Nat} {r r' : ChatRequest}
    (hr : s.requests[i]? = some r) (hid : r'.sessionId = r.sessionId) (ha : r'.agent = r.agent)
    (hf : r.phase.isFinished = false) (hl : r'.phase.hasLock = true → r.phase.hasLock = true) :
    (s.setRequest i r').LocksInOrder :=
  h.update hr rfl rfl hid ha (fun _ => hf) (fun hp => h.holds i r hr (hl hp)) fun _ _ _ hn => hn

/-- A request takes a lock that nobody holds. -/
theorem lock (h : s.LocksInOrder) {i : Nat} {r : ChatRequest} {message id model : String}
    (hr : s.requests[i]? = some r) (hp : r.phase = .waiting message)
    (ha : s.agents[r.agent]? = some ⟨id, model, none⟩) :
    ((s.setAgent r.agent ⟨id, model, some i⟩).setRequest i
      { r with phase := .locked message }).LocksInOrder := by
  have hfree : s.holders[r.agent]? = some none := by simp [holders, ha]
  have hlt := (List.getElem?_eq_some_iff.mp hfree).1
  refine h.update hr rfl rfl rfl rfl (fun _ => by rw [hp]; rfl) (fun _ => ?_) fun n j hj hn => ?_
  · simp [hlt]
  -- a lock that another request holds is not the free one that is taken here
  · have hne : r.agent ≠ n := by
      rintro rfl
      rw [hfree] at hn
      cases hn
    rw [holders_setRequest, holders_setAgent, List.getElem?_set_ne hne]
    exact hn

/-- A request lets go of lock and handle. -/
theorem letGo (h : s.LocksInOrder) {i : Nat} {r : ChatRequest} (hr : s.requests[i]? = some r)
    {phase : Phase} (hphase : phase.isFinished = true) : (s.letGo i r phase).LocksInOrder := by
  refine h.update hr (requests_letGo s i r phase) (cached_letGo s i r phase) rfl rfl
    (fun hf => ?_) (fun hl => ?_) fun n j hj hn => ?_
  · exact absurd (hphase.symm.trans hf) (by decide)
  · exact absurd (hphase.symm.trans (Phase.not_isFinished_of_hasLock hl)) (by decide)
  unfold Scene.letGo
  rw [holders_setRequest, holders_unlock]
  split
  · have hne : r.agent ≠ n := by
      rintro rfl
      simp_all
    rw [List.getElem?_set_ne hne]
    exact hn
  · exact hn

theorem finish (h : s.LocksInOrder) {i : Nat} {r : ChatRequest} (hr : s.requests[i]? = some r) :
    (s.finish i r).LocksInOrder := h.letGo hr rfl

theorem breakOff (h : s.LocksInOrder) {i : Nat} {r : ChatRequest} (hr : s.requests[i]? = some r)
    (hl : r.phase.hasLock = true) (f : Failure) : (s.breakOff i r f).LocksInOrder := by
  unfold Scene.breakOff
  split
  · exact h.setRequest hr rfl rfl (Phase.not_isFinished_of_hasLock hl) fun _ => hl
  · exact h.finish hr

/-! ### Requests over another store -/

theorem setRequest_withStore (h : s.LocksInOrder) (store : Store) {i : Nat} {r r' : ChatRequest}
    (hr : s.requests[i]? = some r) (hid : r'.sessionId = r.sessionId) (ha : r'.agent = r.agent)
    (hf : r.phase.isFinished = false) (hl : r'.phase.hasLock = true → r.phase.hasLock = true) :
    ((s.withStore store).setRequest i r').LocksInOrder :=
  (h.withStore store).setRequest hr hid ha hf hl

theorem finish_withStore (h : s.LocksInOrder) (store : Store) {i : Nat} {r : ChatRequest}
    (hr : s.requests[i]? = some r) : ((s.withStore store).finish i r).LocksInOrder :=
  (h.withStore store).finish hr

theorem breakOff_withStore (h : s.LocksInOrder) (store : Store) {i : Nat} {r : ChatRequest}
    (hr : s.requests[i]? = some r) (hl : r.phase.hasLock = true) (f : Failure) :
    ((s.withStore store).breakOff i r f).LocksInOrder := (h.withStore store).breakOff hr hl f

/-! ### Runs -/

/-- **Every move keeps the locks in order.** -/
theorem moved (h : s.LocksInOrder) {m : Move} {s' : Scene} (hm : Moved s m s') :
    s'.LocksInOrder := by
  cases hm with
  | joins hn =>
    obtain ⟨before, later, hc, -⟩ := List.lookup_eq_some_iff.mp hn
    exact h.addRequest (by simp [hc]) rfl
  | turnedAway => exact h.dropIdle.withStore _
  | @builds id message model streamed state hn hs =>
    -- the agent is built since the cache lacks one, and dropping idle agents adds none
    have hd : s.dropIdle.cached.lookup id = none :=
      List.lookup_eq_none_iff.mpr fun p hp =>
        List.lookup_eq_none_iff.mp hn p (s.cached_dropIdle_sublist.subset hp)
    have hb := (h.dropIdle.withStore (s.store.snapshot id).2).addAgent hd state.model
    exact hb.addRequest (by simp) rfl
  | changes => exact h.withStore _
  | leaves hr => exact h.finish hr
  | abandons hr => exact h.letGo hr rfl
  | refused hr => exact h.finish_withStore _ hr
  | prepared hr hp =>
    exact h.setRequest_withStore _ hr rfl rfl (by rw [hp]; rfl) (by simp [Phase.hasLock])
  | locks hr hp ha => exact h.lock hr hp ha
  | opensNot hr hp => exact h.breakOff_withStore _ hr (by rw [hp]; rfl) _
  | opens hr hp =>
    refine setRequest ((h.withStore _).setHandlerModel _ _) (by simpa using hr) ?_ ?_ ?_ ?_
    · rfl
    · rfl
    · rw [hp]; rfl
    · rw [hp]; intro _; rfl
  | starts hr hp =>
    exact h.setRequest_withStore _ hr rfl rfl (by rw [hp]; rfl) (by rw [hp]; intro _; rfl)
  | passesOn hr hp =>
    exact h.setRequest_withStore _ hr rfl rfl (by rw [hp]; rfl) fun hl => hl
  | completesNot hr hp => exact h.breakOff_withStore _ hr (by rw [hp]; rfl) _
  | completes hr => exact h.finish_withStore _ hr
  | fails hr hp => exact h.breakOff hr (by rw [hp]; rfl) _
  | failsAtOnce hr => exact h.finish_withStore _ hr
  | records hr => exact h.finish_withStore _ hr

theorem after (h : s.LocksInOrder) {m : Move} {s' : Scene} (hm : s.after m = some s') :
    s'.LocksInOrder := h.moved (moved_of_after hm)

theorem afterAll {ms : List Move} : ∀ {s s' : Scene}, s.LocksInOrder → s.afterAll ms = some s' →
    s'.LocksInOrder := by
  induction ms with
  | nil =>
    intro s s' h hs
    cases hs
    exact h
  | cons m ms ih =>
    intro s s' h hs
    obtain ⟨t, ht, hs⟩ := Option.bind_eq_some_iff.mp hs
    exact ih (h.after ht) hs

/-! ### Exclusion -/

/-- What holds at one place at most is counted once at most. -/
theorem length_filter_le_one {α : Type} {p : α → Bool} : ∀ {l : List α},
    (∀ (i j : Nat) (x y : α), l[i]? = some x → l[j]? = some y → p x = true → p y = true → i = j) →
    (l.filter p).length ≤ 1
  | [], _ => by simp
  | x :: l, h => by
    by_cases hx : p x = true
    · have hl : l.filter p = [] := by
        refine List.filter_eq_nil_iff.mpr fun y hy hpy => ?_
        obtain ⟨j, hj⟩ := List.mem_iff_getElem?.mp hy
        exact absurd (h 0 (j + 1) x y rfl hj hx hpy) (by omega)
      rw [List.filter_cons_of_pos hx, hl]
      simp
    · rw [List.filter_cons_of_neg hx]
      refine length_filter_le_one fun i j y z hy hz hpy hpz => ?_
      have := h (i + 1) (j + 1) y z hy hz hpy hpz
      omega

/-- **The lock of a session.** Two requests of one session that both hold the lock of their agents
are the same request. -/
theorem exclusive (h : s.LocksInOrder) {i j : Nat} {r q : ChatRequest}
    (hr : s.requests[i]? = some r) (hq : s.requests[j]? = some q)
    (hid : r.sessionId = q.sessionId) (hrl : r.phase.hasLock = true)
    (hql : q.phase.hasLock = true) : i = j := by
  have hrc := h.handleCached r (List.mem_of_getElem? hr) (Phase.not_isFinished_of_hasLock hrl)
  have hqc := h.handleCached q (List.mem_of_getElem? hq) (Phase.not_isFinished_of_hasLock hql)
  rw [hid] at hrc
  -- both agents are cached for one session, so they are one agent, and its lock has one holder
  have hagent : r.agent = q.agent := lookup_cached h.cachedOnce hrc hqc
  have hri := h.holds i r hr hrl
  have hqj := h.holds j q hq hql
  rw [hagent, hqj] at hri
  injection hri with hri
  injection hri with hri
  exact hri.symm

/-- **A session has at most one open turn.** -/
theorem length_openTurns (h : s.LocksInOrder) (id : String) : (s.openTurns id).length ≤ 1 := by
  refine length_filter_le_one fun i j r q hr hq hrp hqp => ?_
  simp only [Bool.and_eq_true, beq_iff_eq] at hrp hqp
  exact h.exclusive hr hq (hrp.1.trans hqp.1.symm) (Phase.hasLock_of_isOpen hrp.2)
    (Phase.hasLock_of_isOpen hqp.2)

end LocksInOrder

end Scene

end ChatRelay.Session
