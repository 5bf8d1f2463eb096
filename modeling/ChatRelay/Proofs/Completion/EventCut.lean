import ChatRelay.Completion.EventStream

/-! # Where the events of a body end

An event ends at an empty line: two line feeds, or two pairs of carriage return and line feed. A
body is cut at the leftmost of them (`CutAt`), what follows is cut in the same way, and a last part
without an empty line stays over (`Cuts`).

* `cutEvent_eq_some`, `cutEvent_eq_none`: the scan finds the leftmost empty line.
* `cuts_cutEvents`, `Cuts.unique`: every body has exactly one cut.
* `CutAt.append`: an empty line that was found early stays the leftmost one when more bytes arrive,
  also when it overlaps another one that these bytes complete. So a body may be cut as it grows
  (`Cuts.append`). -/

namespace ChatRelay.Completion

/-- The empty lines that end an event. -/
def eventEnds : List (List UInt8) := [[10, 10], [13, 10, 13, 10]]

/-- `body` is cut into `event` and `rest` at its leftmost empty line. -/
structure CutAt (body event rest : List UInt8) : Prop where
  split : ∃ sep ∈ eventEnds, body = event ++ (sep ++ rest)
  leftmost : ∀ before, ∀ sep ∈ eventEnds, ∀ after, body = before ++ (sep ++ after) →
    event.length ≤ before.length

/-- There is no empty line in `body`. -/
def NoEnd (body : List UInt8) : Prop :=
  ∀ before, ∀ sep ∈ eventEnds, ∀ after, body ≠ before ++ (sep ++ after)

/-- **The cut of a body**: its complete events in order, and what is left over. -/
inductive Cuts : List UInt8 → List (List UInt8) → List UInt8 → Prop
  | last {body : List UInt8} (h : NoEnd body) : Cuts body [] body
  | next {body event rest last : List UInt8} {events : List (List UInt8)}
      (h : CutAt body event rest) (t : Cuts rest events last) : Cuts body (event :: events) last

/-! ### The scan -/

theorem mem_eventEnds {sep : List UInt8} :
    sep ∈ eventEnds ↔ sep = [10, 10] ∨ sep = [13, 10, 13, 10] := by
  simp [eventEnds]

theorem noEnd_nil : NoEnd [] := by
  intro before sep hs after h
  rcases mem_eventEnds.mp hs with rfl | rfl <;> simp at h

/-- A byte that starts no empty line moves the cut by one place. -/
theorem CutAt.cons {b : UInt8} {body event rest : List UInt8} (h : CutAt body event rest)
    (h2 : ∀ r, b :: body ≠ 10 :: 10 :: r) (h4 : ∀ r, b :: body ≠ 13 :: 10 :: 13 :: 10 :: r) :
    CutAt (b :: body) (b :: event) rest where
  split := by
    obtain ⟨sep, hs, rfl⟩ := h.split
    exact ⟨sep, hs, rfl⟩
  leftmost before sep hs after he := by
    cases before with
    | nil =>
      rcases mem_eventEnds.mp hs with rfl | rfl
      · exact absurd he (h2 _)
      · exact absurd he (h4 _)
    | cons x before =>
      have := h.leftmost before sep hs after (List.cons.inj he).2
      simpa using this

theorem NoEnd.cons {b : UInt8} {body : List UInt8} (h : NoEnd body)
    (h2 : ∀ r, b :: body ≠ 10 :: 10 :: r) (h4 : ∀ r, b :: body ≠ 13 :: 10 :: 13 :: 10 :: r) :
    NoEnd (b :: body) := by
  intro before sep hs after he
  cases before with
  | nil =>
    rcases mem_eventEnds.mp hs with rfl | rfl
    · exact absurd he (h2 _)
    · exact absurd he (h4 _)
  | cons x before => exact h before sep hs after (List.cons.inj he).2

theorem cutAt_end {sep : List UInt8} (hs : sep ∈ eventEnds) (rest : List UInt8) :
    CutAt (sep ++ rest) [] rest :=
  ⟨⟨sep, hs, rfl⟩, fun _ _ _ _ _ => Nat.zero_le _⟩

theorem cutEventFrom_spec (before body : List UInt8) :
    (∀ event rest, cutEventFrom before body = some (event, rest) →
      ∃ e, event = before.reverse ++ e ∧ CutAt body e rest) ∧
    (cutEventFrom before body = none → NoEnd body) := by
  fun_induction cutEventFrom before body with
  | case1 before rest =>
    refine ⟨fun event r h => ?_, by simp⟩
    simp only [Option.some.injEq, Prod.mk.injEq] at h
    obtain ⟨rfl, rfl⟩ := h
    exact ⟨[], by simp, cutAt_end (mem_eventEnds.mpr (.inl rfl)) _⟩
  | case2 before rest =>
    refine ⟨fun event r h => ?_, by simp⟩
    simp only [Option.some.injEq, Prod.mk.injEq] at h
    obtain ⟨rfl, rfl⟩ := h
    exact ⟨[], by simp, cutAt_end (mem_eventEnds.mpr (.inr rfl)) _⟩
  | case3 before b rest h2 h4 ih =>
    have h2' : ∀ r, b :: rest ≠ 10 :: 10 :: r := by
      intro r h; obtain ⟨rfl, rfl⟩ := List.cons.inj h; exact h2 _ rfl rfl
    have h4' : ∀ r, b :: rest ≠ 13 :: 10 :: 13 :: 10 :: r := by
      intro r h; obtain ⟨rfl, rfl⟩ := List.cons.inj h; exact h4 _ rfl rfl
    refine ⟨fun event r h => ?_, fun h => (ih.2 h).cons h2' h4'⟩
    obtain ⟨e, rfl, he⟩ := ih.1 event r h
    exact ⟨b :: e, by simp, he.cons h2' h4'⟩
  | case4 before => exact ⟨by simp, fun _ => noEnd_nil⟩

theorem CutAt.unique {body e e' r r' : List UInt8} (h : CutAt body e r) (h' : CutAt body e' r') :
    e = e' ∧ r = r' := by
  obtain ⟨sep, hs, rfl⟩ := h.split
  obtain ⟨sep', hs', he⟩ := h'.split
  have hl : e.length = e'.length :=
    Nat.le_antisymm (h.leftmost _ _ hs' _ he) (h'.leftmost _ _ hs _ rfl)
  obtain ⟨rfl, he⟩ := List.append_inj he hl
  refine ⟨rfl, ?_⟩
  rcases mem_eventEnds.mp hs with rfl | rfl <;> rcases mem_eventEnds.mp hs' with rfl | rfl <;>
    simp at he
  · exact he
  · exact he

theorem CutAt.not_noEnd {body e r : List UInt8} (h : CutAt body e r) : ¬ NoEnd body := by
  obtain ⟨sep, hs, he⟩ := h.split
  exact fun hn => hn _ _ hs _ he

/-- **The scan finds the leftmost empty line.** -/
theorem cutEvent_eq_some {body e r : List UInt8} :
    cutEvent body = some (e, r) ↔ CutAt body e r := by
  have hspec := cutEventFrom_spec [] body
  constructor
  · intro h
    obtain ⟨e', rfl, h⟩ := hspec.1 e r h
    simpa using h
  · intro h
    cases hc : cutEvent body with
    | none => exact absurd (hspec.2 hc) h.not_noEnd
    | some p =>
      obtain ⟨e', he, h'⟩ := hspec.1 p.1 p.2 hc
      obtain ⟨rfl, rfl⟩ := h.unique h'
      simp only [List.reverse_nil, List.nil_append] at he
      rw [← he]

theorem cutEvent_eq_none {body : List UInt8} : cutEvent body = none ↔ NoEnd body := by
  refine ⟨(cutEventFrom_spec [] body).2, fun h => ?_⟩
  cases hc : cutEvent body with
  | none => rfl
  | some p => exact absurd h (cutEvent_eq_some.mp hc).not_noEnd

/-! ### All events -/

theorem CutAt.length_lt {body e r : List UInt8} (h : CutAt body e r) : r.length < body.length := by
  obtain ⟨sep, hs, rfl⟩ := h.split
  rcases mem_eventEnds.mp hs with rfl | rfl <;> simp <;> omega

theorem cuts_cutEventsFrom : ∀ (steps : Nat) (body : List UInt8), body.length ≤ steps →
    Cuts body (cutEventsFrom steps body).1 (cutEventsFrom steps body).2
  | 0, body, hl => by
    obtain rfl := List.length_eq_zero_iff.mp (Nat.le_zero.mp hl)
    exact .last noEnd_nil
  | steps + 1, body, hl => by
    unfold cutEventsFrom
    cases hc : cutEvent body with
    | none => exact .last (cutEvent_eq_none.mp hc)
    | some p =>
      have hp := cutEvent_eq_some.mp hc
      exact .next hp (cuts_cutEventsFrom steps p.2 (by have := hp.length_lt; omega))

/-- **Every body has a cut.** -/
theorem cuts_cutEvents (body : List UInt8) : Cuts body (cutEvents body).1 (cutEvents body).2 :=
  cuts_cutEventsFrom _ _ (Nat.le_refl _)

/-- **A body has only one cut.** -/
theorem Cuts.unique {body last last' : List UInt8} {events events' : List (List UInt8)}
    (h : Cuts body events last) (h' : Cuts body events' last') :
    events = events' ∧ last = last' := by
  induction h generalizing events' with
  | last hn =>
    cases h' with
    | last _ => exact ⟨rfl, rfl⟩
    | next hc _ => exact absurd hn hc.not_noEnd
  | next hc _ ih =>
    cases h' with
    | last hn => exact absurd hn hc.not_noEnd
    | next hc' ht =>
      obtain ⟨rfl, rfl⟩ := hc.unique hc'
      obtain ⟨rfl, rfl⟩ := ih ht
      exact ⟨rfl, rfl⟩

/-! ### Bodies that grow -/

theorem cutEventFrom_append (before body more : List UInt8) {event rest : List UInt8}
    (h : cutEventFrom before body = some (event, rest)) :
    cutEventFrom before (body ++ more) = some (event, rest ++ more) := by
  fun_induction cutEventFrom before body with
  | case1 before r => simp_all [cutEventFrom]
  | case2 before r => simp_all [cutEventFrom]
  | case3 before b r h2 h4 ih =>
    -- `r` still holds an empty line, so it is too long for an empty line to start at `b` and to be
    -- completed by `more`
    have hr : ∃ x y s, r = x :: y :: s ∧ (x = 10 → y = 13 → s ≠ []) := by
      obtain ⟨e, -, he⟩ := (cutEventFrom_spec _ _).1 _ _ h
      obtain ⟨sep, hs, hr⟩ := he.split
      rcases mem_eventEnds.mp hs with rfl | rfl <;> rcases e with _ | ⟨x, _ | ⟨y, e⟩⟩ <;>
        simp at hr <;> exact ⟨_, _, _, hr, by simp⟩
    obtain ⟨x, y, s, rfl, hs⟩ := hr
    rw [List.cons_append, cutEventFrom]
    · exact ih h
    · intro r' hb hr'
      simp only [List.cons_append, List.cons.injEq] at hr'
      exact h2 (y :: s) hb (by rw [hr'.1])
    · intro r' hb hr'
      simp only [List.cons_append, List.cons.injEq] at hr'
      obtain ⟨rfl, rfl, hr'⟩ := hr'
      obtain ⟨z, s, rfl⟩ := List.exists_cons_of_ne_nil (hs rfl rfl)
      simp only [List.cons_append, List.cons.injEq] at hr'
      exact h4 s hb (by rw [hr'.1])
  | case4 before => simp at h

/-- **A cut stays the leftmost one when more bytes arrive.** -/
theorem CutAt.append {body event rest : List UInt8} (h : CutAt body event rest)
    (more : List UInt8) : CutAt (body ++ more) event (rest ++ more) :=
  cutEvent_eq_some.mp (cutEventFrom_append _ _ _ (cutEvent_eq_some.mpr h))

/-- **A body that grows is cut by cutting what was left over.** -/
theorem Cuts.append {body last more last' : List UInt8} {events events' : List (List UInt8)}
    (h : Cuts body events last) (h' : Cuts (last ++ more) events' last') :
    Cuts (body ++ more) (events ++ events') last' := by
  induction h with
  | last _ => exact h'
  | next hc _ ih => exact .next (hc.append more) (ih h')

end ChatRelay.Completion
