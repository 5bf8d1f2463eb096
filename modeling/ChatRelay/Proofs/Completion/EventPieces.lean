import ChatRelay.Proofs.Completion.EventCut

/-! # Bodies that arrive in pieces

A reader keeps the bytes of the event that is not complete yet, so what it finds depends on the
bytes of the body only, not on the pieces in which they arrive. `readEvents` tells what a sequence
of events amounts to: items, up to the first event that ends the stream. `itemsOf` adds what follows
the last complete event.

The invariant is `Follows`: the reader has found what `readEvents` makes of the complete events of
the body so far, and keeps what is left over. It is kept by every piece (`Follows.feed`), since the
cut of a body that grows goes on where it stopped (`Cuts.append`). -/

namespace ChatRelay.Completion

open Text

/-! ### Sequences of events -/

/-- The items of events in order, up to the first that ends the stream, and whether one does. -/
def readEvents : List EventOutcome → List StreamItem × Bool
  | [] => ([], false)
  | .delta d :: rest => (.ok d :: (readEvents rest).1, (readEvents rest).2)
  | .skip :: rest => readEvents rest
  | .done :: _ => ([], true)
  | .error f :: _ => ([.error f], true)

/-- What a complete event says. -/
def outcomeOf (event : List UInt8) : EventOutcome := .ofText (lossy event)

/-- What the bytes after the last complete event say at a clean end. -/
def lastOutcome (last : List UInt8) : EventOutcome := .ofText (trim (lossy last))

/-- The failure of a stream whose body breaks off. -/
def readFailure (reason : String) : Failure := .streamError s!"stream read error: {reason}"

/-- **The items of a whole body**, given by its cut. What is left over is one more event if the body
ends cleanly; a failing read is one more item; neither counts once the stream has ended. -/
def itemsOf (events : List (List UInt8)) (last : List UInt8) (readError : Option String) :
    List StreamItem :=
  let read := readEvents (events.map outcomeOf)
  if read.2 then read.1
  else
    match readError with
    | none => read.1 ++ (readEvents [lastOutcome last]).1
    | some reason => read.1 ++ [.error (readFailure reason)]

theorem readEvents_append (es es' : List EventOutcome) :
    readEvents (es ++ es') =
      if (readEvents es).2 then readEvents es
      else ((readEvents es).1 ++ (readEvents es').1, (readEvents es').2) := by
  induction es with
  | nil => simp [readEvents]
  | cons e es ih =>
    cases e with
    | delta d => simp only [List.cons_append, readEvents, ih]; split <;> simp_all
    | skip => exact ih
    | done => simp [readEvents]
    | error f => simp [readEvents]

/-- A failure among the items of events ends them. -/
theorem readEvents_error {es : List EventOutcome} {i : Nat} {f : Failure}
    (h : (readEvents es).1[i]? = some (.error f)) :
    i + 1 = (readEvents es).1.length ∧ (readEvents es).2 = true := by
  induction es generalizing i with
  | nil => simp [readEvents] at h
  | cons e es ih =>
    cases e with
    | delta d =>
      simp only [readEvents] at h ⊢
      cases i with
      | zero => simp at h
      | succ i => simpa using ih (by simpa using h)
    | skip => exact ih h
    | done => simp [readEvents] at h
    | error g =>
      simp only [readEvents] at h ⊢
      cases i with
      | zero => simp
      | succ i => simp at h

/-- **Only the last item of a body can be a failure.** -/
theorem itemsOf_error {events : List (List UInt8)} {last : List UInt8} {readError : Option String}
    {i : Nat} {f : Failure} (h : (itemsOf events last readError)[i]? = some (.error f)) :
    i + 1 = (itemsOf events last readError).length := by
  have hno : ∀ (j : Nat) (g : Failure), (readEvents (events.map outcomeOf)).2 = false →
      (readEvents (events.map outcomeOf)).1[j]? ≠ some (.error g) := by
    intro j g he hj
    rw [(readEvents_error hj).2] at he
    cases he
  unfold itemsOf at h ⊢
  cases he : (readEvents (events.map outcomeOf)).2 with
  | true =>
    simp only [he, if_true] at h ⊢
    exact (readEvents_error h).1
  | false =>
    simp only [he, Bool.false_eq_true, if_false] at h ⊢
    -- the failure is none of the items of complete events
    have hge : (readEvents (events.map outcomeOf)).1.length ≤ i := by
      rcases Nat.lt_or_ge i (readEvents (events.map outcomeOf)).1.length with hlt | hge
      · cases readError <;> simp only [List.getElem?_append_left hlt] at h <;>
          exact absurd h (hno i f he)
      · exact hge
    cases readError with
    | none =>
      simp only [List.length_append] at h ⊢
      rw [List.getElem?_append_right hge] at h
      have := (readEvents_error h).1
      omega
    | some reason =>
      simp only [List.length_append, List.length_singleton] at h ⊢
      rw [List.getElem?_append_right hge] at h
      have := (List.getElem?_eq_some_iff.mp h).1
      simp only [List.length_singleton] at this
      omega

/-! ### The reader -/

namespace EventReader

theorem addEvent_found (r : EventReader) (event : String) :
    (r.addEvent event).items =
        (if r.ended then r.items else r.items ++ (readEvents [.ofText event]).1) ∧
      (r.addEvent event).ended = (r.ended || (readEvents [.ofText event]).2) ∧
      (r.addEvent event).buffer = r.buffer := by
  unfold addEvent items
  cases hr : r.ended with
  | true => simp [hr]
  | false => cases EventOutcome.ofText event <;> simp [readEvents, hr]

theorem foldl_addEvent (r : EventReader) (events : List (List UInt8)) :
    (events.foldl (fun r e => r.addEvent (lossy e)) r).items =
        (if r.ended then r.items else r.items ++ (readEvents (events.map outcomeOf)).1) ∧
      (events.foldl (fun r e => r.addEvent (lossy e)) r).ended =
        (r.ended || (readEvents (events.map outcomeOf)).2) := by
  induction events generalizing r with
  | nil => simp [readEvents]
  | cons e events ih =>
    obtain ⟨h1, h2⟩ := ih (r.addEvent (lossy e))
    obtain ⟨a1, a2, -⟩ := addEvent_found r (lossy e)
    have happ := readEvents_append [outcomeOf e] (events.map outcomeOf)
    simp only [List.singleton_append] at happ
    rw [List.foldl_cons, List.map_cons, h1, h2, a1, a2, happ]
    unfold outcomeOf
    cases r.ended <;> cases hd : (readEvents [EventOutcome.ofText (lossy e)]).2 <;> simp [hd]

/-- The reader has found what the complete events of `body` say, and keeps the rest. -/
structure Follows (r : EventReader) (body : List UInt8) (events : List (List UInt8))
    (last : List UInt8) : Prop where
  cuts : Cuts body events last
  items : r.items = (readEvents (events.map outcomeOf)).1
  ended : r.ended = (readEvents (events.map outcomeOf)).2
  buffer : r.ended = false → r.buffer = last

theorem follows_start : Follows start [] [] [] := ⟨.last noEnd_nil, rfl, rfl, fun _ => rfl⟩

/-- **One more piece.** -/
theorem Follows.feed {r : EventReader} {body last : List UInt8} {events : List (List UInt8)}
    (h : Follows r body events last) (piece : List UInt8) :
    ∃ more last', Follows (r.feed piece) (body ++ piece) (events ++ more) last' := by
  have hcut := h.cuts.append (cuts_cutEvents (last ++ piece))
  refine ⟨(cutEvents (last ++ piece)).1, (cutEvents (last ++ piece)).2, ?_⟩
  have happ := readEvents_append (events.map outcomeOf)
    ((cutEvents (last ++ piece)).1.map outcomeOf)
  rw [← List.map_append, ← h.ended] at happ
  unfold EventReader.feed
  cases hr : r.ended with
  | true =>
    rw [hr, if_pos rfl] at happ
    simp only [if_true]
    exact ⟨hcut, by rw [happ]; exact h.items, by rw [happ, ← h.ended], by simp [hr]⟩
  | false =>
    rw [hr, if_neg (by simp)] at happ
    simp only [Bool.false_eq_true, if_false]
    rw [h.buffer hr]
    obtain ⟨h1, h2⟩ := foldl_addEvent r (cutEvents (last ++ piece)).1
    rw [hr] at h1 h2
    simp only [Bool.false_eq_true, if_false, Bool.false_or] at h1 h2
    refine ⟨hcut, ?_, ?_, fun _ => rfl⟩
    · rw [happ, ← h.items]; exact h1
    · rw [happ]; exact h2

/-- **All pieces.** -/
theorem Follows.feedAll {r : EventReader} {body last : List UInt8} {events : List (List UInt8)}
    (h : Follows r body events last) (pieces : List (List UInt8)) :
    ∃ events' last', Follows (pieces.foldl EventReader.feed r)
    (body ++ pieces.flatten) events' last' := by
  induction pieces generalizing r body events last with
  | nil => exact ⟨events, last, by simpa using h⟩
  | cons piece pieces ih =>
    obtain ⟨more, last', h'⟩ := h.feed piece
    simpa using ih h'

end EventReader

/-! ### The items of a stream -/

/-- The items of a stream are those of the whole body. -/
theorem streamItems_of_cuts {pieces : List (List UInt8)} {events : List (List UInt8)}
    {last : List UInt8} (hc : Cuts pieces.flatten events last) (readError : Option String) :
    streamItems pieces readError = itemsOf events last readError := by
  obtain ⟨events', last', h⟩ := EventReader.follows_start.feedAll pieces
  obtain ⟨rfl, rfl⟩ := hc.unique (by simpa using h.cuts)
  simp only [streamItems, itemsOf, ← h.items, ← h.ended]
  cases readError with
  | none =>
    obtain ⟨h1, -, -⟩ := EventReader.addEvent_found (pieces.foldl EventReader.feed .start)
      (trim (lossy (pieces.foldl EventReader.feed .start).buffer))
    simp only [EventReader.finish, h1]
    cases hr : (pieces.foldl EventReader.feed .start).ended with
    | true => simp
    | false => simp [lastOutcome, h.buffer hr]
  | some reason =>
    unfold EventReader.abort EventReader.items
    cases hr : (pieces.foldl EventReader.feed .start).ended with
    | true => simp
    | false => simp [readFailure]

/-- **The items of a stream depend on the bytes of its body only.** They are those of the whole
body, cut at the leftmost empty line again and again; two ways to cut the body into pieces give the
same items; and only the last item can be a failure. -/
theorem streamItems_eq_itemsOf (pieces : List (List UInt8)) (readError : Option String) :
    (∃ events last, Cuts pieces.flatten events last ∧
      streamItems pieces readError = itemsOf events last readError) ∧
    (∀ pieces' : List (List UInt8), pieces'.flatten = pieces.flatten →
      streamItems pieces' readError = streamItems pieces readError) ∧
    ∀ i f, (streamItems pieces readError)[i]? = some (.error f) →
      i + 1 = (streamItems pieces readError).length := by
  have hcut := cuts_cutEvents pieces.flatten
  refine ⟨⟨_, _, hcut, streamItems_of_cuts hcut readError⟩, fun pieces' he => ?_, fun i f h => ?_⟩
  · have hcut' := cuts_cutEvents pieces'.flatten
    rw [streamItems_of_cuts hcut, streamItems_of_cuts hcut', he]
  · rw [streamItems_of_cuts hcut] at h ⊢
    exact itemsOf_error h

end ChatRelay.Completion
