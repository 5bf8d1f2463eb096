import ChatRelay.Proofs.Completion.EventPieces
import ChatRelay.Proofs.Completion.Strands

/-! # Deltas read from a body

An empty string in a chunk counts as absent. So no piece of a delta that is read from a body is
empty: what is there at all says something (`filled_of_streamItems`). -/

namespace ChatRelay.Completion

/-- No part of a piece of a call is the empty text. -/
structure CallFragment.Filled (c : CallFragment) : Prop where
  id : c.id ≠ some ""
  name : c.name ≠ some ""
  arguments : c.arguments ≠ some ""

/-- No part of a piece is the empty text. -/
def Fragment.Filled : Fragment → Prop
  | .text s => s ≠ ""
  | .call c => c.Filled

/-- No piece of a delta has an empty part. -/
def Delta.Filled (d : Delta) : Prop := ∀ f ∈ d.fragments, f.Filled

/-- What is true of the pieces of deltas is true of those at an index. -/
theorem filled_of_mem_callPieces {ds : List Delta} (h : ∀ d ∈ ds, d.Filled) {i : Nat}
    {c : CallFragment} (hc : c ∈ callPieces i (piecesOf ds)) : c.Filled := by
  obtain ⟨f, hf, hfc⟩ := List.mem_filterMap.mp hc
  obtain ⟨d, hd, hfd⟩ := List.mem_flatMap.mp hf
  cases f with
  | text s => cases hfc
  | call c' =>
    simp only [Option.ite_none_right_eq_some] at hfc
    obtain rfl := Option.some.inj hfc.2
    exact h d hd _ hfd

theorem nonEmpty_ne_empty (s : Option String) : nonEmpty s ≠ some "" := by
  intro h
  obtain ⟨-, hfilled⟩ := Option.filter_eq_some_iff.mp h
  cases hfilled

/-- What a choice adds is not empty. -/
theorem filled_delta (c : ChunkChoice) : c.delta.Filled := by
  intro f hf
  rcases List.mem_append.mp hf with htext | hcall
  · obtain ⟨s, hs, rfl⟩ := List.mem_map.mp htext
    rintro rfl
    exact nonEmpty_ne_empty _ (Option.mem_toList.mp hs)
  · obtain ⟨i, hi, rfl⟩ := List.mem_mapIdx.mp hcall
    exact ⟨nonEmpty_ne_empty _, nonEmpty_ne_empty _, nonEmpty_ne_empty _⟩

theorem filled_ofChoices (choices : List ChunkChoice) : (Delta.ofChoices choices).Filled := by
  cases choices with
  | nil => exact fun f hf => by cases hf
  | cons c cs => exact filled_delta c

/-- A delta that data say is that of the choices of a chunk. -/
theorem exists_choices_of_ofData {data : String} {d : Delta}
    (h : EventOutcome.ofData data = .delta d) : ∃ choices, d = Delta.ofChoices choices := by
  unfold EventOutcome.ofData at h
  dsimp only at h
  split at h
  next => cases h
  next =>
    split at h
    next => cases h
    next v hv =>
      split at h
      next => cases h
      next =>
        split at h
        next => cases h
        next choices hc =>
          split at h
          next => cases h
          next => exact ⟨choices, (EventOutcome.delta.inj h).symm⟩

theorem filled_of_ofText {event : String} {d : Delta} (h : EventOutcome.ofText event = .delta d) :
    d.Filled := by
  unfold EventOutcome.ofText at h
  dsimp only at h
  split at h
  next => cases h
  next =>
    obtain ⟨choices, rfl⟩ := exists_choices_of_ofData h
    exact filled_ofChoices choices

theorem mem_of_readEvents {es : List EventOutcome} {d : Delta} (h : .ok d ∈ (readEvents es).1) :
    .delta d ∈ es := by
  induction es with
  | nil => cases h
  | cons e es ih =>
    cases e with
    | delta d' =>
      rcases List.mem_cons.mp h with h | h
      · cases h
        exact List.mem_cons_self
      · exact List.mem_cons_of_mem _ (ih h)
    | skip => exact List.mem_cons_of_mem _ (ih h)
    | done => cases h
    | error f => cases List.mem_singleton.mp h

/-- **Nothing that is read from a body is empty.** -/
theorem filled_of_streamItems {pieces : List (List UInt8)} {readError : Option String} {d : Delta}
    (h : .ok d ∈ streamItems pieces readError) : d.Filled := by
  have hread : ∀ events : List (List UInt8), .ok d ∈ (readEvents (events.map outcomeOf)).1 →
      d.Filled := by
    intro events hd
    obtain ⟨e, -, he⟩ := List.mem_map.mp (mem_of_readEvents hd)
    exact filled_of_ofText he
  rw [streamItems_of_cuts (cuts_cutEvents _)] at h
  unfold itemsOf at h
  dsimp only at h
  split at h
  · exact hread _ h
  · cases readError with
    | none =>
      rcases List.mem_append.mp h with h | h
      · exact hread _ h
      · exact filled_of_ofText (List.mem_singleton.mp (mem_of_readEvents h)).symm
    | some reason =>
      rcases List.mem_append.mp h with h | h
      · exact hread _ h
      · cases List.mem_singleton.mp h

end ChatRelay.Completion
