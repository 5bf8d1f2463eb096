import ChatRelay.Proofs.Completion.PerIndex
import ChatRelay.Proofs.Text.Trimming

/-! # The strands of a stream

The pieces of text of a stream are a strand, and so are the pieces with one index. A stream amounts
to what its strands say (`accumulate_pieces`), so pieces of different strands may change places, and
a piece of a call may be cut in two (`Rearranged`), without any effect on what is accumulated.

`accumulated_by_strands` says what that is, for every stream of deltas: the text and its chunks, the
calls in the order of their indices, and what is left when the stream fails. -/

namespace ChatRelay.Completion

open Text

/-! ### What the pieces at an index say -/

/-- The name of the call at an index. -/
def nameAt (i : Nat) (fs : List Fragment) : String :=
  String.join ((callPieces i fs).filterMap (·.name))

/-- The argument text of the call at an index. -/
def argumentsAt (i : Nat) (fs : List Fragment) : String :=
  String.join ((callPieces i fs).filterMap (·.arguments))

/-- The id of the call at an index: the first that a piece brings. -/
def idAt (i : Nat) (fs : List Fragment) : Option String := (callPieces i fs).findSome? (·.id)

/-- The draft of the call at an index. -/
def draftAt (i : Nat) (fs : List Fragment) : CallDraft :=
  ⟨idAt i fs, trim (nameAt i fs), argumentsAt i fs⟩

/-- The name of the call at an index under a policy. -/
def nameUnder (policy : NamePolicy) (i : Nat) (fs : List Fragment) : String :=
  policy.name ((callPieces i fs).filterMap (·.name))

/-- The draft of the call at an index under a policy; `draftAt` is the one whose name is joined. -/
def draftUnder (policy : NamePolicy) (i : Nat) (fs : List Fragment) : CallDraft :=
  ⟨idAt i fs, trim (nameUnder policy i fs), argumentsAt i fs⟩

/-- Only the pieces at its index make a call, and without a name there is none. -/
theorem pendingOf_draft? (policy : NamePolicy) (i : Nat) (fs : List Fragment) :
    (pendingOf policy (callPieces i fs)).bind (·.draft?) =
      if trim (nameUnder policy i fs) ≠ "" then some (draftUnder policy i fs) else none := by
  rw [pendingOf_eq]
  split
  next hnil =>
    have hname : trim (nameUnder policy i fs) = "" := by
      unfold nameUnder
      rw [List.isEmpty_iff.mp hnil]
      cases policy <;> rfl
    rw [hname, if_neg (by simp)]
    rfl
  next =>
    simp only [Option.bind_some, PendingCall.draft?, String.isEmpty_iff, ne_eq, ite_not]
    rfl

/-! ### Accumulated strands -/

/-- The pieces of deltas in order. -/
def piecesOf (ds : List Delta) : List Fragment := ds.flatMap (·.fragments)

theorem exists_index_bound (fs : List Fragment) : ∃ n, ∀ c, .call c ∈ fs → c.index < n := by
  induction fs with
  | nil => exact ⟨0, by simp⟩
  | cons f fs ih =>
    obtain ⟨n, hn⟩ := ih
    cases f with
    | text s => exact ⟨n, fun c hc => hn c (by simpa using hc)⟩
    | call c =>
      refine ⟨max n (c.index + 1), fun c' hc => ?_⟩
      rcases List.mem_cons.mp hc with hc | hc
      · cases hc
        omega
      · have := hn c' hc
        omega

/-- The indices below `n` at which a call has a name. -/
def namedIndices (n : Nat) (fs : List Fragment) : List Nat :=
  (List.range n).filter fun i => trim (nameAt i fs) ≠ ""

/-- An index at which a call has a name is that of a piece. -/
theorem lt_of_nameUnder {policy : NamePolicy} {fs : List Fragment} {n i : Nat}
    (hn : ∀ c, .call c ∈ fs → c.index < n) (hi : trim (nameUnder policy i fs) ≠ "") : i < n := by
  by_contra hle
  have hnone : callPieces i fs = [] := by
    refine List.filterMap_eq_nil_iff.mpr fun f hf => ?_
    cases f with
    | text s => rfl
    | call c =>
      have := hn c hf
      exact if_neg (by omega)
  refine hi ?_
  unfold nameUnder
  rw [hnone]
  cases policy <;> rfl

theorem lt_of_nameAt {fs : List Fragment} {n i : Nat} (hn : ∀ c, .call c ∈ fs → c.index < n)
    (hi : trim (nameAt i fs) ≠ "") : i < n :=
  lt_of_nameUnder hn (show trim (nameUnder .append i fs) ≠ "" from hi)

/-- **The calls that pieces are accumulated to**, given a bound of their indices. -/
theorem drafts_foldl_addFragment (policy : NamePolicy) (fs : List Fragment) {n : Nat}
    (hn : ∀ c, .call c ∈ fs → c.index < n) :
    (fs.foldl Accumulator.addFragment (.start policy)).drafts =
      ((List.range n).filter fun i => trim (nameUnder policy i fs) ≠ "").map fun i =>
        draftUnder policy i fs := by
  rw [foldl_addFragment policy fs hn, drafts_eq, filterMap_callTable, ← List.filterMap_eq_filter,
    List.map_filterMap]
  refine List.filterMap_congr fun i _ => ?_
  rw [pendingOf_draft?, Option.guard]
  split <;> simp_all

/-- **What pieces are accumulated to**, given a bound of their indices. -/
theorem accumulate_pieces (ds : List Delta) {n : Nat}
    (hn : ∀ c, .call c ∈ piecesOf ds → c.index < n) : accumulate (ds.map .ok) =
      (.ok ⟨String.join (textsOf (piecesOf ds)),
        (namedIndices n (piecesOf ds)).map fun i => draftAt i (piecesOf ds)⟩,
          textsOf (piecesOf ds)) := by
  have hfold := foldl_addFragment .append (piecesOf ds) hn
  have hdrafts : ((piecesOf ds).foldl Accumulator.addFragment (.start .append)).drafts =
      (namedIndices n (piecesOf ds)).map fun i => draftAt i (piecesOf ds) :=
    drafts_foldl_addFragment .append (piecesOf ds) hn
  rw [accumulate_deltas]
  unfold piecesOf at hfold hdrafts ⊢
  simp only [hdrafts]
  simp only [hfold, Accumulator.chunks, List.reverse_reverse]

/-! ### Rearranged streams -/

/-- The strand of a piece: the text, or the call at an index. -/
def Fragment.strand : Fragment → Option Nat
  | .text _ => none
  | .call c => some c.index

/-- A piece of a call is cut into two of the same index: its name and its arguments anywhere, and
its id is in either of them. -/
structure CallFragment.CutInto (c c₁ c₂ : CallFragment) : Prop where
  index₁ : c₁.index = c.index
  index₂ : c₂.index = c.index
  id : c.id = c₁.id.or c₂.id
  name : c.name.getD "" = c₁.name.getD "" ++ c₂.name.getD ""
  arguments : c.arguments.getD "" = c₁.arguments.getD "" ++ c₂.arguments.getD ""

/-- The same strands in other pieces and mixed in another way: neighbours of different strands have
changed places, and pieces of calls have been cut in two, or put together again. -/
inductive Rearranged : List Fragment → List Fragment → Prop
  | refl (fs : List Fragment) : Rearranged fs fs
  | cons (f : Fragment) {fs gs : List Fragment} (h : Rearranged fs gs) :
      Rearranged (f :: fs) (f :: gs)
  | swap {f g : Fragment} (h : f.strand ≠ g.strand) (fs : List Fragment) :
      Rearranged (f :: g :: fs) (g :: f :: fs)
  | cut {c c₁ c₂ : CallFragment} (h : c.CutInto c₁ c₂) (fs : List Fragment) :
      Rearranged (.call c :: fs) (.call c₁ :: .call c₂ :: fs)
  | symm {fs gs : List Fragment} (h : Rearranged fs gs) : Rearranged gs fs
  | trans {fs gs hs : List Fragment} (h : Rearranged fs gs) (h' : Rearranged gs hs) :
      Rearranged fs hs

/-- All strands say the same. -/
structure SameStrands (fs gs : List Fragment) : Prop where
  texts : textsOf fs = textsOf gs
  name : ∀ i, nameAt i fs = nameAt i gs
  arguments : ∀ i, argumentsAt i fs = argumentsAt i gs
  id : ∀ i, idAt i fs = idAt i gs

section cons

variable (i : Nat) (fs : List Fragment)

theorem nameAt_cons (f : Fragment) : nameAt i (f :: fs) =
    match f with
    | .text _ => nameAt i fs
    | .call c => if c.index = i then c.name.getD "" ++ nameAt i fs else nameAt i fs := by
  cases f with
  | text s => rfl
  | call c =>
    by_cases h : c.index = i
    · cases hname : c.name <;> simp [nameAt, callPieces, h, hname, String.join_cons]
    · simp [nameAt, callPieces, h]

theorem argumentsAt_cons (f : Fragment) : argumentsAt i (f :: fs) =
    match f with
    | .text _ => argumentsAt i fs
    | .call c => if c.index = i then c.arguments.getD "" ++ argumentsAt i fs
        else argumentsAt i fs := by
  cases f with
  | text s => rfl
  | call c =>
    by_cases h : c.index = i
    · cases harguments : c.arguments
        <;> simp [argumentsAt, callPieces, h, harguments, String.join_cons]
    · simp [argumentsAt, callPieces, h]

theorem idAt_cons (f : Fragment) : idAt i (f :: fs) =
    match f with
    | .text _ => idAt i fs
    | .call c => if c.index = i then c.id.or (idAt i fs) else idAt i fs := by
  cases f with
  | text s => rfl
  | call c =>
    by_cases h : c.index = i
    · cases hid : c.id <;> simp [idAt, callPieces, h, hid]
    · simp [idAt, callPieces, h]

end cons

/-- **Rearranging changes no strand.** -/
theorem Rearranged.sameStrands {fs gs : List Fragment} (h : Rearranged fs gs) :
    SameStrands fs gs := by
  induction h with
  | refl fs => exact ⟨rfl, fun _ => rfl, fun _ => rfl, fun _ => rfl⟩
  | cons f _ ih =>
    refine ⟨?_, fun i => ?_, fun i => ?_, fun i => ?_⟩
    · cases f with
      | text s => exact congrArg (s :: ·) ih.texts
      | call c => exact ih.texts
    · rw [nameAt_cons, nameAt_cons, ih.name]
    · rw [argumentsAt_cons, argumentsAt_cons, ih.arguments]
    · rw [idAt_cons, idAt_cons, ih.id]
  | @swap f g h fs =>
    cases f with
    | text s =>
      cases g with
      | text t => exact absurd rfl h
      | call c => exact ⟨rfl, fun i => by simp [nameAt_cons], fun i => by simp [argumentsAt_cons],
          fun i => by simp [idAt_cons]⟩
    | call c =>
      cases g with
      | text t => exact ⟨rfl, fun i => by simp [nameAt_cons], fun i => by simp [argumentsAt_cons],
          fun i => by simp [idAt_cons]⟩
      | call c' =>
        -- only one of the two can stand at a given index
        have hne : c.index ≠ c'.index := fun he => h (congrArg some he)
        refine ⟨rfl, fun i => ?_, fun i => ?_, fun i => ?_⟩ <;>
          simp only [nameAt_cons, argumentsAt_cons, idAt_cons] <;> grind
  | @cut c c₁ c₂ h fs =>
    refine ⟨rfl, fun i => ?_, fun i => ?_, fun i => ?_⟩
    · simp only [nameAt_cons, h.index₁, h.index₂, h.name]
      split <;> simp [String.append_assoc]
    · simp only [argumentsAt_cons, h.index₁, h.index₂, h.arguments]
      split <;> simp [String.append_assoc]
    · simp only [idAt_cons, h.index₁, h.index₂, h.id]
      split <;> simp [Option.or_assoc]
  | symm _ ih =>
    exact ⟨ih.texts.symm, fun i => (ih.name i).symm, fun i => (ih.arguments i).symm,
      fun i => (ih.id i).symm⟩
  | trans _ _ ih ih' =>
    exact ⟨ih.texts.trans ih'.texts, fun i => (ih.name i).trans (ih'.name i),
      fun i => (ih.arguments i).trans (ih'.arguments i), fun i => (ih.id i).trans (ih'.id i)⟩

/-- **Streams with the same strands are accumulated to the same.** -/
theorem SameStrands.accumulate_eq {ds ds' : List Delta}
    (h : SameStrands (piecesOf ds) (piecesOf ds')) :
    accumulate (ds'.map .ok) = accumulate (ds.map .ok) := by
  obtain ⟨n, hn⟩ := exists_index_bound (piecesOf ds ++ piecesOf ds')
  have hnamed : namedIndices n (piecesOf ds) = namedIndices n (piecesOf ds') := by
    unfold namedIndices
    simp only [h.name]
  have hdraft (i : Nat) : draftAt i (piecesOf ds) = draftAt i (piecesOf ds') := by
    unfold draftAt
    rw [h.name, h.arguments, h.id]
  rw [accumulate_pieces ds fun c hc => hn c (List.mem_append_left _ hc),
    accumulate_pieces ds' fun c hc => hn c (List.mem_append_right _ hc), h.texts, hnamed]
  simp only [hdraft]

/-! ### Finished calls -/

/-- The call made of the pieces at an index. Its id is drawn from the source if no piece brings
one. -/
structure MadeAt (fs : List Fragment) (d : Draws) (i : Nat) (c : ToolCall) : Prop where
  name : c.name = trim (nameAt i fs)
  raw : c.rawArguments = argumentsAt i fs
  arguments : c.arguments = parseArguments (argumentsAt i fs)
  id : ∀ id ∈ idAt i fs, c.id = id
  fresh : idAt i fs = none → ∃ n, d.used ≤ n ∧ c.id = (Draws.callId ⟨d.seed, n⟩).1

theorem MadeAt.of_later {fs : List Fragment} {d d' : Draws} {i : Nat} {c : ToolCall}
    (h : MadeAt fs d' i c) (hseed : d'.seed = d.seed) (hused : d.used ≤ d'.used) :
    MadeAt fs d i c := by
  refine { h with fresh := fun hnone => ?_ }
  obtain ⟨n, hn, hid⟩ := h.fresh hnone
  exact ⟨n, hused.trans hn, hseed ▸ hid⟩

theorem madeAt_complete (fs : List Fragment) (d : Draws) (i : Nat) :
    MadeAt fs d i ((draftAt i fs).complete d).1 ∧
      ((draftAt i fs).complete d).2.seed = d.seed ∧
      d.used ≤ ((draftAt i fs).complete d).2.used := by
  unfold CallDraft.complete draftAt
  cases hid : idAt i fs with
  | some id =>
    refine ⟨⟨rfl, rfl, by simp only [ToolCall.ofRaw], fun id' h => ?_, fun h => ?_⟩, rfl,
      Nat.le_refl _⟩
    · exact Option.some.inj (hid.symm.trans h)
    · cases hid.symm.trans h
  | none =>
    refine ⟨⟨rfl, rfl, by simp only [ToolCall.ofRaw], fun id h => ?_, fun _ => ?_⟩, rfl,
      Nat.le_succ _⟩
    · cases hid.symm.trans h
    · exact ⟨d.used, Nat.le_refl _, rfl⟩

theorem madeAt_completeCalls (fs : List Fragment) (is : List Nat) : ∀ d : Draws,
    List.Forall₂ (MadeAt fs d) is (completeCalls (is.map fun i => draftAt i fs) d).1 := by
  induction is with
  | nil => exact fun d => .nil
  | cons i is ih =>
    intro d
    obtain ⟨hmade, hseed, hused⟩ := madeAt_complete fs d i
    exact .cons hmade ((ih _).imp fun _ _ h => h.of_later hseed hused)

/-! ### The whole stream -/

/-- **A stream is accumulated strand by strand.** Its text is that of its pieces of text, which are
handed on one by one. Its calls are listed by increasing index, one for each index with a name that
is not blank: the trimmed name, the arguments that the joined argument text means, and the first id,
or a fresh one. Neither how the pieces of different strands are mixed and spread over deltas, nor
where pieces of calls are cut, matters. A failure ends the stream; the pieces of text before it were
handed on. -/
theorem accumulated_by_strands (ds : List Delta) :
    (∃ is : List Nat, is.Pairwise (· < ·) ∧ (∀ i, i ∈ is ↔ trim (nameAt i (piecesOf ds)) ≠ "") ∧
      accumulate (ds.map .ok) = (.ok ⟨String.join (textsOf (piecesOf ds)),
        is.map fun i => draftAt i (piecesOf ds)⟩, textsOf (piecesOf ds)) ∧
      ∀ d, List.Forall₂ (MadeAt (piecesOf ds) d) is
        (completeCalls (is.map fun i => draftAt i (piecesOf ds)) d).1) ∧
    (∀ ds', Rearranged (piecesOf ds) (piecesOf ds') →
      accumulate (ds'.map .ok) = accumulate (ds.map .ok)) ∧
    ∀ f rest, accumulate (ds.map .ok ++ .error f :: rest) = (.error f, textsOf (piecesOf ds)) := by
  obtain ⟨n, hn⟩ := exists_index_bound (piecesOf ds)
  refine ⟨⟨namedIndices n (piecesOf ds), List.pairwise_lt_range.filter _, fun i => ?_,
    accumulate_pieces ds hn, madeAt_completeCalls _ _⟩, fun ds' h =>
      h.sameStrands.accumulate_eq, fun f rest => ?_⟩
  · unfold namedIndices
    rw [List.mem_filter, List.mem_range, decide_eq_true_iff]
    exact and_iff_right_of_imp (lt_of_nameAt hn)
  · have hfold := foldl_addFragment .append (piecesOf ds) hn
    unfold accumulate piecesOf at *
    rw [accumulateFrom_deltas, accumulateFrom, hfold, Accumulator.chunks, List.reverse_reverse]

end ChatRelay.Completion
