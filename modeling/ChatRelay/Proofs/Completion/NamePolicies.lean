import ChatRelay.Proofs.Completion.ReadDeltas

/-! # Two ways to take a name

The pieces of a name are joined, or each replaces the one before. The policy to replace is meant for
names that arrive whole, maybe followed by empty texts: then the name should stay, and both policies
agree. But an empty piece replaces a name as any other does (`empty_name_replaces`), so the call is
lost.

Under the policy to replace a call has its last piece as its name (`accumulatedUnder_replace`). A
name that is joined from one text and empty ones is that text (`join_eq_lastFilled`). So the
policies agree just if no name is replaced by a blank one (`names_by_policy`). No piece that is read
from a body is empty, so for a stream they agree whenever the names are whole. -/

namespace ChatRelay.Completion

open Text

/-- The pieces of the name at an index. -/
def namePieces (i : Nat) (fs : List Fragment) : List String := (callPieces i fs).filterMap (·.name)

/-- The last of the pieces of a name, the empty text if there is none. -/
def lastPiece (pieces : List String) : String := pieces.getLast?.getD ""

/-- The pieces of a name that are not empty. -/
def filledPieces (pieces : List String) : List String := pieces.filter (· ≠ "")

/-- What deltas are accumulated to under a policy. -/
def accumulatedUnder (policy : NamePolicy) (ds : List Delta) : Accumulated :=
  let a := ds.foldl Accumulator.add (.start policy)
  ⟨a.fullText, a.drafts⟩

/-- Every name arrives whole: at most one of its pieces is not empty. -/
def NamesWhole (fs : List Fragment) : Prop := ∀ i, (filledPieces (namePieces i fs)).length ≤ 1

/-- No name is lost: if some piece of it is not blank, the last piece is not blank. -/
def NamesStand (fs : List Fragment) : Prop :=
  ∀ i, (∃ n ∈ namePieces i fs, trim n ≠ "") → trim (lastPiece (namePieces i fs)) ≠ ""

/-! ### Pieces of a name -/

theorem trim_empty : trim "" = "" := rfl

theorem ne_empty_of_trim {s : String} (h : trim s ≠ "") : s ≠ "" := by
  rintro rfl
  exact h trim_empty

theorem lastPiece_concat (pieces : List String) (n : String) : lastPiece (pieces ++ [n]) = n := by
  simp [lastPiece]

/-- A last piece is some piece, or there is none. -/
theorem lastPiece_mem {pieces : List String} (h : lastPiece pieces ≠ "") :
    lastPiece pieces ∈ pieces := by
  induction pieces using List.reverseRecOn with
  | nil => exact absurd rfl h
  | append_singleton pieces n _ =>
    rw [lastPiece_concat]
    exact List.mem_append_right _ (List.mem_singleton_self n)

theorem mem_filledPieces {pieces : List String} {n : String} :
    n ∈ filledPieces pieces ↔ n ∈ pieces ∧ n ≠ "" := by
  unfold filledPieces
  rw [List.mem_filter, decide_eq_true_iff]

/-- If the last piece is not empty, it is the last that is not empty. -/
theorem lastFilled_of_last {pieces : List String} (h : lastPiece pieces ≠ "") :
    lastPiece (filledPieces pieces) = lastPiece pieces := by
  induction pieces using List.reverseRecOn with
  | nil => exact absurd rfl h
  | append_singleton pieces n _ =>
    rw [lastPiece_concat] at h
    have hfilled : filledPieces (pieces ++ [n]) = filledPieces pieces ++ [n] := by
      simp [filledPieces, h]
    rw [hfilled, lastPiece_concat, lastPiece_concat]

theorem join_filledPieces (pieces : List String) :
    String.join (filledPieces pieces) = String.join pieces := by
  unfold filledPieces
  induction pieces with
  | nil => rfl
  | cons n pieces ih =>
    rw [List.filter_cons, String.join_cons]
    by_cases hn : n = ""
    · rw [if_neg (by simp [hn]), ih, hn, String.empty_append]
    · rw [if_pos (by simp [hn]), String.join_cons, ih]

/-- **A whole name is joined to itself.** -/
theorem join_eq_lastFilled {pieces : List String} (h : (filledPieces pieces).length ≤ 1) :
    String.join pieces = lastPiece (filledPieces pieces) := by
  rw [← join_filledPieces]
  match hf : filledPieces pieces with
  | [] => rfl
  | [n] => simp [lastPiece, String.join_cons]
  | n :: n' :: rest =>
    rw [hf] at h
    simp at h

theorem lastFilled_eq {pieces : List String} (h : (filledPieces pieces).length ≤ 1) {n : String}
    (hn : n ∈ pieces) (hne : n ≠ "") : lastPiece (filledPieces pieces) = n := by
  have hmem := mem_filledPieces.mpr ⟨hn, hne⟩
  match hf : filledPieces pieces with
  | [] => rw [hf] at hmem; cases hmem
  | [m] =>
    rw [hf] at hmem
    rw [List.mem_singleton.mp hmem]
    rfl
  | m :: m' :: rest =>
    rw [hf] at h
    simp at h

/-! ### Accumulated names -/

/-- What deltas are accumulated to under a policy, given a bound of their indices. -/
theorem accumulatedUnder_eq (policy : NamePolicy) (ds : List Delta) {n : Nat}
    (hn : ∀ c, .call c ∈ piecesOf ds → c.index < n) :
    accumulatedUnder policy ds =
      ⟨String.join (textsOf (piecesOf ds)),
        ((List.range n).filter fun i => trim (nameUnder policy i (piecesOf ds)) ≠ "").map fun i =>
          draftUnder policy i (piecesOf ds)⟩ := by
  have hdeltas : ds.foldl Accumulator.add (.start policy) =
      (piecesOf ds).foldl Accumulator.addFragment (.start policy) := List.foldl_flatMap.symm
  unfold accumulatedUnder
  simp only [hdeltas, drafts_foldl_addFragment policy _ hn]
  rw [foldl_addFragment policy _ hn]

/-- A call with its last name that is not empty. -/
def lastFilledDraft (fs : List Fragment) (i : Nat) : CallDraft :=
  ⟨idAt i fs, trim (lastPiece (filledPieces (namePieces i fs))), argumentsAt i fs⟩

/-- The indices below `n` with a last piece that is not blank. -/
def replacedIndices (n : Nat) (fs : List Fragment) : List Nat :=
  (List.range n).filter fun i => trim (lastPiece (namePieces i fs)) ≠ ""

/-- **A call that is not lost has its last name that is not empty.** -/
theorem accumulatedUnder_replace (ds : List Delta) {n : Nat}
    (hn : ∀ c, .call c ∈ piecesOf ds → c.index < n) :
    accumulatedUnder .replace ds =
      ⟨String.join (textsOf (piecesOf ds)),
        (replacedIndices n (piecesOf ds)).map (lastFilledDraft (piecesOf ds))⟩ := by
  rw [accumulatedUnder_eq .replace ds hn]
  congr 1
  refine List.map_congr_left fun i hi => ?_
  have hlast : trim (lastPiece (namePieces i (piecesOf ds))) ≠ "" :=
    of_decide_eq_true (List.mem_filter.mp hi).2
  unfold lastFilledDraft
  rw [lastFilled_of_last (ne_empty_of_trim hlast)]
  rfl

theorem mem_replacedIndices {fs : List Fragment} {n : Nat} (hn : ∀ c, .call c ∈ fs → c.index < n)
    (i : Nat) : i ∈ replacedIndices n fs ↔ trim (lastPiece (namePieces i fs)) ≠ "" := by
  unfold replacedIndices
  rw [List.mem_filter, List.mem_range, decide_eq_true_iff]
  exact and_iff_right_of_imp fun h =>
    lt_of_nameUnder hn (show trim (nameUnder .replace i fs) ≠ "" from h)

theorem nameUnder_append {fs : List Fragment} (h : NamesWhole fs) (i : Nat) :
    nameUnder .append i fs = lastPiece (filledPieces (namePieces i fs)) := join_eq_lastFilled (h i)

/-- If names are whole, both policies make the same calls, but for those that the policy to replace
loses. -/
theorem accumulatedUnder_append {ds : List Delta} (h : NamesWhole (piecesOf ds)) {n : Nat}
    (hn : ∀ c, .call c ∈ piecesOf ds → c.index < n) :
    accumulatedUnder .append ds =
      ⟨String.join (textsOf (piecesOf ds)),
        ((List.range n).filter fun i =>
          trim (lastPiece (filledPieces (namePieces i (piecesOf ds)))) ≠ "").map
          (lastFilledDraft (piecesOf ds))⟩ := by
  rw [accumulatedUnder_eq .append ds hn]
  unfold draftUnder
  simp only [nameUnder_append h]
  rfl

/-- **Whole names are taken alike just if none is lost.** -/
theorem accumulatedUnder_eq_iff {ds : List Delta} (h : NamesWhole (piecesOf ds)) :
    accumulatedUnder .append ds = accumulatedUnder .replace ds ↔ NamesStand (piecesOf ds) := by
  obtain ⟨n, hn⟩ := exists_index_bound (piecesOf ds)
  rw [accumulatedUnder_append h hn, accumulatedUnder_replace ds hn]
  generalize piecesOf ds = fs at h hn
  let joined : List Nat := (List.range n).filter fun i =>
    trim (lastPiece (filledPieces (namePieces i fs))) ≠ ""
  have hjoined (i : Nat) : i ∈ joined ↔ trim (lastPiece (filledPieces (namePieces i fs))) ≠ "" := by
    rw [← nameUnder_append h i, List.mem_filter, List.mem_range, decide_eq_true_iff,
      nameUnder_append h i]
    exact and_iff_right_of_imp fun hi => lt_of_nameUnder hn (nameUnder_append h i ▸ hi)
  show (⟨_, joined.map _⟩ : Accumulated) = _ ↔ _
  constructor
  · intro he i ⟨m, hm, hblank⟩
    -- the calls under the policy to replace are among the others, and there are as many
    have hsub : (replacedIndices n fs).Sublist joined := by
      refine List.monotone_filter_right _ fun i hi => ?_
      rw [decide_eq_true_iff] at hi ⊢
      rwa [lastFilled_of_last (ne_empty_of_trim hi)]
    have hlen := congrArg (fun a : Accumulated => a.drafts.length) he
    simp only [List.length_map] at hlen
    rw [← mem_replacedIndices hn, hsub.eq_of_length hlen.symm, hjoined,
      lastFilled_eq (h i) hm (ne_empty_of_trim hblank)]
    exact hblank
  · intro hstand
    have hsame : joined = replacedIndices n fs := by
      refine List.filter_congr fun i _ => decide_eq_decide.mpr ⟨fun hi => ?_, fun hi => ?_⟩
      · have hmem := (mem_filledPieces.mp (lastPiece_mem (ne_empty_of_trim hi))).1
        exact hstand i ⟨_, hmem, hi⟩
      · rwa [lastFilled_of_last (ne_empty_of_trim hi)]
    rw [hsame]

/-! ### Names read from a body -/

/-- A whole name without empty pieces is one piece. -/
theorem namesStand_of_filled {ds : List Delta} (hfilled : ∀ d ∈ ds, d.Filled)
    (hwhole : NamesWhole (piecesOf ds)) : NamesStand (piecesOf ds) := by
  intro i ⟨n, hn, hblank⟩
  have hall : filledPieces (namePieces i (piecesOf ds)) = namePieces i (piecesOf ds) := by
    refine List.filter_eq_self.mpr fun m hm => decide_eq_true fun hm' => ?_
    obtain ⟨c, hc, hname⟩ := List.mem_filterMap.mp hm
    exact (filled_of_mem_callPieces hfilled hc).name (hm' ▸ hname)
  have hlast := lastFilled_eq (hwhole i) hn (ne_empty_of_trim hblank)
  rw [hall] at hlast
  rwa [hlast]

/-! ### Policies -/

/-- **What a policy for names makes of deltas.** Under the policy to replace there is a call for
each index whose last piece of the name is not blank, by increasing index. Its name is the last
piece that is not empty, trimmed. So every index with a piece that is not blank has its call just if
no name is lost. If every name arrives whole, both policies come to the same text and the same calls
just if no name is lost; in deltas that are read from a body none is. -/
theorem names_by_policy (ds : List Delta) :
    (∃ is : List Nat, is.Pairwise (· < ·) ∧
      (∀ i, i ∈ is ↔ trim (lastPiece (namePieces i (piecesOf ds))) ≠ "") ∧
      accumulatedUnder .replace ds =
        ⟨String.join (textsOf (piecesOf ds)), is.map (lastFilledDraft (piecesOf ds))⟩ ∧
      ((∀ i, (∃ n ∈ namePieces i (piecesOf ds), trim n ≠ "") → i ∈ is) ↔
        NamesStand (piecesOf ds))) ∧
    (NamesWhole (piecesOf ds) →
      (accumulatedUnder .append ds = accumulatedUnder .replace ds ↔ NamesStand (piecesOf ds)) ∧
      ∀ pieces readError, (∀ d ∈ ds, .ok d ∈ streamItems pieces readError) →
        accumulatedUnder .append ds = accumulatedUnder .replace ds) := by
  obtain ⟨n, hn⟩ := exists_index_bound (piecesOf ds)
  have hmem := mem_replacedIndices hn
  refine ⟨⟨replacedIndices n (piecesOf ds), List.pairwise_lt_range.filter _, hmem,
    accumulatedUnder_replace ds hn, ?_⟩, fun hwhole => ⟨accumulatedUnder_eq_iff hwhole, ?_⟩⟩
  · simp only [hmem]
    rfl
  · intro pieces readError hread
    exact (accumulatedUnder_eq_iff hwhole).mpr
      (namesStand_of_filled (fun d hd => filled_of_streamItems (hread d hd)) hwhole)

/-- **An empty name that replaces a name.** The name is whole, and an empty text follows it with the
arguments. Joined, the name stands, and the call is made; replaced, there is no call. -/
theorem empty_name_replaces :
    let ds : List Delta :=
      [⟨[.call ⟨0, some "a", some "get_weather", none⟩], none⟩,
        ⟨[.call ⟨0, none, some "", some "\x7b\x7d"⟩], none⟩]
    filledPieces (namePieces 0 (piecesOf ds)) = ["get_weather"] ∧
      (accumulatedUnder .append ds).drafts = [⟨some "a", "get_weather", "\x7b\x7d"⟩] ∧
      (accumulatedUnder .replace ds).drafts = [] := by
  decide +kernel

end ChatRelay.Completion
