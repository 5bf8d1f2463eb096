import ChatRelay.Completion.Accumulator
import Mathlib.Data.List.Range
import Mathlib.Data.List.Induction

/-! # Calls by index

However the pieces of a stream are mixed, the text that is accumulated is that of the pieces of text
in order, and the call at an index is made of the pieces with this index in order, the others do not
matter (`foldl_addFragment`). The calls are a table over the indices (`callTable`), which a new
piece changes at its own index only (`alter_callTable`). -/

namespace ChatRelay.Completion

/-! ### Pieces -/

/-- The pieces of text. -/
def textsOf (fs : List Fragment) : List String :=
  fs.filterMap fun
    | .text s => some s
    | .call _ => none

/-- The pieces of the call at an index. -/
def callPieces (i : Nat) (fs : List Fragment) : List CallFragment :=
  fs.filterMap fun
    | .text _ => none
    | .call c => if c.index = i then some c else none

/-- A call before its first piece. -/
def PendingCall.fresh : PendingCall := ⟨none, "", ""⟩

/-- What the pieces of a call make of it; there is no call without a piece. -/
def pendingOf (policy : NamePolicy) (cs : List CallFragment) : Option PendingCall :=
  if cs.isEmpty then none else some (cs.foldl (fun p c => p.add policy c) .fresh)

theorem pendingOf_append (policy : NamePolicy) (cs : List CallFragment) (c : CallFragment) :
    pendingOf policy (cs ++ [c]) = some (((pendingOf policy cs).getD .fresh).add policy c) := by
  unfold pendingOf
  rw [List.foldl_append]
  cases cs <;> simp

/-! ### Tables -/

/-- The calls at some indices. -/
def callsAt (g : Nat → Option PendingCall) (is : List Nat) : PendingCalls :=
  is.filterMap fun i => (g i).map fun p => (i, p)

/-- The calls at the indices below `n`. -/
def callTable (n : Nat) (g : Nat → Option PendingCall) : PendingCalls := callsAt g (List.range n)

theorem callsAt_cons_none {g : Nat → Option PendingCall} {j : Nat} (h : g j = none)
    (is : List Nat) : callsAt g (j :: is) = callsAt g is := by
  simp [callsAt, h]

theorem callsAt_cons_some {g : Nat → Option PendingCall} {j : Nat} {p : PendingCall}
    (h : g j = some p) (is : List Nat) : callsAt g (j :: is) = (j, p) :: callsAt g is := by
  simp [callsAt, h]

theorem callsAt_update {g : Nat → Option PendingCall} {is : List Nat} {i : Nat} (h : i ∉ is)
    (x : Option PendingCall) : callsAt (Function.update g i x) is = callsAt g is := by
  refine List.filterMap_congr fun k hk => ?_
  have hne : k ≠ i := by
    rintro rfl
    exact h hk
  rw [Function.update_of_ne hne]

/-- An index before all others gets a new call. -/
theorem alter_callsAt_of_lt {g : Nat → Option PendingCall} {is : List Nat} {i : Nat}
    (h : ∀ j ∈ is, i < j) (f : PendingCall → PendingCall) :
    (callsAt g is).alter i f = (i, f .fresh) :: callsAt g is := by
  induction is with
  | nil => rfl
  | cons j is ih =>
    obtain ⟨hj, his⟩ := List.forall_mem_cons.mp h
    cases hg : g j with
    | none => rw [callsAt_cons_none hg, ih his]
    | some p =>
      rw [callsAt_cons_some hg, PendingCalls.alter, if_pos hj]
      rfl

/-- **A change at an index of the table changes the call there**, and no other. -/
theorem alter_callsAt {g : Nat → Option PendingCall} {is : List Nat} (hs : is.Pairwise (· < ·))
    {i : Nat} (hi : i ∈ is) (f : PendingCall → PendingCall) :
    (callsAt g is).alter i f = callsAt (Function.update g i (some (f ((g i).getD .fresh)))) is := by
  induction is with
  | nil => cases hi
  | cons j is ih =>
    obtain ⟨hj, his⟩ := List.pairwise_cons.mp hs
    rcases List.mem_cons.mp hi with rfl | hi
    · have hnot : i ∉ is := fun h => Nat.lt_irrefl i (hj i h)
      rw [callsAt_cons_some (Function.update_self i _ g), callsAt_update hnot]
      cases hg : g i with
      | none => rw [callsAt_cons_none hg, alter_callsAt_of_lt hj, Option.getD_none]
      | some p =>
        rw [callsAt_cons_some hg, PendingCalls.alter, if_neg (Nat.lt_irrefl i), if_pos rfl,
          Option.getD_some]
    · have hlt : j < i := hj i hi
      have hother : Function.update g i (some (f ((g i).getD .fresh))) j = g j :=
        Function.update_of_ne (Nat.ne_of_lt hlt) _ g
      cases hg : g j with
      | none => rw [callsAt_cons_none hg, callsAt_cons_none (hother.trans hg), ih his hi]
      | some p =>
        rw [callsAt_cons_some hg, callsAt_cons_some (hother.trans hg), PendingCalls.alter,
          if_neg (Nat.not_lt.mpr hlt.le), if_neg (Nat.ne_of_gt hlt), ih his hi]

theorem alter_callTable {g : Nat → Option PendingCall} {n i : Nat} (hi : i < n)
    (f : PendingCall → PendingCall) :
    (callTable n g).alter i f = callTable n (Function.update g i (some (f ((g i).getD .fresh)))) :=
  alter_callsAt List.pairwise_lt_range (List.mem_range.mpr hi) f

/-! ### Accumulated pieces -/

/-- **What the pieces of a stream amount to.** -/
theorem foldl_addFragment (policy : NamePolicy) (fs : List Fragment) {n : Nat}
    (hn : ∀ c, .call c ∈ fs → c.index < n) :
    fs.foldl Accumulator.addFragment (.start policy) =
      { policy
        fullText := String.join (textsOf fs)
        emitted := (textsOf fs).reverse
        calls := callTable n fun i => pendingOf policy (callPieces i fs) } := by
  induction fs using List.reverseRecOn with
  | nil => simp [Accumulator.start, textsOf, callPieces, pendingOf, callTable, callsAt]
  | append_singleton fs f ih =>
    rw [List.foldl_append, ih fun c hc => hn c (List.mem_append_left _ hc), List.foldl_cons,
      List.foldl_nil]
    cases f with
    | text s =>
      have htexts : textsOf (fs ++ [.text s]) = textsOf fs ++ [s] := List.filterMap_append
      have hcalls (i : Nat) : callPieces i (fs ++ [.text s]) = callPieces i fs :=
        List.filterMap_append.trans (List.append_nil _)
      simp only [Accumulator.addFragment, htexts, hcalls, String.join_append, List.reverse_append]
      simp
    | call c =>
      have htexts : textsOf (fs ++ [.call c]) = textsOf fs :=
        List.filterMap_append.trans (List.append_nil _)
      have hc : c.index < n := hn c (by simp)
      simp only [Accumulator.addFragment, htexts, alter_callTable hc]
      congr 2
      -- only the call at the index of this piece got one more
      funext i
      by_cases hi : i = c.index
      · subst hi
        have hpieces : callPieces c.index (fs ++ [.call c]) = callPieces c.index fs ++ [c] := by
          simp [callPieces]
        rw [Function.update_self, hpieces, pendingOf_append]
      · have hpieces : callPieces i (fs ++ [.call c]) = callPieces i fs := by
          simp [callPieces, Ne.symm hi]
        rw [Function.update_of_ne hi, hpieces]

/-! ### The call at an index -/

/-- The name that pieces of it make. -/
def NamePolicy.name (policy : NamePolicy) (pieces : List String) : String :=
  match policy with
  | .append => String.join pieces
  | .replace => pieces.getLast?.getD ""

theorem NamePolicy.name_concat (policy : NamePolicy) (pieces : List String) (n : String) :
    policy.name (pieces ++ [n]) =
      match policy with
      | .append => policy.name pieces ++ n
      | .replace => n := by
  cases policy with
  | append => simp [NamePolicy.name, String.join_append]
  | replace => simp [NamePolicy.name]

/-- A call keeps its first id, and its name and its arguments are put together from its pieces. -/
theorem pendingOf_eq (policy : NamePolicy) (cs : List CallFragment) :
    pendingOf policy cs =
      if cs.isEmpty then none
      else some
        { id := cs.findSome? (·.id)
          name := policy.name (cs.filterMap (·.name))
          arguments := String.join (cs.filterMap (·.arguments)) } := by
  unfold pendingOf
  congr 2
  induction cs using List.reverseRecOn with
  | nil => cases policy <;> rfl
  | append_singleton cs c ih =>
    rw [List.foldl_append, ih, List.foldl_cons, List.foldl_nil]
    unfold PendingCall.add
    cases hid : cs.findSome? (·.id) <;> cases hname : c.name <;> cases hargs : c.arguments
      <;> cases policy <;>
      simp [hid, hname, hargs, NamePolicy.name_concat, String.join_append]

/-- The draft of a call, none if its name is blank. -/
def PendingCall.draft? (p : PendingCall) : Option CallDraft :=
  let name := Text.trim p.name
  if name.isEmpty then none else some ⟨p.id, name, p.arguments⟩

theorem drafts_eq (a : Accumulator) : a.drafts = a.calls.filterMap (·.2.draft?) := rfl

theorem filterMap_callTable (n : Nat) (g : Nat → Option PendingCall) :
    (callTable n g).filterMap (·.2.draft?) = (List.range n).filterMap fun i =>
      (g i).bind (·.draft?) := by
  unfold callTable callsAt
  rw [List.filterMap_filterMap]
  refine List.filterMap_congr fun i _ => ?_
  cases g i <;> rfl

/-! ### Accumulated deltas -/

/-- Deltas add their pieces, whatever comes after them. -/
theorem accumulateFrom_deltas (a : Accumulator) (ds : List Delta) (rest : List StreamItem) :
    accumulateFrom a (ds.map .ok ++ rest) =
      accumulateFrom ((ds.flatMap (·.fragments)).foldl Accumulator.addFragment a) rest := by
  induction ds generalizing a with
  | nil => rfl
  | cons d ds ih =>
    rw [List.map_cons, List.cons_append, accumulateFrom, ih, List.flatMap_cons, List.foldl_append]
    rfl

/-- Deltas without a failure add up to their pieces. -/
theorem accumulate_deltas (ds : List Delta) :
    accumulate (ds.map .ok) =
      let a := (ds.flatMap (·.fragments)).foldl Accumulator.addFragment (.start .append)
      (.ok ⟨a.fullText, a.drafts⟩, a.chunks) := by
  have h := accumulateFrom_deltas (.start .append) ds []
  rw [List.append_nil] at h
  exact h

end ChatRelay.Completion
