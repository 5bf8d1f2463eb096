import ChatRelay.Completion.Delta
import ChatRelay.Completion.Failure

/-! # Accumulating deltas

The deltas of a stream are folded into the full text and one record per call index. Text is handed
on piece by piece while it arrives. Of a call the first id counts, the arguments are concatenated,
and the name follows a policy: concatenated, or replaced by every later name. At the end the calls
are listed by index; a call whose name is blank cannot be made and is dropped. -/

namespace ChatRelay.Completion

/-- What a further piece of a name does to the name so far. -/
inductive NamePolicy
  | append
  | replace
  deriving DecidableEq, Repr, Inhabited

/-- A call under way. -/
structure PendingCall where
  id : Option String
  name : String
  arguments : String
  deriving DecidableEq, Repr, Inhabited

/-- The call after one more piece. -/
def PendingCall.add (policy : NamePolicy) (f : CallFragment) (p : PendingCall) : PendingCall :=
  { id := if p.id.isNone then f.id else p.id
    name := match f.name, policy with
      | none, _ => p.name
      | some n, .append => p.name ++ n
      | some n, .replace => n
    arguments := p.arguments ++ f.arguments.getD "" }

/-- Calls under way, by increasing index. -/
abbrev PendingCalls := List (Nat × PendingCall)

/-- Changes the call at an index, which is a new one if there is none yet. -/
def PendingCalls.alter (i : Nat) (f : PendingCall → PendingCall) : PendingCalls → PendingCalls
  | [] => [(i, f ⟨none, "", ""⟩)]
  | (j, p) :: rest =>
    if i < j then (i, f ⟨none, "", ""⟩) :: (j, p) :: rest
    else if i = j then (j, f p) :: rest
    else (j, p) :: alter i f rest

/-- A completion under way: its text, the pieces of text in reverse, and its calls. -/
structure Accumulator where
  policy : NamePolicy
  fullText : String
  emitted : List String
  calls : PendingCalls
  deriving Repr, Inhabited

namespace Accumulator

/-- Nothing received yet. -/
def start (policy : NamePolicy) : Accumulator := ⟨policy, "", [], []⟩

/-- One more piece. -/
def addFragment (a : Accumulator) (f : Fragment) : Accumulator :=
  match f with
  | .text s => { a with fullText := a.fullText ++ s, emitted := s :: a.emitted }
  | .call c => { a with calls := a.calls.alter c.index (·.add a.policy c) }

/-- One more delta. -/
def add (a : Accumulator) (d : Delta) : Accumulator := d.fragments.foldl addFragment a

/-- The pieces of text in order. -/
def chunks (a : Accumulator) : List String := a.emitted.reverse

/-- The calls by index, names trimmed, without those that have no name. -/
def drafts (a : Accumulator) : List CallDraft :=
  a.calls.filterMap fun (_, p) =>
    let name := Text.trim p.name
    if name.isEmpty then none else some ⟨p.id, name, p.arguments⟩

end Accumulator

/-- A finished stream: its text and its calls. -/
structure Accumulated where
  fullText : String
  drafts : List CallDraft
  deriving DecidableEq, Repr, Inhabited

/-- An item of a stream. -/
abbrev StreamItem := Except Failure Delta

/-- Folds the items of a stream up to its first failure. -/
def accumulateFrom (a : Accumulator) : List StreamItem → Except Failure Accumulated × List String
  | [] => (.ok ⟨a.fullText, a.drafts⟩, a.chunks)
  | .error e :: _ => (.error e, a.chunks)
  | .ok d :: rest => accumulateFrom (a.add d) rest

/-- Folds the items of a stream: the completion, or the failure that ended it, and the pieces of
text that arrived before. -/
def accumulate (items : List StreamItem) : Except Failure Accumulated × List String :=
  accumulateFrom (.start .append) items

end ChatRelay.Completion
