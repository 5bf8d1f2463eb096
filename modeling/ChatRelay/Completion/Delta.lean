import ChatRelay.Completion.Call

/-! # Deltas of a streamed completion

A streamed completion arrives in chunks. Of a chunk only the first choice counts; it becomes a
`Delta`: pieces of text and of calls, in order, and maybe the reason why the completion ended. Empty
strings and `null` count as absent, and a piece of a call without an index takes its position in the
chunk. -/

namespace ChatRelay.Completion

open Json

/-- A piece of a call. The index tells the calls of a completion apart. -/
structure CallFragment where
  index : Nat
  id : Option String
  name : Option String
  arguments : Option String
  deriving DecidableEq, Repr, Inhabited

/-- A piece of a completion. -/
inductive Fragment
  | text (s : String)
  | call (f : CallFragment)
  deriving DecidableEq, Repr, Inhabited

/-- What one chunk adds to a completion. -/
structure Delta where
  fragments : List Fragment
  finishReason : Option String
  deriving DecidableEq, Repr, Inhabited

/-- A delta that adds nothing. -/
def Delta.isEmpty (d : Delta) : Bool := d.fragments.isEmpty && d.finishReason.isNone

/-! ### Chunks -/

/-- A piece of a call as a chunk holds it. -/
structure ChunkCall where
  index : Option Nat
  id : Option String
  name : Option String
  arguments : Option String
  deriving DecidableEq, Repr, Inhabited

/-- The first choice of a chunk. -/
structure ChunkChoice where
  content : Option String
  calls : List ChunkCall
  finishReason : Option String
  deriving DecidableEq, Repr, Inhabited

namespace ChunkCall

/-- Reads a function: its name and its arguments. -/
def decodeFunction : Decoder (Option String × Option String) := fun room d => do
  let s ← record ["name", "arguments"] room d
  return (← s.defaulted "name" none (nullable text), ← s.defaulted "arguments" none (nullable text))

/-- Reads a piece of a call. -/
def decode : Decoder ChunkCall := fun room d => do
  let s ← record ["index", "id", "function"] room d
  let index ← s.defaulted "index" none (nullable (natural 32))
  let id ← s.defaulted "id" none (nullable text)
  let function ← s.defaulted "function" none (nullable decodeFunction)
  return { index, id, name := function.bind (·.1), arguments := function.bind (·.2) }

/-- The piece at a position of its chunk. -/
def fragment (position : Nat) (c : ChunkCall) : CallFragment :=
  { index := c.index.getD (position % Nat.pow 2 32)
    id := nonEmpty c.id
    name := nonEmpty c.name
    arguments := nonEmpty c.arguments }

end ChunkCall

namespace ChunkChoice

/-- Reads what a choice adds: its text and its pieces of calls. -/
def decodeDelta : Decoder (Option String × List ChunkCall) := fun room d => do
  let s ← record ["content", "tool_calls"] room d
  let content ← s.defaulted "content" none (nullable text)
  let calls ← s.defaulted "tool_calls" none (nullable (list ChunkCall.decode))
  return (content, calls.getD [])

/-- Reads a choice. -/
def decode : Decoder ChunkChoice := fun room d => do
  let s ← record ["delta", "finish_reason"] room d
  let delta ← s.defaulted "delta" none (nullable decodeDelta)
  let finishReason ← s.defaulted "finish_reason" none (nullable text)
  let (content, calls) := delta.getD (none, [])
  return { content, calls, finishReason }

/-- Reads the choices of a chunk. -/
def decodeChunk : Decoder (List ChunkChoice) := fun room d => do
  let s ← record ["choices"] room d
  s.defaulted "choices" [] (list decode)

/-- What a choice adds. -/
def delta (c : ChunkChoice) : Delta :=
  let text := (nonEmpty c.content).toList.map Fragment.text
  let calls := c.calls.mapIdx fun i call => Fragment.call (call.fragment i)
  ⟨text ++ calls, nonEmpty c.finishReason⟩

end ChunkChoice

/-- What a chunk with these choices adds. -/
def Delta.ofChoices (choices : List ChunkChoice) : Delta :=
  match choices with
  | [] => ⟨[], none⟩
  | c :: _ => c.delta

end ChatRelay.Completion
