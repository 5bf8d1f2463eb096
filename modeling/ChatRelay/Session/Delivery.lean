import ChatRelay.Session.Interleaving

/-! # Chunks on their way

A streamed turn stores each chunk and then sends it to its caller. A `Scene` makes one move of that.
Here others may move in between: a `Delivery` is a scene together with the chunks that are stored
and not sent yet. The request itself goes on only when its chunk is sent. -/

namespace ChatRelay.Session

/-- A scene, and the chunk that each request has stored and not sent yet. -/
structure Delivery where
  scene : Scene
  unsent : Nat → Option String
  deriving Inhabited

/-- What can happen next. -/
inductive DeliveryMove
  /-- A move of the scene. -/
  | move (m : Move)
  /-- A streamed turn stores a chunk, whether it can be stored or not. -/
  | store (i : Nat) (c : String)
  /-- A streamed turn sends the chunk that it has stored. -/
  | send (i : Nat)
  deriving Inhabited

/-- The stamp of the message that a move adds. -/
def DeliveryMove.stamp? : DeliveryMove → Option Stamp
  | move m => m.stamp?
  | store .. | send _ => none

namespace Delivery

/-- Before the first request. -/
def start (store : Store) (capacity : Nat) : Delivery := ⟨.start store capacity, fun _ => none⟩

/-- The delivery after a request has stored a chunk. -/
def keepChunk (d : Delivery) (i : Nat) (r : ChatRequest) (c : String) : Delivery where
  scene := { d.scene with store := (d.scene.store.appendStreamChunk r.sessionId c).2 }
  unsent := fun j => if j = i then some c else d.unsent j

/-- The delivery after a request has sent its chunk. -/
def sendChunk (d : Delivery) (i : Nat) (r : ChatRequest) (c : String) : Delivery where
  scene := d.scene.setRequest i { r with chunks := r.chunks ++ [c] }
  unsent := fun j => if j = i then none else d.unsent j

/-- The delivery after a move; none if the move cannot be made. -/
def after (d : Delivery) : DeliveryMove → Option Delivery
  | .move m =>
    if (m.request?.bind d.unsent).isSome then none
    else (d.scene.after m).map fun scene => { d with scene }
  | .store i c => do
    let r ← d.scene.requests[i]?
    match r.phase, d.unsent i with
    | .running _, none => if r.streamed then some (d.keepChunk i r c) else none
    | _, _ => none
  | .send i => do
    let r ← d.scene.requests[i]?
    let c ← d.unsent i
    return d.sendChunk i r c

/-- The delivery after moves, one after another. -/
def afterAll (d : Delivery) : List DeliveryMove → Option Delivery
  | [] => some d
  | m :: ms => (d.after m).bind (afterAll · ms)

end Delivery

/-- The chunks that a request produces on a move. -/
def DeliveryMove.produced (i : Nat) : DeliveryMove → List String
  | move (.chunk j c) | store j c => if j = i then [c] else []
  | _ => []

/-- The chunks that a request produces in a run, in order. -/
def producedBy (i : Nat) (ms : List DeliveryMove) : List String :=
  ms.flatMap (DeliveryMove.produced i)

/-- The chunks that a request has sent, without the text of its failure. -/
def ChatRequest.sent (r : ChatRequest) : List String :=
  match r.phase with
  | .failing _ => r.chunks.dropLast
  | _ => r.chunks

end ChatRelay.Session
