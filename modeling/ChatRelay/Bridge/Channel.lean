import ChatRelay.Bridge.Message
import ChatRelay.Text.Blank
import ChatRelay.Text.Utf8Fault

/-! # What a bridge server writes

A server writes lines. The answer to a request is the first line that is a response with the
request's id; every other line in front of it (a log, a notification, the answer to something else,
nothing at all) is passed over. A line that is not UTF-8 ends the wait. A line counts once its end
has come, or once the server has closed its output. -/

namespace ChatRelay.Bridge

open Json

/-! ### Waiting for an answer -/

/-- What a wait for an answer comes to. -/
inductive Awaited
  | answered (r : RpcResponse)
  /-- A line that is not text. -/
  | unreadable (f : Text.Utf8Fault)
  /-- No answer among the lines. -/
  | unanswered
  deriving Inhabited

/-- The response that a line holds, if it holds one. -/
def responseOf? (line : String) : Option RpcResponse :=
  (decodeText RpcResponse.decode (Text.trim line)).toOption

/-- One line met by the wait for the answer to `id`: the end of the wait, or nothing. -/
def meet (id : Nat) (line : List UInt8) : Option Awaited :=
  match Text.Utf8Fault.of? line with
  | some f => some (.unreadable f)
  | none =>
    match responseOf? (Text.lossy line) with
    | some r => if r.id = some id then some (.answered r) else none
    | none => none

/-- Reads lines until the wait for the answer to `id` ends: its end, and the lines after it. -/
def await (id : Nat) : List (List UInt8) → Awaited × List (List UInt8)
  | [] => (.unanswered, [])
  | line :: rest =>
    match meet id line with
    | some a => (a, rest)
    | none => await id rest

/-! ### Channels -/

/-- The output of a server as far as it was not read. -/
structure Channel where
  /-- Whole lines, in order. -/
  lines : List (List UInt8)
  /-- The start of a line that has not ended. -/
  opened : List UInt8
  /-- The server has closed its output. -/
  isClosed : Bool
  deriving Inhabited

namespace Channel

/-- A channel on which nothing was written. -/
def empty : Channel := ⟨[], [], false⟩

/-- One more byte: the lines that ended and the open one, both in reverse. -/
def addByte (acc : List (List UInt8) × List UInt8) (b : UInt8) : List (List UInt8) × List UInt8 :=
  if b = 0x0A then ((b :: acc.2).reverse :: acc.1, []) else (acc.1, b :: acc.2)

/-- The channel after the server has written some bytes. -/
def receive (c : Channel) (bs : List UInt8) : Channel :=
  if c.isClosed then c
  else
    let acc := bs.foldl addByte ([], c.opened.reverse)
    { c with lines := c.lines ++ acc.1.reverse, opened := acc.2.reverse }

/-- The channel after the server has closed its output: the open line has ended too. -/
def close (c : Channel) : Channel :=
  ⟨if c.opened.isEmpty then c.lines else c.lines ++ [c.opened], [], true⟩

/-- Waits for the answer to `id`: what it comes to, and the channel after it. -/
def await (c : Channel) (id : Nat) : Awaited × Channel :=
  let (a, lines) := Bridge.await id c.lines
  (a, { c with lines })

/-- The channel after a wait was given up: the start of a line that was read is lost. -/
def giveUp (c : Channel) : Channel := { c with opened := [] }

/-- The channel after `n` bytes of the next line were read and lost; none if the line has ended and
is not longer, or if fewer bytes of it have come. -/
def lose? (c : Channel) (n : Nat) : Option Channel :=
  match c.lines with
  | line :: rest => if n < line.length then some { c with lines := line.drop n :: rest } else none
  | [] => if n ≤ c.opened.length then some { c with opened := c.opened.drop n } else none

end Channel

end ChatRelay.Bridge
