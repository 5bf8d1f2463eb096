import ChatRelay.Turn.Handler

/-! # Scripted parties

A script stands for the parties outside of a turn: what the completion endpoint answers, call by
call, and what the bridge lists and its tools answer. It keeps the requests that it got. An endpoint
whose script has run out answers without text and calls. -/

namespace ChatRelay.Turn

open Completion Json Bridge

/-- What a scripted tool answers. -/
inductive ScriptedAnswer
  | ok (text : String)
  /-- The name of the tool and its arguments. -/
  | echo
  | error (f : Bridge.Failure)
  deriving DecidableEq, Repr, Inhabited

/-- The parties outside of a turn. -/
structure Script where
  tools : List ToolDefinition
  listError : Option Bridge.Failure
  answers : List (String × ScriptedAnswer)
  completions : List (Except Completion.Failure ReplyDraft)
  streams : List (Except Completion.Failure (List StreamItem))
  /-- The requests so far, in reverse. -/
  seen : List Request
  deriving Inhabited

namespace Script

/-- What the bridge lists. -/
def listing (s : Script) : Except Bridge.Failure (List ToolDefinition) :=
  match s.listError with
  | some f => .error f
  | none => .ok s.tools

/-- What a tool of the bridge answers. -/
def answer (s : Script) (name : String) (arguments : Object) : Except Bridge.Failure String :=
  match s.answers.lookup name with
  | some (.ok text) => .ok text
  | some .echo => .ok (name ++ ":" ++ (Value.obj arguments).text)
  | some (.error f) => .error f
  | none => .error (.unknownTool name)

/-- The scripted bridge. -/
def bridge : ToolBridge Script where
  list s := (s.listing, s)
  call name arguments s := (s.answer name arguments, s)

/-- The scripted endpoint. -/
def provider : Provider Script where
  complete r s :=
    let s := { s with seen := r :: s.seen }
    match s.completions with
    | [] => (.ok ⟨none, []⟩, s)
    | a :: rest => (a, { s with completions := rest })
  stream r s :=
    let s := { s with seen := r :: s.seen }
    match s.streams with
    | [] => (.ok [], s)
    | a :: rest => (a, { s with streams := rest })

end Script

end ChatRelay.Turn
