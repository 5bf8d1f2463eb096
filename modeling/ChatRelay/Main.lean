import ChatRelay.Service.Respond
import ChatRelay.Startup.Relay
import Std.Time.DateTime.Timestamp

/-! # The command

The relay reads its environment and its settings file, starts, and answers the requests that come
line by line on the standard input. A line holds the method, the target and, if there is one, the
payload of a request; the answer is a line with the status and the body. No web server is within
reach of the command, and it runs no bridge servers. -/

namespace ChatRelay.Command

open Config Service

/-- The parts of a block that end in a zero byte each. -/
def partsOf (block : List UInt8) : List (List UInt8) :=
  block.foldr (fun b parts =>
    if b = 0 then [] :: parts
    else match parts with
      | part :: parts => (b :: part) :: parts
      | [] => [[b]]) []

/-- The variable that a part of the block sets: an equals sign ends its name. -/
def variableOf? (part : List UInt8) : Option (String × List UInt8) :=
  let name := part.takeWhile (· != 0x3D)
  if name.length = part.length then none
  else (Text.strict? name).map fun n => (n, part.drop (name.length + 1))

/-- The lines of a file, each cut at a character. -/
def readRows (path : String) (sep : Char) : IO (List (List String)) := do
  try
    let lines := Text.linesChars (← IO.FS.readFile path).toList
    return lines.map fun line => (Text.splitChars sep line).map String.ofList
  catch _ => return []

/-- The home directory in the account of the user that the command runs for. -/
def accountHome? : IO (Option String) := do
  let status ← readRows "/proc/self/status" '\t'
  let accounts ← readRows "/etc/passwd" ':'
  return do
    let user ← (← status.find? (·.head? == some "Uid:"))[1]?
    (← accounts.find? (·[2]? == some user))[5]?

/-- The environment of the command. -/
def readEnvironment : IO Environment := do
  let block ← IO.FS.readBinFile "/proc/self/environ"
  let values := (partsOf block.toList).filterMap variableOf?
  match (values.lookup "HOME").filter fun path => !path.isEmpty with
  | some path => return ⟨values, some (Text.lossy path)⟩
  | none => return ⟨values, ← accountHome?⟩

/-- A directory of the user: the variable's value if it is a path from the root, else below the home
directory. -/
def userDirectory? (env : Environment) (variableName belowHome : String) : Option String :=
  match (env.get? variableName).filter fun v => v.startsWith "/" with
  | some path => some path
  | none => env.home?.map (join · belowHome)

/-- The entry at a path, if it can be read. -/
def readEntry (path : String) : IO (Option Entry) := do
  try
    return some (.text (← IO.FS.readFile path))
  catch _ => return none

/-- The host with the files that settings may come from. -/
def readHost : IO Host := do
  let environment ← readEnvironment
  let bare : Host :=
    { environment
      directory := (← IO.currentDir).toString
      settingsDirectory? := userDirectory? environment "XDG_CONFIG_HOME" ".config"
      dataDirectory? := userDirectory? environment "XDG_DATA_HOME" ".local/share"
      entries := []
      taken := [] }
  let mut host := bare
  for path in bare.namedSettings?.toList ++ bare.usualSettings do
    match ← readEntry path with
    | some e => host := host.put path e
    | none => pure ()
  return host

/-- The first word of a line, and what follows it. -/
def cutWord (line : List Char) : String × List Char :=
  let line := Text.trimStartChars line
  let isLetter (c : Char) : Bool := !Text.isBlank c
  (String.ofList (line.takeWhile isLetter), line.dropWhile isLetter)

/-- The request on a line. -/
def requestOf (line : String) : Request :=
  let (method, rest) := cutWord line.toList
  let (target, rest) := cutWord rest
  { method, target, contentType := some "application/json"
    payload := Text.encode (Text.trim (String.ofList rest)) }

/-- Answers line after line. -/
partial def serve (handler : Turn.Handler Unit) (agents : Session.Agents Unit) : IO Unit := do
  let line ← (← IO.getStdin).getLine
  if line.isEmpty then return
  let r := requestOf line
  let (a, agents) := (respond handler r).run agents
  IO.println s!"{a.status} {sentBody r a}"
  (← IO.getStdout).flush
  serve handler agents

end ChatRelay.Command

open ChatRelay in
/-- Starts the relay and answers requests until the input ends. -/
def main : IO UInt32 := do
  match (Startup.launch (← Command.readHost)).1 with
  | .error f =>
    IO.eprintln f.report
    return 1
  | .ok l =>
    let seed ← IO.rand 0 (Nat.pow 2 128 - 1)
    let now ← Std.Time.Timestamp.now
    let agents := l.agents ⟨(), ⟨seed, 0⟩⟩ now.toMillisecondsSinceUnixEpoch.val
    Command.serve (l.handler Web.unreachable .none) agents
    return 0
