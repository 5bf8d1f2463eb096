import ChatRelay.Config.Settings
import ChatRelay.Session.Database

/-! # The host of the relay

What the relay finds where it is started: variables, the working directory and the directories of
the user, files, and addresses that others listen on. From these follow the file that its settings
come from, the settings, and the place of its database. -/

namespace ChatRelay.Config

/-! ### Paths -/

/-- A path below a directory. -/
def join (directory name : String) : String :=
  if directory.isEmpty then name
  else if directory.endsWith "/" then directory ++ name
  else directory ++ "/" ++ name

/-- One step along a path: a name leads down, two dots lead up. The steps so far are in reverse. -/
def pathStep (steps : List (List Char)) (name : List Char) : List (List Char) :=
  if name.isEmpty || name == ['.'] then steps
  else if name == ['.', '.'] then steps.drop 1
  else name :: steps

/-- The names on the way that a path leads, from the root. -/
def namesOf (path : String) : List (List Char) :=
  ((Text.splitChars '/' path.toList).foldl pathStep []).reverse

/-- The path that leads along names. -/
def pathOfNames (names : List (List Char)) : String :=
  "/" ++ "/".intercalate (names.map String.ofList)

/-- A path without slashes at its end. -/
def dropSlashes (path : List Char) : List Char := Text.dropEndChars (· == '/') path

/-- The path of the directory that a path lies in; empty for a name alone, none for the root. -/
def parent? (path : String) : Option String :=
  let cs := dropSlashes path.toList
  if cs.isEmpty then none
  else
    let directory := (cs.reverse.dropWhile (· != '/')).reverse
    let short := dropSlashes directory
    some (String.ofList (if short.isEmpty then directory.take 1 else short))

/-! ### Hosts -/

/-- What a path leads to. -/
inductive Entry
  | directory
  | text (content : String)
  /-- A database of the relay. -/
  | database (db : Session.Database)
  deriving Repr, Inhabited

/-- The host. -/
structure Host where
  environment : Environment
  /-- The working directory. -/
  directory : String
  /-- The directory that the user keeps settings of programs in, and the one for their data, as the
  system gives them. -/
  settingsDirectory? : Option String
  dataDirectory? : Option String
  /-- What there is, by its path from the root. -/
  entries : List (String × Entry)
  /-- The addresses that are listened on. -/
  taken : List Web.SocketAddress
  deriving Inhabited

namespace Host

/-- A path from the root. -/
def absolute (h : Host) (path : String) : String :=
  pathOfNames (namesOf (if path.startsWith "/" then path else join h.directory path))

/-- What a path leads to. The root is always there. -/
def entry? (h : Host) (path : String) : Option Entry :=
  let path := h.absolute path
  if path = "/" then some .directory else h.entries.lookup path

/-- The path leads to a file. -/
def isFile (h : Host) (path : String) : Bool :=
  match h.entry? path with
  | some .directory => false
  | some _ => true
  | none => false

/-- Puts something where a path leads. -/
def put (h : Host) (path : String) (e : Entry) : Host :=
  let path := h.absolute path
  { h with entries := (path, e) :: h.entries.filter (·.1 != path) }

/-- The directories on the way that names lead, without the last: `done` is the way so far. -/
def makeWay (done : List (List Char)) : List (List Char) → Host → Option Host
  | [], h => some h
  | name :: rest, h =>
    let done := done ++ [name]
    match h.entry? (pathOfNames done) with
    | some .directory => makeWay done rest h
    | some _ => none
    | none => makeWay done rest (h.put (pathOfNames done) .directory)

/-- Makes a directory and all directories above it. -/
def makeDirectory? (h : Host) (path : String) : Option Host :=
  makeWay [] (namesOf (h.absolute path)) h

/-! ### Settings -/

/-- The directory of the relay below a directory of the user. -/
def applicationName : String := "agent-relay"

/-- The file that the environment names for the settings. -/
def namedSettings? (h : Host) : Option String :=
  (h.environment.getFilled? "AGENT_RELAY_CONFIG").map fun path =>
    h.environment.expandTilde (Text.trim path)

/-- Where settings lie if no file is named: in the working directory, or in the user's directory of
settings. -/
def usualSettings (h : Host) : List String :=
  "agent-relay.yaml" :: (h.settingsDirectory?.map fun d =>
    join (join d applicationName) "config.yaml").toList

/-- The file that settings come from: the one that is named, or the first that there is in the usual
places. -/
def settingsPath? (h : Host) : Option String :=
  h.namedSettings?.orElse fun _ => h.usualSettings.find? h.isFile

/-- Why there are no settings. -/
inductive SettingsFailure
  | unreadable (path : String)
  | malformed (path : String) (fault : Yaml.Fault)
  deriving DecidableEq, Repr, Inhabited

/-- The text shown for a failure. -/
def SettingsFailure.message : SettingsFailure → String
  | unreadable path => s!"failed to read {path}: no readable file"
  | malformed path fault => s!"failed to parse {path}: {fault.message}"

/-- The settings, and the file that they come from. -/
def settings (h : Host) : Except SettingsFailure (Settings × Option String) :=
  match h.settingsPath? with
  | none => .ok (Settings.override h.environment {}, none)
  | some path =>
    match h.entry? path with
    | some (.text content) =>
      match Settings.ofText h.environment content with
      | .error f => .error (.malformed path f)
      | .ok s => .ok (s.override h.environment, some path)
    | _ => .error (.unreadable path)

/-- The path of the database. -/
def databasePath (h : Host) (s : Settings) : String :=
  match (s.databasePath.map Text.trim).filter fun p => !p.isEmpty with
  | some path => path
  | none => join (join (h.dataDirectory?.getD ".") applicationName) "sessions.db"

end Host

end ChatRelay.Config
