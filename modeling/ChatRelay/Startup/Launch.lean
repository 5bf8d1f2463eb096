import ChatRelay.Config.Host
import ChatRelay.Session.Store

/-! # Starting the relay

The relay starts in steps: it loads its settings, reads the address to listen on, makes the
directory of its database, opens the database, and listens. The first step that fails ends the
start; what earlier steps did stays done. A failure is shown as a chain of texts, the outermost
first. -/

namespace ChatRelay.Startup

open Config Session

/-- Why the relay does not start. -/
inductive Failure
  | settings (f : Host.SettingsFailure)
  | invalidAddress (written : String)
  | directory (path : String)
  | database (path : String)
  | listen (address : Web.SocketAddress)
  deriving DecidableEq, Repr, Inhabited

/-- The texts shown for a failure. -/
def Failure.chain : Failure → List String
  | settings f => ["failed to load configuration", f.message]
  | invalidAddress written =>
    [s!"invalid bind address '{written}': invalid socket address syntax"]
  | directory path => [s!"failed to create {path}", "not a directory"]
  | database path =>
    [s!"failed to open session database at {path}", "database error: unable to open database file"]
  | listen address =>
    [s!"failed to bind HTTP listener on {address.text}: address in use", "address in use"]

/-- The relay as it is started. -/
structure Launched where
  settings : Settings
  store : Store
  address : Web.SocketAddress
  deriving Inhabited

/-- The path that names no file: sessions are then kept only while the relay runs. -/
def memoryPath : String := ":memory:"

/-- Makes the directory of the database. -/
def makeHome (h : Host) (path : String) : Except Failure Host :=
  match (parent? path).filter fun p => !p.isEmpty with
  | none => .ok h
  | some directory =>
    match h.makeDirectory? directory with
    | some h => .ok h
    | none => .error (.directory directory)

/-- Opens the database at a path; the turns that it holds open are closed. -/
def openDatabase (h : Host) (path : String) (d : Defaults) : Except Failure (Store × Host) :=
  let opened (db : Database) : Except Failure (Store × Host) :=
    let store := Store.openOn db d
    .ok (store, if path = memoryPath then h else h.put path (.database store.database))
  if path = memoryPath then opened .empty
  else
    match h.entry? path with
    | none => opened .empty
    | some (.database db) => opened db
    | some (.text "") => opened .empty
    | some _ => .error (.database path)

/-- Listens on an address. -/
def listen (h : Host) (a : Web.SocketAddress) : Except Failure Host :=
  if h.taken.contains a then .error (.listen a) else .ok { h with taken := a :: h.taken }

/-- Starts the relay: what comes of it, and the host after that. -/
def launch (h : Host) : Except Failure Launched × Host :=
  match h.settings with
  | .error f => (.error (.settings f), h)
  | .ok (s, _) =>
    match s.address? with
    | none => (.error (.invalidAddress s.bind), h)
    | some a =>
      let path := h.databasePath s
      match makeHome h path with
      | .error f => (.error f, h)
      | .ok h =>
        match openDatabase h path s.sessionDefaults with
        | .error f => (.error f, h)
        | .ok (store, h) =>
          match listen h a with
          | .error f => (.error f, h)
          | .ok h => (.ok ⟨s, store, a⟩, h)

end ChatRelay.Startup
