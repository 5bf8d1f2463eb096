import ChatRelay.Proofs.Session.Tables
import ChatRelay.Startup.Launch

/-! # Databases on the host of a start that fails

What there is on a host stays there when a directory is made (`makeWay_extends`), and opening a
database changes the entry at its own path only (`entry?_openDatabase`). A start that fails before
the database is open has done no more than that, so every database on the host is as it was.

The address is the last thing that a start asks for. If another relay listens on it the database is
open by then, and its turns have been closed: also those that the other relay is running
(`failed_launch_keeps_sessions_iff`). -/

namespace ChatRelay

open Config Session

/-! ### What there is on a host -/

namespace Config.Host

/-- What there is on `h` there is on `h'` too, and relative paths lead to the same places. -/
structure Extends (h h' : Host) : Prop where
  directory : h'.directory = h.directory
  entry : ∀ {q e}, h.entry? q = some e → Host.entry? h' q = some e

theorem Extends.refl (h : Host) : h.Extends h := ⟨rfl, id⟩

theorem Extends.trans {h h' h'' : Host} (a : h.Extends h') (b : h'.Extends h'') : h.Extends h'' :=
  ⟨b.directory.trans a.directory, fun he => b.entry (a.entry he)⟩

theorem Extends.absolute {h h' : Host} (e : h.Extends h')
    (q : String) : h'.absolute q = h.absolute q := by
  unfold Host.absolute
  rw [e.directory]

theorem entry?_congr {h : Host} {p q : String} (hpq : h.absolute q = h.absolute p) :
    h.entry? q = h.entry? p := by
  unfold entry?
  rw [hpq]

theorem lookup_filter_ne {β : Type} {p q : String} (hpq : q ≠ p) : ∀ l : List (String × β),
    (l.filter (·.1 != p)).lookup q = l.lookup q
  | [] => rfl
  | (k, b) :: l => by
    have ih := lookup_filter_ne hpq l
    by_cases hk : k = p
    · subst hk
      have hq : (q == k) = false := beq_false_of_ne hpq
      simp [ih, List.lookup_cons, hq]
    · simp [hk, ih, List.lookup_cons]

theorem entry?_put_self {h : Host} {p q : String} (e : Entry) (hpq : h.absolute q = h.absolute p)
    (root : h.absolute p ≠ "/") : Host.entry? (h.put p e) q = some e := by
  have hq : (h.put p e).absolute q = h.absolute p := hpq
  unfold entry?
  rw [hq, if_neg root]
  simp [put]

theorem entry?_put_ne {h : Host} {p q : String} (e : Entry) (hpq : h.absolute q ≠ h.absolute p) :
    Host.entry? (h.put p e) q = h.entry? q := by
  have hq : (h.put p e).absolute q = h.absolute q := rfl
  have hk : (h.absolute q == h.absolute p) = false := beq_false_of_ne hpq
  unfold entry?
  rw [hq]
  simp only [put, List.lookup_cons, hk, lookup_filter_ne hpq]

/-- Something new takes the place of nothing. -/
theorem put_extends {h : Host} {p : String} (e : Entry) (new : h.entry? p = none) :
    h.Extends (h.put p e) where
  directory := rfl
  entry := by
    intro q e' he
    have hpq : h.absolute q ≠ h.absolute p := by
      intro hpq
      rw [entry?_congr hpq, new] at he
      cases he
    rw [entry?_put_ne e hpq]
    exact he

theorem makeWay_extends {rest done : List (List Char)} {h h' : Host}
    (made : makeWay done rest h = some h') : h.Extends h' := by
  induction rest generalizing done h with
  | nil =>
    cases made
    exact .refl _
  | cons name rest ih =>
    unfold makeWay at made
    dsimp only at made
    cases he : h.entry? (pathOfNames (done ++ [name])) with
    | none =>
      rw [he] at made
      exact (put_extends .directory he).trans (ih made)
    | some e =>
      rw [he] at made
      cases e with
      | directory => exact ih made
      | text => cases made
      | database => cases made

end Config.Host

/-! ### Rows of closed turns -/

namespace Session

/-- The row with its turn closed. -/
def SessionRow.closed (r : SessionRow) : SessionRow :=
  { r with isProcessing := false, streamingMessage := "" }

theorem SessionRow.closed_eq_iff (r : SessionRow) :
    r.closed = r ↔ Database.SessionRow.isInterrupted r = false := by
  obtain ⟨id, model, prompt, tools, flag, text⟩ := r
  unfold closed Database.SessionRow.isInterrupted
  simp only [SessionRow.mk.injEq, true_and, Bool.or_eq_false_iff, Bool.not_eq_false',
    String.isEmpty_iff]
  constructor
  · rintro ⟨rfl, rfl⟩
    exact ⟨rfl, rfl⟩
  · rintro ⟨rfl, rfl⟩
    exact ⟨rfl, rfl⟩

/-- Closing the turns that were left open changes nothing exactly if there are none. -/
theorem row?_recover_eq_iff (db : Database) : (∀ id, db.recover.2.row? id = db.row? id) ↔
    ∀ id, ∀ r ∈ db.row? id, Database.SessionRow.isInterrupted r = false := by
  refine forall_congr' fun id => ?_
  rw [db.row?_recover id]
  cases db.row? id with
  | none => simp
  | some r =>
    simp only [Option.map_some, Option.some.injEq, Option.mem_def, forall_eq']
    exact r.closed_eq_iff

end Session

/-! ### Databases on the host of a start -/

namespace Startup

/-- The start fails because others listen on its address. -/
def Failure.isListen : Failure → Bool
  | listen _ => true
  | _ => false

/-- The file that a path leads to holds the start's own database, which is open when the start
fails. -/
def OpenedBefore (h : Host) (f : Failure) (q : String) : Prop :=
  f.isListen = true ∧ ∃ s file, h.settings = .ok (s, file) ∧ h.databasePath s ≠ memoryPath ∧
    h.absolute q = h.absolute (h.databasePath s)

theorem makeHome_extends {h h' : Host} {path : String} (made : makeHome h path = .ok h') :
    h.Extends h' := by
  unfold makeHome at made
  split at made
  · cases made
    exact .refl h
  · split at made
    · rename_i hm
      cases made
      exact Host.makeWay_extends hm
    · cases made

theorem makeHome_error {h : Host} {path : String} {f : Failure}
    (failed : makeHome h path = .error f) : f.isListen = false := by
  unfold makeHome at failed
  split at failed
  · cases failed
  · split at failed
    · cases failed
    · cases failed
      rfl

theorem openDatabase_error {h : Host} {path : String} {d : Defaults} {f : Failure}
    (failed : openDatabase h path d = .error f) : f.isListen = false := by
  unfold openDatabase at failed
  dsimp only at failed
  split at failed
  · cases failed
  · split at failed
    · cases failed
    · cases failed
    · cases failed
    · cases failed
      rfl

/-- Opening a database closes the turns of that database, and touches no other. -/
theorem entry?_openDatabase {h h' : Host} {path : String} {d : Defaults} {store : Store}
    (opened : openDatabase h path d = .ok (store, h')) {q : String} {db : Database}
    (found : h.entry? q = some (.database db)) :
    (path ≠ memoryPath ∧ h.absolute q = h.absolute path →
      Host.entry? h' q = some (.database db.recover.2)) ∧
    (¬ (path ≠ memoryPath ∧ h.absolute q = h.absolute path) →
      Host.entry? h' q = some (.database db)) := by
  unfold openDatabase at opened
  by_cases memory : path = memoryPath
  · simp only [memory, if_true, Except.ok.injEq, Prod.mk.injEq] at opened
    obtain ⟨-, rfl⟩ := opened
    simp [memory, found]
  · simp only [memory, if_false] at opened
    -- the two paths may be written differently: what counts is where they lead
    by_cases hq : h.absolute q = h.absolute path
    · have hp : h.entry? path = some (.database db) := (Host.entry?_congr hq).symm.trans found
      have root : h.absolute path ≠ "/" := by
        intro root
        unfold Host.entry? at hp
        rw [if_pos root] at hp
        cases hp
      rw [hp] at opened
      cases opened
      refine ⟨fun _ => Host.entry?_put_self _ hq root, fun no => absurd ⟨memory, hq⟩ no⟩
    · refine ⟨fun yes => absurd yes.2 hq, fun _ => ?_⟩
      split at opened
      · cases opened
        rw [Host.entry?_put_ne _ hq, found]
      · cases opened
        rw [Host.entry?_put_ne _ hq, found]
      · cases opened
        rw [Host.entry?_put_ne _ hq, found]
      · cases opened

theorem listen_error {h : Host} {a : Web.SocketAddress} {f : Failure}
    (failed : listen h a = .error f) : f = .listen a := by
  unfold listen at failed
  split at failed
  · cases failed
    rfl
  · cases failed

/-- What a start has done when it fails: it has made directories at most, unless it fails at its
address. -/
theorem launch_failed {h h' : Host} {f : Failure} (failed : launch h = (.error f, h')) :
    (f.isListen = false ∧ h.Extends h') ∨
      ∃ s file home store, f.isListen = true ∧ h.settings = .ok (s, file) ∧ h.Extends home ∧
        openDatabase home (h.databasePath s) s.sessionDefaults = .ok (store, h') := by
  unfold launch at failed
  split at failed
  · cases failed
    exact .inl ⟨rfl, .refl h⟩
  · rename_i s file settings
    split at failed
    · cases failed
      exact .inl ⟨rfl, .refl h⟩
    · dsimp only at failed
      split at failed
      · rename_i hm
        cases failed
        exact .inl ⟨makeHome_error hm, .refl h⟩
      · rename_i home hm
        have extends' : h.Extends home := makeHome_extends hm
        split at failed
        · rename_i ho
          cases failed
          exact .inl ⟨openDatabase_error ho, extends'⟩
        · rename_i store opened ho
          split at failed
          · rename_i hl
            cases failed
            refine .inr ⟨s, file, home, store, ?_, settings, extends', ho⟩
            rw [listen_error hl]
            rfl
          · cases failed

/-- Of the databases on a host, a start that fails has recovered the one that it opened, and left
the others as they were. -/
theorem entry?_failed_launch {h h' : Host} {f : Failure} (failed : launch h = (.error f, h'))
    {q : String} {db : Database} (found : h.entry? q = some (.database db)) :
    (OpenedBefore h f q → Host.entry? h' q = some (.database db.recover.2)) ∧
      (¬ OpenedBefore h f q → Host.entry? h' q = some (.database db)) := by
  -- directories made before the failure change nothing about where paths lead
  rcases launch_failed failed with ⟨early, kept⟩ |
    ⟨s, file, home, store, late, settings, kept, opened⟩
  · refine ⟨fun yes => ?_, fun _ => kept.entry found⟩
    rw [yes.1] at early
    cases early
  · have atHome := entry?_openDatabase opened (kept.entry found)
    rw [kept.absolute, kept.absolute] at atHome
    constructor
    · rintro ⟨-, s', file', settings', own⟩
      rw [settings] at settings'
      cases settings'
      exact atHome.1 own
    · intro no
      exact atHome.2 fun own => no ⟨late, s, file, settings, own⟩

/-- A start that fails leaves all messages of all sessions in place. The rows of sessions stay as
they are too, but for the database that the start had opened before others turned out to listen on
its address: in that one it has closed all turns. So sessions are as they were exactly if no turn
was open there. -/
theorem failed_launch_keeps_sessions_iff {h h' : Host} {f : Failure}
    (failed : launch h = (.error f, h')) {q : String} {db : Database}
    (found : h.entry? q = some (.database db)) :
    ∃ db', Host.entry? h' q = some (.database db') ∧
      (∀ id, db'.rowsOf id = db.rowsOf id) ∧
      (¬ OpenedBefore h f q → db' = db) ∧
      (OpenedBefore h f q → ∀ id, db'.row? id = (db.row? id).map SessionRow.closed) ∧
      ((∀ id, db'.row? id = db.row? id) ↔ (OpenedBefore h f q →
        ∀ id, ∀ r ∈ db.row? id, Database.SessionRow.isInterrupted r = false)) := by
  have after := entry?_failed_launch failed found
  by_cases own : OpenedBefore h f q
  · refine ⟨db.recover.2, after.1 own, fun _ => rfl, fun no => absurd own no, fun _ =>
      db.row?_recover, ?_⟩
    rw [row?_recover_eq_iff]
    exact ⟨fun none _ => none, fun none => none own⟩
  · refine ⟨db, after.2 own, fun _ => rfl, fun _ => rfl, fun yes => absurd yes own, ?_⟩
    exact ⟨fun _ yes => absurd yes own, fun _ _ => rfl⟩

/-! ### Two relays on one host -/

/-- Why a start fails, if it does. -/
def failure? (h : Host) : Option Failure :=
  match (launch h).1 with
  | .error f => some f
  | .ok _ => none

theorem launch_of_failure? {h : Host} {f : Failure} (failed : failure? h = some f) :
    launch h = (.error f, (launch h).2) := by
  unfold failure? at failed
  cases hl : (launch h).1 with
  | error g =>
    rw [hl] at failed
    cases failed
    rw [← hl]
  | ok l =>
    rw [hl] at failed
    cases failed

/-- The database that a path leads to. -/
def databaseAt? (h : Host) (q : String) : Option Database :=
  match h.entry? q with
  | some (.database db) => some db
  | _ => none

theorem entry?_of_databaseAt? {h : Host} {q : String} {db : Database}
    (found : databaseAt? h q = some db) : h.entry? q = some (.database db) := by
  unfold databaseAt? at found
  split at found
  · rename_i he
    cases found
    exact he
  · cases found

/-- A host where nothing is set. -/
def bareHost : Host where
  environment := ⟨[], none⟩
  directory := "/work"
  settingsDirectory? := none
  dataDirectory? := none
  entries := []
  taken := []

/-- Where a relay without settings keeps its database. -/
def usualDatabase : String := "agent-relay/sessions.db"

/-- The store of a first relay on that host, in the middle of a streamed turn. -/
def turnStore (l : Launched) : Store :=
  ((l.store.appendUserMessage ⟨"m", 1⟩ "s" "hi").2.appendStreamChunk "s" "Hel").2

/-- The host while the first relay runs that turn. -/
def sharedHost : Host :=
  match launch bareHost with
  | (.ok l, h) => h.put usualDatabase (.database (turnStore l).database)
  | (.error _, h) => h

/-- The database of the first relay then. -/
def turnDatabase : Database := (databaseAt? sharedHost usualDatabase).getD .empty

/-- The host with an address for a second relay that cannot be read. -/
def misboundHost : Host :=
  { sharedHost with environment := ⟨[("AGENT_RELAY_BIND", Text.encode "nowhere")], none⟩ }

/-- The second relay does not get as far as the database. -/
theorem misbound_launch_keeps_sessions : ∃ db,
    Host.entry? (launch misboundHost).2 usualDatabase = some (.database db) ∧
      (db.row? "s").map (·.streamingMessage) = some "Hel" ∧
      ∀ id, db.row? id = turnDatabase.row? id := by
  have failed : failure? misboundHost = some (.invalidAddress "nowhere") := by decide +kernel
  have found : databaseAt? misboundHost usualDatabase = some turnDatabase := by decide +kernel
  obtain ⟨db, there, -, same, -⟩ :=
    failed_launch_keeps_sessions_iff (launch_of_failure? failed) (entry?_of_databaseAt? found)
  have early : ¬ OpenedBefore misboundHost (.invalidAddress "nowhere") usualDatabase :=
    fun opened => Bool.noConfusion opened.1
  obtain rfl := same early
  exact ⟨_, there, by decide +kernel, fun _ => rfl⟩

/-- With the settings of the first relay, the second one closes the turn that the first one runs,
and then finds its address taken. -/
theorem second_launch_closes_running_turn :
    failure? sharedHost = some (.listen (.short [127, 0, 0, 1] 8787)) ∧
      ((turnDatabase.row? "s").map fun r => (r.isProcessing, r.streamingMessage)) =
        some (true, "Hel") ∧
      (((databaseAt? (launch sharedHost).2 usualDatabase).bind (·.row? "s")).map fun r =>
        (r.isProcessing, r.streamingMessage)) = some (false, "") := by
  decide +kernel

end Startup

end ChatRelay
