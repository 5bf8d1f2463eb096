import ChatRelay.Proofs.Session.Commits
import Mathlib.Data.Set.Card

/-! # What a crash leaves, and what the next process makes of it

A process can die after any of its commits: between the user's message and the reply, in the middle
of a streamed text, between the creation of a session and the change that it was created for. The
next process finds the sessions as the last commit left them and closes what was left open
(`reopened_after_crash`): the flags are lowered and the streamed texts emptied, and nothing else
changes. It reports how many sessions that were. That the number of rows is the number of sessions
is kept by every commit (`OneRowEach.on`). -/

namespace ChatRelay.Session

/-! ### Rows at rest -/

/-- The row without an open turn. -/
def SessionRow.atRest (r : SessionRow) : SessionRow :=
  { r with isProcessing := false, streamingMessage := "" }

/-- The state without an open turn. -/
def SessionState.atRest (s : SessionState) : SessionState :=
  { s with isProcessing := false, streamingMessage := "" }

namespace Database

/-! ### One row for each session -/

/-- No two rows are of the same session. -/
def OneRowEach (db : Database) : Prop := (db.sessions.map (·.id)).Nodup

theorem oneRowEach_empty : empty.OneRowEach := List.nodup_nil

namespace OneRowEach

variable {db : Database}

theorem row?_eq_some_iff (h : db.OneRowEach) {id : String} {r : SessionRow} :
    db.row? id = some r ↔ r ∈ db.sessions ∧ r.id = id := by
  constructor
  · intro hr
    exact ⟨List.mem_of_find?_eq_some hr, row?_id hr⟩
  · rintro ⟨hmem, rfl⟩
    have hsome : (db.row? r.id).isSome = true := List.find?_isSome.mpr ⟨r, hmem, by simp⟩
    obtain ⟨q, hq⟩ := Option.isSome_iff_exists.mp hsome
    rw [hq, List.inj_on_of_nodup_map h (List.mem_of_find?_eq_some hq) hmem (row?_id hq)]

/-- A session is created only if it has no row. -/
theorem ensure (h : db.OneRowEach) (id : String) (d : Defaults) : (db.ensure id d).OneRowEach := by
  unfold Database.ensure
  cases hr : db.row? id with
  | some r => exact h
  | none =>
    have hnew : id ∉ db.sessions.map (·.id) := by
      intro hid
      obtain ⟨r, hmem, rfl⟩ := List.mem_map.mp hid
      exact absurd (List.find?_eq_none.mp hr r hmem) (by simp)
    unfold OneRowEach
    rw [List.map_append, List.nodup_append]
    refine ⟨h, List.nodup_singleton _, ?_⟩
    intro a ha b hb hab
    rw [List.map_singleton, List.mem_singleton] at hb
    subst hab hb
    exact hnew ha

/-- Rows that keep their ids stay different. -/
theorem map (h : db.OneRowEach) {f : SessionRow → SessionRow} (hf : ∀ r, (f r).id = r.id)
    {db' : Database} (hdb : db'.sessions = db.sessions.map f) : db'.OneRowEach := by
  have hids : (fun r : SessionRow => r.id) ∘ f = fun r => r.id := funext hf
  unfold OneRowEach
  rw [hdb, List.map_map, hids]
  exact h

theorem recover (h : db.OneRowEach) : db.recover.2.OneRowEach :=
  h.map (f := SessionRow.atRest) (fun _ => rfl) rfl

/-- **One commit.** -/
theorem on (h : db.OneRowEach) {op : Operation} {db' : Database} (hop : op.on db = .ok db') :
    db'.OneRowEach := by
  obtain ⟨id, d, rfl, rfl⟩ | ⟨f, hrows, hwrites⟩ := Operation.sessions_on hop
  · exact h.ensure id d
  · exact h.map (fun r => (hwrites r).id) hrows

/-- **Any number of commits.** -/
theorem committed {ops : List Operation} (h : db.OneRowEach) : (db.committed ops).OneRowEach :=
  committed_keeps (fun _ _ _ _ h hop => h.on hop) h

theorem isInterrupted_iff (r : Session.SessionRow) :
    SessionRow.isInterrupted r = true ↔ r.isProcessing = true ∨ r.streamingMessage ≠ "" := by
  simp [SessionRow.isInterrupted]

/-- The rows that were left open are as many as their sessions. -/
theorem recover_count (h : db.OneRowEach) : db.recover.1 =
    {id | ∃ r, db.row? id = some r ∧ (r.isProcessing = true ∨ r.streamingMessage ≠ "")}.ncard := by
  have hids : {id | ∃ r, db.row? id = some r ∧ (r.isProcessing = true ∨ r.streamingMessage ≠ "")} =
      (((db.sessions.filter SessionRow.isInterrupted).map (·.id)).toFinset : Set String) := by
    ext id
    simp only [Set.mem_ofPred_eq, h.row?_eq_some_iff, List.coe_toFinset, List.mem_map,
      List.mem_filter, isInterrupted_iff]
    exact ⟨fun ⟨r, ⟨hmem, hid⟩, hopen⟩ => ⟨r, ⟨hmem, hopen⟩, hid⟩,
      fun ⟨r, ⟨hmem, hopen⟩, hid⟩ => ⟨r, ⟨hmem, hid⟩, hopen⟩⟩
  have hnodup : ((db.sessions.filter SessionRow.isInterrupted).map (·.id)).Nodup :=
    (List.filter_sublist.map _).nodup h
  rw [hids, Set.ncard_coe_finset, List.toFinset_card_of_nodup hnodup, List.length_map,
    ← List.countP_eq_length_filter]
  rfl

end OneRowEach

/-! ### Closing what was left open -/

theorem load_recover (db : Database) (id : String) :
    db.recover.2.load id = (db.load id).map (Option.map SessionState.atRest) := by
  have hmessages : db.recover.2.messagesOf id = db.messagesOf id := rfl
  unfold load
  rw [row?_recover, hmessages]
  cases db.row? id with
  | none => rfl
  | some r => cases db.messagesOf id <;> rfl

/-- What is closed stays closed. -/
theorem recover_recover (db : Database) : db.recover.2.recover = (0, db.recover.2) := by
  have hcount : db.recover.2.recover.1 = 0 := by
    unfold recover
    rw [List.countP_map]
    exact List.countP_eq_zero.mpr fun r _ => by simp [SessionRow.isInterrupted]
  have hrows : db.recover.2.recover.2 = db.recover.2 := by
    unfold recover
    simp only [List.map_map]
    rfl
  exact Prod.ext hcount hrows

end Database

/-! ### Processes -/

/-- A process on a file: its settings, what it does, and after how many commits it dies. -/
structure Process where
  defaults : Defaults
  capacity : Nat
  acts : List Act
  lifetime : Nat

namespace Process

/-- The process has opened the file. -/
def start (p : Process) (db : Database) : Delivery := .start (.openOn db p.defaults) p.capacity

/-- What the process commits if it does not die. -/
def commits (p : Process) (db : Database) : List Operation := (p.start db).commits p.acts

/-- What is on the file when the process has died. -/
def leaves (db : Database) (p : Process) : Database :=
  (Store.openOn db p.defaults).database.committed ((p.commits db).take p.lifetime)

/-- A process that lives long enough leaves the database of its run. -/
theorem leaves_of_long_life {p : Process} {db : Database} {d : Delivery}
    (h : (p.start db).afterActs p.acts = some d) (hlife : (p.commits db).length ≤ p.lifetime) :
    p.leaves db = d.scene.store.database := by
  unfold leaves
  rw [List.take_of_length_le hlife, Delivery.database_of_acts h]
  rfl

end Process

/-- The file after processes that died one after another; the first of them has found none. -/
def leftBy (ps : List Process) : Database := ps.foldl (fun db p => p.leaves db) .empty

theorem oneRowEach_leftBy (ps : List Process) : (leftBy ps).OneRowEach := by
  induction ps using List.reverseRecOn with
  | nil => exact Database.oneRowEach_empty
  | append_singleton ps p ih =>
    have hleft : leftBy (ps ++ [p]) = p.leaves (leftBy ps) := by simp [leftBy]
    rw [hleft]
    exact ih.recover.committed

/-- **The file is opened again after a crash.** Processes have used it one after another, each for
any operations of the store and any moves of its requests, and each has died after some of its
commits. Every session loads as it would have at that moment, or fails to load as it would have, but
for the flag and the streamed text, which are empty; neither its messages nor its settings have
changed. The number reported is that of the sessions whose flag was up or whose text was not empty.
Opening once more, with whatever settings, changes nothing and reports none. What a process leaves
that does not die is the database that its run ends with. -/
theorem reopened_after_crash (ps : List Process) (d : Defaults) :
    let db := leftBy ps
    let s := Store.openOn db d
    (∀ id, s.database.load id = (db.load id).map (Option.map SessionState.atRest)) ∧
    (∀ id, s.database.row? id = (db.row? id).map SessionRow.atRest) ∧
    s.database.messages = db.messages ∧
    db.recover.1 =
      {id | ∃ r, db.row? id = some r ∧ (r.isProcessing = true ∨ r.streamingMessage ≠ "")}.ncard ∧
    s.database.recover.1 = 0 ∧ (∀ d', (Store.openOn s.database d').database = s.database) ∧
    ∀ (p : Process) (final : Delivery), (p.start db).afterActs p.acts = some final →
      (p.commits db).length ≤ p.lifetime → p.leaves db = final.scene.store.database := by
  intro db s
  obtain ⟨hnone, hsame⟩ := Prod.ext_iff.mp db.recover_recover
  exact ⟨db.load_recover, db.row?_recover, rfl, (oneRowEach_leftBy ps).recover_count, hnone,
    fun _ => hsame, fun p final hrun hlife => Process.leaves_of_long_life hrun hlife⟩

/-- A process that dies after the first chunk of a streamed turn. Another session has got its model
before. -/
def diesMidStream : Process where
  defaults := ⟨"m", "p", ["t"]⟩
  capacity := 1
  acts := [.call (.setModel "other" " n "), .move (.move (.arrive "s" " hi " none true)),
    .move (.move (.prepare 0)), .move (.move (.lock 0)), .move (.move (.openTurn 0 ⟨"1", 7⟩)),
      .move (.move (.startText 0)),
    .move (.store 0 "Hel"), .move (.send 0), .move (.store 0 "lo"), .move (.send 0),
    .move (.move (.complete 0 ⟨"2", 8⟩ ⟨"Hello", none⟩))]
  lifetime := 9

/-- The next process: the same question again, and its answer. -/
def asksAgain : Process where
  defaults := ⟨"o", "p", []⟩
  capacity := 1
  acts := [.move (.move (.arrive "s" "hi" none false)), .move (.move (.prepare 0)),
    .move (.move (.lock 0)), .move (.move (.openTurn 0 ⟨"2", 8⟩)),
      .move (.move (.complete 0 ⟨"3", 9⟩ ⟨"Hello", none⟩))]
  lifetime := 5

theorem reopened_after_crash_midStream :
    let db := leftBy [diesMidStream]
    let s := Store.openOn db asksAgain.defaults
    db.load "s" = .ok (some ⟨"s", [⟨"1", .user, "hi", 7, none⟩], true, "Hel", "m", "p", ["t"]⟩) ∧
      s.database.load "s" = .ok (some
        ⟨"s", [⟨"1", .user, "hi", 7, none⟩], false, "", "m", "p", ["t"]⟩) ∧
      s.database.load "other" = .ok (some ⟨"other", [], false, "", "n", "p", ["t"]⟩) ∧
      db.recover.1 = 1 ∧ s.database.recover.1 = 0 ∧
      ∃ final, (asksAgain.start db).afterActs asksAgain.acts = some final ∧
        (asksAgain.commits db).length ≤ asksAgain.lifetime ∧
        asksAgain.leaves db = final.scene.store.database := by
  intro db s
  obtain ⟨hload, -, -, -, hagain, -, hlong⟩ :=
    reopened_after_crash [diesMidStream] asksAgain.defaults
  have hs : db.load "s" =
      .ok (some ⟨"s", [⟨"1", .user, "hi", 7, none⟩], true, "Hel", "m", "p", ["t"]⟩) := by rfl
  have hother : db.load "other" = .ok (some ⟨"other", [], false, "", "n", "p", ["t"]⟩) := by rfl
  obtain ⟨final, hrun⟩ : ∃ final, (asksAgain.start db).afterActs asksAgain.acts = some final :=
    Option.isSome_iff_exists.mp (by decide +kernel)
  have hlength : (asksAgain.commits db).length ≤ asksAgain.lifetime := by decide +kernel
  refine ⟨hs, ?_, ?_, by decide +kernel, hagain, final, hrun, hlength,
    hlong asksAgain final hrun hlength⟩
  · exact (hload "s").trans (congrArg (Except.map (Option.map SessionState.atRest)) hs)
  · exact (hload "other").trans (congrArg (Except.map (Option.map SessionState.atRest)) hother)

end ChatRelay.Session
