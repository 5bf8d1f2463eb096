import ChatRelay.Proofs.Session.CrashRecovery
import ChatRelay.Proofs.Session.RefusedInput
import ChatRelay.Startup.Launch

/-! # Settings in normal form

A session has a model and a list of enabled tools. Whoever sets them gets them in normal form: the
model trimmed and not blank, the tools trimmed, not blank and without repetitions, in the order of
their first occurrence (`normalNames_eq`). But a session starts with the settings that are
configured, and these are taken over as they are written. So the normal form is kept by every commit
(`NormalRows.on`), if it holds of the configured settings, and it is not reached by itself if it
does not (`snapshots_normal_iff`). -/

namespace ChatRelay.Session

open Text

/-! ### Names -/

/-- The trimmed names that are not blank, each where it occurs first. -/
def firstNames (names : List String) : List String :=
  ((names.map trim).filter fun n => !n.isEmpty).eraseDups

/-- Names that are pairwise distinct, trimmed and not blank. -/
structure NormalNames (names : List String) : Prop where
  distinct : names.Nodup
  filled : ∀ n ∈ names, isBlankText n = false
  trimmed : ∀ n ∈ names, trim n = n

theorem nodup_eraseDups (names : List String) : names.eraseDups.Nodup := by
  match names with
  | [] => exact List.nodup_nil
  | n :: names =>
    rw [List.eraseDups_cons, List.nodup_cons]
    refine ⟨fun hmem => ?_, nodup_eraseDups _⟩
    have hne := (List.mem_filter.mp (List.mem_eraseDups.mp hmem)).2
    simp at hne
termination_by names.length
decreasing_by exact Nat.lt_succ_of_le (List.length_filter_le _ _)

/-- Nothing is dropped from names that are distinct. -/
theorem eraseDups_of_nodup {names : List String} (h : names.Nodup) : names.eraseDups = names := by
  induction names with
  | nil => rfl
  | cons n names ih =>
    obtain ⟨hn, hnames⟩ := List.nodup_cons.mp h
    have hkept : names.filter (fun b => !b == n) = names := by
      refine List.filter_eq_self.mpr fun b hb => ?_
      simpa using ne_of_mem_of_not_mem hb hn
    rw [List.eraseDups_cons, hkept, ih hnames]

theorem firstNames_normal (names : List String) : NormalNames (firstNames names) := by
  have hsource : ∀ n ∈ firstNames names, ∃ name ∈ names, n = trim name ∧
      isBlankText name = false := by
    intro n hn
    obtain ⟨hn, hfilled⟩ := List.mem_filter.mp (List.mem_eraseDups.mp hn)
    obtain ⟨name, hname, rfl⟩ := List.mem_map.mp hn
    rw [isEmpty_trim] at hfilled
    exact ⟨name, hname, rfl, by simpa using hfilled⟩
  refine ⟨nodup_eraseDups _, fun n hn => ?_, fun n hn => ?_⟩
  · obtain ⟨name, -, rfl, hfilled⟩ := hsource n hn
    rw [← isEmpty_trim, trim_trim, isEmpty_trim, hfilled]
  · obtain ⟨name, -, rfl, -⟩ := hsource n hn
    exact trim_trim name

/-- Names in normal form stay as they are. -/
theorem NormalNames.firstNames_eq {names : List String} (h : NormalNames names) :
    firstNames names = names := by
  have hmap : names.map trim = names := (List.map_congr_left h.trimmed).trans (List.map_id' names)
  have hfilter : (names.filter fun n => !n.isEmpty) = names := by
    refine List.filter_eq_self.mpr fun n hn => ?_
    have hfull := h.filled n hn
    rw [← isEmpty_trim, h.trimmed n hn] at hfull
    rw [hfull]
    rfl
  unfold firstNames
  rw [hmap, hfilter, eraseDups_of_nodup h.distinct]

/-- **The loop that collects names.** It adds the first occurrences of names that it does not have
yet. -/
theorem foldl_addName (names : List String) :
    ∀ acc : List String, (names.foldl Store.addName acc).reverse =
    acc.reverse ++ ((names.map trim).filter fun n => !(n.isEmpty || acc.contains n)).eraseDups := by
  induction names with
  | nil =>
    intro acc
    simp
  | cons name names ih =>
    intro acc
    rw [List.foldl_cons, ih, List.map_cons]
    unfold Store.addName
    simp only
    by_cases hskip : (trim name).isEmpty || acc.contains (trim name)
    · rw [if_pos hskip, List.filter_cons_of_neg (by rw [hskip]; decide)]
    · rw [if_neg hskip, List.filter_cons_of_pos (by simpa using hskip), List.eraseDups_cons,
        List.filter_filter, List.reverse_cons, List.append_assoc, List.singleton_append]
      have hrest : (fun n => !(n.isEmpty || (trim name :: acc).contains n)) =
          fun n => (!n == trim name) && !(n.isEmpty || acc.contains n) := by
        funext n
        rw [List.contains_cons]
        cases n.isEmpty <;> cases n == trim name <;> simp
      rw [hrest]

/-- **The setter's list** is that of the first occurrences of the trimmed names that are not
blank. -/
theorem normalNames_eq (names : List String) : Store.normalNames names = firstNames names := by
  unfold Store.normalNames firstNames
  rw [foldl_addName]
  simp

/-! ### Rows -/

/-- A model and tools in normal form. -/
structure NormalSettings (model : String) (tools : List String) : Prop where
  filled : isBlankText model = false
  trimmed : trim model = model
  tools : NormalNames tools

/-- The settings of new sessions are in normal form. -/
def Defaults.Normal (d : Defaults) : Prop := NormalSettings d.model d.enabledTools

/-- The settings of a session are in normal form. -/
def SessionRow.Normal (r : SessionRow) : Prop := NormalSettings r.model (readNames r.enabledTools)

/-- What an operation sets is in normal form. -/
def Operation.Normal : Operation → Prop
  | ensure _ d => d.Normal
  | setModel _ model => isBlankText model = false ∧ trim model = model
  | setEnabledTools _ tools => NormalNames tools
  | _ => True

/-- The settings of all sessions are in normal form. -/
def Database.NormalRows (db : Database) : Prop := ∀ r ∈ db.sessions, r.Normal

/-- What an operation writes into a row in normal form is in normal form. -/
theorem Operation.Normal.writes {op : Operation} (hop : op.Normal) {r r' : SessionRow}
    (hr : r.Normal) (hw : op.Writes r r') : r'.Normal := by
  have hmodel : isBlankText r'.model = false ∧ trim r'.model = r'.model := by
    obtain hsame | rfl := hw.model
    · rw [hsame]
      exact ⟨hr.filled, hr.trimmed⟩
    · exact hop
  have htools : NormalNames (readNames r'.enabledTools) := by
    obtain hsame | ⟨tools, rfl, htext⟩ := hw.tools
    · rw [hsame]
      exact hr.tools
    · rw [htext, readNames_namesText]
      exact hop
  exact ⟨hmodel.1, hmodel.2, htools⟩

namespace Database.NormalRows

variable {db : Database}

theorem map (h : db.NormalRows) {f : SessionRow → SessionRow} (hf : ∀ r, r.Normal → (f r).Normal)
    {db' : Database} (hdb : db'.sessions = db.sessions.map f) : db'.NormalRows := by
  unfold NormalRows
  rw [hdb, List.forall_mem_map]
  exact fun r hr => hf r (h r hr)

theorem recover (h : db.NormalRows) : db.recover.2.NormalRows :=
  h.map (f := SessionRow.atRest) (fun _ hr => hr) rfl

/-- A session starts with the configured settings. -/
theorem ensure (h : db.NormalRows) (id : String) {d : Defaults} (hd : d.Normal) :
    (db.ensure id d).NormalRows := by
  unfold Database.ensure
  split
  · exact h
  · refine List.forall_mem_append.mpr ⟨h, List.forall_mem_singleton.mpr ?_⟩
    unfold SessionRow.Normal
    rw [readNames_namesText]
    exact hd

/-- **One commit.** -/
theorem on (h : db.NormalRows) {op : Operation} (hnormal : op.Normal) {db' : Database}
    (hop : op.on db = .ok db') : db'.NormalRows := by
  obtain ⟨id, d, rfl, rfl⟩ | ⟨f, hrows, hwrites⟩ := Operation.sessions_on hop
  · exact h.ensure id hnormal
  · exact h.map (fun r hr => hnormal.writes hr (hwrites r)) hrows

/-- **Any number of commits.** -/
theorem committed {ops : List Operation} (hops : ∀ op ∈ ops, op.Normal) (h : db.NormalRows) :
    (db.committed ops).NormalRows :=
  committed_keeps (fun op hop _ _ h hon => h.on (hops op hop) hon) h

end Database.NormalRows

/-! ### Operations of the store -/

namespace StoreCall

variable {d : Defaults}

theorem normal_pair (hd : d.Normal) {id : String} {op : Operation} (hop : op.Normal) :
    ∀ o ∈ [.ensure id d, op], o.Normal :=
  List.forall_mem_cons.mpr ⟨hd, List.forall_mem_singleton.mpr hop⟩

theorem normal_modelCommits (hd : d.Normal) (id model : String) :
    ∀ op ∈ modelCommits d id model, op.Normal := by
  unfold modelCommits
  simp only
  split
  next => simp
  next hfull =>
    have hfilled : isBlankText (trim model) = false := by
      rw [← isEmpty_trim, trim_trim]
      exact Bool.eq_false_iff.mpr hfull
    exact normal_pair hd ⟨hfilled, trim_trim model⟩

/-- **What an operation commits is in normal form**, whatever it is given, if the configured
settings are. -/
theorem normal_commits (hd : d.Normal) (c : StoreCall) : ∀ op ∈ c.commits d, op.Normal := by
  cases c with simp only [commits]
  | snapshot id => exact List.forall_mem_singleton.mpr hd
  | setModel id model => exact normal_modelCommits hd id model
  | setEnabledTools id tools =>
    rw [normalNames_eq]
    exact normal_pair hd (firstNames_normal tools)
  | prepareTurn id message model =>
    split
    next => simp
    next =>
      cases model.filter fun m => !(trim m).isEmpty with
      | none => simp
      | some m =>
        rw [Option.elim_some]
        exact normal_modelCommits hd id m
  | _ => exact normal_pair hd trivial

end StoreCall

namespace Delivery

/-- The configured settings stay. -/
theorem defaults_of_act {d d' : Delivery} {a : Act} (h : d.afterAct a = some d') :
    d'.scene.store.defaults = d.scene.store.defaults := by
  rw [database_of_act h]

theorem defaults_of_acts {acts : List Act} : ∀ {d d' : Delivery}, d.afterActs acts = some d' →
    d'.scene.store.defaults = d.scene.store.defaults := by
  induction acts with
  | nil =>
    intro d d' h
    cases h
    rfl
  | cons a acts ih =>
    intro d d' h
    obtain ⟨t, ht, h⟩ := Option.bind_eq_some_iff.mp h
    rw [ih h, defaults_of_act ht]

/-- **What a run commits is in normal form**, if the configured settings are. -/
theorem normal_commits {acts : List Act} : ∀ {d : Delivery}, d.scene.store.defaults.Normal →
    ∀ op ∈ d.commits acts, op.Normal := by
  induction acts with
  | nil => exact fun _ op hop => by cases hop
  | cons a acts ih =>
    intro d hd
    rw [commits]
    cases ha : d.afterAct a with
    | none => simp
    | some d' =>
      have hact : ∀ op ∈ d.commitsOf a, op.Normal := by
        unfold commitsOf
        cases d.call? a with
        | none => simp
        | some c => exact c.normal_commits hd
      rw [← defaults_of_act ha] at hd
      exact List.forall_mem_append.mpr ⟨hact, ih hd⟩

end Delivery

theorem normalRows_leftBy {ps : List Process} (hps : ∀ p ∈ ps, p.defaults.Normal) :
    (leftBy ps).NormalRows := by
  induction ps using List.reverseRecOn with
  | nil => exact fun r hr => by cases hr
  | append_singleton ps p ih =>
    obtain ⟨hps, hp⟩ := List.forall_mem_append.mp hps
    have hleft : leftBy (ps ++ [p]) = p.leaves (leftBy ps) := by simp [leftBy]
    have hcommits : ∀ op ∈ p.commits (leftBy ps), op.Normal :=
      Delivery.normal_commits (d := p.start (leftBy ps)) (hp p List.mem_cons_self)
    rw [hleft]
    exact (ih hps).recover.committed fun op hop => hcommits op (List.mem_of_mem_take hop)

/-! ### Snapshots -/

namespace Store

/-- All snapshots show settings in normal form. -/
def ShowsNormal (s : Store) : Prop :=
  ∀ id state, (s.snapshot id).1 = .ok state → NormalSettings state.model state.enabledTools

/-- The settings in a snapshot are those of the session's row. -/
theorem settings_snapshot {s : Store} {id : String} {state : SessionState}
    (h : (s.snapshot id).1 = .ok state) : state.model = (s.rowOf id).model ∧
    state.enabledTools = readNames (s.rowOf id).enabledTools := by
  rw [snapshot_fst] at h
  cases hm : s.database.messagesOf id with
  | error f =>
    rw [hm] at h
    cases h
  | ok ms =>
    rw [hm] at h
    cases h
    exact ⟨rfl, rfl⟩

/-- A session without a row has the configured settings. -/
theorem rowOf_normal {s : Store} (hdb : s.database.NormalRows) (hd : s.defaults.Normal)
    (id : String) : (s.rowOf id).Normal := by
  unfold rowOf
  cases hr : s.database.row? id with
  | none =>
    unfold SessionRow.Normal
    rw [Option.getD_none, readNames_namesText]
    exact hd
  | some r => exact hdb r (List.mem_of_find?_eq_some hr)

theorem showsNormal {s : Store} (hdb : s.database.NormalRows) (hd : s.defaults.Normal) :
    s.ShowsNormal := by
  intro id state h
  obtain ⟨hmodel, htools⟩ := settings_snapshot h
  rw [hmodel, htools]
  exact rowOf_normal hdb hd id

/-- The first snapshot of all shows the configured settings, whatever they are. -/
theorem normal_of_showsNormal {d : Defaults} (h : (openOn .empty d).ShowsNormal) : d.Normal := by
  have hfirst := h "" ⟨"", [], false, "", d.model, d.systemPrompt,
    readNames (namesText d.enabledTools)⟩ rfl
  rw [readNames_namesText] at hfirst
  exact hfirst

/-! ### The setter -/

variable (s : Store) (id : String) (tools : List String)

/-- The store after the enabled tools were set. -/
def withTools : Store :=
  { s with database := (s.ensured id).database.setEnabledTools id (firstNames tools) }

theorem setEnabledTools_eq :
    s.setEnabledTools id tools = ((s.withTools id tools).stateOf id, s.withTools id tools) := by
  unfold setEnabledTools
  rw [mutate_eq, normalNames_eq]
  rfl

theorem ensured_withTools : (s.withTools id tools).ensured id = s.withTools id tools := by
  have hrow : (s.withTools id tools).database.row? id = some _ :=
    (Database.row?_alter_self (s.ensured id).database id (fun r =>
      { r with enabledTools := namesText (firstNames tools) })
      fun _ => rfl).trans (congrArg (Option.map _) (row?_ensured_self s id))
  unfold ensured Database.ensure
  rw [hrow]

/-- **To set the same tools again changes nothing.** -/
theorem withTools_withTools :
    (s.withTools id tools).withTools id (firstNames tools) = s.withTools id tools := by
  have hagain (db : Database) (names : List String) :
      (db.setEnabledTools id names).setEnabledTools id names = db.setEnabledTools id names := by
    unfold Database.setEnabledTools Database.alter
    simp only [List.map_map, Database.mk.injEq, and_true]
    refine List.map_congr_left fun r _ => ?_
    by_cases hr : r.id = id <;> simp [hr]
  rw [withTools, ensured_withTools, (firstNames_normal tools).firstNames_eq]
  unfold withTools
  rw [hagain]

/-- **The setter gives the first occurrences**, and gives them again when it is applied to them. -/
theorem setEnabledTools_firstNames :
    let t := (s.setEnabledTools id tools).2
    readNames (t.rowOf id).enabledTools = firstNames tools ∧
      (∀ state, (s.setEnabledTools id tools).1 = .ok state →
        state.enabledTools = firstNames tools) ∧
      NormalNames (firstNames tools) ∧
          t.setEnabledTools id (firstNames tools) = s.setEnabledTools id tools := by
  intro t
  have hrow : readNames (t.rowOf id).enabledTools = firstNames tools := by
    unfold t
    rw [rowOf_setEnabledTools, if_pos rfl, normalNames_eq]
    exact readNames_namesText _
  refine ⟨hrow, fun state hstate => ?_, firstNames_normal tools, ?_⟩
  · rw [setEnabledTools_eq] at hstate
    obtain ⟨ms, rfl⟩ := stateOf_eq hstate
    unfold t at hrow
    rwa [setEnabledTools_eq] at hrow
  · unfold t
    rw [setEnabledTools_eq, setEnabledTools_eq, withTools_withTools]

end Store

/-- **Settings stay in normal form, if they start so.** Processes use the file one after another,
each for any operations of the store and any moves of its requests, and each dies after some of its
commits; if their configured settings are in normal form, and those of the process that runs now,
every snapshot of every session shows settings in normal form. For a process that has found no file
this is so if and only if its configured settings are in normal form. After the tools were set they
are the first occurrences of the trimmed names that are not blank; to set these again changes
neither the store nor the answer. -/
theorem settings_stay_normal_iff (d : Defaults) :
    (∀ ps : List Process, (∀ p ∈ ps, p.defaults.Normal) → d.Normal →
        ∀ (capacity : Nat) (acts : List Act) (final : Delivery),
          (Delivery.start (.openOn (leftBy ps) d) capacity).afterActs acts = some final →
            final.scene.store.ShowsNormal) ∧
      ((∀ (capacity : Nat) (acts : List Act) (final : Delivery),
          (Delivery.start (.openOn .empty d) capacity).afterActs acts = some final →
            final.scene.store.ShowsNormal) ↔ d.Normal) ∧
      ∀ (s : Store) (id : String) (tools : List String),
        let t := (s.setEnabledTools id tools).2
        readNames (t.rowOf id).enabledTools = firstNames tools ∧
          (∀ state, (s.setEnabledTools id tools).1 = .ok state →
            state.enabledTools = firstNames tools) ∧
          NormalNames (firstNames tools) ∧
              t.setEnabledTools id (firstNames tools) = s.setEnabledTools id tools := by
  have hkept (ps : List Process) (hps : ∀ p ∈ ps, p.defaults.Normal) (hd : d.Normal)
    (capacity : Nat)
      (acts : List Act) (final : Delivery)
      (hrun : (Delivery.start (.openOn (leftBy ps) d) capacity).afterActs acts = some final) :
      final.scene.store.ShowsNormal := by
    have hdb : final.scene.store.database.NormalRows := by
      rw [Delivery.database_of_acts hrun]
      exact (normalRows_leftBy hps).recover.committed (Delivery.normal_commits hd)
    refine Store.showsNormal hdb ?_
    rw [Delivery.defaults_of_acts hrun]
    exact hd
  refine ⟨hkept, ⟨fun h => ?_, fun hd => hkept [] (by simp) hd⟩, Store.setEnabledTools_firstNames⟩
  exact Store.normal_of_showsNormal (h 0 [] _ rfl)

theorem normal_diesMidStream : diesMidStream.defaults.Normal :=
  ⟨by decide +kernel, by decide +kernel, by decide +kernel, by decide +kernel, by decide +kernel⟩

theorem normal_asksAgain : asksAgain.defaults.Normal :=
  ⟨by decide +kernel, by decide +kernel, by decide +kernel, by decide +kernel, by decide +kernel⟩

theorem settings_stay_normal_reopened :
    let s := Store.openOn (leftBy [diesMidStream]) asksAgain.defaults
    (∀ p ∈ [diesMidStream], p.defaults.Normal) ∧ asksAgain.defaults.Normal ∧
      (∃ final, (Delivery.start s asksAgain.capacity).afterActs asksAgain.acts = some final ∧
        final.scene.store.ShowsNormal) ∧
      (∃ state, (s.snapshot "other").1 = .ok state ∧
        NormalSettings state.model state.enabledTools) ∧
      ∃ state, (s.setEnabledTools "s" [" b ", "a", "b", " "]).1 = .ok state ∧
          state.enabledTools = ["b", "a"] := by
  intro s
  obtain ⟨hkept, -, hset⟩ := settings_stay_normal_iff asksAgain.defaults
  have hps : ∀ p ∈ [diesMidStream], p.defaults.Normal :=
    List.forall_mem_singleton.mpr normal_diesMidStream
  obtain ⟨final, hrun⟩ : ∃ final, (Delivery.start s asksAgain.capacity).afterActs asksAgain.acts =
      some final :=
    Option.isSome_iff_exists.mp (by decide +kernel)
  have hnow : s.ShowsNormal := hkept _ hps normal_asksAgain asksAgain.capacity [] _ rfl
  obtain ⟨state, hstate⟩ : s.Reads "other" := by decide +kernel
  obtain ⟨other, hother⟩ : ∃ other, (s.setEnabledTools "s" [" b ", "a", "b", " "]).1 = .ok other :=
    ⟨_, rfl⟩
  have hnames : firstNames [" b ", "a", "b", " "] = ["b", "a"] := by decide +kernel
  exact ⟨hps, normal_asksAgain, ⟨final, hrun, hkept _ hps normal_asksAgain _ _ _ hrun⟩,
    ⟨state, hstate, hnow _ _ hstate⟩, other, hother, ((hset _ _ _).2.1 other hother).trans hnames⟩

/-- A host that gives the model with blanks around it. -/
def untidyHost : Config.Host where
  environment :=
    ⟨[("AGENT_RELAY_MODEL", encode " m "), ("AGENT_RELAY_DB", encode ":memory:")], none⟩
  directory := "/work"
  settingsDirectory? := none
  dataDirectory? := none
  entries := []
  taken := []

/-- Settings with tools that repeat or are blank. -/
def untidySettings : Config.Settings := { enabledTools := ["a", "a", " "] }

/-- **Configured settings are shown as they are written.** The relay starts with a model that is not
trimmed, and the first snapshot shows it; a snapshot shows configured tools that repeat or are
blank. -/
theorem untidy_settings_shown :
    (∃ l state, (Startup.launch untidyHost).1 = .ok l ∧ (l.store.snapshot "s").1 = .ok state ∧
        trim state.model ≠ state.model) ∧
      ∃ state, ((Store.openOn .empty untidySettings.sessionDefaults).snapshot "s").1 = .ok state ∧
        ¬ NormalNames state.enabledTools := by
  constructor
  · have hshown : ((Startup.launch untidyHost).1.toOption.bind fun l =>
        (l.store.snapshot "s").1.toOption.map (·.model)) = some " m " := by decide +kernel
    obtain ⟨l, hl, hshown⟩ := Option.bind_eq_some_iff.mp hshown
    obtain ⟨state, hstate, hmodel⟩ := Option.map_eq_some_iff.mp hshown
    refine ⟨l, state, eq_ok_of_toOption hl, eq_ok_of_toOption hstate, ?_⟩
    rw [hmodel]
    decide +kernel
  · refine ⟨_, rfl, fun hnormal => ?_⟩
    have hdistinct := hnormal.distinct
    rw [readNames_namesText] at hdistinct
    revert hdistinct
    decide

end ChatRelay.Session
