import ChatRelay.Proofs.Session.TurnClosing
import ChatRelay.Proofs.Turn.Chunks

/-! # What a streamed turn sends and records

The caller of a streamed turn should see the reply that the session keeps: what was sent ends with
it, for an answer, for an answer after a round of tools, and for a failure. There is one way out of
a turn where that is not so. A first completion that is blank and has no calls is recorded as
another text, and that text is not sent (`sent_ends_with_reply_iff`); without a live endpoint this
does not happen. -/

namespace ChatRelay.Session

open Tools Turn

/-- Between two databases a session got messages, of which the last is a reply with this text. -/
def EndsWithReply (db db' : Database) (id text : String) : Prop :=
  ∃ rows row, db'.rowsOf id = db.rowsOf id ++ rows ++ [row] ∧ row.role = Speaker.assistant.name ∧
    row.content = text

/-- An outcome without calls can always be read again. -/
theorem TurnOutcome.readsBack_of_no_calls {o : TurnOutcome} (h : o.toolCalls = none) :
    o.ReadsBack := by
  unfold TurnOutcome.ReadsBack
  rw [h]
  intro rs hrs
  cases hrs

namespace Agents

variable {σ : Type} {h : Handler σ} {id message : String} {a : Agents σ}

/-! ### What is sent -/

theorem streamPrepared_sent (h : Handler σ) (id message : String) (a : Agents σ) :
    (streamPrepared h id message a).1 =
      match (streamTurn h id message a).1.2 with
      | none => (streamTurn h id message a).1.1
      | some f => (streamTurn h id message a).1.1 ++ [streamFailureText f] := by
  unfold streamPrepared
  rw [bind_run]
  generalize streamTurn h id message a = result
  obtain ⟨⟨chunks, _ | f⟩, b⟩ := result <;> rfl

/-- A turn that has opened sends the chunks of its run. -/
theorem streamTurn_sent {state : SessionState} (hs : (openTurn id message a).1 = .ok state) :
    (streamTurn h id message a).1.1 =
      ((h.run (turnInput message true state)).run (openTurn id message a).2.world).1.chunks := by
  unfold streamTurn
  rw [bind_run, hs]
  simp only
  rw [bind_run, bind_run, onStore_run, Store.beginStreaming_ok]
  simp only
  rw [bind_run, inWorld_run, bind_run]
  have hworld : ((remember ⟨id, state.model⟩ (openTurn id message a).2).2.withStore
      ((remember ⟨id, state.model⟩ (openTurn id message a).2).2.store.beginStreaming id).2).world =
      (openTurn id message a).2.world := rfl
  rw [hworld]
  generalize (h.run (turnInput message true state)).run (openTurn id message a).2.world = result
  cases result.1.outcome with
  | error f => rfl
  | ok o =>
    simp only
    rw [bind_run]
    generalize completeTurn id o _ = completed
    obtain ⟨f | state', b⟩ := completed <;> rfl

/-! ### What is recorded -/

/-- The text of an outcome is the last that is recorded. -/
theorem endsWithReply_completeTurn {db : Database} {c : Agents σ} {rows : List MessageRow}
    (hu : c.store.database.Unused c.nextStamp.id)
    (hrows : c.store.database.rowsOf id = db.rowsOf id ++ rows) (o : TurnOutcome) :
    EndsWithReply db (completeTurn id o c).2.store.database id o.content := by
  have hclosed := c.store.rowsOf_closed c.nextStamp id id o.content o.toolCalls
  rw [if_pos rfl, hrows, ← (completeTurn_fresh hu id o).1] at hclosed
  exact ⟨rows, _, hclosed, rfl, rfl⟩

section ways

variable {b : Agents σ} {d : Draws}

/-- After its opening a turn has added to the history of its session. -/
theorem rowsOf_after_opening (hu : a.store.database.Unused a.nextStamp.id)
    (hm : b.store.database.messages = (openTurn id message a).2.store.database.messages) :
    ∃ rows, b.store.database.rowsOf id = a.store.database.rowsOf id ++ rows := by
  have hrows := a.store.rowsOf_opened a.nextStamp id id message
  rw [← (openTurn_fresh hu id message).1] at hrows
  exact ⟨_, (Database.rowsOf_congr hm id).trans hrows⟩

/-- The turn is completed after its opening. -/
theorem endsWithReply_of_outcome {o : TurnOutcome}
    (hm : b.store.database.messages = (openTurn id message a).2.store.database.messages)
    (hmoves : (openTurn id message a).2.world.draws.MovesTo b.world.draws)
    (hf : FreshIds a.world.draws (completeTurn id o b).2.world.draws a.store.database) :
    EndsWithReply a.store.database (completeTurn id o b).2.store.database id o.content := by
  have hlt : b.world.draws.used < (completeTurn id o b).2.world.draws.used := Nat.lt_succ_self _
  obtain ⟨rows, hrows⟩ := rowsOf_after_opening (unused_of_moves hf hmoves hlt) hm
  exact endsWithReply_completeTurn (unused_after_opening hf hm hmoves hlt) hrows o

/-- The turn is completed after its opening, but its calls do not read back, and another text is
added. -/
theorem endsWithReply_of_unread {o o' : TurnOutcome}
    (hm : b.store.database.messages = (openTurn id message a).2.store.database.messages)
    (hmoves : (openTurn id message a).2.world.draws.MovesTo b.world.draws)
    (hf : FreshIds a.world.draws (completeTurn id o' (completeTurn id o b).2).2.world.draws
      a.store.database) :
    EndsWithReply a.store.database (completeTurn id o' (completeTurn id o b).2).2.store.database id
      o'.content := by
  have hlt : (completeTurn id o b).2.world.draws.used <
      (completeTurn id o' (completeTurn id o b).2).2.world.draws.used := Nat.lt_succ_self _
  have hltb : b.world.draws.used <
      (completeTurn id o' (completeTurn id o b).2).2.world.draws.used :=
    Nat.lt_of_succ_lt hlt
  obtain ⟨rows, hrows⟩ := rowsOf_after_opening (unused_of_moves hf hmoves hltb) hm
  have hclosed := b.store.rowsOf_closed b.nextStamp id id o.content o.toolCalls
  rw [if_pos rfl, hrows, ← (completeTurn_fresh (unused_after_opening hf hm hmoves hltb) id o).1,
    List.append_assoc] at hclosed
  exact endsWithReply_completeTurn (unused_after_reply hm hmoves hf hlt) hclosed o'

/-- An outcome that cannot be read once it is recorded has calls: the history could be read when the
turn opened. -/
theorem toolCalls_ne_none_of_unread {o : TurnOutcome} {state : SessionState} {f : Failure}
    (hs : (openTurn id message a).1 = .ok state) (hcomplete : (completeTurn id o b).1 = .error f)
    (hm : b.store.database.messages = (openTurn id message a).2.store.database.messages)
    (hmoves : (openTurn id message a).2.world.draws.MovesTo b.world.draws)
    (hlt : b.world.draws.used < d.used) (hf : FreshIds a.world.draws d a.store.database) :
    o.toolCalls ≠ none := by
  intro hnone
  have hreads := (openTurn_fresh (unused_of_moves hf hmoves hlt) id message).2.mp ⟨state, hs⟩
  obtain ⟨state', hok⟩ := (completeTurn_ok_iff_reads hm hmoves hlt hf).mpr
    ⟨hreads, TurnOutcome.readsBack_of_no_calls hnone⟩
  rw [hcomplete] at hok
  cases hok

end ways

/-! ### What is sent against what is recorded -/

/-- The turn came to an outcome without calls and has sent blanks only. -/
def SentBlank (h : Handler σ) (id message : String) (a : Agents σ) : Prop :=
  ∃ o, turnOutcome h id message true a = some (.ok o) ∧ o.toolCalls = none ∧
    Text.isBlankText (String.join (streamPrepared h id message a).1) = true

theorem suffix_join_concat (chunks : List String) (text : String) :
    text.toList <:+ (String.join (chunks ++ [text])).toList := by
  rw [String.join_append, String.toList_append]
  simp [String.join_cons]

/-- A text that is not blank does not end one that is. -/
theorem not_suffix_of_isBlankText {s t : String} (hs : Text.isBlankText s = true)
    (ht : Text.isBlankText t = false) : ¬ t.toList <:+ s.toList := by
  intro hsuffix
  unfold Text.isBlankText at hs ht
  rw [List.all_eq_true] at hs
  have hall : t.toList.all Text.isBlank = true :=
    List.all_eq_true.mpr fun c hc => hs c (hsuffix.subset hc)
  rw [hall] at ht
  cases ht

/-- What an outcome leaves behind ends what its run has sent, unless it stands in for blanks. -/
theorem suffix_chunks_iff {i : Input} {w : World σ} {o : TurnOutcome} (hst : i.streamed = true)
    (ho : ((h.run i).run w).1.outcome = .ok o) :
    let sent := String.join ((h.run i).run w).1.chunks
    (o.content.toList <:+ sent.toList ↔ ¬ (o.toolCalls = none ∧ Text.isBlankText sent = true)) ∧
      (o.toolCalls = none → Text.isBlankText sent = true → o.content = emptyCompletionText) := by
  obtain ⟨hplain, hcalls⟩ := h.run_chunks i w hst ho
  generalize String.join ((h.run i).run w).1.chunks = sent at hplain hcalls ⊢
  by_cases hnone : o.toolCalls = none
  · obtain ⟨hcontent, -⟩ := hplain hnone
    unfold orElse at hcontent
    cases hblank : Text.isBlankText sent with
    | true =>
      rw [hblank, if_pos rfl] at hcontent
      have hsome : Text.isBlankText emptyCompletionText = false := by decide +kernel
      refine ⟨iff_of_false ?_ fun hno => hno ⟨hnone, hblank⟩, fun _ _ => hcontent⟩
      rw [hcontent]
      exact not_suffix_of_isBlankText hblank hsome
    | false =>
      rw [hblank, if_neg (by simp)] at hcontent
      simp only [hcontent, hblank]
      exact ⟨iff_of_true (List.suffix_refl _) (by simp), fun _ hno => nomatch hno⟩
  · obtain ⟨before, hbefore⟩ := hcalls hnone
    refine ⟨iff_of_true ?_ fun hno => hnone hno.1, fun hno => absurd hno hnone⟩
    simp only [hbefore, String.toList_append]
    exact List.suffix_append _ _

/-- Without a live endpoint a turn does not send blanks only. -/
theorem not_sentBlank (hmode : h.mode = .simulated) : ¬ SentBlank h id message a := by
  rintro ⟨o, hout, hnone, hblank⟩
  cases hs : (openTurn id message a).1 with
  | error f =>
    rw [turnOutcome_of_error hs] at hout
    cases hout
  | ok state =>
    rw [turnOutcome_of_ok hs, Option.some.injEq] at hout
    have hsaid := ((h.run_chunks (turnInput message true state) _ rfl hout).1 hnone).2 hmode
    rw [streamPrepared_sent, streamTurn_sent hs] at hblank
    cases hfailure : (streamTurn h id message a).1.2 with
    | none =>
      rw [hfailure] at hblank
      simp only at hblank
      rw [hsaid] at hblank
      cases hblank
    | some f =>
      rw [hfailure] at hblank
      simp only at hblank
      rw [String.join_append, Text.isBlankText_append, hsaid] at hblank
      cases hblank

/-- How what a streamed turn has sent stands to the reply that it leaves: it ends with the text of
that reply, unless the text stands in for blanks. -/
structure Replied (h : Handler σ) (id message : String) (a : Agents σ) (text : String) : Prop where
  recorded : EndsWithReply a.store.database (streamPrepared h id message a).2.store.database id text
  sent_iff : text.toList <:+ (String.join (streamPrepared h id message a).1).toList ↔
    ¬ SentBlank h id message a
  standsIn : SentBlank h id message a → text = emptyCompletionText

/-- A failure is sent and recorded alike. -/
theorem replied_failure {f : Failure}
    (hends : EndsWithReply a.store.database (streamPrepared h id message a).2.store.database id
      (streamFailureText f))
    (hfailure : (streamTurn h id message a).1.2 = some f) (hnot : ¬ SentBlank h id message a) :
    Replied h id message a (streamFailureText f) := by
  have hsent := streamPrepared_sent h id message a
  simp only [hfailure] at hsent
  refine ⟨hends, iff_of_true ?_ hnot, fun hblank => absurd hblank hnot⟩
  rw [hsent]
  exact suffix_join_concat _ _

/-- An outcome is recorded, and its text was sent as far as it was not made up. -/
theorem replied_outcome {state : SessionState} {o : TurnOutcome}
    (hs : (openTurn id message a).1 = .ok state)
    (hends : EndsWithReply a.store.database
      (streamPrepared h id message a).2.store.database id o.content)
    (hout : turnOutcome h id message true a = some (.ok o))
    (hnone : (streamTurn h id message a).1.2 = none) : Replied h id message a o.content := by
  have hsent := streamPrepared_sent h id message a
  simp only [hnone, streamTurn_sent hs] at hsent
  have hrun := turnOutcome_of_ok (h := h) hs true
  rw [hout, Option.some.injEq] at hrun
  obtain ⟨hsuffix, hempty⟩ := suffix_chunks_iff rfl hrun.symm
  rw [← hsent] at hsuffix hempty
  have hblank : SentBlank h id message a ↔
      o.toolCalls = none ∧
        Text.isBlankText (String.join (streamPrepared h id message a).1) = true := by
    unfold SentBlank
    rw [hout]
    simp
  refine ⟨hends, ?_, ?_⟩
  · rw [hblank]
    exact hsuffix
  · rw [hblank]
    exact fun hb => hempty hb.1 hb.2

theorem exists_replied
    (hf : FreshIds a.world.draws (streamPrepared h id message a).2.world.draws a.store.database) :
    ∃ text, Replied h id message a text := by
  have hrun := streamPrepared_run h id message a
  cases hs : (openTurn id message a).1 with
  | error f =>
    obtain ⟨hfailure, hstate⟩ := streamTurn_error (h := h) hs
    simp only [hfailure, hstate, failTurn_run] at hrun
    refine ⟨_, replied_failure ?_ hfailure ?_⟩
    · rw [hrun] at hf ⊢
      exact endsWithReply_of_outcome rfl (.refl _) hf
    · rintro ⟨o, ho, -⟩
      rw [turnOutcome_of_error hs] at ho
      cases ho
  | ok state =>
    obtain ⟨b, hm, hmoves, ⟨f, hout, hfailure, hstate⟩ | ⟨o, hout, hstate, hanswer⟩⟩ :=
      streamTurn_ok (h := h) hs
    · simp only [hfailure, hstate, failTurn_run] at hrun
      refine ⟨_, replied_failure ?_ hfailure ?_⟩
      · rw [hrun] at hf ⊢
        exact endsWithReply_of_outcome hm hmoves hf
      · rintro ⟨o, ho, -⟩
        rw [hout] at ho
        cases ho
    · rcases hanswer with ⟨state', hcomplete, hfailure⟩ | ⟨f, hcomplete, hfailure⟩
      · simp only [hfailure, hstate] at hrun
        refine ⟨_, replied_outcome hs ?_ hout hfailure⟩
        rw [hrun] at hf ⊢
        exact endsWithReply_of_outcome hm hmoves hf
      · simp only [hfailure, hstate, failTurn_run] at hrun
        refine ⟨_, replied_failure ?_ hfailure ?_⟩
        · rw [hrun] at hf ⊢
          exact endsWithReply_of_unread hm hmoves hf
        · rintro ⟨o', ho', hnone, -⟩
          rw [hout] at ho'
          cases ho'
          rw [hrun] at hf
          exact toolCalls_ne_none_of_unread hs hcomplete hm hmoves
            (Nat.lt_succ_of_lt (Nat.lt_succ_self _)) hf hnone

/-- **What was sent ends with the reply.** Let the ids of the turn be fresh. However a streamed turn
ends, the last message that it adds to its session is a reply. What it has sent ends with the text
of that reply, unless it came to an outcome without calls and has sent blanks only: then the reply
is a text that was not sent. This does not happen without a live endpoint. -/
theorem sent_ends_with_reply_iff (h : Handler σ) (a : Agents σ) (id message : String)
    (model : Option String) (chunks : List String)
    (hok : (runStreaming h id message model a).1 = .ok chunks) :
    let before := a.atLock (takeUp h) id message model
    let after := (runStreaming h id message model a).2
    FreshIds before.world.draws after.world.draws before.store.database →
      (∃ text, EndsWithReply before.store.database after.store.database id text ∧
        (text.toList <:+ (String.join chunks).toList ↔
          ¬ SentBlank h id (Text.trim message) before) ∧
        (SentBlank h id (Text.trim message) before → text = emptyCompletionText)) ∧
      (h.mode = .simulated → ¬ SentBlank h id (Text.trim message) before) := by
  have hprepared (m : String) := @Store.prepareTurn_ok a.store id message m model
  unfold atLock runStreaming at *
  rw [bind_run, prepare_run] at hok ⊢
  generalize a.store.prepareTurn id message model = result at hprepared hok ⊢
  obtain ⟨f | prepared, store⟩ := result
  · cases hok
  · obtain rfl := hprepared prepared rfl
    -- from here on the turn runs on whatever the turns before it have left
    intro before after hf
    obtain ⟨text, hreplied⟩ := @exists_replied σ h id (Text.trim message) before hf
    have hchunks : (streamPrepared h id (Text.trim message) before).1 = chunks := Except.ok.inj hok
    refine ⟨⟨text, hreplied.recorded, ?_, hreplied.standsIn⟩, not_sentBlank⟩
    rw [← hchunks]
    exact hreplied.sent_iff

/-! ### A reply that is not sent -/

/-- Parties of which the endpoint streams a text and a call, and then sums up. -/
def oneRound : Script where
  tools := []
  listError := none
  answers := [("t", .ok "found")]
  completions := [.ok ⟨some "Done.", []⟩]
  streams := [.ok [.ok ⟨[.text "Let me look. "], none⟩,
    .ok ⟨[.call ⟨0, some "c", some "t", some ""⟩], some "tool_calls"⟩]]
  seen := []

/-- Agents of which none has run a turn, among the parties of a script. -/
def agentsOf (s : Script) : Agents Script := start ⟨.empty, ⟨"m", "p", []⟩⟩ ⟨s, ⟨0, 0⟩⟩ 0

theorem sent_ends_with_reply_oneRound :
    let a := agentsOf oneRound
    let before := a.atLock (takeUp scriptedHandler) "s" "hi" none
    let after := (runStreaming scriptedHandler "s" "hi" none a).2
    let chunks := ["Let me look. ", "\n\n", "Done."]
    (runStreaming scriptedHandler "s" "hi" none a).1 = .ok chunks ∧
      FreshIds before.world.draws after.world.draws before.store.database ∧
      ∃ text, EndsWithReply before.store.database after.store.database "s" text ∧
        text.toList <:+ (String.join chunks).toList := by
  have hsaid := sent_ends_with_reply_iff scriptedHandler (agentsOf oneRound) "s" "hi" none
    ["Let me look. ", "\n\n", "Done."]
  dsimp only at hsaid ⊢
  have hrun := eq_ok_of_toOption (show (runStreaming scriptedHandler "s" "hi" none
    (agentsOf oneRound)).1.toOption = some ["Let me look. ", "\n\n", "Done."] by decide +kernel)
  obtain ⟨⟨text, hends, hiff, -⟩, -⟩ := hsaid hrun (by decide +kernel)
  refine ⟨hrun, by decide +kernel, text, hends, hiff.mpr ?_⟩
  rintro ⟨o, -, -, hblank⟩
  have hjoined : String.join (streamPrepared scriptedHandler "s" (Text.trim "hi")
      ((agentsOf oneRound).atLock (takeUp scriptedHandler) "s" "hi" none)).1 =
      "Let me look. \n\nDone." := by decide +kernel
  rw [hjoined] at hblank
  revert hblank
  decide +kernel

/-- **A reply that is not sent.** The endpoint streams nothing at all; the session keeps a reply of
which nothing was sent. -/
theorem reply_not_sent :
    let a := agentsOf { oneRound with streams := [.ok []] }
    let before := a.atLock (takeUp scriptedHandler) "s" "hi" none
    let after := (runStreaming scriptedHandler "s" "hi" none a).2
    (runStreaming scriptedHandler "s" "hi" none a).1.toOption = some [] ∧
      EndsWithReply before.store.database after.store.database "s" emptyCompletionText ∧
      ¬ emptyCompletionText.toList <:+ (String.join []).toList := by
  intro a before after
  refine ⟨by decide +kernel, ?_, by decide +kernel⟩
  have hbefore : before.store.database.rowsOf "s" = [] := by decide +kernel
  have hafter : (after.store.database.rowsOf "s").map (fun r => (r.role, r.content)) =
      [("user", "hi"), ("assistant", emptyCompletionText)] := by decide +kernel
  obtain ⟨user, rest, hrows, -, hrest⟩ := List.map_eq_cons_iff.mp hafter
  obtain ⟨reply, rfl, hreply⟩ := List.map_eq_singleton_iff.mp hrest
  refine ⟨[user], reply, ?_, congrArg Prod.fst hreply, congrArg Prod.snd hreply⟩
  rw [hbefore]
  exact hrows

end Agents

end ChatRelay.Session
