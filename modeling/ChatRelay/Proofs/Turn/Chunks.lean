import ChatRelay.Proofs.Turn.Stages
import ChatRelay.Proofs.Text.Trimming

/-! # The chunks of a turn

Put together, the chunks of a streamed turn are the text of its first completion, and after a round
of tools they end with the text of the follow-up. So they end with the text that the turn leaves
behind, except where that text only stands in for a blank first completion: nobody sends it
(`run_chunks`). A simulated completion is never blank. -/

namespace ChatRelay

/-! ### Words -/

namespace Text

/-- The pieces of a text, with the separators between them, are the text. -/
theorem foldl_splitStep_pieces (sep : Char) (cs : List Char) :
    (cs.foldl (splitStep sep) ([], [])).1.reverse.flatMap (· ++ [sep]) ++
      (cs.foldl (splitStep sep) ([], [])).2.reverse = cs := by
  induction cs using List.reverseRecOn with
  | nil => rfl
  | append_singleton cs c ih =>
    rw [List.foldl_append, List.foldl_cons, List.foldl_nil]
    generalize cs.foldl (splitStep sep) ([], []) = acc at ih
    obtain ⟨pieces, piece⟩ := acc
    by_cases hc : c = sep
    · subst hc
      simp only [splitStep, if_true, List.reverse_cons, List.flatMap_append, List.flatMap_cons,
        List.flatMap_nil, List.append_nil, List.reverse_nil]
      rw [← List.append_assoc, ih]
    · simp only [splitStep, hc, if_false, List.reverse_cons]
      rw [← List.append_assoc, ih]

theorem isBlankText_append (s t : String) :
    isBlankText (s ++ t) = (isBlankText s && isBlankText t) := by
  unfold isBlankText
  rw [String.toList_append, List.all_append]

end Text

/-! ### Pieces of text -/

namespace Completion

namespace Accumulator

/-- The pieces of text that were handed on are the text so far. -/
def Emitted (a : Accumulator) : Prop := String.join a.chunks = a.fullText

theorem emitted_start (policy : NamePolicy) : Emitted (.start policy) := rfl

theorem Emitted.addFragment {a : Accumulator} (h : a.Emitted) (f : Fragment) :
    (a.addFragment f).Emitted := by
  unfold Emitted Accumulator.chunks at h ⊢
  cases f with
  | call c => exact h
  | text s =>
    simp only [Accumulator.addFragment, List.reverse_cons]
    rw [String.join_append, h]
    simp [String.join_cons]

theorem Emitted.add {a : Accumulator} (h : a.Emitted) (d : Delta) :
    (a.add d).Emitted := by
  unfold Accumulator.add
  induction d.fragments generalizing a with
  | nil => exact h
  | cons f fs ih => exact ih (h.addFragment f)

end Accumulator

/-- The text of a finished stream is what it has handed on. -/
theorem join_accumulateFrom {a : Accumulator} (ha : a.Emitted) {items : List StreamItem}
    {done : Accumulated} {chunks : List String} (h : accumulateFrom a items = (.ok done, chunks)) :
    String.join chunks = done.fullText := by
  induction items generalizing a with
  | nil =>
    cases h
    exact ha
  | cons item items ih =>
    cases item with
    | error e => cases h
    | ok d => exact ih (ha.add d) h

end Completion

namespace Turn

open Completion Session Tools

theorem join_words (text : String) : String.join (words text) = text := by
  have hpieces := Text.foldl_splitStep_pieces ' ' text.toList
  unfold words Text.splitChars
  generalize text.toList.foldl (Text.splitStep ' ') ([], []) = acc at hpieces
  obtain ⟨pieces, piece⟩ := acc
  have hended : (String.join (pieces.reverse.map fun w => String.ofList (w ++ [' ']))).toList =
      pieces.reverse.flatMap (· ++ [' ']) := by
    rw [String.toList_join, List.flatMap_map]
    simp
  rw [← String.toList_inj, ← hpieces]
  simp only [List.reverse_cons, List.dropLast_concat, List.getLast?_concat]
  cases hlast : piece.reverse with
  | nil => rw [hended, List.append_nil]
  | cons c r =>
    simp only
    rw [String.join_append, String.toList_append, hended]
    simp

theorem not_isBlankText_acknowledgement (message : String) :
    Text.isBlankText (acknowledgement message) = false := by
  have hstart : Text.isBlankText (toString "I received your message: \"") =
    false := by decide +kernel
  unfold acknowledgement
  simp only [Text.isBlankText_append]
  rw [hstart]
  rfl

/-- A simulated reply says something. -/
theorem not_isBlankText_simulatedReply {message : String} {tools : List ToolDefinition} {d : Draws}
    (hcalls : (simulatedReply message tools d).1.2 = []) :
    Text.isBlankText (simulatedReply message tools d).1.1 = false := by
  unfold simulatedReply at hcalls ⊢
  cases ht : Topic.of? message tools with
  | none => exact not_isBlankText_acknowledgement message
  | some t =>
    rw [ht] at hcalls
    cases hcalls

namespace Handler

variable {σ : Type} (h : Handler σ) (i : Input) (w : World σ)

/-- A streamed first completion sends its text. -/
theorem join_first (hst : i.streamed = true) {tools : List ToolDefinition} {first : First}
    {chunks : List String} {u : World σ}
    (hfirst : (h.first i tools).run w = ((.ok first, chunks), u)) :
    String.join chunks = first.text := by
  cases hmode : h.mode with
  | simulated =>
    rw [h.first_simulated i w hmode, hst] at hfirst
    cases hfirst
    exact join_words _
  | live provider =>
    rw [h.first_streamed i w tools hmode hst] at hfirst
    cases hstream : (provider.stream (h.primaryRequest i tools) w.outside).1 with
    | error f =>
      rw [hstream] at hfirst
      cases hfirst
    | ok items =>
      rw [hstream] at hfirst
      simp only at hfirst
      cases hdone : accumulate items with
      | mk result sent =>
        rw [hdone] at hfirst
        cases result with
        | error f => cases hfirst
        | ok done =>
          cases hfirst
          exact join_accumulateFrom (Accumulator.emitted_start .append) hdone

theorem not_blank_first (hmode : h.mode = .simulated) {tools : List ToolDefinition} {first : First}
    {chunks : List String} {u : World σ}
    (hfirst : (h.first i tools).run w = ((.ok first, chunks), u))
    (hcalls : first.calls = []) : Text.isBlankText first.text = false := by
  rw [h.first_simulated i w hmode] at hfirst
  cases hfirst
  exact not_isBlankText_simulatedReply hcalls

/-! ### Follow-ups -/

/-- The chunks of a follow-up end with its text. -/
theorem join_followUpChunks (firstText text : String) :
    ∃ before, String.join (h.followUpChunks firstText text) = before ++ text := by
  unfold followUpChunks
  rw [String.join_append]
  refine ⟨_, congrArg _ ?_⟩
  cases h.mode with
  | simulated => exact join_words text
  | live provider => simp [String.join_cons]

/-! ### Runs -/

/-- **What a streamed turn sends.** An outcome without calls is what was sent, or stands in for it
if that is blank, which it never is without a live endpoint. An outcome with calls ends what was
sent. -/
theorem run_chunks (hst : i.streamed = true) {o : TurnOutcome}
    (ho : ((h.run i).run w).1.outcome = .ok o) :
    let sent := String.join ((h.run i).run w).1.chunks
    (o.toolCalls = none → o.content = orElse emptyCompletionText sent ∧
        (h.mode = .simulated → Text.isBlankText sent = false)) ∧
      (o.toolCalls ≠ none → ∃ before, sent = before ++ o.content) := by
  intro sent
  have hruns := h.runs_run i w
  revert ho
  unfold sent
  generalize (h.run i).run w = result at hruns
  cases hruns with
  | fails hfirst =>
    intro ho
    cases ho
  | @answers first chunks u hfirst hcalls =>
    intro ho
    cases ho
    have hsent := h.join_first i _ hst hfirst
    refine ⟨fun _ => ⟨by rw [← hsent], fun hmode => ?_⟩, fun hsome => absurd rfl hsome⟩
    simp only
    rw [hsent]
    exact h.not_blank_first i _ hmode hfirst hcalls
  | @callsTools first chunks u v x records text hfirst hcalls hrecords htext =>
    intro ho
    cases ho
    refine ⟨fun hnone => (nomatch hnone), fun _ => ?_⟩
    obtain ⟨before, hbefore⟩ := h.join_followUpChunks first.text text
    refine ⟨String.join chunks ++ before, ?_⟩
    simp only [hst, if_true]
    rw [String.join_append, hbefore, String.append_assoc]

end Handler

end Turn

end ChatRelay
