import ChatRelay.Proofs.Completion.LastEvent
import ChatRelay.Proofs.Completion.StreamedWhole
import ChatRelay.Proofs.Json.LeftOut

/-! # Null members of chunks

An endpoint may write `null` for a member without a value. `WithoutNulls` relates a chunk to the
same one without some of these members, at all its levels: its error, what each choice adds and why
it ended, and the parts of what it adds, down to those of each call. Such chunks are decoded alike
(`blind_decodeChunk`).

Whether a chunk has an error is asked before it is decoded, and there a member that is `null`
counts. So two events whose chunks are related say the same just if no error was left out
(`ofText_withoutNulls`). -/

namespace ChatRelay.Completion

open Json Text

/-! ### Chunks with fewer members -/

/-- A function without some of its members that are `null`. -/
def FunctionWithoutNulls : Value → Value → Prop :=
  LeavesOut ["name", "arguments"] ["name", "arguments"] fun _ => Eq

/-- A piece of a call without some of its members that are `null`. -/
def CallWithoutNulls : Value → Value → Prop :=
  LeavesOut ["index", "id", "function"] ["index", "id",
    "function"] (nested "function" FunctionWithoutNulls)

/-- What a choice adds, without some of its members that are `null`. -/
def DeltaWithoutNulls : Value → Value → Prop :=
  LeavesOut ["content", "tool_calls"] ["content",
    "tool_calls"] (nested "tool_calls" (SameList CallWithoutNulls))

/-- A choice without some of its members that are `null`. -/
def ChoiceWithoutNulls : Value → Value → Prop :=
  LeavesOut ["delta", "finish_reason"] ["delta", "finish_reason"] (nested "delta" DeltaWithoutNulls)

/-- A chunk without some of its members that are `null`. -/
def WithoutNulls : Value → Value → Prop :=
  LeavesOut ["choices"] ["error"] (nested "choices" (SameList ChoiceWithoutNulls))

/-! ### Decoding -/

theorem blind_decodeFunction : Blind ChunkCall.decodeFunction FunctionWithoutNulls := by
  refine blind_record fun s s' h => ?_
  rw [h.nullable (by decide) (blind_eq text) keepsNull_eq,
    h.nullable (by decide) (blind_eq text) keepsNull_eq]

theorem blind_decodeCall : Blind ChunkCall.decode CallWithoutNulls := by
  refine blind_record fun s s' h => ?_
  rw [h.nullable_other (by decide) (by decide), h.nullable_other (by decide) (by decide),
    h.nullable_nested (by decide) blind_decodeFunction keepsNull_leavesOut]

theorem blind_decodeDelta : Blind ChunkChoice.decodeDelta DeltaWithoutNulls := by
  refine blind_record fun s s' h => ?_
  rw [h.nullable_other (by decide) (by decide),
    h.nullable_nested (by decide) blind_decodeCall.list keepsNull_sameList]

theorem blind_decodeChoice : Blind ChunkChoice.decode ChoiceWithoutNulls := by
  refine blind_record fun s s' h => ?_
  rw [h.nullable_nested (by decide) blind_decodeDelta keepsNull_leavesOut,
    h.nullable_other (by decide) (by decide)]

/-- **Chunks are decoded alike** with and without members that are `null`. -/
theorem blind_decodeChunk : Blind ChunkChoice.decodeChunk WithoutNulls := by
  refine blind_record fun s s' h => ?_
  exact h.defaulted (by decide) (by decide) (by rw [nested_self]; exact blind_decodeChoice.list) []

/-! ### Events -/

/-- What the value of an event's data says. -/
def outcomeOfValue (v : Value) : EventOutcome :=
  match v.member? "error" with
  | some err => .error (.streamError (errorReason err))
  | none =>
    match decodeValue ChunkChoice.decodeChunk v with
    | .error _ => .skip
    | .ok choices => if (Delta.ofChoices choices).isEmpty then .skip
      else .delta (Delta.ofChoices choices)

/-- The data lines of an event are the text of a value, none of them the mark at the end of a
stream. -/
structure Carries (event : String) (v : Value) : Prop where
  notDone : doneMark ∉ dataLines event.toList
  parsed : parse? (String.ofList (dataLines event.toList).flatten) = some v

theorem Carries.ofText {event : String} {v : Value} (h : Carries event v) :
    EventOutcome.ofText event = outcomeOfValue v := by
  have hparsed := h.parsed
  rw [ofText_eq, saidBy, if_neg (by simpa using h.notDone)]
  generalize String.ofList (dataLines event.toList).flatten = data at hparsed
  have hdata : data.isEmpty = false := by
    rw [Bool.eq_false_iff, ne_eq, String.isEmpty_iff]
    rintro rfl
    cases hparsed.symm.trans (by decide +kernel : parse? "" = none)
  unfold EventOutcome.ofData outcomeOfValue
  rw [hdata, hparsed]
  rfl

/-- The event of a document, in one data line. -/
def lineOf (d : Doc) : String := "data: " ++ d.text

/-- Every record that is plain JSON has an event. -/
theorem carries_lineOf {d : Doc} (hp : d.isPlain = true) (hdepth : d.depth ≤ maxDepth)
    (hd : d.IsRecord) : Carries (lineOf d) d.meaning := by
  have hline := isLine_text hp
  have htrim : trimChars d.text.toList = d.text.toList := by
    have := congrArg String.toList (trim_text hd)
    rwa [trim, String.toList_ofList] at this
  have hdata : dataLines (lineOf d).toList = [d.text.toList] := by
    have hnewline : '\n' ∉ "data: ".toList ++ d.text.toList := by
      rw [List.mem_append, not_or]
      exact ⟨by decide, hline.1⟩
    have hfound := dataOfLine_data hline
    rw [htrim] at hfound
    rw [lineOf, String.toList_append, dataLines, splitChars_line hnewline,
      List.filterMap_cons_some hfound, List.filterMap_nil]
  refine ⟨?_, ?_⟩
  · obtain ⟨inner, hinner⟩ := render_record hd
    rw [hdata, Doc.text, String.toList_ofList, hinner]
    simp [doneMark]
  · rw [hdata, List.flatten_singleton, String.ofList_toList, parse?_text hp hdepth]

/-- Only an `error` that is `null` may be missing. -/
theorem WithoutNulls.error {v v' : Value} (h : WithoutNulls v v') (hs : v.Sorted) :
    v.member? "error" = v'.member? "error" ∨ v.member? "error" = some .null ∧
    v'.member? "error" = none := by
  cases h with
  | same => exact .inl rfl
  | items => exact .inl rfl
  | members h =>
    obtain ⟨hv, hv'⟩ | ⟨w, w', hv, hv', hw⟩ | ⟨-, hv, hv'⟩ := h.lookup hs.1.nodup "error"
    · exact .inl (hv.trans hv'.symm)
    · rw [nested_of_ne (by decide)] at hw
      exact .inl (hv.trans (hw ▸ hv'.symm))
    · exact .inr ⟨hv, hv'⟩

theorem outcomeOfValue_ne_error {v : Value} (h : v.member? "error" = none) (f : Failure) :
    outcomeOfValue v ≠ .error f := by
  unfold outcomeOfValue
  rw [h]
  dsimp only
  split
  · simp
  · split <;> simp

/-- **Null is absence, but for errors.** The events of a chunk with and without some of its members
that are `null` say the same just if an error is not among these. Else the first ends the stream
with a failure, and the second does not. -/
theorem ofText_withoutNulls {event event' : String} {v v' : Value} (hv : Carries event v)
    (hv' : Carries event' v') (h : WithoutNulls v v') :
    (EventOutcome.ofText event = .ofText event' ↔ v.member? "error" = v'.member? "error") ∧
      (v.member? "error" ≠ v'.member? "error" →
        EventOutcome.ofText event = .error (.streamError "null") ∧
        ∀ f, EventOutcome.ofText event' ≠ .error f) := by
  have hs := (value_of_parse? hv.parsed).1
  have hs' := (value_of_parse? hv'.parsed).1
  have hdecoded : decodeValue ChunkChoice.decodeChunk v = decodeValue ChunkChoice.decodeChunk v' :=
    blind_decodeChunk v v' hs hs' h maxDepth
  rw [hv.ofText, hv'.ofText]
  rcases h.error hs with hsame | ⟨hnull, hnone⟩
  · refine ⟨iff_of_true ?_ hsame, fun hne => absurd hsame hne⟩
    unfold outcomeOfValue
    rw [hsame, hdecoded]
  · have herror : outcomeOfValue v = .error (.streamError "null") := by
      unfold outcomeOfValue
      rw [hnull]
      rfl
    have hne := outcomeOfValue_ne_error hnone
    refine ⟨iff_of_false (fun hsame => hne _ (hsame.symm.trans herror)) (by simp [hnull, hnone]),
      fun _ => ⟨herror, hne⟩⟩

/-- A chunk with members that are `null`. -/
def nullChunk : Doc :=
  .record [field "choices" (.arr [.record [field "delta" (.record [field "content" (.str "a"),
    field "tool_calls" .null]), field "finish_reason" .null]])]

/-- The same chunk without them. -/
def shortChunk : Doc :=
  .record [field "choices" (.arr [.record [field "delta" (.record [field "content" (.str "a")])]])]

theorem ofText_withoutNulls_short :
    EventOutcome.ofText (lineOf nullChunk) = .ofText (lineOf shortChunk) := by
  have hwithout : WithoutNulls nullChunk.meaning shortChunk.meaning := by
    show WithoutNulls
      (.obj [("choices", .arr [.obj [("delta", .obj [("content", .str "a"), ("tool_calls", .null)]),
        ("finish_reason", .null)]])])
      (.obj [("choices", .arr [.obj [("delta", .obj [("content", .str "a")])]])])
    refine .members (.keep ?_ .nil)
    rw [nested_self]
    refine .items (.cons (.members (.keep ?_ (.leaveOut (by decide) .nil))) .nil)
    rw [nested_self]
    exact .members (.keep rfl (.leaveOut (by decide) .nil))
  refine (ofText_withoutNulls (carries_lineOf (by decide) (by decide) ?_)
    (carries_lineOf (by decide) (by decide) ?_)
    hwithout).1.mpr rfl
  · exact isRecord_of_keys ["choices"] rfl (by decide)
  · exact isRecord_of_keys ["choices"] rfl (by decide)

deriving instance DecidableEq for EventOutcome

/-- **An `error` that is `null` ends the stream.** -/
theorem null_error_ends :
    EventOutcome.ofText "data: \x7b\"error\":null,\"choices\":[\x7b\"delta\":\x7b\"content\":\"a\"\x7d\x7d]\x7d" =
      .error (.streamError "null") ∧
    EventOutcome.ofText "data: \x7b\"choices\":[\x7b\"delta\":\x7b\"content\":\"a\"\x7d\x7d]\x7d" =
      .delta ⟨[.text "a"], none⟩ := by
  decide +kernel

end ChatRelay.Completion
