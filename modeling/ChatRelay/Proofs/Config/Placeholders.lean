import ChatRelay.Config.Settings
import ChatRelay.Proofs.Text.Trimming

/-! # Placeholders among settings

A value is a placeholder if it is blank or contains one of a few markers, capitals counted as small
letters (`isPlaceholder_iff`). One of the markers starts an expression in a configuration text. So
an expression that has no value, which is left as it was written (`expand_of_unresolved`), makes
every value that it is part of a placeholder (`isPlaceholder_of_written`).

There is a live endpoint if and only if its URL and its key are set and are no placeholders
(`endpoint?_eq_some_iff`). -/

namespace ChatRelay

open Text Completion

/-! ### Placeholders -/

namespace Completion

theorem toList_asciiLower (s : String) : (asciiLower s).toList = s.toList.map Char.toLower := by
  simp [asciiLower]

theorem isEmpty_asciiLower_trim (v : String) : (asciiLower (trim v)).isEmpty = isBlankText v := by
  rw [← isEmpty_trim, Bool.eq_iff_iff, String.isEmpty_iff, String.isEmpty_iff,
    ← String.toList_eq_nil_iff, ← String.toList_eq_nil_iff, toList_asciiLower, List.map_eq_nil_iff]

theorem isPlaceholder_iff {v : String} : isPlaceholder v = true ↔
    isBlankText v = true ∨ ∃ marker ∈ placeholderMarkers,
      marker.toList <:+: (asciiLower (trim v)).toList := by
  unfold isPlaceholder
  dsimp only
  rw [Bool.or_eq_true, isEmpty_asciiLower_trim, List.any_eq_true]
  simp only [occurs_iff]

theorem isPlaceholder_trim (v : String) : isPlaceholder (trim v) = isPlaceholder v := by
  unfold isPlaceholder
  rw [trim_trim]

theorem usable?_eq_some_iff {value : Option String} {t : String} : usable? value = some t ↔
    ∃ v, value = some v ∧ isPlaceholder v = false ∧ t = trim v := by
  unfold usable?
  cases value with
  | none => simp
  | some v =>
    have blank : (trim v).isEmpty = true → isPlaceholder v = true := fun h =>
      isPlaceholder_iff.mpr (.inl (isEmpty_trim v ▸ h))
    simp only [Option.bind_some, isPlaceholder_trim, Option.some.injEq]
    cases hp : isPlaceholder v with
    | true => simp [hp]
    | false =>
      have full : (trim v).isEmpty = false := by
        cases he : (trim v).isEmpty with
        | true => rw [blank he] at hp; cases hp
        | false => rfl
      simp [hp, full, eq_comm]

theorem Endpoint.of?_eq_some_iff {baseUrl apiKey : Option String} {e : Endpoint} :
    Endpoint.of? baseUrl apiKey = some e ↔
    ∃ url key, (baseUrl = some url ∧ isPlaceholder url = false) ∧
      (apiKey = some key ∧ isPlaceholder key = false) ∧
      e = ⟨dropEnd (· == '/') (trim url), trim key⟩ := by
  unfold Endpoint.of?
  simp only [Option.bind_eq_bind, Option.bind_eq_some_iff, usable?_eq_some_iff, Option.pure_def,
    Option.some.injEq]
  constructor
  · rintro ⟨t, ⟨url, hurl, hu, rfl⟩, t', ⟨key, hkey, hk, rfl⟩, rfl⟩
    exact ⟨url, key, ⟨hurl, hu⟩, ⟨hkey, hk⟩, rfl⟩
  · rintro ⟨url, key, ⟨hurl, hu⟩, ⟨hkey, hk⟩, rfl⟩
    exact ⟨_, ⟨url, hurl, hu, rfl⟩, _, ⟨key, hkey, hk, rfl⟩, rfl⟩

end Completion

namespace Config

/-! ### Unresolved expressions -/

/-- What starts an expression. -/
def expressionMarker : List Char := ['$', '\x7b']

theorem isBlank_expressionMarker : ∀ c ∈ expressionMarker, isBlank c = false :=
  List.forall_mem_cons.mpr ⟨by decide, List.forall_mem_singleton.mpr (by decide)⟩

/-- **A value with an expression in it is a placeholder.** -/
theorem isPlaceholder_of_marker {v : String} (h : expressionMarker <:+: v.toList) :
    isPlaceholder v = true := by
  refine isPlaceholder_iff.mpr (.inr ⟨"$\x7b", by simp [placeholderMarkers], ?_⟩)
  have trimmed : expressionMarker <:+: (trim v).toList := by
    unfold trim
    rw [String.toList_ofList]
    exact infix_trimChars (List.cons_ne_nil _ _) isBlank_expressionMarker h
  rw [toList_asciiLower]
  exact trimmed.map Char.toLower

namespace Segment

theorem flatMap_written_scan (inside? : Option (List Char)) (cs : List Char) :
    (scan inside? cs).flatMap written =
      (inside?.map fun e => expressionMarker ++ e.reverse).getD [] ++ cs := by
  fun_induction scan inside? cs with
  | case1 r ih => simp [ih, expressionMarker]
  | case2 c r _ ih => simp [ih, written]
  | case3 => rfl
  | case4 e r ih => simp [ih, written, expressionMarker]
  | case5 e c r _ ih => simp [ih, expressionMarker]
  | case6 e => simp [written, expressionMarker]

/-- The pieces of a text are the text. -/
theorem flatMap_written_ofText (s : String) : (ofText s).flatMap written = s.toList :=
  flatMap_written_scan none s.toList

theorem expanded_of_unresolved {env : Environment} {e : List Char} (h : value? env e = none) :
    (expression e).expanded env = (expression e).written := by
  simp [expanded, h]

theorem marker_infix_written (e : List Char) : expressionMarker <:+: (expression e).written :=
  (List.prefix_append expressionMarker (e ++ ['\x7d'])).isInfix

end Segment

/-- **An expression without a value is left as it was written**, and what contains it is a
placeholder. -/
theorem expand_of_unresolved {env : Environment} {s : String} {e : List Char}
    {before after : List Segment} (hcut : Segment.ofText s = before ++ .expression e :: after)
    (h : Segment.value? env e = none) :
    (expand env s).toList = before.flatMap (Segment.expanded env) ++
      ((Segment.expression e).written ++ after.flatMap (Segment.expanded env)) := by
  unfold expand
  rw [String.toList_ofList, hcut, List.flatMap_append, List.flatMap_cons,
    Segment.expanded_of_unresolved h]

theorem isPlaceholder_of_written {e : List Char} {v : String}
    (h : (Segment.expression e).written <:+: v.toList) : isPlaceholder v = true :=
  isPlaceholder_of_marker ((Segment.marker_infix_written e).trans h)

/-! ### Endpoints -/

namespace Settings

variable {s : Settings}

theorem endpoint?_eq_some_iff {e : Endpoint} : s.endpoint? = some e ↔
    ∃ url key, (s.baseUrl = some url ∧ isPlaceholder url = false) ∧
      (s.apiKey = some key ∧ isPlaceholder key = false) ∧
      e = ⟨dropEnd (· == '/') (trim url), trim key⟩ :=
  Endpoint.of?_eq_some_iff

/-- The value is missing, blank or a placeholder. -/
def Vacant (value : Option String) : Prop := ∀ v ∈ value, isPlaceholder v = true

theorem not_vacant_iff {value : Option String} :
    ¬ Vacant value ↔ ∃ v, value = some v ∧ isPlaceholder v = false := by
  simp [Vacant]

/-- **There is no live endpoint just if its URL or its key is missing, blank or a placeholder.** -/
theorem endpoint?_eq_none_iff : s.endpoint? = none ↔ Vacant s.baseUrl ∨ Vacant s.apiKey := by
  rw [Option.eq_none_iff_forall_ne_some]
  simp only [ne_eq, endpoint?_eq_some_iff]
  constructor
  · intro h
    by_contra hfull
    rw [not_or, not_vacant_iff, not_vacant_iff] at hfull
    obtain ⟨⟨url, hurl⟩, key, hkey⟩ := hfull
    exact h _ ⟨url, key, hurl, hkey, rfl⟩
  · rintro (hurl | hkey) e ⟨url, key, ⟨hu, hu'⟩, ⟨hk, hk'⟩, -⟩
    · exact absurd (hurl url hu) (by simp [hu'])
    · exact absurd (hkey key hk) (by simp [hk'])

end Settings

end Config

end ChatRelay
