import ChatRelay.Text.Blank
import Mathlib.Data.List.DropRight
import Mathlib.Data.List.TakeWhile

/-! # Trimming

A trimmed text has no blank at either end (`trimChars_eq_self_iff`), so trimming it again changes
nothing; and it is empty just if the text was blank. What occurs in a text and has no blanks still
occurs in it when the text is trimmed (`infix_trimChars`). -/

namespace ChatRelay.Text

theorem dropEndChars_eq (p : Char → Bool) (cs : List Char) : dropEndChars p cs = cs.rdropWhile p :=
  rfl

/-- A text stays as it is under trimming just if it has no blank at its start and none at its
end. -/
theorem trimChars_eq_self_iff {cs : List Char} : trimChars cs = cs ↔
    (∀ c ∈ cs.head?, isBlank c = false) ∧ ∀ c ∈ cs.getLast?, isBlank c = false := by
  unfold trimChars trimStartChars
  rw [dropEndChars_eq]
  constructor
  · intro h
    -- neither of the two cuts can have taken anything
    have hlen := congrArg List.length h
    have hle := (List.rdropWhile_prefix isBlank (l := cs.dropWhile isBlank)).length_le
    have hle' := List.length_dropWhile_le isBlank cs
    have hdrop : cs.dropWhile isBlank = cs :=
      (List.dropWhile_suffix isBlank).eq_of_length (by omega)
    rw [hdrop] at h
    refine ⟨fun c hc => ?_, fun c hc => ?_⟩
    · cases cs with
      | nil => cases hc
      | cons d cs =>
        cases hc
        have := List.dropWhile_eq_self_iff.mp hdrop (by simp)
        simpa using this
    · have hne : cs ≠ [] := by rintro rfl; cases hc
      have := List.rdropWhile_eq_self_iff.mp h hne
      rw [List.getLast?_eq_some_getLast hne] at hc
      cases hc
      simpa using this
  · rintro ⟨hhead, hlast⟩
    have hdrop : cs.dropWhile isBlank = cs := by
      refine List.dropWhile_eq_self_iff.mpr fun hl => ?_
      cases cs with
      | nil => simp at hl
      | cons d cs => simpa using hhead d rfl
    rw [hdrop]
    refine List.rdropWhile_eq_self_iff.mpr fun hne => ?_
    simpa using hlast _ (List.getLast?_eq_some_getLast hne)

/-- The ends of a trimmed text are not blank. -/
theorem ends_trimChars (cs : List Char) :
    (∀ c ∈ (trimChars cs).head?, isBlank c = false) ∧
      ∀ c ∈ (trimChars cs).getLast?, isBlank c = false := by
  unfold trimChars trimStartChars
  rw [dropEndChars_eq]
  constructor
  · intro c hc
    obtain ⟨r, hr⟩ := List.rdropWhile_prefix isBlank (l := cs.dropWhile isBlank)
    have hhead : (cs.dropWhile isBlank).head? = some c := by
      rw [← hr]
      cases h : (cs.dropWhile isBlank).rdropWhile isBlank with
      | nil => rw [h] at hc; cases hc
      | cons d l => rw [h] at hc; cases hc; rfl
    have := List.head?_dropWhile_not isBlank cs
    rw [hhead] at this
    simpa using this
  · intro c hc
    have hne : (cs.dropWhile isBlank).rdropWhile isBlank ≠ [] := by
      intro h
      rw [h] at hc
      cases hc
    have := List.rdropWhile_last_not isBlank _ hne
    rw [List.getLast?_eq_some_getLast hne] at hc
    cases hc
    simpa using this

theorem trimChars_trimChars (cs : List Char) : trimChars (trimChars cs) = trimChars cs :=
  trimChars_eq_self_iff.mpr (ends_trimChars cs)

theorem trimChars_eq_nil_iff {cs : List Char} : trimChars cs = [] ↔ ∀ c ∈ cs, isBlank c = true := by
  unfold trimChars trimStartChars
  rw [dropEndChars_eq, List.rdropWhile_eq_nil_iff]
  constructor
  · intro h
    by_cases hnil : cs.dropWhile isBlank = []
    · exact List.dropWhile_eq_nil_iff.mp hnil
    · have hpos : 0 < (cs.dropWhile isBlank).length := List.length_pos_iff.mpr hnil
      exact absurd (h _ (List.getElem_mem hpos)) (List.dropWhile_get_zero_not isBlank cs hpos)
  · intro h c hc
    exact h c ((List.dropWhile_subset isBlank) hc)

theorem trimChars_isInfix (cs : List Char) : trimChars cs <:+: cs :=
  (List.rdropWhile_prefix isBlank _).isInfix.trans (List.dropWhile_suffix isBlank).isInfix

theorem trimChars_subset (cs : List Char) : trimChars cs ⊆ cs := (trimChars_isInfix cs).subset

/-- Characters of the class at the end are dropped with those before them. -/
theorem rdropWhile_append_of_all {p : Char → Bool} {cs : List Char} (h : ∀ c ∈ cs, p c = true)
    (before : List Char) : (before ++ cs).rdropWhile p = before.rdropWhile p := by
  unfold List.rdropWhile
  rw [List.reverse_append, List.dropWhile_append_of_pos (by simpa using h)]

theorem trimChars_append_blank {c : Char} (hc : isBlank c = true) (cs : List Char) :
    trimChars (cs ++ [c]) = trimChars cs := by
  unfold trimChars trimStartChars
  rw [List.dropWhile_append, dropEndChars_eq, dropEndChars_eq]
  split
  next h => rw [List.isEmpty_iff.mp h, List.dropWhile_cons_of_pos hc, List.dropWhile_nil]
  next => rw [List.rdropWhile_concat_pos _ _ _ hc]

/-! ### Strings -/

/-- Trimming twice is trimming once. -/
@[simp] theorem trim_trim (s : String) : trim (trim s) = trim s := by
  unfold trim
  rw [String.toList_ofList, trimChars_trimChars]

/-- A trimmed text is empty just if the text was blank. -/
theorem isEmpty_trim (s : String) : (trim s).isEmpty = isBlankText s := by
  rw [Bool.eq_iff_iff, String.isEmpty_iff]
  unfold trim isBlankText
  rw [List.all_eq_true, ← trimChars_eq_nil_iff]
  constructor
  · intro h
    simpa using congrArg String.toList h
  · intro h
    rw [h]

/-! ### Texts in texts -/

theorem isSome_go_cutChars (pat cs : List Char) : ∀ before : List Char,
    (cutChars.go pat before cs).isSome = true ↔ pat <:+: cs := by
  induction cs with
  | nil =>
    intro before
    rw [cutChars.go, List.infix_nil]
    cases pat <;> simp
  | cons c cs ih =>
    intro before
    rw [cutChars.go, List.infix_cons_iff, ← ih (c :: before)]
    split
    next h => exact iff_of_true rfl (.inl (List.isPrefixOf_iff_prefix.mp h))
    next h => exact (or_iff_right fun hp => h (List.isPrefixOf_iff_prefix.mpr hp)).symm

theorem occurs_iff {pat s : String} : occurs pat s = true ↔ pat.toList <:+: s.toList :=
  isSome_go_cutChars pat.toList s.toList []

theorem dropWhile_append_of_not_blank {pat : List Char} (hne : pat ≠ [])
    (hpat : ∀ c ∈ pat, isBlank c = false) (before after : List Char) :
    (before ++ (pat ++ after)).dropWhile isBlank = before.dropWhile isBlank ++ (pat ++ after) := by
  obtain ⟨c, pat, rfl⟩ := List.exists_cons_of_ne_nil hne
  have hc : (c :: pat ++ after).dropWhile isBlank = c :: pat ++ after := by
    rw [List.cons_append, List.dropWhile_cons_of_neg (by simp [hpat c List.mem_cons_self])]
  rw [List.dropWhile_append, hc]
  split
  next h => rw [List.isEmpty_iff.mp h, List.nil_append]
  next => rfl

/-- What has no blanks is not cut off. -/
theorem infix_trimChars {pat cs : List Char} (hne : pat ≠ []) (hpat : ∀ c ∈ pat, isBlank c = false)
    (h : pat <:+: cs) : pat <:+: trimChars cs := by
  obtain ⟨before, after, rfl⟩ := h
  unfold trimChars trimStartChars dropEndChars
  rw [List.append_assoc, dropWhile_append_of_not_blank hne hpat]
  have hne' : pat.reverse ≠ [] := by simpa using hne
  have hpat' : ∀ c ∈ pat.reverse, isBlank c = false := by simpa using hpat
  have hend := dropWhile_append_of_not_blank hne' hpat' after.reverse
    (before.dropWhile isBlank).reverse
  refine ⟨before.dropWhile isBlank, (after.reverse.dropWhile isBlank).reverse, ?_⟩
  rw [List.reverse_append, List.reverse_append, List.append_assoc, List.append_assoc, hend]
  simp

end ChatRelay.Text
