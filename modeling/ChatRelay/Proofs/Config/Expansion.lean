import ChatRelay.Proofs.Config.Placeholders
import ChatRelay.Proofs.Text.StrictTexts
import Mathlib.Data.List.Forall2

/-! # Expressions in configuration texts

A configuration text is literal text with expressions in between, and may end in an expression that
is not closed (`Spells`). Every text is spelled in this way, and whoever reads it so finds the same:
the literal text and the open end stay, and each expression is replaced by what it stands for
(`expand_by_grammar`). Since the replacements are put between the literal texts and not read again,
a variable cannot bring in another expression.

What an expression stands for is said by `Piece.StandsFor`, by the first `:-` in it and the variable
that its name, without blanks around it, refers to. Which directory a tilde is replaced by is the
system's answer: that of a variable, or that of the user's account (`Environment.FindsHome`). -/

namespace ChatRelay

/-! ### First occurrences -/

namespace Text

/-- In a text and what follows it, no occurrence of `pat` starts within the text. -/
def StartsNowhere (pat cs rest : List Char) : Prop := ∀ k < cs.length, ¬ pat <+: (cs ++ rest).drop k

theorem startsNowhere_nil (pat rest : List Char) : StartsNowhere pat [] rest :=
  fun _ hk => absurd hk (by simp)

theorem startsNowhere_cons {pat cs rest : List Char} {c : Char} :
    StartsNowhere pat (c :: cs) rest ↔ ¬ pat <+: c :: (cs ++ rest) ∧ StartsNowhere pat cs rest := by
  constructor
  · intro h
    exact ⟨h 0 (Nat.zero_lt_succ _), fun k hk => h (k + 1) (Nat.succ_lt_succ hk)⟩
  · rintro ⟨hc, hcs⟩ (_ | k) hk
    · exact hc
    · exact hcs k (Nat.lt_of_succ_lt_succ hk)

/-- A text is cut at the first occurrence. -/
theorem go_cutChars_append {pat cs rest : List Char} (h : StartsNowhere pat cs (pat ++ rest)) :
    ∀ before : List Char, cutChars.go pat before (cs ++ (pat ++ rest)) =
      some (before.reverse ++ cs, rest) := by
  induction cs with
  | nil =>
    intro before
    rw [List.nil_append, List.append_nil]
    cases hp : pat ++ rest with
    | nil =>
      obtain ⟨rfl, rfl⟩ := List.append_eq_nil_iff.mp hp
      rfl
    | cons c r =>
      have hpre : pat.isPrefixOf (c :: r) = true := by
        rw [← hp]
        exact List.isPrefixOf_iff_prefix.mpr (List.prefix_append _ _)
      rw [cutChars.go, if_pos hpre, ← hp, List.drop_left]
  | cons c cs ih =>
    intro before
    obtain ⟨hc, hcs⟩ := startsNowhere_cons.mp h
    rw [List.cons_append, cutChars.go, if_neg (by rwa [List.isPrefixOf_iff_prefix]), ih hcs]
    simp

theorem cutChars_append {pat cs rest : List Char} (h : StartsNowhere pat cs (pat ++ rest)) :
    cutChars pat (cs ++ (pat ++ rest)) = some (cs, rest) := go_cutChars_append h []

/-- A text without an occurrence is not cut. -/
theorem cutChars_eq_none {pat cs : List Char} (hne : pat ≠ []) (h : StartsNowhere pat cs []) :
    cutChars pat cs = none := by
  suffices hgo : ∀ before, cutChars.go pat before cs = none from hgo []
  induction cs with
  | nil => exact fun before => if_neg (by simpa using hne)
  | cons c cs ih =>
    obtain ⟨hc, hcs⟩ := startsNowhere_cons.mp h
    rw [List.append_nil] at hc
    intro before
    rw [cutChars.go, if_neg (by rwa [List.isPrefixOf_iff_prefix]), ih hcs]

/-- A text has no occurrence, or a first one. -/
theorem startsNowhere_or (pat cs : List Char) : StartsNowhere pat cs [] ∨
    ∃ before after, cs = before ++ (pat ++ after) ∧ StartsNowhere pat before (pat ++ after) := by
  induction cs with
  | nil => exact .inl (startsNowhere_nil _ _)
  | cons c cs ih =>
    by_cases hp : pat <+: c :: cs
    · obtain ⟨after, hafter⟩ := hp
      exact .inr ⟨[], after, hafter.symm, startsNowhere_nil _ _⟩
    · rcases ih with hcs | ⟨before, after, rfl, hbefore⟩
      · exact .inl (startsNowhere_cons.mpr ⟨by rwa [List.append_nil], hcs⟩)
      · exact .inr ⟨c :: before, after, rfl, startsNowhere_cons.mpr ⟨hp, hbefore⟩⟩

end Text

namespace Config

open Text

/-! ### The grammar -/

/-- A piece of a configuration text: literal text, or an expression by what stands between its
braces. -/
inductive Piece
  | literal (cs : List Char)
  | expression (e : List Char)

/-- The end of a text in which an expression is opened and not closed, by what follows its brace. -/
def openEnd (tail : Option (List Char)) : List Char := (tail.map (expressionMarker ++ ·)).getD []

/-- **The grammar.** A text is spelled by pieces and maybe an open end: no expression starts in a
literal text, joined with what follows it, and no brace closes within an expression or after an open
end. -/
inductive Spells : List Piece → Option (List Char) → List Char → Prop
  | nil : Spells [] none []
  | openEnd {e : List Char} (he : '\x7d' ∉ e) : Spells [] (some e) (expressionMarker ++ e)
  | literal {cs rest : List Char} {ps : List Piece} {tail : Option (List Char)}
      (hcs : StartsNowhere expressionMarker cs rest) (hrest : Spells ps tail rest) :
      Spells (.literal cs :: ps) tail (cs ++ rest)
  | expression {e rest : List Char} {ps : List Piece} {tail : Option (List Char)} (he : '\x7d' ∉ e)
      (hrest : Spells ps tail rest) :
      Spells (.expression e :: ps) tail (expressionMarker ++ (e ++ '\x7d' :: rest))

/-- What divides the name in an expression from its default. -/
def defaultMarker : List Char := [':', '-']

/-- The variable that a name in an expression refers to. -/
def variableOf (name : List Char) : String := String.ofList (trimChars name)

/-- An expression is divided at the first marker into a name and a default. -/
def Divides (e name default : List Char) : Prop :=
  e = name ++ (defaultMarker ++ default) ∧
    StartsNowhere defaultMarker name (defaultMarker ++ default)

/-- A variable is set to a text. -/
def Environment.Holds (env : Environment) (name v : String) : Prop :=
  env.values.lookup name = some (encode v)

/-- The variable for the home directory is not set, or empty. -/
def Environment.LacksHome (env : Environment) : Prop :=
  ∀ path, env.values.lookup "HOME" = some path → path = []

/-- How a system finds the home directory of its user: by the variable for it, whatever its bytes
are, and where this is not set or empty by the user's account, which may have none. -/
structure Environment.FindsHome (account? : Option (List UInt8)) (env : Environment) : Prop where
  ofVariable : ∀ path, env.values.lookup "HOME" = some path → path ≠ [] →
    env.home? = some (lossy path)
  ofAccount : env.LacksHome → env.home? = account?.map lossy

/-- **What a piece stands for.** Literal text stands for itself. An expression without a default
stands for the value of its variable if that is set, and else for itself. One with a default stands
for the value if that is set and not empty, and else for the default, in which the home directory
takes the place of a tilde at the start. -/
inductive Piece.StandsFor (env : Environment) : Piece → List Char → Prop
  | literal (cs : List Char) : StandsFor env (.literal cs) cs
  | value {e : List Char} {v : String} (he : StartsNowhere defaultMarker e [])
      (hv : env.Holds (variableOf e) v) : StandsFor env (.expression e) v.toList
  | unset {e : List Char} (he : StartsNowhere defaultMarker e []) (hv : ∀ v,
      ¬ env.Holds (variableOf e) v) :
      StandsFor env (.expression e) (expressionMarker ++ (e ++ ['\x7d']))
  | filled {e name default : List Char} {v : String} (he : Divides e name default)
      (hv : env.Holds (variableOf name) v) (hne : v ≠ "") : StandsFor env (.expression e) v.toList
  | default {e name default : List Char} (he : Divides e name default)
      (hv : ∀ v, env.Holds (variableOf name) v → v = "")
      (hd : default.head? = some '~' → env.home? = none) :
      StandsFor env (.expression e) default
  | home {e name default : List Char} {home : String} (he : Divides e name ('~' :: default))
      (hv : ∀ v, env.Holds (variableOf name) v → v = "") (hh : env.home? = some home) :
      StandsFor env (.expression e) (home.toList ++ default)

/-! ### What a piece stands for -/

variable {env : Environment}

/-- The values that are texts are those that can be read. -/
theorem Environment.get?_eq_some_iff {name v : String} :
    env.get? name = some v ↔ env.Holds name v := by
  unfold get? Holds
  rw [Option.bind_eq_some_iff]
  constructor
  · rintro ⟨bs, hbs, hv⟩
    rw [hbs, strict?_eq_some_iff.mp hv]
  · exact fun h => ⟨_, h, strict?_eq_some_iff.mpr rfl⟩

theorem Environment.get?_eq_none_iff {name : String} :
    env.get? name = none ↔ ∀ v, ¬ env.Holds name v := by
  simp only [Option.eq_none_iff_forall_not_mem, Option.mem_def, get?_eq_some_iff]

theorem dropLead?_tilde (cs : List Char) : dropLead? "~" (String.ofList cs) =
    if cs.head? = some '~' then some (String.ofList cs.tail) else none := by
  have hlead : "~".toList = ['~'] := rfl
  unfold dropLead?
  rw [hlead, String.toList_ofList]
  cases cs with
  | nil => rfl
  | cons c cs =>
    by_cases hc : c = '~'
    · subst hc
      rfl
    · simp [List.isPrefixOf, hc, Ne.symm hc]

theorem expandTilde_home {home : String} (hh : env.home? = some home) (cs : List Char) :
    (env.expandTilde (String.ofList ('~' :: cs))).toList = home.toList ++ cs := by
  unfold Environment.expandTilde
  rw [dropLead?_tilde, hh]
  simp

theorem expandTilde_of_no_home {cs : List Char} (h : cs.head? = some '~' → env.home? = none) :
    env.expandTilde (String.ofList cs) = String.ofList cs := by
  unfold Environment.expandTilde
  rw [dropLead?_tilde]
  by_cases ht : cs.head? = some '~'
  · rw [if_pos ht, h ht]
  · rw [if_neg ht]

theorem value?_of_undivided {e : List Char} (he : StartsNowhere defaultMarker e []) :
    Segment.value? env e = env.get? (variableOf e) := by
  have hcut : cutChars [':', '-'] e = none := cutChars_eq_none (List.cons_ne_nil _ _) he
  unfold Segment.value?
  rw [hcut]
  rfl

theorem value?_of_divides {e name default : List Char} (he : Divides e name default) :
    Segment.value? env e = some (((env.get? (variableOf name)).filter fun v => !v.isEmpty).getD
      (env.expandTilde (String.ofList default))) := by
  obtain ⟨rfl, hname⟩ := he
  have hcut : cutChars [':', '-'] (name ++ (defaultMarker ++ default)) = some (name, default) :=
    cutChars_append hname
  unfold Segment.value?
  rw [hcut]
  rfl

/-- Without a value that is not empty the default counts. -/
theorem value?_of_divides_default {e name default : List Char} (he : Divides e name default)
    (hv : ∀ v, env.Holds (variableOf name) v → v = "") :
    Segment.value? env e = some (env.expandTilde (String.ofList default)) := by
  have hnone : ((env.get? (variableOf name)).filter fun v => !v.isEmpty) = none :=
    Option.filter_eq_none_iff.mpr fun v hmem => by simp [hv v
      (Environment.get?_eq_some_iff.mp hmem)]
  rw [value?_of_divides he, hnone, Option.getD_none]

/-- The segments that a piece is cut into. -/
def Piece.segments : Piece → List Segment
  | literal cs => cs.map .literal
  | expression e => [.expression e]

/-- The text that replaces a piece. -/
def Piece.expanded (env : Environment) (p : Piece) : List Char :=
  p.segments.flatMap (Segment.expanded env)

@[simp] theorem Piece.expanded_literal (cs : List Char) : (Piece.literal cs).expanded env = cs := by
  unfold Piece.expanded Piece.segments
  rw [List.flatMap_map]
  exact List.flatMap_singleton' cs

theorem Piece.expanded_expression (e : List Char) : (Piece.expression e).expanded env =
    ((Segment.value? env e).map String.toList).getD (expressionMarker ++ (e ++ ['\x7d'])) :=
  List.append_nil _

theorem Piece.StandsFor.eq_expanded {p : Piece} {v : List Char} (h : p.StandsFor env v) :
    v = p.expanded env := by
  cases h with
  | literal cs => rw [expanded_literal]
  | value he hv =>
    rw [expanded_expression, value?_of_undivided he, Environment.get?_eq_some_iff.mpr hv]
    rfl
  | unset he hv =>
    rw [expanded_expression, value?_of_undivided he, Environment.get?_eq_none_iff.mpr hv]
    rfl
  | filled he hv hne =>
    rw [expanded_expression, value?_of_divides he, Environment.get?_eq_some_iff.mpr hv]
    simp [Option.filter, hne]
  | default he hv hd =>
    rw [expanded_expression, value?_of_divides_default he hv, expandTilde_of_no_home hd]
    simp
  | home he hv hh =>
    rw [expanded_expression, value?_of_divides_default he hv, Option.map_some, Option.getD_some,
      expandTilde_home hh]

/-- Every piece stands for something. -/
theorem Piece.exists_standsFor (env : Environment) (p : Piece) : ∃ v, p.StandsFor env v := by
  cases p with
  | literal cs => exact ⟨cs, .literal cs⟩
  | expression e =>
    rcases startsNowhere_or defaultMarker e with he | ⟨name, default, he⟩
    · by_cases hset : ∃ v, env.Holds (variableOf e) v
      · obtain ⟨v, hv⟩ := hset
        exact ⟨_, .value he hv⟩
      · exact ⟨_, .unset he (not_exists.mp hset)⟩
    · by_cases hfilled : ∃ v, env.Holds (variableOf name) v ∧ v ≠ ""
      · obtain ⟨v, hv, hne⟩ := hfilled
        exact ⟨_, .filled he hv hne⟩
      · have hv : ∀ v, env.Holds (variableOf name) v → v = "" := fun v hv =>
          by_contra fun hne => hfilled ⟨v, hv, hne⟩
        by_cases hd : default.head? = some '~' → env.home? = none
        · exact ⟨_, .default he hv hd⟩
        · obtain ⟨htilde, hhome⟩ := Classical.not_imp.mp hd
          obtain ⟨home, hh⟩ := Option.ne_none_iff_exists'.mp hhome
          obtain ⟨rest, rfl⟩ := List.head?_eq_some_iff.mp htilde
          exact ⟨_, .home he hv hh⟩

/-- A default that starts with a tilde, by what the system finds. -/
theorem Environment.FindsHome.standsFor {account? : Option (List UInt8)}
    (h : env.FindsHome account?) {e name default : List Char} (he : Divides e name ('~' :: default))
    (hv : ∀ v, env.Holds (variableOf name) v → v = "") :
    (∀ path, env.values.lookup "HOME" = some path → path ≠ [] →
        Piece.StandsFor env (.expression e) ((lossy path).toList ++ default)) ∧
      (env.LacksHome → Piece.StandsFor env (.expression e)
        (((account?.map fun path => (lossy path).toList).getD ['~']) ++ default)) := by
  refine ⟨fun path hpath hne => .home he hv (h.ofVariable path hpath hne), fun hlacks => ?_⟩
  have hfound := h.ofAccount hlacks
  cases account? with
  | none => exact .default he hv fun _ => hfound
  | some path => exact .home he hv hfound

/-! ### The scan -/

namespace Segment

theorem scan_literal {c : Char} {r : List Char} (h : ¬ expressionMarker <+: c :: r) :
    scan none (c :: r) = literal c :: scan none r := by
  rw [scan]
  rintro r' rfl rfl
  exact h (List.prefix_append expressionMarker r')

theorem scan_literals {cs rest : List Char} (h : StartsNowhere expressionMarker cs rest) :
    scan none (cs ++ rest) = cs.map literal ++ scan none rest := by
  induction cs with
  | nil => rfl
  | cons c cs ih =>
    obtain ⟨hc, hcs⟩ := startsNowhere_cons.mp h
    rw [List.cons_append, scan_literal hc, ih hcs, List.map_cons, List.cons_append]

theorem scan_inside {e : List Char} (he : '\x7d' ∉ e) : ∀ acc rest : List Char,
    scan (some acc) (e ++ rest) = scan (some (e.reverse ++ acc)) rest := by
  induction e with
  | nil => exact fun acc rest => rfl
  | cons c e ih =>
    intro acc rest
    obtain ⟨hc, he⟩ := List.ne_and_not_mem_of_not_mem_cons he
    rw [List.cons_append, scan, ih he]
    · simp
    · exact fun h => hc h.symm

end Segment

/-- **The scan finds the pieces that a text is spelled by.** -/
theorem Spells.scan {ps : List Piece} {tail : Option (List Char)} {cs : List Char}
    (h : Spells ps tail cs) :
    Segment.scan none cs = ps.flatMap Piece.segments ++ (tail.map Segment.unclosed).toList := by
  induction h with
  | nil => rfl
  | @openEnd e he =>
    have hinside := Segment.scan_inside he [] []
    rw [List.append_nil, List.append_nil] at hinside
    show Segment.scan (some []) e = _
    rw [hinside, Segment.scan, List.reverse_reverse]
    rfl
  | literal hcs _ ih =>
    rw [Segment.scan_literals hcs, ih, List.flatMap_cons, List.append_assoc]
    rfl
  | @expression e rest ps tail he _ ih =>
    show Segment.scan (some []) (e ++ '\x7d' :: rest) = _
    rw [Segment.scan_inside he, Segment.scan, ih, List.append_nil, List.reverse_reverse]
    rfl

theorem Spells.cons {c : Char} {ps : List Piece} {tail : Option (List Char)} {cs : List Char}
    (h : Spells ps tail cs) (hc : ¬ expressionMarker <+: c :: cs) :
    Spells (.literal [c] :: ps) tail (c :: cs) :=
  .literal (startsNowhere_cons.mpr ⟨hc, startsNowhere_nil _ _⟩) h

/-- Every text is spelled by pieces. -/
theorem exists_spells (inside? : Option (List Char)) (cs : List Char)
    (h : ∀ e ∈ inside?, '\x7d' ∉ e) : ∃ ps tail, Spells ps tail ((inside?.map fun e =>
      expressionMarker ++ e.reverse).getD [] ++ cs) := by
  fun_induction Segment.scan inside? cs with
  | case1 r ih =>
    obtain ⟨ps, tail, hs⟩ := ih (by simp)
    exact ⟨ps, tail, hs⟩
  | case2 c r hne ih =>
    obtain ⟨ps, tail, hs⟩ := ih (by simp)
    refine ⟨_, tail, hs.cons ?_⟩
    rintro ⟨rest, hrest⟩
    exact hne rest (List.cons.inj hrest).1.symm (List.cons.inj hrest).2.symm
  | case3 => exact ⟨[], none, .nil⟩
  | case4 e r ih =>
    obtain ⟨ps, tail, hs⟩ := ih (by simp)
    refine ⟨.expression e.reverse :: ps, tail, ?_⟩
    have hexpr := Spells.expression (e := e.reverse) (by simpa using h e rfl) hs
    simpa using hexpr
  | case5 e c r hc ih =>
    obtain ⟨ps, tail, hs⟩ := ih (by
      rintro e' ⟨⟩
      exact List.not_mem_cons_of_ne_of_not_mem (fun heq => hc heq.symm) (h e rfl))
    exact ⟨ps, tail, by simpa using hs⟩
  | case6 e =>
    refine ⟨[], some e.reverse, ?_⟩
    have hend := Spells.openEnd (e := e.reverse) (by simpa using h e rfl)
    simpa using hend

/-! ### Expanding a text -/

/-- A complete expression stands in a text: it is opened, and a brace closes later. -/
def HasExpression (s : String) : Prop :=
  ∃ before e after, s.toList = before ++ (expressionMarker ++ (e ++ '\x7d' :: after))

theorem hasExpression_of_mem {s : String} {e : List Char} (h : .expression e ∈ Segment.ofText s) :
    HasExpression s := by
  obtain ⟨before, after, hsplit⟩ := List.append_of_mem h
  refine ⟨before.flatMap Segment.written, e, after.flatMap Segment.written, ?_⟩
  rw [← Segment.flatMap_written_ofText, hsplit, List.flatMap_append, List.flatMap_cons]
  simp [Segment.written, expressionMarker]

/-- A text without a complete expression is left as it is. -/
theorem expand_of_no_expression {s : String} (h : ¬ HasExpression s) : expand env s = s := by
  have hkept : (Segment.ofText s).flatMap (Segment.expanded env) =
      (Segment.ofText s).flatMap Segment.written := by
    refine List.flatMap_congr fun seg hseg => ?_
    cases seg with
    | literal c => rfl
    | expression e => exact absurd (hasExpression_of_mem hseg) h
    | unclosed e => rfl
  unfold expand
  rw [hkept, Segment.flatMap_written_ofText, String.ofList_toList]

/-- **A text is expanded by its grammar.** Every text is literal text with expressions in between,
and maybe an open end. However it is read so, its expansion is what the pieces stand for, one after
another, and the open end as it is written: literal text is neither changed nor lost, and a text
that comes from a variable is not looked into. Every piece stands for exactly one text. A tilde at
the start of a default gives way to the directory that the variable for it names, or else to that of
the user's account, and stays if there is neither. A text without a complete expression is returned
as it is. -/
theorem expand_by_grammar (env : Environment) (s : String) :
    (∃ ps tail, Spells ps tail s.toList) ∧
      (∀ ps tail vs, Spells ps tail s.toList → List.Forall₂ (Piece.StandsFor env) ps vs →
        (expand env s).toList = vs.flatten ++ openEnd tail) ∧
      (∀ p : Piece, ∃! v, p.StandsFor env v) ∧
      (∀ account?, env.FindsHome account? → ∀ e name default, Divides e name ('~' :: default) →
        (∀ v, env.Holds (variableOf name) v → v = "") →
          (∀ path, env.values.lookup "HOME" = some path → path ≠ [] →
            Piece.StandsFor env (.expression e) ((lossy path).toList ++ default)) ∧
          (env.LacksHome → Piece.StandsFor env (.expression e)
            (((account?.map fun path => (lossy path).toList).getD ['~']) ++ default))) ∧
      (¬ HasExpression s → expand env s = s) := by
  refine ⟨exists_spells none s.toList (by simp), fun ps tail vs hs hvs => ?_, fun p => ?_,
    fun _ h _ _ _ he hv => h.standsFor he hv, expand_of_no_expression⟩
  · have hmap : vs = ps.map (Piece.expanded env) := by
      rw [← List.forall₂_eq_eq_eq, List.forall₂_map_right_iff]
      exact (hvs.imp fun _ _ h => h.eq_expanded).flip
    have hend : (tail.map Segment.unclosed).toList.flatMap (Segment.expanded env) =
        openEnd tail := by
      cases tail with
      | none => rfl
      | some e => exact List.append_nil _
    unfold expand Segment.ofText
    rw [String.toList_ofList, hs.scan, List.flatMap_append, hend, hmap, List.flatMap_assoc,
      ← List.flatMap_def]
    rfl
  · obtain ⟨v, hv⟩ := p.exists_standsFor env
    exact ⟨v, hv, fun v' hv' => hv'.eq_expanded.trans hv.eq_expanded.symm⟩

/-- A user without the variable for the home directory, and a variable that is no text. -/
def bareEnvironment : Environment := ⟨[("RAW", [0xFF])], some "/home/me"⟩

/-- The default counts, with the directory of the account, and without a default the expression
stays. -/
theorem expand_by_grammar_account : bareEnvironment.FindsHome (some (encode "/home/me")) ∧
    (expand bareEnvironment "$\x7bRAW:-~/db\x7d $\x7bRAW\x7d").toList =
      "/home/me/db $\x7bRAW\x7d".toList := by
  have hunset : bareEnvironment.values.lookup "HOME" = none := rfl
  have hlacks : bareEnvironment.LacksHome := fun path h => by
    rw [hunset] at h
    cases h
  have hfinds : bareEnvironment.FindsHome (some (encode "/home/me")) := by
    refine ⟨fun path h hne => absurd (hlacks path h) hne, fun _ => ?_⟩
    rw [Option.map_some, lossy_encode]
    rfl
  have hraw : ∀ v, ¬ bareEnvironment.Holds "RAW" v :=
    Environment.get?_eq_none_iff.mp (by decide +kernel)
  obtain ⟨-, hexpand, -, hhome, -⟩ :=
    expand_by_grammar bareEnvironment "$\x7bRAW:-~/db\x7d $\x7bRAW\x7d"
  have hdefault := (hhome _ hfinds "RAW:-~/db".toList "RAW".toList "/db".toList
    ⟨rfl, by unfold StartsNowhere; decide⟩ fun v hv => absurd hv (hraw v)).2 hlacks
  have hkept : Piece.StandsFor bareEnvironment (.expression "RAW".toList) "$\x7bRAW\x7d".toList :=
    .unset (by unfold StartsNowhere; decide) hraw
  refine ⟨hfinds, ?_⟩
  rw [hexpand [.expression "RAW:-~/db".toList, .literal [' '], .expression "RAW".toList] none _
    (.expression (by decide) (@Spells.literal [' '] _ _ _ (by unfold StartsNowhere; decide)
      (.expression (by decide) .nil))) (.cons hdefault (.cons (.literal _) (.cons hkept .nil)))]
  rw [Option.map_some, lossy_encode]
  rfl

/-- An expression that a variable brings in stays as it is. -/
example : expand ⟨[("A", encode "$\x7bB\x7d"), ("B", encode "b")], none⟩
    "$\x7bA\x7d $\x7bB:-d\x7d $\x7b" =
    "$\x7bB\x7d b $\x7b" := by decide +kernel

end Config

end ChatRelay
