import ChatRelay.Proofs.Config.Placeholders
import ChatRelay.Proofs.Startup.Credentials

/-! # Live endpoints in normal form

An endpoint is made from a URL and a key that are trimmed and are no placeholders; then the slashes
at the end of the URL are dropped. The last step can undo what the first has established. Of a URL
of slashes nothing is left, and a blank before the last slashes comes to stand at the end. These are
the only ways: a marker cannot appear when characters are dropped (`isPlaceholder_bare`). So an
endpoint is in normal form if and only if the URL that it is made from is rooted
(`normal_iff_rooted`), and just then its own values give it again (`again_iff_normal`). -/

namespace ChatRelay

open Text

namespace Completion.Endpoint

/-- A URL without the slashes at its end. -/
def bare (url : String) : String := dropEnd (· == '/') (trim url)

/-- Before its last slashes a URL has a character that is not blank. -/
def Rooted (url : String) : Prop :=
  ∃ root c n, (trim url).toList = root ++ c :: List.replicate n '/' ∧ c ≠ '/' ∧ isBlank c = false

/-- Neither value is blank or a placeholder, neither has blanks at its ends, and the URL does not
end with a slash. -/
structure Normal (e : Endpoint) : Prop where
  urlReal : isPlaceholder e.baseUrl = false
  urlTrimmed : trim e.baseUrl = e.baseUrl
  urlOpen : ∀ c ∈ e.baseUrl.toList.getLast?, c ≠ '/'
  keyReal : isPlaceholder e.apiKey = false
  keyTrimmed : trim e.apiKey = e.apiKey

/-! ### What is dropped from a URL -/

section bare

variable (url : String)

theorem toList_bare : (bare url).toList = (trim url).toList.rdropWhile (· == '/') := by
  unfold bare dropEnd
  exact String.toList_ofList

theorem bare_prefix_trim : (bare url).toList <+: (trim url).toList := by
  rw [toList_bare]
  exact List.rdropWhile_prefix _ _

/-- A trimmed URL is what is left of it, and slashes. -/
theorem toList_trim_eq : ∃ n, (trim url).toList = (bare url).toList ++ List.replicate n '/' := by
  rw [toList_bare]
  refine ⟨((trim url).toList.rtakeWhile (· == '/')).length, ?_⟩
  have hslashes : (trim url).toList.rtakeWhile (· == '/') =
      List.replicate ((trim url).toList.rtakeWhile (· == '/')).length '/' :=
    List.eq_replicate_of_mem fun c hc => by simpa using List.mem_rtakeWhile_imp hc
  rw [← hslashes, List.rdropWhile_append_rtakeWhile]

theorem bare_open {c : Char} (hc : c ∈ (bare url).toList.getLast?) : c ≠ '/' := by
  rw [toList_bare] at hc
  have hne : (trim url).toList.rdropWhile (· == '/') ≠ [] := by
    intro h
    rw [h] at hc
    cases hc
  have hlast := List.rdropWhile_last_not (· == '/') _ hne
  rw [List.getLast?_eq_some_getLast hne, Option.mem_some_iff] at hc
  rw [hc] at hlast
  simpa using hlast

/-- What is left of a URL does not start with a blank. -/
theorem bare_head {c : Char} (hc : c ∈ (bare url).toList.head?) : isBlank c = false := by
  obtain ⟨rest, hrest⟩ := bare_prefix_trim url
  have hhead : c ∈ (trim url).toList.head? := by
    rw [← hrest, List.head?_append]
    rw [Option.mem_def] at hc ⊢
    rw [hc]
    rfl
  unfold trim at hhead
  rw [String.toList_ofList] at hhead
  exact (ends_trimChars url.toList).1 c hhead

/-- What is left of a URL is blank just if nothing is left. -/
theorem isBlankText_bare : isBlankText (bare url) = true ↔ (bare url).toList = [] := by
  have hhead (c : Char) : c ∈ (bare url).toList.head? → isBlank c = false := bare_head url
  unfold isBlankText
  cases hcs : (bare url).toList with
  | nil => exact iff_of_true rfl rfl
  | cons c cs =>
    rw [hcs] at hhead
    simp [hhead c rfl]

/-- What is left of a URL that is no placeholder is no placeholder either, if anything is left. -/
theorem isPlaceholder_bare {url : String} (h : isPlaceholder url = false) :
    isPlaceholder (bare url) = isBlankText (bare url) := by
  rw [Bool.eq_iff_iff, isPlaceholder_iff]
  refine ⟨fun hreal => hreal.elim id ?_, .inl⟩
  rintro ⟨marker, hmem, hin⟩
  have hsub : (trim (bare url)).toList <:+: (trim url).toList := by
    refine List.IsInfix.trans ?_ (bare_prefix_trim url).isInfix
    conv_lhs => unfold trim
    rw [String.toList_ofList]
    exact trimChars_isInfix _
  have hurl : isPlaceholder url = true := by
    refine isPlaceholder_iff.mpr (.inr ⟨marker, hmem, hin.trans ?_⟩)
    rw [toList_asciiLower, toList_asciiLower]
    exact hsub.map Char.toLower
  rw [h] at hurl
  cases hurl

/-- What is left of a URL is trimmed just if it does not end with a blank. -/
theorem trim_bare_iff : trim (bare url) = bare url ↔
    ∀ c ∈ (bare url).toList.getLast?, isBlank c = false := by
  have hhead (c : Char) : c ∈ (bare url).toList.head? → isBlank c = false := bare_head url
  rw [← String.toList_inj]
  unfold trim
  rw [String.toList_ofList]
  exact trimChars_eq_self_iff.trans (and_iff_right hhead)

theorem rooted_iff : Rooted url ↔ ∃ c ∈ (bare url).toList.getLast?, isBlank c = false := by
  constructor
  · rintro ⟨root, c, n, hurl, hc, hblank⟩
    have hbare : (bare url).toList = root ++ [c] := by
      have hslashes : ∀ d ∈ List.replicate n '/', (d == '/') = true := fun d hd => by
        simpa using (List.mem_replicate.mp hd).2
      have hsplit : root ++ c :: List.replicate n '/' =
        root ++ [c] ++ List.replicate n '/' := by simp
      rw [toList_bare, hurl, hsplit, rdropWhile_append_of_all hslashes]
      exact List.rdropWhile_concat_neg _ _ _ (by simpa using hc)
    exact ⟨c, by rw [hbare, List.getLast?_concat, Option.mem_some_iff], hblank⟩
  · rintro ⟨c, hc, hblank⟩
    obtain ⟨n, hn⟩ := toList_trim_eq url
    have hopen : c ≠ '/' := bare_open url hc
    obtain ⟨root, hroot⟩ := List.getLast?_eq_some_iff.mp hc
    exact ⟨root, c, n, by rw [hn, hroot, List.append_assoc, List.singleton_append], hopen, hblank⟩

end bare

/-! ### Endpoints in normal form -/

variable {baseUrl apiKey : Option String} {e : Endpoint}

/-- What an endpoint always has: its key is as it should be, and its URL neither starts with a blank
nor ends with a slash, and is no placeholder unless it is empty. -/
structure Partial (e : Endpoint) : Prop where
  keyReal : isPlaceholder e.apiKey = false
  keyTrimmed : trim e.apiKey = e.apiKey
  urlOpen : ∀ c ∈ e.baseUrl.toList.getLast?, c ≠ '/'
  urlStart : ∀ c ∈ e.baseUrl.toList.head?, isBlank c = false
  urlReal : e.baseUrl ≠ "" → isPlaceholder e.baseUrl = false

theorem partial_of_some (he : Endpoint.of? baseUrl apiKey = some e) : e.Partial := by
  obtain ⟨url, key, ⟨-, hurl⟩, ⟨-, hkey⟩, rfl⟩ := of?_eq_some_iff.mp he
  refine ⟨(isPlaceholder_trim key).trans hkey, trim_trim key, fun c => bare_open url, fun c =>
    bare_head url, fun hne => ?_⟩
  show isPlaceholder (bare url) = false
  rw [isPlaceholder_bare hurl, ← Bool.not_eq_true, isBlankText_bare, String.toList_eq_nil_iff]
  exact hne

/-- **An endpoint is in normal form just if its URL is made from a rooted one.** -/
theorem normal_iff_rooted (he : Endpoint.of? baseUrl apiKey = some e) :
    e.Normal ↔ ∃ url ∈ baseUrl, Rooted url := by
  have hpartial := partial_of_some he
  obtain ⟨url, key, ⟨rfl, hurl⟩, -, rfl⟩ := of?_eq_some_iff.mp he
  have hrooted : (∃ u ∈ some url, Rooted u) ↔
      ∃ c ∈ (bare url).toList.getLast?, isBlank c = false := by
    simp [rooted_iff]
  rw [hrooted]
  constructor
  · intro hnormal
    have hlast := (trim_bare_iff url).mp hnormal.urlTrimmed
    have hne : (bare url).toList ≠ [] := fun hnil => by
      have hreal : isPlaceholder (bare url) = false := hnormal.urlReal
      rw [isPlaceholder_bare hurl, (isBlankText_bare url).mpr hnil] at hreal
      cases hreal
    exact ⟨_, List.getLast?_eq_some_getLast hne, hlast _ (List.getLast?_eq_some_getLast hne)⟩
  · rintro ⟨c, hc, hblank⟩
    refine ⟨hpartial.urlReal fun hempty => ?_, (trim_bare_iff url).mpr fun d hd =>
      ?_, hpartial.urlOpen, hpartial.keyReal, hpartial.keyTrimmed⟩
    · have hnil : bare url = "" := hempty
      rw [hnil] at hc
      cases hc
    · rw [Option.mem_def] at hc hd
      rw [hc, Option.some.injEq] at hd
      exact hd ▸ hblank

/-- A URL that stays as it is when it is trimmed and its last slashes are dropped. -/
theorem trim_of_bare {url : String} (h : bare url = url) : trim url = url := by
  obtain ⟨n, hn⟩ := toList_trim_eq url
  have hle := (trimChars_isInfix url.toList).length_le
  have htrim : trimChars url.toList = url.toList ++ List.replicate n '/' := by
    unfold trim at hn
    rwa [String.toList_ofList, h] at hn
  rw [htrim, List.length_append, List.length_replicate] at hle
  have hn0 : n = 0 := by omega
  rw [← String.toList_inj, hn, hn0, h, List.replicate_zero, List.append_nil]

theorem bare_eq_self {url : String} (htrim : trim url = url)
    (hopen : ∀ c ∈ url.toList.getLast?, c ≠ '/') : bare url = url := by
  rw [← String.toList_inj, toList_bare, htrim]
  refine List.rdropWhile_eq_self_iff.mpr fun hne => ?_
  simpa using hopen _ (List.getLast?_eq_some_getLast hne)

/-- **An endpoint is in normal form just if its own values give it again.** -/
theorem again_iff_normal : Endpoint.of? (some e.baseUrl) (some e.apiKey) = some e ↔ e.Normal := by
  rw [of?_eq_some_iff]
  constructor
  · rintro ⟨url, key, ⟨hurl, hreal⟩, ⟨hkey, hreal'⟩, heq⟩
    cases hurl
    cases hkey
    have hvalues := Endpoint.mk.inj (show Endpoint.mk e.baseUrl e.apiKey =
      ⟨bare e.baseUrl, trim e.apiKey⟩ from heq)
    refine ⟨hreal, trim_of_bare hvalues.1.symm, fun c hc =>
      bare_open e.baseUrl ?_, hreal', hvalues.2.symm⟩
    rwa [← hvalues.1]
  · intro hnormal
    refine ⟨_, _, ⟨rfl, hnormal.urlReal⟩, ⟨rfl, hnormal.keyReal⟩, ?_⟩
    have hbare := bare_eq_self hnormal.urlTrimmed hnormal.urlOpen
    show e = ⟨bare e.baseUrl, trim e.apiKey⟩
    rw [hbare, hnormal.keyTrimmed]

end Completion.Endpoint

/-! ### Settings -/

namespace Startup

open Completion Config Turn

/-- Settings with a URL and a key. -/
def withEndpoint (s : Settings) (url key : String) : Settings :=
  { s with baseUrl := some url, apiKey := some key }

theorem mode_eq_simulated_iff {σ : Type} (l : Launched) (network : Web.Network σ) :
    l.mode network = .simulated ↔ l.settings.endpoint? = none := by
  refine ⟨fun hmode => ?_, Launched.mode_eq_simulated⟩
  cases he : l.settings.endpoint? with
  | none => rfl
  | some e =>
    unfold Launched.mode at hmode
    rw [he] at hmode
    cases hmode

/-- **Live endpoints and their normal form.** A live endpoint has a key in normal form and a URL
that is no placeholder, starts with no blank and ends with no slash, as long as anything is left of
it. All of it is in normal form just if the configured URL is rooted, and just then settings with
the endpoint's own values have the same endpoint. Without a live endpoint completions are simulated,
and only then. -/
theorem live_endpoint_normal_iff (s : Settings) :
    (∀ e, s.endpoint? = some e → e.Partial ∧ (e.Normal ↔ ∃ url ∈ s.baseUrl, Endpoint.Rooted url) ∧
        (e.Normal ↔ (withEndpoint s e.baseUrl e.apiKey).endpoint? = some e)) ∧
      ∀ (σ : Type) (network : Web.Network σ) (store : Session.Store) (address : Web.SocketAddress),
        (Launched.mk s store address).mode network = .simulated ↔ s.endpoint? = none :=
  ⟨fun _ he => ⟨Endpoint.partial_of_some he, Endpoint.normal_iff_rooted he,
    Endpoint.again_iff_normal.symm⟩, fun _ network store address =>
      mode_eq_simulated_iff ⟨s, store, address⟩ network⟩

theorem live_endpoint_normal_iff_padded : ∃ e,
    (withEndpoint {} " https://api.openai.com/v1/ " " sk-real ").endpoint? = some e ∧ e.Normal ∧
      (withEndpoint {} e.baseUrl e.apiKey).endpoint? = some e := by
  have he : (withEndpoint {} " https://api.openai.com/v1/ " " sk-real ").endpoint? =
      some ⟨"https://api.openai.com/v1", "sk-real"⟩ := by decide +kernel
  have hrooted : Endpoint.Rooted " https://api.openai.com/v1/ " :=
    ⟨"https://api.openai.com/v".toList, '1', 1, by decide +kernel, by decide, by decide +kernel⟩
  obtain ⟨-, hnormal, hagain⟩ := (live_endpoint_normal_iff _).1 _ he
  have hn := hnormal.mpr ⟨_, rfl, hrooted⟩
  exact ⟨_, he, hn, hagain.mp hn⟩

/-- **Dropped slashes leave a blank URL or a blank at its end.** Slashes alone give an endpoint with
an empty URL, which would be none if it were configured; and a blank before the last slash stays,
and is only trimmed the next time. -/
theorem dropped_slashes_leave_blanks :
    (withEndpoint {} "///" "k").endpoint? = some ⟨"", "k"⟩ ∧ isPlaceholder "" = true ∧
      (withEndpoint {} "" "k").endpoint? = none ∧
      (withEndpoint {} "https://h /" "k").endpoint? = some ⟨"https://h ", "k"⟩ ∧
      trim "https://h " ≠ "https://h " ∧
      (withEndpoint {} "https://h " "k").endpoint? = some ⟨"https://h", "k"⟩ := by
  decide +kernel

end Startup

end ChatRelay
