import ChatRelay.Startup.Relay
import ChatRelay.Proofs.Config.Placeholders
import ChatRelay.Proofs.Turn.Effects

/-! # Credentials that are sent

A relay sends web requests for completions, with the key of its endpoint, and for its tools: for
pages, without a key, and for searches, with the search key. Who keeps a log of web requests outside
(`WebLog`) therefore finds after a turn only requests that the settings allow.

The two keys are looked at differently. Without a usable URL and key completions are simulated, and
a placeholder is not usable. A search is simulated only if its key is missing or blank: a search key
that is a placeholder and not blank is sent. -/

namespace ChatRelay.Startup

open Completion Config Tools Turn

variable {σ : Type}

/-! ### The log of web requests -/

/-- The parties outside keep a log of the web requests they get; the bridge has no part in it. -/
structure WebLog (network : Web.Network σ) (bridge : Bridge.ToolBridge σ)
    (log : σ → List Web.Request) : Prop where
  send : ∀ r s, log (network.send r s).2 = log s ++ [r]
  list : ∀ s, log (bridge.list s).2 = log s
  call : ∀ name arguments s, log (bridge.call name arguments s).2 = log s

/-- From the first world to the second, only requests of a kind were logged. -/
def Logged (log : σ → List Web.Request) (kind : Web.Request → Prop) (w w' : World σ) : Prop :=
  ∃ sent, log w'.outside = log w.outside ++ sent ∧ ∀ r ∈ sent, kind r

namespace Logged

variable {log : σ → List Web.Request} {kind : Web.Request → Prop} {u v w : World σ}

theorem of_eq (h : log v.outside = log u.outside) : Logged log kind u v :=
  ⟨[], by simp [h], by simp⟩

theorem trans (h : Logged log kind u v) (h' : Logged log kind v w) : Logged log kind u w := by
  obtain ⟨sent, hlog, hkind⟩ := h
  obtain ⟨more, hlog', hkind'⟩ := h'
  refine ⟨sent ++ more, by rw [hlog', hlog, List.append_assoc], fun r hr => ?_⟩
  exact (List.mem_append.mp hr).elim (hkind r) (hkind' r)

theorem of_send {network : Web.Network σ} {bridge : Bridge.ToolBridge σ}
    (hl : WebLog network bridge log) {r : Web.Request}
    (hr : kind r) : (Act.ask (network.send r)).Respects (Logged log kind) :=
  fun w => ⟨[r], hl.send r w.outside, by simpa using hr⟩

end Logged

/-! ### What settings allow -/

/-- The web requests of tools: for a page, or for a search with a key that is not blank. -/
inductive ToolRequest (s : Settings) : Web.Request → Prop
  | page (url : String) : ToolRequest s ⟨"GET", url, [], none⟩
  | search {key : String} (hkey : s.searchKey = some key) (full : Text.isBlankText key = false)
      (query : String) (count : Nat) :
      ToolRequest s (searchRequest (s.searchEndpoint.getD defaultSearchEndpoint) query key count)

/-- The web requests for completions: to a URL and with a key that are no placeholders. -/
inductive CompletionRequest (s : Settings) : Web.Request → Prop
  | post {url key : String} (hurl : s.baseUrl = some url) (real : isPlaceholder url = false)
      (hkey : s.apiKey = some key) (real' : isPlaceholder key = false) (r : Request) :
      CompletionRequest s (Endpoint.webRequest
        ⟨Text.dropEnd (· == '/') (Text.trim url), Text.trim key⟩ r)

namespace Launched

variable {network : Web.Network σ} {bridge : Bridge.ToolBridge σ} {log : σ →
  List Web.Request} {l : Launched}

theorem mode_eq_simulated (h : l.settings.endpoint? = none) : l.mode network = .simulated := by
  unfold mode
  rw [h]

theorem endpoint_of_mode {provider : Provider σ} (h : l.mode network = .live provider) :
    ∃ e, l.settings.endpoint? = some e ∧ provider = e.provider network := by
  unfold mode at h
  cases he : l.settings.endpoint? with
  | none => rw [he] at h; cases h
  | some e =>
    rw [he] at h
    cases h
    exact ⟨e, rfl, rfl⟩

theorem searchKey_handler {key : String} :
    (l.handler network bridge).executor.searchKey = some key ↔
    l.settings.searchKey = some key ∧ Text.isBlankText key = false := by
  simp [handler, Executor.new, Option.filter_eq_some_iff, Text.isEmpty_trim]

theorem toolRequest_of_sends {r : Web.Request} (h : (l.handler network bridge).executor.Sends r) :
    ToolRequest l.settings r := by
  cases h with
  | page url => exact .page url
  | search hkey query count =>
    obtain ⟨hkey, full⟩ := searchKey_handler.mp hkey
    exact .search hkey full query count

theorem completionRequest_of_endpoint {e : Endpoint} (h : l.settings.endpoint? = some e)
    (r : Request) : CompletionRequest l.settings (e.webRequest r) := by
  obtain ⟨url, key, ⟨hurl, real⟩, ⟨hkey, real'⟩, rfl⟩ := Settings.endpoint?_eq_some_iff.mp h
  exact .post hurl real hkey real' r

/-- A handler sends requests of a kind only, if that is so of its tools and of the endpoint it
has. -/
theorem respectful_logged (hl : WebLog network bridge log) {kind : Web.Request → Prop}
    (tools : ∀ r, ToolRequest l.settings r → kind r)
    (completions : ∀ r, CompletionRequest l.settings r → kind r) :
    (l.handler network bridge).Respectful (Logged log kind) where
  tools :=
    { refl := fun w => .of_eq rfl
      trans := .trans
      draw := fun _ w => .of_eq rfl
      send := fun r hr => .of_send hl (tools r (toolRequest_of_sends hr))
      list := fun w => .of_eq (hl.list w.outside)
      call := fun name arguments w => .of_eq (hl.call name arguments w.outside) }
  complete hmode r := by
    obtain ⟨e, he, rfl⟩ := endpoint_of_mode hmode
    exact Logged.of_send hl (completions _ (completionRequest_of_endpoint he _))
  stream hmode r := by
    obtain ⟨e, he, rfl⟩ := endpoint_of_mode hmode
    exact Logged.of_send hl (completions _ (completionRequest_of_endpoint he _))

/-! ### Searches -/

/-- The query of a search. -/
def queryOf (arguments : Json.Object) : String :=
  (textArgument? arguments "query").getD "latest news"

theorem execute_search (x : Executor σ) (arguments : Json.Object) (w : World σ) :
    (x.execute searchTool arguments).run w =
      (Executor.toResult ((x.search arguments).run w).1, ((x.search arguments).run w).2) := rfl

theorem search_keyless {x : Executor σ} {arguments : Json.Object}
    (noUrl : textArgument? arguments "url" = none) (hkey : x.searchKey = none) (w : World σ) :
    (x.execute searchTool arguments).run w =
      (.content (simulatedSearch (queryOf arguments)), w) := by
  rw [execute_search]
  unfold Executor.search
  rw [noUrl, hkey]
  rfl

theorem search_keyed {x : Executor σ} {arguments : Json.Object}
    (noUrl : textArgument? arguments "url" = none) {key : String} (hkey : x.searchKey = some key)
    (w : World σ) :
    ((x.execute searchTool arguments).run w).2.outside =
      (x.network.send (searchRequest x.searchEndpoint (queryOf arguments) key
        (resultCount arguments))
        w.outside).2 := by
  rw [execute_search]
  unfold Executor.search
  rw [noUrl, hkey]
  dsimp only
  rw [Act.run_bind, Act.run_ask]
  split <;> rfl

/-- A search is simulated just if its key is missing or blank, and else carries its key. -/
theorem search_simulated_iff (hl : WebLog network bridge log) {arguments : Json.Object}
    (noUrl : textArgument? arguments "url" = none) (w : World σ) :
    ((l.handler network bridge).executor.execute searchTool arguments).run w =
        (.content (simulatedSearch (queryOf arguments)), w) ↔
      ∀ key ∈ l.settings.searchKey, Text.isBlankText key = true := by
  cases hkey : (l.handler network bridge).executor.searchKey with
  | none =>
    refine iff_of_true (search_keyless noUrl hkey w) fun key hset => ?_
    by_contra full
    rw [searchKey_handler.mpr ⟨hset, by simpa using full⟩] at hkey
    cases hkey
  | some key =>
    obtain ⟨hset, full⟩ := searchKey_handler.mp hkey
    refine iff_of_false (fun same => ?_) fun blank => by simp [blank key hset] at full
    have sent := search_keyed noUrl hkey w
    rw [same] at sent
    have logged := hl.send (searchRequest (l.handler network bridge).executor.searchEndpoint
      (queryOf arguments) key (resultCount arguments)) w.outside
    have grown := congrArg List.length ((congrArg log sent).trans logged)
    simp at grown

/-- **What credentials a relay sends.** Every request of a turn is one that the settings allow.
Without a usable URL or key for completions they are simulated, and only tools send requests. A
search without a URL is simulated just if its key is missing or blank, so a placeholder among the
search keys is sent unless it is blank. An expression without a value is left as it was written, and
every value that contains it is a placeholder. -/
theorem credentials_sent (hl : WebLog network bridge log) (l : Launched) :
    (∀ (i : Input) (w : World σ), ∃ sent,
      log (((l.handler network bridge).run i).run w).2.outside = log w.outside ++ sent ∧
        ∀ r ∈ sent, ToolRequest l.settings r ∨ CompletionRequest l.settings r) ∧
    (Settings.Vacant l.settings.baseUrl ∨ Settings.Vacant l.settings.apiKey →
      (l.handler network bridge).mode = .simulated ∧ ∀ (i : Input) (w : World σ), ∃ sent,
        log (((l.handler network bridge).run i).run w).2.outside = log w.outside ++ sent ∧
          ∀ r ∈ sent, ToolRequest l.settings r) ∧
    (∀ (arguments : Json.Object) (w : World σ), textArgument? arguments "url" = none →
      (((l.handler network bridge).executor.execute searchTool arguments).run w =
          (.content (simulatedSearch (queryOf arguments)), w) ↔
        ∀ key ∈ l.settings.searchKey, Text.isBlankText key = true)) ∧
    ∀ (env : Environment) (text : String) (e : List Char) (before after : List Segment),
      Segment.ofText text = before ++ .expression e :: after → Segment.value? env e = none →
        (expand env text).toList = before.flatMap (Segment.expanded env) ++
          ((Segment.expression e).written ++ after.flatMap (Segment.expanded env)) ∧
        ∀ value : String, (Segment.expression e).written <:+: value.toList →
        isPlaceholder value = true := by
  refine ⟨fun i w => ?_, fun vacant => ⟨?_, fun i w => ?_⟩, fun arguments w noUrl => ?_, ?_⟩
  · exact (respectful_logged (l := l) hl (fun r hr => .inl hr) fun r hr => .inr hr).run i w
  · exact mode_eq_simulated (Settings.endpoint?_eq_none_iff.mpr vacant)
  · refine (respectful_logged (l := l) hl (fun r hr => hr) fun r hr => ?_).run i w
    -- there is no endpoint to send this to
    obtain ⟨hurl, real, hkey, real', r⟩ := hr
    rcases vacant with h | h
    · exact absurd (h _ hurl) (by simp [real])
    · exact absurd (h _ hkey) (by simp [real'])
  · exact search_simulated_iff hl noUrl w
  · intro env text e before after hcut unset
    exact ⟨expand_of_unresolved hcut unset, fun value h => isPlaceholder_of_written h⟩

end Launched

/-! ### A key left over from a template -/

/-- A host whose environment sets the search key to an expression that nothing replaces. -/
def templateHost : Host where
  environment := ⟨[("SERPAPI_KEY", Text.encode "$\x7bSERPAPI_KEY\x7d")], none⟩
  directory := "/work"
  settingsDirectory? := none
  dataDirectory? := none
  entries := []
  taken := []

/-- A network that notes what it is sent and reaches nobody. -/
def notingNetwork : Web.Network (List Web.Request) :=
  ⟨fun r s => (.error (Web.unsentReason r.url), s ++ [r])⟩

theorem webLog_noting : WebLog notingNetwork .none id :=
  ⟨fun _ _ => rfl, fun _ => rfl, fun _ _ _ => rfl⟩

theorem launch_templateHost : ∃ l, (launch templateHost).1 = .ok l ∧ l.settings.baseUrl = none ∧
    l.settings.searchKey = some "$\x7bSERPAPI_KEY\x7d" ∧ l.settings.searchEndpoint = none := by
  have launched : (launch templateHost).1.toOption.map (fun l =>
      (l.settings.baseUrl, l.settings.searchKey, l.settings.searchEndpoint)) =
        some (none, some "$\x7bSERPAPI_KEY\x7d", none) := by decide +kernel
  obtain ⟨l, hl, hset⟩ := Option.map_eq_some_iff.mp launched
  simp only [Prod.mk.injEq] at hset
  cases hlaunch : (launch templateHost).1 with
  | error f => rw [hlaunch] at hl; cases hl
  | ok l' =>
    rw [hlaunch] at hl
    cases hl
    exact ⟨_, rfl, hset⟩

/-- The relay of that host simulates its completions, and does not simulate its searches. -/
theorem credentials_sent_template : ∃ l, (launch templateHost).1 = .ok l ∧
    (l.handler notingNetwork .none).mode = .simulated ∧
    ((l.handler notingNetwork .none).executor.execute searchTool []).run ⟨[], ⟨0, 0⟩⟩ ≠
      (.content (simulatedSearch "latest news"), ⟨[], ⟨0, 0⟩⟩) := by
  obtain ⟨l, hl, noUrl, key, -⟩ := launch_templateHost
  obtain ⟨-, simulated, search, -⟩ := Launched.credentials_sent webLog_noting l
  refine ⟨l, hl, (simulated (.inl ?_)).1, fun same => ?_⟩
  · rw [noUrl]
    simp [Settings.Vacant]
  · have blank := (search [] ⟨[], ⟨0, 0⟩⟩ rfl).mp same _ key
    revert blank
    decide +kernel

/-- **A search key that is a placeholder is sent.** -/
theorem placeholder_key_sent : ∃ l key, (launch templateHost).1 = .ok l ∧
    l.settings.searchKey = some key ∧ isPlaceholder key = true ∧
    (((l.handler notingNetwork .none).executor.execute searchTool [("query", .str "rust")]).run
      ⟨[], ⟨0, 0⟩⟩).2.outside = [searchRequest defaultSearchEndpoint "rust" key 5] := by
  obtain ⟨l, hl, -, key, endpoint⟩ := launch_templateHost
  refine ⟨l, _, hl, key, isPlaceholder_of_marker (by decide +kernel), ?_⟩
  have kept : (l.handler notingNetwork .none).executor.searchKey = some "$\x7bSERPAPI_KEY\x7d" :=
    Launched.searchKey_handler.mpr ⟨key, by decide +kernel⟩
  have there : (l.handler notingNetwork .none).executor.searchEndpoint = defaultSearchEndpoint := by
    simp [Launched.handler, Executor.new, endpoint]
  have query : Launched.queryOf [("query", .str "rust")] = "rust" := by decide +kernel
  have count : resultCount [("query", .str "rust")] = 5 := by decide +kernel
  rw [Launched.search_keyed (by decide +kernel) kept, there, query, count]
  rfl

end ChatRelay.Startup
