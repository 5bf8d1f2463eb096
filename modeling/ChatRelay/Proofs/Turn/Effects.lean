import ChatRelay.Turn.Handler

/-! # What a turn does to its world

A turn asks the parties outside and draws fresh values; it changes its world in no other way. So a
relation between worlds that these steps keep to is kept to by all that is put together from them:
`Respects` says so of an action, and `Respectful` lists what has to be known of the steps of an
executor, or of a handler. Relations in use are that the source of fresh values moves on, that
nothing is asked of the endpoint, and that only some web requests are sent. -/

namespace ChatRelay

/-! ### Draws -/

/-- The source moves on to another state. -/
def Draws.MovesTo (d d' : Draws) : Prop := d'.seed = d.seed ∧ d.used ≤ d'.used

namespace Draws.MovesTo

theorem refl (d : Draws) : d.MovesTo d := ⟨rfl, Nat.le_refl _⟩

theorem trans {d d' d'' : Draws} (h : d.MovesTo d') (h' : d'.MovesTo d'') : d.MovesTo d'' :=
  ⟨h'.1.trans h.1, Nat.le_trans h.2 h'.2⟩

theorem next (d : Draws) : d.MovesTo d.next.2 := ⟨rfl, Nat.le_succ _⟩

theorem callId (d : Draws) : d.MovesTo d.callId.2 := next d

theorem messageId (d : Draws) : d.MovesTo d.messageId.2 := next d

theorem below (bound : Nat) (d : Draws) : d.MovesTo (d.below bound).2 := next d

end Draws.MovesTo

theorem Completion.CallDraft.moves_complete (c : CallDraft)
    (d : Draws) : d.MovesTo (c.complete d).2 := by
  unfold complete
  split
  · exact .refl d
  · exact .callId d

theorem Completion.moves_completeCalls (cs : List CallDraft) :
    ∀ d : Draws, d.MovesTo (completeCalls cs d).2 := by
  induction cs with
  | nil => exact fun d => .refl d
  | cons c cs ih => exact fun d => (c.moves_complete d).trans (ih _)

theorem Completion.ReplyDraft.moves_complete (r : ReplyDraft)
    (d : Draws) : d.MovesTo (r.complete d).2 :=
  moves_completeCalls r.drafts d

theorem Turn.moves_simulatedReply (message : String) (offered : List Completion.ToolDefinition)
    (d : Draws) : d.MovesTo (simulatedReply message offered d).2 := by
  unfold simulatedReply
  split
  · exact .refl d
  · exact .callId d

theorem Tools.moves_fabricateWeather (location : String) (d : Draws) :
    d.MovesTo (fabricateWeather location d).2 :=
  (Draws.MovesTo.below 10 d).trans (.below weatherConditions.length (d.below 10).2)

/-! ### Actions -/

namespace Act

variable {σ α β : Type}

theorem run_bind (act : Act σ α) (next : α → Act σ β) (w : World σ) :
    (act >>= next).run w = (next (act.run w).1).run (act.run w).2 := rfl

theorem run_pure (x : α) (w : World σ) : (Pure.pure x : Act σ α).run w = (x, w) := rfl

theorem run_ask (f : σ → α × σ) (w : World σ) :
    (Act.ask f).run w = ((f w.outside).1, { w with outside := (f w.outside).2 }) := rfl

theorem run_draw (f : Draws → α × Draws) (w : World σ) :
    (Act.draw f : Act σ α).run w = ((f w.draws).1, { w with draws := (f w.draws).2 }) := rfl

/-- The action takes every world to a related one. -/
def Respects (R : World σ → World σ → Prop) (act : Act σ α) : Prop :=
  ∀ w : World σ, R w (act.run w).2

end Act

/-! ### Tools -/

namespace Tools

variable {σ : Type}

/-- The web requests that tools send: for a page, or for a search with the key of the executor. -/
inductive Executor.Sends (x : Executor σ) : Web.Request → Prop
  | page (url : String) : x.Sends ⟨"GET", url, [], none⟩
  | search {key : String} (hkey : x.searchKey = some key) (query : String) (count : Nat) :
      x.Sends (searchRequest x.searchEndpoint query key count)

/-- A relation between worlds that the steps of an executor keep to. -/
structure Executor.Respectful (x : Executor σ) (R : World σ → World σ → Prop) : Prop where
  refl : ∀ w, R w w
  trans : ∀ {u v w}, R u v → R v w → R u w
  draw : ∀ {α : Type} {f : Draws → α × Draws}, (∀ d : Draws, d.MovesTo (f d).2) →
    (Act.draw f : Act σ α).Respects R
  send : ∀ r, x.Sends r → (Act.ask (x.network.send r)).Respects R
  list : (Act.ask x.bridge.list).Respects R
  call : ∀ name arguments, (Act.ask (x.bridge.call name arguments)).Respects R

namespace Executor.Respectful

variable {x : Executor σ} {R : World σ → World σ → Prop}

theorem pure {α : Type} (hx : x.Respectful R) (a : α) : (Pure.pure a : Act σ α).Respects R :=
  fun w => hx.refl w

theorem bind {α β : Type} (hx : x.Respectful R) {act : Act σ α} {next : α → Act σ β}
    (h : act.Respects R) (hn : ∀ a, (next a).Respects R) : (act >>= next).Respects R :=
  fun w => hx.trans (h w) (hn _ _)

theorem fetchPage (hx : x.Respectful R) (url : String) : (x.fetchPage url).Respects R := by
  refine hx.bind (hx.send _ (.page url)) fun r => ?_
  split <;> exact hx.pure _

theorem search (hx : x.Respectful R) (arguments : Json.Object) :
    (x.search arguments).Respects R := by
  unfold Executor.search
  split
  · exact hx.fetchPage _
  · split
    · exact hx.pure _
    · next key hkey =>
      refine hx.bind (hx.send _ (.search hkey _ _)) fun r => ?_
      split <;> exact hx.pure _

theorem queryStore (hx : x.Respectful R) (arguments : Json.Object) :
    (Executor.queryStore arguments : Act σ (Except Fault String)).Respects R := by
  unfold Executor.queryStore
  split
  · exact hx.pure _
  · exact hx.bind (hx.draw .next) fun n => hx.pure _

theorem bridgeStatus (hx : x.Respectful R) (arguments : Json.Object) :
    (x.bridgeStatus arguments).Respects R := by
  unfold Executor.bridgeStatus
  split
  · exact hx.pure _
  · split
    · refine hx.bind hx.list fun r => ?_
      split <;> exact hx.pure _
    · exact hx.pure _

theorem viaBridge (hx : x.Respectful R) (name : String) (arguments : Json.Object) :
    (x.viaBridge name arguments).Respects R := by
  refine hx.bind (hx.call _ _) fun r => ?_
  split <;> exact hx.pure _

/-- **Running a tool keeps to what its steps keep to.** -/
theorem execute (hx : x.Respectful R) (name : String) (arguments : Json.Object) :
    (x.execute name arguments).Respects R := by
  unfold Executor.execute
  split
  · exact hx.bind (hx.draw (moves_fabricateWeather _)) fun report => hx.pure _
  · split
    · exact hx.bind (hx.search _) fun r => hx.pure _
    · split
      · exact hx.bind (hx.queryStore _) fun r => hx.pure _
      · split
        · exact hx.bind (hx.bridgeStatus _) fun r => hx.pure _
        · exact hx.bind (hx.viaBridge _ _) fun r => hx.pure _

end Executor.Respectful

end Tools

/-! ### Turns -/

namespace Turn.Handler

open Completion

variable {σ : Type} {h : Handler σ} {R : World σ → World σ → Prop}

theorem respects_offered (hx : h.executor.Respectful R) (enabled : List String) :
    (h.offered enabled).Respects R := by
  refine hx.bind hx.list fun r => ?_
  split <;> exact hx.pure _

theorem respects_runCalls (hx : h.executor.Respectful R) (calls : List ToolCall) :
    (h.runCalls calls).Respects R := by
  induction calls with
  | nil => exact hx.pure _
  | cons c calls ih =>
    have hcall : (h.runCall c).Respects R := hx.bind (hx.execute _ _) fun r => hx.pure _
    exact hx.bind hcall fun r => hx.bind ih fun rest => hx.pure _

/-- A relation between worlds that the steps of a handler keep to. -/
structure Respectful (h : Handler σ) (R : World σ → World σ → Prop) : Prop where
  tools : h.executor.Respectful R
  complete : ∀ {provider}, h.mode = .live provider → ∀ r, (Act.ask (provider.complete r)).Respects R
  stream : ∀ {provider}, h.mode = .live provider → ∀ r, (Act.ask (provider.stream r)).Respects R

theorem Respectful.first (hr : h.Respectful R) (i : Input) (offered : List ToolDefinition) :
    (h.first i offered).Respects R := by
  have hx := hr.tools
  unfold Handler.first
  split
  · exact hx.bind (hx.draw (moves_simulatedReply _ _)) fun r => hx.pure _
  next provider hmode =>
    simp only
    split
    · refine hx.bind (hr.stream hmode _) fun r => ?_
      split
      · exact hx.pure _
      · split
        · exact hx.pure _
        · exact hx.bind (hx.draw (moves_completeCalls _)) fun calls => hx.pure _
    · refine hx.bind (hr.complete hmode _) fun r => ?_
      split
      · exact hx.pure _
      · exact hx.bind (hx.draw (ReplyDraft.moves_complete _)) fun reply => hx.pure _

theorem Respectful.followUp (hr : h.Respectful R) (i : Input) (calls : List ToolCall)
    (records : List Tools.ToolCallRecord) : (h.followUp i calls records).Respects R := by
  have hx := hr.tools
  unfold Handler.followUp
  split
  · exact hx.pure _
  next provider hmode =>
    refine hx.bind (hr.complete hmode _) fun r => ?_
    split <;> exact hx.pure _

/-- **A turn keeps to what the steps of its handler keep to.** -/
theorem Respectful.run (hr : h.Respectful R) (i : Input) : (h.run i).Respects R := by
  have hx := hr.tools
  refine hx.bind (respects_offered hx _) fun tools => hx.bind (hr.first _ _) fun first => ?_
  split
  split
  · exact hx.pure _
  · split
    · exact hx.pure _
    · exact hx.bind (respects_runCalls hx _) fun records => hx.bind (hr.followUp _ _ _) fun text =>
        hx.pure _

end Turn.Handler

end ChatRelay
