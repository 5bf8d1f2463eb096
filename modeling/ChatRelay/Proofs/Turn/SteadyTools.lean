import ChatRelay.Proofs.Turn.Effects

/-! # What the result of a call depends on

The calls of a turn share the parties outside, and each may change what these know. If their answers
do not depend on that (`Executor.Steady`), then the result of a call is a matter of its name, its
arguments and the fresh values that it draws (`Steady.result_of_draws`). Only the weather report and
the structured store draw any, so every other result is the same in all worlds
(`Steady.result_of_name`).

Two runs of one action are compared by a relation between their sources of fresh values:
`Determined` says that related sources lead to one result, and to related sources again. -/

namespace ChatRelay

/-! ### Actions -/

namespace Act

variable {σ α β : Type}

/-- From related sources the action comes to the same result, and the sources stay related. -/
def Determined (P : Draws → Draws → Prop) (act : Act σ α) : Prop :=
  ∀ v w : World σ, P v.draws w.draws →
    (act.run v).1 = (act.run w).1 ∧ P (act.run v).2.draws (act.run w).2.draws

namespace Determined

variable {P : Draws → Draws → Prop}

theorem pure (a : α) : (Pure.pure a : Act σ α).Determined P := fun _ _ h => ⟨rfl, h⟩

theorem bind {act : Act σ α} {next : α → Act σ β} (h : act.Determined P)
    (hn : ∀ a, (next a).Determined P) : (act >>= next).Determined P := by
  intro v w hvw
  obtain ⟨hresult, hsources⟩ := h v w hvw
  rw [run_bind, run_bind, hresult]
  exact hn _ _ _ hsources

theorem ask {f : σ → α × σ} (h : ∀ s s', (f s).1 = (f s').1) : (Act.ask f).Determined P :=
  fun v w hvw => ⟨h v.outside w.outside, hvw⟩

/-- What draws is determined by equal sources only. -/
theorem draw (hrefl : ∀ d, P d d) (heq : ∀ d d', P d d' → d = d') (f : Draws → α × Draws) :
    (Act.draw f : Act σ α).Determined P := by
  intro v w hvw
  rw [run_draw, run_draw, heq _ _ hvw]
  exact ⟨rfl, hrefl _⟩

end Determined

end Act

/-! ### Tools -/

namespace Tools.Executor

variable {σ : Type} {x : Executor σ}

/-- What the parties behind an executor answer does not depend on what they know. -/
structure Steady (x : Executor σ) : Prop where
  send : ∀ r s s', (x.network.send r s).1 = (x.network.send r s').1
  list : ∀ s s', (x.bridge.list s).1 = (x.bridge.list s').1
  call : ∀ name arguments s s', (x.bridge.call name arguments s).1 =
    (x.bridge.call name arguments s').1

namespace Steady

variable {P : Draws → Draws → Prop}

theorem fetchPage (hx : x.Steady) (url : String) : (x.fetchPage url).Determined P := by
  refine .bind (.ask (hx.send _)) fun r => ?_
  split <;> exact .pure _

theorem search (hx : x.Steady) (arguments : Json.Object) : (x.search arguments).Determined P := by
  unfold Executor.search
  split
  · exact hx.fetchPage _
  · split
    · exact .pure _
    · refine .bind (.ask (hx.send _)) fun r => ?_
      split <;> exact .pure _

theorem queryStore (hrefl : ∀ d, P d d) (heq : ∀ d d', P d d' → d = d') (arguments : Json.Object) :
    (Executor.queryStore arguments : Act σ (Except Fault String)).Determined P := by
  unfold Executor.queryStore
  split
  · exact .pure _
  · exact .bind (.draw hrefl heq _) fun n => .pure _

theorem bridgeStatus (hx : x.Steady) (arguments : Json.Object) :
    (x.bridgeStatus arguments).Determined P := by
  unfold Executor.bridgeStatus
  split
  · exact .pure _
  · split
    · refine .bind (.ask hx.list) fun r => ?_
      split <;> exact .pure _
    · exact .pure _

theorem viaBridge (hx : x.Steady) (name : String) (arguments : Json.Object) :
    (x.viaBridge name arguments).Determined P := by
  refine .bind (.ask (hx.call _ _)) fun r => ?_
  split <;> exact .pure _

/-- **What determines a result.** For a tool that draws the sources have to be equal, for the others
they need not have anything to do with each other. -/
theorem execute (hx : x.Steady) (hrefl : ∀ d, P d d) {name : String}
    (hdraws : name = weatherTool ∨ name = storeTool → ∀ d d', P d d' → d = d')
    (arguments : Json.Object) : (x.execute name arguments).Determined P := by
  unfold Executor.execute
  split
  · next hweather => exact .bind (.draw hrefl (hdraws (.inl hweather)) _) fun report => .pure _
  · split
    · exact .bind (hx.search _) fun r => .pure _
    · split
      · next hstore => exact .bind (queryStore hrefl (hdraws (.inr hstore)) _) fun r => .pure _
      · split
        · exact .bind (hx.bridgeStatus _) fun r => .pure _
        · exact .bind (hx.viaBridge _ _) fun r => .pure _

/-- The result of a call is a matter of the call and of the fresh values that are there. -/
theorem result_of_draws (hx : x.Steady) (name : String) (arguments : Json.Object) {v w : World σ}
    (h : v.draws = w.draws) :
    ((x.execute name arguments).run v).1 = ((x.execute name arguments).run w).1 := by
  have hdetermined : (x.execute name arguments).Determined Eq :=
    hx.execute (fun _ => rfl) (fun _ _ _ h => h) arguments
  exact (hdetermined v w h).1

/-- The result of a call of another tool than the two that draw is a matter of the call alone. -/
theorem result_of_name (hx : x.Steady) {name : String} (hweather : name ≠ weatherTool)
    (hstore : name ≠ storeTool) (arguments : Json.Object) (v w : World σ) :
    ((x.execute name arguments).run v).1 = ((x.execute name arguments).run w).1 := by
  have hdetermined : (x.execute name arguments).Determined fun _ _ => True :=
    hx.execute (fun _ => trivial) (fun h => (h.elim hweather hstore).elim) arguments
  exact (hdetermined v w trivial).1

end Steady

end Tools.Executor

end ChatRelay
