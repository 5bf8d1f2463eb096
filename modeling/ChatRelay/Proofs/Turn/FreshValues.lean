import ChatRelay.Proofs.Turn.Effects

/-! # Fresh values of a turn

Whatever a turn does, it takes fresh values from one source and never turns it back
(`advances_run`). So the values drawn after a turn are not those drawn before it. -/

namespace ChatRelay.Turn.Handler

variable {σ : Type} (h : Handler σ)

/-- The source of the first world moves on to that of the second. -/
def Advance (w w' : World σ) : Prop := w.draws.MovesTo w'.draws

theorem advance_ask {α : Type} (f : σ → α × σ) : (Act.ask f).Respects Advance :=
  fun w => .refl w.draws

/-- Every handler keeps to the order of the source. -/
theorem respectful_advance : h.Respectful Advance where
  tools :=
    { refl := fun w => .refl w.draws
      trans := fun h h' => h.trans h'
      draw := fun h w => h w.draws
      send := fun r _ => advance_ask (h.executor.network.send r)
      list := advance_ask h.executor.bridge.list
      call := fun name arguments => advance_ask (h.executor.bridge.call name arguments) }
  complete _ _ := advance_ask _
  stream _ _ := advance_ask _

/-- **A turn only moves on in the source of fresh values.** -/
theorem advances_run (i : Input) : (h.run i).Respects Advance := h.respectful_advance.run i

end ChatRelay.Turn.Handler
