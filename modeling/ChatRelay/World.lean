import ChatRelay.Draws

/-! # The world of a turn

A turn talks to parties outside: a completion endpoint, web servers, bridge servers. What they know
is a state `σ` that only they look into, and what they do is given by functions on it. Together with
the source of fresh values this is the world; an action takes it from one state to the next. -/

namespace ChatRelay

/-- The state of the parties outside, and the source of fresh values. -/
structure World (σ : Type) where
  outside : σ
  draws : Draws
  deriving Inhabited

/-- An action in the world. -/
abbrev Act (σ : Type) := StateM (World σ)

namespace Act

variable {σ α : Type}

/-- Lets the parties outside act. -/
def ask (f : σ → α × σ) : Act σ α := fun w =>
  let (a, s) := f w.outside
  (a, { w with outside := s })

/-- Draws fresh values. -/
def draw (f : Draws → α × Draws) : Act σ α := fun w =>
  let (a, d) := f w.draws
  (a, { w with draws := d })

end Act

end ChatRelay
