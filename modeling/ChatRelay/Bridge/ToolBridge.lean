import ChatRelay.Bridge.Failure
import ChatRelay.Completion.Message

/-! # The bridge as a turn sees it

The bridge lists further tools and runs them by name. It is asked afresh every time: what it offers
may change between two questions. -/

namespace ChatRelay.Bridge

open Json Completion

/-- Lists tools and runs them. -/
structure ToolBridge (σ : Type) where
  list : σ → Except Failure (List ToolDefinition) × σ
  call : String → Object → σ → Except Failure String × σ

/-- The bridge of a relay without servers. -/
def ToolBridge.none {σ : Type} : ToolBridge σ where
  list s := (.ok [], s)
  call name _ s := (.error (.unknownTool name), s)

end ChatRelay.Bridge
