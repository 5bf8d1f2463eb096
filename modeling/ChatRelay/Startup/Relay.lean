import ChatRelay.Session.Agent
import ChatRelay.Startup.Launch

/-! # The relay at work

A launched relay runs its turns with what its settings say: completions from the live endpoint if
there is one and simulated ones otherwise, searches with the configured key, tools of the bridge
behind the built-in ones. -/

namespace ChatRelay.Startup

open Turn

variable {σ : Type}

namespace Launched

/-- Where the completions come from. -/
def mode (l : Launched) (network : Web.Network σ) : Mode σ :=
  match l.settings.endpoint? with
  | some e => .live (e.provider network)
  | none => .simulated

/-- What all turns share. -/
def handler (l : Launched) (network : Web.Network σ) (bridge : Bridge.ToolBridge σ) : Handler σ :=
  { mode := l.mode network
    maxTokens := l.settings.maxTokens
    executor := .new network bridge l.settings.searchKey l.settings.searchEndpoint }

/-- The agents over the store, none of them built yet. -/
def agents (l : Launched) (world : World σ) (clock : Int) : Session.Agents σ :=
  Session.Agents.start l.store world clock

end Launched

/-- How a failed start is reported: the outermost text, then what caused it. -/
def Failure.report (f : Failure) : String :=
  match f.chain with
  | [] => "Error"
  | [text] => s!"Error: {text}"
  | text :: causes =>
    "Error: " ++ text ++ "\n\nCaused by:" ++ "".intercalate (causes.map ("\n    " ++ ·))

end ChatRelay.Startup
