/-! # Failures of the bridge

A bridge server fails to start, breaks its channel, answers with an error, takes too long, or runs a
tool that fails; and a tool may be unknown to all servers. -/

namespace ChatRelay.Bridge

/-- Why the bridge failed. -/
inductive Failure
  | spawnFailed (name reason : String)
  | initFailed (name reason : String)
  | transportError (server reason : String)
  | serverError (code : Int) (message : String)
  | unknownTool (name : String)
  | toolFailed (tool message : String)
  | timeout (operation : String) (ms : Nat)
  deriving DecidableEq, Repr, Inhabited

/-- The text shown for a failure. -/
def Failure.message : Failure → String
  | spawnFailed name reason => s!"failed to spawn server '{name}': {reason}"
  | initFailed name reason => s!"server '{name}' initialization failed: {reason}"
  | transportError server reason => s!"transport error for server '{server}': {reason}"
  | serverError code message => s!"server error [{code}]: {message}"
  | unknownTool name => s!"unknown tool: '{name}'"
  | toolFailed tool message => s!"tool '{tool}' failed: {message}"
  | timeout operation ms => s!"'{operation}' timed out after {ms}ms"

end ChatRelay.Bridge
