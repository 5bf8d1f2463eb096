/-! # Failures of a completion

A completion fails because the endpoint cannot be reached, answers with an error status, breaks off
its stream, or answers with something else than a completion. -/

namespace ChatRelay.Completion

/-- Why a completion failed. -/
inductive Failure
  /-- The endpoint could not be reached. -/
  | connectionFailed (endpoint reason : String)
  /-- The endpoint answered with a status other than success. -/
  | httpError (status : Nat) (body : String)
  /-- The answer broke off or reported an error of its own. -/
  | streamError (reason : String)
  /-- The answer is no completion. -/
  | malformedResponse (reason : String)
  /-- No endpoint is configured. -/
  | configError (reason : String)
  deriving DecidableEq, Repr, Inhabited

namespace Failure

/-- The text shown for a failure. -/
def message : Failure → String
  | connectionFailed endpoint reason => s!"connection failed to {endpoint}: {reason}"
  | httpError status body => s!"HTTP {status}: {body}"
  | streamError reason => s!"stream error: {reason}"
  | malformedResponse reason => s!"malformed completion response: {reason}"
  | configError reason => s!"config error: {reason}"

/-- The status that the endpoint answered with, if that is what failed. -/
def status? : Failure → Option Nat
  | httpError status _ => some status
  | _ => none

end Failure

end ChatRelay.Completion
