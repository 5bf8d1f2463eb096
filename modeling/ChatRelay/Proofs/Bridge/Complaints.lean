import ChatRelay.Bridge.Client
import ChatRelay.Proofs.Text.Trimming
import ChatRelay.Proofs.Text.Truncation

/-! # What failed servers complain of

A server that was started but does not become ready is ended, and the failure says why it is not
ready. What the server wrote to its error stream follows, trimmed and under a limit
(`complains_complaint`), if it is a text at all. No other end of a start shows it
(`starts_startServer`). -/

namespace ChatRelay.Bridge.Client

open Text

/-- What is shown of an error stream: nothing of one that is not UTF-8 or holds blanks only, and
else what the limit leaves of its text. -/
inductive Complains (bytes : List UInt8) : String → Prop
  | unreadable (hread : strict? bytes = none) : Complains bytes ""
  | blank {s : String} (hread : strict? bytes = some s) (hblank : isBlankText s = true) :
      Complains bytes ""
  | filled {s shown : String} (hread : strict? bytes = some s) (hfilled : isBlankText s = false)
      (hshown : Truncated complaintLimit (trim s) shown) : Complains bytes (" | stderr: " ++ shown)

theorem complains_complaint (bytes : List UInt8) : Complains bytes (complaint bytes) := by
  unfold complaint
  cases hread : strict? bytes with
  | none => exact .unreadable hread
  | some s =>
    dsimp only
    rw [isEmpty_trim]
    cases hblank : isBlankText s with
    | true => exact .blank hread hblank
    | false => exact .filled hread hblank (truncated_truncate complaintLimit (trim s))

example : complaint (encode "no port\n") = " | stderr: no port" := by decide

variable {σ : Type}

/-- What the start of a server comes to. -/
inductive Starts (servers : Servers σ) (name : String) (command : Config.ServerCommand)
    (w : Wire σ) : Except Failure Transport × Wire σ → Prop
  | unstarted {reason : String} {outside : σ}
      (hstart : servers.start name command w.outside = (.error reason, outside)) :
      Starts servers name command w (.error (.spawnFailed name reason), { w with outside })
  | ready {outside : σ} (hstart : servers.start name command w.outside = (.ok (), outside))
      {t : Transport} {w' : Wire σ}
      (hgreet : greet servers (.new name) { w with outside } = (none, t, w')) :
      Starts servers name command w (.ok t, w')
  /-- The server was started and is not ready for some cause. -/
  | unready {outside : σ} (hstart : servers.start name command w.outside = (.ok (), outside))
      {cause : String} {t : Transport} {w' : Wire σ}
      (hgreet : greet servers (.new name) { w with outside } = (some cause, t, w'))
      {bytes : List UInt8} {ended : σ} (hstop : servers.stop name w'.outside = (bytes, ended))
      {complaint : String} (hcomplains : Complains bytes complaint) :
      Starts servers name command w
        (.error (.initFailed name (cause ++ complaint)), { w' with outside := ended })

theorem starts_startServer (servers : Servers σ) (name : String) (command : Config.ServerCommand)
    (w : Wire σ) : Starts servers name command w (startServer servers name command w) := by
  unfold startServer
  split
  next reason outside hstart => exact .unstarted hstart
  next outside hstart =>
    split
    next t w' hgreet => exact .ready hstart hgreet
    next cause t w' hgreet => exact .unready hstart hgreet rfl (complains_complaint _)

/-- **A text that is too long is cut at its last possible character.** Of every text a limit leaves
the text itself or the longest lead of whole characters that fits, with a mark. That lead is less
than four bytes shorter than the limit, and the search that goes back from the limit stops where it
ends, not before the start. The same holds of what a server wrote that fails to become ready. -/
theorem cut_at_last_character (servers : Servers σ) :
    (∀ (limit : Nat) (s : String), Truncated limit s (truncate limit s)) ∧
      ∀ (name : String) (command : Config.ServerCommand) (w : Wire σ),
        Starts servers name command w (startServer servers name command w) :=
  ⟨truncated_truncate, starts_startServer servers⟩

end ChatRelay.Bridge.Client
