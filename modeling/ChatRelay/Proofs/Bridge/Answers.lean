import ChatRelay.Bridge.Callers
import Mathlib.Data.List.Basic

/-! # Answers among the lines of a server

A line answers the request `id` if it is text and reads as a response that carries `id`,
`answerTo?`. So a line answers at most one request (`answerTo?_unique`). `firstAnswer?` is the first
answer to a request among lines; a line that a wait passes over is no answer to its request
(`meet_eq`).

`ReadOff past out c` says that `c` is what is left of the output `out` when the lines `past` were
read. What a server writes is added to both (`ReadOff.receive`, `ReadOff.close`). -/

namespace ChatRelay.Bridge

/-! ### Answers -/

/-- The line is UTF-8. -/
def IsText (line : List UInt8) : Prop := Text.Utf8Fault.of? line = none

instance (line : List UInt8) : Decidable (IsText line) := inferInstanceAs (Decidable (_ = none))

/-- The response that a line of bytes holds, if it holds one. -/
def responseIn? (line : List UInt8) : Option RpcResponse :=
  match Text.Utf8Fault.of? line with
  | some _ => none
  | none => responseOf? (Text.lossy line)

/-- The answer to the request `id` that a line holds, if it holds one. -/
def answerTo? (id : Nat) (line : List UInt8) : Option RpcResponse :=
  (responseIn? line).filter fun r => r.id == some id

/-- The first answer to the request `id` among lines. -/
def firstAnswer? (id : Nat) (lines : List (List UInt8)) : Option RpcResponse :=
  lines.findSome? (answerTo? id)

theorem responseIn?_of_answerTo? {id : Nat} {line : List UInt8} {r : RpcResponse}
    (h : answerTo? id line = some r) : responseIn? line = some r ∧ r.id = some id := by
  unfold answerTo? at h
  rw [Option.filter_eq_some_iff] at h
  exact ⟨h.1, by simpa using h.2⟩

/-- A line answers one request only. -/
theorem answerTo?_unique {id id' : Nat} {line : List UInt8} {r r' : RpcResponse}
    (h : answerTo? id line = some r) (h' : answerTo? id' line = some r') : id = id' := by
  obtain ⟨there, hid⟩ := responseIn?_of_answerTo? h
  obtain ⟨there', hid'⟩ := responseIn?_of_answerTo? h'
  rw [there] at there'
  cases there'
  rw [hid] at hid'
  exact Option.some.inj hid'

theorem isText_of_answerTo? {id : Nat} {line : List UInt8} {r : RpcResponse}
    (h : answerTo? id line = some r) : IsText line := by
  obtain ⟨there, -⟩ := responseIn?_of_answerTo? h
  unfold responseIn? at there
  unfold IsText
  cases hf : Text.Utf8Fault.of? line with
  | some f =>
    rw [hf] at there
    cases there
  | none => rfl

/-- A wait ends at a line that is not text, or that answers its request. -/
theorem meet_eq (id : Nat) (line : List UInt8) : meet id line =
    match Text.Utf8Fault.of? line with
    | some f => some (.unreadable f)
    | none => (answerTo? id line).map .answered := by
  unfold meet answerTo? responseIn?
  cases Text.Utf8Fault.of? line with
  | some f => rfl
  | none =>
    dsimp only
    cases responseOf? (Text.lossy line) with
    | none => rfl
    | some r => by_cases h : r.id = some id <;> simp [h, Option.filter]

theorem meet_eq_answered {id : Nat} {line : List UInt8} {r : RpcResponse}
    (h : answerTo? id line = some r) : meet id line = some (.answered r) := by
  have text : Text.Utf8Fault.of? line = none := isText_of_answerTo? h
  rw [meet_eq, text, h]
  rfl

theorem meet_eq_none_iff {id : Nat} {line : List UInt8} :
    meet id line = none ↔ IsText line ∧ answerTo? id line = none := by
  unfold IsText
  rw [meet_eq]
  cases Text.Utf8Fault.of? line with
  | some f => simp
  | none => simp

/-- What ends a wait at a line. -/
theorem meet_cases {id : Nat} {line : List UInt8} {a : Awaited} (h : meet id line = some a) :
    (∃ r, answerTo? id line = some r ∧ a = .answered r) ∨
    (∃ f, ¬ IsText line ∧ a = .unreadable f) := by
  rw [meet_eq] at h
  cases hf : Text.Utf8Fault.of? line with
  | some f =>
    simp only [hf, Option.some.injEq] at h
    refine .inr ⟨f, ?_, h.symm⟩
    unfold IsText
    simp [hf]
  | none =>
    simp only [hf, Option.map_eq_some_iff] at h
    obtain ⟨r, hr, rfl⟩ := h
    exact .inl ⟨r, hr, rfl⟩

theorem firstAnswer?_append (id : Nat) (lines more : List (List UInt8)) :
    firstAnswer? id (lines ++ more) = (firstAnswer? id lines).or (firstAnswer? id more) :=
  List.findSome?_append

theorem firstAnswer?_append_of_some {id : Nat} {lines : List (List UInt8)} {r : RpcResponse}
    (h : firstAnswer? id lines = some r) (more : List (List UInt8)) :
    firstAnswer? id (lines ++ more) = some r := by
  rw [firstAnswer?_append, h]
  rfl

theorem firstAnswer?_eq_none_iff {id : Nat} {lines : List (List UInt8)} :
    firstAnswer? id lines = none ↔ ∀ line ∈ lines, answerTo? id line = none :=
  List.findSome?_eq_none_iff

theorem firstAnswer?_at {id : Nat} {before after : List (List UInt8)} {line : List UInt8}
    {r : RpcResponse} (none : firstAnswer? id before = none) (here : answerTo? id line = some r) :
    firstAnswer? id (before ++ line :: after) = some r := by
  rw [firstAnswer?_append, none]
  simp [firstAnswer?, here]

/-! ### Output that was read in part -/

/-- The channel is what is left of an output when the lines `past` were read. -/
structure ReadOff (past : List (List UInt8)) (out c : Channel) : Prop where
  lines : out.lines = past ++ c.lines
  opened : out.opened = c.opened
  isClosed : out.isClosed = c.isClosed

namespace ReadOff

variable {past : List (List UInt8)} {out c : Channel}

theorem receive (h : ReadOff past out c) (bytes : List UInt8) :
    ReadOff past (out.receive bytes) (c.receive bytes) := by
  unfold Channel.receive
  rw [h.isClosed, h.opened, h.lines]
  split
  · exact h
  · exact ⟨List.append_assoc .., rfl, rfl⟩

theorem close (h : ReadOff past out c) : ReadOff past out.close c.close := by
  unfold Channel.close
  rw [h.opened, h.lines]
  refine ⟨?_, rfl, rfl⟩
  dsimp only
  split
  · rfl
  · exact List.append_assoc ..

theorem read (h : ReadOff past out c) {line : List UInt8} {rest : List (List UInt8)}
    (next : c.lines = line :: rest) : ReadOff (past ++ [line]) out { c with lines := rest } := by
  refine ⟨?_, h.opened, h.isClosed⟩
  rw [h.lines, next, List.append_assoc]
  rfl

end ReadOff

namespace Channel

theorem lines_receive (c : Channel) (bytes : List UInt8) :
    ∃ new, (c.receive bytes).lines = c.lines ++ new ∧ (c.isClosed = true → new = []) := by
  unfold receive
  by_cases closed : c.isClosed = true
  · exact ⟨[], by simp [closed], fun _ => rfl⟩
  · refine ⟨_, by simp only [closed]; rfl, fun h => absurd h closed⟩

theorem lines_close (c : Channel) : ∃ new, c.close.lines = c.lines ++ new := by
  unfold close
  by_cases ended : c.opened.isEmpty = true
  · exact ⟨[], by simp [ended]⟩
  · exact ⟨[c.opened], by simp [ended]⟩

theorem lose?_zero {c c' : Channel} (h : c.lose? 0 = some c') : c' = c := by
  obtain ⟨lines, opened, closed⟩ := c
  unfold lose? at h
  cases lines with
  | nil => simpa using h.symm
  | cons line rest =>
    dsimp only at h
    split at h
    · simpa using h.symm
    · cases h

end Channel

end ChatRelay.Bridge
