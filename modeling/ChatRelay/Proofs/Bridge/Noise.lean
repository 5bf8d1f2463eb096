import ChatRelay.Proofs.Bridge.RequestMoves
import ChatRelay.Proofs.Json.Records
import ChatRelay.Proofs.Text.Encoding

/-! # Lines in front of an answer

A server writes more than answers: logs, notifications, requests of its own. `IsResponse id line`
says what a response to the request `id` is, an object with that id and a result or an error and
without a method; every other line is noise.

A request passes over the lines in front of the one that ends its wait (`read_append`), and what is
left unread of earlier output counts like what comes now (`Channel.receive_eq`). So noise can change
a result only by a line that ends the wait itself. Such a line is not UTF-8, or it says something
that the reading of responses lets pass (`Posing`): an array that starts with the id, a request of
the server that has the same id, an object with the id alone. -/

namespace ChatRelay.Bridge

open Json

/-! ### Lines and bytes -/

/-- A line with its end. -/
def IsLine (line : List UInt8) : Prop := ∃ body, 0x0A ∉ body ∧ line = body ++ [0x0A]

namespace Channel

/-- What was written and not read. -/
def unread (c : Channel) : List UInt8 := c.lines.flatten ++ c.opened

/-- The lines are cut where they end. -/
structure Cut (c : Channel) : Prop where
  lines : ∀ line ∈ c.lines, IsLine line
  opened : 0x0A ∉ c.opened

theorem foldl_addByte_open {body : List UInt8} (h : 0x0A ∉ body) (found : List (List UInt8))
    (opened : List UInt8) :
    body.foldl addByte (found, opened) = (found, body.reverse ++ opened) := by
  induction body generalizing opened with
  | nil => rfl
  | cons b body ih =>
    rw [List.mem_cons, not_or] at h
    rw [List.foldl_cons, addByte, if_neg (Ne.symm h.1), ih h.2]
    simp

theorem foldl_addByte_lines {lines : List (List UInt8)} (h : ∀ line ∈ lines, IsLine line)
    (found : List (List UInt8)) :
    lines.flatten.foldl addByte (found, []) = (lines.reverse ++ found, []) := by
  induction lines generalizing found with
  | nil => rfl
  | cons line lines ih =>
    obtain ⟨⟨body, hbody, rfl⟩, hlines⟩ := List.forall_mem_cons.mp h
    rw [List.flatten_cons, List.foldl_append, List.foldl_append, foldl_addByte_open hbody]
    simp [addByte, ih hlines]

/-- Lines that were found before stay where they are. -/
theorem foldl_addByte_append (bytes : List UInt8) (found more : List (List UInt8))
    (opened : List UInt8) : bytes.foldl addByte (found ++ more, opened) =
      ((bytes.foldl addByte (found, opened)).1 ++ more,
        (bytes.foldl addByte (found, opened)).2) := by
  induction bytes generalizing found opened with
  | nil => rfl
  | cons b bytes ih =>
    rw [List.foldl_cons, List.foldl_cons, addByte, addByte]
    split
    · exact ih ((b :: opened).reverse :: found) []
    · exact ih found (b :: opened)

variable {c : Channel} {bytes tail : List UInt8} {lines : List (List UInt8)}

theorem foldl_addByte_unread (h : c.Cut) :
    c.unread.foldl addByte ([], []) = (c.lines.reverse, c.opened.reverse) := by
  rw [unread, List.foldl_append, foldl_addByte_lines h.lines, foldl_addByte_open h.opened]
  simp

/-- What is left unread and what comes now are one output. -/
theorem receive_eq (h : c.Cut) (isOpen : c.isClosed = false) (bytes : List UInt8) :
    c.receive bytes = empty.receive (c.unread ++ bytes) := by
  have hleft := foldl_addByte_append bytes [] c.lines.reverse c.opened.reverse
  obtain ⟨lines, opened, isClosed⟩ := c
  cases isOpen
  simp only [receive, List.foldl_append, empty, List.reverse_nil,
    foldl_addByte_unread h] at hleft ⊢
  rw [List.nil_append] at hleft
  simp [hleft]

/-- The lines at the start of an output are the first that are received. -/
theorem receive_flatten_append (h : ∀ line ∈ lines, IsLine line) (tail : List UInt8) :
    empty.receive (lines.flatten ++ tail) =
      { empty.receive tail with lines := lines ++ (empty.receive tail).lines } := by
  have hleft := foldl_addByte_append tail [] lines.reverse []
  rw [List.nil_append] at hleft
  simp only [receive, empty, List.foldl_append, List.reverse_nil, foldl_addByte_lines h,
    List.append_nil, hleft]
  simp

/-! ### Channels stay cut -/

theorem cut_empty : empty.Cut := ⟨by simp [empty], by simp [empty]⟩

theorem cut_foldl_addByte (bytes : List UInt8) {acc : List (List UInt8) × List UInt8}
    (hlines : ∀ line ∈ acc.1, IsLine line) (hopened : 0x0A ∉ acc.2) :
    (∀ line ∈ (bytes.foldl addByte acc).1, IsLine line) ∧ 0x0A ∉ (bytes.foldl addByte acc).2 := by
  induction bytes generalizing acc with
  | nil => exact ⟨hlines, hopened⟩
  | cons b bytes ih =>
    rw [List.foldl_cons]
    by_cases hb : b = 0x0A
    · subst hb
      have hline : IsLine (0x0A :: acc.2).reverse :=
        ⟨acc.2.reverse, by simpa using hopened, by simp⟩
      exact ih (List.forall_mem_cons.mpr ⟨hline, hlines⟩) (by simp [addByte])
    · rw [addByte, if_neg hb]
      exact ih hlines (by simpa [hopened] using Ne.symm hb)

theorem Cut.receive (h : c.Cut) (bytes : List UInt8) : (c.receive bytes).Cut := by
  unfold Channel.receive
  split
  · exact h
  · have hopen : 0x0A ∉ (([], c.opened.reverse) : List
      (List UInt8) × List UInt8).2 := by simpa using h.opened
    obtain ⟨hlines, hopened⟩ := cut_foldl_addByte bytes (by simp) hopen
    exact ⟨fun line hl => (List.mem_append.mp hl).elim (h.lines line) fun hl =>
      hlines line (List.mem_reverse.mp hl), fun hb => hopened (List.mem_reverse.mp hb)⟩

theorem await_suffix (id : Nat) (lines : List (List UInt8)) :
    (Bridge.await id lines).2 <:+ lines := by
  induction lines with
  | nil => exact List.suffix_rfl
  | cons line lines ih =>
    unfold Bridge.await
    split
    · exact List.suffix_cons ..
    · exact ih.trans (List.suffix_cons ..)

theorem Cut.await (h : c.Cut) (id : Nat) : (c.await id).2.Cut :=
  ⟨fun line hl => h.lines line ((await_suffix id c.lines).subset hl), h.opened⟩

theorem isLine_drop {line : List UInt8} (h : IsLine line) {n : Nat} (hn : n < line.length) :
    IsLine (line.drop n) := by
  obtain ⟨body, hbody, rfl⟩ := h
  rw [List.length_append, List.length_singleton] at hn
  exact ⟨body.drop n, fun hb => hbody (List.mem_of_mem_drop hb),
    List.drop_append_of_le_length (by omega)⟩

/-- A request that was given up, with the bytes it had read of a line lost, leaves the lines cut. -/
theorem Cut.lose {n : Nat} {c' : Channel} (h : c.Cut) (lost : c.lose? n = some c') : c'.Cut := by
  obtain ⟨lines, opened, isClosed⟩ := c
  unfold lose? at lost
  cases lines with
  | nil =>
    obtain ⟨-, lost⟩ := Option.ite_none_right_eq_some.mp lost
    cases lost
    exact ⟨h.lines, fun hb => h.opened (List.mem_of_mem_drop hb)⟩
  | cons line rest =>
    obtain ⟨hn, lost⟩ := Option.ite_none_right_eq_some.mp lost
    cases lost
    obtain ⟨hline, hrest⟩ := List.forall_mem_cons.mp h.lines
    exact ⟨List.forall_mem_cons.mpr ⟨isLine_drop hline hn, hrest⟩, h.opened⟩

end Channel

/-! ### What a request finds -/

namespace Transport

variable {σ : Type} {servers : Servers σ} {t : Transport} {method : String} {params : Option Value}
  {w : Wire σ}

/-- The request is written, and `out` is the output of its server from then on, with what was left
unread before: its bytes, and whether it ends with them. -/
structure Finds (servers : Servers σ) (t : Transport) (method : String) (params : Option Value)
    (w : Wire σ) (out : Output) : Prop where
  isOpen : t.isOpen = true
  unclosed : t.channel.isClosed = false
  cut : t.channel.Cut
  written : ∃ said outside,
    servers.write t.server (callDoc (some w.nextId) method params).text w.outside =
    (.ok said, outside) ∧ out = ⟨t.channel.unread ++ said.bytes, said.closes⟩

/-- A request leaves the lines of an open channel cut. -/
theorem cut_request (servers : Servers σ) (t : Transport) (method : String) (params : Option Value)
    (w : Wire σ) (h : t.channel.isClosed = true ∨ t.channel.Cut) :
    (t.request servers method params w).2.1.channel.isClosed = true ∨
      (t.request servers method params w).2.1.channel.Cut := by
  by_cases isOpen : t.isOpen = true
  · rcases written : servers.write t.server
      (callDoc (some w.nextId) method params).text w.outside with
      ⟨reason | out, outside⟩
    · rw [request_unwritten isOpen written]
      exact h
    · have heard : (t.hear out).channel.isClosed = true ∨ (t.hear out).channel.Cut := by
        unfold hear
        dsimp only
        split
        · exact .inl rfl
        · refine h.imp (fun closed => ?_) fun cut => cut.receive out.bytes
          simp [Channel.receive, closed]
      have left : ((t.hear out).read w.nextId).2.channel =
          ((t.hear out).channel.await w.nextId).2 := by
        unfold read
        dsimp only
        split
        · rfl
        · rfl
        · split <;> rfl
      rw [request_written isOpen written, left]
      exact heard.imp id fun cut => cut.await w.nextId
  · rw [request_closed (by simpa using isOpen)]
    exact h

/-- The channel on which all of an output was received and nothing read. -/
def heard (out : Output) : Channel := ((new "").hear out).channel

theorem heard_flatten_append {lines : List (List UInt8)} (h : ∀ line ∈ lines, IsLine line)
    (tail : List UInt8) (closes : Bool) :
    heard ⟨lines.flatten ++ tail, closes⟩ =
      { heard ⟨tail, closes⟩ with lines := lines ++ (heard ⟨tail, closes⟩).lines } := by
  unfold heard hear
  simp only [new, Channel.receive_flatten_append h]
  cases closes with
  | false => rfl
  | true =>
    simp only [if_true, Channel.close]
    split <;> simp

/-- A request comes to what a wait comes to on the output that it finds. -/
theorem Finds.request {out : Output} (h : Finds servers t method params w out) :
    (t.request servers method params w).1 =
      (({ t with channel := heard out } : Transport).read w.nextId).1 := by
  obtain ⟨said, outside, written, rfl⟩ := h.written
  rw [request_written h.isOpen written]
  have same : t.hear said = { t with channel := heard ⟨t.channel.unread ++ said.bytes,
      said.closes⟩ } := by
    simp only [hear, heard, new, Channel.receive_eq h.cut h.unclosed]
  rw [same]

/-- A wait passes over the lines that do not end it. -/
theorem read_append {id : Nat} {lines rest : List (List UInt8)}
    (next : t.channel.lines = lines ++ rest) : (t.read id).1 = match lines.findSome? (meet id) with
      | some a => some (Shared.resultOf t a)
      | none =>
        (({ t with channel := { t.channel with lines := rest } } : Transport).read id).1 := by
  induction lines generalizing t with
  | nil =>
    obtain ⟨server, isOpen, lines, opened, isClosed⟩ := t
    cases next
    rfl
  | cons line lines ih =>
    rw [List.findSome?_cons]
    cases hm : meet id line with
    | some a => rw [read_met next hm]
    | none =>
      rw [read_missed next hm]
      exact ih rfl

/-- A request comes to what the first line makes of it, if that ends the wait. -/
theorem Finds.request_of_first {line rest : List UInt8} {closes : Bool} {a : Awaited}
    (h : Finds servers t method params w ⟨line ++ rest, closes⟩) (hline : IsLine line)
    (met : meet w.nextId line = some a) :
    (t.request servers method params w).1 = some (Shared.resultOf t a) := by
  have first : heard ⟨line ++ rest, closes⟩ =
      { heard ⟨rest, closes⟩ with lines := line :: (heard ⟨rest, closes⟩).lines } := by
    simpa using heard_flatten_append (List.forall_mem_singleton.mpr hline) rest closes
  rw [h.request, first, read_met rfl met]
  rfl

/-- What a wait comes to on a channel depends on the name of the server alone. -/
theorem read_of_server {t' : Transport} (same : t'.server = t.server) (c : Channel) (id : Nat) :
    (({ t' with channel := c } : Transport).read id).1 =
      (({ t with channel := c } : Transport).read id).1 := by
  unfold read
  dsimp only
  cases (c.await id).1 with
  | answered r => rfl
  | unreadable f => simp only [failure, same]
  | unanswered => simp only [failure, same]; split <;> rfl

end Transport

/-! ### What a line says -/

/-- The document that a line says, if it is text and JSON throughout. -/
def docOf? (line : List UInt8) : Option Doc :=
  let r := Json.read (Text.trim (Text.lossy line))
  if IsText line ∧ r.trailing = false ∧ r.doc.isBroken = false then some r.doc else none

/-- The document is a response to the request `id`. -/
structure ResponseDoc (id : Nat) (d : Doc) : Prop where
  sameId : d.member? "id" = some (.num (.int id))
  content : (d.member? "result").isSome = true ∨ (d.member? "error").isSome = true
  noMethod : d.member? "method" = none

/-- The line is a response to the request `id`. -/
def IsResponse (id : Nat) (line : List UInt8) : Prop := ∃ d, docOf? line = some d ∧ ResponseDoc id d

/-- The document is no response to the request `id`, but can be read as one. -/
inductive Posing (id : Nat) : Doc → Prop
  /-- An array that stands for a response. -/
  | listed (items : List Doc) : Posing id (.arr (.num (.int id) :: items))
  /-- A request of the server. -/
  | called {d : Doc} : d.member? "id" = some (.num (.int id)) → (d.member? "method").isSome = true →
      Posing id d
  /-- An object without a result and an error. -/
  | bare {d : Doc} : d.member? "id" = some (.num (.int id)) → d.member? "result" = none →
      d.member? "error" = none → Posing id d

/-! ### Reading a response -/

/-- The names of the members of a response. -/
def responseMembers : List Member := ["id", "result", "error"]

theorem slots_of_decode {room : Nat} {d : Doc} {r : RpcResponse}
    (h : RpcResponse.decode room d = .ok r) : ∃ s, record responseMembers room d = .ok s ∧
      s.defaulted "id" none (nullable (natural 64)) = .ok r.id := by
  unfold RpcResponse.decode at h
  obtain ⟨s, hs, h⟩ := bind_eq_ok h
  obtain ⟨id, hid, h⟩ := bind_eq_ok h
  obtain ⟨result, -, h⟩ := bind_eq_ok h
  obtain ⟨error, -, h⟩ := bind_eq_ok h
  cases h
  exact ⟨s, hs, hid⟩

theorem responseOf?_eq_some_iff {s : String} {r : RpcResponse} : responseOf? s = some r ↔
    ∃ d, Json.read (Text.trim s) = ⟨d, false⟩ ∧ RpcResponse.decode maxDepth d = .ok r := by
  unfold responseOf? decodeText Reading.decode
  obtain ⟨d, trailing⟩ := Json.read (Text.trim s)
  cases hr : RpcResponse.decode maxDepth d with
  | error e => simp [hr, Except.toOption]
  | ok r' => cases trailing <;> simp [hr, Except.toOption]

theorem docOf?_eq_some_iff {line : List UInt8} {d : Doc} : docOf? line = some d ↔
    IsText line ∧ Json.read (Text.trim (Text.lossy line)) = ⟨d, false⟩ ∧ d.isBroken = false := by
  unfold docOf?
  obtain ⟨d', trailing⟩ := Json.read (Text.trim (Text.lossy line))
  rw [Option.ite_none_right_eq_some]
  simp only [Option.some.injEq, Reading.mk.injEq]
  constructor
  · rintro ⟨⟨text, whole, unbroken⟩, rfl⟩
    exact ⟨text, ⟨rfl, whole⟩, unbroken⟩
  · rintro ⟨text, ⟨rfl, whole⟩, unbroken⟩
    exact ⟨⟨text, whole, unbroken⟩, rfl⟩

/-- A line answers a request if what it says reads as a response that has the id. -/
theorem answerTo?_eq_some_iff {id : Nat} {line : List UInt8} {r : RpcResponse} :
    answerTo? id line = some r ↔
      ∃ d, docOf? line = some d ∧ RpcResponse.decode maxDepth d = .ok r ∧ r.id = some id := by
  simp only [docOf?_eq_some_iff]
  constructor
  · intro h
    obtain ⟨there, hid⟩ := responseIn?_of_answerTo? h
    have text := isText_of_answerTo? h
    unfold responseIn? at there
    rw [text] at there
    obtain ⟨d, hread, hd⟩ := responseOf?_eq_some_iff.mp there
    obtain ⟨s, hs, -⟩ := slots_of_decode hd
    exact ⟨d, ⟨text, hread, not_isBroken_of_record hs⟩, hd, hid⟩
  · rintro ⟨d, ⟨text, hread, -⟩, hd, hid⟩
    have there : responseIn? line = some r := by
      unfold responseIn?
      rw [text]
      exact responseOf?_eq_some_iff.mpr ⟨d, hread, hd⟩
    simp [answerTo?, there, hid, Option.filter]

theorem num_of_nullable {room : Nat} {d : Doc} {id : Nat}
    (h : nullable (natural 64) room d = .ok (some id)) : d = .num (.int id) := by
  unfold nullable natural integer at h
  split at h
  · cases h
  split at h
  next i =>
    split at h
    next bounds =>
      cases h
      rw [Int.toNat_of_nonneg bounds.1]
    · cases h
  · cases h

/-- What is read as a response to a request is an object that has the id, or an array that starts
with it. -/
theorem id_of_decode {room id : Nat} {d : Doc} {r : RpcResponse}
    (h : RpcResponse.decode room d = .ok r) (hid : r.id = some id) :
    d.member? "id" = some (.num (.int id)) ∨ ∃ items, d = .arr (.num (.int id) :: items) := by
  obtain ⟨s, hs, hgiven⟩ := slots_of_decode h
  -- the id stands in its slot
  have hslot : s.given.lookup "id" = some (.num (.int id)) := by
    unfold Slots.defaulted at hgiven
    rw [hid] at hgiven
    cases hl : s.given.lookup "id" with
    | none => rw [hl] at hgiven; cases hgiven
    | some d' =>
      rw [hl] at hgiven
      rw [num_of_nullable hgiven]
  obtain ⟨-, ⟨members, rfl, hwalk⟩ | ⟨items, rfl, hwalk⟩⟩ := walk_of_record hs
  · have hfirst := lookup_of_walkMembers _ (by simp [responseMembers]) hwalk
      (show "id" ∈ responseMembers.map (·.name) by simp [responseMembers])
    rw [hslot] at hfirst
    exact .inl (by simpa [Doc.member?] using hfirst.symm)
  · cases items with
    | nil =>
      rw [walkItems] at hwalk
      rw [← Except.ok.inj hwalk] at hslot
      cases hslot
    | cons d items =>
      simp only [responseMembers, walkItems] at hwalk
      split at hwalk
      · cases hwalk
      · rw [lookup_of_walkItems (by simp) hwalk, List.lookup_cons_self] at hslot
        cases hslot
        exact .inr ⟨items, rfl⟩

/-- A line that is no response and yet answers a request says something that poses as one. -/
theorem posing_of_answerTo? {id : Nat} {line : List UInt8} {r : RpcResponse}
    (h : answerTo? id line = some r) (noise : ¬ IsResponse id line) :
    ∃ d, docOf? line = some d ∧ Posing id d := by
  obtain ⟨d, hd, hr, hid⟩ := answerTo?_eq_some_iff.mp h
  refine ⟨d, hd, ?_⟩
  rcases id_of_decode hr hid with hid | ⟨items, rfl⟩
  · by_cases called : (d.member? "method").isSome = true
    · exact .called hid called
    · by_cases content : (d.member? "result").isSome = true ∨ (d.member? "error").isSome = true
      · exact (noise ⟨d, hd, hid, content, Option.not_isSome_iff_eq_none.mp called⟩).elim
      · rw [not_or, Option.not_isSome_iff_eq_none, Option.not_isSome_iff_eq_none] at content
        exact .bare hid content.1 content.2
  · exact .listed items

/-- **A request of the server answers the request that has its id**, with nothing in it. -/
theorem answerTo?_of_bare {id : Nat} (hid : id < 2 ^ 64) {line : List UInt8}
    {members : List (Option String × Doc)} (hdoc : docOf? line = some (.obj members))
    (read : ∀ m ∈ members, m.1.isSome = true ∧ m.2.isBroken = false)
    (distinct : (members.map Prod.fst).Nodup)
    (sameId : members.lookup (some "id") = some (.num (.int id)))
    (noResult : members.lookup (some "result") = none)
    (noError : members.lookup (some "error") = none) :
    answerTo? id line = some ⟨some id, none, none⟩ := by
  obtain ⟨s, hs, holds⟩ :=
    record_obj_eq_ok responseMembers 126 (by simp [responseMembers]) read distinct
  have given (key : String) (hkey : key ∈ responseMembers.map (·.name)) {α : Type}
    (dec : Decoder α) :
      s.defaulted key none (nullable dec) =
          nullable dec 126 ((members.lookup (some key)).getD .null) :=
    holds.nullable key hkey dec
  have nat : nullable (natural 64) 126 (.num (.int id)) = .ok (some id) := by
    have bounds : (0 : Int) ≤ id ∧ (id : Int) ≤ (Nat.pow 2 64 - 1 : Nat) := by
      have : Nat.pow 2 64 = 2 ^ 64 := rfl
      omega
    simp only [nullable, natural, integer, if_pos bounds]
    rfl
  refine answerTo?_eq_some_iff.mpr ⟨_, hdoc, ?_, rfl⟩
  unfold RpcResponse.decode
  change (record responseMembers maxDepth (.obj members) >>= _) = _
  rw [show maxDepth = 126 + 1 from rfl, hs]
  simp only [bind, Except.bind]
  rw [given "id" (by simp [responseMembers]), given "result" (by simp [responseMembers]),
    given "error" (by simp [responseMembers]), sameId, noResult, noError, Option.getD_some, nat]
  rfl

/-! ### Noise and results -/

open Transport in
/-- **Noise changes a result only by a line that ends the wait.** Two requests with one id find one
output, the first with lines in front of it that are no response. Their results are equal if and
only if the first of these lines that ends a wait, if there is one, comes to that result. A line
that ends the wait and is no response is not text, or poses as a response. What is found without
noise is the result of the answer that stands first, whatever follows it. -/
theorem same_result_past_noise_iff {σ σ' : Type} {servers : Servers σ} {servers' : Servers σ'}
    {t t' : Transport} {method method' : String} {params params' : Option Value} {w : Wire σ}
    {w' : Wire σ'} {noise : List (List UInt8)} {answer : List UInt8} {closes : Bool}
    (noisy : Finds servers t method params w ⟨noise.flatten ++ answer, closes⟩)
    (quiet : Finds servers' t' method' params' w' ⟨answer, closes⟩)
    (sameServer : t'.server = t.server) (sameId : w'.nextId = w.nextId)
    (lines : ∀ line ∈ noise, IsLine line ∧ ¬ IsResponse w.nextId line) :
    ((t.request servers method params w).1 = (t'.request servers' method' params' w').1 ↔
      ∀ a, noise.findSome? (meet w.nextId) = some a →
        some (Shared.resultOf t a) = (t'.request servers' method' params' w').1) ∧
    (∀ line ∈ noise, meet w.nextId line ≠ none →
      ¬ IsText line ∨ ∃ d, docOf? line = some d ∧ Posing w.nextId d) ∧
    (∀ line rest r, answer = line ++ rest → IsLine line → answerTo? w.nextId line = some r →
      (t'.request servers' method' params' w').1 = some (resultOf r)) := by
  have isLine : ∀ line ∈ noise, IsLine line := fun line hl => (lines line hl).1
  have loud : (t.request servers method params w).1 = match noise.findSome? (meet w.nextId) with
      | some a => some (Shared.resultOf t a)
      | none => (t'.request servers' method' params' w').1 := by
    rw [noisy.request, quiet.request, sameId, heard_flatten_append isLine, read_append rfl,
      read_of_server sameServer]
    rfl
  refine ⟨?_, ?_, ?_⟩
  · rw [loud]
    cases noise.findSome? (meet w.nextId) with
    | none => simp
    | some a => simp
  · intro line hl ends
    obtain ⟨a, ha⟩ := Option.ne_none_iff_exists'.mp ends
    rcases meet_cases ha with ⟨r, hr, -⟩ | ⟨f, text, -⟩
    · exact .inr (posing_of_answerTo? hr (lines line hl).2)
    · exact .inl text
  · rintro line rest r rfl hline hr
    exact quiet.request_of_first hline (sameId ▸ meet_eq_answered hr)

/-- A server that says the same on every line. -/
def saying (bytes : List UInt8) : Servers Unit where
  start _ _ _ := (.ok (), ())
  write _ _ _ := (.ok ⟨bytes, false⟩, ())
  stop _ _ := ([], ())

/-- The line of a document. -/
def lineOf (d : Doc) : List UInt8 := Text.encode (d.text ++ "\n")

/-- What a request comes to that is the first of all, on a server that says the same on every
line. -/
def firstResult (bytes : List UInt8) : Option (Except Failure Value) :=
  ((Transport.new "echo").request (saying bytes) "a" none ⟨(), 1⟩).1

/-- A request of the server. -/
def pingDoc (id : Nat) : Doc := callDoc (some id) "ping" none

/-- The result of a test server. -/
def echoValue : Value := .obj [("echo", .num (.int 1))]

/-- The response of a test server. -/
def echoDoc (id : Nat) : Doc :=
  .record [field "jsonrpc" (.str "2.0"), field "id" (.ofNat id), field "result" echoValue.doc]

theorem finds_saying (bytes : List UInt8) :
    (Transport.new "echo").Finds (saying bytes) "a" none ⟨(), 1⟩ ⟨bytes, false⟩ :=
  ⟨rfl, rfl, Channel.cut_empty, ⟨bytes, false⟩, (), rfl, rfl⟩

theorem isText_encode (s : String) : IsText (Text.encode s) := by
  unfold IsText Text.Utf8Fault.of?
  rw [Text.decode_encode]
  simp

theorem docOf?_lineOf {d : Doc} (exact : d.Exact) (trims : Text.trim (d.text ++ "\n") = d.text) :
    docOf? (lineOf d) = some d := by
  refine docOf?_eq_some_iff.mpr ⟨isText_encode _, ?_, not_isBroken d exact⟩
  rw [lineOf, Text.lossy_encode, trims, read_text exact]

theorem isLine_lineOf {d : Doc} (oneLine : '\n' ∉ d.text.toList) : IsLine (lineOf d) := by
  refine ⟨Text.encode d.text, Text.not_mem_encode (by decide) oneLine, ?_⟩
  rw [lineOf, Text.encode_append]
  rfl

/-- A request or notification is no response. -/
theorem not_isResponse_callDoc {line : List UInt8} {own : Option Nat} {method : String}
    {params : Option Value} (hdoc : docOf? line = some (callDoc own method params))
    (id : Nat) : ¬ IsResponse id line := by
  rintro ⟨d, hd, response⟩
  rw [hdoc] at hd
  cases hd
  have hmethod := response.noMethod
  cases own <;> cases hmethod

theorem docOf?_echoDoc : docOf? (lineOf (echoDoc 1)) = some (echoDoc 1) :=
  docOf?_lineOf (exact_of_isPlain _ (by decide)) (by decide +kernel)

theorem answerTo?_echoDoc :
    answerTo? 1 (lineOf (echoDoc 1)) = some ⟨some 1, some echoValue, none⟩ :=
  answerTo?_eq_some_iff.mpr ⟨_, docOf?_echoDoc, rfl, rfl⟩

/-- A log line and a request with an id of the server in front of the answer. -/
theorem same_result_past_noise_logs :
    firstResult
        ([Text.encode "server log line\n", lineOf (pingDoc 7)].flatten ++ lineOf (echoDoc 1)) =
      some (.ok echoValue) := by
  have unread : docOf? (Text.encode "server log line\n") = none :=
    Option.isNone_iff_eq_none.mp (by decide +kernel)
  have hping : docOf? (lineOf (pingDoc 7)) = some (pingDoc 7) :=
    docOf?_lineOf (exact_of_isPlain _ (by decide)) (by decide +kernel)
  have isPing : IsLine (lineOf (pingDoc 7)) := isLine_lineOf (by decide +kernel)
  have isLog : IsLine (Text.encode "server log line\n") :=
    ⟨Text.encode "server log line", by decide +kernel, by decide +kernel⟩
  have logOnly : ¬ IsResponse 1 (Text.encode "server log line\n") := by
    rintro ⟨d, hd, -⟩
    rw [unread] at hd
    cases hd
  obtain ⟨same, -, first⟩ := same_result_past_noise_iff
    (finds_saying
      ([Text.encode "server log line\n", lineOf (pingDoc 7)].flatten ++ lineOf (echoDoc 1)))
    (finds_saying (lineOf (echoDoc 1))) rfl rfl
    (by simp [isLog, logOnly, isPing, not_isResponse_callDoc hping 1])
  have alone : firstResult (lineOf (echoDoc 1)) = some (.ok echoValue) :=
    first _ [] _ (List.append_nil _).symm (isLine_lineOf (by decide +kernel)) answerTo?_echoDoc
  have logMissed : meet 1 (Text.encode "server log line\n") = none := by
    refine meet_eq_none_iff.mpr
      ⟨isText_encode _, Option.eq_none_iff_forall_ne_some.mpr fun r hr => ?_⟩
    obtain ⟨d, hd, -⟩ := answerTo?_eq_some_iff.mp hr
    rw [unread] at hd
    cases hd
  have pingMissed : meet 1 (lineOf (pingDoc 7)) = none := by
    refine meet_eq_none_iff.mpr
      ⟨isText_encode _, Option.eq_none_iff_forall_ne_some.mpr fun r hr => ?_⟩
    have own : answerTo? 7 (lineOf (pingDoc 7)) = some ⟨some 7, none, none⟩ :=
      answerTo?_of_bare (by decide) hping (by decide) (by decide) rfl rfl rfl
    cases answerTo?_unique hr own
  refine (same.mpr fun a ha => ?_).trans alone
  rw [List.findSome?_eq_none_iff.mpr (by simp [logMissed, pingMissed])] at ha
  cases ha

/-- **A request of the server with the id of the request under way is taken for its answer**: the
request comes to `null`, and to what its answer says if the server asks nothing. -/
theorem own_request_taken_for_answer :
    (IsLine (lineOf (pingDoc 1)) ∧ ¬ IsResponse 1 (lineOf (pingDoc 1))) ∧
    (IsLine (lineOf (echoDoc 1)) ∧ IsResponse 1 (lineOf (echoDoc 1))) ∧
    firstResult (lineOf (pingDoc 1) ++ lineOf (echoDoc 1)) = some (.ok .null) ∧
    firstResult (lineOf (echoDoc 1)) = some (.ok echoValue) ∧
    firstResult (lineOf (pingDoc 1) ++ lineOf (echoDoc 1)) ≠ firstResult (lineOf (echoDoc 1)) := by
  have hping : docOf? (lineOf (pingDoc 1)) = some (pingDoc 1) :=
    docOf?_lineOf (exact_of_isPlain _ (by decide)) (by decide +kernel)
  have taken : answerTo? 1 (lineOf (pingDoc 1)) = some ⟨some 1, none, none⟩ :=
    answerTo?_of_bare (by decide) hping (by decide) (by decide) rfl rfl rfl
  have isPing : IsLine (lineOf (pingDoc 1)) := isLine_lineOf (by decide +kernel)
  have isEcho : IsLine (lineOf (echoDoc 1)) := isLine_lineOf (by decide +kernel)
  have noisy : firstResult (lineOf (pingDoc 1) ++ lineOf (echoDoc 1)) = some (.ok .null) :=
    (finds_saying _).request_of_first isPing (meet_eq_answered taken)
  have alone : firstResult (lineOf (echoDoc 1)) = some (.ok echoValue) := by
    have found := finds_saying (lineOf (echoDoc 1) ++ [])
    rw [List.append_nil] at found
    exact (List.append_nil (lineOf (echoDoc 1)) ▸ found).request_of_first isEcho
      (meet_eq_answered answerTo?_echoDoc)
  refine ⟨⟨isPing, not_isResponse_callDoc hping 1⟩,
    ⟨isEcho, echoDoc 1, docOf?_echoDoc, rfl, .inl rfl, rfl⟩, noisy, alone, ?_⟩
  rw [noisy, alone]
  exact fun h => by cases h

end ChatRelay.Bridge
