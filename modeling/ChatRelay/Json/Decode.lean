import ChatRelay.Json.Reader

/-! # Decoding JSON documents

A decoder turns a document into a value of a fixed shape or names a fault: `malformed` where the
text is no JSON, holds a part without a value or nests too deep, `unfit` where it is JSON of another
shape. Decoders walk a document in the order of its text, so the first fault counts.

A decoder gets the number of levels of arrays and objects that may still be opened. Whole texts are
decoded with `maxDepth` levels. Parts that no member asks for are not looked into: there any depth
and any string will do, only the text has to be JSON.

Records are objects with known members. A member may be given once; unknown ones are passed over. An
array with the members' values in order stands for the object, and then only members with a default
may be missing. -/

namespace ChatRelay.Json

/-- Why a document does not decode. -/
inductive Fault
  | malformed
  | unfit
  deriving DecidableEq, Repr

/-- Reads a document that may open the given number of levels. -/
abbrev Decoder (α : Type) := Nat → Doc → Except Fault α

/-- The levels of arrays and objects that a text may nest. -/
def maxDepth : Nat := 127

mutual

/-- The text of a document stops being JSON within it; that is its last part. -/
def Doc.isBroken : Doc → Bool
  | .broken => true
  | .arr items => itemsBroken items
  | .obj members => membersBroken members
  | _ => false

/-- The last item is broken. -/
def itemsBroken : List Doc → Bool
  | [] => false
  | [d] => d.isBroken
  | _ :: rest => itemsBroken rest

/-- The last member is broken. -/
def membersBroken : List (Option String × Doc) → Bool
  | [] => false
  | [(_, d)] => d.isBroken
  | _ :: rest => membersBroken rest

end

/-- The fault of a document of another shape than asked for. -/
def Doc.mismatch : Doc → Fault
  | .broken => .malformed
  | .unreadable => .malformed
  | _ => .unfit

/-! ### Scalars -/

/-- Passes over any JSON text. -/
def skip : Decoder Unit := fun _ d => if d.isBroken then .error .malformed else .ok ()

/-- A string. -/
def text : Decoder String := fun _ d =>
  match d with
  | .str s => .ok s
  | d => .error d.mismatch

/-- A truth value. -/
def boolean : Decoder Bool := fun _ d =>
  match d with
  | .bool b => .ok b
  | d => .error d.mismatch

/-- An integer between two bounds. -/
def integer (low high : Int) : Decoder Int := fun _ d =>
  match d with
  | .num (.int i) => if low ≤ i ∧ i ≤ high then .ok i else .error .unfit
  | d => .error d.mismatch

/-- A natural number of at most `bits` bits. -/
def natural (bits : Nat) : Decoder Nat := fun room d =>
  (integer 0 (Nat.pow 2 bits - 1 : Nat) room d).map Int.toNat

/-- An integer of at most `bits` bits, its sign included. -/
def signed (bits : Nat) : Decoder Int :=
  integer (-(Nat.pow 2 (bits - 1) : Nat)) (Nat.pow 2 (bits - 1) - 1 : Nat)

/-- A value or `null`. -/
def nullable {α : Type} (dec : Decoder α) : Decoder (Option α) := fun room d =>
  match d with
  | .null => .ok none
  | d => (dec room d).map some

/-! ### Lists and free-form values -/

/-- Decodes items in order. -/
def decodeItems {α : Type} (dec : Decoder α)
    (room : Nat) : List Doc → List α → Except Fault (List α)
  | [], acc => .ok acc.reverse
  | d :: rest, acc =>
    match dec room d with
    | .error e => .error e
    | .ok a => decodeItems dec room rest (a :: acc)

/-- An array of items of one shape. -/
def list {α : Type} (dec : Decoder α) : Decoder (List α) := fun room d =>
  match d, room with
  | .arr _, 0 => .error .malformed
  | .arr items, room + 1 => decodeItems dec room items []
  | d, _ => .error d.mismatch

mutual

/-- Any value. -/
def value : Nat → Doc → Except Fault Value
  | _, .null => .ok .null
  | _, .bool b => .ok (.bool b)
  | _, .num n => .ok (.num n)
  | _, .str s => .ok (.str s)
  | 0, .arr _ => .error .malformed
  | room + 1, .arr items => (valueItems room items []).map .arr
  | 0, .obj _ => .error .malformed
  | room + 1, .obj members => (valueMembers room members []).map .obj
  | _, .unreadable => .error .malformed
  | _, .broken => .error .malformed

/-- The values of an array's items, in order after those in `acc`. -/
def valueItems : Nat → List Doc → List Value → Except Fault (List Value)
  | _, [], acc => .ok acc.reverse
  | room, d :: rest, acc =>
    match value room d with
    | .error e => .error e
    | .ok v => valueItems room rest (v :: acc)

/-- The object made by setting members one after another. -/
def valueMembers : Nat → List (Option String × Doc) → Object → Except Fault Object
  | _, [], acc => .ok acc
  | room, (k, d) :: rest, acc =>
    match k, value room d with
    | none, _ => .error .malformed
    | some _, .error e => .error e
    | some k, .ok v => valueMembers room rest (Object.insert k v acc)

end

/-- A free-form object. -/
def object : Decoder Object := fun room d =>
  match d with
  | .obj _ =>
    match value room d with
    | .ok (.obj o) => .ok o
    | .ok _ => .error .unfit
    | .error e => .error e
  | d => .error d.mismatch

/-- A text that is JSON with a value throughout, whatever it says. -/
def anyValue : Decoder Unit := fun room d => (value room d).map fun _ => ()

/-! ### Records -/

/-- The members of a record that were given. -/
structure Slots where
  /-- By the member's name. -/
  given : List (String × Doc)
  /-- An array stands for the object. -/
  positional : Bool
  /-- The levels left for the members' values. -/
  room : Nat

/-- A member of a record: its name and other names that stand for it. -/
structure Member where
  name : String
  aliases : List String

/-- A member without other names. -/
instance : Coe String Member := ⟨fun s => ⟨s, []⟩⟩

/-- The member with a name. -/
def memberNamed (ms : List Member) (key : String) : Option Member :=
  ms.find? fun m => m.name == key || m.aliases.contains key

/-- Walks the members of an object. `visit` sees the value of each known one. -/
def walkMembers (ms : List Member) (visit : String → Decoder Unit) (room : Nat) :
    List (Option String × Doc) → List (String × Doc) → Except Fault (List (String × Doc))
  | [], given => .ok given
  | (none, _) :: _, _ => .error .malformed
  | (some k, d) :: rest, given =>
    match memberNamed ms k with
    | none =>
      match skip room d with
      | .error e => .error e
      | .ok _ => walkMembers ms visit room rest given
    | some m =>
      if (given.lookup m.name).isSome then .error .unfit
      else
        match visit m.name room d with
        | .error e => .error e
        | .ok _ => walkMembers ms visit room rest ((m.name, d) :: given)

/-- Walks the items of an array that stands for an object. -/
def walkItems (visit : String → Decoder Unit) (room : Nat) :
    List Member → List Doc → List (String × Doc) → Except Fault (List (String × Doc))
  | _, [], given => .ok given
  | [], _ :: _, _ => .error .malformed
  | m :: ms, d :: rest, given =>
    match visit m.name room d with
    | .error e => .error e
    | .ok _ => walkItems visit room ms rest ((m.name, d) :: given)

/-- A record with the members `ms`, where `visit` has to pass each member's value as it is met. -/
def recordVisiting (ms : List Member) (visit : String → Decoder Unit) : Decoder Slots :=
  fun room d =>
    match d, room with
    | .obj _, 0 => .error .malformed
    | .arr _, 0 => .error .malformed
    | .obj members, room + 1 =>
      (walkMembers ms visit room members []).map fun given => ⟨given, false, room⟩
    | .arr items, room + 1 =>
      (walkItems visit room ms items []).map fun given => ⟨given, true, room⟩
    | d, _ => .error d.mismatch

/-- A record with the members `ms`. -/
def record (ms : List Member) : Decoder Slots := recordVisiting ms fun _ => skip

namespace Slots

/-- A member that has to be there. -/
def required {α : Type} (s : Slots) (name : String) (dec : Decoder α) : Except Fault α :=
  match s.given.lookup name with
  | some d => dec s.room d
  | none => .error .unfit

/-- A member that may be `null`, or missing where the members have names. -/
def optional {α : Type} (s : Slots) (name : String) (dec : Decoder α) :
    Except Fault (Option α) :=
  match s.given.lookup name with
  | some d => nullable dec s.room d
  | none => if s.positional then .error .unfit else .ok none

/-- A member with a default. -/
def defaulted {α : Type} (s : Slots) (name : String) (default : α) (dec : Decoder α) :
    Except Fault α :=
  match s.given.lookup name with
  | some d => dec s.room d
  | none => .ok default

end Slots

/-! ### Whole texts -/

/-- Decodes what was read; nothing but blanks may follow the document. -/
def Reading.decode {α : Type} (r : Reading) (dec : Decoder α) : Except Fault α :=
  match dec maxDepth r.doc with
  | .error e => .error e
  | .ok a => if r.trailing then .error .malformed else .ok a

/-- Decodes a whole text. -/
def decodeText {α : Type} (dec : Decoder α) (s : String) : Except Fault α := (read s).decode dec

/-- Decodes a whole text given by its bytes. -/
def decodeBytes {α : Type} (dec : Decoder α) (bs : List UInt8) : Except Fault α :=
  (readBytes bs).decode dec

/-- The value that a text means, if it is JSON. -/
def parse? (s : String) : Option Value := (decodeText value s).toOption

/-- Decodes a value that was itself read from a text. -/
def decodeValue {α : Type} (dec : Decoder α) (v : Value) : Except Fault α := dec maxDepth v.doc

end ChatRelay.Json
