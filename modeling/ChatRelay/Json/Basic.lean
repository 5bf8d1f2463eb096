import ChatRelay.Number.Binary64

/-! # JSON values and JSON documents

A `Value` is what a free-form JSON text means: objects are maps, kept as lists of members with
strictly increasing keys. Keys are compared by code points, which is also the order of their UTF-8
bytes.

A `Doc` is what a JSON text says, member by member, in the order of the text: keys may repeat, a
string or number may have no value (`unreadable`: a lone surrogate, a number beyond the doubles),
and where the text stops being JSON there is a last leaf `broken`. Texts of fixed shapes are read
from and written through documents, so that their members keep the declared order. -/

namespace ChatRelay.Json

open Number (Binary64)

/-- A JSON number: an integer of at most 64 bits, signed or unsigned, or a double. -/
inductive Num
  | int (i : Int)
  | real (x : Binary64)
  deriving DecidableEq, Repr, Inhabited

/-- A JSON value. -/
inductive Value
  | null
  | bool (b : Bool)
  | num (n : Num)
  | str (s : String)
  | arr (items : List Value)
  | obj (members : List (String × Value))
  deriving Inhabited, Repr, BEq

/-- A JSON object: its members by increasing key. -/
abbrev Object := List (String × Value)

/-- A JSON text, in the order of the text. -/
inductive Doc
  | null
  | bool (b : Bool)
  | num (n : Num)
  | str (s : String)
  | arr (items : List Doc)
  | obj (members : List (Option String × Doc))
  | unreadable
  | broken
  deriving Inhabited, Repr

/-! ### Objects -/

namespace Object

/-- The object with `key` set to `v`. -/
def insert (key : String) (v : Value) : Object → Object
  | [] => [(key, v)]
  | (k, w) :: rest =>
    if key < k then (key, v) :: (k, w) :: rest
    else if key = k then (key, v) :: rest
    else (k, w) :: insert key v rest

/-- The value of a key. -/
def find? (key : String) (o : Object) : Option Value := o.lookup key

/-- The object made by setting members one after another: the last of equal keys counts. -/
def ofList (members : List (String × Value)) : Object :=
  members.foldl (fun o m => insert m.1 m.2 o) []

end Object

/-! ### Values as documents -/

mutual

/-- The document of a value. -/
def Value.doc : Value → Doc
  | .null => .null
  | .bool b => .bool b
  | .num n => .num n
  | .str s => .str s
  | .arr items => .arr (itemDocs items)
  | .obj members => .obj (memberDocs members)

/-- The documents of an array's items. -/
def itemDocs : List Value → List Doc
  | [] => []
  | v :: rest => v.doc :: itemDocs rest

/-- The documents of an object's members. -/
def memberDocs : List (String × Value) → List (Option String × Doc)
  | [] => []
  | (k, v) :: rest => (some k, v.doc) :: memberDocs rest

end

/-! ### Parts of values -/

namespace Value

/-- The value of a member, none for any other value than an object that has it. -/
def member? (key : String) : Value → Option Value
  | .obj o => o.lookup key
  | _ => none

/-- The text of a string. -/
def str? : Value → Option String
  | .str s => some s
  | _ => none

end Value

end ChatRelay.Json
