import ChatRelay.Yaml.Token

/-! # YAML documents

A document is one node: a scalar, a sequence, or a mapping with its entries in the order of the
text. An alias stands for the node that carries its anchor; an alias inside that very node is kept
as it is. A text holds one document, or none, which counts as an empty one. -/

namespace ChatRelay.Yaml

/-- A node. -/
inductive Node
  | scalar (s : Scalar)
  | seq (items : List Node)
  | map (entries : List (Node × Node))
  /-- An alias of a node around it. -/
  | inner
  deriving Repr, Inhabited

/-- The node of a place where nothing stands. -/
def Node.empty (tag : Option String) : Node := .scalar ⟨"", .plain, tag⟩

/-- The tokens that are left, the anchors met so far, and the tag handles of the document. -/
structure Source where
  rest : List Token
  anchors : List (String × Node)
  handles : List (String × String)

namespace Source

/-- Passes over a token. -/
def skip (s : Source) : Source := { s with rest := s.rest.drop 1 }

/-- Notes the node of an anchor, if there is one. -/
def note (s : Source) (anchor : Option String) (n : Node) : Source :=
  match anchor with
  | some name => { s with anchors := (name, n) :: s.anchors }
  | none => s

/-- A tag in full, if its handle is known. -/
def tagText? (s : Source) : WrittenTag → Option String
  | .whole uri => some uri
  | .short handle suffix => (s.handles.lookup handle).map (· ++ suffix)

/-- The next token is one of `ts`, or there is none. -/
def isAt (s : Source) (ts : List Token) : Bool :=
  match s.rest with
  | [] => true
  | t :: _ => ts.contains t

end Source

/-- The anchor and the tag in front of a node, in either order. -/
def readProperties (s : Source) : Option (Option String × Option String × Source) :=
  match s.rest with
  | .anchor a :: .tag t :: _ => (s.tagText? t).map fun u => (some a, some u, s.skip.skip)
  | .tag t :: .anchor a :: _ => (s.tagText? t).map fun u => (some a, some u, s.skip.skip)
  | .anchor a :: _ => some (some a, none, s.skip)
  | .tag t :: _ => (s.tagText? t).map fun u => (none, some u, s.skip)
  | _ => some (none, none, s)

/-- What is read, and the tokens after it. -/
abbrev Read (α : Type) := Option (α × Source)

mutual

/-- A node. `inBlock` allows it to start a block, `sameDepth` a sequence as deep as the key before
it. -/
def readNode (inBlock sameDepth : Bool) : (steps : Nat) → Source → Read Node
  | 0, _ => none
  | steps + 1, s =>
    match s.rest with
    | .alias name :: _ => (s.anchors.lookup name).map fun n => (n, s.skip)
    | _ =>
      match readProperties s with
      | none => none
      | some (anchor, tag, s) =>
        let collect (r : Read Node) : Read Node := r.map fun (n, s) => (n, s.note anchor n)
        let inside := s.note anchor .inner
        match s.rest with
        | .item :: _ =>
          if sameDepth then collect ((readItems true steps inside).map fun (ns, s) => (.seq ns, s))
          else if anchor.isSome || tag.isSome then collect (some (.empty tag, s))
          else none
        | .scalar text style :: _ => collect (some (.scalar ⟨text, style, tag⟩, s.skip))
        | .flowSequence :: _ =>
          collect ((readFlowItems true steps inside.skip).map fun (ns, s) => (.seq ns, s))
        | .flowMapping :: _ =>
          collect ((readFlowEntries true steps inside.skip).map fun (es, s) => (.map es, s))
        | t :: _ =>
          if inBlock && t == .blockSequence then
            collect ((readItems false steps inside.skip).map fun (ns, s) => (.seq ns, s))
          else if inBlock && t == .blockMapping then
            collect ((readEntries steps inside.skip).map fun (es, s) => (.map es, s))
          else if anchor.isSome || tag.isSome then collect (some (.empty tag, s))
          else none
        | [] => if anchor.isSome || tag.isSome then collect (some (.empty tag, s)) else none

/-- A node, or an empty one where one of the tokens `ends` follows. -/
def readNodeOr (ends : List Token) (inBlock sameDepth : Bool) : (steps : Nat) → Source → Read Node
  | 0, _ => none
  | steps + 1, s =>
    if s.isAt ends then some (.empty none, s) else readNode inBlock sameDepth steps s

/-- The items of a sequence in a block. One as deep as the key before it ends without a mark. -/
def readItems (sameDepth : Bool) : (steps : Nat) → Source → Read (List Node)
  | 0, _ => none
  | steps + 1, s =>
    match s.rest with
    | .item :: _ =>
      let ends := if sameDepth then [.item, .key, .value, .blockEnd] else [.item, .blockEnd]
      match readNodeOr ends true false steps s.skip with
      | none => none
      | some (n, s) => (readItems sameDepth steps s).map fun (ns, s) => (n :: ns, s)
    | .blockEnd :: _ => some ([], if sameDepth then s else s.skip)
    | _ => if sameDepth then some ([], s) else none

/-- The entries of a mapping in a block. -/
def readEntries : (steps : Nat) → Source → Read (List (Node × Node))
  | 0, _ => none
  | steps + 1, s =>
    let ends : List Token := [.key, .value, .blockEnd]
    match s.rest with
    | .key :: _ =>
      match readNodeOr ends true true steps s.skip with
      | none => none
      | some (k, s) =>
        match s.rest with
        | .value :: _ =>
          match readNodeOr ends true true steps s.skip with
          | none => none
          | some (v, s) => (readEntries steps s).map fun (es, s) => ((k, v) :: es, s)
        | _ => (readEntries steps s).map fun (es, s) => ((k, .empty none) :: es, s)
    | .blockEnd :: _ => some ([], s.skip)
    | _ => none

/-- The items of a sequence in brackets. An entry of a mapping may stand for a mapping with that
entry only. -/
def readFlowItems (first : Bool) : (steps : Nat) → Source → Read (List Node)
  | 0, _ => none
  | steps + 1, s =>
    match s.rest with
    | .flowSequenceEnd :: _ => some ([], s.skip)
    | t :: _ =>
      if !first && t != .comma then none
      else
        let s := if first then s else s.skip
        match s.rest with
        | .flowSequenceEnd :: _ => some ([], s.skip)
        | .key :: _ =>
          match readNodeOr [.value, .comma, .flowSequenceEnd] false false steps s.skip with
          | none => none
          | some (k, s) =>
            match readFlowValue [.comma, .flowSequenceEnd] steps s with
            | none => none
            | some (v, s) =>
              (readFlowItems false steps s).map fun (ns, s) => (.map [(k, v)] :: ns, s)
        | _ =>
          match readNode false false steps s with
          | none => none
          | some (n, s) => (readFlowItems false steps s).map fun (ns, s) => (n :: ns, s)
    | [] => none

/-- The value of an entry in brackets. -/
def readFlowValue (ends : List Token) : (steps : Nat) → Source → Read Node
  | 0, _ => none
  | steps + 1, s =>
    match s.rest with
    | .value :: _ => readNodeOr ends false false steps s.skip
    | _ => some (.empty none, s)

/-- The entries of a mapping in brackets. A node without a colon is a key without a value. -/
def readFlowEntries (first : Bool) : (steps : Nat) → Source → Read (List (Node × Node))
  | 0, _ => none
  | steps + 1, s =>
    match s.rest with
    | .flowMappingEnd :: _ => some ([], s.skip)
    | t :: _ =>
      if !first && t != .comma then none
      else
        let s := if first then s else s.skip
        match s.rest with
        | .flowMappingEnd :: _ => some ([], s.skip)
        | .key :: _ =>
          match readNodeOr [.value, .comma, .flowMappingEnd] false false steps s.skip with
          | none => none
          | some (k, s) =>
            match readFlowValue [.comma, .flowMappingEnd] steps s with
            | none => none
            | some (v, s) =>
              (readFlowEntries false steps s).map fun (es, s) => ((k, v) :: es, s)
        | _ =>
          match readNode false false steps s with
          | none => none
          | some (k, s) =>
            (readFlowEntries false steps s).map fun (es, s) => ((k, .empty none) :: es, s)
    | [] => none

end

/-! ### Documents -/

/-- The handles that every document knows. -/
def commonHandles : List (String × String) := [("!", "!"), ("!!", "tag:yaml.org,2002:")]

/-- The directives in front of a document: the tag handles, and the tokens after them. A version may
be given once and has to be 1.1 or 1.2, and a handle may be set once. -/
def readDirectives : List Token → (version : Bool) → (handles : List (String × String)) →
    Option (List (String × String) × List Token)
  | .version major minor :: r, version, handles =>
    if version || major != 1 || !(minor == 1 || minor == 2) then none
    else readDirectives r true handles
  | .tagHandle handle lead :: r, version, handles =>
    if (handles.lookup handle).isSome then none
    else readDirectives r version ((handle, lead) :: handles)
  | r, _, handles => some (handles, r)

/-- The first document of a text without its end, and the tokens after it. -/
def readDocument (ts : List Token) : Option (Node × List Token) :=
  match readDirectives ts false [] with
  | none => none
  | some (handles, rest) =>
    let explicit := rest.head? == some .documentStart
    if !explicit && rest.length != ts.length then none
    else
      let rest := if explicit then rest.drop 1 else rest
      let s : Source := ⟨rest, [], handles ++ commonHandles⟩
      if explicit && (match rest with
          | [] => true
          | .version .. :: _ => true
          | .tagHandle .. :: _ => true
          | t :: _ => [.documentStart, .documentEnd].contains t) then
        some (.empty none, rest)
      else (readNode true false (4 * rest.length + 4) s).map fun (n, s) => (n, s.rest)

/-- Why a text is not one document. -/
inductive Fault
  | malformed
  | severalDocuments
  /-- The document does not have the shape that is read. -/
  | unfit
  deriving DecidableEq, Repr, Inhabited

/-- The text shown for a fault. -/
def Fault.message : Fault → String
  | malformed => "malformed document"
  | severalDocuments => "more than one document"
  | unfit => "unexpected shape"

/-- The one document of a text. -/
def read (s : String) : Except Fault Node :=
  match tokens s with
  | none => .error .malformed
  | some [] => .ok (.empty none)
  | some ts =>
    match readDocument ts with
    | none => .error .malformed
    | some (n, rest) =>
      match rest.dropWhile (· == .documentEnd) with
      | [] => .ok n
      | t :: _ =>
        match t, rest with
        | .documentStart, _ => .error .severalDocuments
        | _, .documentEnd :: _ => .error .severalDocuments
        | _, _ => .error .malformed

end ChatRelay.Yaml
