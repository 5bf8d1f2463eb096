import ChatRelay.Proofs.Bridge.Asking
import ChatRelay.Proofs.Json.LeftOut
import ChatRelay.Proofs.Json.RoundTrip

/-! # What servers list

A value lists tools if it is an object whose member `tools` is an array of descriptions, one for
each tool; a description has a name, and it may have a text and a schema (`Describes`, `Lists`). A
server that fails to answer, or answers with another value, lists nothing (`Told`). The client finds
just these tools in a reply that it has received (`told_iff`); what is received was read from a
line, so it is sorted and nests no deeper than a text may (`fits_askToolsIn`). -/

namespace ChatRelay.Bridge

open Json Completion Client

/-! ### Descriptions -/

/-- The values of the members under some names. -/
def valuesUnder (names : List String) (o : Object) : List Value :=
  (o.filter fun m => names.contains m.1).map Prod.snd

/-- The text of a description, empty if none is given. -/
inductive DescribedBy : List Value → String → Prop
  | given (description : String) : DescribedBy [.str description] description
  | missing : DescribedBy [] ""

/-- The parameters of a tool by the schema that is given. What is no object describes no
parameters. -/
inductive ShapedBy : List Value → Value → Prop
  | given (o : Object) : ShapedBy [.obj o] (.obj o)
  | other {v : Value} (h : ∀ o, v ≠ .obj o) :
      ShapedBy [v] (.obj [("properties", .obj []), ("type", .str "object")])
  | missing : ShapedBy [] (.obj [("properties", .obj []), ("type", .str "object")])

/-- What a description says of the name, the text and the schema of a tool: an object has them as
members, an array in order. -/
inductive Parts : Value → List Value → List Value → List Value → Prop
  | members (o : Object) : Parts (.obj o) (valuesUnder ["name"] o) (valuesUnder ["description"] o)
      (valuesUnder ["input_schema", "inputSchema"] o)
  | items (vs : List Value) : Parts (.arr vs) (vs.take 1) ((vs.drop 1).take 1) (vs.drop 2)

/-- A value describes a tool. -/
inductive Describes : Value → ToolDefinition → Prop
  | intro {v : Value} {name description : String} {texts schemas : List Value} {parameters : Value}
      (parts : Parts v [.str name] texts schemas) (described : DescribedBy texts description)
      (shaped : ShapedBy schemas parameters) :
      Describes v ⟨"function", name, description, parameters⟩

/-- The tools of a list that is given, or of none. -/
inductive ToolsGiven : List Value → List ToolDefinition → Prop
  | given {items : List Value} {tools : List ToolDefinition}
      (each : List.Forall₂ Describes items tools) :
      ToolsGiven [.arr items] tools
  | missing : ToolsGiven [] []

/-- What a value has in the place of a list of tools. -/
inductive ToolsPart : Value → List Value → Prop
  | members (o : Object) : ToolsPart (.obj o) (valuesUnder ["tools"] o)
  | items (vs : List Value) : ToolsPart (.arr vs) vs

/-- A value lists tools. -/
inductive Lists : Value → List ToolDefinition → Prop
  | intro {v : Value} {part : List Value} {tools : List ToolDefinition} (there : ToolsPart v part)
      (given : ToolsGiven part tools) : Lists v tools

/-- A server told its tools: those that its reply lists, none if it lists nothing. -/
inductive Told : ToolsReply → List ToolDefinition → Prop
  | listed {result : Value} {tools : List ToolDefinition} (h : Lists result tools) :
      Told (some (.ok result)) tools
  | unreadable {result : Value} (h : ∀ tools, ¬ Lists result tools) : Told (some (.ok result)) []
  | failed (f : Failure) : Told (some (.error f)) []
  | silent : Told none []

/-! ### Values that were read -/

/-- A value that can have been read with some levels left. -/
structure Fits (room : Nat) (v : Value) : Prop where
  sorted : v.Sorted
  depth : v.doc.depth ≤ room

theorem fits_of_value {d : Doc} {room : Nat} {v : Value} (h : value room d = .ok v) : Fits room v :=
  ⟨(value_ok d room v h).1, depth_value d room v h⟩

theorem Fits.value_doc {room : Nat} {v : Value} (h : Fits room v) : value room v.doc = .ok v :=
  Json.value_doc v room h.sorted h.depth

theorem depth_le_itemsDepth {ds : List Doc} {d : Doc} (h : d ∈ ds) : d.depth ≤ itemsDepth ds := by
  induction ds with
  | nil => cases h
  | cons e ds ih =>
    rw [itemsDepth]
    rcases List.mem_cons.mp h with rfl | h
    · exact Nat.le_max_left ..
    · exact Nat.le_trans (ih h) (Nat.le_max_right ..)

theorem depth_le_membersDepth {ms : List (Option String × Doc)} {m : Option String × Doc}
    (h : m ∈ ms) : m.2.depth ≤ membersDepth ms := by
  induction ms with
  | nil => cases h
  | cons e ms ih =>
    obtain ⟨k, d⟩ := e
    rw [membersDepth]
    rcases List.mem_cons.mp h with rfl | h
    · exact Nat.le_max_left ..
    · exact Nat.le_trans (ih h) (Nat.le_max_right ..)

theorem Fits.items {room : Nat} {vs : List Value} (h : Fits room (.arr vs)) :
    ∃ inner, room = inner + 1 ∧ ∀ v ∈ vs, Fits inner v := by
  obtain ⟨sorted, depth⟩ := h
  obtain ⟨inner, rfl⟩ := Nat.exists_eq_add_one.mpr (Nat.lt_of_lt_of_le (Nat.succ_pos _) depth)
  refine ⟨inner, rfl, fun v hv => ⟨itemsSorted_iff.mp sorted v hv, ?_⟩⟩
  refine Nat.le_trans (depth_le_itemsDepth ?_) (Nat.le_of_succ_le_succ depth)
  rw [itemDocs_eq_map]
  exact List.mem_map_of_mem hv

theorem Fits.members {room : Nat} {o : Object} (h : Fits room (.obj o)) :
    ∃ inner, room = inner + 1 ∧ ∀ m ∈ o, Fits inner m.2 := by
  obtain ⟨sorted, depth⟩ := h
  obtain ⟨inner, rfl⟩ := Nat.exists_eq_add_one.mpr (Nat.lt_of_lt_of_le (Nat.succ_pos _) depth)
  refine ⟨inner, rfl, fun m hm => ⟨membersSorted_iff.mp sorted.2 m hm, ?_⟩⟩
  refine Nat.le_trans (depth_le_membersDepth (m := (some m.1, m.2.doc)) ?_)
    (Nat.le_of_succ_le_succ depth)
  rw [memberDocs_eq_map]
  exact List.mem_map_of_mem hm

theorem Fits.under {room : Nat} {o : Object} (h : ∀ m ∈ o, Fits room m.2) (names : List String) :
    ∀ v ∈ valuesUnder names o, Fits room v := by
  intro v hv
  obtain ⟨m, hm, rfl⟩ := List.mem_map.mp hv
  exact h m (List.mem_of_mem_filter hm)

/-! ### Records of values -/

/-- In a record with these members the name stands for the members under some names. -/
def StandsFor (ms : List Member) (name : String) (names : List String) : Prop :=
  ∀ k, ((memberNamed ms k).filter fun m => m.name = name).isSome = names.contains k

theorem heldFor_memberDocs {ms : List Member} {name : String} {names : List String}
    (stands : StandsFor ms name names) (o : Object) :
    heldFor ms name (memberDocs o) = (valuesUnder names o).map Value.doc := by
  induction o with
  | nil => rfl
  | cons m o ih =>
    obtain ⟨k, v⟩ := m
    have hk := stands k
    unfold heldFor valuesUnder at *
    rw [memberDocs, List.filterMap_cons, ih, Option.bind_some, List.filter_cons, ← hk]
    cases (memberNamed ms k).filter fun m => m.name = name with
    | none => rfl
    | some m => rfl

/-- What the slots of a record hold for a name. -/
theorem lookup_of_record {ms : List Member} {room : Nat} {o : Object} {s : Slots}
    (h : record ms room (Value.obj o).doc = .ok s) {name : String} {names : List String}
    (stands : StandsFor ms name names) :
    (s.given.lookup name).toList = (valuesUnder names o).map Value.doc := by
  obtain ⟨-, ⟨members, hobj, hwalk⟩ | ⟨items, harr, -⟩⟩ := walk_of_record h
  · cases hobj
    rw [lookup_walkMembers hwalk, List.lookup_nil, heldFor_memberDocs stands]
    rfl
  · cases harr

/-- The slots of a record hold these values for a name: one or none. -/
def HoldsFor (s : Slots) (name : String) (vs : List Value) : Prop :=
  (s.given.lookup name).toList = vs.map Value.doc

section

variable {s : Slots} {name : String} {vs : List Value}

theorem HoldsFor.some_iff (h : HoldsFor s name vs) {d : Doc} :
    s.given.lookup name = some d ↔ ∃ v, vs = [v] ∧ d = v.doc := by
  unfold HoldsFor at h
  constructor
  · intro held
    rw [held] at h
    obtain ⟨v, rfl, hv⟩ := List.map_eq_singleton_iff.mp h.symm
    exact ⟨v, rfl, hv.symm⟩
  · rintro ⟨v, rfl, rfl⟩
    cases held : s.given.lookup name with
    | none =>
      rw [held] at h
      cases h
    | some d =>
      rw [held] at h
      cases h
      rfl

theorem HoldsFor.none_iff (h : HoldsFor s name vs) : s.given.lookup name = none ↔ vs = [] := by
  unfold HoldsFor at h
  rw [← Option.toList_eq_nil_iff, h, List.map_eq_nil_iff]

theorem HoldsFor.cases (h : HoldsFor s name vs) :
    s.given.lookup name = none ∧ vs = [] ∨ ∃ v, s.given.lookup name = some v.doc ∧ vs = [v] := by
  cases held : s.given.lookup name with
  | none => exact .inl ⟨rfl, h.none_iff.mp held⟩
  | some d =>
    obtain ⟨v, hvs, rfl⟩ := h.some_iff.mp held
    exact .inr ⟨v, rfl, hvs⟩

theorem text_doc_iff {v : Value} {room : Nat}
    {t : String} : text room v.doc = .ok t ↔ v = .str t := by
  cases v <;> simp [Value.doc, text]

theorem HoldsFor.required_text (h : HoldsFor s name vs) {t : String} :
    s.required name text = .ok t ↔ vs = [.str t] := by
  unfold Slots.required
  obtain ⟨held, rfl⟩ | ⟨v, held, rfl⟩ := h.cases
  · simp [held]
  · simp [held, text_doc_iff]

theorem HoldsFor.defaulted_text (h : HoldsFor s name vs) {t : String} :
    s.defaulted name "" text = .ok t ↔ DescribedBy vs t := by
  unfold Slots.defaulted
  obtain ⟨held, rfl⟩ | ⟨v, held, rfl⟩ := h.cases
  · rw [held]
    constructor
    · rintro ⟨⟩
      exact .missing
    · rintro ⟨⟩
      rfl
  · rw [held]
    dsimp only
    rw [text_doc_iff]
    constructor
    · rintro rfl
      exact .given t
    · rintro ⟨⟩
      rfl

/-- The schema of a tool. -/
theorem HoldsFor.defaulted_value (h : HoldsFor s name vs) (fits : ∀ v ∈ vs, Fits s.room v) :
    ∃ schema, s.defaulted name .null value = .ok schema ∧ ∀ tool description parameters,
      (⟨tool, description, schema⟩ : ListedTool).definition =
        ⟨"function", tool, description, parameters⟩ ↔
        ShapedBy vs parameters := by
  unfold Slots.defaulted
  obtain ⟨held, rfl⟩ | ⟨v, held, rfl⟩ := h.cases
  · refine ⟨.null, by rw [held], fun tool description parameters => ⟨?_, ?_⟩⟩
    · intro same
      cases same
      exact .missing
    · rintro ⟨⟩
      rfl
  · refine ⟨v, by rw [held]; exact (fits v (by simp)).value_doc, fun tool description parameters =>
      ⟨?_, ?_⟩⟩
    · intro same
      cases v with
      | obj o =>
        cases same
        exact .given o
      | _ =>
        cases same
        exact .other (by simp)
    · intro shaped
      cases shaped with
      | given o => rfl
      | other none =>
        cases v with
        | obj o => exact (none o rfl).elim
        | _ => rfl

end

/-! ### Reading descriptions -/

/-- All names of a member. -/
def namesOf (m : Member) : List String := m.name :: m.aliases

/-- No two members have a name in common. -/
def Apart (ms : List Member) : Prop := ms.Pairwise fun m n => List.Disjoint (namesOf m) (namesOf n)

theorem memberNamed_cons (m : Member) (ms : List Member) (k : String) :
    memberNamed (m :: ms) k = if k ∈ namesOf m then some m else memberNamed ms k := by
  unfold memberNamed
  rw [List.find?_cons]
  have same : (m.name == k || m.aliases.contains k) = true ↔ k ∈ namesOf m := by
    rw [Bool.or_eq_true, beq_iff_eq, List.contains_iff_mem, namesOf, List.mem_cons, eq_comm]
  by_cases h : k ∈ namesOf m
  · rw [same.mpr h, if_pos h]
  · rw [Bool.eq_false_iff.mpr (mt same.mp h), if_neg h]

/-- **The name of a member stands for all its names** if no other member has one of them. -/
theorem standsFor_of_mem {ms : List Member} (apart : Apart ms) {m : Member} (hm : m ∈ ms) :
    StandsFor ms m.name (namesOf m) := by
  induction ms with
  | nil => cases hm
  | cons n ms ih =>
    obtain ⟨away, apart⟩ := List.pairwise_cons.mp apart
    intro k
    rw [memberNamed_cons]
    rcases List.mem_cons.mp hm with rfl | hm
    · by_cases h : k ∈ namesOf m
      · rw [if_pos h, Option.filter_some, decide_eq_true rfl, List.contains_iff_mem.mpr h]
        rfl
      · rw [if_neg h, Bool.eq_false_iff.mpr (mt List.contains_iff_mem.mp h),
          Option.isSome_eq_false_iff, Option.isNone_iff_eq_none, Option.filter_eq_none_iff]
        intro n hn same
        have there := (memberNamed_eq_some hn).1
        exact away n there List.mem_cons_self (of_decide_eq_true same ▸ List.mem_cons_self)
    · by_cases h : k ∈ namesOf n
      · have other : n.name ≠ m.name := fun same =>
          away m hm List.mem_cons_self (same ▸ List.mem_cons_self)
        have not_there : k ∉ namesOf m := fun there => away m hm h there
        rw [if_pos h, Option.filter_some, decide_eq_false other,
          Bool.eq_false_iff.mpr (mt List.contains_iff_mem.mp not_there)]
        rfl
      · rw [if_neg h]
        exact ih apart hm k

theorem heldFor_of_not_mem {ms : List Member} {name : String} (h : name ∉ ms.map (·.name))
    (members : List (Option String × Doc)) : heldFor ms name members = [] := by
  unfold heldFor
  refine List.filterMap_eq_nil_iff.mpr fun e _ => ?_
  rw [Option.map_eq_none_iff, Option.filter_eq_none_iff]
  intro m hm same
  obtain ⟨k, -, hk⟩ := Option.bind_eq_some_iff.mp hm
  exact h (List.mem_map.mpr ⟨m, (memberNamed_eq_some hk).1, of_decide_eq_true same⟩)

/-- A record is read from an object that has at most one value for each member. -/
theorem record_of_once {ms : List Member} (apart : Apart ms) (room : Nat) {o : Object}
    (once : ∀ m ∈ ms, (valuesUnder (namesOf m) o).length ≤ 1) :
    ∃ s, record ms (room + 1) (Value.obj o).doc = .ok s := by
  have few : ∀ name, (((([] : List (String × Doc)).lookup name).toList) ++
      heldFor ms name (memberDocs o)).length ≤ 1 := by
    intro name
    rw [List.lookup_nil, Option.toList_none, List.nil_append]
    by_cases h : name ∈ ms.map (·.name)
    · obtain ⟨m, hm, rfl⟩ := List.mem_map.mp h
      rw [heldFor_memberDocs (standsFor_of_mem apart hm), List.length_map]
      exact once m hm
    · rw [heldFor_of_not_mem h]
      exact Nat.zero_le 1
  have read : ∀ m ∈ memberDocs o, m.1.isSome = true ∧ m.2.isBroken = false := by
    intro m hm
    rw [memberDocs_eq_map] at hm
    obtain ⟨e, -, rfl⟩ := List.mem_map.mp hm
    exact ⟨rfl, not_isBroken_doc e.2⟩
  obtain ⟨given, hwalk⟩ := walkMembers_ok room read few
  refine ⟨⟨given, false, room⟩, ?_⟩
  simp only [record, recordVisiting, Value.doc, hwalk]
  rfl

/-- A record is read from an object or an array. -/
theorem parts_of_record {ms : List Member} {room : Nat} {v : Value} {s : Slots}
    (h : record ms room v.doc = .ok s) : (∃ o, v = .obj o) ∨ ∃ vs, v = .arr vs := by
  obtain ⟨-, ⟨members, hobj, -⟩ | ⟨items, harr, -⟩⟩ := walk_of_record h
  · cases v with
    | obj o => exact .inl ⟨o, rfl⟩
    | _ => cases hobj
  · cases v with
    | arr vs => exact .inr ⟨vs, rfl⟩
    | _ => cases harr

/-- The members of a description. -/
def toolMembers : List Member := ["name", "description", ⟨"input_schema", ["inputSchema"]⟩]

theorem apart_toolMembers : Apart toolMembers := by
  simp [Apart, toolMembers, namesOf]

/-- What the slots of a description hold. -/
structure HoldsParts (s : Slots) (names texts schemas : List Value) : Prop where
  name : HoldsFor s "name" names
  text : HoldsFor s "description" texts
  schema : HoldsFor s "input_schema" schemas
  fits : ∀ v ∈ schemas, Fits s.room v

theorem skip_doc (room : Nat) (v : Value) : skip room v.doc = .ok () :=
  skip_eq_ok (not_isBroken_doc v) room

theorem holdsFor_items {s : Slots} {vs : List Value}
    (h : walkItems (fun _ => skip) s.room toolMembers (itemDocs vs) [] = .ok s.given) :
    HoldsFor s "name" (vs.take 1) ∧ HoldsFor s "description" ((vs.drop 1).take 1) ∧
      HoldsFor s "input_schema" (vs.drop 2) := by
  unfold HoldsFor
  rcases vs with _ | ⟨a, _ | ⟨b, _ | ⟨c, _ | ⟨d, vs⟩⟩⟩⟩ <;>
    simp only [toolMembers, itemDocs, walkItems, skip_doc] at h
  · rw [← Except.ok.inj h]
    exact ⟨rfl, rfl, rfl⟩
  · rw [← Except.ok.inj h]
    exact ⟨rfl, rfl, rfl⟩
  · rw [← Except.ok.inj h]
    exact ⟨rfl, rfl, rfl⟩
  · rw [← Except.ok.inj h]
    exact ⟨rfl, rfl, rfl⟩
  · cases h

theorem Parts.holds {v : Value} {names texts schemas : List Value}
    (parts : Parts v names texts schemas) {room : Nat} (fits : Fits room v) {s : Slots}
    (h : record toolMembers room v.doc = .ok s) :
    HoldsParts s names texts schemas := by
  obtain ⟨hroom, hwalk⟩ := walk_of_record h
  cases parts with
  | members o =>
    have stands := fun m hm => lookup_of_record h (@standsFor_of_mem _ apart_toolMembers m hm)
    obtain ⟨inner, hinner, inside⟩ := fits.members
    obtain rfl : inner = s.room := Nat.succ.inj (hinner.symm.trans hroom)
    exact ⟨stands "name" (by simp [toolMembers]), stands "description" (by simp [toolMembers]),
      stands ⟨"input_schema", ["inputSchema"]⟩ (by simp [toolMembers]), Fits.under inside _⟩
  | items vs =>
    obtain ⟨members, hobj, -⟩ | ⟨items, harr, hwalk⟩ := hwalk
    · cases hobj
    cases harr
    obtain ⟨inner, hinner, inside⟩ := fits.items
    obtain rfl : inner = s.room := Nat.succ.inj (hinner.symm.trans hroom)
    obtain ⟨name, text, schema⟩ := holdsFor_items hwalk
    exact ⟨name, text, schema, fun v hv => inside v (List.mem_of_mem_drop hv)⟩

theorem Parts.record_ok {v : Value} {names texts schemas : List Value}
    (parts : Parts v names texts schemas) {room : Nat} (fits : Fits room v)
    (name : names.length ≤ 1) (text : texts.length ≤ 1) (schema : schemas.length ≤ 1) :
    ∃ s, record toolMembers room v.doc = .ok s := by
  cases parts with
  | members o =>
    obtain ⟨inner, rfl, -⟩ := fits.members
    refine record_of_once apart_toolMembers inner fun m hm => ?_
    simp only [toolMembers, List.mem_cons, List.not_mem_nil, or_false] at hm
    rcases hm with rfl | rfl | rfl
    · exact name
    · exact text
    · exact schema
  | items vs =>
    obtain ⟨inner, rfl, -⟩ := fits.items
    have short : ∃ given, walkItems (fun _ => skip) inner toolMembers (itemDocs vs) [] =
        .ok given := by
      rcases vs with _ | ⟨a, _ | ⟨b, _ | ⟨c, _ | ⟨d, vs⟩⟩⟩⟩ <;>
        simp only [toolMembers, itemDocs, walkItems, skip_doc]
      · exact ⟨_, rfl⟩
      · exact ⟨_, rfl⟩
      · exact ⟨_, rfl⟩
      · exact ⟨_, rfl⟩
      · simp at schema
    obtain ⟨given, hwalk⟩ := short
    refine ⟨⟨given, true, inner⟩, ?_⟩
    simp only [record, recordVisiting, Value.doc, hwalk]
    rfl

theorem DescribedBy.length_le {vs : List Value} {description : String}
    (h : DescribedBy vs description) : vs.length ≤ 1 := by
  cases h <;> simp

theorem ShapedBy.length_le {vs : List Value} {parameters : Value} (h : ShapedBy vs parameters) :
    vs.length ≤ 1 := by
  cases h <;> simp

/-- **A tool is read just from a description of it.** -/
theorem describes_iff {room : Nat} {v : Value} (fits : Fits room v) {tool : ToolDefinition} :
    Describes v tool ↔ ∃ t, ListedTool.decode room v.doc = .ok t ∧ t.definition = tool := by
  constructor
  · rintro ⟨parts, described, shaped⟩
    obtain ⟨s, hs⟩ := parts.record_ok fits (Nat.le_refl 1) described.length_le shaped.length_le
    obtain ⟨holdsName, holdsText, holdsSchema, inside⟩ := parts.holds fits hs
    obtain ⟨schema, hschema, defines⟩ := holdsSchema.defaulted_value inside
    have hname := holdsName.required_text.mpr rfl
    have htext := holdsText.defaulted_text.mpr described
    refine ⟨⟨_, _, schema⟩, ?_, (defines _ _ _).mpr shaped⟩
    unfold ListedTool.decode
    have hs' : record ["name", "description", ⟨"input_schema", ["inputSchema"]⟩] room v.doc =
      .ok s := hs
    simp only [bind, Except.bind, hs', hname, htext, hschema]
    rfl
  · rintro ⟨t, h, rfl⟩
    unfold ListedTool.decode at h
    obtain ⟨s, hs, h⟩ := bind_eq_ok h
    obtain ⟨name, hname, h⟩ := bind_eq_ok h
    obtain ⟨description, htext, h⟩ := bind_eq_ok h
    obtain ⟨schema, hschema, h⟩ := bind_eq_ok h
    cases h
    have describes : ∀ {names texts schemas : List Value}, Parts v names texts schemas →
        Describes v (⟨name, description, schema⟩ : ListedTool).definition := by
      intro names texts schemas parts
      obtain ⟨holdsName, holdsText, holdsSchema, inside⟩ := parts.holds fits hs
      obtain ⟨schema', hschema', defines⟩ := holdsSchema.defaulted_value inside
      cases hschema.symm.trans hschema'
      cases holdsName.required_text.mp hname
      exact .intro parts (holdsText.defaulted_text.mp htext) ((defines _ _ _).mp rfl)
    rcases parts_of_record hs with ⟨o, rfl⟩ | ⟨vs, rfl⟩
    · exact describes (.members o)
    · exact describes (.items vs)

/-! ### Reading listings -/

theorem forall₂_describes_iff {room : Nat} {items : List Value}
    (inside : ∀ v ∈ items, Fits room v) :
    ∀ {tools : List ToolDefinition}, List.Forall₂ Describes items tools ↔
      ∃ ts, List.Forall₂ (fun v t => ListedTool.decode room v.doc = .ok t) items ts ∧
        ts.map ListedTool.definition = tools := by
  induction items with
  | nil =>
    intro tools
    constructor
    · rintro ⟨⟩
      exact ⟨[], .nil, rfl⟩
    · rintro ⟨ts, ⟨⟩, rfl⟩
      exact .nil
  | cons v items ih =>
    intro tools
    obtain ⟨hv, inside⟩ := List.forall_mem_cons.mp inside
    constructor
    · rintro (_ | ⟨described, rest⟩)
      obtain ⟨t, ht, rfl⟩ := (describes_iff hv).mp described
      obtain ⟨ts, hts, rfl⟩ := (ih inside).mp rest
      exact ⟨t :: ts, .cons ht hts, rfl⟩
    · rintro ⟨ts, _ | ⟨ht, rest⟩, rfl⟩
      exact .cons ((describes_iff hv).mpr ⟨_, ht, rfl⟩) ((ih inside).mpr ⟨_, rest, rfl⟩)

theorem list_tools_iff {room : Nat} {v : Value} (fits : Fits room v) {tools : List ToolDefinition} :
    (∃ ts, list ListedTool.decode room v.doc = .ok ts ∧ ts.map ListedTool.definition = tools) ↔
      ∃ items, v = .arr items ∧ List.Forall₂ Describes items tools := by
  constructor
  · rintro ⟨ts, h, rfl⟩
    cases v with
    | arr items =>
      obtain ⟨inner, rfl, inside⟩ := fits.items
      obtain ⟨bs, hbs, each⟩ :=
        forall₂_of_decodeItems (show decodeItems _ inner (itemDocs items) [] = .ok ts from h)
      rw [itemDocs_eq_map, List.forall₂_map_left_iff] at each
      rw [hbs]
      exact ⟨items, rfl, (forall₂_describes_iff inside).mpr ⟨bs, each, rfl⟩⟩
    | obj o =>
      obtain ⟨inner, rfl, -⟩ := fits.members
      cases h
    | _ => cases room <;> cases h
  · rintro ⟨items, rfl, each⟩
    obtain ⟨inner, rfl, inside⟩ := fits.items
    obtain ⟨ts, hts, rfl⟩ := (forall₂_describes_iff inside).mp each
    refine ⟨ts, list_eq_ok ?_, rfl⟩
    rw [itemDocs_eq_map, List.forall₂_map_left_iff]
    exact hts

theorem ToolsGiven.length_le {vs : List Value} {tools : List ToolDefinition}
    (h : ToolsGiven vs tools) : vs.length ≤ 1 := by
  cases h <;> simp

theorem HoldsFor.toolsGiven_iff {s : Slots} {name : String} {vs : List Value}
    (h : HoldsFor s name vs) (fits : ∀ v ∈ vs, Fits s.room v) {tools : List ToolDefinition} :
    ToolsGiven vs tools ↔
      ∃ ts, s.defaulted name [] (list ListedTool.decode) = .ok ts ∧
      ts.map ListedTool.definition = tools := by
  unfold Slots.defaulted
  obtain ⟨held, rfl⟩ | ⟨v, held, rfl⟩ := h.cases
  · rw [held]
    constructor
    · rintro ⟨⟩
      exact ⟨[], rfl, rfl⟩
    · rintro ⟨ts, ⟨⟩, rfl⟩
      exact .missing
  · rw [held]
    refine Iff.trans ?_ (list_tools_iff (fits v (by simp))).symm
    constructor
    · rintro ⟨each⟩
      exact ⟨_, rfl, each⟩
    · rintro ⟨items, rfl, each⟩
      exact .given each

/-- The members of a listing. -/
def listMembers : List Member := ["tools"]

theorem apart_listMembers : Apart listMembers := List.pairwise_singleton ..

theorem ToolsPart.holds {v : Value} {part : List Value} (there : ToolsPart v part) {room : Nat}
    (fits : Fits room v) {s : Slots} (h : record listMembers room v.doc = .ok s) :
    HoldsFor s "tools" part ∧ ∀ w ∈ part, Fits s.room w := by
  obtain ⟨hroom, hwalk⟩ := walk_of_record h
  cases there with
  | members o =>
    obtain ⟨inner, hinner, inside⟩ := fits.members
    obtain rfl : inner = s.room := Nat.succ.inj (hinner.symm.trans hroom)
    exact ⟨lookup_of_record h (standsFor_of_mem apart_listMembers List.mem_cons_self),
      Fits.under inside _⟩
  | items =>
    obtain ⟨members, hobj, -⟩ | ⟨items, harr, hwalk⟩ := hwalk
    · cases hobj
    cases harr
    obtain ⟨inner, hinner, inside⟩ := fits.items
    obtain rfl : inner = s.room := Nat.succ.inj (hinner.symm.trans hroom)
    refine ⟨?_, inside⟩
    unfold HoldsFor
    rcases part with _ | ⟨a, _ | ⟨b, vs⟩⟩
      <;> simp only [listMembers, itemDocs, walkItems, skip_doc] at hwalk
    · rw [← Except.ok.inj hwalk]
      rfl
    · rw [← Except.ok.inj hwalk]
      rfl
    · cases hwalk

theorem ToolsPart.record_ok {v : Value} {part : List Value} (there : ToolsPart v part) {room : Nat}
    (fits : Fits room v) (once : part.length ≤ 1) : ∃ s, record listMembers room v.doc = .ok s := by
  cases there with
  | members o =>
    obtain ⟨inner, rfl, -⟩ := fits.members
    refine record_of_once apart_listMembers inner fun m hm => ?_
    cases List.mem_singleton.mp hm
    exact once
  | items =>
    obtain ⟨inner, rfl, -⟩ := fits.items
    have short : ∃ given, walkItems (fun _ => skip) inner listMembers (itemDocs part) [] =
        .ok given := by
      rcases part with _ | ⟨a, _ | ⟨b, vs⟩⟩
        <;> simp only [listMembers, itemDocs, walkItems, skip_doc]
      · exact ⟨_, rfl⟩
      · exact ⟨_, rfl⟩
      · simp at once
    obtain ⟨given, hwalk⟩ := short
    refine ⟨⟨given, true, inner⟩, ?_⟩
    simp only [record, recordVisiting, Value.doc, hwalk]
    rfl

/-- **Tools are read just from a value that lists them.** -/
theorem lists_iff {room : Nat} {v : Value} (fits : Fits room v) {tools : List ToolDefinition} :
    Lists v tools ↔ ∃ ts, decodeTools room v.doc = .ok ts ∧
    ts.map ListedTool.definition = tools := by
  constructor
  · rintro ⟨there, given⟩
    obtain ⟨s, hs⟩ := there.record_ok fits given.length_le
    obtain ⟨holds, inside⟩ := there.holds fits hs
    obtain ⟨ts, hts, htools⟩ := (holds.toolsGiven_iff inside).mp given
    refine ⟨ts, ?_, htools⟩
    have hs' : record ["tools"] room v.doc = .ok s := hs
    unfold decodeTools
    rw [hs']
    exact hts
  · rintro ⟨ts, h, htools⟩
    unfold decodeTools at h
    obtain ⟨s, hs, hts⟩ := bind_eq_ok h
    have lists : ∀ {part : List Value}, ToolsPart v part → Lists v tools := by
      intro part there
      obtain ⟨holds, inside⟩ := there.holds fits hs
      exact .intro there ((holds.toolsGiven_iff inside).mpr ⟨ts, hts, htools⟩)
    rcases parts_of_record hs with ⟨o, rfl⟩ | ⟨vs, rfl⟩
    · exact lists (.members o)
    · exact lists (.items vs)

/-! ### Replies -/

/-- A result that a reply brings can have been read. -/
def ReplyFits (reply : ToolsReply) : Prop :=
  ∀ result, reply = some (.ok result) → Fits maxDepth result

/-- **What the client finds in a reply is what the server told.** -/
theorem told_iff {reply : ToolsReply} (fits : ReplyFits reply) {tools : List ToolDefinition} :
    Told reply tools ↔ listedBy reply = tools := by
  rcases reply with _ | f | result
  · constructor
    · rintro ⟨⟩
      rfl
    · rintro rfl
      exact .silent
  · constructor
    · rintro ⟨⟩
      rfl
    · rintro rfl
      exact .failed f
  · have lists := fun tools => @lists_iff _ _ (fits result rfl) tools
    have found : listedBy (some (.ok result)) =
        ((decodeTools maxDepth result.doc).toOption.getD []).map ListedTool.definition := rfl
    rw [found]
    cases hread : decodeTools maxDepth result.doc with
    | error e =>
      have none : ∀ tools, ¬ Lists result tools := by
        intro tools h
        obtain ⟨ts, hts, -⟩ := (lists tools).mp h
        cases hread.symm.trans hts
      constructor
      · rintro (h | -)
        · exact (none _ h).elim
        · rfl
      · rintro rfl
        exact .unreadable none
    | ok ts =>
      have listed : Lists result (ts.map ListedTool.definition) := (lists _).mpr ⟨ts, hread, rfl⟩
      constructor
      · rintro (h | none)
        · obtain ⟨ts', hts', rfl⟩ := (lists _).mp h
          cases hread.symm.trans hts'
          rfl
        · exact (none _ listed).elim
      · rintro rfl
        exact .listed listed

/-! ### What is received -/

theorem Fits.mono {room more : Nat} {v : Value} (h : Fits room v) (le : room ≤ more) :
    Fits more v :=
  ⟨h.sorted, Nat.le_trans h.depth le⟩

theorem fits_of_nullable {room : Nat} {d : Doc} {v : Value}
    (h : nullable value room d = .ok (some v)) : Fits room v := by
  by_cases none : d = .null
  · subst none
    cases h
  · rw [nullable_of_ne value room none] at h
    cases hv : value room d with
    | error e =>
      rw [hv] at h
      cases h
    | ok w =>
      rw [hv] at h
      cases h
      exact fits_of_value hv

theorem fits_of_decode {d : Doc} {r : RpcResponse} (h : RpcResponse.decode maxDepth d = .ok r)
    {v : Value} (hv : r.result = some v) : Fits maxDepth v := by
  unfold RpcResponse.decode at h
  obtain ⟨s, hs, h⟩ := bind_eq_ok h
  obtain ⟨id, -, h⟩ := bind_eq_ok h
  obtain ⟨result, hresult, h⟩ := bind_eq_ok h
  obtain ⟨error, -, h⟩ := bind_eq_ok h
  cases h
  cases hv
  have le : s.room ≤ maxDepth := (walk_of_record hs).1 ▸ Nat.le_succ _
  unfold Slots.defaulted at hresult
  cases held : s.given.lookup "result" with
  | none =>
    rw [held] at hresult
    cases hresult
  | some d =>
    rw [held] at hresult
    exact (fits_of_nullable hresult).mono le

theorem answered_of_await {id : Nat} {lines rest : List (List UInt8)} {r : RpcResponse}
    (h : Bridge.await id lines = (.answered r, rest)) : ∃ line, answerTo? id line = some r := by
  induction lines with
  | nil => cases h
  | cons line lines ih =>
    rw [Bridge.await] at h
    cases hmet : meet id line with
    | none =>
      rw [hmet] at h
      exact ih h
    | some a =>
      rw [hmet] at h
      cases h
      obtain ⟨r', hr', same⟩ | ⟨f, -, same⟩ := meet_cases hmet
      · cases same
        exact ⟨line, hr'⟩
      · cases same

theorem decode_of_answerTo? {id : Nat} {line : List UInt8} {r : RpcResponse}
    (h : answerTo? id line = some r) : ∃ d, RpcResponse.decode maxDepth d = .ok r := by
  have held := (responseIn?_of_answerTo? h).1
  have isText : Text.Utf8Fault.of? line = none := isText_of_answerTo? h
  unfold responseIn? at held
  rw [isText] at held
  unfold responseOf? at held
  dsimp only at held
  cases hread : decodeText RpcResponse.decode (Text.trim (Text.lossy line)) with
  | error e =>
    rw [hread] at held
    cases held
  | ok r' =>
    rw [hread] at held
    cases held
    exact ⟨_, decode_of_decodeText hread⟩

theorem fits_of_read {t : Transport} {id : Nat} {v : Value} (h : (t.read id).1 = some (.ok v)) :
    Fits maxDepth v := by
  unfold Transport.read Channel.await at h
  rcases hawait : Bridge.await id t.channel.lines with ⟨r | f | -, rest⟩
  · rw [hawait] at h
    obtain ⟨line, answer⟩ := answered_of_await hawait
    obtain ⟨d, decoded⟩ := decode_of_answerTo? answer
    have result : Transport.resultOf r = .ok v := Option.some.inj h
    unfold Transport.resultOf at result
    cases he : r.error with
    | some e =>
      rw [he] at result
      cases result
    | none =>
      rw [he] at result
      cases hr : r.result with
      | none =>
        rw [hr] at result
        cases result
        exact ⟨trivial, Nat.zero_le _⟩
      | some w =>
        rw [hr] at result
        cases result
        exact fits_of_decode decoded hr
  · rw [hawait] at h
    cases h
  · rw [hawait] at h
    dsimp only at h
    split at h <;> cases h

section

variable {σ : Type} (servers : Servers σ)

/-- **What a server is heard to reply can have been read.** -/
theorem replyFits_request (t : Transport) (method : String) (params : Option Value) (w : Wire σ) :
    ReplyFits (t.request servers method params w).1 := by
  intro v h
  by_cases isOpen : t.isOpen = true
  · rcases written : servers.write t.server
      (callDoc (some w.nextId) method params).text w.outside with
      ⟨reason | out, outside⟩
    · rw [Transport.request_unwritten isOpen written] at h
      cases h
    · rw [Transport.request_written isOpen written] at h
      exact fits_of_read h
  · rw [Transport.request_closed (by simpa using isOpen)] at h
    cases h

theorem replyFits_none : ReplyFits none := fun _ h => by cases h

theorem replyFits_askTools (server : String) (c : Client σ) :
    ReplyFits ((askTools servers server).run c).1 := by
  rw [askTools_run]
  cases c.transport? server with
  | none => exact replyFits_none
  | some t =>
    have fits := replyFits_request servers t "tools/list" none c.wire
    change ReplyFits (ask servers t "tools/list" none c).1
    unfold ask
    generalize t.request servers "tools/list" none c.wire = result at fits
    obtain ⟨_ | r, u, w⟩ := result
    · exact replyFits_none
    · exact fits

theorem replyFits_askToolsIn (server : String) (timing : Timing) (c : Client σ) :
    ReplyFits ((askToolsIn servers server timing).run c).1 := by
  cases timing with
  | inTime => exact replyFits_askTools servers server c
  | late => exact replyFits_none
  | missed => exact replyFits_none

end

end ChatRelay.Bridge
