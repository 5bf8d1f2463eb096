import ChatRelay.Proofs.Json.Values

/-! # Values that are written again

A text that decodes may say a value in many ways: members in any order, unknown ones among them,
other names, an array for an object, escapes. The text that is written for the value says it in one
way. It decodes again, to the same value up to what writing evens out (`RoundTrips`), since the
document that is written opens no more levels than the one that was read (`depth_value`), and its
integers are in the range of their types. Doubles are another matter: some do not read back, and a
value with one of those is left out here.

The claim about texts follows from the one about documents (`Rewrites.roundTrips`), which goes
through a record member by member: what a member decodes to is written as a member that decodes to
it (`rewrites_record`). -/

namespace ChatRelay.Json

/-- The doubles in a document are read from its text as they are. -/
def Doc.RealsReadBack (d : Doc) : Prop := ∀ x, Num.real x ∈ d.nums → (Num.real x).ReadsBack

/-- What is written as `d` is exact and decodes to `a`, if its doubles read back. -/
def Rewritten {α : Type} (dec : Decoder α) (room : Nat) (d : Doc) (a : α) : Prop :=
  d.RealsReadBack → d.Exact ∧ dec room d = .ok a

/-- Every value that is decoded is written as a document that decodes to it again, or to what `norm`
makes of it, by the same number of levels. -/
def Rewrites {α : Type} (dec : Decoder α) (doc : α → Doc) (norm : α → α) : Prop :=
  ∀ room d a, d.Meets Num.Sized → dec room d = .ok a → Rewritten dec room (doc a) (norm a)

/-- For every text that decodes, the text of its value decodes to the value again, or to what `norm`
makes of it, and this is written as the same text. -/
def RoundTrips {α : Type} (dec : Decoder α) (doc : α → Doc) (norm : α → α) : Prop :=
  ∀ s a, decodeText dec s = .ok a → (doc a).RealsReadBack →
    decodeText dec (doc a).text = .ok (norm a) ∧ (doc (norm a)).text = (doc a).text

/-- **Texts go round if documents do.** -/
theorem Rewrites.roundTrips {α : Type} {dec : Decoder α} {doc : α → Doc} {norm : α → α}
    (h : Rewrites dec doc norm) (hnorm : ∀ a, doc (norm a) = doc a) : RoundTrips dec doc norm := by
  intro s a hs hreals
  obtain ⟨hexact, hdec⟩ := h maxDepth _ a (sized_read s) (decode_of_decodeText hs) hreals
  refine ⟨?_, by rw [hnorm]⟩
  rw [decodeText_of_exact dec hexact, hdec]

/-! ### Parts of documents -/

theorem realsReadBack_arr {ds : List Doc} :
    (Doc.arr ds).RealsReadBack ↔ ∀ d ∈ ds, d.RealsReadBack := by
  constructor
  · exact fun h d hd x hx => h x (mem_itemNums.mpr ⟨d, hd, hx⟩)
  · intro h x hx
    obtain ⟨d, hd, hx⟩ := mem_itemNums.mp hx
    exact h d hd x hx

/-- A member of a document is part of it. -/
theorem Doc.RealsReadBack.get {d : Doc} (h : d.RealsReadBack)
    (key : String) : (d.get key).RealsReadBack := by
  unfold Doc.get
  cases hm : d.member? key with
  | none => exact fun x hx => by cases hx
  | some e =>
    cases d with
    | obj members =>
      obtain ⟨before, after, rfl, -⟩ := List.lookup_eq_some_iff.mp hm
      exact fun x hx => h x (mem_memberNums.mpr ⟨(some key, e), by simp, hx⟩)
    | _ => cases hm

theorem exact_record {fields : List (List (Option String × Doc))} :
    (Doc.record fields).Exact ↔ ∀ ms ∈ fields, membersExact ms := by
  show membersExact fields.flatten ↔ _
  simp only [membersExact_iff, List.mem_flatten, forall_exists_index, and_imp]
  exact ⟨fun h ms hms m hm => h m ms hms hm, fun h m ms hms hm => h ms hms m hm⟩

theorem membersExact_field {key : String} {d : Doc} : membersExact (field key d) ↔ d.Exact := by
  simp [field, membersExact]

theorem membersExact_optionalField {key : String} {o : Option Doc} :
    membersExact (optionalField key o) ↔ (o.getD .null).Exact := by
  cases o <;> simp [optionalField, field, membersExact, Doc.Exact]

/-! ### Values -/

mutual

/-- A value does not nest deeper than the document that it was decoded from was allowed to. -/
theorem depth_value : ∀ (d : Doc) (room : Nat) (v : Value), value room d = .ok v →
    v.doc.depth ≤ room
  | .null, room, v, h => by cases room <;> cases h <;> exact Nat.zero_le _
  | .bool _, room, v, h => by cases room <;> cases h <;> exact Nat.zero_le _
  | .num _, room, v, h => by cases room <;> cases h <;> exact Nat.zero_le _
  | .str _, room, v, h => by cases room <;> cases h <;> exact Nat.zero_le _
  | .arr items, 0, v, h => by cases h
  | .arr items, room + 1, v, h => by
    rw [value] at h
    cases hvs : valueItems room items [] with
    | error e => rw [hvs] at h; cases h
    | ok vs =>
      rw [hvs] at h
      cases h
      refine Nat.succ_le_succ (itemsDepth_le ?_)
      rw [itemDocs_eq_map, List.forall_mem_map]
      exact depth_valueItems items room [] vs (by simp) hvs
  | .obj members, 0, v, h => by cases h
  | .obj members, room + 1, v, h => by
    rw [value] at h
    cases ho : valueMembers room members [] with
    | error e => rw [ho] at h; cases h
    | ok o =>
      rw [ho] at h
      cases h
      refine Nat.succ_le_succ (membersDepth_le ?_)
      rw [memberDocs_eq_map, List.forall_mem_map]
      exact depth_valueMembers members room [] o (by simp) ho
  | .unreadable, room, v, h => by cases room <;> cases h
  | .broken, room, v, h => by cases room <;> cases h

theorem depth_valueItems : ∀ (ds : List Doc) (room : Nat) (acc vs : List Value),
    (∀ v ∈ acc, v.doc.depth ≤ room) → valueItems room ds acc = .ok vs → ∀ v ∈ vs, v.doc.depth ≤ room
  | [], room, acc, vs, hacc, h => by
    cases h
    exact fun v hv => hacc v (List.mem_reverse.mp hv)
  | d :: rest, room, acc, vs, hacc, h => by
    rw [valueItems] at h
    cases hv : value room d with
    | error e => rw [hv] at h; cases h
    | ok v =>
      rw [hv] at h
      exact depth_valueItems rest room (v :: acc) vs
        (List.forall_mem_cons.mpr ⟨depth_value d room v hv, hacc⟩) h

theorem depth_valueMembers : ∀ (ms : List (Option String × Doc)) (room : Nat) (o o' : Object),
    (∀ m ∈ o, m.2.doc.depth ≤ room) → valueMembers room ms o = .ok o' →
    ∀ m ∈ o', m.2.doc.depth ≤ room
  | [], room, o, o', ho, h => by
    cases h
    exact ho
  | (none, d) :: rest, room, o, o', ho, h => by cases h
  | (some k, d) :: rest, room, o, o', ho, h => by
    simp only [valueMembers] at h
    cases hv : value room d with
    | error e => rw [hv] at h; cases h
    | ok v =>
      rw [hv] at h
      refine depth_valueMembers rest room (Object.insert k v o) o' (fun m hm => ?_) h
      rcases Object.mem_insert hm with rfl | hm
      · exact depth_value d room v hv
      · exact ho m hm

end

theorem rewritten_value {room : Nat} {v : Value} (hs : v.Sorted) (hn : ∀ n ∈ v.nums, n.Sized)
    (hd : v.doc.depth ≤ room) : Rewritten value room v.doc v := by
  intro hreals
  refine ⟨exact_doc v fun n hn' => ?_, value_doc v room hs hd⟩
  cases n with
  | real x => exact hreals x hn'
  | int i =>
    obtain ⟨hlow, hhigh⟩ : (Num.int i).Sized := hn _ hn'
    exact readsBack_int hlow hhigh

/-- A free-form value is written as a document that nests no deeper. -/
theorem rewrites_value : Rewrites value Value.doc id := by
  intro room d v hd h
  obtain ⟨hs, hn, -⟩ := value_ok d room v h
  exact rewritten_value hs (fun n hmem => hd n (hn hmem)) (depth_value d room v h)

theorem object_eq_ok_iff {room : Nat} {d : Doc} {o : Object} :
    object room d = .ok o ↔ value room d = .ok (.obj o) := by
  cases d with
  | obj members =>
    unfold object
    cases value room (.obj members) with
    | error e => simp
    | ok v => cases v <;> simp
  | arr items =>
    cases room with
    | zero => simp [object, value]
    | succ room => cases hvs : valueItems room items [] <;> simp [object, value, hvs, Except.map]
  | _ => cases room <;> simp [object, value]

theorem rewrites_object : Rewrites object (fun o => (Value.obj o).doc) id := by
  intro room d o hd h hreals
  obtain ⟨hexact, hvalue⟩ := rewrites_value room d (.obj o) hd (object_eq_ok_iff.mp h) hreals
  exact ⟨hexact, object_eq_ok_iff.mpr hvalue⟩

/-! ### Scalars, lists and `null` -/

theorem rewrites_text : Rewrites text .str id := fun _ _ _ _ _ _ => ⟨trivial, rfl⟩

theorem integer_eq_ok_iff {low high i : Int} {room : Nat} {d : Doc} :
    integer low high room d = .ok i ↔ d = .num (.int i) ∧ low ≤ i ∧ i ≤ high := by
  constructor
  · intro h
    unfold integer at h
    split at h
    · split at h
      · next hrange =>
        cases h
        exact ⟨rfl, hrange⟩
      · cases h
    · cases h
  · rintro ⟨rfl, hrange⟩
    exact if_pos hrange

theorem lt_of_natural {bits room n : Nat} {d : Doc} (h : natural bits room d = .ok n) :
    n < 2 ^ bits := by
  unfold natural at h
  cases hi : integer 0 (Nat.pow 2 bits - 1 : Nat) room d with
  | error e =>
    rw [hi] at h
    cases h
  | ok i =>
    rw [hi] at h
    cases h
    obtain ⟨-, hlow, hhigh⟩ := integer_eq_ok_iff.mp hi
    have hpow : 0 < Nat.pow 2 bits := Nat.two_pow_pos bits
    show i.toNat < Nat.pow 2 bits
    omega

/-- The integers of a type of at most 64 bits read back. -/
theorem rewrites_signed {bits : Nat} (hbits : bits ≤ 64) : Rewrites (signed bits) Doc.ofInt id := by
  intro room d i _ h _
  have hpow : Nat.pow 2 (bits - 1) ≤ 2 ^ 63 := Nat.pow_le_pow_right (by decide) (by omega)
  obtain ⟨-, hrange⟩ := integer_eq_ok_iff.mp h
  exact ⟨readsBack_int (by omega) (by omega), integer_eq_ok_iff.mpr ⟨rfl, hrange⟩⟩

/-- Items are written again one by one. -/
theorem Rewrites.items {α : Type} {dec : Decoder α} {doc : α → Doc} {norm : α → α}
    (h : Rewrites dec doc norm) {room : Nat} {ds : List Doc} {as : List α}
    (hds : ∀ d ∈ ds, d.Meets Num.Sized)
    (hall : List.Forall₂ (fun d a => dec room d = .ok a) ds as) :
    ∀ a ∈ as, Rewritten dec room (doc a) (norm a) := by
  induction hall with
  | nil => simp
  | cons hdec _ ih =>
    rw [List.forall_mem_cons] at hds ⊢
    exact ⟨h room _ _ hds.1 hdec, ih hds.2⟩

theorem rewrites_list {α : Type} {dec : Decoder α} {doc : α → Doc} (h : Rewrites dec doc id) :
    Rewrites (list dec) (fun as => .arr (as.map doc)) id := by
  intro room d as hd hlist hreals
  unfold list at hlist
  split at hlist
  · cases hlist
  · next items room =>
    obtain ⟨bs, hbs, hall⟩ := forall₂_of_decodeItems hlist
    obtain rfl : as = bs := hbs
    have hagain := h.items (fun e he n hn => hd n (mem_itemNums.mpr ⟨e, he, hn⟩)) hall
    rw [realsReadBack_arr, List.forall_mem_map] at hreals
    refine ⟨itemsExact_iff.mpr (List.forall_mem_map.mpr fun a ha => (hagain a ha (hreals a ha)).1),
      list_eq_ok ?_⟩
    rw [List.forall₂_map_left_iff, id_eq, List.forall₂_same]
    exact fun a ha => (hagain a ha (hreals a ha)).2
  · cases hlist

theorem nullable_of_ne {α : Type} (dec : Decoder α) (room : Nat) {d : Doc} (hd : d ≠ .null) :
    nullable dec room d = (dec room d).map some := by
  cases d with
  | null => exact absurd rfl hd
  | _ => rfl

/-- What is never written as `null` may be missing, or `null` for that. -/
theorem rewrites_nullable {α : Type} {dec : Decoder α} {doc : α → Doc} (h : Rewrites dec doc id)
    (hdoc : ∀ a, doc a ≠ .null) : Rewrites (nullable dec) (fun o => (o.map doc).getD .null) id := by
  intro room d o hd hdec hreals
  cases o with
  | none => exact ⟨trivial, rfl⟩
  | some a =>
    have hne : d ≠ .null := by
      rintro rfl
      cases hdec
    rw [nullable_of_ne dec room hne] at hdec
    cases ha : dec room d with
    | error e =>
      rw [ha] at hdec
      cases hdec
    | ok b =>
      rw [ha] at hdec
      cases hdec
      obtain ⟨hexact, hagain⟩ := h room d a hd ha hreals
      refine ⟨hexact, ?_⟩
      show nullable dec room (doc a) = .ok (some a)
      rw [nullable_of_ne dec room (hdoc a), hagain]
      rfl

/-! ### Records -/

section records

variable {ms : List Member} {room : Nat} {p : Num → Prop}

/-- Every number in the members has the property. -/
def Slots.Meets (p : Num → Prop) (s : Slots) : Prop := ∀ m ∈ s.given, m.2.Meets p

theorem meets_of_walkMembers {members : List (Option String × Doc)}
    (hmembers : ∀ m ∈ members, m.2.Meets p) :
    ∀ {given given' : List (String × Doc)}, (∀ m ∈ given, m.2.Meets p) →
      walkMembers ms (fun _ => skip) room members given = .ok given' →
      ∀ m ∈ given', m.2.Meets p := by
  induction members with
  | nil =>
    intro given given' hgiven hwalk
    cases hwalk
    exact hgiven
  | cons e rest ih =>
    intro given given' hgiven hwalk
    obtain ⟨_ | k, d⟩ := e
    · cases hwalk
    rw [List.forall_mem_cons] at hmembers
    simp only [walkMembers] at hwalk
    split at hwalk
    · split at hwalk
      · cases hwalk
      · exact ih hmembers.2 hgiven hwalk
    · split at hwalk
      · cases hwalk
      split at hwalk
      · cases hwalk
      · exact ih hmembers.2 (List.forall_mem_cons.mpr ⟨hmembers.1, hgiven⟩) hwalk

theorem meets_of_walkItems {ds : List Doc} (hds : ∀ d ∈ ds, d.Meets p) :
    ∀ {ms : List Member} {given given' : List (String × Doc)}, (∀ m ∈ given, m.2.Meets p) →
      walkItems (fun _ => skip) room ms ds given = .ok given' → ∀ m ∈ given', m.2.Meets p := by
  induction ds with
  | nil =>
    intro ms given given' hgiven hwalk
    rw [walkItems] at hwalk
    cases hwalk
    exact hgiven
  | cons d ds ih =>
    intro ms given given' hgiven hwalk
    rw [List.forall_mem_cons] at hds
    cases ms with
    | nil => cases hwalk
    | cons m ms =>
      simp only [walkItems] at hwalk
      split at hwalk
      · cases hwalk
      · exact ih hds.2 (List.forall_mem_cons.mpr ⟨hds.1, hgiven⟩) hwalk

/-- The members of a record are parts of it. -/
theorem meets_of_record {d : Doc} {s : Slots} (hd : d.Meets p) (h : record ms room d = .ok s) :
    s.Meets p := by
  obtain ⟨-, ⟨members, rfl, hwalk⟩ | ⟨items, rfl, hwalk⟩⟩ := walk_of_record h
  · exact meets_of_walkMembers (fun m hm n hn =>
      hd n (mem_memberNums.mpr ⟨m, hm, hn⟩)) (by simp) hwalk
  · exact meets_of_walkItems (fun e he n hn => hd n (mem_itemNums.mpr ⟨e, he, hn⟩)) (by simp) hwalk

theorem Slots.Meets.lookup {s : Slots} (hs : s.Meets p) {key : String} {d : Doc}
    (h : s.given.lookup key = some d) : d.Meets p := by
  obtain ⟨before, after, hgiven, -⟩ := List.lookup_eq_some_iff.mp h
  exact hs (key, d) (by simp [hgiven])

variable {α : Type} {dec : Decoder α} {doc : α → Doc} {s : Slots} {key : String}

theorem lookup_of_required {a : α} (ha : s.required key dec = .ok a) :
    ∃ d, s.given.lookup key = some d ∧ dec s.room d = .ok a := by
  unfold Slots.required at ha
  split at ha
  · next d hd => exact ⟨d, hd, ha⟩
  · cases ha

/-- A member that has to be there is written again. -/
theorem Rewrites.required (h : Rewrites dec doc id) (hs : s.Meets Num.Sized) {a : α}
    (ha : s.required key dec = .ok a) : Rewritten dec s.room (doc a) a := by
  obtain ⟨d, hd, ha⟩ := lookup_of_required ha
  exact h s.room d a (hs.lookup hd) ha

/-- A member with a default is written again if the default is. -/
theorem Rewrites.defaulted (h : Rewrites dec doc id) (hs : s.Meets Num.Sized) {default a : α}
    (hdefault : Rewritten dec s.room (doc default) default)
    (ha : s.defaulted key default dec = .ok a) : Rewritten dec s.room (doc a) a := by
  unfold Slots.defaulted at ha
  split at ha
  · next d hd => exact h s.room d a (hs.lookup hd) ha
  · cases ha
    exact hdefault

/-- A member that may be missing is written again, or left out again. -/
theorem Rewrites.optional (h : Rewrites dec doc id) (hdoc : ∀ a, doc a ≠ .null)
    (hs : s.Meets Num.Sized) {o : Option α} (ho : s.optional key dec = .ok o) :
    Rewritten (nullable dec) s.room ((o.map doc).getD .null) o := by
  unfold Slots.optional at ho
  split at ho
  · next d hd => exact rewrites_nullable h hdoc s.room d o (hs.lookup hd) ho
  · split at ho
    · cases ho
    · cases ho
      exact fun _ => ⟨trivial, rfl⟩

theorem Rewrites.nullable (h : Rewrites dec doc id) (hdoc : ∀ a, doc a ≠ .null)
    (hs : s.Meets Num.Sized) {o : Option α} (ho : s.defaulted key none (nullable dec) = .ok o) :
    Rewritten (Json.nullable dec) s.room ((o.map doc).getD .null) o := by
  have hnone : Rewritten (Json.nullable dec) s.room ((none.map doc).getD .null) none :=
    fun _ => ⟨trivial, rfl⟩
  exact (rewrites_nullable h hdoc).defaulted hs hnone ho

/-- **A record is written again** if what its decoder makes of the members is written as members of
which it makes the same. -/
theorem rewrites_record {body : Slots → Except Fault α} {norm : α → α}
    (hrecord : ∀ a, (doc a).IsRecord)
    (halias : ∀ a, ∀ m ∈ ms, ∀ k ∈ m.aliases, (doc a).member? k = none)
    (hbody : ∀ s a, s.Meets Num.Sized → body s = .ok a → (doc a).RealsReadBack →
      (doc a).Exact ∧ ∀ t : Slots, t.Holds ms s.room (doc a) → body t = .ok (norm a)) :
    Rewrites (fun room d => record ms room d >>= body) doc norm := by
  intro room d a hd h hreals
  obtain ⟨s, hs, hs'⟩ := bind_eq_ok h
  obtain ⟨hexact, hagain⟩ := hbody s a (meets_of_record hd hs) hs' hreals
  obtain ⟨t, ht, holds⟩ := record_eq_ok_of_exact ms s.room (halias a) hexact (hrecord a)
  refine ⟨hexact, ?_⟩
  rw [(walk_of_record hs).1]
  simp only [bind, Except.bind, ht]
  exact hagain t holds

end records

end ChatRelay.Json
