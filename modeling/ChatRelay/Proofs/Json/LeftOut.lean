import ChatRelay.Proofs.Json.Values

/-! # Members left out

A member that is `null` may as well be left out of an object, if the record that is read from it has
a default for it that `null` stands for too. `LeavesOut` relates a value to one without some of
these members, where the members that are kept may be related in the same way. A decoder is *blind*
to such a relation if it makes the same of related values. So is the decoder of a record if its
parts are (`blind_record`), so a record of records is decoded alike at every level. -/

namespace ChatRelay.Json

/-! ### Objects and arrays that stand for them -/

/-- Some members of `names` that are `null` are left out, and `r` relates the values of the
others. -/
inductive SameMembers (names : List String) (r : String → Value → Value → Prop) :
    Object → Object → Prop
  | nil : SameMembers names r [] []
  | keep {key : String} {v v' : Value} {o o' : Object} (h : r key v v')
      (t : SameMembers names r o o') :
      SameMembers names r ((key, v) :: o) ((key, v') :: o')
  | leaveOut {key : String} {o o' : Object} (h : key ∈ names) (t : SameMembers names r o o') :
      SameMembers names r ((key, .null) :: o) o'

/-- `r` relates the items of two arrays that stand for a record with these fields; further items are
the same. -/
inductive SameItems (r : String → Value → Value → Prop) : List String → List Value → List Value →
    Prop
  | nil (fields : List String) : SameItems r fields [] []
  | cons {field : String} {fields : List String} {v v' : Value} {vs vs' : List Value}
      (h : r field v v') (t : SameItems r fields vs vs') :
      SameItems r (field :: fields) (v :: vs) (v' :: vs')
  | beyond (vs : List Value) : SameItems r [] vs vs

/-- A record with these fields, of which those in `names` may be left out if they are `null`. -/
inductive LeavesOut (fields names : List String) (r : String → Value → Value → Prop) :
    Value → Value → Prop
  | same (v : Value) : LeavesOut fields names r v v
  | members {o o' : Object} (h : SameMembers names r o o') :
      LeavesOut fields names r (.obj o) (.obj o')
  | items {vs vs' : List Value} (h : SameItems r fields vs vs') :
      LeavesOut fields names r (.arr vs) (.arr vs')

/-- A list with related items. -/
inductive SameList (r : Value → Value → Prop) : Value → Value → Prop
  | same (v : Value) : SameList r v v
  | items {vs vs' : List Value} (h : List.Forall₂ r vs vs') : SameList r (.arr vs) (.arr vs')

/-- One member is a record or a list itself, the others are the same. -/
def nested (field : String) (r : Value → Value → Prop) (key : String) : Value → Value → Prop :=
  if key = field then r else Eq

theorem nested_self (field : String) (r : Value → Value → Prop) : nested field r field = r :=
  if_pos rfl

theorem nested_of_ne {field key : String} (h : key ≠ field) (r : Value → Value → Prop) :
    nested field r key = Eq := if_neg h

/-! ### Blind decoders -/

/-- The decoder makes the same of related values. -/
def Blind {α : Type} (dec : Decoder α) (r : Value → Value → Prop) : Prop :=
  ∀ v v' : Value, v.Sorted → v'.Sorted → r v v' → ∀ room, dec room v.doc = dec room v'.doc

section blind

variable {α : Type} {dec : Decoder α} {r : Value → Value → Prop}

theorem blind_eq (dec : Decoder α) : Blind dec Eq := by
  rintro v _ - - rfl room
  rfl

theorem Blind.items (h : Blind dec r) (room : Nat) {vs vs' : List Value}
    (hvs : List.Forall₂ r vs vs') : itemsSorted vs → itemsSorted vs' → ∀ acc,
      decodeItems dec room (itemDocs vs) acc = decodeItems dec room (itemDocs vs') acc := by
  induction hvs with
  | nil => intros; rfl
  | cons hv _ ih =>
    intro hs hs' acc
    simp only [itemDocs, decodeItems, h _ _ hs.1 hs'.1 hv room]
    split
    next => rfl
    next => exact ih hs.2 hs'.2 _

theorem Blind.list (h : Blind dec r) : Blind (list dec) (SameList r) := by
  rintro v v' hs hs' (_ | hvs) room
  · rfl
  · cases room with
    | zero => rfl
    | succ room => exact h.items room hvs hs hs' []

/-- Neither of two related values is `null`, unless they are the same. -/
def KeepsNull (r : Value → Value → Prop) : Prop := ∀ v v', r v v' → v = v' ∨ v ≠ .null ∧ v' ≠ .null

theorem keepsNull_eq : KeepsNull Eq := fun _ _ => .inl

theorem keepsNull_sameList : KeepsNull (SameList r) := by
  rintro v v' (_ | _)
  · exact .inl rfl
  · exact .inr ⟨by simp, by simp⟩

theorem keepsNull_leavesOut {fields names : List String} {r : String → Value → Value → Prop} :
    KeepsNull (LeavesOut fields names r) := by
  rintro v v' (_ | _ | _)
  · exact .inl rfl
  · exact .inr ⟨by simp, by simp⟩
  · exact .inr ⟨by simp, by simp⟩

theorem nullable_doc {v : Value} (h : v ≠ .null) (room : Nat) :
    nullable dec room v.doc = (dec room v.doc).map some := by
  cases v <;> first | rfl | exact absurd rfl h

theorem Blind.nullable (h : Blind dec r) (hr : KeepsNull r) : Blind (nullable dec) r := by
  intro v v' hs hs' hv room
  rcases hr v v' hv with rfl | ⟨hne, hne'⟩
  · rfl
  · rw [nullable_doc hne, nullable_doc hne', h v v' hs hs' hv room]

end blind

/-! ### Records -/

/-- What two records hold in one place: related values, or `null` where the other holds nothing. -/
inductive SameSlot (mayMiss : Prop) (r : Value → Value → Prop) : Option Doc → Option Doc → Prop
  | missing : SameSlot mayMiss r none none
  | kept {v v' : Value} (hs : v.Sorted) (hs' : v'.Sorted) (h : r v v') :
      SameSlot mayMiss r (some v.doc) (some v'.doc)
  | leftOut (h : mayMiss) : SameSlot mayMiss r (some .null) none

/-- The slots of two records hold the same but for members left out. -/
structure Slots.Alike (fields names : List String) (r : String → Value → Value → Prop)
    (s s' : Slots) : Prop where
  room : s.room = s'.room
  given : ∀ key ∈ fields, SameSlot (key ∈ names) (r key) (s.given.lookup key) (s'.given.lookup key)

namespace Slots.Alike

variable {α : Type} {dec : Decoder α} {fields names : List String}
  {r : String → Value → Value → Prop}
  {s s' : Slots}

theorem nullable (h : s.Alike fields names r s') {key : String} (hkey : key ∈ fields)
    (hdec : Blind dec (r key)) (hr : KeepsNull (r key)) :
    s.defaulted key none (Json.nullable dec) = s'.defaulted key none (Json.nullable dec) := by
  have hslot := h.given key hkey
  unfold Slots.defaulted
  rw [h.room]
  generalize s.given.lookup key = slot, s'.given.lookup key = slot' at hslot
  cases hslot with
  | missing => rfl
  | kept hs hs' hv => exact (hdec.nullable hr) _ _ hs hs' hv _
  | leftOut _ => rfl

theorem defaulted (h : s.Alike fields names r s') {key : String} (hkey : key ∈ fields)
    (hstays : key ∉ names) (hdec : Blind dec (r key)) (default : α) :
    s.defaulted key default dec = s'.defaulted key default dec := by
  have hslot := h.given key hkey
  unfold Slots.defaulted
  rw [h.room]
  generalize s.given.lookup key = slot, s'.given.lookup key = slot' at hslot
  cases hslot with
  | missing => rfl
  | kept hs hs' hv => exact hdec _ _ hs hs' hv _
  | leftOut hmiss => exact absurd hmiss hstays

/-- A field that is a record or a list itself. -/
theorem nullable_nested {field : String} {r : Value → Value → Prop}
    (h : s.Alike fields names (nested field r) s') (hfield : field ∈ fields) (hdec : Blind dec r)
    (hr : KeepsNull r) :
    s.defaulted field none (Json.nullable dec) = s'.defaulted field none (Json.nullable dec) :=
  h.nullable hfield (by rwa [nested_self]) (by rwa [nested_self])

/-- The other fields. -/
theorem nullable_other {field key : String} {r : Value → Value → Prop}
    (h : s.Alike fields names (nested field r) s') (hkey : key ∈ fields) (hne : key ≠ field)
    (dec : Decoder α) :
    s.defaulted key none (Json.nullable dec) = s'.defaulted key none (Json.nullable dec) :=
  h.nullable hkey (by rw [nested_of_ne hne]; exact blind_eq dec)
    (by rw [nested_of_ne hne]; exact keepsNull_eq)

end Slots.Alike

mutual

theorem not_isBroken_doc : ∀ v : Value, v.doc.isBroken = false
  | .null => rfl
  | .bool _ => rfl
  | .num _ => rfl
  | .str _ => rfl
  | .arr items => not_itemsBroken_of_forall (not_isBroken_itemDocs items)
  | .obj members => not_membersBroken_of_forall (not_isBroken_memberDocs members)

theorem not_isBroken_itemDocs : ∀ vs : List Value, ∀ d ∈ itemDocs vs, d.isBroken = false
  | [] => by simp [itemDocs]
  | v :: rest => List.forall_mem_cons.mpr ⟨not_isBroken_doc v, not_isBroken_itemDocs rest⟩

theorem not_isBroken_memberDocs :
    ∀ ms : List (String × Value), ∀ m ∈ memberDocs ms, m.2.isBroken = false
  | [] => by simp [memberDocs]
  | (_, v) :: rest => List.forall_mem_cons.mpr ⟨not_isBroken_doc v, not_isBroken_memberDocs rest⟩

end

section records

variable {fields names : List String} {r : String → Value → Value → Prop}

/-- Members without other names. -/
def plainMembers (fields : List String) : List Member := fields.map fun f => ⟨f, []⟩

theorem SameMembers.keys {o o' : Object} (h : SameMembers names r o o') :
    o'.map Prod.fst ⊆ o.map Prod.fst := by
  induction h with
  | nil => simp
  | keep _ _ ih => exact List.cons_subset_cons _ ih
  | leaveOut _ _ ih => exact List.subset_cons_of_subset _ ih

/-- What two such objects hold by a key. -/
theorem SameMembers.lookup {o o' : Object} (h : SameMembers names r o o')
    (hn : (o.map Prod.fst).Nodup) (key : String) : (o.lookup key = none ∧ o'.lookup key = none) ∨
      (∃ v v', o.lookup key = some v ∧ o'.lookup key = some v' ∧ r key v v') ∨
      key ∈ names ∧ o.lookup key = some .null ∧ o'.lookup key = none := by
  induction h with
  | nil => exact .inl ⟨rfl, rfl⟩
  | @keep k v v' o o' hv _ ih =>
    by_cases hk : key = k
    · subst hk
      exact .inr (.inl ⟨v, v', List.lookup_cons_self, List.lookup_cons_self, hv⟩)
    · rw [lookup_cons_of_ne hk, lookup_cons_of_ne hk]
      exact ih (List.nodup_cons.mp hn).2
  | @leaveOut k o o' hmem t ih =>
    obtain ⟨hfresh, hn⟩ := List.nodup_cons.mp hn
    by_cases hk : key = k
    · subst hk
      exact .inr (.inr ⟨hmem, List.lookup_cons_self, lookup_eq_none_of_not_mem fun hm =>
        hfresh (t.keys hm)⟩)
    · rw [lookup_cons_of_ne hk]
      exact ih hn

theorem sorted_of_lookup {o : Object} (h : membersSorted o) {key : String} {v : Value}
    (hv : o.lookup key = some v) : v.Sorted := by
  obtain ⟨before, after, rfl, -⟩ := List.lookup_eq_some_iff.mp hv
  exact membersSorted_iff.mp h (key, v) (by simp)

theorem SameMembers.sameSlot {o o' : Object} (h : SameMembers names r o o')
    (hn : (o.map Prod.fst).Nodup) (hs : membersSorted o) (hs' : membersSorted o') (key : String) :
    SameSlot (key ∈ names) (r key) ((o.lookup key).map Value.doc)
    ((o'.lookup key).map Value.doc) := by
  obtain ⟨hv, hv'⟩ | ⟨v, v', hv, hv', hr⟩ | ⟨hmem, hv, hv'⟩ := h.lookup hn key <;> rw [hv, hv']
  · exact .missing
  · exact .kept (sorted_of_lookup hs hv) (sorted_of_lookup hs' hv') hr
  · exact .leftOut hmem

theorem Object.Sorted.nodup {o : Object} (h : o.Sorted) : (o.map Prod.fst).Nodup :=
  List.pairwise_map.mpr (h.imp fun hlt => String.ne_of_lt hlt)

theorem record_members (fields : List String) (room : Nat) {o : Object} (h : o.Sorted) :
    ∃ s, record (plainMembers fields) (room + 1) (Value.obj o).doc = .ok s ∧ s.room = room ∧
      ∀ key ∈ fields, s.given.lookup key = (o.lookup key).map Value.doc := by
  have hkeys : (memberDocs o).map Prod.fst = (o.map Prod.fst).map some := by
    rw [memberDocs_eq_map, List.map_map, List.map_map]
    rfl
  have hread : ∀ m ∈ memberDocs o, m.1.isSome = true ∧ m.2.isBroken = false := by
    intro m hm
    refine ⟨?_, not_isBroken_memberDocs o m hm⟩
    rw [memberDocs_eq_map] at hm
    obtain ⟨n, -, rfl⟩ := List.mem_map.mp hm
    rfl
  have hnodup : ((memberDocs o).map Prod.fst).Nodup := isRecord_of_keys _ hkeys h.nodup
  have halias : ∀ m ∈ plainMembers fields, ∀ a ∈ m.aliases,
      (memberDocs o).lookup (some a) = none := by
    intro m hm a ha
    obtain ⟨f, -, rfl⟩ := List.mem_map.mp hm
    cases ha
  obtain ⟨s, hs, hholds⟩ := record_obj_eq_ok (plainMembers fields) room halias hread hnodup
  refine ⟨s, hs, hholds.levels, fun key hkey => ?_⟩
  rw [hholds.given key (by simpa [plainMembers] using hkey), ← lookup_memberDocs]
  rfl

/-- Two walks over related items find the same fault or are alike. -/
theorem SameItems.walk {fields : List String} {vs vs' : List Value} (h : SameItems r fields vs vs')
    (room : Nat) : itemsSorted vs → itemsSorted vs' → ∀ {given given' : List (String × Doc)},
      (∀ key, SameSlot (key ∈ names) (r key) (given.lookup key) (given'.lookup key)) →
      (∃ e, walkItems (fun _ => skip) room (plainMembers fields) (itemDocs vs) given = .error e ∧
        walkItems (fun _ => skip) room (plainMembers fields) (itemDocs vs') given' = .error e) ∨
      ∃ g g', walkItems (fun _ => skip) room (plainMembers fields) (itemDocs vs) given = .ok g ∧
        walkItems (fun _ => skip) room (plainMembers fields) (itemDocs vs') given' = .ok g' ∧
        ∀ key, SameSlot (key ∈ names) (r key) (g.lookup key) (g'.lookup key) := by
  induction h with
  | nil fields =>
    intro _ _ given given' hgiven
    exact .inr ⟨given, given', by rw [itemDocs, walkItems], by rw [itemDocs, walkItems], hgiven⟩
  | @cons field fields v v' vs vs' hv _ ih =>
    intro hs hs' given given' hgiven
    simp only [itemDocs, plainMembers, List.map_cons, walkItems, skip_eq_ok (not_isBroken_doc _)]
    refine ih hs.2 hs'.2 fun key => ?_
    by_cases hk : key = field
    · subst hk
      rw [List.lookup_cons_self, List.lookup_cons_self]
      exact .kept hs.1 hs'.1 hv
    · rw [lookup_cons_of_ne hk, lookup_cons_of_ne hk]
      exact hgiven key
  | beyond vs =>
    intro _ _ given given' hgiven
    cases vs with
    | nil =>
      exact .inr ⟨given, given', by rw [itemDocs, walkItems], by rw [itemDocs, walkItems], hgiven⟩
    | cons v vs => exact .inl ⟨.malformed, rfl, rfl⟩

/-- **A record is read alike** with and without these members, if each of its fields is. -/
theorem blind_record {α : Type} {f : Slots → Except Fault α}
    (hf : ∀ s s' : Slots, s.Alike fields names r s' → f s = f s') :
    Blind (fun room d => record (plainMembers fields) room d >>= f) (LeavesOut fields names r) := by
  intro v v' hs hs' h room
  cases h with
  | same => rfl
  | members h =>
    cases room with
    | zero => rfl
    | succ room =>
      obtain ⟨s, hrec, hroom, hgiven⟩ := record_members fields room hs.1
      obtain ⟨s', hrec', hroom', hgiven'⟩ := record_members fields room hs'.1
      show (record _ _ _ >>= f) = (record _ _ _ >>= f)
      rw [hrec, hrec']
      refine hf s s' ⟨hroom.trans hroom'.symm, fun key hkey => ?_⟩
      rw [hgiven key hkey, hgiven' key hkey]
      exact h.sameSlot hs.1.nodup hs.2 hs'.2 key
  | @items vs vs' h =>
    cases room with
    | zero => rfl
    | succ room =>
      have hwalk := @SameItems.walk names r fields vs vs' h room hs hs' [] [] fun _ => .missing
      show ((walkItems _ room (plainMembers fields) (itemDocs vs) []).map _ >>= f) =
        ((walkItems _ room (plainMembers fields) (itemDocs vs') []).map _ >>= f)
      rcases hwalk with ⟨e, hw, hw'⟩ | ⟨g, g', hw, hw', hgiven⟩
      · rw [hw, hw']
      · rw [hw, hw']
        exact hf _ _ ⟨rfl, fun key _ => hgiven key⟩

end records

end ChatRelay.Json
