import ChatRelay.Proofs.Json.ReadBack
import Mathlib.Data.List.Forall2

/-! # Records by their members

A record is decoded member by member in the order of the text, but what comes out depends only on
what each member holds (`record_eq_ok_of_exact`). With `Doc.get` a member that is missing counts as
`null`, which is what a member with the default `none` makes of it. -/

namespace ChatRelay.Json

namespace Doc

/-- The document of a member, none where there is none. -/
def member? (key : String) : Doc → Option Doc
  | .obj members => members.lookup (some key)
  | _ => none

/-- The document of a member; `null` stands for one that is missing. -/
def get (key : String) (d : Doc) : Doc := (d.member? key).getD .null

/-- An object in which no key is given twice. -/
def IsRecord : Doc → Prop
  | .obj members => (members.map Prod.fst).Nodup
  | _ => False

instance (d : Doc) : Decidable d.IsRecord := by
  cases d <;> unfold IsRecord <;> infer_instance

end Doc

theorem isRecord_of_keys {members : List (Option String × Doc)} (keys : List String)
    (h : members.map Prod.fst = keys.map some) (hn : keys.Nodup) : (Doc.obj members).IsRecord := by
  show (members.map Prod.fst).Nodup
  rw [h]
  refine List.pairwise_map.mpr (hn.imp fun hne heq => ?_)
  exact hne (Option.some.inj heq)

/-! ### Exact documents are not broken -/

mutual

theorem not_isBroken : ∀ d : Doc, d.Exact → d.isBroken = false
  | .null, _ => rfl
  | .bool _, _ => rfl
  | .num _, _ => rfl
  | .str _, _ => rfl
  | .arr items, h => not_itemsBroken items h
  | .obj members, h => not_membersBroken members h
  | .unreadable, _ => rfl
  | .broken, h => h.elim

theorem not_itemsBroken : ∀ ds : List Doc, itemsExact ds → itemsBroken ds = false
  | [], _ => rfl
  | [d], h => not_isBroken d h.1
  | _ :: e :: rest, h => not_itemsBroken (e :: rest) h.2

theorem not_membersBroken : ∀ ms : List (Option String × Doc), membersExact ms →
    membersBroken ms = false
  | [], _ => rfl
  | [(_, d)], h => not_isBroken d h.2.1
  | _ :: e :: rest, h => not_membersBroken (e :: rest) h.2.2

end

theorem skip_eq_ok {d : Doc} (h : d.isBroken = false) (room : Nat) : skip room d = .ok () := by
  unfold skip
  rw [h]
  rfl

theorem not_isBroken_of_skip {d : Doc} {room : Nat} {u : Unit} (h : skip room d = .ok u) :
    d.isBroken = false := by
  unfold skip at h
  cases hb : d.isBroken with
  | true => simp [hb] at h
  | false => rfl

theorem itemsExact_iff {ds : List Doc} : itemsExact ds ↔ ∀ d ∈ ds, d.Exact := by
  induction ds with
  | nil => simp [itemsExact]
  | cons d ds ih => simp [itemsExact, ih]

theorem membersExact_iff {ms : List (Option String × Doc)} :
    membersExact ms ↔ ∀ m ∈ ms, m.1.isSome = true ∧ m.2.Exact := by
  induction ms with
  | nil => simp [membersExact]
  | cons m ms ih => simp [membersExact, ih, and_assoc]

theorem membersRead_of_exact {ms : List (Option String × Doc)} (h : membersExact ms) :
    ∀ m ∈ ms, m.1.isSome = true ∧ m.2.isBroken = false :=
  fun m hm => (membersExact_iff.mp h m hm).imp_right (not_isBroken m.2)

theorem itemsPlain_iff {ds : List Doc} : itemsPlain ds = true ↔ ∀ d ∈ ds, d.isPlain = true := by
  induction ds with
  | nil => simp [itemsPlain]
  | cons d ds ih => simp [itemsPlain, ih]

theorem membersPlain_iff {ms : List (Option String × Doc)} :
    membersPlain ms = true ↔ ∀ m ∈ ms, m.1.isSome = true ∧ m.2.isPlain = true := by
  induction ms with
  | nil => simp [membersPlain]
  | cons m ms ih => simp [membersPlain, ih]

theorem lookup_cons_of_ne {α β : Type} [BEq α] [LawfulBEq α] {a b : α} (h : a ≠ b) (v : β)
    (l : List (α × β)) : ((b, v) :: l).lookup a = l.lookup a := by
  rw [List.lookup_cons, beq_eq_false_iff_ne.mpr h]

theorem lookup_eq_none_of_not_mem {α β : Type} [BEq α] [LawfulBEq α] {l : List (α × β)} {a : α}
    (h : a ∉ l.map Prod.fst) : l.lookup a = none := by
  rw [List.lookup_eq_none_iff]
  intro m hm
  rw [bne_iff_ne]
  exact fun heq => h (List.mem_map.mpr ⟨m, hm, heq.symm⟩)

theorem Doc.isPlain_get {d : Doc} (h : d.isPlain = true)
    (key : String) : (d.get key).isPlain = true := by
  unfold Doc.get
  cases hm : d.member? key with
  | none => rfl
  | some e =>
    cases d with
    | obj members =>
      obtain ⟨before, after, rfl, -⟩ := List.lookup_eq_some_iff.mp hm
      exact (membersPlain_iff.mp h (some key, e) (by simp)).2
    | _ => cases hm

/-! ### Decoding records -/

/-- What succeeds in two steps succeeds in each. -/
theorem bind_eq_ok {ε α β : Type} {x : Except ε α} {f : α → Except ε β} {b : β}
    (h : (x >>= f) = .ok b) : ∃ a, x = .ok a ∧ f a = .ok b := by
  cases x with
  | error e => cases h
  | ok a => exact ⟨a, rfl, h⟩

section records

variable {ms : List Member} {room : Nat}

theorem memberNamed_eq_some {key : String} {m : Member} (h : memberNamed ms key = some m) :
    m ∈ ms ∧ (m.name = key ∨ key ∈ m.aliases) := by
  have hp := List.find?_some h
  exact ⟨List.mem_of_find?_eq_some h, by simpa using hp⟩

theorem memberNamed_eq_none {key : String} (h : memberNamed ms key = none) :
    key ∉ ms.map (·.name) := by
  intro hk
  obtain ⟨m, hm, rfl⟩ := List.mem_map.mp hk
  have := List.find?_eq_none.mp h m hm
  simp at this

/-- The walk over members with distinct keys takes them all, if none has another name than its
own. -/
theorem walkMembers_eq_ok (room : Nat) {members : List (Option String × Doc)}
    (ha : ∀ m ∈ ms, ∀ a ∈ m.aliases, members.lookup (some a) = none)
    (hp : ∀ m ∈ members, m.1.isSome = true ∧ m.2.isBroken = false)
    (hn : (members.map Prod.fst).Nodup) (given : List (String × Doc))
    (hfresh : ∀ m ∈ members, ∀ k, m.1 = some k → given.lookup k = none) :
    ∃ given', walkMembers ms (fun _ => skip) room members given = .ok given' ∧
      ∀ k ∈ ms.map (·.name), given'.lookup k = (members.lookup (some k)).or (given.lookup k) := by
  induction members generalizing given with
  | nil => exact ⟨given, rfl, fun k _ => by simp⟩
  | cons e rest ih =>
    obtain ⟨key, d⟩ := e
    obtain ⟨⟨hkey, hd⟩, hprest⟩ := List.forall_mem_cons.mp hp
    obtain ⟨k, rfl⟩ := Option.isSome_iff_exists.mp hkey
    rw [List.map_cons, List.nodup_cons] at hn
    have hhead : ∀ m ∈ ms, k ∉ m.aliases := by
      intro m hm hk
      simpa using ha m hm k hk
    have harest : ∀ m ∈ ms, ∀ a ∈ m.aliases, rest.lookup (some a) = none := by
      intro m hm a hmem
      have hne : a ≠ k := fun heq => hhead m hm (heq ▸ hmem)
      have hnone := ha m hm a hmem
      rwa [lookup_cons_of_ne (by simpa using hne)] at hnone
    have hrest : ∀ m ∈ rest, ∀ k, m.1 = some k → given.lookup k = none := fun m hm =>
      hfresh m (List.mem_cons_of_mem _ hm)
    have hk : rest.lookup (some k) = none := lookup_eq_none_of_not_mem hn.1
    have hgiven := hfresh (some k, d) List.mem_cons_self k rfl
    simp only [walkMembers]
    cases hm : memberNamed ms k with
    | none =>
      -- a member that nobody asks for
      obtain ⟨given', hwalk, hlookup⟩ := ih harest hprest hn.2 given hrest
      refine ⟨given', by simp only [skip_eq_ok hd, hwalk], fun l hl => ?_⟩
      have hne : l ≠ k := fun h => memberNamed_eq_none hm (h ▸ hl)
      rw [hlookup l hl, lookup_cons_of_ne (by simpa using hne)]
    | some m =>
      obtain ⟨hmem, hname⟩ := memberNamed_eq_some hm
      obtain rfl : m.name = k := hname.resolve_right (hhead m hmem)
      have hstill : ∀ e ∈ rest, ∀ l, e.1 = some l → ((m.name, d) :: given).lookup l = none := by
        intro e he l hl
        have hne : l ≠ m.name := by
          rintro rfl
          exact hn.1 (List.mem_map.mpr ⟨e, he, hl⟩)
        rw [lookup_cons_of_ne hne]
        exact hrest e he l hl
      obtain ⟨given', hwalk, hlookup⟩ := ih harest hprest hn.2 ((m.name, d) :: given) hstill
      refine ⟨given', by simp only [hgiven, skip_eq_ok hd, hwalk]; rfl, fun l hl => ?_⟩
      rw [hlookup l hl]
      by_cases heq : l = m.name
      · subst heq
        rw [hk, List.lookup_cons_self, List.lookup_cons_self]
        rfl
      · rw [lookup_cons_of_ne heq, lookup_cons_of_ne (by simpa using heq)]

/-- A member that a walk has taken is the first of its name. -/
theorem lookup_of_walkMembers (room : Nat) (ha : ∀ m ∈ ms, m.aliases = [])
    {visit : String → Decoder Unit} {members : List (Option String × Doc)}
    {given given' : List (String × Doc)}
    (hwalk : walkMembers ms visit room members given = .ok given') {key : String}
    (hk : key ∈ ms.map (·.name)) :
    given'.lookup key = (given.lookup key).or (members.lookup (some key)) := by
  induction members generalizing given with
  | nil =>
    cases hwalk
    simp
  | cons e rest ih =>
    obtain ⟨_ | k, d⟩ := e
    · cases hwalk
    simp only [walkMembers] at hwalk
    cases hm : memberNamed ms k with
    | none =>
      have hne : key ≠ k := fun h => memberNamed_eq_none hm (h ▸ hk)
      rw [hm] at hwalk
      dsimp only at hwalk
      split at hwalk
      · cases hwalk
      · rw [ih hwalk, lookup_cons_of_ne (by simpa using hne)]
    | some m =>
      obtain ⟨hmem, hname⟩ := memberNamed_eq_some hm
      obtain rfl : m.name = k := hname.resolve_right (by rw [ha m hmem]; exact List.not_mem_nil)
      rw [hm] at hwalk
      dsimp only at hwalk
      split at hwalk
      · cases hwalk
      next hgiven =>
      split at hwalk
      · cases hwalk
      rw [ih hwalk]
      by_cases heq : key = m.name
      · subst heq
        rw [Option.not_isSome_iff_eq_none.mp hgiven, List.lookup_cons_self, List.lookup_cons_self]
        rfl
      · rw [lookup_cons_of_ne heq, lookup_cons_of_ne (by simpa using heq)]

/-- The values of the members that stand for a name. -/
def heldFor (ms : List Member) (name : String) (members : List (Option String × Doc)) : List Doc :=
  members.filterMap fun e => ((e.1.bind (memberNamed ms)).filter fun m =>
    m.name = name).map fun _ => e.2

theorem heldFor_cons_none {k : String} (hm : memberNamed ms k = none) (name : String) (d : Doc)
    (rest : List (Option String × Doc)) :
    heldFor ms name ((some k, d) :: rest) = heldFor ms name rest := by
  unfold heldFor
  rw [List.filterMap_cons_none]
  rw [Option.bind_some, hm]
  rfl

theorem heldFor_cons_some {k : String} {m : Member} (hm : memberNamed ms k = some m) (name : String)
    (d : Doc) (rest : List (Option String × Doc)) : heldFor ms name ((some k, d) :: rest) =
      (if m.name = name then [d] else []) ++ heldFor ms name rest := by
  unfold heldFor
  rw [List.filterMap_cons, Option.bind_some, hm]
  by_cases same : m.name = name
  · rw [if_pos same, Option.filter_some, decide_eq_true same]
    rfl
  · rw [if_neg same, Option.filter_some, decide_eq_false same]
    rfl

/-- The member of a name after one more was taken. -/
theorem toList_lookup_cons {given : List (String × Doc)} {taken : String}
    (fresh : given.lookup taken = none) (name : String) (d : Doc) :
    (((taken, d) :: given).lookup name).toList =
      (given.lookup name).toList ++ if taken = name then [d] else [] := by
  by_cases same : taken = name
  · subst same
    rw [List.lookup_cons_self, fresh, if_pos rfl]
    rfl
  · rw [lookup_cons_of_ne (Ne.symm same), if_neg same, List.append_nil]

/-- **A walk takes all that stands for each name**, which is one member at most. -/
theorem lookup_walkMembers {members : List (Option String × Doc)}
    {given given' : List (String × Doc)}
    (hwalk : walkMembers ms (fun _ => skip) room members given = .ok given') (name : String) :
    (given'.lookup name).toList = (given.lookup name).toList ++ heldFor ms name members := by
  induction members generalizing given with
  | nil =>
    cases hwalk
    exact (List.append_nil _).symm
  | cons e rest ih =>
    obtain ⟨_ | k, d⟩ := e
    · cases hwalk
    simp only [walkMembers] at hwalk
    cases hm : memberNamed ms k with
    | none =>
      rw [hm] at hwalk
      dsimp only at hwalk
      split at hwalk
      · cases hwalk
      · rw [ih hwalk, heldFor_cons_none hm]
    | some m =>
      rw [hm] at hwalk
      dsimp only at hwalk
      split at hwalk
      · cases hwalk
      next fresh =>
        split at hwalk
        · cases hwalk
        · rw [ih hwalk, toList_lookup_cons (Option.not_isSome_iff_eq_none.mp fresh),
            heldFor_cons_some hm, List.append_assoc]

/-- Where no name is taken twice, a walk comes to its end. -/
theorem walkMembers_ok (room : Nat) {members : List (Option String × Doc)}
    (hp : ∀ m ∈ members, m.1.isSome = true ∧ m.2.isBroken = false) {given : List (String × Doc)}
    (once : ∀ name, ((given.lookup name).toList ++ heldFor ms name members).length ≤ 1) :
    ∃ given', walkMembers ms (fun _ => skip) room members given = .ok given' := by
  induction members generalizing given with
  | nil => exact ⟨given, rfl⟩
  | cons e rest ih =>
    obtain ⟨key, d⟩ := e
    obtain ⟨⟨hkey, hd⟩, hprest⟩ := List.forall_mem_cons.mp hp
    obtain ⟨k, rfl⟩ := Option.isSome_iff_exists.mp hkey
    simp only [walkMembers]
    cases hm : memberNamed ms k with
    | none =>
      obtain ⟨given', hwalk⟩ := ih hprest fun name => heldFor_cons_none hm name d rest ▸ once name
      exact ⟨given', by simp only [skip_eq_ok hd, hwalk]⟩
    | some m =>
      have fresh : given.lookup m.name = none := by
        have hlen := once m.name
        rw [heldFor_cons_some hm, if_pos rfl] at hlen
        cases hgiven : given.lookup m.name with
        | none => rfl
        | some e =>
          rw [hgiven] at hlen
          simp at hlen
      have still : ∀ name,
          ((((m.name, d) :: given).lookup name).toList ++ heldFor ms name rest).length ≤ 1 := by
        intro name
        rw [toList_lookup_cons fresh, List.append_assoc, ← heldFor_cons_some hm]
        exact once name
      obtain ⟨given', hwalk⟩ := ih hprest still
      exact ⟨given', by simp only [fresh, skip_eq_ok hd, hwalk]; rfl⟩

/-- A walk over items leaves the members alone that it does not come to. -/
theorem lookup_of_walkItems {visit : String → Decoder Unit} {ds : List Doc} {key : String} :
    ∀ {ms : List Member} {given given' : List (String × Doc)}, key ∉ ms.map (·.name) →
      walkItems visit room ms ds given = .ok given' → given'.lookup key = given.lookup key := by
  induction ds with
  | nil =>
    intro ms given given' _ hwalk
    rw [walkItems] at hwalk
    cases hwalk
    rfl
  | cons d ds ih =>
    intro ms given given' hk hwalk
    cases ms with
    | nil => cases hwalk
    | cons m ms =>
      rw [List.map_cons, List.mem_cons, not_or] at hk
      simp only [walkItems] at hwalk
      split at hwalk
      · cases hwalk
      · rw [ih hk.2 hwalk, lookup_cons_of_ne hk.1]

/-- The slots of a record hold what its members hold. -/
structure Slots.Holds (s : Slots) (ms : List Member) (room : Nat) (d : Doc) : Prop where
  named : s.positional = false
  levels : s.room = room
  given : ∀ key ∈ ms.map (·.name), s.given.lookup key = d.member? key

/-- A record opens a level; it is read from the members of an object, or from the items of an
array. -/
theorem walk_of_record {d : Doc} {s : Slots} (h : record ms room d = .ok s) : room = s.room + 1 ∧
    ((∃ members, d = .obj members ∧
      walkMembers ms (fun _ => skip) s.room members [] = .ok s.given) ∨
      ∃ items, d = .arr items ∧ walkItems (fun _ => skip) s.room ms items [] = .ok s.given) := by
  unfold record recordVisiting at h
  split at h
  · cases h
  · cases h
  next members room =>
    cases hwalk : walkMembers ms (fun _ => skip) room members [] with
    | error e => rw [hwalk] at h; cases h
    | ok given =>
      rw [hwalk] at h
      cases h
      exact ⟨rfl, .inl ⟨members, rfl, hwalk⟩⟩
  next items room =>
    cases hwalk : walkItems (fun _ => skip) room ms items [] with
    | error e => rw [hwalk] at h; cases h
    | ok given =>
      rw [hwalk] at h
      cases h
      exact ⟨rfl, .inr ⟨items, rfl, hwalk⟩⟩
  · cases h

theorem record_obj_eq_ok (ms : List Member) (room : Nat) {members : List (Option String × Doc)}
    (ha : ∀ m ∈ ms, ∀ a ∈ m.aliases, members.lookup (some a) = none)
    (hp : ∀ m ∈ members, m.1.isSome = true ∧ m.2.isBroken = false)
    (hn : (members.map Prod.fst).Nodup) :
    ∃ s, record ms (room + 1) (.obj members) = .ok s ∧ s.Holds ms room (.obj members) := by
  obtain ⟨given, hwalk, hlookup⟩ := walkMembers_eq_ok room ha hp hn [] (by simp)
  refine ⟨⟨given, false, room⟩, ?_, rfl, rfl, fun k hk => ?_⟩
  · simp only [record, recordVisiting, hwalk]
    rfl
  · simp [hlookup k hk, Doc.member?]

/-- **A record decodes to its members**, in whatever order they stand and whatever stands between
them, if each stands under its own name. -/
theorem record_eq_ok_of_exact (ms : List Member) (room : Nat) {d : Doc}
    (ha : ∀ m ∈ ms, ∀ a ∈ m.aliases, d.member? a = none) (hp : d.Exact) (hd : d.IsRecord) :
    ∃ s, record ms (room + 1) d = .ok s ∧ s.Holds ms room d := by
  cases d with
  | obj members => exact record_obj_eq_ok ms room ha (membersRead_of_exact hp) hd
  | _ => exact hd.elim

theorem record_eq_ok (ms : List Member) (room : Nat) {d : Doc}
    (ha : ∀ m ∈ ms, ∀ a ∈ m.aliases, d.member? a = none) (hp : d.isPlain = true) (hd : d.IsRecord) :
    ∃ s, record ms (room + 1) d = .ok s ∧ s.Holds ms room d :=
  record_eq_ok_of_exact ms room ha (exact_of_isPlain d hp) hd

namespace Slots.Holds

variable {s : Slots} {d : Doc} {α : Type}

/-- A member that may be missing or `null`. -/
theorem nullable (h : s.Holds ms room d) (key : String) (hk : key ∈ ms.map (·.name))
    (dec : Decoder α) :
    s.defaulted key none (Json.nullable dec) = Json.nullable dec room (d.get key) := by
  unfold Slots.defaulted Doc.get
  rw [h.given key hk, h.levels]
  cases d.member? key <;> rfl

/-- A member that is there. -/
theorem defaulted (h : s.Holds ms room d) (key : String) (hk : key ∈ ms.map (·.name))
    (hne : d.get key ≠ .null) (default : α) (dec : Decoder α) :
    s.defaulted key default dec = dec room (d.get key) := by
  unfold Slots.defaulted Doc.get at *
  rw [h.given key hk, h.levels]
  cases hm : d.member? key with
  | none => rw [hm] at hne; exact absurd rfl hne
  | some e => rfl

theorem required (h : s.Holds ms room d) (key : String) (hk : key ∈ ms.map (·.name))
    (hne : d.get key ≠ .null) (dec : Decoder α) : s.required key dec = dec room (d.get key) := by
  unfold Slots.required Doc.get at *
  rw [h.given key hk, h.levels]
  cases hm : d.member? key with
  | none => rw [hm] at hne; exact absurd rfl hne
  | some e => rfl

/-- A member that is there, by its document. -/
theorem required_ok (h : s.Holds ms room d) (key : String) (hk : key ∈ ms.map (·.name)) {e : Doc}
    (he : d.member? key = some e) {dec : Decoder α} {a : α} (ha : dec room e = .ok a) :
    s.required key dec = .ok a := by
  unfold Slots.required
  rw [h.given key hk, he, h.levels]
  exact ha

theorem defaulted_ok (h : s.Holds ms room d) (key : String) (hk : key ∈ ms.map (·.name)) {e : Doc}
    (he : d.member? key = some e) {default : α} {dec : Decoder α} {a : α}
    (ha : dec room e = .ok a) : s.defaulted key default dec = .ok a := by
  unfold Slots.defaulted
  rw [h.given key hk, he, h.levels]
  exact ha

/-- A member of an object that may be missing or `null`. -/
theorem optional (h : s.Holds ms room d) (key : String) (hk : key ∈ ms.map (·.name))
    (dec : Decoder α) : s.optional key dec = Json.nullable dec room (d.get key) := by
  unfold Slots.optional Doc.get
  rw [h.given key hk, h.levels, h.named]
  cases d.member? key <;> rfl

/-- A member that has to be there and is missing. -/
theorem missing (h : s.Holds ms room d) (key : String) (hk : key ∈ ms.map (·.name))
    (hnone : d.member? key = none) (dec : Decoder α) : s.required key dec = .error .unfit := by
  unfold Slots.required
  rw [h.given key hk, hnone]

end Slots.Holds

/-! ### Records are JSON throughout -/

theorem not_itemsBroken_of_forall : ∀ {ds : List Doc}, (∀ d ∈ ds, d.isBroken = false) →
    itemsBroken ds = false
  | [], _ => rfl
  | [d], h => h d List.mem_cons_self
  | _ :: d :: ds, h =>
    have rest : itemsBroken (d :: ds) = false :=
      not_itemsBroken_of_forall (List.forall_mem_cons.mp h).2
    rest

theorem not_membersBroken_of_forall : ∀ {ms : List (Option String × Doc)},
    (∀ m ∈ ms, m.2.isBroken = false) → membersBroken ms = false
  | [], _ => rfl
  | [m], h => h m List.mem_cons_self
  | _ :: m :: ms, h =>
    have rest : membersBroken (m :: ms) = false :=
      not_membersBroken_of_forall (List.forall_mem_cons.mp h).2
    rest

theorem not_isBroken_of_walkItems {ds : List Doc} :
    ∀ {ms : List Member} {given given' : List (String × Doc)},
    walkItems (fun _ => skip) room ms ds given = .ok given' → ∀ d ∈ ds, d.isBroken = false := by
  induction ds with
  | nil => simp
  | cons d ds ih =>
    intro ms given given' hwalk
    cases ms with
    | nil => cases hwalk
    | cons m ms =>
      simp only [walkItems] at hwalk
      split at hwalk
      · cases hwalk
      next hskip => exact List.forall_mem_cons.mpr ⟨not_isBroken_of_skip hskip, ih hwalk⟩

theorem not_isBroken_of_walkMembers {members : List (Option String × Doc)} :
    ∀ {given given' : List (String × Doc)}, walkMembers ms (fun _ => skip) room members given =
      .ok given' →
      ∀ m ∈ members, m.2.isBroken = false := by
  induction members with
  | nil => simp
  | cons e rest ih =>
    intro given given' hwalk
    obtain ⟨_ | k, d⟩ := e
    · cases hwalk
    simp only [walkMembers] at hwalk
    refine List.forall_mem_cons.mpr ?_
    cases hm : memberNamed ms k with
    | none =>
      rw [hm] at hwalk
      dsimp only at hwalk
      split at hwalk
      · cases hwalk
      next hskip => exact ⟨not_isBroken_of_skip hskip, ih hwalk⟩
    | some m =>
      rw [hm] at hwalk
      dsimp only at hwalk
      split at hwalk
      · cases hwalk
      split at hwalk
      · cases hwalk
      next hskip => exact ⟨not_isBroken_of_skip hskip, ih hwalk⟩

/-- What decodes as a record is JSON throughout. -/
theorem not_isBroken_of_record {d : Doc} {s : Slots} (h : record ms room d = .ok s) :
    d.isBroken = false := by
  obtain ⟨-, ⟨members, rfl, hwalk⟩ | ⟨items, rfl, hwalk⟩⟩ := walk_of_record h
  · exact not_membersBroken_of_forall (not_isBroken_of_walkMembers hwalk)
  · exact not_itemsBroken_of_forall (not_isBroken_of_walkItems hwalk)

end records

/-! ### Decoding lists and texts -/

theorem decodeItems_eq_ok {α : Type} {dec : Decoder α} {room : Nat} {ds : List Doc} {as : List α}
    (h : List.Forall₂ (fun d a => dec room d = .ok a) ds as) (acc : List α) :
    decodeItems dec room ds acc = .ok (acc.reverse ++ as) := by
  induction h generalizing acc with
  | nil => simp [decodeItems]
  | cons hd _ ih => simp [decodeItems, hd, ih]

/-- A text decodes as the document that is read from it. -/
theorem decode_of_decodeText {α : Type} {dec : Decoder α} {s : String} {a : α}
    (h : decodeText dec s = .ok a) : dec maxDepth (read s).doc = .ok a := by
  unfold decodeText Reading.decode at h
  cases hdec : dec maxDepth (read s).doc with
  | error e => rw [hdec] at h; cases h
  | ok b =>
    rw [hdec] at h
    simp only at h
    split at h
    · cases h
    · exact h

/-- Items that decode do so one by one. -/
theorem forall₂_of_decodeItems {α : Type} {dec : Decoder α} {room : Nat} {ds : List Doc} :
    ∀ {acc as : List α}, decodeItems dec room ds acc = .ok as →
      ∃ bs, as = acc.reverse ++ bs ∧ List.Forall₂ (fun d a => dec room d = .ok a) ds bs := by
  induction ds with
  | nil =>
    intro acc as h
    cases h
    exact ⟨[], by simp, .nil⟩
  | cons d ds ih =>
    intro acc as h
    rw [decodeItems] at h
    cases hd : dec room d with
    | error e => rw [hd] at h; cases h
    | ok a =>
      rw [hd] at h
      obtain ⟨bs, rfl, hbs⟩ := ih h
      exact ⟨a :: bs, by simp, .cons hd hbs⟩

theorem item_ok_of_decodeItems {α : Type} {dec : Decoder α} {room : Nat} {ds : List Doc}
    {acc as : List α} (h : decodeItems dec room ds acc = .ok as) :
    ∀ d ∈ ds, ∃ a, dec room d = .ok a := by
  obtain ⟨bs, -, hbs⟩ := forall₂_of_decodeItems h
  clear h
  induction hbs with
  | nil => simp
  | cons hd _ ih => exact List.forall_mem_cons.mpr ⟨⟨_, hd⟩, ih⟩

/-- An array decodes item by item. -/
theorem list_eq_ok {α : Type} {dec : Decoder α} {room : Nat} {ds : List Doc} {as : List α}
    (h : List.Forall₂ (fun d a => dec room d = .ok a) ds as) :
    list dec (room + 1) (.arr ds) = .ok as := by
  simp [list, decodeItems_eq_ok h]

theorem nullable_ofString? (room : Nat) (s : Option String) :
    nullable text room (.ofString? s) = .ok s := by
  cases s <;> rfl

end ChatRelay.Json
