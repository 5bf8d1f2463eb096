import ChatRelay.Proofs.Json.Records

/-! # What documents mean

A plain document that does not nest too deep decodes to a value, its `meaning` (`value_eq_meaning`),
and so does its text (`parse?_text`). The document of that value is the `normal` form of the one
that was read: the members of a record stand in the order of their keys, and each member is in
normal form (`get_normal`). -/

namespace ChatRelay.Json

/-! ### Objects -/

namespace Object

/-- The keys of an object increase. -/
def Sorted (o : Object) : Prop := o.Pairwise fun m n => m.1 < n.1

theorem lookup_insert (k key : String) (v : Value) (o : Object) :
    (insert key v o).lookup k = if k = key then some v else o.lookup k := by
  induction o with
  | nil => by_cases h : k = key <;> simp [insert, h]
  | cons m rest ih =>
    obtain ⟨l, w⟩ := m
    unfold insert
    split
    · by_cases h : k = key
      · subst h; simp
      · rw [lookup_cons_of_ne h, if_neg h]
    · split
      · next hkey =>
        subst hkey
        by_cases h : k = key
        · subst h; simp
        · rw [lookup_cons_of_ne h, lookup_cons_of_ne h, if_neg h]
      · next hkey =>
        by_cases h : k = l
        · subst h
          rw [List.lookup_cons_self, List.lookup_cons_self, if_neg (Ne.symm hkey)]
        · rw [lookup_cons_of_ne h, lookup_cons_of_ne h, ih]

theorem mem_insert {key : String} {v : Value} {o : Object} {m : String × Value}
    (h : m ∈ insert key v o) : m = (key, v) ∨ m ∈ o := by
  induction o with
  | nil => simpa [insert] using h
  | cons n rest ih =>
    unfold insert at h
    split at h
    · simpa using h
    · split at h
      · simp only [List.mem_cons] at h ⊢
        tauto
      · simp only [List.mem_cons] at h ⊢
        rcases h with h | h
        · exact .inr (.inl h)
        · exact (ih h).imp_right .inr

theorem sorted_insert {o : Object} (h : o.Sorted) (key : String) (v : Value) :
    (insert key v o).Sorted := by
  induction o with
  | nil => simp [insert, Sorted]
  | cons m rest ih =>
    obtain ⟨hm, hrest⟩ := List.pairwise_cons.mp h
    unfold insert
    split
    · next hlt =>
      refine List.pairwise_cons.mpr ⟨fun n hn => ?_, h⟩
      rcases List.mem_cons.mp hn with rfl | hn
      · exact hlt
      · exact String.lt_trans hlt (hm n hn)
    · next hnlt =>
      split
      · next heq =>
        subst heq
        exact List.pairwise_cons.mpr ⟨hm, hrest⟩
      · next hne =>
        refine List.pairwise_cons.mpr ⟨fun n hn => ?_, ih hrest⟩
        rcases mem_insert hn with rfl | hn
        · have hle := String.not_lt.mp hnlt
          refine Decidable.byContradiction fun hge => hne ?_
          exact String.le_antisymm (String.not_lt.mp hge) hle
        · exact hm n hn

end Object

/-! ### Values of documents -/

mutual

/-- The value of a plain document. -/
def Doc.meaning : Doc → Value
  | .null => .null
  | .bool b => .bool b
  | .num n => .num n
  | .str s => .str s
  | .arr items => .arr (itemMeanings items)
  | .obj members => .obj (memberMeanings members [])
  | .unreadable => .null
  | .broken => .null

/-- The values of items. -/
def itemMeanings : List Doc → List Value
  | [] => []
  | d :: rest => d.meaning :: itemMeanings rest

/-- An object after members were set one after another. -/
def memberMeanings : List (Option String × Doc) → Object → Object
  | [], o => o
  | (k, d) :: rest, o => memberMeanings rest (Object.insert (k.getD "") d.meaning o)

end

mutual

/-- The levels of arrays and objects in a document. -/
def Doc.depth : Doc → Nat
  | .arr items => itemsDepth items + 1
  | .obj members => membersDepth members + 1
  | _ => 0

/-- The levels in the deepest item. -/
def itemsDepth : List Doc → Nat
  | [] => 0
  | d :: rest => max d.depth (itemsDepth rest)

/-- The levels in the deepest member. -/
def membersDepth : List (Option String × Doc) → Nat
  | [] => 0
  | (_, d) :: rest => max d.depth (membersDepth rest)

end

theorem itemsDepth_le {ds : List Doc} {n : Nat} (h : ∀ d ∈ ds, d.depth ≤ n) :
    itemsDepth ds ≤ n := by
  induction ds with
  | nil => exact Nat.zero_le n
  | cons d ds ih =>
    obtain ⟨hd, hds⟩ := List.forall_mem_cons.mp h
    exact Nat.max_le.mpr ⟨hd, ih hds⟩

theorem membersDepth_le {ms : List (Option String × Doc)} {n : Nat} (h : ∀ m ∈ ms, m.2.depth ≤ n) :
    membersDepth ms ≤ n := by
  induction ms with
  | nil => exact Nat.zero_le n
  | cons m ms ih =>
    obtain ⟨hm, hms⟩ := List.forall_mem_cons.mp h
    exact Nat.max_le.mpr ⟨hm, ih hms⟩

/-! A plain document decodes to its meaning, if it may open as many levels as it has. -/

mutual

theorem value_eq_meaning : ∀ (d : Doc) (room : Nat), d.isPlain = true → d.depth ≤ room →
    value room d = .ok d.meaning
  | .null, _, _, _ => by simp [value, Doc.meaning]
  | .bool _, _, _, _ => by simp [value, Doc.meaning]
  | .num _, _, _, _ => by simp [value, Doc.meaning]
  | .str _, _, _, _ => by simp [value, Doc.meaning]
  | .arr items, 0, _, h => by simp [Doc.depth] at h
  | .arr items, room + 1, hp, h => by
    have := valueItems_eq_meanings items room [] hp (Nat.le_of_succ_le_succ h)
    rw [value, this]
    rfl
  | .obj members, 0, _, h => by simp [Doc.depth] at h
  | .obj members, room + 1, hp, h => by
    have := valueMembers_eq_meanings members room [] hp (Nat.le_of_succ_le_succ h)
    rw [value, this]
    rfl
  | .unreadable, _, h, _ => by cases h
  | .broken, _, h, _ => by cases h

theorem valueItems_eq_meanings : ∀ (ds : List Doc) (room : Nat) (acc : List Value),
    itemsPlain ds = true → itemsDepth ds ≤ room →
    valueItems room ds acc = .ok (acc.reverse ++ itemMeanings ds)
  | [], _, acc, _, _ => by simp [valueItems, itemMeanings]
  | d :: rest, room, acc, hp, h => by
    rw [itemsPlain, Bool.and_eq_true] at hp
    rw [itemsDepth, Nat.max_le] at h
    rw [valueItems, value_eq_meaning d room hp.1 h.1]
    simp only
    rw [valueItems_eq_meanings rest room _ hp.2 h.2, List.reverse_cons, List.append_assoc]
    rfl

theorem valueMembers_eq_meanings : ∀ (ms : List (Option String × Doc)) (room : Nat) (o : Object),
    membersPlain ms = true → membersDepth ms ≤ room →
    valueMembers room ms o = .ok (memberMeanings ms o)
  | [], _, _, _, _ => by simp [valueMembers, memberMeanings]
  | (none, _) :: _, _, _, hp, _ => by cases hp
  | (some k, d) :: rest, room, o, hp, h => by
    rw [membersPlain, Option.isSome_some, Bool.true_and, Bool.and_eq_true] at hp
    rw [membersDepth, Nat.max_le] at h
    simp only [valueMembers, value_eq_meaning d room hp.1 h.1]
    rw [valueMembers_eq_meanings rest room _ hp.2 h.2]
    rfl

end

/-- **The text of a plain document means its value.** -/
theorem parse?_text {d : Doc} (hp : d.isPlain = true) (hd : d.depth ≤ maxDepth) :
    parse? d.text = some d.meaning := by
  unfold parse?
  rw [decodeText_of_isPlain value hp, value_eq_meaning d maxDepth hp hd]
  rfl

/-! ### Normal forms -/

/-- The document of a document's value. -/
def Doc.normal (d : Doc) : Doc := d.meaning.doc

theorem itemDocs_eq_map (vs : List Value) : itemDocs vs = vs.map Value.doc := by
  induction vs with
  | nil => rfl
  | cons v vs ih => rw [itemDocs, ih, List.map_cons]

theorem itemMeanings_eq_map (ds : List Doc) : itemMeanings ds = ds.map Doc.meaning := by
  induction ds with
  | nil => rfl
  | cons d ds ih => rw [itemMeanings, ih, List.map_cons]

theorem memberDocs_eq_map (o : Object) : memberDocs o = o.map fun m => (some m.1, m.2.doc) := by
  induction o with
  | nil => rfl
  | cons m o ih => rw [memberDocs, ih, List.map_cons]

theorem Doc.normal_arr (ds : List Doc) : Doc.normal (.arr ds) = .arr (ds.map normal) := by
  unfold Doc.normal
  rw [Doc.meaning, Value.doc, itemMeanings_eq_map, itemDocs_eq_map, List.map_map]
  rfl

theorem lookup_memberDocs (o : Object) (key : String) :
    (memberDocs o).lookup (some key) = (o.lookup key).map Value.doc := by
  induction o with
  | nil => rfl
  | cons m o ih =>
    obtain ⟨k, v⟩ := m
    rw [memberDocs]
    by_cases h : key = k
    · subst h
      rw [List.lookup_cons_self, List.lookup_cons_self]
      rfl
    · rw [lookup_cons_of_ne h, lookup_cons_of_ne (by simpa using h), ih]

theorem lookup_memberMeanings {ms : List (Option String × Doc)} (hp : membersPlain ms = true)
    (hn : (ms.map Prod.fst).Nodup) (o : Object) (key : String) :
    (memberMeanings ms o).lookup key = ((ms.lookup (some key)).map Doc.meaning).or
      (o.lookup key) := by
  induction ms generalizing o with
  | nil => simp [memberMeanings]
  | cons m rest ih =>
    obtain ⟨k, d⟩ := m
    rw [membersPlain, Bool.and_eq_true, Bool.and_eq_true] at hp
    obtain ⟨k, rfl⟩ := Option.isSome_iff_exists.mp hp.1.1
    rw [List.map_cons, List.nodup_cons] at hn
    rw [memberMeanings, ih hp.2 hn.2, Option.getD_some, Object.lookup_insert]
    by_cases h : key = k
    · subst h
      rw [lookup_eq_none_of_not_mem hn.1, List.lookup_cons_self, if_pos rfl]
      rfl
    · rw [if_neg h, lookup_cons_of_ne (by simpa using h)]

/-- A member that is not in a record is not in its value. -/
theorem Doc.member?_meaning {d : Doc} (hp : d.isPlain = true) (hr : d.IsRecord) {key : String}
    (h : d.member? key = none) : d.meaning.member? key = none := by
  cases d with
  | obj members =>
    show (memberMeanings members []).lookup key = none
    have hnone : members.lookup (some key) = none := h
    rw [lookup_memberMeanings hp hr, hnone]
    rfl
  | _ => exact hr.elim

/-- The members of a record mean what they mean by themselves. -/
theorem Doc.member?_normal {d : Doc} (hp : d.isPlain = true) (hd : d.IsRecord) (key : String) :
    d.normal.member? key = (d.member? key).map normal := by
  cases d with
  | obj members =>
    show (memberDocs (memberMeanings members [])).lookup (some key) = _
    rw [lookup_memberDocs, lookup_memberMeanings hp hd, List.lookup_nil, Option.or_none,
      Option.map_map]
    rfl
  | _ => exact hd.elim

theorem Doc.get_normal {d : Doc} (hp : d.isPlain = true) (hd : d.IsRecord) (key : String) :
    d.normal.get key = (d.get key).normal := by
  unfold Doc.get
  rw [Doc.member?_normal hp hd]
  cases d.member? key <;> rfl

theorem sorted_memberMeanings (ms : List (Option String × Doc)) {o : Object} (h : o.Sorted) :
    (memberMeanings ms o).Sorted := by
  induction ms generalizing o with
  | nil => exact h
  | cons m rest ih => exact ih (Object.sorted_insert h _ _)

theorem Doc.isRecord_normal {d : Doc} (hd : d.IsRecord) : d.normal.IsRecord := by
  cases d with
  | obj members =>
    have hsorted := sorted_memberMeanings members (o := []) List.Pairwise.nil
    show ((memberDocs (memberMeanings members [])).map Prod.fst).Nodup
    rw [memberDocs_eq_map, List.map_map, List.Nodup, List.pairwise_map]
    refine hsorted.imp fun {m n} hlt heq => ?_
    exact String.ne_of_lt hlt (Option.some.inj heq)
  | _ => exact hd.elim

mutual

theorem Doc.isPlain_normal : ∀ d : Doc, d.isPlain = true → d.normal.isPlain = true
  | .null, _ => rfl
  | .bool _, _ => rfl
  | .num _, h => h
  | .str _, _ => rfl
  | .arr items, h => by
    rw [Doc.normal_arr, Doc.isPlain, itemsPlain_iff, List.forall_mem_map]
    exact isPlain_normal_items items h
  | .obj members, h => by
    have := isPlain_memberMeanings members [] h (by simp)
    show membersPlain (memberDocs (memberMeanings members [])) = true
    rw [membersPlain_iff, memberDocs_eq_map, List.forall_mem_map]
    exact fun m hm => ⟨rfl, this m hm⟩
  | .unreadable, h => by cases h
  | .broken, h => by cases h

theorem isPlain_normal_items : ∀ ds : List Doc, itemsPlain ds = true →
    ∀ d ∈ ds, d.normal.isPlain = true
  | [], _ => by simp
  | d :: rest, h => by
    rw [itemsPlain, Bool.and_eq_true] at h
    exact List.forall_mem_cons.mpr ⟨Doc.isPlain_normal d h.1, isPlain_normal_items rest h.2⟩

theorem isPlain_memberMeanings : ∀ (ms : List (Option String × Doc)) (o : Object),
    membersPlain ms = true → (∀ m ∈ o, m.2.doc.isPlain = true) →
    ∀ m ∈ memberMeanings ms o, m.2.doc.isPlain = true
  | [], _, _, ho => ho
  | (k, d) :: rest, o, h, ho => by
    rw [membersPlain, Bool.and_eq_true, Bool.and_eq_true] at h
    refine isPlain_memberMeanings rest _ h.2 fun m hm => ?_
    rcases Object.mem_insert hm with rfl | hm
    · exact Doc.isPlain_normal d h.1.2
    · exact ho m hm

end

end ChatRelay.Json
