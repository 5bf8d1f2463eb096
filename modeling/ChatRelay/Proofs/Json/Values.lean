import ChatRelay.Proofs.Json.Meaning
import ChatRelay.Proofs.Json.Numbers

/-! # Values that were read

What was read from a text can be written and read again. Its objects are sorted at every level and
its numbers are numbers of the text (`sorted_value`, `nums_value`). So its document is exact but for
its doubles (`exact_doc`), and decodes to the value again if it may open as many levels as it has,
and only then (`value_doc_iff`). -/

namespace ChatRelay.Json

/-- The numbers in a value. -/
def Value.nums (v : Value) : List Num := v.doc.nums

mutual

/-- The keys of every object in a value increase. -/
def Value.Sorted : Value → Prop
  | .arr items => itemsSorted items
  | .obj members => Object.Sorted members ∧ membersSorted members
  | _ => True

/-- Every item is sorted. -/
def itemsSorted : List Value → Prop
  | [] => True
  | v :: rest => v.Sorted ∧ itemsSorted rest

/-- The value of every member is sorted. -/
def membersSorted : List (String × Value) → Prop
  | [] => True
  | (_, v) :: rest => v.Sorted ∧ membersSorted rest

end

theorem itemsSorted_iff {vs : List Value} : itemsSorted vs ↔ ∀ v ∈ vs, v.Sorted := by
  induction vs with
  | nil => simp [itemsSorted]
  | cons v vs ih => simp [itemsSorted, ih]

theorem membersSorted_iff {ms : List (String × Value)} :
    membersSorted ms ↔ ∀ m ∈ ms, m.2.Sorted := by
  induction ms with
  | nil => simp [membersSorted]
  | cons m ms ih => simp [membersSorted, ih]

/-! ### What a document decodes to -/

theorem membersSorted_insert {o : Object} {key : String} {v : Value} (hv : v.Sorted)
    (ho : membersSorted o) : membersSorted (Object.insert key v o) := by
  rw [membersSorted_iff] at ho ⊢
  intro m hm
  rcases Object.mem_insert hm with rfl | hm
  · exact hv
  · exact ho m hm

theorem mem_nums_insert {o : Object} {key : String} {v : Value} {n : Num}
    (h : n ∈ memberNums (memberDocs (Object.insert key v o))) :
    n ∈ v.doc.nums ∨ n ∈ memberNums (memberDocs o) := by
  rw [memberDocs_eq_map, mem_memberNums] at h ⊢
  obtain ⟨e, he, hn⟩ := h
  obtain ⟨m, hm, rfl⟩ := List.mem_map.mp he
  rcases Object.mem_insert hm with rfl | hm
  · exact .inl hn
  · exact .inr ⟨_, List.mem_map.mpr ⟨m, hm, rfl⟩, hn⟩

/-! A value that was decoded is sorted, its numbers are those of the document, and the document does
not nest deeper than it was allowed. -/

mutual

theorem value_ok : ∀ (d : Doc) (room : Nat) (v : Value), value room d = .ok v →
    v.Sorted ∧ v.doc.nums ⊆ d.nums ∧ d.depth ≤ room
  | .null, room, v, h => by
    cases room <;> cases h <;> exact ⟨trivial, List.Subset.refl _, Nat.zero_le _⟩
  | .bool _, room, v, h => by
    cases room <;> cases h <;> exact ⟨trivial, List.Subset.refl _, Nat.zero_le _⟩
  | .num _, room, v, h => by
    cases room <;> cases h <;> exact ⟨trivial, List.Subset.refl _, Nat.zero_le _⟩
  | .str _, room, v, h => by
    cases room <;> cases h <;> exact ⟨trivial, List.Subset.refl _, Nat.zero_le _⟩
  | .arr items, 0, v, h => by cases h
  | .arr items, room + 1, v, h => by
    rw [value] at h
    cases hvs : valueItems room items [] with
    | error e => rw [hvs] at h; cases h
    | ok vs =>
      rw [hvs] at h
      cases h
      obtain ⟨hs, hn, hd⟩ := valueItems_ok items room [] vs trivial hvs
      exact ⟨hs, fun n hmem => (hn hmem).resolve_left (List.not_mem_nil), Nat.succ_le_succ hd⟩
  | .obj members, 0, v, h => by cases h
  | .obj members, room + 1, v, h => by
    rw [value] at h
    cases ho : valueMembers room members [] with
    | error e => rw [ho] at h; cases h
    | ok o =>
      rw [ho] at h
      cases h
      obtain ⟨hs, hms, hn, hd⟩ := valueMembers_ok members room [] o .nil trivial ho
      exact ⟨⟨hs, hms⟩, fun n hmem => (hn hmem).resolve_left (List.not_mem_nil),
        Nat.succ_le_succ hd⟩
  | .unreadable, room, v, h => by cases room <;> cases h
  | .broken, room, v, h => by cases room <;> cases h

theorem valueItems_ok : ∀ (ds : List Doc) (room : Nat) (acc vs : List Value), itemsSorted acc →
    valueItems room ds acc = .ok vs → itemsSorted vs ∧
      (∀ {n}, n ∈ itemNums (itemDocs vs) → n ∈ itemNums (itemDocs acc) ∨ n ∈ itemNums ds) ∧
      itemsDepth ds ≤ room
  | [], room, acc, vs, hacc, h => by
    cases h
    have hsub {n : Num} (hn : n ∈ itemNums (itemDocs acc.reverse)) :
        n ∈ itemNums (itemDocs acc) := by
      rw [itemDocs_eq_map, mem_itemNums] at hn ⊢
      simpa using hn
    refine ⟨?_, fun hn => .inl (hsub hn), Nat.zero_le _⟩
    rw [itemsSorted_iff] at hacc ⊢
    exact fun v hv => hacc v (List.mem_reverse.mp hv)
  | d :: rest, room, acc, vs, hacc, h => by
    rw [valueItems] at h
    cases hv : value room d with
    | error e => rw [hv] at h; cases h
    | ok v =>
      rw [hv] at h
      obtain ⟨hs, hn, hd⟩ := value_ok d room v hv
      obtain ⟨hvs, hnums, hdepth⟩ := valueItems_ok rest room (v :: acc) vs ⟨hs, hacc⟩ h
      refine ⟨hvs, fun hmem => ?_, Nat.max_le.mpr ⟨hd, hdepth⟩⟩
      rw [itemNums, List.mem_append]
      rcases hnums hmem with hmem | hmem
      · rw [itemDocs, itemNums, List.mem_append] at hmem
        rcases hmem with hmem | hmem
        · exact .inr (.inl (hn hmem))
        · exact .inl hmem
      · exact .inr (.inr hmem)

theorem valueMembers_ok : ∀ (ms : List (Option String × Doc)) (room : Nat) (o o' : Object),
    o.Sorted → membersSorted o → valueMembers room ms o = .ok o' →
    o'.Sorted ∧ membersSorted o' ∧
      (∀ {n}, n ∈ memberNums (memberDocs o') → n ∈ memberNums (memberDocs o) ∨ n ∈ memberNums ms) ∧
      membersDepth ms ≤ room
  | [], room, o, o', hs, hms, h => by
    cases h
    exact ⟨hs, hms, fun hn => .inl hn, Nat.zero_le _⟩
  | (none, d) :: rest, room, o, o', hs, hms, h => by cases h
  | (some k, d) :: rest, room, o, o', hs, hms, h => by
    simp only [valueMembers] at h
    cases hv : value room d with
    | error e => rw [hv] at h; cases h
    | ok v =>
      rw [hv] at h
      simp only at h
      obtain ⟨hvs, hn, hd⟩ := value_ok d room v hv
      obtain ⟨hs', hms', hnums, hdepth⟩ := valueMembers_ok rest room (Object.insert k v o) o'
        (Object.sorted_insert hs k v) (membersSorted_insert hvs hms) h
      refine ⟨hs', hms', fun hmem => ?_, Nat.max_le.mpr ⟨hd, hdepth⟩⟩
      rw [memberNums, List.mem_append]
      rcases hnums hmem with hmem | hmem
      · rcases mem_nums_insert hmem with hmem | hmem
        · exact .inr (.inl (hn hmem))
        · exact .inl hmem
      · exact .inr (.inr hmem)

end

/-! ### Values as documents again -/

theorem insert_of_keys_lt {o : Object} {key : String} (h : ∀ m ∈ o, m.1 < key) (v : Value) :
    Object.insert key v o = o ++ [(key, v)] := by
  induction o with
  | nil => rfl
  | cons m rest ih =>
    obtain ⟨k, w⟩ := m
    rw [List.forall_mem_cons] at h
    have hlt : k < key := h.1
    have hnot : ¬ key < k := String.lt_asymm hlt
    have hne : ¬ key = k := fun heq => String.lt_irrefl k (heq ▸ hlt)
    rw [Object.insert, if_neg hnot, if_neg hne, ih h.2]
    rfl

/-! The document of a sorted value decodes to the value. -/

mutual

theorem value_doc : ∀ (v : Value) (room : Nat), v.Sorted → v.doc.depth ≤ room →
    value room v.doc = .ok v
  | .null, room, _, _ => by cases room <;> rfl
  | .bool _, room, _, _ => by cases room <;> rfl
  | .num _, room, _, _ => by cases room <;> rfl
  | .str _, room, _, _ => by cases room <;> rfl
  | .arr items, 0, _, hd => by cases hd
  | .arr items, room + 1, hs, hd => by
    rw [Value.doc, value, valueItems_docs items room [] hs (Nat.le_of_succ_le_succ hd)]
    rfl
  | .obj members, 0, _, hd => by cases hd
  | .obj members, room + 1, hs, hd => by
    rw [Value.doc, value,
      valueMembers_docs members room [] hs.1 hs.2 (by simp) (Nat.le_of_succ_le_succ hd)]
    rfl

theorem valueItems_docs : ∀ (vs : List Value) (room : Nat) (acc : List Value), itemsSorted vs →
    itemsDepth (itemDocs vs) ≤ room → valueItems room (itemDocs vs) acc = .ok (acc.reverse ++ vs)
  | [], _, acc, _, _ => by simp [itemDocs, valueItems]
  | v :: rest, room, acc, hs, hd => by
    obtain ⟨hv, hrest⟩ := Nat.max_le.mp hd
    rw [itemDocs, valueItems, value_doc v room hs.1 hv]
    simp only
    rw [valueItems_docs rest room _ hs.2 hrest, List.reverse_cons, List.append_assoc]
    rfl

theorem valueMembers_docs : ∀ (ms : List (String × Value)) (room : Nat) (o : Object),
    Object.Sorted ms → membersSorted ms → (∀ m ∈ o, ∀ m' ∈ ms, m.1 < m'.1) →
    membersDepth (memberDocs ms) ≤ room → valueMembers room (memberDocs ms) o = .ok (o ++ ms)
  | [], _, o, _, _, _, _ => by simp [memberDocs, valueMembers]
  | (k, v) :: rest, room, o, hs, hms, hlt, hd => by
    obtain ⟨hv, hrest⟩ := Nat.max_le.mp hd
    obtain ⟨hk, hs⟩ := List.pairwise_cons.mp hs
    have hinsert := insert_of_keys_lt (fun m hm => hlt m hm (k, v) List.mem_cons_self) v
    -- the members come in order, so each is set behind those that are there
    have hlt' : ∀ m ∈ o ++ [(k, v)], ∀ m' ∈ rest, m.1 < m'.1 := by
      intro m hm m' hm'
      rcases List.mem_append.mp hm with hm | hm
      · exact hlt m hm m' (List.mem_cons_of_mem _ hm')
      · rw [List.mem_singleton.mp hm]
        exact hk m' hm'
    simp only [memberDocs, valueMembers, value_doc v room hms.1 hv]
    rw [hinsert, valueMembers_docs rest room _ hs hms.2 hlt' hrest, List.append_assoc]
    rfl

end

/-- **What was read decodes again** if it may open as many levels as it has, and only then. -/
theorem value_doc_iff {v : Value} (hs : v.Sorted) (room : Nat) :
    (∃ v', value room v.doc = .ok v') ↔ v.doc.depth ≤ room :=
  ⟨fun ⟨v', h⟩ => (value_ok v.doc room v' h).2.2, fun h => ⟨v, value_doc v room hs h⟩⟩

/-! The document of a value is exact if its numbers read back. -/

mutual

theorem exact_doc : ∀ v : Value, (∀ n ∈ v.doc.nums, n.ReadsBack) → v.doc.Exact
  | .null, _ => trivial
  | .bool _, _ => trivial
  | .num n, h => h n (List.mem_singleton.mpr rfl)
  | .str _, _ => trivial
  | .arr items, h => exact_itemDocs items h
  | .obj members, h => exact_memberDocs members h

theorem exact_itemDocs : ∀ vs : List Value, (∀ n ∈ itemNums (itemDocs vs), n.ReadsBack) →
    itemsExact (itemDocs vs)
  | [], _ => trivial
  | v :: rest, h => by
    rw [itemDocs, itemNums, List.forall_mem_append] at h
    exact ⟨exact_doc v h.1, exact_itemDocs rest h.2⟩

theorem exact_memberDocs : ∀ ms : List (String × Value),
    (∀ n ∈ memberNums (memberDocs ms), n.ReadsBack) → membersExact (memberDocs ms)
  | [], _ => trivial
  | (k, v) :: rest, h => by
    rw [memberDocs, memberNums, List.forall_mem_append] at h
    exact ⟨rfl, exact_doc v h.1, exact_memberDocs rest h.2⟩

end

/-- **The value of a text** is sorted, and its integers have at most 64 bits. -/
theorem value_of_parse? {s : String} {v : Value} (h : parse? s = some v) :
    v.Sorted ∧ ∀ n ∈ v.nums, n.Sized := by
  have htext : decodeText value s = .ok v := by
    unfold parse? at h
    cases hv : decodeText value s with
    | error e => rw [hv] at h; cases h
    | ok w => rw [hv] at h; cases h; rfl
  obtain ⟨hs, hn, -⟩ := value_ok _ _ _ (decode_of_decodeText htext)
  exact ⟨hs, fun n hmem => sized_read s n (hn hmem)⟩

end ChatRelay.Json
