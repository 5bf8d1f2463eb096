import ChatRelay.Json.Reader
import Mathlib.Algebra.Group.Int.Defs
import Mathlib.Algebra.Group.Nat.Defs
import Mathlib.Data.List.Basic

/-! # The numbers of a text

Every integer that a text is read as has at most 64 bits, however long its digits are
(`sized_read`): a digit that does not fit is left out, and a number with such a digit is a double.
The numbers of a document are those of its tokens, whatever the walk makes of the tokens, broken
texts included (`meets_assemble`). -/

namespace ChatRelay.Json

/-! ### Numbers -/

/-- An integer has at most 64 bits. -/
def Num.Sized : Num → Prop
  | .int i => -(2 ^ 63) ≤ i ∧ i < 2 ^ 64
  | .real _ => True

mutual

/-- The numbers in a document. -/
def Doc.nums : Doc → List Num
  | .num n => [n]
  | .arr items => itemNums items
  | .obj members => memberNums members
  | _ => []

/-- The numbers in items. -/
def itemNums : List Doc → List Num
  | [] => []
  | d :: rest => d.nums ++ itemNums rest

/-- The numbers in members. -/
def memberNums : List (Option String × Doc) → List Num
  | [] => []
  | (_, d) :: rest => d.nums ++ memberNums rest

end

theorem mem_itemNums {n : Num} {ds : List Doc} : n ∈ itemNums ds ↔ ∃ d ∈ ds, n ∈ d.nums := by
  induction ds with
  | nil => simp [itemNums]
  | cons d ds ih => simp [itemNums, ih]

theorem mem_memberNums {n : Num} {ms : List (Option String × Doc)} :
    n ∈ memberNums ms ↔ ∃ m ∈ ms, n ∈ m.2.nums := by
  induction ms with
  | nil => simp [memberNums]
  | cons m ms ih => simp [memberNums, ih]

/-! ### Numbers of tokens -/

/-- The number of a token, if it has one, has the property. -/
def Token.Meets (p : Num → Prop) (t : Token) : Prop := ∀ n, t = .num (some n) → p n

theorem significand_whole_lt {d : Digits} (h : d.significand < 2 ^ 64) (c : Char) :
    (d.whole c).significand < 2 ^ 64 := by
  unfold Digits.whole
  simp only
  split
  · exact h
  · next hfits => exact Nat.not_le.mp (not_or.mp hfits).2

theorem significand_foldl_whole_lt (ds : List Char) : ∀ {d : Digits}, d.significand < 2 ^ 64 →
    (ds.foldl Digits.whole d).significand < 2 ^ 64 := by
  induction ds with
  | nil => exact fun h => h
  | cons c ds ih => exact fun h => ih (significand_whole_lt h c)

theorem sized_real {x : Option Number.Binary64} {n : Num} (h : x.map Num.real = some n) :
    n.Sized := by
  cases x with
  | none => cases h
  | some x => cases h; trivial

theorem sized_wholeValue {negative : Bool} {d : Digits} (hd : d.significand < 2 ^ 64) {n : Num}
    (h : wholeValue negative d = some n) : n.Sized := by
  unfold wholeValue at h
  split at h
  · split at h
    · split at h
      · next hbounds =>
        cases h
        have : d.significand ≤ 2 ^ 63 := hbounds.2
        exact ⟨by omega, by omega⟩
      · exact sized_real h
    · cases h
      exact ⟨by omega, by omega⟩
  · exact sized_real h

theorem sized_scanUnsigned {negative : Bool} {cs r : List Char} {n : Num}
    (h : scanUnsigned negative cs = some (some n, r)) : n.Sized := by
  unfold scanUnsigned at h
  cases hds : scanDigits? cs with
  | none => rw [hds] at h; cases h
  | some p =>
    obtain ⟨ds, rest⟩ := p
    have hwhole : (ds.foldl Digits.whole ⟨0, 0, false⟩).significand < 2 ^ 64 :=
      significand_foldl_whole_lt ds (by decide)
    rw [hds] at h
    simp only [Option.bind_eq_bind, Option.bind_some] at h
    split at h
    · cases h
    split at h
    · -- a fraction makes it a double
      obtain ⟨⟨fs, after⟩, -, h⟩ := Option.bind_eq_some_iff.mp h
      obtain ⟨⟨e, last⟩, -, h⟩ := Option.bind_eq_some_iff.mp h
      exact sized_real (Prod.mk.inj (Option.some.inj h)).1
    · obtain ⟨⟨e, last⟩, -, h⟩ := Option.bind_eq_some_iff.mp h
      cases e with
      | none => exact sized_wholeValue hwhole (Prod.mk.inj (Option.some.inj h)).1
      | some e => exact sized_real (Prod.mk.inj (Option.some.inj h)).1

theorem sized_scanNumber {cs r : List Char} {n : Num} (h : scanNumber cs = some (some n, r)) :
    n.Sized := by
  unfold scanNumber at h
  split at h
  · exact sized_scanUnsigned h
  · exact sized_scanUnsigned h

/-- The token that a scan comes to has the property. -/
def ScanMeets (p : Num → Prop) (scan : Option (Token × List Char)) : Prop :=
  ∀ found ∈ scan, found.1.Meets p

namespace ScanMeets

variable {p : Num → Prop}

theorem some {t : Token} {rest : List Char} (ht : ∀ v, t ≠ .num v) :
    ScanMeets p (some (t, rest)) := by
  rintro found ⟨⟩ n hn
  exact absurd hn (ht _)

theorem map {α : Type} {f : α → Token × List Char} {x : Option α} (h : ∀ a ∈ x, (f a).1.Meets p) :
    ScanMeets p (x.map f) := by
  intro found hfound
  obtain ⟨a, ha, rfl⟩ := Option.map_eq_some_iff.mp hfound
  exact h a ha

theorem ite {b : Prop} [Decidable b] {x y : Option (Token × List Char)} (hx : ScanMeets p x)
    (hy : ScanMeets p y) : ScanMeets p (if b then x else y) := by
  split
  · exact hx
  · exact hy

end ScanMeets

theorem meets_scanToken (c : Char) (r : List Char) : ScanMeets Num.Sized (scanToken c r) := by
  unfold scanToken
  refine .ite (.some (by simp)) <| .ite (.some (by simp)) <| .ite (.some (by simp)) ?_
  refine .ite (.some (by simp)) <| .ite (.some (by simp)) <| .ite (.some (by simp)) ?_
  -- a string
  refine .ite (.map ?_) <| .ite (.map ?_) ?_
  · intro a _ n hn
    cases hn
  -- a number
  · intro a ha n hn
    obtain ⟨v, rest⟩ := a
    cases hn
    exact sized_scanNumber ha
  refine .ite (.some (by simp)) <| .ite (.some (by simp)) <| .ite (.some (by simp)) ?_
  intro found hfound
  cases hfound

theorem meets_tokensFrom (steps : Nat) : ∀ {acc : List Token} {cs : List Char},
    (∀ t ∈ acc, t.Meets Num.Sized) → ∀ t ∈ tokensFrom steps acc cs, t.Meets Num.Sized := by
  induction steps with
  | zero => exact fun h => h
  | succ steps ih =>
    intro acc cs h
    cases cs with
    | nil => exact h
    | cons c r =>
      unfold tokensFrom
      split
      · exact ih h
      · cases hscan : scanToken c r with
        | none => exact List.forall_mem_cons.mpr ⟨(fun n hn => by cases hn), h⟩
        | some p => exact ih (List.forall_mem_cons.mpr ⟨meets_scanToken c r p hscan, h⟩)

/-! ### Numbers of what is read -/

section assembly

variable {p : Num → Prop}

/-- Every number in the document has the property. -/
def Doc.Meets (p : Num → Prop) (d : Doc) : Prop := ∀ n ∈ d.nums, p n

/-- Every number in what an open array or object holds has the property. -/
def Frame.Meets (p : Num → Prop) : Frame → Prop
  | .arr items => ∀ d ∈ items, d.Meets p
  | .obj members _ => ∀ m ∈ members, m.2.Meets p

/-- Every number in what was put together so far has the property. -/
structure Assembly.Meets (p : Num → Prop) (a : Assembly) : Prop where
  stack : ∀ f ∈ a.stack, f.Meets p
  result : ∀ d ∈ a.result, d.Meets p

theorem Doc.meets_arr {items : List Doc} (h : ∀ d ∈ items, d.Meets p) :
    (Doc.arr items).Meets p := by
  intro n hn
  obtain ⟨d, hd, hn⟩ := mem_itemNums.mp hn
  exact h d hd n hn

theorem Doc.meets_obj {members : List (Option String × Doc)} (h : ∀ m ∈ members, m.2.Meets p) :
    (Doc.obj members).Meets p := by
  intro n hn
  obtain ⟨m, hm, hn⟩ := mem_memberNums.mp hn
  exact h m hm n hn

namespace Assembly

theorem meets_deliver {stack : List Frame} (hs : ∀ f ∈ stack, f.Meets p) {d : Doc}
    (hd : d.Meets p) : (deliver stack d).Meets p := by
  cases stack with
  | nil => exact ⟨by simp [deliver], by rintro e ⟨⟩; exact hd⟩
  | cons f rest =>
    rw [List.forall_mem_cons] at hs
    cases f with
    | arr items =>
      exact ⟨List.forall_mem_cons.mpr ⟨List.forall_mem_cons.mpr ⟨hd, hs.1⟩, hs.2⟩, by rintro e ⟨⟩⟩
    | obj members key =>
      exact ⟨List.forall_mem_cons.mpr ⟨List.forall_mem_cons.mpr ⟨hd, hs.1⟩, hs.2⟩, by rintro e ⟨⟩⟩

theorem meets_closeWith {f : Frame} (hf : f.Meets p) {d : Doc} (hd : d.Meets p) :
    (f.closeWith d).Meets p := by
  cases f with
  | arr items =>
    refine Doc.meets_arr fun e he => ?_
    rcases List.mem_cons.mp (List.mem_reverse.mp he) with rfl | he
    · exact hd
    · exact hf e he
  | obj members key =>
    refine Doc.meets_obj fun m hm => ?_
    rcases List.mem_cons.mp (List.mem_reverse.mp hm) with rfl | hm
    · exact hd
    · exact hf m hm

theorem meets_fail {a : Assembly} (h : a.Meets p) : a.fail.Meets p := by
  unfold fail
  cases hr : a.result with
  | some d => exact ⟨by simp, by rintro e ⟨⟩; exact h.result d hr⟩
  | none =>
    have hclosed (stack : List Frame) : ∀ {d : Doc}, (∀ f ∈ stack, f.Meets p) → d.Meets p →
        (stack.foldl (fun d f => f.closeWith d) d).Meets p := by
      induction stack with
      | nil => exact fun _ hd => hd
      | cons f rest ih =>
        intro d hs hd
        rw [List.forall_mem_cons] at hs
        exact ih hs.2 (meets_closeWith hs.1 hd)
    refine ⟨by simp, ?_⟩
    rintro e ⟨⟩
    exact hclosed a.stack h.stack fun n hn => by cases hn

theorem meets_value {a : Assembly} (h : a.Meets p) {t : Token} (ht : t.Meets p) :
    (a.value t).Meets p := by
  cases t with
  | null | bool b => exact meets_deliver h.stack fun n hn => by cases hn
  | num v =>
    refine meets_deliver h.stack fun n hn => ?_
    cases v with
    | none => cases hn
    | some m => exact List.mem_singleton.mp hn ▸ ht m rfl
  | str s => exact meets_deliver h.stack fun n hn => by cases s <;> cases hn
  | openArr => exact ⟨List.forall_mem_cons.mpr ⟨(fun d hd => by cases hd), h.stack⟩, by rintro e ⟨⟩⟩
  | openObj => exact ⟨List.forall_mem_cons.mpr ⟨(fun m hm => by cases hm), h.stack⟩, by rintro e ⟨⟩⟩
  | closeArr | closeObj | comma | colon | bad => exact meets_fail h

theorem meets_key {a : Assembly} (h : a.Meets p) (t : Token) : (a.key t).Meets p := by
  unfold key
  split
  · next hstack =>
    have hs := h.stack
    rw [hstack, List.forall_mem_cons] at hs
    exact ⟨List.forall_mem_cons.mpr hs, by rintro e ⟨⟩⟩
  · exact meets_fail h

theorem meets_close {a : Assembly} (h : a.Meets p) (t : Token) : (a.close t).Meets p := by
  have hs := h.stack
  unfold close
  split
  · next items rest hstack =>
    rw [hstack, List.forall_mem_cons] at hs
    exact meets_deliver hs.2 (Doc.meets_arr fun d hd => hs.1 d (List.mem_reverse.mp hd))
  · next members key rest hstack =>
    rw [hstack, List.forall_mem_cons] at hs
    exact meets_deliver hs.2 (Doc.meets_obj fun m hm => hs.1 m (List.mem_reverse.mp hm))
  · exact meets_fail h

/-- **One token.** -/
theorem meets_step {a : Assembly} (h : a.Meets p) {t : Token} (ht : t.Meets p) :
    (a.step t).Meets p := by
  unfold step
  split
  · exact meets_value h ht
  · exact meets_close h _
  · exact meets_value h ht
  · exact meets_close h _
  · exact meets_key h _
  · exact meets_key h _
  · exact ⟨h.stack, h.result⟩
  · exact meets_fail h
  · split
    · exact ⟨h.stack, h.result⟩
    · exact ⟨h.stack, h.result⟩
  · exact meets_close h _
  · exact ⟨h.stack, h.result⟩

theorem meets_foldl {ts : List Token} : ∀ {a : Assembly}, a.Meets p → (∀ t ∈ ts, t.Meets p) →
    (ts.foldl step a).Meets p := by
  induction ts with
  | nil => exact fun h _ => h
  | cons t ts ih =>
    intro a h hts
    rw [List.forall_mem_cons] at hts
    exact ih (meets_step h hts.1) hts.2

end Assembly

theorem meets_assemble {ts : List Token} (h : ∀ t ∈ ts, t.Meets p) : (assemble ts).doc.Meets p := by
  have hwalk : (ts.foldl Assembly.step ⟨[], .value, none, false⟩).Meets p :=
    Assembly.meets_foldl ⟨by simp, by rintro d ⟨⟩⟩ h
  have hdoc {a : Assembly} (ha : a.Meets p) : (a.result.getD .broken).Meets p := by
    cases hr : a.result with
    | none => exact fun n hn => by cases hn
    | some d => exact ha.result d hr
  unfold assemble
  simp only
  split
  · exact hdoc (Assembly.meets_fail hwalk)
  · exact hdoc hwalk

end assembly

/-- **Every integer of a text has at most 64 bits.** -/
theorem sized_read (s : String) : ∀ n ∈ (read s).doc.nums, n.Sized := by
  refine meets_assemble fun t ht => ?_
  exact meets_tokensFrom _ (by simp) t (List.mem_reverse.mp ht)

end ChatRelay.Json
