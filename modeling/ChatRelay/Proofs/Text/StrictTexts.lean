import ChatRelay.Proofs.Text.Decoding

/-! # Bytes that are a text

Bytes are read strictly just if they are an encoded text, and as that text (`strict?_eq_some_iff`).

An unfinished character fixes what it began with: whatever number it becomes, the bytes read are the
first ones of that character, and the bytes to come are the last digits of the number in base 64
(`Pending.Began`). So a scan without a gap has read what it found, byte by byte
(`Unfinished.run`). -/

namespace ChatRelay.Text

open String (utf8EncodeChar)

/-! ### Bytes of one character -/

/-- The last `n` bytes of the character with the number `v`, if it has more than `n`. -/
def furtherBytes : (n v : Nat) → List UInt8
  | 0, _ => []
  | n + 1, v => UInt8.ofNat (v / 64 ^ n % 64 + 0x80) :: furtherBytes n v

theorem utf8EncodeChar_two {v : Nat} (h : 0x80 ≤ v) (h' : v < 0x800) :
    utf8EncodeChar (Char.ofNat v) = UInt8.ofNat (v / 64 % 32 + 0xC0) :: furtherBytes 1 v := by
  unfold utf8EncodeChar
  rw [val_toNat_ofNat (.inl (by omega))]
  simp [furtherBytes, show ¬ v ≤ 0x7F by omega, show v ≤ 0x7FF by omega]

theorem utf8EncodeChar_three {v : Nat} (h : 0x800 ≤ v) (h' : v < 0x10000)
    (hv : v < 0xD800 ∨ 0xDFFF < v) :
    utf8EncodeChar (Char.ofNat v) = UInt8.ofNat (v / 4096 % 16 + 0xE0) :: furtherBytes 2 v := by
  unfold utf8EncodeChar
  rw [val_toNat_ofNat (hv.imp_right fun hv => ⟨hv, by omega⟩)]
  simp [furtherBytes, show ¬ v ≤ 0x7F by omega, show ¬ v ≤ 0x7FF by omega, show v ≤ 0xFFFF by omega]

theorem utf8EncodeChar_four {v : Nat} (h : 0x10000 ≤ v) (h' : v < 0x110000) :
    utf8EncodeChar (Char.ofNat v) = UInt8.ofNat (v / 262144 % 8 + 0xF0) :: furtherBytes 3 v := by
  unfold utf8EncodeChar
  rw [val_toNat_ofNat (.inr ⟨by omega, h'⟩)]
  simp [furtherBytes, show ¬ v ≤ 0x7F by omega, show ¬ v ≤ 0x7FF by omega,
    show ¬ v ≤ 0xFFFF by omega]

/-- `bs` are the first bytes of every character that `p` can become, without those that it is
owed. -/
def Pending.Began (p : Pending) (bs : List UInt8) : Prop :=
  ∀ v, p.least ≤ v → v < p.above → utf8EncodeChar (Char.ofNat v) = bs ++ furtherBytes p.owed v

theorem ofNat_eq_of_toNat {n : Nat} {b : UInt8} (h : n = b.toNat) : UInt8.ofNat n = b := by
  rw [h]
  exact UInt8.ofNat_toNat

theorem began_leadByte {b : UInt8} {p : Pending} (h : leadByte b = some (.inr p)) :
    p.Began [b] := by
  unfold leadByte at h
  simp only [UInt8.lt_iff_toNat_lt, ← UInt8.toNat_inj, UInt8.reduceToNat] at h
  repeat' split at h
  all_goals cases h
  all_goals
    intro v hlow hhigh
    simp only [Pending.least, Pending.above, UInt8.reduceToNat] at hlow hhigh
  · exact (utf8EncodeChar_two (by omega) (by omega)).trans (congrArg (· :: _) (ofNat_eq_of_toNat (by omega)))
  · exact (utf8EncodeChar_three (by omega) (by omega) (by omega)).trans
      (congrArg (· :: _) (ofNat_eq_of_toNat (by omega)))
  · exact (utf8EncodeChar_three (by omega) (by omega) (by omega)).trans
      (congrArg (· :: _) (ofNat_eq_of_toNat (by omega)))
  · exact (utf8EncodeChar_three (by omega) (by omega) (by omega)).trans
      (congrArg (· :: _) (ofNat_eq_of_toNat (by omega)))
  · exact (utf8EncodeChar_four (by omega) (by omega)).trans (congrArg (· :: _) (ofNat_eq_of_toNat (by omega)))
  · exact (utf8EncodeChar_four (by omega) (by omega)).trans (congrArg (· :: _) (ofNat_eq_of_toNat (by omega)))
  · exact (utf8EncodeChar_four (by omega) (by omega)).trans (congrArg (· :: _) (ofNat_eq_of_toNat (by omega)))

/-- The byte that comes next is the digit that the number has there. -/
theorem furtherBytes_eq_cons {bits n v : Nat} {b : UInt8} (hb : 0x80 ≤ b.toNat)
    (hb' : b.toNat ≤ 0xBF) (hv : (bits * 64 + (b.toNat - 0x80)) * 64 ^ n ≤ v)
    (hv' : v < (bits * 64 + (b.toNat - 0x80) + 1) * 64 ^ n) :
    furtherBytes (n + 1) v = b :: furtherBytes n v := by
  have hdigits : v / 64 ^ n = bits * 64 + (b.toNat - 0x80) := Nat.div_eq_of_lt_le hv hv'
  have hdigit : v / 64 ^ n % 64 + 0x80 = b.toNat := by omega
  rw [furtherBytes, ofNat_eq_of_toNat hdigit]

theorem Pending.Began.more {p : Pending} {bs : List UInt8} {size : Nat} (h : p.Began bs)
    (hspans : p.Spans size) (howed : 1 < p.owed) {b : UInt8} (hlow : p.low ≤ b)
    (hhigh : b ≤ p.high) :
    (p.more b).Began (bs ++ [b]) := by
  intro v hv hv'
  have hfirst := h v (Nat.le_trans (least_le_more howed hlow) hv)
    (Nat.lt_of_lt_of_le hv' (more_above_le howed hhigh))
  rw [least_more howed] at hv
  rw [above_more howed] at hv'
  have hb := hspans.low
  have hb' := hspans.high
  rw [UInt8.le_iff_toNat_le] at hlow hhigh
  have hnext := furtherBytes_eq_cons (by omega) (by omega) hv hv'
  rw [Nat.sub_add_cancel (by omega)] at hnext
  rw [hfirst, hnext, List.append_assoc]
  rfl

theorem Pending.Began.last {p : Pending} {bs : List UInt8} {size : Nat} (h : p.Began bs)
    (hspans : p.Spans size) (howed : p.owed ≤ 1) {b : UInt8} (hlow : p.low ≤ b)
    (hhigh : b ≤ p.high) :
    utf8EncodeChar (Char.ofNat (p.bits * 64 + (b.toNat - 0x80))) = bs ++ [b] := by
  have hone : p.owed = 1 := Nat.le_antisymm howed hspans.owed
  have hfirst := h _ (least_le_last howed hlow) (last_lt_above howed hhigh)
  have hb := hspans.low
  have hb' := hspans.high
  rw [UInt8.le_iff_toNat_le] at hlow hhigh
  have hnext := @furtherBytes_eq_cons p.bits 0 (p.bits * 64 + (b.toNat - 0x80)) b (by omega)
    (by omega) (by simp) (by simp)
  rw [hfirst, hone, hnext]
  rfl

/-- A byte that is a character of its own. -/
theorem utf8EncodeChar_of_leadByte {b : UInt8} {c : Char} (h : leadByte b = some (.inl c)) :
    utf8EncodeChar c = [b] := by
  unfold leadByte at h
  split at h
  next hb =>
    cases h
    have hb : b.toNat < 0x80 := UInt8.lt_iff_toNat_lt.mp hb
    unfold utf8EncodeChar
    rw [val_toNat_ofNat (.inl (by omega))]
    simp [show b.toNat ≤ 0x7F by omega]
  next =>
    repeat' split at h
    all_goals cases h

/-! ### The scan -/

/-- The bytes read since the last character ended. -/
inductive Unfinished : Option Pending → List UInt8 → Prop
  | between : Unfinished none []
  | within {p : Pending} {size : Nat} {bs : List UInt8} (hspans : p.Spans size)
      (hbegan : p.Began bs) : Unfinished (some p) bs

/-- What one byte does: it leaves a gap, or it is the next byte of the characters found and of one
that is not finished. -/
theorem Unfinished.step {pending : Option Pending} {bs : List UInt8} (h : Unfinished pending bs)
    (b : UInt8) : none ∈ (Decoding.step ⟨[], pending⟩ b).found ∨
      ∃ (cs : List Char) (bs' : List UInt8), (Decoding.step ⟨[], pending⟩ b).found =
        (cs.map some).reverse ∧
        Unfinished (Decoding.step ⟨[], pending⟩ b).pending bs' ∧
        bs ++ [b] = cs.flatMap utf8EncodeChar ++ bs' := by
  cases h with
  | between =>
    cases hlead : leadByte b with
    | none => exact .inl (by simp [Decoding.step, Decoding.start, hlead])
    | some lead =>
      cases lead with
      | inl c =>
        refine .inr ⟨[c], [], by simp [Decoding.step, Decoding.start, hlead], ?_, ?_⟩
        · simp only [Decoding.step, Decoding.start, hlead]
          exact .between
        · simp [utf8EncodeChar_of_leadByte hlead]
      | inr p =>
        refine .inr ⟨[], [b], by simp [Decoding.step, Decoding.start, hlead], ?_, rfl⟩
        simp only [Decoding.step, Decoding.start, hlead]
        exact .within (spans_leadByte hlead) (began_leadByte hlead)
  | @within p size bs hspans hbegan =>
    by_cases hb : p.low ≤ b ∧ b ≤ p.high
    · by_cases hlast : p.owed ≤ 1
      · rw [step_of_last hb hlast]
        exact .inr ⟨[Char.ofNat (p.bits * 64 + (b.toNat - 0x80))], [], rfl, .between,
          by simp [hbegan.last hspans hlast hb.1 hb.2]⟩
      · have howed : 1 < p.owed := Nat.lt_of_not_le hlast
        rw [step_of_more hb hlast]
        exact .inr ⟨[], bs ++ [b], rfl,
          .within (hspans.more howed hb.1 hb.2) (hbegan.more hspans howed hb.1 hb.2), rfl⟩
    · rw [step_of_gap hb]
      exact .inl (List.mem_append_right _ List.mem_cons_self)

/-- **A scan without a gap has read what it found.** -/
theorem Unfinished.run (rest : List UInt8) :
    ∀ {pending : Option Pending} {bs : List UInt8} {cs : List Char},
    Unfinished pending bs → (rest.foldl Decoding.step ⟨[], pending⟩).pieces = cs.map some →
      bs ++ rest = cs.flatMap utf8EncodeChar := by
  induction rest with
  | nil =>
    intro pending bs cs h hfound
    cases h with
    | between =>
      obtain rfl : cs = [] := by simpa [Decoding.pieces] using hfound.symm
      rfl
    | within => cases cs <;> simp [Decoding.pieces] at hfound
  | cons b rest ih =>
    intro pending bs cs h hfound
    rw [List.foldl_cons, pieces_foldl] at hfound
    rcases h.step b with hgap | ⟨first, bs', hfirst, hopen, hbytes⟩
    · have hgap := hfound ▸ List.mem_append_left _ (List.mem_reverse.mpr hgap)
      simp at hgap
    · rw [hfirst, List.reverse_reverse] at hfound
      obtain ⟨cs', cs'', rfl, hcs', hcs''⟩ := List.append_eq_map_iff.mp hfound
      obtain rfl : cs' = first := List.map_injective_iff.mpr (fun _ _ => Option.some.inj) hcs'
      have hrest := ih hopen hcs''.symm
      rw [List.flatMap_append, ← hrest, ← List.append_assoc, ← hbytes, List.append_assoc]
      rfl

/-- Without gaps nothing is replaced. -/
theorem map_some_shown {found : List (Option Char)} (h : found.all Option.isSome = true) :
    (shown found).map some = found := by
  induction found with
  | nil => rfl
  | cons x found ih =>
    obtain ⟨hx, hfound⟩ := Bool.and_eq_true_iff.mp (List.all_cons ▸ h)
    obtain ⟨c, rfl⟩ := Option.isSome_iff_exists.mp hx
    exact congrArg (some c :: ·) (ih hfound)

/-- **Bytes are read strictly just if they are an encoded text.** -/
theorem strict?_eq_some_iff {bs : List UInt8} {s : String} :
    strict? bs = some s ↔ bs = encode s := by
  constructor
  · intro h
    unfold strict? at h
    dsimp only at h
    split at h
    next hall =>
      cases h
      have hrun := Unfinished.between.run bs (map_some_shown hall).symm
      unfold encode
      rw [String.toList_ofList]
      exact hrun
    next => cases h
  · rintro rfl
    unfold strict?
    rw [decode_encode]
    simp [Function.comp_def]

end ChatRelay.Text
