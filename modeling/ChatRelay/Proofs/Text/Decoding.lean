import ChatRelay.Proofs.Text.Encoding
import ChatRelay.Proofs.Text.Leads

/-! # Bytes decoded in part

The scan of a byte sequence goes on where it stood, so what it found in a part of the bytes is found
in the whole sequence too (`pieces_foldl`). An ASCII byte always stands for itself, even where it
breaks an unfinished character off (`lossy_append_ascii`).

Where a part ends within a character, its text ends in a replacement for it. The character that the
whole sequence has in this place has at least as many bytes as the part has of it (`Pending.Spans`),
and a replacement has three. So a part of more bytes than a limit shows a text beyond the limit, and
beyond it for the same reason as the whole text (`lossy_take_exceeds`). -/

namespace ChatRelay.Text

open String (utf8Len)

/-! ### The scan goes on -/

/-- The characters and gaps of a scan, if it ended here. -/
def Decoding.pieces (d : Decoding) : List (Option Char) :=
  (if d.pending.isSome then none :: d.found else d.found).reverse

theorem decode_eq_pieces (bs : List UInt8) :
    decode bs = (bs.foldl Decoding.step ⟨[], none⟩).pieces := rfl

theorem start_append (more found : List (Option Char)) (b : UInt8) :
    Decoding.start (more ++ found) b =
      ⟨(Decoding.start more b).found ++ found, (Decoding.start more b).pending⟩ := by
  unfold Decoding.start
  split <;> rfl

/-- What was found before does not matter for a step. -/
theorem step_append (more found : List (Option Char)) (pending : Option Pending) (b : UInt8) :
    Decoding.step ⟨more ++ found, pending⟩ b =
      ⟨(Decoding.step ⟨more, pending⟩ b).found ++ found,
        (Decoding.step ⟨more, pending⟩ b).pending⟩ := by
  unfold Decoding.step
  cases pending with
  | none => exact start_append more found b
  | some p =>
    dsimp only
    split
    · split <;> rfl
    · exact start_append (none :: more) found b

theorem foldl_step_append (bs : List UInt8) (more found : List (Option Char))
    (pending : Option Pending) : bs.foldl Decoding.step ⟨more ++ found, pending⟩ =
      ⟨(bs.foldl Decoding.step ⟨more, pending⟩).found ++ found,
        (bs.foldl Decoding.step ⟨more, pending⟩).pending⟩ := by
  induction bs generalizing more pending with
  | nil => rfl
  | cons b bs ih => rw [List.foldl_cons, List.foldl_cons, step_append, ih]

/-- **The scan goes on where it stood.** -/
theorem pieces_foldl (bs : List UInt8) (found : List (Option Char)) (pending : Option Pending) :
    (bs.foldl Decoding.step ⟨found, pending⟩).pieces =
      found.reverse ++ (bs.foldl Decoding.step ⟨[], pending⟩).pieces := by
  have h := foldl_step_append bs [] found pending
  rw [List.nil_append] at h
  rw [h]
  unfold Decoding.pieces
  dsimp only
  split <;> simp

/-! ### Unfinished characters -/

theorem val_toNat_ofNat {v : Nat} (h : v.isValidChar) : (Char.ofNat v).val.toNat = v := by
  rw [Char.ofNat, dif_pos h]
  rfl

theorem utf8Size_ofNat {v : Nat} (h : v.isValidChar) : (Char.ofNat v).utf8Size =
    if v ≤ 0x7F then 1 else if v ≤ 0x7FF then 2 else if v ≤ 0xFFFF then 3 else 4 := by
  unfold Char.utf8Size
  simp only [UInt32.le_iff_toNat_le, val_toNat_ofNat h]
  rfl

theorem utf8Size_two {v : Nat} (h : 0x80 ≤ v) (h' : v < 0x800) : (Char.ofNat v).utf8Size = 2 := by
  rw [utf8Size_ofNat (.inl (by omega)), if_neg (by omega), if_pos (by omega)]

theorem utf8Size_three {v : Nat} (h : 0x800 ≤ v) (h' : v < 0x10000) (hv : v < 0xD800 ∨ 0xDFFF < v) :
    (Char.ofNat v).utf8Size = 3 := by
  rw [utf8Size_ofNat (hv.imp_right fun hv => ⟨hv, by omega⟩), if_neg (by omega), if_neg (by omega),
    if_pos (by omega)]

theorem utf8Size_four {v : Nat} (h : 0x10000 ≤ v) (h' : v < 0x110000) :
    (Char.ofNat v).utf8Size = 4 := by
  rw [utf8Size_ofNat (.inr ⟨by omega, h'⟩), if_neg (by omega), if_neg (by omega), if_neg (by omega)]

/-- The least number that an unfinished character can still become. -/
def Pending.least (p : Pending) : Nat := (p.bits * 64 + (p.low.toNat - 0x80)) * 64 ^ (p.owed - 1)

/-- The first number above all that it can become. -/
def Pending.above (p : Pending) : Nat :=
  (p.bits * 64 + (p.high.toNat - 0x80) + 1) * 64 ^ (p.owed - 1)

/-- However an unfinished character goes on, it becomes one of `size` bytes. -/
structure Pending.Spans (p : Pending) (size : Nat) : Prop where
  owed : 1 ≤ p.owed
  size_le : size ≤ 4
  low : 0x80 ≤ p.low.toNat
  high : p.high.toNat ≤ 0xBF
  chars : ∀ v, p.least ≤ v → v < p.above → (Char.ofNat v).utf8Size = size

theorem spans_leadByte {b : UInt8} {p : Pending} (h : leadByte b = some (.inr p)) :
    p.Spans (p.owed + 1) := by
  unfold leadByte at h
  simp only [UInt8.lt_iff_toNat_lt, ← UInt8.toNat_inj, UInt8.reduceToNat] at h
  repeat' split at h
  all_goals cases h
  all_goals
    refine ⟨by simp, by simp, by simp, by simp, fun v hlow hhigh => ?_⟩
    simp only [Pending.least, Pending.above, UInt8.reduceToNat] at hlow hhigh
  · exact utf8Size_two (by omega) (by omega)
  · exact utf8Size_three (by omega) (by omega) (by omega)
  · exact utf8Size_three (by omega) (by omega) (by omega)
  · exact utf8Size_three (by omega) (by omega) (by omega)
  · exact utf8Size_four (by omega) (by omega)
  · exact utf8Size_four (by omega) (by omega)
  · exact utf8Size_four (by omega) (by omega)

/-- An unfinished character after a further byte that is not its last. -/
def Pending.more (p : Pending) (b : UInt8) : Pending :=
  ⟨p.owed - 1, 0x80, 0xBF, p.bits * 64 + (b.toNat - 0x80)⟩

theorem Pending.least_more {p : Pending} (howed : 1 < p.owed) (b : UInt8) :
    (p.more b).least = (p.bits * 64 + (b.toNat - 0x80)) * 64 ^ (p.owed - 1) := by
  have hpow : 64 ^ (p.owed - 1) = 64 * 64 ^ (p.owed - 1 - 1) := by
    rw [← Nat.pow_succ', Nat.succ_eq_add_one, Nat.sub_add_cancel (by omega)]
  simp only [least, more, hpow, UInt8.reduceToNat, Nat.sub_self, Nat.add_zero, ← Nat.mul_assoc]

theorem Pending.above_more {p : Pending} (howed : 1 < p.owed) (b : UInt8) :
    (p.more b).above = (p.bits * 64 + (b.toNat - 0x80) + 1) * 64 ^ (p.owed - 1) := by
  have hpow : 64 ^ (p.owed - 1) = 64 * 64 ^ (p.owed - 1 - 1) := by
    rw [← Nat.pow_succ', Nat.succ_eq_add_one, Nat.sub_add_cancel (by omega)]
  have hnext : (p.bits * 64 + (b.toNat - 0x80)) * 64 + (0xBF - 0x80) + 1 =
      (p.bits * 64 + (b.toNat - 0x80) + 1) * 64 := by omega
  rw [hpow, ← Nat.mul_assoc, ← hnext]
  simp only [above, more, UInt8.reduceToNat]

/-- What it can become then it could become before. -/
theorem Pending.least_le_more {p : Pending} (howed : 1 < p.owed) {b : UInt8} (hlow : p.low ≤ b) :
    p.least ≤ (p.more b).least := by
  rw [UInt8.le_iff_toNat_le] at hlow
  rw [least_more howed]
  exact Nat.mul_le_mul_right _ (by omega)

theorem Pending.more_above_le {p : Pending} (howed : 1 < p.owed) {b : UInt8} (hhigh : b ≤ p.high) :
    (p.more b).above ≤ p.above := by
  rw [UInt8.le_iff_toNat_le] at hhigh
  rw [above_more howed]
  exact Nat.mul_le_mul_right _ (by omega)

theorem Pending.Spans.more {p : Pending} {size : Nat} (h : p.Spans size) (howed : 1 < p.owed)
    {b : UInt8} (hlow : p.low ≤ b) (hhigh : b ≤ p.high) : (p.more b).Spans size :=
  ⟨Nat.le_sub_of_add_le howed, h.size_le, Nat.le_refl _, Nat.le_refl _, fun v hv hv' =>
    h.chars v (Nat.le_trans (least_le_more howed hlow) hv)
      (Nat.lt_of_lt_of_le hv' (more_above_le howed hhigh))⟩

/-- With its last byte it is one of the numbers that it could become. -/
theorem Pending.least_le_last {p : Pending} (howed : p.owed ≤ 1) {b : UInt8} (hlow : p.low ≤ b) :
    p.least ≤ p.bits * 64 + (b.toNat - 0x80) := by
  rw [UInt8.le_iff_toNat_le] at hlow
  rw [least, show p.owed - 1 = 0 by omega, Nat.pow_zero]
  omega

theorem Pending.last_lt_above {p : Pending} (howed : p.owed ≤ 1) {b : UInt8} (hhigh : b ≤ p.high) :
    p.bits * 64 + (b.toNat - 0x80) < p.above := by
  rw [UInt8.le_iff_toNat_le] at hhigh
  rw [above, show p.owed - 1 = 0 by omega, Nat.pow_zero]
  omega

theorem Pending.Spans.last {p : Pending} {size : Nat} (h : p.Spans size) (howed : p.owed ≤ 1)
    {b : UInt8} (hlow : p.low ≤ b) (hhigh : b ≤ p.high) :
    (Char.ofNat (p.bits * 64 + (b.toNat - 0x80))).utf8Size = size :=
  h.chars _ (least_le_last howed hlow) (last_lt_above howed hhigh)

section step

variable {found : List (Option Char)} {p : Pending} {b : UInt8}

/-- The byte ends the unfinished character. -/
theorem step_of_last (hb : p.low ≤ b ∧ b ≤ p.high) (hlast : p.owed ≤ 1) :
    Decoding.step ⟨found, some p⟩ b =
      ⟨some (Char.ofNat (p.bits * 64 + (b.toNat - 0x80))) :: found, none⟩ := by
  simp only [Decoding.step, if_pos hb, if_pos hlast]

/-- The byte belongs to the unfinished character and does not end it. -/
theorem step_of_more (hb : p.low ≤ b ∧ b ≤ p.high) (hmore : ¬ p.owed ≤ 1) :
    Decoding.step ⟨found, some p⟩ b = ⟨found, some (p.more b)⟩ := by
  simp only [Decoding.step, if_pos hb, if_neg hmore, Pending.more]

/-- The byte breaks the unfinished character off. -/
theorem step_of_gap (hb : ¬ (p.low ≤ b ∧ b ≤ p.high)) :
    Decoding.step ⟨found, some p⟩ b =
      ⟨(Decoding.start [] b).found ++ none :: found, (Decoding.start [] b).pending⟩ := by
  simp only [Decoding.step, if_neg hb]
  exact start_append [] (none :: found) b

end step

/-! ### Bytes and characters -/

/-- The characters found, gaps replaced. -/
def shown (found : List (Option Char)) : List Char := found.map (·.getD replacement)

theorem toList_lossy (bs : List UInt8) : (lossy bs).toList = shown (decode bs) :=
  String.toList_ofList

/-- What was found in `n` bytes and the bytes of an unfinished character are at least `n`. -/
structure Decoding.Accounts (d : Decoding) (n : Nat) : Prop where
  whole : d.pending = none → n ≤ utf8Len (shown d.found)
  unfinished : ∀ p, d.pending = some p → ∃ size, p.Spans size ∧
    n + p.owed ≤ utf8Len (shown d.found) + size

theorem utf8Len_shown_cons (x : Option Char) (found : List (Option Char)) :
    utf8Len (shown (x :: found)) = utf8Len (shown found) + (x.getD replacement).utf8Size :=
  String.utf8Len_cons _ _

theorem utf8Len_shown_reverse (found : List (Option Char)) :
    utf8Len (shown found.reverse) = utf8Len (shown found) := by
  unfold shown
  rw [List.map_reverse, String.utf8Len_reverse]

theorem utf8Size_replacement : replacement.utf8Size = 3 := by decide

theorem accounts_start {found : List (Option Char)} {n : Nat} (h : n ≤ utf8Len (shown found))
    (b : UInt8) : (Decoding.start found b).Accounts (n + 1) := by
  unfold Decoding.start
  split
  next =>
    refine ⟨fun _ => ?_, fun p hp => by cases hp⟩
    rw [utf8Len_shown_cons, Option.getD_none, utf8Size_replacement]
    omega
  next c _ =>
    refine ⟨fun _ => ?_, fun p hp => by cases hp⟩
    have := c.utf8Size_pos
    rw [utf8Len_shown_cons, Option.getD_some]
    omega
  next p hp =>
    refine ⟨fun hnone => (by cases hnone), fun p' hp' => ?_⟩
    cases hp'
    exact ⟨p.owed + 1, spans_leadByte hp, by dsimp only; omega⟩

theorem Decoding.Accounts.step {d : Decoding} {n : Nat} (h : d.Accounts n) (b : UInt8) :
    (d.step b).Accounts (n + 1) := by
  unfold Decoding.step
  split
  next hnone => exact accounts_start (h.whole hnone) b
  next p hp =>
    obtain ⟨size, hspans, hn⟩ := h.unfinished p hp
    have howed := hspans.owed
    split
    next hb =>
      dsimp only
      split
      next hlast =>
        refine ⟨fun _ => ?_, fun p' hp' => by cases hp'⟩
        rw [utf8Len_shown_cons, Option.getD_some, hspans.last hlast hb.1 hb.2]
        omega
      next hmore =>
        refine ⟨fun hnone => (by cases hnone), fun p' hp' => ?_⟩
        cases hp'
        exact ⟨size, hspans.more (by omega) hb.1 hb.2, by dsimp only; omega⟩
    next =>
      refine accounts_start ?_ b
      have := hspans.size_le
      rw [utf8Len_shown_cons, Option.getD_none, utf8Size_replacement]
      omega

theorem accounts_foldl (bs : List UInt8) : ∀ {d : Decoding} {n : Nat}, d.Accounts n →
    (bs.foldl Decoding.step d).Accounts (n + bs.length) := by
  induction bs with
  | nil => exact fun h => h
  | cons b bs ih =>
    intro d n h
    have := ih (h.step b)
    rwa [Nat.add_right_comm] at this

theorem accounts_decode (bs : List UInt8) :
    (bs.foldl Decoding.step ⟨[], none⟩).Accounts bs.length := by
  have h := accounts_foldl bs (d := ⟨[], none⟩) (n := 0) ⟨fun _ =>
    Nat.zero_le _, fun p hp => by cases hp⟩
  rwa [Nat.zero_add] at h

/-! ### ASCII bytes -/

theorem step_ascii {d : Decoding} {n : Nat} (h : d.Accounts n) {b : UInt8} (hb : b.toNat < 0x80) :
    d.step b = ⟨some (Char.ofNat b.toNat) :: d.pieces.reverse, none⟩ := by
  have hstart (found : List (Option Char)) :
      Decoding.start found b = ⟨some (Char.ofNat b.toNat) :: found, none⟩ := by
    have hlead : leadByte b = some (.inl (Char.ofNat b.toNat)) := by
      unfold leadByte
      rw [if_pos (UInt8.lt_iff_toNat_lt.mpr hb)]
    unfold Decoding.start
    rw [hlead]
  obtain ⟨found, _ | p⟩ := d
  · exact (hstart found).trans (by simp [Decoding.pieces])
  · -- an unfinished character takes no ASCII byte
    obtain ⟨size, hspans, -⟩ := h.unfinished p rfl
    have hlow := hspans.low
    have hno : ¬ (p.low ≤ b ∧ b ≤ p.high) := by
      rw [UInt8.le_iff_toNat_le]
      omega
    unfold Decoding.step
    dsimp only
    rw [if_neg hno, hstart]
    simp [Decoding.pieces]

/-- **An ASCII byte stands for itself**, whatever stands before it. -/
theorem decode_append_ascii (bs : List UInt8) {b : UInt8} (hb : b.toNat < 0x80)
    (rest : List UInt8) :
    decode (bs ++ b :: rest) = decode bs ++ some (Char.ofNat b.toNat) :: decode rest := by
  rw [decode_eq_pieces, List.foldl_append, List.foldl_cons, step_ascii (accounts_decode bs) hb,
    pieces_foldl]
  simp [decode_eq_pieces]

theorem lossy_append_ascii (bs : List UInt8) {b : UInt8} (hb : b.toNat < 0x80) (rest : List UInt8) :
    (lossy (bs ++ b :: rest)).toList = (lossy bs).toList ++ Char.ofNat b.toNat ::
      (lossy rest).toList := by
  rw [toList_lossy, toList_lossy, toList_lossy, decode_append_ascii bs hb]
  simp [shown]

/-! ### Parts of a sequence -/

/-- An unfinished character becomes one of the size it spans, or a gap. -/
theorem pieces_unfinished (bs : List UInt8) (found : List (Option Char)) :
    ∀ {p : Pending} {size : Nat},
    p.Spans size → ∃ x more, (bs.foldl Decoding.step ⟨found, some p⟩).pieces =
      found.reverse ++ x :: more ∧
      ∀ c ∈ x, c.utf8Size = size := by
  induction bs with
  | nil => exact fun _ => ⟨none, [], by simp [Decoding.pieces], by simp⟩
  | cons b bs ih =>
    intro p size h
    rw [List.foldl_cons]
    by_cases hb : p.low ≤ b ∧ b ≤ p.high
    · by_cases hlast : p.owed ≤ 1
      · refine ⟨some (Char.ofNat (p.bits * 64 + (b.toNat - 0x80))), decode bs, ?_, fun c hc => ?_⟩
        · rw [step_of_last hb hlast, pieces_foldl, decode_eq_pieces]
          simp
        · rw [← Option.mem_some.mp hc]
          exact h.last hlast hb.1 hb.2
      · rw [step_of_more hb hlast]
        exact ih (h.more (by omega) hb.1 hb.2)
    · rw [step_of_gap hb, pieces_foldl, List.reverse_append, List.reverse_cons, List.append_assoc,
        List.append_assoc]
      exact ⟨none, _, rfl, by simp⟩

/-- **What was read beyond a limit is too long for it**, and so is the whole text, for the same
reason: both begin alike, and go beyond the limit there or with the next character. -/
theorem lossy_take_exceeds {limit : Nat} {bs : List UInt8} (h : limit < bs.length) :
    ∃ before rest rest',
    (lossy (bs.take (limit + 1))).toList = before ++ rest ∧ (lossy bs).toList = before ++ rest' ∧
      Exceeds limit before rest ∧ Exceeds limit before rest' := by
  have hlen : (bs.take (limit + 1)).length = limit + 1 := List.length_take_of_le h
  have haccounts := accounts_decode (bs.take (limit + 1))
  rw [hlen] at haccounts
  have hwhole : decode bs = ((bs.drop (limit + 1)).foldl Decoding.step
      ((bs.take (limit + 1)).foldl Decoding.step ⟨[], none⟩)).pieces := by
    rw [← List.foldl_append, List.take_append_drop, decode_eq_pieces]
  rw [toList_lossy, toList_lossy, hwhole, decode_eq_pieces]
  generalize (bs.take (limit + 1)).foldl Decoding.step ⟨[], none⟩ = d at haccounts
  obtain ⟨found, _ | p⟩ := d
  · -- the bytes read are whole characters
    have hfound : limit < utf8Len (shown found.reverse) := by
      rw [utf8Len_shown_reverse]
      exact haccounts.whole rfl
    rw [pieces_foldl]
    exact ⟨shown found.reverse, [], shown (decode (bs.drop (limit + 1))), by simp [Decoding.pieces],
      by simp [shown, decode_eq_pieces], .inl hfound, .inl hfound⟩
  · obtain ⟨size, hspans, hn⟩ := haccounts.unfinished p rfl
    have howed := hspans.owed
    have hsize := hspans.size_le
    obtain ⟨x, more, hpieces, hx⟩ := pieces_unfinished (bs.drop (limit + 1)) found hspans
    have hchar : size ≤ (x.getD replacement).utf8Size + 1 := by
      cases x with
      | none =>
        rw [Option.getD_none, utf8Size_replacement]
        omega
      | some c =>
        rw [Option.getD_some, hx c rfl]
        omega
    rw [hpieces]
    refine ⟨shown found.reverse, [replacement], shown (x :: more), by simp [Decoding.pieces, shown],
      by simp [shown], .inr ⟨_, rfl, ?_⟩, .inr ⟨_, rfl, ?_⟩⟩ <;> rw [utf8Len_shown_reverse]
    · rw [utf8Size_replacement]
      dsimp only at hn
      omega
    · dsimp only at hn ⊢
      omega

end ChatRelay.Text
