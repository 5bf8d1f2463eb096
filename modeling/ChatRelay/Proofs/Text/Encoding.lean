import ChatRelay.Text.Utf8

/-! # Encoded texts

An encoded text is decoded to itself (`lossy_encode`): from the start of a character the scan takes
just its bytes, whatever their number. An ASCII byte stands in an encoded text only for its own
character (`not_mem_encode`), so line ends can be told before anything is decoded. -/

namespace ChatRelay.Text

/-! ### One character -/

theorem toNat_byte {n : Nat} (h : n < 256) : (UInt8.ofNat n).toNat = n := UInt8.toNat_ofNat_of_lt' h

theorem leadByte_one {n : Nat} (h : n < 0x80) :
    leadByte (UInt8.ofNat n) = some (.inl (Char.ofNat n)) := by
  have hn : (UInt8.ofNat n).toNat = n := toNat_byte (by omega)
  unfold leadByte
  rw [if_pos (by rw [UInt8.lt_iff_toNat_lt, hn]; exact h), hn]

/-- The first byte of two. -/
theorem leadByte_two {n : Nat} (h : 0xC2 ≤ n) (h' : n < 0xE0) :
    leadByte (UInt8.ofNat n) = some (.inr ⟨1, 0x80, 0xBF, n - 0xC0⟩) := by
  have hn : (UInt8.ofNat n).toNat = n := toNat_byte (by omega)
  simp [leadByte, UInt8.lt_iff_toNat_lt, hn, show ¬ n < 0x80 by omega, show ¬ n < 0xC2 by omega, h']

/-- The first byte of three: the lowest and one of the higher ones bound the second byte. -/
theorem leadByte_three {n : Nat} (h : 0xE0 ≤ n) (h' : n < 0xF0) :
    leadByte (UInt8.ofNat n) = some (.inr ⟨2, if n = 0xE0 then 0xA0 else 0x80,
      if n = 0xED then 0x9F else 0xBF, n - 0xE0⟩) := by
  have hn : (UInt8.ofNat n).toNat = n := toNat_byte (by omega)
  simp only [leadByte, UInt8.lt_iff_toNat_lt, ← UInt8.toNat_inj, hn]
  rcases Nat.eq_or_lt_of_le h with rfl | h
  · simp
  · by_cases hd : n = 0xED
    · subst hd; simp
    · simp [show ¬ n < 0x80 by omega, show ¬ n < 0xC2 by omega, show ¬ n < 0xE0 by omega,
        show n ≠ 0xE0 by omega, hd, h']

/-- The first byte of four. -/
theorem leadByte_four {n : Nat} (h : 0xF0 ≤ n) (h' : n ≤ 0xF4) :
    leadByte (UInt8.ofNat n) = some (.inr ⟨3, if n = 0xF0 then 0x90 else 0x80,
      if n = 0xF4 then 0x8F else 0xBF, n - 0xF0⟩) := by
  obtain rfl | rfl | rfl | rfl | rfl : n = 0xF0 ∨ n = 0xF1 ∨ n = 0xF2 ∨ n = 0xF3 ∨ n = 0xF4 := by
    omega
  all_goals rfl

theorem step_start {found : List (Option Char)} {b : UInt8} {p : Pending}
    (h : leadByte b = some (.inr p)) : Decoding.step ⟨found, none⟩ b = ⟨found, some p⟩ := by
  simp only [Decoding.step, Decoding.start, h]

section further

variable {found : List (Option Char)} {low high : UInt8} {bits n : Nat}

/-- A further byte of a character that is not its last. -/
theorem step_more {owed : Nat} (hn : n < 0x40) (hlow : low.toNat ≤ n + 0x80)
    (hhigh : n + 0x80 ≤ high.toNat) :
    Decoding.step ⟨found, some ⟨owed + 2, low, high, bits⟩⟩ (UInt8.ofNat (n + 0x80)) =
      ⟨found, some ⟨owed + 1, 0x80, 0xBF, bits * 64 + n⟩⟩ := by
  have hb : (UInt8.ofNat (n + 0x80)).toNat = n + 0x80 := toNat_byte (by omega)
  generalize UInt8.ofNat (n + 0x80) = b at hb ⊢
  simp [Decoding.step, UInt8.le_iff_toNat_le, hb, hlow, hhigh]

/-- The last byte of a character. -/
theorem step_last (hn : n < 0x40) (hlow : low.toNat ≤ n + 0x80) (hhigh : n + 0x80 ≤ high.toNat) :
    Decoding.step ⟨found, some ⟨1, low, high, bits⟩⟩ (UInt8.ofNat (n + 0x80)) =
      ⟨some (Char.ofNat (bits * 64 + n)) :: found, none⟩ := by
  have hb : (UInt8.ofNat (n + 0x80)).toNat = n + 0x80 := toNat_byte (by omega)
  generalize UInt8.ofNat (n + 0x80) = b at hb ⊢
  simp [Decoding.step, UInt8.le_iff_toNat_le, hb, hlow, hhigh]

end further

theorem tail_low (n : Nat) : (0x80 : UInt8).toNat ≤ n + 0x80 := Nat.le_add_left _ _

theorem tail_high {n : Nat} (hn : n < 0x40) : n + 0x80 ≤ (0xBF : UInt8).toNat := by
  have : (0xBF : UInt8).toNat = 0xBF := rfl
  omega

/-- **The scan takes the bytes of a character.** -/
theorem foldl_step_char (found : List (Option Char)) (c : Char) :
    (String.utf8EncodeChar c).foldl Decoding.step ⟨found, none⟩ = ⟨some c :: found, none⟩ := by
  have hvalid : c.val.toNat < 0xD800 ∨ 0xDFFF < c.val.toNat ∧ c.val.toNat < 0x110000 := c.valid
  have hofNat : Char.ofNat c.val.toNat = c := Char.ofNat_toNat c
  have hmod (n : Nat) : n % 64 < 0x40 := Nat.mod_lt n (by decide)
  unfold String.utf8EncodeChar
  generalize c.val.toNat = v at hvalid hofNat ⊢
  simp only
  by_cases h1 : v ≤ 0x7F
  · simp only [if_pos h1, List.foldl_cons, List.foldl_nil, Decoding.step, Decoding.start,
      leadByte_one (Nat.lt_succ_of_le h1), hofNat]
  rw [if_neg h1]
  by_cases h2 : v ≤ 0x7FF
  · have hlead := @leadByte_two (v / 64 % 32 + 0xC0) (by omega) (by omega)
    rw [if_pos h2, List.foldl_cons, List.foldl_cons, List.foldl_nil, step_start hlead,
      step_last (hmod v) (tail_low _) (tail_high (hmod v))]
    have hbits : (v / 64 % 32 + 0xC0 - 0xC0) * 64 + v % 64 = v := by omega
    rw [hbits, hofNat]
  rw [if_neg h2]
  by_cases h3 : v ≤ 0xFFFF
  · have hlead := @leadByte_three (v / 4096 % 16 + 0xE0) (by omega) (by omega)
    rw [if_pos h3, List.foldl_cons, List.foldl_cons, List.foldl_cons, List.foldl_nil,
      step_start hlead, step_more (hmod _) ?low ?high,
        step_last (hmod v) (tail_low _) (tail_high (hmod v))]
    case low =>
      split
      -- the scan narrows the second byte to rule out long forms and surrogates
      · show 0xA0 ≤ _
        omega
      · exact tail_low _
    case high =>
      split
      · show _ ≤ 0x9F
        omega
      · exact tail_high (hmod _)
    have hbits : ((v / 4096 % 16 + 0xE0 - 0xE0) * 64 + v / 64 % 64) * 64 + v % 64 = v := by omega
    rw [hbits, hofNat]
  · have hlead := @leadByte_four (v / 262144 % 8 + 0xF0) (by omega) (by omega)
    rw [if_neg h3, List.foldl_cons, List.foldl_cons, List.foldl_cons, List.foldl_cons,
      List.foldl_nil, step_start hlead, step_more (hmod _) ?low ?high,
      step_more (hmod _) (tail_low _) (tail_high (hmod _)),
        step_last (hmod v) (tail_low _) (tail_high (hmod v))]
    case low =>
      split
      · show 0x90 ≤ _
        omega
      · exact tail_low _
    case high =>
      split
      · show _ ≤ 0x8F
        omega
      · exact tail_high (hmod _)
    have hbits : (((v / 262144 % 8 + 0xF0 - 0xF0) * 64 + v / 4096 % 64) * 64 + v / 64 % 64) * 64 +
        v % 64 = v := by omega
    rw [hbits, hofNat]

/-! ### Texts -/

theorem foldl_step_chars (found : List (Option Char)) (cs : List Char) :
    (cs.flatMap String.utf8EncodeChar).foldl Decoding.step ⟨found, none⟩ =
      ⟨cs.reverse.map some ++ found, none⟩ := by
  induction cs generalizing found with
  | nil => rfl
  | cons c cs ih => simp [List.foldl_append, foldl_step_char, ih]

theorem decode_encode (s : String) : decode (encode s) = s.toList.map some := by
  unfold decode encode
  rw [foldl_step_chars]
  simp

/-- **An encoded text is decoded to itself.** -/
theorem lossy_encode (s : String) : lossy (encode s) = s := by
  have hid : (fun c : Option Char => c.getD replacement) ∘ some = id := rfl
  unfold lossy
  rw [decode_encode, List.map_map, hid, List.map_id, String.ofList_toList]

theorem encode_append (s t : String) : encode (s ++ t) = encode s ++ encode t := by
  simp [encode]

/-- A byte below 0x80 stands for its own character only. -/
theorem mem_utf8EncodeChar {c : Char} {b : UInt8} (h : b ∈ String.utf8EncodeChar c)
    (hb : b.toNat < 0x80) : c.toNat = b.toNat := by
  have hfurther (n : Nat) (hn : 0x80 ≤ n) (h' : n < 256) : b ≠ UInt8.ofNat n := by
    rintro rfl
    rw [toNat_byte h'] at hb
    omega
  have hv : c.val.toNat = c.toNat := rfl
  unfold String.utf8EncodeChar at h
  simp only [hv] at h
  split at h
  case isTrue h1 =>
    rw [List.mem_singleton.mp h, toNat_byte (by omega)]
  case isFalse h1 =>
    exfalso
    split at h
    · simp only [List.mem_cons, List.not_mem_nil, or_false] at h
      rcases h with h | h <;> exact hfurther _ (by omega) (by omega) h
    · split at h
      · simp only [List.mem_cons, List.not_mem_nil, or_false] at h
        rcases h with h | h | h <;> exact hfurther _ (by omega) (by omega) h
      · simp only [List.mem_cons, List.not_mem_nil, or_false] at h
        rcases h with h | h | h | h <;> exact hfurther _ (by omega) (by omega) h

/-- The byte of an ASCII character stands in an encoded text only for that character. -/
theorem not_mem_encode {s : String} {c : Char} (hc : c.toNat < 0x80) (h : c ∉ s.toList) :
    UInt8.ofNat c.toNat ∉ encode s := by
  intro hmem
  obtain ⟨d, hd, hb⟩ := List.mem_flatMap.mp hmem
  have hn : (UInt8.ofNat c.toNat).toNat = c.toNat := toNat_byte (by omega)
  have := mem_utf8EncodeChar hb (by omega)
  rw [hn] at this
  exact h (Char.toNat_inj.mp this ▸ hd)

end ChatRelay.Text
