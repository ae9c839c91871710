import Traceability.Text.Utf8

/-!
# UTF-8 read back

The bytes of a character are a first byte and the bytes that it announces, so what is read of the
bytes of a text is the text, also by a reader that goes on behind faults. No other bytes are read
without a fault.
-/
namespace Traceability.Text.Utf8

/-! ## The bytes of a character -/

theorem lead?_two : ∀ n < 30, lead? (.ofNat (n + 194)) = some (1, n + 2, 0x80, 0xBF) := by
  decide

theorem lead?_three : ∀ n < 16, lead? (.ofNat (n + 224)) =
    some (2, n, if n = 0 then 0xA0 else 0x80, if n = 13 then 0x9F else 0xBF) := by
  decide

theorem lead?_four : ∀ n < 5, lead? (.ofNat (n + 240)) =
    some (3, n, if n = 0 then 0x90 else 0x80, if n = 4 then 0x8F else 0xBF) := by
  decide

/-- A further byte brings six bits. -/
theorem tails_cons {n : Nat} {low high : UInt8} (bits : n < 64) (fromLow : low.toNat ≤ n + 128)
    (toHigh : n + 128 ≤ high.toNat) (owed seen code : Nat) (rest : List UInt8) :
    tails (owed + 1) seen code low high (.ofNat (n + 128) :: rest) =
      tails owed (seen + 1) (code * 64 + n) 0x80 0xBF rest := by
  have value : (UInt8.ofNat (n + 128)).toNat = n + 128 :=
    UInt8.toNat_ofNat_of_lt' (Nat.lt_trans (Nat.add_lt_add_right bits 128) (by decide))
  have within : (low ≤ .ofNat (n + 128) && .ofNat (n + 128) ≤ high) = true := by
    rw [Bool.and_eq_true, decide_eq_true_iff, decide_eq_true_iff, UInt8.le_iff_toNat_le,
      UInt8.le_iff_toNat_le, value]
    exact ⟨fromLow, toHigh⟩
  rw [tails, if_pos within, value, show n + 128 - 0x80 = n from Nat.add_sub_cancel n 128]

theorem tails_tail {n : Nat} (bits : n < 64) (owed seen code : Nat) (rest : List UInt8) :
    tails (owed + 1) seen code 0x80 0xBF (.ofNat (n + 128) :: rest) =
      tails owed (seen + 1) (code * 64 + n) 0x80 0xBF rest := by
  refine tails_cons bits ?_ ?_ owed seen code rest
  · exact Nat.le_add_left 128 n
  · exact Nat.add_le_add_right (Nat.le_of_lt_succ bits) 128

theorem first_of_lead? {b low high : UInt8} {owed bits code : Nat} {rest : List UInt8}
    (lead : lead? b = some (owed, bits, low, high))
    (read : tails owed 1 bits low high rest = .ok code) :
    first b rest = .ok (Char.ofNat code, owed + 1) := by
  have many : ¬ b < 0x80 := by
    intro single
    rw [lead?, if_pos (UInt8.lt_trans single (by decide))] at lead
    cases lead
  rw [first, if_neg many, lead]
  dsimp only
  rw [read]
  rfl

section Widths

variable {v : Nat} (rest : List UInt8)

theorem first_one (high : v < 0x80) : first (.ofNat v) rest = .ok (Char.ofNat v, 1) := by
  have value : (UInt8.ofNat v).toNat = v :=
    UInt8.toNat_ofNat_of_lt' (Nat.lt_trans high (by decide))
  have single : UInt8.ofNat v < 0x80 := by
    rw [UInt8.lt_iff_toNat_lt, value]
    exact high
  rw [first, if_pos single, value]

theorem first_two (low : 0x80 ≤ v) (high : v < 0x800) :
    first (.ofNat (v / 64 % 32 + 192)) (.ofNat (v % 64 + 128) :: rest) = .ok (Char.ofNat v, 2) := by
  have lead := lead?_two (v / 64 % 32 - 2) (by omega)
  rw [show v / 64 % 32 - 2 + 194 = v / 64 % 32 + 192 by omega,
    show v / 64 % 32 - 2 + 2 = v / 64 % 32 by omega] at lead
  refine first_of_lead? lead ?_
  rw [tails_tail (by omega), tails]
  congr 1
  omega

theorem first_three (low : 0x800 ≤ v) (high : v < 0x10000) (scalar : v < 0xD800 ∨ 0xDFFF < v) :
    first (.ofNat (v / 4096 % 16 + 224))
        (.ofNat (v / 64 % 64 + 128) :: .ofNat (v % 64 + 128) :: rest) =
      .ok (Char.ofNat v, 3) := by
  refine first_of_lead? (lead?_three (v / 4096 % 16) (by omega)) ?_
  rw [tails_cons (by omega), tails_tail (by omega), tails]
  · congr 1
    omega
  -- The least second byte keeps shorter characters out, and the greatest one surrogates.
  · split
    · change 160 ≤ _
      omega
    · change 128 ≤ _
      omega
  · split
    · change _ ≤ 159
      omega
    · change _ ≤ 191
      omega

theorem first_four (low : 0x10000 ≤ v) (high : v < 0x110000) :
    first (.ofNat (v / 262144 % 8 + 240))
        (.ofNat (v / 4096 % 64 + 128) :: .ofNat (v / 64 % 64 + 128) :: .ofNat (v % 64 + 128) :: rest) =
      .ok (Char.ofNat v, 4) := by
  refine first_of_lead? (lead?_four (v / 262144 % 8) (by omega)) ?_
  rw [tails_cons (by omega), tails_tail (by omega), tails_tail (by omega), tails]
  · congr 1
    omega
  · split
    · change 144 ≤ _
      omega
    · change 128 ≤ _
      omega
  · split
    · change _ ≤ 143
      omega
    · change _ ≤ 191
      omega

end Widths

/-- The bytes of a character are read as the character, whatever follows. -/
theorem first_encodeChar (c : Char) (rest : List UInt8) :
    ∃ b more, String.utf8EncodeChar c = b :: more ∧
      first b (more ++ rest) = .ok (c, more.length + 1) := by
  have scalar : c.val.toNat < 0xD800 ∨ 0xDFFF < c.val.toNat ∧ c.val.toNat < 0x110000 := c.valid
  have code : Char.ofNat c.val.toNat = c := c.ofNat_toNat
  suffices read : ∃ b more, String.utf8EncodeChar c = b :: more ∧
      first b (more ++ rest) = .ok (Char.ofNat c.val.toNat, more.length + 1) by
    simpa only [code] using read
  unfold String.utf8EncodeChar
  generalize c.val.toNat = v at scalar ⊢
  dsimp only
  split
  · exact ⟨_, _, rfl, first_one rest (by omega)⟩
  · split
    · exact ⟨_, _, rfl, first_two rest (by omega) (by omega)⟩
    · split
      · exact ⟨_, _, rfl, first_three rest (by omega) (by omega) (by omega)⟩
      · exact ⟨_, _, rfl, first_four rest (by omega) (by omega)⟩

/-! ## What is read -/

theorem eq_ofNat_above {b : UInt8} {least : Nat} (above : least ≤ b.toNat) :
    b = .ofNat (b.toNat - least + least) := by
  rw [Nat.sub_add_cancel above, UInt8.ofNat_toNat]

theorem eq_iff_sub_eq {b c : UInt8} {least n : Nat} (above : least ≤ b.toNat)
    (value : c.toNat = n + least) : b = c ↔ b.toNat - least = n := by
  rw [← UInt8.toNat_inj, value]
  omega

theorem lead?_eq_some {b low high : UInt8} {owed bits : Nat}
    (lead : lead? b = some (owed, bits, low, high)) :
    (owed = 1 ∧ b = .ofNat (bits + 192) ∧ 2 ≤ bits ∧ bits < 32 ∧ low = 0x80 ∧ high = 0xBF) ∨
    (owed = 2 ∧ b = .ofNat (bits + 224) ∧ bits < 16 ∧
      low = (if bits = 0 then 0xA0 else 0x80) ∧ high = if bits = 13 then 0x9F else 0xBF) ∨
    (owed = 3 ∧ b = .ofNat (bits + 240) ∧ bits < 5 ∧
      low = (if bits = 0 then 0x90 else 0x80) ∧ high = if bits = 4 then 0x8F else 0xBF) := by
  have fields {owed' bits' : Nat} {low' high' : UInt8}
      (same : some (owed', bits', low', high') = some (owed, bits, low, high)) :
      owed' = owed ∧ bits' = bits ∧ low' = low ∧ high' = high := by
    simpa only [Option.some.injEq, Prod.mk.injEq] using same
  simp only [lead?, UInt8.lt_iff_toNat_lt, UInt8.reduceToNat] at lead
  split at lead
  · cases lead
  next above =>
  split at lead
  · obtain ⟨rfl, rfl, rfl, rfl⟩ := fields lead
    exact .inl ⟨rfl, eq_ofNat_above (by omega), by omega, by omega, rfl, rfl⟩
  next above =>
  have above : 224 ≤ b.toNat := Nat.le_of_not_lt above
  split at lead
  · next below =>
    simp only [eq_iff_sub_eq above (show (0xE0 : UInt8).toNat = 0 + 224 from rfl),
      eq_iff_sub_eq above (show (0xED : UInt8).toNat = 13 + 224 from rfl)] at lead
    obtain ⟨rfl, rfl, rfl, rfl⟩ := fields lead
    exact .inr (.inl ⟨rfl, eq_ofNat_above above, by omega, rfl, rfl⟩)
  next above =>
  have above : 240 ≤ b.toNat := Nat.le_of_not_lt above
  split at lead
  · next below =>
    simp only [eq_iff_sub_eq above (show (0xF0 : UInt8).toNat = 0 + 240 from rfl),
      eq_iff_sub_eq above (show (0xF4 : UInt8).toNat = 4 + 240 from rfl)] at lead
    obtain ⟨rfl, rfl, rfl, rfl⟩ := fields lead
    exact .inr (.inr ⟨rfl, eq_ofNat_above above, by omega, rfl, rfl⟩)
  · cases lead

theorem tails_eq_ok {owed seen code r : Nat} {low high : UInt8} {bytes : List UInt8}
    (least : 0x80 ≤ low.toNat) (most : high.toNat ≤ 0xBF)
    (read : tails (owed + 1) seen code low high bytes = .ok r) :
    ∃ n rest, bytes = .ofNat (n + 128) :: rest ∧ n < 64 ∧ low.toNat ≤ n + 128 ∧
      n + 128 ≤ high.toNat ∧ tails owed (seen + 1) (code * 64 + n) 0x80 0xBF rest = .ok r := by
  cases bytes with
  | nil => cases read
  | cons b rest =>
    rw [tails] at read
    split at read
    · next within =>
      simp only [Bool.and_eq_true, decide_eq_true_iff, UInt8.le_iff_toNat_le] at within
      obtain ⟨fromLow, toHigh⟩ := within
      refine ⟨b.toNat - 128, rest, ?_, by omega, by omega, by omega, read⟩
      rw [← eq_ofNat_above (by omega)]
    · cases read

theorem toNat_ofNat {v : Nat} (scalar : v.isValidChar) : (Char.ofNat v).val.toNat = v := by
  rw [Char.ofNat, dif_pos scalar]
  rfl

section Widths

variable {a m n k : Nat}

theorem encodeChar_one {b : UInt8} (low : b.toNat < 0x80) :
    String.utf8EncodeChar (Char.ofNat b.toNat) = [b] := by
  unfold String.utf8EncodeChar
  rw [toNat_ofNat (.inl (by omega))]
  dsimp only
  rw [if_pos (by omega), UInt8.ofNat_toNat]

theorem encodeChar_two (least : 2 ≤ a) (most : a < 32) (bits : n < 64) :
    String.utf8EncodeChar (Char.ofNat (a * 64 + n)) = [.ofNat (a + 192), .ofNat (n + 128)] := by
  unfold String.utf8EncodeChar
  rw [toNat_ofNat (.inl (by omega))]
  dsimp only
  rw [if_neg (by omega), if_pos (by omega), show (a * 64 + n) / 64 % 32 = a by omega,
    show (a * 64 + n) % 64 = n by omega]

theorem encodeChar_three (top : a < 16) (bits : m < 64) (bits' : n < 64)
    (least : a = 0 → 32 ≤ m) (scalar : a = 13 → m < 32) :
    String.utf8EncodeChar (Char.ofNat ((a * 64 + m) * 64 + n)) =
      [.ofNat (a + 224), .ofNat (m + 128), .ofNat (n + 128)] := by
  have valid : Nat.isValidChar ((a * 64 + m) * 64 + n) := by
    unfold Nat.isValidChar
    omega
  unfold String.utf8EncodeChar
  rw [toNat_ofNat valid]
  dsimp only
  rw [if_neg (by omega), if_neg (by omega), if_pos (by omega),
    show ((a * 64 + m) * 64 + n) / 4096 % 16 = a by omega,
    show ((a * 64 + m) * 64 + n) / 64 % 64 = m by omega,
    show ((a * 64 + m) * 64 + n) % 64 = n by omega]

theorem encodeChar_four (top : a < 5) (bits : m < 64) (bits' : n < 64) (bits'' : k < 64)
    (least : a = 0 → 16 ≤ m) (most : a = 4 → m < 16) :
    String.utf8EncodeChar (Char.ofNat (((a * 64 + m) * 64 + n) * 64 + k)) =
      [.ofNat (a + 240), .ofNat (m + 128), .ofNat (n + 128), .ofNat (k + 128)] := by
  have valid : Nat.isValidChar (((a * 64 + m) * 64 + n) * 64 + k) := .inr (by omega)
  unfold String.utf8EncodeChar
  rw [toNat_ofNat valid]
  dsimp only
  rw [if_neg (by omega), if_neg (by omega), if_neg (by omega),
    show (((a * 64 + m) * 64 + n) * 64 + k) / 262144 % 8 = a by omega,
    show (((a * 64 + m) * 64 + n) * 64 + k) / 4096 % 64 = m by omega,
    show (((a * 64 + m) * 64 + n) * 64 + k) / 64 % 64 = n by omega,
    show (((a * 64 + m) * 64 + n) * 64 + k) % 64 = k by omega]

end Widths

/-- Where a character is read, its bytes stand. -/
theorem encodeChar_of_first {b : UInt8} {rest : List UInt8} {c : Char} {width : Nat}
    (read : first b rest = .ok (c, width)) : ∃ more after, rest = more ++ after ∧
      String.utf8EncodeChar c = b :: more ∧ width = more.length + 1 := by
  rw [first] at read
  split at read
  · next single =>
    cases read
    exact ⟨[], rest, rfl, encodeChar_one (UInt8.lt_iff_toNat_lt.mp single), rfl⟩
  · split at read
    · cases read
    · next owed bits low high lead =>
      cases further : tails owed 1 bits low high rest with
      | error fault =>
        rw [further] at read
        cases read
      | ok code =>
        rw [further] at read
        cases read
        rcases lead?_eq_some lead with ⟨rfl, rfl, least, most, rfl, rfl⟩ |
          ⟨rfl, rfl, top, rfl, rfl⟩ | ⟨rfl, rfl, top, rfl, rfl⟩
        · obtain ⟨n, after, rfl, small, -, -, done⟩ := tails_eq_ok (by decide) (by decide) further
          cases done
          exact ⟨[_], after, rfl, encodeChar_two least most small, rfl⟩
        · obtain ⟨m, after, rfl, small, fromLow, toHigh, further⟩ :=
            tails_eq_ok (by split <;> decide) (by split <;> decide) further
          obtain ⟨n, after, rfl, small', -, -, done⟩ := tails_eq_ok (by decide) (by decide) further
          cases done
          refine ⟨[_, _], after, rfl, encodeChar_three top small small' ?_ ?_, rfl⟩
          · rintro rfl
            exact Nat.le_of_add_le_add_right (show 32 + 128 ≤ m + 128 from fromLow)
          · rintro rfl
            exact Nat.lt_succ_of_le (Nat.le_of_add_le_add_right toHigh)
        · obtain ⟨m, after, rfl, small, fromLow, toHigh, further⟩ :=
            tails_eq_ok (by split <;> decide) (by split <;> decide) further
          obtain ⟨n, after, rfl, small', -, -, further⟩ :=
            tails_eq_ok (by decide) (by decide) further
          obtain ⟨k, after, rfl, small'', -, -, done⟩ := tails_eq_ok (by decide) (by decide) further
          cases done
          refine ⟨[_, _, _], after, rfl, encodeChar_four top small small' small'' ?_ ?_, rfl⟩
          · rintro rfl
            exact Nat.le_of_add_le_add_right (show 16 + 128 ≤ m + 128 from fromLow)
          · rintro rfl
            exact Nat.lt_succ_of_le (Nat.le_of_add_le_add_right toHigh)

/-! ## The bytes of a text -/

theorem encode_cons {c : Char} {b : UInt8} {more : List UInt8}
    (bytes : String.utf8EncodeChar c = b :: more) (t : Text) :
    encode (c :: t) = b :: (more ++ encode t) := by
  rw [encode, List.flatMap_cons, bytes, encode, List.cons_append]

theorem decodeLossyFrom_append (more rest : List UInt8) :
    decodeLossyFrom more.length (more ++ rest) = decodeLossyFrom 0 rest := by
  induction more with
  | nil => rfl
  | cons b more ih => exact ih

/-- What is read of the bytes of a text is the text. -/
theorem decodeLossy_encode (t : Text) : decodeLossy (encode t) = t := by
  rw [decodeLossy]
  induction t with
  | nil => rfl
  | cons c t ih =>
    obtain ⟨b, more, bytes, read⟩ := first_encodeChar c (encode t)
    rw [encode_cons bytes, decodeLossyFrom, read]
    dsimp only
    rw [Nat.add_sub_cancel, decodeLossyFrom_append, ih]

theorem decodeFrom_append (more rest : List UInt8) (position : Nat) :
    decodeFrom more.length position (more ++ rest) =
      decodeFrom 0 (position + more.length) rest := by
  induction more generalizing position with
  | nil => rfl
  | cons b more ih =>
    rw [List.length_cons, List.cons_append, decodeFrom, ih, Nat.add_right_comm, Nat.add_assoc]

/-- What is read of bytes is a text just when they are the bytes of the text. -/
theorem decodeFrom_eq_ok_iff {bytes : List UInt8} {t : Text} (position : Nat) :
    decodeFrom 0 position bytes = .ok t ↔ bytes = encode t := by
  constructor
  · intro read
    induction t generalizing bytes position with
    | nil =>
      cases bytes with
      | nil => rfl
      | cons b rest =>
        rw [decodeFrom] at read
        split at read
        · next c n _ =>
          cases later : decodeFrom (n - 1) (position + 1) rest <;>
            simp [later, Except.map] at read
        · cases read
    | cons c t ih =>
      cases bytes with
      | nil => cases read
      | cons b rest =>
        rw [decodeFrom] at read
        split at read
        · next c' n here =>
          obtain ⟨more, after, rfl, bytes, rfl⟩ := encodeChar_of_first here
          rw [Nat.add_sub_cancel, decodeFrom_append] at read
          cases later : decodeFrom 0 (position + 1 + more.length) after with
          | error e =>
            rw [later] at read
            cases read
          | ok t' =>
            rw [later] at read
            cases read
            rw [ih _ later, encode_cons bytes]
        · cases read
  · rintro rfl
    induction t generalizing position with
    | nil => rfl
    | cons c t ih =>
      obtain ⟨b, more, bytes, read⟩ := first_encodeChar c (encode t)
      rw [encode_cons bytes, decodeFrom, read]
      dsimp only
      rw [Nat.add_sub_cancel, decodeFrom_append, ih]
      rfl

theorem decode_eq_ok_iff {bytes : List UInt8} {t : Text} :
    decode bytes = .ok t ↔ bytes = encode t :=
  decodeFrom_eq_ok_iff 0

end Traceability.Text.Utf8
