import DocScope.Text.Utf8

/-!
# Reading back what was written

`front_encodeChar`: the bytes of a character, whatever follows them, are read as that character.
From it, by induction over the text, `decode_encode`, `decodeLossy_encode` and `text?_bytesOf`: the
bytes of a text are read as the text.

The other way round, what is read as a character are its bytes (`take_of_front`), so the byte
sequences that can be read are those of texts (`decode_eq_ok_iff`, `exists_fault_iff`). A text has as
many newlines as its bytes (`count_encode`).
-/

namespace DocScope.Text.Utf8

/-- The scalar values: no surrogates, and nothing above U+10FFFF. -/
theorem toNat_bounds (c : Char) :
    c.val.toNat < 0xD800 ∨ 0xDFFF < c.val.toNat ∧ c.val.toNat < 0x110000 := c.valid

/-- A byte below 256 is read back as the number. -/
theorem toNat_byte {n : Nat} (h : n < 256) : (UInt8.ofNat n).toNat = n := by
  rw [UInt8.toNat_ofNat', Nat.mod_eq_of_lt h]

theorem isTail_iff (b : UInt8) : isTail b = true ↔ 0x80 ≤ b.toNat ∧ b.toNat ≤ 0xBF := by
  simp [isTail, UInt8.le_iff_toNat_le]

theorem secondOfThree_iff (a b : UInt8) :
    secondOfThree a b = true ↔
      (if a.toNat = 0xE0 then 0xA0 else 0x80) ≤ b.toNat ∧
        b.toNat ≤ (if a.toNat = 0xED then 0x9F else 0xBF) := by
  simp only [secondOfThree, beq_iff_eq, ← UInt8.toNat_inj]
  split
  · simp_all [UInt8.le_iff_toNat_le]
  · split <;> simp_all [UInt8.le_iff_toNat_le, isTail]

theorem secondOfFour_iff (a b : UInt8) :
    secondOfFour a b = true ↔
      (if a.toNat = 0xF0 then 0x90 else 0x80) ≤ b.toNat ∧
        b.toNat ≤ (if a.toNat = 0xF4 then 0x8F else 0xBF) := by
  simp only [secondOfFour, beq_iff_eq, ← UInt8.toNat_inj]
  split
  · simp_all [UInt8.le_iff_toNat_le]
  · split <;> simp_all [UInt8.le_iff_toNat_le, isTail]

/-! ## One character, by the number of its bytes -/

section
variable {v : Nat} (rest : List UInt8)

theorem front_one (h : v < 0x80) :
    front (UInt8.ofNat v :: rest) = .char (Char.ofNat v) 1 := by
  have ha := toNat_byte (n := v) (by omega)
  have h1 : UInt8.ofNat v < 0x80 := by rw [UInt8.lt_iff_toNat_lt, ha]; exact h
  simp only [front, h1, ↓reduceIte, ha]

theorem front_two (h : 0x80 ≤ v) (h' : v < 0x800) :
    front (UInt8.ofNat (v / 64 % 32 + 0xC0) :: UInt8.ofNat (v % 64 + 0x80) :: rest) =
      .char (Char.ofNat v) 2 := by
  have ha := toNat_byte (n := v / 64 % 32 + 0xC0) (by omega)
  have hb := toNat_byte (n := v % 64 + 0x80) (by omega)
  generalize UInt8.ofNat (v / 64 % 32 + 0xC0) = a at ha ⊢
  generalize UInt8.ofNat (v % 64 + 0x80) = b at hb ⊢
  have h1 : ¬ a < 0x80 := by rw [UInt8.lt_iff_toNat_lt, ha]; simp
  have h2 : (0xC2 ≤ a && a ≤ 0xDF) = true := by
    simp only [Bool.and_eq_true, decide_eq_true_eq, UInt8.le_iff_toNat_le, ha, UInt8.reduceToNat]
    omega
  have h3 : isTail b = true := by rw [isTail_iff, hb]; omega
  simp only [front, h1, h2, h3, ↓reduceIte, low, ha, hb]
  congr 2
  omega

theorem front_three (h : 0x800 ≤ v) (h' : v < 0xD800 ∨ 0xDFFF < v) (h'' : v < 0x10000) :
    front (UInt8.ofNat (v / 4096 % 16 + 0xE0) :: UInt8.ofNat (v / 64 % 64 + 0x80) ::
      UInt8.ofNat (v % 64 + 0x80) :: rest) = .char (Char.ofNat v) 3 := by
  have ha := toNat_byte (n := v / 4096 % 16 + 0xE0) (by omega)
  have hb := toNat_byte (n := v / 64 % 64 + 0x80) (by omega)
  have hc := toNat_byte (n := v % 64 + 0x80) (by omega)
  generalize UInt8.ofNat (v / 4096 % 16 + 0xE0) = a at ha ⊢
  generalize UInt8.ofNat (v / 64 % 64 + 0x80) = b at hb ⊢
  generalize UInt8.ofNat (v % 64 + 0x80) = c at hc ⊢
  have h1 : ¬ a < 0x80 := by rw [UInt8.lt_iff_toNat_lt, ha]; simp
  have h2 : (0xC2 ≤ a && a ≤ 0xDF) = false := by
    simp only [Bool.and_eq_false_iff, decide_eq_false_iff_not, UInt8.le_iff_toNat_le, ha,
      UInt8.reduceToNat]
    omega
  have h3 : (0xE0 ≤ a && a ≤ 0xEF) = true := by
    simp only [Bool.and_eq_true, decide_eq_true_eq, UInt8.le_iff_toNat_le, ha, UInt8.reduceToNat]
    omega
  have h4 : secondOfThree a b = true := by rw [secondOfThree_iff, ha, hb]; split <;> split <;> omega
  have h5 : isTail c = true := by rw [isTail_iff, hc]; omega
  simp only [front, h1, h2, h3, h4, h5, ↓reduceIte, Bool.false_eq_true, Bool.not_true, low, ha, hb,
    hc]
  congr 2
  omega

theorem front_four (h : 0x10000 ≤ v) (h' : v < 0x110000) :
    front (UInt8.ofNat (v / 262144 % 8 + 0xF0) :: UInt8.ofNat (v / 4096 % 64 + 0x80) ::
      UInt8.ofNat (v / 64 % 64 + 0x80) :: UInt8.ofNat (v % 64 + 0x80) :: rest) =
      .char (Char.ofNat v) 4 := by
  have ha := toNat_byte (n := v / 262144 % 8 + 0xF0) (by omega)
  have hb := toNat_byte (n := v / 4096 % 64 + 0x80) (by omega)
  have hc := toNat_byte (n := v / 64 % 64 + 0x80) (by omega)
  have hd := toNat_byte (n := v % 64 + 0x80) (by omega)
  generalize UInt8.ofNat (v / 262144 % 8 + 0xF0) = a at ha ⊢
  generalize UInt8.ofNat (v / 4096 % 64 + 0x80) = b at hb ⊢
  generalize UInt8.ofNat (v / 64 % 64 + 0x80) = c at hc ⊢
  generalize UInt8.ofNat (v % 64 + 0x80) = d at hd ⊢
  have h1 : ¬ a < 0x80 := by rw [UInt8.lt_iff_toNat_lt, ha]; simp
  have h2 : (0xC2 ≤ a && a ≤ 0xDF) = false := by
    simp only [Bool.and_eq_false_iff, decide_eq_false_iff_not, UInt8.le_iff_toNat_le, ha,
      UInt8.reduceToNat]
    omega
  have h3 : (0xE0 ≤ a && a ≤ 0xEF) = false := by
    simp only [Bool.and_eq_false_iff, decide_eq_false_iff_not, UInt8.le_iff_toNat_le, ha,
      UInt8.reduceToNat]
    omega
  have h4 : (0xF0 ≤ a && a ≤ 0xF4) = true := by
    simp only [Bool.and_eq_true, decide_eq_true_eq, UInt8.le_iff_toNat_le, ha, UInt8.reduceToNat]
    omega
  have h5 : secondOfFour a b = true := by rw [secondOfFour_iff, ha, hb]; split <;> split <;> omega
  have h6 : isTail c = true := by rw [isTail_iff, hc]; omega
  have h7 : isTail d = true := by rw [isTail_iff, hd]; omega
  simp only [front, h1, h2, h3, h4, h5, h6, h7, ↓reduceIte, Bool.false_eq_true, Bool.not_true, low,
    ha, hb, hc, hd]
  congr 2
  omega

end

/-- The bytes of a character are read as that character. -/
theorem front_encodeChar (c : Char) (rest : List UInt8) :
    front (String.utf8EncodeChar c ++ rest) = .char c (String.utf8EncodeChar c).length := by
  have hc : Char.ofNat c.val.toNat = c := Char.ofNat_toNat c
  have hv := toNat_bounds c
  unfold String.utf8EncodeChar
  generalize c.val.toNat = v at hc hv ⊢
  subst hc
  simp only
  split
  · exact front_one rest (by omega)
  · split
    · exact front_two rest (by omega) (by omega)
    · split
      · exact front_three rest (by omega) (by omega) (by omega)
      · exact front_four rest (by omega) (by omega)

/-! ## A whole text -/

theorem encode_cons (c : Char) (s : List Char) :
    encode (c :: s) = String.utf8EncodeChar c ++ encode s := by simp [encode]

theorem length_encodeChar_pos (c : Char) : 0 < (String.utf8EncodeChar c).length := by
  rw [String.length_utf8EncodeChar]
  exact c.utf8Size_pos

/-- With fuel for every byte the characters are read one by one. -/
theorem decodeFrom_encode : ∀ (s : List Char) (fuel index : Nat), (encode s).length ≤ fuel →
    decodeFrom fuel index (encode s) = .ok s
  | [], fuel, _, _ => by cases fuel <;> rfl
  | c :: s, fuel, index, h => by
    have hpos := length_encodeChar_pos c
    rw [encode_cons, List.length_append] at h
    obtain ⟨fuel, rfl⟩ : ∃ n, fuel = n + 1 := ⟨fuel - 1, by omega⟩
    simp only [encode_cons, decodeFrom, front_encodeChar, List.drop_left',
      decodeFrom_encode s fuel _ (by omega)]

theorem decode_encode (s : List Char) : decode (encode s) = .ok s :=
  decodeFrom_encode s _ _ (Nat.le_refl _)

theorem lossyFrom_encode : ∀ (s : List Char) (fuel : Nat), (encode s).length ≤ fuel →
    lossyFrom fuel (encode s) = s
  | [], fuel, _ => by cases fuel <;> rfl
  | c :: s, fuel, h => by
    have hpos := length_encodeChar_pos c
    rw [encode_cons, List.length_append] at h
    obtain ⟨fuel, rfl⟩ : ∃ n, fuel = n + 1 := ⟨fuel - 1, by omega⟩
    simp only [encode_cons, lossyFrom, front_encodeChar, List.drop_left',
      lossyFrom_encode s fuel (by omega)]

theorem decodeLossy_encode (s : List Char) : decodeLossy (encode s) = s :=
  lossyFrom_encode s _ (Nat.le_refl _)

/-- The bytes of a string are read as the string. -/
theorem text?_bytesOf (s : String) : text? (bytesOf s) = some s := by
  simp [text?, bytesOf, decode_encode]

/-! ## What is read was written -/

theorem val_ofNat {v : Nat} (h : v < 0xD800 ∨ 0xDFFF < v ∧ v < 0x110000) :
    (Char.ofNat v).val.toNat = v := by
  have hv : v.isValidChar := h
  rw [Char.ofNat, dif_pos hv]
  rfl

theorem ofNat_of_toNat {n : Nat} {a : UInt8} (h : n = a.toNat) : UInt8.ofNat n = a := by
  rw [h, UInt8.ofNat_toNat]

section
variable {a b c d : UInt8}

theorem encodeChar_one (ha : a.toNat < 0x80) :
    String.utf8EncodeChar (Char.ofNat a.toNat) = [a] := by
  simp only [String.utf8EncodeChar, val_ofNat (.inl (Nat.lt_trans ha (by decide)))]
  rw [if_pos (by omega), ofNat_of_toNat rfl]

theorem encodeChar_two (ha : 0xC2 ≤ a.toNat ∧ a.toNat ≤ 0xDF) (hb : isTail b = true) :
    String.utf8EncodeChar (Char.ofNat ((a.toNat - 0xC0) * 64 + low b)) = [a, b] := by
  rw [isTail_iff] at hb
  have hlow : low b = b.toNat - 0x80 := by unfold low; omega
  obtain ⟨v, hv⟩ : ∃ v, v = (a.toNat - 0xC0) * 64 + low b := ⟨_, rfl⟩
  rw [← hv]
  simp only [String.utf8EncodeChar, val_ofNat (v := v) (by omega)]
  rw [if_neg (by omega), if_pos (by omega), ofNat_of_toNat (a := a) (by omega),
    ofNat_of_toNat (a := b) (by omega)]

theorem encodeChar_three (ha : 0xE0 ≤ a.toNat ∧ a.toNat ≤ 0xEF) (hb : secondOfThree a b = true)
    (hc : isTail c = true) :
    String.utf8EncodeChar (Char.ofNat ((a.toNat - 0xE0) * 4096 + low b * 64 + low c)) =
      [a, b, c] := by
  rw [secondOfThree_iff] at hb
  rw [isTail_iff] at hc
  have hb' : 0x80 ≤ b.toNat ∧ b.toNat ≤ 0xBF := by split at hb <;> split at hb <;> omega
  have hlow : low b = b.toNat - 0x80 := by unfold low; omega
  have hlow' : low c = c.toNat - 0x80 := by unfold low; omega
  obtain ⟨v, hv⟩ : ∃ v, v = (a.toNat - 0xE0) * 4096 + low b * 64 + low c := ⟨_, rfl⟩
  rw [← hv]
  -- the limits on the second byte keep out what has a shorter form, and the surrogates
  have hscalar : 0x800 ≤ v ∧ v ≤ 0xFFFF ∧ (v < 0xD800 ∨ 0xDFFF < v) := by
    split at hb <;> split at hb <;> omega
  simp only [String.utf8EncodeChar, val_ofNat (v := v) (by omega)]
  rw [if_neg (by omega), if_neg (by omega), if_pos (by omega), ofNat_of_toNat (a := a) (by omega),
    ofNat_of_toNat (a := b) (by omega), ofNat_of_toNat (a := c) (by omega)]

theorem encodeChar_four (ha : 0xF0 ≤ a.toNat ∧ a.toNat ≤ 0xF4) (hb : secondOfFour a b = true)
    (hc : isTail c = true) (hd : isTail d = true) :
    String.utf8EncodeChar
      (Char.ofNat ((a.toNat - 0xF0) * 262144 + low b * 4096 + low c * 64 + low d)) =
      [a, b, c, d] := by
  rw [secondOfFour_iff] at hb
  rw [isTail_iff] at hc hd
  have hb' : 0x80 ≤ b.toNat ∧ b.toNat ≤ 0xBF := by split at hb <;> split at hb <;> omega
  have hlow : low b = b.toNat - 0x80 := by unfold low; omega
  have hlow' : low c = c.toNat - 0x80 := by unfold low; omega
  have hlow'' : low d = d.toNat - 0x80 := by unfold low; omega
  obtain ⟨v, hv⟩ : ∃ v, v = (a.toNat - 0xF0) * 262144 + low b * 4096 + low c * 64 + low d :=
    ⟨_, rfl⟩
  rw [← hv]
  have hscalar : 0x10000 ≤ v ∧ v < 0x110000 := by
    split at hb <;> split at hb <;> omega
  simp only [String.utf8EncodeChar, val_ofNat (v := v) (by omega)]
  rw [if_neg (by omega), if_neg (by omega), if_neg (by omega), ofNat_of_toNat (a := a) (by omega),
    ofNat_of_toNat (a := b) (by omega), ofNat_of_toNat (a := c) (by omega),
    ofNat_of_toNat (a := d) (by omega)]

end

/-- What is read as a character are the bytes of that character. -/
theorem take_of_front {bytes : List UInt8} {c : Char} {w : Nat} (h : front bytes = .char c w) :
    bytes.take w = String.utf8EncodeChar c := by
  revert h
  fun_cases front bytes <;> intro h <;> cases h
  case case2 a r ha => exact (encodeChar_one (UInt8.lt_iff_toNat_lt.1 ha)).symm
  case case4 a _ ha b r hb =>
    simp only [Bool.and_eq_true, decide_eq_true_eq, UInt8.le_iff_toNat_le] at ha
    exact (encodeChar_two ha hb).symm
  case case9 a _ _ ha b hb c r hc =>
    simp only [Bool.and_eq_true, decide_eq_true_eq, UInt8.le_iff_toNat_le] at ha
    exact (encodeChar_three ha (by simpa using hb) hc).symm
  case case16 a _ _ _ ha b hb c hc d r hd =>
    simp only [Bool.and_eq_true, decide_eq_true_eq, UInt8.le_iff_toNat_le] at ha
    exact (encodeChar_four ha (by simpa using hb) (by simpa using hc) hd).symm

theorem eq_nil_of_front {bytes : List UInt8} (h : front bytes = .done) : bytes = [] := by
  revert h
  fun_cases front bytes <;> intro h <;> cases h
  rfl

theorem encode_of_decodeFrom {fuel index : Nat} {bytes : List UInt8} {s : List Char}
    (hfuel : bytes.length ≤ fuel) (h : decodeFrom fuel index bytes = .ok s) :
    encode s = bytes := by
  induction fuel generalizing index bytes s with
  | zero =>
    obtain rfl : s = [] := by simpa [decodeFrom] using h.symm
    exact (List.eq_nil_of_length_eq_zero (Nat.le_zero.1 hfuel)).symm
  | succ fuel ih =>
    simp only [decodeFrom] at h
    split at h
    · next hfront =>
      obtain rfl := Except.ok.inj h
      rw [eq_nil_of_front hfront]
      rfl
    · next c w hfront =>
      split at h
      · next cs hcs =>
        obtain rfl := Except.ok.inj h
        have htake := take_of_front hfront
        have hpos := length_encodeChar_pos c
        rw [← htake, List.length_take] at hpos
        rw [encode_cons, ih (by rw [List.length_drop]; omega) hcs, ← htake, List.take_append_drop]
      · cases h
    · cases h
    · cases h

/-- The bytes that are read as a text are those of the text. -/
theorem decode_eq_ok_iff {bytes : List UInt8} {s : List Char} :
    decode bytes = .ok s ↔ encode s = bytes :=
  ⟨encode_of_decodeFrom (Nat.le_refl _), fun h => h ▸ decode_encode s⟩

/-- Bytes have a fault just if they are the bytes of no text. -/
theorem exists_fault_iff {bytes : List UInt8} :
    (∃ e, decode bytes = .error e) ↔ ¬ bytes.toByteArray.IsValidUTF8 := by
  constructor
  · rintro ⟨e, he⟩ ⟨s, hs⟩
    have hbytes : encode s = bytes := by
      simpa [List.utf8Encode, encode] using congrArg (·.data.toList) hs.symm
    rw [decode_eq_ok_iff.2 hbytes] at he
    cases he
  · intro h
    cases hd : decode bytes with
    | error e => exact ⟨e, rfl⟩
    | ok s => exact absurd ⟨s, congrArg List.toByteArray (decode_eq_ok_iff.1 hd).symm⟩ h

/-! ## Newlines -/

theorem encode_append (s t : List Char) : encode (s ++ t) = encode s ++ encode t :=
  List.flatMap_append

/-- A byte below 128 is a character of its own. -/
theorem byte_of_encodeChar {c : Char} {b : UInt8} (h : b ∈ String.utf8EncodeChar c) :
    b.toNat = c.val.toNat ∨ 0x80 ≤ b.toNat := by
  unfold String.utf8EncodeChar at h
  generalize c.val.toNat = v at h ⊢
  simp only at h
  split at h
  · rw [List.mem_singleton.1 h, UInt8.toNat_ofNat']
    omega
  · right
    split at h
    · simp only [List.mem_cons, List.not_mem_nil, or_false] at h
      rcases h with rfl | rfl <;> rw [UInt8.toNat_ofNat'] <;> omega
    · split at h
      · simp only [List.mem_cons, List.not_mem_nil, or_false] at h
        rcases h with rfl | rfl | rfl <;> rw [UInt8.toNat_ofNat'] <;> omega
      · simp only [List.mem_cons, List.not_mem_nil, or_false] at h
        rcases h with rfl | rfl | rfl | rfl <;> rw [UInt8.toNat_ofNat'] <;> omega

theorem newline_not_mem_encodeChar {c : Char} (hc : c ≠ '\n') : 10 ∉ String.utf8EncodeChar c := by
  intro h
  rcases byte_of_encodeChar h with h | h
  · exact hc (Char.toNat_inj.1 h.symm)
  · exact absurd h (by decide)

/-- The newlines of a text are those of its bytes. -/
theorem count_encode (s : List Char) : (encode s).count 10 = s.count '\n' := by
  induction s with
  | nil => rfl
  | cons c s ih =>
    rw [encode_cons, List.count_append, ih]
    by_cases hc : c = '\n'
    · subst hc
      rw [List.count_cons_self, Nat.add_comm]
      rfl
    · rw [List.count_cons_of_ne hc, List.count_eq_zero.2 (newline_not_mem_encodeChar hc),
        Nat.zero_add]

theorem newline_not_mem_encode {t : List Char} (h : '\n' ∉ t) : 10 ∉ encode t := by
  rw [← List.count_eq_zero, count_encode]
  exact List.count_eq_zero.2 h

end DocScope.Text.Utf8
