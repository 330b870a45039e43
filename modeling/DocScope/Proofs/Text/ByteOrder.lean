import DocScope.Proofs.Text.Utf8

/-!
# The order of bytes

Texts are ordered by their characters. This is the order of their bytes: a smaller character has
smaller bytes (`encodeChar_lt`), and so, by induction over the common start, has a smaller text
(`encode_lt`, `bytesOf_lt`).
-/

namespace DocScope.Text.Utf8

theorem byte_lt {m n : Nat} (hm : m < 256) (hn : n < 256) :
    UInt8.ofNat m < UInt8.ofNat n ↔ m < n := by
  rw [UInt8.lt_iff_toNat_lt, toNat_byte hm, toNat_byte hn]

theorem byte_inj {m n : Nat} (hm : m < 256) (hn : n < 256) :
    UInt8.ofNat m = UInt8.ofNat n ↔ m = n := by
  rw [← UInt8.toNat_inj, toNat_byte hm, toNat_byte hn]

/-- Of two numbers to base 64, the smaller one is so without its last digit, or in it. -/
theorem digits_lt {v w : Nat} (h : v < w) :
    v / 64 < w / 64 ∨ v / 64 = w / 64 ∧ v % 64 < w % 64 := by omega

/-- The bytes of a smaller character are smaller, whatever follows. -/
theorem encodeChar_lt {c d : Char} (h : c < d) (s t : List UInt8) :
    String.utf8EncodeChar c ++ s < String.utf8EncodeChar d ++ t := by
  have hlt : c.val.toNat < d.val.toNat := h
  have hd := toNat_bounds d
  unfold String.utf8EncodeChar
  generalize c.val.toNat = v at hlt ⊢
  generalize d.val.toNat = w at hlt hd ⊢
  simp only
  -- the digit in which the characters differ first
  have hdigits : v / 262144 < w / 262144 ∨ v / 262144 = w / 262144 ∧
      (v / 4096 % 64 < w / 4096 % 64 ∨ v / 4096 % 64 = w / 4096 % 64 ∧
        (v / 64 % 64 < w / 64 % 64 ∨ v / 64 % 64 = w / 64 % 64 ∧ v % 64 < w % 64)) := by
    have hdiv : ∀ n : Nat, n / 4096 = n / 64 / 64 ∧ n / 262144 = n / 64 / 64 / 64 := by omega
    rw [(hdiv v).1, (hdiv v).2, (hdiv w).1, (hdiv w).2]
    rcases digits_lt hlt with h | ⟨h, h₄⟩
    · rcases digits_lt h with h | ⟨h, h₃⟩
      · rcases digits_lt h with h | ⟨h, h₂⟩
        · exact .inl h
        · exact .inr ⟨h, .inl h₂⟩
      · exact .inr ⟨congrArg (· / 64) h, .inr ⟨congrArg (· % 64) h, .inl h₃⟩⟩
    · exact .inr ⟨congrArg (· / 64 / 64) h, .inr ⟨congrArg (· / 64 % 64) h,
        .inr ⟨congrArg (· % 64) h, h₄⟩⟩⟩
  have hv : v / 262144 % 8 = v / 262144 := by omega
  have hw : w / 262144 % 8 = w / 262144 := by omega
  -- a longer character has a larger first byte
  repeat' split
  all_goals
    simp (disch := omega) only [List.cons_append, List.cons_lt_cons_iff, byte_lt, byte_inj, hv, hw]
    omega

/-- **The order of texts is that of their bytes.** -/
theorem encode_lt {a b : List Char} (h : a < b) : encode a < encode b := by
  induction List.lex_lt.2 h with
  | @nil c s =>
    obtain ⟨byte, bytes, hbytes⟩ := List.exists_cons_of_length_pos (length_encodeChar_pos c)
    rw [encode_cons, hbytes]
    exact List.nil_lt_cons _ _
  | rel hcd =>
    rw [encode_cons, encode_cons]
    exact encodeChar_lt hcd _ _
  | cons hst ih =>
    rw [encode_cons, encode_cons]
    exact List.append_left_lt (ih (List.lex_lt.1 hst))

theorem bytesOf_lt {a b : String} (h : a < b) : bytesOf a < bytesOf b := encode_lt h

end DocScope.Text.Utf8
