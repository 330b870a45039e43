import DocScope.Analysis.LineScan
import DocScope.Proofs.Text.Lines
import DocScope.Proofs.Text.Utf8
import Mathlib.Algebra.Ring.Nat
import Mathlib.Data.List.TakeWhile

/-!
# Positions and offsets

The line of a byte offset is found by counting newlines, its column by looking back for the last
one. The two belong together: behind a newline the lines go on to be counted and the columns start
anew (`ofOffset_newline`), and before the first one the column is the offset (`ofOffset_first`).

* `Position.offsetIn`, `Position.offsetIn_ofOffset`: so the offset can be computed from the position,
  also where it falls inside a character;
* `Position.before_ofOffset`: hence positions are in the order of their offsets;
* `Position.line_ofOffset`: between two characters the lines can as well be counted in the text.
-/

namespace DocScope

open Text.Utf8

namespace LineScan

theorem length_encode (s : List Char) : (encode s).length = byteLength s := by
  induction s with
  | nil => rfl
  | cons c s ih =>
    rw [encode_cons, List.length_append, String.length_utf8EncodeChar, ih]
    rfl

theorem byteLength_append (s t : List Char) :
    byteLength (s ++ t) = byteLength s + byteLength t := by
  rw [← length_encode, encode_append, List.length_append, length_encode, length_encode]

theorem byteLength_cons_pos (c : Char) (s : List Char) : 0 < byteLength (c :: s) :=
  Nat.add_pos_left c.utf8Size_pos _

/-- There is one place in a text at an offset. -/
theorem eq_of_byteLength {s t text : List Char} (hs : s <+: text) (ht : t <+: text)
    (h : byteLength s = byteLength t) : s = t := by
  have hfront : ∀ {u v : List Char}, u <+: v → byteLength u = byteLength v → u = v := by
    rintro u _ ⟨x, rfl⟩ huv
    rw [byteLength_append] at huv
    cases x with
    | nil => exact (List.append_nil u).symm
    | cons c x =>
      have hpos := byteLength_cons_pos c x
      omega
  rcases List.prefix_or_prefix_of_prefix hs ht with hst | hts
  · exact hfront hst h
  · exact (hfront hts h.symm).symm

end LineScan

namespace Position

/-! ## Positions in bytes -/

section
variable {a : List UInt8}

theorem lineAfter_of_not_mem (h : 10 ∉ a) : lineAfter a = 1 := by
  rw [lineAfter, List.count_eq_zero.2 h]

theorem columnAfter_of_not_mem (h : 10 ∉ a) : columnAfter a = a.length + 1 := by
  have hall : ∀ x ∈ a.reverse, (x != 10) = true := by
    intro x hx
    rw [bne_iff_ne]
    rintro rfl
    exact h (List.mem_reverse.1 hx)
  rw [columnAfter, List.takeWhile_eq_self_iff.2 hall, List.length_reverse]

theorem lineAfter_newline (h : 10 ∉ a) (b : List UInt8) :
    lineAfter (a ++ 10 :: b) = lineAfter b + 1 := by
  rw [lineAfter, lineAfter, List.count_append, List.count_eq_zero.2 h, List.count_cons_self]
  omega

theorem columnAfter_newline (a b : List UInt8) :
    columnAfter (a ++ 10 :: b) = columnAfter b := by
  rw [columnAfter, columnAfter, List.reverse_append, List.reverse_cons, List.append_assoc,
    List.takeWhile_append]
  split
  · next hall =>
    rw [(List.takeWhile_prefix _).eq_of_length hall]
    simp
  · rfl

/-- On the first line the column is the offset. -/
theorem ofOffset_first {i : Nat} (h : 10 ∉ a.take i) :
    ofOffset a i = ⟨1, min i a.length + 1⟩ := by
  rw [ofOffset, lineAfter_of_not_mem h, columnAfter_of_not_mem h, List.length_take]

/-- Behind the first line the position is the one in the rest, one line further down. -/
theorem ofOffset_newline (h : 10 ∉ a) (b : List UInt8) (i : Nat) :
    ofOffset (a ++ 10 :: b) (a.length + (i + 1)) =
      ⟨(ofOffset b i).line + 1, (ofOffset b i).column⟩ := by
  have htake : (a ++ 10 :: b).take (a.length + (i + 1)) = a ++ 10 :: b.take i := by
    rw [List.take_length_add_append, List.take_succ_cons]
  simp only [ofOffset, htake, lineAfter_newline h, columnAfter_newline]

end

theorem line_mono (source : List UInt8) {i j : Nat} (h : i ≤ j) :
    (ofOffset source i).line ≤ (ofOffset source j).line :=
  Nat.succ_le_succ ((List.take_sublist_take_left h).count_le 10)

/-! ## Positions in a text -/

/-- The byte offset of a position of a text: the bytes of the lines before its line, and of the
columns before its column. -/
def offsetIn (text : List Char) (p : Position) : Nat :=
  (((Text.splitInclusive text).take (p.line - 1)).map LineScan.byteLength).sum + (p.column - 1)

/-- **A position determines its offset**, or the end of the source if the offset is past it. -/
theorem offsetIn_ofOffset (text : List Char) (i : Nat) :
    (ofOffset (encode text) i).offsetIn text = min i (encode text).length := by
  induction text using Text.lineInduction generalizing i with
  | last t ht =>
    have hi : 10 ∉ (encode t).take i :=
      fun hm => newline_not_mem_encode ht (List.mem_of_mem_take hm)
    rw [ofOffset_first hi, offsetIn]
    simp
  | line t rest ht ih =>
    have hbytes : encode (t ++ '\n' :: rest) = encode t ++ 10 :: encode rest := by
      rw [encode_append, encode_cons]
      rfl
    have ht' := newline_not_mem_encode ht
    rw [hbytes, List.length_append, List.length_cons]
    rcases Nat.lt_or_ge (encode t).length i with hi | hi
    · -- the offset is behind the first line
      obtain ⟨j, rfl⟩ : ∃ j, i = (encode t).length + (j + 1) :=
        ⟨i - (encode t).length - 1, by omega⟩
      have hj := ih j
      have hpos : 0 < (ofOffset (encode rest) j).line := Nat.succ_pos _
      have hend : LineScan.byteLength ['\n'] = 1 := rfl
      rw [offsetIn] at hj
      rw [ofOffset_newline ht', offsetIn, Text.splitInclusive_line ht]
      dsimp only
      rw [Nat.add_sub_cancel, List.take_cons hpos, List.map_cons, List.sum_cons,
        LineScan.byteLength_append, ← LineScan.length_encode t]
      omega
    · have hfirst : 10 ∉ (encode t ++ 10 :: encode rest).take i := by
        rw [List.take_append_of_le_length hi]
        exact fun hm => ht' (List.mem_of_mem_take hm)
      rw [ofOffset_first hfirst, offsetIn]
      simp only [Nat.sub_self, List.take_zero, List.map_nil, List.sum_nil, List.length_append,
        List.length_cons]
      omega

/-- Positions in the order of reading: by lines, and by columns in a line. -/
def Before (p q : Position) : Prop := p.line < q.line ∨ p.line = q.line ∧ p.column < q.column

instance (p q : Position) : Decidable (p.Before q) := inferInstanceAs (Decidable (_ ∨ _))

/-- Positions are in the order of their offsets: on one line, the columns are what tells the offsets
apart. -/
theorem before_ofOffset (text : List Char) {i j : Nat} (hij : i < j)
    (hj : j ≤ (encode text).length) :
    (ofOffset (encode text) i).Before (ofOffset (encode text) j) := by
  rcases Nat.lt_or_eq_of_le (line_mono (encode text) (Nat.le_of_lt hij)) with hline | hline
  · exact .inl hline
  · have hi := offsetIn_ofOffset text i
    have hj' := offsetIn_ofOffset text j
    rw [offsetIn, hline] at hi
    rw [offsetIn] at hj'
    exact .inr ⟨hline, by omega⟩

/-- The line of a place between two characters, counted in the text. -/
theorem line_ofOffset (before after : List Char) :
    (ofOffset (encode (before ++ after)) (LineScan.byteLength before)).line =
      LineScan.lineAfter before := by
  have htake : (encode (before ++ after)).take (LineScan.byteLength before) = encode before := by
    rw [encode_append, ← LineScan.length_encode, List.take_left]
  rw [ofOffset, htake, lineAfter, count_encode]
  rfl

end Position

namespace Span

/-- **Line and column determine the offset.** In the span between two offsets of a text, the line
and the column of the first one are at least 1, and the bytes of the lines before the line together
with those of the columns before the column are as many as the offset says, or as there are. Hence
positions are strictly in the order of their offsets, up to the end of the text; and at every place
between two characters the line is the one that is counted in the text before it. -/
theorem ofOffsets_start_determines (text : List Char) (stop : Nat) :
    let start (i : Nat) : Position := (ofOffsets (encode text) i stop).start
    (∀ i, 1 ≤ (start i).line ∧ 1 ≤ (start i).column ∧
      (((Text.splitInclusive text).take ((start i).line - 1)).map LineScan.byteLength).sum +
        ((start i).column - 1) = min i (encode text).length) ∧
    (∀ i j, i < j → j ≤ (encode text).length → (start i).Before (start j)) ∧
    ∀ k, (start (LineScan.byteLength (text.take k))).line = LineScan.lineAfter (text.take k) := by
  intro start
  refine ⟨fun i => ⟨Nat.succ_pos _, Nat.succ_pos _, Position.offsetIn_ofOffset text i⟩,
    fun i j hij hj => Position.before_ofOffset text hij hj, fun k => ?_⟩
  have hline := Position.line_ofOffset (text.take k) (text.drop k)
  rwa [List.take_append_drop] at hline

/-- An offset inside a character, and one on the next line. -/
theorem ofOffsets_start_determines_inside :
    let source := bytesOf "é\nab"
    1 < 4 ∧ 4 ≤ source.length ∧
      (ofOffsets source 1 5).start.Before (ofOffsets source 4 5).start ∧
      (ofOffsets source 1 5).start = ⟨1, 2⟩ ∧ (ofOffsets source 4 5).start = ⟨2, 2⟩ := by
  intro source
  have hlt : 4 ≤ source.length := by decide
  refine ⟨by decide, hlt, ?_, by decide, by decide⟩
  exact (ofOffsets_start_determines "é\nab".toList 5).2.1 1 4 (by decide) hlt

end Span

end DocScope
