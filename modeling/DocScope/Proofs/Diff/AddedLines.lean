import DocScope.Proofs.Diff.Header
import DocScope.Proofs.Text.Lines
import Mathlib.Data.Set.Card

/-!
# The lines that a diff adds

A text announces the ranges of the headers among its lines (`Announces`).

* `read?_line`: the end of a line has no part in its header, since a header ends with an at sign.
* `ofDiff_append`: so two texts, one below the other, announce what each of them announces.
* `ofDiff?_lines`: for any text, reading succeeds just if the end of every range is a line number,
  and then it gives the set of the lines of all ranges.
-/

namespace DocScope

namespace HunkRange

/-- A line of the text is a header with this range. -/
def Announces (diff : String) (range : HunkRange) : Prop :=
  ∃ l ∈ Text.lines diff.toList, parse? (.ofList l) = some range

theorem parse?_ofList (l : List Char) : parse? (.ofList l) = read? l := by
  rw [parse?, String.toList_ofList]

/-! ## The end of a line -/

theorem headerText_append (old ds t rest rest' : String) :
    headerText old ds t rest ++ rest' = headerText old ds t (rest ++ rest') := by
  simp [headerText, String.append_assoc]

theorem getLast?_headerText (old ds t : String) :
    (headerText old ds t "").toList.getLast? = some '@' := by
  have hend : " @@".toList.getLast? = some '@' := rfl
  rw [headerText, String.append_empty, String.toList_append, List.getLast?_append, hend]
  rfl

theorem read?_concat_return (l : List Char) : read? (l ++ ['\r']) = read? l := by
  refine Option.ext fun range => ?_
  rw [← parse?_ofList, ← parse?_ofList, String.ofList_append]
  constructor
  · intro h
    obtain ⟨old, ds, t, rest, hl, hold, hds, ht⟩ := exists_headerText h
    have hlist := congrArg String.toList hl
    rw [← String.empty_append (s := rest), ← headerText_append, String.toList_append,
      String.toList_append, String.toList_ofList, String.toList_ofList] at hlist
    rcases List.eq_nil_or_concat rest.toList with hrest | ⟨init, c, hrest⟩
    · -- the header would end with the carriage return
      rw [hrest, List.append_nil] at hlist
      have hlast := getLast?_headerText old ds t
      rw [← hlist] at hlast
      simp at hlast
    · rw [hrest, List.concat_eq_append, ← List.append_assoc] at hlist
      have hinit := (List.append_inj' hlist rfl).1
      rw [hinit, String.ofList_append, String.ofList_toList, headerText_append]
      exact parse?_headerText hold hds ht
  · intro h
    obtain ⟨old, ds, t, rest, hl, hold, hds, ht⟩ := exists_headerText h
    rw [hl, headerText_append]
    exact parse?_headerText hold hds ht

theorem read?_line (t : List Char) : read? (Text.chomp (t ++ ['\n'])) = read? t := by
  rw [Text.chomp_line]
  cases hs : Text.stripEnd? ['\r'] t with
  | none => rfl
  | some u =>
    have hu : u ++ ['\r'] = t := List.isSuffixOf?_eq_some_iff_append_eq.1 hs
    rw [← hu, read?_concat_return]
    rfl

/-! ## Ranges -/

/-- Only headers start as headers do, so looking at the start of a line first changes nothing. -/
theorem announced?_eq (l : List Char) : announced? l = read? l := by
  unfold announced?
  split
  · rfl
  · next h =>
    cases hread : read? l with
    | none => rfl
    | some range =>
      obtain ⟨old, new, -, -, -, rfl, -⟩ := read?_eq_some_iff.1 hread
      exact absurd rfl h

theorem ofDiff_eq_filterMap (diff : List Char) :
    ofDiff diff = (Text.lines diff).filterMap read? := by
  rw [ofDiff_eq]
  exact List.filterMap_congr fun l _ => announced?_eq l

theorem mem_ofDiff {diff : String} {range : HunkRange} :
    range ∈ ofDiff diff.toList ↔ Announces diff range := by
  rw [ofDiff_eq_filterMap, List.mem_filterMap]
  simp only [Announces, parse?_ofList]

theorem ofDiff_line {t : List Char} (ht : OneLine t) (rest : List Char) :
    ofDiff (t ++ '\n' :: rest) = (read? t).toList ++ ofDiff rest := by
  rw [ofDiff_eq_filterMap, ofDiff_eq_filterMap, Text.lines_line ht, List.filterMap_cons, read?_line]
  cases read? t <;> rfl

theorem ofDiff_last {t : List Char} (ht : OneLine t) : ofDiff t = (read? t).toList := by
  rw [ofDiff_eq_filterMap]
  by_cases hne : t = []
  · subst hne
    rfl
  · rw [Text.lines_last ht hne, List.filterMap_cons]
    cases read? t <;> rfl

/-- **Texts one below the other**: the ranges of the first, then those of the second. -/
theorem ofDiff_append (a b : List Char) : ofDiff (a ++ '\n' :: b) = ofDiff a ++ ofDiff b := by
  induction a using Text.lineInduction with
  | last t ht => rw [ofDiff_line ht, ofDiff_last ht]
  | line t a ht ih =>
    rw [List.append_assoc, List.cons_append, ofDiff_line ht, ih, ofDiff_line ht,
      List.append_assoc]

end HunkRange

namespace AddedLines

open HunkRange (Announces mem_ofDiff)

/-- The lines of the ranges that a text announces. -/
def announcedLines (diff : String) : Set Nat :=
  {n | ∃ range, Announces diff range ∧ range.start ≤ n ∧ n < range.start + range.count}

theorem mem_announcedLines {diff : String} {n : Nat} :
    n ∈ announcedLines diff ↔ ∃ range ∈ HunkRange.ofDiff diff.toList,
      range.start ≤ n ∧ n < range.start + range.count := by
  simp only [announcedLines, Set.mem_ofPred_eq, mem_ofDiff]

theorem ofDiff?_isSome_iff {diff : String} :
    (ofDiff? diff).isSome = true ↔
      ∀ range, Announces diff range → range.start + range.count < 2 ^ 64 := by
  constructor
  · intro h range hr
    unfold ofDiff? at h
    simp only [Option.isSome_ite', Bool.not_eq_true, List.any_eq_false] at h
    exact Nat.lt_of_not_le (of_decide_eq_false (h range (mem_ofDiff.2 hr)))
  · intro h
    obtain ⟨s, hs, -⟩ := ofDiff?_spec fun range hr => h range (mem_ofDiff.1 hr)
    rw [hs]
    rfl

theorem ofDiff?_some {diff : String} {s : AddedLines} (h : ofDiff? diff = some s) :
    (∀ n, s.contains n = true ↔ n ∈ announcedLines diff) ∧ s.lines.Pairwise (· < ·) := by
  have hsmall := ofDiff?_isSome_iff.1 (Option.isSome_of_eq_some h)
  obtain ⟨t, ht, hmem, hsorted⟩ :=
    ofDiff?_spec fun range hr => hsmall range (mem_ofDiff.1 hr)
  obtain rfl : t = s := Option.some.inj (ht.symm.trans h)
  exact ⟨fun n => (hmem n).trans mem_announcedLines.symm, hsorted⟩

/-- A set has as many lines as it contains. -/
theorem encard_contains {s : AddedLines} (h : s.lines.Pairwise (· < ·)) :
    {n | s.contains n = true}.encard = s.size := by
  have hnodup : s.lines.Nodup := h.imp fun hlt => Nat.ne_of_lt hlt
  have hset : {n | s.contains n = true} = (s.lines.toFinset : Set Nat) := by
    ext n
    simp [contains]
  rw [hset, Set.encard_coe_eq_coe_finsetCard, List.toFinset_card_of_nodup hnodup]
  rfl

theorem announces_append {a b : String} {range : HunkRange} :
    Announces (a ++ "\n" ++ b) range ↔ Announces a range ∨ Announces b range := by
  have hlist : (a ++ "\n" ++ b).toList = a.toList ++ '\n' :: b.toList := by
    simp [String.toList_append]
  rw [← mem_ofDiff, hlist, HunkRange.ofDiff_append, List.mem_append, mem_ofDiff, mem_ofDiff]

/-- **The lines that a text adds.** Reading succeeds just if no range of a header goes beyond the line
numbers. Then it gives the lines of these ranges, ascending and each once, and texts that can be
read give the union of their lines when one is put below the other. -/
theorem ofDiff?_lines (diff : String) :
    ((ofDiff? diff).isSome = true ↔
      ∀ range, Announces diff range → range.start + range.count < 2 ^ 64) ∧
    ∀ s, ofDiff? diff = some s →
      (∀ n, s.contains n = true ↔ n ∈ announcedLines diff) ∧
      (announcedLines diff).encard = s.size ∧ s.lines.Pairwise (· < ·) ∧
      ∀ diff' s', ofDiff? diff' = some s' → ∃ t, ofDiff? (diff ++ "\n" ++ diff') = some t ∧
        t.lines.Pairwise (· < ·) ∧
        ∀ n, t.contains n = true ↔ s.contains n = true ∨ s'.contains n = true := by
  refine ⟨ofDiff?_isSome_iff, fun s hs => ?_⟩
  obtain ⟨hmem, hsorted⟩ := ofDiff?_some hs
  refine ⟨hmem, ?_, hsorted, fun diff' s' hs' => ?_⟩
  · rw [← encard_contains hsorted]
    exact congrArg Set.encard (Set.ext fun n => (hmem n).symm)
  · obtain ⟨hmem', -⟩ := ofDiff?_some hs'
    have hsmall := ofDiff?_isSome_iff.1 (Option.isSome_of_eq_some hs)
    have hsmall' := ofDiff?_isSome_iff.1 (Option.isSome_of_eq_some hs')
    obtain ⟨t, ht⟩ := Option.isSome_iff_exists.1 (ofDiff?_isSome_iff.2 fun range hr =>
      (announces_append.1 hr).elim (hsmall range) (hsmall' range))
    obtain ⟨htmem, htsorted⟩ := ofDiff?_some ht
    refine ⟨t, ht, htsorted, fun n => ?_⟩
    rw [htmem, hmem, hmem']
    simp only [announcedLines, announces_append, or_and_right, exists_or, Set.mem_ofPred_eq]

/-- Ranges that overlap, an empty one at the largest number and a line that only holds a header, with
another text below; and a range of one line that ends beyond the largest number. -/
theorem ofDiff?_lines_overlapping :
    (∃ t, ofDiff? ("@@ -1 +3,2 @@\r\n@@ -9 +18446744073709551615,0 @@\nx @@ -1 +90 @@" ++ "\n" ++
        "@@ -5 +4,2 @@ f\r") = some t ∧
      t.contains 4 = true ∧ t.contains 5 = true ∧ t.contains 90 = false) ∧
      ofDiff? "@@ -1 +18446744073709551615 @@" = none := by
  constructor
  · obtain ⟨s, hs⟩ := Option.isSome_iff_exists.1 (show (ofDiff?
      "@@ -1 +3,2 @@\r\n@@ -9 +18446744073709551615,0 @@\nx @@ -1 +90 @@").isSome = true by
        decide +kernel)
    obtain ⟨s', hs'⟩ := Option.isSome_iff_exists.1 (show (ofDiff? "@@ -5 +4,2 @@ f\r").isSome = true by
      decide +kernel)
    obtain ⟨hmem, -, -, hunion⟩ := (ofDiff?_lines _).2 s hs
    obtain ⟨hmem', -⟩ := (ofDiff?_lines _).2 s' hs'
    obtain ⟨t, ht, -, hmem''⟩ := hunion _ s' hs'
    refine ⟨t, ht, ?_, ?_, ?_⟩
    · rw [hmem'', hmem, mem_announcedLines]
      exact .inl (by decide +kernel)
    · rw [hmem'', hmem', mem_announcedLines]
      exact .inr (by decide +kernel)
    · rw [← Bool.not_eq_true, hmem'', hmem, hmem', mem_announcedLines, mem_announcedLines]
      decide +kernel
  · have hrange : Announces "@@ -1 +18446744073709551615 @@" ⟨18446744073709551615, 1⟩ :=
      ⟨"@@ -1 +18446744073709551615 @@".toList, by decide +kernel, by decide +kernel⟩
    rw [← Option.not_isSome_iff_eq_none, (ofDiff?_lines _).1]
    intro h
    exact absurd (h _ hrange) (by decide)

end AddedLines

end DocScope
