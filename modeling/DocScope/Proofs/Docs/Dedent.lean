import DocScope.Docs.DocComment
import DocScope.Proofs.Text.Lines
import DocScope.Proofs.Text.Trim
import Mathlib.Order.Lattice.Nat

/-!
# Lines without their common indentation

An example is dedented in three steps: the least indentation is looked for, every line loses up to
that many blanks, and the text that the lines make up loses the newlines at its ends.

* `commonIndent_eq_sInf`: the indentation is the least one of the lines that are not blank;
* `Shifted`, `shifted_stripIndent`: so a line that is not blank has enough blanks to lose;
* `exists_newlines_dedent`, `mem_lines_dedent`: the lines of the result are the shifted ones, but
  for empty lines at the ends;
* `exists_flush`: a line of the least indentation is left with none, so the lines of the result have
  no indentation in common (`commonIndent_lines_dedent`);
* `dedent_splitOn`: and then there is nothing more to lose;
* `dedent_uniform`: dedenting is a uniform shift.
-/

namespace DocScope.DocComment

/-! ## The least indentation -/

/-- The indentations of the lines that are not blank. -/
def indents (ls : List (List Char)) : Set Nat :=
  {n | ∃ l ∈ ls, Text.allBlank l = false ∧ indentOf l = n}

theorem isLeast_least {ns : List Nat} (h : ns ≠ []) : IsLeast {n | n ∈ ns} (least ns) := by
  fun_induction least ns with
  | case1 => exact absurd rfl h
  | case2 n => simp [IsLeast, lowerBounds]
  | case3 n ns hns ih =>
    obtain ⟨hmem, hle⟩ := ih (by simpa using hns)
    refine ⟨?_, fun k hk => ?_⟩
    · rcases Nat.le_total n (least ns) with hn | hn
      · simp [Nat.min_eq_left hn]
      · rw [Nat.min_eq_right hn]
        exact List.mem_cons_of_mem _ hmem
    · rcases List.mem_cons.1 hk with rfl | hk
      · exact Nat.min_le_left _ _
      · exact Nat.le_trans (Nat.min_le_right _ _) (hle hk)

theorem commonIndent_eq_sInf (ls : List (List Char)) : commonIndent ls = sInf (indents ls) := by
  have hset : indents ls = {n | n ∈ (ls.filter (!Text.allBlank ·)).map indentOf} := by
    ext n
    simp [indents, and_assoc]
  rw [hset, commonIndent]
  by_cases h : (ls.filter (!Text.allBlank ·)).map indentOf = []
  · rw [h]
    simp [least]
  · exact (isLeast_least h).csInf_eq.symm

section
variable {ls : List (List Char)}

theorem commonIndent_le {l : List Char} (hl : l ∈ ls) (h : Text.allBlank l = false) :
    commonIndent ls ≤ indentOf l := by
  rw [commonIndent_eq_sInf]
  exact Nat.sInf_le ⟨l, hl, h, rfl⟩

theorem exists_indentOf_eq (h : ∃ l ∈ ls, Text.allBlank l = false) :
    ∃ l ∈ ls, Text.allBlank l = false ∧ indentOf l = commonIndent ls := by
  obtain ⟨l, hl, hb⟩ := h
  have hne : (indents ls).Nonempty := ⟨indentOf l, l, hl, hb, rfl⟩
  rw [commonIndent_eq_sInf]
  exact Nat.sInf_mem hne

theorem commonIndent_of_flush {l : List Char} (hl : l ∈ ls) (hb : Text.allBlank l = false)
    (hi : indentOf l = 0) : commonIndent ls = 0 := by
  have hle := commonIndent_le hl hb
  omega

theorem commonIndent_of_blank (h : ∀ l ∈ ls, Text.allBlank l = true) : commonIndent ls = 0 := by
  have hempty : indents ls = ∅ := by
    ext n
    simp +contextual [indents, h]
  rw [commonIndent_eq_sInf, hempty, Nat.sInf_empty]

end

/-! ## What a line loses -/

/-- `rest` is the line `l`, shifted to the left by `m`: it has lost `m` blanks in front, and a blank
line that has fewer has lost all of them. -/
def Shifted (m : Nat) (l rest : List Char) : Prop :=
  ∃ lost, l = lost ++ rest ∧ (∀ c ∈ lost, Text.isBlank c) ∧
    lost.length = if Text.allBlank l then min m l.length else m

theorem indentOf_cons (c : Char) (r : List Char) :
    indentOf (c :: r) = if Text.isBlank c then indentOf r + 1 else 0 := by
  unfold indentOf
  rw [List.takeWhile_cons]
  split <;> rfl

theorem indentOf_of_allBlank {l : List Char} (h : Text.allBlank l) : indentOf l = l.length := by
  rw [indentOf, List.takeWhile_eq_self_iff.2 (List.all_eq_true.1 h)]

theorem exists_stripIndent (n : Nat) (l : List Char) : ∃ lost, l = lost ++ stripIndent n l ∧
    (∀ c ∈ lost, Text.isBlank c) ∧ lost.length = min n (indentOf l) := by
  fun_induction stripIndent n l with
  | case1 l => exact ⟨[], by simp⟩
  | case2 n => exact ⟨[], by simp [indentOf]⟩
  | case3 n c r hc ih =>
    obtain ⟨lost, hl, hblank, hlen⟩ := ih
    refine ⟨c :: lost, by rw [List.cons_append, ← hl], by simpa [hc] using hblank, ?_⟩
    rw [List.length_cons, hlen, indentOf_cons, if_pos hc]
    omega
  | case4 n c r hc => exact ⟨[], by simp [indentOf_cons, hc]⟩

theorem stripIndent_suffix (n : Nat) (l : List Char) : stripIndent n l <:+ l := by
  obtain ⟨lost, hl, -⟩ := exists_stripIndent n l
  exact ⟨lost, hl.symm⟩

theorem shifted_stripIndent {m : Nat} {l : List Char}
    (h : Text.allBlank l = false → m ≤ indentOf l) : Shifted m l (stripIndent m l) := by
  obtain ⟨lost, hl, hblank, hlen⟩ := exists_stripIndent m l
  refine ⟨lost, hl, hblank, ?_⟩
  rw [hlen]
  split
  · next hb => rw [indentOf_of_allBlank hb]
  · next hb => exact Nat.min_eq_left (h (by simpa using hb))

/-- A line that loses its whole indentation starts with its first character that is not blank. -/
theorem exists_stripIndent_indentOf {l : List Char} (h : Text.allBlank l = false) :
    ∃ c r, stripIndent (indentOf l) l = c :: r ∧ Text.isBlank c = false := by
  induction l with
  | nil => cases h
  | cons c r ih =>
    rw [indentOf_cons]
    by_cases hc : Text.isBlank c = true
    · have hr : Text.allBlank r = false := by simpa [Text.allBlank, hc] using h
      simpa only [hc, ↓reduceIte, stripIndent] using ih hr
    · exact ⟨c, r, by simp [hc, stripIndent], by simpa using hc⟩

/-! ## The ends of the text -/

section
variable (ls : List (List Char))

theorem exists_newlines_dedent : ∃ a b,
    Text.joinLines (ls.map (stripIndent (commonIndent ls))) =
      List.replicate a '\n' ++ dedent ls ++ List.replicate b '\n' :=
  Text.exists_replicate_between '\n' _

theorem head?_dedent : (dedent ls).head? ≠ some '\n' := by
  intro h
  simpa using Text.head?_dropEnd_dropWhile h

theorem getLast?_dedent : (dedent ls).getLast? ≠ some '\n' := by
  intro h
  simpa using Text.getLast?_dropEnd h

theorem dedent_sublist : (dedent ls).Sublist (Text.joinLines ls) := by
  have hends : dedent ls <+: _ := Text.dropEnd_prefix _ _
  have hlines := Text.joinLines_map_sublist
    (fun l => (stripIndent_suffix (commonIndent ls) l).sublist) ls
  exact (hends.sublist.trans (List.dropWhile_sublist _)).trans hlines

end

/-! ## The lines of the result -/

/-- Only empty lines are lost at the ends. -/
theorem mem_lines_dedent {ls : List (List Char)} {l p : List Char} (hl : l ∈ ls)
    (hp : p ∈ (stripIndent (commonIndent ls) l).splitOn '\n') (hne : p ≠ []) :
    p ∈ (dedent ls).splitOn '\n' := by
  obtain ⟨a, b, hab⟩ := exists_newlines_dedent ls
  have hsplit := congrArg (List.splitOn '\n') hab
  rw [Text.splitOn_joinLines (by simpa using List.ne_nil_of_mem hl), Text.splitOn_newlines] at hsplit
  have hmem : p ∈ (ls.map (stripIndent (commonIndent ls))).flatMap (·.splitOn '\n') :=
    List.mem_flatMap.2 ⟨_, List.mem_map_of_mem hl, hp⟩
  rw [hsplit] at hmem
  simpa [hne] using hmem

theorem exists_flush {ls : List (List Char)} (h : ∃ l ∈ ls, Text.allBlank l = false) :
    ∃ l ∈ (dedent ls).splitOn '\n', Text.allBlank l = false ∧ indentOf l = 0 := by
  obtain ⟨l, hl, hb, hi⟩ := exists_indentOf_eq h
  obtain ⟨c, r, hcr, hc⟩ := exists_stripIndent_indentOf hb
  have hnewline : (c == '\n') = false := by
    rw [beq_eq_false_iff_ne]
    rintro rfl
    revert hc
    decide
  -- of a line with newlines in it, the first piece is the one that starts at the margin
  obtain ⟨p, ps, hps⟩ := List.exists_cons_of_ne_nil (List.splitOn_ne_nil '\n' r)
  have hmem : c :: p ∈ (stripIndent (commonIndent ls) l).splitOn '\n' := by
    rw [← hi, hcr, List.splitOn_cons_eq_if_modifyHead, hps]
    simp [hnewline]
  refine ⟨c :: p, mem_lines_dedent hl hmem (List.cons_ne_nil _ _), ?_, ?_⟩
  · simp [Text.allBlank, hc]
  · simp [indentOf_cons, hc]

theorem allBlank_lines_dedent {ls : List (List Char)} (h : ∀ l ∈ ls, Text.allBlank l = true) :
    ∀ l ∈ (dedent ls).splitOn '\n', Text.allBlank l = true := by
  have hjoin : Text.allBlank (Text.joinLines ls) = true := by
    rw [Text.allBlank_joinLines, List.all_eq_true]
    exact h
  have hdedent : Text.allBlank (dedent ls) = true := by
    rw [Text.allBlank, List.all_eq_true] at hjoin ⊢
    exact fun c hc => hjoin c ((dedent_sublist ls).subset hc)
  have hlines : Text.joinLines ((dedent ls).splitOn '\n') = dedent ls :=
    List.intercalate_splitOn '\n'
  rw [← hlines, Text.allBlank_joinLines, List.all_eq_true] at hdedent
  exact hdedent

theorem commonIndent_lines_dedent (ls : List (List Char)) :
    commonIndent ((dedent ls).splitOn '\n') = 0 := by
  by_cases h : ∃ l ∈ ls, Text.allBlank l = false
  · obtain ⟨l, hl, hb, hi⟩ := exists_flush h
    exact commonIndent_of_flush hl hb hi
  · apply commonIndent_of_blank
    apply allBlank_lines_dedent
    simpa using h

/-! ## Dedenting again -/

/-- A text without common indentation and without newlines at its ends is left as it is. -/
theorem dedent_splitOn {s : List Char} (hindent : commonIndent (s.splitOn '\n') = 0)
    (hhead : s.head? ≠ some '\n') (hlast : s.getLast? ≠ some '\n') :
    dedent (s.splitOn '\n') = s := by
  have hsame : (s.splitOn '\n').map (stripIndent 0) = s.splitOn '\n' :=
    List.map_id'' (fun l => by rw [stripIndent]) _
  have hjoin : Text.joinLines (s.splitOn '\n') = s := List.intercalate_splitOn '\n'
  rw [dedent, hindent, hsame, hjoin, Text.dropWhile_eq_of_head hhead,
    Text.dropEnd_eq_of_getLast hlast]

theorem dedent_splitOn_dedent (ls : List (List Char)) :
    dedent ((dedent ls).splitOn '\n') = dedent ls :=
  dedent_splitOn (commonIndent_lines_dedent ls) (head?_dedent ls) (getLast?_dedent ls)

/-- A carriage return before a newline is lost for good when the text is cut into lines. -/
theorem dedent_lines_dedent_iff (ls : List (List Char)) :
    dedent (Text.lines (dedent ls)) = dedent ls ↔ ¬ ['\r', '\n'] <:+: dedent ls := by
  by_cases hne : dedent ls = []
  · rw [hne]
    decide
  rw [← Text.lines_eq_splitOn_iff hne (getLast?_dedent ls)]
  constructor
  · intro h
    have hle : (dedent ls).Sublist (Text.joinLines (Text.lines (dedent ls))) := by
      have hlines := dedent_sublist (Text.lines (dedent ls))
      rwa [h] at hlines
    have hjoin : Text.joinLines (Text.lines (dedent ls)) = dedent ls :=
      (Text.joinLines_lines_sublist _).antisymm hle
    have hsplit := List.splitOn_intercalate '\n' (fun l hl => Text.newline_not_mem_lines hl)
      (mt Text.lines_eq_nil_iff.1 hne)
    rw [← hsplit]
    exact congrArg (List.splitOn '\n') hjoin
  · intro h
    rw [h, dedent_splitOn_dedent]

/-- **Dedenting is a uniform shift.** The common indentation is the least one of the lines that are
not blank, or 0 if there is no such line. The result, together with the newlines it has lost at its
ends, is made up of the lines shifted by this indentation, and no newline is left at an end. If some
line is not blank, then the result has one that starts with a character that is not blank. And
dedenting the lines of the result leaves it as it is; so it does if a carriage return before a
newline counts as part of the line's end, unless the result has one there. -/
theorem dedent_uniform (ls : List (List Char)) :
    commonIndent ls = sInf (indents ls) ∧
    (∃ shifted, List.Forall₂ (Shifted (commonIndent ls)) ls shifted ∧ ∃ a b,
      Text.joinLines shifted = List.replicate a '\n' ++ dedent ls ++ List.replicate b '\n') ∧
    (dedent ls).head? ≠ some '\n' ∧ (dedent ls).getLast? ≠ some '\n' ∧
    ((∃ l ∈ ls, Text.allBlank l = false) →
      ∃ l ∈ (dedent ls).splitOn '\n', Text.allBlank l = false ∧ indentOf l = 0) ∧
    dedent ((dedent ls).splitOn '\n') = dedent ls ∧
    (dedent (Text.lines (dedent ls)) = dedent ls ↔ ¬ ['\r', '\n'] <:+: dedent ls) := by
  have hshifted : List.Forall₂ (Shifted (commonIndent ls)) ls
      (ls.map (stripIndent (commonIndent ls))) := by
    rw [List.forall₂_map_right_iff, List.forall₂_same]
    exact fun l hl => shifted_stripIndent (commonIndent_le hl)
  exact ⟨commonIndent_eq_sInf ls, ⟨_, hshifted, exists_newlines_dedent ls⟩, head?_dedent ls,
    getLast?_dedent ls, exists_flush, dedent_splitOn_dedent ls, dedent_lines_dedent_iff ls⟩

/-- Two kinds of wide blanks, blank lines with fewer and with more blanks, and empty lines at the
ends. -/
theorem dedent_uniform_wide_blanks :
    let ls := ["", "\u3000\u3000if x", " ", "  \u00a0\u3000y", "   ", ""].map String.toList
    (∃ l ∈ ls, Text.allBlank l = false) ∧ sInf (indents ls) = 2 ∧
      dedent ls = "if x\n\n\u00a0\u3000y\n ".toList ∧
      (∃ l ∈ (dedent ls).splitOn '\n', Text.allBlank l = false ∧ indentOf l = 0) ∧
      dedent ((dedent ls).splitOn '\n') = dedent ls := by
  intro ls
  have hfilled : ∃ l ∈ ls, Text.allBlank l = false := by decide
  obtain ⟨hleast, -, -, -, hflush, htwice, -⟩ := dedent_uniform ls
  refine ⟨hfilled, ?_, by decide, hflush hfilled, htwice⟩
  rw [← hleast]
  decide

end DocScope.DocComment
