import DocScope.Text.Lines
import Mathlib.Data.List.Basic

/-!
# Lines put together and cut again

`lineInduction` goes through a text line by line. With it: a cut after a newline cuts the two sides
on their own (`splitInclusive_append_newline`), and in a text that is cut into lines, the lines
before a point can be followed by another text (`splitInclusive_before`), and the lines after it
are the lines of what they make up (`splitInclusive_after`). Texts without a newline (`OneLine`) that
are put together as lines are cut again (`splitInclusive_flatMap`). Every text ends with such a text
at the start of a line (`StartsLine`, `exists_lastLine`).

A line without its end starts as the line does (`chomp_line_prefix`, `prefix_chomp_line`), and it is
the line itself where no carriage return stands before the newline (`lines_flatMap_append`). So the
lines of a text are the pieces between its newlines just if there is no such carriage return
(`lines_eq_splitOn_iff`).
-/

namespace DocScope

/-- A text without a newline. -/
def OneLine (s : List Char) : Prop := '\n' ∉ s

instance (s : List Char) : Decidable (OneLine s) := inferInstanceAs (Decidable ('\n' ∉ s))

theorem OneLine.nil : OneLine [] := List.not_mem_nil

theorem OneLine.of_sublist {s t : List Char} (h : OneLine s) (hts : t.Sublist s) : OneLine t :=
  fun hm => h (hts.subset hm)

theorem OneLine.append {s t : List Char} (hs : OneLine s) (ht : OneLine t) : OneLine (s ++ t) :=
  fun hm => (List.mem_append.1 hm).elim hs ht

theorem OneLine.cons {c : Char} {s : List Char} (hc : c ≠ '\n') (hs : OneLine s) :
    OneLine (c :: s) := fun hm => (List.mem_cons.1 hm).elim (fun e => hc e.symm) hs

theorem OneLine.bne {s : List Char} (h : OneLine s) : ∀ c ∈ s, (c != '\n') = true := by
  intro c hc
  rw [bne_iff_ne]
  rintro rfl
  exact h hc

/-- What can stand before the start of a line. -/
def StartsLine (s : List Char) : Prop := s = [] ∨ s.getLast? = some '\n'

instance (s : List Char) : Decidable (StartsLine s) := inferInstanceAs (Decidable (_ ∨ _))

theorem StartsLine.newline (s : List Char) : StartsLine (s ++ ['\n']) := .inr List.getLast?_concat

theorem StartsLine.after {t : List Char} (ht : StartsLine t) (hne : t ≠ []) (s : List Char) :
    StartsLine (s ++ t) := by
  rcases ht with rfl | ht
  · exact absurd rfl hne
  · exact .inr (by rw [List.getLast?_append_of_ne_nil s hne, ht])

theorem StartsLine.append {s t : List Char} (hs : StartsLine s) (ht : StartsLine t) :
    StartsLine (s ++ t) := by
  by_cases hne : t = []
  · rwa [hne, List.append_nil]
  · exact ht.after hne s

namespace Text

/-- Induction over the lines of a text: a last piece without a newline, or one line and the rest. -/
@[elab_as_elim]
theorem lineInduction {motive : List Char → Prop} (last : ∀ t, '\n' ∉ t → motive t)
    (line : ∀ t rest, '\n' ∉ t → motive rest → motive (t ++ '\n' :: rest)) (s : List Char) :
    motive s := by
  by_cases h : '\n' ∈ s
  · obtain ⟨t, rest, rfl, ht⟩ := List.eq_append_cons_of_mem h
    exact line t rest ht (lineInduction last line rest)
  · exact last s h
termination_by s.length

/-- Every text has a last line. -/
theorem exists_lastLine (s : List Char) : ∃ a l, s = a ++ l ∧ StartsLine a ∧ OneLine l := by
  induction s using lineInduction with
  | last t ht => exact ⟨[], t, rfl, .inl rfl, ht⟩
  | line t rest ht ih =>
    obtain ⟨a, l, rfl, ha, hl⟩ := ih
    exact ⟨t ++ ['\n'] ++ a, l, by simp, (StartsLine.newline t).append ha, hl⟩

theorem splitInclusive_line {t : List Char} (h : '\n' ∉ t) (rest : List Char) :
    splitInclusive (t ++ '\n' :: rest) = (t ++ ['\n']) :: splitInclusive rest := by
  induction t with
  | nil => simp [splitInclusive]
  | cons c t ih =>
    have hc : c ≠ '\n' := fun e => h (e ▸ List.mem_cons_self)
    rw [List.cons_append, splitInclusive, if_neg hc, ih fun m => h (List.mem_cons_of_mem _ m)]
    rfl

theorem splitInclusive_last {t : List Char} (h : '\n' ∉ t) (hne : t ≠ []) :
    splitInclusive t = [t] := by
  induction t with
  | nil => exact absurd rfl hne
  | cons c t ih =>
    have hc : c ≠ '\n' := fun e => h (e ▸ List.mem_cons_self)
    rw [splitInclusive, if_neg hc]
    cases t with
    | nil => rfl
    | cons d t => rw [ih (fun m => h (List.mem_cons_of_mem _ m)) (by simp)]

theorem splitInclusive_append_newline (s rest : List Char) :
    splitInclusive (s ++ '\n' :: rest) = splitInclusive (s ++ ['\n']) ++ splitInclusive rest := by
  induction s using lineInduction with
  | last t ht => rw [splitInclusive_line ht, splitInclusive_line ht]; rfl
  | line t s ht ih =>
    rw [List.append_assoc, List.cons_append, splitInclusive_line ht, ih, List.append_assoc,
      List.cons_append, splitInclusive_line ht, List.cons_append]

/-- A text is cut at the start of a line as well as anywhere else in it. -/
theorem splitInclusive_append {a : List Char} (ha : StartsLine a) (s : List Char) :
    splitInclusive (a ++ s) = splitInclusive a ++ splitInclusive s := by
  rcases ha with rfl | ha
  · rfl
  · obtain ⟨u, rfl⟩ := List.getLast?_eq_some_iff.1 ha
    rw [List.append_assoc, List.singleton_append, splitInclusive_append_newline]

/-- Lines that are put together are cut again, whatever follows them. -/
theorem splitInclusive_flatMap_append {ls : List (List Char)} (h : ∀ l ∈ ls, OneLine l)
    (rest : List Char) :
    splitInclusive (ls.flatMap (· ++ ['\n']) ++ rest) =
      ls.map (· ++ ['\n']) ++ splitInclusive rest := by
  induction ls with
  | nil => rfl
  | cons l ls ih =>
    rw [List.flatMap_cons, List.append_assoc, List.append_assoc, List.singleton_append,
      splitInclusive_line (h l List.mem_cons_self), ih fun l' hl' => h l' (List.mem_cons_of_mem _ hl'),
      List.map_cons, List.cons_append]

theorem splitInclusive_flatMap {ls : List (List Char)} (h : ∀ l ∈ ls, OneLine l) :
    splitInclusive (ls.flatMap (· ++ ['\n'])) = ls.map (· ++ ['\n']) := by
  simpa [splitInclusive] using splitInclusive_flatMap_append h []

/-- Lines that are followed by others can be followed by any text. -/
theorem splitInclusive_before {s : List Char} {a b : List (List Char)}
    (h : splitInclusive s = a ++ b) (hb : b ≠ []) (rest : List Char) :
    splitInclusive (a.flatten ++ rest) = a ++ splitInclusive rest := by
  induction s using lineInduction generalizing a with
  | last t ht =>
    by_cases hne : t = []
    · subst hne
      exact absurd (List.append_eq_nil_iff.1 h.symm).2 hb
    · rw [splitInclusive_last ht hne] at h
      rcases List.append_eq_singleton_iff.1 h.symm with ⟨rfl, -⟩ | ⟨-, rfl⟩
      · rfl
      · exact absurd rfl hb
  | line t s ht ih =>
    rw [splitInclusive_line ht] at h
    cases a with
    | nil => rfl
    | cons l a =>
      obtain ⟨rfl, hs⟩ := List.cons_eq_cons.1 h
      rw [List.flatten_cons, List.append_assoc, List.append_assoc, List.singleton_append,
        splitInclusive_line ht, ih hs, List.cons_append]

/-- The last lines of a text are the lines of what they make up. -/
theorem splitInclusive_after {s : List Char} {a b : List (List Char)}
    (h : splitInclusive s = a ++ b) : splitInclusive b.flatten = b := by
  by_cases hb : b = []
  · subst hb; rfl
  · have hs := splitInclusive_before h hb b.flatten
    rw [← List.flatten_append, ← h, flatten_splitInclusive, h] at hs
    exact (List.append_cancel_left hs).symm

/-! ## Lines with a newline between neighbours -/

theorem not_mem_of_mem_splitOn {a : Char} {s p : List Char} (h : p ∈ s.splitOn a) : a ∉ p := by
  induction s generalizing p with
  | nil =>
    obtain rfl : p = [] := by simpa using h
    exact List.not_mem_nil
  | cons c s ih =>
    rw [List.splitOn_cons_eq_if_modifyHead] at h
    split at h
    · rcases List.mem_cons.1 h with rfl | h
      · exact List.not_mem_nil
      · exact ih h
    · rename_i hc
      obtain ⟨q, qs, hq⟩ := List.exists_cons_of_ne_nil (List.splitOn_ne_nil a s)
      rw [hq, List.modifyHead_cons, List.mem_cons] at h
      rcases h with rfl | h
      · intro hm
        rcases List.mem_cons.1 hm with rfl | hm
        · simp at hc
        · exact ih (hq ▸ List.mem_cons_self) hm
      · exact ih (hq ▸ List.mem_cons_of_mem _ h)

theorem intercalate_concat (sep l : List Char) (ls : List (List Char)) (l' : List Char) :
    sep.intercalate (l :: ls ++ [l']) = sep.intercalate (l :: ls) ++ (sep ++ l') := by
  induction ls generalizing l with
  | nil => simp [List.intercalate_cons_cons]
  | cons k ls ih =>
    rw [List.cons_append, List.cons_append, List.intercalate_cons_cons, ← List.cons_append, ih,
      List.intercalate_cons_cons, List.append_assoc _ _ (sep ++ l')]

theorem joinLines_concat (l : List Char) (ls : List (List Char)) (l' : List Char) :
    joinLines (l :: ls ++ [l']) = joinLines (l :: ls) ++ '\n' :: l' :=
  intercalate_concat ['\n'] l ls l'

theorem joinLines_cons {ls : List (List Char)} (h : ls ≠ []) (l : List Char) :
    joinLines (l :: ls) = l ++ '\n' :: joinLines ls := by
  rw [joinLines, List.intercalate_cons_of_ne_nil h, List.append_assoc]
  rfl

theorem splitOn_joinLines {ls : List (List Char)} (h : ls ≠ []) :
    (joinLines ls).splitOn '\n' = ls.flatMap (·.splitOn '\n') := by
  induction ls with
  | nil => exact absurd rfl h
  | cons l ls ih =>
    by_cases hls : ls = []
    · subst hls
      simp [joinLines]
    · rw [joinLines_cons hls, List.splitOn_append_cons_self, ih hls, List.flatMap_cons]

theorem joinLines_map_sublist {f : List Char → List Char} (hf : ∀ l, (f l).Sublist l)
    (ls : List (List Char)) : (joinLines (ls.map f)).Sublist (joinLines ls) := by
  induction ls with
  | nil => exact List.Sublist.refl _
  | cons l ls ih =>
    by_cases hls : ls = []
    · subst hls
      simpa [joinLines] using hf l
    · rw [List.map_cons, joinLines_cons (by simpa using hls), joinLines_cons hls]
      exact (hf l).append (ih.cons_cons _)

theorem allBlank_joinLines (ls : List (List Char)) :
    allBlank (joinLines ls) = ls.all allBlank := by
  induction ls with
  | nil => rfl
  | cons l ls ih =>
    by_cases hls : ls = []
    · subst hls
      simp [joinLines]
    · have hnewline : isBlank '\n' = true := by decide
      rw [joinLines_cons hls, List.all_cons, ← ih]
      simp [allBlank, hnewline]

/-- Newlines at the ends of a text are empty lines before and after its own. -/
theorem splitOn_newlines (a b : Nat) (s : List Char) :
    (List.replicate a '\n' ++ s ++ List.replicate b '\n').splitOn '\n' =
      List.replicate a [] ++ s.splitOn '\n' ++ List.replicate b [] := by
  have hend : (s ++ List.replicate b '\n').splitOn '\n' =
      s.splitOn '\n' ++ List.replicate b [] := by
    induction b with
    | zero => simp
    | succ b ih =>
      rw [List.replicate_succ', ← List.append_assoc, List.splitOn_append_cons_self, ih]
      simp [List.replicate_succ']
  induction a with
  | zero => simpa using hend
  | succ a ih =>
    rw [List.replicate_succ, List.replicate_succ, List.cons_append, List.cons_append,
      List.splitOn_cons_eq_if_modifyHead, ih]
    simp

/-! ## Lines without their ends -/

theorem chomp_line (t : List Char) : chomp (t ++ ['\n']) = (stripEnd? ['\r'] t).getD t := by
  have h : stripEnd? ['\n'] (t ++ ['\n']) = some t := List.isSuffixOf?_eq_some_iff_append_eq.2 rfl
  rw [chomp, h]

/-- Only a carriage return is lost together with the newline. -/
theorem chomp_line_of_ne {t : List Char} (h : t.getLast? ≠ some '\r') :
    chomp (t ++ ['\n']) = t := by
  rw [chomp_line]
  cases hs : stripEnd? ['\r'] t with
  | none => rfl
  | some u =>
    have hu : u ++ ['\r'] = t := List.isSuffixOf?_eq_some_iff_append_eq.1 hs
    rw [← hu] at h
    exact absurd List.getLast?_concat h

/-- Lines that are put together are read back. -/
theorem lines_flatMap_append {ls : List (List Char)} (h : ∀ l ∈ ls, OneLine l)
    (h' : ∀ l ∈ ls, l.getLast? ≠ some '\r') (rest : List Char) :
    lines (ls.flatMap (· ++ ['\n']) ++ rest) = ls ++ lines rest := by
  have hchomp : ls.map (fun l => chomp (l ++ ['\n'])) = ls :=
    (List.map_congr_left fun l hl => chomp_line_of_ne (h' l hl)).trans (List.map_id _)
  rw [lines, splitInclusive_flatMap_append h, List.map_append, List.map_map]
  exact congrArg (· ++ lines rest) hchomp

theorem chomp_last {t : List Char} (h : '\n' ∉ t) : chomp t = t := by
  unfold chomp
  cases hs : stripEnd? ['\n'] t with
  | none => rfl
  | some u =>
    have hu : u ++ ['\n'] = t := List.isSuffixOf?_eq_some_iff_append_eq.1 hs
    exact absurd (hu ▸ List.mem_append_right u List.mem_cons_self) h

/-- A line loses at most its end. -/
theorem chomp_line_prefix (t : List Char) : chomp (t ++ ['\n']) <+: t := by
  rw [chomp_line]
  cases hs : stripEnd? ['\r'] t with
  | none => exact List.prefix_rfl
  | some u => exact ⟨['\r'], List.isSuffixOf?_eq_some_iff_append_eq.1 hs⟩

/-- What a line starts with is kept, if it does not end with a carriage return. -/
theorem prefix_chomp_line {p t : List Char} (h : p <+: t) (hp : p.getLast? ≠ some '\r') :
    p <+: chomp (t ++ ['\n']) := by
  rw [chomp_line]
  cases hs : stripEnd? ['\r'] t with
  | none => exact h
  | some u =>
    have hu : u ++ ['\r'] = t := List.isSuffixOf?_eq_some_iff_append_eq.1 hs
    rw [← hu] at h
    rcases List.prefix_concat_iff.1 h with rfl | h
    · exact absurd List.getLast?_concat hp
    · exact h

theorem lines_line {t : List Char} (h : '\n' ∉ t) (rest : List Char) :
    lines (t ++ '\n' :: rest) = chomp (t ++ ['\n']) :: lines rest := by
  rw [lines, splitInclusive_line h, List.map_cons]
  rfl

theorem lines_last {t : List Char} (h : '\n' ∉ t) (hne : t ≠ []) : lines t = [t] := by
  rw [lines, splitInclusive_last h hne, List.map_singleton, chomp_last h]

theorem lines_eq_nil_iff {s : List Char} : lines s = [] ↔ s = [] := by
  constructor
  · intro h
    rw [← flatten_splitInclusive s, List.map_eq_nil_iff.1 h]
    rfl
  · rintro rfl
    rfl

theorem newline_not_mem_lines {s l : List Char} (h : l ∈ lines s) : '\n' ∉ l := by
  induction s using lineInduction with
  | last t ht =>
    by_cases hne : t = []
    · subst hne; cases h
    · rw [lines_last ht hne, List.mem_singleton] at h
      exact h ▸ ht
  | line t rest ht ih =>
    have hstart := chomp_line_prefix t
    rw [lines_line ht] at h
    rcases List.mem_cons.1 h with rfl | h
    · exact fun hm => ht (hstart.subset hm)
    · exact ih h

theorem joinLines_lines_sublist (s : List Char) : (joinLines (lines s)).Sublist s := by
  induction s using lineInduction with
  | last t ht =>
    by_cases hne : t = []
    · subst hne
      exact List.Sublist.refl _
    · rw [lines_last ht hne, joinLines, List.intercalate_singleton]
  | line t rest ht ih =>
    have hstart := chomp_line_prefix t
    rw [lines_line ht]
    by_cases hrest : lines rest = []
    · rw [hrest, joinLines, List.intercalate_singleton]
      exact hstart.sublist.trans (List.sublist_append_left _ _)
    · rw [joinLines_cons hrest]
      exact hstart.sublist.append (ih.cons_cons _)

/-! ## Carriage returns -/

theorem chomp_line_eq_iff {t : List Char} :
    chomp (t ++ ['\n']) = t ↔ t.getLast? ≠ some '\r' := by
  refine ⟨fun h hlast => ?_, chomp_line_of_ne⟩
  obtain ⟨u, rfl⟩ := List.getLast?_eq_some_iff.1 hlast
  have hstrip : stripEnd? ['\r'] (u ++ ['\r']) = some u :=
    List.isSuffixOf?_eq_some_iff_append_eq.2 rfl
  rw [chomp_line, hstrip] at h
  simp at h

theorem return_newline_infix_line {t : List Char} (h : '\n' ∉ t) (rest : List Char) :
    ['\r', '\n'] <:+: t ++ '\n' :: rest ↔ t.getLast? = some '\r' ∨ ['\r', '\n'] <:+: rest := by
  induction t with
  | nil => simp [List.infix_cons_iff]
  | cons c t ih =>
    rw [List.cons_append, List.infix_cons_iff, ih fun hm => h (List.mem_cons_of_mem _ hm),
      List.cons_prefix_cons]
    cases t with
    | nil => simp [eq_comm]
    | cons d t =>
      have hd : '\n' ≠ d := by
        rintro rfl
        simp at h
      simp [hd]

/-- **The lines of a text are the pieces between its newlines**, unless a carriage return stands
before a newline. -/
theorem lines_eq_splitOn_iff {s : List Char} (hne : s ≠ []) (hlast : s.getLast? ≠ some '\n') :
    lines s = s.splitOn '\n' ↔ ¬ ['\r', '\n'] <:+: s := by
  induction s using lineInduction with
  | last t ht =>
    have hno : ¬ ['\r', '\n'] <:+: t := fun hin => ht (hin.subset (by simp))
    rw [lines_last ht hne, List.splitOn_eq_singleton ht]
    simp [hno]
  | line t rest ht ih =>
    have hrest : rest ≠ [] := by
      rintro rfl
      exact hlast List.getLast?_concat
    have hlast' : rest.getLast? ≠ some '\n' := by
      intro h
      apply hlast
      rw [List.getLast?_append_of_ne_nil _ (List.cons_ne_nil _ _), List.getLast?_cons, h]
      rfl
    rw [lines_line ht, List.splitOn_append_cons_self_of_not_mem ht, List.cons_eq_cons,
      chomp_line_eq_iff, ih hrest hlast', return_newline_infix_line ht, not_or]

end Text

end DocScope
