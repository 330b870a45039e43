import DocScope.Analysis.LineScan
import DocScope.Proofs.Text.Lines
import DocScope.Proofs.Text.Trim
import Mathlib.Data.List.Infix

/-!
# Comments found backwards

The comments before a place are looked for from the place to the front. In each round the text that
is left either ends with a block, which is cut off where the last `/*` stands, or its last line is a
comment, or the search is over.

* `lastOpening?_eq_some_iff`, `lastLine_eq_iff`: where a text is cut;
* `lastComment?_some`, `lastComment?_none`: what one round cuts off, and when there is no further
  round;
* `commentsBefore_eq`: each round makes the text shorter, so the fuel does not run out, and the
  comments of a text are those before its last comment, and this one;
* `Tiled`, `commentsBefore_tiled`: a text that is made up of a start, comments and blanks, which is
  what the text before a place always is.
-/

namespace DocScope.LineScan

/-! ## The end of a text -/

theorem lastOpening?_eq_none_iff {s : List Char} :
    lastOpening? s = none ↔ ¬ ['/', '*'] <:+: s := by
  induction s with
  | nil => simp [lastOpening?]
  | cons c r ih =>
    rw [lastOpening?, List.infix_cons_iff]
    cases h : lastOpening? r with
    | some p => simp [← ih, h]
    | none =>
      have hr := ih.1 h
      have hhere : ['/', '*'] <+: c :: r ↔ c = '/' ∧ r.head? = some '*' := by
        rw [List.cons_prefix_cons, eq_comm, List.singleton_prefix_iff_head?_eq_some]
      simp [hr, hhere]

theorem lastOpening?_eq_some_iff {s a r : List Char} :
    lastOpening? s = some (a, r) ↔
      s = a ++ r ∧ ['/', '*'] <+: r ∧ ¬ ['/', '*'] <:+: r.tail := by
  constructor
  · intro h
    induction s generalizing a with
    | nil => cases h
    | cons c t ih =>
      rw [lastOpening?] at h
      split at h
      · next b r' hb =>
        simp only [Option.some.injEq, Prod.mk.injEq] at h
        obtain ⟨rfl, rfl⟩ := h
        obtain ⟨rfl, hr⟩ := ih hb
        exact ⟨rfl, hr⟩
      · next hnone =>
        split at h
        · next hc =>
          simp only [Option.some.injEq, Prod.mk.injEq] at h
          obtain ⟨rfl, rfl⟩ := h
          simp only [Bool.and_eq_true, decide_eq_true_eq] at hc
          obtain ⟨rfl, hstar⟩ := hc
          obtain ⟨u, rfl⟩ := List.head?_eq_some_iff.1 hstar
          exact ⟨rfl, List.prefix_append ['/', '*'] u, lastOpening?_eq_none_iff.1 hnone⟩
        · cases h
  · rintro ⟨rfl, ⟨u, rfl⟩, hlast⟩
    induction a with
    | nil =>
      have hnone : lastOpening? (['*'] ++ u) = none := lastOpening?_eq_none_iff.2 hlast
      rw [List.nil_append, List.cons_append, lastOpening?, hnone]
      rfl
    | cons c a ih => rw [List.cons_append, lastOpening?, ih]

theorem lastLine_append {a l : List Char} (ha : StartsLine a) (hl : OneLine l) :
    lastLine (a ++ l) = (a, l) := by
  have hline : ∀ c ∈ l.reverse, (c != '\n') = true :=
    fun c hc => hl.bne c (List.mem_reverse.1 hc)
  have hrun : (a ++ l).reverse.takeWhile (· != '\n') = l.reverse := by
    rw [List.reverse_append, List.takeWhile_append_of_pos hline]
    rcases ha with rfl | ha
    · simp
    · obtain ⟨b, rfl⟩ := List.getLast?_eq_some_iff.1 ha
      simp
  have hlen : (a ++ l).length - l.length = a.length := by simp
  simp only [lastLine, hrun, List.reverse_reverse, hlen, List.take_left']

theorem lastLine_eq_iff {s a l : List Char} :
    lastLine s = (a, l) ↔ s = a ++ l ∧ StartsLine a ∧ OneLine l := by
  constructor
  · intro h
    obtain ⟨a', l', rfl, ha, hl⟩ := Text.exists_lastLine s
    rw [lastLine_append ha hl, Prod.mk.injEq] at h
    obtain ⟨rfl, rfl⟩ := h
    exact ⟨rfl, ha, hl⟩
  · rintro ⟨rfl, ha, hl⟩
    exact lastLine_append ha hl

/-! ## The last comment -/

/-- The texts of comments: blocks that are closed, and lines. -/
inductive CommentText (r : List Char) : Prop
  | block (opened : ['/', '*'] <+: r) (closed : ['*', '/'] <:+ r)
  | line (opened : ['/', '/'] <+: r) (oneLine : OneLine r)

/-- No comment ends at the end of the text: the last block is not opened, or the last line is no
comment. -/
inductive Uncommented (rest : List Char) : Prop
  | unopened (closed : ['*', '/'] <:+ rest) (opened : ¬ ['/', '*'] <:+: rest)
  | line {a l : List Char} (closed : ¬ ['*', '/'] <:+ rest) (cut : rest = a ++ l)
      (start : StartsLine a) (oneLine : OneLine l) (opened : ¬ ['/', '/'] <+: Text.trimStart l)

theorem CommentText.ne_nil {r : List Char} (h : CommentText r) : r ≠ [] := by
  rintro rfl
  cases h with
  | block opened => simp at opened
  | line opened => simp at opened

/-- The text of a comment is read as a comment. -/
theorem CommentText.exists_parse? {r : List Char} (h : CommentText r) (n : Nat) :
    ∃ c, Comment.parse? (.ofList r) n = some c ∧ c.line = n := by
  have hread : ∃ p, Comment.read? r = some p := by
    unfold Comment.read?
    cases h with
    | block opened =>
      obtain ⟨u, rfl⟩ := opened
      rw [show Text.stripStart? ['/', '*'] (['/', '*'] ++ u) = some u from
        List.isPrefixOf?_eq_some_iff_append_eq.2 rfl]
      exact ⟨_, rfl⟩
    | line opened =>
      obtain ⟨u, rfl⟩ := opened
      exact ⟨_, rfl⟩
  obtain ⟨⟨kind, value⟩, hp⟩ := hread
  refine ⟨⟨kind, .ofList value, n⟩, ?_, rfl⟩
  rw [Comment.parse?, String.toList_ofList, hp]
  rfl

theorem lastComment?_some {rest r before : List Char} {n : Nat}
    (h : lastComment? rest = some (r, n, before)) :
    CommentText r ∧ ∃ gap, (∀ c ∈ gap, Text.isBlank c) ∧ rest = before ++ gap ++ r ∧
      n = (before ++ gap).count '\n' + 1 := by
  unfold lastComment? at h
  split at h
  · next hclosed =>
    obtain ⟨⟨a, r'⟩, hopen, heq⟩ := Option.map_eq_some_iff.1 h
    simp only [Prod.mk.injEq] at heq
    obtain ⟨rfl, rfl, rfl⟩ := heq
    obtain ⟨rfl, hr, -⟩ := lastOpening?_eq_some_iff.1 hopen
    have hr' : ['*', '/'] <:+ r' := List.suffix_of_suffix_length_le
      (List.isSuffixOf_iff_suffix.1 hclosed) (List.suffix_append a r') hr.length_le
    exact ⟨.block hr hr', [], by simp, by simp, by simp [lineAfter]⟩
  · next hclosed =>
    obtain ⟨⟨a, l⟩, hal⟩ : ∃ p, p = lastLine rest := ⟨_, rfl⟩
    simp only [← hal] at h
    obtain ⟨rfl, ha, hl⟩ := lastLine_eq_iff.1 hal.symm
    split at h
    · next hopen =>
      simp only [Option.some.injEq, Prod.mk.injEq] at h
      obtain ⟨rfl, rfl, rfl⟩ := h
      have hcut : l = l.takeWhile Text.isBlank ++ Text.trimStart l :=
        List.takeWhile_append_dropWhile.symm
      refine ⟨.line (List.isPrefixOf_iff_prefix.1 hopen) (hl.of_sublist (Text.trimStart_sublist l)),
        l.takeWhile Text.isBlank, fun c hc => List.mem_takeWhile_imp hc, ?_, ?_⟩
      · rw [List.append_assoc, ← hcut]
      · have hgap : OneLine (l.takeWhile Text.isBlank) :=
          hl.of_sublist (List.takeWhile_sublist _)
        rw [lineAfter, List.count_append, List.count_eq_zero.2 hgap, Nat.add_zero]
    · cases h

/-- Each round makes the text shorter. -/
theorem length_lt_of_lastComment? {rest r before : List Char} {n : Nat}
    (h : lastComment? rest = some (r, n, before)) : before.length < rest.length := by
  obtain ⟨hr, gap, -, rfl, -⟩ := lastComment?_some h
  have hpos := List.length_pos_iff.2 hr.ne_nil
  rw [List.length_append, List.length_append]
  omega

theorem lastComment?_none {rest : List Char} (h : lastComment? rest = none) : Uncommented rest := by
  unfold lastComment? at h
  split at h
  · next hclosed =>
    exact .unopened (List.isSuffixOf_iff_suffix.1 hclosed)
      (lastOpening?_eq_none_iff.1 (Option.map_eq_none_iff.1 h))
  · next hclosed =>
    obtain ⟨⟨a, l⟩, hal⟩ : ∃ p, p = lastLine rest := ⟨_, rfl⟩
    simp only [← hal] at h
    obtain ⟨hcut, ha, hl⟩ := lastLine_eq_iff.1 hal.symm
    split at h
    · cases h
    · next hopen =>
      exact .line (fun hs => hclosed (List.isSuffixOf_iff_suffix.2 hs)) hcut ha hl
        fun hp => hopen (List.isPrefixOf_iff_prefix.2 hp)

/-! ## All comments -/

/-- More fuel than there are characters makes no difference. -/
theorem commentsBackwards_congr {fuel fuel' : Nat} {rest : List Char} (h : rest.length ≤ fuel)
    (h' : rest.length ≤ fuel') : commentsBackwards fuel rest = commentsBackwards fuel' rest := by
  induction fuel generalizing fuel' rest with
  | zero =>
    obtain rfl := List.eq_nil_of_length_eq_zero (Nat.le_zero.1 h)
    cases fuel' <;> rfl
  | succ fuel ih =>
    cases fuel' with
    | zero =>
      obtain rfl := List.eq_nil_of_length_eq_zero (Nat.le_zero.1 h')
      rfl
    | succ fuel' =>
      rw [commentsBackwards, commentsBackwards]
      cases hlast : lastComment? rest with
      | none => rfl
      | some p =>
        obtain ⟨r, n, before⟩ := p
        have hlt := length_lt_of_lastComment? hlast
        have hle := (Text.trimEnd_prefix before).length_le
        have hrest : commentsBackwards fuel (Text.trimEnd before) =
            commentsBackwards fuel' (Text.trimEnd before) := ih (by omega) (by omega)
        dsimp only
        rw [hrest]

/-- The search, round by round: the last comment, and the comments before it. -/
theorem commentsBefore_eq (text : List Char) :
    commentsBefore text =
      match lastComment? (Text.trimEnd text) with
      | none => []
      | some (r, n, before) =>
        commentsBefore before ++ (Comment.parse? (.ofList r) n).toList := by
  have hfuel : ∀ s : List Char, commentsBefore s =
      (commentsBackwards ((Text.trimEnd s).length + 1) (Text.trimEnd s)).reverse := by
    intro s
    have hle := (Text.trimEnd_prefix s).length_le
    rw [commentsBefore, commentsBackwards_congr hle (Nat.le_succ _)]
  rw [hfuel, commentsBackwards]
  cases hlast : lastComment? (Text.trimEnd text) with
  | none => rfl
  | some p =>
    obtain ⟨r, n, before⟩ := p
    have hlt := length_lt_of_lastComment? hlast
    have hle := (Text.trimEnd_prefix before).length_le
    have hrest : commentsBackwards (Text.trimEnd text).length (Text.trimEnd before) =
        commentsBackwards ((Text.trimEnd before).length + 1) (Text.trimEnd before) :=
      commentsBackwards_congr (by omega) (by omega)
    have hone : (Comment.parse? (.ofList r) n).toList.reverse =
        (Comment.parse? (.ofList r) n).toList := by
      cases Comment.parse? (.ofList r) n <;> rfl
    dsimp only
    rw [List.reverse_append, hone, hfuel before, hrest]

/-- `text` is made up of `start` and of comments with blanks behind each of them; `cs` are the
comments, on the lines where they stand. -/
inductive Tiled (start : List Char) : List Char → List Comment → Prop
  | none : Tiled start start []
  | comment {text r w : List Char} {cs : List Comment} {c : Comment} (front : Tiled start text cs)
      (written : CommentText r) (blank : ∀ x ∈ w, Text.isBlank x)
      (read : Comment.parse? (.ofList r) (text.count '\n' + 1) = some c) :
      Tiled start (text ++ r ++ w) (cs ++ [c])

/-- Blanks can be added at the end. Where there is no comment, they are blanks at the end of what
stands in front. -/
theorem Tiled.append_blank {start text w : List Char} {cs : List Comment}
    (h : Tiled start text cs) (hw : ∀ x ∈ w, Text.isBlank x) :
    ∃ start', Text.trimEnd start' = Text.trimEnd start ∧ Tiled start' (text ++ w) cs := by
  cases h with
  | none => exact ⟨start ++ w, Text.trimEnd_append_blank hw start, .none⟩
  | @comment text r v cs c front written blank read =>
    refine ⟨start, rfl, ?_⟩
    rw [List.append_assoc]
    refine .comment front written (fun x hx => ?_) read
    exact (List.mem_append.1 hx).elim (blank x) (hw x)

/-- The comments are in the order of their lines, all of them before the end. -/
theorem Tiled.lines {start text : List Char} {cs : List Comment} (h : Tiled start text cs) :
    cs.Pairwise (fun c d => c.line ≤ d.line) ∧ ∀ c ∈ cs, c.line ≤ text.count '\n' + 1 := by
  induction h with
  | none => simp
  | @comment text r w cs c front written blank read ih =>
    obtain ⟨hordered, hbound⟩ := ih
    obtain ⟨c', hc', hline⟩ := written.exists_parse? (text.count '\n' + 1)
    obtain rfl : c' = c := Option.some.inj (hc'.symm.trans read)
    rw [List.count_append, List.count_append]
    refine ⟨List.pairwise_append.2 ⟨hordered, by simp, ?_⟩, fun d hd => ?_⟩
    · intro d hd e he
      rw [List.mem_singleton.1 he, hline]
      exact hbound d hd
    · rcases List.mem_append.1 hd with hd | hd
      · have := hbound d hd
        omega
      · rw [List.mem_singleton.1 hd, hline]
        omega

theorem exists_tiled (before : List Char) :
    ∃ start, Tiled start before (commentsBefore before) ∧ Uncommented (Text.trimEnd start) := by
  rw [commentsBefore_eq]
  cases h : lastComment? (Text.trimEnd before) with
  | none => exact ⟨before, .none, lastComment?_none h⟩
  | some p =>
    obtain ⟨r, n, front⟩ := p
    obtain ⟨hr, gap, hgap, hcut, rfl⟩ := lastComment?_some h
    have hlt := length_lt_of_lastComment? h
    have hle := (Text.trimEnd_prefix before).length_le
    obtain ⟨start, htiled, hstop⟩ := exists_tiled front
    obtain ⟨start', hstart', htiled'⟩ := htiled.append_blank hgap
    obtain ⟨c, hc, -⟩ := hr.exists_parse? ((front ++ gap).count '\n' + 1)
    obtain ⟨w, hw, hbefore⟩ := Text.exists_trimEnd_append before
    refine ⟨start', ?_, hstart'.symm ▸ hstop⟩
    rw [hbefore, hcut]
    dsimp only
    rw [hc]
    exact htiled'.comment hr hw hc
termination_by before.length

/-- **The comments before a place tile the text before it.** What stands before a place, whatever it
is, consists of a start, and of comments with nothing but blanks behind each of them; these are the
comments that are found, each read from its text and on the line where it starts, and so in the
order of their lines. The search is over only where no comment is left: the start, without the
blanks at its end, ends with `*/` and has no `/*`, or does not end with `*/` and its last line is no
comment. -/
theorem commentsBefore_tiled (before : List Char) :
    ∃ start, Tiled start before (commentsBefore before) ∧ Uncommented (Text.trimEnd start) ∧
      (commentsBefore before).Pairwise fun c d => c.line ≤ d.line := by
  obtain ⟨start, htiled, hstop⟩ := exists_tiled before
  exact ⟨start, htiled, hstop, htiled.lines.1⟩

/-- Delimiters may overlap, and need not have a partner. -/
example : commentsBefore "x /*/\n  // a */ b\n/* c */\n".toList =
    [⟨.block, "/", 1⟩, ⟨.line, " a */ b", 2⟩, ⟨.block, " c ", 3⟩] := by decide

end DocScope.LineScan
