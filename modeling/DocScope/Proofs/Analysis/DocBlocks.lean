import DocScope.Check.Declaration
import DocScope.Proofs.Analysis.Declarations
import DocScope.Proofs.Analysis.Tiling

/-!
# Doc blocks before a function

A block is looked for from its end to the front, and it is cut off at the last `/*`. So a `/*` in the
body of a block is taken for its opening, and so is a slash that stands right before the end of the
block, together with the star of that end.

* `Unopened`, `opening_infix_tail`, `exists_lastOpening?`: the openings in a doc block;
* `parse?_docBlock`, `exists_docBlock`: the blocks that are read as doc blocks are those written so;
* `Inner`, `kind_of_inside`: once the search is inside of a block, it finds lines only;
* `commentsBefore_docBlock`, `getLast?_commentsBefore_docBlock`, `hasDocComment_docBlock`: what is
  found of a doc block that ends before a place, and when a doc block is found at all;
* `functions_functionText`: the function behind the block;
* `scan_docBlock_iff`: the block is found as it is written just if nothing else opens in it.
-/

namespace DocScope.LineScan

/-! ## Openings in a doc block -/

/-- A doc block with the text `body` in it. -/
def docBlock (body : List Char) : List Char := '/' :: '*' :: '*' :: (body ++ ['*', '/'])

/-- Nothing in the block looks like the opening of another one: the body has no `/*`, and it does
not end with a slash, which would make one together with the end of the block. -/
def Unopened (body : List Char) : Prop := ¬ ['/', '*'] <:+: body ∧ body.getLast? ≠ some '/'

instance (body : List Char) : Decidable (Unopened body) := inferInstanceAs (Decidable (_ ∧ _))

theorem opening_infix_concat {s : List Char} :
    ['/', '*'] <:+: s ++ ['*', '/'] ↔ ¬ Unopened s := by
  have hend : ¬ ['/', '*'] <:+ s ++ ['*', '/'] := by
    intro h
    have hlast := List.suffix_of_suffix_length_le h (List.suffix_append s _) (Nat.le_refl _)
    exact absurd hlast (by decide)
  have hmeet : ['/', '*'] <:+ s ++ ['*'] ↔ s.getLast? = some '/' := by
    rw [show ['/', '*'] = ['/'] ++ ['*'] from rfl, List.suffix_append_inj_of_length_eq rfl,
      List.singleton_suffix_iff_getLast?_eq_some]
    exact and_iff_left rfl
  rw [List.append_cons] at hend ⊢
  rw [List.infix_concat_iff, List.infix_concat_iff, hmeet, Unopened]
  tauto

/-- The opening of the block is the last one just if nothing in the block looks like one. -/
theorem opening_infix_tail {body : List Char} :
    ['/', '*'] <:+: (docBlock body).tail ↔ ¬ Unopened body := by
  rw [docBlock, List.tail_cons, List.infix_cons_iff, List.infix_cons_iff, opening_infix_concat]
  simp

theorem lastOpening?_append {t u r : List Char} (h : lastOpening? t = some (u, r))
    (s : List Char) : lastOpening? (s ++ t) = some (s ++ u, r) := by
  obtain ⟨rfl, hr⟩ := lastOpening?_eq_some_iff.1 h
  exact lastOpening?_eq_some_iff.2 ⟨(List.append_assoc _ _ _).symm, hr⟩

/-- Where the last opening in a doc block is: at its start, or in its body. -/
theorem exists_lastOpening? (body : List Char) :
    ∃ u r, lastOpening? (docBlock body) = some (u, r) ∧
      (u = [] ∨ ∃ v, u = '/' :: '*' :: '*' :: v ∧ v <+: body) := by
  by_cases h : Unopened body
  · refine ⟨[], docBlock body, lastOpening?_eq_some_iff.2 ⟨rfl, ?_, ?_⟩, .inl rfl⟩
    · exact List.prefix_append ['/', '*'] _
    · rwa [opening_infix_tail, not_not]
  · cases hlast : lastOpening? (body ++ ['*', '/']) with
    | none => exact absurd (opening_infix_concat.2 h) (lastOpening?_eq_none_iff.1 hlast)
    | some p =>
      obtain ⟨v, r⟩ := p
      refine ⟨_, r, lastOpening?_append hlast ['/', '*', '*'], .inr ⟨v, rfl, ?_⟩⟩
      obtain ⟨hcut, hr, -⟩ := lastOpening?_eq_some_iff.1 hlast
      have hlen := congrArg List.length hcut
      have hle := hr.length_le
      simp only [List.length_append, List.length_cons, List.length_nil] at hlen hle
      exact List.prefix_of_prefix_length_le ⟨r, hcut.symm⟩ (List.prefix_append body _) (by omega)

/-! ## Doc blocks as comments -/

theorem parse?_docBlock (body : List Char) (n : Nat) :
    Comment.parse? (.ofList (docBlock body)) n = some ⟨.block, .ofList ('*' :: body), n⟩ := by
  have hopen : Text.stripStart? ['/', '*'] (docBlock body) = some ('*' :: body ++ ['*', '/']) :=
    List.isPrefixOf?_eq_some_iff_append_eq.2 rfl
  have hclose : Text.stripEnd? ['*', '/'] ('*' :: body ++ ['*', '/']) = some ('*' :: body) :=
    List.isSuffixOf?_eq_some_iff_append_eq.2 rfl
  rw [Comment.parse?, String.toList_ofList, Comment.read?, hopen]
  simp only [hclose, Option.getD_some, Option.map_some]

/-- Blocks that are doc blocks when they are read were written so. -/
theorem exists_docBlock {r : List Char} {n : Nat} {c : Comment} (hopen : ['/', '*'] <+: r)
    (hclose : ['*', '/'] <:+ r) (hc : Comment.parse? (.ofList r) n = some c)
    (hdoc : c.isDocBlock = true) : ∃ body, r = docBlock body := by
  obtain ⟨x, rfl⟩ := hopen
  have hstrip : Text.stripStart? ['/', '*'] (['/', '*'] ++ x) = some x :=
    List.isPrefixOf?_eq_some_iff_append_eq.2 rfl
  rw [Comment.parse?, String.toList_ofList, Comment.read?, hstrip] at hc
  simp only [Option.map_some, Option.some.injEq] at hc
  subst hc
  simp only [Comment.isDocBlock, String.toList_ofList, beq_self_eq_true, Bool.true_and,
    beq_iff_eq] at hdoc
  cases hend : Text.stripEnd? ['*', '/'] x with
  | some v =>
    obtain rfl : v ++ ['*', '/'] = x := List.isSuffixOf?_eq_some_iff_append_eq.1 hend
    rw [hend, Option.getD_some] at hdoc
    obtain ⟨body, rfl⟩ := List.head?_eq_some_iff.1 hdoc
    exact ⟨body, rfl⟩
  | none =>
    -- then the closing star is that of the opening, and a slash follows it
    rw [hend, Option.getD_none] at hdoc
    obtain ⟨y, rfl⟩ := List.head?_eq_some_iff.1 hdoc
    by_cases hy : y = []
    · subst hy
      exact absurd hclose (by decide)
    · have hlen : ['*', '/'].length ≤ ('*' :: y).length :=
        Nat.succ_le_succ (List.length_pos_iff.2 hy)
      obtain ⟨v, hv⟩ := List.suffix_of_suffix_length_le hclose (List.suffix_append _ _) hlen
      have hsome : Text.stripEnd? ['*', '/'] ('*' :: y) = some v :=
        List.isSuffixOf?_eq_some_iff_append_eq.2 hv
      rw [hend] at hsome
      cases hsome

section
variable {r : List Char} {n : Nat} {c : Comment} (hopen : ['/', '*'] <+: r)
  (hclose : ['*', '/'] <:+ r) (hc : Comment.parse? (.ofList r) n = some c)
include hopen hclose hc

/-- The text of a doc block can be told from what is read of it. -/
theorem eq_docBlock_iff (body : List Char) :
    r = docBlock body ↔ (c.kind, c.value) = (.block, .ofList ('*' :: body)) := by
  constructor
  · rintro rfl
    rw [parse?_docBlock] at hc
    obtain rfl := Option.some.inj hc
    rfl
  · intro h
    obtain ⟨hkind, hvalue⟩ := Prod.mk.inj h
    have hdoc : c.isDocBlock = true := by simp [Comment.isDocBlock, hkind, hvalue]
    obtain ⟨v, rfl⟩ := exists_docBlock hopen hclose hc hdoc
    rw [parse?_docBlock] at hc
    obtain rfl := Option.some.inj hc
    obtain rfl : v = body := by simpa using congrArg String.toList hvalue
    rfl

theorem isDocBlock_iff : c.isDocBlock = true ↔ ∃ body, r = docBlock body := by
  refine ⟨exists_docBlock hopen hclose hc, fun ⟨body, hr⟩ => ?_⟩
  obtain ⟨hkind, hvalue⟩ := Prod.mk.inj ((eq_docBlock_iff hopen hclose hc body).1 hr)
  simp [Comment.isDocBlock, hkind, hvalue]

end

/-! ## Inside of a block -/

/-- A text that does not close the block in which it stands, behind the star of its opening. -/
def Inner (body : List Char) : Prop := ¬ ['*', '/'] <:+: body ∧ body.head? ≠ some '/'

instance (body : List Char) : Decidable (Inner body) := inferInstanceAs (Decidable (_ ∧ _))

theorem Inner.of_prefix {s t : List Char} (h : Inner t) (hst : s <+: t) : Inner s := by
  refine ⟨fun hs => h.1 (hs.trans hst.isInfix), fun hs => h.2 ?_⟩
  obtain ⟨u, rfl⟩ := List.head?_eq_some_iff.1 hs
  obtain ⟨v, rfl⟩ := hst
  rfl

/-- The block is still open at the end of its inner text. -/
theorem Inner.not_closed {body : List Char} (h : Inner body) (pre : List Char) :
    ¬ ['*', '/'] <:+ pre ++ '/' :: '*' :: '*' :: body := by
  intro hend
  have hstar : ['*', '/'] <:+ '*' :: body ∨ body = [] := by
    by_cases hb : body = []
    · exact .inr hb
    · have hsuffix : '*' :: body <:+ pre ++ '/' :: '*' :: '*' :: body :=
        (List.suffix_append ['/', '*'] _).trans (List.suffix_append pre _)
      exact .inl (List.suffix_of_suffix_length_le hend hsuffix
        (Nat.succ_le_succ (List.length_pos_iff.2 hb)))
  rcases hstar with hstar | rfl
  · rcases List.suffix_cons_iff.1 hstar with heq | hsuffix
    · obtain rfl : ['/'] = body := (List.cons.inj heq).2
      exact h.2 rfl
    · exact h.1 hsuffix.isInfix
  · have hlast := List.suffix_of_suffix_length_le hend
      (List.suffix_append (pre ++ ['/']) ['*', '*'] |>.trans (by simp)) (Nat.le_refl _)
    exact absurd hlast (by decide)

/-- From the inside of a block only lines are found: its own first line starts with `/**`. -/
theorem lastComment?_inside {pre body r front : List Char} {n : Nat} (hpre : StartsLine pre)
    (h : Inner body)
    (hlast : lastComment? (pre ++ '/' :: '*' :: '*' :: body) = some (r, n, front)) :
    ['/', '/'] <+: r ∧ ∃ a, front = pre ++ '/' :: '*' :: '*' :: a ∧ a <+: body := by
  have hclosed : ¬ ['*', '/'].isSuffixOf (pre ++ '/' :: '*' :: '*' :: body) = true :=
    fun hend => h.not_closed pre (List.isSuffixOf_iff_suffix.1 hend)
  obtain ⟨a, l, rfl, ha, hl⟩ := Text.exists_lastLine body
  rw [lastComment?, if_neg hclosed] at hlast
  by_cases hnil : a = []
  · subst hnil
    have hfirst : OneLine ('/' :: '*' :: '*' :: l) :=
      OneLine.append (s := ['/', '*', '*']) (by decide) hl
    rw [List.nil_append, lastLine_append hpre hfirst] at hlast
    simp only at hlast
    rw [Text.trimStart_cons (by decide)] at hlast
    cases hlast
  · have hstart : StartsLine (pre ++ '/' :: '*' :: '*' :: a) := by
      simpa using ha.after hnil (pre ++ ['/', '*', '*'])
    have hline := lastLine_append hstart hl
    rw [List.append_assoc, List.cons_append, List.cons_append, List.cons_append] at hline
    rw [hline] at hlast
    simp only at hlast
    split at hlast
    · next hopen =>
      simp only [Option.some.injEq, Prod.mk.injEq] at hlast
      obtain ⟨rfl, -, rfl⟩ := hlast
      exact ⟨List.isPrefixOf_iff_prefix.1 hopen, a, rfl, List.prefix_append a l⟩
    · cases hlast

theorem kind_of_parse?_line {r : List Char} {n : Nat} {c : Comment} (hr : ['/', '/'] <+: r)
    (hc : Comment.parse? (.ofList r) n = some c) : c.kind = .line := by
  obtain ⟨u, rfl⟩ := hr
  rw [Comment.parse?, String.toList_ofList] at hc
  obtain rfl := Option.some.inj hc
  rfl

/-- **Inside of a block no block is found.** -/
theorem kind_of_inside {pre body : List Char} (hpre : StartsLine pre) (h : Inner body)
    {c : Comment} (hc : c ∈ commentsBefore (pre ++ '/' :: '*' :: '*' :: body)) :
    c.kind = .line := by
  have htrim : Text.trimEnd (pre ++ '/' :: '*' :: '*' :: body) =
      pre ++ '/' :: '*' :: '*' :: Text.trimEnd body := by
    have hblock : Text.trimEnd ('/' :: '*' :: '*' :: body) =
        '/' :: '*' :: '*' :: Text.trimEnd body := by
      rw [Text.trimEnd_cons (by decide), Text.trimEnd_cons (by decide),
        Text.trimEnd_cons (by decide)]
    rw [Text.trimEnd_append (by rw [hblock]; exact List.cons_ne_nil _ _), hblock]
  have hbody := Text.trimEnd_prefix body
  rw [commentsBefore_eq, htrim] at hc
  cases hlast : lastComment? (pre ++ '/' :: '*' :: '*' :: Text.trimEnd body) with
  | none =>
    rw [hlast] at hc
    cases hc
  | some p =>
    obtain ⟨r, n, front⟩ := p
    rw [hlast] at hc
    obtain ⟨hr, a, rfl, ha⟩ := lastComment?_inside hpre (h.of_prefix hbody) hlast
    have hlt : a.length < body.length := by
      have hshorter := length_lt_of_lastComment? hlast
      have hle := hbody.length_le
      simp only [List.length_append, List.length_cons] at hshorter
      omega
    rcases List.mem_append.1 hc with hc | hc
    · exact kind_of_inside hpre (h.of_prefix (ha.trans hbody)) hc
    · exact kind_of_parse?_line hr (Option.mem_toList.1 hc)
termination_by body.length

/-! ## A doc block before a place -/

/-- The comments before a place that a doc block stands in front of: the block is read from the last
opening in it. -/
theorem commentsBefore_docBlock (pre body : List Char) {w : List Char}
    (hw : ∀ c ∈ w, Text.isBlank c) :
    ∃ u r n c, lastOpening? (docBlock body) = some (u, r) ∧
      (u = [] ∨ ∃ v, u = '/' :: '*' :: '*' :: v ∧ v <+: body) ∧
      ['*', '/'] <:+ r ∧ Comment.parse? (.ofList r) n = some c ∧
      commentsBefore (pre ++ docBlock body ++ w) = commentsBefore (pre ++ u) ++ [c] := by
  obtain ⟨u, r, hopen, hu⟩ := exists_lastOpening? body
  have hend : pre ++ docBlock body = pre ++ '/' :: '*' :: '*' :: (body ++ ['*']) ++ ['/'] := by
    simp [docBlock]
  have htrim : Text.trimEnd (pre ++ docBlock body ++ w) = pre ++ docBlock body := by
    rw [Text.trimEnd_append_blank hw, hend, Text.trimEnd_concat (by decide)]
  have hclosed : ['*', '/'].isSuffixOf (pre ++ docBlock body) = true :=
    List.isSuffixOf_iff_suffix.2 ⟨pre ++ '/' :: '*' :: '*' :: body, by simp [docBlock]⟩
  have hlast : lastComment? (pre ++ docBlock body) =
      some (r, lineAfter (pre ++ u), pre ++ u) := by
    rw [lastComment?, if_pos hclosed, lastOpening?_append hopen]
    rfl
  obtain ⟨hr, -⟩ := lastComment?_some hlast
  obtain ⟨c, hc, -⟩ := hr.exists_parse? (lineAfter (pre ++ u))
  obtain ⟨-, hstart, -⟩ := lastOpening?_eq_some_iff.1 hopen
  refine ⟨u, r, _, c, hopen, hu, ?_, hc, ?_⟩
  · cases hr with
    | block _ closed => exact closed
    | line opened =>
      obtain ⟨x, rfl⟩ := hstart
      simp at opened
  · rw [commentsBefore_eq, htrim, hlast]
    simp only [hc, Option.toList_some]

/-- A doc block with nothing in it that looks like an opening stands at the end of another one. -/
theorem lastOpening?_docBlock_iff {body u v : List Char} :
    lastOpening? (docBlock body) = some (u, docBlock v) ↔
      docBlock body = u ++ docBlock v ∧ Unopened v := by
  rw [lastOpening?_eq_some_iff, opening_infix_tail, not_not]
  have hopen : ['/', '*'] <+: docBlock v := List.prefix_append ['/', '*'] _
  simp [hopen]

/-- The last opening in a doc block is that of a doc block just if one with nothing else in it stands
at its end. -/
theorem eq_docBlock_of_lastOpening? {body u r : List Char}
    (h : lastOpening? (docBlock body) = some (u, r)) (v : List Char) :
    r = docBlock v ↔ ∃ u', docBlock body = u' ++ docBlock v ∧ Unopened v := by
  constructor
  · rintro rfl
    exact ⟨u, lastOpening?_docBlock_iff.1 h⟩
  · rintro ⟨u', hv⟩
    have hv' := lastOpening?_docBlock_iff.2 hv
    rw [h, Option.some.injEq, Prod.mk.injEq] at hv'
    exact hv'.2

section
variable {pre body w : List Char} (hw : ∀ c ∈ w, Text.isBlank c)
include hw

/-- The block is read as it is written just if nothing in it looks like another opening. -/
theorem getLast?_commentsBefore_docBlock :
    (commentsBefore (pre ++ docBlock body ++ w)).getLast?.map (fun c => (c.kind, c.value)) =
      some (.block, .ofList ('*' :: body)) ↔ Unopened body := by
  obtain ⟨u, r, n, c, hopen, -, hclose, hc, hcomments⟩ := commentsBefore_docBlock pre body hw
  obtain ⟨-, hstart, -⟩ := lastOpening?_eq_some_iff.1 hopen
  rw [hcomments, List.getLast?_concat, Option.map_some, Option.some.injEq,
    ← eq_docBlock_iff hstart hclose hc, eq_docBlock_of_lastOpening? hopen]
  exact ⟨fun ⟨_, _, h⟩ => h, fun h => ⟨[], (List.nil_append _).symm, h⟩⟩

/-- A doc block is found just if the last opening in the block is that of a doc block. -/
theorem hasDocComment_docBlock (hpre : StartsLine pre) (h : Inner body) :
    hasDocComment (commentsBefore (pre ++ docBlock body ++ w)) = true ↔
      ∃ u v, docBlock body = u ++ docBlock v ∧ Unopened v := by
  obtain ⟨u, r, n, c, hopen, hu, hclose, hc, hcomments⟩ := commentsBefore_docBlock pre body hw
  obtain ⟨hcut, hstart, -⟩ := lastOpening?_eq_some_iff.1 hopen
  have hlast : c.isDocBlock = true ↔ ∃ u v, docBlock body = u ++ docBlock v ∧ Unopened v := by
    rw [isDocBlock_iff hstart hclose hc, exists_comm]
    exact exists_congr (eq_docBlock_of_lastOpening? hopen)
  -- where the block is cut off inside, only lines are found before the rest of it
  have hbefore : hasDocComment (commentsBefore (pre ++ u)) = true → c.isDocBlock = true := by
    intro hany
    rcases hu with rfl | ⟨v, rfl, hv⟩
    · exact (isDocBlock_iff hstart hclose hc).2 ⟨body, hcut.symm⟩
    · obtain ⟨d, hd, hdoc⟩ := List.any_eq_true.1 hany
      simp [Comment.isDocBlock, kind_of_inside hpre (h.of_prefix hv) hd] at hdoc
  rw [hcomments, hasDocComment, List.any_append, Bool.or_eq_true, ← hlast, List.any_cons,
    List.any_nil, Bool.or_false]
  exact or_iff_right_of_imp hbefore

end

/-! ## The function behind the block -/

/-- What starts at a place on a line is the function of the line, and the place is behind spaces and
tabs. -/
theorem functionOfLine?_of_startByte {text before l u after : List Char} {f : FunctionNode}
    (hline : LineAt text before (l ++ u) after) (hf : f ∈ functions (Text.Utf8.encode text) text)
    (hplace : f.span.startByte = byteLength (before ++ l)) :
    (∀ c ∈ l, isIndent c) ∧
      functionOfLine? (Text.Utf8.encode text) before (l ++ u) = some f := by
  rw [functions_eq, List.mem_filterMap] at hf
  obtain ⟨⟨b, line⟩, hp, hpf⟩ := hf
  obtain ⟨indent, code, rest, after', hat, rfl, hby⟩ := declaredBy_of_mem_placed hp hpf
  have hsame : b ++ indent = before ++ l := by
    have hfound : b ++ indent <+: text := ⟨code ++ rest ++ after', by rw [hat.cut]; simp⟩
    have hgiven : before ++ l <+: text := ⟨u ++ after, by rw [hline.cut]; simp⟩
    exact eq_of_byteLength hfound hgiven (hby.startByte.symm.trans hplace)
  have hindent : OneLine indent := hat.oneLine.of_sublist
    ((List.sublist_append_left _ _).trans (List.sublist_append_left _ _))
  have hl : OneLine l := hline.oneLine.of_sublist (List.sublist_append_left _ _)
  -- both places are on the line where the text up to them ends
  have hends := lastLine_append hat.start hindent
  rw [hsame, lastLine_append hline.start hl, Prod.mk.injEq] at hends
  obtain ⟨rfl, rfl⟩ := hends
  rw [hat.line_eq hline] at hpf
  exact ⟨hby.blanks, hpf⟩

/-- A function `f` that takes nothing and does nothing. -/
def functionText : List Char := "function f() {}".toList

theorem functionOfLine?_functionText (source : List UInt8) (before : List Char)
    {indent : List Char} (h : ∀ c ∈ indent, isIndent c) :
    ∃ f, functionOfLine? source before (indent ++ functionText) = some f ∧
      f.form = .declaration (some "f") ∧ f.span.startByte = byteLength (before ++ indent) ∧
      f.leadingComments = commentsBefore (before ++ indent) := by
  have htake : (indent ++ functionText).takeWhile isIndent = indent := by
    have hfirst : functionText.takeWhile isIndent = [] := by decide
    rw [List.takeWhile_append_of_pos h, hfirst, List.append_nil]
  have hdrop : (indent ++ functionText).dropWhile isIndent = functionText := by
    rw [List.dropWhile_append_of_pos h]
    decide
  have hread : declared? functionText = some (.function ['f'], "() {}".toList) := by
    decide +kernel
  simp only [functionOfLine?, htake, hdrop, hread, Option.map_some]
  exact ⟨_, rfl, rfl, (byteLength_append before indent).symm, rfl⟩

/-- The function behind blanks is found just if it is indented by spaces and tabs. It has the
comments that are before it. -/
theorem functions_functionText (front : List Char) {w : List Char} (hw : '\n' ∈ w) :
    let before := front ++ w
    let text := before ++ functionText
    (∀ f ∈ functions (Text.Utf8.encode text) text, f.span.startByte = byteLength before →
      f.form = .declaration (some "f") ∧ f.leadingComments = commentsBefore before) ∧
    ((∃ f ∈ functions (Text.Utf8.encode text) text, f.span.startByte = byteLength before) ↔
      ∀ c ∈ (lastLine w).2, isIndent c) := by
  intro before text
  obtain ⟨a, l, rfl, ha, hl⟩ := Text.exists_lastLine w
  have hstart : StartsLine (front ++ a) := by
    refine ha.after ?_ front
    rintro rfl
    exact hl hw
  have hcut : before = front ++ a ++ l := (List.append_assoc _ _ _).symm
  have hline : LineAt text (front ++ a) (l ++ functionText) [] :=
    ⟨by simp [text, before], hstart, hl.append (by decide), .inl rfl⟩
  rw [lastLine_append ha hl, hcut]
  refine ⟨fun f hf hplace => ?_, fun ⟨f, hf, hplace⟩ => ?_, fun hindent => ?_⟩
  · obtain ⟨hindent, hfline⟩ := functionOfLine?_of_startByte hline hf hplace
    obtain ⟨g, hg, hform, -, hcomments⟩ :=
      functionOfLine?_functionText (Text.Utf8.encode text) (front ++ a) hindent
    obtain rfl : f = g := Option.some.inj (hfline.symm.trans hg)
    exact ⟨hform, hcomments⟩
  · exact (functionOfLine?_of_startByte hline hf hplace).1
  · obtain ⟨g, hg, -, hplace, -⟩ :=
      functionOfLine?_functionText (Text.Utf8.encode text) (front ++ a) hindent
    refine ⟨g, ?_, hplace⟩
    rw [functions_eq, List.mem_filterMap]
    exact ⟨_, hline.mem_placed (List.append_ne_nil_of_right_ne_nil l (by decide)), hg⟩

/-- **Doc blocks before a function.** A doc block starts a line, and behind it there are only blanks
up to a function on a line further down. The block is the last comment before the function, as it is
written, just if nothing else opens in it: the body has no `/*` and does not end with a slash. A doc
block is found at all just if the last opening in the block is that of a doc block with nothing else
in it. The file can be scanned, and the function has these comments; it is found just if it is
indented by spaces and tabs. -/
theorem scan_docBlock_iff (path : String) {pre body w : List Char} (hpre : StartsLine pre)
    (hbody : Inner body) (hw : ∀ c ∈ w, Text.isBlank c) (hline : '\n' ∈ w) :
    let before := pre ++ docBlock body ++ w
    let comments := commentsBefore before
    (comments.getLast?.map (fun c => (c.kind, c.value)) = some (.block, .ofList ('*' :: body)) ↔
      Unopened body) ∧
    (hasDocComment comments = true ↔ ∃ u v, docBlock body = u ++ docBlock v ∧ Unopened v) ∧
    ∃ facts, scan path (Text.Utf8.encode (before ++ functionText)) = .ok facts ∧
      (∀ f ∈ facts.functions, f.span.startByte = byteLength before →
        f.form = .declaration (some "f") ∧ f.leadingComments = comments) ∧
      ((∃ f ∈ facts.functions, f.span.startByte = byteLength before) ↔
        ∀ c ∈ (lastLine w).2, isIndent c) := by
  intro before comments
  refine ⟨getLast?_commentsBefore_docBlock hw, hasDocComment_docBlock hw hpre hbody, ?_⟩
  refine ⟨⟨path, languageName, functions _ (before ++ functionText), false⟩, ?_,
    functions_functionText (pre ++ docBlock body) hline⟩
  rw [scan, Text.Utf8.decode_encode]

/-- Stars and slashes that do not meet do no harm. -/
theorem scan_docBlock_iff_stars :
    let body := "\n * Sums a // b, ** twice.\n ".toList
    let before := "use();\n".toList ++ docBlock body ++ "\n\t".toList
    Inner body ∧ Unopened body ∧
    (commentsBefore before).getLast?.map (fun c => (c.kind, c.value)) =
      some (.block, .ofList ('*' :: body)) ∧
    ∃ facts, scan "a.txt" (Text.Utf8.encode (before ++ functionText)) = .ok facts ∧
      ∃ f ∈ facts.functions, f.form = .declaration (some "f") ∧
        hasDocComment f.leadingComments = true := by
  intro body before
  have hbody : Inner body := by decide
  have hopen : Unopened body := by decide
  obtain ⟨hblock, hdoc, facts, hscan, hnode, hfound⟩ :=
    @scan_docBlock_iff "a.txt" "use();\n".toList body "\n\t".toList (by decide) hbody
      (List.all_eq_true.1 (by decide)) (by decide)
  obtain ⟨f, hf, hplace⟩ := hfound.2 (List.all_eq_true.1 (by decide))
  obtain ⟨hform, hcomments⟩ := hnode f hf hplace
  refine ⟨hbody, hopen, hblock.2 hopen, facts, hscan, f, hf, hform, ?_⟩
  rw [hcomments]
  exact hdoc.2 ⟨[], body, rfl, hopen⟩

/-- A glob in the body, or a slash at its end: what is left of the block is no doc block. -/
theorem scan_docBlock_glob :
    let glob := " Reads src/* first. ".toList
    let slash := " See a/".toList
    Inner glob ∧ Inner slash ∧
    commentsBefore (docBlock glob ++ ['\n']) = [⟨.block, " first. ", 1⟩] ∧
    commentsBefore (docBlock slash ++ ['\n']) = [⟨.block, "/", 1⟩] ∧
    ∀ body ∈ [glob, slash],
      ((scan "a.txt" (Text.Utf8.encode (docBlock body ++ ['\n'] ++ functionText))).map fun facts =>
        facts.functions.map fun f => (f.form, hasDocComment f.leadingComments)) =
      .ok [(.declaration (some "f"), false)] := by
  decide +kernel

end DocScope.LineScan
