import DocScope.Proofs.Source.Offsets
import DocScope.Proofs.Text.Trim
import Mathlib.Data.List.Infix

/-!
# Declarations found by lines

* `Opens`, `declared?_some`: whatever form a declaration has, it starts with a character that is not
  blank, it has a name, and what follows it is the rest of the text that it is read from;
* `LineAt`, `placed`: the lines of a text, each with what stands before it. They come one after the
  other (`pairwise_placed`), and the functions of a text are those of its lines (`functions_eq`);
* `DeclaredBy`, `functionOfLine?_some`: where the function of a line stands;
* `scan_one_per_line`: so the functions of a file are apart, at most one on each line.
-/

namespace DocScope.LineScan

open Text.Utf8 (encode)

/-! ## One line -/

/-- `s` starts with a character that is not blank, and `rest` is left of what follows it. -/
def Opens (s rest : List Char) : Prop :=
  ∃ c u, s = c :: u ∧ Text.isBlank c = false ∧ rest <:+ u

theorem Opens.mono {s r r' : List Char} (h : Opens s r) (hr : r' <:+ r) : Opens s r' := by
  obtain ⟨c, u, rfl, hc, hu⟩ := h
  exact ⟨c, u, rfl, hc, hr.trans hu⟩

theorem suffix_of_stripStart? {p s r : List Char} (h : Text.stripStart? p s = some r) :
    r <:+ s := ⟨p, List.isPrefixOf?_eq_some_iff_append_eq.1 h⟩

theorem opens_of_stripStart? {c : Char} {w s r : List Char} (hc : Text.isBlank c = false)
    (h : Text.stripStart? (c :: w) s = some r) : Opens s r := by
  obtain rfl : c :: w ++ r = s := List.isPrefixOf?_eq_some_iff_append_eq.1 h
  exact ⟨c, w ++ r, rfl, hc, List.suffix_append w r⟩

theorem skipWord_cases (w : String) (s : List Char) :
    skipWord w s = s ∨ ∃ r, Text.stripStart? w.toList s = some r ∧ skipWord w s <:+ r := by
  unfold skipWord
  split
  · next c r h =>
    split
    · exact .inr ⟨c :: r, h, (List.dropWhile_suffix _).trans (List.suffix_cons c r)⟩
    · exact .inl rfl
  · exact .inl rfl

theorem skipWord_suffix (w : String) (s : List Char) : skipWord w s <:+ s := by
  rcases skipWord_cases w s with h | ⟨r, hr, h⟩
  · rw [h]
  · exact h.trans (suffix_of_stripStart? hr)

/-- What opens behind a skipped word opens with the word. -/
theorem Opens.of_skipWord {w : String} {c : Char} {v s r : List Char} (hw : w.toList = c :: v)
    (hc : Text.isBlank c = false) (h : Opens (skipWord w s) r) : Opens s r := by
  rcases skipWord_cases w s with hs | ⟨t, ht, hs⟩
  · rwa [hs] at h
  · obtain ⟨d, u, hd, -, hu⟩ := h
    rw [hw] at ht
    rw [hd] at hs
    exact (opens_of_stripStart? hc ht).mono (hu.trans ((List.suffix_cons d u).trans hs))

theorem name?_some {s n r : List Char} (h : name? s = some (n, r)) : n ≠ [] ∧ r <:+ s := by
  unfold name? at h
  split at h
  · next c t =>
    split at h
    · simp only [Option.some.injEq, Prod.mk.injEq] at h
      obtain ⟨rfl, rfl⟩ := h
      exact ⟨List.cons_ne_nil _ _, (List.dropWhile_suffix _).trans (List.suffix_cons c t)⟩
    · cases h
  · cases h

theorem afterArrow?_suffix {s r : List Char} (h : afterArrow? s = some r) : r <:+ s :=
  (suffix_of_stripStart? h).trans (List.dropWhile_suffix _)

theorem afterFunction?_suffix {s r : List Char} (h : afterFunction? s = some r) : r <:+ s := by
  unfold afterFunction? at h
  split at h
  · next t ht =>
    split at h
    · cases h
    · obtain rfl := Option.some.inj h
      exact suffix_of_stripStart? ht
  · cases h

theorem afterParameters?_suffix {s r : List Char} (h : afterParameters? s = some r) : r <:+ s := by
  unfold afterParameters? at h
  split at h
  · next t =>
    split at h
    · next c u hu =>
      have htail : u <:+ t := (List.suffix_cons c u).trans (hu ▸ List.dropWhile_suffix _)
      exact (afterArrow?_suffix h).trans (htail.trans (List.suffix_cons _ t))
    · cases h
  · cases h

theorem afterParameter?_suffix {s r : List Char} (h : afterParameter? s = some r) : r <:+ s := by
  unfold afterParameter? at h
  split at h
  · next n t ht =>
    exact (suffix_of_stripStart? h).trans ((List.dropWhile_suffix _).trans (name?_some ht).2)
  · cases h

theorem afterInitializer?_suffix {s r : List Char} (h : afterInitializer? s = some r) :
    r <:+ s := by
  unfold afterInitializer? at h
  rcases Option.or_eq_some_iff.1 h with h | ⟨-, h⟩
  · exact afterFunction?_suffix h
  · rcases Option.or_eq_some_iff.1 h with h | ⟨-, h⟩
    · exact afterParameters?_suffix h
    · exact afterParameter?_suffix h

/-- The name that is declared. -/
def Declared.name : Declared → List Char
  | .function n => n
  | .expression n => n
  | .arrow n => n

@[simp] theorem name_boundTo (n init : List Char) : (boundTo n init).name = n := by
  unfold boundTo
  split <;> rfl

section
variable {s r : List Char} {d : Declared}

theorem functionDeclared?_some (h : functionDeclared? s = some (d, r)) :
    d.name ≠ [] ∧ Opens s r := by
  unfold functionDeclared? at h
  split at h
  · cases h
  · next t ht =>
    obtain ⟨⟨n, u⟩, hn, heq⟩ := Option.map_eq_some_iff.1 h
    simp only [Prod.mk.injEq] at heq
    obtain ⟨rfl, rfl⟩ := heq
    obtain ⟨hne, hu⟩ := name?_some hn
    refine ⟨hne, (opens_of_stripStart? (by decide) ht).mono (hu.trans ?_)⟩
    have hblank := List.dropWhile_suffix (l := t) isIndent
    refine (List.dropWhile_suffix _).trans (List.IsSuffix.trans ?_ hblank)
    split
    · exact List.drop_suffix 1 _
    · exact List.suffix_rfl

theorem afterVariableWord?_some (h : afterVariableWord? s = some r) : Opens s r := by
  have hword : ∀ {w : String} {c e : Char} {v u : List Char}, w.toList = c :: v →
      Text.isBlank c = false → Text.stripStart? w.toList s = some (e :: u) →
      Opens s (u.dropWhile isIndent) := by
    intro w c e v u hw hc hu
    rw [hw] at hu
    exact (opens_of_stripStart? hc hu).mono
      ((List.dropWhile_suffix _).trans (List.suffix_cons e u))
  unfold afterVariableWord? at h
  rw [Option.or_eq_some_iff, Option.or_eq_some_iff] at h
  rcases h with (h | ⟨-, h⟩) | ⟨-, h⟩
  all_goals
    dsimp only at h
    split at h
    · next e u hu =>
      split at h
      · obtain rfl := Option.some.inj h
        exact hword rfl (by decide) hu
      · cases h
    · cases h

theorem variableDeclared?_some (h : variableDeclared? s = some (d, r)) :
    d.name ≠ [] ∧ Opens s r := by
  unfold variableDeclared? at h
  split at h
  · cases h
  · next t ht =>
    split at h
    · cases h
    · next n u hn =>
      obtain ⟨hne, hu⟩ := name?_some hn
      split at h
      · cases h
      · next c v hv =>
        have hinit : v.dropWhile isIndent <:+ t :=
          ((List.dropWhile_suffix _).trans (List.suffix_cons c v)).trans
            ((hv ▸ List.dropWhile_suffix _ : c :: v <:+ u).trans hu)
        have hopens := (afterVariableWord?_some ht).mono hinit
        dsimp only at h
        split at h
        · next hlate =>
          simp only [Option.some.injEq, Prod.mk.injEq] at h
          obtain ⟨rfl, rfl⟩ := h
          refine ⟨by simpa using hne, hopens.mono ?_⟩
          exact (afterInitializer?_suffix hlate).trans (skipWord_suffix _ _)
        · obtain ⟨u', hu', heq⟩ := Option.map_eq_some_iff.1 h
          simp only [Prod.mk.injEq] at heq
          obtain ⟨rfl, rfl⟩ := heq
          exact ⟨by simpa using hne, hopens.mono (afterInitializer?_suffix hu')⟩

/-- A declaration has a name, and it opens the text that it is read from. -/
theorem declared?_some (h : declared? s = some (d, r)) : d.name ≠ [] ∧ Opens s r := by
  unfold declared? at h
  have hread : d.name ≠ [] ∧
      Opens (skipWord "async" (skipWord "default" (skipWord "export" s))) r := by
    rcases Option.or_eq_some_iff.1 h with h | ⟨-, h⟩
    · exact functionDeclared?_some h
    · exact variableDeclared?_some h
  refine ⟨hread.1, ?_⟩
  have hasync := hread.2.of_skipWord rfl (by decide)
  have hdefault := hasync.of_skipWord rfl (by decide)
  exact hdefault.of_skipWord rfl (by decide)

end

/-- The names a function may have: its own, or that of the variable it is bound to. -/
inductive Named : FunctionForm → Prop
  | declaration {n : String} (h : n ≠ "") : Named (.declaration (some n))
  | expression {n : String} (h : n ≠ "") : Named (.expression none (.bound n))
  | arrow {n : String} (h : n ≠ "") : Named (.arrow (.bound n))

theorem Declared.named {d : Declared} (h : d.name ≠ []) : Named d.form := by
  have hne : String.ofList d.name ≠ "" := by simpa using h
  cases d with
  | function n => exact .declaration hne
  | expression n => exact .expression hne
  | arrow n => exact .arrow hne

/-! ## Lines of a text -/

/-- `line` is a line of `text` without its end, and `before` is the text before it. -/
structure LineAt (text before line after : List Char) : Prop where
  cut : text = before ++ line ++ after
  start : StartsLine before
  oneLine : OneLine line
  stop : after = [] ∨ after.head? = some '\n'

/-- Lines without their ends, each with what stands before it; `before` stands before all. -/
def placed (before : List Char) : List (List Char) → List (List Char × List Char)
  | [] => []
  | l :: ls => (before, Text.dropEnd (· == '\n') l) :: placed (before ++ l) ls

theorem functionsOfLines_eq (source : List UInt8) (before : List Char) (ls : List (List Char)) :
    functionsOfLines source before ls =
      (placed before ls).filterMap fun p => functionOfLine? source p.1 p.2 := by
  induction ls generalizing before with
  | nil => rfl
  | cons l ls ih =>
    rw [functionsOfLines, placed, ih, List.filterMap_cons]
    cases functionOfLine? source before (Text.dropEnd (· == '\n') l) <;> rfl

theorem dropEnd_newline {t : List Char} (h : OneLine t) :
    Text.dropEnd (· == '\n') t = t := by
  refine List.rdropWhile_eq_self_iff.2 fun hne hlast => h ?_
  rw [← beq_iff_eq.1 hlast]
  exact List.getLast_mem hne

theorem dropEnd_line {t : List Char} (h : OneLine t) :
    Text.dropEnd (· == '\n') (t ++ ['\n']) = t := by
  rw [Text.dropEnd_append_of_all (by simp), dropEnd_newline h]

theorem placed_last {t : List Char} (h : OneLine t) (hne : t ≠ []) (before : List Char) :
    placed before (Text.splitInclusive t) = [(before, t)] := by
  rw [Text.splitInclusive_last h hne, placed, placed, dropEnd_newline h]

theorem placed_line {t : List Char} (h : OneLine t) (before rest : List Char) :
    placed before (Text.splitInclusive (t ++ '\n' :: rest)) =
      (before, t) :: placed (before ++ (t ++ ['\n'])) (Text.splitInclusive rest) := by
  rw [Text.splitInclusive_line h, placed, dropEnd_line h]

theorem mem_placed {before text b l : List Char} (hb : StartsLine before)
    (h : (b, l) ∈ placed before (Text.splitInclusive text)) :
    before <+: b ∧ ∃ after, LineAt (before ++ text) b l after := by
  induction text using Text.lineInduction generalizing before with
  | last t ht =>
    by_cases hne : t = []
    · subst hne
      cases h
    · rw [placed_last ht hne, List.mem_singleton, Prod.mk.injEq] at h
      obtain ⟨rfl, rfl⟩ := h
      exact ⟨List.prefix_rfl, [], by simp, hb, ht, .inl rfl⟩
  | line t rest ht ih =>
    rw [placed_line ht, List.mem_cons, Prod.mk.injEq] at h
    rcases h with ⟨rfl, rfl⟩ | h
    · exact ⟨List.prefix_rfl, '\n' :: rest, by simp, hb, ht, .inr rfl⟩
    · obtain ⟨hpre, after, hafter⟩ := ih (hb.append (.newline t)) h
      refine ⟨(List.prefix_append _ _).trans hpre, after, ?_⟩
      simpa using hafter

theorem placed_append (before : List Char) (ls ls' : List (List Char)) :
    placed before (ls ++ ls') = placed before ls ++ placed (before ++ ls.flatten) ls' := by
  induction ls generalizing before with
  | nil =>
    rw [List.flatten_nil, List.append_nil]
    rfl
  | cons l ls ih =>
    rw [List.cons_append, placed, ih, List.flatten_cons, List.append_assoc, placed,
      List.cons_append]

/-- Every line with something on it is among the lines of the text. -/
theorem LineAt.mem_placed {text before line after : List Char} (h : LineAt text before line after)
    (hne : line ≠ []) : (before, line) ∈ placed [] (Text.splitInclusive text) := by
  rw [h.cut, List.append_assoc, Text.splitInclusive_append h.start, placed_append,
    Text.flatten_splitInclusive, List.nil_append, List.mem_append]
  right
  rcases h.stop with rfl | hstop
  · rw [List.append_nil, placed_last h.oneLine hne]
    exact List.mem_singleton_self _
  · obtain ⟨rest, rfl⟩ := List.head?_eq_some_iff.1 hstop
    rw [placed_line h.oneLine]
    exact List.mem_cons_self

/-- There is one line behind what stands before it. -/
theorem LineAt.line_eq {text before line line' after after' : List Char}
    (h : LineAt text before line after) (h' : LineAt text before line' after') : line = line' := by
  have hline : ∀ {l r : List Char}, OneLine l → (r = [] ∨ r.head? = some '\n') →
      (l ++ r).takeWhile (· != '\n') = l := by
    intro l r hl hr
    rw [List.takeWhile_append_of_pos hl.bne]
    rcases hr with rfl | hr
    · simp
    · obtain ⟨t, rfl⟩ := List.head?_eq_some_iff.1 hr
      simp
  have hcut : line ++ after = line' ++ after' := by
    rw [← List.append_right_inj before, ← List.append_assoc, ← List.append_assoc, ← h.cut, ← h'.cut]
  rw [← hline h.oneLine h.stop, hcut, hline h'.oneLine h'.stop]

/-- Each line stands behind the end of the lines before it. -/
theorem pairwise_placed {before : List Char} (hb : StartsLine before) (text : List Char) :
    (placed before (Text.splitInclusive text)).Pairwise fun p q =>
      p.1 ++ p.2 ++ ['\n'] <+: q.1 := by
  induction text using Text.lineInduction generalizing before with
  | last t ht =>
    by_cases hne : t = []
    · subst hne
      exact .nil
    · rw [placed_last ht hne]
      exact List.pairwise_singleton _ _
  | line t rest ht ih =>
    have hnext := hb.append (.newline t)
    rw [placed_line ht]
    refine List.pairwise_cons.2 ⟨fun q hq => ?_, ih hnext⟩
    rw [List.append_assoc]
    exact (mem_placed hnext hq).1

/-- `f` is declared by `code`, which stands behind `before` at the start of a line and the spaces and
tabs `indent`. -/
structure DeclaredBy (source : List UInt8) (before indent code : List Char) (f : FunctionNode) :
    Prop where
  blanks : ∀ c ∈ indent, isIndent c
  solid : ∃ c u, code = c :: u ∧ Text.isBlank c = false
  span : f.span =
    .ofOffsets source (byteLength (before ++ indent)) (byteLength (before ++ indent ++ code))
  line : f.line = (before ++ indent).count '\n' + 1
  comments : f.leadingComments = commentsBefore (before ++ indent)
  named : Named f.form

section
variable {source : List UInt8} {before indent code : List Char} {f : FunctionNode}

theorem DeclaredBy.startByte (h : DeclaredBy source before indent code f) :
    f.span.startByte = byteLength (before ++ indent) := by
  rw [h.span]
  rfl

theorem DeclaredBy.endByte (h : DeclaredBy source before indent code f) :
    f.span.endByte = byteLength (before ++ indent ++ code) := by
  rw [h.span]
  rfl

end

theorem functionOfLine?_some {text before line after : List Char} {f : FunctionNode}
    (hl : LineAt text before line after)
    (h : functionOfLine? (encode text) before line = some f) :
    ∃ indent code rest, line = indent ++ code ++ rest ∧
      DeclaredBy (encode text) before indent code f := by
  obtain ⟨⟨d, rest⟩, hd, rfl⟩ := Option.map_eq_some_iff.1 h
  obtain ⟨hname, c, u, hcode, hc, t, rfl⟩ := declared?_some hd
  have hline : line = line.takeWhile isIndent ++ (c :: t) ++ rest := by
    rw [List.append_assoc, List.cons_append, ← hcode, List.takeWhile_append_dropWhile]
  refine ⟨line.takeWhile isIndent, c :: t, rest, hline, ?_⟩
  have hstart : byteLength before + byteLength (line.takeWhile isIndent) =
      byteLength (before ++ line.takeWhile isIndent) := (byteLength_append _ _).symm
  have hstop : byteLength (line.dropWhile isIndent) - byteLength rest = byteLength (c :: t) := by
    rw [hcode, ← List.cons_append, byteLength_append, Nat.add_sub_cancel]
  dsimp only
  rw [hstart, hstop, ← byteLength_append]
  refine ⟨fun x hx => List.mem_takeWhile_imp hx, ⟨c, t, rfl, hc⟩, rfl, ?_,
    rfl, Declared.named hname⟩
  have hcut : text = (before ++ line.takeWhile isIndent) ++ ((c :: t) ++ rest ++ after) := by
    rw [hl.cut]
    nth_rewrite 1 [hline]
    simp
  rw [hcut]
  exact Position.line_ofOffset _ _

/-! ## A whole file -/

section
variable {text : List Char} {f : FunctionNode}

theorem functions_eq (text : List Char) :
    functions (encode text) text = (placed [] (Text.splitInclusive text)).filterMap
      fun p => functionOfLine? (encode text) p.1 p.2 :=
  functionsOfLines_eq _ _ _

theorem declaredBy_of_mem_placed {p : List Char × List Char}
    (hp : p ∈ placed [] (Text.splitInclusive text))
    (h : functionOfLine? (encode text) p.1 p.2 = some f) :
    ∃ indent code rest after, LineAt text p.1 (indent ++ code ++ rest) after ∧
      p.2 = indent ++ code ++ rest ∧ DeclaredBy (encode text) p.1 indent code f := by
  obtain ⟨-, after, hline⟩ := mem_placed (.inl rfl) hp
  obtain ⟨indent, code, rest, hcut, hby⟩ := functionOfLine?_some hline h
  exact ⟨indent, code, rest, after, hcut ▸ hline, hcut, hby⟩

theorem pairwise_functions (text : List Char) :
    (functions (encode text) text).Pairwise fun f g =>
      f.span.startByte < g.span.startByte ∧ f.span.endByte ≤ g.span.startByte ∧
        f.line < g.line := by
  rw [functions_eq, List.pairwise_filterMap]
  refine (pairwise_placed (.inl rfl) text).imp_of_mem ?_
  rintro p q hp hq ⟨t, ht⟩ f hf g hg
  obtain ⟨indent, code, rest, after, hline, hcut, hby⟩ := declaredBy_of_mem_placed hp hf
  obtain ⟨indent', code', rest', after', -, -, hby'⟩ := declaredBy_of_mem_placed hq hg
  obtain ⟨c, u, rfl, -⟩ := hby.solid
  have hfirst := byteLength_cons_pos c u
  have hindent : indent.count '\n' = 0 := by
    rw [List.count_eq_zero]
    intro hm
    exact hline.oneLine (by simp [hm])
  rw [hby.startByte, hby.endByte, hby'.startByte, hby.line, hby'.line, ← ht, hcut]
  simp only [byteLength_append, List.count_append, hindent, List.count_singleton_self]
  omega

end

/-- **One function per line.** A file cannot be scanned just if it is not UTF-8. Otherwise its
functions are those of a text. Each of them is declared on one line of it: its span is that of
`code`, which starts with the first character of the line that is not blank, its line is counted by
the newlines before it, and it has a name. The spans come one after the other, on lines further and
further down. -/
theorem scan_one_per_line (path : String) (source : List UInt8) :
    ((∃ e, scan path source = .error e) ↔ ¬ source.toByteArray.IsValidUTF8) ∧
    ∀ facts, scan path source = .ok facts → ∃ text, encode text = source ∧
      (∀ f ∈ facts.functions, ∃ before indent code rest after,
        LineAt text before (indent ++ code ++ rest) after ∧
          DeclaredBy source before indent code f) ∧
      facts.functions.Pairwise fun f g =>
        f.span.startByte < g.span.startByte ∧ f.span.endByte ≤ g.span.startByte ∧
          f.line < g.line := by
  refine ⟨?_, fun facts h => ?_⟩
  · rw [← Text.Utf8.exists_fault_iff]
    unfold scan
    cases Text.Utf8.decode source <;> simp
  · unfold scan at h
    split at h
    · cases h
    · next text htext =>
      obtain rfl := Except.ok.inj h
      obtain rfl := Text.Utf8.decode_eq_ok_iff.1 htext
      refine ⟨text, rfl, fun f hf => ?_, pairwise_functions text⟩
      rw [functions_eq, List.mem_filterMap] at hf
      obtain ⟨p, hp, hpf⟩ := hf
      obtain ⟨indent, code, rest, after, hline, -, hby⟩ := declaredBy_of_mem_placed hp hpf
      exact ⟨p.1, indent, code, rest, after, hline, hby⟩

/-- Two functions, one of them indented, behind a character of two bytes. -/
theorem scan_one_per_line_indented :
    let source := Text.Utf8.bytesOf "// é\n\tfunction f() {}\n\nconst g = x => x\n"
    ∃ facts, scan "a.txt" source = .ok facts ∧
      facts.functions.map (fun f => (f.line, f.span.startByte, f.span.endByte)) =
        [(2, 7, 17), (4, 24, 38)] ∧
      facts.functions.Pairwise fun f g =>
        f.span.startByte < g.span.startByte ∧ f.span.endByte ≤ g.span.startByte ∧
          f.line < g.line := by
  intro source
  let text := "// é\n\tfunction f() {}\n\nconst g = x => x\n".toList
  have h : scan "a.txt" source = .ok ⟨"a.txt", languageName, functions source text, false⟩ := by
    decide +kernel
  obtain ⟨_, -, -, hapart⟩ := (scan_one_per_line "a.txt" source).2 _ h
  exact ⟨_, h, by decide +kernel, hapart⟩

end DocScope.LineScan
