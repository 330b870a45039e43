import DocScope.Proofs.Docs.Printing

/-!
# Types with braces in them

A type stands in braces and is read up to the first closing brace. A type with braces of its own,
such as the type of a record, is cut there, and the rest of it is taken for a part of what follows.

* `exists_type?`: what is read as the type;
* `param?_eq_iff`, `returnDoc_eq_iff`: a parameter with a name, and a result, are read back just if
  their type has no closing brace;
* `params_said`, `returns_said`: what a line with a tag adds to what the lines around it say;
* `parse_typed`: so for every comment that has such a line, and `parse_typed_record` is a comment
  that is misread.
-/

namespace DocScope

/-! ## What can be written on a line -/

/-- The parts of a parameter can be told apart on its line, if the type is told from the rest. -/
@[mk_iff]
structure ParamDoc.Writable (p : ParamDoc) : Prop where
  type : TrimmedLine p.type.toList
  name_word : p.name.toList.any Text.isBlank = false
  name_plain : p.name.toList.any (· ∈ ['[', ']', '\x7b', '\x7d', '=']) = false
  description : TrimmedLine p.description.toList
  description_head : p.description.toList.head? ≠ some '-'

@[mk_iff]
structure ReturnDoc.Writable (r : ReturnDoc) : Prop where
  type : TrimmedLine r.type.toList
  description : TrimmedLine r.description.toList
  description_head : r.description.toList.head? ≠ some '-'

instance (p : ParamDoc) : Decidable p.Writable := decidable_of_iff _ (p.writable_iff).symm

instance (r : ReturnDoc) : Decidable r.Writable := decidable_of_iff _ (r.writable_iff).symm

theorem ParamDoc.Writable.not_mem_name {p : ParamDoc} (h : p.Writable) {c : Char}
    (hc : c ∈ ['[', ']', '\x7b', '\x7d', '=']) : c ∉ p.name.toList := by
  intro hm
  simpa [hc] using List.any_eq_false.1 h.name_plain c hm

theorem ParamDoc.Writable.printable {p : ParamDoc} (h : p.Writable)
    (htype : '\x7d' ∉ p.type.toList) (hname : p.name ≠ "") : p.Printable where
  type := h.type
  type_no_brace := htype
  name_ne := by simpa using hname
  name_word := h.name_word
  name_no_default := h.not_mem_name (by decide)
  name_head hhead := h.not_mem_name (c := '[') (by decide) (List.mem_of_head? hhead)
  name_last hlast := h.not_mem_name (c := ']') (by decide) (List.mem_of_getLast? hlast)
  description := h.description

theorem ReturnDoc.Writable.printable {r : ReturnDoc} (h : r.Writable)
    (htype : '\x7d' ∉ r.type.toList) : r.Printable :=
  ⟨h.type, htype, h.description, h.description_head⟩

namespace DocComment

/-- Every brace has its partner: no start closes more braces than it opens, and in the end all of
them are closed. -/
def Balanced (s : List Char) : Prop :=
  (∀ u ∈ s.inits, u.count '\x7d' ≤ u.count '\x7b') ∧ s.count '\x7b' = s.count '\x7d'

instance (s : List Char) : Decidable (Balanced s) := inferInstanceAs (Decidable (_ ∧ _))

theorem Balanced.closes {s : List Char} (h : Balanced s) (hopens : '\x7b' ∈ s) : '\x7d' ∈ s := by
  rw [← List.count_pos_iff, ← h.2]
  exact List.count_pos_iff.2 hopens

/-! ## Types -/

/-- What is read of a type. -/
def typeRead (t : String) : String := .ofList (Text.trim (t.toList.takeWhile (· != '\x7d')))

theorem not_mem_typeRead (t : String) : '\x7d' ∉ (typeRead t).toList := by
  intro h
  rw [typeRead, String.toList_ofList] at h
  have hread := List.mem_takeWhile_imp ((Text.trim_sublist _).subset h)
  simp at hread

/-- The first closing brace is the one behind the type, or stands in it; what was to be read behind
the type is still there. -/
theorem exists_type? (t rest : List Char) : ∃ behind,
    type? ('\x7b' :: (t ++ '\x7d' :: rest)) =
      some (t.takeWhile (· != '\x7d'), Text.trimStart behind) ∧ rest <:+ behind := by
  by_cases ht : '\x7d' ∈ t
  · obtain ⟨u, v, rfl, hu⟩ := List.eq_append_cons_of_mem ht
    refine ⟨v ++ '\x7d' :: rest, ?_, (List.suffix_cons _ _).trans (List.suffix_append _ _)⟩
    have hread : (u ++ '\x7d' :: v).takeWhile (· != '\x7d') = u := by
      rw [List.takeWhile_append_of_pos (bne_of_not_mem hu)]
      simp
    rw [hread, List.append_assoc, List.cons_append, type?_braces hu]
  · have hread : t.takeWhile (· != '\x7d') = t :=
      List.takeWhile_eq_self_iff.2 (bne_of_not_mem ht)
    exact ⟨rest, by rw [hread, type?_braces ht], List.suffix_rfl⟩

/-! ## Parameters -/

theorem exists_paramName? {s : List Char} {c : Char} (hc : c ∈ s)
    (hblank : Text.isBlank c = false) :
    ∃ w rest, paramName? (Text.trimStart s) = some (w, rest) := by
  cases hs : Text.trimStart s with
  | nil => simpa [hblank] using List.dropWhile_eq_nil_iff.1 hs c hc
  | cons d r =>
    have hfix : Text.trimStart (d :: r) = d :: r := hs ▸ List.dropWhile_idempotent _ s
    have hd : Text.isBlank d = false := by
      simpa using List.dropWhile_eq_self_iff.1 hfix (Nat.succ_pos _)
    have hplain : (d :: r).takeWhile (!Text.isBlank ·) ≠ [] := by simp [hd]
    unfold paramName?
    simp only [hplain, ↓reduceIte]
    split
    · split
      · exact ⟨_, _, rfl⟩
      · exact ⟨_, _, rfl⟩
    · exact ⟨_, _, rfl⟩

theorem exists_param? (p : ParamDoc) :
    ∃ q, param? (paramText p) = some q ∧ q.type = typeRead p.type := by
  obtain ⟨behind, htype, hbehind⟩ := exists_type? p.type.toList
    (' ' :: (p.name.toList ++ ' ' :: '-' :: Text.trimEnd (' ' :: p.description.toList)))
  have hhyphen : '-' ∈ behind := hbehind.subset (by simp)
  obtain ⟨w, rest, hname⟩ := exists_paramName? hhyphen (by decide)
  rw [param?, paramText, htype]
  simp only [namedParam?, hname, Option.map_some, Option.some_or]
  exact ⟨_, rfl, rfl⟩

/-- Without a name the hyphen is taken for it. -/
theorem param?_unnamed {p : ParamDoc} (htype : '\x7d' ∉ p.type.toList) (hname : p.name = "") :
    ∃ q, param? (paramText p) = some q ∧ q.name = "-" := by
  have hstart : ∀ r, Text.trimStart (' ' :: ' ' :: '-' :: r) = '-' :: r :=
    fun r => Text.trimStart_cons (c := '-') (by decide) r
  have hword : ∃ rest, paramName? ('-' :: Text.trimEnd (' ' :: p.description.toList)) =
      some (['-'], rest) := by
    rcases List.prefix_cons_iff.1 (Text.trimEnd_prefix (' ' :: p.description.toList)) with
      hnil | ⟨d, hd, -⟩
    · exact ⟨[], by rw [hnil]; rfl⟩
    · rw [hd]
      exact ⟨_, paramName?_word (w := ['-']) (by decide) (by decide) (by decide) d⟩
  obtain ⟨rest, hrest⟩ := hword
  have hbare : String.ofList (bareName ['-']) = "-" := by decide
  rw [param?, paramText, type?_braces htype, hname]
  simp only [String.toList_empty, List.nil_append, hstart, namedParam?, hrest, Option.map_some,
    Option.some_or]
  exact ⟨_, rfl, hbare⟩

/-- **A parameter is read back just if its type has no closing brace** and there is a name. -/
theorem param?_eq_iff {p q : ParamDoc} (h : p.Writable) (hq : param? (paramText p) = some q) :
    q = p ↔ '\x7d' ∉ p.type.toList ∧ p.name ≠ "" := by
  constructor
  · rintro rfl
    obtain ⟨q', hq', htype⟩ := exists_param? q
    rw [hq, Option.some.injEq] at hq'
    subst hq'
    have hbrace : '\x7d' ∉ q.type.toList := htype ▸ not_mem_typeRead q.type
    refine ⟨hbrace, fun hname => ?_⟩
    obtain ⟨q', hq', hhyphen⟩ := param?_unnamed hbrace hname
    rw [hq, Option.some.injEq] at hq'
    subst hq'
    rw [hname] at hhyphen
    exact absurd hhyphen (by decide)
  · rintro ⟨hbrace, hname⟩
    rw [param?_paramText (h.printable hbrace hname), Option.some.injEq] at hq
    exact hq.symm

/-! ## Results -/

theorem returnDoc_type (r : ReturnDoc) : (returnDoc (returnText r)).type = typeRead r.type := by
  obtain ⟨behind, htype, -⟩ := exists_type? r.type.toList
    (Text.trimEnd (' ' :: r.description.toList))
  rw [returnDoc, returnText, htype]
  rfl

/-- **A result is read back just if its type has no closing brace.** -/
theorem returnDoc_eq_iff {r : ReturnDoc} (h : r.Writable) :
    returnDoc (returnText r) = r ↔ '\x7d' ∉ r.type.toList := by
  constructor
  · intro hr
    have htype := returnDoc_type r
    rw [hr] at htype
    exact htype ▸ not_mem_typeRead r.type
  · intro hbrace
    exact returnDoc_returnText (h.printable hbrace)

/-! ## Lines of a comment -/

/-- What lines of a comment say. -/
def said (name file : String) (ls : List (List Char)) : DocEntry :=
  entryOf name file (blocks (ls.map cleanLine)).1 (blocks (ls.map cleanLine)).2

/-- Up to the next tag there are blank lines only. -/
def BlankBelow (ls : List (List Char)) : Prop :=
  ∀ l ∈ (ls.map cleanLine).takeWhile fun l => (tagged? l).isNone, Text.trim l = []

instance (ls : List (List Char)) : Decidable (BlankBelow ls) :=
  inferInstanceAs (Decidable (∀ _ ∈ _, _))

/-- Blank lines add nothing to the text of a block. -/
theorem BlankBelow.text_eq {ls : List (List Char)} (h : BlankBelow ls) (tag : Tag)
    {rest : List Char} (hrest : rest ≠ []) :
    (⟨tag, rest, (blocks (ls.map cleanLine)).1⟩ : Block).text = rest := by
  refine Block.text_of_filled_nil hrest ?_
  rw [blocks_fst, filled, List.filter_eq_nil_iff]
  intro l hl
  obtain ⟨l', hl', rfl⟩ := List.mem_map.1 hl
  simpa using h l' hl'

section
variable {before after : List (List Char)} {raw rest : List Char}

theorem ofTag_tag {tag : Tag} (h : tagged? (cleanLine raw) = some (tag, rest)) :
    ofTag tag (blocks ((before ++ raw :: after).map cleanLine)).2 =
      ofTag tag (blocks (before.map cleanLine)).2 ++
        ⟨tag, rest, (blocks (after.map cleanLine)).1⟩ ::
          ofTag tag (blocks (after.map cleanLine)).2 := by
  rw [List.map_append, List.map_cons, blocks_tag _ h]
  simp [ofTag]

variable (name file : String) (hbelow : BlankBelow after) (hrest : rest ≠ [])
include hbelow hrest

theorem params_said (h : tagged? (cleanLine raw) = some (.param, rest)) {q : ParamDoc}
    (hq : param? rest = some q) :
    (said name file (before ++ raw :: after)).params =
      (said name file before).params ++ q :: (said name file after).params := by
  rw [← hbelow.text_eq .param hrest] at hq
  simp only [said, entryOf, ofTag_tag h, List.filterMap_append]
  rw [List.filterMap_cons_some (f := fun b : Block => param? b.text) hq]

theorem returns_said (h : tagged? (cleanLine raw) = some (.returns, rest))
    (hlast : (said name file after).returns = none) :
    (said name file (before ++ raw :: after)).returns = some (returnDoc rest) := by
  have hnone : ofTag .returns (blocks (after.map cleanLine)).2 = [] := by
    simpa only [said, entryOf, Option.map_eq_none_iff, List.getLast?_eq_none_iff] using hlast
  simp only [said, entryOf, ofTag_tag h, hnone, List.getLast?_concat, Option.map_some,
    hbelow.text_eq .returns hrest]

end

/-- **Types are read up to the first closing brace.** A line of a comment that is written for a
parameter, with nothing but blank lines below it, stands for one parameter. It is the one that was
written just if its type has no closing brace and there is a name, so no type that has braces, all of
them balanced, survives. The same holds of the last line that is written for a result. -/
theorem parse_typed (name file : String) {c : Comment} {before after : List (List Char)}
    {raw : List Char} (hlines : Text.lines c.value.toList = before ++ raw :: after)
    (hbelow : BlankBelow after) :
    (∀ p : ParamDoc, p.Writable → Text.trim (cleanLine raw) = Text.trim (paramLine p).toList →
      ∃ q, (parse name file c).params =
          (said name file before).params ++ q :: (said name file after).params ∧
        q.type = typeRead p.type ∧
        (q = p ↔ '\x7d' ∉ p.type.toList ∧ p.name ≠ "") ∧
        (Balanced p.type.toList → '\x7b' ∈ p.type.toList → q ≠ p)) ∧
    (∀ r : ReturnDoc, r.Writable → Text.trim (cleanLine raw) = Text.trim (returnLine r).toList →
      (said name file after).returns = none →
      ∃ q, (parse name file c).returns = some q ∧
        q.type = typeRead r.type ∧
        (q = r ↔ '\x7d' ∉ r.type.toList) ∧
        (Balanced r.type.toList → '\x7b' ∈ r.type.toList → q ≠ r)) := by
  have hparse : parse name file c = said name file (before ++ raw :: after) := by
    rw [parse, parseValue, hlines]
    rfl
  rw [hparse]
  refine ⟨fun p hp hline => ?_, fun r hr hline hlast => ?_⟩
  · have htagged := (tagged?_congr hline).trans (tagged?_paramLine p)
    obtain ⟨q, hq, htype⟩ := exists_param? p
    have hiff := param?_eq_iff hp hq
    refine ⟨q, ?_, htype, hiff, fun hbalanced hopens heq => ?_⟩
    · exact params_said name file hbelow (List.cons_ne_nil _ _) htagged hq
    · exact (hiff.1 heq).1 (hbalanced.closes hopens)
  · have htagged := (tagged?_congr hline).trans (tagged?_returnLine r)
    have hiff := returnDoc_eq_iff hr
    refine ⟨_, returns_said name file hbelow (List.cons_ne_nil _ _) htagged hlast,
      returnDoc_type r, hiff, fun hbalanced hopens heq => ?_⟩
    exact hiff.1 heq (hbalanced.closes hopens)

/-- Brackets of other kinds do no harm. -/
theorem parse_typed_brackets :
    let p : ParamDoc := ⟨"opts", "Map<string, [number]>", "the options"⟩
    let r : ReturnDoc := ⟨"string[]", ""⟩
    let c : Comment :=
      ⟨.block, "*\n * @param a\n * " ++ paramLine p ++ "\n *\n * " ++ returnLine r ++ "\n ", 1⟩
    p.Writable ∧ r.Writable ∧ (parse "f" "a.ts" c).params = [⟨"a", "", ""⟩, p] ∧
      (parse "f" "a.ts" c).returns = some r := by
  intro p r c
  have hp : p.Writable := by decide
  have hr : r.Writable := by decide
  have hparamLine : Text.lines c.value.toList = ["*".toList, " * @param a".toList] ++
      gutter (paramLine p).toList :: [" *".toList, gutter (returnLine r).toList, " ".toList] := by
    decide +kernel
  have hreturnLine : Text.lines c.value.toList =
      ["*".toList, " * @param a".toList, gutter (paramLine p).toList, " *".toList] ++
        gutter (returnLine r).toList :: [" ".toList] := by
    rw [hparamLine]
    simp only [List.cons_append, List.nil_append]
  obtain ⟨hparam, -⟩ := parse_typed "f" "a.ts" hparamLine (by decide)
  obtain ⟨-, hreturn⟩ := parse_typed "f" "a.ts" hreturnLine (by decide)
  obtain ⟨q, hparams, -, hq, -⟩ := hparam p hp (by rw [cleanLine_gutter])
  obtain ⟨q', hreturns, -, hq', -⟩ := hreturn r hr (by rw [cleanLine_gutter]) (by decide)
  obtain rfl : q = p := hq.2 (by decide)
  obtain rfl : q' = r := hq'.2 (by decide)
  refine ⟨hp, hr, hparams.trans ?_, hreturns⟩
  decide

/-- The type of a record is cut at its own closing brace. -/
theorem parse_typed_record :
    let p : ParamDoc := ⟨"opts", "\x7ba: string\x7d", "the options"⟩
    let r : ReturnDoc := ⟨"\x7bb: number\x7d", "the result"⟩
    let c : Comment := ⟨.block, "*\n * " ++ paramLine p ++ "\n * " ++ returnLine r ++ "\n ", 1⟩
    p.Writable ∧ Balanced p.type.toList ∧ r.Writable ∧ Balanced r.type.toList ∧
      Text.lines c.value.toList =
        ["*".toList, gutter (paramLine p).toList, gutter (returnLine r).toList, " ".toList] ∧
      (parse "f" "a.ts" c).params = [⟨"\x7d", "\x7ba: string", "opts - the options"⟩] ∧
      (parse "f" "a.ts" c).returns = some ⟨"\x7bb: number", "\x7d the result"⟩ := by
  decide +kernel

end DocComment

end DocScope
