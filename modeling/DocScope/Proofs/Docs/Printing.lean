import DocScope.Proofs.Docs.Blocks
import DocScope.Proofs.Docs.Dedent
import Mathlib.Tactic.MkIffOfInductiveProp

/-!
# Doc comments that are printed and read again

`printed` writes an entry as a doc comment: the description, one line for every parameter and for
the result, and a tag with its lines for every example. `DocEntry.Printable` says which entries lose
nothing on the way.

* `param?_paramText`, `returnDoc_returnText`, `dedent_example`: each part is read back from what
  stands behind its tag;
* `entryOf_groups`: the blocks of an entry (`groups`) say the entry;
* `blocks_content`, `cleanLines_printed`: these are the blocks of the lines of the comment, the last
  of which has the closing line at its end;
* `parse_printed`: reading undoes printing.
-/

namespace DocScope

/-! ## Printable entries -/

/-- A line without blanks at its ends. -/
@[mk_iff]
structure TrimmedLine (s : List Char) : Prop where
  trimmed : Text.trim s = s
  oneLine : OneLine s

@[mk_iff]
structure ParamDoc.Printable (p : ParamDoc) : Prop where
  type : TrimmedLine p.type.toList
  type_no_brace : '\x7d' ∉ p.type.toList
  name_ne : p.name.toList ≠ []
  name_word : p.name.toList.any Text.isBlank = false
  name_no_default : '=' ∉ p.name.toList
  name_head : p.name.toList.head? ≠ some '['
  name_last : p.name.toList.getLast? ≠ some ']'
  description : TrimmedLine p.description.toList

theorem ParamDoc.Printable.not_blank {p : ParamDoc} (h : p.Printable) :
    ∀ c ∈ p.name.toList, Text.isBlank c = false := by
  simpa using h.name_word

@[mk_iff]
structure ReturnDoc.Printable (r : ReturnDoc) : Prop where
  type : TrimmedLine r.type.toList
  type_no_brace : '\x7d' ∉ r.type.toList
  description : TrimmedLine r.description.toList
  description_head : r.description.toList.head? ≠ some '-'

/-- The lines of an example. -/
def Example.lines (x : String) : List (List Char) := x.toList.splitOn '\n'

@[mk_iff]
structure Example.Printable (x : String) : Prop where
  trimmed : ∀ l ∈ lines x, Text.trimEnd l = l
  untagged : ∀ l ∈ lines x, (Text.trim l).head? ≠ some '@'
  first : (lines x).head? ≠ some []
  last : (lines x).getLast? ≠ some []
  /-- Otherwise the lines would lose their common indentation. -/
  flush : ∃ l ∈ lines x, l ≠ [] ∧ Text.trimStart l = l

@[mk_iff]
structure DocEntry.Printable (e : DocEntry) : Prop where
  description : TrimmedLine e.description.toList
  description_ne : e.description.toList ≠ []
  description_head : e.description.toList.head? ≠ some '@'
  params : ∀ p ∈ e.params, p.Printable
  returns : ∀ r ∈ e.returns, r.Printable
  examples : ∀ x ∈ e.examples, Example.Printable x

instance (s : List Char) : Decidable (TrimmedLine s) := decidable_of_iff _ (trimmedLine_iff s).symm

instance (p : ParamDoc) : Decidable p.Printable := decidable_of_iff _ (p.printable_iff).symm

instance (r : ReturnDoc) : Decidable r.Printable := decidable_of_iff _ (r.printable_iff).symm

instance (x : String) : Decidable (Example.Printable x) :=
  decidable_of_iff _ (Example.printable_iff x).symm

instance (e : DocEntry) : Decidable e.Printable := decidable_of_iff _ (e.printable_iff).symm

/-! ## Printing -/

namespace DocComment

def paramLine (p : ParamDoc) : String :=
  "@param \x7b" ++ p.type ++ "\x7d " ++ p.name ++ " - " ++ p.description

def returnLine (r : ReturnDoc) : String := "@returns \x7b" ++ r.type ++ "\x7d " ++ r.description

def content (e : DocEntry) : List (List Char) :=
  e.description.toList :: (e.params.map fun p => (paramLine p).toList) ++
    (e.returns.toList.map fun r => (returnLine r).toList) ++
    e.examples.flatMap fun x => "@example".toList :: Example.lines x

/-- An entry as a doc comment. -/
def printed (e : DocEntry) : String :=
  .ofList ("/**\n".toList ++ (content e).flatMap (fun l => gutter l ++ ['\n']) ++ " */".toList)

/-! ## Parameters -/

theorem trimStart_trimEnd_space {d : List Char} (h : Text.trim d = d) :
    Text.trimStart (Text.trimEnd (' ' :: d)) = d := by
  by_cases hd : d = []
  · subst hd
    rfl
  · have hne : Text.trimEnd d ≠ [] := by rwa [Text.trimEnd_eq_self h]
    have hspace : Text.trimEnd (' ' :: d) = ' ' :: d := by
      rw [← List.singleton_append, Text.trimEnd_append hne, Text.trimEnd_eq_self h]
    rw [hspace]
    exact Text.trimStart_eq_self h

theorem bne_of_not_mem {c : Char} {s : List Char} (h : c ∉ s) : ∀ d ∈ s, (d != c) = true := by
  intro d hd
  simpa using fun e : d = c => h (e ▸ hd)

theorem type?_braces {t : List Char} (ht : '\x7d' ∉ t) (rest : List Char) :
    type? ('\x7b' :: (t ++ '\x7d' :: rest)) = some (t, Text.trimStart rest) := by
  have ht' := bne_of_not_mem ht
  simp only [type?, List.takeWhile_append_of_pos ht', List.dropWhile_append_of_pos ht']
  simp

def paramText (p : ParamDoc) : List Char :=
  '\x7b' :: (p.type.toList ++ '\x7d' :: ' ' :: (p.name.toList ++
    ' ' :: '-' :: Text.trimEnd (' ' :: p.description.toList)))

theorem tagged?_paramLine (p : ParamDoc) :
    tagged? (paramLine p).toList = some (.param, paramText p) := by
  have hline : (paramLine p).toList = '@' :: ("param".toList ++ ' ' :: '\x7b' ::
      ((p.type.toList ++ '\x7d' :: ' ' :: p.name.toList ++ [' ']) ++
        '-' :: ' ' :: p.description.toList)) := by
    simp [paramLine]
  have htail : Text.trimEnd ('-' :: ' ' :: p.description.toList) =
      '-' :: Text.trimEnd (' ' :: p.description.toList) := Text.trimEnd_cons (by decide) _
  rw [hline, tagged?_text (by decide) (by decide), Text.trimEnd_append (by simp [htail]), htail]
  simp [paramText, Tag.ofWord]

theorem bareName_eq {p : ParamDoc} (h : p.Printable) : bareName p.name.toList = p.name.toList := by
  have hdefault : p.name.toList.takeWhile (· != '=') = p.name.toList :=
    List.takeWhile_eq_self_iff.2 (bne_of_not_mem h.name_no_default)
  rw [bareName, Text.dropWhile_eq_of_head h.name_head, Text.dropEnd_eq_of_getLast h.name_last,
    hdefault]
  exact Text.trim_eq_self h.not_blank

/-- A word that does not start with a bracket is a name. -/
theorem paramName?_word {w : List Char} (hw : w.any Text.isBlank = false) (hne : w ≠ [])
    (hhead : w.head? ≠ some '[') (rest : List Char) :
    paramName? (w ++ ' ' :: rest) = some (w, ' ' :: rest) := by
  obtain ⟨htake, hdrop⟩ := takeWhile_word hw rest
  unfold paramName?
  simp only [htake, hdrop, hne, ↓reduceIte]
  obtain ⟨c, w, rfl⟩ := List.exists_cons_of_ne_nil hne
  have hc : c ≠ '[' := by simpa using hhead
  split
  · next heq =>
    injection heq with hcons
    exact absurd hcons hc
  · rfl

/-- **A printed parameter is read back.** -/
theorem param?_paramText {p : ParamDoc} (h : p.Printable) : param? (paramText p) = some p := by
  obtain ⟨c, w, hname⟩ := List.exists_cons_of_ne_nil h.name_ne
  have hc : Text.isBlank c = false := h.not_blank c (hname ▸ List.mem_cons_self)
  have hstart : ∀ rest, Text.trimStart (' ' :: (p.name.toList ++ rest)) = p.name.toList ++ rest := by
    intro rest
    rw [hname]
    exact Text.trimStart_cons hc _
  have hdescription : ∀ r, Text.trimStart (' ' :: '-' :: r) = '-' :: r :=
    fun r => Text.trimStart_cons (c := '-') (by decide) r
  rw [param?, paramText, type?_braces h.type_no_brace]
  simp only [hstart, namedParam?, paramName?_word h.name_word h.name_ne h.name_head, bareName_eq h,
    h.type.trimmed, hdescription, skipHyphen, trimStart_trimEnd_space h.description.trimmed,
    h.description.trimmed, Option.map_some, Option.some_or, String.ofList_toList]

/-! ## Results -/

def returnText (r : ReturnDoc) : List Char :=
  '\x7b' :: (r.type.toList ++ '\x7d' :: Text.trimEnd (' ' :: r.description.toList))

theorem tagged?_returnLine (r : ReturnDoc) :
    tagged? (returnLine r).toList = some (.returns, returnText r) := by
  have hline : (returnLine r).toList = '@' :: ("returns".toList ++ ' ' :: '\x7b' ::
      (r.type.toList ++ '\x7d' :: ' ' :: r.description.toList)) := by
    simp [returnLine]
  have htail : Text.trimEnd ('\x7d' :: ' ' :: r.description.toList) =
      '\x7d' :: Text.trimEnd (' ' :: r.description.toList) := Text.trimEnd_cons (by decide) _
  rw [hline, tagged?_text (by decide) (by decide), Text.trimEnd_append (by simp [htail]), htail]
  simp [returnText, Tag.ofWord]

/-- **A printed result is read back.** -/
theorem returnDoc_returnText {r : ReturnDoc} (h : r.Printable) : returnDoc (returnText r) = r := by
  have hhyphen : skipHyphen r.description.toList = r.description.toList := by
    unfold skipHyphen
    split
    · next heq => exact absurd (by rw [heq]; rfl) h.description_head
    · rfl
  rw [returnDoc, returnText, type?_braces h.type_no_brace,
    trimStart_trimEnd_space h.description.trimmed]
  simp only [Option.getD_some, h.type.trimmed, hhyphen, h.description.trimmed, String.ofList_toList]

/-! ## Examples -/

theorem head?_ne_newline {x : String} (h : (Example.lines x).head? ≠ some []) :
    x.toList.head? ≠ some '\n' := by
  intro hx
  obtain ⟨r, hr⟩ := List.head?_eq_some_iff.1 hx
  rw [Example.lines, hr, List.splitOn_cons_eq_if_modifyHead] at h
  exact h rfl

theorem getLast?_ne_newline {x : String} (h : (Example.lines x).getLast? ≠ some []) :
    x.toList.getLast? ≠ some '\n' := by
  intro hx
  obtain ⟨r, hr⟩ := List.getLast?_eq_some_iff.1 hx
  rw [Example.lines, hr, List.splitOn_append_cons_self, List.splitOn_nil] at h
  exact h List.getLast?_concat

section
variable {x : String} (h : Example.Printable x)
include h

theorem commonIndent_example : commonIndent (Example.lines x) = 0 := by
  obtain ⟨l, hl, hne, hstart⟩ := h.flush
  obtain ⟨c, r, rfl⟩ := List.exists_cons_of_ne_nil hne
  have hblank : Text.isBlank c = false := by
    simpa using List.dropWhile_eq_self_iff.1 hstart (Nat.succ_pos _)
  refine commonIndent_of_flush hl ?_ ?_
  · simp [Text.allBlank, hblank]
  · simp [indentOf_cons, hblank]

/-- **A printed example is read back.** -/
theorem dedent_example : dedent (Example.lines x) = x.toList :=
  dedent_splitOn (commonIndent_example h) (head?_ne_newline h.first) (getLast?_ne_newline h.last)

theorem example_ne_nil : x.toList ≠ [] := by
  intro hx
  refine h.first ?_
  rw [Example.lines, hx, List.splitOn_nil, List.head?_cons]

end

/-! ## Blocks -/

def paramBlock (p : ParamDoc) : Block := ⟨.param, paramText p, []⟩

def returnBlock (r : ReturnDoc) : Block := ⟨.returns, returnText r, []⟩

def exampleBlock (x : String) : Block := ⟨.sample, [], Example.lines x⟩

theorem Block.text_of_filled_nil {b : Block} (hrest : b.rest ≠ []) (hlines : filled b.lines = []) :
    b.text = b.rest := by
  simp [text, hlines, hrest, joinWords]

theorem param?_paramBlock {p : ParamDoc} (h : p.Printable) : param? (paramBlock p).text = some p := by
  rw [Block.text_of_filled_nil (List.cons_ne_nil _ _) rfl]
  exact param?_paramText h

theorem returnDoc_returnBlock {r : ReturnDoc} (h : r.Printable) :
    returnDoc (returnBlock r).text = r := by
  rw [Block.text_of_filled_nil (List.cons_ne_nil _ _) rfl]
  exact returnDoc_returnText h

theorem dedent_exampleBlock {x : String} (h : Example.Printable x) :
    dedent (exampleBlock x).exampleLines = x.toList := by
  have hlines : (exampleBlock x).exampleLines = Example.lines x :=
    (List.map_congr_left h.trimmed).trans (List.map_id _)
  rw [hlines, dedent_example h]

/-- The lines with tags, and the blocks they start. -/
def groups (e : DocEntry) : List (List Char × Block) :=
  (e.params.map fun p => ((paramLine p).toList, paramBlock p)) ++
    (e.returns.toList.map fun r => ((returnLine r).toList, returnBlock r)) ++
    e.examples.map fun x => ("@example".toList, exampleBlock x)

theorem content_eq (e : DocEntry) :
    content e = e.description.toList :: (groups e).flatMap fun g => g.1 :: g.2.lines := by
  simp only [content, groups, List.flatMap_append, List.flatMap_map, List.cons_append]
  rw [List.map_eq_flatMap, List.map_eq_flatMap]
  rfl

theorem ofTag_map {α : Type} {f : α → Block} {tag : Tag} (hf : ∀ a, (f a).tag = tag) (as : List α)
    (tag' : Tag) : ofTag tag' (as.map f) = if tag = tag' then as.map f else [] := by
  unfold ofTag
  split
  · next ht => exact List.filter_eq_self.2 (by simp [hf, ht])
  · next ht => exact List.filter_eq_nil_iff.2 (by simp [hf, ht])

theorem ofTag_groups (e : DocEntry) (tag : Tag) :
    ofTag tag ((groups e).map Prod.snd) =
      (if .param = tag then e.params.map paramBlock else []) ++
        (if .returns = tag then e.returns.toList.map returnBlock else []) ++
        (if .sample = tag then e.examples.map exampleBlock else []) := by
  rw [← ofTag_map (f := paramBlock) fun _ => rfl, ← ofTag_map (f := returnBlock) fun _ => rfl,
    ← ofTag_map (f := exampleBlock) fun _ => rfl]
  simp [ofTag, groups, Function.comp_def]

section
variable {e : DocEntry} (h : e.Printable)
include h

theorem params_groups : (ofTag .param ((groups e).map Prod.snd)).filterMap
    (fun b => param? b.text) = e.params := by
  have hsome : ∀ p ∈ e.params, param? (paramBlock p).text = some p :=
    fun p hp => param?_paramBlock (h.params p hp)
  simp only [ofTag_groups, reduceCtorEq, ↓reduceIte, List.append_nil, List.filterMap_map]
  exact (List.filterMap_congr hsome).trans List.filterMap_some

theorem returns_groups : (ofTag .returns ((groups e).map Prod.snd)).getLast?.map
    (fun b => returnDoc b.text) = e.returns := by
  simp only [ofTag_groups, reduceCtorEq, ↓reduceIte, List.append_nil, List.nil_append]
  cases hr : e.returns with
  | none => rfl
  | some r => exact congrArg some (returnDoc_returnBlock (h.returns r hr))

theorem examples_groups : (((ofTag .sample ((groups e).map Prod.snd)).map
    fun b => dedent b.exampleLines).filter (· ≠ [])).map String.ofList = e.examples := by
  have hdedent : (e.examples.map exampleBlock).map (fun b => dedent b.exampleLines) =
      e.examples.map String.toList := by
    rw [List.map_map]
    refine List.map_congr_left fun x hx => ?_
    rw [Function.comp_apply, dedent_exampleBlock (h.examples x hx)]
  have hfilled : (e.examples.map String.toList).filter (· ≠ []) = e.examples.map String.toList := by
    refine List.filter_eq_self.2 fun l hl => ?_
    obtain ⟨x, hx, rfl⟩ := List.mem_map.1 hl
    simpa using example_ne_nil (h.examples x hx)
  simp only [ofTag_groups, reduceCtorEq, ↓reduceIte, List.nil_append, hdedent, hfilled]
  rw [List.map_map]
  exact List.map_id'' (fun x => String.ofList_toList) _

/-- The blocks of an entry say the entry, if the free text in front says the description. -/
theorem entryOf_groups {free : List (List Char)} (hfree : summary free = e.description.toList) :
    entryOf e.name e.file free ((groups e).map Prod.snd) = e := by
  have hnone : ((groups e).map Prod.snd).filter (·.tag = .description) = [] :=
    ofTag_groups e .description
  rw [entryOf, params_groups h, returns_groups h, examples_groups h, description, hnone]
  simp [hfree]

end

/-! ## Lines -/

/-- A text that is read back from a line of its own. -/
structure IsLine (l : List Char) : Prop where
  oneLine : OneLine l
  last : l.getLast? ≠ some '\r'

theorem IsLine.of_trimEnd {l : List Char} (h : Text.trimEnd l = l) (hl : OneLine l) : IsLine l := by
  refine ⟨hl, fun hlast => ?_⟩
  have hblank : Text.isBlank '\r' = false := Text.isBlank_getLast? h hlast
  exact absurd hblank (by decide)

theorem IsLine.of_trimmed {l : List Char} (h : TrimmedLine l) : IsLine l :=
  .of_trimEnd (Text.trimEnd_eq_self h.trimmed) h.oneLine

theorem IsLine.after_space {s l : List Char} (hs : OneLine s) (h : IsLine l) :
    IsLine (s ++ ' ' :: l) := by
  refine ⟨hs.append (h.oneLine.cons (by decide)), ?_⟩
  cases l with
  | nil => simp
  | cons c l => simpa [List.getLast?_cons_cons] using h.last

theorem IsLine.gutter {l : List Char} (h : IsLine l) : IsLine (gutter l) :=
  IsLine.after_space (s := [' ', '*']) (by decide) h

theorem isLine_paramLine {p : ParamDoc} (h : p.Printable) : IsLine (paramLine p).toList := by
  have hline : (paramLine p).toList = ("@param \x7b".toList ++ p.type.toList ++ "\x7d ".toList ++
      p.name.toList ++ " -".toList) ++ ' ' :: p.description.toList := by
    simp [paramLine]
  have htype : OneLine ("@param \x7b".toList ++ p.type.toList ++ "\x7d ".toList) :=
    (OneLine.append (by decide) h.type.oneLine).append (by decide)
  have hname : OneLine p.name.toList := fun hm => absurd (h.not_blank _ hm) (by decide)
  rw [hline]
  exact .after_space ((htype.append hname).append (by decide))
    (.of_trimmed h.description)

theorem isLine_returnLine {r : ReturnDoc} (h : r.Printable) : IsLine (returnLine r).toList := by
  have hline : (returnLine r).toList = ("@returns \x7b".toList ++ r.type.toList ++ "\x7d".toList) ++
      ' ' :: r.description.toList := by
    simp [returnLine]
  rw [hline]
  exact .after_space ((OneLine.append (by decide) h.type.oneLine).append (by decide))
    (.of_trimmed h.description)

theorem isLine_example {x : String} (h : Example.Printable x) : ∀ l ∈ Example.lines x, IsLine l :=
  fun l hl => .of_trimEnd (h.trimmed l hl) (Text.not_mem_of_mem_splitOn hl)

theorem forall_groups {e : DocEntry} {P : List Char × Block → Prop}
    (hparam : ∀ p ∈ e.params, P ((paramLine p).toList, paramBlock p))
    (hreturn : ∀ r ∈ e.returns, P ((returnLine r).toList, returnBlock r))
    (hexample : ∀ x ∈ e.examples, P ("@example".toList, exampleBlock x)) : ∀ g ∈ groups e, P g := by
  intro g hg
  rcases List.mem_append.1 hg with hg | hg
  · rcases List.mem_append.1 hg with hg | hg
    · obtain ⟨p, hp, rfl⟩ := List.mem_map.1 hg
      exact hparam p hp
    · obtain ⟨r, hr, rfl⟩ := List.mem_map.1 hg
      exact hreturn r (Option.mem_toList.1 hr)
  · obtain ⟨x, hx, rfl⟩ := List.mem_map.1 hg
    exact hexample x hx

section
variable {e : DocEntry} (h : e.Printable)
include h

theorem isLine_content : ∀ l ∈ content e, IsLine l := by
  have hgroups : ∀ g ∈ groups e, ∀ l ∈ g.1 :: g.2.lines, IsLine l := by
    refine forall_groups (fun p hp => ?_) (fun r hr => ?_) fun x hx => ?_
    · exact List.forall_mem_singleton.2 (isLine_paramLine (h.params p hp))
    · exact List.forall_mem_singleton.2 (isLine_returnLine (h.returns r hr))
    · have htag : IsLine "@example".toList := ⟨by decide, by decide⟩
      exact List.forall_mem_cons.2 ⟨htag, isLine_example (h.examples x hx)⟩
  rw [content_eq]
  refine List.forall_mem_cons.2 ⟨?_, fun l hl => ?_⟩
  · exact .of_trimmed h.description
  · obtain ⟨g, hg, hl⟩ := List.mem_flatMap.1 hl
    exact hgroups g hg l hl

theorem tagged?_groups : ∀ g ∈ groups e,
    tagged? g.1 = some (g.2.tag, g.2.rest) ∧ ∀ l ∈ g.2.lines, tagged? l = none := by
  refine forall_groups (fun p _ => ?_) (fun r _ => ?_) fun x hx => ?_
  · exact ⟨tagged?_paramLine p, List.forall_mem_nil _⟩
  · exact ⟨tagged?_returnLine r, List.forall_mem_nil _⟩
  · refine ⟨tagged?_word (by decide), fun l hl => ?_⟩
    exact tagged?_of_head ((h.examples x hx).untagged l hl)

/-- The description is all of the free text, and each tag has its block. -/
theorem blocks_content : blocks ([] :: content e ++ [[]]) =
    ([] :: e.description.toList :: if groups e = [] then [[]] else [],
      padLast [[]] ((groups e).map Prod.snd)) := by
  have hfree : ∀ l ∈ [[], e.description.toList], tagged? l = none := by
    have hdescription : tagged? e.description.toList = none :=
      tagged?_of_head (h.description.trimmed.symm ▸ h.description_head)
    simpa [hdescription] using tagged?_of_head (l := []) (by decide)
  have hpad : ∀ l ∈ [[]], tagged? l = none := by decide
  have htagged := blocks_tagged (fun g hg => (tagged?_groups h g hg).1)
    (fun g hg => (tagged?_groups h g hg).2) hpad
  have hplain := blocks_plain hfree (((groups e).flatMap fun g => g.1 :: g.2.lines) ++ [[]])
  rw [htagged] at hplain
  rw [content_eq]
  exact hplain

theorem summary_free (tail : List (List Char)) (htail : tail = [] ∨ tail = [[]]) :
    summary ([] :: e.description.toList :: tail) = e.description.toList := by
  rcases htail with rfl | rfl <;>
    simp [summary, h.description.trimmed, h.description_ne, joinWords]

end

/-! ## Printing and reading -/

/-- The text between the delimiters of a printed comment. -/
def printedValue (e : DocEntry) : List Char :=
  (['*'] :: (content e).map gutter).flatMap (· ++ ['\n']) ++ [' ']

theorem read?_printed (e : DocEntry) :
    Comment.read? (printed e).toList = some (.block, printedValue e) := by
  have htext : (printed e).toList = ['/', '*'] ++ (printedValue e ++ ['*', '/']) := by
    refine String.toList_ofList.trans ?_
    simp [printedValue, List.flatMap_map]
  have hstart : Text.stripStart? ['/', '*'] (printed e).toList =
      some (printedValue e ++ ['*', '/']) := List.isPrefixOf?_eq_some_iff_append_eq.2 htext.symm
  have hend : Text.stripEnd? ['*', '/'] (printedValue e ++ ['*', '/']) = some (printedValue e) :=
    List.isSuffixOf?_eq_some_iff_append_eq.2 rfl
  simp only [Comment.read?, hstart, hend, Option.getD_some]

theorem cleanLines_printed {e : DocEntry} (h : e.Printable) :
    (Text.lines (printedValue e)).map cleanLine = [] :: content e ++ [[]] := by
  have hlines : ∀ l ∈ ['*'] :: (content e).map gutter, IsLine l := by
    refine List.forall_mem_cons.2 ⟨⟨by decide, by decide⟩, List.forall_mem_map.2 fun l hl => ?_⟩
    exact (isLine_content h l hl).gutter
  have hclean : (content e).map (cleanLine ∘ gutter) = content e :=
    List.map_id'' cleanLine_gutter _
  rw [printedValue, Text.lines_flatMap_append (fun l hl => (hlines l hl).oneLine)
    fun l hl => (hlines l hl).last]
  rw [List.map_append, List.map_cons, List.map_map, hclean]
  rfl

/-- **Reading undoes printing.** The comment that is printed for an entry is a doc block, on
whatever line it starts, and what it says about the declaration is the entry. -/
theorem parse_printed {e : DocEntry} (h : e.Printable) (line : Nat) :
    ∃ c, Comment.parse? (printed e) line = some c ∧ c.isDocBlock = true ∧
      parse e.name e.file c = e := by
  refine ⟨⟨.block, .ofList (printedValue e), line⟩, ?_, ?_, ?_⟩
  · rw [Comment.parse?, read?_printed]
    rfl
  · have hhead : (printedValue e).head? = some '*' := rfl
    rw [Comment.isDocBlock, String.toList_ofList, hhead]
    rfl
  · rw [parse, String.toList_ofList, parseValue, cleanLines_printed h, blocks_content h]
    dsimp only
    -- the closing line is an empty line of the last block, or of the free text if there is no block
    rw [entryOf_padLast]
    refine entryOf_groups h (summary_free h _ ?_)
    split
    · exact .inr rfl
    · exact .inl rfl

theorem parse_printed_two_examples :
    let e : DocEntry :=
      { name := "sum"
        description := "* Adds: @see below"
        params := [⟨"a", "", ""⟩, ⟨"b]c", "\x7bx: number", "- the second one"⟩]
        returns := some ⟨"", ""⟩
        examples := ["  sum(1)\nsum(2)", "if (a) \x7b\n\n  sum(a)\n\x7d"]
        file := "src/a.ts" }
    e.Printable ∧ ∃ c, Comment.parse? (printed e) 4 = some c ∧ c.isDocBlock = true ∧
      parse e.name e.file c = e :=
  have h : DocEntry.Printable _ := by decide
  ⟨h, parse_printed h 4⟩

end DocComment

end DocScope
