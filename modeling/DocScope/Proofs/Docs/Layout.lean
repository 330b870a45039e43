import DocScope.Proofs.Docs.Blocks

/-!
# The layout of a comment

The lines of a comment are free text and blocks (`Layout`): a block is a line with a tag and the
lines below it, up to the next tag. Blocks do not interfere.

* `exists_layout`, `exists_lines`: every comment has a layout, and lines make up a comment.
* `parse_layout`: what a comment says is said by its free text and its blocks, each read on its own.
* `entryOf_congr`, `ofTag_rearranged`: an entry depends on the blocks of each tag, without `other`,
  and these keep their order when neighbours with different tags change places or a block without a
  meaning is left out.
-/

namespace DocScope.DocComment

/-! ## Layouts -/

/-- A line with a tag and the lines without one below it, as they stand in a comment. -/
structure TagBlock where
  header : List Char
  body : List (List Char)
  tag : Tag
  rest : List Char
  tagged : tagged? (cleanLine header) = some (tag, rest)
  plain : ∀ l ∈ body, tagged? (cleanLine l) = none

def TagBlock.lines (b : TagBlock) : List (List Char) := b.header :: b.body

/-- The block without the gutter. -/
def TagBlock.clean (b : TagBlock) : Block := ⟨b.tag, b.rest, b.body.map cleanLine⟩

/-- Free text and the blocks after it, as they stand in a comment. -/
structure Layout where
  free : List (List Char)
  blocks : List TagBlock
  plain : ∀ l ∈ free, tagged? (cleanLine l) = none

def Layout.lines (L : Layout) : List (List Char) := L.free ++ L.blocks.flatMap TagBlock.lines

/-- The blocks with the given tag, without the gutter. -/
def Layout.ofTag (L : Layout) (tag : Tag) : List Block :=
  DocComment.ofTag tag (L.blocks.map TagBlock.clean)

theorem exists_layout (ls : List (List Char)) : ∃ L : Layout, L.lines = ls := by
  induction ls with
  | nil => exact ⟨⟨[], [], by simp⟩, rfl⟩
  | cons l ls ih =>
    obtain ⟨L, rfl⟩ := ih
    cases h : tagged? (cleanLine l) with
    | none => exact ⟨⟨l :: L.free, L.blocks, List.forall_mem_cons.2 ⟨h, L.plain⟩⟩, rfl⟩
    | some t =>
      -- what was free text so far belongs to the new block
      exact ⟨⟨[], ⟨l, L.free, t.1, t.2, h, L.plain⟩ :: L.blocks, by simp⟩, rfl⟩

theorem plain_map_cleanLine {ls : List (List Char)} (h : ∀ l ∈ ls, tagged? (cleanLine l) = none) :
    ∀ l ∈ ls.map cleanLine, tagged? l = none := by
  intro l hl
  obtain ⟨raw, hraw, rfl⟩ := List.mem_map.1 hl
  exact h raw hraw

theorem blocks_flatMap_lines (bs : List TagBlock) :
    blocks ((bs.flatMap TagBlock.lines).map cleanLine) = ([], bs.map TagBlock.clean) := by
  induction bs with
  | nil => rfl
  | cons b bs ih =>
    rw [List.flatMap_cons, TagBlock.lines, List.cons_append, List.map_cons, List.map_append, blocks,
      blocks_plain (plain_map_cleanLine b.plain), ih, b.tagged]
    simp [TagBlock.clean]

/-- The blocks of a comment are those of its layout. -/
theorem Layout.blocks_lines (L : Layout) :
    DocComment.blocks (L.lines.map cleanLine) =
      (L.free.map cleanLine, L.blocks.map TagBlock.clean) := by
  rw [lines, List.map_append, blocks_plain (plain_map_cleanLine L.plain), blocks_flatMap_lines,
    List.append_nil]

theorem parse_layout (name file : String) {c : Comment} {L : Layout}
    (h : L.lines = Text.lines c.value.toList) :
    parse name file c = entryOf name file (L.free.map cleanLine) (L.blocks.map TagBlock.clean) := by
  rw [parse, parseValue, ← h, L.blocks_lines]

/-! ## Rearranged blocks -/

/-- Two neighbours with different tags change places, or a block without a meaning is left out. -/
inductive Rearranged : List TagBlock → List TagBlock → Prop
  | swap (before : List TagBlock) {a b : TagBlock} (after : List TagBlock) (h : a.tag ≠ b.tag) :
      Rearranged (before ++ a :: b :: after) (before ++ b :: a :: after)
  | drop (before : List TagBlock) {a : TagBlock} (after : List TagBlock) (h : a.tag = .other) :
      Rearranged (before ++ a :: after) (before ++ after)

/-- An entry depends on the blocks of each tag, one by one. -/
theorem entryOf_congr (name file : String) (free : List (List Char)) {bs bs' : List Block}
    (h : ∀ tag, tag ≠ .other → ofTag tag bs' = ofTag tag bs) :
    entryOf name file free bs' = entryOf name file free bs := by
  have hdescription : description free bs' = description free bs := by
    have hd : bs'.filter (·.tag = .description) = bs.filter (·.tag = .description) :=
      h .description (by decide)
    rw [description, description, hd]
  rw [entryOf, entryOf, hdescription, h .param (by decide), h .returns (by decide),
    h .sample (by decide)]

theorem ofTag_rearranged {bs bs' : List TagBlock} (h : Rearranged bs bs') {tag : Tag}
    (htag : tag ≠ .other) :
    ofTag tag (bs'.map TagBlock.clean) = ofTag tag (bs.map TagBlock.clean) := by
  have happend : ∀ xs ys : List TagBlock, ofTag tag ((xs ++ ys).map TagBlock.clean) =
      ofTag tag (xs.map TagBlock.clean) ++ ofTag tag (ys.map TagBlock.clean) := by
    intro xs ys
    rw [List.map_append]
    exact List.filter_append ..
  have hskip : ∀ {a : TagBlock}, a.tag ≠ tag → ofTag tag ([a].map TagBlock.clean) = [] := by
    intro a ha
    simp [ofTag, TagBlock.clean, ha]
  cases h with
  | @swap before a b after h =>
    have hsplit : ∀ x y : TagBlock, before ++ x :: y :: after = before ++ ([x] ++ ([y] ++ after)) :=
      fun _ _ => rfl
    rw [hsplit, hsplit]
    -- one of the two neighbours does not have the tag
    by_cases ha : a.tag = tag
    · simp only [happend, hskip fun hb => h (ha.trans hb.symm), List.nil_append]
    · simp only [happend, hskip ha, List.nil_append]
  | @drop before a after h =>
    rw [happend, happend, ← List.singleton_append, happend,
      hskip fun ha => htag (ha.symm.trans h), List.nil_append]

theorem Rearranged.subset {bs bs' : List TagBlock} (h : Rearranged bs bs') : bs' ⊆ bs := by
  cases h with
  | swap before after _ => exact ((List.Perm.swap _ _ after).append_left before).subset
  | drop before after _ => exact ((List.sublist_cons_self _ after).append_left before).subset

/-! ## Comments with given lines -/

/-- Lines make up a text: each of them is ended by a carriage return and a newline, since one that
ends with a carriage return would lose it in front of a newline. -/
theorem exists_lines {ls : List (List Char)} (h : ∀ l ∈ ls, OneLine l) :
    ∃ c : Comment, Text.lines c.value.toList = ls := by
  have hreturn : ∀ l ∈ ls.map (· ++ ['\r']), OneLine l := by
    intro l hl
    obtain ⟨l', hl', rfl⟩ := List.mem_map.1 hl
    exact (h l' hl').append (by decide)
  have hchomp : ∀ l : List Char, Text.chomp ((l ++ ['\r']) ++ ['\n']) = l := by
    intro l
    have hstrip : Text.stripEnd? ['\r'] (l ++ ['\r']) = some l :=
      List.isSuffixOf?_eq_some_iff_append_eq.2 rfl
    rw [Text.chomp_line, hstrip, Option.getD_some]
  refine ⟨⟨.block, .ofList ((ls.map (· ++ ['\r'])).flatMap (· ++ ['\n'])), 0⟩, ?_⟩
  rw [String.toList_ofList, Text.lines, Text.splitInclusive_flatMap hreturn]
  simp only [List.map_map, Function.comp_def, hchomp, List.map_id_fun', id_eq]

theorem Layout.oneLine_of_rearranged {L L' : Layout} {s : List Char} (h : L.lines = Text.lines s)
    (hfree : L'.free = L.free) (hblocks : Rearranged L.blocks L'.blocks) :
    ∀ l ∈ L'.lines, OneLine l := by
  have hsubset : L'.lines ⊆ L.lines := by
    rw [lines, lines, hfree]
    intro l hl
    rcases List.mem_append.1 hl with hl | hl
    · exact List.mem_append_left _ hl
    · obtain ⟨b, hb, hl⟩ := List.mem_flatMap.1 hl
      exact List.mem_append_right _ (List.mem_flatMap.2 ⟨b, hblocks.subset hb, hl⟩)
  intro l hl
  exact Text.newline_not_mem_lines (h ▸ hsubset hl)

end DocScope.DocComment
