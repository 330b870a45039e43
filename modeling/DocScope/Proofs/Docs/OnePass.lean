import DocScope.Proofs.Docs.Layout
import Mathlib.Data.List.ModifyLast

/-!
# Reading a comment line by line

The lines of a comment can be read in one pass, with the tag whose text goes on as a state
(`Reader`): a line without a tag is added to what was read last.

* `Reader.goOn_add`: a line after a block goes to this block, whatever was read before it.
* `Reader.foldl_block`: so the lines of a block add the block (`Reader.add`), and nothing else.
* `Reader.foldl_free`: of the free text only the first paragraph is kept.
* `parse_eq_onePass`: the pass reads what the blocks say.
* `parse_blocks_apart`: so the blocks of a comment do not interfere.
-/

namespace DocScope.DocComment

/-- The texts read so far, the tag whose text goes on, and whether this text is free. -/
structure Reader where
  free : List (List Char) := []
  description : List (List Char) := []
  params : List (List Char) := []
  returns : Option (List Char) := none
  examples : List (List (List Char)) := []
  current : Tag := .description
  inFree : Bool := true

/-- A text that goes on. -/
def extend (text s : List Char) : List Char :=
  if s = [] then text else if text = [] then s else text ++ ' ' :: s

namespace Reader

/-- A line with a tag. -/
def start (r : Reader) (tag : Tag) (rest : List Char) : Reader :=
  let r := { r with current := tag, inFree := false }
  match tag with
  | .param => { r with params := r.params ++ [rest] }
  | .returns => { r with returns := some rest }
  | .sample => { r with examples := r.examples ++ [if rest = [] then [] else [rest]] }
  | .description => { r with description := r.description ++ [rest] }
  | .other => r

/-- A line without a tag. A blank line ends the free text once there is some. -/
def goOn (r : Reader) (line : List Char) : Reader :=
  let s := Text.trim line
  match r.current with
  | .param => { r with params := r.params.modifyLast (extend · s) }
  | .returns => { r with returns := r.returns.map (extend · s) }
  | .sample => { r with examples := r.examples.modifyLast (· ++ [Text.trimEnd line]) }
  | .description =>
    if r.inFree then
      if s ≠ [] then { r with free := r.free ++ [s] }
      else if r.free = [] then r
      else { r with current := .other, inFree := false }
    else if s = [] then r
    else { r with description := r.description ++ [s] }
  | .other => r

def step (r : Reader) (raw : List Char) : Reader :=
  match tagged? (cleanLine raw) with
  | some (tag, rest) => r.start tag rest
  | none => r.goOn (cleanLine raw)

/-- What has been read. -/
def entry (r : Reader) (name file : String) : DocEntry where
  name := name
  description := .ofList
    (if r.description = [] then joinWords r.free else Text.trim (joinWords r.description))
  params := r.params.filterMap param?
  returns := r.returns.map returnDoc
  examples := ((r.examples.map dedent).filter (· ≠ [])).map String.ofList
  file := file

/-! ## Blocks -/

/-- A whole block. -/
def add (r : Reader) (b : Block) : Reader :=
  let r := { r with current := b.tag, inFree := false }
  match b.tag with
  | .param => { r with params := r.params ++ [b.text] }
  | .returns => { r with returns := some b.text }
  | .sample => { r with examples := r.examples ++ [b.exampleLines] }
  | .description => { r with description := r.description ++ b.rest :: filled b.lines }
  | .other => r

theorem start_eq_add (r : Reader) (tag : Tag) (rest : List Char) :
    r.start tag rest = r.add ⟨tag, rest, []⟩ := by
  have htext : (⟨tag, rest, []⟩ : Block).text = rest := by
    by_cases h : rest = [] <;> simp [Block.text, filled, joinWords, h]
  cases tag <;> simp [start, add, htext, Block.exampleLines, filled]

end Reader

/-- One more text stands behind a space, unless it is the first one. -/
theorem joinWords_concat {ws : List (List Char)} (h : ∀ w ∈ ws, w ≠ []) {w : List Char}
    (hw : w ≠ []) : joinWords (ws ++ [w]) = extend (joinWords ws) w := by
  cases ws with
  | nil => simp [joinWords, extend, hw]
  | cons v ws =>
    have hne : joinWords (v :: ws) ≠ [] := by
      have hv : v ≠ [] := h v List.mem_cons_self
      cases ws with
      | nil => simpa [joinWords] using hv
      | cons v' ws => simp [joinWords, List.intercalate_cons_cons]
    rw [extend, if_neg hw, if_neg hne]
    exact Text.intercalate_concat [' '] v ws w

theorem Block.text_concat (tag : Tag) (rest : List Char) (ls : List (List Char)) (l : List Char) :
    (⟨tag, rest, ls ++ [l]⟩ : Block).text =
      extend (⟨tag, rest, ls⟩ : Block).text (Text.trim l) := by
  by_cases hl : Text.trim l = []
  · simp [Block.text, filled, extend, hl]
  · have hfilled : filled (ls ++ [l]) = filled ls ++ [Text.trim l] := by simp [filled, hl]
    have hfilter : (rest :: filled (ls ++ [l])).filter (· ≠ []) =
        (rest :: filled ls).filter (· ≠ []) ++ [Text.trim l] := by
      rw [hfilled, ← List.cons_append, List.filter_append]
      simp [hl]
    rw [Block.text, hfilter, joinWords_concat (by simp) hl]
    rfl

namespace Reader

/-- A line after a block goes to this block. -/
theorem goOn_add (r : Reader) (tag : Tag) (rest : List Char) (ls : List (List Char))
    (l : List Char) :
    (r.add ⟨tag, rest, ls⟩).goOn l = r.add ⟨tag, rest, ls ++ [l]⟩ := by
  cases tag with
  | param => simp [add, goOn, Block.text_concat, List.modifyLast_concat]
  | returns => simp [add, goOn, Block.text_concat]
  | sample => simp [add, goOn, Block.exampleLines, List.modifyLast_concat]
  | description => by_cases h : Text.trim l = [] <;> simp [add, goOn, filled, h]
  | other => rfl

theorem foldl_body (r : Reader) (tag : Tag) (rest : List Char) {ls : List (List Char)}
    (h : ∀ l ∈ ls, tagged? (cleanLine l) = none) :
    ls.foldl step (r.add ⟨tag, rest, []⟩) = r.add ⟨tag, rest, ls.map cleanLine⟩ := by
  induction ls using List.reverseRecOn with
  | nil => rfl
  | append_singleton ls l ih =>
    have hl : tagged? (cleanLine l) = none := h l (by simp)
    have hls : ∀ x ∈ ls, tagged? (cleanLine x) = none := fun x hx => h x (by simp [hx])
    rw [List.foldl_concat, ih hls, step, hl, List.map_append, List.map_singleton, ← goOn_add]

/-- The lines of a block add the block, whatever was read before it. -/
theorem foldl_block (r : Reader) (b : TagBlock) : b.lines.foldl step r = r.add b.clean := by
  rw [TagBlock.lines, List.foldl_cons, step, b.tagged]
  simp only [start_eq_add, foldl_body r b.tag b.rest b.plain]
  rfl

theorem foldl_blocks (r : Reader) (bs : List TagBlock) :
    (bs.flatMap TagBlock.lines).foldl step r = (bs.map TagBlock.clean).foldl add r := by
  induction bs generalizing r with
  | nil => rfl
  | cons b bs ih =>
    rw [List.flatMap_cons, List.foldl_append, foldl_block, ih, List.map_cons, List.foldl_cons]

/-! ## Free text -/

theorem foldl_other {r : Reader} (hr : r.current = .other) {ls : List (List Char)}
    (h : ∀ l ∈ ls, tagged? (cleanLine l) = none) : ls.foldl step r = r := by
  induction ls with
  | nil => rfl
  | cons l ls ih =>
    rw [List.foldl_cons, step, h l List.mem_cons_self, goOn, hr]
    exact ih fun x hx => h x (List.mem_cons_of_mem _ hx)

/-- Within the first paragraph. -/
theorem foldl_paragraph {p : List (List Char)} (hp : p ≠ []) {ls : List (List Char)}
    (h : ∀ l ∈ ls, tagged? (cleanLine l) = none) :
    ∃ tag inFree, ls.foldl step { free := p } =
      { free := p ++ ((ls.map cleanLine).map Text.trim).takeWhile (· ≠ [])
        current := tag, inFree } := by
  induction ls generalizing p with
  | nil => exact ⟨.description, true, by simp⟩
  | cons l ls ih =>
    have hls : ∀ x ∈ ls, tagged? (cleanLine x) = none := fun x hx => h x (List.mem_cons_of_mem _ hx)
    rw [List.foldl_cons, step, h l List.mem_cons_self]
    by_cases hl : Text.trim (cleanLine l) = []
    · -- the paragraph is over, and so is the free text
      have hstep : goOn { free := p } (cleanLine l) =
          { free := p, current := .other, inFree := false } := by simp [goOn, hl, hp]
      refine ⟨.other, false, ?_⟩
      simp only [hstep]
      rw [foldl_other rfl hls]
      simp [hl]
    · obtain ⟨tag, inFree, ih⟩ := ih (p := p ++ [Text.trim (cleanLine l)]) (by simp) hls
      refine ⟨tag, inFree, ?_⟩
      have hstep : goOn { free := p } (cleanLine l) =
          { free := p ++ [Text.trim (cleanLine l)] } := by simp [goOn, hl]
      simp [hstep, ih, hl]

theorem foldl_free {ls : List (List Char)} (h : ∀ l ∈ ls, tagged? (cleanLine l) = none) :
    ∃ tag inFree, ls.foldl step {} =
      { free := (((ls.map cleanLine).map Text.trim).dropWhile (· = [])).takeWhile (· ≠ [])
        current := tag, inFree } := by
  induction ls with
  | nil => exact ⟨_, _, rfl⟩
  | cons l ls ih =>
    have hls : ∀ x ∈ ls, tagged? (cleanLine x) = none := fun x hx => h x (List.mem_cons_of_mem _ hx)
    rw [List.foldl_cons, step, h l List.mem_cons_self]
    by_cases hl : Text.trim (cleanLine l) = []
    · have hstep : goOn {} (cleanLine l) = {} := by simp [goOn, hl]
      obtain ⟨tag, inFree, ih⟩ := ih hls
      exact ⟨tag, inFree, by simp [hstep, ih, hl]⟩
    · have hstep : goOn {} (cleanLine l) = { free := [Text.trim (cleanLine l)] } := by
        simp [goOn, hl]
      obtain ⟨tag, inFree, hpar⟩ :=
        foldl_paragraph (List.cons_ne_nil (Text.trim (cleanLine l)) []) hls
      exact ⟨tag, inFree, by simp [hstep, hpar, hl]⟩

/-! ## The whole pass -/

theorem foldl_add (r : Reader) (bs : List Block) :
    (bs.foldl add r).free = r.free ∧
    (bs.foldl add r).description =
      r.description ++ (ofTag .description bs).flatMap (fun b => b.rest :: filled b.lines) ∧
    (bs.foldl add r).params = r.params ++ (ofTag .param bs).map Block.text ∧
    (bs.foldl add r).returns = ((ofTag .returns bs).getLast?.map Block.text).or r.returns ∧
    (bs.foldl add r).examples = r.examples ++ (ofTag .sample bs).map Block.exampleLines := by
  induction bs using List.reverseRecOn with
  | nil => simp [ofTag]
  | append_singleton bs b ih =>
    obtain ⟨tag, rest, ls⟩ := b
    obtain ⟨hfree, hdescription, hparams, hreturns, hexamples⟩ := ih
    have hconcat : ∀ tag', ofTag tag' (bs ++ [⟨tag, rest, ls⟩]) =
        ofTag tag' bs ++ ofTag tag' [⟨tag, rest, ls⟩] := fun _ => List.filter_append ..
    simp only [List.foldl_concat, hconcat]
    -- the new block goes to the texts of its own tag
    cases tag <;> simp [add, ofTag, *]

theorem entry_foldl_add (name file : String) {free p : List (List Char)}
    (hp : joinWords p = summary free) (tag : Tag) (inFree : Bool) (bs : List Block) :
    (bs.foldl add { free := p, current := tag, inFree }).entry name file =
      entryOf name file free bs := by
  obtain ⟨hfree, hdescription, hparams, hreturns, hexamples⟩ :=
    foldl_add { free := p, current := tag, inFree } bs
  have hnone : (ofTag .description bs).flatMap (fun b => b.rest :: filled b.lines) = [] ↔
      ofTag .description bs = [] := by
    cases ofTag .description bs <;> simp
  rw [entry, entryOf, description_eq, hfree, hdescription, hparams, hreturns, hexamples]
  simp only [List.nil_append, hnone, hp, List.filterMap_map, List.map_map, Option.or_none,
    Option.map_map, Function.comp_def]

end Reader

/-- **A comment can be read in one pass.** -/
theorem parse_eq_onePass (name file : String) (c : Comment) :
    parse name file c = ((Text.lines c.value.toList).foldl Reader.step {}).entry name file := by
  obtain ⟨L, hL⟩ := exists_layout (Text.lines c.value.toList)
  obtain ⟨tag, inFree, hfree⟩ := Reader.foldl_free L.plain
  rw [parse_layout name file hL, ← hL, Layout.lines, List.foldl_append, Reader.foldl_blocks, hfree]
  exact (Reader.entry_foldl_add name file rfl tag inFree _).symm

/-! ## What the blocks say -/

/-- **The blocks of a comment do not interfere.** A comment can be read in one pass over its lines,
and every comment has a layout. Whatever layout it is seen in, the parameters, the result, the
examples and the description are each said by the blocks of their own tag, and the comment says the
same when two neighbours with different tags change places or a block without a meaning is left
out. -/
theorem parse_blocks_apart (name file : String) (c : Comment) :
    parse name file c = ((Text.lines c.value.toList).foldl Reader.step {}).entry name file ∧
    (∃ L : Layout, L.lines = Text.lines c.value.toList) ∧
    ∀ L : Layout, L.lines = Text.lines c.value.toList →
      parse name file c =
        { name := name
          file := file
          description := .ofList
            (if L.ofTag .description = [] then summary (L.free.map cleanLine)
              else Text.trim (joinWords
                ((L.ofTag .description).flatMap fun b => b.rest :: filled b.lines)))
          params := (L.ofTag .param).filterMap fun b => param? b.text
          returns := (L.ofTag .returns).getLast?.map fun b => returnDoc b.text
          examples := (((L.ofTag .sample).map fun b => dedent b.exampleLines).filter (· ≠ [])).map
            String.ofList } ∧
      ∀ L' : Layout, L'.free = L.free → Rearranged L.blocks L'.blocks →
        (∃ c' : Comment, L'.lines = Text.lines c'.value.toList) ∧
        ∀ c' : Comment, L'.lines = Text.lines c'.value.toList →
          parse name file c' = parse name file c := by
  refine ⟨parse_eq_onePass name file c, exists_layout _, fun L hL =>
    ⟨?_, fun L' hfree hblocks => ⟨?_, fun c' hc' => ?_⟩⟩⟩
  · rw [parse_layout name file hL, entryOf, description_eq]
    rfl
  · obtain ⟨c', hc'⟩ := exists_lines (L.oneLine_of_rearranged hL hfree hblocks)
    exact ⟨c', hc'.symm⟩
  · rw [parse_layout name file hc', parse_layout name file hL, hfree]
    exact entryOf_congr name file _ fun tag htag => ofTag_rearranged hblocks htag

/-- The result may stand in front of the parameter, both with a second line. -/
theorem parse_blocks_apart_returns_first :
    parse "add" "a.ts"
        ⟨.block, "* Adds.\n * @returns the\n *  sum\n * @param a - one\n *  of two\n * @see b", 1⟩ =
      parse "add" "a.ts"
        ⟨.block, "* Adds.\n * @param a - one\n *  of two\n * @returns the\n *  sum\n * @see b", 1⟩ := by
  let param : TagBlock :=
    ⟨" * @param a - one".toList, [" *  of two".toList], .param, "a - one".toList, by decide,
      by decide⟩
  let result : TagBlock :=
    ⟨" * @returns the".toList, [" *  sum".toList], .returns, "the".toList, by decide, by decide⟩
  let see : TagBlock := ⟨" * @see b".toList, [], .other, "b".toList, by decide, by simp⟩
  have hfree : ∀ l ∈ ["* Adds.".toList], tagged? (cleanLine l) = none := by decide
  refine (((parse_blocks_apart "add" "a.ts" _).2.2 ⟨["* Adds.".toList], [param, result, see], hfree⟩
    ?_).2 ⟨["* Adds.".toList], [result, param, see], hfree⟩ rfl (.swap [] [see] ?_)).2 _ ?_
  all_goals simp only [Layout.lines, param, result, see]; decide

end DocScope.DocComment
