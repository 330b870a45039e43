import DocScope.Docs.DocComment
import DocScope.Proofs.Text.Lines
import DocScope.Proofs.Text.Trim

/-!
# Lines and blocks of a doc comment

* `cleanLine_gutter`: the gutter of a line is removed, and nothing else;
* `tagged?_word`, `tagged?_text`: a line that starts with a tag;
* `blocks_tag`: a line with a tag, wherever it stands, starts a block of its own;
* `blocks_tagged`: a line with a tag and the plain lines after it become a block; plain lines at
  the end belong to the last block (`padLast`);
* `Block.text_padded`, `Block.dedent_padded`, `entryOf_padLast`: an empty line at the end of a block
  does not change what the block says.
-/

namespace DocScope.DocComment

/-! ## Lines -/

/-- A line of a comment with the gutter in front. -/
def gutter (l : List Char) : List Char := ' ' :: '*' :: ' ' :: l

@[simp] theorem cleanLine_gutter (l : List Char) : cleanLine (gutter l) = l := rfl

theorem tagged?_congr {l l' : List Char} (h : Text.trim l = Text.trim l') :
    tagged? l = tagged? l' := by
  rw [tagged?, tagged?, h]

theorem tagged?_of_head {l : List Char} (h : (Text.trim l).head? ≠ some '@') : tagged? l = none := by
  unfold tagged?
  split
  · next r hr =>
    rw [hr] at h
    exact absurd rfl h
  · rfl

section
variable {w : List Char} (hw : w.any Text.isBlank = false)
include hw

theorem takeWhile_word (rest : List Char) :
    (w ++ ' ' :: rest).takeWhile (!Text.isBlank ·) = w ∧
      (w ++ ' ' :: rest).dropWhile (!Text.isBlank ·) = ' ' :: rest := by
  have hw' : ∀ c ∈ w, (!Text.isBlank c) = true := by simpa using hw
  rw [List.takeWhile_append_of_pos hw', List.dropWhile_append_of_pos hw']
  exact ⟨List.append_nil _, rfl⟩

/-- A tag that stands alone on its line. -/
theorem tagged?_word : tagged? ('@' :: w) = some (.ofWord w, []) := by
  have hw' : ∀ c ∈ w, (!Text.isBlank c) = true := by simpa using hw
  have htrim : Text.trim ('@' :: w) = '@' :: w := by
    refine Text.trim_eq_self (List.forall_mem_cons.2 ⟨by decide, ?_⟩)
    simpa using hw
  simp only [tagged?, htrim, List.takeWhile_eq_self_iff.2 hw', List.dropWhile_eq_nil_iff.2 hw']
  rfl

/-- A tag with a text behind it, which loses the blanks at its end. -/
theorem tagged?_text {c : Char} (hc : Text.isBlank c = false) (u : List Char) :
    tagged? ('@' :: (w ++ ' ' :: c :: u)) = some (.ofWord w, c :: Text.trimEnd u) := by
  have hne : Text.trimEnd (c :: u) ≠ [] := by
    rw [Text.trimEnd_cons hc]
    exact List.cons_ne_nil _ _
  have htrim : Text.trim ('@' :: (w ++ ' ' :: c :: u)) = '@' :: (w ++ ' ' :: c :: Text.trimEnd u) := by
    have hsplit : w ++ ' ' :: c :: u = (w ++ [' ']) ++ c :: u := by simp
    rw [Text.trim_cons (by decide), hsplit, Text.trimEnd_append hne, Text.trimEnd_cons hc]
    simp
  obtain ⟨htake, hdrop⟩ := takeWhile_word hw (c :: Text.trimEnd u)
  simp only [tagged?, htrim, htake, hdrop, List.drop_succ_cons, List.drop_zero]
  rw [Text.trim_cons hc, Text.trimEnd_trimEnd]

end

/-! ## Blocks -/

theorem blocks_plain {ls : List (List Char)} (h : ∀ l ∈ ls, tagged? l = none)
    (rest : List (List Char)) :
    blocks (ls ++ rest) = (ls ++ (blocks rest).1, (blocks rest).2) := by
  induction ls with
  | nil => rfl
  | cons l ls ih =>
    rw [List.cons_append, blocks, ih fun x hx => h x (List.mem_cons_of_mem _ hx),
      h l List.mem_cons_self]
    rfl

/-- A line with a tag starts a block of its own: the lines above it say what they say without it. -/
theorem blocks_tag (xs : List (List Char)) {l rest : List Char} {tag : Tag}
    (h : tagged? l = some (tag, rest)) (ys : List (List Char)) :
    blocks (xs ++ l :: ys) =
      ((blocks xs).1, (blocks xs).2 ++ ⟨tag, rest, (blocks ys).1⟩ :: (blocks ys).2) := by
  induction xs with
  | nil => simp [blocks, h]
  | cons x xs ih =>
    rw [List.cons_append, blocks, ih, blocks]
    cases tagged? x with
    | none => rfl
    | some t => rfl

theorem blocks_fst (ls : List (List Char)) :
    (blocks ls).1 = ls.takeWhile fun l => (tagged? l).isNone := by
  induction ls with
  | nil => rfl
  | cons l ls ih =>
    rw [blocks, List.takeWhile_cons]
    cases tagged? l with
    | none => simp [ih]
    | some t => rfl

/-- A block with more lines at its end. -/
def Block.padded (pad : List (List Char)) (b : Block) : Block := { b with lines := b.lines ++ pad }

/-- Blocks of which the last one has more lines at its end. -/
def padLast (pad : List (List Char)) : List Block → List Block
  | [] => []
  | [b] => [b.padded pad]
  | b :: b' :: bs => b :: padLast pad (b' :: bs)

/-- Lines that start with a tag, each with the plain lines of its block after it, make up the
blocks. -/
theorem blocks_tagged {gs : List (List Char × Block)}
    (htag : ∀ g ∈ gs, tagged? g.1 = some (g.2.tag, g.2.rest))
    (hplain : ∀ g ∈ gs, ∀ l ∈ g.2.lines, tagged? l = none) {pad : List (List Char)}
    (hpad : ∀ l ∈ pad, tagged? l = none) :
    blocks ((gs.flatMap fun g => g.1 :: g.2.lines) ++ pad) =
      (if gs = [] then pad else [], padLast pad (gs.map Prod.snd)) := by
  induction gs with
  | nil => simpa [padLast, blocks] using blocks_plain hpad []
  | cons g gs ih =>
    obtain ⟨header, tag, rest, lines⟩ := g
    have ih := ih (fun g hg => htag g (List.mem_cons_of_mem _ hg))
      (fun g hg => hplain g (List.mem_cons_of_mem _ hg))
    have hhead : tagged? header = some (tag, rest) := htag _ List.mem_cons_self
    have hlines : ∀ l ∈ lines, tagged? l = none := hplain _ List.mem_cons_self
    rw [List.flatMap_cons, List.append_assoc, List.cons_append, blocks, blocks_plain hlines, ih,
      hhead]
    cases gs with
    | nil => simp [padLast, Block.padded]
    | cons g' gs => simp [padLast]

theorem map_ofTag_padLast {β : Type} (pad : List (List Char)) {f : Block → β}
    (hf : ∀ b : Block, f (b.padded pad) = f b) (tag : Tag) (bs : List Block) :
    (ofTag tag (padLast pad bs)).map f = (ofTag tag bs).map f := by
  fun_induction padLast pad bs with
  | case1 => rfl
  | case2 b =>
    by_cases hb : b.tag = tag
    · simpa [ofTag, Block.padded, hb] using hf b
    · simp [ofTag, Block.padded, hb]
  | case3 b b' bs ih =>
    by_cases hb : b.tag = tag
    · simpa [ofTag, hb] using ih
    · simpa [ofTag, hb] using ih

/-! ## An empty line at the end of a block -/

theorem Block.filled_padded (b : Block) : filled (b.padded [[]]).lines = filled b.lines := by
  simp [filled, padded]

theorem Block.text_padded (b : Block) : (b.padded [[]]).text = b.text := by
  rw [text, filled_padded]
  rfl

@[simp] theorem stripIndent_nil (n : Nat) : stripIndent n [] = [] := by
  cases n <;> rfl

theorem trimNewlines_concat (s : List Char) :
    Text.dropEnd (· == '\n') ((s ++ ['\n']).dropWhile (· == '\n')) =
      Text.dropEnd (· == '\n') (s.dropWhile (· == '\n')) := by
  rw [List.dropWhile_append]
  split
  · next h => rw [List.isEmpty_iff.1 h]; rfl
  · exact Text.dropEnd_append_of_all (by simp) _

/-- An empty line at the end is lost. -/
theorem dedent_concat_nil (ls : List (List Char)) : dedent (ls ++ [[]]) = dedent ls := by
  have hindent : commonIndent (ls ++ [[]]) = commonIndent ls := by simp [commonIndent, Text.allBlank]
  unfold dedent
  rw [hindent, List.map_append, List.map_singleton, stripIndent_nil]
  cases ls with
  | nil => rfl
  | cons l ls => rw [List.map_cons, Text.joinLines_concat, trimNewlines_concat]

theorem Block.dedent_padded (b : Block) :
    dedent (b.padded [[]]).exampleLines = dedent b.exampleLines := by
  have hlines : (b.padded [[]]).exampleLines = b.exampleLines ++ [[]] := by
    unfold exampleLines
    rw [List.append_assoc]
    exact congrArg _ List.map_append
  rw [hlines, dedent_concat_nil]

theorem description_eq (free : List (List Char)) (bs : List Block) : description free bs =
    if ofTag .description bs = [] then summary free
    else
      Text.trim (joinWords ((ofTag .description bs).flatMap fun b => b.rest :: filled b.lines)) := by
  unfold description ofTag
  cases bs.filter (·.tag = .description) with
  | nil => rfl
  | cons b ds => rfl

theorem description_padLast (free : List (List Char)) (bs : List Block) :
    description free (padLast [[]] bs) = description free bs := by
  have hsaid := map_ofTag_padLast [[]] (f := fun b => b.rest :: filled b.lines)
    (fun b => by rw [Block.filled_padded]; rfl) .description bs
  have hdescription : ∀ bs, description free bs =
      let said := (ofTag .description bs).map fun b => b.rest :: filled b.lines
      if said = [] then summary free else Text.trim (joinWords said.flatten) := by
    intro bs
    simp only [description_eq, List.map_eq_nil_iff, List.flatMap_def]
  rw [hdescription, hdescription, hsaid]

/-- **An empty line at the end of a comment says nothing.** -/
theorem entryOf_padLast (name file : String) (free : List (List Char)) (bs : List Block) :
    entryOf name file free (padLast [[]] bs) = entryOf name file free bs := by
  have hparams := map_ofTag_padLast [[]] (f := fun b => param? b.text)
    (fun b => by rw [Block.text_padded]) .param bs
  have hreturns := map_ofTag_padLast [[]] (f := fun b => returnDoc b.text)
    (fun b => by rw [Block.text_padded]) .returns bs
  have hexamples := map_ofTag_padLast [[]] (f := fun b => dedent b.exampleLines)
    Block.dedent_padded .sample bs
  have hfilter : ∀ bs : List Block, bs.filterMap (fun b => param? b.text) =
      (bs.map fun b => param? b.text).filterMap id := fun bs => by rw [List.filterMap_map]; rfl
  have hlast : ∀ bs : List Block, bs.getLast?.map (fun b => returnDoc b.text) =
      (bs.map fun b => returnDoc b.text).getLast? := fun bs => List.getLast?_map.symm
  rw [entryOf, entryOf, description_padLast, hfilter, hfilter, hparams, hlast, hlast, hreturns,
    hexamples]

end DocScope.DocComment
