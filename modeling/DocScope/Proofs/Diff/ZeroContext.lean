import DocScope.Proofs.Diff.Hunk
import DocScope.Proofs.Text.Lines

/-!
# Diffs without context lines

`ZeroContextDiff.text` prints a diff of one file: some lines about the file, and hunks. A hunk has a
header `@@ -a,b +c,d @@`, where the count `d` of added lines is left out if it is one, and below it
the removed and the added lines, with a sign in front of each.

* `Hunk.readLine?_header`: the header is read again, whatever the text behind it is.
* `Hunk.body_plain`: no other line is taken for a header, whatever the lines of the file are, since
  each has a sign in front.
* `ZeroContextDiff.ofDiff_text`: so the ranges that are read are those of the hunks.
* `ZeroContextDiff.ofDiff?_text`: the lines that are read are the numbers of the added lines.
-/

namespace DocScope

/-! ## Printing -/

/-- A text that stands on one line. -/
structure TextLine where
  text : String
  oneLine : OneLine text.toList

/-- A hunk: the place and the number of its lines in the old file, where they start in the new one,
and the lines themselves. -/
structure Hunk where
  oldStart : Nat
  /-- The number of old lines, if it is printed. -/
  oldCount : Option Nat
  start : Nat
  removed : List TextLine
  added : List TextLine
  /-- What stands behind the header. -/
  context : Option TextLine
  /-- Whether the last removed line ends the old file without a newline. -/
  oldUnended : Bool
  /-- Whether the last added line ends the new file without a newline. -/
  newUnended : Bool
  inRange : start + added.length < lineLimit

namespace Hunk

def rangeText (start : Nat) : Option Nat → String
  | none => Nat.repr start
  | some count => Nat.repr start ++ "," ++ Nat.repr count

/-- The number of added lines, if it is printed. -/
def newCount (h : Hunk) : Option Nat := if h.added.length = 1 then none else some h.added.length

def ranges (h : Hunk) : String :=
  "@@ -" ++ rangeText h.oldStart h.oldCount ++ " +" ++ rangeText h.start h.newCount ++ " @@"

def header (h : Hunk) : String :=
  match h.context with
  | none => h.ranges
  | some t => h.ranges ++ " " ++ t.text

/-- The line that says that a file does not end with a newline. -/
def unendedLine (unended : Bool) : List String :=
  if unended then ["\\ No newline at end of file"] else []

def body (h : Hunk) : List String :=
  h.removed.map ("-" ++ ·.text) ++ unendedLine h.oldUnended ++
    (h.added.map ("+" ++ ·.text) ++ unendedLine h.newUnended)

/-- The range of a hunk in the new file. -/
def range (h : Hunk) : HunkRange := ⟨h.start, h.added.length⟩

end Hunk

/-- A diff of one file: lines that are no headers of hunks, and hunks. -/
structure ZeroContextDiff where
  preamble : List TextLine
  hunks : List Hunk
  preamble_plain : ∀ l ∈ preamble, ¬ ['@', '@'] <+: l.text.toList

namespace ZeroContextDiff

def lines (d : ZeroContextDiff) : List String :=
  d.preamble.map (·.text) ++ d.hunks.flatMap fun h => h.header :: h.body

def text (d : ZeroContextDiff) : String := String.join (d.lines.map (· ++ "\n"))

end ZeroContextDiff

/-! ## Reading a line -/

open HunkRange (announced? number?_repr)

/-- What is made of a printed line that ends with a newline. -/
def readLine? (l : String) : Option HunkRange := announced? (Text.chomp (l.toList ++ ['\n']))

theorem readLine?_of_not_prefix {l : String} (h : ¬ ['@', '@'] <+: l.toList) :
    readLine? l = none := by
  refine if_neg ?_
  rw [List.isPrefixOf_iff_prefix]
  exact fun hp => h (hp.trans (Text.chomp_line_prefix l.toList))

namespace Hunk

theorem signed_plain {sign : String} {c : Char} (hsign : sign.toList = [c]) (hc : c ≠ '@')
    (hc' : c ≠ '\n') (t : TextLine) :
    OneLine (sign ++ t.text).toList ∧ ¬ ['@', '@'] <+: (sign ++ t.text).toList := by
  rw [String.toList_append, hsign]
  exact ⟨OneLine.cons hc' t.oneLine, fun hp => hc (List.cons_prefix_cons.1 hp).1.symm⟩

theorem unendedLine_plain {unended : Bool} {l : String} (hl : l ∈ unendedLine unended) :
    OneLine l.toList ∧ ¬ ['@', '@'] <+: l.toList := by
  unfold unendedLine at hl
  split at hl
  · rw [List.mem_singleton.1 hl]
    decide
  · cases hl

/-- A line below the header does not look like a header: a removed or added line has a sign in
front. -/
theorem body_plain (h : Hunk) :
    ∀ l ∈ h.body, OneLine l.toList ∧ ¬ ['@', '@'] <+: l.toList := by
  intro l hl
  unfold body at hl
  rcases List.mem_append.1 hl with hl | hl <;> rcases List.mem_append.1 hl with hl | hl
  · obtain ⟨t, -, rfl⟩ := List.mem_map.1 hl
    exact signed_plain rfl (by decide) (by decide) t
  · exact unendedLine_plain hl
  · obtain ⟨t, -, rfl⟩ := List.mem_map.1 hl
    exact signed_plain rfl (by decide) (by decide) t
  · exact unendedLine_plain hl

/-! ## Reading a header -/

theorem mem_rangeText {start : Nat} {count : Option Nat} {c : Char}
    (h : c ∈ (rangeText start count).toList) : c.isDigit = true ∨ c = ',' := by
  cases count with
  | none => exact .inl (HunkRange.isDigit_of_mem_repr h)
  | some n =>
    simp only [rangeText, String.toList_append, List.mem_append] at h
    rcases h with (h | h) | h
    · exact .inl (HunkRange.isDigit_of_mem_repr h)
    · exact .inr (by simpa using h)
    · exact .inl (HunkRange.isDigit_of_mem_repr h)

/-- The new side of a header is read as the start and the number of the added lines. -/
theorem read_newSide (h : Hunk) (rest : List Char) :
    ∃ afterStart, HunkRange.number? ((rangeText h.start h.newCount).toList ++
        ([' ', '@', '@'] ++ rest)) = some (h.start, afterStart) ∧
      HunkRange.count? afterStart = some (h.added.length, [' ', '@', '@'] ++ rest) := by
  have hrange := h.inRange
  have hspace : ∀ c ∈ ([' ', '@', '@'] ++ rest).head?, c.isDigit = false := by
    rintro c ⟨⟩
    rfl
  unfold newCount
  split
  · next hone =>
    rw [hone]
    exact ⟨_, number?_repr (by omega) hspace, rfl⟩
  · refine ⟨',' :: ((Nat.repr h.added.length).toList ++ ([' ', '@', '@'] ++ rest)), ?_, ?_⟩
    · simp only [rangeText, String.toList_append, List.append_assoc]
      exact number?_repr (by omega) (by rintro c ⟨⟩; rfl)
    · exact number?_repr (by omega) hspace

theorem read?_ranges (h : Hunk) (rest : List Char) :
    HunkRange.read? (h.ranges.toList ++ rest) = some h.range := by
  obtain ⟨afterStart, hstart, hcount⟩ := h.read_newSide rest
  have hold : ∀ c ∈ '-' :: ((rangeText h.oldStart h.oldCount).toList ++ [' ']),
      c ≠ '+' ∧ c ≠ '@' := by
    intro c hc
    rcases List.mem_cons.1 hc with rfl | hc
    · decide
    · rcases List.mem_append.1 hc with hc | hc
      · rcases mem_rangeText hc with hd | rfl
        · constructor <;> (rintro rfl; revert hd; decide)
        · decide
      · obtain rfl := List.mem_singleton.1 hc
        decide
  have hread := HunkRange.read?_eq hold hstart hcount
  simpa [ranges, range, String.toList_append] using hread

theorem ranges_prefix_header (h : Hunk) : h.ranges.toList <+: h.header.toList := by
  unfold header
  split
  · exact List.prefix_rfl
  · rw [String.toList_append, String.toList_append, List.append_assoc]
    exact List.prefix_append _ _

theorem readLine?_header (h : Hunk) : readLine? h.header = some h.range := by
  -- the ranges end with an at sign, so they stay when the line loses its end
  have hlast : h.ranges.toList.getLast? ≠ some '\r' := by
    have hend : " @@".toList.getLast? = some '@' := rfl
    rw [ranges, String.toList_append, List.getLast?_append, hend]
    simp
  obtain ⟨rest, hrest⟩ := Text.prefix_chomp_line h.ranges_prefix_header hlast
  have hat : ['@', '@'].isPrefixOf (h.ranges.toList ++ rest) = true := by
    simp [ranges, String.toList_append]
  rw [readLine?, ← hrest, announced?, if_pos hat]
  exact h.read?_ranges rest

end Hunk

/-! ## Reading a diff -/

theorem Hunk.oneLine_header (h : Hunk) : OneLine h.header.toList := by
  have hrange : ∀ start count, OneLine (rangeText start count).toList := by
    intro start count hm
    rcases mem_rangeText hm with hd | hd
    · revert hd
      decide
    · cases hd
  have hranges : OneLine h.ranges.toList := by
    simp only [ranges, String.toList_append]
    exact (((OneLine.append (by decide) (hrange _ _)).append (by decide)).append
      (hrange _ _)).append (by decide)
  unfold header
  split
  · exact hranges
  · next t _ =>
    rw [String.toList_append, String.toList_append]
    exact (hranges.append (by decide)).append t.oneLine

namespace ZeroContextDiff

theorem oneLine_lines (d : ZeroContextDiff) : ∀ l ∈ d.lines, OneLine l.toList := by
  intro l hl
  rcases List.mem_append.1 hl with hl | hl
  · obtain ⟨t, -, rfl⟩ := List.mem_map.1 hl
    exact t.oneLine
  · obtain ⟨h, -, hl⟩ := List.mem_flatMap.1 hl
    rcases List.mem_cons.1 hl with rfl | hl
    · exact h.oneLine_header
    · exact (h.body_plain l hl).1

theorem lines_text (d : ZeroContextDiff) :
    Text.lines d.text.toList = d.lines.map fun l => Text.chomp (l.toList ++ ['\n']) := by
  have htext : d.text.toList = (d.lines.map String.toList).flatMap (· ++ ['\n']) := by
    simp [text, String.toList_join, List.flatMap_map]
  rw [Text.lines, htext, Text.splitInclusive_flatMap (List.forall_mem_map.2 d.oneLine_lines),
    List.map_map, List.map_map]
  rfl

/-- The ranges that are read are those of the hunks. -/
theorem ofDiff_text (d : ZeroContextDiff) :
    HunkRange.ofDiff d.text.toList = d.hunks.map Hunk.range := by
  have hpreamble : (d.preamble.map (·.text)).filterMap readLine? = [] := by
    rw [List.filterMap_eq_nil_iff]
    intro l hl
    obtain ⟨t, ht, rfl⟩ := List.mem_map.1 hl
    exact readLine?_of_not_prefix (d.preamble_plain t ht)
  have hhunk : ∀ h : Hunk, (h.header :: h.body).filterMap readLine? = [h.range] := by
    intro h
    have hbody : h.body.filterMap readLine? = [] :=
      List.filterMap_eq_nil_iff.2 fun l hl => readLine?_of_not_prefix (h.body_plain l hl).2
    rw [List.filterMap_cons_some h.readLine?_header, hbody]
  rw [HunkRange.ofDiff_eq, lines_text, List.filterMap_map]
  show d.lines.filterMap readLine? = _
  rw [lines, List.filterMap_append, hpreamble, List.nil_append, List.filterMap_flatMap,
    List.map_eq_flatMap]
  simp only [hhunk]

/-- **What is printed is read again.** The numbers that are read off a diff without context lines
are those of its added lines, in ascending order and each once, whatever the lines are. -/
theorem ofDiff?_text (d : ZeroContextDiff) :
    ∃ s, AddedLines.ofDiff? d.text = some s ∧
      (∀ n, s.contains n = true ↔ ∃ h ∈ d.hunks, h.start ≤ n ∧ n < h.start + h.added.length) ∧
      s.lines.Pairwise (· < ·) := by
  have hsmall : ∀ range ∈ HunkRange.ofDiff d.text.toList,
      range.start + range.count < lineLimit := by
    rw [ofDiff_text]
    exact List.forall_mem_map.2 fun h _ => h.inRange
  obtain ⟨s, hs, hmem, hsorted⟩ := AddedLines.ofDiff?_spec hsmall
  refine ⟨s, hs, fun n => ?_, hsorted⟩
  rw [hmem, ofDiff_text]
  simp [Hunk.range]

/-- Two hunks in the wrong order, with lines that look like headers in them. -/
theorem ofDiff?_text_of_headers :
    let line (s : String) (h : OneLine s.toList) : TextLine := ⟨s, h⟩
    let d : ZeroContextDiff :=
      { preamble := [line "+++ b/src/a.ts" (by decide)]
        hunks :=
          [{ oldStart := 20, oldCount := some 1, start := 22
             removed := [line "@@ -1 +90 @@" (by decide)]
             added := [line "@@ -1 +91 @@" (by decide), line "" (by decide)]
             context := some (line "+7,2 @@ f()" (by decide))
             oldUnended := true, newUnended := false, inRange := by decide },
           { oldStart := 3, oldCount := none, start := 4, removed := []
             added := [line "function f() {}\r" (by decide)], context := none
             oldUnended := false, newUnended := true, inRange := by decide }]
        preamble_plain := by decide }
    ∃ s, AddedLines.ofDiff? d.text = some s ∧ s.contains 22 = true ∧ s.contains 90 = false ∧
      s.lines.Pairwise (· < ·) := by
  intro line d
  obtain ⟨s, hs, hmem, hsorted⟩ := ofDiff?_text d
  refine ⟨s, hs, (hmem 22).2 ?_, ?_, hsorted⟩
  · exact ⟨_, List.mem_cons_self, by decide, by decide⟩
  · rw [← Bool.not_eq_true, hmem]
    simp [d]

end ZeroContextDiff

end DocScope
