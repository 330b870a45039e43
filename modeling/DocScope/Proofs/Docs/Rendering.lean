import DocScope.Proofs.Docs.Extraction
import DocScope.Proofs.Docs.Slot

/-!
# The lines of a rendered section

A rendered section is made of whole lines. Of an entry, only the description and the examples can
be taken for fences or headings (`exposed`): they stand on lines of their own, as they are in the
comment. All other lines start with something that is neither.

* `HeadingTest`: what is asked of a scan for headings. The lines that a section adds to its entries
  pass none.
* `Shows`: a text of whole lines, and what a scan for headings notices of it; texts that are put
  together show what their parts show (`Shows.append`).
* `renderEntry_shows`, `render_lines`: a section starts with its marker, and below that it shows
  what the exposed lines of its entries show.
* `breaksOff`, `endsOpen`: the two ways in which a section is not taken for what it is when it is
  read again.
-/

namespace DocScope.Section

/-! ## Exposed lines -/

/-- The lines of an example, between fences. -/
def fencedExample (x : String) : List (List Char) :=
  "\x60\x60\x60typescript".toList ::
    (Text.splitInclusive (x.toList ++ ['\n']) ++ ["\x60\x60\x60".toList])

/-- The lines of an entry that can be taken for fences or headings. -/
def exposedLines (e : DocEntry) : List (List Char) :=
  e.description.toList :: e.examples.flatMap fencedExample

def exposed (es : List DocEntry) : List (List Char) := es.flatMap exposedLines

/-- Whether a heading outside of a fence stands in the entries: the section ends there when it is
read again. -/
def breaksOff (es : List DocEntry) : Bool := (cutBefore isHeading false (exposed es)).2 ≠ []

/-- Whether a fence is left open by the entries: the section goes on after its end when it is read
again. -/
def endsOpen (es : List DocEntry) : Bool := fencedAfter false (exposed es)

/-! ## Tests for headings -/

/-- A test that does not look at the newline of a line, and holds only of lines that start as a
heading of level two does. -/
structure HeadingTest (stop : List Char → Bool) : Prop where
  newline : ∀ l, stop (l ++ ['\n']) = stop l
  marks : ∀ l, stop l = true → ['#', '#', ' '] <+: l

theorem HeadingTest.isHeading : HeadingTest isHeading := by
  refine ⟨isHeading_append_newline, fun l h => ?_⟩
  have htrim : ['#', '#', ' '] <+: Text.trimEnd l := List.isPrefixOf_iff_prefix.1 h
  exact htrim.trans (Text.trimEnd_prefix l)

section
variable {stop : List Char → Bool} (hstop : HeadingTest stop)
include hstop

theorem HeadingTest.eq_false {l : List Char} (h : ¬ ['#', '#', ' '] <+: l) : stop l = false := by
  by_contra hl
  exact h (hstop.marks l (by simpa using hl))

theorem HeadingTest.notice?_append_newline (l : List Char) :
    notice? stop (l ++ ['\n']) = notice? stop l := by
  simp [notice?, hstop.newline]

theorem HeadingTest.notices_nil : notices stop [[]] = [] := by
  have h : stop [] = false := hstop.eq_false (by simp)
  simp [notices, notice?_blank (l := []) (by simp) h]

/-- A line that starts with a character other than a backtick, a number sign and a blank. -/
theorem HeadingTest.notices_plain {l : String} {c : Char} (hl : l.toList.head? = some c)
    (hc : (Text.isBlank c || c == '\x60' || c == '#') = false) :
    notices stop [l.toList] = [] := by
  simp only [Bool.or_eq_false_iff, beq_eq_false_iff_ne] at hc
  obtain ⟨cs, hcs⟩ := List.head?_eq_some_iff.1 hl
  have hmark : stop (c :: cs) = false := by
    refine hstop.eq_false fun h => hc.2 ?_
    exact (List.cons_prefix_cons.1 h).1.symm
  simp [notices, notice?, hcs, isFence_cons hc.1.1 hc.1.2, hmark]

theorem HeadingTest.notices_title (name : String) :
    notices stop [("### " ++ name).toList] = [] := by
  have hl : ("### " ++ name).toList = '#' :: '#' :: '#' :: ' ' :: name.toList := by
    rw [String.toList_append]
    rfl
  have hmark : stop ('#' :: '#' :: '#' :: ' ' :: name.toList) = false := by
    refine hstop.eq_false fun h => ?_
    simp [List.cons_prefix_cons] at h
  simp [notices, notice?, hl, isFence_cons (c := '#') (by decide) (by decide), hmark]

end

/-! ## Texts of whole lines -/

/-- A text of whole lines of which a scan notices the same as of the given lines. -/
structure Shows (stop : List Char → Bool) (s : String) (ls : List (List Char)) : Prop where
  whole : s = "" ∨ ∃ t, s = t ++ "\n"
  notices_eq : notices stop (Text.splitInclusive s.toList) = notices stop ls

section
variable {stop : List Char → Bool}

theorem Shows.empty : Shows stop "" [] := ⟨.inl rfl, rfl⟩

theorem Shows.append {s t : String} {ls ms : List (List Char)} (hs : Shows stop s ls)
    (ht : Shows stop t ms) : Shows stop (s ++ t) (ls ++ ms) := by
  constructor
  · rcases ht.whole with rfl | ⟨u, rfl⟩
    · rw [String.append_empty]
      exact hs.whole
    · exact .inr ⟨s ++ u, (String.append_assoc ..).symm⟩
  · rw [notices_append, ← hs.notices_eq, ← ht.notices_eq, ← notices_append]
    rcases hs.whole with rfl | ⟨u, rfl⟩
    · rfl
    · rw [String.toList_append, String.toList_append, List.append_assoc]
      exact congrArg _ (Text.splitInclusive_append_newline u.toList t.toList)

/-- Lines that are not noticed can be left out. -/
theorem Shows.drop {s : String} {ls ms : List (List Char)} (h : Shows stop s (ls ++ ms))
    (hms : notices stop ms = []) : Shows stop s ls :=
  ⟨h.whole, by rw [h.notices_eq, notices_append, hms, List.append_nil]⟩

theorem Shows.unnoticed {s : String} {l : List Char} (h : Shows stop s [l])
    (hl : notices stop [l] = []) : Shows stop s [] := Shows.drop h hl

theorem Shows.join {α : Type} {xs : List α} {f : α → String} {g : α → List (List Char)}
    (h : ∀ x ∈ xs, Shows stop (f x) (g x)) :
    Shows stop (String.join (xs.map f)) (xs.flatMap g) := by
  induction xs with
  | nil => exact Shows.empty
  | cons x xs ih =>
    rw [List.map_cons, String.join_cons, List.flatMap_cons]
    exact (h x List.mem_cons_self).append (ih fun y hy => h y (List.mem_cons_of_mem _ hy))

variable (hstop : HeadingTest stop)
include hstop

theorem Shows.line {l : String} (hl : OneLine l.toList) : Shows stop (l ++ "\n") [l.toList] := by
  refine ⟨.inr ⟨l, rfl⟩, ?_⟩
  rw [String.toList_append]
  refine (congrArg _ (Text.splitInclusive_line hl [])).trans ?_
  simp only [notices, List.filterMap_cons, hstop.notice?_append_newline, Text.splitInclusive]

theorem Shows.blank : Shows stop "\n" [] :=
  (Shows.line hstop (l := "") OneLine.nil).unnoticed hstop.notices_nil

theorem Shows.paragraph {l : String} (hl : OneLine l.toList) :
    Shows stop (l ++ "\n\n") [l.toList] := by
  have h := (Shows.line hstop hl).append (Shows.blank hstop)
  rwa [String.append_assoc] at h

/-! ## Entries -/

theorem renderParam_shows {p : ParamDoc} (hp : p.OneLine) : Shows stop (renderParam p) [] := by
  unfold renderParam
  refine Shows.unnoticed (Shows.line hstop ?_)
    (hstop.notices_plain (c := '-') (by simp) (by decide))
  simp only [String.toList_append]
  refine OneLine.append (OneLine.append (OneLine.append (OneLine.append ?_ hp.name) ?_) ?_) ?_
  · simp [OneLine]
  · simp [OneLine]
  · split <;> simp [OneLine, show '\n' ∉ p.type.toList from hp.type]
  · split <;> simp [OneLine, show '\n' ∉ p.description.toList from hp.description]

theorem renderParams_shows {ps : List ParamDoc} (hps : ∀ p ∈ ps, p.OneLine) :
    Shows stop (renderParams ps) [] := by
  unfold renderParams
  split
  · exact Shows.empty
  · have hhead : Shows stop "**Parameters:**\n\n" [] :=
      (Shows.paragraph hstop (l := "**Parameters:**") (by simp [OneLine])).unnoticed
        (hstop.notices_plain (c := '*') (by simp) (by decide))
    have hps := Shows.join (f := renderParam) (g := fun _ => []) fun p hp =>
      renderParam_shows hstop (hps p hp)
    rw [List.flatMap_eq_nil_iff.2 fun _ _ => rfl] at hps
    exact (hhead.append hps).append (Shows.blank hstop)

theorem renderReturns_shows {r : Option ReturnDoc} (hr : ∀ d ∈ r, d.OneLine) :
    Shows stop (renderReturns r) [] := by
  unfold renderReturns
  split
  · exact Shows.empty
  · next r =>
    have hr := hr r rfl
    refine Shows.unnoticed (Shows.paragraph hstop ?_)
      (hstop.notices_plain (c := '*') (by simp) (by decide))
    simp only [String.toList_append]
    refine OneLine.append (OneLine.append ?_ ?_) ?_
    · simp [OneLine]
    · split <;> simp [OneLine, show '\n' ∉ r.type.toList from hr.type]
    · split
      · simp [OneLine]
      · split <;> simp [OneLine, show '\n' ∉ r.description.toList from hr.description]

/-- An example shows its own lines, and the fences around them. -/
theorem renderExample_shows (x : String) :
    Shows stop ("\x60\x60\x60typescript\n" ++ x ++ "\n\x60\x60\x60\n\n") (fencedExample x) := by
  have hopen := Shows.line hstop (l := "\x60\x60\x60typescript") (by simp [OneLine])
  have hbody : Shows stop (x ++ "\n") (Text.splitInclusive (x.toList ++ ['\n'])) :=
    ⟨.inr ⟨x, rfl⟩, by rw [String.toList_append]; rfl⟩
  have hclose := Shows.paragraph hstop (l := "\x60\x60\x60") (by simp [OneLine])
  have hline : "\x60\x60\x60typescript\n" = "\x60\x60\x60typescript" ++ "\n" := rfl
  have hend : "\n\x60\x60\x60\n\n" = "\n" ++ ("\x60\x60\x60" ++ "\n\n") := rfl
  have h := hopen.append (hbody.append hclose)
  simp only [String.append_assoc] at h
  rw [hline, hend, String.append_assoc, String.append_assoc]
  exact h

theorem renderExamples_shows (xs : List String) :
    Shows stop (renderExamples xs) (xs.flatMap fencedExample) := by
  unfold renderExamples
  split
  · next h =>
    rw [List.isEmpty_iff.1 h]
    exact Shows.empty
  · have hhead : Shows stop "**Examples:**\n\n" [] :=
      (Shows.paragraph hstop (l := "**Examples:**") (by simp [OneLine])).unnoticed
        (hstop.notices_plain (c := '*') (by simp) (by decide))
    exact hhead.append (Shows.join fun x _ => renderExample_shows hstop x)

theorem renderDescription_shows {d : String} (hd : OneLine d.toList) :
    Shows stop (if d = "" then "" else d ++ "\n\n") [d.toList] := by
  split
  · next h =>
    subst h
    exact ⟨.inl rfl, hstop.notices_nil.symm⟩
  · exact Shows.paragraph hstop hd

theorem renderFile_shows {file : String} (hf : OneLine file.toList) :
    Shows stop ("*File: " ++ file ++ "*\n\n---\n\n") [] := by
  have hfile := Shows.unnoticed (Shows.paragraph hstop (l := "*File: " ++ file ++ "*") (by
    simp only [String.toList_append]
    exact OneLine.append (OneLine.append (by simp [OneLine]) hf) (by simp [OneLine])))
    (hstop.notices_plain (c := '*') (by simp) (by decide))
  have hrule := Shows.unnoticed (Shows.paragraph hstop (l := "---") (by simp [OneLine]))
    (hstop.notices_plain (c := '-') (by simp) (by decide))
  have hend : "*\n\n---\n\n" = "*" ++ ("\n\n" ++ ("---" ++ "\n\n")) := rfl
  have h := hfile.append hrule
  simp only [String.append_assoc] at h
  rw [hend, String.append_assoc]
  exact h

theorem renderEntry_shows {e : DocEntry} (he : e.OneLine) :
    Shows stop (renderEntry e) (exposedLines e) := by
  have htitle := Shows.unnoticed (Shows.paragraph hstop (l := "### " ++ e.name) (by
    rw [String.toList_append]
    exact OneLine.append (by simp [OneLine]) he.name)) (hstop.notices_title e.name)
  have h := htitle.append ((renderDescription_shows hstop he.description).append
    ((renderParams_shows hstop he.params).append ((renderReturns_shows hstop he.returns).append
      ((renderExamples_shows hstop e.examples).append (renderFile_shows hstop he.file)))))
  simp only [String.append_assoc, List.nil_append, List.append_nil] at h
  unfold renderEntry
  simp only [String.append_assoc]
  exact h

end

/-! ## Sections -/

/-- What stands below the marker of a section, before it is trimmed. -/
def content (es : List DocEntry) : String :=
  "\n" ++ if es.isEmpty then "No functions with JSDoc documentation found.\n"
    else String.join (es.map renderEntry)

theorem content_shows {stop : List Char → Bool} (hstop : HeadingTest stop) {es : List DocEntry}
    (hes : ∀ e ∈ es, e.OneLine) : Shows stop (content es) (exposed es) := by
  refine (Shows.blank hstop).append ?_
  split
  · next h =>
    rw [List.isEmpty_iff.1 h]
    exact (Shows.line hstop (l := "No functions with JSDoc documentation found.")
      (by simp [OneLine])).unnoticed (hstop.notices_plain (c := 'N') (by simp) (by decide))
  · exact Shows.join fun e he => renderEntry_shows hstop (hes e he)

theorem trimEnd_render (heading : String) (es : List DocEntry) :
    Text.trimEnd (render heading es).toList =
      Text.trimEnd (markerOf heading.toList ++ '\n' :: (content es).toList) := by
  unfold render content
  dsimp only
  split
  · simp [markerOf]
  · rw [String.toList_ofList, Text.trimEnd_append_newline, Text.trimEnd_trimEnd]
    simp [markerOf]

/-- A heading that can be found again: a marker with blanks at its end is not. -/
structure ProperHeading (heading : String) : Prop where
  line : OneLine heading.toList
  ne : heading ≠ ""
  trimmed : Text.trimEnd heading.toList = heading.toList

theorem ProperHeading.marker_line {heading : String} (h : ProperHeading heading) :
    OneLine (markerOf heading.toList) :=
  OneLine.append (by decide : '\n' ∉ ['#', '#', ' ']) h.line

theorem ProperHeading.trimEnd_marker {heading : String} (h : ProperHeading heading) :
    Text.trimEnd (markerOf heading.toList) = markerOf heading.toList := by
  have hne : heading.toList ≠ [] := fun he => h.ne (String.toList_eq_nil_iff.1 he)
  rw [markerOf, Text.trimEnd_append (by rwa [h.trimmed]), h.trimmed]

theorem ProperHeading.isMarker {heading : String} (h : ProperHeading heading) :
    isMarker (markerOf heading.toList) (markerOf heading.toList ++ ['\n']) = true := by
  simp [Section.isMarker, h.trimEnd_marker]

/-- **The lines of a section**: its marker, and below it nothing to notice but the exposed lines. -/
theorem render_lines {heading : String} (h : ProperHeading heading) {es : List DocEntry}
    (hes : ∀ e ∈ es, e.OneLine) :
    ∃ first rest, Text.splitInclusive (Text.trimEnd (render heading es).toList ++ ['\n']) =
        first :: rest ∧ isMarker (markerOf heading.toList) first = true ∧
      notices isHeading rest = notices isHeading (exposed es) := by
  obtain ⟨first, rest, hrest, hm, hnot⟩ := splitInclusive_trimEnd
    (Text.splitInclusive_line h.marker_line (content es).toList) h.isMarker
  refine ⟨first, rest, ?_, hm, hnot.trans (content_shows .isHeading hes).notices_eq⟩
  rw [trimEnd_render, hrest]

end DocScope.Section
