import DocScope.Proofs.Docs.Rendering

/-!
# Sections of clean entries

A rendered section is read again by the scan for headings. If no description of its entries looks
like a heading or a fence, and no line of an example looks like a fence, then the scan takes the
section for what it is.

* `Contained`: lines that lead from outside of all fences to outside of all fences, without a
  heading on the way. Such lines can follow each other (`Contained.append`), and lines without
  a fence can be put between fences (`Contained.fenced`).
* `exposed_contained`: the lines of clean entries that a scan can notice are contained.
* `render_eq`: only line ends are trimmed at the end of a section.
* `render_selfContained`: so a section has its marker, contained lines and one newline at the end.
-/

namespace DocScope

/-- An entry whose texts are lines, none of which looks like a fence or a heading. -/
structure DocEntry.Clean (e : DocEntry) : Prop extends DocEntry.OneLine e where
  not_heading : ¬ ['#', '#', ' '] <+: e.description.toList
  not_fence : Section.isFence e.description.toList = false
  examples : ∀ x ∈ e.examples, ∀ l ∈ Text.splitInclusive x.toList, Section.isFence l = false

namespace Section

/-! ## Contained lines -/

structure Contained (stop : List Char → Bool) (ls : List (List Char)) : Prop where
  closed : fencedAfter false ls = false
  unbroken : (cutBefore stop false ls).2 = []

section
variable {stop : List Char → Bool}

theorem Contained.nil : Contained stop [] := ⟨rfl, rfl⟩

theorem Contained.append {xs ys : List (List Char)} (hx : Contained stop xs)
    (hy : Contained stop ys) : Contained stop (xs ++ ys) := by
  constructor
  · rw [fencedAfter_append, hx.closed, hy.closed]
  · rw [cutBefore_append, if_pos hx.unbroken, hx.closed]
    exact hy.unbroken

theorem Contained.flatMap {α : Type} {xs : List α} {f : α → List (List Char)}
    (h : ∀ x ∈ xs, Contained stop (f x)) : Contained stop (xs.flatMap f) := by
  induction xs with
  | nil => exact .nil
  | cons x xs ih =>
    rw [List.flatMap_cons]
    exact (h x List.mem_cons_self).append (ih fun y hy => h y (List.mem_cons_of_mem _ hy))

theorem Contained.plain {l : List Char} (hf : isFence l = false) (hs : stop l = false) :
    Contained stop [l] := by
  constructor
  · simp [fencedAfter, hf]
  · simp [cutBefore, hf, hs]

/-- Inside of a fence, a scan goes on to the next fence. -/
theorem cutBefore_true {ls : List (List Char)} (h : ∀ l ∈ ls, isFence l = false) :
    (cutBefore stop true ls).2 = [] ∧ fencedAfter true ls = true := by
  induction ls with
  | nil => exact ⟨rfl, rfl⟩
  | cons l ls ih =>
    obtain ⟨hcut, hfenced⟩ := ih fun x hx => h x (List.mem_cons_of_mem _ hx)
    have hl := h l List.mem_cons_self
    rw [cutBefore_true_cons hl, fencedAfter, hl]
    exact ⟨hcut, hfenced⟩

theorem Contained.fenced {first last : List Char} {ls : List (List Char)}
    (hfirst : isFence first = true) (hls : ∀ l ∈ ls, isFence l = false)
    (hlast : isFence last = true) : Contained stop (first :: (ls ++ [last])) := by
  obtain ⟨hcut, hfenced⟩ : (cutBefore stop true ls).2 = [] ∧ fencedAfter true ls = true :=
    cutBefore_true hls
  constructor
  · rw [fencedAfter, hfirst, Bool.false_xor, fencedAfter_append, hfenced]
    simp [fencedAfter, hlast]
  · rw [cutBefore, if_pos hfirst, Bool.not_false, cutBefore_append, if_pos hcut, hfenced]
    simp [cutBefore, hlast]

/-- Only what is noticed matters. -/
theorem Contained.congr {xs ys : List (List Char)} (h : notices stop xs = notices stop ys)
    (hy : Contained stop ys) : Contained stop xs := by
  constructor
  · rw [fencedAfter_congr h, hy.closed]
  · rw [cutBefore_snd_eq_nil, h, ← cutBefore_snd_eq_nil]
    exact hy.unbroken

end

/-! ## The lines of clean entries -/

theorem isFence_of_mem_line {x l : List Char} (h : ∀ l ∈ Text.splitInclusive x, isFence l = false)
    (hl : l ∈ Text.splitInclusive (x ++ ['\n'])) : isFence l = false := by
  induction x using Text.lineInduction with
  | last t ht =>
    rw [Text.splitInclusive_line ht] at hl
    obtain rfl := List.mem_singleton.1 hl
    rw [isFence_append_newline]
    by_cases hne : t = []
    · rw [hne]
      rfl
    · exact h t (by simp [Text.splitInclusive_last ht hne])
  | line t rest ht ih =>
    rw [Text.splitInclusive_line ht] at h
    rw [List.append_assoc, List.cons_append, Text.splitInclusive_line ht] at hl
    rcases List.mem_cons.1 hl with rfl | hl
    · exact h _ List.mem_cons_self
    · exact ih (fun k hk => h k (List.mem_cons_of_mem _ hk)) hl

section
variable {stop : List Char → Bool} (hstop : HeadingTest stop)

include hstop in
theorem exposedLines_contained {e : DocEntry} (he : e.Clean) : Contained stop (exposedLines e) := by
  refine (Contained.plain he.not_fence (hstop.eq_false he.not_heading)).append
    (Contained.flatMap fun x hx => ?_)
  exact Contained.fenced (by decide) (fun l hl => isFence_of_mem_line (he.examples x hx) hl)
    (by decide)

include hstop in
theorem exposed_contained {es : List DocEntry} (hes : ∀ e ∈ es, e.Clean) :
    Contained stop (exposed es) :=
  Contained.flatMap fun e he => exposedLines_contained hstop (hes e he)

end

/-! ## The end of a section -/

theorem renderEntry_ends (e : DocEntry) :
    ∃ t, (renderEntry e).toList = t ++ ['-', '\n', '\n'] := by
  have hrule : "*\n\n---\n\n".toList = "*\n\n--".toList ++ ['-', '\n', '\n'] := by decide
  unfold renderEntry
  rw [String.toList_append, hrule, ← List.append_assoc]
  exact ⟨_, rfl⟩

/-- **The text of a section**: nothing but an empty line at its end is trimmed away. -/
theorem render_eq (heading : String) (es : List DocEntry) :
    ∃ t c pad, (render heading es).toList = markerOf heading.toList ++ '\n' :: (t ++ [c, '\n']) ∧
      Text.isBlank c = false ∧ (content es).toList = t ++ c :: '\n' :: pad ∧
      (pad = [] ∨ pad = ['\n']) := by
  rcases List.eq_nil_or_concat es with rfl | ⟨es, e, rfl⟩
  · refine ⟨"\nNo functions with JSDoc documentation found".toList, '.', [], ?_, by decide,
      by decide, .inl rfl⟩
    simp [render, markerOf]
  · rw [List.concat_eq_append]
    obtain ⟨t, ht⟩ := renderEntry_ends e
    have hcontent : (content (es ++ [e])).toList =
        ('\n' :: (String.join (es.map renderEntry)).toList ++ t) ++ ['-', '\n', '\n'] := by
      simp [content, ht]
    have hrender : (render heading (es ++ [e])).toList =
        Text.trimEnd (markerOf heading.toList ++ '\n' :: (content (es ++ [e])).toList) ++
          ['\n'] := by
      simp [render, content, markerOf]
    refine ⟨_, '-', ['\n'], ?_, by decide, hcontent, .inr rfl⟩
    rw [hrender, hcontent]
    generalize '\n' :: (String.join (es.map renderEntry)).toList ++ t = u
    have hend : markerOf heading.toList ++ '\n' :: (u ++ ['-', '\n', '\n']) =
        (((markerOf heading.toList ++ '\n' :: u) ++ ['-']) ++ ['\n']) ++ ['\n'] := by simp
    rw [hend, Text.trimEnd_append_newline, Text.trimEnd_append_newline,
      Text.trimEnd_concat (by decide)]
    simp

/-- A line that starts as a heading of level two does. -/
def hasMarks (l : List Char) : Bool := ['#', '#', ' '].isPrefixOf l

theorem HeadingTest.hasMarks : HeadingTest hasMarks := by
  refine ⟨fun l => ?_, fun l h => List.isPrefixOf_iff_prefix.1 h⟩
  rw [Bool.eq_iff_iff]
  simp only [Section.hasMarks, List.isPrefixOf_iff_prefix]
  refine ⟨fun h => ?_, fun h => h.trans (List.prefix_append _ _)⟩
  rcases List.prefix_concat_iff.1 h with h | h
  · have hlast := congrArg List.getLast? h
    simp at hlast
  · exact h

/-- Below its marker, a section shows what its entries expose. -/
theorem splitInclusive_render {heading : String} (hline : OneLine heading.toList)
    {es : List DocEntry} (hes : ∀ e ∈ es, e.OneLine) :
    ∃ rest, Text.splitInclusive (render heading es).toList =
        (markerOf heading.toList ++ ['\n']) :: rest ∧
      notices hasMarks rest = notices hasMarks (exposed es) := by
  obtain ⟨t, c, pad, hrender, -, hcontent, hpad⟩ := render_eq heading es
  have hmarker : OneLine (markerOf heading.toList) :=
    OneLine.append (by decide : '\n' ∉ ['#', '#', ' ']) hline
  refine ⟨Text.splitInclusive (t ++ [c, '\n']), ?_, ?_⟩
  · rw [hrender, Text.splitInclusive_line hmarker]
  · have hcut := Text.splitInclusive_append_newline (t ++ [c]) pad
    have hblank : notices hasMarks (Text.splitInclusive pad) = [] := by
      rcases hpad with rfl | rfl <;> rfl
    rw [← (content_shows .hasMarks hes).notices_eq, hcontent]
    simp only [List.append_assoc, List.cons_append, List.nil_append] at hcut
    rw [hcut, notices_append, hblank, List.append_nil]

/-- **Sections of clean entries are self-contained**: the marker comes first, one newline last, and
a scan of the lines below the marker ends outside of all fences and meets no heading there. -/
theorem render_selfContained {heading : String} (hline : OneLine heading.toList)
    {es : List DocEntry} (hes : ∀ e ∈ es, e.Clean) :
    let lines := Text.splitInclusive (render heading es).toList
    lines.head? = some (markerOf heading.toList ++ ['\n']) ∧
      (∃ t c, (render heading es).toList = t ++ [c, '\n'] ∧ c ≠ '\n') ∧
      fencedAfter false lines = false ∧ ¬ Outside hasMarks lines.tail := by
  intro lines
  obtain ⟨rest, hlines, hnot⟩ := splitInclusive_render hline fun e he => (hes e he).toOneLine
  have hrest : Contained hasMarks rest := (exposed_contained .hasMarks hes).congr hnot
  have hfence : isFence (markerOf heading.toList ++ ['\n']) = false :=
    isFence_cons (by decide) (by decide) _
  refine ⟨?_, ?_, ?_, ?_⟩
  · exact congrArg List.head? hlines
  · obtain ⟨t, c, pad, hrender, hc, -⟩ := render_eq heading es
    refine ⟨markerOf heading.toList ++ '\n' :: t, c, by simp [hrender], ?_⟩
    rintro rfl
    cases hc
  · show fencedAfter false (Text.splitInclusive _) = false
    rw [hlines, fencedAfter, hfence]
    exact hrest.closed
  · show ¬ Outside hasMarks (Text.splitInclusive _).tail
    rw [hlines, outside_iff, not_not]
    exact hrest.unbroken

/-- An entry with all parts, number signs in front of its description, and a heading in its
example. -/
theorem render_selfContained_all_parts :
    let e : DocEntry := ⟨"add", "##Adds.", [⟨"a", "number", "## first"⟩], some ⟨"number", "sum"⟩,
      ["add(1)\n## no heading\n"], "a.ts"⟩
    e.Clean ∧ fencedAfter false (Text.splitInclusive (render "API" [e]).toList) = false ∧
      ¬ Outside hasMarks (Text.splitInclusive (render "API" [e]).toList).tail := by
  intro e
  have he : e.Clean := by
    refine ⟨⟨by decide, by decide, ?_, ?_, by decide⟩, by decide, by decide, by decide +kernel⟩
    · exact List.forall_mem_singleton.2 ⟨by decide, by decide, by decide⟩
    · exact fun r hr => Option.some.inj hr ▸ ⟨by decide, by decide⟩
  obtain ⟨-, -, hclosed, hheading⟩ :=
    render_selfContained (by decide : OneLine "API".toList) (List.forall_mem_singleton.2 he)
  exact ⟨he, hclosed, hheading⟩

end Section

end DocScope
