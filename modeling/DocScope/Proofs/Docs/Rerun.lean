import DocScope.Proofs.Docs.Rendering

/-!
# A section that is written again

The section of a README is rendered from entries and put in its place. When the same is done again,
the first result is read to find the old section.

* `Slot.rendered`: what the second time finds after the section.
* `replace_replace_iff`: the second time changes nothing just if the exposed lines of the entries
  have no heading outside of a fence, and leave no fence open in front of text that follows.
-/

namespace DocScope.Section

section

variable {heading : String} {es : List DocEntry} {r : List Char} {before after : List (List Char)}

/-- What is found after a rendered section when it is read again. -/
theorem Slot.rendered (S : Slot heading.toList r before after) (hh : ProperHeading heading)
    (hes : ∀ e ∈ es, e.OneLine) :
    ∃ rest, Slot heading.toList (replaceText r heading.toList (render heading es).toList) before
        (nextAfter rest after) ∧
      ((cutBefore isHeading false rest).2 = [] ↔ breaksOff es = false) ∧
      fencedAfter false rest = endsOpen es := by
  obtain ⟨first, rest, hrest, hm, hnot⟩ := render_lines hh hes
  refine ⟨rest, S.replaced hrest hm, ?_, fencedAfter_congr hnot false⟩
  rw [cutBefore_snd_eq_nil, hnot, ← cutBefore_snd_eq_nil]
  simp [breaksOff]

/-- Writing a section twice is writing it once just if the first time leaves the rest alone. -/
theorem Slot.replaceText_twice_iff (S : Slot heading.toList r before after)
    (hh : ProperHeading heading) (hes : ∀ e ∈ es, e.OneLine) :
    replaceText (replaceText r heading.toList (render heading es).toList) heading.toList
        (render heading es).toList = replaceText r heading.toList (render heading es).toList ↔
      breaksOff es = false ∧ (endsOpen es = false ∨ after = []) := by
  obtain ⟨rest, S', hbreaks, hopen⟩ := S.rendered hh hes
  rw [← hbreaks, ← hopen, ← S.nextAfter_eq_iff, S'.replace, S.replace]
  constructor
  · intro h
    exact S'.spaced_injective S (List.append_cancel_left (List.append_cancel_left h))
  · intro h
    rw [h]

end

/-- **When writing a section again changes nothing.** The README has closed fences, and the entries
come from doc comments. -/
theorem replace_replace_iff {heading : String} (hline : OneLine heading.toList)
    (hne : heading ≠ "") (htrim : Text.trimEnd heading.toList = heading.toList)
    {es : List DocEntry} (hes : ∀ e ∈ es, e.FromComment) {r : String}
    (hr : (Text.splitInclusive r.toList).countP isFence % 2 = 0) :
    replace (replace r heading (render heading es)) heading (render heading es) =
        replace r heading (render heading es) ↔
      breaksOff es = false ∧ (endsOpen es = false ∨
        ∀ p ∈ parts? (markerOf heading.toList) (Text.splitInclusive r.toList), p.after = []) := by
  have hh : ProperHeading heading := ⟨hline, hne, htrim⟩
  have hes' : ∀ e ∈ es, e.OneLine := fun e he => (hes e he).oneLine
  unfold replace
  rw [String.toList_ofList, String.ofList_inj]
  cases hp : parts? (markerOf heading.toList) (Text.splitInclusive r.toList) with
  | none =>
    rw [(Slot.of_missing hp hr).replaceText_twice_iff hh hes']
    simp
  | some p =>
    rw [(Slot.of_parts hp).replaceText_twice_iff hh hes']
    simp

/-- A README with text after the section, and a comment with an example. -/
theorem replace_replace_of_example :
    let es := [DocComment.parse "add" "src/a.ts"
      ⟨.block, "*\n * Adds.\n * @example\n * add(1, 2)\n ", 1⟩]
    let r := "# pkg\n\n## API\n\nold\n\n## License\n\nMIT\n"
    replace (replace r "API" (render "API" es)) "API" (render "API" es) =
      replace r "API" (render "API" es) :=
  (replace_replace_iff (by decide) (by decide) (by decide +kernel)
    (List.forall_mem_singleton.2 (DocEntry.fromComment_parse (by decide) (by decide) _))
    (by decide +kernel)).2 ⟨by decide +kernel, .inl (by decide +kernel)⟩

/-- **Writing a section again is not always without effect**: where a comment is a heading of level
two, the section is taken to end there, and its rest is kept as text after it. -/
theorem replace_replace_ne :
    let es := [DocComment.parse "add" "src/a.ts" ⟨.block, "* ## Usage ", 1⟩]
    let r := "# pkg\n"
    (∀ e ∈ es, e.FromComment) ∧ (Text.splitInclusive r.toList).countP isFence % 2 = 0 ∧
      replace r "API" (render "API" es) =
        "# pkg\n\n## API\n\n### add\n\n## Usage\n\n*File: src/a.ts*\n\n---\n" ∧
      replace (replace r "API" (render "API" es)) "API" (render "API" es) ≠
        replace r "API" (render "API" es) := by
  refine ⟨List.forall_mem_singleton.2 ?_, by decide +kernel⟩
  exact DocEntry.fromComment_parse (by decide) (by decide) _

end DocScope.Section
