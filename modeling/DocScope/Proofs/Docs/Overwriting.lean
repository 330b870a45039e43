import DocScope.Proofs.Docs.Slot

/-!
# A section that is overwritten

A section that is put into a README can be overwritten by another one without a trace, provided that
the README is read again as it was meant (`IsSection`): the section starts with its marker, closes
its fences and has no other heading outside of a fence.

* `IsSection.lines`: what a replacement sees of the section it has put there. It is trimmed first,
  and nothing that matters is trimmed away.
* `Slot.overwritten`: so the place of the section is the same before and after.
* `replace_overwrites`: the section that is written last is the only one that counts.
-/

namespace DocScope.Section

/-- A text that is read as one section with the given heading. The first line is no fence, so the
lines below it start outside of all fences. -/
structure IsSection (heading s : String) : Prop where
  marker : (Text.splitInclusive s.toList).head?.any (isMarker (markerOf heading.toList)) = true
  closed : fencedAfter false (Text.splitInclusive s.toList) = false
  single : ¬ Outside isHeading (Text.splitInclusive s.toList).tail

theorem IsSection.lines {heading s : String} (h : IsSection heading s) :
    ∃ first rest, Text.splitInclusive (Text.trimEnd s.toList ++ ['\n']) = first :: rest ∧
      isMarker (markerOf heading.toList) first = true ∧
      (cutBefore isHeading false rest).2 = [] ∧ fencedAfter false rest = false := by
  obtain ⟨hmarker, hclosed, hsingle⟩ := h
  cases hs : Text.splitInclusive s.toList with
  | nil =>
    rw [hs] at hmarker
    cases hmarker
  | cons first rest =>
    rw [hs] at hmarker hclosed hsingle
    obtain ⟨first', rest', hs', hm', hnot⟩ := splitInclusive_trimEnd hs hmarker
    refine ⟨first', rest', hs', hm', ?_, ?_⟩
    · rw [cutBefore_snd_eq_nil, hnot, ← cutBefore_snd_eq_nil]
      simpa [outside_iff] using hsingle
    · rw [fencedAfter_congr hnot]
      rwa [fencedAfter, isFence_of_isMarker hmarker] at hclosed

theorem Slot.overwritten {heading s : String} {r : List Char} {before after : List (List Char)}
    (S : Slot heading.toList r before after) (hs : IsSection heading s) :
    Slot heading.toList (replaceText r heading.toList s.toList) before after := by
  obtain ⟨first, rest, hlines, hm, hsingle, hclosed⟩ := hs.lines
  have S' := S.replaced hlines hm
  rwa [S.nextAfter_of_closed hsingle hclosed] at S'

/-- A README that has the section, or whose fences are closed, has a place for it. -/
theorem exists_slot {heading r : List Char}
    (h : Outside (isMarker (markerOf heading)) (Text.splitInclusive r) ∨
      (Text.splitInclusive r).countP isFence % 2 = 0) :
    ∃ before after, Slot heading r before after := by
  cases hp : parts? (markerOf heading) (Text.splitInclusive r) with
  | some p => exact ⟨p.before, p.after, Slot.of_parts hp⟩
  | none =>
    have hr := h.resolve_left (parts?_eq_none.1 hp)
    exact ⟨leading r, [], Slot.of_missing hp hr⟩

/-- **The last section that is written wins.** The README has the section, or its fences are
closed. -/
theorem replace_overwrites {heading s₁ : String} (hs : IsSection heading s₁) {r : String}
    (hr : Outside (isMarker (markerOf heading.toList)) (Text.splitInclusive r.toList) ∨
      (Text.splitInclusive r.toList).countP isFence % 2 = 0) (s₂ : String) :
    replace (replace r heading s₁) heading s₂ = replace r heading s₂ := by
  obtain ⟨before, after, S⟩ := exists_slot hr
  have S' := S.overwritten hs
  unfold replace
  rw [String.toList_ofList, S'.replace, S.replace]

/-- A section with a heading between fences, in a README that has the section inside of a fence too,
and text after it. -/
theorem replace_overwrites_fenced :
    let r := "\x60\x60\x60\n## API\n\x60\x60\x60\n## API\n\nold\n\n## License\n"
    let s := "## API \n\x60\x60\x60\n## Usage\n\x60\x60\x60\n\n"
    IsSection "API" s ∧ Outside (isMarker (markerOf "API".toList)) (Text.splitInclusive r.toList) ∧
      replace (replace r "API" s) "API" "## API\n\nnew\n" =
        "\x60\x60\x60\n## API\n\x60\x60\x60\n## API\n\nnew\n\n## License\n" := by
  intro r s
  have hs : IsSection "API" s :=
    ⟨by decide +kernel, by decide +kernel, fun h => outside_iff.1 h (by decide +kernel)⟩
  have hr : Outside (isMarker (markerOf "API".toList)) (Text.splitInclusive r.toList) :=
    outside_iff.2 (by decide +kernel)
  exact ⟨hs, hr, (replace_overwrites hs (.inl hr) _).trans (by decide +kernel)⟩

end DocScope.Section
