import DocScope.Proofs.Docs.Slot

/-!
# What a replacement keeps

A README with the section is divided into the lines before the section, its old lines and the lines
after it (`Divides`): the section starts at the first marker outside of all fences, and ends before
the first heading outside of all fences that follows.

* `cutBefore_eq_iff`: a scan cuts before the first line of its kind that is outside of all fences,
  and nowhere else.
* `parts?_eq_some_iff`: so the parts that two scans find are the only division.
* `replace_keeps`: a replacement keeps what is before and after, character by character. Without
  the section, it changes nothing but the blanks at the end.
-/

namespace DocScope.Section

/-- Where a scan cuts. -/
theorem cutBefore_eq_iff {stop : List Char → Bool} {ls before rest : List (List Char)} :
    cutBefore stop false ls = (before, rest) ↔
      ls = before ++ rest ∧ ¬ Outside stop before ∧
        ∀ l ∈ rest.head?, fencedAfter false before = false ∧ isFence l = false ∧ stop l = true := by
  rw [outside_iff, not_not]
  constructor
  · intro h
    have hls := cutBefore_fst_append_snd stop false ls
    rw [h] at hls
    cases rest with
    | nil =>
      rw [List.append_nil] at hls
      subst hls
      exact ⟨(List.append_nil _).symm, congrArg Prod.snd h, by simp⟩
    | cons l rest =>
      obtain ⟨hfence, hstop, hclosed, hbefore⟩ := cutBefore_stopped (congrArg Prod.snd h)
      rw [h] at hclosed hbefore
      refine ⟨hls.symm, hbefore, fun x hx => ?_⟩
      obtain rfl := Option.some.inj hx
      exact ⟨hclosed, hfence, hstop⟩
  · rintro ⟨rfl, hbefore, hrest⟩
    rw [cutBefore_append, if_pos hbefore]
    cases rest with
    | nil => simp [cutBefore]
    | cons l rest =>
      obtain ⟨hclosed, hfence, hstop⟩ := hrest l rfl
      rw [hclosed, cutBefore_of_stop hfence hstop, List.append_nil]

/-! ## The division of a README -/

/-- The lines of a README around its section. -/
structure Divides (marker : List Char) (lines before old after : List (List Char)) : Prop where
  lines_eq : lines = before ++ (old ++ after)
  before_closed : fencedAfter false before = false
  /-- The section starts at the first marker. -/
  starts : old.head?.any (isMarker marker) = true
  first : ¬ Outside (isMarker marker) before
  /-- It has no heading below its marker, and ends where one follows. -/
  unbroken : ¬ Outside isHeading old.tail
  ends : ∀ l ∈ after.head?, fencedAfter false old = false ∧ isFence l = false ∧ isHeading l = true

theorem fencedAfter_marker {heading l : List Char} (h : isMarker (markerOf heading) l = true)
    (ls : List (List Char)) : fencedAfter false (l :: ls) = fencedAfter false ls := by
  rw [fencedAfter, isFence_of_isMarker h]
  rfl

/-- **The parts of a README are its only division.** -/
theorem parts?_eq_some_iff {heading : List Char} {ls : List (List Char)} {p : Parts} :
    parts? (markerOf heading) ls = some p ↔
      Divides (markerOf heading) ls p.before p.old p.after := by
  obtain ⟨before, old, after⟩ := p
  constructor
  · intro h
    obtain ⟨l, rest, hcut, rfl, rfl⟩ := parts?_eq_some h
    obtain ⟨-, hfirst, hl⟩ := cutBefore_eq_iff.1 hcut
    obtain ⟨hclosed, -, hmarker⟩ := hl l rfl
    obtain ⟨-, hunbroken, hends⟩ :=
      cutBefore_eq_iff.1 (Prod.eta (cutBefore isHeading false rest)).symm
    refine ⟨(parts?_append h).symm, hclosed, by simpa using hmarker, hfirst, hunbroken,
      fun x hx => ?_⟩
    rw [fencedAfter_marker hmarker]
    exact hends x hx
  · rintro ⟨hls, hclosed, hstarts, hfirst, hunbroken, hends⟩
    cases old with
    | nil => cases hstarts
    | cons l rest =>
      have hmarker : isMarker (markerOf heading) l = true := hstarts
      have hcut : cutBefore (isMarker (markerOf heading)) false ls =
          (before, l :: (rest ++ after)) := by
        refine cutBefore_eq_iff.2 ⟨hls, hfirst, fun x hx => ?_⟩
        obtain rfl := Option.some.inj hx
        exact ⟨hclosed, isFence_of_isMarker hmarker, hmarker⟩
      have hnext : cutBefore isHeading false (rest ++ after) = (rest, after) := by
        refine cutBefore_eq_iff.2 ⟨rfl, hunbroken, fun x hx => ?_⟩
        rw [← fencedAfter_marker hmarker]
        exact hends x hx
      simp only [parts?, hcut, hnext]

/-- A README has the section just if it can be divided around it. -/
theorem exists_divides_iff {heading : List Char} {ls : List (List Char)} :
    (∃ before old after, Divides (markerOf heading) ls before old after) ↔
      Outside (isMarker (markerOf heading)) ls := by
  constructor
  · rintro ⟨before, old, after, h⟩
    by_contra hnone
    have hsome := parts?_eq_some_iff (p := ⟨before, old, after⟩).2 h
    rw [parts?_eq_none.2 hnone] at hsome
    cases hsome
  · intro h
    cases hp : parts? (markerOf heading) ls with
    | none => exact absurd h (parts?_eq_none.1 hp)
    | some p => exact ⟨p.before, p.old, p.after, parts?_eq_some_iff.1 hp⟩

section

variable {heading r : List Char} {before old after : List (List Char)}

theorem Divides.slot (h : Divides (markerOf heading) (Text.splitInclusive r) before old after) :
    Slot heading r before after :=
  Slot.of_parts (p := ⟨before, old, after⟩) (parts?_eq_some_iff.2 h)

theorem Slot.flatten_after_eq_nil (S : Slot heading r before after) :
    after.flatten = [] ↔ after = [] := by
  constructor
  · intro h
    rw [← S.after_split, h]
    rfl
  · intro h
    rw [h]
    rfl

end

/-- **What a replacement keeps.** A README has the section just if it can be divided around it; then
the lines before and after stay as they are. A README without the section gets it at the end, and
loses nothing but blanks there. -/
theorem replace_keeps (readme heading newSection : String) :
    let lines := Text.splitInclusive readme.toList
    let marker := markerOf heading.toList
    let body := Text.trimEnd newSection.toList
    ((∃ before old after, Divides marker lines before old after) ↔
        Outside (isMarker marker) lines) ∧
      (∀ before old after, Divides marker lines before old after →
        readme.toList = before.flatten ++ old.flatten ++ after.flatten ∧
          (replace readme heading newSection).toList =
            before.flatten ++ body ++ ['\n'] ++
              if after.flatten = [] then [] else '\n' :: after.flatten) ∧
      (¬ Outside (isMarker marker) lines →
        (replace readme heading newSection).toList =
          if Text.trimEnd readme.toList = [] then body ++ ['\n']
          else Text.trimEnd readme.toList ++ ['\n', '\n'] ++ body ++ ['\n']) := by
  intro lines marker body
  refine ⟨exists_divides_iff, fun before old after h => ⟨?_, ?_⟩, fun hnone => ?_⟩
  · calc readme.toList = lines.flatten := (Text.flatten_splitInclusive _).symm
      _ = before.flatten ++ old.flatten ++ after.flatten := by simp [h.lines_eq]
  · rw [replace, String.toList_ofList, h.slot.replace, flatten_spaced]
    simp only [h.slot.flatten_after_eq_nil, List.append_assoc]
    rfl
  · rw [replace, String.toList_ofList, replaceText, parts?_eq_none.2 hnone]

/-- A section between two others, with the marker inside of a fence before it, a heading inside of a
fence in it, carriage returns, and no newline at the end. -/
theorem replace_keeps_fenced :
    let r := "\x60\x60\x60\n## API\n\x60\x60\x60\r\n## API \r\n\x60\x60\x60\n## x\n\x60\x60\x60\n## License"
    Divides (markerOf "API".toList) (Text.splitInclusive r.toList)
        ["\x60\x60\x60\n".toList, "## API\n".toList, "\x60\x60\x60\r\n".toList]
        ["## API \r\n".toList, "\x60\x60\x60\n".toList, "## x\n".toList, "\x60\x60\x60\n".toList]
        ["## License".toList] ∧
      (replace r "API" "## API\n\nnew\n\n").toList =
        "\x60\x60\x60\n## API\n\x60\x60\x60\r\n## API\n\nnew\n\n## License".toList := by
  intro r
  have h : Divides (markerOf "API".toList) (Text.splitInclusive r.toList)
      ["\x60\x60\x60\n".toList, "## API\n".toList, "\x60\x60\x60\r\n".toList]
      ["## API \r\n".toList, "\x60\x60\x60\n".toList, "## x\n".toList, "\x60\x60\x60\n".toList]
      ["## License".toList] := by
    refine ⟨by decide +kernel, by decide +kernel, by decide +kernel, fun ho => ?_, fun ho => ?_, ?_⟩
    · exact outside_iff.1 ho (by decide +kernel)
    · exact outside_iff.1 ho (by decide +kernel)
    · decide +kernel
  exact ⟨h, ((replace_keeps r "API" "## API\n\nnew\n\n").2.1 _ _ _ h).2.trans (by decide +kernel)⟩

end DocScope.Section
