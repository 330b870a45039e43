import DocScope.Docs.Readme
import DocScope.Proofs.Docs.Rerun
import DocScope.Proofs.Files.Rewrite

/-!
# The text around the section of a README

Every run replaces the section that it finds in the README that the last run has left behind.

* `updateReadme_readText`, `foldlM_updateReadme`: a run on a README that can be read succeeds and
  leaves one that can be read, with the new section in it; so does a list of runs.
* `before_step`, `around_step`: a run keeps the text before the section, and, if its entries cut the
  section off or close their fences, the text after it.
* `updateReadme_keeps_iff`: so runs never lose text before the section, and they lose no text after
  it just if the entries of every run do so. What comes after a fence that is left open is lost in
  the second run (`exists_lost`).
-/

namespace DocScope

/-! ## A file system with a README -/

/-- A file system with a README in its root and nothing else. -/
def World.ofReadme (text : String) : World :=
  ⟨.directory [("README.md", .file (Text.Utf8.bytesOf text))], "/", Parser.silent⟩

theorem World.ofReadme_readText (text : String) :
    (ofReadme text).readText "README.md" = .ok text := by
  have hpieces : (Path.join "/".toList "README.md".toList).splitOn '/' =
      [[], "README.md".toList] := by
    decide +kernel
  have hresolve : (ofReadme text).resolve "README.md" = .ok ["README.md"] := by
    rw [resolve, if_neg (by decide), ofReadme]
    simp only [hpieces]
    rfl
  have hfind : (ofReadme text).root.find? ["README.md"] =
      some (.file (Text.Utf8.bytesOf text)) := rfl
  rw [readText, read, hresolve]
  simp only [hfind, Text.Utf8.text?_bytesOf]

namespace Docs

open Section

/-! ## Runs -/

theorem updateReadme_readText {w : World} {readme text : String}
    (h : w.readText readme = .ok text) (heading : String) (es : List DocEntry) :
    ∃ w', updateReadme w readme heading es = .ok w' ∧
      w'.readText readme = .ok (replace text heading (render heading es)) := by
  obtain ⟨w', hw, ht⟩ := World.write_readText h (replace text heading (render heading es))
  refine ⟨w', ?_, ht⟩
  rw [updateReadme, if_pos (World.isFile_of_readText h), h]
  exact hw

/-- The text of a README after some runs. -/
def rewritten (heading : String) (runs : List (List DocEntry)) (text : String) : String :=
  runs.foldl (fun t es => replace t heading (render heading es)) text

theorem foldlM_updateReadme {w : World} {readme text : String}
    (h : w.readText readme = .ok text) (heading : String) (runs : List (List DocEntry)) :
    ∃ w', runs.foldlM (updateReadme · readme heading ·) w = .ok w' ∧
      w'.readText readme = .ok (rewritten heading runs text) := by
  induction runs generalizing w text with
  | nil => exact ⟨w, rfl, h⟩
  | cons es runs ih =>
    obtain ⟨w₁, hw₁, ht₁⟩ := updateReadme_readText h heading es
    obtain ⟨w', hw', ht'⟩ := ih ht₁
    refine ⟨w', ?_, ht'⟩
    rw [List.foldlM_cons, hw₁]
    exact hw'

/-- What holds of every README with a section and of its text after any runs with the given lists
of entries; the runs have to succeed. -/
def AfterRuns (heading : String) (E : List DocEntry → Prop) (Q : Parts → String → Prop) : Prop :=
  ∀ (w : World) (readme text : String) (p : Parts), w.readText readme = .ok text →
    parts? (markerOf heading.toList) (Text.splitInclusive text.toList) = some p →
    ∀ runs : List (List DocEntry), (∀ es ∈ runs, E es) →
      ∃ w' t, runs.foldlM (updateReadme · readme heading ·) w = .ok w' ∧
        w'.readText readme = .ok t ∧ Q p t

theorem afterRuns_iff {heading : String} {E : List DocEntry → Prop} {Q : Parts → String → Prop} :
    AfterRuns heading E Q ↔ ∀ (text : String) (p : Parts),
      parts? (markerOf heading.toList) (Text.splitInclusive text.toList) = some p →
      ∀ runs : List (List DocEntry), (∀ es ∈ runs, E es) → Q p (rewritten heading runs text) := by
  constructor
  · intro h text p hp runs hruns
    have hread := World.ofReadme_readText text
    obtain ⟨w', t, hw', ht, hQ⟩ := h (.ofReadme text) "README.md" text p hread hp runs hruns
    obtain ⟨w₂, hw₂, ht₂⟩ := foldlM_updateReadme hread heading runs
    obtain rfl : w₂ = w' := Except.ok.inj (hw₂.symm.trans hw')
    obtain rfl : rewritten heading runs text = t := Except.ok.inj (ht₂.symm.trans ht)
    exact hQ
  · intro h w readme text p hread hp runs hruns
    obtain ⟨w', hw', ht'⟩ := foldlM_updateReadme hread heading runs
    exact ⟨w', _, hw', ht', h text p hp runs hruns⟩

/-! ## What a run keeps -/

/-- The README starts with the text before the section, and its section is found there. -/
structure Before (heading : String) (p : Parts) (t : String) : Prop where
  starts : p.before.flatten <+: t.toList
  slot : ∃ after, Slot heading.toList t.toList p.before after

/-- The README has the text around the section at its ends, and its section is found between. -/
structure Around (heading : String) (p : Parts) (t : String) : Prop where
  starts : p.before.flatten <+: t.toList
  ends : p.after.flatten <:+ t.toList
  slot : ∃ after, Slot heading.toList t.toList p.before after ∧ p.after <:+ after

section

variable {heading : String} {p : Parts} {t : String}

theorem around_of_parts
    (h : parts? (markerOf heading.toList) (Text.splitInclusive t.toList) = some p) :
    Around heading p t := by
  have ht : p.before.flatten ++ (p.old.flatten ++ p.after.flatten) = t.toList := by
    rw [← List.flatten_append, ← List.flatten_append, parts?_append h, Text.flatten_splitInclusive]
  refine ⟨⟨_, ht⟩, ⟨p.before.flatten ++ p.old.flatten, ?_⟩, p.after, Slot.of_parts h,
    List.suffix_rfl⟩
  rw [List.append_assoc, ht]

theorem Around.before (h : Around heading p t) : Before heading p t :=
  ⟨h.starts, h.slot.imp fun _ S => S.1⟩

/-- A README that has a section has a heading for it. -/
theorem heading_ne_of_parts
    (h : parts? (markerOf heading.toList) (Text.splitInclusive t.toList) = some p) :
    heading ≠ "" := by
  rintro rfl
  obtain ⟨l, rest, hc, -, -⟩ := parts?_eq_some h
  obtain ⟨-, hl, -, -⟩ := cutBefore_stopped (congrArg Prod.snd hc)
  -- the marker would end with a blank
  have ht : Text.trimEnd l = ['#', '#', ' '] := by simpa [isMarker, markerOf] using hl
  have htt := Text.trimEnd_trimEnd l
  rw [ht] at htt
  exact absurd htt (by decide)

variable (hh : ProperHeading heading) {es : List DocEntry} (hes : ∀ e ∈ es, e.OneLine)
include hh hes

theorem before_step (h : Before heading p t) :
    Before heading p (replace t heading (render heading es)) := by
  obtain ⟨after, S⟩ := h.slot
  obtain ⟨rest, S', -, -⟩ := S.rendered hh hes
  rw [replace]
  refine ⟨?_, nextAfter rest after, ?_⟩
  · rw [String.toList_ofList, S.replace]
    exact List.prefix_append _ _
  · rw [String.toList_ofList]
    exact S'

/-- One run keeps the text around the section, if the entries cut the section off or close their
fences. -/
theorem around_step (hkeep : breaksOff es = true ∨ endsOpen es = false) (h : Around heading p t) :
    Around heading p (replace t heading (render heading es)) := by
  obtain ⟨after, S, hafter⟩ := h.slot
  obtain ⟨rest, S', hbreaks, hopen⟩ := S.rendered hh hes
  have hkeep' : (cutBefore isHeading false rest).2 ≠ [] ∨ fencedAfter false rest = false := by
    rw [hopen, Ne, hbreaks, Bool.not_eq_false]
    exact hkeep
  rw [replace]
  refine ⟨(before_step hh hes h.before).starts, ?_, nextAfter rest after, ?_,
    hafter.trans (S.suffix_nextAfter hkeep')⟩
  · rw [String.toList_ofList, S.replace]
    have hs : p.after <:+ spaced after := hafter.trans (suffix_spaced after)
    obtain ⟨u, hu⟩ := hs
    rw [← hu, List.flatten_append, ← List.append_assoc, ← List.append_assoc]
    exact List.suffix_append _ _
  · rw [String.toList_ofList]
    exact S'

end

/-! ## What an open fence loses -/

/-- A last section of a README, which is longer than `n`. -/
def lastSection (n : Nat) : List Char := markerOf ('z' :: List.replicate n 'z') ++ ['\n']

theorem lastSection_isHeading (n : Nat) :
    isFence (lastSection n) = false ∧ isHeading (lastSection n) = true := by
  have htrim : Text.trimEnd ('z' :: List.replicate n 'z') ≠ [] := by
    rw [Text.trimEnd_cons (by decide)]
    simp
  constructor
  · exact isFence_cons (by decide) (by decide) _
  · rw [lastSection, isHeading_append_newline, isHeading, markerOf, Text.trimEnd_append htrim]
    rfl

theorem length_lastSection (n : Nat) : (lastSection n).length = n + 5 := by
  simp [lastSection, markerOf]

section

variable {heading : String} (hh : ProperHeading heading)
include hh

theorem parts?_lastSection (n : Nat) :
    parts? (markerOf heading.toList)
        (Text.splitInclusive (markerOf heading.toList ++ '\n' :: lastSection n)) =
      some ⟨[], [markerOf heading.toList ++ ['\n']], [lastSection n]⟩ := by
  have hzline : '\n' ∉ markerOf ('z' :: List.replicate n 'z') := by
    simp [markerOf, List.mem_replicate]
  have hsplit : Text.splitInclusive (lastSection n) = [lastSection n] :=
    Text.splitInclusive_line hzline []
  obtain ⟨hfence, hheading⟩ := lastSection_isHeading n
  rw [Text.splitInclusive_line hh.marker_line, hsplit, parts?,
    cutBefore_of_stop (isFence_of_isMarker hh.isMarker) hh.isMarker]
  simp only [cutBefore_of_stop hfence hheading]

/-- Two runs with entries that leave a fence open lose the text after the section. -/
theorem exists_lost {es : List DocEntry} (hes : ∀ e ∈ es, e.OneLine)
    (hbreaks : breaksOff es = false) (hopen : endsOpen es = true) :
    ∃ (text : String) (p : Parts),
      parts? (markerOf heading.toList) (Text.splitInclusive text.toList) = some p ∧
      ¬ p.after.flatten <:+
        (replace (replace text heading (render heading es)) heading (render heading es)).toList := by
  let n := (render heading es).toList.length
  have hp := parts?_lastSection hh n
  have S := Slot.of_parts hp
  obtain ⟨rest, S', hrest, hrestOpen⟩ := S.rendered hh hes
  -- the first run leaves its fence open, so the second takes all lines for the section
  have hnext : nextAfter rest [lastSection n] = [] :=
    S.nextAfter_of_open (hrest.2 hbreaks) (hrestOpen.trans hopen)
  refine ⟨.ofList (markerOf heading.toList ++ '\n' :: lastSection n), _,
    by rw [String.toList_ofList]; exact hp, fun hsuffix => ?_⟩
  have hlen := hsuffix.length_le
  rw [replace, replace, String.toList_ofList, String.toList_ofList, String.toList_ofList,
    S'.replace, hnext] at hlen
  have hbody := (Text.trimEnd_prefix (render heading es).toList).length_le
  simp only [spaced, List.flatten_cons, List.flatten_nil, List.append_nil, List.nil_append,
    List.length_append, List.length_singleton, length_lastSection, if_pos] at hlen
  omega

end

/-! ## All runs -/

/-- **When runs keep the text around the section.** The text before it is always kept. The text
after it is kept, too, just if the entries of every run have a heading outside of a fence or leave
no fence open. -/
theorem updateReadme_keeps_iff {heading : String} (hline : OneLine heading.toList)
    (htrim : Text.trimEnd heading.toList = heading.toList) {E : List DocEntry → Prop}
    (hE : ∀ es, E es → ∀ e ∈ es, e.FromComment) :
    AfterRuns heading E (fun p t => p.before.flatten <+: t.toList) ∧
      (AfterRuns heading E (fun p t =>
          p.before.flatten <+: t.toList ∧ p.after.flatten <:+ t.toList) ↔
        heading = "" ∨ ∀ es, E es → breaksOff es = true ∨ endsOpen es = false) := by
  have hE' : ∀ es, E es → ∀ e ∈ es, e.OneLine := fun es he e hm => (hE es he e hm).oneLine
  rw [afterRuns_iff, afterRuns_iff]
  refine ⟨fun text p hp runs hruns => ?_, fun h => ?_, fun h text p hp runs hruns => ?_⟩
  · have hh : ProperHeading heading := ⟨hline, heading_ne_of_parts hp, htrim⟩
    have hkept : Before heading p (rewritten heading runs text) :=
      List.foldlRecOn runs _ (around_of_parts hp).before fun t ht es he =>
        before_step hh (hE' es (hruns es he)) ht
    exact hkept.starts
  · by_cases hne : heading = ""
    · exact .inl hne
    refine .inr fun es he => ?_
    by_contra hlost
    rw [not_or, Bool.not_eq_true, Bool.not_eq_false] at hlost
    obtain ⟨text, p, hp, hsuffix⟩ := exists_lost ⟨hline, hne, htrim⟩ (hE' es he) hlost.1 hlost.2
    exact hsuffix (h text p hp [es, es] (by simp [he])).2
  · have hh : ProperHeading heading := ⟨hline, heading_ne_of_parts hp, htrim⟩
    have hkept : Around heading p (rewritten heading runs text) :=
      List.foldlRecOn runs _ (around_of_parts hp) fun t ht es he =>
        around_step hh (hE' es (hruns es he)) (h.resolve_left hh.ne es (hruns es he)) ht
    exact ⟨hkept.starts, hkept.ends⟩

/-- All runs for a function with a comment and an example keep the text around the section. -/
theorem updateReadme_keeps_of_example :
    AfterRuns "API"
      (· = [DocComment.parse "add" "src/a.ts"
        ⟨.block, "*\n * Adds.\n * @example\n * add(1, 2)\n ", 1⟩])
      (fun p t => p.before.flatten <+: t.toList ∧ p.after.flatten <:+ t.toList) := by
  refine (updateReadme_keeps_iff (by decide) (by decide +kernel) fun es he => ?_).2.2
    (.inr fun es he => ?_)
  · rw [he, List.forall_mem_singleton]
    exact DocEntry.fromComment_parse (by decide) (by decide) _
  · rw [he]
    exact .inr (by decide +kernel)

/-- **Runs can lose the text after the section**: a description that is made of a fenced block is
put on one line, which opens a fence. -/
theorem updateReadme_loses :
    let es := [DocComment.parse "add" "src/a.ts"
      ⟨.block, "*\n * \x60\x60\x60ts\n * add(1, 2)\n * \x60\x60\x60\n ", 1⟩]
    let text := "# pkg\n\n## API\n\nold\n\n## License\n\nMIT\n"
    (∀ e ∈ es, e.FromComment) ∧
      (parts? (markerOf "API".toList) (Text.splitInclusive text.toList)).map (·.after.flatten) =
        some "## License\n\nMIT\n".toList ∧
      ∃ w' t, [es, es].foldlM (updateReadme · "README.md" "API" ·) (.ofReadme text) = .ok w' ∧
        w'.readText "README.md" = .ok t ∧
        t = "# pkg\n\n## API\n\n### add\n\n\x60\x60\x60ts add(1, 2) \x60\x60\x60\n\n" ++
          "*File: src/a.ts*\n\n---\n" ∧
        ¬ "## License\n\nMIT\n".toList <:+ t.toList := by
  intro es text
  have hlost : rewritten "API" [es, es] text =
      "# pkg\n\n## API\n\n### add\n\n\x60\x60\x60ts add(1, 2) \x60\x60\x60\n\n" ++
        "*File: src/a.ts*\n\n---\n" := by
    decide +kernel
  obtain ⟨w', hw', ht'⟩ := foldlM_updateReadme (World.ofReadme_readText text) "API" [es, es]
  rw [hlost] at ht'
  refine ⟨List.forall_mem_singleton.2 ?_, by decide +kernel, w', _, hw', ht', rfl,
    by decide +kernel⟩
  exact DocEntry.fromComment_parse (by decide) (by decide) _

end Docs

end DocScope
