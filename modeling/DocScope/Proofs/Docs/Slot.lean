import DocScope.Proofs.Docs.Scan

/-!
# The place of a section

A README has a place for the section with a given heading: the lines before it and the lines after
it (`Slot`). Where the README has the section, they are the parts around it (`Slot.of_parts`);
where it has none and its fences are closed, the section goes to the end (`Slot.of_missing`).

A section is trimmed when it is put there; its first line and what is noticed below it stay
(`splitInclusive_trimEnd`). It is read again by the next replacement. `Slot.replaced` says what that
finds: the same lines before, and after it what a scan of the section's lines and the old rest cuts
off (`nextAfter`). There are three cases:

* a heading in the section, outside of a fence, cuts the section off itself
  (`nextAfter_of_heading`), and the old rest stays;
* without such a heading and with closed fences, the rest is the old one (`nextAfter_of_closed`);
* without such a heading and with an open fence, the first lines of the old rest count as fenced
  and are taken for the section (`nextAfter_of_open`).
-/

namespace DocScope.Section

/-- The rest of a README with a blank line before it. -/
def spaced (after : List (List Char)) : List (List Char) :=
  if after = [] then [] else ['\n'] :: after

/-- The place of a section (module doc). -/
structure Slot (heading r : List Char) (before after : List (List Char)) : Prop where
  replace : ∀ s, replaceText r heading s =
    before.flatten ++ ((Text.trimEnd s ++ ['\n']) ++ (spaced after).flatten)
  before_split : ∀ rest,
    Text.splitInclusive (before.flatten ++ rest) = before ++ Text.splitInclusive rest
  unmarked : (cutBefore (isMarker (markerOf heading)) false before).2 = []
  closed : fencedAfter false before = false
  after_split : Text.splitInclusive after.flatten = after
  after_head : ∀ l ∈ after.head?, isFence l = false ∧ isHeading l = true

/-! ## A README with the section -/

theorem flatten_spaced (after : List (List Char)) :
    (spaced after).flatten = if after = [] then [] else '\n' :: after.flatten := by
  unfold spaced
  split <;> simp

theorem suffix_spaced (after : List (List Char)) : after <:+ spaced after := by
  unfold spaced
  split
  · next h => exact h ▸ List.suffix_rfl
  · exact List.suffix_cons _ _

/-- Where a README is cut for its section. -/
theorem parts?_eq_some {marker : List Char} {ls : List (List Char)} {p : Parts}
    (h : parts? marker ls = some p) :
    ∃ l rest, cutBefore (isMarker marker) false ls = (p.before, l :: rest) ∧
      p.old = l :: (cutBefore isHeading false rest).1 ∧
      p.after = (cutBefore isHeading false rest).2 := by
  unfold parts? at h
  generalize cutBefore (isMarker marker) false ls = c at h ⊢
  obtain ⟨before, found⟩ := c
  cases found with
  | nil => cases h
  | cons l rest =>
    obtain rfl := Option.some.inj h
    exact ⟨l, rest, rfl, rfl, rfl⟩

theorem parts?_eq_none {marker : List Char} {ls : List (List Char)} :
    parts? marker ls = none ↔ ¬ Outside (isMarker marker) ls := by
  rw [outside_iff, not_not]
  unfold parts?
  generalize cutBefore (isMarker marker) false ls = c
  obtain ⟨before, found⟩ := c
  cases found <;> simp

theorem parts?_append {marker : List Char} {ls : List (List Char)} {p : Parts}
    (h : parts? marker ls = some p) : p.before ++ (p.old ++ p.after) = ls := by
  obtain ⟨l, rest, hc, hold, hafter⟩ := parts?_eq_some h
  rw [hold, hafter, List.cons_append, cutBefore_fst_append_snd,
    ← cutBefore_fst_append_snd (isMarker marker) false ls, hc]

theorem Slot.of_parts {heading r : List Char} {p : Parts}
    (h : parts? (markerOf heading) (Text.splitInclusive r) = some p) :
    Slot heading r p.before p.after := by
  obtain ⟨l, rest, hc, hold, hafter⟩ := parts?_eq_some h
  have hr := (parts?_append h).symm
  obtain ⟨-, -, hclosed, hunmarked⟩ := cutBefore_stopped (congrArg Prod.snd hc)
  rw [hc] at hclosed hunmarked
  refine ⟨fun s => ?_, Text.splitInclusive_before hr (by simp [hold]), hunmarked, hclosed,
    Text.splitInclusive_after (a := p.before ++ p.old) (by rw [List.append_assoc, hr]),
    fun x hx => ?_⟩
  · rw [replaceText, h, flatten_spaced]
    simp only [List.append_assoc]
  · rw [hafter] at hx
    obtain ⟨xs, hxs⟩ := List.head?_eq_some_iff.1 hx
    obtain ⟨hfence, hheading, -⟩ := cutBefore_stopped hxs
    exact ⟨hfence, hheading⟩

/-! ## A README without the section -/

/-- A test of lines that does not look at blanks at their end and fails on blank lines. -/
structure LineTest (stop : List Char → Bool) : Prop where
  trimEnd : ∀ l, stop (Text.trimEnd l) = stop l
  blank : stop [] = false

theorem LineTest.isMarker (heading : List Char) : LineTest (isMarker (markerOf heading)) :=
  ⟨fun l => by simp [Section.isMarker], rfl⟩

theorem LineTest.isHeading : LineTest isHeading := ⟨fun l => by simp [Section.isHeading], rfl⟩

theorem LineTest.notice?_congr {stop : List Char → Bool} (h : LineTest stop) {l l' : List Char}
    (hl : Text.trimEnd l = Text.trimEnd l') : notice? stop l = notice? stop l' := by
  unfold notice? isFence
  rw [hl, ← h.trimEnd l, hl, h.trimEnd]

theorem LineTest.notice?_nil {stop : List Char → Bool} (h : LineTest stop) :
    notice? stop [] = none := notice?_blank (by simp) h.blank

/-- A text and its trimmed form are noticed alike. -/
theorem LineTest.notices_trimEnd {stop : List Char → Bool} (h : LineTest stop) (r : List Char) :
    notices stop (Text.splitInclusive (Text.trimEnd r ++ ['\n'])) =
      notices stop (Text.splitInclusive r) := by
  have hend : ∀ t, notice? stop (t ++ ['\n']) = notice? stop t := fun t =>
    h.notice?_congr (by simp)
  have hnl : notice? stop ['\n'] = none := (hend []).trans h.notice?_nil
  induction r using Text.lineInduction with
  | last t ht =>
    have ht' : '\n' ∉ Text.trimEnd t := fun hm => ht ((Text.trimEnd_prefix t).subset hm)
    rw [Text.splitInclusive_line ht']
    by_cases hne : t = []
    · subst hne
      simp [notices, Text.splitInclusive, hnl]
    · rw [Text.splitInclusive_last ht hne]
      simp only [notices, Text.splitInclusive, List.filterMap_cons, hend,
        h.notice?_congr (Text.trimEnd_trimEnd t)]
  | line t rest ht ih =>
    rw [Text.splitInclusive_line ht]
    by_cases hb : Text.trimEnd rest = []
    · -- what follows the line is blank: it is trimmed away, and was not noticed
      have hblank : ∀ c ∈ '\n' :: rest, Text.isBlank c = true := by
        rintro c (_ | ⟨_, hc⟩)
        · rfl
        · exact Text.trimEnd_eq_nil.1 hb c hc
      have ht' : '\n' ∉ Text.trimEnd t := fun hm => ht ((Text.trimEnd_prefix t).subset hm)
      rw [hb] at ih
      rw [Text.trimEnd_append_blank hblank, Text.splitInclusive_line ht']
      simp only [notices, List.filterMap_cons, hend,
        h.notice?_congr (Text.trimEnd_trimEnd t)] at ih ⊢
      rw [← ih]
      simp [Text.splitInclusive, hnl]
    · have hb' : Text.trimEnd ('\n' :: rest) = '\n' :: Text.trimEnd rest :=
        Text.trimEnd_append hb ['\n']
      rw [Text.trimEnd_append (by simp [hb']), hb', List.append_assoc, List.cons_append,
        Text.splitInclusive_line ht]
      simp only [notices, List.filterMap_cons] at ih ⊢
      rw [ih]

/-- A first line that is not blank is still the first line of the trimmed text. -/
theorem splitInclusive_trimEnd_cons {s first : List Char} {rest : List (List Char)}
    (h : Text.splitInclusive s = first :: rest) (hne : Text.trimEnd first ≠ []) :
    ∃ first' rest', Text.splitInclusive (Text.trimEnd s ++ ['\n']) = first' :: rest' ∧
      Text.trimEnd first' = Text.trimEnd first := by
  have htrim : ∀ t, '\n' ∉ t → '\n' ∉ Text.trimEnd t := fun t ht hm =>
    ht ((Text.trimEnd_prefix t).subset hm)
  induction s using Text.lineInduction with
  | last t ht =>
    have htne : t ≠ [] := by
      rintro rfl
      cases h
    rw [Text.splitInclusive_last ht htne] at h
    obtain ⟨rfl, -⟩ := List.cons_eq_cons.1 h
    exact ⟨_, _, Text.splitInclusive_line (htrim _ ht) [], by simp⟩
  | line t rest ht _ =>
    rw [Text.splitInclusive_line ht] at h
    obtain ⟨rfl, -⟩ := List.cons_eq_cons.1 h
    by_cases hb : Text.trimEnd rest = []
    · have hblank : ∀ c ∈ '\n' :: rest, Text.isBlank c = true :=
        List.forall_mem_cons.2 ⟨rfl, Text.trimEnd_eq_nil.1 hb⟩
      rw [Text.trimEnd_append_blank hblank]
      exact ⟨_, _, Text.splitInclusive_line (htrim _ ht) [], by simp⟩
    · have hb' : Text.trimEnd ('\n' :: rest) = '\n' :: Text.trimEnd rest :=
        Text.trimEnd_append hb ['\n']
      rw [Text.trimEnd_append (by simp [hb']), hb', List.append_assoc, List.cons_append]
      exact ⟨_, _, Text.splitInclusive_line ht _, rfl⟩

/-- The first line of a text and what is noticed below it stay when the text is trimmed. -/
theorem splitInclusive_trimEnd {s first : List Char} {rest : List (List Char)}
    (h : Text.splitInclusive s = first :: rest) {heading : List Char}
    (hm : isMarker (markerOf heading) first = true) :
    ∃ first' rest', Text.splitInclusive (Text.trimEnd s ++ ['\n']) = first' :: rest' ∧
      isMarker (markerOf heading) first' = true ∧
      notices isHeading rest' = notices isHeading rest := by
  have hne : Text.trimEnd first ≠ [] := by
    intro he
    simp [isMarker, he, markerOf] at hm
  obtain ⟨first', rest', hs, ht⟩ := splitInclusive_trimEnd_cons h hne
  have hm' : isMarker (markerOf heading) first' = true := by rwa [isMarker, ht]
  have hstop : ∀ l, isMarker (markerOf heading) l = true → notice? isHeading l = some .stop := by
    intro l hl
    simp [notice?, isFence_of_isMarker hl, isHeading_of_isMarker hl]
  have hnot := LineTest.isHeading.notices_trimEnd s
  rw [hs, h, notices, notices, List.filterMap_cons_some (hstop first' hm'),
    List.filterMap_cons_some (hstop first hm)] at hnot
  exact ⟨first', rest', hs, hm', (List.cons_eq_cons.1 hnot).2⟩

/-- The lines before a section that is put at the end. -/
def leading (r : List Char) : List (List Char) :=
  if Text.trimEnd r = [] then [] else Text.splitInclusive (Text.trimEnd r ++ ['\n', '\n'])

theorem Slot.of_missing {heading r : List Char}
    (h : parts? (markerOf heading) (Text.splitInclusive r) = none)
    (hr : (Text.splitInclusive r).countP isFence % 2 = 0) : Slot heading r (leading r) [] := by
  have hnone : (cutBefore (isMarker (markerOf heading)) false (Text.splitInclusive r)).2 = [] := by
    simpa [outside_iff] using parts?_eq_none.1 h
  have hopen : fencedAfter false (Text.splitInclusive r) = false := by
    rw [fencedAfter_eq, hr]; rfl
  by_cases hhead : Text.trimEnd r = []
  · have hlead : leading r = [] := by rw [leading, if_pos hhead]
    rw [hlead]
    refine ⟨fun s => ?_, fun rest => rfl, rfl, rfl, rfl, by simp⟩
    rw [replaceText, h]
    simp [hhead, spaced]
  · -- the lines before the section show the same notices as the README
    have hlead : leading r = Text.splitInclusive (Text.trimEnd r ++ ['\n']) ++ [['\n']] := by
      rw [leading, if_neg hhead, Text.splitInclusive_append_newline]
      rfl
    have hnot : notices (isMarker (markerOf heading)) (leading r) =
        notices (isMarker (markerOf heading)) (Text.splitInclusive r) := by
      rw [hlead, notices_append, (LineTest.isMarker heading).notices_trimEnd]
      have hb : notice? (isMarker (markerOf heading)) ['\n'] =
          notice? (isMarker (markerOf heading)) [] :=
        (LineTest.isMarker heading).notice?_congr rfl
      simp [notices, hb, (LineTest.isMarker heading).notice?_nil]
    refine ⟨fun s => ?_, fun rest => ?_, ?_, ?_, rfl, by simp⟩
    · rw [replaceText, h]
      simp [leading, hhead, spaced, Text.flatten_splitInclusive]
    · rw [leading, if_neg hhead, Text.flatten_splitInclusive]
      have hn := Text.splitInclusive_append_newline (Text.trimEnd r ++ ['\n']) rest
      simpa using hn
    · rw [cutBefore_snd_eq_nil, hnot, ← cutBefore_snd_eq_nil]
      exact hnone
    · rw [fencedAfter_congr hnot]
      exact hopen

/-! ## A section that is read again -/

/-- What a replacement finds after a section that an earlier one has put there: `rest` are the lines
of the section below its marker. -/
def nextAfter (rest after : List (List Char)) : List (List Char) :=
  (cutBefore isHeading false (rest ++ spaced after)).2

section

variable {heading r : List Char} {before after : List (List Char)}

theorem Slot.splitInclusive_spaced (S : Slot heading r before after) :
    Text.splitInclusive (spaced after).flatten = spaced after := by
  unfold spaced
  split
  · rfl
  · rw [List.flatten_cons, List.singleton_append, Text.splitInclusive, if_pos rfl, S.after_split]

theorem Slot.splitInclusive_replaceText (S : Slot heading r before after) (s : List Char) :
    Text.splitInclusive (replaceText r heading s) =
      before ++ (Text.splitInclusive (Text.trimEnd s ++ ['\n']) ++ spaced after) := by
  rw [S.replace, S.before_split, List.append_assoc, List.singleton_append,
    Text.splitInclusive_append_newline, S.splitInclusive_spaced]

/-- **A section that was put in its place is found there.** -/
theorem Slot.replaced (S : Slot heading r before after) {s m : List Char}
    {rest : List (List Char)} (hs : Text.splitInclusive (Text.trimEnd s ++ ['\n']) = m :: rest)
    (hm : isMarker (markerOf heading) m = true) :
    Slot heading (replaceText r heading s) before (nextAfter rest after) := by
  have hcut : cutBefore (isMarker (markerOf heading)) false
      (Text.splitInclusive (replaceText r heading s)) = (before, m :: (rest ++ spaced after)) := by
    rw [S.splitInclusive_replaceText, hs, cutBefore_append, if_pos S.unmarked, S.closed,
      List.cons_append, cutBefore_of_stop (isFence_of_isMarker hm) hm, List.append_nil]
  refine Slot.of_parts (p := ⟨before, m :: (cutBefore isHeading false (rest ++ spaced after)).1,
    nextAfter rest after⟩) ?_
  rw [parts?, hcut]
  rfl

theorem Slot.spaced_injective {r' : List Char} {before' after' : List (List Char)}
    (S : Slot heading r before after) (S' : Slot heading r' before' after')
    (h : (spaced after).flatten = (spaced after').flatten) : after = after' := by
  have hs : spaced after = spaced after' := by
    rw [← S.splitInclusive_spaced, h, S'.splitInclusive_spaced]
  unfold spaced at hs
  split at hs <;> split at hs <;> simp_all

/-! ### Where the section ends then -/

theorem nextAfter_of_heading {rest : List (List Char)}
    (h : (cutBefore isHeading false rest).2 ≠ []) (after : List (List Char)) :
    nextAfter rest after = (cutBefore isHeading false rest).2 ++ spaced after := by
  rw [nextAfter, cutBefore_append, if_neg h]

theorem nextAfter_of_no_heading {rest : List (List Char)}
    (h : (cutBefore isHeading false rest).2 = []) (after : List (List Char)) :
    nextAfter rest after = (cutBefore isHeading (fencedAfter false rest) (spaced after)).2 := by
  rw [nextAfter, cutBefore_append, if_pos h]

theorem cutBefore_spaced (fenced : Bool) (after : List (List Char)) :
    (cutBefore isHeading fenced (spaced after)).2 = (cutBefore isHeading fenced after).2 := by
  unfold spaced
  split
  · next h => rw [h]
  · rw [cutBefore_cons, show halts isHeading fenced ['\n'] = false by cases fenced <;> rfl,
      show isFence ['\n'] = false from rfl, Bool.xor_false]
    rfl

theorem Slot.nextAfter_of_closed (S : Slot heading r before after) {rest : List (List Char)}
    (h : (cutBefore isHeading false rest).2 = []) (hc : fencedAfter false rest = false) :
    nextAfter rest after = after := by
  rw [nextAfter_of_no_heading h, hc, cutBefore_spaced]
  cases after with
  | nil => rfl
  | cons l ls =>
    obtain ⟨hf, hh⟩ := S.after_head l rfl
    rw [cutBefore_of_stop hf hh]

theorem Slot.nextAfter_of_open (S : Slot heading r before after) {rest : List (List Char)}
    (h : (cutBefore isHeading false rest).2 = []) (ho : fencedAfter false rest = true) :
    nextAfter rest after = (cutBefore isHeading true after.tail).2 := by
  rw [nextAfter_of_no_heading h, ho, cutBefore_spaced]
  cases after with
  | nil => rfl
  | cons l ls => exact cutBefore_true_cons (S.after_head l rfl).1 ls

theorem cutBefore_snd_length_le (stop : List Char → Bool) (fenced : Bool) (ls : List (List Char)) :
    (cutBefore stop fenced ls).2.length ≤ ls.length := by
  conv_rhs => rw [← cutBefore_fst_append_snd stop fenced ls, List.length_append]
  exact Nat.le_add_left _ _

/-- **The rest stays as it is** just if the section has no heading outside of a fence and closes
its fences, or has nothing to lose. -/
theorem Slot.nextAfter_eq_iff (S : Slot heading r before after) (rest : List (List Char)) :
    nextAfter rest after = after ↔
      (cutBefore isHeading false rest).2 = [] ∧ (fencedAfter false rest = false ∨ after = []) := by
  by_cases h : (cutBefore isHeading false rest).2 = []
  · rw [and_iff_right h]
    cases hf : fencedAfter false rest
    · simp [S.nextAfter_of_closed h hf]
    · rw [S.nextAfter_of_open h hf]
      cases after with
      | nil => simp [cutBefore]
      | cons l ls =>
        have hlt := cutBefore_snd_length_le isHeading true ls
        simp only [List.tail_cons, Bool.true_eq_false, reduceCtorEq, or_self, iff_false]
        intro he
        rw [he, List.length_cons] at hlt
        omega
  · rw [nextAfter_of_heading h]
    simp only [h, false_and, iff_false]
    intro he
    -- the rest would be longer than itself
    have hlen := congrArg List.length he
    have hpos := List.length_pos_iff.2 h
    have hs : after.length ≤ (spaced after).length := (suffix_spaced after).length_le
    rw [List.length_append] at hlen
    omega

/-- The rest is kept, perhaps behind a part of the section, where the section cuts itself off or
closes its fences. -/
theorem Slot.suffix_nextAfter (S : Slot heading r before after) {rest : List (List Char)}
    (h : (cutBefore isHeading false rest).2 ≠ [] ∨ fencedAfter false rest = false) :
    after <:+ nextAfter rest after := by
  by_cases hc : (cutBefore isHeading false rest).2 = []
  · have hafter := S.nextAfter_of_closed hc (h.resolve_left (not_not_intro hc))
    exact hafter.symm ▸ List.suffix_rfl
  · rw [nextAfter_of_heading hc]
    exact (suffix_spaced after).trans (List.suffix_append _ _)

end

end DocScope.Section
