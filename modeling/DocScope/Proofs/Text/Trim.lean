import DocScope.Text.Blank
import Mathlib.Data.List.DropRight

/-!
# Blanks at the end of a text

`dropEnd` is the library's `List.rdropWhile` by definition. A text is its trimmed form followed by
blanks (`exists_trimEnd_append`), blanks at the end do not matter (`trimEnd_append_blank`), and what
stands before a character that is not blank is kept (`trimEnd_append`, `trimEnd_cons`). The texts that
trimming leaves as they are have no blank at either end (`trim_eq_self_iff`).

A text that loses one character at both ends is what is left, between two runs of this character
(`exists_replicate_between`).
-/

namespace DocScope.Text

theorem exists_dropEnd_append {α : Type} (p : α → Bool) (s : List α) :
    ∃ t, (∀ c ∈ t, p c) ∧ s = dropEnd p s ++ t :=
  ⟨s.rtakeWhile p, fun _ hc => List.mem_rtakeWhile_imp hc, List.rdropWhile_append_rtakeWhile.symm⟩

theorem dropEnd_prefix {α : Type} (p : α → Bool) (s : List α) : dropEnd p s <+: s :=
  List.rdropWhile_prefix p s

theorem dropEnd_append_of_all {α : Type} {p : α → Bool} {t : List α} (h : ∀ c ∈ t, p c)
    (s : List α) : dropEnd p (s ++ t) = dropEnd p s := by
  unfold dropEnd
  rw [List.reverse_append, List.dropWhile_append_of_pos (by simpa using h)]

theorem dropEnd_append {α : Type} {p : α → Bool} {t : List α} (h : dropEnd p t ≠ [])
    (s : List α) : dropEnd p (s ++ t) = s ++ dropEnd p t := by
  have h' : (t.reverse.dropWhile p).isEmpty = false := by
    simpa [dropEnd, List.isEmpty_iff, -List.dropWhile_eq_nil_iff] using h
  unfold dropEnd
  rw [List.reverse_append, List.dropWhile_append, h']
  simp

theorem dropEnd_map {α β : Type} (f : α → β) (p : β → Bool) (s : List α) :
    dropEnd p (s.map f) = (dropEnd (p ∘ f) s).map f := by
  rw [dropEnd, ← List.map_reverse, List.dropWhile_map, ← List.map_reverse]
  rfl

theorem getLast?_dropEnd {α : Type} {p : α → Bool} {s : List α} {c : α}
    (h : (dropEnd p s).getLast? = some c) : p c = false := by
  obtain ⟨u, hu⟩ := List.getLast?_eq_some_iff.1 h
  have hself : dropEnd p (dropEnd p s) = dropEnd p s := List.rdropWhile_idempotent p s
  by_contra hc
  rw [hu, dropEnd_append_of_all (by simpa using hc)] at hself
  have hlen := congrArg List.length hself
  have hstart := dropEnd_prefix p u
  have hle := hstart.length_le
  rw [List.length_append, List.length_singleton] at hlen
  omega

/-! ## Both ends -/

theorem head?_dropEnd_dropWhile {α : Type} {p : α → Bool} {s : List α} {c : α}
    (h : (dropEnd p (s.dropWhile p)).head? = some c) : p c = false := by
  obtain ⟨r, hr⟩ := List.head?_eq_some_iff.1 h
  obtain ⟨u, hu⟩ := dropEnd_prefix p (s.dropWhile p)
  have hnot := List.head?_dropWhile_not p s
  rw [← hu, hr] at hnot
  simpa using hnot

theorem exists_replicate_between (c : Char) (s : List Char) : ∃ a b,
    s = List.replicate a c ++ dropEnd (· == c) (s.dropWhile (· == c)) ++ List.replicate b c := by
  have hsame : ∀ t : List Char, (∀ d ∈ t, (d == c) = true) → t = List.replicate t.length c :=
    fun t ht => List.eq_replicate_of_mem fun d hd => by simpa using ht d hd
  obtain ⟨t, ht, hs⟩ := exists_dropEnd_append (· == c) (s.dropWhile (· == c))
  have hstart := hsame (s.takeWhile (· == c)) fun d hd => List.mem_takeWhile_imp (p := (· == c)) hd
  refine ⟨(s.takeWhile (· == c)).length, t.length, ?_⟩
  rw [← hstart, ← hsame t ht, List.append_assoc, ← hs, List.takeWhile_append_dropWhile]

theorem dropWhile_eq_of_head {c : Char} {s : List Char} (h : s.head? ≠ some c) :
    s.dropWhile (· == c) = s := by
  cases s with
  | nil => rfl
  | cons d s =>
    refine List.dropWhile_cons_of_neg ?_
    simpa using h

theorem dropEnd_eq_of_getLast {c : Char} {s : List Char} (h : s.getLast? ≠ some c) :
    dropEnd (· == c) s = s := by
  refine List.rdropWhile_eq_self_iff.2 fun hne => ?_
  simpa [List.getLast?_eq_some_getLast hne] using h

/-! ## Trimming -/

theorem exists_trimEnd_append (s : List Char) :
    ∃ t, (∀ c ∈ t, isBlank c) ∧ s = trimEnd s ++ t := exists_dropEnd_append isBlank s

theorem trimEnd_append_blank {t : List Char} (h : ∀ c ∈ t, isBlank c) (s : List Char) :
    trimEnd (s ++ t) = trimEnd s := dropEnd_append_of_all h s

/-- A line's newline is a blank at its end. -/
@[simp] theorem trimEnd_append_newline (s : List Char) : trimEnd (s ++ ['\n']) = trimEnd s :=
  trimEnd_append_blank (List.forall_mem_singleton.2 rfl) s

theorem trimEnd_append {t : List Char} (h : trimEnd t ≠ []) (s : List Char) :
    trimEnd (s ++ t) = s ++ trimEnd t := dropEnd_append h s

@[simp] theorem trimEnd_nil : trimEnd [] = [] := rfl

theorem trimEnd_eq_nil {s : List Char} : trimEnd s = [] ↔ ∀ c ∈ s, isBlank c :=
  List.rdropWhile_eq_nil_iff

@[simp] theorem trimEnd_trimEnd (s : List Char) : trimEnd (trimEnd s) = trimEnd s :=
  List.rdropWhile_idempotent isBlank s

theorem trimEnd_prefix (s : List Char) : trimEnd s <+: s := dropEnd_prefix isBlank s

theorem trimStart_sublist (s : List Char) : (trimStart s).Sublist s := List.dropWhile_sublist _

theorem trim_sublist (s : List Char) : (trim s).Sublist s := by
  have hstart : trim s <+: trimStart s := trimEnd_prefix _
  exact hstart.sublist.trans (trimStart_sublist s)

theorem trimEnd_concat {c : Char} (hc : isBlank c = false) (s : List Char) :
    trimEnd (s ++ [c]) = s ++ [c] := List.rdropWhile_concat_neg isBlank s c (by simp [hc])

theorem trimEnd_cons {c : Char} (hc : isBlank c = false) (s : List Char) :
    trimEnd (c :: s) = c :: trimEnd s := by
  by_cases h : trimEnd s = []
  · obtain ⟨t, ht, hs⟩ := exists_trimEnd_append s
    rw [h, List.nil_append] at hs
    rw [h, hs, ← List.singleton_append, trimEnd_append_blank ht]
    exact trimEnd_concat hc []
  · exact trimEnd_append h [c]

theorem trimStart_cons {c : Char} (hc : isBlank c = false) (s : List Char) :
    trimStart (c :: s) = c :: s := List.dropWhile_cons_of_neg (by simp [hc])

@[simp] theorem trim_nil : trim [] = [] := rfl

theorem trim_cons {c : Char} (hc : isBlank c = false) (s : List Char) :
    trim (c :: s) = c :: trimEnd s := by
  rw [trim, trimStart_cons hc, trimEnd_cons hc]

@[simp] theorem trim_trim (s : List Char) : trim (trim s) = trim s := by
  rw [trim.eq_def s]
  cases h : trimStart s with
  | nil => rfl
  | cons c r =>
    have hc : isBlank c = false := by
      have hnot := List.head?_dropWhile_not isBlank s
      rw [show s.dropWhile isBlank = c :: r from h] at hnot
      exact hnot
    rw [trimEnd_cons hc, trim_cons hc, trimEnd_trimEnd]

/-! ## Texts that trimming leaves as they are -/

section
variable {s : List Char} (h : trim s = s)
include h

theorem trimEnd_eq_self : trimEnd s = s := by
  rw [← h, trim, trimEnd_trimEnd]

theorem trimStart_eq_self : trimStart s = s := by
  have hprefix : trim s <+: trimStart s := trimEnd_prefix _
  have hle : (trim s).length ≤ (trimStart s).length := hprefix.length_le
  rw [h] at hle
  exact (List.dropWhile_sublist _).eq_of_length_le hle

end

theorem isBlank_getLast? {s : List Char} (h : trimEnd s = s) {c : Char}
    (hc : s.getLast? = some c) : isBlank c = false := by
  rw [← h] at hc
  exact getLast?_dropEnd hc

/-- Trimming leaves a text as it is just if there is no blank at either end. -/
theorem trim_eq_self_iff {s : List Char} :
    trim s = s ↔ (∀ c ∈ s.head?, isBlank c = false) ∧ ∀ c ∈ s.getLast?, isBlank c = false := by
  constructor
  · intro h
    refine ⟨fun c hc => ?_, fun c hc => isBlank_getLast? (trimEnd_eq_self h) hc⟩
    obtain ⟨r, rfl⟩ := List.head?_eq_some_iff.1 hc
    simpa using List.dropWhile_eq_self_iff.1 (trimStart_eq_self h) (Nat.succ_pos _)
  · rintro ⟨hfirst, hlast⟩
    have hstart : trimStart s = s := by
      cases s with
      | nil => rfl
      | cons c r => exact trimStart_cons (hfirst c rfl) r
    rw [trim, hstart]
    refine List.rdropWhile_eq_self_iff.2 fun hne => ?_
    rw [hlast _ (List.getLast?_eq_some_getLast hne)]
    decide

theorem trim_eq_self {s : List Char} (h : ∀ c ∈ s, isBlank c = false) : trim s = s :=
  trim_eq_self_iff.2
    ⟨fun c hc => h c (List.mem_of_head? hc), fun c hc => h c (List.mem_of_getLast? hc)⟩

end DocScope.Text
