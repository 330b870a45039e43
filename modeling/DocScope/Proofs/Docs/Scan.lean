import DocScope.Docs.Section
import DocScope.Proofs.Text.Lines
import DocScope.Proofs.Text.Trim

/-!
# Scanning lines with a fence state

`cutBefore` looks for the first line outside of a fence at which it stops. All it notices of a line
is whether it is a fence or a place to stop (`Notice`).

* `cutBefore_cons`: one line of a scan.
* `cutBefore_append`: a scan of two pieces is a scan of the first and, if that did not stop, a scan
  of the second in the fence state that the first leaves behind (`fencedAfter`).
* `outside_iff`: a scan stops just if a line to stop at stands outside of all fences.
* `cutBefore_snd_eq_nil`, `fencedAfter_congr`: whether a scan stops and whether it ends inside of a
  fence depend on the notices only, so lines that are not noticed can be left out.
-/

namespace DocScope.Section

/-! ## What is noticed of a line -/

/-- What a scan notices. -/
inductive Notice where
  /-- A line that opens or closes a fence. -/
  | fence
  /-- A line at which the scan stops if it is outside of a fence. -/
  | stop
deriving DecidableEq, Repr

/-- What a scan notices of a line. -/
def notice? (stop : List Char → Bool) (l : List Char) : Option Notice :=
  if isFence l then some .fence else if stop l then some .stop else none

def notices (stop : List Char → Bool) (ls : List (List Char)) : List Notice :=
  ls.filterMap (notice? stop)

/-- Whether a scan stops; `fenced` says whether it starts inside of a fence. -/
def stops : Bool → List Notice → Bool
  | _, [] => false
  | fenced, .fence :: ns => stops (!fenced) ns
  | fenced, .stop :: ns => !fenced || stops fenced ns

/-- Whether lines end inside of a fence; `fenced` says whether they start inside of one. -/
def fencedAfter : Bool → List (List Char) → Bool
  | fenced, [] => fenced
  | fenced, l :: ls => fencedAfter (fenced ^^ isFence l) ls

/-- Whether a scan stops at a line. -/
def halts (stop : List Char → Bool) (fenced : Bool) (l : List Char) : Bool :=
  !isFence l && !fenced && stop l

theorem cutBefore_cons (stop : List Char → Bool) (fenced : Bool) (l : List Char)
    (ls : List (List Char)) :
    cutBefore stop fenced (l :: ls) =
      if halts stop fenced l then ([], l :: ls)
      else (l :: (cutBefore stop (fenced ^^ isFence l) ls).1,
        (cutBefore stop (fenced ^^ isFence l) ls).2) := by
  rw [cutBefore]
  unfold halts
  cases isFence l <;> cases fenced <;> cases stop l <;> rfl

theorem fencedAfter_append (fenced : Bool) (xs ys : List (List Char)) :
    fencedAfter fenced (xs ++ ys) = fencedAfter (fencedAfter fenced xs) ys := by
  induction xs generalizing fenced with
  | nil => rfl
  | cons x xs ih => exact ih _

theorem notices_append (stop : List Char → Bool) (xs ys : List (List Char)) :
    notices stop (xs ++ ys) = notices stop xs ++ notices stop ys := List.filterMap_append

/-- The fence state is the parity of the fences. -/
theorem fencedAfter_eq (fenced : Bool) (ls : List (List Char)) :
    fencedAfter fenced ls = (fenced ^^ decide (ls.countP isFence % 2 = 1)) := by
  induction ls generalizing fenced with
  | nil => simp [fencedAfter]
  | cons l ls ih =>
    rw [fencedAfter, ih, List.countP_cons]
    generalize ls.countP isFence = n
    cases isFence l
    · simp
    · rcases Nat.mod_two_eq_zero_or_one n with h | h <;>
        simp [h, show (n + 1) % 2 = 1 - n % 2 by omega]

theorem count_notices (stop : List Char → Bool) (ls : List (List Char)) :
    (notices stop ls).count .fence = ls.countP isFence := by
  rw [notices, List.count_filterMap]
  congr 1
  funext l
  unfold notice?
  cases isFence l <;> cases stop l <;> rfl

theorem fencedAfter_congr {stop : List Char → Bool} {xs ys : List (List Char)}
    (h : notices stop xs = notices stop ys) (fenced : Bool) :
    fencedAfter fenced xs = fencedAfter fenced ys := by
  rw [fencedAfter_eq, fencedAfter_eq, ← count_notices stop, h, count_notices]

/-! ## Where a scan stops -/

theorem cutBefore_fst_append_snd (stop : List Char → Bool) (fenced : Bool)
    (ls : List (List Char)) :
    (cutBefore stop fenced ls).1 ++ (cutBefore stop fenced ls).2 = ls := by
  induction ls generalizing fenced with
  | nil => rfl
  | cons l ls ih =>
    rw [cutBefore_cons]
    split
    · rfl
    · exact congrArg (l :: ·) (ih _)

theorem cutBefore_snd_eq_nil (stop : List Char → Bool) (fenced : Bool) (ls : List (List Char)) :
    (cutBefore stop fenced ls).2 = [] ↔ stops fenced (notices stop ls) = false := by
  induction ls generalizing fenced with
  | nil => simp [cutBefore, notices, stops]
  | cons l ls ih =>
    rw [cutBefore_cons]
    unfold halts notices notice? at *
    cases hf : isFence l
    · cases hs : stop l
      · simp [hf, hs, ih]
      · cases fenced <;> simp [hf, hs, stops, ih]
    · simp [hf, stops, ih]

theorem cutBefore_append (stop : List Char → Bool) (fenced : Bool) (xs ys : List (List Char)) :
    cutBefore stop fenced (xs ++ ys) =
      if (cutBefore stop fenced xs).2 = [] then
        (xs ++ (cutBefore stop (fencedAfter fenced xs) ys).1,
          (cutBefore stop (fencedAfter fenced xs) ys).2)
      else ((cutBefore stop fenced xs).1, (cutBefore stop fenced xs).2 ++ ys) := by
  induction xs generalizing fenced with
  | nil => rfl
  | cons x xs ih =>
    rw [List.cons_append, cutBefore_cons, cutBefore_cons, ih, fencedAfter]
    cases halts stop fenced x
    · simp only [Bool.false_eq_true, ↓reduceIte]
      split <;> rfl
    · simp

/-- Where a scan stops, it is outside of a fence, and before that it does not stop. -/
theorem cutBefore_stopped {stop : List Char → Bool} {fenced : Bool} {ls : List (List Char)}
    {l : List Char} {rest : List (List Char)} (h : (cutBefore stop fenced ls).2 = l :: rest) :
    isFence l = false ∧ stop l = true ∧
      fencedAfter fenced (cutBefore stop fenced ls).1 = false ∧
      (cutBefore stop fenced (cutBefore stop fenced ls).1).2 = [] := by
  induction ls generalizing fenced with
  | nil => cases h
  | cons x xs ih =>
    rw [cutBefore_cons] at h ⊢
    cases hx : halts stop fenced x
    · simp only [hx, Bool.false_eq_true, ↓reduceIte] at h ⊢
      obtain ⟨h1, h2, h3, h4⟩ := ih h
      exact ⟨h1, h2, h3, by rw [cutBefore_cons, hx]; exact h4⟩
    · simp only [hx, ↓reduceIte] at h ⊢
      obtain ⟨rfl, -⟩ := List.cons_eq_cons.1 h
      simp only [halts, Bool.and_eq_true, Bool.not_eq_true'] at hx
      exact ⟨hx.1.1, hx.2, hx.1.2, rfl⟩

theorem cutBefore_of_stop {stop : List Char → Bool} {l : List Char} (hf : isFence l = false)
    (hs : stop l = true) (ls : List (List Char)) :
    cutBefore stop false (l :: ls) = ([], l :: ls) := by
  rw [cutBefore_cons, halts, hf, hs]
  rfl

theorem cutBefore_true_cons {stop : List Char → Bool} {l : List Char} (hf : isFence l = false)
    (ls : List (List Char)) : (cutBefore stop true (l :: ls)).2 = (cutBefore stop true ls).2 := by
  rw [cutBefore_cons, halts, hf]
  rfl

/-- A line for which `p` holds stands outside of all fences. -/
def Outside (p : List Char → Bool) (ls : List (List Char)) : Prop :=
  ∃ above l below, ls = above ++ l :: below ∧ fencedAfter false above = false ∧
    isFence l = false ∧ p l = true

theorem outside_iff {p : List Char → Bool} {ls : List (List Char)} :
    Outside p ls ↔ (cutBefore p false ls).2 ≠ [] := by
  constructor
  · rintro ⟨above, l, below, rfl, hopen, hfence, hl⟩
    rw [cutBefore_append]
    split
    · rw [hopen, cutBefore_of_stop hfence hl]
      exact List.cons_ne_nil _ _
    · next h => exact List.append_ne_nil_of_left_ne_nil h _
  · intro h
    obtain ⟨l, below, hcut⟩ := List.exists_cons_of_ne_nil h
    obtain ⟨hfence, hl, hopen, -⟩ := cutBefore_stopped hcut
    refine ⟨(cutBefore p false ls).1, l, below, ?_, hopen, hfence, hl⟩
    rw [← hcut, cutBefore_fst_append_snd]

/-! ## Fences, markers and headings of a line

Blanks at the end of a line do not matter, and the first characters of a line that is not blank
tell what it is. -/

@[simp] theorem isFence_append_newline (l : List Char) : isFence (l ++ ['\n']) = isFence l := by
  simp [isFence]

@[simp] theorem isHeading_append_newline (l : List Char) :
    isHeading (l ++ ['\n']) = isHeading l := by
  simp [isHeading]

/-- A line that starts with a character other than a backtick and a blank is no fence. -/
theorem isFence_cons {c : Char} (hc : Text.isBlank c = false) (hc' : c ≠ '\x60') (l : List Char) :
    isFence (c :: l) = false := by
  rw [isFence, Text.trimEnd_cons hc, Text.trimStart_cons hc]
  simp [List.isPrefixOf, hc'.symm]

theorem isFence_of_isMarker {heading l : List Char} (h : isMarker (markerOf heading) l = true) :
    isFence l = false := by
  have ht : Text.trimEnd l = '#' :: '#' :: ' ' :: heading := by simpa [isMarker, markerOf] using h
  rw [isFence, ht, Text.trimStart_cons (by decide)]
  rfl

theorem isHeading_of_isMarker {heading l : List Char}
    (h : isMarker (markerOf heading) l = true) : isHeading l = true := by
  have ht : Text.trimEnd l = markerOf heading := by simpa [isMarker] using h
  rw [isHeading, ht, List.isPrefixOf_iff_prefix]
  exact List.prefix_append _ _

theorem notice?_blank {stop : List Char → Bool} {l : List Char} (h : ∀ c ∈ l, Text.isBlank c)
    (hs : stop l = false) : notice? stop l = none := by
  have ht : isFence l = false := by
    rw [isFence, Text.trimEnd_eq_nil.2 h]
    rfl
  simp [notice?, ht, hs]

end DocScope.Section
