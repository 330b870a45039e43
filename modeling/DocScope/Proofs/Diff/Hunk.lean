import DocScope.Diff.Hunk
import Mathlib.Data.List.Basic

/-!
# Reading hunk headers

* `HunkRange.number?_append`, `HunkRange.number?_repr`: a number is read up to the first character
  that is no digit, and what is printed is read again.
* `HunkRange.read?_eq`: the range that a header announces, from the parts of the header.
* `AddedLines.ofDiff?_spec`: the lines that a diff adds are those of the ranges of its headers, in
  ascending order and each once, as long as no range is too large.
-/

namespace DocScope

namespace HunkRange

/-! ## Numbers -/

theorem number?_append {ds rest : List Char} (hne : ds ≠ []) (hd : ∀ c ∈ ds, c.isDigit = true)
    (hlt : decimal ds < lineLimit) (hrest : ∀ c ∈ rest.head?, c.isDigit = false) :
    number? (ds ++ rest) = some (decimal ds, rest) := by
  have htake : rest.takeWhile Char.isDigit = [] ∧ rest.dropWhile Char.isDigit = rest := by
    cases rest with
    | nil => exact ⟨rfl, rfl⟩
    | cons c cs => simp [hrest c rfl]
  have hds : (ds ++ rest).takeWhile Char.isDigit = ds := by
    rw [List.takeWhile_append_of_pos hd, htake.1, List.append_nil]
  have hdrop : (ds ++ rest).dropWhile Char.isDigit = rest := by
    rw [List.dropWhile_append_of_pos hd, htake.2]
  have hsmall : ¬ lineLimit ≤ decimal ds := by omega
  simp [number?, hds, hdrop, hne, hsmall]

theorem decimal_repr (n : Nat) : decimal (Nat.repr n).toList = n := by
  rw [Nat.toList_repr]
  exact Nat.ofDigitChars_toDigits (by decide) (by decide)

theorem isDigit_of_mem_repr {n : Nat} {c : Char} (h : c ∈ (Nat.repr n).toList) :
    c.isDigit = true := by
  rw [Nat.toList_repr] at h
  exact Nat.isDigit_of_mem_toDigits (by decide) (by decide) h

theorem number?_repr {n : Nat} (hn : n < lineLimit) {rest : List Char}
    (hrest : ∀ c ∈ rest.head?, c.isDigit = false) :
    number? ((Nat.repr n).toList ++ rest) = some (n, rest) := by
  have hne : (Nat.repr n).toList ≠ [] := by
    rw [Nat.toList_repr]
    exact Nat.toDigits_ne_nil
  have h := number?_append hne (fun c hc => isDigit_of_mem_repr hc) (by rwa [decimal_repr]) hrest
  rwa [decimal_repr] at h

/-! ## Headers -/

/-- The range of a header: before the new side stands no plus sign and no at sign. -/
theorem read?_eq {old new afterStart rest : List Char} {start count : Nat}
    (hold : ∀ c ∈ old, c ≠ '+' ∧ c ≠ '@') (hstart : number? new = some (start, afterStart))
    (hcount : count? afterStart = some (count, [' ', '@', '@'] ++ rest)) :
    read? (['@', '@', ' '] ++ (old ++ '+' :: new)) = some ⟨start, count⟩ := by
  have hstrip : Text.stripStart? ['@', '@', ' '] (['@', '@', ' '] ++ (old ++ '+' :: new)) =
      some (old ++ '+' :: new) := List.isPrefixOf?_eq_some_iff_append_eq.2 rfl
  have hdrop : (old ++ '+' :: new).dropWhile (fun c => c != '+' && c != '@') = '+' :: new := by
    rw [List.dropWhile_append_of_pos fun c hc => by simpa using hold c hc]
    rfl
  rw [read?, hstrip]
  simp only [hdrop, hstart, hcount]
  rfl

/-- The range that a line of a diff announces, if it is a header. -/
def announced? (line : List Char) : Option HunkRange :=
  if ['@', '@'].isPrefixOf line then read? line else none

theorem ofDiff_eq (diff : List Char) : ofDiff diff = (Text.lines diff).filterMap announced? := by
  rw [ofDiff, List.filterMap_filter]
  rfl

end HunkRange

/-! ## Added lines -/

namespace AddedLines

theorem contains_ofList (l : List Nat) (n : Nat) : (ofList l).contains n = true ↔ n ∈ l := by
  rw [contains, List.contains_iff_mem, ofList, mem_ascending]

theorem pairwise_ofList (l : List Nat) : (ofList l).lines.Pairwise (· < ·) := by
  have hstrict := pairwise_ascending (fun a b : Nat => decide (a ≤ b))
    (fun a b c hab hbc => by simp only [decide_eq_true_eq] at *; omega)
    (fun a b => by simp only [Bool.or_eq_true, decide_eq_true_eq]; omega)
    (fun a b hab hba => by simp only [decide_eq_true_eq] at hab hba; omega) l
  refine hstrict.imp fun {a b} hab => ?_
  obtain ⟨hle, hne⟩ := hab
  simp only [decide_eq_true_eq] at hle
  omega

theorem ofDiff?_spec {diff : String}
    (h : ∀ range ∈ HunkRange.ofDiff diff.toList, range.start + range.count < lineLimit) :
    ∃ s, ofDiff? diff = some s ∧
      (∀ n, s.contains n = true ↔ ∃ range ∈ HunkRange.ofDiff diff.toList,
        range.start ≤ n ∧ n < range.start + range.count) ∧
      s.lines.Pairwise (· < ·) := by
  have hsmall : (HunkRange.ofDiff diff.toList).any (·.overflows) = false := by
    rw [List.any_eq_false]
    intro range hr
    have := h range hr
    simp only [HunkRange.overflows, decide_eq_true_eq]
    omega
  refine ⟨ofList ((HunkRange.ofDiff diff.toList).flatMap (·.lines)), ?_, fun n => ?_,
    pairwise_ofList _⟩
  · simp [ofDiff?, hsmall]
  · simp [contains_ofList, HunkRange.lines, List.mem_range'_1]

end AddedLines

end DocScope
