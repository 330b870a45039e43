/-!
# Ascending lists

Sets are kept as ascending lists without repetition. `ascending` makes one of any list.
-/

namespace DocScope

/-- Drops every element that equals the one after it. -/
def dropRepeats {α : Type} [DecidableEq α] : List α → List α
  | [] => []
  | [a] => [a]
  | a :: b :: l => if a = b then dropRepeats (b :: l) else a :: dropRepeats (b :: l)

/-- The elements of a list in ascending order, each once. -/
def ascending {α : Type} [DecidableEq α] (le : α → α → Bool) (l : List α) : List α :=
  dropRepeats (l.mergeSort le)

/-- Dropping repetitions keeps the members. -/
theorem mem_dropRepeats {α : Type} [DecidableEq α] (l : List α) (x : α) :
    x ∈ dropRepeats l ↔ x ∈ l := by
  fun_induction dropRepeats l with
  | case1 => rfl
  | case2 a => rfl
  | case3 a l ih => simp [ih]
  | case4 a b l _ ih => rw [List.mem_cons, ih, List.mem_cons (b := a)]

/-- Without repetitions, a sorted list is strictly sorted. -/
theorem pairwise_dropRepeats {α : Type} [DecidableEq α] {le : α → α → Bool}
    (antisymm : ∀ a b, le a b → le b a → a = b) {l : List α} (h : l.Pairwise (le · ·)) :
    (dropRepeats l).Pairwise fun a b => le a b ∧ a ≠ b := by
  fun_induction dropRepeats l with
  | case1 => exact .nil
  | case2 a => exact List.pairwise_singleton _ _
  | case3 a l ih => exact ih (List.pairwise_cons.1 h).2
  | case4 a b l hab ih =>
    obtain ⟨ha, hl⟩ := List.pairwise_cons.1 h
    refine List.pairwise_cons.2 ⟨fun x hx => ?_, ih hl⟩
    rw [mem_dropRepeats] at hx
    refine ⟨ha x hx, ?_⟩
    rintro rfl
    -- `a` would stand after `b` as well, and both would be equal
    have hba : le b a := (List.mem_cons.1 hx).elim (fun e => absurd e hab)
      ((List.pairwise_cons.1 hl).1 a)
    exact hab (antisymm a b (ha b List.mem_cons_self) hba)

/-- Sorting and dropping repetitions keeps the members. -/
theorem mem_ascending {α : Type} [DecidableEq α] (le : α → α → Bool) (l : List α) (x : α) :
    x ∈ ascending le l ↔ x ∈ l := by
  rw [ascending, mem_dropRepeats, List.mem_mergeSort]

/-- What is made of any list is strictly sorted. -/
theorem pairwise_ascending {α : Type} [DecidableEq α] (le : α → α → Bool)
    (trans : ∀ a b c, le a b → le b c → le a c) (total : ∀ a b, le a b || le b a)
    (antisymm : ∀ a b, le a b → le b a → a = b) (l : List α) :
    (ascending le l).Pairwise fun a b => le a b ∧ a ≠ b :=
  pairwise_dropRepeats antisymm (List.pairwise_mergeSort trans total l)

end DocScope
