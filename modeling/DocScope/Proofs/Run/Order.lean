import DocScope.Run.Finding

/-!
# The order of findings

`Finding.le` is a total preorder, so sorting by it is stable. For stable sorts:

* `filter_mergeSort`: leaving out elements before the sort or after it is the same;
* `sublist_mergeSort_mergeSort`: a part of a list is, sorted, a part of the sorted list. This is more
  than the first statement, since of two equal elements one can be left out;
* `mergeSort_eq_of_filter_tied`: what is sorted is known by the order in which elements that the
  order does not tell apart (`tied`) stand, and by nothing else.
-/

namespace DocScope

/-- Of a part without `q` and a part with `q`, each is found again in the whole. -/
theorem filter_append_split {α : Type} {q : α → Bool} {x y : List α} (hx : ∀ a ∈ x, ¬ q a)
    (hy : ∀ a ∈ y, q a) : (x ++ y).filter (fun a => !q a) = x ∧ (x ++ y).filter q = y := by
  have hx' : x.filter (fun a => !q a) = x := List.filter_eq_self.2 (by simpa using hx)
  have hy' : y.filter (fun a => !q a) = [] := List.filter_eq_nil_iff.2 (by simpa using hy)
  rw [List.filter_append, List.filter_append, hx', hy', List.filter_eq_nil_iff.2 hx,
    List.filter_eq_self.2 hy, List.append_nil, List.nil_append]
  exact ⟨rfl, rfl⟩

/-- Where the first element goes in a stable sort of a list: in front of the first one that is not
below it. -/
theorem mergeSort_cons_split {α : Type} {r : α → α → Bool}
    (trans : ∀ a b c, r a b → r b c → r a c) (total : ∀ a b, r a b || r b a) (a : α) (l : List α) :
    ∃ l₁ l₂, (a :: l).mergeSort r = l₁ ++ a :: l₂ ∧ l.mergeSort r = l₁ ++ l₂ ∧
      (∀ b ∈ l₁, ¬ r a b) ∧ ∀ b ∈ l₂, r a b := by
  obtain ⟨l₁, l₂, h, hl, hlt⟩ := List.mergeSort_cons trans total a l
  refine ⟨l₁, l₂, h, hl, fun b hb => by simpa using hlt b hb, ?_⟩
  have hs := List.pairwise_mergeSort trans total (a :: l)
  rw [h] at hs
  exact (List.pairwise_cons.1 (List.pairwise_append.1 hs).2.1).1

/-- A stable sort and leaving out elements commute. -/
theorem filter_mergeSort {α : Type} {r : α → α → Bool}
    (trans : ∀ a b c, r a b → r b c → r a c) (total : ∀ a b, r a b || r b a)
    (p : α → Bool) (l : List α) : (l.mergeSort r).filter p = (l.filter p).mergeSort r := by
  induction l with
  | nil => simp
  | cons a l ih =>
    obtain ⟨l₁, l₂, h, hl, hlt, hge⟩ := mergeSort_cons_split trans total a l
    rw [hl, List.filter_append] at ih
    rw [h, List.filter_append]
    by_cases ha : p a
    · obtain ⟨m₁, m₂, h', hm, hlt', hge'⟩ := mergeSort_cons_split trans total a (l.filter p)
      obtain ⟨hx, hy⟩ := filter_append_split (q := r a)
        (fun b hb => hlt b (List.mem_filter.1 hb).1) (fun b hb => hge b (List.mem_filter.1 hb).1)
      obtain ⟨hx', hy'⟩ := filter_append_split (q := r a) hlt' hge'
      rw [ih.trans hm] at hx hy
      rw [List.filter_cons_of_pos ha, List.filter_cons_of_pos ha, h', ← hx, ← hy, hx', hy']
    · rw [List.filter_cons_of_neg ha, List.filter_cons_of_neg ha]
      exact ih

/-- A stable sort of a part of a list is a part of the sorted list. -/
theorem sublist_mergeSort_mergeSort {α : Type} {r : α → α → Bool}
    (trans : ∀ a b c, r a b → r b c → r a c) (total : ∀ a b, r a b || r b a)
    {l m : List α} (h : l.Sublist m) : (l.mergeSort r).Sublist (m.mergeSort r) := by
  induction h with
  | slnil => exact List.Sublist.refl _
  | @cons l m a _ ih =>
    obtain ⟨m₁, m₂, hm, hm', -, -⟩ := mergeSort_cons_split trans total a m
    rw [hm]
    rw [hm'] at ih
    exact ih.trans ((List.Sublist.refl m₁).append (List.sublist_cons_self a m₂))
  | @cons_cons l m a _ ih =>
    obtain ⟨l₁, l₂, hl, hl', hlt, hge⟩ := mergeSort_cons_split trans total a l
    obtain ⟨m₁, m₂, hm, hm', hmlt, hmge⟩ := mergeSort_cons_split trans total a m
    rw [hl', hm'] at ih
    -- what is below `a` comes from what is below `a`, and the rest from the rest
    obtain ⟨hx, hy⟩ := filter_append_split (q := r a) hlt hge
    obtain ⟨hx', hy'⟩ := filter_append_split (q := r a) hmlt hmge
    have h₁ : l₁.Sublist m₁ := by
      rw [← hx, ← hx']
      exact ih.filter _
    have h₂ : l₂.Sublist m₂ := by
      rw [← hy, ← hy']
      exact ih.filter _
    rw [hl, hm]
    exact h₁.append (h₂.cons_cons a)

/-! ## Ties -/

/-- Whether an order does not tell two elements apart. -/
def tied {α : Type} (r : α → α → Bool) (a b : α) : Bool := r a b && r b a

theorem tied_iff {α : Type} {r : α → α → Bool} {a b : α} : tied r a b ↔ r a b ∧ r b a := by
  rw [tied, Bool.and_eq_true]

section
variable {α : Type} {r : α → α → Bool} {l m : List α} (refl : ∀ a, r a a)
  (h : ∀ a, l.filter (tied r a) = m.filter (tied r a))
include refl h

theorem mem_of_filter_tied {a : α} (ha : a ∈ l) : a ∈ m := by
  have hl : a ∈ l.filter (tied r a) := List.mem_filter.2 ⟨ha, tied_iff.2 ⟨refl a, refl a⟩⟩
  rw [h] at hl
  exact (List.mem_filter.1 hl).1

/-- A sorted list is known by the elements that are tied with each element, in their order. -/
theorem eq_of_pairwise_of_filter_tied (hl : l.Pairwise (r · ·)) (hm : m.Pairwise (r · ·)) :
    l = m := by
  induction l generalizing m with
  | nil =>
    cases m with
    | nil => rfl
    | cons b m => cases mem_of_filter_tied refl (fun a => (h a).symm) (List.mem_cons_self (a := b))
  | cons a l ih =>
    cases m with
    | nil => cases mem_of_filter_tied refl h (List.mem_cons_self (a := a))
    | cons b m =>
      obtain ⟨hal, hl'⟩ := List.pairwise_cons.1 hl
      obtain ⟨hbm, hm'⟩ := List.pairwise_cons.1 hm
      -- the first element of a sorted list is below all, so the first ones of both are tied
      have hab : r a b := by
        have hb := mem_of_filter_tied refl (fun a => (h a).symm) (List.mem_cons_self (a := b))
        exact (List.mem_cons.1 hb).elim (fun e => e ▸ refl b) (hal b)
      have hba : r b a := by
        have ha := mem_of_filter_tied refl h (List.mem_cons_self (a := a))
        exact (List.mem_cons.1 ha).elim (fun e => e ▸ refl a) (hbm a)
      have hhead := h a
      rw [List.filter_cons_of_pos (tied_iff.2 ⟨refl a, refl a⟩),
        List.filter_cons_of_pos (tied_iff.2 ⟨hab, hba⟩)] at hhead
      obtain ⟨rfl, -⟩ := List.cons_eq_cons.1 hhead
      refine congrArg (a :: ·) (ih (fun c => ?_) hl' hm')
      have hc := h c
      rw [List.filter_cons, List.filter_cons] at hc
      split at hc
      · exact (List.cons_eq_cons.1 hc).2
      · exact hc

end

/-- A stable sort sees of a list only the order in which tied elements stand. -/
theorem mergeSort_eq_of_filter_tied {α : Type} {r : α → α → Bool}
    (trans : ∀ a b c, r a b → r b c → r a c) (total : ∀ a b, r a b || r b a) {l m : List α}
    (h : ∀ a, l.filter (tied r a) = m.filter (tied r a)) : l.mergeSort r = m.mergeSort r := by
  refine eq_of_pairwise_of_filter_tied (r := r) (fun a => by simpa using total a a) (fun a => ?_)
    (List.pairwise_mergeSort trans total l) (List.pairwise_mergeSort trans total m)
  rw [filter_mergeSort trans total, filter_mergeSort trans total, h]

namespace Finding

theorem le_iff {a b : Finding} :
    a.le b ↔ a.file < b.file ∨ a.file = b.file ∧ a.line ≤ b.line := by
  simp [Finding.le]

theorem le_trans (a b c : Finding) (hab : a.le b) (hbc : b.le c) : a.le c := by
  rw [le_iff] at *
  rcases hab with hab | ⟨hab, hab'⟩ <;> rcases hbc with hbc | ⟨hbc, hbc'⟩
  · exact .inl (String.lt_trans hab hbc)
  · exact .inl (hbc ▸ hab)
  · exact .inl (hab ▸ hbc)
  · exact .inr ⟨hab.trans hbc, Nat.le_trans hab' hbc'⟩

theorem le_total (a b : Finding) : a.le b || b.le a := by
  rw [Bool.or_eq_true, le_iff, le_iff]
  by_cases h : a.file = b.file
  · rcases Nat.le_total a.line b.line with hl | hl
    · exact .inl (.inr ⟨h, hl⟩)
    · exact .inr (.inr ⟨h.symm, hl⟩)
  · rcases String.le_total a.file b.file with hf | hf
    · exact .inl (.inl (String.not_le.1 fun hf' => h (String.le_antisymm hf hf')))
    · exact .inr (.inl (String.not_le.1 fun hf' => h (String.le_antisymm hf' hf)))

/-- Only findings of one file are tied. -/
theorem file_eq_of_tied {a b : Finding} (h : tied Finding.le a b) : a.file = b.file := by
  obtain ⟨hab, hba⟩ := tied_iff.1 h
  rw [le_iff] at hab hba
  rcases hab with hab | ⟨hab, -⟩
  · rcases hba with hba | ⟨hba, -⟩
    · exact absurd (String.lt_trans hab hba) (String.lt_irrefl _)
    · exact hba.symm
  · exact hab

/-- The order looks at the file and the line only. -/
theorem le_congr {a a' b b' : Finding} (ha : a.file = a'.file) (ha' : a.line = a'.line)
    (hb : b.file = b'.file) (hb' : b.line = b'.line) : a.le b = a'.le b' := by
  simp only [Finding.le, ha, ha', hb, hb']

end Finding

end DocScope
