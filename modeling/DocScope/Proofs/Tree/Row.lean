import DocScope.Tree.Basic

/-!
# Trees in a row

`Tree.Row a ts b`: the trees `ts` stand one after the other between the offsets `a` and `b`, and the
children of each of them do so within its span. The tree `t` of a source of `n` bytes satisfies
`Row 0 [t] n`. A row may be moved as a whole (`Tree.shift`, `Row.shift`).
-/

namespace DocScope.Tree

inductive Row : Nat → List Tree → Nat → Prop
  | nil {a b : Nat} (h : a ≤ b) : Row a [] b
  | cons {a b s e : Nat} {k : Kind} {r : Option Role} {cs ts : List Tree} (hs : a ≤ s)
      (inside : Row s cs e) (rest : Row e ts b) : Row a (.node k r s e cs :: ts) b

namespace Row

variable {a b : Nat} {t : Tree} {ts us : List Tree}

theorem le (h : Row a ts b) : a ≤ b := by
  induction h with
  | nil h => exact h
  | cons hs _ _ ihinside ihrest => omega

theorem mono {a' b' : Nat} (h : Row a ts b) (ha : a' ≤ a) (hb : b ≤ b') : Row a' ts b' := by
  induction h generalizing a' with
  | nil h => exact .nil (by omega)
  | cons hs inside _ _ ihrest => exact .cons (by omega) inside (ihrest (Nat.le_refl _) hb)

theorem append {m : Nat} (hts : Row a ts m) (hus : Row m us b) : Row a (ts ++ us) b := by
  induction hts with
  | nil h => exact hus.mono h (Nat.le_refl _)
  | cons hs inside _ _ ihrest => exact .cons hs inside (ihrest hus)

theorem of_append (h : Row a (ts ++ us) b) : ∃ m, Row a ts m ∧ Row m us b := by
  induction ts generalizing a with
  | nil => exact ⟨a, .nil (Nat.le_refl _), h⟩
  | cons t ts ih =>
    cases h with
    | cons hs inside rest =>
      obtain ⟨m, hts, hus⟩ := ih rest
      exact ⟨m, .cons hs inside hts, hus⟩

theorem sublist (h : Row a ts b) (hsub : us.Sublist ts) : Row a us b := by
  induction hsub generalizing a with
  | slnil => exact h
  | cons t _ ih =>
    cases h with
    | cons hs inside rest => exact ih (rest.mono (Nat.le_trans hs inside.le) (Nat.le_refl _))
  | cons_cons t _ ih =>
    cases h with
    | cons hs inside rest => exact .cons hs inside (ih rest)

end Row

theorem row_cons {a b : Nat} {t : Tree} {ts : List Tree} :
    Row a (t :: ts) b ↔ a ≤ t.start ∧ Row t.start t.children t.stop ∧ Row t.stop ts b := by
  constructor
  · rintro (_ | ⟨hs, inside, rest⟩)
    exact ⟨hs, inside, rest⟩
  · obtain ⟨k, r, s, e, cs⟩ := t
    rintro ⟨hs, inside, rest⟩
    exact .cons hs inside rest

/-- What stands before a tree, in it and after it. -/
theorem row_append_cons {a b : Nat} {t : Tree} {ts us : List Tree} :
    Row a (ts ++ t :: us) b ↔
      Row a ts t.start ∧ Row t.start t.children t.stop ∧ Row t.stop us b := by
  constructor
  · intro h
    obtain ⟨m, hts, hus⟩ := h.of_append
    obtain ⟨hm, inside, rest⟩ := row_cons.1 hus
    exact ⟨hts.mono (Nat.le_refl _) hm, inside, rest⟩
  · rintro ⟨hts, inside, rest⟩
    exact hts.append (row_cons.2 ⟨Nat.le_refl _, inside, rest⟩)

theorem Row.of_mem {a b : Nat} {t : Tree} {ts : List Tree} (h : Row a ts b) (ht : t ∈ ts) :
    a ≤ t.start ∧ t.start ≤ t.stop ∧ t.stop ≤ b := by
  obtain ⟨us, vs, rfl⟩ := List.append_of_mem ht
  obtain ⟨hus, inside, hvs⟩ := row_append_cons.1 h
  exact ⟨hus.le, inside.le, hvs.le⟩

/-! ## Moving a row -/

mutual

/-- The same tree, `n` bytes further on. -/
def shift (n : Nat) : Tree → Tree
  | .node k r s e cs => .node k r (s + n) (e + n) (shiftAll n cs)

def shiftAll (n : Nat) : List Tree → List Tree
  | [] => []
  | t :: ts => t.shift n :: shiftAll n ts

end

theorem shiftAll_eq_map (n : Nat) (ts : List Tree) : shiftAll n ts = ts.map (shift n) := by
  induction ts with
  | nil => rfl
  | cons t ts ih => rw [shiftAll, ih, List.map_cons]

section
variable (n : Nat) (t : Tree)

@[simp] theorem kind_shift : (t.shift n).kind = t.kind := by cases t; rfl

@[simp] theorem role_shift : (t.shift n).role = t.role := by cases t; rfl

@[simp] theorem start_shift : (t.shift n).start = t.start + n := by cases t; rfl

@[simp] theorem stop_shift : (t.shift n).stop = t.stop + n := by cases t; rfl

@[simp] theorem children_shift : (t.shift n).children = t.children.map (shift n) := by
  cases t
  exact shiftAll_eq_map n _

end

theorem Row.shift {a b : Nat} {ts : List Tree} (h : Row a ts b) (n : Nat) :
    Row (a + n) (ts.map (Tree.shift n)) (b + n) := by
  induction h with
  | nil h => exact .nil (by omega)
  | cons hs _ _ ihinside ihrest =>
    refine row_cons.2 ⟨?_, ?_, ?_⟩
    · rw [start_shift]
      exact Nat.add_le_add_right hs n
    · rw [start_shift, children_shift, stop_shift]
      exact ihinside
    · rw [stop_shift]
      exact ihrest

end DocScope.Tree
