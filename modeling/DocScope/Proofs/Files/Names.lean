import DocScope.Files.Tree
import DocScope.Proofs.Text.Lines
import Mathlib.Data.List.Infix
import Mathlib.Data.List.TakeWhile

/-!
# Paths and lists of names

A canonical path is a list of names, each with a slash in front (`World.pathOf`). For proper names
(`ProperName`) the text says what the list says:

* `splitOn_pathOf`, `splitOn_join_pathOf`: the pieces between the slashes are the names;
* `components_pathOf`, `startsWith_pathOf`, `pathOf_injective`: components are names, so starting with
  a path is having its names in front.
-/

namespace DocScope

/-- A text that can name an entry of a directory. -/
structure ProperName (n : String) : Prop where
  slash : '/' ∉ n.toList
  ne_nil : n.toList ≠ []
  ne_here : n.toList ≠ ['.']
  ne_up : n.toList ≠ ['.', '.']

instance (n : String) : Decidable (ProperName n) :=
  decidable_of_iff
    ('/' ∉ n.toList ∧ n.toList ≠ [] ∧ n.toList ≠ ['.'] ∧ n.toList ≠ ['.', '.'])
    ⟨fun ⟨h₁, h₂, h₃, h₄⟩ => ⟨h₁, h₂, h₃, h₄⟩, fun ⟨h₁, h₂, h₃, h₄⟩ => ⟨h₁, h₂, h₃, h₄⟩⟩

namespace Path

/-- The relative path with the given names. -/
def ofNames (names : List String) : List Char := ['/'].intercalate (names.map String.toList)

@[simp] theorem ofNames_nil : ofNames [] = [] := rfl

@[simp] theorem ofNames_singleton (n : String) : ofNames [n] = n.toList := by simp [ofNames]

theorem ofNames_cons {names : List String} (h : names ≠ []) (n : String) :
    ofNames (n :: names) = n.toList ++ '/' :: ofNames names := by
  rw [ofNames, List.map_cons, List.intercalate_cons_of_ne_nil (by simpa using h)]
  simp [ofNames]

theorem ofNames_append {a b : List String} (ha : a ≠ []) (hb : b ≠ []) :
    ofNames (a ++ b) = ofNames a ++ '/' :: ofNames b := by
  induction a with
  | nil => exact absurd rfl ha
  | cons n a ih =>
    by_cases hn : a = []
    · subst hn
      simpa using ofNames_cons hb n
    · rw [List.cons_append, ofNames_cons (by simp [hn]), ih hn, ofNames_cons hn]
      simp

theorem exists_ofNames_concat (a : List String) (n : String) :
    ∃ x, ofNames (a ++ [n]) = x ++ n.toList := by
  by_cases ha : a = []
  · subst ha
    exact ⟨[], by simp⟩
  · exact ⟨ofNames a ++ ['/'], by simp [ofNames_append ha]⟩

theorem component?_name {n : String} (h : ProperName n) (first : Bool) :
    component? first n.toList = some (.name n.toList) := by
  simp [component?, h.ne_nil, h.ne_here, h.ne_up]

/-! ## Nothing idle at the ends -/

theorem dropIdle_piece {q : List Char} (slash : '/' ∉ q) (ne_nil : q ≠ []) (ne_here : q ≠ ['.'])
    (t : List Char) (fuel : Nat) : dropIdle fuel (q ++ t) = q ++ t := by
  obtain ⟨c, cs, rfl⟩ := List.exists_cons_of_ne_nil ne_nil
  cases fuel with
  | zero => rfl
  | succ fuel =>
    rw [List.cons_append]
    unfold dropIdle
    split
    · rename_i heq
      exact absurd (by simp [List.cons_eq_cons.1 heq]) slash
    · rename_i heq
      obtain ⟨rfl, htail⟩ := List.cons_eq_cons.1 heq
      exact absurd (by simp [(List.append_eq_nil_iff.1 htail).1]) ne_here
    · rename_i r heq
      obtain ⟨rfl, htail⟩ := List.cons_eq_cons.1 heq
      cases cs with
      | nil => exact absurd rfl ne_here
      | cons d ds => exact absurd (by simp [(List.cons_eq_cons.1 htail).1]) slash
    · rfl

theorem dropIdleEnd_name {n : String} (h : ProperName n) (x : List Char) (fuel : Nat) :
    dropIdleEnd fuel (x ++ n.toList) = x ++ n.toList := by
  obtain ⟨c, cs, hc⟩ : ∃ c cs, n.toList.reverse = c :: cs :=
    List.exists_cons_of_ne_nil (by simpa using h.ne_nil)
  have hn : n.toList = cs.reverse ++ [c] := by rw [← List.reverse_reverse n.toList, hc]; simp
  have hslash : '/' ∉ c :: cs := fun hm => h.slash (by simpa [hn, or_comm] using hm)
  cases fuel with
  | zero => rfl
  | succ fuel =>
    unfold dropIdleEnd
    rw [List.reverse_append, hc, List.cons_append]
    split
    · rename_i heq
      exact absurd (by simp [List.cons_eq_cons.1 heq]) hslash
    · rename_i heq
      obtain ⟨rfl, htail⟩ := List.cons_eq_cons.1 heq
      exact absurd (by simpa [(List.append_eq_nil_iff.1 htail).1] using hn) h.ne_here
    · rename_i r heq
      obtain ⟨rfl, htail⟩ := List.cons_eq_cons.1 heq
      cases cs with
      | nil => exact absurd (by simpa using hn) h.ne_here
      | cons d ds => exact absurd (by simp [(List.cons_eq_cons.1 htail).1]) hslash
    · rfl

theorem dropIdleEnd_ofNames {names : List String} (hn : ∀ n ∈ names, ProperName n) (fuel : Nat) :
    dropIdleEnd fuel (ofNames names) = ofNames names := by
  rcases List.eq_nil_or_concat names with rfl | ⟨a, n, rfl⟩
  · cases fuel <;> rfl
  · obtain ⟨x, hx⟩ := exists_ofNames_concat a n
    rw [List.concat_eq_append, hx]
    exact dropIdleEnd_name (hn n (by simp)) x fuel

/-! ## Joined paths -/

/-- A path with a slash at its end. -/
def asDirectory (base : List Char) : List Char :=
  if base.getLast? = some '/' then base else base ++ ['/']

theorem join_eq {base p : List Char} (hb : base ≠ []) (hp : isAbsolute p = false) :
    join base p = asDirectory base ++ p := by
  rw [join, hp, if_neg (by simp), if_neg hb, asDirectory]
  split <;> simp

theorem asDirectory_append {root : List Char} (hr : root ≠ []) (base : List Char) :
    asDirectory (base ++ root) = base ++ asDirectory root := by
  rw [asDirectory, asDirectory, List.getLast?_append_of_ne_nil base hr]
  split <;> simp

theorem isAbsolute_append {a : List Char} (ha : a ≠ []) (b : List Char) :
    isAbsolute (a ++ b) = isAbsolute a := by
  obtain ⟨c, cs, rfl⟩ := List.exists_cons_of_ne_nil ha
  rfl

theorem asDirectory_ne_nil {base : List Char} (hb : base ≠ []) : asDirectory base ≠ [] := by
  unfold asDirectory
  split <;> simp [hb]

theorem isAbsolute_asDirectory {base : List Char} (hb : base ≠ []) :
    isAbsolute (asDirectory base) = isAbsolute base := by
  unfold asDirectory
  split
  · rfl
  · exact isAbsolute_append hb _

theorem join_ne_nil {base p : List Char} (hp : p ≠ []) : join base p ≠ [] := by
  unfold join
  split
  · exact hp
  · split
    · exact hp
    · split <;> simp [hp]

theorem join_join {base root p : List Char} (hr : root ≠ []) (hp : isAbsolute p = false) :
    join base (join root p) = join (join base root) p := by
  have habs : isAbsolute (asDirectory root ++ p) = isAbsolute root := by
    rw [isAbsolute_append (asDirectory_ne_nil hr), isAbsolute_asDirectory hr]
  rw [join_eq hr hp]
  by_cases ha : isAbsolute root = true
  · rw [join, habs, if_pos ha, join.eq_def base, if_pos ha, join_eq hr hp]
  · have ha' : isAbsolute root = false := by simpa using ha
    by_cases hb : base = []
    · rw [join, habs, if_neg ha, if_pos hb, join.eq_def base, if_neg ha, if_pos hb,
        join_eq hr hp]
    · rw [join_eq hb (habs.trans ha'), join_eq hb ha', join_eq (by simp [hr]) hp,
        asDirectory_append hr, List.append_assoc]

theorem splitOn_asDirectory_append (base p : List Char) :
    ∃ ys, (asDirectory base ++ p).splitOn '/' = ys ++ p.splitOn '/' ∧
      (base.splitOn '/' = ys ∨ base.splitOn '/' = ys ++ [[]]) := by
  unfold asDirectory
  split
  · rename_i hslash
    obtain ⟨y, rfl⟩ := List.getLast?_eq_some_iff.1 hslash
    exact ⟨y.splitOn '/', by
      rw [List.append_assoc, List.singleton_append, List.splitOn_append_cons_self],
      .inr (by rw [List.splitOn_append_cons_self, List.splitOn_nil])⟩
  · exact ⟨base.splitOn '/', by
      rw [List.append_assoc, List.singleton_append, List.splitOn_append_cons_self],
      .inl rfl⟩

theorem exists_splitOn_join (base p : List Char) :
    ∃ qs, (join base p).splitOn '/' = qs ++ p.splitOn '/' := by
  by_cases hp : isAbsolute p = true
  · exact ⟨[], by rw [join, if_pos hp]; rfl⟩
  · by_cases hb : base = []
    · exact ⟨[], by rw [join, if_neg hp, if_pos hb]; rfl⟩
    · obtain ⟨ys, hy, -⟩ := splitOn_asDirectory_append base p
      exact ⟨ys, by rw [join_eq hb (by simpa using hp), hy]⟩

/-! ## Names among the pieces -/

/-- The names among the pieces of a path, if it goes nowhere up. -/
def namesIn (ps : List (List Char)) : List String :=
  (ps.filter fun p => p ≠ [] && p ≠ ['.']).map String.ofList

theorem namesIn_append (ps qs : List (List Char)) :
    namesIn (ps ++ qs) = namesIn ps ++ namesIn qs := by
  simp [namesIn]

theorem namesIn_cons_blank {p : List Char} (hp : p = [] ∨ p = ['.']) (ps : List (List Char)) :
    namesIn (p :: ps) = namesIn ps := by
  rcases hp with rfl | rfl <;> simp [namesIn]

theorem namesIn_cons_name {p : List Char} (h₁ : p ≠ []) (h₂ : p ≠ ['.'])
    (ps : List (List Char)) : namesIn (p :: ps) = .ofList p :: namesIn ps := by
  simp [namesIn, h₁, h₂]

theorem namesIn_names {names : List String} (hn : ∀ n ∈ names, ProperName n) :
    namesIn (names.map String.toList) = names := by
  induction names with
  | nil => rfl
  | cons n names ih =>
    have hp : ProperName n := hn n List.mem_cons_self
    rw [List.map_cons, namesIn_cons_name hp.ne_nil hp.ne_here,
      ih fun m hm => hn m (List.mem_cons_of_mem _ hm), String.ofList_toList]

theorem filterMap_component? {ps : List (List Char)} (hup : ['.', '.'] ∉ ps) :
    ps.filterMap (component? false) = (namesIn ps).map fun n => .name n.toList := by
  induction ps with
  | nil => rfl
  | cons p ps ih =>
    have ih' := ih fun hm => hup (List.mem_cons_of_mem _ hm)
    have hp : p ≠ ['.', '.'] := fun h => hup (h ▸ List.mem_cons_self)
    by_cases hb : p = [] ∨ p = ['.']
    · rw [namesIn_cons_blank hb, ← ih']
      rcases hb with rfl | rfl <;> rfl
    · rw [not_or] at hb
      rw [namesIn_cons_name hb.1 hb.2, List.map_cons, ← ih']
      exact List.filterMap_cons_some (by simp [component?, hb, hp])

theorem fileName?_of_splitOn {p : List Char} {qs : List (List Char)} {n : String}
    (hn : ProperName n) (h : p.splitOn '/' = qs ++ [n.toList]) : fileName? p = some n.toList := by
  have hlast : (components p).getLast? = some (.name n.toList) := by
    unfold components
    rw [h]
    split
    · rw [List.filterMap_append, ← List.cons_append, List.getLast?_append_of_ne_nil]
      all_goals simp [component?_name hn]
    · cases qs with
      | nil => simp [component?_name hn]
      | cons q qs =>
        simp only [List.cons_append]
        rw [List.filterMap_append]
        simp [component?_name hn]
  rw [fileName?, hlast]

end Path

namespace World

theorem toList_pathOf (names : List String) :
    (pathOf names).toList = '/' :: Path.ofNames names := by
  unfold pathOf
  split
  · subst names; rfl
  · rename_i h
    rw [String.toList_ofList]
    induction names with
    | nil => exact absurd rfl h
    | cons n names ih =>
      by_cases hn : names = []
      · subst hn; simp
      · rw [List.flatMap_cons, ih hn, Path.ofNames_cons hn]
        rfl

@[simp] theorem isAbsolute_pathOf (names : List String) :
    Path.isAbsolute (pathOf names).toList = true := by
  rw [toList_pathOf]; rfl

section
variable {names : List String} (hn : ∀ n ∈ names, ProperName n)
include hn

theorem splitOn_ofNames (hne : names ≠ []) :
    (Path.ofNames names).splitOn '/' = names.map String.toList := by
  refine List.splitOn_intercalate '/' (fun l hl => ?_) (by simpa using hne)
  obtain ⟨n, hm, rfl⟩ := List.mem_map.1 hl
  exact (hn n hm).slash

theorem splitOn_pathOf (hne : names ≠ []) :
    (pathOf names).toList.splitOn '/' = [] :: names.map String.toList := by
  rw [toList_pathOf, ← splitOn_ofNames hn hne]
  exact List.splitOn_append_cons_self (a := '/') [] _

theorem getLast?_pathOf (hne : names ≠ []) : (pathOf names).toList.getLast? ≠ some '/' := by
  obtain ⟨a, n, rfl⟩ := (List.eq_nil_or_concat names).resolve_left hne
  have hp : ProperName n := hn n (by simp)
  obtain ⟨x, hx⟩ := Path.exists_ofNames_concat a n
  rw [toList_pathOf, List.concat_eq_append, hx, ← List.cons_append,
    List.getLast?_append_of_ne_nil _ hp.ne_nil]
  exact fun h => hp.slash (List.mem_of_getLast? h)

/-- The pieces of a path that is joined to a canonical one. -/
theorem splitOn_join_pathOf {p : List Char} (hp : Path.isAbsolute p = false) :
    (Path.join (pathOf names).toList p).splitOn '/' =
      [] :: (names.map String.toList ++ p.splitOn '/') := by
  by_cases hne : names = []
  · subst hne
    rw [Path.join, hp, if_neg (by simp), if_neg (by decide), if_pos (by decide)]
    exact List.splitOn_append_cons_self (a := '/') [] p
  · rw [Path.join, hp, if_neg (by simp), if_neg (by simp [toList_pathOf]),
      if_neg (getLast?_pathOf hn hne), List.splitOn_append_cons_self, splitOn_pathOf hn hne]
    rfl

theorem components_pathOf :
    Path.components (pathOf names).toList = .root :: names.map fun n => .name n.toList := by
  rw [Path.components, isAbsolute_pathOf, if_pos rfl]
  by_cases hne : names = []
  · subst hne; decide
  · rw [splitOn_pathOf hn hne, List.filterMap_cons, List.filterMap_map]
    congr 1
    rw [← List.filterMap_eq_map']
    exact List.filterMap_congr fun n hm => Path.component?_name (hn n hm) false

end

theorem name_injective : Function.Injective fun n : String => Path.Component.name n.toList := by
  intro a b h
  injection h with h
  exact String.toList_inj.1 h

theorem pathOf_injective {a b : List String} (ha : ∀ n ∈ a, ProperName n)
    (hb : ∀ n ∈ b, ProperName n) (h : pathOf a = pathOf b) : a = b := by
  have hc := congrArg (fun s : String => Path.components s.toList) h
  simp only [components_pathOf ha, components_pathOf hb] at hc
  exact List.map_injective_iff.2 name_injective (List.cons_eq_cons.1 hc).2

/-- **Starting with a canonical path** is having its names in front. -/
theorem startsWith_pathOf {a b : List String} (ha : ∀ n ∈ a, ProperName n) {p : List Char}
    (hp : Path.components p = .root :: b.map fun n => .name n.toList) :
    Path.startsWith (pathOf a).toList p = true ↔ a <+: b := by
  rw [Path.startsWith, List.isPrefixOf_iff_prefix, components_pathOf ha, hp,
    List.cons_prefix_cons, List.prefix_map_iff_of_injective name_injective]
  simp

end World

end DocScope
