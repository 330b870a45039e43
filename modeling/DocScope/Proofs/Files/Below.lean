import DocScope.Proofs.Files.Names

/-!
# Names below any path

A path need not be canonical to have names below it. `Path.joinNames` puts names behind a path as it
is written, with its points, repeated slashes and steps up.

* `components_joinNames`: the components of the path are followed by the names;
* `dropIdle_intercalate`, `afterComponents_intercalate`: what the text of a path loses, said of the
  pieces between its slashes;
* `below?_joinNames`: so what is below the path are the names, whatever its spelling;
* `below?_pathOf_iff`: the part of a canonical path below another one is the text of the names that
  are left.
-/

namespace DocScope

namespace Path

theorem isAbsolute_ofNames {names : List String} (h : ∀ n ∈ names, ProperName n) :
    isAbsolute (ofNames names) = false := by
  cases names with
  | nil => rfl
  | cons n names =>
    have hn : ProperName n := h n List.mem_cons_self
    obtain ⟨c, cs, hc⟩ := List.exists_cons_of_ne_nil hn.ne_nil
    have hslash : c ≠ '/' := fun hs => hn.slash (by rw [hc, hs]; exact List.mem_cons_self)
    have hhead : isAbsolute n.toList = false := by
      rw [hc]
      simpa [isAbsolute] using hslash
    by_cases hne : names = []
    · subst hne
      simpa using hhead
    · rw [ofNames_cons hne, isAbsolute_append hn.ne_nil, hhead]

/-- The path with the given names below `base`. -/
def joinNames (base : List Char) (names : List String) : List Char :=
  if names = [] then base else join base (ofNames names)

@[simp] theorem joinNames_nil (base : List Char) : joinNames base [] = base := rfl

section
variable {base : List Char} (hb : base ≠ []) {names : List String}
  (hn : ∀ n ∈ names, ProperName n)
include hb hn

theorem isAbsolute_joinNames : isAbsolute (joinNames base names) = isAbsolute base := by
  unfold joinNames
  split
  · rfl
  · rw [join_eq hb (isAbsolute_ofNames hn), isAbsolute_append (asDirectory_ne_nil hb),
      isAbsolute_asDirectory hb]

theorem joinNames_cons {n : String} (hp : ProperName n) :
    joinNames base (n :: names) = joinNames (join base n.toList) names := by
  have habs : isAbsolute n.toList = false := by
    simpa using isAbsolute_ofNames (List.forall_mem_singleton.2 hp)
  by_cases hne : names = []
  · subst hne
    simp [joinNames]
  · have hdir : asDirectory n.toList = n.toList ++ ['/'] :=
      if_neg fun h => hp.slash (List.mem_of_getLast? h)
    rw [joinNames, if_neg (by simp), joinNames, if_neg hne,
      join_eq hb (isAbsolute_ofNames (List.forall_mem_cons.2 ⟨hp, hn⟩)), ofNames_cons hne,
      join_eq (join_ne_nil hp.ne_nil) (isAbsolute_ofNames hn), join_eq hb habs,
      asDirectory_append hp.ne_nil, hdir]
    simp

/-- The pieces of a path with names below it: those of the path, perhaps without the empty one at its
end, and the names. -/
theorem splitOn_joinNames :
    ∃ y ys, (joinNames base names).splitOn '/' = y :: (ys ++ names.map String.toList) ∧
      (base.splitOn '/' = y :: ys ∨ base.splitOn '/' = y :: (ys ++ [[]])) := by
  obtain ⟨y, ys, hy⟩ := List.exists_cons_of_ne_nil (List.splitOn_ne_nil '/' base)
  by_cases hne : names = []
  · subst hne
    exact ⟨y, ys, by simp [hy], .inl hy⟩
  · obtain ⟨zs, hz, hbase⟩ := splitOn_asDirectory_append base (ofNames names)
    rw [joinNames, if_neg hne, join_eq hb (isAbsolute_ofNames hn), hz,
      World.splitOn_ofNames hn hne]
    cases zs with
    | nil =>
      -- the path would be empty
      exfalso
      rcases hbase with hbase | hbase
      · exact List.splitOn_ne_nil '/' base hbase
      · have htext : ['/'].intercalate (base.splitOn '/') = base := List.intercalate_splitOn '/'
        rw [hbase] at htext
        exact hb htext.symm
    | cons z zs => exact ⟨z, zs, rfl, hbase⟩

end

/-! ## Components -/

theorem isAbsolute_iff {p y : List Char} {ys : List (List Char)} (hp : p ≠ [])
    (h : p.splitOn '/' = y :: ys) : isAbsolute p = true ↔ y = [] := by
  cases p with
  | nil => exact absurd rfl hp
  | cons c r =>
    by_cases hc : c = '/'
    · subst hc
      have hsplit := List.splitOn_append_cons_self (a := '/') [] r
      rw [List.nil_append, h] at hsplit
      exact iff_of_true rfl (List.cons_eq_cons.1 hsplit).1
    · have hsplit : (c :: r).splitOn '/' = (r.splitOn '/').modifyHead (c :: ·) := by
        rw [List.splitOn_cons_eq_if_modifyHead, if_neg (by simpa using hc)]
      obtain ⟨q, qs, hq⟩ := List.exists_cons_of_ne_nil (List.splitOn_ne_nil '/' r)
      rw [h, hq, List.modifyHead_cons] at hsplit
      refine iff_of_false (by simpa [isAbsolute] using hc) ?_
      rw [(List.cons_eq_cons.1 hsplit).1]
      simp

theorem components_of_splitOn {p y : List Char} {ys : List (List Char)} (hp : p ≠ [])
    (h : p.splitOn '/' = y :: ys) :
    components p = (if isAbsolute p then [.root] else (component? true y).toList) ++
      ys.filterMap (component? false) := by
  unfold components
  rw [h]
  split
  · next habs =>
    obtain rfl := (isAbsolute_iff hp h).1 habs
    rfl
  · rfl

theorem filterMap_component?_names {names : List String} (hn : ∀ n ∈ names, ProperName n) :
    (names.map String.toList).filterMap (component? false) =
      names.map fun n => .name n.toList := by
  rw [List.filterMap_map, ← List.filterMap_eq_map']
  exact List.filterMap_congr fun n hm => component?_name (hn n hm) false

section
variable {base : List Char} (hb : base ≠ []) {names : List String}
  (hn : ∀ n ∈ names, ProperName n)
include hb hn

theorem joinNames_ne_nil : joinNames base names ≠ [] := by
  unfold joinNames
  split
  · exact hb
  · rw [join_eq hb (isAbsolute_ofNames hn)]
    exact fun h => asDirectory_ne_nil hb (List.append_eq_nil_iff.1 h).1

theorem pieces_joinNames :
    ∃ y ys, (joinNames base names).splitOn '/' = y :: (ys ++ names.map String.toList) ∧
      components base = (if isAbsolute base then [.root] else (component? true y).toList) ++
        ys.filterMap (component? false) := by
  obtain ⟨y, ys, hpath, hbase⟩ := splitOn_joinNames hb hn
  refine ⟨y, ys, hpath, ?_⟩
  rcases hbase with hbase | hbase
  · exact components_of_splitOn hb hbase
  · rw [components_of_splitOn hb hbase, List.filterMap_append]
    simp [component?]

/-- **The components of a path with names below it.** -/
theorem components_joinNames :
    components (joinNames base names) = components base ++ names.map fun n => .name n.toList := by
  obtain ⟨y, ys, hpath, hbase⟩ := pieces_joinNames hb hn
  rw [components_of_splitOn (joinNames_ne_nil hb hn) hpath, isAbsolute_joinNames hb hn,
    List.filterMap_append, filterMap_component?_names hn, hbase, List.append_assoc]

end

/-! ## What is left of the pieces -/

/-- A piece between slashes that says nothing. -/
def isIdle (piece : List Char) : Bool := piece = [] || piece = ['.']

theorem intercalate_cons_of_ne_nil {ps : List (List Char)} (h : ps ≠ []) (p : List Char) :
    ['/'].intercalate (p :: ps) = p ++ '/' :: ['/'].intercalate ps := by
  rw [List.intercalate_cons_of_ne_nil h]
  simp

theorem isIdle_iff {p : List Char} : isIdle p = true ↔ p = [] ∨ p = ['.'] := by simp [isIdle]

theorem dropIdle_intercalate {ps : List (List Char)} (h : ∀ p ∈ ps, '/' ∉ p) {fuel : Nat}
    (hf : (['/'].intercalate ps).length ≤ fuel) :
    dropIdle fuel (['/'].intercalate ps) = ['/'].intercalate (ps.dropWhile isIdle) := by
  induction ps generalizing fuel with
  | nil => cases fuel <;> rfl
  | cons p ps ih =>
    have hps : ∀ q ∈ ps, '/' ∉ q := fun q hq => h q (List.mem_cons_of_mem _ hq)
    by_cases hne : ps = []
    · subst hne
      rw [List.intercalate_singleton] at hf ⊢
      by_cases hp : isIdle p = true
      · rw [List.dropWhile_cons_of_pos hp]
        rcases isIdle_iff.1 hp with rfl | rfl
        · cases fuel <;> rfl
        · obtain ⟨fuel, rfl⟩ : ∃ k, fuel = k + 1 := ⟨fuel - 1, by simp at hf; omega⟩
          rfl
      · rw [List.dropWhile_cons_of_neg hp, List.intercalate_singleton]
        rw [isIdle_iff, not_or] at hp
        simpa using dropIdle_piece (h p List.mem_cons_self) hp.1 hp.2 [] fuel
    · rw [intercalate_cons_of_ne_nil hne] at hf ⊢
      by_cases hp : isIdle p = true
      · rw [List.dropWhile_cons_of_pos hp]
        rw [List.length_append, List.length_cons] at hf
        obtain ⟨fuel, rfl⟩ : ∃ k, fuel = k + 1 := ⟨fuel - 1, by omega⟩
        rw [← ih hps (show (['/'].intercalate ps).length ≤ fuel by omega)]
        rcases isIdle_iff.1 hp with rfl | rfl <;> rfl
      · rw [List.dropWhile_cons_of_neg hp, intercalate_cons_of_ne_nil hne]
        rw [isIdle_iff, not_or] at hp
        exact dropIdle_piece (h p List.mem_cons_self) hp.1 hp.2 _ fuel

/-- The pieces behind `n` components: each is left together with the idle pieces after it. -/
def afterPieces : Nat → List (List Char) → List (List Char)
  | 0, ps => ps
  | _ + 1, [] => []
  | n + 1, _ :: ps => afterPieces n (ps.dropWhile isIdle)

theorem dropWhile_intercalate_cons {p : List Char} (hp : '/' ∉ p) (ps : List (List Char)) :
    (['/'].intercalate (p :: ps)).dropWhile (· != '/') =
      if ps = [] then [] else '/' :: ['/'].intercalate ps := by
  have hall : ∀ c ∈ p, (c != '/') = true := by
    intro c hc
    simpa using fun h : c = '/' => hp (h ▸ hc)
  by_cases hne : ps = []
  · subst hne
    rw [List.intercalate_singleton, if_pos rfl, List.dropWhile_eq_nil_iff]
    exact hall
  · rw [intercalate_cons_of_ne_nil hne, if_neg hne, List.dropWhile_append_of_pos hall]
    rfl

theorem afterComponents_intercalate {ps : List (List Char)} (h : ∀ p ∈ ps, '/' ∉ p) (n : Nat) :
    afterComponents n (['/'].intercalate ps) = ['/'].intercalate (afterPieces n ps) := by
  induction n generalizing ps with
  | zero => rfl
  | succ n ih =>
    cases ps with
    | nil =>
      have hnil := ih (List.forall_mem_nil fun p => '/' ∉ p)
      cases n with
      | zero => rfl
      | succ n => exact hnil
    | cons p ps =>
      have hps : ∀ q ∈ ps.dropWhile isIdle, '/' ∉ q :=
        fun q hq => h q (List.mem_cons_of_mem _ (List.dropWhile_subset _ hq))
      rw [afterComponents, afterPieces, ← ih hps,
        dropWhile_intercalate_cons (h p List.mem_cons_self)]
      congr 1
      by_cases hne : ps = []
      · subst hne
        cases (['/'].intercalate [p]).length <;> rfl
      · rw [if_neg hne, intercalate_cons_of_ne_nil hne, List.length_append, List.length_cons]
        rw [← dropIdle_intercalate (fun q hq => h q (List.mem_cons_of_mem _ hq))
          (Nat.le_add_left _ p.length)]
        rfl

/-- Behind all components that some pieces have, the pieces after them are left. -/
theorem afterPieces_append {ys ns : List (List Char)} (hns : ∀ q ∈ ns.head?, isIdle q = false) :
    afterPieces (ys.filterMap (component? false)).length ((ys ++ ns).dropWhile isIdle) = ns := by
  induction ys with
  | nil =>
    cases ns with
    | nil => rfl
    | cons q ns => rw [List.nil_append, List.dropWhile_cons_of_neg (by simp [hns q rfl])]; rfl
  | cons y ys ih =>
    by_cases hy : isIdle y = true
    · have hnone : component? false y = none := by
        rcases isIdle_iff.1 hy with rfl | rfl <;> rfl
      rw [List.cons_append, List.dropWhile_cons_of_pos hy, List.filterMap_cons_none hnone]
      exact ih
    · obtain ⟨c, hc⟩ : ∃ c, component? false y = some c := by
        rw [isIdle_iff, not_or] at hy
        unfold component?
        rw [if_neg hy.1, if_neg hy.2]
        split <;> exact ⟨_, rfl⟩
      rw [List.cons_append, List.dropWhile_cons_of_neg hy, List.filterMap_cons_some hc,
        List.length_cons]
      exact ih

/-- **What is below a path are the names put there**, however the path is spelled. -/
theorem below?_joinNames {base : List Char} (hb : base ≠ []) {names : List String}
    (hn : ∀ n ∈ names, ProperName n) :
    below? base (joinNames base names) = some (ofNames names) := by
  obtain ⟨y, ys, hpath, hbase⟩ := pieces_joinNames hb hn
  have htext : joinNames base names = ['/'].intercalate (y :: (ys ++ names.map String.toList)) := by
    rw [← hpath, List.intercalate_splitOn]
  have hslash : ∀ q ∈ y :: (ys ++ names.map String.toList), '/' ∉ q := by
    rw [← hpath]
    exact fun q => Text.not_mem_of_mem_splitOn
  have hleft : afterPieces (ys.filterMap (component? false)).length
      ((ys ++ names.map String.toList).dropWhile isIdle) = names.map String.toList := by
    refine afterPieces_append fun q hq => ?_
    obtain ⟨n, hm, rfl⟩ := List.mem_map.1 (List.mem_of_head? hq)
    simp [isIdle, (hn n hm).ne_nil, (hn n hm).ne_here]
  have hprefix : (components base).isPrefixOf (components (joinNames base names)) = true := by
    rw [List.isPrefixOf_iff_prefix, components_joinNames hb hn]
    exact List.prefix_append _ _
  have hfirst := isAbsolute_iff (joinNames_ne_nil hb hn) hpath
  rw [isAbsolute_joinNames hb hn] at hfirst
  unfold below?
  rw [if_pos hprefix, hbase]
  by_cases habs : isAbsolute base = true
  · obtain rfl := hfirst.1 habs
    have hrest : dropIdle (joinNames base names).length (joinNames base names) =
        ['/'].intercalate ((ys ++ names.map String.toList).dropWhile isIdle) := by
      rw [htext, dropIdle_intercalate hslash (Nat.le_refl _)]
      rfl
    have hslash' : ∀ q ∈ (ys ++ names.map String.toList).dropWhile isIdle, '/' ∉ q :=
      fun q hq => hslash q (List.mem_cons_of_mem _ (List.dropWhile_subset _ hq))
    simp only [habs, ↓reduceIte, List.cons_append, List.nil_append, reduceCtorEq, hrest,
      afterComponents_intercalate hslash', hleft]
    rw [← ofNames, dropIdleEnd_ofNames hn]
  · -- the first piece of a relative path counts, even if it is a point
    obtain ⟨c, hc, hroot⟩ : ∃ c, component? true y = some c ∧ c ≠ .root := by
      have hy : y ≠ [] := fun h => habs (hfirst.2 h)
      unfold component?
      rw [if_neg hy]
      split
      · exact ⟨_, rfl, by simp⟩
      · split <;> exact ⟨_, rfl, by simp⟩
    have hrest : afterComponents (ys.filterMap (component? false)).length.succ
        (joinNames base names) = ofNames names := by
      rw [htext, afterComponents_intercalate hslash, afterPieces, hleft, ofNames]
    rw [if_neg habs, hc]
    cases c with
    | root => exact absurd rfl hroot
    | here => simp [hrest, dropIdleEnd_ofNames hn]
    | up => simp [hrest, dropIdleEnd_ofNames hn]
    | name t => simp [hrest, dropIdleEnd_ofNames hn]

theorem startsWith_of_below? {base path p : List Char} (h : below? base path = some p) :
    startsWith base path = true := by
  by_contra hs
  have hnone : below? base path = none := if_neg hs
  rw [hnone] at h
  cases h

end Path

namespace World

theorem joinNames_pathOf {a b : List String} (ha : ∀ n ∈ a, ProperName n)
    (hb : ∀ n ∈ b, ProperName n) :
    Path.joinNames (pathOf a).toList b = (pathOf (a ++ b)).toList := by
  by_cases hne : b = []
  · subst hne
    simp
  · rw [Path.joinNames, if_neg hne,
      Path.join_eq (by simp [toList_pathOf]) (Path.isAbsolute_ofNames hb), Path.asDirectory]
    by_cases hnil : a = []
    · subst hnil
      rw [if_pos (by decide), toList_pathOf, toList_pathOf]
      simp
    · rw [if_neg (getLast?_pathOf ha hnil), toList_pathOf, toList_pathOf,
        Path.ofNames_append hnil hne]
      simp

/-- **The part of a canonical path below another one.** -/
theorem below?_pathOf_iff {a b : List String} (ha : ∀ n ∈ a, ProperName n)
    (hb : ∀ n ∈ b, ProperName n) {p : List Char} :
    Path.below? (pathOf a).toList (pathOf b).toList = some p ↔
      ∃ names, b = a ++ names ∧ p = Path.ofNames names := by
  have hbelow : ∀ t, (∀ n ∈ t, ProperName n) →
      Path.below? (pathOf a).toList (pathOf (a ++ t)).toList = some (Path.ofNames t) := by
    intro t ht
    rw [← joinNames_pathOf ha ht]
    exact Path.below?_joinNames (by simp [toList_pathOf]) ht
  constructor
  · intro h
    obtain ⟨t, rfl⟩ :=
      (startsWith_pathOf ha (components_pathOf hb)).1 (Path.startsWith_of_below? h)
    rw [hbelow t fun n hm => hb n (List.mem_append_right a hm)] at h
    exact ⟨t, rfl, (Option.some.inj h).symm⟩
  · rintro ⟨t, rfl, rfl⟩
    exact hbelow t fun n hm => hb n (List.mem_append_right a hm)

end World

end DocScope
