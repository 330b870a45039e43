import DocScope.Proofs.Grammar.Values
import DocScope.Tree.Functions

/-!
# Which comments document a function

A function may be the value of a declarator, through any number of parentheses
(`Place.Initializes`). The comments of a function stand before its anchor (`Place.AnchorOf`): the
whole declaration for its first declarator, a later declarator itself, and any other function where
it stands; declarations and other functions together with an `export` around them.

* `context_bound_iff`, `anchorOf_iff`: the anchor that is looked for is the only one;
* `exists_endsWith`: the comments before a place, as the end of its elder siblings;
* `IsValueOf.initializes`: where no declaration stands as a value (`Tree.ProperValues`), only
  function expressions and arrow functions are values;
* `functionNode?_leadingComments`: so much for the comments of every function.
-/

namespace DocScope

namespace Place

/-! ## Values of declarators -/

/-- `q` is `p` or the outermost of some parentheses directly around it. -/
inductive Around : Place → Place → Prop
  | refl (p : Place) : Around p p
  | step {p q r : Place} (hq : p.parent? = some q) (hk : q.focus.kind = .parenthesized)
      (h : Around q r) : Around p r

/-- What stands at `p`, perhaps in parentheses, is the value of the declarator `d` of an
identifier. -/
structure IsValueOf (p d : Place) : Prop where
  value : ∃ v, Around p v ∧ v.parent? = some d ∧ v.isChild .value = true
  kind : d.focus.kind = .declarator
  name : ∃ n, d.focus.childWithRole? .name = some n ∧ n.kind = .identifier

/-- The function expression or arrow function at `p` is the value of the declarator `d`. -/
structure Initializes (p d : Place) : Prop extends IsValueOf p d where
  function : p.focus.kind = .functionExpression ∨ p.focus.kind = .arrowFunction

theorem around_outsideParentheses (p : Place) :
    Around p (outsideParentheses p.focus p.above) := by
  obtain ⟨focus, above⟩ := p
  induction above generalizing focus with
  | nil => exact .refl _
  | cons f fs ih =>
    rw [outsideParentheses]
    split
    · next hk => exact .step rfl hk (ih (f.fill focus))
    · exact .refl _

theorem outsideParentheses_of_around {p v : Place} (h : Around p v)
    (hv : ∀ q, v.parent? = some q → q.focus.kind ≠ .parenthesized) :
    outsideParentheses p.focus p.above = v := by
  induction h with
  | refl p =>
    obtain ⟨focus, above⟩ := p
    cases above with
    | nil => rfl
    | cons f fs => exact if_neg (hv _ rfl)
  | @step p q r hq hk h ih =>
    obtain ⟨focus, above⟩ := p
    cases above with
    | nil => cases hq
    | cons f fs =>
      cases hq
      exact (if_pos hk).trans (ih hv)

theorem IsValueOf.outside {p d : Place} (h : IsValueOf p d) :
    (outsideParentheses p.focus p.above).parent? = some d ∧
      (outsideParentheses p.focus p.above).isChild .value = true := by
  obtain ⟨v, hv, hd, hvalue⟩ := h.value
  rw [outsideParentheses_of_around hv]
  · exact ⟨hd, hvalue⟩
  · intro q hq
    cases hd.symm.trans hq
    rw [h.kind]
    decide

/-- A value is bound to the name of its declarator. -/
theorem bindingContext_bound_iff {source : List UInt8} {p : Place} :
    (∃ name, p.bindingContext source = .bound name) ↔ ∃ d, p.IsValueOf d := by
  constructor
  · rintro ⟨name, h⟩
    simp only [bindingContext] at h
    split at h
    · cases h
    · next d hd =>
      split at h
      · next hk =>
        split at h
        · next n hname =>
          split at h
          · next hvalue =>
            obtain ⟨hvalue, hident⟩ := Bool.and_eq_true_iff.1 hvalue
            have hn : n.kind = .identifier := by simpa using hident
            exact ⟨d, ⟨_, around_outsideParentheses p, hd, hvalue⟩, hk, n, hname, hn⟩
          · cases h
        · cases h
      · cases h
      · cases h
  · rintro ⟨d, h⟩
    obtain ⟨hd, hvalue⟩ := h.outside
    obtain ⟨n, hn, hident⟩ := h.name
    exact ⟨n.text source, by simp [bindingContext, hd, h.kind, hn, hvalue, hident]⟩

/-- The value of a declarator is no child of an export. -/
theorem IsValueOf.not_isDefaultExport {p d : Place} (h : IsValueOf p d) :
    p.isDefaultExport = false := by
  obtain ⟨v, hv, hd, -⟩ := h.value
  unfold isDefaultExport
  cases hv with
  | refl => simp [hd, h.kind]
  | step hq hk _ => simp [hq, hk]

/-! ## The anchor -/

/-- `q` is the export statement around `p`, or `p` where its parent is none. -/
inductive Exported (p : Place) : Place → Prop
  | statement {q : Place} (hq : p.parent? = some q) (hk : q.focus.kind = .exportStatement) :
      Exported p q
  | itself (h : ∀ q, p.parent? = some q → q.focus.kind ≠ .exportStatement) : Exported p p

/-- The comments of the function at `p` stand before the anchor. -/
inductive AnchorOf (p : Place) : Place → Prop
  | first {d declaration a : Place} (hd : p.Initializes d) (hparent : d.parent? = some declaration)
      (hfirst : ∀ c ∈ d.before, c.kind ≠ .declarator) (ha : declaration.Exported a) : AnchorOf p a
  | later {d : Place} (hd : p.Initializes d) (hlater : ∃ c ∈ d.before, c.kind = .declarator) :
      AnchorOf p d
  | alone {d : Place} (hd : p.Initializes d) (hroot : d.parent? = none) : AnchorOf p d
  | other {a : Place} (h : ∀ d, ¬ p.Initializes d) (ha : p.Exported a) : AnchorOf p a

theorem exported_iff {p q : Place} : p.Exported q ↔ q = p.exported := by
  unfold exported
  constructor
  · intro h
    cases h with
    | statement hq hk => simp [hq, hk]
    | itself h =>
      split
      · next q hq => rw [if_neg (h q hq)]
      · rfl
  · rintro rfl
    split
    · next q hq =>
      split
      · next hk => exact .statement hq hk
      · next hk =>
        refine .itself fun r hr => ?_
        cases hq.symm.trans hr
        exact hk
    · next hnone => exact .itself fun r hr => by rw [hnone] at hr; cases hr

theorem isFirstDeclarator_iff {p : Place} :
    p.isFirstDeclarator = true ↔ ∀ c ∈ p.before, c.kind ≠ .declarator := by
  simp [isFirstDeclarator]

section
variable {source : List UInt8} {p : Place} {form : FunctionForm}
  (hform : p.functionForm? source = some form)
include hform

theorem kind_of_functionForm? :
    p.focus.kind.isDeclaration = true ∨ p.focus.kind = .functionExpression ∨
      p.focus.kind = .arrowFunction := by
  unfold functionForm? at hform
  split at hform
  · next hk => exact .inl (by rw [hk]; rfl)
  · next hk => exact .inl (by rw [hk]; rfl)
  · next hk => exact .inr (.inl hk)
  · next hk => exact .inr (.inr hk)
  · cases hform

theorem context_bound_iff :
    (∃ name, form.context? = some (.bound name)) ↔ ∃ d, p.Initializes d := by
  unfold functionForm? at hform
  have hdeclaration : p.focus.kind.isDeclaration = true → ∀ d, ¬ p.Initializes d := by
    intro hk d hd
    rcases hd.function with h | h <;> rw [h] at hk <;> cases hk
  have hvalue : p.focus.kind = .functionExpression ∨ p.focus.kind = .arrowFunction →
      ((∃ name, p.bindingContext source = .bound name) ↔ ∃ d, p.Initializes d) := by
    intro hk
    rw [bindingContext_bound_iff]
    exact exists_congr fun d => ⟨fun h => ⟨h, hk⟩, fun h => h.toIsValueOf⟩
  split at hform
  · next hk =>
    cases hform
    simp [FunctionForm.context?, hdeclaration (by rw [hk]; rfl)]
  · next hk =>
    cases hform
    simp [FunctionForm.context?, hdeclaration (by rw [hk]; rfl)]
  · next hk =>
    split at hform
    · next hdefault =>
      cases hform
      have hnone : ∀ d, ¬ p.Initializes d := by
        intro d hd
        rw [hd.not_isDefaultExport] at hdefault
        cases hdefault
      simp [FunctionForm.context?, hnone]
    · cases hform
      simpa [FunctionForm.context?] using hvalue (.inl hk)
  · next hk =>
    cases hform
    simpa [FunctionForm.context?] using hvalue (.inr hk)
  · cases hform

theorem outer_of_initializes {d : Place} (hd : p.Initializes d) : p.outer form = d := by
  obtain ⟨name, hname⟩ := (context_bound_iff hform).2 ⟨d, hd⟩
  simp [outer, hname, hd.outside.1]

theorem outer_of_not_initializes (h : ∀ d, ¬ p.Initializes d) : p.outer form = p := by
  unfold outer
  split
  · next name hname =>
    obtain ⟨d, hd⟩ := (context_bound_iff hform).1 ⟨name, hname⟩
    exact absurd hd (h d)
  · rfl

/-- **The anchor that is looked for is the only one.** -/
theorem anchorOf_iff {a : Place} : p.AnchorOf a ↔ a = (p.outer form).anchor := by
  have hfunction : p.focus.kind ≠ .declarator := by
    intro hk
    rcases kind_of_functionForm? hform with hp | hp | hp <;> rw [hk] at hp <;> cases hp
  constructor
  · intro h
    cases h with
    | first hd hparent hfirst ha =>
      rw [outer_of_initializes hform hd, anchor, if_pos hd.kind]
      simp only [hparent]
      rw [if_pos (isFirstDeclarator_iff.2 hfirst)]
      exact exported_iff.1 ha
    | later hd hlater =>
      rw [outer_of_initializes hform hd, anchor, if_pos hd.kind]
      split
      · rw [if_neg]
        obtain ⟨c, hc, hk⟩ := hlater
        exact fun hfirst => isFirstDeclarator_iff.1 hfirst c hc hk
      · rfl
    | alone hd hroot =>
      rw [outer_of_initializes hform hd, anchor, if_pos hd.kind]
      simp only [hroot]
    | other h ha =>
      rw [outer_of_not_initializes hform h, anchor, if_neg hfunction]
      exact exported_iff.1 ha
  · rintro rfl
    by_cases h : ∃ d, p.Initializes d
    · obtain ⟨d, hd⟩ := h
      rw [outer_of_initializes hform hd, anchor, if_pos hd.kind]
      split
      · next declaration hparent =>
        split
        · next hfirst =>
          exact .first hd hparent (isFirstDeclarator_iff.1 hfirst) (exported_iff.2 rfl)
        · next hlater =>
          refine .later hd ?_
          simpa [isFirstDeclarator_iff] using hlater
      · next hroot => exact .alone hd hroot
    · rw [not_exists] at h
      refine .other h ?_
      rw [outer_of_not_initializes hform h, anchor, if_neg hfunction, exported_iff]

end

/-! ## The comments before a place -/

/-- The elder siblings of `p` end with the comments `run`, and before these stands none. -/
structure EndsWith (p : Place) (rest run : List Tree) : Prop where
  siblings : p.before.reverse = rest ++ run
  comments : ∀ c ∈ run, c.kind = .comment
  longest : ∀ c ∈ rest.getLast?, c.kind ≠ .comment

theorem exists_endsWith (source : List UInt8) (p : Place) :
    ∃ rest run, p.EndsWith rest run ∧
      p.leadingComments source =
        run.filterMap fun c => Comment.parse? (c.text source) (c.line source) := by
  refine ⟨(p.before.dropWhile (·.kind == .comment)).reverse,
    (p.before.takeWhile (·.kind == .comment)).reverse, ⟨?_, ?_, ?_⟩, ?_⟩
  · rw [← List.reverse_append, List.takeWhile_append_dropWhile]
  · intro c hc
    simpa using List.mem_takeWhile_imp (List.mem_reverse.1 hc)
  · intro c hc
    rw [List.getLast?_reverse] at hc
    have hne := List.head?_dropWhile_not (·.kind == .comment) p.before
    rw [Option.mem_def.1 hc] at hne
    simpa using hne
  · rw [leadingComments, List.filterMap_reverse]

theorem parent?_children {p q : Place} (h : p.parent? = some q) :
    ∃ after, q.focus.children = p.before.reverse ++ p.focus :: after := by
  obtain ⟨focus, above⟩ := p
  cases above with
  | nil => cases h
  | cons f fs =>
    cases h
    exact ⟨f.after, rfl⟩

end Place

/-! ## Places in the tree of a source -/

mutual

/-- The parent of a place in a tree with proper values. -/
theorem Tree.ProperValues.parent {p : Place} : ∀ {t : Tree} {above : List Frame},
    t.ProperValues → p ∈ t.places above →
      p = ⟨t, above⟩ ∨ ∃ q, p.parent? = some q ∧ q.focus.ProperValues
  | .node k r s e cs, above, ht, hp => by
    rw [Tree.places] at hp
    rcases List.mem_cons.1 hp with rfl | hp
    · exact .inl rfl
    · exact .inr (Tree.ProperValues.parentOfChild cs [] ht hp)

theorem Tree.ProperValues.parentOfChild {p : Place} {above : List Frame} {k : Kind}
    {r : Option Role} {s e : Nat} : ∀ cs before : List Tree,
    (Tree.node k r s e (before.reverse ++ cs)).ProperValues →
      p ∈ Tree.placesOfChildren above k r s e before cs →
      ∃ q, p.parent? = some q ∧ q.focus.ProperValues
  | [], before, _, hp => by
    rw [Tree.placesOfChildren] at hp
    cases hp
  | c :: cs, before, ht, hp => by
    rw [Tree.placesOfChildren] at hp
    rcases List.mem_append.1 hp with hp | hp
    · have hc : c.ProperValues := by
        cases ht with
        | node each _ => exact each c (by simp)
      rcases Tree.ProperValues.parent hc hp with rfl | hq
      · exact ⟨_, rfl, ht⟩
      · exact hq
    · exact Tree.ProperValues.parentOfChild cs (c :: before) (by simpa using ht) hp

end

namespace Place

theorem IsValueOf.parent {p d : Place} (h : IsValueOf p d) :
    ∃ q, p.parent? = some q ∧ q.focus.kind.holdsValue = true := by
  obtain ⟨v, hv, hd, -⟩ := h.value
  cases hv with
  | refl => exact ⟨d, hd, by rw [h.kind]; rfl⟩
  | step hq hk _ => exact ⟨_, hq, by rw [hk]; rfl⟩

/-- Only function expressions and arrow functions are values. -/
theorem IsValueOf.initializes {t : Tree} (ht : t.ProperValues) {p d : Place} (hp : p ∈ t.places [])
    {source : List UInt8} {form : FunctionForm} (hform : p.functionForm? source = some form)
    (h : p.IsValueOf d) : p.Initializes d := by
  rcases kind_of_functionForm? hform with hk | hk
  · exfalso
    obtain ⟨q, hq, hvalue⟩ := h.parent
    rcases ht.parent hp with rfl | ⟨q', hq', hproper⟩
    · cases hq
    · cases hq.symm.trans hq'
      obtain ⟨after, hchildren⟩ := parent?_children hq
      obtain ⟨focus, above⟩ := q
      cases hproper with
      | node _ values =>
        have hnot := values hvalue p.focus (by rw [Tree.children] at hchildren; simp [hchildren])
        rw [hk] at hnot
        cases hnot
  · exact ⟨h, hk⟩

/-- **The comments that document a function** are the run of comments directly before its anchor, of
which there is just one. Those of a later declarator stand in the declaration, behind an earlier
one. Where only function expressions and arrow functions are values, whatever is the value of a
declarator initializes it. -/
theorem functionNode?_leadingComments {source : List UInt8} {p : Place} {f : FunctionNode}
    (hf : p.functionNode? source = some f) :
    (∃ a rest run, (∀ b, p.AnchorOf b ↔ b = a) ∧ a.EndsWith rest run ∧
      f.leadingComments =
        (run.filterMap fun c => Comment.parse? (c.text source) (c.line source)) ∧
      ∀ d declaration, p.Initializes d → d.parent? = some declaration →
        (∃ c ∈ d.before, c.kind = .declarator) →
        (∃ c ∈ rest, c.kind = .declarator) ∧
          ∃ after, declaration.focus.children = rest ++ run ++ d.focus :: after) ∧
    ∀ t : Tree, t.ProperValues → p ∈ t.places [] → ∀ d, p.IsValueOf d → p.Initializes d := by
  obtain ⟨form, hform, rfl⟩ := Option.map_eq_some_iff.1 hf
  refine ⟨?_, fun t ht hp d h => h.initializes ht hp hform⟩
  obtain ⟨rest, run, hends, hcomments⟩ := exists_endsWith source (p.outer form).anchor
  refine ⟨_, rest, run, fun b => anchorOf_iff hform, hends, hcomments, ?_⟩
  intro d declaration hd hparent hlater
  have hanchor : d = (p.outer form).anchor := (anchorOf_iff hform).1 (.later hd hlater)
  rw [← hanchor] at hends
  refine ⟨?_, ?_⟩
  · obtain ⟨c, hc, hk⟩ := hlater
    have hmem : c ∈ rest ++ run := hends.siblings ▸ List.mem_reverse.2 hc
    rcases List.mem_append.1 hmem with hrest | hrun
    · exact ⟨c, hrest, hk⟩
    · rw [hends.comments c hrun] at hk
      cases hk
  · rw [← hends.siblings]
    exact parent?_children hparent

/-- The function of a second declarator, in parentheses: the comment before the declaration is not
its own. -/
theorem functionNode?_leadingComments_second :
    let source := Text.Utf8.bytesOf "/** f */ let f, /** g */ g = (() => 2)"
    let leaf (k : Kind) (a b : Nat) : Tree := .node k none a b []
    let name (a b : Nat) : Tree := .node .identifier (some .name) a b []
    let d : Place := ⟨.node .declarator none 25 38 [name 25 26, leaf (.token "=") 27 28,
        .node .parenthesized (some .value) 29 38 [leaf (.token "(") 29 30,
          leaf .arrowFunction 30 37, leaf (.token ")") 37 38]],
      [⟨.phrase "declaration", none, 9, 38, [leaf .comment 16 24, leaf (.token ",") 14 15,
          .node .declarator none 13 14 [name 13 14], leaf (.token "let") 9 12], []⟩,
        ⟨.phrase "program", none, 0, 38, [leaf .comment 0 8], []⟩]⟩
    let p : Place := ⟨leaf .arrowFunction 30 37,
      ⟨.parenthesized, some .value, 29, 38, [leaf (.token "(") 29 30], [leaf (.token ")") 37 38]⟩ ::
        ⟨.declarator, none, 25, 38, [leaf (.token "=") 27 28, name 25 26], []⟩ :: d.above⟩
    ∃ f rest run, p.functionNode? source = some f ∧ p.AnchorOf d ∧ d.EndsWith rest run ∧
      f.leadingComments = (run.filterMap fun c => Comment.parse? (c.text source) (c.line source)) ∧
      f.leadingComments = [⟨.block, "* g ", 1⟩] := by
  intro source leaf name d p
  have hd : p.Initializes d :=
    ⟨⟨⟨_, .step rfl rfl (.refl _), rfl, rfl⟩, rfl, _, rfl, rfl⟩, .inr rfl⟩
  have hanchor : p.AnchorOf d :=
    .later hd ⟨.node .declarator none 13 14 [name 13 14], by simp [d, before], rfl⟩
  have hf : (p.functionNode? source).map (·.leadingComments) = some [⟨.block, "* g ", 1⟩] := by
    decide +kernel
  obtain ⟨f, hf, hcomments⟩ := Option.map_eq_some_iff.1 hf
  obtain ⟨⟨a, rest, run, ha, hends, hrun, -⟩, -⟩ := functionNode?_leadingComments hf
  obtain rfl := (ha d).1 hanchor
  exact ⟨f, rest, run, hf, hanchor, hends, hrun, hcomments⟩

end Place

end DocScope
