import DocScope.Grammar.Script
import DocScope.Proofs.Grammar.Reads
import Mathlib.Data.List.TakeWhile

/-!
# Declarations are no values

Parentheses and declarators hold values, and no function declaration stands directly in them
(`Tree.ProperValues`). This is a fact about the rules alone:

* `Expr.plain`, `Expr.sound`: what can be seen from an expression, the trees that it reads and those
  below them;
* `Expr.Reads.proper`: what is seen holds of everything that is read;
* `sound_script`, `plain_script`: the rules of the script grammar;
* `parse?_properValues`: so it holds of the tree of every source.
-/

namespace DocScope

/-- The kinds of the statements that declare a function. -/
def Kind.isDeclaration : Kind → Bool
  | .functionDeclaration => true
  | .generatorDeclaration => true
  | _ => false

/-- The kinds of the phrases around a value. -/
def Kind.holdsValue : Kind → Bool
  | .parenthesized => true
  | .declarator => true
  | _ => false

/-- No function declaration stands directly in parentheses or in a declarator. -/
inductive Tree.ProperValues : Tree → Prop
  | node {k : Kind} {r : Option Role} {s e : Nat} {cs : List Tree}
      (each : ∀ c ∈ cs, ProperValues c)
      (values : k.holdsValue = true → ∀ c ∈ cs, c.kind.isDeclaration = false) :
      ProperValues (.node k r s e cs)

namespace Grammar

/-- Trees with proper values; under `plain` none of them is a declaration. -/
def Proper (plain : Prop) (ts : List Tree) : Prop :=
  ∀ t ∈ ts, t.ProperValues ∧ (plain → t.kind.isDeclaration = false)

section
variable {plain : Prop} {ts us : List Tree}

theorem Proper.nil : Proper plain [] := fun _ h => absurd h List.not_mem_nil

theorem Proper.append (hts : Proper plain ts) (hus : Proper plain us) :
    Proper plain (ts ++ us) := by
  intro t ht
  rcases List.mem_append.1 ht with ht | ht
  · exact hts t ht
  · exact hus t ht

theorem Proper.subset (hts : Proper plain ts) (h : us ⊆ ts) : Proper plain us :=
  fun t ht => hts t (h ht)

theorem Proper.imp {other : Prop} (hts : Proper plain ts) (h : other → plain) : Proper other ts :=
  fun t ht => ⟨(hts t ht).1, fun ho => (hts t ht).2 (h ho)⟩

/-- A phrase of proper trees; around a value they must not be declarations. -/
theorem Proper.wrap {k : Kind} (hts : Proper (k.holdsValue = true) ts)
    (hk : plain → k.isDeclaration = false) : Proper plain (wrap k ts) := by
  refine .append (fun t ht => ?_) (fun t ht => ?_)
  · have hcomment : t.kind = .comment := by simpa [isComment] using List.mem_takeWhile_imp ht
    exact ⟨(hts t (List.takeWhile_subset _ ht)).1, fun _ => by rw [hcomment]; rfl⟩
  · rw [List.mem_singleton.1 ht]
    have hsub : (ts.dropWhile isComment).filter (·.kind != .hidden) ⊆ ts :=
      fun c hc => List.dropWhile_subset _ (List.mem_filter.1 hc).1
    exact ⟨.node (fun c hc => (hts c (hsub hc)).1) (fun hv c hc => (hts c (hsub hc)).2 hv), hk⟩

theorem Proper.assign (hts : Proper plain ts) (r : Role) : Proper plain (assign r ts) := by
  refine .append (hts.subset (List.takeWhile_subset _)) ?_
  cases hrest : ts.dropWhile isComment with
  | nil => exact .nil
  | cons t rest =>
    have hsub : t :: rest ⊆ ts := hrest ▸ List.dropWhile_subset _
    refine List.forall_mem_cons.2 ⟨?_, hts.subset fun c hc => hsub (List.mem_cons_of_mem _ hc)⟩
    obtain ⟨hvalues, hplain⟩ := hts t (hsub List.mem_cons_self)
    cases hvalues with
    | node each values => exact ⟨.node each values, hplain⟩

end

namespace Expr

/-! ## What can be seen from an expression -/

variable {ρ τ σ : Type} (bare : ρ → Bool)

/-- Whether no declaration is read, if none is by the rules of `bare`. -/
def plain : Expr ρ τ → Bool
  | .empty => true
  | .token _ => true
  | .rule r => bare r
  | .seq a b => a.plain && b.plain
  | .alt a b => a.plain && b.plain
  | .many a => a.plain
  | .node k _ => !k.isDeclaration
  | .field _ a => a.plain
  | .chain first step => first.plain && step.plain
  | .grow step => step.plain
  | .extend k _ => !k.isDeclaration
  | .ahead _ _ => true

/-- Whether no declaration is read directly into parentheses or a declarator. -/
def sound : Expr ρ τ → Bool
  | .empty => true
  | .token _ => true
  | .rule _ => true
  | .seq a b => a.sound && b.sound
  | .alt a b => a.sound && b.sound
  | .many a => a.sound
  | .node k a => (!k.holdsValue || a.plain bare) && a.sound
  | .field _ a => a.sound
  | .chain first step => first.sound && step.sound
  | .grow step => step.sound
  | .extend k a => !k.holdsValue && a.sound
  | .ahead _ _ => true

/-- **What is seen from an expression holds of the trees that are read.** -/
theorem Reads.proper {bare : ρ → Bool} {grammar : ρ → Expr ρ τ}
    {lex : τ → σ → Option (List Tree × σ)} {Ok : σ → Prop}
    (hlex : ∀ t s ts s', Ok s → lex t s = some (ts, s') → Ok s' ∧ Proper True ts)
    (hsound : ∀ r, (grammar r).sound bare = true)
    (hplain : ∀ r, bare r = true → (grammar r).plain bare = true)
    {e : Expr ρ τ} {left ts : List Tree} {s s' : σ} (h : Reads grammar lex e left s ts s')
    (he : e.sound bare = true) (hs : Ok s) {want : Prop} (hwant : want → e.plain bare = true)
    (hleft : Proper want left) : Ok s' ∧ Proper want ts := by
  induction h generalizing want with
  | empty => exact ⟨hs, .nil⟩
  | token h =>
    obtain ⟨hs', hts⟩ := hlex _ _ _ _ hs h
    exact ⟨hs', hts.imp fun _ => trivial⟩
  | rule h ih => exact ih (hsound _) hs (fun hw => hplain _ (hwant hw)) .nil
  | seq ha hb iha ihb =>
    simp only [sound, plain, Bool.and_eq_true] at he hwant
    obtain ⟨hs₁, hts⟩ := iha he.1 hs (fun hw => (hwant hw).1) .nil
    obtain ⟨hs', hus⟩ := ihb he.2 hs₁ (fun hw => (hwant hw).2) .nil
    exact ⟨hs', hts.append hus⟩
  | altLeft h ih =>
    simp only [sound, plain, Bool.and_eq_true] at he hwant
    exact ih he.1 hs (fun hw => (hwant hw).1) hleft
  | altRight h ih =>
    simp only [sound, plain, Bool.and_eq_true] at he hwant
    exact ih he.2 hs (fun hw => (hwant hw).2) hleft
  | manyNone => exact ⟨hs, .nil⟩
  | manyMore ha hmore iha ihmore =>
    obtain ⟨hs₁, hts⟩ := iha he hs hwant .nil
    obtain ⟨hs', hus⟩ := ihmore he hs₁ hwant .nil
    exact ⟨hs', hts.append hus⟩
  | @node k a _ _ _ _ h ih =>
    simp only [sound, Bool.and_eq_true, Bool.or_eq_true, Bool.not_eq_true'] at he
    -- what is read into parentheses or a declarator is plain
    have hvalue : k.holdsValue = true → a.plain bare = true := by
      intro hk
      rcases he.1 with hk' | ha
      · rw [hk] at hk'
        cases hk'
      · exact ha
    obtain ⟨hs', hts⟩ := ih he.2 hs hvalue .nil
    exact ⟨hs', hts.wrap fun hw => by simpa [plain] using hwant hw⟩
  | field h ih =>
    obtain ⟨hs', hts⟩ := ih he hs hwant .nil
    exact ⟨hs', hts.assign _⟩
  | chain hfirst hgrow ihfirst ihgrow =>
    simp only [sound, plain, Bool.and_eq_true] at he hwant
    obtain ⟨hs₁, hts⟩ := ihfirst he.1 hs (fun hw => (hwant hw).1) .nil
    exact ihgrow he.2 hs₁ (fun hw => (hwant hw).2) hts
  | growNone => exact ⟨hs, hleft⟩
  | growMore hstep hgrow ihstep ihgrow =>
    obtain ⟨hs₁, hts⟩ := ihstep he hs hwant hleft
    exact ihgrow he hs₁ hwant hts
  | @extend k a _ _ _ _ h ih =>
    simp only [sound, Bool.and_eq_true, Bool.not_eq_true'] at he
    have hvalue : ¬ k.holdsValue = true := by simp [he.1]
    obtain ⟨hs', hts⟩ := ih he.2 hs (fun hk => absurd hk hvalue) .nil
    refine ⟨hs', .wrap ?_ fun hw => by simpa [plain] using hwant hw⟩
    exact (hleft.imp fun hk => absurd hk hvalue).append hts
  | ahead => exact ⟨hs, .nil⟩

end Expr

/-! ## The script grammar -/

/-- The rules by which no function declaration is read, except below a phrase. -/
def Rule.isBare : Rule → Bool
  | .program => false
  | .statement => false
  | .declaration _ => false
  | .functionDeclaration _ => false
  | _ => true

namespace Form

theorem bare_oneOf {es : List Form}
    (h : ∀ e ∈ es, e.plain Rule.isBare = true ∧ e.sound Rule.isBare = true) :
    (oneOf es).plain Rule.isBare = true ∧ (oneOf es).sound Rule.isBare = true := by
  fun_induction oneOf es with
  | case1 => exact ⟨rfl, rfl⟩
  | case2 e => exact h e List.mem_cons_self
  | case3 e es _ ih =>
    obtain ⟨he, hes⟩ := List.forall_mem_cons.1 h
    simp [Expr.plain, Expr.sound, he, ih hes]

theorem sound_operator (s : String) : (operator s).sound Rule.isBare = true := by
  unfold operator
  split <;> rfl

theorem bare_binary (d : Dialect) (level : Nat) :
    (binary d level).plain Rule.isBare = true ∧ (binary d level).sound Rule.isBare = true := by
  unfold binary
  split
  · exact ⟨rfl, rfl⟩
  · next ops _ =>
    simp only [Expr.plain, Expr.sound, Rule.isBare, Bool.true_and]
    refine bare_oneOf fun e he => ?_
    rcases List.mem_append.1 he with he | he
    · obtain ⟨o, -, rfl⟩ := List.mem_map.1 he
      have hsound := sound_operator o
      exact ⟨rfl, by simp [extended, sequence, Expr.sound, Kind.holdsValue, hsound]⟩
    · split at he
      · unfold typedOnly at he
        split at he
        · simp only [List.mem_cons, List.not_mem_nil, or_false] at he
          rcases he with rfl | rfl <;> exact ⟨rfl, rfl⟩
        · cases he
      · cases he

end Form

theorem plain_script (d : Dialect) (r : Rule) (hr : r.isBare = true) :
    (script d r).plain Rule.isBare = true := by
  cases r with
  | binary level => exact (Form.bare_binary d level).1
  | declaration operand => cases hr
  | functionDeclaration operand => cases hr
  | classDeclaration operand => cases d <;> cases operand <;> rfl
  | body operand => cases operand <;> rfl
  | program => cases hr
  | statement => cases hr
  | _ => cases d <;> rfl

theorem sound_script (d : Dialect) (r : Rule) : (script d r).sound Rule.isBare = true := by
  cases r with
  | binary level => exact (Form.bare_binary d level).2
  | declaration operand => cases d <;> cases operand <;> rfl
  | functionDeclaration operand => cases d <;> cases operand <;> rfl
  | classDeclaration operand => cases d <;> cases operand <;> rfl
  | body operand => cases operand <;> rfl
  | _ => cases d <;> rfl

/-! ## Tokens -/

/-- The trees before the next token are comments. -/
def Stand.Commented (s : Stand) : Prop := ∀ c ∈ s.comments, ∃ a b, c.1 = .node .comment none a b []

theorem commented_ofMark (m : Mark) : (Stand.ofMark m).Commented := by
  have hcomments : ∀ fuel m, ∀ c ∈ (commentsFrom fuel m).1,
      ∃ a b, c.1 = .node .comment none a b [] := by
    intro fuel
    induction fuel with
    | zero => simp [commentsFrom]
    | succ fuel ih =>
      intro m c hc
      simp only [commentsFrom] at hc
      split at hc
      · cases hc
      · rcases List.mem_cons.1 hc with rfl | hc
        · exact ⟨_, _, rfl⟩
        · exact ih _ c hc
  exact hcomments (m.rest.length + 1) m

/-- The comments in front of an inserted semicolon and those after it. -/
theorem subset_of_find? {typed operand : Bool} {cs left : List (Tree × Mark)} {m m' : Mark}
    {taken : List Tree} (h : Semicolon.find? typed operand m cs = some (taken, m', left)) :
    taken ⊆ cs.map Prod.fst ∧ left ⊆ cs := by
  induction cs generalizing m taken with
  | nil =>
    simp only [Semicolon.find?] at h
    split at h
    · cases h
      simp
    · cases h
  | cons c cs ih =>
    simp only [Semicolon.find?] at h
    split at h
    · cases h
      simp
    · obtain ⟨⟨taken', m'', left'⟩, hfind, heq⟩ := Option.map_eq_some_iff.1 h
      cases heq
      obtain ⟨htaken, hleft⟩ := ih hfind
      rw [List.map_cons]
      exact ⟨List.cons_subset_cons _ htaken, fun x hx => List.mem_cons_of_mem _ (hleft hx)⟩

theorem kind_not_declaration (t : Terminal) : t.kind.isDeclaration = false := by
  cases t <;> rfl

theorem proper_leaf {k : Kind} (hk : k.isDeclaration = false) (a b : Nat) :
    Proper True [.node k none a b []] := by
  intro t ht
  rw [List.mem_singleton.1 ht]
  exact ⟨.node (by simp) (by simp), fun _ => hk⟩

theorem Stand.Commented.proper {s : Stand} (hs : s.Commented) {ts : List Tree}
    (h : ts ⊆ s.comments.map Prod.fst) : Proper True ts := by
  intro t ht
  obtain ⟨c, hc, rfl⟩ := List.mem_map.1 (h ht)
  obtain ⟨a, b, hcomment⟩ := hs c hc
  rw [hcomment]
  exact proper_leaf rfl a b _ List.mem_cons_self

/-- A token is read as comments and a leaf. -/
theorem read_proper {typed : Bool} {t : Terminal} {s s' : Stand} {ts : List Tree} (hs : s.Commented)
    (h : t.read typed s = some (ts, s')) : s'.Commented ∧ Proper True ts := by
  unfold Terminal.read at h
  split at h
  · split at h
    · cases h
    · cases h
      exact ⟨hs, .nil⟩
  · obtain ⟨⟨taken, m, left⟩, hfind, heq⟩ := Option.map_eq_some_iff.1 h
    cases heq
    obtain ⟨htaken, hleft⟩ := subset_of_find? hfind
    exact ⟨fun c hc => hs c (hleft hc), (hs.proper htaken).append (proper_leaf rfl _ _)⟩
  · split at h
    · cases h
      exact ⟨hs, (hs.proper fun _ => id).append (proper_leaf rfl _ _)⟩
    · cases h
  · obtain ⟨n, -, heq⟩ := Option.map_eq_some_iff.1 h
    cases heq
    refine ⟨commented_ofMark _, .append ?_ (proper_leaf (kind_not_declaration _) _ _)⟩
    split
    · exact .nil
    · exact hs.proper fun _ => id

/-- **In the tree of a source no declaration stands where a value is due.** -/
theorem parse?_properValues {d : Dialect} {source : List UInt8} {t : Tree}
    (h : parse? d source = some t) : t.ProperValues := by
  simp only [parse?] at h
  split at h
  · next trees s hrun =>
    cases h
    obtain ⟨-, htrees⟩ := (Expr.reads_of_run hrun).proper
      (fun _ _ _ _ hs h => read_proper hs h) (sound_script d) (plain_script d) rfl
      (commented_ofMark _) (fun h : False => h.elim) .nil
    exact .node (fun c hc => (htrees c (List.mem_filter.1 hc).1).1) (fun hv => by cases hv)
  · cases h

end Grammar

end DocScope
