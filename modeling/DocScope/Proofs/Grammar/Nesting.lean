import DocScope.Grammar.Script
import DocScope.Proofs.Grammar.Reads
import DocScope.Proofs.Tree.Row
import Mathlib.Algebra.Ring.Nat
import Mathlib.Data.List.TakeWhile

/-!
# Spans nest

The tree of a source is a row from its first byte to its last (`Tree.Row`): the spans of siblings
come one after the other, within the span of their parent. A phrase takes its span from the trees
that it is made of, so there must be one that is no comment.

* `Expr.fills`, `Expr.nests`: what can be seen from an expression: that more than comments is read,
  and that no phrase is made of comments alone;
* `Expr.Reads.row`: what is then read is a row from one stand to the next;
* `nested_script`: the rules of the script grammar;
* `parse?_row`: so it holds of the tree of every source.
-/

namespace DocScope.Grammar

open DocScope.Tree (Row)

/-- Some tree is no comment. -/
def Solid (ts : List Tree) : Prop := ∃ t ∈ ts, isComment t = false

section
variable {a b : Nat} {ts us : List Tree}

theorem Solid.append_left (h : Solid ts) (us : List Tree) : Solid (ts ++ us) := by
  obtain ⟨t, ht, hc⟩ := h
  exact ⟨t, List.mem_append_left _ ht, hc⟩

theorem Solid.append_right (h : Solid us) (ts : List Tree) : Solid (ts ++ us) := by
  obtain ⟨t, ht, hc⟩ := h
  exact ⟨t, List.mem_append_right _ ht, hc⟩

/-- Trees that are not all comments: comments, then a tree that is none. -/
theorem Solid.exists_dropWhile (h : Solid ts) :
    ∃ t rest, ts.dropWhile isComment = t :: rest ∧ isComment t = false := by
  obtain ⟨u, hu, hc⟩ := h
  cases hbody : ts.dropWhile isComment with
  | nil =>
    have hall := List.dropWhile_eq_nil_iff.1 hbody u hu
    rw [hc] at hall
    cases hall
  | cons t rest =>
    have hnot := List.head?_dropWhile_not isComment ts
    rw [hbody] at hnot
    exact ⟨t, rest, rfl, hnot⟩

/-- A row from the start of its first tree to the end of its last. -/
theorem row_ends {t : Tree} (h : Row a (t :: ts) b) :
    ∃ e, (t :: ts).getLast?.map Tree.stop = some e ∧ a ≤ t.start ∧ Row t.start (t :: ts) e ∧
      e ≤ b := by
  obtain ⟨hs, inside, rest⟩ := Tree.row_cons.1 h
  have hrow : Row t.start (t :: ts) b := Tree.row_cons.2 ⟨Nat.le_refl _, inside, rest⟩
  obtain ⟨init, u, hlast⟩ := List.eq_nil_or_concat (t :: ts) |>.resolve_left (by simp)
  rw [List.concat_eq_append] at hlast
  rw [hlast] at hrow ⊢
  obtain ⟨hinit, hu, hb⟩ := Tree.row_append_cons.1 hrow
  exact ⟨u.stop, by simp, hs, Tree.row_append_cons.2 ⟨hinit, hu, .nil (Nat.le_refl _)⟩, hb.le⟩

theorem row_wrap (h : Row a ts b) (hsolid : Solid ts) (k : Kind) : Row a (wrap k ts) b := by
  obtain ⟨t, rest, hbody, -⟩ := hsolid.exists_dropWhile
  rw [← List.takeWhile_append_dropWhile (p := isComment) (l := ts), hbody] at h
  obtain ⟨m, hcomments, hrow⟩ := h.of_append
  obtain ⟨e, hlast, hm, hends, he⟩ := row_ends hrow
  simp only [wrap, hbody, hlast]
  exact hcomments.append (.cons hm (hends.sublist List.filter_sublist) (.nil he))

theorem solid_wrap {k : Kind} (hk : k ≠ .comment) (ts : List Tree) : Solid (wrap k ts) :=
  .append_right ⟨_, List.mem_singleton_self _, by simpa [isComment, Tree.kind] using hk⟩ _

theorem row_assign (h : Row a ts b) (r : Role) : Row a (assign r ts) b := by
  rw [← List.takeWhile_append_dropWhile (p := isComment) (l := ts)] at h
  obtain ⟨m, hcomments, hrow⟩ := h.of_append
  refine hcomments.append ?_
  cases hbody : ts.dropWhile isComment with
  | nil => exact .nil hrow.le
  | cons t rest =>
    rw [hbody] at hrow
    cases hrow with
    | cons hs inside rest => exact .cons hs inside rest

theorem solid_assign (h : Solid ts) (r : Role) : Solid (assign r ts) := by
  obtain ⟨t, rest, hbody, ht⟩ := h.exists_dropWhile
  refine .append_right ?_ _
  rw [hbody]
  refine ⟨t.withRole r, List.mem_cons_self, ?_⟩
  cases t
  exact ht

end

/-! ## What can be seen from an expression -/

namespace Expr

variable {ρ τ σ : Type}

section
variable (inner : ρ → Bool) (solid moves : τ → Bool)

/-- Whether more than comments is read, if it is by the rules of `inner` and the terminals of
`solid`. -/
def fills : Expr ρ τ → Bool
  | .empty => false
  | .token t => solid t
  | .rule r => inner r
  | .seq a b => a.fills || b.fills
  | .alt a b => a.fills && b.fills
  | .many _ => false
  | .node k _ => k != .comment
  | .field _ a => a.fills
  | .chain first step => first.fills && step.fills
  | .grow step => step.fills
  | .extend k _ => k != .comment
  | .ahead _ _ => false

/-- Whether no phrase is made of comments alone and no terminal is read but those of `moves`.
`chained` says whether the expression goes on with a chain. -/
def nests (chained : Bool) : Expr ρ τ → Bool
  | .empty => true
  | .token t => moves t
  | .rule r => inner r
  | .seq a b => a.nests false && b.nests false
  | .alt a b => a.nests chained && b.nests chained
  | .many a => a.nests false
  | .node _ a => a.fills inner solid && a.nests false
  | .field _ a => a.nests false
  | .chain first step =>
    first.fills inner solid && first.nests false && step.fills inner solid && step.nests true
  | .grow step => chained && step.fills inner solid && step.nests true
  | .extend _ a => chained && a.nests false
  | .ahead _ _ => true

end

/-- **What is read is a row.** -/
theorem Reads.row {inner : ρ → Bool} {solid moves : τ → Bool} {grammar : ρ → Expr ρ τ}
    {lex : τ → σ → Option (List Tree × σ)} (pos : σ → Nat) {Ok : σ → Prop}
    (hlex : ∀ t s ts s', Ok s → moves t = true → lex t s = some (ts, s') →
      Ok s' ∧ Row (pos s) ts (pos s') ∧ (solid t = true → Solid ts))
    (hrules : ∀ r, inner r = true → (grammar r).nests inner solid moves false = true ∧
      (grammar r).fills inner solid = true)
    {e : Expr ρ τ} {left ts : List Tree} {s s' : σ} (h : Reads grammar lex e left s ts s')
    {chained : Bool} (he : e.nests inner solid moves chained = true) (hs : Ok s) {lo : Nat}
    (hleft : Row lo left (pos s)) (hchained : chained = true → Solid left) :
    Ok s' ∧ Row lo ts (pos s') ∧ (e.fills inner solid = true → Solid ts) := by
  have hnil : ∀ s, Row (pos s) [] (pos s) := fun s => .nil (Nat.le_refl _)
  induction h generalizing chained lo with
  | empty => exact ⟨hs, .nil hleft.le, nofun⟩
  | token h =>
    obtain ⟨hs', hrow, hsolid⟩ := hlex _ _ _ _ hs he h
    exact ⟨hs', hrow.mono hleft.le (Nat.le_refl _), hsolid⟩
  | @rule r left s ts s' h ih =>
    obtain ⟨hnests, hfills⟩ := hrules r he
    obtain ⟨hs', hrow, hsolid⟩ := ih hnests hs (hnil s) nofun
    exact ⟨hs', hrow.mono hleft.le (Nat.le_refl _), fun _ => hsolid hfills⟩
  | @seq a b left s ts s₁ us s' ha hb iha ihb =>
    simp only [nests, Bool.and_eq_true] at he
    obtain ⟨hs₁, hts, hsolid⟩ := iha he.1 hs (hnil s) nofun
    obtain ⟨hs', hus, hsolid'⟩ := ihb he.2 hs₁ (hnil s₁) nofun
    refine ⟨hs', (hts.append hus).mono hleft.le (Nat.le_refl _), fun hf => ?_⟩
    rcases Bool.or_eq_true_iff.1 hf with hf | hf
    · exact (hsolid hf).append_left us
    · exact (hsolid' hf).append_right ts
  | altLeft h ih =>
    simp only [nests, Bool.and_eq_true] at he
    obtain ⟨hs', hrow, hsolid⟩ := ih he.1 hs hleft hchained
    exact ⟨hs', hrow, fun hf => hsolid (Bool.and_eq_true_iff.1 hf).1⟩
  | altRight h ih =>
    simp only [nests, Bool.and_eq_true] at he
    obtain ⟨hs', hrow, hsolid⟩ := ih he.2 hs hleft hchained
    exact ⟨hs', hrow, fun hf => hsolid (Bool.and_eq_true_iff.1 hf).2⟩
  | manyNone => exact ⟨hs, .nil hleft.le, nofun⟩
  | @manyMore a left s ts s₁ us s' ha hmore iha ihmore =>
    obtain ⟨hs₁, hts, -⟩ := iha he hs (hnil s) nofun
    have hagain : (Expr.many a).nests inner solid moves false = true := he
    obtain ⟨hs', hus, -⟩ := ihmore hagain hs₁ (hnil s₁) nofun
    exact ⟨hs', (hts.append hus).mono hleft.le (Nat.le_refl _), nofun⟩
  | @node k a left s ts s' h ih =>
    simp only [nests, Bool.and_eq_true] at he
    obtain ⟨hs', hrow, hsolid⟩ := ih he.2 hs (hnil s) nofun
    refine ⟨hs', row_wrap (hrow.mono hleft.le (Nat.le_refl _)) (hsolid he.1) k, fun hf => ?_⟩
    exact solid_wrap (bne_iff_ne.1 hf) ts
  | @field r a left s ts s' h ih =>
    obtain ⟨hs', hrow, hsolid⟩ := ih he hs (hnil s) nofun
    exact ⟨hs', row_assign (hrow.mono hleft.le (Nat.le_refl _)) r,
      fun hf => solid_assign (hsolid hf) r⟩
  | @chain first step left s ts s₁ us s' hfirst hgrow ihfirst ihgrow =>
    simp only [nests, Bool.and_eq_true] at he
    obtain ⟨⟨⟨hfills, hnests⟩, hstep⟩, hsteps⟩ := he
    obtain ⟨hs₁, hts, hsolid⟩ := ihfirst hnests hs (hnil s) nofun
    have hgrows : (Expr.grow step).nests inner solid moves true = true := by
      simp [nests, hstep, hsteps]
    obtain ⟨hs', hus, hsolid'⟩ := ihgrow hgrows hs₁ (hts.mono hleft.le (Nat.le_refl _))
      fun _ => hsolid hfills
    exact ⟨hs', hus, fun _ => hsolid' hstep⟩
  | growNone =>
    simp only [nests, Bool.and_eq_true] at he
    exact ⟨hs, hleft, fun _ => hchained he.1.1⟩
  | growMore hstep hgrow ihstep ihgrow =>
    have hgrows := he
    simp only [nests, Bool.and_eq_true] at he
    obtain ⟨⟨hc, hfills⟩, hsteps⟩ := he
    obtain ⟨hs₁, hts, hsolid⟩ := ihstep hsteps hs hleft fun _ => hchained hc
    exact ihgrow hgrows hs₁ hts fun _ => hsolid hfills
  | @extend k a left s ts s' h ih =>
    simp only [nests, Bool.and_eq_true] at he
    obtain ⟨hs', hrow, -⟩ := ih he.2 hs (hnil s) nofun
    refine ⟨hs', row_wrap (hleft.append hrow) ((hchained he.1).append_left ts) k, fun hf => ?_⟩
    exact solid_wrap (bne_iff_ne.1 hf) _
  | ahead => exact ⟨hs, .nil hleft.le, nofun⟩

end Expr

/-! ## The script grammar -/

/-- All rules but that of a whole source. -/
def Rule.isInner : Rule → Bool
  | .program => false
  | _ => true

/-- The terminals that are no mere look at what follows. -/
def Terminal.isSolid : Terminal → Bool
  | .sameLine => false
  | _ => true

/-- The terminals after which reading goes on behind what they have read. -/
def Terminal.moves : Terminal → Bool
  | .endOfInput => false
  | _ => true

/-- Whether no phrase of an expression is made of comments alone, and more than comments is read. -/
def Form.nested (chained : Bool) (e : Form) : Bool :=
  e.nests Rule.isInner Terminal.isSolid Terminal.moves chained &&
    e.fills Rule.isInner Terminal.isSolid

namespace Form

theorem nested_oneOf {chained : Bool} : ∀ {es : List Form}, es ≠ [] →
    (∀ e ∈ es, e.nested chained = true) → (oneOf es).nested chained = true
  | [], hne, _ => absurd rfl hne
  | [e], _, h => h e List.mem_cons_self
  | e :: e' :: es, _, h => by
    obtain ⟨he, hrest⟩ := List.forall_mem_cons.1 h
    have hrest := nested_oneOf (List.cons_ne_nil e' es) hrest
    simp only [nested, Bool.and_eq_true] at he hrest
    simp [oneOf, nested, Expr.nests, Expr.fills, he, hrest]

theorem nested_chain {first step : Form} (hfirst : first.nested false = true)
    (hstep : step.nested true = true) : nested false (.chain first step) = true := by
  simp only [nested, Bool.and_eq_true] at hfirst hstep
  simp [nested, Expr.nests, Expr.fills, hfirst, hstep]

theorem nested_operation (o : String) (level : Nat) :
    (extended "binary" [operator o, .rule (.binary level)]).nested true = true := by
  unfold operator
  split <;> rfl

theorem nested_binary (d : Dialect) (level : Nat) : (binary d level).nested false = true := by
  unfold binary
  split
  · rfl
  · next ops hops =>
    have hne : ops ≠ [] := by
      have hall : ∀ ops ∈ binaryLevels, ops ≠ [] := by decide
      exact hall ops (List.mem_of_getElem? hops)
    refine nested_chain rfl (nested_oneOf (by simp [hne]) fun e he => ?_)
    rcases List.mem_append.1 he with he | he
    · obtain ⟨o, -, rfl⟩ := List.mem_map.1 he
      exact nested_operation o (level + 1)
    · split at he
      · unfold typedOnly at he
        split at he
        · simp only [List.mem_cons, List.not_mem_nil, or_false] at he
          rcases he with rfl | rfl <;> rfl
        · cases he
      · cases he

end Form

theorem nested_script (d : Dialect) (r : Rule) (hr : r.isInner = true) :
    (script d r).nested false = true := by
  cases r with
  | binary level => exact Form.nested_binary d level
  | program => cases hr
  | declaration operand => cases d <;> cases operand <;> rfl
  | functionDeclaration operand => cases d <;> cases operand <;> rfl
  | classDeclaration operand => cases d <;> cases operand <;> rfl
  | body operand => cases operand <;> rfl
  | _ => cases d <;> rfl

/-! ## Tokens -/

/-- The glyphs after a mark end within the first `n` bytes. -/
def Mark.Within (n : Nat) (m : Mark) : Prop := m.offset + (m.rest.map Glyph.width).sum ≤ n

theorem Mark.Within.advance {n : Nat} {m : Mark} (h : m.Within n) (count : Nat) :
    (m.advance count).Within n ∧ m.offset ≤ (m.advance count).offset := by
  fun_induction Mark.advance count m with
  | case1 m => exact ⟨h, Nat.le_refl _⟩
  | case2 count o g r ih =>
    have hnext : (⟨o + g.width, r⟩ : Mark).Within n := by
      simp only [Mark.Within, List.map_cons, List.sum_cons] at h ⊢
      omega
    obtain ⟨hw, hle⟩ := ih hnext
    exact ⟨hw, by simp only at hle ⊢; omega⟩
  | case3 => exact ⟨h, Nat.le_refl _⟩

/-- The comments stand between two marks, each before the mark that is kept with it. -/
inductive Lane (n : Nat) : Mark → List (Tree × Mark) → Mark → Prop
  | nil {m next : Mark} (hm : m.offset ≤ next.offset) (hnext : next.Within n) : Lane n m [] next
  | cons {m after next : Mark} {a : Nat} {cs : List (Tree × Mark)} (hm : m.offset ≤ a)
      (ha : a ≤ after.offset) (hafter : after.Within n) (rest : Lane n after cs next) :
      Lane n m ((.node .comment none a after.offset [], after) :: cs) next

theorem lane_commentsFrom {n : Nat} (fuel : Nat) {m : Mark} (hm : m.Within n) :
    Lane n m (commentsFrom fuel m).1 (commentsFrom fuel m).2 := by
  induction fuel generalizing m with
  | zero => exact .nil (Nat.le_refl _) hm
  | succ fuel ih =>
    obtain ⟨hgap, hle⟩ := hm.advance (countWhile isGap m.rest)
    simp only [commentsFrom]
    split
    · exact .nil hle hgap
    · next count _ =>
      obtain ⟨hafter, hle'⟩ := hgap.advance count
      exact .cons hle hle' hafter (ih hafter)

section
variable {n : Nat} {m next : Mark} {cs : List (Tree × Mark)}

theorem Lane.row (h : Lane n m cs next) : Row m.offset (cs.map Prod.fst) next.offset := by
  induction h with
  | nil hm hnext => exact .nil hm
  | cons hm ha hafter rest ih => exact .cons hm (.nil ha) ih

theorem Lane.within (h : Lane n m cs next) : next.Within n := by
  induction h with
  | nil hm hnext => exact hnext
  | cons hm ha hafter rest ih => exact ih

/-- An inserted semicolon stands behind the comments that are taken. -/
theorem Lane.find? {typed operand : Bool} {taken : List Tree} {m' : Mark}
    {left : List (Tree × Mark)} (h : Lane n m cs next) (hm : m.Within n)
    (hfind : Semicolon.find? typed operand m cs = some (taken, m', left)) :
    Row m.offset taken m'.offset ∧ m'.Within n ∧ Lane n m' left next := by
  induction h generalizing taken with
  | nil hle hnext =>
    simp only [Semicolon.find?] at hfind
    split at hfind
    · cases hfind
      exact ⟨.nil (Nat.le_refl _), hm, .nil hle hnext⟩
    · cases hfind
  | cons hle ha hafter rest ih =>
    simp only [Semicolon.find?] at hfind
    split at hfind
    · cases hfind
      exact ⟨.nil (Nat.le_refl _), hm, .cons hle ha hafter rest⟩
    · obtain ⟨⟨taken', found⟩, hfind', heq⟩ := Option.map_eq_some_iff.1 hfind
      cases heq
      obtain ⟨hrow, hm', hlane⟩ := ih hafter hfind'
      exact ⟨.cons hle (.nil ha) hrow, hm', hlane⟩

end

/-- A stand in a source of `n` bytes. -/
structure Stand.Within (n : Nat) (s : Stand) : Prop where
  here : s.here.Within n
  lane : Lane n s.here s.comments s.next

theorem within_ofMark {n : Nat} {m : Mark} (hm : m.Within n) : (Stand.ofMark m).Within n :=
  ⟨hm, lane_commentsFrom (m.rest.length + 1) hm⟩

theorem solid_leaf {k : Kind} (hk : k ≠ .comment) (ts : List Tree) (a b : Nat) :
    Solid (ts ++ [.node k none a b []]) :=
  .append_right ⟨_, List.mem_singleton_self _, by simpa [isComment, Tree.kind] using hk⟩ _

theorem kind_ne_comment (t : Terminal) : t.kind ≠ .comment := by
  cases t <;> simp [Terminal.kind]

/-- A token is read as a row, up to the stand behind it. -/
theorem read_row {n : Nat} {typed : Bool} {t : Terminal} {s s' : Stand} {ts : List Tree}
    (hs : s.Within n) (ht : t.moves = true) (h : t.read typed s = some (ts, s')) :
    s'.Within n ∧ Row s.here.offset ts s'.here.offset ∧ (t.isSolid = true → Solid ts) := by
  unfold Terminal.read at h
  split at h
  · split at h
    · cases h
    · cases h
      exact ⟨hs, .nil (Nat.le_refl _), nofun⟩
  · obtain ⟨⟨taken, m, left⟩, hfind, heq⟩ := Option.map_eq_some_iff.1 h
    cases heq
    obtain ⟨hrow, hm, hlane⟩ := hs.lane.find? hs.here hfind
    refine ⟨⟨hm, hlane⟩, hrow.append ?_, fun _ => solid_leaf (by decide) taken _ _⟩
    exact .cons (Nat.le_refl _) (.nil (Nat.le_refl _)) (.nil (Nat.le_refl _))
  · cases ht
  · obtain ⟨count, -, heq⟩ := Option.map_eq_some_iff.1 h
    cases heq
    -- the leaf starts at the stand itself or behind the comments
    have hfront : Row s.here.offset (if t.isTight then [] else s.comments.map (·.1))
        (if t.isTight then s.here else s.next).offset ∧
        (if t.isTight then s.here else s.next).Within n := by
      split
      · exact ⟨.nil (Nat.le_refl _), hs.here⟩
      · exact ⟨hs.lane.row, hs.lane.within⟩
    obtain ⟨hafter, hle⟩ := hfront.2.advance count
    refine ⟨within_ofMark hafter, hfront.1.append ?_, fun _ => solid_leaf (kind_ne_comment _) _ _ _⟩
    exact .cons (Nat.le_refl _) (.nil hle) (.nil (Nat.le_refl _))

/-- At the end of a source only its last comments are left. -/
theorem read_endOfInput {n : Nat} {typed : Bool} {s s' : Stand} {ts : List Tree} (hs : s.Within n)
    (h : Terminal.endOfInput.read typed s = some (ts, s')) : Row s.here.offset ts n := by
  simp only [Terminal.read] at h
  split at h
  · cases h
    have hnext : s.next.offset ≤ n := Nat.le_trans (Nat.le_add_right _ _) hs.lane.within
    exact hs.lane.row.append (.cons (Nat.le_refl _) (.nil (Nat.le_refl _)) (.nil hnext))
  · cases h

/-! ## The tree of a source -/

theorem width_le_of_front {bytes : List UInt8} {c : Char} {w : Nat}
    (h : Text.Utf8.front bytes = .char c w) : w ≤ bytes.length := by
  unfold Text.Utf8.front at h
  repeat' split at h
  all_goals cases h
  all_goals simp only [List.length_cons]; omega

theorem width_glyphs_le (fuel : Nat) (bytes : List UInt8) :
    ((glyphsFrom fuel bytes).map Glyph.width).sum ≤ bytes.length := by
  induction fuel generalizing bytes with
  | zero => exact Nat.zero_le _
  | succ fuel ih =>
    simp only [glyphsFrom]
    split
    · exact Nat.zero_le _
    · next c w hfront =>
      have hw := width_le_of_front hfront
      have hrest := ih (bytes.drop w)
      simp only [List.map_cons, List.sum_cons, List.length_drop] at hrest ⊢
      omega
    · next hdone _ =>
      have hpos : bytes ≠ [] := by
        rintro rfl
        exact hdone rfl
      have hlen := List.length_pos_iff.2 hpos
      have hrest := ih (bytes.drop 1)
      simp only [List.map_cons, List.sum_cons, List.length_drop] at hrest ⊢
      omega

theorem row_of_reads {n : Nat} {d : Dialect} {e : Form} {ts : List Tree} {s s' : Stand}
    (h : Expr.Reads (script d) (Terminal.read d.hasTypes) e [] s ts s')
    (he : e.nests Rule.isInner Terminal.isSolid Terminal.moves false = true) (hs : s.Within n) :
    s'.Within n ∧ Row s.here.offset ts s'.here.offset := by
  have hlex : ∀ t s ts s', Stand.Within n s → t.moves = true →
      Terminal.read d.hasTypes t s = some (ts, s') → Stand.Within n s' ∧
        Row s.here.offset ts s'.here.offset ∧ (t.isSolid = true → Solid ts) :=
    fun _ _ _ _ hs ht h => read_row hs ht h
  have hrules : ∀ r, r.isInner = true →
      (script d r).nests Rule.isInner Terminal.isSolid Terminal.moves false = true ∧
        (script d r).fills Rule.isInner Terminal.isSolid = true :=
    fun r hr => by simpa [Form.nested] using nested_script d r hr
  obtain ⟨hs', hrow, -⟩ :=
    h.row (fun s => s.here.offset) hlex hrules he hs (.nil (Nat.le_refl _)) nofun
  exact ⟨hs', hrow⟩

/-- **The spans of the tree of a source nest.** -/
theorem parse?_row {d : Dialect} {source : List UInt8} {t : Tree} (h : parse? d source = some t) :
    Row 0 [t] source.length := by
  have hstart : (Stand.ofMark ⟨0, glyphs source⟩).Within source.length :=
    within_ofMark (by simpa [Mark.Within, glyphs] using width_glyphs_le source.length source)
  simp only [parse?] at h
  split at h
  · next trees s hrun =>
    cases h
    have hrow : Row 0 trees source.length := by
      cases Expr.reads_of_run hrun with
      | rule hprogram =>
        cases hprogram with
        | seq hline hrest =>
          cases hrest with
          | seq hstatements hend =>
            cases hend with
            | seq hend hempty =>
              cases hempty
              cases hend with
              | token hend =>
                obtain ⟨hs₁, hts⟩ := row_of_reads hline rfl hstart
                obtain ⟨hs₂, hus⟩ := row_of_reads hstatements rfl hs₁
                have hvs := read_endOfInput hs₂ hend
                rw [List.append_nil]
                exact hts.append (hus.append hvs)
    exact .cons (Nat.le_refl _) (hrow.sublist List.filter_sublist) (.nil (Nat.le_refl _))
  · cases h

end DocScope.Grammar
