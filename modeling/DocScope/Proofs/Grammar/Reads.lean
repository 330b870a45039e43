import DocScope.Grammar.Basic

/-!
# What a grammar reads

`Expr.Reads` says what an expression can be read as, without the order in which alternatives are
tried and without fuel. Whatever `Expr.run` reads can be read (`reads_of_run`), so a property of all
that is read is shown by induction over `Reads`.
-/

namespace DocScope.Grammar.Expr

variable {ρ τ σ : Type}

section
variable (grammar : ρ → Expr ρ τ) (lex : τ → σ → Option (List Tree × σ))

/-- `e` can be read as the trees `ts` from `s` to `s'`, where `left` is what the enclosing chain has
read. Which alternative is preferred is left open. -/
inductive Reads : Expr ρ τ → List Tree → σ → List Tree → σ → Prop
  | empty {left s} : Reads .empty left s [] s
  | token {t left s ts s'} (h : lex t s = some (ts, s')) : Reads (.token t) left s ts s'
  | rule {r left s ts s'} (h : Reads (grammar r) [] s ts s') : Reads (.rule r) left s ts s'
  | seq {a b left s ts s₁ us s'} (ha : Reads a [] s ts s₁) (hb : Reads b [] s₁ us s') :
      Reads (.seq a b) left s (ts ++ us) s'
  | altLeft {a b left s ts s'} (h : Reads a left s ts s') : Reads (.alt a b) left s ts s'
  | altRight {a b left s ts s'} (h : Reads b left s ts s') : Reads (.alt a b) left s ts s'
  | manyNone {a left s} : Reads (.many a) left s [] s
  | manyMore {a left s ts s₁ us s'} (ha : Reads a [] s ts s₁)
      (hmore : Reads (.many a) [] s₁ us s') : Reads (.many a) left s (ts ++ us) s'
  | node {k a left s ts s'} (h : Reads a [] s ts s') : Reads (.node k a) left s (wrap k ts) s'
  | field {r a left s ts s'} (h : Reads a [] s ts s') : Reads (.field r a) left s (assign r ts) s'
  | chain {first step left s ts s₁ us s'} (hfirst : Reads first [] s ts s₁)
      (hgrow : Reads (.grow step) ts s₁ us s') : Reads (.chain first step) left s us s'
  | growNone {step left s} : Reads (.grow step) left s left s
  | growMore {step left s ts s₁ us s'} (hstep : Reads step left s ts s₁)
      (hgrow : Reads (.grow step) ts s₁ us s') : Reads (.grow step) left s us s'
  | extend {k a left s ts s'} (h : Reads a [] s ts s') :
      Reads (.extend k a) left s (wrap k (left ++ ts)) s'
  | ahead {fits a left s} : Reads (.ahead fits a) left s [] s

end

theorem reads_of_run {grammar : ρ → Expr ρ τ} {lex : τ → σ → Option (List Tree × σ)}
    {offset : σ → Nat} {fuel : Nat} {e : Expr ρ τ} {left ts : List Tree} {s s' : σ}
    (hrun : run grammar lex offset fuel e left s = .fits ts s') :
    Reads grammar lex e left s ts s' := by
  induction fuel generalizing e left ts s s' with
  | zero => cases hrun
  | succ fuel ih =>
    cases e with
    | empty =>
      cases hrun
      exact .empty
    | token t =>
      simp only [run] at hrun
      split at hrun
      · next h =>
        cases hrun
        exact .token h
      · cases hrun
    | rule r => exact .rule (ih hrun)
    | seq a b =>
      simp only [run] at hrun
      split at hrun
      · next ha =>
        split at hrun
        · next hb =>
          cases hrun
          exact .seq (ih ha) (ih hb)
        · next h => exact (h _ _ hrun).elim
      · next h => exact (h _ _ hrun).elim
    | alt a b =>
      simp only [run] at hrun
      split at hrun
      · exact .altRight (ih hrun)
      · exact .altLeft (ih hrun)
    | many a =>
      simp only [run] at hrun
      split at hrun
      · next ha =>
        split at hrun
        · cases hrun
          exact .manyNone
        · split at hrun
          · next hmore =>
            cases hrun
            exact .manyMore (ih ha) (ih hmore)
          · next h => exact (h _ _ hrun).elim
      · cases hrun
        exact .manyNone
      · cases hrun
    | node k a =>
      simp only [run] at hrun
      split at hrun
      · next ha =>
        cases hrun
        exact .node (ih ha)
      · next h => exact (h _ _ hrun).elim
    | field r a =>
      simp only [run] at hrun
      split at hrun
      · next ha =>
        cases hrun
        exact .field (ih ha)
      · next h => exact (h _ _ hrun).elim
    | chain first step =>
      simp only [run] at hrun
      split at hrun
      · next hfirst => exact .chain (ih hfirst) (ih hrun)
      · next h => exact (h _ _ hrun).elim
    | grow step =>
      simp only [run] at hrun
      split at hrun
      · next hstep =>
        split at hrun
        · cases hrun
          exact .growNone
        · exact .growMore (ih hstep) (ih hrun)
      · cases hrun
        exact .growNone
      · cases hrun
    | extend k a =>
      simp only [run] at hrun
      split at hrun
      · next ha =>
        cases hrun
        exact .extend (ih ha)
      · next h => exact (h _ _ hrun).elim
    | ahead fits a =>
      simp only [run] at hrun
      split at hrun <;> cases fits <;> cases hrun <;> exact .ahead

end DocScope.Grammar.Expr
