import DocScope.Tree.Basic

/-!
# Grammars as data

A grammar maps rule names to expressions, and one function, `Expr.run`, reads a source by them.
Choice is ordered and the first alternative that fits is kept. Besides the usual operators there
are two that build trees leaning to the left: `chain` reads a first phrase and then goes on as long
as its step fits, and `extend` makes one phrase of what the chain has read so far and what follows.

Comments are not part of any rule. A terminal yields the comments in front of its token together
with the token, and `wrap` leaves the comments in front of a phrase's first token to the
surroundings of the phrase. So a comment becomes a child of the smallest phrase that has tokens on
both sides of it.
-/

namespace DocScope.Grammar

/-- Expressions over the rule names `ρ` and the terminals `τ`. -/
inductive Expr (ρ τ : Type) where
  /-- Reads nothing. -/
  | empty
  /-- Reads one terminal. -/
  | token (t : τ)
  /-- Reads what the rule says. -/
  | rule (r : ρ)
  /-- One after the other. -/
  | seq (a b : Expr ρ τ)
  /-- The first that fits. -/
  | alt (a b : Expr ρ τ)
  /-- As often as it fits and reads something. -/
  | many (a : Expr ρ τ)
  /-- Makes a phrase of the given kind. -/
  | node (k : Kind) (a : Expr ρ τ)
  /-- Gives the phrase a role in its parent. -/
  | field (r : Role) (a : Expr ρ τ)
  /-- Reads `first`, then goes on with `grow step`. -/
  | chain (first step : Expr ρ τ)
  /-- Reads `step` as often as it fits, each time in place of what the chain has read before. -/
  | grow (step : Expr ρ τ)
  /-- Makes a phrase of what the chain has read and what `a` reads. -/
  | extend (k : Kind) (a : Expr ρ τ)
  /-- Reads nothing, and fits where `a` would fit, or where it would not if `fits` is false. -/
  | ahead (fits : Bool) (a : Expr ρ τ)

/-- How reading an expression ends. -/
inductive Outcome (σ : Type) where
  /-- It fits; the trees that were read and the stand after them. -/
  | fits (trees : List Tree) (stand : σ)
  /-- It does not fit. -/
  | fails
  /-- The fuel did not suffice. -/
  | exhausted

/-- Whether a tree is a comment. -/
def isComment (t : Tree) : Bool := t.kind == .comment

/-- Makes one phrase of the given trees. Comments in front stay outside; tokens of width zero give
the phrase its end but are no children of it. -/
def wrap (k : Kind) (trees : List Tree) : List Tree :=
  let comments := trees.takeWhile isComment
  let body := trees.dropWhile isComment
  let start := (body.head?.map Tree.start).getD 0
  let stop := (body.getLast?.map Tree.stop).getD 0
  comments ++ [.node k none start stop (body.filter (·.kind != .hidden))]

/-- Gives the first tree that is no comment a role. -/
def assign (r : Role) (trees : List Tree) : List Tree :=
  trees.takeWhile isComment ++
    match trees.dropWhile isComment with
    | [] => []
    | t :: ts => t.withRole r :: ts

namespace Expr

variable {ρ τ σ : Type}

/-- Reads an expression. `lex` reads a terminal, `offset` tells how far a stand is, `left` holds
what the enclosing chain has read. -/
def run (grammar : ρ → Expr ρ τ) (lex : τ → σ → Option (List Tree × σ)) (offset : σ → Nat) :
    Nat → Expr ρ τ → List Tree → σ → Outcome σ
  | 0, _, _, _ => .exhausted
  | fuel + 1, e, left, s =>
    match e with
    | .empty => .fits [] s
    | .token t =>
      match lex t s with
      | some (ts, s) => .fits ts s
      | none => .fails
    | .rule r => run grammar lex offset fuel (grammar r) [] s
    | .seq a b =>
      match run grammar lex offset fuel a [] s with
      | .fits ts s =>
        match run grammar lex offset fuel b [] s with
        | .fits us s => .fits (ts ++ us) s
        | o => o
      | o => o
    | .alt a b =>
      match run grammar lex offset fuel a left s with
      | .fails => run grammar lex offset fuel b left s
      | o => o
    | .many a =>
      match run grammar lex offset fuel a [] s with
      | .fits ts s' =>
        if offset s' ≤ offset s then .fits [] s
        else
          match run grammar lex offset fuel (.many a) [] s' with
          | .fits us s => .fits (ts ++ us) s
          | o => o
      | .fails => .fits [] s
      | .exhausted => .exhausted
    | .node k a =>
      match run grammar lex offset fuel a [] s with
      | .fits ts s => .fits (wrap k ts) s
      | o => o
    | .field r a =>
      match run grammar lex offset fuel a [] s with
      | .fits ts s => .fits (assign r ts) s
      | o => o
    | .chain first step =>
      match run grammar lex offset fuel first [] s with
      | .fits ts s => run grammar lex offset fuel (.grow step) ts s
      | o => o
    | .grow step =>
      match run grammar lex offset fuel step left s with
      | .fits ts s' =>
        if offset s' ≤ offset s then .fits left s
        else run grammar lex offset fuel (.grow step) ts s'
      | .fails => .fits left s
      | .exhausted => .exhausted
    | .extend k a =>
      match run grammar lex offset fuel a [] s with
      | .fits ts s => .fits (wrap k (left ++ ts)) s
      | o => o
    | .ahead fits a =>
      match run grammar lex offset fuel a [] s with
      | .fits _ _ => if fits then .fits [] s else .fails
      | .fails => if fits then .fails else .fits [] s
      | .exhausted => .exhausted

end Expr

end DocScope.Grammar
