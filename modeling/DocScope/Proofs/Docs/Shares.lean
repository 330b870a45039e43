import DocScope.Docs.Readme
import DocScope.Proofs.Analysis.Declarations
import DocScope.Proofs.Run.Findings
import DocScope.Run.Rule
import Mathlib.Data.List.Forall2

/-!
# Documented or reported

The documentation looks for the last doc block in front of a declaration, the check looks for any.
They agree on what is documented: each declaration of a file goes to one of the two, and nothing
else does.

* `InSourceOrder`: the nodes of an analyzed file are listed in the order in which they start
  (`analyze_inSourceOrder`), on a tree because they are sorted, and in a scan because they come from
  one line after the other.
* `Share`: what a declaration gives, an entry from its last doc block or a diagnostic. It gives
  one of them and nothing else (`share_iff`).
* `entriesOf_eq`, `lintNodes_full`: the entries and the diagnostics of a list of nodes are the
  shares of the one and of the other kind.
* `entries_lint_split`: so the declarations of a file are split between them.
-/

namespace DocScope

/-! ## Source order -/

/-- Nodes in the order in which they start. -/
def InSourceOrder (ns : List FunctionNode) : Prop :=
  ns.Pairwise fun a b => a.span.startByte ≤ b.span.startByte

theorem Tree.functions_inSourceOrder (source : List UInt8) (t : Tree) :
    InSourceOrder (t.functions source) := by
  have htrans : ∀ a b c : FunctionNode, decide (a.span.startByte ≤ b.span.startByte) = true →
      decide (b.span.startByte ≤ c.span.startByte) = true →
      decide (a.span.startByte ≤ c.span.startByte) = true := by
    intro a b c hab hbc
    simp only [decide_eq_true_eq] at *
    omega
  have htotal : ∀ a b : FunctionNode, (decide (a.span.startByte ≤ b.span.startByte) ||
      decide (b.span.startByte ≤ a.span.startByte)) = true := by
    intro a b
    simp only [Bool.or_eq_true, decide_eq_true_eq]
    omega
  exact (List.pairwise_mergeSort htrans htotal _).imp of_decide_eq_true

theorem LineScan.scan_inSourceOrder {path : String} {source : List UInt8} {facts : FileFacts}
    (h : scan path source = .ok facts) : InSourceOrder facts.functions := by
  unfold scan at h
  split at h
  · cases h
  · next text htext =>
    obtain rfl := Except.ok.inj h
    obtain rfl := Text.Utf8.decode_eq_ok_iff.1 htext
    exact (pairwise_functions text).imp fun hbefore => Nat.le_of_lt hbefore.1

theorem analyze_inSourceOrder {parser : Parser} {path : String} {source : List UInt8}
    {facts : FileFacts} (h : analyze parser path source = .ok facts) :
    InSourceOrder facts.functions := by
  unfold analyze at h
  split at h
  · split at h
    · next parsed _ =>
      obtain rfl := Except.ok.inj h
      exact Tree.functions_inSourceOrder source parsed.tree
    · cases h
  · cases hscan : LineScan.scan path source with
    | error fault =>
      rw [hscan] at h
      cases h
    | ok found =>
      rw [hscan] at h
      obtain rfl := Except.ok.inj h
      exact LineScan.scan_inSourceOrder hscan

/-! ## Shares -/

/-- The declarations among nodes, in their order. -/
def declared (ns : List FunctionNode) : List (FunctionNode × Declaration) :=
  ns.filterMap fun n => n.declaration?.map fun d => (n, d)

/-- `c` is a doc block, and no doc block stands behind it. -/
def LastDocBlock (cs : List Comment) (c : Comment) : Prop :=
  c.isDocBlock = true ∧
    ∃ before after, cs = before ++ c :: after ∧ ∀ x ∈ after, x.isDocBlock = false

/-- What a declaration gives: an entry of the documentation or a diagnostic. -/
inductive Share (label : String) : FunctionNode × Declaration → DocEntry ⊕ Diagnostic → Prop
  | entry {n : FunctionNode} {d : Declaration} {c : Comment}
      (h : LastDocBlock n.leadingComments c) :
      Share label (n, d) (.inl (DocComment.parse (d.name.getD "default") label c))
  | diagnostic {n : FunctionNode} {d : Declaration}
      (h : ∀ c ∈ n.leadingComments, c.isDocBlock = false) :
      Share label (n, d) (.inr ⟨d.line, Violation.messageFor (d.name.getD "function") none⟩)

theorem find?_reverse_eq_some {cs : List Comment} {c : Comment} :
    cs.reverse.find? (·.isDocBlock) = some c ↔ LastDocBlock cs c := by
  rw [List.find?_eq_some_iff_append, LastDocBlock]
  refine and_congr_right fun _ => ⟨?_, ?_⟩
  · rintro ⟨after, before, hcs, hafter⟩
    refine ⟨before.reverse, after.reverse, ?_, fun x hx => ?_⟩
    · rw [← List.reverse_reverse cs, hcs]
      simp
    · simpa using hafter x (List.mem_reverse.1 hx)
  · rintro ⟨before, after, rfl, hafter⟩
    refine ⟨after.reverse, before.reverse, by simp, fun x hx => ?_⟩
    simp [hafter x (List.mem_reverse.1 hx)]

/-- The share of a declaration, by the search of the documentation. -/
def share (label : String) (nd : FunctionNode × Declaration) : DocEntry ⊕ Diagnostic :=
  match nd.1.leadingComments.reverse.find? (·.isDocBlock) with
  | some c => .inl (DocComment.parse (nd.2.name.getD "default") label c)
  | none => .inr ⟨nd.2.line, Violation.messageFor (nd.2.name.getD "function") none⟩

/-- A declaration has one share. -/
theorem share_iff {label : String} {nd : FunctionNode × Declaration} {x : DocEntry ⊕ Diagnostic} :
    Share label nd x ↔ x = share label nd := by
  obtain ⟨n, d⟩ := nd
  unfold share
  cases h : n.leadingComments.reverse.find? (·.isDocBlock) with
  | some c =>
    have hc : c.isDocBlock = true := List.find?_some h
    constructor
    · rintro (@⟨_, _, c', hc'⟩ | hnone)
      · rw [find?_reverse_eq_some.2 hc'] at h
        cases h
        rfl
      · have hmem := List.mem_reverse.1 (List.mem_of_find?_eq_some h)
        rw [hnone c hmem] at hc
        cases hc
    · rintro rfl
      exact .entry (find?_reverse_eq_some.1 h)
  | none =>
    have hnone : ∀ c ∈ n.leadingComments, c.isDocBlock = false := by
      simpa using h
    constructor
    · rintro (@⟨_, _, c', hc'⟩ | -)
      · rw [find?_reverse_eq_some.2 hc'] at h
        cases h
      · rfl
    · rintro rfl
      exact .diagnostic hnone

/-! ## Entries and diagnostics -/

/-- The part of the shares that `pick` takes, node by node. -/
theorem filterMap_shares {β : Type} (label : String) (pick : DocEntry ⊕ Diagnostic → Option β)
    (ns : List FunctionNode) :
    ((declared ns).map (share label)).filterMap pick =
      ns.filterMap fun n => n.declaration?.bind fun d => pick (share label (n, d)) := by
  rw [declared, List.map_filterMap, List.filterMap_filterMap]
  congr 1
  funext n
  cases n.declaration? <;> rfl

theorem Docs.documented?_eq (label : String) (n : FunctionNode) :
    Docs.documented? label n = n.declaration?.bind fun d => (share label (n, d)).getLeft? := by
  unfold Docs.documented? share
  cases n.declaration? with
  | none => rfl
  | some d =>
    dsimp only [Option.bind_some]
    cases n.leadingComments.reverse.find? (·.isDocBlock) <;> rfl

theorem Docs.entriesOf_eq (label : String) (ns : List FunctionNode) :
    Docs.entriesOf label ns = ((declared ns).map (share label)).filterMap Sum.getLeft? := by
  rw [filterMap_shares, Docs.entriesOf]
  exact List.filterMap_congr fun n _ => Docs.documented?_eq label n

/-- The check takes any doc block, which is there just if a last one is. -/
theorem hasDocComment_eq (cs : List Comment) :
    hasDocComment cs = (cs.reverse.find? (·.isDocBlock)).isSome := by
  rw [List.isSome_find?, List.any_reverse, hasDocComment]

section
variable (vcs : VersionControl) (world : World) (root file : String)

theorem DocRule.visit_full (label : String) (n : FunctionNode) (s : Session) :
    (DocRule.make .full vcs world root).visit file n s =
      (n.declaration?.bind fun d => (share label (n, d)).getRight?, s) := by
  unfold DocRule.visit share
  cases n.declaration? with
  | none => rfl
  | some d =>
    simp only [DocRule.make, Resolver.make, Resolver.inScope, Selector.diffScope?, ↓reduceIte,
      check, hasDocComment_eq]
    cases n.leadingComments.reverse.find? (·.isDocBlock) <;> rfl

theorem DocRule.lintNodes_full (label : String) (ns : List FunctionNode) (s : Session) :
    ((DocRule.make .full vcs world root).lintNodes file ns s).1 =
      ((declared ns).map (share label)).filterMap Sum.getRight? := by
  rw [filterMap_shares]
  induction ns generalizing s with
  | nil => rfl
  | cons n ns ih =>
    simp only [DocRule.lintNodes, DocRule.visit_full vcs world root file label, ih,
      List.filterMap_cons]
    cases n.declaration?.bind fun d => (share label (n, d)).getRight? <;> rfl

end

/-- **The declarations of a file are split between its documentation and its check.** Each of them
has one share, an entry or a diagnostic; the entries and the diagnostics of the file are these
shares, in source order. -/
theorem entries_lint_split {parser : Parser} {path : String} {source : List UInt8}
    {facts : FileFacts}
    (h : analyze parser path source = .ok facts) (label file : String) (vcs : VersionControl)
    (world : World) (root : String) (s : Session) :
    InSourceOrder facts.functions ∧
      (∀ nd ∈ declared facts.functions, ∃! x, Share label nd x) ∧
      ∃ shares, List.Forall₂ (Share label) (declared facts.functions) shares ∧
        Docs.entries parser path label source = .ok (shares.filterMap Sum.getLeft?) ∧
        ((DocRule.make .full vcs world root).lint file facts s).1 =
          shares.filterMap Sum.getRight? := by
  refine ⟨analyze_inSourceOrder h, fun nd _ => ?_, (declared facts.functions).map (share label),
    ?_, ?_, DocRule.lintNodes_full vcs world root file label facts.functions s⟩
  · exact ⟨share label nd, share_iff.2 rfl, fun x hx => share_iff.1 hx⟩
  · exact List.forall₂_map_right_iff.2 (List.forall₂_same.2 fun nd _ => share_iff.2 rfl)
  · rw [Docs.entries, h, ← Docs.entriesOf_eq]
    rfl

/-- Two functions with comments in front of them, and a stray bracket between. -/
def documentedSource : List UInt8 :=
  Text.Utf8.bytesOf
    "/** Old. */\n/** Adds. */\n// x\nfunction f() {}\n)\n/* y */\nfunction g() {}\n"

/-- What a parser that goes on behind the stray bracket makes of it. -/
def documentedParsed : Parsed :=
  let comment (start stop : Nat) : Tree := .node .comment none start stop []
  ⟨.node (.phrase "program") none 0 72 [comment 0 11, comment 12 24, comment 25 29,
    emptyFunction 30, strayBracket 46, comment 48 55, emptyFunction 56], true⟩

/-- A function with two doc blocks and another comment behind them, a syntax error, and a function
with no doc block. -/
theorem entries_lint_split_two_blocks :
    let parser := Parser.ofSource documentedSource documentedParsed
    ∃ facts, analyze parser "a.ts" documentedSource = .ok facts ∧ facts.hasParseErrors = true ∧
      ∃ shares, List.Forall₂ (Share "src/a.ts") (declared facts.functions) shares ∧
        shares.filterMap Sum.getLeft? = [⟨"f", "Adds.", [], none, [], "src/a.ts"⟩] ∧
        shares.filterMap Sum.getRight? = [⟨7, "Function \"g\" must have a JSDoc comment"⟩] := by
  intro parser
  have h : analyze parser "a.ts" documentedSource = _ :=
    analyze_of_pairwise .typescript documentedParsed (by decide +kernel)
      (Parser.ofSource_self documentedSource documentedParsed .typed) (by decide +kernel)
  obtain ⟨-, -, shares, hshares, hentries, hlint⟩ := entries_lint_split h "src/a.ts" "a.ts"
    RecordedDiff.empty.backend ⟨.directory [], "/", parser⟩ "/" .fresh
  refine ⟨_, h, rfl, shares, hshares, ?_, hlint.symm.trans (by decide +kernel)⟩
  rw [Docs.entries, h] at hentries
  exact (Except.ok.inj hentries).symm.trans (by decide +kernel)

end DocScope
