import DocScope.Proofs.Scope.Remembered
import DocScope.Run.Runner

/-!
# What a run finds

Against a backend with fixed answers the session does not show in the result of a run: each node is
decided on its own (`finding?`), each file too (`findingsIn`), and the result is their findings in
order.

* `checkNodes_spec`, `checkFiles_spec`: the two loops, by induction over nodes and files; the
  session remembers all along (`Resolver.Remembers`).
* `Runner.Reached`: the sessions of a runner after any number of uses.
* `Runner.run_eq`, `Runner.mem_run_findings`: the result of a run in such a session.
* `analyze_of_pairwise`: the functions of a file, where the tree has them in the order of the source;
  `analyzeFile?_brokenFile`: those of a file with a syntax error.
-/

namespace DocScope

namespace Resolver

/-- The finding at a node of a file, if there is one. -/
def finding? (r : Resolver) (file label : String) (n : FunctionNode) : Option Finding :=
  match n.declaration? with
  | none => none
  | some d =>
    if r.plainInScope file d.line then
      (check d n.leadingComments r.selector).map (Finding.ofViolation label)
    else none

/-- The findings in a file, in the order of its nodes; none if it cannot be analyzed. -/
def findingsIn (r : Resolver) (file : String) : List Finding :=
  match r.world.analyzeFile? file with
  | none => []
  | some facts => facts.functions.filterMap (r.finding? file (r.label file))

/-- A declaration in scope that has no doc comment is a finding. -/
theorem mem_findingsIn_of_undocumented {r : Resolver} {file : String} {facts : FileFacts}
    (ha : r.world.analyzeFile? file = some facts) {n : FunctionNode} (hn : n ∈ facts.functions)
    {d : Declaration} (hd : n.declaration? = some d)
    (hdoc : hasDocComment n.leadingComments = false) (hin : r.plainInScope file d.line = true) :
    .ofViolation (r.label file) ⟨d.name, d.line, r.selector.note?⟩ ∈ r.findingsIn file := by
  have hfound : r.finding? file (r.label file) n =
      some (.ofViolation (r.label file) ⟨d.name, d.line, r.selector.note?⟩) := by
    simp [finding?, hd, hin, check, hdoc]
  rw [findingsIn, ha]
  exact List.mem_filterMap.2 ⟨n, hn, hfound⟩

theorem finding?_file {r : Resolver} {file label : String} {n : FunctionNode} {f : Finding}
    (h : r.finding? file label n = some f) : f.file = label := by
  unfold finding? at h
  split at h
  · cases h
  · split at h
    · obtain ⟨v, -, rfl⟩ := Option.map_eq_some_iff.1 h
      rfl
    · cases h

theorem findingsIn_file {r : Resolver} {file : String} {f : Finding} (h : f ∈ r.findingsIn file) :
    f.file = r.label file := by
  unfold findingsIn at h
  split at h
  · cases h
  · obtain ⟨n, -, hn⟩ := List.mem_filterMap.1 h
    exact finding?_file hn

section
variable {r : Resolver} (hv : r.vcs.Fixed) (hc : r.cached = true)
include hv hc

theorem checkNodes_spec (file label : String) :
    ∀ (ns : List FunctionNode) (s : Session), r.Remembers s →
      (r.checkNodes file label ns s).1 = ns.filterMap (r.finding? file label) ∧
        r.Remembers (r.checkNodes file label ns s).2
  | [], _, hs => ⟨rfl, hs⟩
  | n :: ns, s, hs => by
    unfold checkNodes
    rw [List.filterMap_cons]
    unfold finding?
    cases n.declaration? with
    | none => exact checkNodes_spec file label ns s hs
    | some d =>
      obtain ⟨hin, e⟩ := inScope_spec hv hc hs file d.line
      obtain ⟨h, hs'⟩ := checkNodes_spec file label ns _ e.remembers
      refine ⟨?_, hs'⟩
      simp only [h, hin]
      cases r.plainInScope file d.line <;>
        cases check d n.leadingComments r.selector <;> rfl

theorem checkFiles_spec : ∀ (files : List String) (s : Session), r.Remembers s →
    (r.checkFiles files s).1 = files.flatMap r.findingsIn ∧
      (r.checkFiles files s).2.1 = (files.filterMap r.world.analyzeFile?).length ∧
      r.Remembers (r.checkFiles files s).2.2
  | [], _, hs => ⟨rfl, rfl, hs⟩
  | file :: files, s, hs => by
    unfold checkFiles
    rw [List.flatMap_cons, List.filterMap_cons]
    unfold findingsIn
    cases r.world.analyzeFile? file with
    | none => exact checkFiles_spec files s hs
    | some facts =>
      obtain ⟨hn, hs'⟩ := checkNodes_spec hv hc file (r.label file) facts.functions s hs
      obtain ⟨hf, hk, hs''⟩ := checkFiles_spec files _ hs'
      refine ⟨?_, ?_, hs''⟩
      · simp only [hn, hf]
        rfl
      · simp only [hk, List.length_cons]

end

theorem Remembers.changedFiles {r : Resolver} (hv : r.vcs.Fixed) (hc : r.cached = true)
    {s : Session} (hs : r.Remembers s) : r.Remembers (r.changedFiles s).2 := by
  unfold Resolver.changedFiles
  cases r.selector.diffScope? with
  | none => exact hs
  | some scope => exact (changedIn_spec hv hc hs scope).2.remembers

end Resolver

namespace Runner

/-- The sessions of a runner: a new one, and what its uses make of it. -/
inductive Reached (r : Runner) : Session → Prop
  | new : Reached r .fresh
  | changedFiles {s : Session} : Reached r s → Reached r (r.changedFiles s).2
  | run {s : Session} (files : List String) : Reached r s → Reached r (r.run files s).2

/-- A runner's session remembers, however it was used. -/
theorem Reached.remembers {r : Runner} (hv : r.vcs.Fixed) {s : Session} (h : r.Reached s) :
    r.resolver.Remembers s := by
  induction h with
  | new => exact .fresh _
  | changedFiles _ ih => exact ih.changedFiles hv rfl
  | run files _ ih => exact (Resolver.checkFiles_spec hv rfl files _ ih).2.2

/-- The result of a run: the findings of all files in order, and how many files were analyzed. -/
theorem run_eq {r : Runner} (hv : r.vcs.Fixed) {s : Session} (hs : r.Reached s)
    (files : List String) :
    (r.run files s).1 =
      ⟨r.selector, (files.flatMap r.resolver.findingsIn).mergeSort Finding.le,
        (files.filterMap r.world.analyzeFile?).length⟩ := by
  obtain ⟨hf, hk, -⟩ := Resolver.checkFiles_spec hv rfl files s (hs.remembers hv)
  simp only [run, DetectionResult.sorted, hf, hk]
  rfl

theorem mem_run_findings {r : Runner} (hv : r.vcs.Fixed) {s : Session} (hs : r.Reached s)
    {files : List String} {f : Finding} :
    f ∈ (r.run files s).1.findings ↔ ∃ file ∈ files, f ∈ r.resolver.findingsIn file := by
  rw [run_eq hv hs, List.mem_mergeSort, List.mem_flatMap]

end Runner

/-! ## Files whose functions stand in order -/

theorem analyze_of_pairwise {parser : Parser} {path : String} {source : List UInt8} (l : Language)
    (parsed : Parsed) (hl : Language.ofExtension? (extensionOf path) = some l)
    (hparsed : parser l.dialect source = some parsed)
    (horder : ((parsed.tree.places []).filterMap (·.functionNode? source)).Pairwise
      fun a b => a.span.startByte ≤ b.span.startByte) :
    analyze parser path source = .ok ⟨path, l.name,
      (parsed.tree.places []).filterMap (·.functionNode? source), parsed.hasErrors⟩ := by
  have hsorted : parsed.tree.functions source =
      (parsed.tree.places []).filterMap (·.functionNode? source) :=
    List.mergeSort_of_pairwise (horder.imp decide_eq_true)
  unfold analyze
  rw [hl]
  dsimp only
  rw [hparsed, ← hsorted]
  rfl

theorem World.analyzeFile?_of_pairwise {w : World} {file : String} {source : List UInt8}
    (l : Language) (parsed : Parsed) (hread : w.read file = .ok source)
    (hl : Language.ofExtension? (extensionOf file) = some l)
    (hparsed : w.parser l.dialect source = some parsed)
    (horder : ((parsed.tree.places []).filterMap (·.functionNode? source)).Pairwise
      fun a b => a.span.startByte ≤ b.span.startByte) :
    w.analyzeFile? file = some ⟨file, l.name,
      (parsed.tree.places []).filterMap (·.functionNode? source), parsed.hasErrors⟩ := by
  unfold analyzeFile?
  rw [hread]
  dsimp only
  rw [analyze_of_pairwise l parsed hl hparsed horder]

/-! ## A file with a syntax error -/

/-- The tree of a function that has one letter for a name and nothing in its body. -/
def emptyFunction (start : Nat) : Tree :=
  let token (text : String) (before after : Nat) : Tree :=
    .node (.token text) none (start + before) (start + after) []
  .node .functionDeclaration none start (start + 15)
    [token "function" 0 8, .node .identifier (some .name) (start + 9) (start + 10) [],
      .node (.phrase "formal_parameters") none (start + 10) (start + 12)
        [token "(" 10 11, token ")" 11 12],
      .node (.phrase "statement_block") none (start + 13) (start + 15)
        [token "\x7b" 13 14, token "\x7d" 14 15]]

/-- The tree of a bracket that closes nothing. -/
def strayBracket (start : Nat) : Tree :=
  .node (.phrase "ERROR") none start (start + 1) [.node (.token ")") none start (start + 1) []]

/-- Two functions with a stray bracket between them. -/
def brokenSource : List UInt8 := Text.Utf8.bytesOf "function f() {}\n)\nfunction g() {}\n"

/-- What a parser that goes on behind the stray bracket makes of it. -/
def brokenParsed : Parsed :=
  ⟨.node (.phrase "program") none 0 34 [emptyFunction 0, strayBracket 16, emptyFunction 18], true⟩

/-- A file system with this source in its root and nothing else. -/
def brokenFile : World :=
  ⟨.directory [("a.js", .file brokenSource)], "/", .ofSource brokenSource brokenParsed⟩

/-- The functions on both sides of the bracket. -/
def brokenNodes : List FunctionNode :=
  (brokenParsed.tree.places []).filterMap (·.functionNode? brokenSource)

theorem analyzeFile?_brokenFile :
    brokenFile.analyzeFile? "a.js" = some ⟨"a.js", "javascript", brokenNodes, true⟩ :=
  World.analyzeFile?_of_pairwise .javascript brokenParsed (by rfl) (by decide +kernel)
    (Parser.ofSource_self brokenSource brokenParsed .script) (by decide +kernel)

/-- The function behind the bracket is undocumented. -/
theorem exists_mem_brokenNodes :
    ∃ n ∈ brokenNodes, n.declaration? = some ⟨.namedFunction, some "g", 3⟩ ∧
      hasDocComment n.leadingComments = false := by
  decide +kernel

end DocScope
