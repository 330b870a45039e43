import DocScope.Proofs.Run.Findings
import DocScope.Proofs.Run.Order
import DocScope.Run.Rule

/-!
# The lint rule and the run say the same

The lint rule goes through the nodes of one file without a memory and reports in their order; a run
remembers what it has asked and sorts its findings. Against a backend with fixed answers both decide
each node by itself, and they decide it alike.

* `DocRule.visit_eq`, `DocRule.lintNodes_eq`: the rule reports the findings of a resolver
  (`Resolver.finding?`) without the file, at one node and, by induction, at all nodes.
* `Runner.run_singleton_eq_lint`: the findings of a run on one file are the reports of the rule,
  sorted by line. All of them have one label, so the order by file and line is the order by line.
-/

namespace DocScope

/-- What a finding says, without the file. -/
def Finding.diagnostic (f : Finding) : Diagnostic := ⟨f.line, f.message⟩

/-- Reports are ordered by line. -/
def Diagnostic.le (a b : Diagnostic) : Bool := decide (a.line ≤ b.line)

theorem Finding.map_diagnostic_mergeSort {label : String} {fs : List Finding}
    (h : ∀ f ∈ fs, f.file = label) :
    (fs.mergeSort Finding.le).map Finding.diagnostic =
      (fs.map Finding.diagnostic).mergeSort Diagnostic.le := by
  refine List.map_mergeSort fun a ha b hb => ?_
  have hfile : a.file = b.file := (h a ha).trans (h b hb).symm
  have hlt : decide (b.file < b.file) = false := decide_eq_false (String.lt_irrefl _)
  rw [Finding.le, hfile, hlt, beq_self_eq_true, Bool.false_or, Bool.true_and]
  rfl

namespace DocRule

section
variable {r : DocRule} (hv : r.resolver.vcs.Fixed) (hc : r.resolver.cached = false)
include hv hc

theorem visit_eq (file label : String) (n : FunctionNode) (s : Session) :
    (r.visit file n s).1 = (r.resolver.finding? file label n).map Finding.diagnostic := by
  unfold visit Resolver.finding?
  cases n.declaration? with
  | none => rfl
  | some d =>
    simp only [Resolver.inScope_plain hv hc]
    cases r.resolver.plainInScope file d.line with
    | false => rfl
    | true =>
      cases check d n.leadingComments r.resolver.selector with
      | none => rfl
      | some v => rfl

theorem lintNodes_eq (file label : String) (ns : List FunctionNode) (s : Session) :
    (r.lintNodes file ns s).1 =
      (ns.filterMap (r.resolver.finding? file label)).map Finding.diagnostic := by
  induction ns generalizing s with
  | nil => rfl
  | cons n ns ih =>
    simp only [lintNodes, visit_eq hv hc file label, ih]
    cases h : r.resolver.finding? file label n with
    | none => rw [List.filterMap_cons_none h]; rfl
    | some f => rw [List.filterMap_cons_some h]; rfl

end

end DocRule

namespace Runner

/-- **The lint rule and a run on one file agree.** For every file that can be read and analyzed,
under every selector and in every session: the run finds what the rule reports, sorted by line;
reports of one line keep their order. -/
theorem run_singleton_eq_lint {vcs : VersionControl} (hv : vcs.Fixed) (selector : Selector)
    (world : World) (root : String) {file : String} {facts : FileFacts}
    (hfacts : world.analyzeFile? file = some facts)
    {s : Session} (hs : Reached ⟨world, root, selector, vcs, none⟩ s) (s' : Session) :
    (run ⟨world, root, selector, vcs, none⟩ [file] s).1.findings.map Finding.diagnostic =
      ((DocRule.make selector vcs world root).lint file facts s').1.mergeSort Diagnostic.le := by
  let r : Runner := ⟨world, root, selector, vcs, none⟩
  let rule := DocRule.make selector vcs world root
  have hin : r.resolver.findingsIn file =
      facts.functions.filterMap (rule.resolver.finding? file (r.resolver.label file)) := by
    rw [Resolver.findingsIn, show r.resolver.world.analyzeFile? file = some facts from hfacts]
    rfl
  have hlabel : ∀ f ∈ r.resolver.findingsIn file, f.file = r.resolver.label file := by
    intro f hf
    rw [hin] at hf
    obtain ⟨n, -, hn⟩ := List.mem_filterMap.1 hf
    exact Resolver.finding?_file hn
  have hlint : (rule.lint file facts s').1 = (r.resolver.findingsIn file).map Finding.diagnostic := by
    rw [hin]
    exact DocRule.lintNodes_eq hv rfl file (r.resolver.label file) facts.functions s'
  rw [hlint, run_eq hv hs, ← Finding.map_diagnostic_mergeSort hlabel, List.flatMap_singleton]

/-- Two functions around a syntax error in a file whose third line is in the index. -/
theorem run_singleton_eq_lint_second_line :
    let vcs := (RecordedDiff.empty.withFile .index "a.js" [3]).backend
    let facts : FileFacts := ⟨"a.js", "javascript", brokenNodes, true⟩
    vcs.Fixed ∧ brokenFile.analyzeFile? "a.js" = some facts ∧
      (run ⟨brokenFile, "/", .staged, vcs, none⟩ ["a.js"] .fresh).1.findings.map
          Finding.diagnostic =
        [⟨3, "Function \"g\" must have a JSDoc comment (staged change)"⟩] := by
  intro vcs facts
  have hv : vcs.Fixed := ⟨fun _ _ _ => rfl, fun _ _ _ _ => rfl⟩
  have hlint : ((DocRule.make .staged vcs brokenFile "/").lint "a.js" facts .fresh).1 =
      [⟨3, "Function \"g\" must have a JSDoc comment (staged change)"⟩] := by
    decide +kernel
  refine ⟨hv, analyzeFile?_brokenFile, ?_⟩
  rw [run_singleton_eq_lint hv .staged brokenFile "/" analyzeFile?_brokenFile .new .fresh, hlint,
    List.mergeSort_singleton]

end Runner

end DocScope
