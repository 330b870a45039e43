import DocScope.Grammar.Script
import DocScope.Proofs.Run.Findings
import DocScope.Proofs.Run.Order
import Mathlib.Data.List.Nodup

/-!
# The order of the files does not matter

The findings of a run are sorted by file and line, and the sort is stable: findings that are tied
keep the order in which they were made. Files with labels of their own have no tie between them, so
that order is the order of the nodes in one file (`Resolver.filter_tied_findings`), wherever the file
stands in the list. `Runner.run_perm` draws the conclusion for two runs with whatever they remember.
-/

namespace DocScope

namespace Resolver

/-- What is tied with a finding was found in the files with its label. -/
theorem filter_tied_findings (r : Resolver) (files : List String) (a : Finding) :
    (files.flatMap r.findingsIn).filter (tied Finding.le a) =
      (files.filter (r.label · = a.file)).flatMap fun file =>
        (r.findingsIn file).filter (tied Finding.le a) := by
  induction files with
  | nil => rfl
  | cons file files ih =>
    rw [List.flatMap_cons, List.filter_append, ih]
    by_cases hfile : r.label file = a.file
    · rw [List.filter_cons_of_pos (by simpa using hfile), List.flatMap_cons]
    · have hnone : (r.findingsIn file).filter (tied Finding.le a) = [] := by
        refine List.filter_eq_nil_iff.2 fun f hf htie => hfile ?_
        rw [← findingsIn_file hf]
        exact (Finding.file_eq_of_tied htie).symm
      rw [List.filter_cons_of_neg (by simpa using hfile), hnone, List.nil_append]

/-- Of files with labels of their own, at most one has a given label: there is nothing to permute. -/
theorem filter_label_eq_of_perm {r : Resolver} {files files' : List String}
    (h : files.Perm files') (hlabels : (files.map r.label).Nodup) (label : String) :
    files.filter (r.label · = label) = files'.filter (r.label · = label) := by
  have hany : ∀ l : List String, l.Pairwise fun _ _ => True :=
    fun l => List.pairwise_of_forall fun _ _ => trivial
  refine List.Perm.eq_of_pairwise ?_ (hany _) (hany _) (h.filter _)
  intro a b ha hb _ _
  obtain ⟨ha, hla⟩ := List.mem_filter.1 ha
  obtain ⟨hb, hlb⟩ := List.mem_filter.1 hb
  refine List.inj_on_of_nodup_map hlabels ha (h.mem_iff.2 hb) ?_
  exact (of_decide_eq_true hla).trans (of_decide_eq_true hlb).symm

end Resolver

namespace Runner

/-- **The order of the files does not matter.** Two lists of the same files, each with a label of
its own, give the same result: the same number of analyzed files and the same findings in the same
order, whatever was asked before each of the two runs. -/
theorem run_perm {r : Runner} (hv : r.vcs.Fixed) {s s' : Session} (hs : r.Reached s)
    (hs' : r.Reached s') {files files' : List String} (h : files.Perm files')
    (hlabels : (files.map r.resolver.label).Nodup) :
    (r.run files s).1 = (r.run files' s').1 := by
  rw [run_eq hv hs, run_eq hv hs', (h.filterMap r.world.analyzeFile?).length_eq]
  congr 1
  refine mergeSort_eq_of_filter_tied Finding.le_trans Finding.le_total fun a => ?_
  rw [Resolver.filter_tied_findings, Resolver.filter_tied_findings,
    Resolver.filter_label_eq_of_perm h hlabels]

/-- Two functions in one line. -/
def twoInOneLine : List UInt8 := Text.Utf8.bytesOf "const f = () => 1, g = () => 2\n"

/-- Two files with this content. -/
def twoFiles : World :=
  ⟨.directory [("a.js", .file twoInOneLine), ("b.js", .file twoInOneLine)], "/", Grammar.parser⟩

/-- The tree of the content. -/
def twoParsed : Parsed := ⟨(Grammar.parse? .script twoInOneLine).getD default, false⟩

theorem parser_twoFiles : twoFiles.parser .script twoInOneLine = some twoParsed := by
  have hsome : (Grammar.parse? .script twoInOneLine).isSome := by decide +kernel
  have hparser : twoFiles.parser = Grammar.parser := rfl
  obtain ⟨t, ht⟩ := Option.isSome_iff_exists.1 hsome
  rw [hparser, Grammar.parser_of_parse? ht, twoParsed, ht, Option.getD_some]

/-- Its functions are in order. -/
theorem pairwise_twoParsed :
    ((twoParsed.tree.places []).filterMap (·.functionNode? twoInOneLine)).Pairwise
      fun a b => a.span.startByte ≤ b.span.startByte := by
  decide +kernel

theorem analyzeFile?_twoFiles {file : String} (hread : twoFiles.read file = .ok twoInOneLine)
    (hl : Language.ofExtension? (extensionOf file) = some .javascript) :
    twoFiles.analyzeFile? file = some ⟨file, "javascript",
      (twoParsed.tree.places []).filterMap (·.functionNode? twoInOneLine), false⟩ :=
  World.analyzeFile?_of_pairwise .javascript twoParsed hread hl parser_twoFiles pairwise_twoParsed

/-- Two files, each with two functions in one line. -/
theorem run_perm_two_files :
    let r : Runner := ⟨twoFiles, "/", .full, RecordedDiff.empty.backend, none⟩
    r.vcs.Fixed ∧ ["b.js", "a.js"].Perm ["a.js", "b.js"] ∧
      (["b.js", "a.js"].map r.resolver.label).Nodup ∧
      (r.run ["b.js", "a.js"] .fresh).1 = (r.run ["a.js", "b.js"] .fresh).1 ∧
      (r.run ["b.js", "a.js"] .fresh).1.findings.map (fun f => (f.file, f.name)) =
        [("a.js", "f"), ("a.js", "g"), ("b.js", "f"), ("b.js", "g")] := by
  intro r
  have hv : r.vcs.Fixed := ⟨fun _ _ _ => rfl, fun _ _ _ _ => rfl⟩
  have hperm : ["b.js", "a.js"].Perm ["a.js", "b.js"] := List.Perm.swap _ _ _
  have hlabels : (["b.js", "a.js"].map r.resolver.label).Nodup := by decide +kernel
  have hrun := run_perm hv .new .new hperm hlabels
  refine ⟨hv, hperm, hlabels, hrun, ?_⟩
  let found : List Finding :=
    [⟨"a.js", 1, "f", Violation.messageFor "f" none, none⟩,
      ⟨"a.js", 1, "g", Violation.messageFor "g" none, none⟩,
      ⟨"b.js", 1, "f", Violation.messageFor "f" none, none⟩,
      ⟨"b.js", 1, "g", Violation.messageFor "g" none, none⟩]
  have hfound : ["a.js", "b.js"].flatMap r.resolver.findingsIn = found := by
    have hworld : r.resolver.world = twoFiles := rfl
    rw [List.flatMap_cons, List.flatMap_singleton, Resolver.findingsIn, Resolver.findingsIn, hworld,
      analyzeFile?_twoFiles (by decide +kernel) (by decide +kernel),
      analyzeFile?_twoFiles (by decide +kernel) (by decide +kernel)]
    decide +kernel
  -- in this order of the files nothing has to be sorted
  have hsort : found.mergeSort Finding.le = found := List.mergeSort_of_pairwise (by decide +kernel)
  rw [hrun, run_eq hv .new, hfound, hsort]
  rfl

end Runner

end DocScope
