import DocScope.Proofs.Run.Findings
import DocScope.Proofs.Run.Order
import Mathlib.Data.List.Basic

/-!
# A change-scoped run is a part of the full run

`Runner.located` are the findings of a run under `full`, each with the file it was made in. Two
files may have the same label, so the label in a finding does not tell where it comes from.

* `findingsIn_unmarked`: in one file, the findings under a selector are those under `full` whose
  line is in scope, but for the note and the words for it in the message.
* `run_restricts_full`: the same for a whole run. The findings are sorted after they are picked;
  since the sort is stable, they could as well be picked after they are sorted
  (`filter_mergeSort`).
-/

namespace DocScope

namespace Finding

/-- A finding without its note and without the words for the note at the end of the message. -/
def unmarked (f : Finding) : Finding :=
  match f.note with
  | none => f
  | some n =>
    let words := (" (" ++ n.text ++ ")").toList
    { f with
      message := .ofList ((Text.stripEnd? words f.message.toList).getD f.message.toList)
      note := none }

theorem unmarked_file (f : Finding) : f.unmarked.file = f.file := by
  unfold unmarked; split <;> rfl

theorem unmarked_line (f : Finding) : f.unmarked.line = f.line := by
  unfold unmarked; split <;> rfl

/-- What is left of a violation's finding is the finding of the violation without its note. -/
theorem unmarked_ofViolation (label : String) (v : Violation) :
    (ofViolation label v).unmarked = ofViolation label { v with note := none } := by
  obtain ⟨name, line, note⟩ := v
  cases note with
  | none => rfl
  | some n =>
    have hs : ∀ a b : String, Text.stripEnd? b.toList (a ++ b).toList = some a.toList := by
      intro a b
      rw [Text.stripEnd?, List.isSuffixOf?_eq_some_iff_append_eq, String.toList_append]
    simp only [unmarked, ofViolation, Violation.message, Violation.messageFor, Violation.displayName,
      hs, Option.getD_some, String.ofList_toList, String.append_empty]

end Finding

namespace Resolver

/-- The finding at a node under `full`, if there is one. -/
def fullFinding? (label : String) (n : FunctionNode) : Option Finding :=
  n.declaration?.bind fun d =>
    (check d n.leadingComments .full).map (Finding.ofViolation label)

/-- The findings in a file under `full`, each with the file. -/
def locatedIn (r : Resolver) (file : String) : List (String × Finding) :=
  match r.world.analyzeFile? file with
  | none => []
  | some facts => (facts.functions.filterMap (fullFinding? (r.label file))).map (file, ·)

/-- A node's finding under a selector is the one under `full`, if the line is in scope. -/
theorem finding?_unmarked (r : Resolver) (file label : String) (n : FunctionNode) :
    (r.finding? file label n).map Finding.unmarked =
      (fullFinding? label n).filter fun f => r.plainInScope file f.line := by
  unfold finding? fullFinding?
  cases n.declaration? with
  | none => rfl
  | some d =>
    simp only [check, Option.bind_some]
    cases hasDocComment n.leadingComments with
    | true => simp
    | false =>
      cases h : r.plainInScope file d.line
      · simp [Option.filter, Finding.ofViolation, h]
      · simp only [↓reduceIte, Bool.false_eq_true, Option.map_some, Finding.unmarked_ofViolation]
        simp [Option.filter, Finding.ofViolation, h, Selector.note?]

theorem finding?_full {r : Resolver} (hr : r.selector = .full) (file label : String)
    (n : FunctionNode) : r.finding? file label n = fullFinding? label n := by
  simp only [finding?, fullFinding?, plainInScope, hr, Selector.diffScope?]
  cases n.declaration? <;> rfl

theorem findingsIn_full {r : Resolver} (hr : r.selector = .full) (file : String) :
    r.findingsIn file = (r.locatedIn file).map Prod.snd := by
  unfold findingsIn locatedIn
  cases r.world.analyzeFile? file with
  | none => rfl
  | some facts => simp [finding?_full hr, Function.comp_def]

/-- In one file, the findings under a selector are the ones under `full` that are in scope. -/
theorem findingsIn_unmarked (r : Resolver) (file : String) :
    (r.findingsIn file).map Finding.unmarked =
      ((r.locatedIn file).filter fun p => r.plainInScope p.1 p.2.line).map Prod.snd := by
  unfold findingsIn locatedIn
  cases r.world.analyzeFile? file with
  | none => rfl
  | some facts =>
    have hfile : Prod.snd ∘ (fun f : Finding => (file, f)) = id := rfl
    rw [List.filter_map, List.map_map, hfile, List.map_id, List.filter_filterMap]
    simp only [List.map_filterMap, finding?_unmarked]
    rfl

end Resolver

namespace Runner

/-- Whether a line of a file is in scope, as a resolver without memory decides it. -/
def inScope (r : Runner) (file : String) (line : Nat) : Bool :=
  ((Resolver.make r.selector r.vcs r.world r.root r.sourceRoot false).inScope file line .fresh).1

/-- The runner under `full`. -/
def full (r : Runner) : Runner := { r with selector := .full }

/-- The findings under `full` in their order, each with the file it was made in. -/
def located (r : Runner) (files : List String) : List (String × Finding) :=
  (files.flatMap r.resolver.locatedIn).mergeSort fun a b => a.2.le b.2

theorem inScope_eq {r : Runner} (hv : r.vcs.Fixed) (file : String) (line : Nat) :
    r.inScope file line = r.resolver.plainInScope file line := by
  rw [inScope, Resolver.inScope_plain (by exact hv) rfl]
  rfl

/-- Picking before the sort is picking after it. -/
theorem map_unmarked_run {r : Runner} (hv : r.vcs.Fixed) {s : Session} (hs : r.Reached s)
    (files : List String) :
    (r.run files s).1.findings.map Finding.unmarked =
      ((r.located files).filter fun p => r.inScope p.1 p.2.line).map Prod.snd := by
  have hsort := filter_mergeSort (r := fun a b : String × Finding => a.2.le b.2)
    (fun a b c => Finding.le_trans a.2 b.2 c.2) (fun a b => Finding.le_total a.2 b.2)
  simp only [run_eq hv hs, located, inScope_eq hv, hsort]
  rw [List.map_mergeSort (f := Prod.snd) (s := Finding.le) fun _ _ _ _ => rfl,
    List.map_mergeSort (f := Finding.unmarked) (s := Finding.le) fun a _ b _ =>
      Finding.le_congr a.unmarked_file.symm a.unmarked_line.symm b.unmarked_file.symm
        b.unmarked_line.symm]
  simp only [List.map_flatMap, Resolver.findingsIn_unmarked, List.filter_flatMap]

theorem run_full {r : Runner} (hv : r.vcs.Fixed) {s : Session} (hs : r.full.Reached s)
    (files : List String) :
    (r.full.run files s).1.findings = (r.located files).map Prod.snd := by
  have hv' : r.full.vcs.Fixed := hv
  have hin : r.full.resolver.findingsIn = fun file => (r.resolver.locatedIn file).map Prod.snd :=
    funext fun file => Resolver.findingsIn_full (r := r.full.resolver) rfl file
  rw [run_eq hv' hs, located, List.map_mergeSort (s := Finding.le) fun _ _ _ _ => rfl,
    List.map_flatMap, hin]

/-- **A change-scoped run is a part of the full run.** Under any selector, the findings of a run,
without their notes, are those of the full run on the same files whose line is in scope in the file
they were made in: in the same order and as often. Both runs analyze the same files. -/
theorem run_restricts_full {r : Runner} (hv : r.vcs.Fixed) {s s' : Session} (hs : r.Reached s)
    (hs' : r.full.Reached s') (files : List String) :
    (r.full.run files s').1.findings = (r.located files).map Prod.snd ∧
      (r.run files s).1.findings.map Finding.unmarked =
        ((r.located files).filter fun p => r.inScope p.1 p.2.line).map Prod.snd ∧
      (r.run files s).1.scanned = (r.full.run files s').1.scanned := by
  have hv' : r.full.vcs.Fixed := hv
  refine ⟨run_full hv hs' files, map_unmarked_run hv hs files, ?_⟩
  rw [run_eq hv hs, run_eq hv' hs']
  rfl

/-- Of two undocumented functions around a syntax error, the one on the added line is left. -/
theorem run_restricts_full_second_line :
    let diff := RecordedDiff.empty.withFile .workingTree "a.js" [3]
    let r : Runner := ⟨brokenFile, "/", .new, diff.backend, none⟩
    r.vcs.Fixed ∧ r.Reached .fresh ∧ r.full.Reached .fresh ∧
      (r.full.run ["a.js"] .fresh).1.findings.map (·.line) = [1, 3] ∧
      ((r.run ["a.js"] .fresh).1.findings.map Finding.unmarked).map (·.line) = [3] := by
  intro diff r
  have hv : r.vcs.Fixed := ⟨fun _ _ _ => rfl, fun _ _ _ _ => rfl⟩
  obtain ⟨hfull, hpart, -⟩ := run_restricts_full hv .new .new ["a.js"]
  have hworld : r.resolver.world = brokenFile := rfl
  have hlabel : r.resolver.label "a.js" = "a.js" := by decide +kernel
  have hlocated : ["a.js"].flatMap r.resolver.locatedIn =
      (brokenNodes.filterMap (Resolver.fullFinding? "a.js")).map ("a.js", ·) := by
    rw [List.flatMap_singleton, Resolver.locatedIn, hworld, analyzeFile?_brokenFile, hlabel]
  -- the located findings of one file are in order already, and nothing has to be sorted
  have hsort : r.located ["a.js"] =
      (brokenNodes.filterMap (Resolver.fullFinding? "a.js")).map ("a.js", ·) := by
    rw [located, hlocated]
    exact List.mergeSort_of_pairwise (by decide +kernel)
  refine ⟨hv, .new, .new, ?_, ?_⟩
  · rw [hfull, hsort]
    decide +kernel
  · rw [hpart, hsort]
    decide +kernel

end Runner

end DocScope
