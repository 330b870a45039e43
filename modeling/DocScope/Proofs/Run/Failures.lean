import DocScope.Grammar.Script
import DocScope.Proofs.Run.Restriction
import DocScope.Proofs.Scope.Failures

/-!
# Failures of version control only remove findings

A run against a backend that falls short of another one (`VersionControl.FallsShortOf`) is compared
with the run against the other.

* `checkNodes_within`, `checkFiles_within`: in a session with parts of the plain sets, the two loops
  find a part of what the plain sets lead to, and keep the session so.
* `checkNodes_full`, `checkFiles_full`: under `full` they find all of it, whatever the backend is:
  it is not asked.
* `run_of_failures`: so the findings of the run are, sorted, a part of the others, and the same files
  are analyzed.
-/

namespace DocScope

namespace Resolver

section
variable {r : Resolver} {w : VersionControl} (hv : r.vcs.Fixed) (hw : w.FallsShortOf r.vcs)
include hv hw

theorem checkNodes_within (file label : String) (ns : List FunctionNode) {s : Session}
    (hs : r.Within s) :
    ((r.withVcs w).checkNodes file label ns s).1.Sublist (ns.filterMap (r.finding? file label)) ∧
      r.Within ((r.withVcs w).checkNodes file label ns s).2 := by
  induction ns generalizing s with
  | nil => exact ⟨.slnil, hs⟩
  | cons n ns ih =>
    have htail := (List.sublist_cons_self n ns).filterMap (r.finding? file label)
    unfold checkNodes
    cases hd : n.declaration? with
    | none =>
      obtain ⟨hsub, hs'⟩ := ih hs
      exact ⟨hsub.trans htail, hs'⟩
    | some d =>
      obtain ⟨hin, hs₁⟩ := inScope_within hv hw hs file d.line
      obtain ⟨hsub, hs'⟩ := ih hs₁
      refine ⟨?_, hs'⟩
      cases hb : ((r.withVcs w).inScope file d.line s).1 with
      | false =>
        simp only [hb]
        exact hsub.trans htail
      | true =>
        -- the line is in scope for both, and both check the node alike
        have hn : r.finding? file label n =
            (check d n.leadingComments r.selector).map (Finding.ofViolation label) := by
          simp only [finding?, hd, hin hb, ↓reduceIte]
        simp only [hb, ↓reduceIte, withVcs_selector]
        cases hc : check d n.leadingComments r.selector with
        | none => exact hsub.trans htail
        | some v =>
          rw [hc] at hn
          rw [List.filterMap_cons_some hn]
          exact hsub.cons_cons _

theorem checkFiles_within (files : List String) {s : Session} (hs : r.Within s) :
    ((r.withVcs w).checkFiles files s).1.Sublist (files.flatMap r.findingsIn) ∧
      ((r.withVcs w).checkFiles files s).2.1 = (files.filterMap r.world.analyzeFile?).length := by
  induction files generalizing s with
  | nil => exact ⟨.slnil, rfl⟩
  | cons file files ih =>
    unfold checkFiles
    rw [List.flatMap_cons, List.filterMap_cons, withVcs_world]
    cases ha : r.world.analyzeFile? file with
    | none =>
      obtain ⟨hsub, hlen⟩ := ih hs
      exact ⟨hsub.trans (List.sublist_append_right _ _), hlen⟩
    | some facts =>
      obtain ⟨hnodes, hs'⟩ := checkNodes_within hv hw file (r.label file) facts.functions hs
      obtain ⟨hsub, hlen⟩ := ih hs'
      have hin : r.findingsIn file = facts.functions.filterMap (r.finding? file (r.label file)) := by
        rw [findingsIn, ha]
      rw [hin]
      exact ⟨hnodes.append hsub, congrArg (· + 1) hlen⟩

end

section
variable {r : Resolver} (hr : r.selector = .full)
include hr

theorem inScope_full (file : String) (line : Nat) (s : Session) :
    r.inScope file line s = (true, s) := by
  rw [inScope, hr]
  rfl

theorem checkNodes_full (file label : String) (ns : List FunctionNode) (s : Session) :
    r.checkNodes file label ns s = (ns.filterMap (fullFinding? label), s) := by
  induction ns with
  | nil => rfl
  | cons n ns ih =>
    unfold checkNodes
    rw [List.filterMap_cons]
    cases hd : n.declaration? with
    | none => simp [ih, fullFinding?, hd]
    | some d =>
      simp only [inScope_full hr, ih, fullFinding?, hd, hr, ↓reduceIte, Option.bind_some]
      cases check d n.leadingComments .full with
      | none => rfl
      | some v => rfl

theorem checkFiles_full (files : List String) (s : Session) :
    (r.checkFiles files s).1 = (files.flatMap r.locatedIn).map Prod.snd := by
  induction files with
  | nil => rfl
  | cons file files ih =>
    unfold checkFiles
    rw [List.flatMap_cons, List.map_append, locatedIn]
    cases r.world.analyzeFile? file with
    | none => exact ih
    | some facts => simp [checkNodes_full hr, ih, Function.comp_def]

end

end Resolver

namespace Runner

/-- **Failures of version control only remove findings.** Whatever questions fail, and whenever they
do, a run gives a result: its findings are some of those of the run without failures, in their
order, and it analyzes the same files. Under `full` nothing is lost. -/
theorem run_of_failures {r : Runner} (hv : r.vcs.Fixed) {w : VersionControl}
    (hw : w.FallsShortOf r.vcs) (files : List String) :
    ∃ found, (run { r with vcs := w } files .fresh).1 =
        ⟨r.selector, found, (r.run files .fresh).1.scanned⟩ ∧
      found.Sublist (r.run files .fresh).1.findings ∧
      (r.selector = .full → found = (r.run files .fresh).1.findings) := by
  have hv' : r.resolver.vcs.Fixed := hv
  obtain ⟨hsub, hlen⟩ := Resolver.checkFiles_within (r := r.resolver) hv' hw files (.fresh _)
  refine ⟨((r.resolver.withVcs w).checkFiles files .fresh).1.mergeSort Finding.le, ?_, ?_, ?_⟩
  · rw [run_eq hv .new]
    exact congrArg (DetectionResult.mk r.selector _) hlen
  · rw [run_eq hv .new]
    exact sublist_mergeSort_mergeSort Finding.le_trans Finding.le_total hsub
  · intro hfull
    have hfull' : r.resolver.selector = .full := hfull
    have hfailed : (r.resolver.withVcs w).selector = .full := hfull
    rw [Resolver.checkFiles_full hfailed]
    show _ = ((r.resolver.checkFiles files .fresh).1).mergeSort Finding.le
    rw [Resolver.checkFiles_full hfull']
    rfl

/-- The question for the changed files is answered and the one for the added lines fails. -/
theorem run_of_failures_added_lines :
    let source := Text.Utf8.bytesOf "export const f = (a: number) => a;\n"
    let diff := RecordedDiff.empty.withFile .workingTree "a.ts" [1]
    let world : World := ⟨.directory [("a.ts", .file source)], "/", Grammar.parser⟩
    let r : Runner := ⟨world, "/", .new, diff.backend, none⟩
    let w := diff.backend.failing (· == 1) .rangeTooLarge
    r.vcs.Fixed ∧ w.FallsShortOf r.vcs ∧ (r.run ["a.ts"] .fresh).1.findings.length = 1 ∧
      ∃ found, (run { r with vcs := w } ["a.ts"] .fresh).1 = ⟨.new, found, 1⟩ ∧ found = [] ∧
        found.Sublist (r.run ["a.ts"] .fresh).1.findings := by
  intro source diff world r w
  have hv : r.vcs.Fixed := ⟨fun _ _ _ => rfl, fun _ _ _ _ => rfl⟩
  have hw : w.FallsShortOf r.vcs := VersionControl.failing_fallsShortOf _ _ _
  obtain ⟨found, hrun, hsub, -⟩ := run_of_failures hv hw ["a.ts"]
  have hscanned : (r.run ["a.ts"] .fresh).1.scanned = 1 := by decide +kernel
  have hfound : (run { r with vcs := w } ["a.ts"] .fresh).1.findings = [] := by decide +kernel
  rw [hscanned] at hrun
  rw [hrun] at hfound
  exact ⟨hv, hw, by decide +kernel, found, hrun, hfound, hsub⟩

end Runner

end DocScope
