import DocScope.Grammar.Script
import DocScope.Proofs.Cli.Scanned
import DocScope.Proofs.Run.Restriction

/-!
# What a check reports

A command line that can be carried out stands for one `Check` (`Check.ofArguments?`), and the check
has a result. `reported` are the findings of the result.

* `runCheck_of_result`: the command prints the report of this result;
* `mem_reported`: the reported findings are made in the scanned files (`Check.Finds`);
* `Resolver.exists_mem_findingsIn`, `Resolver.mem_locatedIn_congr`: which findings a file has, and that
  the spelling of its path plays no part in this.
-/

namespace DocScope

/-! ## Findings in one file -/

/-- Two findings say the same: the same name in the same line of a file. -/
def Finding.SameSpot (f g : Finding) : Prop := f.file = g.file ∧ f.line = g.line ∧ f.name = g.name

instance (f g : Finding) : Decidable (f.SameSpot g) := inferInstanceAs (Decidable (_ ∧ _))

theorem Finding.unmarked_sameSpot (f : Finding) : f.SameSpot f.unmarked := by
  unfold unmarked
  split <;> exact ⟨rfl, rfl, rfl⟩

theorem World.functions_congr {w : World} {p q : String} (hr : w.resolve p = w.resolve q)
    (hn : Path.fileName? p.toList = Path.fileName? q.toList) :
    (w.analyzeFile? p).map (·.functions) = (w.analyzeFile? q).map (·.functions) := by
  have hread : w.read p = w.read q := by
    unfold read
    rw [hr]
  have hext : extensionOf p = extensionOf q := by
    unfold extensionOf Path.extension?
    rw [hn]
  unfold analyzeFile? analyze
  rw [hread, hext]
  cases w.read q with
  | error e => rfl
  | ok source =>
    cases Language.ofExtension? (extensionOf q) with
    | some l =>
      dsimp only
      cases w.parser l.dialect source <;> rfl
    | none =>
      simp only [LineScan.scan]
      cases Text.Utf8.decode source <;> rfl

namespace Resolver

theorem mem_locatedIn {r : Resolver} {file : String} {p : String × Finding} :
    p ∈ r.locatedIn file ↔
      p.1 = file ∧ ∃ functions, (r.world.analyzeFile? file).map (·.functions) = some functions ∧
        ∃ n ∈ functions, fullFinding? (r.label file) n = some p.2 := by
  obtain ⟨q, g⟩ := p
  unfold locatedIn
  cases r.world.analyzeFile? file with
  | none => simp
  | some facts =>
    simp only [List.mem_map, List.mem_filterMap, Prod.mk.injEq, Option.map_some, Option.some.injEq,
      exists_eq_left']
    constructor
    · rintro ⟨_, hn, rfl, rfl⟩
      exact ⟨rfl, hn⟩
    · rintro ⟨rfl, hn⟩
      exact ⟨g, hn, rfl, rfl⟩

theorem mem_locatedIn_congr {r : Resolver} {p q : String} {g : Finding}
    (hr : r.world.resolve p = r.world.resolve q)
    (hn : Path.fileName? p.toList = Path.fileName? q.toList) (hl : r.label p = r.label q) :
    (p, g) ∈ r.locatedIn p ↔ (q, g) ∈ r.locatedIn q := by
  rw [mem_locatedIn, mem_locatedIn, World.functions_congr hr hn, hl]
  simp

/-- The findings of a file under a selector, but for their notes, are those under `full` on lines
that are in scope. -/
theorem exists_mem_findingsIn {r : Resolver} {file : String} {g : Finding} :
    (∃ f ∈ r.findingsIn file, f.unmarked = g) ↔
      (file, g) ∈ r.locatedIn file ∧ r.plainInScope file g.line = true := by
  rw [← List.mem_map, findingsIn_unmarked, List.mem_map]
  constructor
  · rintro ⟨⟨q, _⟩, hp, rfl⟩
    obtain ⟨hmem, hscope⟩ := List.mem_filter.1 hp
    obtain rfl : q = file := (mem_locatedIn.1 hmem).1
    exact ⟨hmem, hscope⟩
  · rintro ⟨hmem, hscope⟩
    exact ⟨(file, g), List.mem_filter.2 ⟨hmem, hscope⟩, rfl⟩

theorem mem_findingsIn_full {r : Resolver} (hr : r.selector = .full) {file : String} {g : Finding} :
    g ∈ r.findingsIn file ↔ (file, g) ∈ r.locatedIn file := by
  rw [findingsIn_full hr, List.mem_map]
  constructor
  · rintro ⟨⟨q, _⟩, hmem, rfl⟩
    obtain rfl : q = file := (mem_locatedIn.1 hmem).1
    exact hmem
  · exact fun hmem => ⟨_, hmem, rfl⟩

theorem relativePath?_of_plainInScope {r : Resolver} {scope : DiffScope}
    (hsel : r.selector.diffScope? = some scope) {file : String} {n : Nat}
    (h : r.plainInScope file n = true) : ∃ q, r.relativePath? file = some q := by
  unfold plainInScope at h
  rw [hsel] at h
  cases hq : r.relativePath? file with
  | none => simp [hq] at h
  | some q => exact ⟨q, rfl⟩

end Resolver

/-! ## Findings of a check -/

namespace Cli

namespace Check

/-- The check that a command line asks for, if the settings can be used. -/
def ofArguments? (w : World) (host : ProcessHost) (args : CheckArguments) : Option Check :=
  match Config.load w args.config w.cwd with
  | .error _ => none
  | .ok config =>
    match config.patterns with
    | .error _ => none
    | .ok patterns => some (.make w host config patterns args)

theorem exists_of_ofArguments? {w : World} {host : ProcessHost} {args : CheckArguments} {c : Check}
    (h : ofArguments? w host args = some c) :
    ∃ config patterns, Config.load w args.config w.cwd = .ok config ∧
      config.patterns = .ok patterns ∧ c = .make w host config patterns args := by
  unfold ofArguments? at h
  split at h
  · cases h
  · rename_i config hconfig
    split at h
    · cases h
    · rename_i patterns hpatterns
      exact ⟨config, patterns, hconfig, hpatterns, (Option.some.inj h).symm⟩

theorem world_of_ofArguments? {w : World} {host : ProcessHost} {args : CheckArguments} {c : Check}
    (h : ofArguments? w host args = some c) : c.world = w := by
  obtain ⟨_, _, -, -, rfl⟩ := exists_of_ofArguments? h
  rfl

theorem ofArguments?_full {w : World} {host : ProcessHost} {args : CheckArguments} {c : Check}
    (h : ofArguments? w host args = some c) :
    ofArguments? w host { args with selector := some .full } = some c.full := by
  obtain ⟨config, patterns, hconfig, hpatterns, rfl⟩ := exists_of_ofArguments? h
  simp only [ofArguments?, hconfig, hpatterns]
  rfl

/-- What a check comes to. -/
def result (c : Check) : Except Fault DetectionResult :=
  (c.files .fresh).map fun p => (c.runner.run p.1 p.2).1

/-- A finding in a scanned file. -/
def Finds (c : Check) (file : String) (f : Finding) : Prop :=
  c.Scans file ∧ f ∈ c.runner.resolver.findingsIn file

instance (c : Check) (file : String) (f : Finding) : Decidable (c.Finds file f) :=
  inferInstanceAs (Decidable (_ ∧ _))

theorem files_reached {c : Check} {files : List String} {s : Session}
    (h : c.files .fresh = .ok (files, s)) : c.runner.Reached s := by
  unfold Check.files at h
  split at h
  · obtain ⟨_, -, heq⟩ := Except.map_eq_ok.1 h
    cases heq
    exact .new
  · cases h
    exact .changedFiles .new

theorem mem_findings {c : Check} {r : DetectionResult} (h : c.result = .ok r) {f : Finding} :
    f ∈ r.findings ↔ ∃ file, c.Finds file f := by
  obtain ⟨⟨files, s⟩, hf, rfl⟩ := Except.map_eq_ok.1 h
  have hv : c.runner.vcs.Fixed := c.git.backend_fixed
  rw [Runner.mem_run_findings hv (files_reached hf)]
  constructor
  · rintro ⟨file, hm, hfind⟩
    exact ⟨file, ⟨files, s, hf, hm⟩, hfind⟩
  · rintro ⟨file, ⟨files', s', hf', hm⟩, hfind⟩
    rw [hf] at hf'
    cases hf'
    exact ⟨file, hm, hfind⟩

/-- A check that has a result prints its report, under any format as soon as something is found. -/
theorem run_of_result {c : Check} {r : DetectionResult} (h : c.result = .ok r) {format : Format}
    (hshown : format = .json ∨ r.findings ≠ []) :
    c.run format = .printed c.world (if r.isClean then 0 else 1) (c.report format r) := by
  obtain ⟨⟨files, s⟩, hf, h⟩ := Except.map_eq_ok.1 h
  simp only [run, hf]
  cases files with
  | nil =>
    have hempty : r = .empty c.selector := by
      rw [← h, Runner.run_eq c.git.backend_fixed (files_reached hf)]
      simp [DetectionResult.empty, runner]
    subst hempty
    rcases hshown with rfl | hne
    · rfl
    · exact absurd rfl hne
  | cons file files => simp only [h]

end Check

/-- The findings that `check` reports (`runCheck_of_result`). -/
def reported (w : World) (host : ProcessHost) (args : CheckArguments) : List Finding :=
  match Check.ofArguments? w host args with
  | none => []
  | some c =>
    match c.result with
    | .ok r => r.findings
    | .error _ => []

/-- The command prints the report of the result. -/
theorem runCheck_of_result {w : World} {host : ProcessHost} {args : CheckArguments} {c : Check}
    (hc : Check.ofArguments? w host args = some c) {r : DetectionResult} (hr : c.result = .ok r)
    {format : Format} (hformat : Format.ofName? args.format = some format)
    (hshown : format = .json ∨ r.findings ≠ []) :
    runCheck w host args = .printed w (if r.isClean then 0 else 1) (c.report format r) := by
  obtain ⟨config, patterns, hconfig, hpatterns, rfl⟩ := Check.exists_of_ofArguments? hc
  simp only [runCheck, withSettings, hformat, hconfig, hpatterns]
  exact Check.run_of_result hr hshown

theorem mem_reported {w : World} {host : ProcessHost} {args : CheckArguments} {c : Check}
    (hc : Check.ofArguments? w host args = some c) {f : Finding} :
    f ∈ reported w host args ↔ ∃ file, c.Finds file f := by
  simp only [reported, hc]
  cases hr : c.result with
  | ok r => exact Check.mem_findings hr
  | error e =>
    simp only [List.not_mem_nil, false_iff, not_exists]
    rintro file ⟨⟨files, s, hf, -⟩, -⟩
    simp [Check.result, hf, Except.map] at hr

/-! ## A small repository -/

/-- Directories, each in the one before, and in the last of them one file with one function. -/
def nestedFile : List String → Entry
  | [] => .directory [("a.js", .file (Text.Utf8.bytesOf "function f() \x7b\x7d\n"))]
  | d :: ds => .directory [(d, nestedFile ds)]

theorem nestedFile_wellFormed {ds : List String} (h : ∀ d ∈ ds, ProperName d) :
    (nestedFile ds).WellFormed := by
  have hone : ∀ {n : String} {e : Entry}, ProperName n → e.WellFormed →
      (Entry.directory [(n, e)]).WellFormed := by
    intro n e hn he
    exact .directory (by simp) (by simpa using hn) (by simpa using he)
  induction ds with
  | nil => exact hone (by decide) (.file _)
  | cons d ds ih =>
    obtain ⟨hd, hds⟩ := List.forall_mem_cons.1 h
    exact hone hd (ih hds)

/-- One file with one function, in the source directory of the default settings. -/
def oneSourceFile : World := ⟨nestedFile ["src"], "/", Grammar.parser⟩

theorem oneSourceFile_wellFormed : oneSourceFile.root.WellFormed := nestedFile_wellFormed (by decide)

/-- A repository at the root directory; its working tree adds the first line of one file. -/
def firstLineAdded (w : World) (path : String) : ProcessHost :=
  let answer (arguments text : String) : RecordedRun :=
    ⟨"-c core.quotePath=false " ++ arguments, 0, 0, Text.Utf8.bytesOf text, []⟩
  .recorded w "git"
    [answer "rev-parse --show-toplevel" "/\n",
      answer "diff HEAD --no-color --no-ext-diff --name-only" (path ++ "\n"),
      answer ("diff HEAD --no-color --no-ext-diff -U0 -- " ++ path) "@@ -0,0 +1 @@\n"]

/-- The arguments `--new --format json` with a path or without. -/
def newArguments (path : Option String) : CheckArguments := ⟨path, some .new, "json", none⟩

/-- The check they ask for where there are no settings. -/
def newCheck (w : World) (changed : String) (path : Option String) : Check :=
  .make w (firstLineAdded w changed) .default [] (newArguments path)

theorem ofArguments?_newCheck (changed : String) (path : Option String) :
    Check.ofArguments? oneSourceFile (firstLineAdded oneSourceFile changed) (newArguments path) =
      some (newCheck oneSourceFile changed path) := by
  have hload : Config.load oneSourceFile (newArguments path).config oneSourceFile.cwd =
      .ok .default := by
    show Config.load oneSourceFile none oneSourceFile.cwd = .ok .default
    decide +kernel
  simp only [Check.ofArguments?, hload]
  rfl

end Cli

end DocScope
