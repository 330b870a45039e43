import DocScope.Proofs.Git.Output
import DocScope.Proofs.Scope.Recorded

/-!
# The two backends

The same changed files, each with the text of its diff, can be recorded in memory, or a program can
print them. Both backends then list the same files (`Resolver.plainChanged_git`,
`Resolver.plainChanged_record`) and know the same lines of a listed file (`Resolver.plainAdded_git`,
`Resolver.plainAdded_record`).

A file is looked up among the listed ones by the normal form of its path, and so are its lines in a
recorded diff; the program is asked for the path itself. Where a path is not normal although it has
been normalized once, as with blanks between quotation marks, the two backends can differ.

* `Resolver.plainInScope_backends`: they agree on every file whose path is normal.
* `Resolver.inScope_backends_iff`: exactly when they agree.
-/

namespace DocScope

/-- A changed file with the text of its diff. -/
structure PathDiff where
  scope : DiffScope
  path : String
  text : String
deriving DecidableEq, Repr

namespace PathDiff

def recording (x : PathDiff) : Recording := .diff x.scope x.path x.text

/-- The lines that the diff adds, none if it cannot be read. -/
def lines (x : PathDiff) : List Nat := x.recording.lines?.getD []

/-- Changed files that can be listed: every file is listed once in a diff, by a normal path on one
line, and its diff can be read. -/
structure Listing (diffs : List PathDiff) : Prop where
  normal : ∀ x ∈ diffs, normalizePath x.path = x.path
  oneLine : ∀ x ∈ diffs, OneLine x.path.toList
  once : (diffs.map fun x => (x.scope, x.path)).Nodup
  readable : ∀ x ∈ diffs, ∀ range ∈ HunkRange.ofDiff x.text.toList,
    range.start + range.count < lineLimit

variable {diffs : List PathDiff}

theorem Listing.lines?_eq (h : Listing diffs) {x : PathDiff} (hx : x ∈ diffs) :
    x.recording.lines? = some x.lines := by
  obtain ⟨s, hs, -, -⟩ := AddedLines.ofDiff?_spec (h.readable x hx)
  simp [lines, recording, Recording.lines?, hs]

theorem Listing.eq_of_path (h : Listing diffs) {x y : PathDiff} (hx : x ∈ diffs) (hy : y ∈ diffs)
    (hscope : x.scope = y.scope) (hpath : x.path = y.path) : x = y :=
  List.inj_on_of_nodup_map h.once hx hy (Prod.ext hscope hpath)

theorem Listing.exists_recorded (h : Listing diffs) :
    ∃ d, RecordedDiff.ofCalls? (diffs.map recording) = some d := by
  refine Option.isSome_iff_exists.1 ((RecordedDiff.isSome_ofCalls? _).2 ?_)
  refine List.forall_mem_map.2 fun x hx => ?_
  rw [h.lines?_eq hx]
  rfl

theorem Listing.mem_records (h : Listing diffs) {d : RecordedDiff}
    (hd : RecordedDiff.ofCalls? (diffs.map recording) = some d) {rec : DiffRecord} :
    rec ∈ d.records ↔ ∃ x ∈ diffs, rec = ⟨x.scope, x.path, x.lines⟩ := by
  have hrecord : ∀ x ∈ diffs, x.recording.record? = some ⟨x.scope, x.path, x.lines⟩ := by
    intro x hx
    exact Recording.record?_eq_some.2 ⟨rfl, (h.normal x hx).symm, h.lines?_eq hx⟩
  rw [RecordedDiff.mem_ofCalls? hd]
  constructor
  · rintro ⟨c, hc, hrec⟩
    obtain ⟨x, hx, rfl⟩ := List.mem_map.1 hc
    exact ⟨x, hx, Option.some.inj (hrec.symm.trans (hrecord x hx))⟩
  · rintro ⟨x, hx, rfl⟩
    exact ⟨x.recording, List.mem_map_of_mem hx, hrecord x hx⟩

def ofOneFile : List PathDiff := [⟨.workingTree, "a.ts", "@@ -0,0 +1 @@\n"⟩]

theorem listing_ofOneFile : Listing ofOneFile := by
  refine ⟨?_, ?_, ?_, ?_⟩
  · decide
  · decide
  · decide
  · decide

end PathDiff

/-! ## What each backend knows -/

namespace Git

/-- The program lists the files of each diff, one on a line, and prints the text of a listed file. -/
structure Reports (g : Git) (diffs : List PathDiff) : Prop where
  names : ∀ scope, g.Prints (diffArguments scope ++ ["--name-only"])
    (nameLines ((diffs.filter (·.scope = scope)).map (·.path)))
  texts : ∀ x ∈ diffs, g.Prints (diffArguments x.scope ++ ["-U0", "--", x.path]) x.text

/-- The program prints nothing about a file that it does not list. -/
def Silent (g : Git) (diffs : List PathDiff) : Prop :=
  ∀ scope path, (∀ x ∈ diffs, ¬ (x.scope = scope ∧ x.path = path)) →
    g.Prints (diffArguments scope ++ ["-U0", "--", path]) ""

/-- A program that knows of one changed file and prints nothing else. -/
def ofOneFile : Git where
  host := ⟨fun _ _ arguments =>
    if arguments = options ++ diffArguments .workingTree ++ ["--name-only"] then
      .exited 0 0 (Text.Utf8.bytesOf "a.ts\n") []
    else if arguments = options ++ diffArguments .workingTree ++ ["-U0", "--", "a.ts"] then
      .exited 0 0 (Text.Utf8.bytesOf "@@ -0,0 +1 @@\n") []
    else .exited 0 0 [] []⟩
  program := "git"
  root := "/"
  timeoutMs := defaultTimeoutMs

theorem reports_ofOneFile : ofOneFile.Reports PathDiff.ofOneFile := by
  refine ⟨fun scope => ⟨0, [], by decide, ?_⟩, fun x hx => ⟨0, [], by decide, ?_⟩⟩
  · cases scope <;> decide +kernel
  · obtain rfl := List.mem_singleton.1 hx
    decide +kernel

theorem silent_ofOneFile : ofOneFile.Silent PathDiff.ofOneFile := by
  intro scope path h
  refine ⟨0, [], by decide, ?_⟩
  have hpath : ¬ (scope = .workingTree ∧ path = "a.ts") := by
    rintro ⟨rfl, rfl⟩
    exact h _ List.mem_cons_self ⟨rfl, rfl⟩
  have hempty : Text.Utf8.bytesOf "" = [] := rfl
  cases scope <;> simp_all [ofOneFile, diffArguments, options]

end Git

namespace Resolver

variable {r : Resolver} {diffs : List PathDiff} (hl : PathDiff.Listing diffs)
include hl

section
variable {g : Git} (hr : r.vcs = g.backend) (hg : g.Reports diffs)
include hr hg

theorem plainChanged_git {scope : DiffScope} {q : String} :
    (r.plainChanged scope).contains q = true ↔
      (∃ x ∈ diffs, x.scope = scope ∧ x.path = normalizePath q) ∧
        normalizePath q ≠ "" ∧ ChangedFiles.LiesUnder (normalizePath q) r.sourceRoot := by
  have hpaths : ∀ p ∈ (diffs.filter (·.scope = scope)).map (·.path),
      ∃ x ∈ diffs, x.scope = scope ∧ x.path = p := by
    simp [and_assoc]
  have hlisted : r.vcs.listed scope =
      ((diffs.filter (·.scope = scope)).map (·.path)).filter (· ≠ "") := by
    have hfiles : g.changedFiles scope = _ := Git.changedFiles_of_prints
      (fun p hp => by obtain ⟨x, hx, -, rfl⟩ := hpaths p hp; exact hl.normal x hx)
      (fun p hp => by obtain ⟨x, hx, -, rfl⟩ := hpaths p hp; exact hl.oneLine x hx) (hg.names scope)
    simp only [VersionControl.listed, hr, Git.backend, hfiles]
  rw [plainChanged_eq, ChangedFiles.contains_ofPaths, hlisted]
  refine and_congr_left fun hq => ?_
  obtain ⟨hne, -⟩ := hq
  constructor
  · rintro ⟨raw, hraw, heq⟩
    obtain ⟨x, hx, hscope, rfl⟩ := hpaths raw (List.mem_filter.1 hraw).1
    exact ⟨x, hx, hscope, (hl.normal x hx).symm.trans heq⟩
  · rintro ⟨x, hx, hscope, hpath⟩
    refine ⟨x.path, ?_, by rw [hl.normal x hx, hpath]⟩
    rw [← hpath] at hne
    simp only [List.mem_filter, List.mem_map, decide_eq_true_eq]
    exact ⟨⟨x, ⟨hx, hscope⟩, rfl⟩, hne⟩

theorem plainAdded_git {x : PathDiff} (hx : x ∈ diffs) {n : Nat} :
    (r.plainAdded x.scope x.path).contains n = true ↔ n ∈ x.lines := by
  obtain ⟨set, hset, -, -⟩ := AddedLines.ofDiff?_spec (hl.readable x hx)
  have hlines : x.lines = set.lines := by
    simp [PathDiff.lines, PathDiff.recording, Recording.lines?, hset]
  have hgit : g.addedLines x.scope x.path = .ok set.lines :=
    Git.addedLines_of_prints (hg.texts x hx) hset
  simp only [plainAdded, askAdded, hr, Git.backend, hgit]
  rw [AddedLines.contains_ofList, hlines]

end

section
variable {d : RecordedDiff} (hr : r.vcs = d.backend)
  (hd : RecordedDiff.ofCalls? (diffs.map PathDiff.recording) = some d)
include hr hd

theorem plainChanged_record {scope : DiffScope} {q : String} :
    (r.plainChanged scope).contains q = true ↔
      (∃ x ∈ diffs, x.scope = scope ∧ x.path = normalizePath q) ∧
        normalizePath q ≠ "" ∧ ChangedFiles.LiesUnder (normalizePath q) r.sourceRoot := by
  rw [plainChanged_recorded hr]
  refine and_congr_left fun _ => ?_
  constructor
  · rintro ⟨rec, hrec, hscope, hpath⟩
    obtain ⟨x, hx, rfl⟩ := (hl.mem_records hd).1 hrec
    exact ⟨x, hx, hscope, (hl.normal x hx).symm.trans hpath⟩
  · rintro ⟨x, hx, hscope, hpath⟩
    exact ⟨_, (hl.mem_records hd).2 ⟨x, hx, rfl⟩, hscope, (hl.normal x hx).trans hpath⟩

theorem plainAdded_record {x : PathDiff} (hx : x ∈ diffs) {q : String}
    (hq : x.path = normalizePath q) {n : Nat} :
    (r.plainAdded x.scope q).contains n = true ↔ n ∈ x.lines := by
  rw [plainAdded_recorded hr]
  constructor
  · rintro ⟨rec, hrec, hscope, hpath, hn⟩
    obtain ⟨y, hy, rfl⟩ := (hl.mem_records hd).1 hrec
    rwa [hl.eq_of_path hx hy hscope.symm (hq.trans hpath.symm)]
  · intro hn
    exact ⟨_, (hl.mem_records hd).2 ⟨x, hx, rfl⟩, rfl, hq, hn⟩

end

/-! ## Agreement -/

section
variable {g : Git} (hg : g.Reports diffs) {d : RecordedDiff}
  (hd : RecordedDiff.ofCalls? (diffs.map PathDiff.recording) = some d)
include hg hd

/-- The backends list the same files. -/
theorem plainChanged_backends {r r' : Resolver} (hr : r.vcs = g.backend) (hr' : r'.vcs = d.backend)
    (hroot : r.sourceRoot = r'.sourceRoot) (scope : DiffScope) (q : String) :
    (r.plainChanged scope).contains q = (r'.plainChanged scope).contains q := by
  rw [Bool.eq_iff_iff, plainChanged_git hl hr hg, plainChanged_record hl hr' hd, hroot]

/-- For a normal path the program is asked for what the file is recorded by. -/
theorem plainInScope_backends {r r' : Resolver} (hr : r.vcs = g.backend) (hr' : r'.vcs = d.backend)
    (hroot : r.sourceRoot = r'.sourceRoot) (hsel : r.selector = r'.selector) {file : String}
    (hfile : r.relativePath? file = r'.relativePath? file)
    (hnormal : ∀ q, r'.relativePath? file = some q → normalizePath q = q) (n : Nat) :
    r.plainInScope file n = r'.plainInScope file n := by
  simp only [plainInScope, hsel, hfile]
  cases r'.selector.diffScope? with
  | none => rfl
  | some scope =>
    cases hq : r'.relativePath? file with
    | none => rfl
    | some q =>
      simp only [plainChanged_backends hl hg hd hr hr' hroot]
      cases hc : (r'.plainChanged scope).contains q with
      | false => rfl
      | true =>
        obtain ⟨⟨x, hx, rfl, hpath⟩, -⟩ := (plainChanged_record hl hr' hd).1 hc
        obtain rfl : x.path = q := hpath.trans (hnormal q hq)
        rw [Bool.true_and, Bool.true_and, Bool.eq_iff_iff, plainAdded_git hl hr hg hx,
          plainAdded_record hl hr' hd hx hpath]

end

/-- Of a path that is not normal the program knows nothing: no such path is listed. -/
theorem plainInScope_git_of_not_normal {g : Git} (hr : r.vcs = g.backend)
    (hsilent : g.Silent diffs) {scope : DiffScope} (hsel : r.selector.diffScope? = some scope)
    {file q : String} (hfile : r.relativePath? file = some q) (hq : normalizePath q ≠ q) (n : Nat) :
    r.plainInScope file n = false := by
  have hprint : g.Prints (Git.diffArguments scope ++ ["-U0", "--", q]) "" := by
    refine hsilent scope q ?_
    rintro x hx ⟨-, rfl⟩
    exact hq (hl.normal x hx)
  have hempty : AddedLines.ofDiff? "" = some (AddedLines.ofList []) := rfl
  have hgit : g.addedLines scope q = .ok (AddedLines.ofList []).lines :=
    Git.addedLines_of_prints hprint hempty
  have hnone : (r.plainAdded scope q).contains n = false := by
    rw [Bool.eq_false_iff, Ne]
    simp only [plainAdded, askAdded, hr, Git.backend, hgit]
    rw [AddedLines.contains_ofList]
    intro hn
    have hmem := (AddedLines.contains_ofList [] n).1 (List.contains_iff_mem.2 hn)
    cases hmem
  simp only [plainInScope, hsel, hfile, hnone, Bool.and_false]

/-- The path of a file, as the resolver sees it, is normal. -/
def SeesNormal (r : Resolver) (file : String) : Prop :=
  ∀ q, r.relativePath? file = some q → normalizePath q = q

/-- Whether a line is in scope after other calls in the same session, by the answers of `vcs`. -/
def decision (selector : Selector) (world : World) (root : String) (sourceRoot : Option String)
    (cached : Bool) (earlier : List (Selector × Question)) (file : String) (line : Nat)
    (vcs : VersionControl) : Bool :=
  ((make selector vcs world root sourceRoot cached).inScope file line
    (answers (callsThrough vcs world root sourceRoot cached earlier) .fresh).2).1

omit hl in
theorem decision_eq {vcs : VersionControl} (hv : vcs.Fixed) (selector : Selector) (world : World)
    (root : String) (sourceRoot : Option String) (cached : Bool)
    (earlier : List (Selector × Question)) (file : String) (line : Nat) :
    decision selector world root sourceRoot cached earlier file line vcs =
      (make selector vcs world root sourceRoot cached).plainInScope file line :=
  inScope_after hv selector world root sourceRoot cached earlier file line

theorem decision_git_of_not_normal {g : Git} (hsilent : g.Silent diffs) {selector : Selector}
    (hsel : selector ≠ .full) {world : World} {root : String} {sourceRoot : Option String}
    {cached : Bool} {file : String}
    (hfile : ¬ (make selector g.backend world root sourceRoot cached).SeesNormal file)
    (earlier : List (Selector × Question)) (line : Nat) :
    decision selector world root sourceRoot cached earlier file line g.backend = false := by
  obtain ⟨scope, hscope⟩ : ∃ scope, selector.diffScope? = some scope := by
    cases selector with
    | full => exact absurd rfl hsel
    | new => exact ⟨_, rfl⟩
    | staged => exact ⟨_, rfl⟩
  obtain ⟨q, hq, hne⟩ : ∃ q, (make selector g.backend world root sourceRoot cached).relativePath?
      file = some q ∧ normalizePath q ≠ q := by
    simpa only [SeesNormal, not_forall, exists_prop] using hfile
  rw [decision_eq g.backend_fixed]
  exact plainInScope_git_of_not_normal hl rfl hsilent hscope hq hne line

/-- **The two backends agree on normal paths.** Let a program report changed files and their diffs.
The diffs can be recorded, and for every selector, source root, line and file whose path, seen from
the root, is normal, it is the same whether the program or the recorded diff is asked, with memory or
without and after any other calls. If the program prints nothing about files it does not list, this
is exact: on another file the two agree just if the line is not in scope by the recorded diff. -/
theorem inScope_backends_iff {g : Git} (hg : g.Reports diffs) (selector : Selector) (world : World)
    (root : String) (sourceRoot : Option String) (cached : Bool)
    (earlier : List (Selector × Question)) (file : String) (line : Nat) :
    ∃ d, RecordedDiff.ofCalls? (diffs.map PathDiff.recording) = some d ∧
      let normal := (make selector d.backend world root sourceRoot cached).SeesNormal file
      let decided := decision selector world root sourceRoot cached earlier file line
      (normal → decided g.backend = decided d.backend) ∧
        (g.Silent diffs → (decided g.backend = decided d.backend ↔
          (selector ≠ .full → decided d.backend = true → normal))) := by
  obtain ⟨d, hd⟩ := hl.exists_recorded
  refine ⟨d, hd, ?_⟩
  intro normal decided
  have hgit : decided g.backend = _ := decision_eq g.backend_fixed ..
  have hrecord : decided d.backend = _ := decision_eq d.backend_fixed ..
  have hr : (make selector g.backend world root sourceRoot cached).vcs = g.backend := rfl
  have hr' : (make selector d.backend world root sourceRoot cached).vcs = d.backend := rfl
  have hnormal : normal → decided g.backend = decided d.backend := by
    intro h
    rw [hgit, hrecord]
    exact plainInScope_backends hl hg hd hr hr' rfl rfl rfl h line
  refine ⟨hnormal, fun hsilent => ?_⟩
  by_cases hfull : selector = .full
  · subst hfull
    have hsame : decided g.backend = decided d.backend := hgit.trans hrecord.symm
    exact iff_of_true hsame fun hne => absurd rfl hne
  · by_cases hn : normal
    · exact iff_of_true (hnormal hn) fun _ _ => hn
    · have hfalse : decided g.backend = false :=
        decision_git_of_not_normal hl hsilent hfull hn earlier line
      rw [hfalse, eq_comm, Bool.eq_false_iff]
      exact ⟨fun hout _ hin => absurd hin hout, fun h hin => hn (h hfull hin)⟩

end Resolver

/-- A listed file by its normal path. -/
theorem Resolver.inScope_backends_iff_normal :
    let decided := decision .new ⟨.directory [], "/", Parser.silent⟩ "/" none true [] "./a.ts" 1
    PathDiff.Listing PathDiff.ofOneFile ∧ Git.ofOneFile.Reports PathDiff.ofOneFile ∧
      decided Git.ofOneFile.backend = true := by
  intro decided
  obtain ⟨d, hd, hagree, -⟩ := inScope_backends_iff PathDiff.listing_ofOneFile
    Git.reports_ofOneFile .new ⟨.directory [], "/", Parser.silent⟩ "/" none true [] "./a.ts" 1
  obtain rfl := Option.some.inj hd
  refine ⟨PathDiff.listing_ofOneFile, Git.reports_ofOneFile, (hagree fun q hq => ?_).trans ?_⟩
  · obtain rfl : "a.ts" = q := Option.some.inj hq
    decide
  · decide +kernel

/-- Blanks between quotation marks are left over by normalizing once. -/
theorem Resolver.inScope_backends_ne :
    let decided := decision .new ⟨.directory [], "/", Parser.silent⟩ "/" none true [] "\"a.ts \"" 1
    ∃ d, RecordedDiff.ofCalls? (PathDiff.ofOneFile.map PathDiff.recording) = some d ∧
      PathDiff.Listing PathDiff.ofOneFile ∧ Git.ofOneFile.Reports PathDiff.ofOneFile ∧
      Git.ofOneFile.Silent PathDiff.ofOneFile ∧
      decided Git.ofOneFile.backend = false ∧ decided d.backend = true := by
  intro decided
  refine ⟨_, rfl, PathDiff.listing_ofOneFile, Git.reports_ofOneFile, Git.silent_ofOneFile, ?_, ?_⟩
  · decide +kernel
  · decide +kernel

end DocScope
