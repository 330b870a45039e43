import DocScope.Proofs.Diff.ChangedFiles
import DocScope.Proofs.Diff.Hunk
import DocScope.Proofs.Scope.SharedCache

/-!
# What is recorded is what is in scope

A diff in memory is recorded call by call (`RecordedDiff.ofCalls?`): a file with its added lines, or
with the text of its diff. A path is normalized when it is recorded, when the set of changed files
is made, when a file is looked up in it and when its added lines are looked up. For a path that
normalizing leaves as it is, all of this comes down to one question about the calls.

* `Recording.record?`, `RecordedDiff.mem_ofCalls?`: what one call records, and all calls together;
* `Resolver.plainInScope_recorded`: when a line is in scope by the plain sets;
* `Resolver.inScope_recorded`: the same for any resolver that asks the diff, with memory or without
  and after any other calls.
-/

namespace DocScope

/-- A call that records a changed file. -/
inductive Recording where
  /-- The file with its added lines. -/
  | file (scope : DiffScope) (path : String) (lines : List Nat)
  /-- The file with the text of its diff. -/
  | diff (scope : DiffScope) (path : String) (text : String)
deriving DecidableEq, Repr

namespace Recording

/-- The diff a call belongs to. -/
def scope : Recording → DiffScope
  | .file s _ _ => s
  | .diff s _ _ => s

/-- The path as it is given. -/
def path : Recording → String
  | .file _ p _ => p
  | .diff _ p _ => p

/-- The added lines; `none` when the range of a hunk is too large. -/
def lines? : Recording → Option (List Nat)
  | .file _ _ lines => some lines
  | .diff _ _ text => (AddedLines.ofDiff? text).map (·.lines)

/-- Makes the call. -/
def addTo? (d : RecordedDiff) : Recording → Option RecordedDiff
  | .file s p lines => some (d.withFile s p lines)
  | .diff s p text => d.withDiff? s p text

/-- What a call records. -/
def record? (c : Recording) : Option DiffRecord :=
  c.lines?.map fun lines => ⟨c.scope, normalizePath c.path, lines⟩

theorem addTo?_eq (d : RecordedDiff) (c : Recording) :
    c.addTo? d = c.record?.map fun r => ⟨d.records ++ [r]⟩ := by
  cases c with
  | file s p lines => rfl
  | diff s p text =>
    simp only [addTo?, RecordedDiff.withDiff?, RecordedDiff.withFile, record?, lines?,
      Option.map_map]
    rfl

theorem record?_eq_some {c : Recording} {r : DiffRecord} :
    c.record? = some r ↔
      r.scope = c.scope ∧ r.path = normalizePath c.path ∧ c.lines? = some r.lines := by
  obtain ⟨scope, path, lines⟩ := r
  simp only [record?, Option.map_eq_some_iff, DiffRecord.mk.injEq]
  constructor
  · rintro ⟨l, hl, rfl, rfl, rfl⟩
    exact ⟨rfl, rfl, hl⟩
  · rintro ⟨rfl, rfl, hl⟩
    exact ⟨lines, hl, rfl, rfl, rfl⟩

end Recording

namespace RecordedDiff

/-- The diff that some calls record, one after the other. -/
def ofCalls? (calls : List Recording) : Option RecordedDiff := calls.foldlM Recording.addTo? .empty

theorem mem_foldlM {calls : List Recording} {d d' : RecordedDiff}
    (h : calls.foldlM Recording.addTo? d = some d') {r : DiffRecord} :
    r ∈ d'.records ↔ r ∈ d.records ∨ ∃ c ∈ calls, c.record? = some r := by
  induction calls generalizing d with
  | nil =>
    cases h
    simp
  | cons c calls ih =>
    rw [List.foldlM_cons, Recording.addTo?_eq] at h
    obtain ⟨mid, hmid, h⟩ := Option.bind_eq_some_iff.1 h
    obtain ⟨new, hnew, rfl⟩ := Option.map_eq_some_iff.1 hmid
    rw [ih h, List.mem_append, List.mem_singleton, List.exists_mem_cons_iff, hnew,
      Option.some.injEq, or_assoc, eq_comm]

theorem mem_ofCalls? {calls : List Recording} {d : RecordedDiff} (h : ofCalls? calls = some d)
    {r : DiffRecord} : r ∈ d.records ↔ ∃ c ∈ calls, c.record? = some r := by
  simpa [empty] using mem_foldlM h

/-- The calls go through if every text among them can be read. -/
theorem isSome_ofCalls? (calls : List Recording) :
    (ofCalls? calls).isSome ↔ ∀ c ∈ calls, c.lines?.isSome := by
  have hrun : ∀ d, (calls.foldlM Recording.addTo? d).isSome ↔ ∀ c ∈ calls, c.lines?.isSome := by
    induction calls with
    | nil => simp
    | cons c calls ih =>
      intro d
      rw [List.foldlM_cons, Recording.addTo?_eq, List.forall_mem_cons]
      cases hl : c.lines? with
      | none => simp [Recording.record?, hl]
      | some lines => simpa [Recording.record?, hl] using ih _
  exact hrun .empty

theorem backend_fixed (d : RecordedDiff) : d.backend.Fixed :=
  ⟨fun _ _ _ => rfl, fun _ _ _ _ => rfl⟩

theorem mem_changedFiles {d : RecordedDiff} {scope : DiffScope} {p : String} :
    p ∈ d.changedFiles scope ↔ ∃ r ∈ d.records, r.scope = scope ∧ r.path = p := by
  simp [changedFiles, and_assoc]

theorem mem_addedLines {d : RecordedDiff} {scope : DiffScope} {p : String} {n : Nat} :
    n ∈ d.addedLines scope p ↔
      ∃ r ∈ d.records, r.scope = scope ∧ r.path = normalizePath p ∧ n ∈ r.lines := by
  simp [addedLines, and_assoc]

end RecordedDiff

namespace Resolver

section
variable {r : Resolver} {d : RecordedDiff} (hd : r.vcs = d.backend)
include hd

theorem plainChanged_recorded {scope : DiffScope} {q : String} :
    (r.plainChanged scope).contains q = true ↔
      (∃ rec ∈ d.records, rec.scope = scope ∧ normalizePath rec.path = normalizePath q) ∧
        normalizePath q ≠ "" ∧ ChangedFiles.LiesUnder (normalizePath q) r.sourceRoot := by
  have hset : r.plainChanged scope = ChangedFiles.ofPaths (d.changedFiles scope) r.sourceRoot := by
    simp only [plainChanged, askChanged, hd, RecordedDiff.backend]
  rw [hset, ChangedFiles.contains_iff, ChangedFiles.mem_ofPaths, ChangedFiles.keeps_restriction?]
  constructor
  · rintro ⟨raw, hraw, heq, hkeep⟩
    obtain ⟨rec, hrec, hscope, rfl⟩ := RecordedDiff.mem_changedFiles.1 hraw
    exact ⟨⟨rec, hrec, hscope, heq.symm⟩, hkeep⟩
  · rintro ⟨⟨rec, hrec, hscope, heq⟩, hkeep⟩
    exact ⟨rec.path, RecordedDiff.mem_changedFiles.2 ⟨rec, hrec, hscope, rfl⟩, heq.symm, hkeep⟩

theorem plainAdded_recorded {scope : DiffScope} {q : String} {n : Nat} :
    (r.plainAdded scope q).contains n = true ↔
      ∃ rec ∈ d.records, rec.scope = scope ∧ rec.path = normalizePath q ∧ n ∈ rec.lines := by
  have hset : r.plainAdded scope q = AddedLines.ofList (d.addedLines scope q) := by
    simp only [plainAdded, askAdded, hd, RecordedDiff.backend]
  rw [hset, AddedLines.contains_ofList, RecordedDiff.mem_addedLines]

/-- **One record decides**: its file is changed because it is recorded, so whether a file is among
the changed ones need not be asked apart from its lines. -/
theorem plainInScope_recorded {scope : DiffScope} (hsel : r.selector.diffScope? = some scope)
    {file q : String} (hfile : r.relativePath? file = some q) (hq : normalizePath q = q) (n : Nat) :
    r.plainInScope file n = true ↔
      q ≠ "" ∧ ChangedFiles.LiesUnder q r.sourceRoot ∧
        ∃ rec ∈ d.records, rec.scope = scope ∧ rec.path = q ∧ n ∈ rec.lines := by
  simp only [plainInScope, hsel, hfile]
  rw [Bool.and_eq_true, plainChanged_recorded hd, plainAdded_recorded hd, hq]
  constructor
  · rintro ⟨⟨-, hne, hunder⟩, hrec⟩
    exact ⟨hne, hunder, hrec⟩
  · rintro ⟨hne, hunder, rec, hrec, hscope, hpath, hn⟩
    exact ⟨⟨⟨rec, hrec, hscope, by rw [hpath, hq]⟩, hne, hunder⟩, rec, hrec, hscope, hpath, hn⟩

end

/-- A relative path that does not exist is taken as seen from the root of the repository. -/
theorem relativePath?_of_missing {r : Resolver} {p : String} {e : FileError}
    (h : r.world.canonical p = .error e) (hp : Path.isAbsolute p.toList = false) :
    r.relativePath? p = some (normalizePath p) := by
  simp [relativePath?, h, hp]

/-- Whatever was asked before in the same session, the answer is the plain one. -/
theorem inScope_after {vcs : VersionControl} (hv : vcs.Fixed) (selector : Selector) (world : World)
    (root : String) (sourceRoot : Option String) (cached : Bool)
    (earlier : List (Selector × Question)) (file : String) (n : Nat) :
    ((make selector vcs world root sourceRoot cached).inScope file n
        (answers (callsThrough vcs world root sourceRoot cached earlier) .fresh).2).1 =
      (make selector vcs world root sourceRoot cached).plainInScope file n := by
  cases cached with
  | false => rw [inScope_plain hv rfl]
  | true =>
    obtain ⟨-, e⟩ := answers_spec (b := make selector vcs world root sourceRoot true) hv
      (callsThrough vcs world root sourceRoot true earlier) .fresh
      (List.forall_mem_map.2 fun _ _ => ⟨rfl, rfl, rfl⟩) (.fresh _)
    exact (inScope_spec hv rfl e.remembers file n).1

/-- **What is recorded is what is in scope.** Calls record a diff if every text among them can be
read. Under a selector of changes and for a relative path that does not exist and whose normal form
`q` is normal: a line is then in scope just if `q` is not empty, lies under the source root, and one
of the calls for the selector's own diff has a path that normalizes to `q` and adds the line. -/
theorem inScope_recorded (calls : List Recording) {selector : Selector} {scope : DiffScope}
    (hsel : selector.diffScope? = some scope) (world : World) (root : String)
    (sourceRoot : Option String) (cached : Bool) (earlier : List (Selector × Question))
    {p : String} (hp : Path.isAbsolute p.toList = false) {e : FileError}
    (hmissing : world.canonical p = .error e)
    (hq : normalizePath (normalizePath p) = normalizePath p) (n : Nat) :
    ((RecordedDiff.ofCalls? calls).isSome ↔ ∀ c ∈ calls, c.lines?.isSome) ∧
      ∀ d, RecordedDiff.ofCalls? calls = some d →
        (((make selector d.backend world root sourceRoot cached).inScope p n
          (answers (callsThrough d.backend world root sourceRoot cached earlier) .fresh).2).1 = true ↔
          normalizePath p ≠ "" ∧ ChangedFiles.LiesUnder (normalizePath p) sourceRoot ∧
            ∃ c ∈ calls, c.scope = scope ∧ normalizePath c.path = normalizePath p ∧
              ∃ lines, c.lines? = some lines ∧ n ∈ lines) := by
  refine ⟨RecordedDiff.isSome_ofCalls? calls, fun d hd => ?_⟩
  rw [inScope_after d.backend_fixed,
    plainInScope_recorded (r := make selector d.backend world root sourceRoot cached) rfl hsel
      (relativePath?_of_missing hmissing hp) hq]
  refine and_congr_right fun _ => and_congr_right fun _ => ?_
  constructor
  · rintro ⟨rec, hrec, hscope, hpath, hn⟩
    obtain ⟨c, hc, hrecord⟩ := (RecordedDiff.mem_ofCalls? hd).1 hrec
    obtain ⟨hs, hpath', hl⟩ := Recording.record?_eq_some.1 hrecord
    exact ⟨c, hc, hs.symm.trans hscope, hpath'.symm.trans hpath, rec.lines, hl, hn⟩
  · rintro ⟨c, hc, hscope, hpath, lines, hl, hn⟩
    exact ⟨⟨c.scope, normalizePath c.path, lines⟩,
      (RecordedDiff.mem_ofCalls? hd).2 ⟨c, hc, by rw [Recording.record?, hl]; rfl⟩, hscope, hpath,
      hn⟩

/-- Two records of one file in two spellings count together; a record of the index does not. -/
theorem inScope_recorded_two_spellings :
    let calls : List Recording :=
      [.file .workingTree "./src/a.ts" [3], .diff .index "src/a.ts" "@@ -6,0 +7 @@\n",
        .diff .workingTree "src\\a.ts/" "@@ -4,0 +5 @@\n"]
    ∃ d, RecordedDiff.ofCalls? calls = some d ∧
      let r := make .new d.backend ⟨.directory [], "/", Parser.silent⟩ "/" (some "src/") true
      (r.inScope "src/a.ts" 5 .fresh).1 = true ∧ (r.inScope "src/a.ts" 7 .fresh).1 ≠ true := by
  intro calls
  have hsel : Selector.new.diffScope? = some .workingTree := rfl
  have h := inScope_recorded calls hsel ⟨.directory [], "/", Parser.silent⟩ "/" (some "src/") true
    [] (p := "src/a.ts") (by decide) (e := .notFound) (by rfl) (by decide)
  have hunder : ChangedFiles.LiesUnder (normalizePath "src/a.ts") (some "src/") := by
    rintro _ ⟨rfl⟩
    exact .inr (.inr (.inr (by decide)))
  refine ⟨_, rfl, ((h 5).2 _ rfl).2 ⟨by decide, hunder, ?_⟩, fun h₇ => ?_⟩
  · exact ⟨.diff .workingTree "src\\a.ts/" "@@ -4,0 +5 @@\n", by simp [calls], rfl, by decide, _,
      rfl, by decide +kernel⟩
  · obtain ⟨-, -, c, hc, hscope, -, lines, hl, hn⟩ := ((h 7).2 _ rfl).1 h₇
    simp only [calls, List.mem_cons, List.not_mem_nil, or_false] at hc
    rcases hc with rfl | rfl | rfl
    · cases hl
      simp at hn
    · cases hscope
    · cases hl
      exact absurd hn (by decide +kernel)

end Resolver

end DocScope
