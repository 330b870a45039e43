import DocScope.Proofs.Diff.Components
import DocScope.Proofs.Diff.Hunk
import DocScope.Proofs.Files.Walk
import DocScope.Proofs.Run.Findings

/-!
# The way of a changed file there and back

Version control lists a file by its path in the repository. A runner joins the path to the root, and
the resolver turns the joined path into a path in the repository again before it looks it up, first
among the changed files, then in the diff. A path that is made of names (`PathText.Named`) comes
back as it was: joined to a canonical root it is canonical (`Runner.Lists.exists_place`), so nothing
is lost when the root is taken off.

* `Runner.Lists.inScope_iff`: the lines in scope are those that the diff adds;
* `Runner.Lists.countP_same_iff`: the file is in the list of the runner once, unless another member
  of the set is the same path when it is joined to the root;
* `Runner.Lists.roundTrip`: all of this together, with the label of the findings;
  `Runner.changedFiles_twice` is a file that is listed in two ways.
-/

namespace DocScope

namespace PathText

/-- All components of a path are names. -/
def Named (path : String) : Prop :=
  ∀ piece ∈ pieces path, piece ≠ [] ∧ piece ≠ ['.'] ∧ piece ≠ ['.', '.']

instance (path : String) : Decidable (Named path) := inferInstanceAs (Decidable (∀ _ ∈ _, _))

theorem Named.exists_names {path : String} (h : Named path) :
    ∃ names, names ≠ [] ∧ (∀ n ∈ names, ProperName n) ∧ path = .ofList (Path.ofNames names) := by
  refine ⟨(pieces path).map String.ofList, ?_, List.forall_mem_map.2 fun piece hp => ?_, ?_⟩
  · simp [pieces]
  · obtain ⟨h₁, h₂, h₃⟩ := h piece hp
    have hslash : '/' ∉ piece := Text.not_mem_of_mem_splitOn hp
    refine ⟨?_, ?_, ?_, ?_⟩ <;> simpa
  · have htext : Path.ofNames ((pieces path).map String.ofList) = path.toList := by
      simp [Path.ofNames, pieces, Function.comp_def]
    rw [htext, String.ofList_toList]

end PathText

/-- Two texts are the same path: repeated slashes, or a `.` in the middle, make no difference. -/
def Path.Same (p q : String) : Prop := Path.components p.toList = Path.components q.toList

instance (p q : String) : Decidable (Path.Same p q) := inferInstanceAs (Decidable (_ = _))

theorem isSupported_congr {p q : String} (h : Path.Same p q) : isSupported p = isSupported q := by
  have hname : Path.fileName? p.toList = Path.fileName? q.toList := by
    unfold Path.fileName?
    rw [h]
  unfold isSupported Path.extension?
  rw [hname]

/-- In a list without repetition a member is the only one that passes a test just if no other member
passes it. -/
theorem countP_eq_one_iff {α : Type} [DecidableEq α] {l : List α} (hl : l.Nodup) {p : α → Bool}
    {a : α} (ha : a ∈ l) (hp : p a = true) : l.countP p = 1 ↔ ∀ b ∈ l, p b = true → b = a := by
  constructor
  · intro h b hb hpb
    obtain ⟨c, hc⟩ := List.length_eq_one_iff.1 (List.countP_eq_length_filter ▸ h)
    have hmem : ∀ x ∈ l, p x = true → x = c := by
      intro x hx hpx
      rw [← List.mem_singleton, ← hc]
      exact List.mem_filter.2 ⟨hx, hpx⟩
    rw [hmem a ha hp, hmem b hb hpb]
  · intro h
    rw [← List.count_eq_one_of_mem hl ha]
    refine List.countP_congr fun b hb => ?_
    rw [beq_iff_eq]
    exact ⟨h b hb, fun hba => hba ▸ hp⟩

namespace Resolver

/-- **A place below the root is seen from there by the names that lead on.** -/
theorem relativePath?_pathOf {r : Resolver} {root names : List String}
    (hroot : r.root = World.pathOf root) (hplace : r.world.IsPlace (root ++ names)) :
    r.relativePath? (World.pathOf (root ++ names)) =
      some (normalizePath (.ofList (Path.ofNames names))) := by
  have hbelow := (World.below?_pathOf_iff hplace.left.proper hplace.proper).2 ⟨names, rfl, rfl⟩
  simp only [relativePath?, World.canonical_pathOf hplace, hroot, hbelow, Option.map_some]

theorem contains_plainAdded {r : Resolver} {scope : DiffScope} {path : String} {n : Nat} :
    (r.plainAdded scope path).contains n = true ↔
      ∃ lines, r.vcs.addedLines 0 scope path = .ok lines ∧ n ∈ lines := by
  have hfresh : Session.fresh.calls = 0 := rfl
  simp only [plainAdded, askAdded, hfresh]
  cases r.vcs.addedLines 0 scope path with
  | error e => simp [AddedLines.contains, AddedLines.empty]
  | ok lines => simp [AddedLines.contains_ofList]

theorem changedFiles_eq {r : Resolver} (hv : r.vcs.Fixed) (hc : r.cached = true) {s : Session}
    (hs : r.Remembers s) {scope : DiffScope} (hmode : r.selector.diffScope? = some scope) :
    (r.changedFiles s).1 = r.plainChanged scope := by
  rw [changedFiles, hmode]
  exact (changedIn_spec hv hc hs scope).1

end Resolver

namespace Runner

/-- A changed file that can be found: a member of the set, by a normal path that is made of names
and leads to a supported file. -/
structure Lists (r : Runner) (s : Session) (root rel : String) : Prop where
  member : rel ∈ (r.resolver.changedFiles s).1.paths
  normal : normalizePath rel = rel
  named : PathText.Named rel
  isFile : r.world.isFile (pathBelow root rel) = true
  supported : isSupported (pathBelow root rel) = true

section
variable {r : Runner} {s : Session} {root rel : String}
  (hroot : r.world.canonical r.root = .ok root)
include hroot

theorem resolver_root : r.resolver.root = root := by
  simp only [resolver, Resolver.make, hroot]

theorem changedFiles_eq (s : Session) : (r.changedFiles s).1 =
    ((r.resolver.changedFiles s).1.paths.map (pathBelow root)).filter
      fun p => isSupported p && r.world.isFile p := by
  rw [← resolver_root hroot]
  rfl

variable (h : r.Lists s root rel)
include h

/-- Joined to the root, the path is canonical. -/
theorem Lists.exists_place : ∃ start names, root = World.pathOf start ∧
    rel = .ofList (Path.ofNames names) ∧ pathBelow root rel = World.pathOf (start ++ names) ∧
    r.world.IsPlace (start ++ names) := by
  obtain ⟨start, hstart, rfl⟩ := World.canonical_eq_ok.1 hroot
  obtain ⟨names, hne, hproper, rfl⟩ := h.named.exists_names
  have hplace := World.resolve_isPlace hstart
  have hpath := World.pathBelow_ofNames hplace.proper hproper hne
  obtain ⟨names', content, hresolve, -⟩ := World.isFile_iff.1 h.isFile
  rw [hpath] at hresolve
  obtain rfl := World.eq_of_resolve_pathOf
    (List.forall_mem_append.2 ⟨hplace.proper, hproper⟩) hresolve
  exact ⟨start, names, rfl, rfl, hpath, World.resolve_isPlace hresolve⟩

theorem Lists.relativePath?_eq : r.resolver.relativePath? (pathBelow root rel) = some rel := by
  obtain ⟨start, names, hstart, hnames, hpath, hplace⟩ := h.exists_place hroot
  have hbase : r.resolver.root = World.pathOf start := (resolver_root hroot).trans hstart
  rw [hpath, Resolver.relativePath?_pathOf hbase hplace, ← hnames, h.normal]

theorem Lists.mem_changedFiles : pathBelow root rel ∈ (r.changedFiles s).1 := by
  rw [changedFiles_eq hroot, List.mem_filter, h.supported, h.isFile]
  exact ⟨List.mem_map_of_mem h.member, rfl⟩

theorem Lists.countP_same_iff (hnodup : (r.resolver.changedFiles s).1.paths.Nodup) :
    (r.changedFiles s).1.countP (Path.Same · (pathBelow root rel)) = 1 ↔
      ∀ q ∈ (r.resolver.changedFiles s).1.paths, Path.Same (pathBelow root q) (pathBelow root rel) →
        r.world.isFile (pathBelow root q) = true → q = rel := by
  rw [changedFiles_eq hroot, List.countP_filter, List.countP_map,
    countP_eq_one_iff hnodup h.member (by simp [Path.Same, h.supported, h.isFile])]
  refine forall₂_congr fun q _ => ?_
  simp only [Function.comp_apply, Bool.and_eq_true, decide_eq_true_eq, and_imp]
  -- the same path has the same extension, so only whether the file exists is left to ask
  refine forall_congr' fun hsame => ?_
  rw [isSupported_congr hsame, h.supported]
  simp

variable (hv : r.vcs.Fixed) (hs : r.Reached s) {scope : DiffScope}
  (hmode : r.selector.diffScope? = some scope)
include hv hs hmode

theorem Lists.inScope_iff (n : Nat) : (r.resolver.inScope (pathBelow root rel) n s).1 = true ↔
    ∃ lines, r.vcs.addedLines 0 scope rel = .ok lines ∧ n ∈ lines := by
  have hremembers := hs.remembers hv
  have hmode' : r.resolver.selector.diffScope? = some scope := hmode
  have hcontains : (r.resolver.plainChanged scope).contains rel = true := by
    rw [ChangedFiles.contains_iff, h.normal, ← Resolver.changedFiles_eq hv rfl hremembers hmode]
    exact h.member
  rw [(Resolver.inScope_spec hv rfl hremembers _ n).1]
  simp only [Resolver.plainInScope, hmode', h.relativePath?_eq hroot, hcontains, Bool.true_and]
  exact Resolver.contains_plainAdded

/-- **Changed files find their way back.** A changed file is in the list of the runner, in one place
just if no other member of the set is the same path behind the root; seen from the root it has the
path by which it was listed, the lines that are added to it are in scope, and its findings carry the
path. -/
theorem Lists.roundTrip :
    pathBelow root rel ∈ (r.changedFiles s).1 ∧
    ((r.changedFiles s).1.countP (Path.Same · (pathBelow root rel)) = 1 ↔
      ∀ q ∈ (r.resolver.changedFiles s).1.paths, Path.Same (pathBelow root q) (pathBelow root rel) →
        r.world.isFile (pathBelow root q) = true → q = rel) ∧
    r.resolver.relativePath? (pathBelow root rel) = some rel ∧
    (∀ n, (r.resolver.inScope (pathBelow root rel) n s).1 = true ↔
      ∃ lines, r.vcs.addedLines 0 scope rel = .ok lines ∧ n ∈ lines) ∧
    ∀ f ∈ (r.run [pathBelow root rel] s).1.findings, f.file = rel := by
  have hnodup : (r.resolver.changedFiles s).1.paths.Nodup := by
    rw [Resolver.changedFiles_eq hv rfl (hs.remembers hv) hmode, Resolver.plainChanged_eq]
    exact ChangedFiles.nodup_ofPaths _ _
  refine ⟨h.mem_changedFiles hroot, h.countP_same_iff hroot hnodup, h.relativePath?_eq hroot,
    h.inScope_iff hroot hv hs hmode, fun f hf => ?_⟩
  obtain ⟨_, hfile, hfind⟩ := (mem_run_findings hv hs).1 hf
  obtain rfl := List.mem_singleton.1 hfile
  rw [Resolver.findingsIn_file hfind, Resolver.label, h.relativePath?_eq hroot]
  rfl

end

/-! ## One file that is listed in several ways -/

/-- A repository with one source file, and a backend that lists the given paths and adds two lines
to every file. The file has a syntax error. -/
def ofOneFile (listed : List String) : Runner where
  world :=
    ⟨.directory [("r", .directory [("src", .directory [("a.ts", .file brokenSource)])])], "/r",
      .ofSource brokenSource brokenParsed⟩
  root := "/r"
  selector := .new
  vcs := ⟨fun _ _ => .ok listed, fun _ _ _ => .ok [2, 3]⟩
  sourceRoot := none

theorem ofOneFile_fixed (listed : List String) : (ofOneFile listed).vcs.Fixed :=
  ⟨fun _ _ _ => rfl, fun _ _ _ _ => rfl⟩

theorem canonical_ofOneFile (listed : List String) :
    (ofOneFile listed).world.canonical (ofOneFile listed).root = .ok "/r" := by
  have h : (ofOneFile []).world.canonical "/r" = .ok "/r" := by decide +kernel
  exact h

section
variable {listed : List String} (horder : listed.Pairwise (· < ·))
  (hnormal : ∀ p ∈ listed, normalizePath p = p ∧ p ≠ "")
include horder hnormal

theorem paths_ofOneFile : ((ofOneFile listed).resolver.changedFiles .fresh).1.paths = listed :=
  ChangedFiles.paths_ofPaths horder hnormal

theorem lists_ofOneFile (h : "src/a.ts" ∈ listed) :
    (ofOneFile listed).Lists .fresh "/r" "src/a.ts" where
  member := by rwa [paths_ofOneFile horder hnormal]
  normal := by decide
  named := by decide
  isFile := by
    have hfile : (ofOneFile []).world.isFile (pathBelow "/r" "src/a.ts") = true := by
      decide +kernel
    exact hfile
  supported := by decide +kernel

end

theorem analyzeFile?_ofOneFile (listed : List String) :
    (ofOneFile listed).world.analyzeFile? "/r/src/a.ts" =
      some ⟨"/r/src/a.ts", "typescript", brokenNodes, true⟩ := by
  have hread : (ofOneFile []).world.read "/r/src/a.ts" = .ok brokenSource := by decide +kernel
  exact World.analyzeFile?_of_pairwise .typescript brokenParsed hread (by decide +kernel)
    (Parser.ofSource_self brokenSource brokenParsed .typed) (by decide +kernel)

/-- The other path leads to the same file by a way up and down again, and is another path. -/
theorem Lists.roundTrip_detour :
    let r := ofOneFile ["src/../src/a.ts", "src/a.ts"]
    r.vcs.Fixed ∧ r.Reached .fresh ∧ r.selector.diffScope? = some .workingTree ∧
      r.world.canonical r.root = .ok "/r" ∧ r.Lists .fresh "/r" "src/a.ts" ∧
      (r.changedFiles .fresh).1.countP (Path.Same · "/r/src/a.ts") = 1 ∧
      r.resolver.relativePath? "/r/src/a.ts" = some "src/a.ts" ∧
      (r.resolver.inScope "/r/src/a.ts" 3 .fresh).1 = true ∧
      (r.resolver.inScope "/r/src/a.ts" 4 .fresh).1 = false ∧
      ∃ f ∈ (r.run ["/r/src/a.ts"] .fresh).1.findings, f.line = 3 ∧ f.file = "src/a.ts" := by
  intro r
  have hv : r.vcs.Fixed := ofOneFile_fixed _
  have hroot : r.world.canonical r.root = .ok "/r" := canonical_ofOneFile _
  have hlists : r.Lists .fresh "/r" "src/a.ts" :=
    lists_ofOneFile (by decide) (by decide) (by decide)
  have hpath : pathBelow "/r" "src/a.ts" = "/r/src/a.ts" := by decide
  obtain ⟨-, honce, hrelative, hscope, hfiles⟩ := hlists.roundTrip hroot hv .new rfl
  rw [hpath] at honce hrelative hscope hfiles
  refine ⟨hv, .new, rfl, hroot, hlists, honce.2 ?_, hrelative, (hscope 3).2 ⟨_, rfl, by decide⟩, ?_,
    ?_⟩
  · rw [paths_ofOneFile (by decide) (by decide)]
    have hother : ∀ q ∈ ["src/../src/a.ts", "src/a.ts"],
        Path.Same (pathBelow "/r" q) "/r/src/a.ts" → q = "src/a.ts" := by decide
    exact fun q hq hsame _ => hother q hq hsame
  · rw [Bool.eq_false_iff]
    intro hin
    obtain ⟨lines, hlines, hmem⟩ := (hscope 4).1 hin
    cases hlines
    revert hmem
    decide
  · obtain ⟨n, hn, hd, hdoc⟩ := exists_mem_brokenNodes
    have hplain : r.resolver.plainInScope "/r/src/a.ts" 3 = true :=
      (Resolver.inScope_spec hv rfl (Reached.new.remembers hv) _ 3).1.symm.trans
        ((hscope 3).2 ⟨_, rfl, by decide⟩)
    have hanalyzed : r.resolver.world.analyzeFile? "/r/src/a.ts" = _ :=
      analyzeFile?_ofOneFile ["src/../src/a.ts", "src/a.ts"]
    have hfound := Resolver.mem_findingsIn_of_undocumented hanalyzed hn hd hdoc hplain
    have hrun := (mem_run_findings hv .new).2 ⟨_, List.mem_singleton_self _, hfound⟩
    exact ⟨_, hrun, rfl, hfiles _ hrun⟩

/-- An absolute path is not joined to the root: the file stands in the list twice. -/
theorem changedFiles_twice :
    let r := ofOneFile ["/r/src/a.ts", "src/a.ts"]
    r.vcs.Fixed ∧ r.Reached .fresh ∧ r.selector.diffScope? = some .workingTree ∧
      r.world.canonical r.root = .ok "/r" ∧ r.Lists .fresh "/r" "src/a.ts" ∧
      (r.changedFiles .fresh).1 = [pathBelow "/r" "src/a.ts", pathBelow "/r" "src/a.ts"] := by
  intro r
  have hroot : r.world.canonical r.root = .ok "/r" := canonical_ofOneFile _
  refine ⟨ofOneFile_fixed _, .new, rfl, hroot,
    lists_ofOneFile (by decide) (by decide) (by decide), ?_⟩
  rw [changedFiles_eq hroot, paths_ofOneFile (by decide) (by decide)]
  have hfilter : (["/r/src/a.ts", "src/a.ts"].map (pathBelow "/r")).filter
      (fun p => isSupported p && (ofOneFile []).world.isFile p) =
        [pathBelow "/r" "src/a.ts", pathBelow "/r" "src/a.ts"] := by
    decide +kernel
  exact hfilter

end Runner

end DocScope
