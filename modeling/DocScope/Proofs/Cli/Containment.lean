import DocScope.Proofs.Cli.Reported

/-!
# Where the files of a change-scoped check lie

A changed file is to lie under the source directory and under a path on the command line
(`World.Under`). Both limits are looked up in the tree first, and a limit that cannot be looked up
limits nothing.

* `Check.exists_place_of_scans`: a scanned file lies below the root of the repository, where its listed
  path says;
* `Check.prefix_of_keeps`: the names that a source directory inside the repository asks for;
* `Check.scans_contained_iff`: a scanned file lies under a limit just if the limit exists, and for the
  source directory if it is inside or around the repository;
* `Check.scans_outside`: files that are scanned for want of a limit.
-/

namespace DocScope

/-- What a path leads to is at or below what another one leads to. -/
def World.Under (w : World) (directory file : String) : Prop :=
  ∃ d names, w.resolve directory = .ok d ∧ w.resolve file = .ok (d ++ names)

theorem World.under_iff {w : World} {directory file : String} {names : List String}
    (h : w.resolve file = .ok names) :
    w.Under directory file ↔ ∃ d, w.resolve directory = .ok d ∧ d <+: names := by
  constructor
  · rintro ⟨d, below, hd, hf⟩
    rw [h] at hf
    cases hf
    exact ⟨d, hd, List.prefix_append d below⟩
  · rintro ⟨d, hd, below, rfl⟩
    exact ⟨d, below, hd, h⟩

instance (w : World) (directory file : String) : Decidable (w.Under directory file) :=
  match h : w.resolve file with
  | .error _ => .isFalse fun ⟨_, _, _, hf⟩ => by
      rw [h] at hf
      cases hf
  | .ok names =>
    match hd : w.resolve directory with
    | .error _ => .isFalse fun ⟨_, _, hd', _⟩ => by
        rw [hd] at hd'
        cases hd'
    | .ok d => decidable_of_iff (d <+: names) (by simp [World.under_iff h, hd])

/-- Version control lists paths seen from the root of the repository: relative ones that go nowhere
up. -/
def Git.ListsBelowRoot (g : Git) (scope : DiffScope) : Prop :=
  ∀ paths, g.changedFiles scope = .ok paths → ∀ raw ∈ paths,
    Path.isAbsolute (normalizePath raw).toList = false ∧
      ['.', '.'] ∉ (normalizePath raw).toList.splitOn '/'

namespace World

/-- The components of a path that is joined to a canonical one and goes nowhere up. -/
theorem components_join_pathOf {names : List String} (hn : ∀ n ∈ names, ProperName n)
    {p : List Char} (hp : Path.isAbsolute p = false) (hup : ['.', '.'] ∉ p.splitOn '/') :
    Path.components (Path.join (pathOf names).toList p) =
      .root :: (names ++ Path.namesIn (p.splitOn '/')).map fun n => .name n.toList := by
  have hne : (pathOf names).toList ≠ [] := by simp [toList_pathOf]
  have habs : Path.isAbsolute (Path.join (pathOf names).toList p) = true := by
    rw [Path.join_eq hne hp, Path.isAbsolute_append (Path.asDirectory_ne_nil hne),
      Path.isAbsolute_asDirectory hne, isAbsolute_pathOf]
  have hup' : ['.', '.'] ∉ [] :: (names.map String.toList ++ p.splitOn '/') := by
    intro hm
    rcases List.mem_append.1 ((List.mem_cons.1 hm).resolve_left (by simp)) with hm | hm
    · obtain ⟨n, hmem, heq⟩ := List.mem_map.1 hm
      exact (hn n hmem).ne_up heq
    · exact hup hm
  rw [Path.components, if_pos habs, splitOn_join_pathOf hn hp, Path.filterMap_component? hup',
    Path.namesIn_cons_blank (.inl rfl), Path.namesIn_append, Path.namesIn_names hn]

end World

namespace Cli.Check

theorem root_ne_empty {w : World} {host : ProcessHost} {args : CheckArguments} {c : Check}
    (hc : ofArguments? w host args = some c) (hcwd : w.cwd ≠ "") : c.git.root ≠ "" := by
  obtain ⟨config, patterns, -, -, rfl⟩ := exists_of_ofArguments? hc
  simp only [make, Git.discover]
  split
  · split
    · exact hcwd
    · rename_i htop
      simpa using htop
  · exact hcwd

section
variable {c : Check} {scope : DiffScope} (hsel : c.selector.diffScope? = some scope)
  (hroot : c.git.root ≠ "") (hgit : c.git.ListsBelowRoot scope)
include hsel hroot hgit

/-- **A scanned file lies where its listed path says**, below the root of the repository. -/
theorem exists_place_of_scans {file : String} (h : c.Scans file) :
    ∃ root raw, c.world.resolve c.git.root = .ok root ∧
      c.world.resolve file = .ok (root ++ Path.namesIn ((normalizePath raw).toList.splitOn '/')) ∧
      Path.components file.toList = .root ::
        (root ++ Path.namesIn ((normalizePath raw).toList.splitOn '/')).map (.name ·.toList) ∧
      ChangedFiles.keeps (ChangedFiles.restriction? c.sourceRoot?) (normalizePath raw).toList = true ∧
      c.takes file = true := by
  obtain ⟨paths, raw, hpaths, hraw, hkeeps, rfl, hfile, htakes⟩ := (scans_scoped_iff hsel).1 h
  obtain ⟨hrel, hup⟩ := hgit paths hpaths raw hraw
  obtain ⟨names, content, hnames, -⟩ := World.isFile_iff.1 hfile
  cases hr : c.world.resolve c.git.root with
  | error e =>
    -- below a root that does not exist there is no file
    have hsame : c.runner.resolver.root = c.git.root := by
      have hcanonical : c.world.canonical c.git.root = .error e := by
        simp [World.canonical, hr, Except.map]
      simp only [runner, Runner.resolver, Resolver.make, hcanonical]
    rw [hsame, pathBelow, World.resolve_join (String.toList_eq_nil_iff.not.2 hroot) hrel,
      hr] at hnames
    cases hnames
  | ok root =>
    have hplace := World.resolve_isPlace hr
    rw [resolver_root hr] at hnames htakes ⊢
    refine ⟨root, raw, rfl, ?_, ?_, hkeeps, htakes⟩
    · rw [hnames]
      rw [pathBelow, World.resolve_join (by simp [World.toList_pathOf]) hrel,
        World.resolve_pathOf hplace] at hnames
      obtain ⟨_, hstart, hsteps⟩ := Except.bind_eq_ok.1 hnames
      cases hstart
      rw [World.steps_eq_append hup hsteps]
    · rw [pathBelow, String.toList_ofList]
      exact World.components_join_pathOf hplace.proper hrel hup

end

theorem sourceRoot?_eq {c : Check} {root s : List String}
    (hr : c.world.resolve c.git.root = .ok root)
    (hd : c.world.resolve c.sourceDirectory = .ok (root ++ s)) :
    c.sourceRoot? = some (normalizePath (.ofList (Path.ofNames s))) := by
  have hbelow := (World.below?_pathOf_iff (World.resolve_isPlace hr).proper
    (World.resolve_isPlace hd).proper).2 ⟨s, rfl, rfl⟩
  have hrepository : c.world.canonical c.git.root = .ok (World.pathOf root) :=
    World.canonical_eq_ok.2 ⟨root, hr, rfl⟩
  have hdirectory : c.world.canonical c.sourceDirectory = .ok (World.pathOf (root ++ s)) :=
    World.canonical_eq_ok.2 ⟨root ++ s, hd, rfl⟩
  unfold sourceRoot?
  rw [hdirectory, hrepository]
  dsimp only
  rw [hbelow, Option.map_some]

/-- A path that is kept under the path of a source directory has the names of the directory in
front. -/
theorem prefix_of_keeps {s : List String} (hs : ∀ n ∈ s, ProperName n)
    (hplain : normalizePath (.ofList (Path.ofNames s)) = .ofList (Path.ofNames s)) {q : String}
    (h : ChangedFiles.keeps (ChangedFiles.restriction? (some (.ofList (Path.ofNames s)))) q.toList =
      true) : s <+: Path.namesIn (q.toList.splitOn '/') := by
  by_cases hne : s = []
  · subst hne
    exact List.nil_prefix
  have hsplit := World.splitOn_ofNames hs hne
  obtain ⟨-, hunder⟩ := ChangedFiles.keeps_restriction?.1 h
  have hcases := hunder _ rfl
  rw [hplain] at hcases
  have hidle : ∀ x, x = [] ∨ x = ['.'] → String.ofList (Path.ofNames s) ≠ .ofList x := by
    intro x hx heq
    -- such a path has no other piece, and the piece would be the name of the directory
    have hx' : x.splitOn '/' = [x] := by rcases hx with rfl | rfl <;> rfl
    rw [String.ofList_inj.1 heq, hx'] at hsplit
    obtain ⟨n, hn, rfl⟩ := List.map_eq_singleton_iff.1 hsplit.symm
    have hname : ProperName n := hs n (hn ▸ List.mem_singleton_self n)
    exact hx.elim hname.ne_nil hname.ne_here
  rcases hcases with heq | heq | rfl | hq
  · exact absurd heq (hidle [] (.inl rfl))
  · exact absurd heq (hidle ['.'] (.inr rfl))
  · rw [String.toList_ofList, hsplit, Path.namesIn_names hs]
  · obtain ⟨t, ht⟩ := hq
    have hq : q.toList = Path.ofNames s ++ '/' :: t := by simpa using ht.symm
    rw [hq, List.splitOn_append_cons_self, hsplit, Path.namesIn_append, Path.namesIn_names hs]
    exact List.prefix_append _ _

/-- **A scanned file lies under a limit just if the limit can be looked up.** Let version control list
paths below the root of the repository, and let the path of the source directory there be in normal
form. Then a file that is scanned under a selector of changes lies under the source directory just if
this exists inside or around the repository, and under a path on the command line just if that
exists. -/
theorem scans_contained_iff {w : World} {host : ProcessHost} {args : CheckArguments} {c : Check}
    (hc : ofArguments? w host args = some c) (hcwd : w.cwd ≠ "") {scope : DiffScope}
    (hsel : c.selector.diffScope? = some scope) (hgit : c.git.ListsBelowRoot scope)
    (hplain : ∀ root s, w.resolve c.git.root = .ok root →
      w.resolve c.sourceDirectory = .ok (root ++ s) →
      normalizePath (.ofList (Path.ofNames s)) = .ofList (Path.ofNames s))
    {file : String} (hscans : c.Scans file) :
    (w.Under c.sourceDirectory file ↔
      ∃ root d, w.resolve c.git.root = .ok root ∧ w.resolve c.sourceDirectory = .ok d ∧
        (root <+: d ∨ d <+: root)) ∧
      ∀ p, c.path = some p → (w.Under p file ↔ ∃ d, w.resolve p = .ok d) := by
  obtain ⟨root, raw, hr, hfile, hcomponents, hkeeps, htakes⟩ :=
    exists_place_of_scans hsel (root_ne_empty hc hcwd) hgit hscans
  obtain rfl := world_of_ofArguments? hc
  refine ⟨?_, fun p hp => ?_⟩
  · rw [World.under_iff hfile]
    constructor
    · rintro ⟨d, hd, hprefix⟩
      exact ⟨root, d, hr, hd, List.prefix_or_prefix_of_prefix (List.prefix_append _ _) hprefix⟩
    · rintro ⟨root', d, hr', hd, hcases⟩
      rw [hr] at hr'
      cases hr'
      refine ⟨d, hd, ?_⟩
      rcases hcases with ⟨s, rfl⟩ | hcases
      · have hproper := (World.resolve_isPlace hd).proper
        rw [sourceRoot?_eq hr hd, hplain root s hr hd] at hkeeps
        exact (List.prefix_append_right_inj root).2
          (prefix_of_keeps (fun n hn => hproper n (List.mem_append_right _ hn))
            (hplain root s hr hd) hkeeps)
      · exact hcases.trans (List.prefix_append _ _)
  · rw [World.under_iff hfile]
    constructor
    · rintro ⟨d, hd, -⟩
      exact ⟨d, hd⟩
    · rintro ⟨d, hd⟩
      have hcanonical : c.world.canonical p = .ok (World.pathOf d) :=
        World.canonical_eq_ok.2 ⟨d, hd, rfl⟩
      have hstarts : Path.startsWith (World.pathOf d).toList file.toList = true := by
        simp only [takes, within?, hp, Option.bind_some, hcanonical, Except.toOption,
          Option.all_some, Bool.and_eq_true] at htakes
        exact htakes.2
      have hproper := (World.resolve_isPlace hd).proper
      exact ⟨d, hd, (World.startsWith_pathOf hproper hcomponents).1 hstarts⟩

/-- Where both limits exist, the changed file lies under them. -/
theorem scans_contained_iff_source_file :
    let c := newCheck oneSourceFile "src/a.js" (some "src")
    c.Scans "/src/a.js" ∧ oneSourceFile.Under c.sourceDirectory "/src/a.js" ∧
      oneSourceFile.Under "src" "/src/a.js" := by
  intro c
  have hscans : (newCheck oneSourceFile "src/a.js" (some "src")).Scans "/src/a.js" := by
    decide +kernel
  have hlisted : (newCheck oneSourceFile "src/a.js" (some "src")).git.changedFiles .workingTree =
      .ok ["src/a.js"] := by decide +kernel
  have hroot : oneSourceFile.resolve (newCheck oneSourceFile "src/a.js" (some "src")).git.root =
      .ok [] := by decide +kernel
  have hsource : oneSourceFile.resolve
      (newCheck oneSourceFile "src/a.js" (some "src")).sourceDirectory = .ok ["src"] := by
    decide +kernel
  have hpath : oneSourceFile.resolve "src" = .ok ["src"] := by decide +kernel
  have hgit : c.git.ListsBelowRoot .workingTree := by
    intro paths hpaths raw hraw
    obtain rfl : ["src/a.js"] = paths := Except.ok.inj (hlisted.symm.trans hpaths)
    obtain rfl := List.mem_singleton.1 hraw
    decide
  have hplain : ∀ root s, oneSourceFile.resolve c.git.root = .ok root →
      oneSourceFile.resolve c.sourceDirectory = .ok (root ++ s) →
      normalizePath (.ofList (Path.ofNames s)) = .ofList (Path.ofNames s) := by
    intro root s hr hd
    obtain rfl : [] = root := Except.ok.inj (hroot.symm.trans hr)
    obtain rfl : ["src"] = s := Except.ok.inj (hsource.symm.trans hd)
    decide
  obtain ⟨h₁, h₂⟩ := scans_contained_iff (ofArguments?_newCheck "src/a.js" (some "src")) (by decide)
    rfl hgit hplain hscans
  exact ⟨hscans, h₁.2 ⟨[], ["src"], hroot, hsource, .inl List.nil_prefix⟩,
    (h₂ "src" rfl).2 ⟨_, hpath⟩⟩

/-- **Files that are scanned for want of a limit**: without a source directory every changed file is
scanned, and a path on the command line that does not exist limits nothing either. -/
theorem scans_outside :
    (let w : World := ⟨nestedFile ["lib"], "/", Grammar.parser⟩
      let c := newCheck w "lib/a.js" none
      c.Scans "/lib/a.js" ∧ ¬ w.Under c.sourceDirectory "/lib/a.js") ∧
      let w : World := ⟨nestedFile ["src"], "/", Grammar.parser⟩
      let c := newCheck w "src/a.js" (some "nope")
      c.Scans "/src/a.js" ∧ ¬ w.Under "nope" "/src/a.js" := by
  decide +kernel

end Cli.Check

end DocScope
