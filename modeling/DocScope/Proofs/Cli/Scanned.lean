import DocScope.Cli.Check
import DocScope.Proofs.Git.Output
import DocScope.Proofs.Run.ChangedPaths

/-!
# The files that a check scans

The two kinds of selectors come to their files by different routes: `full` walks through the tree
below the target, the others take the files that version control lists.

* `Check.scans_scoped_iff`: the scanned files under a selector of changes;
* `Check.scans_full_iff`: the scanned files under `full`, without the walk.
-/

namespace DocScope

namespace Cli.Check

/-- The same check under `full`. -/
def full (c : Check) : Check := { c with selector := .full }

/-- The check scans a file. -/
def Scans (c : Check) (file : String) : Prop :=
  ∃ files s, c.files .fresh = .ok (files, s) ∧ file ∈ files

instance (c : Check) (file : String) : Decidable (c.Scans file) :=
  match h : c.files .fresh with
  | .ok (files, s) =>
    decidable_of_iff (file ∈ files) ⟨fun hm => ⟨files, s, h, hm⟩, fun ⟨_, _, h', hm⟩ => by
      rw [h] at h'
      cases h'
      exact hm⟩
  | .error _ => .isFalse fun ⟨_, _, h', _⟩ => by
      rw [h] at h'
      cases h'

/-! ## Changed files -/

theorem resolver_root {c : Check} {root : List String} (h : c.world.resolve c.git.root = .ok root) :
    c.runner.resolver.root = World.pathOf root :=
  Runner.resolver_root (r := c.runner) (World.canonical_eq_ok.2 ⟨root, h, rfl⟩)

section
variable {c : Check} {scope : DiffScope} (hsel : c.selector.diffScope? = some scope)
include hsel

theorem changedFiles_eq :
    (c.runner.resolver.changedFiles .fresh).1 =
      match c.git.changedFiles scope with
      | .ok paths => ChangedFiles.ofPaths paths c.sourceRoot?
      | .error _ => .empty :=
  Resolver.changedFiles_eq c.git.backend_fixed rfl (.fresh _) hsel

/-- **The files of a change-scoped check** are listed by version control. -/
theorem scans_scoped_iff {file : String} :
    c.Scans file ↔
      ∃ paths raw, c.git.changedFiles scope = .ok paths ∧ raw ∈ paths ∧
        ChangedFiles.keeps (ChangedFiles.restriction? c.sourceRoot?) (normalizePath raw).toList = true ∧
        file = pathBelow c.runner.resolver.root (normalizePath raw) ∧
        c.world.isFile file = true ∧ c.takes file = true := by
  have hmem : c.Scans file ↔ file ∈ (c.runner.changedFiles .fresh).1 ∧ c.takes file = true := by
    simp [Scans, files, hsel]
  have hsupported : c.takes file = true → isSupported file = true := by
    intro h
    simp only [takes, counts, isCandidate, Bool.and_eq_true] at h
    exact h.1.1.1
  rw [hmem, Runner.changedFiles]
  simp only [changedFiles_eq hsel, List.mem_filter, List.mem_map, Bool.and_eq_true]
  cases c.git.changedFiles scope with
  | error e => simp [ChangedFiles.empty]
  | ok paths =>
    simp only [ChangedFiles.mem_ofPaths, Except.ok.injEq]
    constructor
    · rintro ⟨⟨⟨_, ⟨raw, hraw, rfl, hk⟩, rfl⟩, -, hf⟩, ht⟩
      exact ⟨_, raw, rfl, hraw, hk, rfl, hf, ht⟩
    · rintro ⟨_, raw, rfl, hraw, hk, rfl, hf, ht⟩
      exact ⟨⟨⟨_, ⟨raw, hraw, rfl, hk⟩, rfl⟩, hsupported ht, hf⟩, ht⟩

end

/-! ## Files at the target -/

theorem scans_full (c : Check) (file : String) :
    c.full.Scans file ↔ ∃ files, c.filesAtTarget = .ok files ∧ file ∈ files := by
  have hfull : c.full.files .fresh = c.filesAtTarget.map (·, .fresh) := rfl
  unfold Scans
  rw [hfull]
  constructor
  · rintro ⟨files, s, h, hm⟩
    obtain ⟨_, hfiles, heq⟩ := Except.map_eq_ok.1 h
    cases heq
    exact ⟨files, hfiles, hm⟩
  · rintro ⟨files, hfiles, hm⟩
    exact ⟨files, .fresh, Except.map_eq_ok.2 ⟨files, hfiles, rfl⟩, hm⟩

/-- **The files of a full check** are at or below the target. Below it, no directory on the way is
passed over, and the file counts as seen from the target. -/
theorem scans_full_iff {c : Check} (hw : c.world.root.WellFormed) {file : String} :
    c.full.Scans file ↔
      ∃ start names content, c.world.resolve c.target = .ok start ∧
        c.world.root.find? (start ++ names) = some (.file content) ∧
        file = World.pathOf (start ++ names) ∧
        (names = [] ∨ (∀ n ∈ names.dropLast, isSkipped n = false) ∧
          c.counts (World.pathOf start) file = true) := by
  rw [scans_full]
  unfold filesAtTarget World.canonical
  cases hr : c.world.resolve c.target with
  | error e => simp [Except.map]
  | ok start =>
    have hplace := World.resolve_isPlace hr
    obtain ⟨e, he⟩ := Option.isSome_iff_exists.1 hplace.found
    have hdir : c.world.isDirectory (World.pathOf start) = e.isDirectory := by
      simp only [World.isDirectory, World.lookup?, World.resolve_pathOf hplace, he]
      cases e <;> rfl
    simp only [Except.map, hdir, World.collectFiles_pathOf hplace he, Except.ok.injEq]
    cases e with
    | file content =>
      simp only [Entry.isDirectory, Bool.false_eq_true, ↓reduceIte, Except.ok.injEq]
      constructor
      · rintro ⟨_, rfl, hm⟩
        exact ⟨start, [], content, rfl, by rw [List.append_nil, he],
          by rw [List.append_nil, List.mem_singleton.1 hm], .inl rfl⟩
      · rintro ⟨_, names, content', rfl, hf, rfl, -⟩
        cases names with
        | nil => exact ⟨_, rfl, by simp⟩
        | cons n names => simp [Entry.find?_append, he, Entry.find?, Entry.child?] at hf
    | directory es =>
      simp only [Entry.isDirectory, ↓reduceIte, Except.ok.injEq]
      constructor
      · rintro ⟨_, rfl, hm⟩
        obtain ⟨names, content, hf, hn, hp, hc⟩ := (World.mem_collectFiles hw hplace he _ _).1 hm
        exact ⟨start, names, content, rfl, hf, hp, .inr ⟨hn, hc⟩⟩
      · rintro ⟨_, names, content, rfl, hf, hp, rfl | ⟨hn, hc⟩⟩
        · simp [he] at hf
        · exact ⟨_, rfl, (World.mem_collectFiles hw hplace he _ _).2 ⟨names, content, hf, hn, hp, hc⟩⟩

end Cli.Check

end DocScope
