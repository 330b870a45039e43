import DocScope.Proofs.Diff.ChangedFiles
import DocScope.Proofs.Text.ByteOrder
import DocScope.Proofs.Text.Lines
import Mathlib.Data.List.Sort

/-!
# Source roots, component by component

A path is kept under a source root when its text starts with that of the root. The components of a
path are the pieces between its slashes, also empty ones.

* `PathText.splitOn_prefix_iff`: starting with the text of a root, up to a slash or the end, is
  starting with its components;
* `ChangedFiles.pairwise_ofPaths`, `ChangedFiles.ofPaths_congr`: a set lists its members strictly
  ascending, so it is given by them;
* `ChangedFiles.ofPaths_components`: the members.
-/

namespace DocScope

namespace PathText

/-- The components of a path: what stands between its slashes. -/
def pieces (path : String) : List (List Char) := path.toList.splitOn '/'

theorem splitOn_injective : Function.Injective fun s : List Char => s.splitOn '/' := by
  intro s t h
  have hjoin := congrArg (List.intercalate ['/']) h
  simpa only [List.intercalate_splitOn] using hjoin

/-- **A path lies under another one component by component.** -/
theorem splitOn_prefix_iff {root path : List Char} :
    root.splitOn '/' <+: path.splitOn '/' ↔ path = root ∨ root ++ ['/'] <+: path := by
  constructor
  · rintro ⟨rest, hrest⟩
    by_cases hne : rest = []
    · left
      subst hne
      rw [List.append_nil] at hrest
      exact (splitOn_injective hrest).symm
    · right
      have hslash : ∀ piece ∈ rest, '/' ∉ piece := by
        intro piece hp
        refine Text.not_mem_of_mem_splitOn (s := path) ?_
        rw [← hrest]
        exact List.mem_append_right _ hp
      refine ⟨['/'].intercalate rest, splitOn_injective ?_⟩
      simp only [List.append_assoc, List.singleton_append]
      rw [List.splitOn_append_cons_self, List.splitOn_intercalate '/' hslash hne, hrest]
  · rintro (rfl | ⟨rest, rfl⟩)
    · exact List.prefix_rfl
    · rw [List.append_assoc, List.singleton_append, List.splitOn_append_cons_self]
      exact List.prefix_append _ _

end PathText

namespace ChangedFiles

theorem liesUnder_iff {path : String} {sourceRoot : Option String} :
    LiesUnder path sourceRoot ↔ sourceRoot = none ∨ ∃ r, sourceRoot = some r ∧
      (normalizePath r = "" ∨ normalizePath r = "." ∨
        PathText.pieces (normalizePath r) <+: PathText.pieces path) := by
  have hprefix : ∀ r, PathText.pieces (normalizePath r) <+: PathText.pieces path ↔
      path = normalizePath r ∨ (normalizePath r ++ "/").toList <+: path.toList := by
    intro r
    rw [PathText.pieces, PathText.pieces, PathText.splitOn_prefix_iff, String.toList_inj,
      String.toList_append]
    rfl
  cases sourceRoot with
  | none => simp [LiesUnder]
  | some r => simp [LiesUnder, hprefix]

theorem pairwise_ofPaths (paths : List String) (sourceRoot : Option String) :
    (ofPaths paths sourceRoot).paths.Pairwise (· < ·) := by
  have hstrict := pairwise_ascending (fun a b : String => decide (a ≤ b))
    (fun a b c hab hbc => by
      rw [decide_eq_true_eq] at *
      exact String.le_trans hab hbc)
    (fun a b => by simpa using String.le_total a b)
    (fun a b hab hba => String.le_antisymm (of_decide_eq_true hab) (of_decide_eq_true hba))
  refine (hstrict _).imp fun {a b} hab => ?_
  obtain ⟨hle, hne⟩ := hab
  by_contra hlt
  exact hne (String.le_antisymm (of_decide_eq_true hle) (String.not_lt.1 hlt))

theorem nodup_ofPaths (paths : List String) (sourceRoot : Option String) :
    (ofPaths paths sourceRoot).paths.Nodup :=
  (pairwise_ofPaths paths sourceRoot).imp fun {_ _} hlt => String.ne_of_lt hlt

/-- Neither the order of the paths nor their repetition shows in the set. -/
theorem ofPaths_congr {paths paths' : List String} (h : ∀ p, p ∈ paths' ↔ p ∈ paths)
    (sourceRoot : Option String) : ofPaths paths' sourceRoot = ofPaths paths sourceRoot := by
  have hpaths : (ofPaths paths' sourceRoot).paths = (ofPaths paths sourceRoot).paths := by
    refine (pairwise_ofPaths _ _).eq_of_mem_iff (pairwise_ofPaths _ _) fun x => ?_
    simp only [mem_ofPaths, h]
  exact congrArg ChangedFiles.mk hpaths

/-- Normal paths in order are a set as they are. -/
theorem paths_ofPaths {paths : List String} (horder : paths.Pairwise (· < ·))
    (hnormal : ∀ p ∈ paths, normalizePath p = p ∧ p ≠ "") : (ofPaths paths none).paths = paths := by
  refine (pairwise_ofPaths _ _).eq_of_mem_iff horder fun x => ?_
  rw [mem_ofPaths, keeps_restriction?]
  constructor
  · rintro ⟨p, hp, rfl, -⟩
    rwa [(hnormal p hp).1]
  · intro hx
    exact ⟨x, hx, (hnormal x hx).1.symm, (hnormal x hx).2, fun _ hr => nomatch hr⟩

/-- **The members of a set of changed files** are the normalized paths that are not empty and start
with the components of the source root, if there is one that restricts anything. The set depends on
which paths are given only, and lists its members in the order of their bytes. -/
theorem ofPaths_components (paths : List String) (sourceRoot : Option String) :
    (∀ x, x ∈ (ofPaths paths sourceRoot).paths ↔
      x ≠ "" ∧ (∃ p ∈ paths, x = normalizePath p) ∧
        (sourceRoot = none ∨ ∃ r, sourceRoot = some r ∧
          (normalizePath r = "" ∨ normalizePath r = "." ∨
            PathText.pieces (normalizePath r) <+: PathText.pieces x))) ∧
    (∀ paths', (∀ p, p ∈ paths' ↔ p ∈ paths) →
      ofPaths paths' sourceRoot = ofPaths paths sourceRoot) ∧
    (ofPaths paths sourceRoot).paths.Pairwise
      fun a b => Text.Utf8.bytesOf a < Text.Utf8.bytesOf b := by
  refine ⟨fun x => ?_, fun paths' h => ofPaths_congr h sourceRoot, ?_⟩
  · rw [mem_ofPaths, keeps_restriction?, ← liesUnder_iff]
    constructor
    · rintro ⟨p, hp, hx, hne, hunder⟩
      exact ⟨hne, ⟨p, hp, hx⟩, hunder⟩
    · rintro ⟨hne, ⟨p, hp, hx⟩, hunder⟩
      exact ⟨p, hp, hx, hne, hunder⟩
  · exact (pairwise_ofPaths paths sourceRoot).imp Text.Utf8.bytesOf_lt

/-- Several spellings of two paths and of the root, and a path whose name goes on from the root's. -/
theorem ofPaths_components_spellings :
    let set := ofPaths ["src/b.ts", "\"src\\a.ts\"", "srcfoo/c.ts", "./src/b.ts"] (some ".\\src/")
    "src/a.ts" ∈ set.paths ∧ "src/b.ts" ∈ set.paths ∧ "srcfoo/c.ts" ∉ set.paths ∧
      ofPaths ["./src/b.ts", "srcfoo/c.ts", "src/b.ts", "src/b.ts", "\"src\\a.ts\""]
        (some ".\\src/") = set := by
  intro set
  obtain ⟨hmem, hcongr, -⟩ := ofPaths_components
    ["src/b.ts", "\"src\\a.ts\"", "srcfoo/c.ts", "./src/b.ts"] (some ".\\src/")
  refine ⟨(hmem _).2 ?_, (hmem _).2 ?_, fun h => ?_, hcongr _ fun p => ?_⟩
  · exact ⟨by decide, by decide, .inr ⟨_, rfl, .inr (.inr (by decide))⟩⟩
  · exact ⟨by decide, by decide, .inr ⟨_, rfl, .inr (.inr (by decide))⟩⟩
  · obtain ⟨-, -, hnone | ⟨r, hr, hroot⟩⟩ := (hmem _).1 h
    · cases hnone
    · cases hr
      revert hroot
      decide
  · simp only [List.mem_cons, List.not_mem_nil, or_false]
    tauto

end ChangedFiles

end DocScope
