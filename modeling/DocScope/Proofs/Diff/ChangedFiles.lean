import DocScope.Diff.ChangedFiles
import Mathlib.Data.List.Basic

/-!
# Which files are in a set of changed files

* `PathText.isUnder_iff`, `ChangedFiles.keeps_restriction?`: what a source root restricts to;
* `ChangedFiles.mem_ofPaths`, `ChangedFiles.contains_iff`: the members of a set;
* `ChangedFiles.ofPaths_eq_iff`: when two source roots make the same set of the same paths.
-/

namespace DocScope

theorem PathText.isUnder_iff {path root : List Char} :
    isUnder path root = true ↔ path = root ∨ root ++ ['/'] <+: path := by
  have hstrip : ∀ r, Text.stripStart? root path = some r ↔ root ++ r = path :=
    fun r => List.isPrefixOf?_eq_some_iff_append_eq
  rw [isUnder, Bool.or_eq_true, beq_iff_eq]
  refine or_congr_right ?_
  constructor
  · intro h
    cases hs : Text.stripStart? root path with
    | none => simp [hs] at h
    | some r =>
      rw [hs, beq_iff_eq] at h
      obtain ⟨t, rfl⟩ := List.head?_eq_some_iff.1 h
      exact ⟨t, by rw [← (hstrip _).1 hs, List.append_assoc, List.singleton_append]⟩
  · rintro ⟨t, ht⟩
    rw [(hstrip ('/' :: t)).2 (by rw [← ht, List.append_assoc, List.singleton_append])]
    rfl

namespace ChangedFiles

theorem restriction?_eq_some {sourceRoot : Option String} {root : List Char} :
    restriction? sourceRoot = some root ↔
      ∃ r, sourceRoot = some r ∧ root = PathText.normalize r.toList ∧ root ≠ [] ∧ root ≠ ['.'] := by
  cases sourceRoot with
  | none => simp [restriction?]
  | some r =>
    simp only [restriction?, Bool.or_eq_true, decide_eq_true_eq, Option.some.injEq,
      exists_eq_left']
    split
    · rename_i h
      refine ⟨fun hc => (by cases hc), ?_⟩
      rintro ⟨heq, h₁, h₂⟩
      rw [heq] at h₁ h₂
      exact (h.elim h₁ h₂).elim
    · rename_i h
      rw [not_or] at h
      constructor
      · intro heq
        rw [← Option.some.inj heq]
        exact ⟨rfl, h⟩
      · rintro ⟨heq, -⟩
        rw [heq]

theorem keeps_iff {root : Option (List Char)} {path : List Char} :
    keeps root path = true ↔
      path ≠ [] ∧ ∀ r, root = some r → path = r ∨ r ++ ['/'] <+: path := by
  unfold keeps
  cases root with
  | none => simp
  | some r => simp [PathText.isUnder_iff]

/-- The path lies under the source root, if there is one that restricts anything. -/
def LiesUnder (path : String) (sourceRoot : Option String) : Prop :=
  ∀ r, sourceRoot = some r → normalizePath r = "" ∨ normalizePath r = "." ∨
    path = normalizePath r ∨ (normalizePath r ++ "/").toList <+: path.toList

theorem keeps_restriction? {sourceRoot : Option String} {path : String} :
    keeps (restriction? sourceRoot) path.toList = true ↔
      path ≠ "" ∧ LiesUnder path sourceRoot := by
  have hofList : ∀ {a : List Char} {b : String}, String.ofList a = b ↔ a = b.toList := by
    intro a b
    rw [← String.toList_inj, String.toList_ofList]
  rw [keeps_iff]
  refine and_congr String.toList_eq_nil_iff.not ?_
  simp only [restriction?_eq_some, LiesUnder, normalizePath, hofList]
  constructor
  · rintro h r rfl
    by_cases h₁ : PathText.normalize r.toList = []
    · exact .inl h₁
    by_cases h₂ : PathText.normalize r.toList = ['.']
    · exact .inr (.inl h₂)
    rcases h _ ⟨r, rfl, rfl, h₁, h₂⟩ with hp | hp
    · exact .inr (.inr (.inl (String.toList_inj.1 (by simpa using hp))))
    · exact .inr (.inr (.inr (by simpa using hp)))
  · rintro h _ ⟨r, rfl, heq, h₁, h₂⟩
    rw [heq] at h₁ h₂ ⊢
    rcases h r rfl with hp | hp | hp | hp
    · exact absurd hp h₁
    · exact absurd hp h₂
    · exact .inl (by rw [hp, String.toList_ofList])
    · exact .inr (by simpa using hp)

theorem mem_ofPaths {paths : List String} {sourceRoot : Option String} {p : String} :
    p ∈ (ofPaths paths sourceRoot).paths ↔
      ∃ raw ∈ paths, p = normalizePath raw ∧ keeps (restriction? sourceRoot) p.toList = true := by
  simp only [ofPaths, mem_ascending, List.mem_map, List.mem_filter]
  constructor
  · rintro ⟨_, ⟨⟨raw, hraw, rfl⟩, hk⟩, rfl⟩
    exact ⟨raw, hraw, rfl, by simpa using hk⟩
  · rintro ⟨raw, hraw, rfl, hk⟩
    exact ⟨_, ⟨⟨raw, hraw, rfl⟩, by simpa [normalizePath] using hk⟩, rfl⟩

theorem normalizePath_mem_ofPaths {paths : List String} {sourceRoot : Option String} {raw : String}
    (hraw : raw ∈ paths) :
    normalizePath raw ∈ (ofPaths paths sourceRoot).paths ↔
      normalizePath raw ≠ "" ∧ LiesUnder (normalizePath raw) sourceRoot := by
  rw [mem_ofPaths, ← keeps_restriction?]
  constructor
  · rintro ⟨_, -, -, hk⟩
    exact hk
  · intro hk
    exact ⟨raw, hraw, rfl, hk⟩

theorem ofPaths_eq_iff {paths : List String} {ρ ρ' : Option String} :
    ofPaths paths ρ = ofPaths paths ρ' ↔
      ∀ raw ∈ paths, normalizePath raw ≠ "" →
        (LiesUnder (normalizePath raw) ρ ↔ LiesUnder (normalizePath raw) ρ') := by
  constructor
  · intro h raw hraw hne
    have hmem : ∀ ρ, normalizePath raw ∈ (ofPaths paths ρ).paths ↔
        LiesUnder (normalizePath raw) ρ := by
      intro ρ
      rw [normalizePath_mem_ofPaths hraw, and_iff_right hne]
    rw [← hmem ρ, ← hmem ρ', h]
  · intro h
    have hkeep : ∀ l ∈ paths.map (PathText.normalize ·.toList),
        keeps (restriction? ρ) l = keeps (restriction? ρ') l := by
      intro l hl
      obtain ⟨raw, hraw, rfl⟩ := List.mem_map.1 hl
      have hiff : ∀ ρ, keeps (restriction? ρ) (PathText.normalize raw.toList) = true ↔
          normalizePath raw ≠ "" ∧ LiesUnder (normalizePath raw) ρ := by
        intro ρ
        rw [← keeps_restriction?, normalizePath, String.toList_ofList]
      rw [Bool.eq_iff_iff, hiff, hiff]
      exact and_congr_right (h raw hraw)
    simp only [ofPaths, List.filter_congr hkeep]

theorem contains_iff {s : ChangedFiles} {p : String} :
    s.contains p = true ↔ normalizePath p ∈ s.paths := by
  rw [contains, List.contains_iff_mem]

theorem contains_ofPaths {paths : List String} {sourceRoot : Option String} {q : String} :
    (ofPaths paths sourceRoot).contains q = true ↔
      (∃ raw ∈ paths, normalizePath raw = normalizePath q) ∧
        normalizePath q ≠ "" ∧ LiesUnder (normalizePath q) sourceRoot := by
  rw [contains_iff, mem_ofPaths, keeps_restriction?]
  constructor
  · rintro ⟨raw, hraw, heq, hkeep⟩
    exact ⟨⟨raw, hraw, heq.symm⟩, hkeep⟩
  · rintro ⟨⟨raw, hraw, heq⟩, hkeep⟩
    exact ⟨raw, hraw, heq.symm, hkeep⟩

end ChangedFiles

end DocScope
