import DocScope.Diff.PathText
import DocScope.Proofs.Text.Trim
import Mathlib.Data.List.Infix
import Mathlib.Tactic.MkIffOfInductiveProp

/-!
# Normal paths

A path is normalized in five steps: blanks around it and a pair of quotation marks are removed,
backslashes become slashes, and `./` in front and slashes at the end are dropped. Each step leaves a
path as it is or makes it shorter, or else it replaces a backslash.

* `PathText.Normal`, `PathText.normalize_eq_self_iff`: the paths that stay as they are;
* `PathText.normalize_ends`: what is gone from every path, although one step may lay open what an
  earlier one has removed elsewhere;
* `PathText.normalize_withSlashes`: backslashes do not matter, since no step before their replacement
  tells them from slashes.
-/

namespace DocScope

namespace PathText

/-! ## Quotation marks -/

/-- A text in quotation marks. -/
def Quoted (s : List Char) : Prop :=
  2 ≤ s.length ∧ s.head? = some '"' ∧ s.getLast? = some '"'

instance (s : List Char) : Decidable (Quoted s) := inferInstanceAs (Decidable (_ ∧ _ ∧ _))

theorem quoted_iff {s : List Char} : Quoted s ↔ ∃ t, s = '"' :: (t ++ ['"']) := by
  constructor
  · rintro ⟨hlen, hhead, hlast⟩
    obtain ⟨r, rfl⟩ := List.head?_eq_some_iff.1 hhead
    have hne : r ≠ [] := by
      rintro rfl
      exact absurd hlen (by decide)
    rw [← List.singleton_append, List.getLast?_append_of_ne_nil _ hne] at hlast
    obtain ⟨t, rfl⟩ := List.getLast?_eq_some_iff.1 hlast
    exact ⟨t, rfl⟩
  · rintro ⟨t, rfl⟩
    refine ⟨by simp, rfl, ?_⟩
    rw [← List.cons_append, List.getLast?_concat]

theorem unquote_of_not_quoted {s : List Char} (h : ¬ Quoted s) : unquote s = s := by
  unfold unquote
  split
  · rfl
  · next r hr =>
    obtain rfl : ['"'] ++ r = s := List.isPrefixOf?_eq_some_iff_append_eq.1 hr
    cases hend : Text.stripEnd? ['"'] r with
    | none => rfl
    | some t =>
      obtain rfl : t ++ ['"'] = r := List.isSuffixOf?_eq_some_iff_append_eq.1 hend
      exact absurd (quoted_iff.2 ⟨t, rfl⟩) h

theorem unquote_quoted (s : List Char) : unquote ('"' :: (s ++ ['"'])) = s := by
  have hend : Text.stripEnd? ['"'] (s ++ ['"']) = some s :=
    List.isSuffixOf?_eq_some_iff_append_eq.2 rfl
  have hstart : Text.stripStart? ['"'] ('"' :: (s ++ ['"'])) = some (s ++ ['"']) :=
    List.isPrefixOf?_eq_some_iff_append_eq.2 rfl
  simp only [unquote, hstart, hend, Option.getD_some]

theorem length_unquote_le (s : List Char) : (unquote s).length ≤ s.length := by
  by_cases h : Quoted s
  · obtain ⟨t, rfl⟩ := quoted_iff.1 h
    rw [unquote_quoted, List.length_cons, List.length_append]
    omega
  · rw [unquote_of_not_quoted h]

/-! ## Slashes -/

theorem isBlank_slash (c : Char) : Text.isBlank (if c = '\\' then '/' else c) = Text.isBlank c := by
  split
  · next h => rw [h]; rfl
  · rfl

theorem backslash_not_mem_withSlashes (s : List Char) : '\\' ∉ withSlashes s := by
  refine fun h => ?_
  obtain ⟨c, -, hc⟩ := List.mem_map.1 h
  split at hc
  · cases hc
  · next hne => exact hne hc

theorem withSlashes_eq_self {s : List Char} (h : '\\' ∉ s) : withSlashes s = s := by
  refine (List.map_congr_left fun c hc => ?_).trans (List.map_id s)
  exact if_neg fun he : c = '\\' => h (he ▸ hc)

theorem trim_withSlashes (s : List Char) :
    Text.trim (withSlashes s) = withSlashes (Text.trim s) := by
  have hblank : (Text.isBlank ∘ fun c => if c = '\\' then '/' else c) = Text.isBlank :=
    funext isBlank_slash
  have hstart : Text.trimStart (withSlashes s) = withSlashes (Text.trimStart s) := by
    rw [Text.trimStart, withSlashes, List.dropWhile_map, hblank]
    rfl
  rw [Text.trim, hstart, Text.trimEnd, withSlashes, Text.dropEnd_map, hblank]
  rfl

theorem quoted_withSlashes {s : List Char} : Quoted (withSlashes s) ↔ Quoted s := by
  have hmark : ∀ o : Option Char,
      o.map (fun c => if c = '\\' then '/' else c) = some '"' ↔ o = some '"' := by
    intro o
    cases o with
    | none => rfl
    | some c =>
      by_cases hc : c = '\\'
      · simp [hc]
      · simp [hc]
  simp only [Quoted, withSlashes, List.length_map, List.head?_map, List.getLast?_map, hmark]

theorem unquote_withSlashes (s : List Char) :
    unquote (withSlashes s) = withSlashes (unquote s) := by
  by_cases h : Quoted s
  · obtain ⟨t, rfl⟩ := quoted_iff.1 h
    have hsame : withSlashes ('"' :: (t ++ ['"'])) = '"' :: (withSlashes t ++ ['"']) := by
      simp [withSlashes]
    rw [hsame, unquote_quoted, unquote_quoted]
  · rw [unquote_of_not_quoted h, unquote_of_not_quoted fun hs => h (quoted_withSlashes.1 hs)]

/-- **Backslashes are as good as slashes.** -/
theorem normalize_withSlashes (s : List Char) : normalize (withSlashes s) = normalize s := by
  rw [normalize, trim_withSlashes, unquote_withSlashes,
    withSlashes_eq_self (backslash_not_mem_withSlashes _)]
  rfl

/-! ## Points and slashes at the ends -/

theorem dropHere_suffix (s : List Char) : dropHere s <:+ s := by
  fun_induction dropHere s with
  | case1 r ih => exact ih.trans (List.suffix_append ['.', '/'] r)
  | case2 s => exact List.suffix_rfl

theorem not_here_dropHere (s : List Char) : ¬ ['.', '/'] <+: dropHere s := by
  fun_induction dropHere s with
  | case1 r ih => exact ih
  | case2 s hs =>
    rintro ⟨r, rfl⟩
    exact hs r rfl

theorem dropHere_of_ne {s : List Char} (h : ∀ r, s ≠ '.' :: '/' :: r) : dropHere s = s := by
  fun_cases dropHere s with
  | case1 r => exact absurd rfl (h r)
  | case2 => rfl

/-! ## Normal paths -/

/-- A path in normal form. -/
@[mk_iff]
structure Normal (s : List Char) : Prop where
  no_backslash : '\\' ∉ s
  no_blank_first : ∀ c ∈ s.head?, Text.isBlank c = false
  no_blank_last : ∀ c ∈ s.getLast?, Text.isBlank c = false
  not_quoted : ¬ Quoted s
  not_here : ¬ ['.', '/'] <+: s
  no_slash_last : s.getLast? ≠ some '/'

theorem Normal.trim_eq {s : List Char} (h : Normal s) : Text.trim s = s :=
  Text.trim_eq_self_iff.2 ⟨h.no_blank_first, h.no_blank_last⟩

theorem Normal.normalize_eq {s : List Char} (h : Normal s) : normalize s = s := by
  have hhere : dropHere s = s := by
    refine dropHere_of_ne ?_
    rintro r rfl
    exact h.not_here (List.prefix_append ['.', '/'] r)
  rw [normalize, h.trim_eq, unquote_of_not_quoted h.not_quoted, withSlashes_eq_self h.no_backslash,
    hhere]
  refine List.rdropWhile_eq_self_iff.2 fun hne => ?_
  simpa [List.getLast?_eq_some_getLast hne] using h.no_slash_last

/-- What normalizing removes for good, whatever the path. -/
theorem normalize_ends (s : List Char) :
    '\\' ∉ normalize s ∧ ¬ ['.', '/'] <+: normalize s ∧ (normalize s).getLast? ≠ some '/' := by
  have hstart : normalize s <+: dropHere (withSlashes (unquote (Text.trim s))) :=
    Text.dropEnd_prefix _ _
  refine ⟨fun h => ?_, fun h => not_here_dropHere _ (h.trans hstart), fun h => ?_⟩
  · exact backslash_not_mem_withSlashes _ ((dropHere_suffix _).subset (hstart.subset h))
  · have hne : normalize s ≠ [] := by
      rintro hnil
      rw [hnil] at h
      cases h
    have hlast : ¬ ((normalize s).getLast hne == '/') = true := List.rdropWhile_last_not _ _ hne
    rw [List.getLast?_eq_some_getLast hne] at h
    exact hlast (by simpa using h)

theorem length_normalize_le (s : List Char) :
    (normalize s).length ≤ (unquote (Text.trim s)).length := by
  calc (normalize s).length
      ≤ (dropHere (withSlashes (unquote (Text.trim s)))).length :=
        (Text.dropEnd_prefix _ _).length_le
    _ ≤ (withSlashes (unquote (Text.trim s))).length := (dropHere_suffix _).length_le
    _ = (unquote (Text.trim s)).length := List.length_map _

/-- **The normal forms.** No step makes a path longer, so in one that stays as it is nothing was
trimmed and no quotation marks were removed. -/
theorem normalize_eq_self_iff {s : List Char} : normalize s = s ↔ Normal s := by
  refine ⟨fun h => ?_, Normal.normalize_eq⟩
  obtain ⟨hbackslash, hhere, hslash⟩ := normalize_ends s
  rw [h] at hbackslash hhere hslash
  have hle := length_normalize_le s
  rw [h] at hle
  have htrim : Text.trim s = s :=
    (Text.trim_sublist s).eq_of_length_le (hle.trans (length_unquote_le _))
  rw [htrim] at hle
  have hquoted : ¬ Quoted s := by
    intro hq
    obtain ⟨t, rfl⟩ := quoted_iff.1 hq
    rw [unquote_quoted, List.length_cons, List.length_append] at hle
    omega
  obtain ⟨hfirst, hlast⟩ := Text.trim_eq_self_iff.1 htrim
  exact ⟨hbackslash, hfirst, hlast, hquoted, hhere, hslash⟩

instance (s : List Char) : Decidable (Normal s) := decidable_of_iff _ normalize_eq_self_iff

/-- A path in which the backslashes at the picked places are replaced by slashes. -/
def slashesAt (pick : Nat → Bool) (s : List Char) : List Char :=
  s.mapIdx fun i c => if c = '\\' ∧ pick i then '/' else c

theorem withSlashes_slashesAt (pick : Nat → Bool) (s : List Char) :
    withSlashes (slashesAt pick s) = withSlashes s := by
  refine List.ext_getElem? fun i => ?_
  simp only [withSlashes, slashesAt, List.getElem?_map, List.getElem?_mapIdx, Option.map_map]
  refine Option.map_congr fun c _ => ?_
  by_cases hc : c = '\\'
  · cases pick i <;> simp [hc]
  · simp [hc]

theorem normalize_slashesAt (pick : Nat → Bool) (s : List Char) :
    normalize (slashesAt pick s) = normalize s := by
  rw [← normalize_withSlashes, withSlashes_slashesAt, normalize_withSlashes]

end PathText

theorem normalizePath_eq_self_iff {q : String} :
    normalizePath q = q ↔ PathText.Normal q.toList := by
  rw [← PathText.normalize_eq_self_iff, normalizePath, ← String.toList_inj, String.toList_ofList]

/-- **Normal forms of paths.** A path stays as it is just if it has no backslash, no blank at either
end, no pair of quotation marks around it, no `./` in front and no slash at the end. What a path is
normalized to never has a backslash, `./` in front or a slash at the end, and it is the same whichever
backslashes of the path are replaced by slashes before. -/
theorem normalizePath_normal_forms :
    (∀ q : String, normalizePath q = q ↔
      '\\' ∉ q.toList ∧ (∀ c ∈ q.toList.head?, Text.isBlank c = false) ∧
        (∀ c ∈ q.toList.getLast?, Text.isBlank c = false) ∧
        ¬ (2 ≤ q.length ∧ q.toList.head? = some '"' ∧ q.toList.getLast? = some '"') ∧
        ¬ "./".toList <+: q.toList ∧ q.toList.getLast? ≠ some '/') ∧
    ∀ p : String,
      '\\' ∉ (normalizePath p).toList ∧ ¬ "./".toList <+: (normalizePath p).toList ∧
      (normalizePath p).toList.getLast? ≠ some '/' ∧
      ∀ pick : Nat → Bool,
        normalizePath (.ofList (PathText.slashesAt pick p.toList)) = normalizePath p := by
  refine ⟨fun q => ?_, fun p => ?_⟩
  · rw [normalizePath_eq_self_iff, PathText.normal_iff, ← String.length_toList]
    rfl
  · obtain ⟨hbackslash, hhere, hslash⟩ := PathText.normalize_ends p.toList
    rw [normalizePath, String.toList_ofList]
    refine ⟨hbackslash, hhere, hslash, fun pick => ?_⟩
    rw [normalizePath, String.toList_ofList, PathText.normalize_slashesAt]

/-- What stands behind `./` and between quotation marks need not be normal. -/
example : normalizePath "./ src" = " src" ∧ normalizePath "\"\"a\"\"" = "\"a\"" := by decide

end DocScope
