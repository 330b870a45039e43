import DocScope.Proofs.Diff.ChangedFiles
import DocScope.Proofs.Git.Output

/-!
# Names in quotation marks

The program prints a name as it is, unless it has a character that is not plain: then it stands in
quotation marks, with escapes (`Git.printed`). Normalizing removes the marks and keeps the escapes.

* `PathText.dropEnd_eq_of_dropHere`: how many `./` are dropped shows in the number of points;
* `Git.normalize_printed_iff`: so a printed name is understood just if all its characters are plain,
  separators at its end apart;
* `Git.printedName_understood_iff`: what this means for the set of changed files.
-/

namespace DocScope

namespace PathText

/-- The characters that end up as a slash. -/
def isSeparator (c : Char) : Bool := c == '/' || c == '\\'

theorem dropEnd_withSlashes (s : List Char) :
    Text.dropEnd (· == '/') (withSlashes s) = withSlashes (Text.dropEnd isSeparator s) := by
  have hslash : ((· == '/') ∘ fun c => if c = '\\' then '/' else c) = isSeparator := by
    funext c
    by_cases hc : c = '\\'
    · simp [isSeparator, hc]
    · simp [isSeparator, hc]
  rw [withSlashes, Text.dropEnd_map, hslash]
  rfl

theorem withSlashes_append (s t : List Char) :
    withSlashes (s ++ t) = withSlashes s ++ withSlashes t := List.map_append

theorem withSlashes_separators {s : List Char} (h : ∀ c ∈ s, isSeparator c = true) :
    ∀ c ∈ withSlashes s, c = '/' := by
  refine List.forall_mem_map.2 fun c hc => ?_
  have hc := h c hc
  simp only [isSeparator, Bool.or_eq_true, beq_iff_eq] at hc
  rcases hc with rfl | rfl <;> decide

theorem count_withSlashes (s : List Char) : (withSlashes s).count '.' = s.count '.' := by
  induction s with
  | nil => rfl
  | cons c s ih =>
    simp only [withSlashes, List.map_cons, List.count_cons] at ih ⊢
    rw [ih]
    by_cases hc : c = '\\'
    · simp [hc]
    · rw [if_neg hc]

/-! ## Points and slashes in front -/

/-- Steps that stay in place. -/
def steps (k : Nat) : List Char := (List.replicate k ['.', '/']).flatten

theorem count_steps (k : Nat) : (steps k).count '.' = k := by
  induction k with
  | zero => rfl
  | succ k ih => simp_all [steps, List.replicate_succ]

theorem exists_steps (s : List Char) : ∃ k, s = steps k ++ dropHere s := by
  fun_induction dropHere s with
  | case1 r ih =>
    obtain ⟨k, hk⟩ := ih
    exact ⟨k + 1, by simpa [steps, List.replicate_succ] using hk⟩
  | case2 s => exact ⟨0, rfl⟩

theorem count_dropEnd (s : List Char) : (Text.dropEnd (· == '/') s).count '.' = s.count '.' := by
  obtain ⟨t, ht, hs⟩ := Text.exists_dropEnd_append (· == '/') s
  have hzero : t.count '.' = 0 := by
    rw [List.count_eq_zero]
    intro hmem
    exact absurd (ht _ hmem) (by decide)
  conv_rhs => rw [hs, List.count_append, hzero]
  rfl

/-- Two texts with as many points in each have lost as many steps. -/
theorem dropEnd_eq_of_dropHere {s t : List Char} (hcount : s.count '.' = t.count '.')
    (h : Text.dropEnd (· == '/') (dropHere s) = Text.dropEnd (· == '/') (dropHere t)) :
    Text.dropEnd (· == '/') s = Text.dropEnd (· == '/') t := by
  have hinner : ∀ u v : List Char, Text.dropEnd (· == '/') (u ++ Text.dropEnd (· == '/') v) =
      Text.dropEnd (· == '/') (u ++ v) := by
    intro u v
    obtain ⟨w, hw, hv⟩ := Text.exists_dropEnd_append (· == '/') v
    conv_rhs => rw [hv, ← List.append_assoc, Text.dropEnd_append_of_all hw]
  obtain ⟨k, hs⟩ := exists_steps s
  obtain ⟨l, ht⟩ := exists_steps t
  have hkl : k = l := by
    have hrest := congrArg (List.count '.') h
    rw [count_dropEnd, count_dropEnd] at hrest
    rw [hs, ht, List.count_append, List.count_append, count_steps, count_steps] at hcount
    omega
  rw [hs, ht, ← hinner, h, hinner, hkl]

theorem dropEnd_dropHere_slashes {t : List Char} (ht : ∀ c ∈ t, c = '/') :
    Text.dropEnd (· == '/') (dropHere t) = [] := by
  have hne : ∀ r, t ≠ '.' :: '/' :: r := by
    rintro r rfl
    exact absurd (ht '.' List.mem_cons_self) (by decide)
  rw [dropHere_of_ne hne]
  exact List.rdropWhile_eq_nil_iff.2 (by simpa using ht)

/-- How many slashes end a text does not matter. -/
theorem dropEnd_dropHere_append {t u : List Char} (ht : ∀ c ∈ t, c = '/') (hu : ∀ c ∈ u, c = '/')
    (htu : t = [] ↔ u = []) (s : List Char) :
    Text.dropEnd (· == '/') (dropHere (s ++ t)) = Text.dropEnd (· == '/') (dropHere (s ++ u)) := by
  fun_induction dropHere s with
  | case1 r ih => exact ih
  | case2 s hs =>
    by_cases hpoint : s = ['.']
    · subst hpoint
      -- the first slash makes a step, the others are dropped
      cases t with
      | nil =>
        obtain rfl := htu.1 rfl
        rfl
      | cons a t =>
        cases u with
        | nil => cases htu.2 rfl
        | cons b u =>
          obtain ⟨rfl, hrest⟩ := List.forall_mem_cons.1 ht
          obtain ⟨rfl, hrest'⟩ := List.forall_mem_cons.1 hu
          exact (dropEnd_dropHere_slashes hrest).trans (dropEnd_dropHere_slashes hrest').symm
    · have hstay : ∀ t, (∀ c ∈ t, c = '/') →
          Text.dropEnd (· == '/') (dropHere (s ++ t)) = Text.dropEnd (· == '/') s := by
        intro t ht
        rw [dropHere_of_ne, Text.dropEnd_append_of_all (by simpa using ht)]
        intro r hr
        rcases s with _ | ⟨c, _ | ⟨d, s⟩⟩
        · exact absurd (ht '.' (by simp_all)) (by decide)
        · exact hpoint (by simp_all)
        · cases hr
          exact hs s rfl
      rw [hstay t ht, hstay u hu]

/-! ## Trimming and marks -/

theorem unquote_of_ne {s : List Char} (h : s.head? ≠ some '"') : unquote s = s :=
  unquote_of_not_quoted fun hq => h hq.2.1

theorem trim_quoted (s : List Char) :
    Text.trim ('"' :: (s ++ ['"'])) = '"' :: (s ++ ['"']) := by
  rw [Text.trim_cons (by decide), Text.trimEnd_concat (by decide)]

end PathText

namespace Git

open PathText

/-! ## Printed names -/

/-- The characters that do not put a name into quotation marks: all but the mark itself, the
backslash and the control characters. -/
def isPlain (c : Char) : Bool :=
  c != '"' && c != '\\' && decide (0x20 ≤ c.toNat) && c.toNat != 0x7f

/-- A character of a name in quotation marks. -/
def escape (c : Char) : List Char :=
  match c with
  | '"' => ['\\', '"']
  | '\\' => ['\\', '\\']
  | '\x07' => ['\\', 'a']
  | '\x08' => ['\\', 'b']
  | '\t' => ['\\', 't']
  | '\n' => ['\\', 'n']
  | '\x0b' => ['\\', 'v']
  | '\x0c' => ['\\', 'f']
  | '\r' => ['\\', 'r']
  | c =>
    if isPlain c then [c]
    else '\\' :: [c.toNat / 64, c.toNat / 8 % 8, c.toNat % 8].map Nat.digitChar

/-- A name as the program prints it. -/
def printed (p : List Char) : List Char :=
  if p.all isPlain then p else '"' :: (p.flatMap escape ++ ['"'])

theorem escape_of_plain {c : Char} (h : isPlain c = true) : escape c = [c] := by
  unfold escape
  split
  case h_10 => exact if_pos h
  all_goals cases h

/-- What is written for a character that is not plain: there are few of them. -/
theorem escape_of_not_plain {c : Char} (h : isPlain c = false) :
    2 ≤ (escape c).length ∧ '.' ∉ c :: escape c ∧ '\n' ∉ escape c ∧
      Text.dropEnd isSeparator (escape c) = if isSeparator c then [] else escape c := by
  have hsmall : ∀ n < 128, isPlain (Char.ofNat n) = false →
      2 ≤ (escape (Char.ofNat n)).length ∧ '.' ∉ Char.ofNat n :: escape (Char.ofNat n) ∧
        '\n' ∉ escape (Char.ofNat n) ∧ Text.dropEnd isSeparator (escape (Char.ofNat n)) =
          if isSeparator (Char.ofNat n) then [] else escape (Char.ofNat n) := by
    decide +kernel
  have hlt : c.toNat < 128 := by
    by_contra hge
    have hquote : c ≠ '"' := by
      rintro rfl
      exact hge (by decide)
    have hbackslash : c ≠ '\\' := by
      rintro rfl
      exact hge (by decide)
    simp [isPlain, hquote, hbackslash] at h
    omega
  have hchar : Char.ofNat c.toNat = c := Char.ofNat_toNat c
  have hc := hsmall c.toNat hlt
  rw [hchar] at hc
  exact hc h

theorem length_escape (c : Char) : 1 ≤ (escape c).length ∧
    ((escape c).length = 1 → isPlain c = true) := by
  cases h : isPlain c with
  | true => simp [escape_of_plain h]
  | false =>
    have hlen := (escape_of_not_plain h).1
    exact ⟨by omega, by omega⟩

theorem count_escape (c : Char) : (escape c).count '.' = [c].count '.' := by
  cases h : isPlain c with
  | true => rw [escape_of_plain h]
  | false =>
    have hpoint := (escape_of_not_plain h).2.1
    rw [List.mem_cons, not_or] at hpoint
    rw [List.count_eq_zero.2 hpoint.2, List.count_eq_zero.2 (by simpa using hpoint.1)]

theorem dropEnd_escape (c : Char) :
    Text.dropEnd isSeparator (escape c) = if isSeparator c then [] else escape c := by
  cases h : isPlain c with
  | true =>
    rw [escape_of_plain h]
    cases hc : isSeparator c <;> simp [Text.dropEnd, hc]
  | false => exact (escape_of_not_plain h).2.2.2

theorem count_flatMap_escape (s : List Char) : (s.flatMap escape).count '.' = s.count '.' := by
  induction s with
  | nil => rfl
  | cons c s ih =>
    rw [List.flatMap_cons, List.count_append, count_escape, ih, ← List.count_append]
    rfl

theorem plain_of_length {s : List Char} (h : (s.flatMap escape).length = s.length) :
    ∀ c ∈ s, isPlain c = true := by
  have hle : ∀ s : List Char, s.length ≤ (s.flatMap escape).length := by
    intro s
    induction s with
    | nil => exact Nat.le_refl _
    | cons c s ih =>
      have hc := (length_escape c).1
      simp only [List.flatMap_cons, List.length_append, List.length_cons]
      omega
  induction s with
  | nil => simp
  | cons c s ih =>
    have hs := hle s
    have hc := length_escape c
    simp only [List.flatMap_cons, List.length_append, List.length_cons] at h
    exact List.forall_mem_cons.2 ⟨hc.2 (by omega), ih (by omega)⟩

theorem flatMap_escape_of_plain {s : List Char} (h : ∀ c ∈ s, isPlain c = true) :
    s.flatMap escape = s := by
  rw [List.flatMap_congr fun c hc => escape_of_plain (h c hc)]
  exact List.flatMap_singleton' s

theorem dropEnd_flatMap_escape (s : List Char) :
    Text.dropEnd isSeparator (s.flatMap escape) =
      (Text.dropEnd isSeparator s).flatMap escape := by
  induction s using List.reverseRecOn with
  | nil => rfl
  | append_singleton s c ih =>
    rw [List.flatMap_append, List.flatMap_singleton]
    have hlast := dropEnd_escape c
    cases hc : isSeparator c with
    | true =>
      rw [hc, if_pos rfl] at hlast
      rw [Text.dropEnd_append_of_all (List.rdropWhile_eq_nil_iff.1 hlast), ih,
        Text.dropEnd_append_of_all (List.forall_mem_singleton.2 hc)]
    | false =>
      rw [hc, if_neg (by decide)] at hlast
      have hne : escape c ≠ [] := List.length_pos_iff.1 (length_escape c).1
      have hkeep : Text.dropEnd isSeparator (s ++ [c]) = s ++ [c] :=
        List.rdropWhile_concat_neg isSeparator s c (by simp [hc])
      rw [Text.dropEnd_append (by rw [hlast]; exact hne), hlast, hkeep, List.flatMap_append,
        List.flatMap_singleton]

/-! ## Normalizing a printed name -/

section
variable {s : List Char} (htrim : Text.trim s = s) (hquote : s.head? ≠ some '"')
include htrim hquote

theorem normalize_eq :
    PathText.normalize s = Text.dropEnd (· == '/') (dropHere (withSlashes s)) := by
  rw [PathText.normalize, htrim, unquote_of_ne hquote]

theorem normalize_printed : PathText.normalize (printed s) =
    Text.dropEnd (· == '/') (dropHere (withSlashes (s.flatMap escape))) := by
  unfold printed
  split
  · next hplain =>
    rw [normalize_eq htrim hquote, flatMap_escape_of_plain (List.all_eq_true.1 hplain)]
  · rw [PathText.normalize, trim_quoted, unquote_quoted]

/-- **A printed name is understood** just if all characters are plain, separators at its end
apart. -/
theorem normalize_printed_iff : PathText.normalize (printed s) = PathText.normalize s ↔
    ∀ c ∈ Text.dropEnd isSeparator s, isPlain c = true := by
  rw [normalize_printed htrim hquote, normalize_eq htrim hquote]
  constructor
  · intro h
    have hcount : (withSlashes (s.flatMap escape)).count '.' = (withSlashes s).count '.' := by
      rw [count_withSlashes, count_flatMap_escape, count_withSlashes]
    have hcore := dropEnd_eq_of_dropHere hcount h
    rw [dropEnd_withSlashes, dropEnd_withSlashes, dropEnd_flatMap_escape] at hcore
    refine plain_of_length ?_
    simpa [withSlashes] using congrArg List.length hcore
  · intro hplain
    obtain ⟨t, ht, hs⟩ := Text.exists_dropEnd_append isSeparator s
    have hescaped : ∀ c ∈ t.flatMap escape, isSeparator c = true := by
      refine List.rdropWhile_eq_nil_iff.1 ((dropEnd_flatMap_escape t).trans ?_)
      rw [show Text.dropEnd isSeparator t = [] from List.rdropWhile_eq_nil_iff.2 ht]
      rfl
    have hnil : withSlashes (t.flatMap escape) = [] ↔ withSlashes t = [] := by
      have hne : ∀ c, escape c ≠ [] := fun c => List.length_pos_iff.1 (length_escape c).1
      cases t <;> simp [withSlashes, hne]
    rw [hs, List.flatMap_append, flatMap_escape_of_plain hplain, withSlashes_append,
      withSlashes_append]
    exact dropEnd_dropHere_append (withSlashes_separators hescaped) (withSlashes_separators ht)
      hnil _

end

/-! ## The set of changed files -/

/-- A name as the program prints it. -/
def printedName (p : String) : String := .ofList (printed p.toList)

/-- All characters of a name are plain, separators at its end apart. -/
def PlainName (p : String) : Prop :=
  ∀ c ∈ Text.dropEnd isSeparator p.toList, isPlain c = true

theorem newline_not_mem_escape (c : Char) : '\n' ∉ escape c := by
  cases h : isPlain c with
  | true =>
    rw [escape_of_plain h, List.mem_singleton]
    rintro rfl
    cases h
  | false => exact (escape_of_not_plain h).2.2.1

/-- A printed name is a line of its own. -/
theorem printedName_oneLine (p : String) :
    OneLine (printedName p).toList ∧ (printedName p).toList.getLast? ≠ some '\r' := by
  rw [printedName, String.toList_ofList, printed]
  split
  · next hplain =>
    have hplain := List.all_eq_true.1 hplain
    refine ⟨fun hmem => ?_, fun hlast => ?_⟩
    · cases hplain _ hmem
    · cases hplain _ (List.mem_of_getLast? hlast)
  · refine ⟨by simp [OneLine, newline_not_mem_escape], ?_⟩
    rw [← List.cons_append, List.getLast?_concat]
    decide

theorem normalizePath_trimString (p : String) :
    normalizePath (Text.trimString p) = normalizePath p := by
  simp [normalizePath, PathText.normalize, Text.trimString]

theorem normalizePath_printedName_iff {p : String} (htrim : Text.trim p.toList = p.toList)
    (hquote : p.toList.head? ≠ some '"') :
    normalizePath (printedName p) = normalizePath p ↔ PlainName p := by
  rw [normalizePath, normalizePath, String.ofList_inj, printedName, String.toList_ofList]
  exact normalize_printed_iff htrim hquote

/-- The changed files are those whose printed names are listed. -/
theorem contains_changedFiles {g : Git} {scope : DiffScope} {paths : List String}
    (h : g.Prints (diffArguments scope ++ ["--name-only"]) (nameLines (paths.map printedName))) :
    ∃ files, g.changedFiles scope = .ok files ∧ ∀ sourceRoot p,
      ((ChangedFiles.ofPaths files sourceRoot).contains p = true ↔
        (∃ q ∈ paths, normalizePath (printedName q) = normalizePath p) ∧
          normalizePath p ≠ "" ∧ ChangedFiles.LiesUnder (normalizePath p) sourceRoot) := by
  refine ⟨_, changedFiles_of_names ?_ ?_ h, fun sourceRoot p => ?_⟩
  · exact List.forall_mem_map.2 fun q _ => (printedName_oneLine q).1
  · exact List.forall_mem_map.2 fun q _ => (printedName_oneLine q).2
  · rw [ChangedFiles.contains_ofPaths]
    refine and_congr_left fun ⟨hne, _⟩ => ?_
    constructor
    · rintro ⟨raw, hraw, heq⟩
      obtain ⟨name, hname, rfl⟩ := List.mem_map.1 (List.mem_filter.1 hraw).1
      obtain ⟨q, hq, rfl⟩ := List.mem_map.1 hname
      exact ⟨q, hq, by rw [← heq, normalizePath_trimString]⟩
    · rintro ⟨q, hq, heq⟩
      rw [← normalizePath_trimString] at heq
      refine ⟨_, List.mem_filter.2 ⟨List.mem_map_of_mem (List.mem_map_of_mem hq), ?_⟩, heq⟩
      -- an empty name would have been left out
      have hname : Text.trimString (printedName q) ≠ "" := by
        intro hempty
        rw [hempty] at heq
        exact hne heq.symm
      simpa using hname

/-- **Printed names are understood just if they are plain.** A changed file is then found by its own
path; another one only if some other name is taken for it. -/
theorem printedName_understood_iff {p : String} (htrim : Text.trim p.toList = p.toList)
    (hquote : p.toList.head? ≠ some '"') :
    (normalizePath (printedName p) = normalizePath p ↔ PlainName p) ∧
    ∀ (g : Git) (scope : DiffScope) (paths : List String), p ∈ paths →
      g.Prints (diffArguments scope ++ ["--name-only"]) (nameLines (paths.map printedName)) →
      ∃ files, g.changedFiles scope = .ok files ∧ ∀ sourceRoot,
        ((ChangedFiles.ofPaths files sourceRoot).contains p = true ↔
          (PlainName p ∨ ∃ q ∈ paths, q ≠ p ∧ normalizePath (printedName q) = normalizePath p) ∧
            normalizePath p ≠ "" ∧ ChangedFiles.LiesUnder (normalizePath p) sourceRoot) := by
  have hiff := normalizePath_printedName_iff htrim hquote
  refine ⟨hiff, fun g scope paths hp h => ?_⟩
  obtain ⟨files, hfiles, hcontains⟩ := contains_changedFiles h
  refine ⟨files, hfiles, fun sourceRoot => ?_⟩
  rw [hcontains, ← hiff]
  refine and_congr_left fun _ => ?_
  constructor
  · rintro ⟨q, hq, heq⟩
    by_cases hqp : q = p
    · rw [hqp] at heq
      exact .inl heq
    · exact .inr ⟨q, hq, hqp, heq⟩
  · rintro (heq | ⟨q, hq, -, heq⟩)
    · exact ⟨p, hp, heq⟩
    · exact ⟨q, hq, heq⟩

/-- A program that lists two names, the second of which ends with a backslash. -/
theorem printedName_understood_iff_backslash :
    let p := "src/a\\"
    let g : Git := ⟨⟨fun _ _ _ => .exited 0 0
      (Text.Utf8.bytesOf (nameLines (["lib/b.ts", p].map printedName))) []⟩, "git", "/r", 5000⟩
    printedName p = "\"src/a\\\\\"" ∧ normalizePath (printedName p) = normalizePath p ∧
      ∃ files, g.changedFiles .index = .ok files ∧
        (ChangedFiles.ofPaths files (some "src")).contains p = true := by
  intro p g
  have hplain : PlainName p :=
    List.all_eq_true.1 (by decide : (Text.dropEnd isSeparator p.toList).all isPlain = true)
  obtain ⟨hiff, hset⟩ := printedName_understood_iff (p := p) (by decide) (by decide)
  obtain ⟨files, hfiles, hcontains⟩ :=
    hset g .index ["lib/b.ts", p] (by simp) ⟨0, [], by decide, rfl⟩
  refine ⟨by decide, hiff.2 hplain, files, hfiles, (hcontains _).2 ⟨.inl hplain, by decide, ?_⟩⟩
  rintro _ ⟨⟩
  exact .inr (.inr (.inr (by decide)))

/-- A file with a quotation mark in its name is listed and not found. -/
theorem printedName_misread :
    let p := "src/a\"b.ts"
    let g : Git := ⟨⟨fun _ _ _ => .exited 0 0
      (Text.Utf8.bytesOf (nameLines ([p].map printedName))) []⟩, "git", "/r", 5000⟩
    Text.trim p.toList = p.toList ∧ p.toList.head? ≠ some '"' ∧ p.toList.getLast? ≠ some '"' ∧
      printedName p = "\"src/a\\\"b.ts\"" ∧
      normalizePath (printedName p) = "src/a/\"b.ts" ∧ normalizePath p = "src/a\"b.ts" ∧
      g.changedFiles .workingTree = .ok [printedName p] ∧
      (ChangedFiles.ofPaths [printedName p] (some "src")).contains p = false := by
  decide +kernel

end Git

end DocScope
