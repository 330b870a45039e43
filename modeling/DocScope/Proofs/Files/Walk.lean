import DocScope.Proofs.Files.Below
import DocScope.Proofs.Files.Resolution
import DocScope.Proofs.Files.Rewrite
import DocScope.Proofs.Text.ByteOrder
import DocScope.Run.SourceFiles

/-!
# What a walk finds

In a file system the entries of a directory have proper names, each name once (`Entry.WellFormed`).
Then a walk gets to a file just if no directory on the way down is passed over (`Entry.Visits`), and
it gets to the files in the order of the bytes of the names that lead to them:

* `WellFormed.exists_isWalk`: one list of names gives the files of the walk from every path, by
  induction over the tree;
* `WellFormed.mem_filesBelow`: the files of a walk from a place;
* `collectFiles_pathOf`, `mem_collectFiles`: the files below a place that are checked.
-/

namespace DocScope

/-- The entries of all directories have proper names, and no name stands for two of them. -/
inductive Entry.WellFormed : Entry → Prop
  | file (content : List UInt8) : WellFormed (.file content)
  | directory {es : List (String × Entry)} (once : (es.map Prod.fst).Nodup)
      (proper : ∀ p ∈ es, ProperName p.1) (each : ∀ p ∈ es, WellFormed p.2) :
      WellFormed (.directory es)

/-! ## Paths below a path -/

theorem World.pathBelow_ofNames {a b : List String} (ha : ∀ n ∈ a, ProperName n)
    (hb : ∀ n ∈ b, ProperName n) (hne : b ≠ []) :
    pathBelow (pathOf a) (.ofList (Path.ofNames b)) = pathOf (a ++ b) := by
  refine String.toList_inj.1 ?_
  rw [pathBelow, String.toList_ofList, String.toList_ofList, ← joinNames_pathOf ha hb]
  exact (if_neg hne).symm

/-- The path with the given names below `root`. -/
def pathAt (root : String) (names : List String) : String :=
  .ofList (Path.joinNames root.toList names)

@[simp] theorem pathAt_nil (root : String) : pathAt root [] = root := by simp [pathAt]

theorem pathAt_cons {root : String} (hr : root.toList ≠ []) {n : String} (hn : ProperName n)
    {names : List String} (hs : ∀ m ∈ names, ProperName m) :
    pathAt root (n :: names) = pathAt (pathBelow root n) names := by
  rw [pathAt, pathAt, Path.joinNames_cons hr hs hn, pathBelow, String.toList_ofList]

theorem pathAt_pathOf {start names : List String} (hs : ∀ n ∈ start, ProperName n)
    (hn : ∀ n ∈ names, ProperName n) :
    pathAt (World.pathOf start) names = World.pathOf (start ++ names) := by
  rw [pathAt, World.joinNames_pathOf hs hn, String.ofList_toList]

namespace Entry

theorem lookup_eq_some_iff {es : List (String × Entry)} (h : (es.map Prod.fst).Nodup) {n : String}
    {e : Entry} : es.lookup n = some e ↔ (n, e) ∈ es := by
  induction es with
  | nil => simp
  | cons p es ih =>
    obtain ⟨m, d⟩ := p
    rw [List.map_cons, List.nodup_cons] at h
    rw [lookup_cons_if, List.mem_cons, ← ih h.2]
    by_cases hn : n = m
    · subst hn
      rw [if_pos rfl]
      refine ⟨fun he => .inl (by simpa using he.symm), ?_⟩
      rintro (he | he)
      · simpa using he.symm
      · exact absurd (List.mem_map_of_mem (f := Prod.fst) ((ih h.2).1 he)) h.1
    · simp [hn]

/-! ## The entries of a directory in order -/

/-- The entries of a directory in the order of a walk. -/
def inOrder (es : List (String × Entry)) : List (String × Entry) :=
  es.mergeSort fun a b => decide (a.1 ≤ b.1)

theorem mem_inOrder {es : List (String × Entry)} {p : String × Entry} :
    p ∈ inOrder es ↔ p ∈ es :=
  (List.mergeSort_perm es _).mem_iff

/-- The names of the entries ascend. -/
theorem pairwise_inOrder {es : List (String × Entry)} (once : (es.map Prod.fst).Nodup) :
    (inOrder es).Pairwise fun a b => a.1 < b.1 := by
  have hle : (inOrder es).Pairwise fun a b => decide (a.1 ≤ b.1) = true := by
    refine List.pairwise_mergeSort ?_ ?_ es
    · intro a b c hab hbc
      exact decide_eq_true (String.le_trans (of_decide_eq_true hab) (of_decide_eq_true hbc))
    · intro a b
      simpa using String.le_total a.1 b.1
  have hne : (inOrder es).Pairwise fun a b => a.1 ≠ b.1 := by
    have hperm : ((inOrder es).map Prod.fst).Perm (es.map Prod.fst) :=
      (List.mergeSort_perm es _).map Prod.fst
    exact List.pairwise_map.1 (hperm.nodup_iff.2 once)
  refine (hle.and hne).imp fun {a b} h => ?_
  by_contra hlt
  exact h.2 (String.le_antisymm (of_decide_eq_true h.1) (String.not_lt.1 hlt))

theorem filesOfEach_eq (path : String) (es : List (String × Entry)) :
    filesOfEach path es = es.map fun p => (p.1,
      if p.2.isDirectory && isSkipped p.1 then [] else p.2.filesBelow (pathBelow path p.1)) := by
  induction es with
  | nil => rfl
  | cons p es ih => rw [filesOfEach, ih, List.map_cons]

/-- A walk through a directory goes through its entries in order. -/
theorem filesBelow_directory (path : String) (es : List (String × Entry)) :
    filesBelow path (.directory es) = (inOrder es).flatMap fun p =>
      if p.2.isDirectory && isSkipped p.1 then [] else p.2.filesBelow (pathBelow path p.1) := by
  rw [filesBelow, filesOfEach_eq,
    ← List.map_mergeSort (r := fun a b : String × Entry => decide (a.1 ≤ b.1)), List.flatMap_map]
  · rfl
  · exact fun _ _ _ _ => rfl

/-! ## Names that lead to a file -/

/-- The names lead from `e` to a file, through no directory that is passed over. -/
def Visits (e : Entry) (names : List String) : Prop :=
  (∃ content, e.find? names = some (.file content)) ∧ ∀ n ∈ names.dropLast, isSkipped n = false

theorem visits_file {content : List UInt8} {names : List String} :
    (Entry.file content).Visits names ↔ names = [] := by
  constructor
  · rintro ⟨⟨c, hf⟩, -⟩
    cases names with
    | nil => rfl
    | cons n names => simp [Entry.find?, child?] at hf
  · rintro rfl
    exact ⟨⟨content, rfl⟩, by simp⟩

/-- One step of a walk: into an entry that is no directory to pass over. -/
theorem visits_directory {es : List (String × Entry)} (once : (es.map Prod.fst).Nodup)
    {names : List String} :
    (Entry.directory es).Visits names ↔
      ∃ p ∈ es, (p.2.isDirectory && isSkipped p.1) = false ∧
        ∃ rest, p.2.Visits rest ∧ p.1 :: rest = names := by
  constructor
  · rintro ⟨⟨content, hf⟩, hskip⟩
    cases names with
    | nil => simp [Entry.find?] at hf
    | cons n names =>
      rw [Entry.find?] at hf
      obtain ⟨d, hd, hf⟩ := Option.bind_eq_some_iff.1 hf
      refine ⟨(n, d), (lookup_eq_some_iff once).1 hd, ?_, names, ⟨⟨content, hf⟩, ?_⟩, rfl⟩
      · cases names with
        | nil =>
          cases hf
          rfl
        | cons m names => simp [hskip n (by simp)]
      · cases names with
        | nil => simp
        | cons m names =>
          intro k hk
          exact hskip k (List.mem_cons_of_mem _ hk)
  · rintro ⟨⟨n, d⟩, hmem, hpass, rest, ⟨⟨content, hf⟩, hskip⟩, rfl⟩
    refine ⟨⟨content, ?_⟩, ?_⟩
    · rw [Entry.find?, child?, (lookup_eq_some_iff once).2 hmem, Option.bind_some, hf]
    · cases rest with
      | nil => simp
      | cons m rest =>
        -- something is below `n`, so it is a directory
        have hdir : d.isDirectory = true := by
          cases d with
          | file c => simp [Entry.find?, child?] at hf
          | directory es => rfl
        rw [List.dropLast_cons_of_ne_nil (by simp)]
        exact List.forall_mem_cons.2 ⟨by simpa [hdir] using hpass, hskip⟩

/-! ## The walk -/

/-- The names that lead from `e` to the files of a walk, in its order. -/
structure IsWalk (e : Entry) (ns : List (List String)) : Prop where
  mem : ∀ names, names ∈ ns ↔ e.Visits names
  ordered : ns.Pairwise (List.Lex fun a b => Text.Utf8.bytesOf a < Text.Utf8.bytesOf b)
  paths : ∀ root : String, root.toList ≠ [] → e.filesBelow root = ns.map (pathAt root)

theorem isWalk_file (content : List UInt8) : (Entry.file content).IsWalk [[]] where
  mem names := by rw [visits_file, List.mem_singleton]
  ordered := List.pairwise_singleton _ _
  paths root _ := by simp [filesBelow]

namespace WellFormed

theorem find? {e d : Entry} (he : e.WellFormed) {names : List String}
    (h : e.find? names = some d) : d.WellFormed ∧ ∀ n ∈ names, ProperName n := by
  induction names generalizing e with
  | nil =>
    cases h
    exact ⟨he, by simp⟩
  | cons n names ih =>
    cases he with
    | file c => simp [Entry.find?, child?] at h
    | @directory es once proper each =>
      rw [Entry.find?] at h
      obtain ⟨c, hc, h⟩ := Option.bind_eq_some_iff.1 h
      have hmem : (n, c) ∈ es := (lookup_eq_some_iff once).1 hc
      obtain ⟨hd, hnames⟩ := ih (each _ hmem) h
      exact ⟨hd, List.forall_mem_cons.2 ⟨proper _ hmem, hnames⟩⟩

/-- The walk through a directory: behind each name the walk through that entry. -/
theorem isWalk_directory {es : List (String × Entry)} (once : (es.map Prod.fst).Nodup)
    (proper : ∀ p ∈ es, ProperName p.1) (each : ∀ p ∈ es, p.2.WellFormed)
    {walk : String × Entry → List (List String)} (hwalk : ∀ p ∈ es, p.2.IsWalk (walk p)) :
    (Entry.directory es).IsWalk ((inOrder es).flatMap fun p =>
      if p.2.isDirectory && isSkipped p.1 then [] else (walk p).map (p.1 :: ·)) where
  mem names := by
    rw [visits_directory once, List.mem_flatMap]
    refine exists_congr fun p => ?_
    rw [mem_inOrder]
    refine and_congr_right fun hp => ?_
    by_cases hpass : (p.2.isDirectory && isSkipped p.1) = true
    · simp [hpass]
    · simp [hpass, (hwalk p hp).mem]
  ordered := by
    refine List.pairwise_flatMap.2 ⟨fun p hp => ?_, (pairwise_inOrder once).imp ?_⟩
    · split
      · exact List.Pairwise.nil
      · refine List.pairwise_map.2 ((hwalk p (mem_inOrder.1 hp)).ordered.imp ?_)
        exact fun h => List.Lex.cons h
    · -- what follows does not matter once the names of two entries differ
      intro p q hlt x hx y hy
      split at hx
      · cases hx
      · split at hy
        · cases hy
        · obtain ⟨a, -, rfl⟩ := List.mem_map.1 hx
          obtain ⟨b, -, rfl⟩ := List.mem_map.1 hy
          exact List.Lex.rel (Text.Utf8.bytesOf_lt hlt)
  paths root hroot := by
    rw [filesBelow_directory, List.map_flatMap]
    refine List.flatMap_congr fun p hp => ?_
    have hmem : p ∈ es := mem_inOrder.1 hp
    split
    · rfl
    · have hbelow : (pathBelow root p.1).toList ≠ [] := by
        rw [pathBelow, String.toList_ofList]
        exact Path.join_ne_nil (proper p hmem).ne_nil
      rw [(hwalk p hmem).paths _ hbelow, List.map_map]
      refine List.map_congr_left fun names hnames => ?_
      obtain ⟨⟨content, hf⟩, -⟩ := ((hwalk p hmem).mem names).1 hnames
      exact (pathAt_cons hroot (proper p hmem) ((each p hmem).find? hf).2).symm

/-- **A walk gets to each file once, in the order of the names.** -/
theorem exists_isWalk {e : Entry} (he : e.WellFormed) : ∃ ns, e.IsWalk ns := by
  induction he with
  | file content => exact ⟨_, isWalk_file content⟩
  | directory once proper each ih =>
    choose! walk hwalk using ih
    exact ⟨_, isWalk_directory once proper each hwalk⟩

/-- **The files of a walk**: those with no directory on the way that is passed over. -/
theorem mem_filesBelow {e : Entry} (he : e.WellFormed) {start : List String}
    (hs : ∀ n ∈ start, ProperName n) {path : String} :
    path ∈ e.filesBelow (World.pathOf start) ↔
      ∃ names content, e.find? names = some (.file content) ∧
        (∀ n ∈ names.dropLast, isSkipped n = false) ∧ path = World.pathOf (start ++ names) := by
  obtain ⟨ns, hns⟩ := he.exists_isWalk
  rw [hns.paths _ (by simp [World.toList_pathOf]), List.mem_map]
  constructor
  · rintro ⟨names, hm, rfl⟩
    obtain ⟨⟨content, hf⟩, hskip⟩ := (hns.mem names).1 hm
    exact ⟨names, content, hf, hskip, pathAt_pathOf hs (he.find? hf).2⟩
  · rintro ⟨names, content, hf, hskip, rfl⟩
    exact ⟨names, (hns.mem names).2 ⟨⟨content, hf⟩, hskip⟩, pathAt_pathOf hs (he.find? hf).2⟩

end WellFormed

end Entry

namespace World

theorem collectFiles_pathOf {w : World} {start : List String} (h : w.IsPlace start) {e : Entry}
    (he : w.root.find? start = some e) (config : Config) (excluded : String → Bool) :
    collectFiles w config excluded (pathOf start) =
      .ok ((e.filesBelow (pathOf start)).filter (isCandidate config excluded (pathOf start))) := by
  simp only [collectFiles, resolve_pathOf h, he]

/-- **The files below a place that are checked.** -/
theorem mem_collectFiles {w : World} (hw : w.root.WellFormed) {start : List String}
    (h : w.IsPlace start) {e : Entry} (he : w.root.find? start = some e) (config : Config)
    (excluded : String → Bool) {path : String} :
    path ∈ (e.filesBelow (pathOf start)).filter (isCandidate config excluded (pathOf start)) ↔
      ∃ names content, w.root.find? (start ++ names) = some (.file content) ∧
        (∀ n ∈ names.dropLast, isSkipped n = false) ∧ path = pathOf (start ++ names) ∧
        isCandidate config excluded (pathOf start) path = true := by
  rw [List.mem_filter, (hw.find? he).1.mem_filesBelow h.proper]
  constructor
  · rintro ⟨⟨names, content, hf, hnames, rfl⟩, hc⟩
    exact ⟨names, content, by rw [Entry.find?_append, he, Option.bind_some, hf], hnames, rfl, hc⟩
  · rintro ⟨names, content, hf, hnames, rfl, hc⟩
    rw [Entry.find?_append, he, Option.bind_some] at hf
    exact ⟨⟨names, content, hf, hnames, rfl⟩, hc⟩

end World

end DocScope
