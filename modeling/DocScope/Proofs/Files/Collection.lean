import DocScope.Proofs.Files.Walk
import Mathlib.Data.List.Lex

/-!
# The files that are collected

Paths are compared component by component, names by their bytes (`Path.Before`). The files that are
collected below any path are given by the names that lead to them, and stand in this order, each
once (`World.collectFiles_ordered`).
-/

namespace DocScope

namespace Path

/-- What a component is compared by: its kind, and for names their bytes. -/
def Component.key : Component → List UInt8
  | .root => [0]
  | .here => [1]
  | .up => [2]
  | .name text => 3 :: Text.Utf8.encode text

/-- One path stands before another one, component by component. -/
def Before (p q : List Char) : Prop :=
  List.Lex (fun a b : Component => a.key < b.key) (components p) (components q)

theorem Before.ne {p q : List Char} (h : Before p q) : p ≠ q := by
  rintro rfl
  exact List.lex_irrefl (fun a => List.lt_irrefl a.key) _ h

end Path

/-- Names in order lead to paths in order. -/
theorem before_pathAt {root : String} (hr : root.toList ≠ []) {a b : List String}
    (ha : ∀ n ∈ a, ProperName n) (hb : ∀ n ∈ b, ProperName n)
    (h : List.Lex (fun m n => Text.Utf8.bytesOf m < Text.Utf8.bytesOf n) a b) :
    Path.Before (pathAt root a).toList (pathAt root b).toList := by
  have hnames : List.Lex (fun c d : Path.Component => c.key < d.key)
      (a.map fun n => .name n.toList) (b.map fun n => .name n.toList) := by
    clear ha hb
    induction h with
    | nil => exact List.Lex.nil
    | cons h ih => exact List.Lex.cons ih
    | rel h => exact List.Lex.rel (List.cons_lt_cons_iff.2 (.inr ⟨rfl, h⟩))
  rw [Path.Before, pathAt, pathAt, String.toList_ofList, String.toList_ofList,
    Path.components_joinNames hr ha, Path.components_joinNames hr hb]
  exact List.Lex.append_left _ hnames _

theorem isSkipped_eq_false {n : String} :
    isSkipped n = false ↔ n.toList.head? ≠ some '.' ∧ n ∉ skippedDirectories := by
  simp [isSkipped]

/-- A file is left out by its path or by the names below the start of the walk. -/
theorem isCandidate_pathAt {root : String} (hr : root.toList ≠ []) {names : List String}
    (hn : ∀ n ∈ names, ProperName n) (config : Config) (excluded : String → Bool) :
    isCandidate config excluded root (pathAt root names) = true ↔
      isSupported (pathAt root names) = true ∧
        config.includesExtension (extensionOf (pathAt root names)) = true ∧
        excluded (pathAt root names) = false ∧
        excluded (normalizePath (.ofList (Path.ofNames names))) = false := by
  have hbelow : Path.below? root.toList (pathAt root names).toList = some (Path.ofNames names) := by
    rw [pathAt, String.toList_ofList, Path.below?_joinNames hr hn]
  simp [isCandidate, hbelow, and_assoc]

namespace World

/-- **The files that are collected**: those below the path, through no directory that is hidden or
has built or foreign code, with an extension that counts, and left out neither by the whole path nor
by the path seen from the start. They stand in the order of their paths. -/
theorem collectFiles_ordered {w : World} (hw : w.root.WellFormed) {root : String}
    {start : List String} (hroot : w.resolve root = .ok start) (config : Config)
    (excluded : String → Bool) :
    ∃ files, collectFiles w config excluded root = .ok files ∧ files.Nodup ∧
      (files.Pairwise fun p q => Path.Before p.toList q.toList) ∧
      ∀ path, path ∈ files ↔
        ∃ names content, w.root.find? (start ++ names) = some (.file content) ∧
          path = pathAt root names ∧
          (∀ n ∈ names.dropLast, n.toList.head? ≠ some '.' ∧ n ∉ skippedDirectories) ∧
          isSupported path = true ∧ config.includesExtension (extensionOf path) = true ∧
          excluded path = false ∧
          excluded (normalizePath (.ofList (Path.ofNames names))) = false := by
  have hr : root.toList ≠ [] := ne_nil_of_resolve hroot
  obtain ⟨e, he⟩ := Option.isSome_iff_exists.1 (resolve_isPlace hroot).found
  have hwell : e.WellFormed := (hw.find? he).1
  obtain ⟨ns, hns⟩ := hwell.exists_isWalk
  have hproper : ∀ names ∈ ns, ∀ n ∈ names, ProperName n := by
    intro names hm
    obtain ⟨⟨content, hf⟩, -⟩ := (hns.mem names).1 hm
    exact (hwell.find? hf).2
  have hordered : (ns.map (pathAt root)).Pairwise fun p q => Path.Before p.toList q.toList := by
    refine List.pairwise_map.2 (hns.ordered.imp_of_mem fun ha hb hlex => ?_)
    exact before_pathAt hr (hproper _ ha) (hproper _ hb) hlex
  refine ⟨(ns.map (pathAt root)).filter (isCandidate config excluded root), ?_, ?_,
    hordered.filter _, fun path => ?_⟩
  · simp only [collectFiles, hroot, he, hns.paths root hr]
  · exact (hordered.filter _).imp fun h heq => h.ne (congrArg String.toList heq)
  · rw [List.mem_filter, List.mem_map]
    constructor
    · rintro ⟨⟨names, hm, rfl⟩, hc⟩
      obtain ⟨⟨content, hf⟩, hskip⟩ := (hns.mem names).1 hm
      refine ⟨names, content, ?_, rfl, fun n hn => isSkipped_eq_false.1 (hskip n hn), ?_⟩
      · rw [Entry.find?_append, he, Option.bind_some, hf]
      · exact (isCandidate_pathAt hr (hproper names hm) config excluded).1 hc
    · rintro ⟨names, content, hf, rfl, hskip, hc⟩
      rw [Entry.find?_append, he, Option.bind_some] at hf
      have hm : names ∈ ns :=
        (hns.mem names).2 ⟨⟨content, hf⟩, fun n hn => isSkipped_eq_false.2 (hskip n hn)⟩
      exact ⟨⟨names, hm, rfl⟩, (isCandidate_pathAt hr (hproper names hm) config excluded).2 hc⟩

/-- A walk may start in a directory that it would pass over, and a directory comes before a file
whose name goes on from its own. -/
theorem collectFiles_ordered_here :
    let file : Entry := .file []
    let directory : Entry := .directory [("a.js", file), ("a", .directory [("x.ts", file)])]
    let w : World := ⟨.directory [("dist", directory)], "/dist", Parser.silent⟩
    w.root.WellFormed ∧ w.resolve "." = .ok ["dist"] ∧
      ∃ files, collectFiles w Config.default (· == "b.js") "." = .ok files ∧
        "./a/x.ts" ∈ files ∧ "./a.js" ∈ files ∧
        files.Pairwise fun p q => Path.Before p.toList q.toList := by
  intro file directory w
  have hfile : file.WellFormed := .file []
  have hsub : (Entry.directory [("x.ts", file)]).WellFormed :=
    .directory (by decide) (by decide) (by simpa using hfile)
  have hdirectory : directory.WellFormed :=
    .directory (by decide) (by decide) (by simpa using ⟨hfile, hsub⟩)
  have hw : w.root.WellFormed := .directory (by decide) (by decide) (by simpa using hdirectory)
  have hroot : w.resolve "." = .ok ["dist"] := by decide +kernel
  obtain ⟨files, hfiles, -, hordered, hmem⟩ :=
    collectFiles_ordered hw hroot Config.default (· == "b.js")
  refine ⟨hw, hroot, files, hfiles, ?_, ?_, hordered⟩
  · exact (hmem _).2 ⟨["a", "x.ts"], [], rfl, by decide +kernel, by decide +kernel,
      by decide +kernel, by decide +kernel, by decide +kernel, by decide +kernel⟩
  · exact (hmem _).2 ⟨["a.js"], [], rfl, by decide +kernel, by decide +kernel,
      by decide +kernel, by decide +kernel, by decide +kernel, by decide +kernel⟩

end World

end DocScope
