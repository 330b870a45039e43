import DocScope.Proofs.Run.Order
import DocScope.Run.Report
import DocScope.Run.Runner
import Mathlib.Algebra.Ring.Nat
import Mathlib.Data.List.Sort

/-!
# Findings by file in a report

The lines of a report are written by comparing each finding with the one before it alone. This is
enough where the findings of a file stand together, as they do after sorting.

* `ByFile files fs`: `fs` is one run of findings after the other, one for each of the ascending
  `files`. Every sorted list is such a list (`exists_byFile`).
* `findingsBlock_append`: the lines of a run, a blank line, the lines of the rest.
* `Displays`: what is seen of a line in colours. The lines of files, those of findings and blank
  lines are told apart by how they start (`showsFile`, `showsFinding`).
* `Report.grouped_sorted`: the lines of a sorted result, file by file.
-/

namespace DocScope

/-! ## Runs of findings -/

/-- The findings stand in runs, one for each of the files, which ascend. -/
inductive ByFile : List String → List Finding → Prop
  | nil : ByFile [] []
  | cons {file : String} {files : List String} {rest : List Finding} (run : List Finding)
      (hne : run ≠ []) (hrun : ∀ f ∈ run, f.file = file) (hrest : ∀ f ∈ rest, file < f.file)
      (h : ByFile files rest) : ByFile (file :: files) (run ++ rest)

theorem exists_byFile {fs : List Finding} (h : fs.Pairwise (Finding.le · ·)) :
    ∃ files, ByFile files fs := by
  induction fs with
  | nil => exact ⟨[], .nil⟩
  | cons f fs ih =>
    obtain ⟨hf, hfs⟩ := List.pairwise_cons.1 h
    obtain ⟨files, hb⟩ := ih hfs
    cases hb with
    | nil => exact ⟨[f.file], .cons [f] (by simp) (by simp) (by simp) .nil⟩
    | @cons file files rest run hne hrun hrest hb =>
      by_cases hfile : f.file = file
      · -- `f` goes in front of the first run
        refine ⟨file :: files, .cons (f :: run) (by simp) ?_ hrest hb⟩
        simpa [hfile] using hrun
      · -- `f` is a run of its own
        obtain ⟨g, hg⟩ := List.exists_mem_of_ne_nil run hne
        have hlt : f.file < file := by
          rcases Finding.le_iff.1 (hf g (by simp [hg])) with h | ⟨h, -⟩
          · rwa [hrun g hg] at h
          · exact absurd (h.trans (hrun g hg)) hfile
        refine ⟨f.file :: file :: files,
          .cons [f] (by simp) (by simp) ?_ (.cons run hne hrun hrest hb)⟩
        intro g hg
        rcases List.mem_append.1 hg with hg | hg
        · rwa [hrun g hg]
        · exact String.lt_trans hlt (hrest g hg)

namespace ByFile

variable {files : List String} {fs : List Finding}

theorem mem_files (h : ByFile files fs) {file : String} :
    file ∈ files ↔ ∃ f ∈ fs, f.file = file := by
  induction h with
  | nil => simp
  | @cons first files rest run hne hrun hrest h ih =>
    obtain ⟨g, hg⟩ := List.exists_mem_of_ne_nil run hne
    rw [List.mem_cons, ih]
    constructor
    · rintro (rfl | ⟨f, hf, hfile⟩)
      · exact ⟨g, by simp [hg], hrun g hg⟩
      · exact ⟨f, by simp [hf], hfile⟩
    · rintro ⟨f, hf, rfl⟩
      rcases List.mem_append.1 hf with hf | hf
      · exact .inl (hrun f hf)
      · exact .inr ⟨f, hf, rfl⟩

theorem lt_of_mem {first : String} {rest : List Finding} (h : ByFile files rest)
    (hrest : ∀ f ∈ rest, first < f.file) {file : String} (hfile : file ∈ files) : first < file := by
  obtain ⟨f, hf, rfl⟩ := h.mem_files.1 hfile
  exact hrest f hf

theorem pairwise_files (h : ByFile files fs) : files.Pairwise (· < ·) := by
  induction h with
  | nil => exact .nil
  | cons run hne hrun hrest h ih => exact .cons (fun file hfile => h.lt_of_mem hrest hfile) ih

/-- The files are counted the way a result does. -/
theorem length_eraseDups (h : ByFile files fs) :
    (fs.map (·.file)).eraseDups.length = files.length := by
  induction h with
  | nil => rfl
  | @cons first files rest run hne hrun hrest h ih =>
    obtain ⟨g, run, rfl⟩ := List.exists_cons_of_ne_nil hne
    obtain ⟨hg, hrun⟩ := List.forall_mem_cons.1 hrun
    have hothers : ((run ++ rest).map (·.file)).filter (fun file => !file == first) =
        rest.map (·.file) := by
      rw [List.map_append, List.filter_append, List.filter_eq_nil_iff.2, List.filter_eq_self.2,
        List.nil_append]
      · refine List.forall_mem_map.2 fun f hf => ?_
        have hne : f.file ≠ first := fun he => String.lt_irrefl first (he ▸ hrest f hf)
        simpa using hne
      · refine List.forall_mem_map.2 fun f hf => ?_
        simp [hrun f hf]
    rw [List.cons_append, List.map_cons, hg, List.eraseDups_cons, hothers, List.length_cons, ih,
      List.length_cons]

/-- What is written file by file: first of the first run, then of the rest. -/
theorem flatMap_cons {β : Type} {first : String} {run rest : List Finding}
    (hrun : ∀ f ∈ run, f.file = first) (hrest : ∀ f ∈ rest, first < f.file) (h : ByFile files rest)
    (write : String → List Finding → List β) :
    ((first :: files).flatMap fun file => write file ((run ++ rest).filter (·.file == file))) =
      write first run ++ files.flatMap fun file => write file (rest.filter (·.file == file)) := by
  have hfirst : (run ++ rest).filter (·.file == first) = run := by
    rw [List.filter_append, List.filter_eq_self.2, List.filter_eq_nil_iff.2, List.append_nil]
    · intro f hf he
      exact String.lt_irrefl first (beq_iff_eq.1 he ▸ hrest f hf)
    · intro f hf
      simp [hrun f hf]
  have hlater : ∀ file ∈ files,
      (run ++ rest).filter (·.file == file) = rest.filter (·.file == file) := by
    intro file hfile
    rw [List.filter_append, List.filter_eq_nil_iff.2, List.nil_append]
    intro f hf he
    have hlt : first < file := h.lt_of_mem hrest hfile
    rw [hrun f hf, beq_iff_eq] at he
    exact String.lt_irrefl file (he ▸ hlt)
  rw [List.flatMap_cons, hfirst]
  refine congrArg (write first run ++ ·) (List.flatMap_congr fun file hfile => ?_)
  rw [hlater file hfile]

/-- No finding is left out, none comes twice. -/
theorem flatMap_filter (h : ByFile files fs) :
    (files.flatMap fun file => fs.filter (·.file == file)) = fs := by
  induction h with
  | nil => rfl
  | cons run hne hrun hrest h ih => rw [flatMap_cons hrun hrest h fun _ run => run, ih]

end ByFile

/-! ## The lines of a report -/

namespace Report

/-- Within the findings of a file no line about the file comes in between. -/
theorem findingLines_run (color : Bool) {file : String} {run : List Finding}
    (hrun : ∀ f ∈ run, f.file = file) (rest : List Finding) :
    findingLines color (some file) (run ++ rest) =
      run.map (findingLine color) ++ findingLines color (some file) rest := by
  induction run with
  | nil => rfl
  | cons f run ih =>
    obtain ⟨hf, hrun⟩ := List.forall_mem_cons.1 hrun
    simp [findingLines, hf, ih hrun]

/-- Behind a run comes a blank line, and the rest is written as if nothing stood before it. -/
theorem findingsBlock_append (color : Bool) {file : String} {run rest : List Finding}
    (hne : run ≠ []) (hrun : ∀ f ∈ run, f.file = file) (hrest : ∀ f ∈ rest, f.file ≠ file) :
    findingsBlock color (run ++ rest) =
      fileLine color file :: run.map (findingLine color) ++ [""] ++ findingsBlock color rest := by
  obtain ⟨f, run, rfl⟩ := List.exists_cons_of_ne_nil hne
  obtain ⟨hf, hrun⟩ := List.forall_mem_cons.1 hrun
  have hlines : findingLines color none (f :: run ++ rest) =
      fileLine color file :: findingLine color f :: run.map (findingLine color) ++
        findingLines color (some file) rest := by
    simp [findingLines, hf, findingLines_run color hrun]
  have hblank : findingLines color (some file) rest ++ [""] = "" :: findingsBlock color rest := by
    cases rest with
    | nil => rfl
    | cons g rest =>
      have hg : ¬ file = g.file := fun he => hrest g List.mem_cons_self he.symm
      simp [findingsBlock, findingLines, hg]
  rw [findingsBlock, hlines]
  simp [hblank]

theorem findingsBlock_byFile (color : Bool) {files : List String} {fs : List Finding}
    (h : ByFile files fs) :
    findingsBlock color fs = files.flatMap fun file =>
      fileLine color file :: (fs.filter (·.file == file)).map (findingLine color) ++ [""] := by
  induction h with
  | nil => rfl
  | cons run hne hrun hrest h ih =>
    rw [ByFile.flatMap_cons hrun hrest h fun file run =>
      fileLine color file :: run.map (findingLine color) ++ [""], ← ih]
    refine findingsBlock_append color hne hrun fun f hf he => ?_
    exact String.lt_irrefl _ (he ▸ hrest f hf)

/-! ### What is seen of a line -/

/-- A code that sets off what follows it: numbers between the start of a code and its end. -/
def IsStyleCode (cs : List Char) : Prop :=
  ∃ ns : List Char, (∀ c ∈ ns, c.isDigit ∨ c = ';') ∧ cs = "\x1b[".toList ++ ns ++ "m".toList

/-- Of `written` a terminal shows `text`: codes are not seen. -/
inductive Displays : List Char → List Char → Prop
  | nil : Displays [] []
  | char {written text : List Char} (c : Char) (h : Displays written text) :
      Displays (c :: written) (c :: text)
  | code {cs written text : List Char} (hcode : IsStyleCode cs) (h : Displays written text) :
      Displays (cs ++ written) text

theorem Displays.refl : ∀ text : List Char, Displays text text
  | [] => .nil
  | c :: text => .char c (refl text)

theorem Displays.append {written text written' text' : List Char} (h : Displays written text)
    (h' : Displays written' text') : Displays (written ++ written') (text ++ text') := by
  induction h with
  | nil => exact h'
  | char c _ ih => exact .char c ih
  | code hcode _ ih =>
    rw [List.append_assoc]
    exact .code hcode ih

theorem isStyleCode_code (s : Style) :
    IsStyleCode ("\x1b[".toList ++ s.code.toList ++ "m".toList) := by
  refine ⟨s.code.toList, ?_, rfl⟩
  cases s <;> simp [Style.code]

theorem isStyleCode_reset : IsStyleCode "\x1b[0m".toList := ⟨['0'], by simp, by simp⟩

theorem displays_styled (color : Bool) (s : Style) (text : String) :
    Displays (styled color s text).toList text.toList := by
  cases color with
  | false => exact .refl _
  | true =>
    have hend : Displays ("\x1b[0m".toList ++ []) [] := .code isStyleCode_reset .nil
    have h := Displays.code (isStyleCode_code s) ((Displays.refl text.toList).append hend)
    simpa [styled] using h

/-- `line` is what is written of `text`: the text itself, or in colours what shows it. -/
def Writes (color : Bool) (line text : String) : Prop :=
  Displays line.toList text.toList ∧ (color = false → line = text)

/-- Whether a line starts with four blanks. -/
def isIndented (line : String) : Bool := "    ".toList.isPrefixOf line.toList

/-- The line of a file shows its name behind a cross. -/
structure ShowsFile (color : Bool) (file line : String) : Prop where
  text : Writes color line ("  ✗ " ++ file)
  outdented : isIndented line = false
  not_blank : line ≠ ""

/-- The line of a finding shows the number of the line, which is filled to four places, and the
message. -/
structure ShowsFinding (color : Bool) (f : Finding) (line : String) : Prop where
  text : Writes color line ("    " ++ .ofList (List.replicate (4 - (Nat.repr f.line).length) ' ') ++
    Nat.repr f.line ++ ": " ++ f.message)
  indented : isIndented line = true
  not_blank : line ≠ ""

theorem showsFile (color : Bool) (file : String) : ShowsFile color file (fileLine color file) where
  text := by
    refine ⟨?_, ?_⟩
    · have h := ((Displays.refl "  ".toList).append (displays_styled color .red "✗")).append
        ((Displays.refl " ".toList).append (displays_styled color .blue file))
      simpa [fileLine] using h
    · rintro rfl
      simp [fileLine, styled]
  outdented := by cases color <;> simp [isIndented, fileLine, styled, List.isPrefixOf]
  not_blank := by
    intro h
    simpa [fileLine] using congrArg String.toList h

theorem padLeft_number (n : Nat) :
    padLeft 5 (Nat.repr n ++ ":") =
      .ofList (List.replicate (4 - (Nat.repr n).length) ' ') ++ Nat.repr n ++ ":" := by
  have hcolon : ":".length = 1 := rfl
  have hlength : 5 - ((Nat.repr n).length + ":".length) = 4 - (Nat.repr n).length := by omega
  apply String.toList_injective
  simp [padLeft, hlength]

theorem showsFinding (color : Bool) (f : Finding) : ShowsFinding color f (findingLine color f) where
  text := by
    refine ⟨?_, ?_⟩
    · have h := ((Displays.refl "    ".toList).append (displays_styled color .dimmed
        (padLeft 5 (Nat.repr f.line ++ ":")))).append (Displays.refl (" " ++ f.message).toList)
      simpa [findingLine, padLeft_number] using h
    · rintro rfl
      simp [findingLine, styled, padLeft_number, String.append_assoc]
  indented := by simp [isIndented, findingLine]
  not_blank := by
    intro h
    simpa [findingLine] using congrArg String.toList h

/-- Whether a line is neither blank nor one of a finding. -/
def isOutdented (line : String) : Bool := !isIndented line && line != ""

/-- In what is written for a file, each line is counted for what it is. -/
theorem countP_group (color : Bool) (file : String) (run : List Finding) :
    let lines := fileLine color file :: run.map (findingLine color) ++ [""]
    lines.countP isOutdented = 1 ∧ lines.countP isIndented = run.length ∧
      lines.countP (· == "") = 1 := by
  intro lines
  have hfile := showsFile color file
  have hall : ∀ l ∈ run.map (findingLine color),
      isIndented l = true ∧ isOutdented l = false ∧ (l == "") = false := by
    refine List.forall_mem_map.2 fun f _ => ?_
    have hf := showsFinding color f
    simp [isOutdented, hf.indented, hf.not_blank]
  have hblank : isIndented "" = false := rfl
  have hout : (run.map (findingLine color)).countP isOutdented = 0 :=
    List.countP_eq_zero.2 fun l hl => by simp [(hall l hl).2.1]
  have hin : (run.map (findingLine color)).countP isIndented = run.length := by
    rw [List.countP_eq_length.2 fun l hl => (hall l hl).1, List.length_map]
  have hnone : (run.map (findingLine color)).countP (· == "") = 0 :=
    List.countP_eq_zero.2 fun l hl => by simp [(hall l hl).2.2]
  refine ⟨?_, ?_, ?_⟩
  · simp [lines, List.countP_append, hout, isOutdented, hfile.outdented, hfile.not_blank]
  · simp [lines, List.countP_append, hin, hfile.outdented, hblank]
  · simp [lines, List.countP_append, hnone, hfile.not_blank]

/-! ### File by file -/

/-- The line of a summary that says how many functions lack a doc comment, and in how many files. -/
def countLine (color : Bool) (count files : Nat) : String :=
  "  " ++ styled color .red ("✗ " ++ Nat.repr count ++ " function" ++ plural count ++
    " without a JSDoc comment in " ++ Nat.repr files ++ " file" ++ plural files)

/-- The report of a result goes through the given files. -/
structure Grouped (color : Bool) (r : DetectionResult) (files : List String) : Prop where
  ascending : files.Pairwise (· < ·)
  mem_files : ∀ file, file ∈ files ↔ ∃ f ∈ r.findings, f.file = file
  count_files : files.length = r.filesWithFindings
  /-- Under the line of a file stand all its findings and nothing else, then a blank line. -/
  lines : findingsBlock color r.findings = files.flatMap fun file =>
    fileLine color file :: (r.findings.filter (·.file == file)).map (findingLine color) ++ [""]
  file_lines : ∀ file ∈ files, ShowsFile color file (fileLine color file)
  finding_lines : ∀ f ∈ r.findings, ShowsFinding color f (findingLine color f)
  /-- Each line is told apart by how it starts. -/
  count_kinds : (findingsBlock color r.findings).countP isOutdented = files.length ∧
    (findingsBlock color r.findings).countP isIndented = r.findings.length ∧
    (findingsBlock color r.findings).countP (· == "") = files.length
  ascending_lines : ∀ file, (r.findings.filter (·.file == file)).Pairwise (·.line ≤ ·.line)
  count_lines : (files.map fun file => (r.findings.filter (·.file == file)).length).sum =
    r.findings.length
  summary : r.isClean = false →
    (summaryLines color r).head? = some (countLine color r.findings.length files.length)

theorem countP_findingsBlock (color : Bool) {files : List String} {fs : List Finding}
    (h : ByFile files fs) :
    (findingsBlock color fs).countP isOutdented = files.length ∧
      (findingsBlock color fs).countP isIndented = fs.length ∧
      (findingsBlock color fs).countP (· == "") = files.length := by
  have hgroup := fun file => countP_group color file (fs.filter (·.file == file))
  rw [findingsBlock_byFile color h]
  simp only [List.countP_flatMap, Function.comp_def]
  refine ⟨?_, ?_, ?_⟩
  · simp only [(hgroup _).1, List.map_const', List.sum_replicate_nat, Nat.mul_one]
  · simp only [(hgroup _).2.1, ← List.length_flatMap, h.flatMap_filter]
  · simp only [(hgroup _).2.2, List.map_const', List.sum_replicate_nat, Nat.mul_one]

theorem exists_grouped (color : Bool) {r : DetectionResult}
    (h : r.findings.Pairwise (Finding.le · ·)) : ∃ files, Grouped color r files := by
  obtain ⟨files, hb⟩ := exists_byFile h
  have hcount : files.length = r.filesWithFindings := hb.length_eraseDups.symm
  refine ⟨files, ⟨hb.pairwise_files, fun _ => hb.mem_files, hcount, findingsBlock_byFile color hb,
    fun file _ => showsFile color file, fun f _ => showsFinding color f,
    countP_findingsBlock color hb, fun file => ?_, ?_, fun hclean => ?_⟩⟩
  · refine (h.filter _).imp_of_mem fun {a b} ha hb hab => ?_
    have hfile : a.file = b.file := by
      rw [beq_iff_eq.1 (List.mem_filter.1 ha).2, beq_iff_eq.1 (List.mem_filter.1 hb).2]
    rcases Finding.le_iff.1 hab with hlt | ⟨-, hle⟩
    · exact absurd (hfile ▸ hlt) (String.lt_irrefl _)
    · exact hle
  · rw [← List.length_flatMap, hb.flatMap_filter]
  · simp [summaryLines, hclean, hcount, countLine]

/-- **The report of a sorted result goes file by file.** Sorting keeps the findings and the order of
those with one file and line, and the result of a run is sorted. -/
theorem grouped_sorted (color : Bool) (r : DetectionResult) :
    (∃ files, Grouped color r.sorted files) ∧ r.sorted.findings.Perm r.findings ∧
      (∀ file line,
        r.sorted.findings.filter (fun f => f.file == file && f.line == line) =
          r.findings.filter (fun f => f.file == file && f.line == line)) ∧
      ∀ runner files session, (Runner.run runner files session).1 = r → r.sorted = r := by
  have hsorted := List.pairwise_mergeSort Finding.le_trans Finding.le_total r.findings
  refine ⟨exists_grouped color hsorted, List.mergeSort_perm _ _, ?_, ?_⟩
  · intro file line
    rw [DetectionResult.sorted, filter_mergeSort Finding.le_trans Finding.le_total]
    -- what is left is tied, so there is nothing to sort
    refine List.mergeSort_of_pairwise (List.pairwise_of_forall_mem_list fun a ha b hb => ?_)
    simp only [List.mem_filter, Bool.and_eq_true, beq_iff_eq] at ha hb
    exact Finding.le_iff.2 (.inr ⟨ha.2.1.trans hb.2.1.symm, by omega⟩)
  · rintro runner files session rfl
    have hrun := List.pairwise_mergeSort Finding.le_trans Finding.le_total
      (runner.resolver.checkFiles files session).1
    simp only [Runner.run, DetectionResult.sorted, List.mergeSort_of_pairwise hrun]

/-- Two files, found in the order against that of their names and of their lines. -/
theorem grouped_sorted_two_files :
    let finding (file : String) (line : Nat) (name : String) : Finding :=
      .ofViolation file ⟨some name, line, none⟩
    let r : DetectionResult :=
      ⟨.full, [finding "b.ts" 30 "h", finding "a.ts" 1200 "f", finding "b.ts" 4 "g"], 2⟩
    ∃ files, Grouped false r.sorted files ∧ files = ["a.ts", "b.ts"] ∧
      findingsBlock false r.sorted.findings =
        ["  ✗ a.ts", "    1200: Function \"f\" must have a JSDoc comment", "",
          "  ✗ b.ts", "       4: Function \"g\" must have a JSDoc comment",
          "      30: Function \"h\" must have a JSDoc comment", ""] := by
  intro finding r
  obtain ⟨⟨files, hgrouped⟩, hperm, -, -⟩ := grouped_sorted false r
  let found := [finding "a.ts" 1200 "f", finding "b.ts" 4 "g", finding "b.ts" 30 "h"]
  have htotal : ∀ f ∈ r.findings, ∀ g ∈ found, f.le g → g.le f → f = g := by decide +kernel
  have hsorted : r.sorted.findings = found :=
    List.Perm.eq_of_pairwise
      (fun f g hf hg => htotal f (hperm.mem_iff.1 hf) g hg)
      (List.pairwise_mergeSort Finding.le_trans Finding.le_total r.findings)
      (by decide +kernel) (hperm.trans (by decide +kernel))
  have hfiles : files = ["a.ts", "b.ts"] := by
    refine hgrouped.ascending.eq_of_mem_iff (by decide +kernel) fun file => ?_
    rw [hgrouped.mem_files, hsorted]
    simp [found, finding, Finding.ofViolation, eq_comm]
  refine ⟨files, hgrouped, hfiles, ?_⟩
  rw [hgrouped.lines, hfiles, hsorted]
  decide +kernel

end Report

end DocScope
