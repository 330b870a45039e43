import DocScope.Git.Command
import DocScope.Proofs.Diff.NormalPaths
import DocScope.Proofs.Text.Lines
import DocScope.Proofs.Text.Utf8

/-!
# Reading what the program prints

* `Git.Prints g arguments out`: the program ends in time, without an error, and has printed `out`.
* `Git.changedFiles_of_names`, `Git.changedFiles_of_prints`: names, printed one on a line, are read
  back, normal paths as they are.
* `Git.addedLines_of_prints`: the lines of a printed diff.
-/

namespace DocScope

namespace Git

theorem backend_fixed (g : Git) : g.backend.Fixed := ⟨fun _ _ _ => rfl, fun _ _ _ _ => rfl⟩

/-! ## Output -/

/-- Run with the given arguments, the program prints a text and ends in time without an error. -/
def Prints (g : Git) (arguments : List String) (out : String) : Prop :=
  ∃ milliseconds stderr, milliseconds < g.timeoutMs ∧
    g.host.run g.program g.root (options ++ arguments) =
      .exited milliseconds 0 (Text.Utf8.bytesOf out) stderr

theorem output_of_prints {g : Git} {arguments : List String} {out : String}
    (h : g.Prints arguments out) : g.output arguments = .ok out := by
  obtain ⟨ms, stderr, hms, hrun⟩ := h
  have htime : ¬ g.timeoutMs ≤ ms := by omega
  simp [output, hrun, htime, Text.Utf8.bytesOf, Text.Utf8.decodeLossy_encode]

/-- Paths, one on a line. -/
def nameLines (paths : List String) : String :=
  .ofList (paths.flatMap fun p => p.toList ++ ['\n'])

/-- What is listed, one on a line, is read back without the blanks around it. -/
theorem changedFiles_of_names {g : Git} {scope : DiffScope} {names : List String}
    (hline : ∀ n ∈ names, OneLine n.toList) (hreturn : ∀ n ∈ names, n.toList.getLast? ≠ some '\r')
    (h : g.Prints (diffArguments scope ++ ["--name-only"]) (nameLines names)) :
    g.changedFiles scope = .ok ((names.map Text.trimString).filter (· ≠ "")) := by
  have hlines : Text.lines (nameLines names).toList = names.map String.toList := by
    have htext : (nameLines names).toList =
        (names.map String.toList).flatMap (· ++ ['\n']) ++ [] := by
      simp [nameLines, List.flatMap_map]
    rw [htext, Text.lines_flatMap_append (List.forall_mem_map.2 hline)
      (List.forall_mem_map.2 hreturn)]
    exact List.append_nil _
  simp only [changedFiles, output_of_prints h, Except.map, hlines]
  rw [List.filter_map, List.map_map, List.filter_map, List.map_map, List.filter_map]
  simp [Function.comp_def, Text.trimString]

theorem changedFiles_of_prints {g : Git} {scope : DiffScope} {paths : List String}
    (hnormal : ∀ p ∈ paths, normalizePath p = p) (hline : ∀ p ∈ paths, OneLine p.toList)
    (h : g.Prints (diffArguments scope ++ ["--name-only"]) (nameLines paths)) :
    g.changedFiles scope = .ok (paths.filter (· ≠ "")) := by
  have htrim : ∀ p ∈ paths, Text.trim p.toList = p.toList :=
    fun p hp => (normalizePath_eq_self_iff.1 (hnormal p hp)).trim_eq
  have hreturn : ∀ p ∈ paths, p.toList.getLast? ≠ some '\r' := by
    -- a carriage return at the end would have been trimmed off
    intro p hp hcr
    exact absurd (Text.isBlank_getLast? (Text.trimEnd_eq_self (htrim p hp)) hcr) (by decide)
  have hid : paths.map Text.trimString = paths := by
    refine (List.map_congr_left fun p hp => ?_).trans (List.map_id paths)
    rw [Text.trimString, htrim p hp, String.ofList_toList]
    rfl
  rw [changedFiles_of_names hline hreturn h, hid]

theorem addedLines_of_prints {g : Git} {scope : DiffScope} {path text : String} {set : AddedLines}
    (h : g.Prints (diffArguments scope ++ ["-U0", "--", path]) text)
    (htext : AddedLines.ofDiff? text = some set) : g.addedLines scope path = .ok set.lines := by
  simp only [addedLines, output_of_prints h, htext]

end Git

end DocScope
