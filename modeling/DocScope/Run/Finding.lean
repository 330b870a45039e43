import DocScope.Check.Declaration

/-!
# Findings

A finding is a violation in a file. The result of a run lists its findings by file and line.
-/

namespace DocScope

/-- A violation in a file. -/
structure Finding where
  file : String
  line : Nat
  name : String
  message : String
  note : Option ScopeNote
deriving DecidableEq, Repr

/-- The finding for a violation in a file. -/
def Finding.ofViolation (file : String) (v : Violation) : Finding :=
  ⟨file, v.line, v.displayName, v.message, v.note⟩

/-- Findings are ordered by file, then by line. -/
def Finding.le (a b : Finding) : Bool :=
  decide (a.file < b.file) || (a.file == b.file && decide (a.line ≤ b.line))

/-- The result of a run. -/
structure DetectionResult where
  mode : Selector
  findings : List Finding
  /-- The number of files that were analyzed. -/
  scanned : Nat
deriving DecidableEq, Repr

namespace DetectionResult

/-- Nothing scanned, nothing found. -/
def empty (mode : Selector) : DetectionResult := ⟨mode, [], 0⟩

/-- Whether nothing was found. -/
def isClean (r : DetectionResult) : Bool := r.findings.isEmpty

/-- The number of files with a finding. -/
def filesWithFindings (r : DetectionResult) : Nat :=
  (ascendingFiles r.findings).length
where
  /-- The files of findings, each once. -/
  ascendingFiles (fs : List Finding) : List String := (fs.map (·.file)).eraseDups

/-- The result with its findings in order; findings of one line keep their order. -/
def sorted (r : DetectionResult) : DetectionResult :=
  { r with findings := r.findings.mergeSort Finding.le }

end DetectionResult

end DocScope
