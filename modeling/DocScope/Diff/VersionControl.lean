import DocScope.Check.Selector
import DocScope.Diff.Hunk
import DocScope.Diff.PathText
import DocScope.Files.Tree

/-!
# Version control

Two questions are asked about a repository: which files differ in a diff, and which lines the diff
adds to a file. A backend may answer the same question differently each time, so it is told how
many questions were asked before. `RecordedDiff` is a backend that answers from memory.
-/

namespace DocScope

/-- Why a question has no answer. -/
inductive VcsError where
  | spawn (program : String) (cause : FileError)
  | failed (command : String) (code : Nat) (stderr : String)
  | timeout (command : String) (milliseconds : Nat)
  | notARepository (root : String)
  /-- The diff has a hunk whose range is too large. -/
  | rangeTooLarge
deriving DecidableEq, Repr

namespace VcsError

/-- A duration: seconds with at most three places, or milliseconds below one second. -/
def duration (milliseconds : Nat) : String :=
  if milliseconds = 0 then "0ns"
  else if milliseconds < 1000 then Nat.repr milliseconds ++ "ms"
  else
    let rest := milliseconds % 1000
    let digits := ['0', '0', '0'] ++ (Nat.repr rest).toList
    let places := Text.dropEnd (· == '0') (digits.drop (digits.length - 3))
    Nat.repr (milliseconds / 1000) ++
      (if rest = 0 then "" else "." ++ .ofList places) ++ "s"

/-- The text of an error. -/
def message : VcsError → String
  | .spawn program cause => "failed to start " ++ program ++ ": " ++ cause.message
  | .failed command code stderr =>
    command ++ " exited with exit status: " ++ Nat.repr code ++ ": " ++ stderr
  | .timeout command ms => command ++ " timed out after " ++ duration ms
  | .notARepository root => "not a git repository: " ++ root
  | .rangeTooLarge => "hunk range too large"

end VcsError

/-- A question to version control. -/
inductive Query where
  | changedFiles (scope : DiffScope)
  | addedLines (scope : DiffScope) (path : String)
deriving DecidableEq, Repr

/-- A backend: its answers to a question that comes after `earlier` others. -/
structure VersionControl where
  changedFiles : (earlier : Nat) → DiffScope → Except VcsError (List String)
  addedLines : (earlier : Nat) → DiffScope → String → Except VcsError (List Nat)

/-- A backend has fixed answers when they do not depend on the questions before. -/
def VersionControl.Fixed (v : VersionControl) : Prop :=
  (∀ m n scope, v.changedFiles m scope = v.changedFiles n scope) ∧
    ∀ m n scope path, v.addedLines m scope path = v.addedLines n scope path

/-- A backend that fails on the questions picked by `fails`, with the given error. -/
def VersionControl.failing (v : VersionControl) (fails : Nat → Bool) (e : VcsError) :
    VersionControl where
  changedFiles n scope := if fails n then .error e else v.changedFiles n scope
  addedLines n scope path := if fails n then .error e else v.addedLines n scope path

/-! ## Diffs held in memory -/

/-- A changed file and lines that were added to it. -/
structure DiffRecord where
  scope : DiffScope
  /-- A normalized path. -/
  path : String
  lines : List Nat
deriving DecidableEq, Repr

/-- A diff held in memory, in the order in which it was recorded. -/
structure RecordedDiff where
  records : List DiffRecord
deriving DecidableEq, Repr

namespace RecordedDiff

/-- Nothing recorded. -/
def empty : RecordedDiff := ⟨[]⟩

/-- Records a changed file and the lines it adds. -/
def withFile (d : RecordedDiff) (scope : DiffScope) (path : String) (lines : List Nat) :
    RecordedDiff :=
  ⟨d.records ++ [⟨scope, normalizePath path, lines⟩]⟩

/-- Records a changed file with the text of its diff; `none` when the range of a hunk is too
large. -/
def withDiff? (d : RecordedDiff) (scope : DiffScope) (path diff : String) : Option RecordedDiff :=
  (AddedLines.ofDiff? diff).map fun s => d.withFile scope path s.lines

/-- The recorded files of a diff, as often as they were recorded. -/
def changedFiles (d : RecordedDiff) (scope : DiffScope) : List String :=
  (d.records.filter (·.scope = scope)).map (·.path)

/-- The recorded lines of a file, as often as they were recorded. -/
def addedLines (d : RecordedDiff) (scope : DiffScope) (path : String) : List Nat :=
  (d.records.filter fun r => r.scope = scope && r.path = normalizePath path).flatMap (·.lines)

/-- The backend that answers from a recorded diff. -/
def backend (d : RecordedDiff) : VersionControl where
  changedFiles _ scope := .ok (d.changedFiles scope)
  addedLines _ scope path := .ok (d.addedLines scope path)

end RecordedDiff

end DocScope
