import DocScope.Diff.ChangedFiles
import DocScope.Diff.VersionControl

/-!
# Remembered answers

A `ScopeCache` remembers the sets that were made of version control's answers during one run; what
a failed question led to is remembered as well. A `Session` is a cache together with the list of
questions that were really asked.
-/

namespace DocScope

/-- The sets that are known so far. -/
structure ScopeCache where
  changed : List (DiffScope × ChangedFiles)
  added : List ((DiffScope × String) × AddedLines)
deriving DecidableEq, Repr

namespace ScopeCache

/-- Nothing is known. -/
def empty : ScopeCache := ⟨[], []⟩

/-- The number of files whose added lines are known. -/
def cachedFiles (c : ScopeCache) : Nat := c.added.length

end ScopeCache

/-- A cache and the questions asked so far, the last one first. -/
structure Session where
  cache : ScopeCache
  asked : List Query
deriving DecidableEq, Repr

namespace Session

/-- Nothing is known and nothing was asked. -/
def fresh : Session := ⟨.empty, []⟩

/-- The number of questions asked. -/
def calls (s : Session) : Nat := s.asked.length

/-- The session after another question. -/
def ask (s : Session) (q : Query) : Session := { s with asked := q :: s.asked }

/-- The session with the files of a diff remembered. -/
def rememberChanged (s : Session) (scope : DiffScope) (set : ChangedFiles) : Session :=
  { s with cache := { s.cache with changed := (scope, set) :: s.cache.changed } }

/-- The session with the added lines of a file remembered. -/
def rememberAdded (s : Session) (scope : DiffScope) (path : String) (set : AddedLines) : Session :=
  { s with cache := { s.cache with added := ((scope, path), set) :: s.cache.added } }

end Session

end DocScope
