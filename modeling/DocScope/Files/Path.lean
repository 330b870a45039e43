import DocScope.Text.Blank

/-!
# Paths

A path is a text of components divided by slashes. Empty components and single points say nothing,
except that a path may start with one point. Paths are joined as texts; two paths are compared
component by component.
-/

namespace DocScope.Path

/-- One step of a path. -/
inductive Component where
  /-- The slash at the start of an absolute path. -/
  | root
  /-- A point at the start of a relative path. -/
  | here
  /-- Two points. -/
  | up
  /-- A name. -/
  | name (text : List Char)
deriving DecidableEq, Repr

/-- Whether a path starts at the root. -/
def isAbsolute (path : List Char) : Bool := path.head? == some '/'

/-- The component a piece between slashes stands for, if it stands for one. -/
def component? (first : Bool) (piece : List Char) : Option Component :=
  if piece = [] then none
  else if piece = ['.'] then (if first then some .here else none)
  else if piece = ['.', '.'] then some .up
  else some (.name piece)

/-- The components of a path. -/
def components (path : List Char) : List Component :=
  if isAbsolute path then .root :: (path.splitOn '/').filterMap (component? false)
  else
    match path.splitOn '/' with
    | [] => []
    | p :: ps => (component? true p).toList ++ ps.filterMap (component? false)

/-- The last component, if it is a name. -/
def fileName? (path : List Char) : Option (List Char) :=
  match (components path).getLast? with
  | some (.name n) => some n
  | _ => none

/-- What follows the last point of a file name; a point at its start does not count. -/
def extension? (path : List Char) : Option (List Char) :=
  match fileName? path with
  | none => none
  | some n =>
    let after := n.reverse.takeWhile (· != '.')
    if after.length + 1 < n.length then some after.reverse else none

/-- `path` seen from `base`: an absolute path stands for itself. -/
def join (base path : List Char) : List Char :=
  if isAbsolute path then path
  else if base = [] then path
  else if base.getLast? = some '/' then base ++ path
  else base ++ '/' :: path

/-- Drops slashes and components that say nothing from the front of the rest of a path. -/
def dropIdle : Nat → List Char → List Char
  | 0, p => p
  | fuel + 1, p =>
    match p with
    | '/' :: r => dropIdle fuel r
    | ['.'] => []
    | '.' :: '/' :: r => dropIdle fuel r
    | p => p

/-- Drops slashes and components that say nothing from the end of a path. -/
def dropIdleEnd : Nat → List Char → List Char
  | 0, p => p
  | fuel + 1, p =>
    match p.reverse with
    | '/' :: r => dropIdleEnd fuel r.reverse
    | ['.'] => []
    | '.' :: '/' :: r => dropIdleEnd fuel r.reverse
    | _ => p

/-- The rest of a path behind `n` of its components, as it is written. -/
def afterComponents : Nat → List Char → List Char
  | 0, p => p
  | n + 1, p => afterComponents n (dropIdle p.length (p.dropWhile (· != '/')))

/-- The part of `path` below `base`; `none` when `path` does not start with the components of
`base`. -/
def below? (base path : List Char) : Option (List Char) :=
  let b := components base
  if b.isPrefixOf (components path) then
    let rest :=
      match b with
      | [] => path
      | .root :: b => afterComponents b.length (dropIdle path.length path)
      | b => afterComponents b.length path
    some (if b = [] then path else dropIdleEnd rest.length rest)
  else none

/-- Whether `path` is `base` or lies below it. -/
def startsWith (base path : List Char) : Bool := (components base).isPrefixOf (components path)

/-- The directory part of a path: the path without its last component. -/
def parent? (path : List Char) : Option (List Char) :=
  match (components path).reverse with
  | [] => none
  | [.root] => none
  | _ =>
    let trimmed := dropIdleEnd path.length path
    let head := (trimmed.reverse.dropWhile (· != '/')).reverse
    let cut := dropIdleEnd head.length head
    some (if cut = [] && isAbsolute path then ['/'] else cut)

end DocScope.Path
