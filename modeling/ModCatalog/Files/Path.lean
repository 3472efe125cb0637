import ModCatalog.Text.Split

/-!
# Paths

Places among files, by the names that lead to them from the root of all directories, and paths as
they are written, which may lead through directories and back.
-/

namespace ModCatalog

/-- A place among files: the names from the root on. -/
abbrev Path := List String

namespace Path

/-- All ways to a place from the root on, the place itself last. -/
def ancestors (path : Path) : List Path := (List.range path.length).map fun n => path.take (n + 1)

/-- The directories around a place, the nearest first. -/
def directories (path : Path) : List Path :=
  ((List.range path.length).map fun n => path.take n).reverse

/-- The part of a name before its last dot and the part after it; a dot in front begins no
ending. -/
def splitEnding (name : String) : Option (String × String) :=
  let ending := Text.afterLast (· = '.') name.toList
  let stem := name.toList.take (name.length - ending.length - 1)
  if ending.length = name.length ∨ stem = [] then none
  else some (String.ofList stem, String.ofList ending)

/-! ## Written paths -/

def isAbsolute (text : String) : Bool := text.toList.head? = some '/'

/-- A written path that follows another one; an absolute one stands alone. -/
def joinText (base rest : String) : String :=
  if isAbsolute rest then rest
  else if base.isEmpty || base.toList.getLast? = some '/' then base ++ rest
  else base ++ "/" ++ rest

/-- What stands between the slashes of a written path. -/
def names (text : String) : List String :=
  (Text.splitAll (· = '/') text.toList).map String.ofList

/-- The name of the root among the parts of a written path. -/
def rootPart : String := "/"

/-- The name that leads back. -/
def backPart : String := ".."

def isStay (name : String) : Bool := name = "" || name = "."

/-- The names of a written path that lead anywhere, after the root if the path is absolute.  Two
paths of the same parts are written differently at most in slashes and single dots. -/
def parts (text : String) : List String :=
  let rest := (names text).filter fun name => !isStay name
  if isAbsolute text then rootPart :: rest else rest

/-- A written path of some parts. -/
def ofParts (parts : List String) : String := parts.foldl joinText ""

/-- The name of the file that some parts lead to; none if they lead to the root or back. -/
def fileName? (parts : List String) : Option String :=
  parts.getLast?.filter fun name => name ≠ rootPart && name ≠ backPart

/-- Remove the slashes and single dots at the end of a written path that stands last character
first. -/
def trimReversed : List Char → List Char
  | '/' :: rest => if rest.isEmpty then ['/'] else trimReversed rest
  | '.' :: '/' :: rest => trimReversed ('/' :: rest)
  | text => text

/-- The written path before the last part of another one; none before the root or nothing. -/
def parentText? (text : String) : Option String :=
  match trimReversed text.toList.reverse with
  | [] | ['/'] => none
  | trimmed => some (String.ofList (trimReversed (trimmed.dropWhile (· ≠ '/'))).reverse)

end Path

end ModCatalog
