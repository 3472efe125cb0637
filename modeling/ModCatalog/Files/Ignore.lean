import ModCatalog.Files.Tree
import ModCatalog.Files.Wildcard
import ModCatalog.Text.Blank

/-!
# Ignored files

Files with rules on what is passed over when a directory is searched.  The rules of a directory hold
for everything below it.  The last rule that applies decides, and the nearest directory with such a
rule; a directory that is passed over hides all that is in it.
-/

namespace ModCatalog

/-- A rule on paths below its directory. -/
structure IgnoreRule where
  pattern : Pattern
  /-- Whether what the rule applies to is kept rather than passed over. -/
  keeps : Bool
  /-- Whether the rule applies to directories only. -/
  directoriesOnly : Bool
deriving DecidableEq, Repr

namespace IgnoreRule

/-- Whether a text begins with another one. -/
def startsWith (front : String) (text : List Char) : Bool := front.toList.isPrefixOf text

def endsWith (ending : String) (text : List Char) : Bool := ending.toList.isSuffixOf text

/-- A line without the blanks at its end, unless the last one is taken as it is. -/
def trimLine (line : List Char) : List Char :=
  if endsWith "\\ " line then line else Text.trimEndWhile Text.isBlank line

/-- The marks in front of a pattern: whether it keeps, whether it holds for the directory of the
rule alone, and what follows them. -/
def frontMarks (line : List Char) : Bool × Bool × List Char :=
  if startsWith "\\!" line || startsWith "\\#" line then (false, false, line.tail)
  else
    let (keeps, rest) := if startsWith "!" line then (true, line.tail) else (false, line)
    if startsWith "/" rest then (keeps, true, rest.tail) else (keeps, false, rest)

/-- The mark at the end of a pattern: whether it is for directories only, and the pattern without
it. -/
def endMark (text : List Char) : Bool × List Char :=
  match Text.stripEnd? ['/'] text with
  | some rest => (true, (Text.stripEnd? ['\\'] rest).getD rest)
  | none => (false, text)

/-- A pattern as it holds for whole paths: without a slash it holds for names in all directories,
and at its end two asterisks stand for what is inside a directory only. -/
def wholePath (anchored : Bool) (text : List Char) : List Char :=
  let isFree := !anchored && !text.contains '/' && text ≠ ['*', '*']
  let text := if isFree then "**/".toList ++ text else text
  if endsWith "/**" text then text ++ "/*".toList else text

/-- The rule on a line; none for a comment, a blank line and a pattern that cannot be read. -/
def ofLine? (line : List Char) : Option IgnoreRule := do
  if startsWith "#" line then none
  let line := trimLine line
  if line.isEmpty then none
  let (keeps, anchored, text) := frontMarks line
  let (directoriesOnly, text) := endMark text
  return ⟨← Wildcard.pattern? (wholePath anchored text), keeps, directoriesOnly⟩

def applies (rule : IgnoreRule) (path : List UInt8) (isDirectory : Bool) : Bool :=
  (isDirectory || !rule.directoriesOnly) && rule.pattern.isMatch path

/-- The lines of a content up to the first that is no text, without their line ends. -/
def lines (content : List UInt8) : List (List Char) :=
  let parts := Text.splitAll (· = 10) content
  let ended := parts.dropLast.map fun line => (Text.stripEnd? [13] line).getD line
  let last := parts.getLastD []
  ((ended ++ [last]).map Text.Utf8.decode?).takeWhile Option.isSome |>.filterMap id

/-- Remove the marks of byte order in front of a text. -/
def trimOrderMarks (text : List Char) : List Char := text.dropWhile fun c => c.toNat = 0xFEFF

def ofContent (content : List UInt8) : List IgnoreRule :=
  match lines content with
  | [] => []
  | first :: others => (trimOrderMarks first :: others).filterMap ofLine?

end IgnoreRule

/-- A directory with rules. -/
structure IgnoreScope where
  directory : Path
  rules : List IgnoreRule
deriving DecidableEq, Repr

namespace IgnoreScope

def fileName : String := ".ignore"

/-- Whether the rules of the directory keep or hide what is at a path below it; none if no rule
applies. -/
def keeps? (scope : IgnoreScope) (path : Path) (isDirectory : Bool) : Option Bool :=
  let relative := "/".intercalate (path.drop scope.directory.length)
  let found := scope.rules.reverse.find? fun rule => rule.applies relative.toUTF8.toList isDirectory
  found.map IgnoreRule.keeps

end IgnoreScope

namespace FileTree

def ignoreScopes (tree : FileTree) : List IgnoreScope :=
  tree.nodes.entries.filterMap fun entry =>
    match entry.1.getLast?, entry.2 with
    | some name, .file content =>
        if name = IgnoreScope.fileName then
          some ⟨entry.1.dropLast, IgnoreRule.ofContent content.toList⟩
        else none
    | _, _ => none

/-- Whether the nearest directory around a place that has rules on it hides it. -/
def isHidden (tree : FileTree) (scopes : List IgnoreScope) (path : Path) : Bool :=
  let verdict := path.directories.findSome? fun directory =>
    (scopes.find? fun scope => scope.directory = directory).bind fun scope =>
      scope.keeps? path (tree.isDirectory path)
  verdict = some false

/-- The places at and below a place, without what is hidden on the way from there. -/
def shownFrom (tree : FileTree) (base : Path) : List Path :=
  let scopes := tree.ignoreScopes
  (tree.pathsFrom base).filter fun path =>
    scopes.isEmpty ||
      path.ancestors.all fun step => step.length ≤ base.length || !tree.isHidden scopes step

end FileTree

end ModCatalog
