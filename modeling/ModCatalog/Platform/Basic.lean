import ModCatalog.Fault
import ModCatalog.Files.Tree
import ModCatalog.Identity

/-!
# Platforms

A platform lists files for a version of the game page by page, hands out their contents, and knows
the files with given contents.
-/

namespace ModCatalog

/-- A file as a platform describes it. -/
structure PlatformFile where
  link : PlatformLink
  fileName : String
  hash : String
  length : Nat
deriving DecidableEq, Repr

/-- A page of a search, and the token of the page after it. -/
structure SearchPage where
  files : List PlatformFile
  next : Option String
deriving DecidableEq, Repr

/-- How a platform answers; `σ` is what it remembers from one question to the next. -/
structure Platform (σ : Type) where
  name : String
  /-- A page of the files for a version; the first one without a token. -/
  search : FileTree → String → Option String → StateM σ (Except Fault SearchPage)
  download : FileTree → PlatformFile → StateM σ (Except Fault ByteArray)
  /-- The files with given hashes; unknown hashes are left out. -/
  filesByHash : FileTree → List String → StateM σ (Except Fault (List PlatformFile))

end ModCatalog
