import ModCatalog.Digest.Hex
import ModCatalog.Files.Ignore
import ModCatalog.Platform.Basic
import ModCatalog.Text.Numeral

/-!
# Directories as platforms

A platform whose files lie in a directory as `<project>/<file>.jar`, with or without a directory
for each version of the game around them.  What is hidden by rules on ignored files is not listed.
What is listed is remembered: later changes of the directory show in contents but not in listings.
-/

namespace ModCatalog

/-- A jar with the numbers that its path gives it. -/
structure ListedJar where
  projectId : Nat
  fileId : Nat
  /-- The parts of its written path. -/
  path : List String
deriving DecidableEq, Repr

namespace ListedJar

/-- The number that a name writes. -/
def number? (name : String) : Option Nat := Text.readNumber? Text.maxWord64 name.toList

/-- Whether a name ends as those of jars do. -/
def isJarName (name : String) : Bool := (Path.splitEnding name).any fun parts => parts.2 = "jar"

/-- The jar with a path, if its directory and its name are numbers. -/
def ofPath? (path : List String) : Option ListedJar := do
  let (stem, _) ← Path.splitEnding (← Path.fileName? path)
  let fileId ← number? stem
  let projectId ← number? (← Path.fileName? path.dropLast)
  return ⟨projectId, fileId, path⟩

def sameNumbers (a b : ListedJar) : Bool := a.projectId = b.projectId && a.fileId = b.fileId

/-- The order of listings: by project, then by file, then by path. -/
def isBefore (a b : ListedJar) : Bool :=
  a.projectId < b.projectId ||
    (a.projectId = b.projectId &&
      (a.fileId < b.fileId || (a.fileId = b.fileId && !decide (b.path < a.path))))

/-- Keep the first of neighbours with the same numbers. -/
def dropRepeated : List ListedJar → List ListedJar
  | [] => []
  | [jar] => [jar]
  | jar :: next :: rest =>
      if jar.sameNumbers next then dropRepeated (jar :: rest)
      else jar :: dropRepeated (next :: rest)

end ListedJar

/-- The paths of all jars that a search of a written path finds, by their parts. -/
def FileTree.jars (tree : FileTree) (base : String) : List (List String) :=
  match tree.find base with
  | .error _ => []
  | .ok place =>
      let paths := (tree.shownFrom place).map fun path => Path.parts base ++ path.drop place.length
      paths.filter fun path => (Path.fileName? path).any ListedJar.isJarName

/-- The jars that a search of a written path finds in the order of listings; of several with the
same numbers one. -/
def FileTree.listedJars (tree : FileTree) (base : String) : List ListedJar :=
  let found := (tree.jars base).filterMap ListedJar.ofPath?
  ListedJar.dropRepeated (found.mergeSort ListedJar.isBefore)

/-- What a directory remembers of earlier questions. -/
structure ListingMemory where
  /-- By the parts of the path that was searched. -/
  listings : Table (List String) (List ListedJar)
  byHash : Option (Table String PlatformFile)

/-- Before any question. -/
def ListingMemory.empty : ListingMemory := ⟨.empty, none⟩

/-- A directory that acts as a platform. -/
structure LocalPlatform where
  name : String
  /-- The directory as it is written. -/
  root : String
  /-- The length of a page; zero counts as one. -/
  pageSize : Nat
deriving DecidableEq, Repr

namespace LocalPlatform

/-- The length of a page where none is chosen. -/
def defaultPageSize : Nat := 50

/-- The directory that is searched for a version: its own, or else the whole root. -/
def versionDirectory (platform : LocalPlatform) (tree : FileTree) (version : String) : String :=
  let own := Path.joinText platform.root version
  if !version.isEmpty && tree.leadsToDirectory own then own else platform.root

/-- The listing of a directory as it was when it was first asked for. -/
def listing (tree : FileTree) (base : String) : StateM ListingMemory (List ListedJar) := do
  match (← get).listings.get? (Path.parts base) with
  | some listing => return listing
  | none =>
      let listing := tree.listedJars base
      modify fun memory =>
        { memory with listings := memory.listings.put (Path.parts base) listing }
      return listing

def content (tree : FileTree) (jar : ListedJar) : Except FileFailure ByteArray :=
  tree.read (Path.ofParts jar.path)

def describe (platform : LocalPlatform) (tree : FileTree) (jar : ListedJar) :
    Except Fault PlatformFile :=
  match content tree jar with
  | .error _ => .error .io
  | .ok content =>
      .ok { link := ⟨platform.name, jar.projectId, jar.fileId⟩
            fileName := (Path.fileName? jar.path).getD ""
            hash := contentHash content
            length := content.size }

/-- The number that a page token writes; the first page needs none. -/
def offset (token : Option String) : Except Fault Nat :=
  match token with
  | none => .ok 0
  | some token =>
      match ListedJar.number? token with
      | some offset => .ok offset
      | none => .error (.platform (.pageToken token))

def page (platform : LocalPlatform) (tree : FileTree) (listing : List ListedJar) (offset : Nat) :
    Except Fault SearchPage := do
  if Text.maxWord64 < offset + max 1 platform.pageSize then throw .sumTooGreat
  let stop := min (offset + max 1 platform.pageSize) listing.length
  let files ← ((listing.take stop).drop offset).mapM (platform.describe tree)
  return ⟨files, if stop < listing.length then some (toString stop) else none⟩

def search (platform : LocalPlatform) (tree : FileTree) (version : String) (token : Option String) :
    StateM ListingMemory (Except Fault SearchPage) := do
  let base := platform.versionDirectory tree version
  if !tree.leadsToDirectory base then
    return .error (.platform (.directoryMissing platform.root))
  match offset token with
  | .error fault => return .error fault
  | .ok offset => return platform.page tree (← listing tree base) offset

/-- The listed jar with two numbers, anywhere below the root. -/
def find (platform : LocalPlatform) (tree : FileTree) (projectId fileId : Nat) :
    StateM ListingMemory (Option ListedJar) := do
  let listing ← listing tree platform.root
  return listing.find? fun jar => jar.projectId = projectId && jar.fileId = fileId

/-- The description of the file with two numbers. -/
def file (platform : LocalPlatform) (tree : FileTree) (projectId fileId : Nat) :
    StateM ListingMemory (Except Fault (Option PlatformFile)) := do
  match ← platform.find tree projectId fileId with
  | none => return .ok none
  | some jar => return (platform.describe tree jar).map some

def download (platform : LocalPlatform) (tree : FileTree) (file : PlatformFile) :
    StateM ListingMemory (Except Fault ByteArray) := do
  match ← platform.find tree file.link.projectId file.link.fileId with
  | none => return .error (.download file.link.text "file no longer listed")
  | some jar =>
      match content tree jar with
      | .ok content => return .ok content
      | .error failure => return .error (.download file.link.text failure.message)

/-- All files by their contents, as they were when this was first asked for. -/
def hashIndex (platform : LocalPlatform) (tree : FileTree) :
    StateM ListingMemory (Except Fault (Table String PlatformFile)) := do
  match (← get).byHash with
  | some index => return .ok index
  | none =>
      let listing ← listing tree platform.root
      match listing.mapM (platform.describe tree) with
      | .error fault => return .error fault
      | .ok files =>
          let index := files.foldl (fun index file => index.putNew file.hash file) Table.empty
          modify fun memory => { memory with byHash := some index }
          return .ok index

/-- The files with given contents. -/
def filesByHash (platform : LocalPlatform) (tree : FileTree) (hashes : List String) :
    StateM ListingMemory (Except Fault (List PlatformFile)) := do
  if hashes.isEmpty then return .ok []
  match ← platform.hashIndex tree with
  | .error fault => return .error fault
  | .ok index => return .ok (hashes.filterMap index.get?)

def toPlatform (platform : LocalPlatform) : Platform ListingMemory where
  name := platform.name
  search := platform.search
  download := platform.download
  filesByHash := platform.filesByHash

end LocalPlatform

end ModCatalog
