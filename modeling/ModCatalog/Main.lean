import ModCatalog.CommandLine.Program
import ModCatalog.Document.Json.Printer

/-!
# The command line

Reads the files that a command looks at, carries the command out on them, and writes what has
changed.
-/

namespace ModCatalog.CommandLine

def helpText : String :=
  "Index the bytecode of game mods: references, hierarchy and tags per mod\n\n" ++
  "Usage: mod-indexer [OPTIONS] <COMMAND>\n\n" ++
  "Commands:\n" ++
  "  index <DIR> --game-version <VER> [--platform <NAME>] [--page-size <N>] [--max-pages <N>]\n" ++
  "        [--full-cleanup]\n" ++
  "  inspect <JAR> [--raw] [--no-refs]\n" ++
  "  show <MOD_ID>\n  stats\n  schema\n  clear\n  help\n\n" ++
  "Options:\n" ++
  "  --db <FILE>\n  --cache <DIR>\n  --threads <N>\n  --download-threads <N>\n  -h, --help"

/-- The variables that a run depends on. -/
def Environment.names : List String :=
  [dbVariable, cacheVariable, threadsVariable, downloadThreadsVariable, keepVariable, "HOME",
    "XDG_DATA_HOME", "XDG_CACHE_HOME"]

def readEnvironment : IO Environment := do
  let entries ← Environment.names.filterMapM fun name => do
    return (← IO.getEnv name).map fun value => (name, value)
  return ⟨.ofList entries⟩

/-- The seconds since 1970, which a file that is written now tells. -/
def presentTime : IO Nat := do
  let (_, place) ← IO.FS.createTempFile
  let time := (← place.metadata).modified.sec.toNat
  IO.FS.removeFile place
  return time

/-- Read what is at a directory entry, and with `below` all below it. -/
partial def readEntry (entry : IO.FS.DirEntry) (path : Path) (below : Bool) (tree : FileTree) :
    IO FileTree := do
  if !(← entry.path.pathExists) then return tree
  if !(← entry.path.isDir) then
    let content ← IO.FS.readBinFile entry.path
    return { tree with nodes := tree.nodes.put path (.file content) }
  let mut tree := { tree with nodes := tree.nodes.put path .directory }
  if below then
    for inner in ← entry.path.readDir do
      tree ← readEntry inner (path ++ [inner.fileName]) true tree
  return tree

/-- Read what is at a place, and with `below` all below it. -/
def readAt (path : Path) (below : Bool) (tree : FileTree) : IO FileTree :=
  readEntry ⟨"/", "/".intercalate path⟩ path below tree

/-- Go on from a place by a name, and read what is there. -/
def readNext (state : Path × FileTree) (name : String) : IO (Path × FileTree) := do
  let (place, tree) := state
  if Path.isStay name then return state
  else if name = Path.backPart then return (place.dropLast, tree)
  else return (place ++ [name], ← readAt (place ++ [name]) false tree)

/-- Read what is on the way to a written path and there; with what is below it also the rules of the
directories around it. -/
def readPlace (tree : FileTree) (place : String × Bool) : IO FileTree := do
  let (path, tree) ← (Path.names place.1).foldlM readNext (tree.start place.1, tree)
  if !place.2 then return tree
  let tree ← readAt path true tree
  path.directories.foldlM (fun tree directory =>
    readAt (directory ++ [IgnoreScope.fileName]) false tree) tree

/-- Write every file and directory that is new or has changed, and remove every file that is
gone. -/
def writeChanges (before after : FileTree) : IO Unit := do
  for (path, node) in after.nodes.entries do
    if before.nodes.get? path ≠ some node then
      match node with
      | .directory => IO.FS.createDirAll (absoluteText path)
      | .file content =>
          IO.FS.createDirAll (absoluteText path.dropLast)
          IO.FS.writeBinFile (absoluteText path) content
  for (path, node) in before.nodes.entries do
    if node ≠ .directory && !after.contains path then
      IO.FS.removeFile (absoluteText path)

/-- Carry a command out and print its output. -/
def carryOut (invocation : Invocation) : IO Ending := do
  let started ← IO.monoMsNow
  let env ← readEnvironment
  let working := Path.names (← IO.currentDir).toString |>.filter fun name => !Path.isStay name
  let start ← (Path.ancestors working).foldlM (fun tree path => readAt path false tree)
    (.empty working)
  let before ← (invocation.places env).foldlM readPlace start
  let (ending, after) := invocation.run env (← presentTime) before
  writeChanges before after
  let elapsed := (← IO.monoMsNow) - started
  match ending.output with
  | some (.object members) =>
      let duration :=
        if invocation.command.isTimed then [("duration_ms", Document.Json.ofNat elapsed)] else []
      IO.println (Document.Json.ofMembers (members ++ duration)).indented
  | some output => IO.println output.indented
  | none => pure ()
  return ending

end ModCatalog.CommandLine

open ModCatalog.CommandLine in
/-- Carry out what the command line asks for. -/
def main (words : List String) : IO UInt32 := do
  let ending ← match Invocation.read words with
    | .ok invocation => carryOut invocation
    | .error error => do
        if error = .displayHelp then IO.println helpText
        else IO.eprintln ("error: " ++ error.text ++ "\n\n" ++ helpText)
        pure (.usage error)
  if let some line := ending.failureLine? then IO.eprintln line
  return ending.code.toUInt32
