import ModCatalog.CommandLine.Reading
import ModCatalog.CommandLine.Settings
import ModCatalog.Encoding.Report
import ModCatalog.Encoding.Store
import ModCatalog.Indexing.Run
import ModCatalog.Platform.Local
import ModCatalog.Schema

/-!
# The program

What every command does to the files and what it prints.  A command that fails keeps what it has
done to the files before, as a pass that is interrupted does.
-/

namespace ModCatalog.CommandLine

open Document

/-- Why a command fails. -/
inductive Failure
  | setting (cause : SettingFailure)
  | fault (cause : Fault)
  | openStore (path : String)
  | saveStore (path : String)
  | removeFile (kind path : String)
  | noMod (id : Nat)
  | readJar (path : String)
  | readArtifact (path : String)
  | notArtifact (path : String)
  | indexClasses (path : String)
  | pass
  /-- The task itself stopped. -/
  | stopped (text : String)
deriving DecidableEq, Repr

def Failure.message : Failure → String
  | setting cause => cause.message
  | fault cause => cause.message
  | openStore path => "Failed to open database: " ++ path
  | saveStore path => "Failed to write database: " ++ path
  | removeFile kind path => "Failed to remove " ++ kind ++ " file: " ++ path
  | noMod id => "No mod with id " ++ toString id
  | readJar path => "Failed to read jar: " ++ path
  | readArtifact path => "Failed to read artifact: " ++ path
  | notArtifact path => "Not a mod or library jar: " ++ path
  | indexClasses path => "Failed to index classes: " ++ path
  | pass => "Indexing batch failed"
  | stopped text => text

/-- A step of a command among files. -/
abbrev Step (α : Type) := ExceptT Failure (StateM FileTree) α

namespace Step

variable {α : Type}

/-- Fail, or go on with a value. -/
def ofExcept {ε : Type} (failure : ε → Failure) : Except ε α → Step α
  | .ok value => pure value
  | .error cause => throw (failure cause)

/-- Fail with what a fault means here, unless the fault is that the task itself stopped. -/
def orFail (failure : Failure) : Except Fault α → Step α :=
  ofExcept fun fault =>
    match fault with
    | .panicked text => .stopped text
    | _ => failure

/-- Fail with a fault itself. -/
def ofFault : Except Fault α → Step α :=
  ofExcept fun fault =>
    match fault with
    | .panicked text => .stopped text
    | fault => .fault fault

/-- Fail where there is no value. -/
def ofOption (failure : Failure) : Option α → Step α
  | some value => pure value
  | none => throw failure

def change (failure : Failure) (operation : FileChange α) : Step α := do
  let (answer, tree) := operation.run.run (← get)
  set tree
  ofExcept (fun _ => failure) answer

def setting (value : Except SettingFailure α) : Step α := ofExcept .setting value

end Step

/-- Where the file of a store is: what its path leads to, or else a new place in the directory of
that name, which must be there. -/
def storePlace (tree : FileTree) (path : String) : Except FileFailure Path :=
  match tree.find path with
  | .error .notFound =>
      match Path.parentText? path, Path.fileName? (Path.parts path) with
      | some parent, some name => (tree.find parent).map (· ++ [name])
      | _, _ => .error .notFound
  | answer => answer

def absoluteText (place : Path) : String := Path.rootPart ++ "/".intercalate place

/-- Create a file without content unless there is one. -/
def touch (path : String) : FileChange Unit := do
  match (← get).read path with
  | .ok _ => pure ()
  | .error _ => FileChange.write path ByteArray.empty

/-- The written path of the file of a store, after making the directories that lead there. -/
def prepareStore (path : String) : FileChange String := do
  if let some parent := Path.parentText? path then FileChange.makeDirectories parent
  let place := absoluteText (← FileChange.ofExcept (storePlace (← get) path))
  touch (lockPath place)
  touch place
  return place

/-- Open the store at a path; the directories that lead to a new one are created.  Gives the written
path of its file, too. -/
def openStore (path : String) : Step (String × Store) := do
  let place ← Step.change (.openStore path) (prepareStore path)
  match (← get).read place with
  | .error _ => throw (.openStore path)
  | .ok content => return (place, ← Step.ofOption (.openStore path) (Store.ofBytes? content))

/-- Remove the file at a path, if there is anything. -/
def removeIfPresent (kind path : String) : Step Unit := do
  if (← get).isPresent path then Step.change (.removeFile kind path) (FileChange.removeFile path)

/-- Remove the store. -/
def clear (options : GlobalOptions) (env : Environment) : Step Unit := do
  let path ← Step.setting (options.storePath env)
  removeIfPresent "db" path
  removeIfPresent "db lock" (lockPath path)

/-- How much the store holds. -/
def stats (options : GlobalOptions) (env : Environment) : Step Json := do
  let path ← Step.setting (options.storePath env)
  let (_, store) ← openStore path
  return store.stats.toJson path

/-- Everything that the store holds of a mod. -/
def showMod (options : GlobalOptions) (env : Environment) (id : Nat) : Step Json := do
  let (_, store) ← openStore (← Step.setting (options.storePath env))
  let record ← Step.ofOption (.noMod id) (store.mod? id)
  let rows := store.rowsOf id
  return .ofMembers [("mod", record.toJson), ("class_count", .ofNat rows.classes.length),
    ("references", .ofList ReferenceRow.toJson rows.references),
    ("inheritance", .ofList ClassFile.Inheritance.toJson rows.inheritance),
    ("tags", .ofList TagFile.toJson rows.tags),
    ("enum_extensions",
      .ofList EnumExtension.toJson (rows.enumExtensions.map ExtensionRow.extension))]

def bundledJson (entry : BundledArtifact) : Json :=
  .ofMembers [("identifier", .text entry.1), ("version", .text entry.2.1.text),
    ("content_hash", .text entry.2.2.root.contentHash)]

def classesOf (artifact : Artifact) (sanitizer : Sanitizer) (options : ClassFile.IndexOptions) :
    Except Fault (List ClassFile.ClassRecord) := do
  let jar ← Archive.ofBytes artifact.payload
  sanitizer.sanitize (← jar.indexClasses options)

/-- The description of a jar and of its classes. -/
def inspect (path : String) (raw noRefs : Bool) : Step Json := do
  let tree ← get
  let content ← Step.ofExcept (fun _ => .readJar path) (tree.read path)
  let found ← Step.orFail (.readArtifact path) (Artifact.read content none none)
  let found ← Step.ofOption (.notArtifact path) found
  let artifact := found.root
  let sanitizer := if raw then Sanitizer.passthrough else .standard
  let options := { ClassFile.IndexOptions.standard with collectReferences := !noRefs }
  let classes ← Step.orFail (.indexClasses path) (classesOf artifact sanitizer options)
  let tags ← Step.ofFault artifact.tags
  let extensions ← Step.ofFault artifact.enumExtensions
  return .ofMembers [("jar_path", .text path), ("artifact", artifact.summary.toJson),
    ("nested", .ofList bundledJson found.bundled), ("tags", .ofNat tags.length),
    ("enum_extensions", .ofList EnumExtension.toJson extensions),
    ("rules", .ofList .text sanitizer.ruleNames), ("class_count", .ofNat classes.length),
    ("reference_count", .ofNat ((classes.map ClassFile.ClassRecord.referenceCount).foldr (· + ·) 0)),
    ("classes", .ofList ClassFile.ClassRecord.toJson classes)]

def batchSettings (options : GlobalOptions) (env : Environment) (gameVersion : String)
    (maxPages : Option Nat) (fullCleanup : Bool) : Except SettingFailure BatchSettings := do
  return { BatchSettings.ofVersion (← options.cachePath env) gameVersion with
    downloadThreads := ← options.downloadCount env
    keepsCaches := env.keepsCaches
    maxPages := maxPages.getD BatchSettings.defaultMaxPages
    cleanup := if fullCleanup then .full else .incremental }

/-- One pass over a directory at a time `now`. -/
def index (options : GlobalOptions) (env : Environment) (now : Nat) (platform : LocalPlatform)
    (gameVersion : String) (maxPages : Option Nat) (fullCleanup : Bool) : Step Json := do
  let path ← Step.setting (options.storePath env)
  let (storeFile, store) ← openStore path
  let settings ← Step.setting (batchSettings options env gameVersion maxPages fullCleanup)
  let limiter ← Step.ofFault
    (Limiter.ofCeiling (UInt64.ofNat (← Step.setting (options.threadCount env))))
  Step.ofFault settings.validate
  let indexer : Indexer :=
    { settings := settings, sanitizer := .standard, options := .standard, now := now }
  let place : Workplace ListingMemory :=
    { catalog := { Catalog.empty with store := store }, files := ← get, memory := .empty
      limiter := limiter, progress := .start }
  let (answer, place) := (indexer.run platform.toPlatform).run.run place
  set place.files
  Step.change (.saveStore path) (FileChange.write storeFile place.catalog.store.toBytes)
  let report ← Step.orFail .pass answer
  return .ofMembers (("progress", place.progress.toJson) :: report.members)

/-- Carry a command out at a time `now`; gives what is printed. -/
def Invocation.step (invocation : Invocation) (env : Environment) (now : Nat) :
    Step (Option Json) := do
  let options := invocation.options
  match invocation.command with
  | .index root gameVersion platform pageSize maxPages fullCleanup =>
      return some (← index options env now ⟨platform, root, pageSize⟩ gameVersion maxPages
        fullCleanup)
  | .inspect jarPath raw noRefs => return some (← inspect jarPath raw noRefs)
  | .showMod id => return some (← showMod options env id)
  | .stats => return some (← stats options env)
  | .schema => return some (.ofList TableInfo.toJson TableInfo.all)
  | .clear => do
      clear options env
      return none

/-- How a run ends. -/
inductive Ending
  | usage (error : UsageError)
  | failed (failure : Failure)
  | done (output : Option Json)

namespace Ending

/-- The exit code. -/
def code : Ending → Nat
  | usage error => error.exitCode
  | failed (.stopped _) => 101
  | failed _ => 1
  | done _ => 0

def output : Ending → Option Json
  | done output => output
  | _ => none

def failureLine? : Ending → Option String
  | failed failure => some ("Error: " ++ failure.message)
  | _ => none

end Ending

/-- Carry a command out among files. -/
def Invocation.run (invocation : Invocation) (env : Environment) (now : Nat) (tree : FileTree) :
    Ending × FileTree :=
  match (invocation.step env now).run.run tree with
  | (.error failure, tree) => (.failed failure, tree)
  | (.ok output, tree) => (.done output, tree)

/-- Run the program with the words of a command line. -/
def run (words : List String) (env : Environment) (now : Nat) (tree : FileTree) :
    Ending × FileTree :=
  match Invocation.read words with
  | .error error => (.usage error, tree)
  | .ok invocation => invocation.run env now tree

/-- Whether the time that a command takes is printed with its output. -/
def Command.isTimed : Command → Bool
  | .index .. | .inspect .. => true
  | _ => false

/-- The written paths of what a command looks at, each with whether it looks below that, too. -/
def Invocation.places (invocation : Invocation) (env : Environment) : List (String × Bool) :=
  let store := (invocation.options.storePath env).toOption.toList.flatMap fun path =>
    [(path, false), (lockPath path, false)]
  match invocation.command with
  | .index root .. =>
      let cache := (invocation.options.cachePath env).toOption.toList.map fun path => (path, true)
      (root, true) :: cache ++ store
  | .inspect jarPath .. => [(jarPath, false)]
  | .showMod _ | .stats | .clear => store
  | .schema => []

end ModCatalog.CommandLine
