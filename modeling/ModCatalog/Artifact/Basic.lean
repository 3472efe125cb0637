import ModCatalog.Artifact.Description
import ModCatalog.Artifact.Jar
import ModCatalog.Digest.Hex
import ModCatalog.Document.Manifest

/-!
# Artifacts

A jar that holds a mod or a library, with the tree of jars that it bundles.  A broken bundled jar
is left out; it is no fault of the jar around it.
-/

namespace ModCatalog

/-- What an artifact holds. -/
inductive ArtifactKind
  | mod
  | library
deriving DecidableEq, Repr

def ArtifactKind.text : ArtifactKind → String
  | .mod => "mod"
  | .library => "library"

/-- What is stored about an artifact. -/
structure ArtifactSummary where
  displayName : String
  version : String
  coordinate : Option String
  contentHash : String
  modIds : List String
  kind : ArtifactKind
  metadata : Option ModFileMetadata
deriving DecidableEq, Repr

/-- An artifact without the jars that it bundles. -/
structure Artifact where
  displayName : String
  version : Version
  coordinate : Option String
  contentHash : String
  modIds : List String
  kind : ArtifactKind
  metadata : Option ModFileMetadata
  /-- Paths of the files that declare enum extensions. -/
  enumExtensionFiles : List String
  payload : ByteArray

/-- An artifact and the artifacts it bundles, each with its identifier and its stated version. -/
inductive ArtifactTree
  | node (root : Artifact) (bundled : List (String × Version × ArtifactTree))

/-- A bundled artifact with its identifier and its stated version. -/
abbrev BundledArtifact := String × Version × ArtifactTree

namespace ArtifactTree

/-- The artifact around all others. -/
def root : ArtifactTree → Artifact
  | .node root _ => root

def bundled : ArtifactTree → List BundledArtifact
  | .node _ bundled => bundled

end ArtifactTree

namespace Artifact

def isMod (artifact : Artifact) : Bool := !artifact.modIds.isEmpty

def summary (artifact : Artifact) : ArtifactSummary :=
  ⟨artifact.displayName, artifact.version.text, artifact.coordinate, artifact.contentHash,
    artifact.modIds, artifact.kind, artifact.metadata⟩

def tags (artifact : Artifact) : Except Fault (List TagFile) := do
  (← Archive.ofBytes artifact.payload).tags

def enumExtensions (artifact : Artifact) : Except Fault (List EnumExtension) :=
  if artifact.enumExtensionFiles.isEmpty then .ok []
  else do (← Archive.ofBytes artifact.payload).enumExtensions artifact.enumExtensionFiles

def manifestPath : String := "META-INF/MANIFEST.MF"

/-- The paths of the files that describe mods in tables, in the order in which they count. -/
def tablePaths : List String := ["META-INF/neoforge.mods.toml", "META-INF/mods.toml"]

/-- The path of the file that describes a mod in JSON. -/
def loaderPath : String := "fabric.mod.json"

def bundlePath : String := "META-INF/jarjar/metadata.json"

/-- The services whose declaration makes a jar without mods a library of a loader. -/
def libraryServices : List String := [
  "cpw.mods.modlauncher.api.ITransformationService",
  "net.neoforged.neoforgespi.locating.IModFileCandidateLocator",
  "net.neoforged.neoforgespi.locating.IModFileReader",
  "net.neoforged.neoforgespi.locating.IDependencyLocator",
  "net.neoforged.neoforgespi.earlywindow.GraphicsBootstrapper",
  "net.neoforged.neoforgespi.earlywindow.ImmediateWindowProvider",
  "net.minecraftforge.forgespi.locating.IModLocator",
  "net.minecraftforge.forgespi.locating.IDependencyLocator"]

/-- How deep bundled jars are followed. -/
def maxNesting : Nat := 8

def manifest (jar : Archive) : Except Fault Document.Manifest.Attributes := do
  match ← jar.read manifestPath with
  | none => return []
  | some content => return Document.Manifest.parse (Text.Utf8.decodeLossy content.toList)

/-- The first description in tables that lists a mod. -/
def firstTableDescription (jar : Archive) (jarVersion : String) :
    List String → Except Fault (Option ModDescription)
  | [] => .ok none
  | path :: paths => do
      match ← jar.read path with
      | none => firstTableDescription jar jarVersion paths
      | some content =>
          match ModDescription.ofToml? jarVersion content with
          | some description => return some description
          | none => firstTableDescription jar jarVersion paths

/-- The description in JSON, if it is there and valid. -/
def loaderDescription (jar : Archive) : Except Fault (Option LoaderDescription) := do
  return (← jar.read loaderPath).bind LoaderDescription.ofContent?

/-- What describes the mods of a jar: tables if they list a mod, else the description in JSON. -/
def describe (jar : Archive) (jarVersion : String) :
    Except Fault (Option ModDescription × Option LoaderDescription) := do
  match ← firstTableDescription jar jarVersion tablePaths with
  | some description => return (some description, none)
  | none =>
      let loader ← loaderDescription jar
      return (loader.map LoaderDescription.toMod, loader)

/-- Whether a jar without mods is a library of a loader. -/
def isLibrary (jar : Archive) (attributes : Document.Manifest.Attributes) : Bool :=
  (Document.Manifest.value? attributes "FMLModType").isSome ||
    libraryServices.any fun service => jar.contains ("META-INF/services/" ++ service)

/-- Remove an ending as often as it is there; `bound` is at least that often. -/
def trimEndings (ending : List Char) : Nat → List Char → List Char
  | 0, text => text
  | bound + 1, text =>
      match Text.stripEnd? ending text with
      | some rest => trimEndings ending bound rest
      | none => text

/-- The name of the class of an entry. -/
def classTitle (entry : String) : String :=
  String.ofList ((trimEndings ".class".toList entry.length entry.toList).map
    fun c => if c = '/' then '.' else c)

/-- The name of a library: its coordinate, else its title, else its first class. -/
def libraryName (jar : Archive) (attributes : Document.Manifest.Attributes)
    (coordinate : Option String) : String :=
  let firstClass := jar.names.find? fun name => ".class".toList.isSuffixOf name.toList
  let title := Document.Manifest.value? attributes "Implementation-Title"
  ((coordinate.or title).or (firstClass.map classTitle)).getD ""

/-- How a bundled jar is read, with the identifier and the version that are stated for it. -/
abbrev BundleReader := ByteArray → String → String → Except Fault (Option ArtifactTree)

/-- A bundled jar with its identifier and its stated version, unless it is left out. -/
def bundled (inner : BundleReader) (content : ByteArray) (identifier version : String) :
    Except Fault (Option BundledArtifact) := do
  let tree ← Fault.leaveOut (inner content identifier version)
  return tree.map fun tree => (identifier, ⟨version⟩, tree)

/-- The bundled jars that a list names, read by `inner`; missing and broken ones are left out. -/
def listedBundle (inner : BundleReader) (jar : Archive) : Except Fault (List BundledArtifact) := do
  let entries := ((← jar.read bundlePath).bind BundledJar.ofContent?).getD []
  let found ← entries.mapM fun entry => do
    match ← jar.read entry.path with
    | none => return none
    | some content => bundled inner content entry.identifier entry.version
  return found.filterMap id

/-- The description in JSON of a bundled jar, if it can be read. -/
def bundledDescription (content : ByteArray) : Except Fault (Option LoaderDescription) :=
  Fault.leaveOut do loaderDescription (← Archive.ofBytes content)

/-- The bundled jars of a description in JSON, each with its own such description. -/
def describedBundle (inner : BundleReader) (jar : Archive) (description : LoaderDescription) :
    Except Fault (List BundledArtifact) := do
  let found ← description.jars.mapM fun path => do
    match ← jar.read path with
    | none => return none
    | some content =>
        match ← bundledDescription content with
        | none => return none
        | some own => bundled inner content own.id own.version
  return found.filterMap id

/-- All bundled jars: the listed ones, then the described ones. -/
def bundle (inner : BundleReader) (jar : Archive)
    (description : Option LoaderDescription) : Except Fault (List BundledArtifact) := do
  let listed ← listedBundle inner jar
  match description with
  | none => return listed
  | some description => return listed ++ (← describedBundle inner jar description)

/-- An artifact by its description; none for a jar that is neither mod nor library. -/
def ofDescription? (jar : Archive) (attributes : Document.Manifest.Attributes) (jarVersion : String)
    (coordinate : Option String) (payload : ByteArray) : Option ModDescription → Option Artifact
  | some d =>
      some { displayName := d.displayName, version := d.version, coordinate := coordinate
             contentHash := ModCatalog.contentHash payload, modIds := d.modIds, kind := .mod
             metadata := some d.metadata, enumExtensionFiles := d.enumExtensionFiles
             payload := payload }
  | none =>
      if isLibrary jar attributes then
        some { displayName := libraryName jar attributes coordinate, version := ⟨jarVersion⟩
               coordinate := coordinate, contentHash := ModCatalog.contentHash payload, modIds := []
               kind := .library, metadata := none, enumExtensionFiles := [], payload := payload }
      else none

/-- An artifact and what it bundles down to `levels` levels. -/
def readLevels : Nat → ByteArray → Option String → Option String →
    Except Fault (Option ArtifactTree)
  | levels, payload, coordinate, fallback => do
      let jar ← Archive.ofBytes payload
      let attributes ← manifest jar
      let jarVersion := ((Document.Manifest.value? attributes "Implementation-Version").or
        fallback).getD Version.unknown.text
      let (description, loader) ← describe jar jarVersion
      match ofDescription? jar attributes jarVersion coordinate payload description with
      | none => return none
      | some root =>
          match levels with
          | 0 => return some (.node root [])
          | levels + 1 =>
              let inner := fun content identifier version =>
                readLevels levels content (some identifier) (some version)
              return some (.node root (← bundle inner jar loader))

/-- The artifact that bytes hold; none for a jar that is neither mod nor library. -/
def read (payload : ByteArray) (coordinate fallbackVersion : Option String) :
    Except Fault (Option ArtifactTree) :=
  readLevels maxNesting payload coordinate fallbackVersion

end Artifact

end ModCatalog
