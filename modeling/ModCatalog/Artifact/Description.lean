import ModCatalog.Document.Json.Reading
import ModCatalog.Document.Toml.Document
import ModCatalog.Text.Split
import ModCatalog.Version

/-!
# Descriptions of mods

The files in a jar that describe mods and the jars that it bundles.  A file that is not valid
describes nothing.
-/

namespace ModCatalog

open Document

/-- What the author of a mod says about its file. -/
structure ModFileMetadata where
  license : Option String
  issueTracker : Option String
  modLoader : Option String
deriving DecidableEq, Repr

/-- What a file says about the mods of a jar. -/
structure ModDescription where
  modIds : List String
  version : Version
  displayName : String
  metadata : ModFileMetadata
  /-- Paths of the files that declare enum extensions. -/
  enumExtensionFiles : List String
deriving DecidableEq, Repr

/-- A jar that another one bundles, by the path of its entry. -/
structure BundledJar where
  identifier : String
  version : String
  path : String
deriving DecidableEq, Repr

namespace ModDescription

/-- What stands in a version for the version of the jar. -/
def versionPlaceholder : String := "$\x7bfile.jarVersion\x7d"

structure ModEntry where
  modId : String
  version : Option String
  displayName : Option String
  enumExtensions : Option String
deriving DecidableEq, Repr

def ModEntry.ofTable? (members : Toml.Members) : Option ModEntry := do
  let modId ← (← Toml.find? "modId" members).asText?
  let version ← Toml.optionalText? "version" members
  let displayName ← Toml.optionalText? "displayName" members
  let enumExtensions ← Toml.optionalText? "enumExtensions" members
  return ⟨modId, version, displayName, enumExtensions⟩

/-- The mod of an item: a table, or an array with the four texts in front. -/
def ModEntry.ofItem? : Toml → Option ModEntry
  | .table _ members => ofTable? members
  | .inlineTable members => ofTable? members
  | .array (.text modId :: .text version :: .text displayName :: .text enumExtensions :: _) =>
      some ⟨modId, some version, some displayName, some enumExtensions⟩
  | _ => none

/-- The mods under the key `mods`, which may be absent. -/
def modEntries? (members : Toml.Members) : Option (List ModEntry) :=
  match Toml.find? "mods" members with
  | none => some []
  | some (.tables elements) => elements.mapM ModEntry.ofTable?
  | some (.array items) => items.mapM ModEntry.ofItem?
  | some _ => none

/-- A version in which the placeholder stands for the version of the jar. -/
def expandVersion (jarVersion version : String) : String :=
  String.ofList
    (Text.replaceAll versionPlaceholder.toList jarVersion.toList version.toList)

/-- The description in a loader's table file; none if the file is not valid or lists no mod. -/
def ofToml? (jarVersion : String) (content : ByteArray) : Option ModDescription := do
  let members ← Toml.parse? (Text.Utf8.decodeLossy content.toList)
  let mods ← modEntries? members
  let license ← Toml.optionalText? "license" members
  let issueTracker ← Toml.optionalText? "issueTrackerURL" members
  let modLoader ← Toml.optionalText? "modLoader" members
  let first ← mods.head?
  return {
    modIds := mods.map ModEntry.modId
    version := ⟨(first.version.map (expandVersion jarVersion)).getD jarVersion⟩
    displayName := first.displayName.getD first.modId
    metadata := ⟨license, issueTracker, modLoader⟩
    enumExtensionFiles := mods.filterMap ModEntry.enumExtensions }

end ModDescription

/-- The description of a mod for the loader that uses JSON, with the entries of the jars it
bundles. -/
structure LoaderDescription where
  id : String
  version : String
  name : Option String
  license : Option Json
  jars : List String
deriving Repr

namespace LoaderDescription

def jarPath? (item : WrittenJson) : Option String := do
  match ← item.fields? [⟨"file", false⟩] with
  | [some file] => file.asText?
  | _ => none

/-- The paths of the bundled jars; null is no list. -/
def jarPaths? : Option WrittenJson → Option (List String)
  | none => some []
  | some item => item.asArray?.bind fun items => items.mapM jarPath?

/-- A license, which may be absent or null. -/
def license? : Option WrittenJson → Option (Option Json)
  | none => some none
  | some .null => some none
  | some item => (item.value? (maxJsonDepth - 1)).map some

/-- The fields of a description in order. -/
def fields : List WrittenJson.Field :=
  [⟨"id", false⟩, ⟨"version", false⟩, ⟨"name", false⟩, ⟨"license", false⟩, ⟨"jars", true⟩]

/-- The description in a file, if the file is valid. -/
def ofContent? (content : ByteArray) : Option LoaderDescription := do
  let written ← WrittenJson.ofBytes? content.toList
  match ← written.fields? fields with
  | [some id, some version, name, license, jars] =>
      return ⟨← id.asText?, ← version.asText?, ← WrittenJson.asOptionalText? name,
        ← license? license, ← jarPaths? jars⟩
  | _ => none

/-- A license as one text: the texts of a list between commas; other values are no license. -/
def licenseText : Option Json → Option String
  | some (.text s) => some s
  | some (.array items) => some (", ".intercalate (items.filterMap Json.asText?))
  | _ => none

/-- What the file says about the mod. -/
def toMod (d : LoaderDescription) : ModDescription where
  modIds := [d.id]
  version := ⟨d.version⟩
  displayName := d.name.getD d.id
  metadata := ⟨licenseText d.license, none, some "fabric"⟩
  enumExtensionFiles := []

end LoaderDescription

namespace BundledJar

/-- The identifier of a bundled jar: its group and its name. -/
def identifier? (item : WrittenJson) : Option String := do
  match ← item.fields? [⟨"group", false⟩, ⟨"artifact", false⟩] with
  | [some group, some artifact] => return (← group.asText?) ++ ":" ++ (← artifact.asText?)
  | _ => none

def version? (item : WrittenJson) : Option String := do
  match ← item.fields? [⟨"artifactVersion", false⟩] with
  | [some version] => version.asText?
  | _ => none

def ofItem? (item : WrittenJson) : Option BundledJar := do
  match ← item.fields? [⟨"identifier", false⟩, ⟨"version", false⟩, ⟨"path", false⟩] with
  | [some identifier, some version, some path] =>
      return ⟨← identifier? identifier, ← version? version, ← path.asText?⟩
  | _ => none

/-- The bundled jars that a file lists, if the file is valid. -/
def ofContent? (content : ByteArray) : Option (List BundledJar) := do
  let written ← WrittenJson.ofBytes? content.toList
  match ← written.fields? [⟨"jars", true⟩] with
  | [none] => return []
  | [some jars] => (← jars.asArray?).mapM ofItem?
  | _ => none

end BundledJar

end ModCatalog
