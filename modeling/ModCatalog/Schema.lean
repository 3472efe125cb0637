import ModCatalog.Document.Json.Value

/-!
# The tables of a catalog

A description of everything that a catalog keeps, table by table, for those who look at it with
other tools.  Nothing in the catalog depends on it.
-/

namespace ModCatalog

open Document

/-- What a column says. -/
inductive ColumnSense
  | identifier
  | foreignKey
  | name
  | version
  | count
  | flags
  | timestamp
  | json
deriving DecidableEq, Repr

def ColumnSense.text : ColumnSense → String
  | identifier => "identifier"
  | foreignKey => "foreignkey"
  | name => "name"
  | version => "version"
  | count => "count"
  | flags => "flags"
  | timestamp => "timestamp"
  | json => "json"

structure ColumnInfo where
  name : String
  sense : ColumnSense
  description : String
deriving DecidableEq, Repr

/-- A table with what its rows are found by. -/
structure TableInfo where
  name : String
  key : String
  description : String
  columns : List ColumnInfo
deriving DecidableEq, Repr

namespace TableInfo

/-- The column that says which mod something belongs to. -/
def owner (description : String) : ColumnInfo := ⟨"mod_id", .foreignKey, description⟩

def mods : TableInfo where
  name := "mods"
  key := "zero-padded mod id"
  description := "One row per persisted mod identity"
  columns := [
    ⟨"id", .identifier, "mod id"⟩,
    ⟨"display_name", .name, "human readable name"⟩,
    ⟨"version", .version, "version of the last indexed content"⟩,
    ⟨"coordinate", .name, "group:artifact, for bundled libraries"⟩,
    ⟨"mod_ids", .json, "declared mod ids"⟩,
    ⟨"platforms", .json, "platform name -> project and file id"⟩,
    ⟨"hashes", .json, "SHA-256 content hashes known to belong to this mod"⟩,
    ⟨"metadata", .json, "artifact summary of the last indexed content"⟩,
    ⟨"indexed_at", .timestamp, "unix seconds of the last commit"⟩]

def hashes : TableInfo where
  name := "mod_hashes"
  key := "SHA-256 content hash"
  description := "Content hash lookup"
  columns := [owner "owning mod"]

def listings : TableInfo where
  name := "mod_platforms"
  key := "<platform>/<project id>"
  description := "Marketplace listing lookup"
  columns := [owner "owning mod"]

def coordinates : TableInfo where
  name := "mod_coordinates"
  key := "group:artifact"
  description := "Bundled dependency coordinate lookup"
  columns := [owner "owning mod"]

def seenFiles : TableInfo where
  name := "known_files"
  key := "<platform>/<file id>"
  description := "Platform files already processed"
  columns := [owner "mod the file resolved to"]

def filesOfMods : TableInfo where
  name := "mod_files"
  key := "<mod id>/<platform>/<file id>"
  description := "Seen platform files grouped by owning mod"
  columns := [⟨"file", .identifier, "the key; values are empty"⟩]

def rowKey : String := "<mod id>/<sequence>"

def references : TableInfo where
  name := "mod_references"
  key := rowKey
  description := "Aggregated usage edges from method bodies and annotations"
  columns := [
    ⟨"owner", .name, "internal name of the referenced type"⟩,
    ⟨"member", .name, "field name, method name+descriptor, annotation usage, or type"⟩,
    ⟨"kind", .name, "class, field, method, annotation or parameter"⟩,
    ⟨"count", .count, "occurrences across the artifact"⟩]

def inheritance : TableInfo where
  name := "mod_inheritance"
  key := rowKey
  description := "One hierarchy row per class"
  columns := [
    ⟨"class", .name, "internal class name"⟩,
    ⟨"super_class", .name, "superclass, absent for the universal root"⟩,
    ⟨"interfaces", .json, "declared interfaces"⟩,
    ⟨"methods", .json, "declared method signatures"⟩]

def classes : TableInfo where
  name := "mod_classes"
  key := rowKey
  description := "Sanitized class shapes"
  columns := [
    ⟨"name", .name, "internal class name"⟩,
    ⟨"access", .flags, "JVM access flags"⟩,
    ⟨"super_class", .name, "superclass"⟩,
    ⟨"interfaces", .json, "declared interfaces"⟩,
    ⟨"annotations", .json, "canonical annotation strings"⟩,
    ⟨"fields", .json, "name, descriptor, access, annotations"⟩,
    ⟨"methods", .json, "name, descriptor, access, annotations"⟩]

def tags : TableInfo where
  name := "mod_tags"
  key := rowKey
  description := "Data-pack tag files shipped by the mod"
  columns := [
    ⟨"name", .name, "namespace/path of the tag"⟩,
    ⟨"replace", .flags, "whether the tag replaces earlier definitions"⟩,
    ⟨"entries", .json, "qualified entries"⟩]

def enumExtensions : TableInfo where
  name := "mod_enum_extensions"
  key := rowKey
  description := "Constants the mod adds to game enums at load time"
  columns := [
    ⟨"enum", .name, "internal name of the extended enum"⟩,
    ⟨"name", .name, "name of the added constant"⟩,
    ⟨"constructor", .name, "descriptor of the constructor used"⟩,
    ⟨"parameters", .json, "constructor arguments as declared"⟩]

def counters : TableInfo where
  name := "meta"
  key := "setting name"
  description := "Internal counters"
  columns := [⟨"value", .count, "next_mod_id"⟩]

def all : List TableInfo :=
  [mods, hashes, listings, coordinates, seenFiles, filesOfMods, references, inheritance, classes,
    tags, enumExtensions, counters]

theorem nodup_names : (all.map TableInfo.name).Nodup := by decide

theorem columns_ne_nil : ∀ table ∈ all, table.columns ≠ [] := by decide

end TableInfo

def ColumnInfo.toJson (column : ColumnInfo) : Json :=
  .ofMembers [("name", .text column.name), ("semantic", .text column.sense.text),
    ("description", .text column.description)]

def TableInfo.toJson (table : TableInfo) : Json :=
  .ofMembers [("name", .text table.name), ("key", .text table.key),
    ("description", .text table.description),
    ("columns", .ofList ColumnInfo.toJson table.columns)]

end ModCatalog
