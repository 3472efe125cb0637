import ModCatalog.Encoding.ClassFile
import ModCatalog.Store.Change

/-!
# The catalog as JSON

The JSON form of everything that the store keeps, and its reading back.
-/

namespace ModCatalog

open Document ClassFile

namespace Document.Json

def textAt (key : String) (json : Json) : Option String := (json.get? key).bind asText?

def natAt (key : String) (json : Json) : Option Nat := (json.get? key).bind asNat?

def boolAt (key : String) (json : Json) : Option Bool := (json.get? key).bind asBool?

/-- The items under a key, each read by `decode`; an absent key stands for no items. -/
def listAt {α : Type} (decode : Json → Option α) (key : String) (json : Json) : Option (List α) :=
  match json.get? key with
  | none => some []
  | some value => value.asArray?.bind fun items => items.mapM decode

/-- The value under a key, where `null` and an absent key stand for none. -/
def optionAt {α : Type} (decode : Json → Option α) (key : String) (json : Json) :
    Option (Option α) :=
  match json.get? key with
  | none | some .null => some none
  | some value => (decode value).map some

end Document.Json

namespace PlatformLink

def toJson (link : PlatformLink) : Json :=
  .ofMembers [("platform", .text link.platform), ("project_id", .ofNat link.projectId),
    ("file_id", .ofNat link.fileId)]

def ofJson? (json : Json) : Option PlatformLink := do
  return ⟨← json.textAt "platform", ← json.natAt "project_id", ← json.natAt "file_id"⟩

end PlatformLink

namespace ModFileMetadata

def toJson (metadata : ModFileMetadata) : Json :=
  .ofMembers [("license", .ofOption .text metadata.license),
    ("issue_tracker", .ofOption .text metadata.issueTracker),
    ("mod_loader", .ofOption .text metadata.modLoader)]

def ofJson? (json : Json) : Option ModFileMetadata := do
  return { license := ← json.optionAt Json.asText? "license"
           issueTracker := ← json.optionAt Json.asText? "issue_tracker"
           modLoader := ← json.optionAt Json.asText? "mod_loader" }

end ModFileMetadata

def ArtifactKind.ofText? (word : String) : Option ArtifactKind :=
  [mod, library].find? fun kind => kind.text = word

namespace ArtifactSummary

def toJson (summary : ArtifactSummary) : Json :=
  .ofMembers [("display_name", .text summary.displayName), ("version", .text summary.version),
    ("coordinate", .ofOption .text summary.coordinate),
    ("content_hash", .text summary.contentHash), ("mod_ids", .ofList .text summary.modIds),
    ("kind", .text summary.kind.text),
    ("metadata", .ofOption ModFileMetadata.toJson summary.metadata)]

def ofJson? (json : Json) : Option ArtifactSummary := do
  return { displayName := ← json.textAt "display_name"
           version := ← json.textAt "version"
           coordinate := ← json.optionAt Json.asText? "coordinate"
           contentHash := ← json.textAt "content_hash"
           modIds := ← json.listAt Json.asText? "mod_ids"
           kind := ← (json.textAt "kind").bind ArtifactKind.ofText?
           metadata := ← json.optionAt ModFileMetadata.ofJson? "metadata" }

end ArtifactSummary

namespace ModRecord

def toJson (record : ModRecord) : Json :=
  .ofMembers [("id", .ofNat record.id), ("display_name", .text record.displayName),
    ("version", .text record.version), ("coordinate", .ofOption .text record.coordinate),
    ("mod_ids", .ofList .text record.modIds),
    ("platforms", .ofList PlatformLink.toJson record.links),
    ("hashes", .ofList .text record.hashes),
    ("metadata", .ofOption ArtifactSummary.toJson record.metadata),
    ("indexed_at", .ofOption .ofNat record.indexedAt)]

def ofJson? (json : Json) : Option ModRecord := do
  return { id := ← json.natAt "id"
           displayName := ← json.textAt "display_name"
           version := ← json.textAt "version"
           coordinate := ← json.optionAt Json.asText? "coordinate"
           modIds := ← json.listAt Json.asText? "mod_ids"
           links := ← json.listAt PlatformLink.ofJson? "platforms"
           hashes := ← json.listAt Json.asText? "hashes"
           metadata := ← json.optionAt ArtifactSummary.ofJson? "metadata"
           indexedAt := ← json.optionAt Json.asNat? "indexed_at" }

end ModRecord

namespace ReferenceRow

def toJson (row : ReferenceRow) : Json := row.reference.toJson row.count

def ofJson? (json : Json) : Option ReferenceRow := do
  let kind ← (json.textAt "kind").bind RefKind.ofText?
  return ⟨⟨← json.textAt "owner", ← json.textAt "member", kind⟩, ← json.natAt "count"⟩

end ReferenceRow

namespace ClassFile.Inheritance

def toJson (row : Inheritance) : Json :=
  .ofMembers [("class", .text row.className), ("super_class", .ofOption .text row.superClass),
    ("interfaces", .ofList .text row.interfaces), ("methods", .ofList .text row.methods)]

def ofJson? (json : Json) : Option Inheritance := do
  return { className := ← json.textAt "class"
           superClass := ← json.optionAt Json.asText? "super_class"
           interfaces := ← json.listAt Json.asText? "interfaces"
           methods := ← json.listAt Json.asText? "methods" }

end ClassFile.Inheritance

namespace MemberRow

def toJson (row : MemberRow) : Json :=
  .ofMembers [("name", .text row.name), ("descriptor", .text row.descriptor),
    ("access", .ofNat row.access), ("annotations", .ofList .text row.annots)]

def ofJson? (json : Json) : Option MemberRow := do
  return { name := ← json.textAt "name"
           descriptor := ← json.textAt "descriptor"
           access := ← json.natAt "access"
           annots := ← json.listAt Json.asText? "annotations" }

end MemberRow

namespace ClassRow

def toJson (row : ClassRow) : Json :=
  .ofMembers [("name", .text row.name), ("access", .ofNat row.access),
    ("super_class", .ofOption .text row.superClass), ("interfaces", .ofList .text row.interfaces),
    ("annotations", .ofList .text row.annots), ("fields", .ofList MemberRow.toJson row.fields),
    ("methods", .ofList MemberRow.toJson row.methods)]

def ofJson? (json : Json) : Option ClassRow := do
  return { name := ← json.textAt "name"
           access := ← json.natAt "access"
           superClass := ← json.optionAt Json.asText? "super_class"
           interfaces := ← json.listAt Json.asText? "interfaces"
           annots := ← json.listAt Json.asText? "annotations"
           fields := ← json.listAt MemberRow.ofJson? "fields"
           methods := ← json.listAt MemberRow.ofJson? "methods" }

end ClassRow

namespace TagFile

def toJson (tag : TagFile) : Json :=
  .ofMembers [("name", .text tag.name), ("replace", .bool tag.replaces),
    ("entries", .ofList .text tag.entries)]

def ofJson? (json : Json) : Option TagFile := do
  return ⟨← json.textAt "name", ← json.boolAt "replace", ← json.listAt Json.asText? "entries"⟩

end TagFile

def EnumExtension.toJson (extension : EnumExtension) : Json :=
  .ofMembers [("enum", .text extension.enumName), ("name", .text extension.name),
    ("constructor", .text extension.constructor), ("parameters", extension.parameters)]

namespace ExtensionRow

def toJson (row : ExtensionRow) : Json :=
  .ofMembers [("enum", .text row.enumName), ("name", .text row.name),
    ("constructor", .text row.constructor), ("parameters", .text row.parameters)]

def ofJson? (json : Json) : Option ExtensionRow := do
  return { enumName := ← json.textAt "enum"
           name := ← json.textAt "name"
           constructor := ← json.textAt "constructor"
           parameters := ← json.textAt "parameters" }

end ExtensionRow

namespace Rows

/-- The members of the JSON form of the rows of a mod. -/
def members (rows : Rows) : List (String × Json) :=
  [("references", .ofList ReferenceRow.toJson rows.references),
    ("inheritance", .ofList Inheritance.toJson rows.inheritance),
    ("classes", .ofList ClassRow.toJson rows.classes),
    ("tags", .ofList TagFile.toJson rows.tags),
    ("enum_extensions", .ofList ExtensionRow.toJson rows.enumExtensions)]

/-- The rows of a JSON form, with extensions as `extension?` reads them. -/
def ofJson? (extension? : Json → Option ExtensionRow) (json : Json) : Option Rows := do
  return { references := ← json.listAt ReferenceRow.ofJson? "references"
           inheritance := ← json.listAt Inheritance.ofJson? "inheritance"
           classes := ← json.listAt ClassRow.ofJson? "classes"
           tags := ← json.listAt TagFile.ofJson? "tags"
           enumExtensions := ← json.listAt extension? "enum_extensions" }

end Rows

def StoreStats.toJson (stats : StoreStats) (path : String) : Json :=
  .ofMembers [("db_path", .text path), ("mods", .ofNat stats.mods),
    ("known_hashes", .ofNat stats.knownHashes), ("platform_links", .ofNat stats.platformLinks),
    ("coordinates", .ofNat stats.coordinates), ("seen_files", .ofNat stats.seenFiles),
    ("reference_rows", .ofNat stats.referenceRows),
    ("inheritance_rows", .ofNat stats.inheritanceRows), ("class_rows", .ofNat stats.classRows),
    ("tag_rows", .ofNat stats.tagRows),
    ("enum_extension_rows", .ofNat stats.enumExtensionRows)]

end ModCatalog
