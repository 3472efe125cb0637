import ModCatalog.Document.Json.Printer
import ModCatalog.Encoding.Catalog
import ModCatalog.Expansion

/-!
# Artifacts as JSON

The JSON form of artifacts with all that they bundle, of candidates, and of what they are told
apart by.
-/

namespace ModCatalog

open Document

def Fault.orJson {α : Type} (failure : Fault → Json) (encode : α → Json) : Except Fault α → Json
  | .ok value => encode value
  | .error fault => failure fault

def EnumExtension.toTextJson (extension : EnumExtension) : Json :=
  (ExtensionRow.ofExtension extension).toJson

def TagFile.sortedJson (tags : List TagFile) : Json :=
  .ofList TagFile.toJson (tags.mergeSort fun a b => !decide (b.name < a.name))

def ModIdentity.toJson (identity : ModIdentity) : Json :=
  .ofMembers [("text", .text identity.text), ("mod_id", .text identity.modId),
    ("link", .ofOption PlatformLink.toJson identity.link?), ("strong", .bool identity.isStrong)]

def Candidate.toJson (candidate : Candidate) : Json :=
  .ofMembers [("label", .text candidate.label),
    ("identity", .ofOption (fun identity => .text identity.text) candidate.identity?),
    ("link", .ofOption PlatformLink.toJson candidate.link),
    ("extra_coordinate", .ofOption .text candidate.extraCoordinate),
    ("summary", candidate.artifact.summary.toJson),
    ("nested_left", .ofNat candidate.bundled.length)]

/-- The members of the JSON form of an artifact without what it bundles. -/
def Artifact.members (artifact : Artifact) (failure : Fault → Json) : List (String × Json) :=
  [("summary", artifact.summary.toJson), ("is_mod", .bool artifact.isMod),
    ("payload_len", .ofNat artifact.payload.size),
    ("enum_extension_files", .ofList .text artifact.enumExtensionFiles),
    ("tags", Fault.orJson failure TagFile.sortedJson artifact.tags),
    ("enum_extensions", Fault.orJson failure (.ofList EnumExtension.toTextJson)
      artifact.enumExtensions)]

namespace TrackBatch

def toJson (batch : TrackBatch) : Json :=
  .ofMembers (batch.rows.members ++ [("delete_current", .bool batch.deletesCurrent),
    ("known_hash", .ofOption .text batch.knownHash),
    ("metadata", .ofOption ArtifactSummary.toJson batch.metadata),
    ("indexed_at", .ofNat batch.indexedAt)])

/-- The batch of a JSON form in which parameters are no texts but values; all members may be
absent. -/
def ofJson? (json : Json) : Option TrackBatch := do
  return { deletesCurrent := (json.boolAt "delete_current").getD false
           rows := ← Rows.ofJson?
             (fun item => (EnumExtension.ofEntry? item).map .ofExtension) json
           knownHash := json.textAt "known_hash"
           metadata := (json.get? "metadata").bind ArtifactSummary.ofJson?
           indexedAt := (json.natAt "indexed_at").getD 0 }

end TrackBatch

namespace ArtifactTree

mutual

def toJson (failure : Fault → Json) : ArtifactTree → Json
  | .node root bundled =>
      .ofMembers (("nested", .array (bundledJson failure bundled)) :: root.members failure)

def bundledJson (failure : Fault → Json) : List BundledArtifact → List Json
  | [] => []
  | (identifier, version, tree) :: rest =>
      .ofMembers [("identifier", .text identifier), ("version", .text version.text),
        ("artifact", toJson failure tree)] :: bundledJson failure rest

end

end ArtifactTree

end ModCatalog
