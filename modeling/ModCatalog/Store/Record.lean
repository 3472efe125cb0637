import ModCatalog.Artifact.Basic
import ModCatalog.Document.Json.Printer
import ModCatalog.Identity

/-!
# What the store keeps

The record of a mod, the rows that describe its classes, and the batch of rows that one indexing of
an artifact writes.  Annotations are kept by their canonical text.
-/

namespace ModCatalog

/-- A mod as it is stored. -/
structure ModRecord where
  id : Nat
  displayName : String
  version : String
  coordinate : Option String
  modIds : List String
  /-- Every project that lists the mod, with the latest file. -/
  links : List PlatformLink
  /-- Every content known to belong to the mod. -/
  hashes : List String
  metadata : Option ArtifactSummary
  indexedAt : Option Nat
deriving DecidableEq, Repr

/-- A mod that is to be stored. -/
structure NewMod where
  displayName : String
  version : String
  coordinate : Option String
  modIds : List String
deriving DecidableEq, Repr

def NewMod.ofArtifact (artifact : Artifact) : NewMod :=
  ⟨artifact.displayName, artifact.version.text, artifact.coordinate, artifact.modIds⟩

/-- The record of a mod that has just been given its number. -/
def ModRecord.ofNew (id : Nat) (new : NewMod) : ModRecord :=
  ⟨id, new.displayName, new.version, new.coordinate, new.modIds, [], [], none, none⟩

/-- A project on a platform. -/
structure Listing where
  platform : String
  projectId : Nat
deriving DecidableEq, Repr

/-- A file on a platform. -/
structure FileKey where
  platform : String
  fileId : Nat
deriving DecidableEq, Repr

namespace PlatformLink

def listing (link : PlatformLink) : Listing := ⟨link.platform, link.projectId⟩

def file (link : PlatformLink) : FileKey := ⟨link.platform, link.fileId⟩

theorem sameProject_iff {a b : PlatformLink} : a.sameProject b = true ↔ a.listing = b.listing := by
  simp [sameProject, listing]

end PlatformLink

namespace ModRecord

def listings (record : ModRecord) : List Listing := record.links.map PlatformLink.listing

/-- A record with one more link, or with the file of the link if the project lists the mod
already. -/
def withLink (record : ModRecord) (link : PlatformLink) : ModRecord :=
  if record.links.any (·.sameProject link) then
    { record with
      links := record.links.map fun old =>
        if old.sameProject link then { old with fileId := link.fileId } else old }
  else { record with links := record.links ++ [link] }

/-- A record with a coordinate if it has none yet. -/
def withCoordinate (record : ModRecord) (coordinate : String) : ModRecord :=
  { record with coordinate := record.coordinate.or (some coordinate) }

theorem any_sameProject_iff {record : ModRecord} {link : PlatformLink} :
    record.links.any (·.sameProject link) = true ↔ link.listing ∈ record.listings := by
  simp [listings, PlatformLink.sameProject_iff]

@[simp] theorem withLink_id (record : ModRecord) (link : PlatformLink) :
    (record.withLink link).id = record.id := by
  unfold withLink
  split <;> rfl

@[simp] theorem withLink_hashes (record : ModRecord) (link : PlatformLink) :
    (record.withLink link).hashes = record.hashes := by
  unfold withLink
  split <;> rfl

@[simp] theorem withLink_coordinate (record : ModRecord) (link : PlatformLink) :
    (record.withLink link).coordinate = record.coordinate := by
  unfold withLink
  split <;> rfl

@[simp] theorem mem_listings_withLink {record : ModRecord} {link : PlatformLink}
    {listing : Listing} :
    listing ∈ (record.withLink link).listings ↔
      listing = link.listing ∨ listing ∈ record.listings := by
  unfold withLink
  split
  · next h =>
      have hkeep : (fun old : PlatformLink =>
          (if old.sameProject link then { old with fileId := link.fileId } else old).listing) =
          PlatformLink.listing := by
        funext old
        split <;> rfl
      have hin := any_sameProject_iff.mp h
      simp only [listings, List.map_map, Function.comp_def, hkeep] at hin ⊢
      constructor
      · exact Or.inr
      · intro h
        rcases h with rfl | hmem
        · exact hin
        · exact hmem
  · simp [listings, or_comm]

end ModRecord

/-- What a mod can be looked up by when it is about to be created. -/
inductive LookupKey
  | listing (listing : Listing)
  | coordinate (coordinate : String)
deriving DecidableEq, Repr

/-- How often a mod uses a member. -/
structure ReferenceRow where
  reference : ClassFile.Reference
  count : Nat
deriving DecidableEq, Repr

/-- A declared field or method. -/
structure MemberRow where
  name : String
  descriptor : String
  access : Nat
  annots : List String
deriving DecidableEq, Repr

/-- The row of a field or method. -/
def MemberRow.ofMember (member : ClassFile.MemberInfo) : MemberRow :=
  ⟨member.name, member.descriptor, member.access.flags.toNat,
    member.annots.map ClassFile.Annot.text⟩

/-- A class without its references. -/
structure ClassRow where
  name : String
  access : Nat
  superClass : Option String
  interfaces : List String
  annots : List String
  fields : List MemberRow
  methods : List MemberRow
deriving DecidableEq, Repr

def ClassRow.ofRecord (record : ClassFile.ClassRecord) : ClassRow where
  name := record.name
  access := record.access.flags.toNat
  superClass := record.superClass
  interfaces := record.interfaces
  annots := record.annots.map ClassFile.Annot.text
  fields := record.fields.map fun field => .ofMember field.2
  methods := record.methods.map fun method => .ofMember method.2

/-- An enum extension with its parameters as the text of a document. -/
structure ExtensionRow where
  enumName : String
  name : String
  constructor : String
  parameters : String
deriving DecidableEq, Repr

namespace ExtensionRow

def ofExtension (extension : EnumExtension) : ExtensionRow :=
  ⟨extension.enumName, extension.name, extension.constructor, extension.parameters.compact⟩

/-- The extension that a row reads as.  The numbers in its parameters are computed from their text
again, so they need not be the ones that were written. -/
def extension (row : ExtensionRow) : EnumExtension :=
  ⟨row.enumName, row.name, row.constructor,
    (Document.Json.ofBytes? row.parameters.toUTF8.toList).getD .null⟩

end ExtensionRow

/-- All rows of a mod, each table in the order in which its rows were written. -/
structure Rows where
  references : List ReferenceRow
  inheritance : List ClassFile.Inheritance
  classes : List ClassRow
  tags : List TagFile
  enumExtensions : List ExtensionRow

namespace Rows

def empty : Rows := ⟨[], [], [], [], []⟩

/-- Whether there are no rows in any table. -/
def isEmpty (rows : Rows) : Bool :=
  rows.references.isEmpty && rows.inheritance.isEmpty && rows.classes.isEmpty &&
    rows.tags.isEmpty && rows.enumExtensions.isEmpty

/-- Rows followed by others, table by table. -/
def append (rows more : Rows) : Rows :=
  ⟨rows.references ++ more.references, rows.inheritance ++ more.inheritance,
    rows.classes ++ more.classes, rows.tags ++ more.tags,
    rows.enumExtensions ++ more.enumExtensions⟩

@[simp] theorem append_empty (rows : Rows) : rows.append empty = rows := by
  simp [append, empty]

@[simp] theorem empty_append (rows : Rows) : empty.append rows = rows := by
  simp [append, empty]

theorem isEmpty_iff {rows : Rows} : rows.isEmpty = true ↔ rows = empty := by
  cases rows
  simp [isEmpty, empty, and_assoc]

/-- Rows as they read from the store. -/
def readBack (rows : Rows) : Rows :=
  { rows with
    enumExtensions := rows.enumExtensions.map fun row => .ofExtension row.extension }

end Rows

/-- What one indexing writes for a mod. -/
structure TrackBatch where
  /-- Whether the rows that the mod has are removed first. -/
  deletesCurrent : Bool
  rows : Rows
  knownHash : Option String
  metadata : Option ArtifactSummary
  indexedAt : Nat

end ModCatalog
