import ModCatalog.Encoding.Artifact

/-!
# The store as a document

A whole store as one JSON text behind a mark, and its reading back.
-/

namespace ModCatalog

open Document

namespace StoreDocument

def indexJson {κ : Type} (keyMembers : κ → List (String × Json)) (index : Table κ Nat) : Json :=
  .ofList (fun entry : κ × Nat => .ofMembers (keyMembers entry.1 ++ [("mod_id", .ofNat entry.2)]))
    index.entries

def indexOf? {κ : Type} [DecidableEq κ] (key : Json → Option κ) (json : Json) :
    Option (Table κ Nat) := do
  let entries ← (← json.asArray?).mapM fun entry => do
    return (← key entry, ← entry.natAt "mod_id")
  return Table.ofList entries

def rowsJson (entry : Nat × Rows) : Json :=
  .ofMembers (("mod_id", .ofNat entry.1) :: entry.2.members)

/-- The rows of a JSON form with the number of their mod. -/
def rowsOf? (json : Json) : Option (Nat × Rows) := do
  return (← json.natAt "mod_id", ← Rows.ofJson? ExtensionRow.ofJson? json)

def textKey (key : String) : List (String × Json) := [("key", .text key)]

def listingKey (listing : Listing) : List (String × Json) :=
  [("platform", .text listing.platform), ("project_id", .ofNat listing.projectId)]

def fileKey (file : FileKey) : List (String × Json) :=
  [("platform", .text file.platform), ("file_id", .ofNat file.fileId)]

end StoreDocument

namespace Store

open StoreDocument

def toJson (store : Store) : Json :=
  .ofMembers [("next_mod_id", .ofNat store.nextId),
    ("mods", .ofList ModRecord.toJson store.mods.values),
    ("hashes", indexJson textKey store.hashes),
    ("listings", indexJson listingKey store.listings),
    ("coordinates", indexJson textKey store.coordinates),
    ("files", indexJson fileKey store.seenFiles),
    ("rows", .ofList rowsJson store.rows.entries)]

def ofJson? (json : Json) : Option Store := do
  let records ← json.listAt ModRecord.ofJson? "mods"
  let textOf := fun entry : Json => entry.textAt "key"
  let listingOf := fun entry : Json => do
    return Listing.mk (← entry.textAt "platform") (← entry.natAt "project_id")
  let fileOf := fun entry : Json => do
    return FileKey.mk (← entry.textAt "platform") (← entry.natAt "file_id")
  return { nextId := ← json.natAt "next_mod_id"
           mods := .ofList (records.map fun record => (record.id, record))
           hashes := ← (json.get? "hashes").bind (indexOf? textOf)
           listings := ← (json.get? "listings").bind (indexOf? listingOf)
           coordinates := ← (json.get? "coordinates").bind (indexOf? textOf)
           seenFiles := ← (json.get? "files").bind (indexOf? fileOf)
           rows := .ofList (← json.listAt rowsOf? "rows") }

/-- The mark in front of the text of a store; it is no text itself, so no text is taken for a
store. -/
def mark : List UInt8 := [0xDE, 0xC0, 0xEF, 0xBE]

/-- The content of the file of a store. -/
def toBytes (store : Store) : ByteArray := ⟨mark.toArray⟩ ++ store.toJson.compact.toUTF8

/-- The store in a file; a file without content holds a store without mods. -/
def ofBytes? (content : ByteArray) : Option Store :=
  if content.isEmpty then some .empty
  else do ofJson? (← Json.ofBytes? (← Text.stripFront? mark content.toList))

end Store

end ModCatalog
