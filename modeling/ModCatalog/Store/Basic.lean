import ModCatalog.Collection.Table
import ModCatalog.Store.Record

/-!
# The store

Mods and the ways of finding them: by content, by listing, by coordinate and by a file that was
seen. Every change is a transaction: it takes place as a whole or, after a fault, not at all.  The
store takes keys of 1 to 511 bytes only.

A transaction can fail by what it is asked for and by nothing else: an unknown mod, or a key that the
store does not take.  What can go wrong around a store, such as storage that is full or a disk that
cannot be read or written, is left out.
-/

namespace ModCatalog

/-- The mods of a catalog with their indexes and rows. -/
structure Store where
  /-- The number of the next mod; numbers are never used twice. -/
  nextId : Nat
  mods : Table Nat ModRecord
  hashes : Table String Nat
  listings : Table Listing Nat
  coordinates : Table String Nat
  seenFiles : Table FileKey Nat
  rows : Table Nat Rows

/-- A change of the store that gives a value; a fault leaves the store as it was. There is always room
for a change, and it is never interrupted. -/
abbrev Transaction (α : Type) := StateT Store (Except Fault) α

namespace Store

/-- A store without mods. -/
def empty : Store := ⟨1, .empty, .empty, .empty, .empty, .empty, .empty⟩

instance : Inhabited Store := ⟨empty⟩

/-- The longest key in bytes. -/
def maxKeyLength : Nat := 511

/-- The length in bytes of a number with its leading zeros and the slash after it. -/
def idLength : Nat := 21

/-- Refuse to read an empty key; a key that is too long is just not there. -/
def checkRead (key : String) : Except Fault Unit :=
  if key.isEmpty then .error (.storage .badKey) else .ok ()

/-- Refuse to write a key, with `extra` bytes in front of it, that is empty or too long. -/
def checkWrite (key : String) (extra : Nat) : Except Fault Unit :=
  if key.isEmpty || maxKeyLength < extra + key.utf8ByteSize then .error (.storage .badKey)
  else .ok ()

theorem checkRead_of_checkWrite {key : String} {extra : Nat} (h : checkWrite key extra = .ok ()) :
    checkRead key = .ok () := by
  unfold checkWrite at h
  unfold checkRead
  split at h
  · cases h
  · next hfits =>
      rw [if_neg]
      intro hempty
      exact hfits (by rw [hempty, Bool.true_or])

end Store

def Listing.key (listing : Listing) : String :=
  listing.platform ++ "/" ++ toString listing.projectId

def FileKey.key (file : FileKey) : String := file.platform ++ "/" ++ toString file.fileId

namespace Store

def mod? (store : Store) (id : Nat) : Option ModRecord := store.mods.get? id

/-- The record of a mod that must be there. -/
def requireMod (store : Store) (id : Nat) : Except Fault ModRecord :=
  match store.mod? id with
  | some record => .ok record
  | none => .error (.storage (.unknownMod id))

/-- The mod that owns a content. -/
def findByHash (store : Store) (hash : String) : Except Fault (Option Nat) := do
  checkRead hash
  return store.hashes.get? hash

/-- The mod of a project. -/
def findByListing (store : Store) (listing : Listing) : Option Nat := store.listings.get? listing

def findByCoordinate (store : Store) (coordinate : String) : Except Fault (Option Nat) := do
  checkRead coordinate
  return store.coordinates.get? coordinate

theorem findByHash_eq_some {store : Store} {hash : String} {id : Nat} :
    store.findByHash hash = .ok (some id) ↔
      checkRead hash = .ok () ∧ store.hashes.get? hash = some id := by
  unfold findByHash
  cases checkRead hash with
  | error fault => exact ⟨nofun, nofun⟩
  | ok value =>
      change Except.ok (store.hashes.get? hash) = Except.ok (some id) ↔ _
      simp

theorem findByCoordinate_eq_some {store : Store} {coordinate : String} {id : Nat} :
    store.findByCoordinate coordinate = .ok (some id) ↔
      checkRead coordinate = .ok () ∧ store.coordinates.get? coordinate = some id := by
  unfold findByCoordinate
  cases checkRead coordinate with
  | error fault => exact ⟨nofun, nofun⟩
  | ok value =>
      change Except.ok (store.coordinates.get? coordinate) = Except.ok (some id) ↔ _
      simp

theorem findByCoordinate_eq_error {store : Store} {coordinate : String} {fault : Fault}
    (h : store.findByCoordinate coordinate = .error fault) : fault = .storage .badKey := by
  unfold findByCoordinate checkRead at h
  split at h
  · cases h
    rfl
  · cases h

/-- The mod that a file belongs to, if the file was seen. -/
def seenFileOwner (store : Store) (file : FileKey) : Option Nat := store.seenFiles.get? file

/-- The mod under a key. -/
def find (store : Store) : LookupKey → Except Fault (Option Nat)
  | .listing listing => .ok (store.findByListing listing)
  | .coordinate coordinate => store.findByCoordinate coordinate

def rowsOf (store : Store) (id : Nat) : Rows := (store.rows.get? id).getD .empty

end Store

namespace Transaction

/-- Refuse the transaction unless a check succeeds. -/
def check (result : Except Fault Unit) : Transaction Unit := liftM result

def writeMod (record : ModRecord) : Transaction Unit :=
  modify fun store => { store with mods := store.mods.put record.id record }

/-- Make a mod the owner of a content. -/
def putHash (hash : String) (id : Nat) : Transaction Unit := do
  check (Store.checkWrite hash 0)
  modify fun store => { store with hashes := store.hashes.put hash id }

/-- Make a mod the one of a project. -/
def putListing (listing : Listing) (id : Nat) : Transaction Unit := do
  check (Store.checkWrite listing.key 0)
  modify fun store => { store with listings := store.listings.put listing id }

/-- Make a mod the one of a coordinate. -/
def putCoordinate (coordinate : String) (id : Nat) : Transaction Unit := do
  check (Store.checkWrite coordinate 0)
  modify fun store => { store with coordinates := store.coordinates.put coordinate id }

/-- Make a mod the owner of a file. -/
def putFileOwner (file : FileKey) (id : Nat) : Transaction Unit := do
  check (Store.checkWrite file.key Store.idLength)
  modify fun store => { store with seenFiles := store.seenFiles.put file id }

/-- Remove the rows of a mod. -/
def purgeRows (id : Nat) : Transaction Unit :=
  modify fun store => { store with rows := store.rows.erase id }

/-- Note in a record that a project lists it, and let the project lead to it. -/
def setLink (record : ModRecord) (link : PlatformLink) : Transaction ModRecord := do
  putListing link.listing record.id
  return record.withLink link

/-- Let a coordinate lead to a record, and note it there if it is the first. -/
def setCoordinate (record : ModRecord) (coordinate : String) : Transaction ModRecord := do
  putCoordinate coordinate record.id
  return record.withCoordinate coordinate

/-- Run a transaction: a fault leaves the store as it was. -/
def commit {α : Type} (change : Transaction α) (store : Store) : Except Fault α × Store :=
  match change.run store with
  | .ok (value, after) => (.ok value, after)
  | .error fault => (.error fault, store)

end Transaction

end ModCatalog
