import ModCatalog.Expansion
import ModCatalog.Store.Change

/-!
# Resolution

Which mod a candidate belongs to.  A known content only gains links; a listing and then a coordinate
find the mod or create it; a candidate with none of them cannot be stored.
-/

namespace ModCatalog

/-- What becomes of a candidate. -/
inductive Resolution
  /-- The content is stored already. -/
  | known (id : Nat)
  /-- The rows of a mod have to be written. -/
  | index (id : Nat) (created : Bool)
  /-- The stored content is at least as new. -/
  | outdated (id : Nat)
  | unindexable
deriving DecidableEq, Repr

/-- The mods of contents that were stored, by hash. -/
structure IdentityCache where
  byHash : Table String Nat
deriving DecidableEq, Repr

namespace IdentityCache

def empty : IdentityCache := ⟨.empty⟩

def get? (cache : IdentityCache) (hash : String) : Option Nat := cache.byHash.get? hash

def remember (cache : IdentityCache) (hash : String) (id : Nat) : IdentityCache :=
  ⟨cache.byHash.put hash id⟩

def forget (cache : IdentityCache) (id : Nat) : IdentityCache :=
  ⟨cache.byHash.eraseWhere (· == id)⟩

def size (cache : IdentityCache) : Nat := cache.byHash.size

end IdentityCache

/-- A store and what is remembered of it. -/
structure Catalog where
  store : Store
  identities : IdentityCache

def Catalog.empty : Catalog := ⟨.empty, .empty⟩

/-- Work on a catalog in several transactions: a fault ends it, and what was committed before
stays. -/
abbrev Resolving (α : Type) := ExceptT Fault (StateM Catalog) α

namespace Resolving

/-- Commit one transaction. -/
def transact {α : Type} (change : Transaction α) : Resolving α :=
  ExceptT.mk fun catalog =>
    let (answer, store) := change.commit catalog.store
    (answer, { catalog with store := store })

def ask {α : Type} (question : Store → Except Fault α) : Resolving α :=
  ExceptT.mk fun catalog => (question catalog.store, catalog)

def updateIdentities (change : IdentityCache → IdentityCache) : Resolving Unit :=
  modify fun catalog => { catalog with identities := change catalog.identities }

def knownHash (hash : String) : Resolving (Option Nat) := do
  match (← get).identities.get? hash with
  | some id => return some id
  | none =>
      match ← ask (·.findByHash hash) with
      | none => return none
      | some id =>
          updateIdentities (·.remember hash id)
          return some id

/-- Let a coordinate lead to a mod unless it leads somewhere. -/
def linkCoordinate (id : Nat) : Option String → Resolving Unit
  | none => return ()
  | some coordinate => do
      if (← ask (·.findByCoordinate coordinate)).isNone then
        transact (.linkCoordinate id coordinate)

/-- Attach a listing to a mod, and forget the contents of the mod that it absorbs. -/
def attachListing (id : Nat) (link : PlatformLink) : Resolving Unit := do
  match ← transact (.attachPlatform id link) with
  | some absorbed => updateIdentities (·.forget absorbed)
  | none => return ()

/-- Take a listing over for a mod whose content is known. -/
def takeListing (id : Nat) (link : PlatformLink) : Resolving Unit := do
  attachListing id link
  transact (.markFileSeen link id)

/-- Link what a candidate says to the mod that owns its content. -/
def resolveKnown (candidate : Candidate) (id : Nat) : Resolving Resolution := do
  match candidate.link with
  | some link => takeListing id link
  | none => linkCoordinate id candidate.artifact.coordinate
  linkCoordinate id candidate.extraCoordinate
  return .known id

def resolveListing (candidate : Candidate) (link : PlatformLink) : Resolving Resolution := do
  let (record, created) ← transact
    (.findOrCreate (.listing link.listing) (.ofArtifact candidate.artifact))
  transact (.linkPlatform record.id link)
  linkCoordinate record.id candidate.artifact.coordinate
  linkCoordinate record.id candidate.extraCoordinate
  return .index record.id created

/-- Whether a mod holds rows of a version that is at least as new. -/
def isUpToDate (record : ModRecord) (version : Version) : Bool :=
  record.indexedAt.isSome && (Version.mk record.version).isAtLeast version

def resolveCoordinate (candidate : Candidate) (coordinate : String) : Resolving Resolution := do
  let (record, created) ← transact
    (.findOrCreate (.coordinate coordinate) (.ofArtifact candidate.artifact))
  if !created && isUpToDate record candidate.artifact.version then return .outdated record.id
  else return .index record.id created

/-- What becomes of a candidate. -/
def resolve (candidate : Candidate) : Resolving Resolution := do
  match ← knownHash candidate.artifact.contentHash with
  | some id => resolveKnown candidate id
  | none =>
      match candidate.link, candidate.artifact.coordinate with
      | some link, _ => resolveListing candidate link
      | none, some coordinate => resolveCoordinate candidate coordinate
      | none, none => return .unindexable

/-- Write a batch for a mod, and remember the mod for a content. -/
def commitBatch (hash : String) (id : Nat) (batch : TrackBatch) : Resolving Unit := do
  transact (.track id batch)
  updateIdentities (·.remember hash id)

/-- Note that the file of a candidate was seen and belongs to a mod. -/
def markSeen (id : Nat) : Option PlatformLink → Resolving Unit
  | none => return ()
  | some link => transact (.markFileSeen link id)

end Resolving

end ModCatalog
