import ModCatalog.Artifact.Basic
import ModCatalog.Collection.Table
import ModCatalog.Identity

/-!
# Expansion

The candidates for indexing that a batch of platform files gives.  Bundled jars are taken out of
the files around them; of each identifier the highest version is kept.  A bundled jar that the
platform lists carries that listing.  Bundled mods join the candidates with the same identity: the
content follows the higher version, and a listing always stays with its identity.
-/

namespace ModCatalog

/-- An artifact to be indexed. -/
structure Candidate where
  artifact : Artifact
  /-- What the artifact bundles, as long as it has not been taken out. -/
  bundled : List BundledArtifact
  link : Option PlatformLink
  /-- A coordinate learned from a bundled copy of the same content. -/
  extraCoordinate : Option String

namespace Candidate

/-- The candidate of a tree, with its listing if it has one. -/
def ofTree (tree : ArtifactTree) (link : Option PlatformLink) : Candidate :=
  ⟨tree.root, tree.bundled, link, none⟩

def identity? (candidate : Candidate) : Option ModIdentity :=
  candidate.artifact.modIds.head?.map fun modId => .ofLink modId candidate.link

/-- The text that names a candidate. -/
def label (candidate : Candidate) : String :=
  let name := candidate.artifact.displayName ++ " " ++ candidate.artifact.version.text
  match candidate.link with
  | some link => name ++ " (" ++ link.text ++ ")"
  | none => name

end Candidate

/-- A bundled artifact without what it bundles itself. -/
structure BundledCopy where
  identifier : String
  version : Version
  artifact : Artifact

namespace Expansion

mutual

/-- The artifacts below a list of bundled ones, each before those that it bundles. -/
def preorder : List BundledArtifact → List BundledCopy
  | [] => []
  | (identifier, version, tree) :: rest => treeOrder identifier version tree ++ preorder rest

/-- A bundled artifact before those that it bundles. -/
def treeOrder (identifier : String) (version : Version) : ArtifactTree → List BundledCopy
  | .node root bundled => ⟨identifier, version, root⟩ :: preorder bundled

end

/-- The hashes of all bundled artifacts, each once, in the order in which they are first met. -/
def bundledHashes (candidates : List Candidate) : List String :=
  ((candidates.flatMap fun candidate => preorder candidate.bundled).map fun copy =>
    copy.artifact.contentHash).eraseDups

/-- Keep a copy if it is the first of its identifier or above the one that is kept. -/
def keepHighest (kept : Table String BundledCopy) (copy : BundledCopy) : Table String BundledCopy :=
  match kept.get? copy.identifier with
  | none => kept.put copy.identifier copy
  | some old => if copy.version.isAbove old.version then kept.put copy.identifier copy else kept

/-- Of each identifier the highest copy, in the order in which identifiers are first met. -/
def flatten (candidates : List Candidate) : Table String BundledCopy :=
  (candidates.flatMap fun candidate => preorder candidate.bundled).foldl keepHighest Table.empty

def hasContent (hash : String) (candidates : List Candidate) : Bool :=
  candidates.any fun candidate => candidate.artifact.contentHash = hash

/-- Tell the last candidate with a content its coordinate, unless it has learned one before. -/
def giveCoordinate (hash identifier : String) : List Candidate → List Candidate
  | [] => []
  | candidate :: rest =>
      if candidate.artifact.contentHash = hash && !hasContent hash rest then
        { candidate with
          extraCoordinate := candidate.extraCoordinate.or (some identifier) } :: rest
      else candidate :: giveCoordinate hash identifier rest

/-- Tell candidates the identifiers of bundled copies of their contents. -/
def giveCoordinates (candidates : List Candidate) (copies : List BundledCopy) : List Candidate :=
  copies.foldl (fun candidates copy =>
    giveCoordinate copy.artifact.contentHash copy.identifier candidates) candidates

/-- Candidates by their first mod id, and those without one. -/
structure Buckets where
  byModId : Table String (List Candidate)
  standalone : List Candidate

namespace Buckets

/-- Put a candidate at the end of the bucket of a mod id. -/
def push (buckets : Table String (List Candidate)) (modId : String) (candidate : Candidate) :
    Table String (List Candidate) :=
  buckets.put modId ((buckets.get? modId).getD [] ++ [candidate])

/-- Put a platform file into its bucket. -/
def addFile (buckets : Buckets) (candidate : Candidate) : Buckets :=
  match candidate.artifact.modIds.head? with
  | some modId => { buckets with byModId := push buckets.byModId modId candidate }
  | none => { buckets with standalone := buckets.standalone ++ [candidate] }

/-- A candidate whose content a newer bundled copy takes over; a listing of either stays. -/
def takeOver (bundled : Candidate) (identity : ModIdentity) (old : Candidate) : Candidate :=
  let kept := match old.identity? with
    | some other => identity.merge other
    | none => identity
  { artifact := bundled.artifact, bundled := [], link := kept.link?
    extraCoordinate := old.extraCoordinate }

def isSameMod (identity : ModIdentity) (candidate : Candidate) : Bool :=
  candidate.identity?.any fun other => other.isMatch identity

/-- Let a bundled mod join a bucket: the first candidate that is the same mod takes it if it is
newer. -/
def join (bundled : Candidate) (identity : ModIdentity) : List Candidate → List Candidate
  | [] => [bundled]
  | candidate :: rest =>
      if isSameMod identity candidate then
        if bundled.artifact.version.isAbove candidate.artifact.version then
          takeOver bundled identity candidate :: rest
        else candidate :: rest
      else candidate :: join bundled identity rest

/-- Let a bundled artifact join: a mod its bucket, anything else the candidates without a mod id. -/
def addBundled (listed : Table String PlatformLink) (buckets : Buckets) (copy : BundledCopy) :
    Buckets :=
  let bundled : Candidate := ⟨copy.artifact, [], listed.get? copy.artifact.contentHash, none⟩
  match bundled.identity? with
  | none => { buckets with standalone := buckets.standalone ++ [bundled] }
  | some identity =>
      let bucket := (buckets.byModId.get? identity.modId).getD []
      { buckets with byModId := buckets.byModId.put identity.modId (join bundled identity bucket) }

/-- All candidates: the buckets in the order in which their mod ids were met, then the others. -/
def toList (buckets : Buckets) : List Candidate :=
  buckets.byModId.values.flatten ++ buckets.standalone

end Buckets

end Expansion

open Expansion

/--
The candidates for indexing: the platform files and what they bundle.  `listed` gives the listings
of bundled contents that the platform lists on their own.
-/
def expand (candidates : List Candidate) (listed : Table String PlatformLink) : List Candidate :=
  let copies := (flatten candidates).values
  let files := candidates.map fun candidate => { candidate with bundled := [] }
  let isFile := fun copy : BundledCopy => hasContent copy.artifact.contentHash files
  let files := giveCoordinates files (copies.filter isFile)
  let buckets := files.foldl Buckets.addFile ⟨Table.empty, []⟩
  let buckets := (copies.filter fun copy => !isFile copy).foldl (Buckets.addBundled listed) buckets
  buckets.toList

end ModCatalog
