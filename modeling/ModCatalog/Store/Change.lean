import ModCatalog.Store.Basic

/-!
# Changing the store

The transactions that create, link, merge and remove mods, and those that write their rows.  A
listing belongs to one mod only: attaching it to another lets that one absorb the mod that had it,
with all contents, listings and files that were seen.
-/

namespace ModCatalog

/-- A list followed by those of others that are not in it yet. -/
def addMissing {α : Type} [BEq α] (list others : List α) : List α :=
  others.foldl (fun list x => if list.contains x then list else list ++ [x]) list

theorem mem_addMissing {α : Type} [BEq α] [LawfulBEq α] {list others : List α} {x : α} :
    x ∈ addMissing list others ↔ x ∈ list ∨ x ∈ others := by
  unfold addMissing
  induction others generalizing list with
  | nil => simp
  | cons y rest ih =>
      rw [List.foldl_cons, ih]
      split
      · next hy =>
          have hmem : y ∈ list := by simpa using hy
          simp only [List.mem_cons]
          constructor
          · intro h
            rcases h with h | h
            · exact Or.inl h
            · exact Or.inr (Or.inr h)
          · intro h
            rcases h with h | rfl | h
            · exact Or.inl h
            · exact Or.inl hmem
            · exact Or.inr h
      · simp [or_assoc]

namespace Store

/-- Remove a mod with its rows, its files and the index entries that lead to it. -/
def deleteMod (store : Store) (id : Nat) : Store :=
  match store.mod? id with
  | none => store
  | some record =>
      { store with
        hashes := record.hashes.foldl (fun table hash => table.eraseIf hash id) store.hashes
        listings := record.links.foldl (fun table link => table.eraseIf link.listing id)
          store.listings
        coordinates := record.coordinate.toList.foldl (fun table c => table.eraseIf c id)
          store.coordinates
        seenFiles := store.seenFiles.eraseWhere (· == id)
        rows := store.rows.erase id
        mods := store.mods.erase id }

/-- Let all files of one mod belong to another. -/
def moveFiles (store : Store) (source target : Nat) : Store :=
  { store with
    seenFiles := store.seenFiles.mapValues fun owner => if owner = source then target else owner }

/-- The rows of a mod in place of those that it has. -/
def putRows (store : Store) (id : Nat) (rows : Rows) : Store :=
  { store with rows := if rows.isEmpty then store.rows.erase id else store.rows.put id rows }

@[simp] theorem get?_rows_putRows (store : Store) (id other : Nat) (rows : Rows) :
    (store.putRows id rows).rows.get? other =
      if other = id then if rows.isEmpty then none else some rows else store.rows.get? other := by
  unfold putRows
  by_cases hempty : rows.isEmpty <;> simp [hempty]

end Store

namespace Transaction

/-- Refuse the transaction if there is no mod with a number. -/
def requireMod (id : Nat) : Transaction ModRecord := do
  liftM ((← get).requireMod id)

/-- Store a mod under the next number; its coordinate leads to it unless it leads elsewhere. -/
def createMod (new : NewMod) : Transaction ModRecord := do
  let store ← get
  let record := ModRecord.ofNew store.nextId new
  set { store with nextId := store.nextId + 1 }
  match record.coordinate with
  | none => pure ()
  | some coordinate =>
      match ← liftM (store.findByCoordinate coordinate) with
      | none => putCoordinate coordinate record.id
      | some _ => pure ()
  writeMod record
  return record

/-- The mod under a key, which is created if there is none; says whether it was. -/
def findOrCreate (key : LookupKey) (new : NewMod) : Transaction (ModRecord × Bool) := do
  match ← liftM ((← get).find key) with
  | some id => return (← requireMod id, false)
  | none =>
      let created ← createMod new
      let linked ← match key with
        | .listing listing => setLink created ⟨listing.platform, listing.projectId, 0⟩
        | .coordinate coordinate => setCoordinate created coordinate
      writeMod linked
      return (linked, true)

/-- Link a mod to a project. -/
def linkPlatform (id : Nat) (link : PlatformLink) : Transaction Unit := do
  writeMod (← setLink (← requireMod id) link)

/-- Let a coordinate lead to a mod. -/
def linkCoordinate (id : Nat) (coordinate : String) : Transaction Unit := do
  writeMod (← setCoordinate (← requireMod id) coordinate)

/-- Take a link over unless the record has one of the same project. -/
def takeLink (target : ModRecord) (link : PlatformLink) : Transaction ModRecord :=
  if target.links.any (·.sameProject link) then return target else setLink target link

/-- Move all that belongs to one mod to another and remove the first. -/
def absorb (target old : ModRecord) : Transaction ModRecord := do
  old.hashes.forM fun hash => putHash hash target.id
  let target := { target with hashes := addMissing target.hashes old.hashes }
  let target ← old.links.foldlM takeLink target
  let target ← old.coordinate.toList.foldlM setCoordinate target
  modify fun store => (store.moveFiles old.id target.id).deleteMod old.id
  return target

/-- Let a mod absorb the one that a project led to before, if that is another; gives its number. -/
def attachPlatform (id : Nat) (link : PlatformLink) : Transaction (Option Nat) := do
  let target ← requireMod id
  let store ← get
  let holder := (store.findByListing link.listing).filter (· ≠ id)
  let target ← match holder.bind store.mod? with
    | some old => absorb target old
    | none => pure target
  writeMod (← setLink target link)
  return holder

/-- Remove a mod; removing one that is not there changes nothing. -/
def deleteMod (id : Nat) : Transaction Unit := modify fun store => store.deleteMod id

/-- Note that a file was seen and belongs to a mod. -/
def markFileSeen (link : PlatformLink) (id : Nat) : Transaction Unit := putFileOwner link.file id

def described (record : ModRecord) (batch : TrackBatch) : ModRecord :=
  let record := { record with
    hashes := addMissing record.hashes batch.knownHash.toList
    indexedAt := some batch.indexedAt }
  match batch.metadata with
  | none => record
  | some summary =>
      { record with
        displayName := summary.displayName
        version := summary.version
        modIds := addMissing record.modIds summary.modIds
        metadata := some summary }

@[simp] theorem described_id (record : ModRecord) (batch : TrackBatch) :
    (described record batch).id = record.id := by
  unfold described
  split <;> rfl

@[simp] theorem described_listings (record : ModRecord) (batch : TrackBatch) :
    (described record batch).listings = record.listings := by
  unfold described
  split <;> rfl

theorem mem_hashes_described {record : ModRecord} {batch : TrackBatch} {hash : String} :
    hash ∈ (described record batch).hashes ↔ hash ∈ record.hashes ∨ batch.knownHash = some hash := by
  have hhashes : (described record batch).hashes =
      addMissing record.hashes batch.knownHash.toList := by
    unfold described
    split <;> rfl
  simp only [hhashes, mem_addMissing, Option.mem_toList]

/-- Write a batch: its rows after those that stay, and what it says of the mod. -/
def track (id : Nat) (batch : TrackBatch) : Transaction Unit := do
  let record ← requireMod id
  modify fun store =>
    let old := if batch.deletesCurrent then Rows.empty else store.rowsOf id
    store.putRows id (old.append batch.rows)
  batch.knownHash.toList.forM fun hash => putHash hash id
  writeMod (described record batch)

end Transaction

namespace Store

/-- The mods with rows, by number. -/
def idsWithRows (store : Store) : List Nat :=
  ((store.rows.entries.filter fun entry => !entry.2.isEmpty).map Prod.fst).mergeSort

end Store

/-- How much a store holds. -/
structure StoreStats where
  mods : Nat
  knownHashes : Nat
  platformLinks : Nat
  coordinates : Nat
  seenFiles : Nat
  referenceRows : Nat
  inheritanceRows : Nat
  classRows : Nat
  tagRows : Nat
  enumExtensionRows : Nat
deriving DecidableEq, Repr

namespace Store

/-- The number of rows in one table of all mods. -/
def countRows (store : Store) (count : Rows → Nat) : Nat :=
  (store.rows.values.map count).foldr (· + ·) 0

/-- How much the store holds. -/
def stats (store : Store) : StoreStats where
  mods := store.mods.size
  knownHashes := store.hashes.size
  platformLinks := store.listings.size
  coordinates := store.coordinates.size
  seenFiles := store.seenFiles.size
  referenceRows := store.countRows fun rows => rows.references.length
  inheritanceRows := store.countRows fun rows => rows.inheritance.length
  classRows := store.countRows fun rows => rows.classes.length
  tagRows := store.countRows fun rows => rows.tags.length
  enumExtensionRows := store.countRows fun rows => rows.enumExtensions.length

end Store

end ModCatalog
