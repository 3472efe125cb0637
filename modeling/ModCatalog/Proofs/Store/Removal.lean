import ModCatalog.Proofs.Store.Transaction

/-!
# Removing mods

What the store answers after a mod was deleted, and after one mod absorbed another.  Deletion works
from the record of the mod and erases only entries that lead to it; absorption works from the
record of the mod that goes and does not ask where an entry leads.
-/

namespace ModCatalog.Store

variable {store : Store} {id : Nat} {record : ModRecord}

/-! ## Deletion -/

theorem deleteMod_eq (hrecord : store.mod? id = some record) :
    store.deleteMod id = { store with
      hashes := record.hashes.foldl (fun table hash => table.eraseIf hash id) store.hashes
      listings := record.listings.foldl (fun table listing => table.eraseIf listing id)
        store.listings
      coordinates := record.coordinate.toList.foldl (fun table c => table.eraseIf c id)
        store.coordinates
      seenFiles := store.seenFiles.eraseWhere (· == id)
      rows := store.rows.erase id
      mods := store.mods.erase id } := by
  unfold deleteMod
  rw [hrecord, ModRecord.listings, List.foldl_map]

theorem deleteMod_eq_self (hnone : store.mod? id = none) : store.deleteMod id = store := by
  unfold deleteMod
  rw [hnone]

theorem mod?_deleteMod (store : Store) (id other : Nat) :
    (store.deleteMod id).mod? other = if other = id then none else store.mod? other := by
  cases hrecord : store.mod? id with
  | none =>
      rw [deleteMod_eq_self hrecord]
      split
      · next h => rw [h, hrecord]
      · rfl
  | some record =>
      rw [deleteMod_eq hrecord]
      exact Table.get?_erase store.mods id other

theorem hashes_deleteMod (hrecord : store.mod? id = some record) (hash : String) :
    (store.deleteMod id).hashes.get? hash =
      if hash ∈ record.hashes ∧ store.hashes.get? hash = some id then none
      else store.hashes.get? hash := by
  rw [deleteMod_eq hrecord]
  exact Table.get?_foldl_eraseIf record.hashes store.hashes hash id

theorem listings_deleteMod (hrecord : store.mod? id = some record) (listing : Listing) :
    (store.deleteMod id).listings.get? listing =
      if listing ∈ record.listings ∧ store.listings.get? listing = some id then none
      else store.listings.get? listing := by
  rw [deleteMod_eq hrecord]
  exact Table.get?_foldl_eraseIf record.listings store.listings listing id

theorem coordinates_deleteMod (hrecord : store.mod? id = some record) (coordinate : String) :
    (store.deleteMod id).coordinates.get? coordinate =
      if record.coordinate = some coordinate ∧ store.coordinates.get? coordinate = some id then none
      else store.coordinates.get? coordinate := by
  rw [deleteMod_eq hrecord]
  dsimp only
  rw [Table.get?_foldl_eraseIf]
  simp only [Option.mem_toList]

theorem seenFiles_deleteMod (hrecord : store.mod? id = some record) (file : FileKey) :
    (store.deleteMod id).seenFiles.get? file =
      (store.seenFiles.get? file).filter fun owner => !(owner == id) := by
  rw [deleteMod_eq hrecord]
  exact Table.get?_eraseWhere store.seenFiles (· == id) file

theorem rows_deleteMod (hrecord : store.mod? id = some record) (other : Nat) :
    (store.deleteMod id).rows.get? other = if other = id then none else store.rows.get? other := by
  rw [deleteMod_eq hrecord]
  exact Table.get?_erase store.rows id other

theorem nextId_deleteMod (store : Store) (id : Nat) :
    (store.deleteMod id).nextId = store.nextId := by
  unfold deleteMod
  split <;> rfl

end ModCatalog.Store

namespace ModCatalog

/-! ## Absorption -/

/-- What is left when `old` has been absorbed into `target` and `link` taken over, where `record`
is what the target has become. -/
structure Store.Absorbed (store : Store) (target old record : ModRecord) (link : PlatformLink)
    (after : Store) : Prop where
  found_target : store.mod? target.id = some target
  found_old : store.mod? old.id = some old
  distinct : target.id ≠ old.id
  record_id : record.id = target.id
  mem_hashes {hash : String} : hash ∈ record.hashes ↔ hash ∈ target.hashes ∨ hash ∈ old.hashes
  mem_listings {listing : Listing} : listing ∈ record.listings ↔
    listing = link.listing ∨ listing ∈ target.listings ∨ listing ∈ old.listings
  nextId : after.nextId = store.nextId
  mods (id : Nat) : after.mod? id =
    if id = target.id then some record else if id = old.id then none else store.mod? id
  hashes (hash : String) : after.hashes.get? hash =
    if hash ∈ old.hashes then some target.id else store.hashes.get? hash
  /-- A listing that both have is not handed over: if it leads to `old`, it leads nowhere then. -/
  listings (listing : Listing) : after.listings.get? listing =
    if listing = link.listing ∨ listing ∈ old.listings ∧ listing ∉ target.listings then
      some target.id
    else if listing ∈ old.listings ∧ store.listings.get? listing = some old.id then none
    else store.listings.get? listing
  /-- Of the coordinates that lead to `old`, only the one in its record is handed over. -/
  coordinates (coordinate : String) : after.coordinates.get? coordinate =
    if old.coordinate = some coordinate then some target.id
    else store.coordinates.get? coordinate
  seenFiles (file : FileKey) : after.seenFiles.get? file =
    (store.seenFiles.get? file).map fun owner => if owner = old.id then target.id else owner
  rows (id : Nat) : after.rows.get? id = if id = old.id then none else store.rows.get? id

namespace Transaction

variable {store after : Store} {target old record : ModRecord} {link : PlatformLink}

theorem takeLink_spec (h : (takeLink target link).run store = .ok (record, after)) :
    (link.listing ∈ target.listings ∧ record = target ∧ after = store) ∨
    (link.listing ∉ target.listings ∧ record = target.withLink link ∧
      after = { store with listings := store.listings.put link.listing target.id }) := by
  unfold takeLink at h
  split at h
  · next hlisted =>
      rw [run_pure_eq_ok] at h
      exact Or.inl ⟨ModRecord.any_sameProject_iff.mp hlisted, h.1.symm, h.2.symm⟩
  · next hlisted =>
      rw [run_setLink_eq_ok] at h
      exact Or.inr ⟨fun hmem => hlisted (ModRecord.any_sameProject_iff.mpr hmem),
        h.2.1.symm, h.2.2.symm⟩

theorem foldlM_takeLink_spec {links : List PlatformLink}
    (h : (links.foldlM takeLink target).run store = .ok (record, after)) :
    record = { target with links := record.links } ∧
    (∀ listing, listing ∈ record.listings ↔
      listing ∈ target.listings ∨ listing ∈ links.map PlatformLink.listing) ∧
    after = { store with listings := after.listings } ∧
    ∀ listing, after.listings.get? listing =
      if listing ∈ links.map PlatformLink.listing ∧ listing ∉ target.listings then some target.id
      else store.listings.get? listing := by
  induction links generalizing target store with
  | nil =>
      rw [List.foldlM_nil, run_pure_eq_ok] at h
      obtain ⟨rfl, rfl⟩ := h
      simp
  | cons link rest ih =>
      rw [List.foldlM_cons, run_bind_eq_ok] at h
      obtain ⟨taken, between, htaken, h⟩ := h
      obtain ⟨hrecord, hlistings, hafter, hanswers⟩ := ih h
      rcases takeLink_spec htaken with ⟨hmem, rfl, rfl⟩ | ⟨hmem, rfl, rfl⟩
      · refine ⟨hrecord, ?_, hafter, ?_⟩
        · intro listing
          rw [hlistings, List.map_cons, List.mem_cons]
          grind
        · intro listing
          simp only [hanswers, List.map_cons, List.mem_cons]
          grind
      · refine ⟨?_, ?_, ?_, ?_⟩
        · rw [hrecord]
          unfold ModRecord.withLink
          split <;> rfl
        · intro listing
          rw [hlistings, List.map_cons, List.mem_cons, ModRecord.mem_listings_withLink]
          grind
        · rw [hafter]
        · intro listing
          simp only [hanswers, List.map_cons, List.mem_cons, ModRecord.mem_listings_withLink,
            ModRecord.withLink_id, Table.get?_put]
          grind

theorem foldlM_setCoordinate_spec {coordinate : Option String}
    (h : (coordinate.toList.foldlM setCoordinate target).run store = .ok (record, after)) :
    record = { target with coordinate := target.coordinate.or coordinate } ∧
    after = { store with
      coordinates := coordinate.toList.foldl
        (fun table coordinate => table.put coordinate target.id) store.coordinates } := by
  cases coordinate with
  | none =>
      rw [Option.toList_none, List.foldlM_nil, run_pure_eq_ok] at h
      obtain ⟨rfl, rfl⟩ := h
      simp
  | some coordinate =>
      rw [Option.toList_some, List.foldlM_cons, run_bind_eq_ok] at h
      obtain ⟨_, _, hset, h⟩ := h
      rw [List.foldlM_nil, run_pure_eq_ok] at h
      obtain ⟨rfl, rfl⟩ := h
      obtain ⟨_, rfl, rfl⟩ := run_setCoordinate_eq_ok.mp hset
      exact ⟨rfl, rfl⟩

/-- The record is not written yet and the link not taken over yet. -/
theorem absorb_spec (h : (absorb target old).run store = .ok (record, after)) :
    ∃ handed : Store, after = (handed.moveFiles old.id target.id).deleteMod old.id ∧
      handed.nextId = store.nextId ∧ handed.mods = store.mods ∧ handed.rows = store.rows ∧
      handed.seenFiles = store.seenFiles ∧
      handed.hashes = old.hashes.foldl (fun table hash => table.put hash target.id) store.hashes ∧
      handed.coordinates = old.coordinate.toList.foldl
        (fun table coordinate => table.put coordinate target.id) store.coordinates ∧
      (∀ listing, handed.listings.get? listing =
        if listing ∈ old.listings ∧ listing ∉ target.listings then some target.id
        else store.listings.get? listing) ∧
      record.id = target.id ∧ record.hashes = addMissing target.hashes old.hashes ∧
      (∀ listing, listing ∈ record.listings ↔
        listing ∈ target.listings ∨ listing ∈ old.listings) := by
  simp only [absorb, run_bind_eq_ok, run_forM_putHash_eq_ok, run_modify_eq_ok,
    run_pure_eq_ok] at h
  obtain ⟨_, _, ⟨_, rfl⟩, linked, taken, htaken, noted, handed, hnoted, _, _, rfl, rfl, rfl⟩ := h
  obtain ⟨hlinked, hmem, htables, hanswers⟩ := foldlM_takeLink_spec htaken
  obtain ⟨hrecord, htable⟩ := foldlM_setCoordinate_spec hnoted
  have hid : linked.id = target.id := by rw [hlinked]
  have hnotedId : noted.id = target.id := by rw [hrecord, hid]
  refine ⟨handed, by rw [hnotedId], ?_, ?_, ?_, ?_, ?_, ?_, ?_, hnotedId, ?_, ?_⟩
  · rw [htable, htables]
  · rw [htable, htables]
  · rw [htable, htables]
  · rw [htable, htables]
  · rw [htable, htables]
  · rw [htable, htables, hid]
  · rw [htable]
    exact hanswers
  · rw [hrecord, hlinked]
  · rw [hrecord]
    exact hmem

theorem absorbed_of_absorb (htarget : store.mod? target.id = some target)
    (hold : store.mod? old.id = some old) (hne : target.id ≠ old.id)
    (h : (absorb target old).run store = .ok (record, after)) :
    store.Absorbed target old (record.withLink link) link
      { after with
        listings := after.listings.put link.listing record.id
        mods := after.mods.put record.id (record.withLink link) } := by
  obtain ⟨handed, rfl, hnext, hmods, hrows, hfiles, hhashes, hcoordinates, hlistings, hid,
    hrecord, hmem⟩ := absorb_spec h
  have hmoved : (handed.moveFiles old.id target.id).mod? old.id = some old := by
    rw [← hold]
    unfold Store.mod?
    exact congrArg (Table.get? · old.id) hmods
  constructor
  case found_target => exact htarget
  case found_old => exact hold
  case distinct => exact hne
  case record_id => rw [ModRecord.withLink_id, hid]
  case mem_hashes =>
    intro hash
    rw [ModRecord.withLink_hashes, hrecord, mem_addMissing]
  case mem_listings =>
    intro listing
    rw [ModRecord.mem_listings_withLink, hmem]
  case nextId => exact (Store.nextId_deleteMod _ _).trans hnext
  case mods =>
    intro id
    have hdeleted := Store.mod?_deleteMod (handed.moveFiles old.id target.id) old.id id
    unfold Store.mod? at hdeleted ⊢
    rw [Table.get?_put, hdeleted, hid]
    unfold Store.moveFiles
    rw [hmods]
  case hashes =>
    intro hash
    have hdeleted := Store.hashes_deleteMod hmoved hash
    refine hdeleted.trans ?_
    unfold Store.moveFiles
    rw [hhashes, Table.get?_foldl_put]
    grind
  case listings =>
    intro listing
    have hdeleted : ((handed.moveFiles old.id target.id).deleteMod old.id).listings.get? listing =
        if listing ∈ old.listings ∧ handed.listings.get? listing = some old.id then none
        else handed.listings.get? listing := Store.listings_deleteMod hmoved listing
    simp only [Table.get?_put, hid, hdeleted, hlistings]
    grind
  case coordinates =>
    intro coordinate
    refine (Store.coordinates_deleteMod hmoved coordinate).trans ?_
    unfold Store.moveFiles
    rw [hcoordinates, Table.get?_foldl_put]
    simp only [Option.mem_toList]
    grind
  case seenFiles =>
    intro file
    refine (Store.seenFiles_deleteMod hmoved file).trans ?_
    unfold Store.moveFiles
    rw [hfiles, Table.get?_mapValues]
    cases store.seenFiles.get? file with
    | none => rfl
    | some owner => by_cases howner : owner = old.id <;> simp [howner, hne]
  case rows =>
    intro id
    refine (Store.rows_deleteMod hmoved id).trans ?_
    unfold Store.moveFiles
    rw [hrows]

/-- A listing that leads to another mod lets that mod be absorbed, if there is a record of it. -/
theorem attachPlatform_spec {id : Nat} {absorbed : Option Nat}
    (hkeyed : ∀ {id record}, store.mod? id = some record → record.id = id)
    (h : (attachPlatform id link).run store = .ok (absorbed, after)) :
    ∃ target, store.mod? id = some target ∧
      absorbed = (store.findByListing link.listing).filter (· ≠ id) ∧
      ((absorbed.bind store.mod? = none ∧ after = { store with
          listings := store.listings.put link.listing id
          mods := store.mods.put id (target.withLink link) }) ∨
        ∃ old record, absorbed = some old.id ∧
          store.Absorbed target old record link after) := by
  simp only [attachPlatform, run_bind_eq_ok, run_requireMod_eq_ok, run_get_eq_ok] at h
  obtain ⟨target, _, ⟨htarget, rfl⟩, _, _, ⟨rfl, rfl⟩, h⟩ := h
  have hid : target.id = id := hkeyed htarget
  refine ⟨target, htarget, ?_⟩
  cases hold : ((store.findByListing link.listing).filter (· ≠ id)).bind store.mod? with
  | none =>
      simp only [hold, run_bind_eq_ok, run_pure_eq_ok, run_setLink_eq_ok, run_writeMod_eq_ok] at h
      obtain ⟨_, _, ⟨rfl, rfl⟩, _, _, ⟨_, rfl, rfl⟩, _, _, rfl, rfl, rfl⟩ := h
      refine ⟨rfl, Or.inl ⟨hold, ?_⟩⟩
      rw [ModRecord.withLink_id, hid]
  | some old =>
      simp only [hold, run_bind_eq_ok, run_pure_eq_ok, run_setLink_eq_ok, run_writeMod_eq_ok] at h
      obtain ⟨merged, between, habsorb, _, _, ⟨_, rfl, rfl⟩, _, _, rfl, rfl, rfl⟩ := h
      obtain ⟨holder, hholder, hrecord⟩ := Option.bind_eq_some_iff.mp hold
      have holdId : old.id = holder := hkeyed hrecord
      subst holdId
      have hne : target.id ≠ old.id := by
        have hfilter := (Option.filter_eq_some_iff.mp hholder).2
        intro heq
        simp [← hid, heq] at hfilter
      have habsorbed : store.Absorbed target old (merged.withLink link) link _ :=
        absorbed_of_absorb (by rwa [hid]) hrecord hne habsorb
      refine ⟨rfl, Or.inr ⟨old, merged.withLink link, hholder, ?_⟩⟩
      rw [ModRecord.withLink_id]
      exact habsorbed

end Transaction

end ModCatalog
