import ModCatalog.Proofs.Store.Exactness

/-!
# What operations leave alone

Attaching a listing and finding or creating a mod write one record.  Its links and its coordinate
are those of mods before and the new ones, and the other mods keep theirs.
-/

namespace ModCatalog

theorem PlatformLink.ext_file {a b : PlatformLink} (hlisting : a.listing = b.listing)
    (hfile : a.fileId = b.fileId) : a = b := by
  obtain ⟨platform, project, file⟩ := a
  obtain ⟨otherPlatform, otherProject, otherFile⟩ := b
  simp_all [PlatformLink.listing]

theorem ModRecord.mem_links_withLink {record : ModRecord} {link other : PlatformLink}
    (h : other ∈ (record.withLink link).links) :
    other = link ∨ other ∈ record.links ∧ other.listing ≠ link.listing := by
  unfold withLink at h
  split at h
  · obtain ⟨old, hold, hother⟩ := List.mem_map.mp h
    by_cases hsame : old.sameProject link
    · rw [if_pos hsame] at hother
      subst hother
      exact Or.inl (PlatformLink.ext_file (PlatformLink.sameProject_iff.mp hsame) rfl)
    · rw [if_neg hsame] at hother
      subst hother
      exact Or.inr ⟨hold, fun heq => hsame (PlatformLink.sameProject_iff.mpr heq)⟩
  · next hnew =>
      rcases List.mem_append.mp h with hold | hsame
      · refine Or.inr ⟨hold, ?_⟩
        intro heq
        refine hnew (any_sameProject_iff.mpr ?_)
        rw [← heq]
        exact List.mem_map_of_mem hold
      · exact Or.inl (List.mem_singleton.mp hsame)

theorem ModRecord.listings_withLink (record : ModRecord) (link : PlatformLink) :
    (record.withLink link).listings =
      if link.listing ∈ record.listings then record.listings
      else record.listings ++ [link.listing] := by
  unfold withLink
  by_cases hlisted : link.listing ∈ record.listings
  · have hkeep : (fun old : PlatformLink =>
        (if old.sameProject link then { old with fileId := link.fileId } else old).listing) =
        PlatformLink.listing := by
      funext old
      split <;> rfl
    rw [if_pos hlisted, if_pos (any_sameProject_iff.mpr hlisted)]
    simp only [listings, List.map_map, Function.comp_def, hkeep]
  · rw [if_neg hlisted, if_neg fun hany => hlisted (any_sameProject_iff.mp hany)]
    simp [listings]

/-- A link that is put on a record does not repeat a project there. -/
theorem ModRecord.nodup_listings_withLink {record : ModRecord} (h : record.listings.Nodup)
    (link : PlatformLink) : (record.withLink link).listings.Nodup := by
  rw [listings_withLink]
  split
  · exact h
  · next hnew =>
      refine List.nodup_append.mpr ⟨h, by simp, ?_⟩
      intro listing hmem other hother heq
      rw [heq, List.mem_singleton.mp hother] at hmem
      exact hnew hmem

namespace Transaction

variable {store after : Store} {target old record : ModRecord} {link : PlatformLink} {id : Nat}

/-! ## What an attached record consists of -/

theorem links_takeLink {links : List PlatformLink}
    (h : (links.foldlM takeLink target).run store = .ok (record, after)) {other : PlatformLink}
    (hmem : other ∈ record.links) : other ∈ target.links ∨ other ∈ links := by
  induction links generalizing target store with
  | nil =>
      rw [List.foldlM_nil, run_pure_eq_ok] at h
      obtain ⟨rfl, rfl⟩ := h
      exact Or.inl hmem
  | cons first rest ih =>
      rw [List.foldlM_cons, run_bind_eq_ok] at h
      obtain ⟨taken, between, htaken, h⟩ := h
      rcases ih h with hbefore | hlater
      · rcases takeLink_spec htaken with ⟨_, rfl, _⟩ | ⟨_, rfl, _⟩
        · exact Or.inl hbefore
        · rcases ModRecord.mem_links_withLink hbefore with rfl | ⟨hold, _⟩
          · exact Or.inr List.mem_cons_self
          · exact Or.inl hold
      · exact Or.inr (List.mem_cons_of_mem _ hlater)

theorem nodup_takeLink {links : List PlatformLink}
    (h : (links.foldlM takeLink target).run store = .ok (record, after))
    (htarget : target.listings.Nodup) : record.listings.Nodup := by
  induction links generalizing target store with
  | nil =>
      rw [List.foldlM_nil, run_pure_eq_ok] at h
      obtain ⟨rfl, rfl⟩ := h
      exact htarget
  | cons first rest ih =>
      rw [List.foldlM_cons, run_bind_eq_ok] at h
      obtain ⟨taken, between, htaken, h⟩ := h
      refine ih h ?_
      rcases takeLink_spec htaken with ⟨_, rfl, _⟩ | ⟨_, rfl, _⟩
      · exact htarget
      · exact ModRecord.nodup_listings_withLink htarget first

theorem absorb_record (h : (absorb target old).run store = .ok (record, after)) :
    (∀ other ∈ record.links, other ∈ target.links ∨ other ∈ old.links) ∧
      record.coordinate = target.coordinate.or old.coordinate ∧
      (target.listings.Nodup → record.listings.Nodup) := by
  simp only [absorb, run_bind_eq_ok, run_forM_putHash_eq_ok, run_modify_eq_ok,
    run_pure_eq_ok] at h
  obtain ⟨_, _, ⟨_, rfl⟩, linked, taken, htaken, noted, handed, hnoted, _, _, rfl, rfl, rfl⟩ := h
  obtain ⟨hrecord, _⟩ := foldlM_setCoordinate_spec hnoted
  obtain ⟨hlinked, _⟩ := foldlM_takeLink_spec htaken
  have hdistinct := nodup_takeLink htaken
  rw [hrecord]
  refine ⟨fun other hmem => links_takeLink htaken hmem, ?_, hdistinct⟩
  rw [hlinked]

/-- The link is put on a record whose links and coordinate were those of mods before. -/
theorem attachPlatform_record {absorbed : Option Nat}
    (hkeyed : ∀ {id record}, store.mod? id = some record → record.id = id)
    (h : (attachPlatform id link).run store = .ok (absorbed, after)) :
    Store.checkWrite link.listing.key 0 = .ok () ∧
    ∃ base : ModRecord, after.mod? id = some (base.withLink link) ∧
      (∀ other ∈ base.links, ∃ source found, store.mod? source = some found ∧
        other ∈ found.links) ∧
      (∀ coordinate, base.coordinate = some coordinate →
        ∃ source found, store.mod? source = some found ∧ found.coordinate = some coordinate) ∧
      ∃ target, store.mod? id = some target ∧ (target.listings.Nodup → base.listings.Nodup) := by
  simp only [attachPlatform, run_bind_eq_ok, run_requireMod_eq_ok, run_get_eq_ok] at h
  obtain ⟨target, _, ⟨htarget, rfl⟩, _, _, ⟨rfl, rfl⟩, h⟩ := h
  have hid : target.id = id := hkeyed htarget
  cases hold : ((store.findByListing link.listing).filter (· ≠ id)).bind store.mod? with
  | none =>
      simp only [hold, run_bind_eq_ok, run_pure_eq_ok, run_setLink_eq_ok, run_writeMod_eq_ok] at h
      obtain ⟨_, _, ⟨rfl, rfl⟩, _, _, ⟨hkey, rfl, rfl⟩, _, _, rfl, rfl, rfl⟩ := h
      refine ⟨hkey, target, ?_, ?_, ?_, target, htarget, fun h => h⟩
      · unfold Store.mod?
        rw [Table.get?_put, ModRecord.withLink_id, hid, if_pos rfl]
      · exact fun other hmem => ⟨id, target, htarget, hmem⟩
      · exact fun coordinate hnoted => ⟨id, target, htarget, hnoted⟩
  | some old =>
      simp only [hold, run_bind_eq_ok, run_pure_eq_ok, run_setLink_eq_ok, run_writeMod_eq_ok] at h
      obtain ⟨merged, between, habsorb, _, _, ⟨hkey, rfl, rfl⟩, _, _, rfl, rfl, rfl⟩ := h
      obtain ⟨holder, _, holder'⟩ := Option.bind_eq_some_iff.mp hold
      obtain ⟨_, _, _, _, _, _, _, _, _, hmerged, _, _⟩ := absorb_spec habsorb
      obtain ⟨hlinks, hcoordinate, hdistinct⟩ := absorb_record habsorb
      refine ⟨hkey, merged, ?_, ?_, ?_, target, htarget, hdistinct⟩
      · unfold Store.mod?
        rw [Table.get?_put, ModRecord.withLink_id, hmerged, hid, if_pos rfl]
      · intro other hmem
        rcases hlinks other hmem with hmem | hmem
        · exact ⟨id, target, htarget, hmem⟩
        · exact ⟨holder, old, holder', hmem⟩
      · intro coordinate hnoted
        rw [hcoordinate] at hnoted
        rcases Option.or_eq_some_iff.mp hnoted with hown | ⟨_, hown⟩
        · exact ⟨id, target, htarget, hown⟩
        · exact ⟨holder, old, holder', hown⟩

end Transaction

namespace Store

variable {store after : Store} {link : PlatformLink} {id : Nat}

/-- In an exact store absorption moves files to the target and removes the rows of the mod that
goes, and every other mod keeps its record. -/
theorem Exact.attachPlatform_frame (hstore : store.Exact) {absorbed : Option Nat}
    (h : (Transaction.attachPlatform id link).run store = .ok (absorbed, after)) :
    (∀ {other record}, other ≠ id → after.mod? other = some record →
      store.mod? other = some record) ∧
    (∀ file, after.seenFiles.get? file = (store.seenFiles.get? file).map fun owner =>
      if absorbed = some owner then id else owner) ∧
    (∀ {other}, (after.rows.get? other).isSome →
      (store.rows.get? other).isSome ∧ absorbed ≠ some other) ∧
    (∀ {coordinate}, (after.coordinates.get? coordinate).isSome →
      (store.coordinates.get? coordinate).isSome ∨
        ∃ source found, store.mod? source = some found ∧ found.coordinate = some coordinate) ∧
    ∀ {coordinate}, (store.coordinates.get? coordinate).isSome →
      (after.coordinates.get? coordinate).isSome := by
  rcases Transaction.attachPlatform_spec hstore.keyed h with
    ⟨target, htarget, hholder, ⟨hnone, rfl⟩ | ⟨old, record, rfl, habsorbed⟩⟩
  · obtain rfl := hstore.holder_eq_none hholder hnone
    refine ⟨?_, ?_, fun hrows => ⟨hrows, nofun⟩, Or.inl, fun hleads => hleads⟩
    · intro other record hother hrecord
      unfold mod? at hrecord
      rwa [Table.get?_put, if_neg hother] at hrecord
    · intro file
      simp
  · obtain rfl : target.id = id := hstore.keyed htarget
    refine ⟨?_, ?_, ?_, ?_, ?_⟩
    · intro other found hother hfound
      rw [habsorbed.mods, if_neg hother] at hfound
      split at hfound
      · cases hfound
      · exact hfound
    · intro file
      rw [habsorbed.seenFiles]
      simp only [Option.some.injEq, eq_comm]
    · intro other hrows
      rw [habsorbed.rows] at hrows
      split at hrows
      · cases hrows
      · next hother => exact ⟨hrows, fun hsame => hother (Option.some.inj hsame).symm⟩
    · intro coordinate hleads
      rw [habsorbed.coordinates] at hleads
      split at hleads
      · next hnoted => exact Or.inr ⟨old.id, old, habsorbed.found_old, hnoted⟩
      · exact Or.inl hleads
    · intro coordinate hleads
      rw [habsorbed.coordinates]
      split
      · rfl
      · exact hleads

end Store

/-- What is left when the mod under a key was found or created: if it was there, nothing changes,
and else one record is new, with the listing or the coordinate that it was asked for. -/
structure Store.FoundUnder (store : Store) (key : LookupKey) (new : NewMod) (record : ModRecord)
    (middle : Store) : Prop where
  middle_exact : middle.Exact
  keeps : store.Keeps middle
  found : middle.mod? record.id = some record
  others {other : Nat} {found : ModRecord} : other ≠ record.id → middle.mod? other = some found →
    store.mod? other = some found
  /-- The links and the coordinate of the record were there, or they are the new ones. -/
  links {link : PlatformLink} : link ∈ record.links →
    key = .listing link.listing ∨ store.mod? record.id = some record
  noted {coordinate : String} : record.coordinate = some coordinate →
    (middle.coordinates.get? coordinate).isSome ∨ store.mod? record.id = some record
  hashes : middle.hashes = store.hashes
  seenFiles : middle.seenFiles = store.seenFiles
  rows : middle.rows = store.rows
  leads {listing : Listing} : key = .listing listing →
    middle.listings.get? listing = some record.id
  came {coordinate : String} : (middle.coordinates.get? coordinate).isSome →
    (store.coordinates.get? coordinate).isSome ∨ new.coordinate = some coordinate ∨
      key = .coordinate coordinate
  stay {coordinate : String} : (store.coordinates.get? coordinate).isSome →
    (middle.coordinates.get? coordinate).isSome
  led {coordinate : String} : key = .coordinate coordinate →
    ∃ id, middle.findByCoordinate coordinate = .ok (some id)

namespace Store

variable {store after : Store}

theorem checkWrite_of_linkPlatform {id : Nat} {link : PlatformLink} {value : PUnit}
    (h : (Transaction.linkPlatform id link).run store = .ok (value, after)) :
    checkWrite link.listing.key 0 = .ok () := by
  simp only [Transaction.linkPlatform, Transaction.run_bind_eq_ok,
    Transaction.run_setLink_eq_ok] at h
  obtain ⟨_, _, _, _, _, ⟨hkey, _⟩, _⟩ := h
  exact hkey

theorem checkRead_of_findByCoordinate {coordinate : String} {owner : Option Nat}
    (h : store.findByCoordinate coordinate = .ok owner) : checkRead coordinate = .ok () := by
  unfold findByCoordinate at h
  cases hread : checkRead coordinate with
  | error fault =>
      rw [hread] at h
      cases h
  | ok value => rfl

theorem isSome_coordinates_withNew (store : Store) (new : NewMod) (coordinate : String) :
    ((store.withNew new).coordinates.get? coordinate).isSome ↔
      (store.coordinates.get? coordinate).isSome ∨ new.coordinate = some coordinate := by
  unfold withNew
  cases new.coordinate with
  | none => simp
  | some own =>
      simp only [Option.toList_some, List.foldl_cons, List.foldl_nil, Table.get?_putNew,
        Option.some.injEq]
      by_cases hown : coordinate = own
      · subst hown
        cases store.coordinates.get? coordinate <;> simp
      · simp [hown, Ne.symm hown]

theorem isSome_coordinates_withNewUnder (store : Store) (new : NewMod) (key : LookupKey)
    (coordinate : String) :
    ((store.withNewUnder new key).coordinates.get? coordinate).isSome ↔
      (store.coordinates.get? coordinate).isSome ∨ new.coordinate = some coordinate ∨
        key = .coordinate coordinate := by
  have hnew := isSome_coordinates_withNew store new coordinate
  cases key with
  | listing listing =>
      rw [← or_assoc, ← hnew]
      simp [withNewUnder]
  | coordinate own =>
      rw [← or_assoc, ← hnew]
      unfold withNewUnder
      rw [Table.get?_put]
      by_cases hown : coordinate = own
      · simp [hown]
      · simp [hown, Ne.symm hown]

theorem Exact.foundUnder (hstore : store.Exact) {key : LookupKey} {new : NewMod}
    {record : ModRecord} {created : Bool}
    (h : (Transaction.findOrCreate key new).run store = .ok ((record, created), after)) :
    store.FoundUnder key new record after := by
  rcases Transaction.findOrCreate_spec h with ⟨id, hfind, hrecord, _, rfl⟩ | ⟨hfree, hrecord, _, rfl⟩
  · have hid : record.id = id := hstore.keyed hrecord
    subst hid
    refine ⟨hstore, .refl _, hrecord, fun _ hfound => hfound, fun _ => Or.inr hrecord,
      fun _ => Or.inr hrecord, rfl, rfl, rfl, ?_, Or.inl, fun hleads => hleads, ?_⟩
    · rintro listing rfl
      exact Except.ok.inj hfind
    · rintro coordinate rfl
      exact ⟨record.id, hfind⟩
  · have hid : record.id = store.nextId := by rw [hrecord, newUnder_id]
    have hmods := (hstore.toConsistent.wrote_withNewUnder new key).mods
    rw [← hrecord] at hmods
    have hcoordinates := isSome_coordinates_withNewUnder store new key
    constructor
    case middle_exact => exact hstore.withNewUnder hfree
    case keeps => exact keeps_withNewUnder hfree
    case found => rw [hmods, if_pos rfl]
    case others =>
        intro other found hother hfound
        rwa [hmods, if_neg hother] at hfound
    case links =>
        intro link hlink
        rw [hrecord] at hlink
        cases key with
        | coordinate own => cases hlink
        | listing own =>
            rcases ModRecord.mem_links_withLink hlink with rfl | ⟨hold, _⟩
            · exact Or.inl rfl
            · cases hold
    case noted =>
        intro coordinate hnoted
        refine Or.inl ((hcoordinates coordinate).mpr (Or.inr ?_))
        rw [hrecord] at hnoted
        cases key with
        | listing own =>
            exact Or.inl ((ModRecord.withLink_coordinate _ _).symm.trans hnoted)
        | coordinate own =>
            rcases Option.or_eq_some_iff.mp hnoted with hown | ⟨_, hown⟩
            · exact Or.inl hown
            · exact Or.inr (congrArg _ (Option.some.inj hown))
    case hashes => cases key <;> rfl
    case seenFiles => cases key <;> rfl
    case rows => cases key <;> rfl
    case leads =>
        rintro listing rfl
        rw [hid]
        exact (Table.get?_put _ _ _ _).trans (if_pos rfl)
    case came => exact fun hleads => (hcoordinates _).mp hleads
    case stay => exact fun hleads => (hcoordinates _).mpr (Or.inl hleads)
    case led =>
        rintro coordinate rfl
        obtain ⟨id, hid⟩ :=
          Option.isSome_iff_exists.mp ((hcoordinates coordinate).mpr (Or.inr (Or.inr rfl)))
        exact ⟨id, findByCoordinate_eq_some.mpr ⟨checkRead_of_findByCoordinate hfree, hid⟩⟩

end Store

end ModCatalog
