import ModCatalog.Proofs.Store.History

/-!
# What absorption moves

Attaching a listing to a mod lets it absorb the mod that had the listing.  What moves is read off
the record of the mod that goes, not off the indexes.  So an entry that the record names but that
leads to a third mod is taken from that mod, and an entry that leads to the mod that goes but is
not named, or is listed by both mods, does not arrive.
-/

namespace ModCatalog.Store

variable {store after : Store} {target old record : ModRecord} {link : PlatformLink} {id : Nat}

/-! ## Entries of a third mod -/

/-- A listing is attached to `id`, and nothing is absorbed. -/
theorem findByListing_attached {listing : Listing} (hlisting : listing ≠ link.listing)
    (hafter : after = { store with
      listings := store.listings.put link.listing id
      mods := store.mods.put id record }) :
    after.findByListing listing = store.findByListing listing := by
  subst hafter
  unfold findByListing
  rw [Table.get?_put, if_neg hlisting]

theorem Absorbed.findByHash_third (habsorbed : store.Absorbed target old record link after)
    {hash : String} {third : Nat} (hthird : third ≠ target.id)
    (hleads : store.findByHash hash = .ok (some third)) :
    after.findByHash hash = .ok (some third) ↔ hash ∉ old.hashes := by
  obtain ⟨hkey, hentry⟩ := findByHash_eq_some.mp hleads
  rw [findByHash_eq_some, habsorbed.hashes]
  split
  · next hnamed =>
      constructor
      · intro h
        obtain ⟨_, hsame⟩ := h
        exact absurd (Option.some.inj hsame).symm hthird
      · exact fun hnot => absurd hnamed hnot
  · next hnamed => exact ⟨fun _ => hnamed, fun _ => ⟨hkey, hentry⟩⟩

theorem Absorbed.findByCoordinate_third (habsorbed : store.Absorbed target old record link after)
    {coordinate : String} {third : Nat} (hthird : third ≠ target.id)
    (hleads : store.findByCoordinate coordinate = .ok (some third)) :
    after.findByCoordinate coordinate = .ok (some third) ↔
      old.coordinate ≠ some coordinate := by
  obtain ⟨hkey, hentry⟩ := findByCoordinate_eq_some.mp hleads
  rw [findByCoordinate_eq_some, habsorbed.coordinates]
  split
  · next hnoted =>
      constructor
      · intro h
        obtain ⟨_, hsame⟩ := h
        exact absurd (Option.some.inj hsame).symm hthird
      · exact fun hnot => absurd hnoted hnot
  · next hnoted => exact ⟨fun _ => hnoted, fun _ => ⟨hkey, hentry⟩⟩

theorem Absorbed.findByListing_third (habsorbed : store.Absorbed target old record link after)
    {listing : Listing} {third : Nat} (hlisting : listing ≠ link.listing)
    (hthird : third ≠ target.id) (hother : third ≠ old.id)
    (hleads : store.findByListing listing = some third) :
    after.findByListing listing = some third ↔
      (listing ∈ old.listings → listing ∈ target.listings) := by
  unfold findByListing at hleads ⊢
  rw [habsorbed.listings]
  split
  · next hhanded =>
      rcases hhanded with heq | ⟨hmem, hnew⟩
      · exact absurd heq hlisting
      · constructor
        · intro hsame
          exact absurd (Option.some.inj hsame).symm hthird
        · exact fun hkept => absurd (hkept hmem) hnew
  · next hhanded =>
      have hkept : listing ∈ old.listings → listing ∈ target.listings := by
        intro hmem
        by_cases hnew : listing ∈ target.listings
        · exact hnew
        · exact absurd (Or.inr ⟨hmem, hnew⟩) hhanded
      rw [if_neg]
      · exact ⟨fun _ => hkept, fun _ => hleads⟩
      · intro h
        obtain ⟨_, hold⟩ := h
        exact hother (Option.some.inj (hleads.symm.trans hold))

theorem Absorbed.mod?_third (habsorbed : store.Absorbed target old record link after)
    {third : Nat} (hthird : third ≠ target.id) (hother : third ≠ old.id) :
    after.mod? third = store.mod? third := by
  rw [habsorbed.mods, if_neg hthird, if_neg hother]

theorem Absorbed.rowsOf_third (habsorbed : store.Absorbed target old record link after)
    {third : Nat} (hother : third ≠ old.id) : after.rowsOf third = store.rowsOf third := by
  unfold rowsOf
  rw [habsorbed.rows, if_neg hother]

/-! ## Entries of the mod that goes -/

theorem Absorbed.findByHash_old (habsorbed : store.Absorbed target old record link after)
    (hstore : store.Consistent) {hash : String}
    (hleads : store.findByHash hash = .ok (some old.id)) :
    after.findByHash hash = .ok (some target.id) := by
  obtain ⟨hkey, hentry⟩ := findByHash_eq_some.mp hleads
  obtain ⟨found, hfound, hmem⟩ := hstore.hashes hentry
  cases habsorbed.found_old.symm.trans hfound
  rw [findByHash_eq_some, habsorbed.hashes, if_pos hmem]
  exact ⟨hkey, rfl⟩

theorem Absorbed.findByCoordinate_old (habsorbed : store.Absorbed target old record link after)
    {coordinate : String} (hleads : store.findByCoordinate coordinate = .ok (some old.id)) :
    after.findByCoordinate coordinate =
      .ok (some (if old.coordinate = some coordinate then target.id else old.id)) := by
  obtain ⟨hkey, hentry⟩ := findByCoordinate_eq_some.mp hleads
  rw [findByCoordinate_eq_some, habsorbed.coordinates]
  split
  · exact ⟨hkey, rfl⟩
  · exact ⟨hkey, hentry⟩

theorem Absorbed.findByListing_old (habsorbed : store.Absorbed target old record link after)
    (hstore : store.Consistent) {listing : Listing}
    (hleads : store.findByListing listing = some old.id) :
    after.findByListing listing =
      if listing = link.listing ∨ listing ∉ target.listings then some target.id else none := by
  unfold findByListing at hleads ⊢
  obtain ⟨found, hfound, hmem⟩ := hstore.listings hleads
  cases habsorbed.found_old.symm.trans hfound
  rw [habsorbed.listings]
  simp only [hmem, hleads, true_and, and_self, if_true]

theorem Absorbed.seenFileOwner_eq (habsorbed : store.Absorbed target old record link after)
    {file : FileKey} {owner : Nat} (howner : store.seenFileOwner file = some owner) :
    after.seenFileOwner file = some (if owner = old.id then target.id else owner) := by
  unfold seenFileOwner at howner ⊢
  rw [habsorbed.seenFiles, howner, Option.map_some]

/-! ## Attaching a listing -/

/-- An entry of a third mod stays unless the record of the absorbed mod names it; what the mod is
and which files belong to it never change. -/
theorem attachPlatform_third_iff {absorbed : Option Nat} {third : Nat}
    (hreachable : store.Reachable)
    (hattach : (Transaction.attachPlatform id link).commit store = (.ok absorbed, after))
    (hthird : third ≠ id) (hother : absorbed ≠ some third) :
    (∀ hash, store.findByHash hash = .ok (some third) →
      (after.findByHash hash = .ok (some third) ↔
        ∀ old ∈ absorbed.bind store.mod?, hash ∉ old.hashes)) ∧
    (∀ coordinate, store.findByCoordinate coordinate = .ok (some third) →
      (after.findByCoordinate coordinate = .ok (some third) ↔
        ∀ old ∈ absorbed.bind store.mod?, old.coordinate ≠ some coordinate)) ∧
    (∀ listing ≠ link.listing, store.findByListing listing = some third →
      (after.findByListing listing = some third ↔
        ∀ old ∈ absorbed.bind store.mod?, ∀ target ∈ store.mod? id,
          listing ∈ old.listings → listing ∈ target.listings)) ∧
    (∀ file, store.seenFileOwner file = some third → after.seenFileOwner file = some third) ∧
    after.mod? third = store.mod? third ∧ after.rowsOf third = store.rowsOf third := by
  have hstore := hreachable.consistent
  rcases Transaction.attachPlatform_spec hstore.keyed (Transaction.commit_eq_ok.mp hattach) with
    ⟨target, htarget, _, ⟨hnone, hafter⟩ | ⟨old, record, hold, habsorbed⟩⟩
  · have hmods : after.mod? third = store.mod? third := by
      rw [hafter]
      exact (Table.get?_put store.mods id third _).trans (if_neg hthird)
    simp only [hnone, Option.not_mem_none, false_implies, implies_true, iff_true]
    refine ⟨?_, ?_, ?_, ?_, hmods, ?_⟩
    · intro hash hleads
      rwa [hafter]
    · intro coordinate hleads
      rwa [hafter]
    · intro listing hlisting hleads
      rwa [findByListing_attached hlisting hafter]
    · intro file howner
      rwa [hafter]
    · rw [hafter]
      rfl
  · have htargetId : target.id = id := hstore.keyed htarget
    have hne : third ≠ target.id := by rwa [htargetId]
    have hneOld : third ≠ old.id := by
      intro heq
      subst heq
      exact hother hold
    have hfound : absorbed.bind store.mod? = some old := by
      rw [hold]
      exact habsorbed.found_old
    simp only [hfound, htarget, Option.mem_some_iff, forall_eq']
    refine ⟨?_, ?_, ?_, ?_, habsorbed.mod?_third hne hneOld, habsorbed.rowsOf_third hneOld⟩
    · exact fun hash hleads => habsorbed.findByHash_third hne hleads
    · exact fun coordinate hleads => habsorbed.findByCoordinate_third hne hleads
    · exact fun listing hlisting hleads =>
        habsorbed.findByListing_third hlisting hne hneOld hleads
    · intro file howner
      rw [habsorbed.seenFileOwner_eq howner, if_neg hneOld]

/-- Two mods with one content, which leads to the second, a listing of the first, and a third mod. -/
def contested : List Change :=
  let content : TrackBatch := ⟨false, .empty, some "h", none, 0⟩
  [.createMod ⟨"", "", none, []⟩, .createMod ⟨"", "", none, []⟩, .createMod ⟨"", "", none, []⟩,
    .track 1 content, .track 2 content, .linkPlatform 1 ⟨"local", 7, 70⟩]

/-- The third mod absorbs the first: the second keeps its record and its rows. -/
theorem attachPlatform_third_contested :
    let store := empty.afterAll contested
    let after := store.after (.attachPlatform 3 ⟨"local", 7, 71⟩)
    (Transaction.attachPlatform 3 ⟨"local", 7, 71⟩).commit store = (.ok (some 1), after) ∧
      (after.findByHash "h" = .ok (some 2) ↔ ∀ old ∈ store.mod? 1, "h" ∉ old.hashes) ∧
      after.mod? 2 = store.mod? 2 ∧ after.rowsOf 2 = store.rowsOf 2 := by
  have hthird := attachPlatform_third_iff ⟨contested, rfl⟩
    (rfl : (Transaction.attachPlatform 3 ⟨"local", 7, 71⟩).commit (empty.afterAll contested) =
      (.ok (some 1), (empty.afterAll contested).after (.attachPlatform 3 ⟨"local", 7, 71⟩)))
    (by decide : 2 ≠ 3) (by decide)
  obtain ⟨hhash, _, _, _, hmod, hrows⟩ := hthird
  exact ⟨rfl, hhash "h" rfl, hmod, hrows⟩

theorem content_of_second_mod_taken :
    let store := empty.afterAll contested
    let after := store.after (.attachPlatform 3 ⟨"local", 7, 71⟩)
    (Transaction.attachPlatform 3 ⟨"local", 7, 71⟩).commit store = (.ok (some 1), after) ∧
      store.findByHash "h" = .ok (some 2) ∧ after.findByHash "h" = .ok (some 3) :=
  ⟨rfl, rfl, rfl⟩

/-- All contents and files of the absorbed mod arrive at the one that absorbs it.  A coordinate
arrives if the record notes it and stays behind otherwise; a listing that both mods have leads
nowhere unless it is the one attached. -/
theorem attachPlatform_transfers_iff {absorbed : Nat} (hreachable : store.Reachable)
    (hattach : (Transaction.attachPlatform id link).commit store = (.ok (some absorbed), after)) :
    ∃ target old, store.mod? id = some target ∧ store.mod? absorbed = some old ∧
      after.mod? absorbed = none ∧
      (∀ hash, store.findByHash hash = .ok (some absorbed) →
        after.findByHash hash = .ok (some id)) ∧
      (∀ coordinate, store.findByCoordinate coordinate = .ok (some absorbed) →
        after.findByCoordinate coordinate =
          .ok (some (if old.coordinate = some coordinate then id else absorbed))) ∧
      (∀ listing, store.findByListing listing = some absorbed →
        after.findByListing listing =
          if listing = link.listing ∨ listing ∉ target.listings then some id else none) ∧
      (∀ file, store.seenFileOwner file = some absorbed →
        after.seenFileOwner file = some id) := by
  have hstore := hreachable.consistent
  rcases Transaction.attachPlatform_spec hstore.keyed (Transaction.commit_eq_ok.mp hattach) with
    ⟨target, htarget, hholder, ⟨hnone, _⟩ | ⟨old, record, hold, habsorbed⟩⟩
  · -- a listing never leads to a mod that is gone
    obtain ⟨hleads, _⟩ := Option.filter_eq_some_iff.mp hholder.symm
    obtain ⟨old, hold, _⟩ := hstore.listings hleads
    exact absurd (hnone.symm.trans hold) nofun
  · obtain rfl : target.id = id := hstore.keyed htarget
    obtain rfl : absorbed = old.id := Option.some.inj hold
    refine ⟨target, old, htarget, habsorbed.found_old, habsorbed.mod?_old, ?_, ?_, ?_, ?_⟩
    · exact fun hash hleads => habsorbed.findByHash_old hstore hleads
    · exact fun coordinate hleads => habsorbed.findByCoordinate_old hleads
    · exact fun listing hleads => habsorbed.findByListing_old hstore hleads
    · intro file howner
      rw [habsorbed.seenFileOwner_eq howner, if_pos rfl]

/-- Two mods that both list a project, which leads to the second; the second has two coordinates
and another listing. -/
def overlapping : List Change :=
  [.createMod ⟨"", "", none, []⟩, .createMod ⟨"", "", some "org.x:lib", []⟩,
    .linkCoordinate 2 "fabric-lib", .linkPlatform 1 ⟨"local", 5, 50⟩,
    .linkPlatform 2 ⟨"local", 5, 51⟩, .linkPlatform 2 ⟨"local", 6, 60⟩]

/-- The first mod absorbs the second and gets the coordinate that its record notes. -/
theorem attachPlatform_transfers_overlapping :
    let store := empty.afterAll overlapping
    let after := store.after (.attachPlatform 1 ⟨"local", 6, 61⟩)
    (Transaction.attachPlatform 1 ⟨"local", 6, 61⟩).commit store = (.ok (some 2), after) ∧
      after.mod? 2 = none ∧ after.findByCoordinate "org.x:lib" = .ok (some 1) := by
  obtain ⟨target, old, _, hold, hgone, _, hcoordinates, _, _⟩ :=
    attachPlatform_transfers_iff ⟨overlapping, rfl⟩
      (rfl : (Transaction.attachPlatform 1 ⟨"local", 6, 61⟩).commit (empty.afterAll overlapping) =
        (.ok (some 2), (empty.afterAll overlapping).after (.attachPlatform 1 ⟨"local", 6, 61⟩)))
  have hnoted : old.coordinate = some "org.x:lib" := by
    cases hold
    rfl
  have hmoved := hcoordinates "org.x:lib" rfl
  rw [if_pos hnoted] at hmoved
  exact ⟨rfl, hgone, hmoved⟩

/-- The project that both mods list leads nowhere afterwards, and the second coordinate leads to
the mod that is gone. -/
theorem shared_listing_lost :
    let store := empty.afterAll overlapping
    let after := store.after (.attachPlatform 1 ⟨"local", 6, 61⟩)
    (Transaction.attachPlatform 1 ⟨"local", 6, 61⟩).commit store = (.ok (some 2), after) ∧
      (store.findByListing ⟨"local", 5⟩ = some 2 ∧ after.findByListing ⟨"local", 5⟩ = none) ∧
      store.findByCoordinate "fabric-lib" = .ok (some 2) ∧
      after.findByCoordinate "fabric-lib" = .ok (some 2) :=
  ⟨rfl, ⟨rfl, rfl⟩, rfl, rfl⟩

end ModCatalog.Store
