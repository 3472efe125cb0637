import ModCatalog.Proofs.Store.Consistency

/-!
# Exact stores

A consistent store is exact if also everything that a record names leads to the record.  Then a
content or a listing belongs to one mod only, and a change that takes no entry from a mod, or that
moves all entries of one mod at once, keeps together what was found on one mod.
-/

namespace ModCatalog

/-- Records and indexes of contents and listings say the same. -/
structure Store.Exact (store : Store) : Prop extends store.Consistent where
  hash_owner {id : Nat} {record : ModRecord} {hash : String} : store.mod? id = some record →
    hash ∈ record.hashes → store.hashes.get? hash = some id
  listing_owner {id : Nat} {record : ModRecord} {listing : Listing} :
    store.mod? id = some record → listing ∈ record.listings →
      store.listings.get? listing = some id

/-- Every content and listing that leads somewhere leads to the same mod in another store. -/
structure Store.Keeps (store after : Store) : Prop where
  hashes {hash : String} {id : Nat} : store.hashes.get? hash = some id →
    after.hashes.get? hash = some id
  listings {listing : Listing} {id : Nat} : store.listings.get? listing = some id →
    after.listings.get? listing = some id

/-- The contents and listings that lead to one mod lead to one mod in another store, though it may
be another one. -/
def Store.Carries (store after : Store) : Prop :=
  ∃ move : Nat → Nat,
    (∀ {hash id}, store.hashes.get? hash = some id → after.hashes.get? hash = some (move id)) ∧
    ∀ {listing id}, store.listings.get? listing = some id →
      after.listings.get? listing = some (move id)

namespace Store

variable {store after : Store} {record : ModRecord} {id : Nat}

/-! ## What stays together -/

theorem Keeps.refl (store : Store) : store.Keeps store := ⟨id, id⟩

theorem Keeps.carries (hkeeps : store.Keeps after) : store.Carries after :=
  ⟨fun id => id, hkeeps.hashes, hkeeps.listings⟩

theorem Carries.refl (store : Store) : store.Carries store := (Keeps.refl store).carries

theorem Carries.trans {last : Store} (hfirst : store.Carries after) (hnext : after.Carries last) :
    store.Carries last := by
  obtain ⟨first, hhashes, hlistings⟩ := hfirst
  obtain ⟨next, hhashesNext, hlistingsNext⟩ := hnext
  exact ⟨fun id => next (first id), fun h => hhashesNext (hhashes h),
    fun h => hlistingsNext (hlistings h)⟩

/-! ## Writing a record -/

theorem Exact.empty : Store.empty.Exact :=
  ⟨Consistent.empty, nofun, nofun⟩

/-- Writing a record takes nothing from other mods, so what they name still leads to them. -/
theorem Wrote.exact (hwrote : store.Wrote record after) (hkeeps : store.Keeps after)
    (hstore : store.Exact)
    (hhashes : ∀ hash ∈ record.hashes, after.hashes.get? hash = some record.id)
    (hlistings : ∀ listing ∈ record.listings, after.listings.get? listing = some record.id) :
    after.Exact := by
  refine ⟨hwrote.consistent hstore.toConsistent, ?_, ?_⟩
  · intro id found hash hfound hmem
    rw [hwrote.mods] at hfound
    split at hfound
    · next hid =>
        cases hfound
        rw [hid]
        exact hhashes hash hmem
    · exact hkeeps.hashes (hstore.hash_owner hfound hmem)
  · intro id found listing hfound hmem
    rw [hwrote.mods] at hfound
    split at hfound
    · next hid =>
        cases hfound
        rw [hid]
        exact hlistings listing hmem
    · exact hkeeps.listings (hstore.listing_owner hfound hmem)

theorem Exact.kept (hstore : store.Exact) (seenFiles : Table FileKey Nat)
    (rows : Table Nat Rows) : Exact { store with seenFiles := seenFiles, rows := rows } :=
  ⟨(Effect.kept seenFiles rows rfl).consistent hstore.toConsistent, hstore.hash_owner,
    hstore.listing_owner⟩

theorem keeps_withNewUnder {new : NewMod} {key : LookupKey}
    (hfind : store.find key = .ok none) : store.Keeps (store.withNewUnder new key) := by
  cases key with
  | coordinate coordinate => exact ⟨id, id⟩
  | listing listing =>
      refine ⟨id, ?_⟩
      intro other owner hleads
      have hfree : store.listings.get? listing = none := Except.ok.inj hfind
      have hne : other ≠ listing := by
        intro heq
        subst heq
        cases hfree.symm.trans hleads
      unfold withNewUnder
      exact (Table.get?_put _ _ _ _).trans ((if_neg hne).trans hleads)

theorem Exact.withNewUnder (hstore : store.Exact) {new : NewMod} {key : LookupKey}
    (hfind : store.find key = .ok none) : (store.withNewUnder new key).Exact := by
  refine (hstore.toConsistent.wrote_withNewUnder new key).exact (keeps_withNewUnder hfind) hstore
    ?_ ?_
  · intro hash hmem
    have hnone : (newUnder store.nextId new key).hashes = [] := by
      cases key with
      | coordinate coordinate => rfl
      | listing listing => exact ModRecord.withLink_hashes _ _
    rw [hnone] at hmem
    cases hmem
  · intro listing hmem
    rw [newUnder_id]
    cases key with
    | coordinate coordinate => cases hmem
    | listing own =>
        rcases ModRecord.mem_listings_withLink.mp hmem with heq | hbefore
        · rw [heq]
          exact (Table.get?_put _ _ _ _).trans (if_pos rfl)
        · cases hbefore

section Existing

variable (hstore : store.Exact) (hrecord : store.mod? id = some record)

include hstore hrecord

/-- The listing is free or leads to the mod already. -/
theorem Exact.withLink {link : PlatformLink}
    (hfree : ∀ owner, store.listings.get? link.listing = some owner → owner = id) :
    let after := { store with
      listings := store.listings.put link.listing id
      mods := store.mods.put id (record.withLink link) }
    after.Exact ∧ store.Keeps after := by
  intro after
  have hanswers : ∀ listing, after.listings.get? listing =
      if listing = link.listing then some id else store.listings.get? listing :=
    fun listing => Table.get?_put _ _ _ _
  have hkeeps : store.Keeps after := by
    refine ⟨fun h => h, ?_⟩
    intro listing owner hleads
    rw [hanswers]
    split
    · next heq =>
        rw [heq] at hleads
        rw [hfree owner hleads]
    · exact hleads
  have hid : (record.withLink link).id = id := by
    rw [ModRecord.withLink_id, hstore.keyed hrecord]
  refine ⟨?_, hkeeps⟩
  refine (hstore.toConsistent.wrote_withLink hrecord link).exact hkeeps hstore ?_ ?_
  · intro hash hmem
    rw [ModRecord.withLink_hashes] at hmem
    rw [hid]
    exact hstore.hash_owner hrecord hmem
  · intro listing hmem
    rw [hid]
    rcases ModRecord.mem_listings_withLink.mp hmem with rfl | hbefore
    · rw [hanswers, if_pos rfl]
    · exact hkeeps.listings (hstore.listing_owner hrecord hbefore)

theorem Exact.withCoordinate (coordinate : String) :
    let after := { store with
      coordinates := store.coordinates.put coordinate id
      mods := store.mods.put id (record.withCoordinate coordinate) }
    after.Exact := by
  intro after
  have hid : (record.withCoordinate coordinate).id = id := by
    change record.id = id
    exact hstore.keyed hrecord
  refine (hstore.toConsistent.wrote_withCoordinate hrecord coordinate).exact
    ⟨fun h => h, fun h => h⟩ hstore ?_ ?_
  · intro hash hmem
    rw [hid]
    exact hstore.hash_owner hrecord hmem
  · intro listing hmem
    rw [hid]
    exact hstore.listing_owner hrecord hmem

/-- The content of the batch is free or leads to the mod already. -/
theorem Exact.described {batch : TrackBatch} (rows : Rows)
    (hfree : ∀ hash ∈ batch.knownHash, ∀ owner, store.hashes.get? hash = some owner → owner = id) :
    let after := { store.putRows id rows with
      hashes := batch.knownHash.toList.foldl (fun table hash => table.put hash id) store.hashes
      mods := store.mods.put id (Transaction.described record batch) }
    after.Exact ∧ store.Keeps after := by
  intro after
  have hanswers : ∀ hash, after.hashes.get? hash =
      if hash ∈ batch.knownHash.toList then some id else store.hashes.get? hash :=
    fun hash => Table.get?_foldl_put _ _ _ _
  have hkeeps : store.Keeps after := by
    refine ⟨?_, fun h => h⟩
    intro hash owner hleads
    rw [hanswers]
    split
    · next hmem => rw [hfree hash (Option.mem_toList.mp hmem) owner hleads]
    · exact hleads
  have hid : (Transaction.described record batch).id = id := by
    rw [Transaction.described_id, hstore.keyed hrecord]
  refine ⟨?_, hkeeps⟩
  refine (hstore.toConsistent.wrote_described hrecord batch rows).exact hkeeps hstore ?_ ?_
  · intro hash hmem
    rw [hid]
    rcases Transaction.mem_hashes_described.mp hmem with hbefore | hnew
    · exact hkeeps.hashes (hstore.hash_owner hrecord hbefore)
    · rw [hanswers, if_pos (Option.mem_toList.mpr hnew)]
  · intro listing hmem
    rw [Transaction.described_listings] at hmem
    rw [hid]
    exact hstore.listing_owner hrecord hmem

end Existing

/-! ## Absorbing a mod -/

section Absorption

variable {target old : ModRecord} {link : PlatformLink}

/-- Everything that led to the mod that goes leads to the one that absorbs it, and nothing else
moves. -/
theorem Exact.moves_absorbed (hstore : store.Exact)
    (habsorbed : store.Absorbed target old record link after)
    (hheld : store.listings.get? link.listing = some old.id) :
    (∀ {hash owner}, store.hashes.get? hash = some owner →
      after.hashes.get? hash = some (if owner = old.id then target.id else owner)) ∧
    ∀ {listing owner}, store.listings.get? listing = some owner →
      after.listings.get? listing = some (if owner = old.id then target.id else owner) := by
  constructor
  · intro hash owner hleads
    rw [habsorbed.hashes]
    obtain ⟨found, hfound, hmem⟩ := hstore.hashes hleads
    by_cases howner : owner = old.id
    · subst howner
      cases habsorbed.found_old.symm.trans hfound
      rw [if_pos hmem, if_pos rfl]
    · have hnot : hash ∉ old.hashes := by
        intro hnamed
        have hold := hstore.hash_owner habsorbed.found_old hnamed
        exact howner (Option.some.inj (hleads.symm.trans hold))
      rw [if_neg hnot, if_neg howner, hleads]
  · intro listing owner hleads
    rw [habsorbed.listings]
    obtain ⟨found, hfound, hmem⟩ := hstore.listings hleads
    by_cases howner : owner = old.id
    · subst howner
      cases habsorbed.found_old.symm.trans hfound
      have hnew : listing ∉ target.listings := by
        intro hboth
        have htarget := hstore.listing_owner habsorbed.found_target hboth
        exact habsorbed.distinct (Option.some.inj (htarget.symm.trans hleads))
      rw [if_pos (Or.inr ⟨hmem, hnew⟩), if_pos rfl]
    · have hne : listing ≠ link.listing := by
        intro heq
        subst heq
        exact howner (Option.some.inj (hleads.symm.trans hheld))
      have hnot : listing ∉ old.listings := by
        intro hnamed
        have hold := hstore.listing_owner habsorbed.found_old hnamed
        exact howner (Option.some.inj (hleads.symm.trans hold))
      have hstays : ¬ (listing = link.listing ∨
          listing ∈ old.listings ∧ listing ∉ target.listings) := by
        intro h
        rcases h with heq | ⟨hnamed, _⟩
        · exact hne heq
        · exact hnot hnamed
      rw [if_neg hstays, if_neg fun hnamed => hnot hnamed.1, if_neg howner, hleads]

theorem Exact.absorbed (hstore : store.Exact)
    (habsorbed : store.Absorbed target old record link after)
    (hheld : store.listings.get? link.listing = some old.id) : after.Exact := by
  obtain ⟨hhashes, hlistings⟩ := hstore.moves_absorbed habsorbed hheld
  refine ⟨habsorbed.consistent hstore.toConsistent, ?_, ?_⟩
  · intro id found hash hfound hmem
    rw [habsorbed.mods] at hfound
    split at hfound
    · next hid =>
        cases hfound
        rcases habsorbed.mem_hashes.mp hmem with htarget | hold
        · rw [hhashes (hstore.hash_owner habsorbed.found_target htarget),
            if_neg habsorbed.distinct, hid]
        · rw [hhashes (hstore.hash_owner habsorbed.found_old hold), if_pos rfl, hid]
    · split at hfound
      · cases hfound
      · next hne => rw [hhashes (hstore.hash_owner hfound hmem), if_neg hne]
  · intro id found listing hfound hmem
    rw [habsorbed.mods] at hfound
    split at hfound
    · next hid =>
        cases hfound
        rcases habsorbed.mem_listings.mp hmem with rfl | htarget | hold
        · rw [hlistings hheld, if_pos rfl, hid]
        · rw [hlistings (hstore.listing_owner habsorbed.found_target htarget),
            if_neg habsorbed.distinct, hid]
        · rw [hlistings (hstore.listing_owner habsorbed.found_old hold), if_pos rfl, hid]
    · split at hfound
      · cases hfound
      · next hne => rw [hlistings (hstore.listing_owner hfound hmem), if_neg hne]

end Absorption

/-- In an exact store a listing that leads anywhere leads to a mod. -/
theorem Exact.holder_eq_none (hstore : store.Exact) {listing : Listing} {holder : Option Nat}
    (hholder : holder = (store.findByListing listing).filter (· ≠ id))
    (hnone : holder.bind store.mod? = none) : holder = none := by
  cases holder with
  | none => rfl
  | some owner =>
      obtain ⟨hleads, _⟩ := Option.filter_eq_some_iff.mp hholder.symm
      obtain ⟨found, hfound, _⟩ := hstore.listings hleads
      exact absurd (hnone.symm.trans hfound) nofun

/-- In an exact store a listing leads to a mod, so what attaching it answers is what it absorbs. -/
theorem Exact.attachPlatform_spec (hstore : store.Exact) {link : PlatformLink}
    {absorbed : Option Nat}
    (h : (Transaction.attachPlatform id link).run store = .ok (absorbed, after)) :
    after.Exact ∧ after.findByListing link.listing = some id ∧ absorbed ≠ some id ∧
    (∀ {hash owner}, store.hashes.get? hash = some owner →
      after.hashes.get? hash = some (if absorbed = some owner then id else owner)) ∧
    ∀ {listing owner}, store.listings.get? listing = some owner →
      after.listings.get? listing = some (if absorbed = some owner then id else owner) := by
  rcases Transaction.attachPlatform_spec hstore.keyed h with
    ⟨target, htarget, hholder, ⟨hnone, rfl⟩ | ⟨old, record, rfl, habsorbed⟩⟩
  · obtain rfl := hstore.holder_eq_none hholder hnone
    have hfree : ∀ owner, store.listings.get? link.listing = some owner → owner = id := by
      intro owner hleads
      have hfilter := Option.filter_eq_none_iff.mp hholder.symm owner hleads
      simpa using hfilter
    obtain ⟨hexact, hkeeps⟩ := hstore.withLink htarget hfree
    refine ⟨hexact, ?_, nofun, hkeeps.hashes, hkeeps.listings⟩
    exact (Table.get?_put _ _ _ _).trans (if_pos rfl)
  · obtain ⟨hheld, hother⟩ := Option.filter_eq_some_iff.mp hholder.symm
    obtain rfl : target.id = id := hstore.keyed htarget
    obtain ⟨hhashes, hlistings⟩ := hstore.moves_absorbed habsorbed hheld
    refine ⟨hstore.absorbed habsorbed hheld, ?_, ?_, ?_, ?_⟩
    · exact (habsorbed.listings link.listing).trans (if_pos (Or.inl rfl))
    · intro hsame
      exact habsorbed.distinct (Option.some.inj hsame).symm
    · intro hash owner hleads
      rw [hhashes hleads]
      simp only [Option.some.injEq, eq_comm]
    · intro listing owner hleads
      rw [hlistings hleads]
      simp only [Option.some.injEq, eq_comm]

end Store

end ModCatalog
