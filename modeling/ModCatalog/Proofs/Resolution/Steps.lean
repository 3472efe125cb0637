import ModCatalog.Proofs.Resolution.Coherence

/-!
# What resolution does

What each step of resolution does to contents and listings, down to what its answer to a candidate
says of the store.
-/

namespace ModCatalog

/-- Whether contents and listings lead where they did. -/
structure Store.SameOwners (store after : Store) : Prop where
  hashes : after.hashes = store.hashes
  listings : after.listings = store.listings

namespace Store.SameOwners

variable {store after : Store}

theorem refl (store : Store) : store.SameOwners store := ⟨rfl, rfl⟩

theorem trans {last : Store} (hfirst : store.SameOwners after) (hnext : after.SameOwners last) :
    store.SameOwners last :=
  ⟨hnext.hashes.trans hfirst.hashes, hnext.listings.trans hfirst.listings⟩

theorem keeps (hsame : store.SameOwners after) : store.Keeps after := by
  refine ⟨?_, ?_⟩
  · intro hash id hleads
    rwa [hsame.hashes]
  · intro listing id hleads
    rwa [hsame.listings]

theorem findByHash_eq (hsame : store.SameOwners after) (hash : String) :
    after.findByHash hash = store.findByHash hash := by
  unfold Store.findByHash
  rw [hsame.hashes]

theorem findByListing_eq (hsame : store.SameOwners after) (listing : Listing) :
    after.findByListing listing = store.findByListing listing := by
  unfold Store.findByListing
  rw [hsame.listings]

end Store.SameOwners

namespace Resolving

variable {catalog : Catalog}

/-! ## Single steps -/

theorem ensures_knownHash (hash : String) :
    Ensures (knownHash hash) catalog fun owner after =>
      after.store = catalog.store ∧ catalog.store.findByHash hash = .ok owner := by
  refine ensures_get_bind ?_
  cases hremembered : catalog.identities.get? hash with
  | some id =>
      refine .of_coherent fun hcatalog => ?_
      exact ensures_pure ⟨rfl, hcatalog.remembered hremembered⟩
  | none =>
      refine ensures_ask_bind fun owner hfound => ?_
      cases owner with
      | none => exact ensures_pure ⟨rfl, hfound⟩
      | some id =>
          have hremember : Ensures (updateIdentities (·.remember hash id)) catalog
              fun _ after => after.store = catalog.store := ensures_remember hfound rfl
          exact hremember.bind fun _ after hsame => ensures_pure ⟨hsame, hfound⟩

theorem ensures_linkCoordinate (id : Nat) (coordinate : Option String) :
    Ensures (linkCoordinate id coordinate) catalog fun _ after =>
      catalog.store.SameOwners after.store := by
  cases coordinate with
  | none => exact ensures_pure (.refl _)
  | some coordinate =>
      refine ensures_ask_bind fun owner _ => ?_
      cases owner with
      | some id => exact ensures_pure (.refl _)
      | none =>
          refine ensures_transact fun hcatalog value after hrun => ?_
          obtain ⟨record, hrecord, rfl⟩ := Transaction.linkCoordinate_spec hrun
          have hstore := hcatalog.store_exact
          rw [hstore.keyed hrecord]
          exact ⟨hstore.withCoordinate hrecord coordinate, ⟨fun h => h, fun h => h⟩, rfl, rfl⟩

theorem ensures_markFileSeen (link : PlatformLink) (id : Nat) :
    Ensures (transact (.markFileSeen link id)) catalog fun _ after =>
      catalog.store.SameOwners after.store := by
  refine ensures_transact fun hcatalog value after hrun => ?_
  obtain ⟨_, rfl⟩ := Transaction.run_putFileOwner_eq_ok.mp hrun
  exact ⟨hcatalog.store_exact.kept _ catalog.store.rows, ⟨fun h => h, fun h => h⟩, rfl, rfl⟩

/-- What is remembered of an absorbed mod must be forgotten before the catalog is coherent again,
so the transaction and what follows it are one step. -/
theorem ensures_attachListing (id : Nat) (link : PlatformLink) :
    Ensures (attachListing id link) catalog fun _ after =>
      (∀ hash, catalog.store.findByHash hash = .ok (some id) →
        after.store.findByHash hash = .ok (some id)) ∧
      after.store.findByListing link.listing = some id := by
  intro hcatalog
  have hstore := hcatalog.store_exact
  unfold attachListing
  cases hrun : (Transaction.attachPlatform id link).run catalog.store with
  | error fault =>
      rw [exec_bind_of_error (exec_transact_of_error hrun)]
      exact ⟨hcatalog, .refl _, nofun⟩
  | ok pair =>
      obtain ⟨absorbed, after⟩ := pair
      rw [exec_bind_of_ok (exec_transact_of_ok hrun)]
      obtain ⟨hexact, hlisting, hne, hhashes, hlistings⟩ := hstore.attachPlatform_spec hrun
      have hcarries : catalog.store.Carries after :=
        ⟨fun owner => if absorbed = some owner then id else owner, hhashes, hlistings⟩
      have hkept : ∀ {hash owner}, absorbed ≠ some owner →
          catalog.store.findByHash hash = .ok (some owner) →
          after.findByHash hash = .ok (some owner) := by
        intro hash owner hother hfound
        obtain ⟨hkey, hentry⟩ := Store.findByHash_eq_some.mp hfound
        have hmoved := hhashes hentry
        rw [if_neg hother] at hmoved
        exact Store.findByHash_eq_some.mpr ⟨hkey, hmoved⟩
      cases absorbed with
      | none =>
          refine ⟨⟨hexact, ?_⟩, hcarries, fun _ _ => ⟨fun hash => hkept hne, hlisting⟩⟩
          intro hash owner hremembered
          exact hkept nofun (hcatalog.remembered hremembered)
      | some old =>
          refine ⟨⟨hexact, ?_⟩, hcarries, fun _ _ => ⟨fun hash => hkept hne, hlisting⟩⟩
          intro hash owner hremembered
          have hfilter := (Table.get?_eraseWhere catalog.identities.byHash (· == old) hash).symm.trans
            hremembered
          obtain ⟨hentry, hstays⟩ := Option.filter_eq_some_iff.mp hfilter
          refine hkept ?_ (hcatalog.remembered hentry)
          intro heq
          cases heq
          simp at hstays

theorem ensures_findOrCreate (key : LookupKey) (new : NewMod) :
    Ensures (transact (.findOrCreate key new)) catalog fun answer after =>
      after.store.hashes = catalog.store.hashes ∧
        ∀ listing, key = .listing listing → after.store.findByListing listing = some answer.1.id := by
  refine ensures_transact fun hcatalog answer after hrun => ?_
  obtain ⟨record, created⟩ := answer
  have hstore := hcatalog.store_exact
  rcases Transaction.findOrCreate_spec hrun with
    ⟨id, hfound, hrecord, _, rfl⟩ | ⟨hfree, rfl, _, rfl⟩
  · refine ⟨hstore, .refl _, rfl, ?_⟩
    rintro listing rfl
    rw [hstore.keyed hrecord]
    exact Except.ok.inj hfound
  · refine ⟨hstore.withNewUnder hfree, Store.keeps_withNewUnder hfree, ?_, ?_⟩
    · cases key <;> rfl
    · rintro listing rfl
      rw [Store.newUnder_id]
      exact (Table.get?_put _ _ _ _).trans (if_pos rfl)

theorem ensures_linkPlatform {id : Nat} {link : PlatformLink}
    (hlisted : catalog.store.findByListing link.listing = some id) :
    Ensures (transact (.linkPlatform id link)) catalog fun _ after =>
      after.store.hashes = catalog.store.hashes ∧
        after.store.findByListing link.listing = some id := by
  refine ensures_transact fun hcatalog value after hrun => ?_
  have hstore := hcatalog.store_exact
  obtain ⟨record, hrecord, rfl⟩ := Transaction.linkPlatform_spec hrun
  rw [hstore.keyed hrecord]
  have hfree : ∀ owner, catalog.store.listings.get? link.listing = some owner → owner = id := by
    intro owner hleads
    exact Option.some.inj (hleads.symm.trans hlisted)
  obtain ⟨hexact, hkeeps⟩ := hstore.withLink hrecord hfree
  exact ⟨hexact, hkeeps, rfl, (Table.get?_put _ _ _ _).trans (if_pos rfl)⟩

theorem ensures_commitBatch {hash : String} {id : Nat} {batch : TrackBatch}
    (hknown : batch.knownHash = some hash)
    (hfree : catalog.store.findByHash hash = .ok none) :
    Ensures (commitBatch hash id batch) catalog fun _ after =>
      after.store.findByHash hash = .ok (some id) ∧
        after.store.listings = catalog.store.listings := by
  have htrack : Ensures (transact (.track id batch)) catalog fun _ after =>
      after.store.findByHash hash = .ok (some id) ∧
        after.store.listings = catalog.store.listings := by
    refine ensures_transact fun hcatalog value after hrun => ?_
    have hstore := hcatalog.store_exact
    obtain ⟨record, hrecord, hkeys, rfl⟩ := Transaction.track_spec hrun
    rw [hstore.keyed hrecord]
    have hunowned : ∀ other ∈ batch.knownHash, ∀ owner,
        catalog.store.hashes.get? other = some owner → owner = id := by
      intro other hmem owner hleads
      cases hknown.symm.trans hmem
      have hkey := Store.checkRead_of_checkWrite (hkeys hash hmem)
      cases hfree.symm.trans (Store.findByHash_eq_some.mpr ⟨hkey, hleads⟩)
    obtain ⟨hexact, hkeeps⟩ := hstore.described hrecord _ hunowned
    refine ⟨hexact, hkeeps, Store.findByHash_eq_some.mpr ⟨?_, ?_⟩, rfl⟩
    · exact Store.checkRead_of_checkWrite (hkeys hash hknown)
    · refine (Table.get?_foldl_put _ _ _ _).trans (if_pos ?_)
      exact Option.mem_toList.mpr hknown
  exact htrack.bind fun _ between hbetween => ensures_remember hbetween.1 hbetween

/-! ## Resolution -/

/-- The content of a candidate and its listing, if it has one, lead to a mod. -/
def Holds (candidate : Candidate) (id : Nat) (store : Store) : Prop :=
  store.findByHash candidate.artifact.contentHash = .ok (some id) ∧
    ∀ link ∈ candidate.link, store.findByListing link.listing = some id

/-- No mod has the content of a candidate yet, and its listing, if it has one, leads to a mod. -/
def Awaits (candidate : Candidate) (id : Nat) (store : Store) : Prop :=
  store.findByHash candidate.artifact.contentHash = .ok none ∧
    ∀ link ∈ candidate.link, store.findByListing link.listing = some id

/-- What the answer to a candidate says of the store. -/
def Answered (candidate : Candidate) (answer : Resolution) (store : Store) : Prop :=
  match answer with
  | .known id => Holds candidate id store
  | .index id _ => Awaits candidate id store
  | .outdated _ | .unindexable => True

theorem Holds.same {candidate : Candidate} {id : Nat} {store after : Store}
    (hholds : Holds candidate id store) (hsame : store.SameOwners after) :
    Holds candidate id after := by
  refine ⟨(hsame.findByHash_eq _).trans hholds.1, ?_⟩
  intro link hlink
  exact (hsame.findByListing_eq _).trans (hholds.2 link hlink)

theorem ensures_takeListing (id : Nat) (link : PlatformLink) :
    Ensures (takeListing id link) catalog fun _ after =>
      (∀ hash, catalog.store.findByHash hash = .ok (some id) →
        after.store.findByHash hash = .ok (some id)) ∧
      after.store.findByListing link.listing = some id := by
  refine (ensures_attachListing id link).bind fun _ between hbetween => ?_
  refine (ensures_markFileSeen link id).mono fun _ after hsame => ?_
  refine ⟨?_, (hsame.findByListing_eq _).trans hbetween.2⟩
  intro hash hfound
  exact (hsame.findByHash_eq hash).trans (hbetween.1 hash hfound)

theorem ensures_resolveKnown {candidate : Candidate} {id : Nat}
    (hfound : catalog.store.findByHash candidate.artifact.contentHash = .ok (some id)) :
    Ensures (resolveKnown candidate id) catalog fun answer after =>
      Answered candidate answer after.store := by
  have hrest : ∀ between : Catalog, Holds candidate id between.store →
      Ensures (do linkCoordinate id candidate.extraCoordinate; return .known id) between
        fun answer after => Answered candidate answer after.store := by
    intro between hholds
    refine (ensures_linkCoordinate id candidate.extraCoordinate).bind fun _ after hsame => ?_
    exact ensures_pure (hholds.same hsame)
  unfold resolveKnown
  cases hlink : candidate.link with
  | some link =>
      refine (ensures_takeListing id link).bind fun _ between hbetween => hrest between ?_
      refine ⟨hbetween.1 _ hfound, ?_⟩
      intro other hother
      cases hlink.symm.trans hother
      exact hbetween.2
  | none =>
      refine (ensures_linkCoordinate id candidate.artifact.coordinate).bind
        fun _ between hsame => hrest between ?_
      refine ⟨(hsame.findByHash_eq _).trans hfound, ?_⟩
      intro other hother
      cases hlink.symm.trans hother

theorem ensures_resolveListing {candidate : Candidate} {link : PlatformLink}
    (hlink : candidate.link = some link)
    (hfree : catalog.store.findByHash candidate.artifact.contentHash = .ok none) :
    Ensures (resolveListing candidate link) catalog fun answer after =>
      Answered candidate answer after.store := by
  refine (ensures_findOrCreate _ _).bind fun answer first hfirst => ?_
  obtain ⟨record, created⟩ := answer
  obtain ⟨hhashes, hlisting⟩ := hfirst
  refine (ensures_linkPlatform (hlisting _ rfl)).bind fun _ second hsecond => ?_
  refine (ensures_linkCoordinate _ _).bind fun _ third hthird => ?_
  refine (ensures_linkCoordinate _ _).bind fun _ last hlast => ?_
  have hsame := hthird.trans hlast
  refine ensures_pure ⟨?_, ?_⟩
  · rw [hsame.findByHash_eq]
    unfold Store.findByHash at hfree ⊢
    rw [hsecond.1, hhashes, hfree]
  · intro other hother
    cases hlink.symm.trans hother
    rw [hsame.findByListing_eq]
    exact hsecond.2

theorem ensures_resolveCoordinate {candidate : Candidate} {coordinate : String}
    (hlink : candidate.link = none)
    (hfree : catalog.store.findByHash candidate.artifact.contentHash = .ok none) :
    Ensures (resolveCoordinate candidate coordinate) catalog fun answer after =>
      Answered candidate answer after.store := by
  refine (ensures_findOrCreate _ _).bind fun answer after hafter => ?_
  obtain ⟨record, created⟩ := answer
  dsimp only
  split
  · exact ensures_pure trivial
  · refine ensures_pure ⟨?_, ?_⟩
    · unfold Store.findByHash at hfree ⊢
      rw [hafter.1, hfree]
    · intro link hsome
      cases hlink.symm.trans hsome

theorem ensures_resolve (candidate : Candidate) :
    Ensures (resolve candidate) catalog fun answer after =>
      Answered candidate answer after.store := by
  refine (ensures_knownHash _).bind fun owner between hbetween => ?_
  obtain ⟨hstore, hfound⟩ := hbetween
  rw [← hstore] at hfound
  cases owner with
  | some id => exact ensures_resolveKnown hfound
  | none =>
      cases hlink : candidate.link with
      | some link => exact ensures_resolveListing hlink hfound
      | none =>
          cases candidate.artifact.coordinate with
          | none => exact ensures_pure trivial
          | some coordinate => exact ensures_resolveCoordinate hlink hfound

end Resolving

end ModCatalog
