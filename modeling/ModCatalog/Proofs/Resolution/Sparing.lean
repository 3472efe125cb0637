import ModCatalog.Proofs.Resolution.Noting
import ModCatalog.Proofs.Store.Integrity

/-!
# Attempts that fail

An attempt makes several transactions, and a fault in one does not undo those before it.  What comes
before the rows of a content are written spares the store: at most it adds a mod without contents,
links and coordinates.  What comes after, and after a mod was absorbed, does not fail where the keys
of a candidate fit.
-/

namespace ModCatalog

/-- What is left of a store if its rows, contents and seen files are left alone: all its mods with
their listings, and at most some new mods. -/
structure Store.Spares (room : Nat) (store after : Store) : Prop where
  rows : after.rows = store.rows
  hashes : after.hashes = store.hashes
  seenFiles : after.seenFiles = store.seenFiles
  listings {listing : Listing} {id : Nat} : store.listings.get? listing = some id →
    after.listings.get? listing = some id
  mods {id : Nat} : id < store.nextId → ((after.mod? id).isSome ↔ (store.mod? id).isSome)
  nextId_le : store.nextId ≤ after.nextId
  le_room : after.nextId ≤ store.nextId + room

namespace Store

variable {store middle after : Store} {room : Nat}

theorem Spares.refl (room : Nat) (store : Store) : store.Spares room store :=
  ⟨rfl, rfl, rfl, fun h => h, fun _ => Iff.rfl, Nat.le_refl _, Nat.le_add_right _ _⟩

theorem Spares.trans (hfirst : store.Spares room middle) (hnext : middle.Spares 0 after) :
    store.Spares room after := by
  refine ⟨hnext.rows.trans hfirst.rows, hnext.hashes.trans hfirst.hashes,
    hnext.seenFiles.trans hfirst.seenFiles, fun h => hnext.listings (hfirst.listings h), ?_,
    Nat.le_trans hfirst.nextId_le hnext.nextId_le, Nat.le_trans hnext.le_room hfirst.le_room⟩
  intro id hid
  exact (hnext.mods (Nat.lt_of_lt_of_le hid hfirst.nextId_le)).trans (hfirst.mods hid)

/-- A record that was written is that of a mod that was there, or the one that is new. -/
theorem Wrote.spares {record : ModRecord} (hwrote : store.Wrote record after)
    (hkeeps : store.Keeps after) (hrows : after.rows = store.rows)
    (hhashes : after.hashes = store.hashes) (hseen : after.seenFiles = store.seenFiles)
    (hroom : after.nextId ≤ store.nextId + room) : store.Spares room after := by
  refine ⟨hrows, hhashes, hseen, hkeeps.listings, ?_, hwrote.nextId, hroom⟩
  intro id hid
  rw [hwrote.mods]
  split
  · next hsame =>
      have hfound : store.mod? record.id ≠ none := by
        intro hnone
        exact absurd (hwrote.unused hnone) (by omega)
      rw [hsame]
      exact ⟨fun _ => Option.isSome_iff_ne_none.mpr hfound, fun _ => rfl⟩
  · exact Iff.rfl

/-- What sparing a store means for every mod and every answer. -/
theorem Spares.spec (hspares : store.Spares 1 after) (hstore : store.Exact) (hafter : after.Exact)
    (howned : store.RowsOwned) :
    (∀ id, after.rowsOf id = store.rowsOf id) ∧
    (∀ hash, after.findByHash hash = store.findByHash hash) ∧
    (∀ file, after.seenFileOwner file = store.seenFileOwner file) ∧
    (∀ listing id, store.findByListing listing = some id → after.findByListing listing = some id) ∧
    (∀ id record, store.mod? id = some record → ∃ kept, after.mod? id = some kept ∧
      record.listings ⊆ kept.listings) ∧
    ∀ id record, store.mod? id = none → after.mod? id = some record →
      id = store.nextId ∧ record.hashes = [] ∧ after.rowsOf id = .empty := by
  refine ⟨?_, ?_, ?_, fun listing id => hspares.listings, ?_, ?_⟩
  · intro id
    unfold rowsOf
    rw [hspares.rows]
  · intro hash
    unfold findByHash
    rw [hspares.hashes]
  · intro file
    unfold seenFileOwner
    rw [hspares.seenFiles]
  · intro id record hrecord
    obtain ⟨kept, hkept⟩ := Option.isSome_iff_exists.mp
      ((hspares.mods (hstore.numbered hrecord)).mpr (Option.isSome_of_eq_some hrecord))
    refine ⟨kept, hkept, ?_⟩
    intro listing hlisting
    obtain ⟨found, hfound, hmem⟩ :=
      hafter.listings (hspares.listings (hstore.listing_owner hrecord hlisting))
    cases hkept.symm.trans hfound
    exact hmem
  · intro id record hnone hrecord
    have hle : store.nextId ≤ id := by
      refine Nat.le_of_not_lt fun hlt => ?_
      have hfound := (hspares.mods hlt).mp (Option.isSome_of_eq_some hrecord)
      rw [hnone] at hfound
      cases hfound
    have hlt := Nat.lt_of_lt_of_le (hafter.numbered hrecord) hspares.le_room
    -- Contents and rows are those from before, when they belonged to mods that were there.
    refine ⟨by omega, ?_, ?_⟩
    · refine List.eq_nil_iff_forall_not_mem.mpr fun hash hhash => ?_
      have hleads := hafter.hash_owner hrecord hhash
      rw [hspares.hashes] at hleads
      obtain ⟨found, hfound, _⟩ := hstore.hashes hleads
      cases hnone.symm.trans hfound
    · unfold rowsOf
      rw [hspares.rows]
      cases hrows : store.rows.get? id with
      | none => rfl
      | some rows =>
          have hfound := howned (Option.isSome_of_eq_some hrows)
          rw [hnone] at hfound
          cases hfound

end Store

/-- Whether the keys fit that are written for a candidate after others were written for good. -/
structure Candidate.Fits (candidate : Candidate) : Prop where
  file : ∀ link ∈ candidate.link, Store.checkWrite link.file.key Store.idLength = .ok ()
  learned : ∀ name ∈ candidate.extraCoordinate, Store.checkWrite name 0 = .ok ()

namespace Resolving

variable {α β : Type} {catalog : Catalog} {room : Nat}

/-! ## Work that spares the store -/

/-- Whether work spares the store that it finds, be it that it succeeds or that it fails. -/
def Spared (room : Nat) (work : Resolving α) (catalog : Catalog) : Prop :=
  catalog.store.Spares room (work.exec catalog).2.store

theorem Spared.bind {work : Resolving α} {next : α → Resolving β} {post : α → Catalog → Prop}
    (hwork : Spared room work catalog) (hensures : Ensures work catalog post)
    (hcatalog : catalog.Coherent)
    (hnext : ∀ value between, between.Coherent → post value between →
      Spared 0 (next value) between) :
    Spared room (work >>= next) catalog := by
  obtain ⟨hbetween, _, hpost⟩ := hensures hcatalog
  unfold Spared at hwork ⊢
  cases hexec : work.exec catalog with
  | mk answer between =>
      rw [hexec] at hwork hbetween hpost
      cases answer with
      | error fault =>
          rw [exec_bind_of_error hexec]
          exact hwork
      | ok value =>
          rw [exec_bind_of_ok hexec]
          exact hwork.trans (hnext value between hbetween (hpost value rfl))

theorem spared_pure (value : α) : Spared room (pure value) catalog := .refl room catalog.store

theorem spared_transact {change : Transaction α}
    (hchange : ∀ value after, change.run catalog.store = .ok (value, after) →
      catalog.store.Spares room after) :
    Spared room (transact change) catalog := by
  unfold Spared
  cases hrun : change.run catalog.store with
  | error fault =>
      rw [exec_transact_of_error hrun]
      exact .refl room catalog.store
  | ok pair =>
      obtain ⟨value, after⟩ := pair
      rw [exec_transact_of_ok hrun]
      exact hchange value after hrun

theorem spared_findOrCreate (hcatalog : catalog.Coherent) (key : LookupKey) (new : NewMod) :
    Spared 1 (transact (.findOrCreate key new)) catalog := by
  refine spared_transact fun answer after hrun => ?_
  obtain ⟨record, created⟩ := answer
  rcases Transaction.findOrCreate_spec hrun with ⟨_, _, _, _, rfl⟩ | ⟨hfree, _, _, rfl⟩
  · exact .refl 1 _
  · have hwrote := hcatalog.store_exact.toConsistent.wrote_withNewUnder new key
    cases key <;>
      exact hwrote.spares (Store.keeps_withNewUnder hfree) rfl rfl rfl (Nat.le_refl _)

theorem spared_linkPlatform (hcatalog : catalog.Coherent) {id : Nat} {link : PlatformLink}
    (hlisted : catalog.store.findByListing link.listing = some id) :
    Spared 0 (transact (.linkPlatform id link)) catalog := by
  refine spared_transact fun value after hrun => ?_
  have hstore := hcatalog.store_exact
  obtain ⟨record, hrecord, rfl⟩ := Transaction.linkPlatform_spec hrun
  rw [hstore.keyed hrecord]
  have hfree : ∀ owner, catalog.store.listings.get? link.listing = some owner → owner = id := by
    intro owner hleads
    exact Option.some.inj (hleads.symm.trans hlisted)
  exact (hstore.toConsistent.wrote_withLink hrecord link).spares (hstore.withLink hrecord hfree).2
    rfl rfl rfl (Nat.le_refl _)

theorem spared_linkCoordinate (hcatalog : catalog.Coherent) (id : Nat)
    (coordinate : Option String) : Spared 0 (linkCoordinate id coordinate) catalog := by
  cases coordinate with
  | none => exact spared_pure ()
  | some name =>
      have hask : (ask (·.findByCoordinate name)).exec catalog =
          (catalog.store.findByCoordinate name, catalog) := rfl
      unfold Spared linkCoordinate
      cases hfound : catalog.store.findByCoordinate name with
      | error fault =>
          rw [hfound] at hask
          rw [exec_bind_of_error hask]
          exact .refl 0 _
      | ok owner =>
          rw [hfound] at hask
          rw [exec_bind_of_ok hask]
          cases owner with
          | some owner => exact .refl 0 _
          | none =>
              refine spared_transact fun value after hrun => ?_
              have hstore := hcatalog.store_exact
              obtain ⟨record, hrecord, rfl⟩ := Transaction.linkCoordinate_spec hrun
              rw [hstore.keyed hrecord]
              exact (hstore.toConsistent.wrote_withCoordinate hrecord name).spares
                ⟨fun h => h, fun h => h⟩ rfl rfl rfl (Nat.le_refl _)

variable {candidate : Candidate}

theorem spared_resolveListing (hcatalog : catalog.Coherent) (link : PlatformLink) :
    Spared 1 (resolveListing candidate link) catalog := by
  refine (spared_findOrCreate hcatalog _ _).bind (ensures_findOrCreate _ _) hcatalog
    fun answer first hfirst hfound => ?_
  obtain ⟨record, created⟩ := answer
  have hlisted := hfound.2 link.listing rfl
  refine (spared_linkPlatform hfirst hlisted).bind (ensures_linkPlatform hlisted) hfirst
    fun _ second hsecond _ => ?_
  refine (spared_linkCoordinate hsecond _ _).bind (ensures_linkCoordinate _ _) hsecond
    fun _ third hthird _ => ?_
  exact (spared_linkCoordinate hthird _ _).bind (ensures_linkCoordinate _ _) hthird
    fun _ _ _ _ => spared_pure _

theorem spared_resolveCoordinate (hcatalog : catalog.Coherent) (coordinate : String) :
    Spared 1 (resolveCoordinate candidate coordinate) catalog := by
  refine (spared_findOrCreate hcatalog _ _).bind (ensures_findOrCreate _ _) hcatalog
    fun answer between _ _ => ?_
  obtain ⟨record, created⟩ := answer
  dsimp only
  split
  · exact spared_pure _
  · exact spared_pure _

/-! ## Work that is done as a whole -/

def Succeeds (work : Resolving α) (catalog : Catalog) : Prop :=
  ∃ value, (work.exec catalog).1 = .ok value

/-- Whether work succeeds on a catalog or leaves the store as it was. -/
def AllOrNothing (work : Resolving α) (catalog : Catalog) : Prop :=
  Succeeds work catalog ∨ (work.exec catalog).2.store = catalog.store

theorem succeeds_pure (value : α) : Succeeds (pure value) catalog := ⟨value, rfl⟩

theorem Succeeds.bind {work : Resolving α} {next : α → Resolving β}
    (hwork : Succeeds work catalog)
    (hnext : ∀ value between, work.exec catalog = (.ok value, between) →
      Succeeds (next value) between) :
    Succeeds (work >>= next) catalog := by
  obtain ⟨value, hvalue⟩ := hwork
  have hexec : work.exec catalog = (.ok value, (work.exec catalog).2) := Prod.ext hvalue rfl
  unfold Succeeds
  rw [exec_bind_of_ok hexec]
  exact hnext value _ hexec

theorem AllOrNothing.bind {work : Resolving α} {next : α → Resolving β}
    (hwork : AllOrNothing work catalog)
    (hnext : ∀ value between, work.exec catalog = (.ok value, between) →
      Succeeds (next value) between) :
    AllOrNothing (work >>= next) catalog := by
  cases hexec : work.exec catalog with
  | mk answer between =>
      cases answer with
      | ok value =>
          have hsucceeds : Succeeds work catalog := ⟨value, congrArg Prod.fst hexec⟩
          exact Or.inl (hsucceeds.bind hnext)
      | error fault =>
          refine Or.inr ?_
          rw [exec_bind_of_error hexec]
          rcases hwork with ⟨value, hvalue⟩ | hsame
          · rw [hexec] at hvalue
            cases hvalue
          · rwa [hexec] at hsame

theorem AllOrNothing.spared {work : Resolving α} (hwork : AllOrNothing work catalog)
    {fault : Fault} (h : (work.exec catalog).1 = .error fault) : Spared room work catalog := by
  rcases hwork with ⟨value, hvalue⟩ | hsame
  · cases hvalue.symm.trans h
  · unfold Spared
    rw [hsame]
    exact .refl room _

theorem allOrNothing_transact (change : Transaction α) :
    AllOrNothing (transact change) catalog := by
  cases hrun : change.run catalog.store with
  | error fault =>
      refine Or.inr ?_
      rw [exec_transact_of_error hrun]
  | ok pair => exact Or.inl ⟨pair.1, congrArg Prod.fst (exec_transact_of_ok hrun)⟩

theorem allOrNothing_attachListing (id : Nat) (link : PlatformLink) :
    AllOrNothing (attachListing id link) catalog := by
  refine (allOrNothing_transact _).bind fun absorbed between _ => ?_
  cases absorbed with
  | none => exact succeeds_pure ()
  | some old => exact ⟨(), rfl⟩

theorem allOrNothing_commitBatch (hash : String) (id : Nat) (batch : TrackBatch) :
    AllOrNothing (commitBatch hash id batch) catalog :=
  (allOrNothing_transact _).bind fun _ _ _ => ⟨(), rfl⟩

theorem succeeds_markFileSeen (id : Nat) {link : PlatformLink}
    (hfits : Store.checkWrite link.file.key Store.idLength = .ok ()) :
    Succeeds (transact (.markFileSeen link id)) catalog := by
  have hrun : (Transaction.markFileSeen link id).run catalog.store = .ok ((),
      { catalog.store with seenFiles := catalog.store.seenFiles.put link.file id }) :=
    Transaction.run_putFileOwner_eq_ok.mpr ⟨hfits, rfl⟩
  exact ⟨(), congrArg Prod.fst (exec_transact_of_ok hrun)⟩

theorem succeeds_linkCoordinate {id : Nat} {coordinate : Option String}
    (hmod : (catalog.store.mod? id).isSome)
    (hfits : ∀ name ∈ coordinate, Store.checkWrite name 0 = .ok ()) :
    Succeeds (linkCoordinate id coordinate) catalog := by
  cases hanswer : ((linkCoordinate id coordinate).exec catalog).1 with
  | ok value => exact ⟨value, hanswer⟩
  | error fault =>
      obtain ⟨name, hname, hunfit⟩ := unfit_of_linkCoordinate hmod hanswer
      exact absurd (hfits name hname) hunfit

/-! ## Candidates -/

/-- Once a listing is attached for a known content, all that follows succeeds if the keys fit. -/
theorem allOrNothing_takeListing (id : Nat) {link : PlatformLink}
    (hfits : Store.checkWrite link.file.key Store.idLength = .ok ()) :
    AllOrNothing (takeListing id link) catalog :=
  (allOrNothing_attachListing id link).bind fun _ _ _ => succeeds_markFileSeen id hfits

theorem spared_of_resolveKnown (hcatalog : catalog.Coherent) (hfits : candidate.Fits) {id : Nat}
    {fault : Fault} (h : ((resolveKnown candidate id).exec catalog).1 = .error fault) :
    Spared 0 (resolveKnown candidate id) catalog := by
  unfold resolveKnown at h ⊢
  cases hlink : candidate.link with
  | some link =>
      rw [hlink] at h
      refine AllOrNothing.spared ?_ h
      refine (allOrNothing_takeListing id (hfits.file link hlink)).bind
        fun value between hexec => ?_
      have htaken := ensures_takeListing id link hcatalog
      rw [hexec] at htaken
      obtain ⟨hbetween, _, hlisted⟩ := htaken
      obtain ⟨record, hrecord, _⟩ := hbetween.store_exact.listings (hlisted value rfl).2
      have hmod : (between.store.mod? id).isSome := Option.isSome_of_eq_some hrecord
      exact (succeeds_linkCoordinate hmod hfits.learned).bind fun _ _ _ => succeeds_pure _
  | none =>
      refine (spared_linkCoordinate hcatalog id _).bind (ensures_linkCoordinate id _) hcatalog
        fun _ between hbetween _ => ?_
      exact (spared_linkCoordinate hbetween id _).bind (ensures_linkCoordinate id _) hbetween
        fun _ _ _ _ => spared_pure _

end Resolving

open Resolving

namespace Attempt

variable {catalog : Catalog} (attempt : Attempt)

/-- Gathering the rows and writing them may fail; what follows does not if the keys fit. -/
theorem allOrNothing_finish (hfits : attempt.candidate.Fits) (answer : Resolution) :
    AllOrNothing (attempt.finish answer) catalog := by
  cases answer with
  | known id | outdated id | unindexable => exact Or.inl (succeeds_pure _)
  | index id created =>
      unfold finish
      cases attempt.gathered with
      | error fault => exact Or.inr rfl
      | ok aggregate =>
          refine (allOrNothing_commitBatch _ id _).bind fun _ between _ => ?_
          cases hlink : attempt.candidate.link with
          | none => exact (succeeds_pure ()).bind fun _ _ _ => succeeds_pure _
          | some link =>
              exact (succeeds_markFileSeen id (hfits.file link hlink)).bind
                fun _ _ _ => succeeds_pure _

/-- An attempt that fails after its content was resolved spares the store if resolution did. -/
theorem spared_of_finish {room : Nat} {work : Resolving Resolution} (hfits : attempt.candidate.Fits)
    (hwork : Spared room work catalog) {fault : Fault}
    (h : ((work >>= attempt.finish).exec catalog).1 = .error fault) :
    Spared room (work >>= attempt.finish) catalog := by
  unfold Spared at hwork ⊢
  cases hexec : work.exec catalog with
  | mk answer between =>
      rw [hexec] at hwork
      cases answer with
      | error other =>
          rw [exec_bind_of_error hexec]
          exact hwork
      | ok answer =>
          rw [exec_bind_of_ok hexec] at h ⊢
          exact hwork.trans ((attempt.allOrNothing_finish hfits answer).spared h)

theorem spared_of_known (hcatalog : catalog.Coherent) (hfits : attempt.candidate.Fits) {id : Nat}
    {fault : Fault}
    (h : ((resolveKnown attempt.candidate id >>= attempt.finish).exec catalog).1 = .error fault) :
    Spared 1 (resolveKnown attempt.candidate id >>= attempt.finish) catalog := by
  unfold Spared
  cases hexec : (resolveKnown attempt.candidate id).exec catalog with
  | mk answer between =>
      cases answer with
      | error other =>
          have hspared := spared_of_resolveKnown hcatalog hfits (congrArg Prod.fst hexec)
          unfold Spared at hspared
          rw [hexec] at hspared
          rw [exec_bind_of_error hexec]
          exact (Store.Spares.refl 1 _).trans hspared
      | ok answer =>
          -- Nothing is left to do for a known content, so nothing can fail.
          obtain rfl := known_of_resolveKnown hexec
          rw [exec_bind_of_ok hexec] at h
          cases h

/-- An attempt that fails spares the store if the keys of its candidate fit. -/
theorem spares_of_error (hcatalog : catalog.Coherent) (hfits : attempt.candidate.Fits)
    {fault : Fault} (h : (attempt.run.exec catalog).1 = .error fault) :
    catalog.store.Spares 1 (attempt.after catalog).store := by
  unfold after
  rw [attempt.run_eq_finish] at h ⊢
  unfold resolve at h ⊢
  rw [bind_assoc] at h ⊢
  -- Looking a content up changes what is remembered, but not the store.
  have hsame := (exec_knownHash attempt.candidate.artifact.contentHash catalog).2
  obtain ⟨hbetween, _, _⟩ := ensures_knownHash attempt.candidate.artifact.contentHash hcatalog
  cases hexec : (knownHash attempt.candidate.artifact.contentHash).exec catalog with
  | mk answer between =>
      rw [hexec] at hsame hbetween
      rw [← hsame]
      cases answer with
      | error other =>
          rw [exec_bind_of_error hexec]
          exact .refl 1 _
      | ok owner =>
          rw [exec_bind_of_ok hexec] at h ⊢
          cases owner with
          | some id => exact attempt.spared_of_known hbetween hfits h
          | none =>
              cases hlink : attempt.candidate.link with
              | some link =>
                  rw [hlink] at h
                  exact attempt.spared_of_finish hfits (spared_resolveListing hbetween link) h
              | none =>
                  rw [hlink] at h
                  cases hcoordinate : attempt.candidate.artifact.coordinate with
                  | some coordinate =>
                      rw [hcoordinate] at h
                      exact attempt.spared_of_finish hfits
                        (spared_resolveCoordinate hbetween coordinate) h
                  | none =>
                      rw [hcoordinate] at h
                      cases h

end Attempt

end ModCatalog
