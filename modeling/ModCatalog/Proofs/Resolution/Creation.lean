import ModCatalog.Proofs.Resolution.Forgetting
import ModCatalog.Proofs.Resolution.Rows

/-!
# New contents under new listings

A candidate whose content is not known and whose project leads nowhere yet gets a mod of its own with
all its rows, provided that the keys fit that are written for it.
-/

namespace ModCatalog

open Resolving

/-! ## Keys -/

theorem length_hexDigits_byte (byte : UInt8) : (Text.hexDigits 2 byte.toNat).length = 2 := by
  have hdigits : (Nat.toDigits 16 byte.toNat).length ≤ 2 :=
    (Nat.length_toDigits_le_iff (by decide) (by decide)).mpr byte.toNat_lt
  unfold Text.hexDigits
  rw [Text.length_padZeros]
  omega

/-- A hash has 64 digits. -/
theorem length_contentHash (content : ByteArray) : (contentHash content).toList.length = 64 := by
  have hdigits : ∀ bytes : List UInt8,
      (bytes.flatMap fun byte => Text.hexDigits 2 byte.toNat).length = 2 * bytes.length := by
    intro bytes
    induction bytes with
    | nil => rfl
    | cons byte rest ih =>
        rw [List.flatMap_cons, List.length_append, ih, length_hexDigits_byte, List.length_cons]
        omega
  unfold contentHash
  rw [String.toList_ofList, hdigits, Digest.Sha256.length_digest]

theorem isEmpty_contentHash (content : ByteArray) : (contentHash content).isEmpty = false := by
  rw [Bool.eq_false_iff]
  intro hempty
  have hlength := length_contentHash content
  rw [String.isEmpty_iff.mp hempty] at hlength
  cases hlength

theorem utf8ByteSize_ofList_le (text : List Char) :
    (String.ofList text).utf8ByteSize ≤ 4 * text.length := by
  induction text with
  | nil => exact Nat.le_refl 0
  | cons c rest ih =>
      have hsize := Char.utf8Size_le_four c
      rw [String.ofList_cons, String.utf8ByteSize_append, String.utf8ByteSize_singleton,
        List.length_cons]
      omega

/-- The hash of any content is a key that fits. -/
theorem Store.checkWrite_contentHash (content : ByteArray) :
    checkWrite (contentHash content) 0 = .ok () := by
  have hsize := utf8ByteSize_ofList_le (contentHash content).toList
  rw [String.ofList_toList, length_contentHash] at hsize
  unfold checkWrite maxKeyLength
  rw [isEmpty_contentHash, Bool.false_or, if_neg]
  rw [decide_eq_true_iff]
  omega

theorem Store.findByHash_empty {hash : String} (hkey : checkWrite hash 0 = .ok ()) :
    Store.empty.findByHash hash = .ok none := by
  unfold findByHash
  rw [checkRead_of_checkWrite hkey]
  rfl

/-! ## A new mod -/

namespace Transaction

variable {store : Store}

theorem run_createMod_of_plain {new : NewMod} (hplain : new.coordinate = none) :
    (createMod new).run store = .ok (.ofNew store.nextId new, store.withNew new) := by
  obtain ⟨displayName, version, coordinate, modIds⟩ := new
  cases hplain
  rfl

/-- A project that leads nowhere gets a new mod if its key fits. -/
theorem run_findOrCreate_of_free {listing : Listing} {new : NewMod}
    (hfree : store.findByListing listing = none) (hplain : new.coordinate = none)
    (hkey : Store.checkWrite listing.key 0 = .ok ()) :
    (findOrCreate (.listing listing) new).run store =
      .ok ((Store.newUnder store.nextId new (.listing listing), true),
        store.withNewUnder new (.listing listing)) := by
  simp only [findOrCreate, run_bind_eq_ok, run_get_eq_ok, run_liftM_eq_ok]
  refine ⟨store, store, ⟨rfl, rfl⟩, none, store, ⟨congrArg Except.ok hfree, rfl⟩, ?_⟩
  simp only [run_bind_eq_ok, run_setLink_eq_ok, run_writeMod_eq_ok, run_pure_eq_ok]
  refine ⟨_, _, run_createMod_of_plain hplain, _, _, ⟨hkey, rfl, rfl⟩, (), _, rfl, rfl, ?_⟩
  rw [ModRecord.withLink_id]
  rfl

theorem run_linkPlatform_of_fit {id : Nat} {link : PlatformLink} {record : ModRecord}
    (hrecord : store.mod? id = some record) (hkey : Store.checkWrite link.listing.key 0 = .ok ()) :
    (linkPlatform id link).run store = .ok ((), { store with
      listings := store.listings.put link.listing record.id
      mods := store.mods.put record.id (record.withLink link) }) := by
  simp only [linkPlatform, run_bind_eq_ok, run_requireMod_eq_ok, run_setLink_eq_ok,
    run_writeMod_eq_ok]
  refine ⟨record, _, ⟨hrecord, rfl⟩, _, _, ⟨hkey, rfl, rfl⟩, ?_⟩
  rw [ModRecord.withLink_id]

end Transaction

variable {catalog : Catalog} {candidate : Candidate} {link : PlatformLink}

/-- Whether a candidate is new under a listing: neither its content nor its project leads to a mod,
and all keys fit that are written for it. -/
structure Candidate.IsNew (candidate : Candidate) (link : PlatformLink) (store : Store) : Prop where
  linked : candidate.link = some link
  uncoordinated : candidate.artifact.coordinate = none
  unlearned : candidate.extraCoordinate = none
  unknown : store.findByHash candidate.artifact.contentHash = .ok none
  unlisted : store.findByListing link.listing = none
  content : Store.checkWrite candidate.artifact.contentHash 0 = .ok ()
  listing : Store.checkWrite link.listing.key 0 = .ok ()
  file : Store.checkWrite link.file.key Store.idLength = .ok ()

namespace Resolving

theorem exec_resolve_of_new (hcatalog : catalog.Coherent)
    (hnew : candidate.IsNew link catalog.store) :
    ∃ after, (resolve candidate).exec catalog =
        (.ok (.index catalog.store.nextId true), after) ∧
      ∃ record, after.store.mod? catalog.store.nextId = some record := by
  obtain ⟨hlink, hplain, hlearned, hunknown, hunlisted, -, hkey, -⟩ := hnew
  have hknown : ((knownHash candidate.artifact.contentHash).exec catalog).1 = .ok none :=
    (exec_knownHash_of_coherent hcatalog _).trans hunknown
  have hsame := (exec_knownHash candidate.artifact.contentHash catalog).2
  cases hexec : (knownHash candidate.artifact.contentHash).exec catalog with
  | mk answer between =>
      rw [hexec] at hknown hsame
      dsimp only at hknown hsame
      subst hknown
      unfold resolve
      rw [exec_bind_of_ok hexec]
      simp only [hlink]
      rw [← hsame] at hunlisted ⊢
      -- The project leads nowhere, so a mod is created under it first and then linked to the file.
      let new := NewMod.ofArtifact candidate.artifact
      let created := between.store.withNewUnder new (.listing link.listing)
      let record := Store.newUnder between.store.nextId new (.listing link.listing)
      have hid : record.id = between.store.nextId := ModRecord.withLink_id _ _
      have hrecord : created.mod? between.store.nextId = some record :=
        (Table.get?_put _ _ _ _).trans (if_pos rfl)
      have hcreated : (transact (.findOrCreate (.listing link.listing) new)).exec between =
          (.ok (record, true), { between with store := created }) :=
        exec_transact_of_ok (Transaction.run_findOrCreate_of_free hunlisted hplain hkey)
      have hlinked : (transact (.linkPlatform between.store.nextId link)).exec
          { between with store := created } = (.ok (), _) :=
        exec_transact_of_ok (Transaction.run_linkPlatform_of_fit hrecord hkey)
      unfold resolveListing
      rw [exec_bind_of_ok hcreated]
      dsimp only
      rw [hid, exec_bind_of_ok hlinked, hplain, hlearned]
      exact ⟨_, rfl, record.withLink link, (Table.get?_put _ _ _ _).trans (if_pos hid.symm)⟩

end Resolving

namespace Attempt

variable {attempt : Attempt} {aggregate : Aggregate}

/-- Where the mod of a content is there and all keys fit, its rows replace those of the mod. -/
theorem exec_finish_of_fit {id : Nat} {created : Bool} {record : ModRecord}
    (hlink : attempt.candidate.link = some link)
    (hcontent : Store.checkWrite attempt.candidate.artifact.contentHash 0 = .ok ())
    (hfile : Store.checkWrite link.file.key Store.idLength = .ok ())
    (hrecord : catalog.store.mod? id = some record) (hgathered : attempt.gathered = .ok aggregate) :
    ∃ after, (attempt.finish (.index id created)).exec catalog = (.ok (.index id created), after) ∧
      after.store.rowsOf id = (attempt.batch aggregate).rows := by
  have hask : (ask fun _ => attempt.gathered).exec catalog = (.ok aggregate, catalog) :=
    exec_ask_of_ok hgathered
  have hkeys : ∀ hash ∈ (attempt.batch aggregate).knownHash, Store.checkWrite hash 0 = .ok () := by
    intro hash hhash
    cases hhash
    exact hcontent
  obtain ⟨tracked, htracked⟩ : ∃ tracked,
      (Transaction.track id (attempt.batch aggregate)).run catalog.store = .ok ((), tracked) :=
    ⟨_, Transaction.run_track_eq_ok.mpr ⟨record, hrecord, hkeys, rfl⟩⟩
  have hcommitted : (commitBatch attempt.candidate.artifact.contentHash id
      (attempt.batch aggregate)).exec catalog = (.ok (), _) :=
    (exec_bind_of_ok (exec_transact_of_ok htracked)).trans rfl
  have hseen : ∀ between : Catalog, (markSeen id (some link)).exec between = (.ok (), { between with
      store := { between.store with seenFiles := between.store.seenFiles.put link.file id } }) :=
    fun between => exec_transact_of_ok (Transaction.run_putFileOwner_eq_ok.mpr ⟨hfile, rfl⟩)
  have hrows : tracked.rows = catalog.store.rowsAfter (.write id (attempt.batch aggregate)) := by
    obtain ⟨_, _, _, hafter⟩ := Transaction.track_spec htracked
    rw [hafter]
    rfl
  unfold finish
  dsimp only
  rw [exec_bind_of_ok hask, hlink]
  change ∃ after, (commitBatch attempt.candidate.artifact.contentHash id (attempt.batch aggregate) >>=
    _).exec catalog = _ ∧ _
  rw [exec_bind_of_ok hcommitted, exec_bind_of_ok (hseen _)]
  refine ⟨_, rfl, ?_⟩
  refine (Store.rowsOf_of_rows hrows id).trans ((if_pos rfl).trans ?_)
  exact Rows.empty_append _

/-- A candidate that is new gets a mod of its own, with all rows of its content. -/
theorem exec_run_of_new (attempt : Attempt) (hcatalog : catalog.Coherent)
    (hnew : attempt.candidate.IsNew link catalog.store)
    (hgathered : attempt.gathered = .ok aggregate) :
    ∃ after, attempt.run.exec catalog = (.ok (.index catalog.store.nextId true), after) ∧
      after.store.findByListing link.listing = some catalog.store.nextId ∧
      after.store.rowsOf catalog.store.nextId = (attempt.batch aggregate).rows := by
  obtain ⟨between, hresolve, record, hrecord⟩ := exec_resolve_of_new hcatalog hnew
  obtain ⟨after, hfinish, hrows⟩ :=
    exec_finish_of_fit hnew.linked hnew.content hnew.file hrecord hgathered
  have hrun : attempt.run.exec catalog = (.ok (.index catalog.store.nextId true), after) := by
    rw [attempt.run_eq_finish, exec_bind_of_ok hresolve, hfinish]
  obtain ⟨-, -, hholds⟩ := attempt.ensures_run hcatalog
  rw [hrun] at hholds
  exact ⟨after, hrun, (hholds _ rfl).2 link hnew.linked, hrows⟩

end Attempt

end ModCatalog
