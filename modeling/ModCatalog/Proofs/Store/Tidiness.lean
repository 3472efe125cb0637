import ModCatalog.Proofs.Store.Frames
import ModCatalog.Proofs.Store.History

/-!
# Tidy records

No change lets a record list a project twice or hold a content that the store cannot look up.
Together with exactness this makes records and indexes say the same: each project and each content
is in one record at most, and it is found by the index exactly if it is there.
-/

namespace ModCatalog

/-- Whether a record lists no project twice and names only contents that can be looked up. -/
structure ModRecord.Tidy (record : ModRecord) : Prop where
  distinct : record.listings.Nodup
  readable {hash : String} : hash ∈ record.hashes → Store.checkRead hash = .ok ()

/-- Whether all records are tidy. -/
def Store.Tidy (store : Store) : Prop :=
  ∀ (id : Nat) (record : ModRecord), store.mod? id = some record → record.Tidy

theorem ModRecord.Tidy.withLink {record : ModRecord} (hrecord : record.Tidy)
    (link : PlatformLink) : (record.withLink link).Tidy := by
  refine ⟨nodup_listings_withLink hrecord.distinct link, ?_⟩
  intro hash hmem
  rw [withLink_hashes] at hmem
  exact hrecord.readable hmem

theorem ModRecord.tidy_ofNew (id : Nat) (new : NewMod) : (ModRecord.ofNew id new).Tidy :=
  ⟨List.nodup_nil, nofun⟩

namespace Store

variable {store after : Store}

theorem tidy_newUnder (id : Nat) (new : NewMod) (key : LookupKey) : (newUnder id new key).Tidy := by
  have hnew := ModRecord.tidy_ofNew id new
  cases key with
  | listing listing => exact hnew.withLink _
  | coordinate coordinate => exact ⟨hnew.distinct, hnew.readable⟩

theorem Tidy.put (hstore : store.Tidy) {id : Nat} {record : ModRecord} (hrecord : record.Tidy)
    (hafter : after.mods = store.mods.put id record) : after.Tidy := by
  intro other found hfound
  unfold mod? at hfound
  rw [hafter, Table.get?_put] at hfound
  by_cases hother : other = id
  · rw [if_pos hother] at hfound
    cases hfound
    exact hrecord
  · rw [if_neg hother] at hfound
    exact hstore other found hfound

/-- The record of the target holds contents of both mods, and links of which none repeats a
project. -/
theorem Tidy.attached (hstore : store.Tidy) (hconsistent : store.Consistent) {id : Nat}
    {link : PlatformLink} {absorbed : Option Nat}
    (h : (Transaction.attachPlatform id link).run store = .ok (absorbed, after)) : after.Tidy := by
  obtain ⟨_, base, hbase, _, _, target, htarget, hdistinct⟩ :=
    Transaction.attachPlatform_record hconsistent.keyed h
  rcases Transaction.attachPlatform_spec hconsistent.keyed h with
    ⟨found, hfound, _, ⟨_, rfl⟩ | ⟨old, record, _, habsorbed⟩⟩
  · exact hstore.put ((hstore _ _ hfound).withLink link) rfl
  · have hid : found.id = id := hconsistent.keyed hfound
    have htargetTidy := hstore _ _ htarget
    have holdTidy := hstore _ _ habsorbed.found_old
    have hrecord : base.withLink link = record := by
      have hwritten := habsorbed.mods found.id
      rw [if_pos rfl, hid, hbase] at hwritten
      exact Option.some.inj hwritten
    have hsame : target = found := Option.some.inj (htarget.symm.trans hfound)
    have htidy : record.Tidy := by
      constructor
      · rw [← hrecord]
        exact ModRecord.nodup_listings_withLink (hdistinct htargetTidy.distinct) link
      · intro hash hmem
        rcases habsorbed.mem_hashes.mp hmem with hown | htaken
        · rw [← hsame] at hown
          exact htargetTidy.readable hown
        · exact holdTidy.readable htaken
    intro other kept hkept
    rw [habsorbed.mods] at hkept
    split at hkept
    · cases hkept
      exact htidy
    · split at hkept
      · cases hkept
      · exact hstore _ _ hkept

/-- A batch names only a content that can be written, so it can be looked up. -/
theorem tidy_described {record : ModRecord} (hrecord : record.Tidy) {batch : TrackBatch}
    (hkeys : ∀ hash ∈ batch.knownHash, checkWrite hash 0 = .ok ()) :
    (Transaction.described record batch).Tidy := by
  constructor
  · rw [Transaction.described_listings]
    exact hrecord.distinct
  · intro hash hmem
    rcases Transaction.mem_hashes_described.mp hmem with hbefore | hknown
    · exact hrecord.readable hbefore
    · exact checkRead_of_checkWrite (hkeys hash hknown)

theorem Tidy.step (hstore : store.Tidy) (hconsistent : store.Consistent) (change : Change) :
    (store.after change).Tidy := by
  rcases after_cases store change with hsame | hrun
  · rwa [hsame]
  · cases change with
    | createMod new =>
        obtain ⟨record, hcreated⟩ := Transaction.run_discard_eq_ok.mp hrun
        obtain ⟨_, hafter⟩ := Transaction.createMod_spec hcreated
        rw [hafter]
        exact hstore.put (ModRecord.tidy_ofNew _ new) rfl
    | findOrCreate key new =>
        obtain ⟨⟨record, created⟩, hfound⟩ := Transaction.run_discard_eq_ok.mp hrun
        rcases Transaction.findOrCreate_spec hfound with ⟨_, _, _, _, hafter⟩ | ⟨_, _, _, hafter⟩
        · rwa [hafter]
        · have hcreated : (store.withNew new).Tidy := hstore.put (ModRecord.tidy_ofNew _ new) rfl
          have hunder := tidy_newUnder store.nextId new key
          rw [hafter]
          cases key with
          | listing listing => exact hcreated.put hunder rfl
          | coordinate coordinate => exact hcreated.put hunder rfl
    | linkPlatform id link =>
        obtain ⟨record, hrecord, hafter⟩ := Transaction.linkPlatform_spec hrun
        rw [hafter]
        exact hstore.put ((hstore _ _ hrecord).withLink link) rfl
    | linkCoordinate id coordinate =>
        obtain ⟨record, hrecord, hafter⟩ := Transaction.linkCoordinate_spec hrun
        have hnoted : (record.withCoordinate coordinate).Tidy :=
          ⟨(hstore _ _ hrecord).distinct, (hstore _ _ hrecord).readable⟩
        rw [hafter]
        exact hstore.put hnoted rfl
    | attachPlatform id link =>
        obtain ⟨absorbed, hattached⟩ := Transaction.run_discard_eq_ok.mp hrun
        exact hstore.attached hconsistent hattached
    | deleteMod id =>
        have hafter : store.deleteMod id = store.after (.deleteMod id) :=
          Transaction.run_modify_eq_ok.mp hrun
        rw [← hafter]
        intro other found hfound
        rw [mod?_deleteMod] at hfound
        split at hfound
        · cases hfound
        · exact hstore _ _ hfound
    | markFileSeen link id =>
        obtain ⟨_, hafter⟩ := Transaction.run_putFileOwner_eq_ok.mp hrun
        rw [← hafter]
        exact hstore
    | track id batch =>
        obtain ⟨record, hrecord, hkeys, hafter⟩ := Transaction.track_spec hrun
        have htidy := tidy_described (hstore _ _ hrecord) hkeys
        rw [hafter]
        exact hstore.put htidy rfl
    | purgeRows id =>
        have hafter : { store with rows := store.rows.erase id } = store.after (.purgeRows id) :=
          Transaction.run_modify_eq_ok.mp hrun
        rw [← hafter]
        exact hstore

theorem Tidy.empty : Store.empty.Tidy := nofun

theorem Tidy.afterAll (hstore : store.Tidy) (hconsistent : store.Consistent)
    (changes : List Change) : (store.afterAll changes).Tidy := by
  induction changes generalizing store with
  | nil => exact hstore
  | cons change rest ih =>
      have hafter := (hconsistent.effect change).consistent hconsistent
      exact ih (hstore.step hconsistent change) hafter

/-- Whatever happens to a store from the empty one on, its records are tidy. -/
theorem Reachable.tidy (hreachable : store.Reachable) : store.Tidy := by
  obtain ⟨changes, rfl⟩ := hreachable
  exact Tidy.empty.afterAll Consistent.empty changes

/-- Whether records and indexes say the same: a project or a content leads to a mod exactly if the
record of the mod has it, no other record has it, and no record has a project twice. -/
structure InBijection (store : Store) : Prop where
  listed_iff (listing : Listing) (id : Nat) : store.findByListing listing = some id ↔
    ∃ record, store.mod? id = some record ∧ listing ∈ record.listings
  listed_once {id other : Nat} {record found : ModRecord} {listing : Listing} :
    store.mod? id = some record → store.mod? other = some found →
      listing ∈ record.listings → listing ∈ found.listings → id = other
  listed_distinct {id : Nat} {record : ModRecord} : store.mod? id = some record →
    record.listings.Nodup
  stored_iff (hash : String) (id : Nat) : store.findByHash hash = .ok (some id) ↔
    ∃ record, store.mod? id = some record ∧ hash ∈ record.hashes
  stored_once {id other : Nat} {record found : ModRecord} {hash : String} :
    store.mod? id = some record → store.mod? other = some found →
      hash ∈ record.hashes → hash ∈ found.hashes → id = other

/-- The index of an exact store leads to one mod only, so two records that have the same are
one. -/
theorem Exact.inBijection (hstore : store.Exact) (htidy : store.Tidy) : store.InBijection := by
  have hlisted : ∀ {listing id}, store.findByListing listing = some id ↔
      ∃ record, store.mod? id = some record ∧ listing ∈ record.listings := by
    intro listing id
    constructor
    · exact hstore.listings
    · intro h
      obtain ⟨record, hrecord, hmem⟩ := h
      exact hstore.listing_owner hrecord hmem
  have hstored : ∀ {hash id}, store.findByHash hash = .ok (some id) ↔
      ∃ record, store.mod? id = some record ∧ hash ∈ record.hashes := by
    intro hash id
    rw [findByHash_eq_some]
    constructor
    · intro h
      exact hstore.hashes h.2
    · intro h
      obtain ⟨record, hrecord, hmem⟩ := h
      exact ⟨(htidy _ _ hrecord).readable hmem, hstore.hash_owner hrecord hmem⟩
  constructor
  case listed_iff => exact fun listing id => hlisted
  case listed_once =>
      intro id other record found listing hrecord hfound hmem hother
      have hleads := hlisted.mpr ⟨record, hrecord, hmem⟩
      have hleads' := hlisted.mpr ⟨found, hfound, hother⟩
      exact Option.some.inj (hleads.symm.trans hleads')
  case listed_distinct => exact fun hrecord => (htidy _ _ hrecord).distinct
  case stored_iff => exact fun hash id => hstored
  case stored_once =>
      intro id other record found hash hrecord hfound hmem hother
      have hleads := hstored.mpr ⟨record, hrecord, hmem⟩
      have hleads' := hstored.mpr ⟨found, hfound, hother⟩
      exact Option.some.inj (Except.ok.inj (hleads.symm.trans hleads'))

end Store

end ModCatalog
