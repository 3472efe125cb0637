import ModCatalog.Store.Change

/-!
# What transactions do

A transaction that succeeds is taken apart into its steps, and each operation of the store gets one
statement of everything it changes.  All later facts about operations come from these statements.
-/

namespace ModCatalog.Transaction

variable {α β : Type} {store after : Store}

/-! ## Steps -/

theorem run_bind_eq_ok {change : Transaction α} {next : α → Transaction β} {value : β} :
    (change >>= next).run store = .ok (value, after) ↔
      ∃ middle between, change.run store = .ok (middle, between) ∧
        (next middle).run between = .ok (value, after) := by
  rw [StateT.run_bind]
  cases change.run store with
  | error fault => simp [bind, Except.bind]
  | ok pair =>
      obtain ⟨middle, between⟩ := pair
      constructor
      · intro h
        exact ⟨middle, between, rfl, h⟩
      · intro h
        obtain ⟨_, _, hpair, h⟩ := h
        cases hpair
        exact h

theorem run_pure_eq_ok {value result : α} :
    (pure value : Transaction α).run store = .ok (result, after) ↔
      value = result ∧ store = after := by
  change Except.ok (value, store) = Except.ok (result, after) ↔ _
  simp

theorem run_liftM_eq_ok {answer : Except Fault α} {value : α} :
    (liftM answer : Transaction α).run store = .ok (value, after) ↔
      answer = .ok value ∧ store = after := by
  cases answer with
  | error fault => exact ⟨nofun, nofun⟩
  | ok result =>
      change Except.ok (result, store) = Except.ok (value, after) ↔ _
      simp

theorem run_get_eq_ok {value : Store} :
    (get : Transaction Store).run store = .ok (value, after) ↔ store = value ∧ store = after := by
  change Except.ok (store, store) = Except.ok (value, after) ↔ _
  simp

theorem run_set_eq_ok {next : Store} {value : PUnit} :
    (set next : Transaction PUnit).run store = .ok (value, after) ↔ next = after := by
  change Except.ok (PUnit.unit, next) = Except.ok (value, after) ↔ _
  simp

theorem run_modify_eq_ok {change : Store → Store} {value : PUnit} :
    (modify change : Transaction PUnit).run store = .ok (value, after) ↔
      change store = after := by
  change Except.ok (PUnit.unit, change store) = Except.ok (value, after) ↔ _
  simp

theorem run_requireMod_eq_ok {id : Nat} {record : ModRecord} :
    (requireMod id).run store = .ok (record, after) ↔
      store.mod? id = some record ∧ store = after := by
  unfold requireMod Store.requireMod
  simp only [run_bind_eq_ok, run_get_eq_ok, run_liftM_eq_ok]
  constructor
  · intro h
    obtain ⟨_, _, ⟨rfl, rfl⟩, hfound, rfl⟩ := h
    split at hfound
    · next hrecord =>
        cases hfound
        exact ⟨hrecord, rfl⟩
    · cases hfound
  · intro h
    obtain ⟨hrecord, rfl⟩ := h
    exact ⟨store, store, ⟨rfl, rfl⟩, by rw [hrecord], rfl⟩

theorem run_writeMod_eq_ok {record : ModRecord} {value : PUnit} :
    (writeMod record).run store = .ok (value, after) ↔
      { store with mods := store.mods.put record.id record } = after :=
  run_modify_eq_ok

theorem run_check_modify_eq_ok {result : Except Fault Unit} {change : Store → Store}
    {value : PUnit} :
    (do check result; modify change : Transaction PUnit).run store = .ok (value, after) ↔
      result = .ok () ∧ change store = after := by
  simp only [check, run_bind_eq_ok, run_liftM_eq_ok, run_modify_eq_ok]
  constructor
  · intro h
    obtain ⟨_, _, ⟨hresult, rfl⟩, hafter⟩ := h
    exact ⟨hresult, hafter⟩
  · intro h
    obtain ⟨hresult, hafter⟩ := h
    exact ⟨(), store, ⟨hresult, rfl⟩, hafter⟩

theorem run_putHash_eq_ok {hash : String} {id : Nat} {value : PUnit} :
    (putHash hash id).run store = .ok (value, after) ↔
      Store.checkWrite hash 0 = .ok () ∧
        { store with hashes := store.hashes.put hash id } = after :=
  run_check_modify_eq_ok

theorem run_putListing_eq_ok {listing : Listing} {id : Nat} {value : PUnit} :
    (putListing listing id).run store = .ok (value, after) ↔
      Store.checkWrite listing.key 0 = .ok () ∧
        { store with listings := store.listings.put listing id } = after :=
  run_check_modify_eq_ok

theorem run_putCoordinate_eq_ok {coordinate : String} {id : Nat} {value : PUnit} :
    (putCoordinate coordinate id).run store = .ok (value, after) ↔
      Store.checkWrite coordinate 0 = .ok () ∧
        { store with coordinates := store.coordinates.put coordinate id } = after :=
  run_check_modify_eq_ok

theorem run_putFileOwner_eq_ok {file : FileKey} {id : Nat} {value : PUnit} :
    (putFileOwner file id).run store = .ok (value, after) ↔
      Store.checkWrite file.key Store.idLength = .ok () ∧
        { store with seenFiles := store.seenFiles.put file id } = after :=
  run_check_modify_eq_ok

theorem run_setLink_eq_ok {record linked : ModRecord} {link : PlatformLink} :
    (setLink record link).run store = .ok (linked, after) ↔
      Store.checkWrite link.listing.key 0 = .ok () ∧ record.withLink link = linked ∧
        { store with listings := store.listings.put link.listing record.id } = after := by
  simp only [setLink, run_bind_eq_ok, run_putListing_eq_ok, run_pure_eq_ok]
  constructor
  · intro h
    obtain ⟨_, _, ⟨hkey, rfl⟩, hlinked, hafter⟩ := h
    exact ⟨hkey, hlinked, hafter⟩
  · intro h
    obtain ⟨hkey, hlinked, hafter⟩ := h
    exact ⟨(), _, ⟨hkey, rfl⟩, hlinked, hafter⟩

theorem run_setCoordinate_eq_ok {record linked : ModRecord} {coordinate : String} :
    (setCoordinate record coordinate).run store = .ok (linked, after) ↔
      Store.checkWrite coordinate 0 = .ok () ∧ record.withCoordinate coordinate = linked ∧
        { store with coordinates := store.coordinates.put coordinate record.id } = after := by
  simp only [setCoordinate, run_bind_eq_ok, run_putCoordinate_eq_ok, run_pure_eq_ok]
  constructor
  · intro h
    obtain ⟨_, _, ⟨hkey, rfl⟩, hlinked, hafter⟩ := h
    exact ⟨hkey, hlinked, hafter⟩
  · intro h
    obtain ⟨hkey, hlinked, hafter⟩ := h
    exact ⟨(), _, ⟨hkey, rfl⟩, hlinked, hafter⟩

theorem run_forM_putHash_eq_ok {hashes : List String} {id : Nat} {value : PUnit} :
    (hashes.forM fun hash => putHash hash id).run store = .ok (value, after) ↔
      (∀ hash ∈ hashes, Store.checkWrite hash 0 = .ok ()) ∧
        { store with
          hashes := hashes.foldl (fun table hash => table.put hash id) store.hashes } = after := by
  rw [List.forM_eq_forM]
  induction hashes generalizing store with
  | nil =>
      rw [List.forM_nil, run_pure_eq_ok]
      simp
  | cons hash rest ih =>
      rw [List.forM_cons, run_bind_eq_ok]
      simp only [run_putHash_eq_ok, ih, List.forall_mem_cons, List.foldl_cons]
      constructor
      · intro h
        obtain ⟨_, _, ⟨hkey, rfl⟩, hkeys, hafter⟩ := h
        exact ⟨⟨hkey, hkeys⟩, hafter⟩
      · intro h
        obtain ⟨⟨hkey, hkeys⟩, hafter⟩ := h
        exact ⟨(), _, ⟨hkey, rfl⟩, hkeys, hafter⟩

/-! ## Committing -/

theorem commit_eq_ok {change : Transaction α} {value : α} :
    change.commit store = (.ok value, after) ↔ change.run store = .ok (value, after) := by
  unfold commit
  cases change.run store with
  | error fault => exact ⟨nofun, nofun⟩
  | ok pair => simp [Prod.ext_iff]

theorem commit_eq_error {change : Transaction α} {fault : Fault}
    (hrun : change.run store = .error fault) : change.commit store = (.error fault, store) := by
  unfold commit
  rw [hrun]

theorem commit_fst_eq_error {change : Transaction α} {fault : Fault} :
    (change.commit store).1 = .error fault ↔ change.run store = .error fault := by
  unfold commit
  cases change.run store <;> simp

/-! ## Faults -/

theorem run_bind_eq_error {change : Transaction α} {next : α → Transaction β} {fault : Fault} :
    (change >>= next).run store = .error fault ↔ change.run store = .error fault ∨
      ∃ middle between, change.run store = .ok (middle, between) ∧
        (next middle).run between = .error fault := by
  rw [StateT.run_bind]
  cases change.run store with
  | error other => simp [bind, Except.bind]
  | ok pair =>
      obtain ⟨middle, between⟩ := pair
      constructor
      · intro h
        exact Or.inr ⟨middle, between, rfl, h⟩
      · intro h
        rcases h with h | ⟨_, _, hpair, h⟩
        · cases h
        · cases hpair
          exact h

theorem run_liftM_eq_error {answer : Except Fault α} {fault : Fault} :
    (liftM answer : Transaction α).run store = .error fault ↔ answer = .error fault := by
  cases answer with
  | error other =>
      change Except.error other = Except.error fault ↔ _
      simp
  | ok value => exact ⟨nofun, nofun⟩

theorem run_requireMod_eq_error {id : Nat} {fault : Fault} :
    (requireMod id).run store = .error fault ↔
      store.mod? id = none ∧ .storage (.unknownMod id) = fault := by
  have hrun : (requireMod id).run store = (liftM (store.requireMod id) : Transaction _).run store :=
    rfl
  rw [hrun, run_liftM_eq_error]
  unfold Store.requireMod
  cases store.mod? id <;> simp

/-- Whether a transaction fails for no other reason than a key that is empty or too long. -/
def OnlyBadKeys (change : Transaction α) : Prop :=
  ∀ store fault, change.run store = .error fault → fault = .storage .badKey

theorem onlyBadKeys_pure (value : α) : OnlyBadKeys (pure value) := by
  intro store fault h
  cases h

theorem onlyBadKeys_get : OnlyBadKeys get := by
  intro store fault h
  cases h

theorem onlyBadKeys_modify (change : Store → Store) : OnlyBadKeys (modify change) := by
  intro store fault h
  cases h

theorem onlyBadKeys_bind {change : Transaction α} {next : α → Transaction β}
    (hchange : OnlyBadKeys change) (hnext : ∀ value, OnlyBadKeys (next value)) :
    OnlyBadKeys (change >>= next) := by
  intro store fault h
  rcases run_bind_eq_error.mp h with h | ⟨middle, between, _, h⟩
  · exact hchange store fault h
  · exact hnext middle between fault h

theorem onlyBadKeys_liftM {answer : Except Fault α}
    (hanswer : ∀ fault, answer = .error fault → fault = .storage .badKey) :
    OnlyBadKeys (liftM answer) := by
  intro store fault h
  cases answer with
  | ok value => cases h
  | error _ =>
      cases h
      exact hanswer _ rfl

theorem onlyBadKeys_check_modify (key : String) (extra : Nat) (change : Store → Store) :
    OnlyBadKeys (do check (Store.checkWrite key extra); modify change) := by
  refine onlyBadKeys_bind (onlyBadKeys_liftM ?_) fun _ => onlyBadKeys_modify change
  intro fault h
  unfold Store.checkWrite at h
  split at h
  · cases h
    rfl
  · cases h

theorem onlyBadKeys_createMod (new : NewMod) : OnlyBadKeys (createMod new) := by
  have hwrite : ∀ record : ModRecord, OnlyBadKeys (do writeMod record; return record) :=
    fun record => onlyBadKeys_bind (onlyBadKeys_modify _) fun _ => onlyBadKeys_pure record
  refine onlyBadKeys_bind onlyBadKeys_get fun store =>
    onlyBadKeys_bind (onlyBadKeys_modify fun _ => _) fun _ => ?_
  dsimp only
  split
  · exact hwrite _
  · refine onlyBadKeys_bind (onlyBadKeys_liftM fun fault => Store.findByCoordinate_eq_error)
      fun found => ?_
    split
    · exact onlyBadKeys_bind (onlyBadKeys_check_modify _ _ _) fun _ => hwrite _
    · exact hwrite _

theorem onlyBadKeys_setCoordinate (record : ModRecord) (coordinate : String) :
    OnlyBadKeys (setCoordinate record coordinate) :=
  onlyBadKeys_bind (onlyBadKeys_check_modify _ _ _) fun _ => onlyBadKeys_pure _

end ModCatalog.Transaction

namespace ModCatalog.Store

/-- The store with a mod under the next number. -/
def withNew (store : Store) (new : NewMod) : Store :=
  { store with
    nextId := store.nextId + 1
    mods := store.mods.put store.nextId (.ofNew store.nextId new)
    coordinates := new.coordinate.toList.foldl
      (fun table coordinate => table.putNew coordinate store.nextId) store.coordinates }

/-- The record of a new mod with the number `id` that is found under a key. -/
def newUnder (id : Nat) (new : NewMod) : LookupKey → ModRecord
  | .listing listing =>
      (ModRecord.ofNew id new).withLink ⟨listing.platform, listing.projectId, 0⟩
  | .coordinate coordinate => (ModRecord.ofNew id new).withCoordinate coordinate

/-- The store with a mod under the next number that is found under a key. -/
def withNewUnder (store : Store) (new : NewMod) (key : LookupKey) : Store :=
  let created := store.withNew new
  let created := { created with
    mods := created.mods.put store.nextId (newUnder store.nextId new key) }
  match key with
  | .listing listing =>
      { created with listings := created.listings.put listing store.nextId }
  | .coordinate coordinate =>
      { created with coordinates := created.coordinates.put coordinate store.nextId }

end ModCatalog.Store

namespace ModCatalog.Transaction

variable {store after : Store}

/-! ## Operations -/

theorem createMod_spec {new : NewMod} {record : ModRecord}
    (h : (createMod new).run store = .ok (record, after)) :
    record = .ofNew store.nextId new ∧ after = store.withNew new := by
  simp only [createMod, run_bind_eq_ok, run_get_eq_ok, run_set_eq_ok] at h
  obtain ⟨_, _, ⟨rfl, rfl⟩, _, _, rfl, h⟩ := h
  have hcoordinate : (ModRecord.ofNew store.nextId new).coordinate = new.coordinate := rfl
  rw [hcoordinate] at h
  cases hnew : new.coordinate with
  | none =>
      simp only [hnew, run_bind_eq_ok, run_writeMod_eq_ok, run_pure_eq_ok] at h
      obtain ⟨_, _, rfl, rfl, rfl⟩ := h
      simp [Store.withNew, hnew, ModRecord.ofNew]
  | some coordinate =>
      simp only [hnew, run_bind_eq_ok, run_liftM_eq_ok] at h
      obtain ⟨owner, _, ⟨howner, rfl⟩, h⟩ := h
      have hfound : owner = store.coordinates.get? coordinate := by
        unfold Store.findByCoordinate Store.checkRead at howner
        split at howner
        · cases howner
        · cases howner
          rfl
      cases hget : store.coordinates.get? coordinate with
      | none =>
          simp only [hfound, hget, run_bind_eq_ok, run_putCoordinate_eq_ok, run_writeMod_eq_ok,
            run_pure_eq_ok] at h
          obtain ⟨_, _, ⟨_, rfl⟩, _, _, rfl, rfl, rfl⟩ := h
          simp [Store.withNew, hnew, ModRecord.ofNew, Table.putNew, hget]
      | some other =>
          simp only [hfound, hget, run_bind_eq_ok, run_writeMod_eq_ok, run_pure_eq_ok] at h
          obtain ⟨_, _, rfl, rfl, rfl⟩ := h
          simp [Store.withNew, hnew, ModRecord.ofNew, Table.putNew, hget]

theorem findOrCreate_spec {key : LookupKey} {new : NewMod} {record : ModRecord} {created : Bool}
    (h : (findOrCreate key new).run store = .ok ((record, created), after)) :
    (∃ id, store.find key = .ok (some id) ∧ store.mod? id = some record ∧
      created = false ∧ after = store) ∨
    (store.find key = .ok none ∧ record = Store.newUnder store.nextId new key ∧
      created = true ∧ after = store.withNewUnder new key) := by
  simp only [findOrCreate, run_bind_eq_ok, run_get_eq_ok, run_liftM_eq_ok] at h
  obtain ⟨_, _, ⟨rfl, rfl⟩, found, _, ⟨hfound, rfl⟩, h⟩ := h
  cases found with
  | some id =>
      simp only [run_bind_eq_ok, run_requireMod_eq_ok, run_pure_eq_ok] at h
      obtain ⟨_, _, ⟨hrecord, rfl⟩, hpair, rfl⟩ := h
      cases hpair
      exact Or.inl ⟨id, hfound, hrecord, rfl, rfl⟩
  | none =>
      refine Or.inr ⟨hfound, ?_⟩
      rw [run_bind_eq_ok] at h
      obtain ⟨base, between, hbase, h⟩ := h
      obtain ⟨rfl, rfl⟩ := createMod_spec hbase
      cases key with
      | listing listing =>
          simp only [run_bind_eq_ok, run_setLink_eq_ok, run_writeMod_eq_ok, run_pure_eq_ok] at h
          obtain ⟨_, _, ⟨_, rfl, rfl⟩, _, _, rfl, hpair, rfl⟩ := h
          cases hpair
          refine ⟨rfl, rfl, ?_⟩
          rw [ModRecord.withLink_id]
          rfl
      | coordinate coordinate =>
          simp only [run_bind_eq_ok, run_setCoordinate_eq_ok, run_writeMod_eq_ok,
            run_pure_eq_ok] at h
          obtain ⟨_, _, ⟨_, rfl, rfl⟩, _, _, rfl, hpair, rfl⟩ := h
          cases hpair
          exact ⟨rfl, rfl, rfl⟩

theorem linkPlatform_spec {id : Nat} {link : PlatformLink} {value : PUnit}
    (h : (linkPlatform id link).run store = .ok (value, after)) :
    ∃ record, store.mod? id = some record ∧ after = { store with
      listings := store.listings.put link.listing record.id
      mods := store.mods.put record.id (record.withLink link) } := by
  simp only [linkPlatform, run_bind_eq_ok, run_requireMod_eq_ok, run_setLink_eq_ok,
    run_writeMod_eq_ok] at h
  obtain ⟨record, _, ⟨hrecord, rfl⟩, _, _, ⟨_, rfl, rfl⟩, rfl⟩ := h
  exact ⟨record, hrecord, by rw [ModRecord.withLink_id]⟩

theorem run_linkCoordinate_eq_ok {id : Nat} {coordinate : String} {value : PUnit} :
    (linkCoordinate id coordinate).run store = .ok (value, after) ↔
      ∃ record, store.mod? id = some record ∧ Store.checkWrite coordinate 0 = .ok () ∧
        { store with
          coordinates := store.coordinates.put coordinate record.id
          mods := store.mods.put record.id (record.withCoordinate coordinate) } = after := by
  simp only [linkCoordinate, run_bind_eq_ok, run_requireMod_eq_ok, run_setCoordinate_eq_ok,
    run_writeMod_eq_ok]
  constructor
  · intro h
    obtain ⟨record, _, ⟨hrecord, rfl⟩, _, _, ⟨hkey, rfl, rfl⟩, rfl⟩ := h
    exact ⟨record, hrecord, hkey, rfl⟩
  · intro h
    obtain ⟨record, hrecord, hkey, rfl⟩ := h
    exact ⟨record, store, ⟨hrecord, rfl⟩, _, _, ⟨hkey, rfl, rfl⟩, rfl⟩

theorem linkCoordinate_spec {id : Nat} {coordinate : String} {value : PUnit}
    (h : (linkCoordinate id coordinate).run store = .ok (value, after)) :
    ∃ record, store.mod? id = some record ∧ after = { store with
      coordinates := store.coordinates.put coordinate record.id
      mods := store.mods.put record.id (record.withCoordinate coordinate) } := by
  obtain ⟨record, hrecord, _, rfl⟩ := run_linkCoordinate_eq_ok.mp h
  exact ⟨record, hrecord, rfl⟩

theorem run_track_eq_ok {id : Nat} {batch : TrackBatch} {value : PUnit} :
    (track id batch).run store = .ok (value, after) ↔
      ∃ record, store.mod? id = some record ∧
        (∀ hash ∈ batch.knownHash, Store.checkWrite hash 0 = .ok ()) ∧
        { store.putRows id
            ((if batch.deletesCurrent then Rows.empty else store.rowsOf id).append batch.rows) with
          hashes := batch.knownHash.toList.foldl (fun table hash => table.put hash id) store.hashes
          mods := store.mods.put record.id (described record batch) } = after := by
  simp only [track, run_bind_eq_ok, run_requireMod_eq_ok, run_modify_eq_ok,
    run_forM_putHash_eq_ok, run_writeMod_eq_ok, described_id]
  constructor
  · intro h
    obtain ⟨record, _, ⟨hrecord, rfl⟩, _, _, rfl, _, _, ⟨hkeys, rfl⟩, rfl⟩ := h
    exact ⟨record, hrecord, by simpa using hkeys, rfl⟩
  · intro h
    obtain ⟨record, hrecord, hkeys, rfl⟩ := h
    exact ⟨record, store, ⟨hrecord, rfl⟩, (), _, rfl, (), _, ⟨by simpa using hkeys, rfl⟩, rfl⟩

theorem track_spec {id : Nat} {batch : TrackBatch} {value : PUnit}
    (h : (track id batch).run store = .ok (value, after)) :
    ∃ record, store.mod? id = some record ∧
      (∀ hash ∈ batch.knownHash, Store.checkWrite hash 0 = .ok ()) ∧
      after = { store.putRows id
          ((if batch.deletesCurrent then Rows.empty else store.rowsOf id).append batch.rows) with
        hashes := batch.knownHash.toList.foldl (fun table hash => table.put hash id) store.hashes
        mods := store.mods.put record.id (described record batch) } := by
  obtain ⟨record, hrecord, hkeys, rfl⟩ := run_track_eq_ok.mp h
  exact ⟨record, hrecord, hkeys, rfl⟩

end ModCatalog.Transaction
