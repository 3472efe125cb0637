import ModCatalog.Proofs.Store.Removal

/-!
# Consistent stores

Records and indexes agree in one direction: a content or a listing that leads to a mod leads to a
record that names it.  Coordinates are the exception, they only lead to numbers that were given.
Every operation writes one record, removes one mod, or lets one mod absorb another, and each of
these keeps a store consistent.
-/

namespace ModCatalog

/-- Every mod has its own number, and contents and listings lead to mods that name them. -/
structure Store.Consistent (store : Store) : Prop where
  keyed {id : Nat} {record : ModRecord} : store.mod? id = some record → record.id = id
  numbered {id : Nat} {record : ModRecord} : store.mod? id = some record → id < store.nextId
  hashes {hash : String} {id : Nat} : store.hashes.get? hash = some id →
    ∃ record, store.mod? id = some record ∧ hash ∈ record.hashes
  listings {listing : Listing} {id : Nat} : store.listings.get? listing = some id →
    ∃ record, store.mod? id = some record ∧ listing ∈ record.listings
  coordinates {coordinate : String} {id : Nat} : store.coordinates.get? coordinate = some id →
    id < store.nextId

/-- What is left when one record was written: it names no less than before, and every index entry
that is new leads to it. -/
structure Store.Wrote (store : Store) (record : ModRecord) (after : Store) : Prop where
  nextId : store.nextId ≤ after.nextId
  numbered : record.id < after.nextId
  /-- A number that was given away is never given to another mod. -/
  unused : store.mod? record.id = none → store.nextId ≤ record.id
  mods (id : Nat) : after.mod? id = if id = record.id then some record else store.mod? id
  keeps_hashes {old : ModRecord} : store.mod? record.id = some old → old.hashes ⊆ record.hashes
  keeps_listings {old : ModRecord} : store.mod? record.id = some old →
    old.listings ⊆ record.listings
  hashes (hash : String) : after.hashes.get? hash = store.hashes.get? hash ∨
    after.hashes.get? hash = some record.id ∧ hash ∈ record.hashes
  listings (listing : Listing) : after.listings.get? listing = store.listings.get? listing ∨
    after.listings.get? listing = some record.id ∧ listing ∈ record.listings
  coordinates (coordinate : String) :
    after.coordinates.get? coordinate = store.coordinates.get? coordinate ∨
      after.coordinates.get? coordinate = some record.id

/-- What a change can do to mods and to the ways of finding them. -/
inductive Store.Effect (store after : Store) : Prop
  | kept (seenFiles : Table FileKey Nat) (rows : Table Nat Rows)
      (hafter : after = { store with seenFiles := seenFiles, rows := rows })
  | wrote (record : ModRecord) (hwrote : store.Wrote record after)
  | deleted (id : Nat) (record : ModRecord) (hrecord : store.mod? id = some record)
      (hafter : after = store.deleteMod id)
  | absorbed (target old record : ModRecord) (link : PlatformLink)
      (habsorbed : store.Absorbed target old record link after)

namespace Store

variable {store after : Store} {record : ModRecord}

theorem Consistent.empty : empty.Consistent := by
  constructor <;> simp [Store.empty, mod?]

theorem Consistent.mod?_nextId (hstore : store.Consistent) : store.mod? store.nextId = none := by
  cases hrecord : store.mod? store.nextId with
  | none => rfl
  | some record => exact absurd (hstore.numbered hrecord) (Nat.lt_irrefl _)

/-! ## Writing a record -/

/-- An entry that is kept still leads to a record that names what it is found by, for the record
that was written names no less than the one in its place. -/
theorem Wrote.found (hwrote : store.Wrote record after) {id : Nat} {names : ModRecord → Prop}
    (hkeeps : ∀ old, store.mod? record.id = some old → names old → names record)
    (hfound : ∃ old, store.mod? id = some old ∧ names old) :
    ∃ found, after.mod? id = some found ∧ names found := by
  obtain ⟨old, hold, hnames⟩ := hfound
  rw [hwrote.mods]
  by_cases hid : id = record.id
  · subst hid
    exact ⟨record, if_pos rfl, hkeeps old hold hnames⟩
  · exact ⟨old, by rw [if_neg hid, hold], hnames⟩

theorem Wrote.consistent (hwrote : store.Wrote record after) (hstore : store.Consistent) :
    after.Consistent := by
  have hrecord : after.mod? record.id = some record := by rw [hwrote.mods, if_pos rfl]
  constructor
  case keyed =>
      intro id found hfound
      rw [hwrote.mods] at hfound
      split at hfound
      · next hid =>
          cases hfound
          exact hid.symm
      · exact hstore.keyed hfound
  case numbered =>
      intro id found hfound
      rw [hwrote.mods] at hfound
      split at hfound
      · next hid =>
          rw [hid]
          exact hwrote.numbered
      · exact Nat.lt_of_lt_of_le (hstore.numbered hfound) hwrote.nextId
  case hashes =>
      intro hash id hentry
      rcases hwrote.hashes hash with hkept | ⟨hnew, hmem⟩
      · rw [hkept] at hentry
        exact hwrote.found (fun old hold hmem => hwrote.keeps_hashes hold hmem)
          (hstore.hashes hentry)
      · cases hnew.symm.trans hentry
        exact ⟨record, hrecord, hmem⟩
  case listings =>
      intro listing id hentry
      rcases hwrote.listings listing with hkept | ⟨hnew, hmem⟩
      · rw [hkept] at hentry
        exact hwrote.found (fun old hold hmem => hwrote.keeps_listings hold hmem)
          (hstore.listings hentry)
      · cases hnew.symm.trans hentry
        exact ⟨record, hrecord, hmem⟩
  case coordinates =>
      intro coordinate id hentry
      rcases hwrote.coordinates coordinate with hkept | hnew
      · rw [hkept] at hentry
        exact Nat.lt_of_lt_of_le (hstore.coordinates hentry) hwrote.nextId
      · cases hnew.symm.trans hentry
        exact hwrote.numbered

/-! ## Removing a mod -/

/-- An entry that is not erased leads to another mod than the one that was removed. -/
theorem found_deleteMod {id other : Nat} {names : ModRecord → Prop}
    (hrecord : store.mod? id = some record)
    (hfound : ∃ found, store.mod? other = some found ∧ names found)
    (hstays : ¬ (names record ∧ other = id)) :
    ∃ found, (store.deleteMod id).mod? other = some found ∧ names found := by
  obtain ⟨found, hfound, hnames⟩ := hfound
  have hne : other ≠ id := by
    intro heq
    subst heq
    cases hrecord.symm.trans hfound
    exact hstays ⟨hnames, rfl⟩
  exact ⟨found, by rw [mod?_deleteMod, if_neg hne, hfound], hnames⟩

theorem Consistent.deleteMod (hstore : store.Consistent) {id : Nat}
    (hrecord : store.mod? id = some record) : (store.deleteMod id).Consistent := by
  have hkept : ∀ {other : Nat} {found : ModRecord}, (store.deleteMod id).mod? other = some found →
      store.mod? other = some found := by
    intro other found hfound
    rw [mod?_deleteMod] at hfound
    split at hfound
    · cases hfound
    · exact hfound
  constructor
  case keyed =>
      intro other found hfound
      exact hstore.keyed (hkept hfound)
  case numbered =>
      intro other found hfound
      rw [nextId_deleteMod]
      exact hstore.numbered (hkept hfound)
  case hashes =>
      intro hash other hentry
      rw [hashes_deleteMod hrecord] at hentry
      split at hentry
      · cases hentry
      · next hstays =>
          refine found_deleteMod hrecord (hstore.hashes hentry) ?_
          intro h
          obtain ⟨hmem, rfl⟩ := h
          exact hstays ⟨hmem, hentry⟩
  case listings =>
      intro listing other hentry
      rw [listings_deleteMod hrecord] at hentry
      split at hentry
      · cases hentry
      · next hstays =>
          refine found_deleteMod hrecord (hstore.listings hentry) ?_
          intro h
          obtain ⟨hmem, rfl⟩ := h
          exact hstays ⟨hmem, hentry⟩
  case coordinates =>
      intro coordinate other hentry
      rw [coordinates_deleteMod hrecord] at hentry
      rw [nextId_deleteMod]
      split at hentry
      · cases hentry
      · exact hstore.coordinates hentry

/-! ## Absorbing a mod -/

section Absorption

variable {target old : ModRecord} {link : PlatformLink}

theorem Absorbed.mod?_target (habsorbed : store.Absorbed target old record link after) :
    after.mod? target.id = some record := by
  rw [habsorbed.mods, if_pos rfl]

theorem Absorbed.mod?_old (habsorbed : store.Absorbed target old record link after) :
    after.mod? old.id = none := by
  rw [habsorbed.mods, if_neg habsorbed.distinct.symm, if_pos rfl]

/-- An entry that is neither handed over nor erased leads to the target or to a third mod. -/
theorem Absorbed.found (habsorbed : store.Absorbed target old record link after) {id : Nat}
    {names : ModRecord → Prop} (htarget : names target → names record)
    (hfound : ∃ found, store.mod? id = some found ∧ names found)
    (hstays : ¬ (names old ∧ id = old.id)) :
    ∃ found, after.mod? id = some found ∧ names found := by
  obtain ⟨found, hfound, hnames⟩ := hfound
  have hne : id ≠ old.id := by
    intro heq
    subst heq
    cases habsorbed.found_old.symm.trans hfound
    exact hstays ⟨hnames, rfl⟩
  by_cases hid : id = target.id
  · subst hid
    cases habsorbed.found_target.symm.trans hfound
    exact ⟨record, habsorbed.mod?_target, htarget hnames⟩
  · exact ⟨found, by rw [habsorbed.mods, if_neg hid, if_neg hne, hfound], hnames⟩

theorem Absorbed.consistent (habsorbed : store.Absorbed target old record link after)
    (hstore : store.Consistent) : after.Consistent := by
  constructor
  case keyed =>
      intro id found hfound
      rw [habsorbed.mods] at hfound
      split at hfound
      · next hid =>
          cases hfound
          rw [habsorbed.record_id, hid]
      · split at hfound
        · cases hfound
        · exact hstore.keyed hfound
  case numbered =>
      intro id found hfound
      rw [habsorbed.nextId]
      rw [habsorbed.mods] at hfound
      split at hfound
      · next hid =>
          rw [hid]
          exact hstore.numbered habsorbed.found_target
      · split at hfound
        · cases hfound
        · exact hstore.numbered hfound
  case hashes =>
      intro hash id hentry
      rw [habsorbed.hashes] at hentry
      split at hentry
      · next hmem =>
          cases hentry
          exact ⟨record, habsorbed.mod?_target, habsorbed.mem_hashes.mpr (Or.inr hmem)⟩
      · next hmem =>
          exact habsorbed.found (fun h => habsorbed.mem_hashes.mpr (Or.inl h))
            (hstore.hashes hentry) (fun h => hmem h.1)
  case listings =>
      intro listing id hentry
      rw [habsorbed.listings] at hentry
      split at hentry
      · next hhanded =>
          cases hentry
          refine ⟨record, habsorbed.mod?_target, habsorbed.mem_listings.mpr ?_⟩
          rcases hhanded with heq | ⟨hmem, _⟩
          · exact Or.inl heq
          · exact Or.inr (Or.inr hmem)
      · split at hentry
        · cases hentry
        · next hstays =>
            refine habsorbed.found (fun h => habsorbed.mem_listings.mpr (Or.inr (Or.inl h)))
              (hstore.listings hentry) ?_
            intro h
            obtain ⟨hmem, rfl⟩ := h
            exact hstays ⟨hmem, hentry⟩
  case coordinates =>
      intro coordinate id hentry
      rw [habsorbed.nextId]
      rw [habsorbed.coordinates] at hentry
      split at hentry
      · cases hentry
        exact hstore.numbered habsorbed.found_target
      · exact hstore.coordinates hentry

end Absorption

/-! ## Every operation -/

theorem newUnder_id (id : Nat) (new : NewMod) (key : LookupKey) :
    (newUnder id new key).id = id := by
  cases key with
  | listing listing => exact ModRecord.withLink_id _ _
  | coordinate coordinate => rfl

theorem Consistent.wrote_withNew (hstore : store.Consistent) (new : NewMod) :
    store.Wrote (.ofNew store.nextId new) (store.withNew new) := by
  have hnone : ∀ {old}, store.mod? store.nextId = some old → False := by
    intro old hold
    exact Nat.lt_irrefl _ (hstore.numbered hold)
  constructor
  case nextId => exact Nat.le_succ _
  case numbered => exact Nat.lt_succ_self _
  case unused => exact fun _ => Nat.le_refl _
  case mods =>
      intro id
      exact Table.get?_put store.mods store.nextId id _
  case keeps_hashes => exact fun hold => (hnone hold).elim
  case keeps_listings => exact fun hold => (hnone hold).elim
  case hashes => exact fun hash => Or.inl rfl
  case listings => exact fun listing => Or.inl rfl
  case coordinates =>
      intro coordinate
      unfold withNew
      cases new.coordinate with
      | none => exact Or.inl rfl
      | some own =>
          simp only [Option.toList_some, List.foldl_cons, List.foldl_nil, Table.get?_putNew]
          split
          · exact Or.inr rfl
          · exact Or.inl rfl

theorem Consistent.wrote_withNewUnder (hstore : store.Consistent) (new : NewMod)
    (key : LookupKey) :
    store.Wrote (newUnder store.nextId new key) (store.withNewUnder new key) := by
  have hid : (newUnder store.nextId new key).id = store.nextId := newUnder_id store.nextId new key
  have hnone : ∀ {old}, store.mod? (newUnder store.nextId new key).id = some old → False := by
    intro old hold
    rw [hid, hstore.mod?_nextId] at hold
    cases hold
  have hnew := hstore.wrote_withNew new
  have hmods : ∀ id, (store.withNewUnder new key).mod? id =
      ((store.withNew new).mods.put store.nextId (newUnder store.nextId new key)).get? id := by
    cases key <;> exact fun id => rfl
  constructor
  case nextId => cases key <;> exact Nat.le_succ _
  case numbered =>
      rw [hid]
      cases key <;> exact Nat.lt_succ_self _
  case unused => exact fun _ => Nat.le_of_eq hid.symm
  case mods =>
      intro id
      rw [hmods, hid, Table.get?_put]
      split
      · rfl
      · next hne =>
          have hother := hnew.mods id
          rwa [show (ModRecord.ofNew store.nextId new).id = store.nextId from rfl,
            if_neg hne] at hother
  case keeps_hashes => exact fun hold => (hnone hold).elim
  case keeps_listings => exact fun hold => (hnone hold).elim
  case hashes => cases key <;> exact fun hash => Or.inl rfl
  case listings =>
      intro listing
      cases key with
      | coordinate own => exact Or.inl rfl
      | listing own =>
          rw [hid]
          unfold withNewUnder
          simp only [Table.get?_put]
          split
          · next heq =>
              exact Or.inr ⟨rfl, ModRecord.mem_listings_withLink.mpr (Or.inl heq)⟩
          · exact Or.inl rfl
  case coordinates =>
      intro coordinate
      rw [hid]
      cases key with
      | listing own => exact hnew.coordinates coordinate
      | coordinate own =>
          unfold withNewUnder
          simp only [Table.get?_put]
          split
          · exact Or.inr rfl
          · exact hnew.coordinates coordinate

/-- A record that is written back under its number, with no less than it named before. -/
theorem Consistent.wrote_back (hstore : store.Consistent) {id : Nat} {old : ModRecord}
    (hold : store.mod? id = some old) (hid : record.id = id)
    (hnext : after.nextId = store.nextId) (hmods : after.mods = store.mods.put id record)
    (hkeeps : old.hashes ⊆ record.hashes ∧ old.listings ⊆ record.listings)
    (hhashes : ∀ hash, after.hashes.get? hash = store.hashes.get? hash ∨
      after.hashes.get? hash = some id ∧ hash ∈ record.hashes)
    (hlistings : ∀ listing, after.listings.get? listing = store.listings.get? listing ∨
      after.listings.get? listing = some id ∧ listing ∈ record.listings)
    (hcoordinates : ∀ coordinate,
      after.coordinates.get? coordinate = store.coordinates.get? coordinate ∨
        after.coordinates.get? coordinate = some id) :
    store.Wrote record after := by
  subst hid
  constructor
  case nextId => exact Nat.le_of_eq hnext.symm
  case numbered =>
      rw [hnext]
      exact hstore.numbered hold
  case unused =>
      intro hnone
      cases hold.symm.trans hnone
  case mods =>
      intro id
      unfold mod?
      rw [hmods, Table.get?_put]
  case keeps_hashes =>
      intro found hfound
      cases hold.symm.trans hfound
      exact hkeeps.1
  case keeps_listings =>
      intro found hfound
      cases hold.symm.trans hfound
      exact hkeeps.2
  case hashes => exact hhashes
  case listings => exact hlistings
  case coordinates => exact hcoordinates

theorem Consistent.wrote_withLink (hstore : store.Consistent) {id : Nat}
    (hrecord : store.mod? id = some record) (link : PlatformLink) :
    store.Wrote (record.withLink link) { store with
      listings := store.listings.put link.listing id
      mods := store.mods.put id (record.withLink link) } := by
  refine hstore.wrote_back hrecord ?_ rfl rfl ⟨?_, ?_⟩ (fun hash => Or.inl rfl) ?_
    (fun coordinate => Or.inl rfl)
  · rw [ModRecord.withLink_id, hstore.keyed hrecord]
  · rw [ModRecord.withLink_hashes]
    exact List.Subset.refl _
  · exact fun listing hmem => ModRecord.mem_listings_withLink.mpr (Or.inr hmem)
  · intro listing
    rw [Table.get?_put]
    split
    · next heq => exact Or.inr ⟨rfl, ModRecord.mem_listings_withLink.mpr (Or.inl heq)⟩
    · exact Or.inl rfl

theorem Consistent.wrote_withCoordinate (hstore : store.Consistent) {id : Nat}
    (hrecord : store.mod? id = some record) (coordinate : String) :
    store.Wrote (record.withCoordinate coordinate) { store with
      coordinates := store.coordinates.put coordinate id
      mods := store.mods.put id (record.withCoordinate coordinate) } := by
  have hid : record.id = id := hstore.keyed hrecord
  refine hstore.wrote_back hrecord hid rfl rfl ⟨List.Subset.refl _, List.Subset.refl _⟩
    (fun hash => Or.inl rfl) (fun listing => Or.inl rfl) ?_
  intro other
  rw [Table.get?_put]
  split
  · exact Or.inr rfl
  · exact Or.inl rfl

theorem Consistent.wrote_described (hstore : store.Consistent) {id : Nat}
    (hrecord : store.mod? id = some record) (batch : TrackBatch) (rows : Rows) :
    store.Wrote (Transaction.described record batch) { store.putRows id rows with
      hashes := batch.knownHash.toList.foldl (fun table hash => table.put hash id) store.hashes
      mods := store.mods.put id (Transaction.described record batch) } := by
  refine hstore.wrote_back hrecord ?_ rfl rfl ⟨?_, ?_⟩ ?_ (fun listing => Or.inl rfl)
    (fun coordinate => Or.inl rfl)
  · rw [Transaction.described_id, hstore.keyed hrecord]
  · exact fun hash hmem => Transaction.mem_hashes_described.mpr (Or.inl hmem)
  · rw [Transaction.described_listings]
    exact List.Subset.refl _
  · intro hash
    rw [Table.get?_foldl_put]
    split
    · next hmem =>
        rw [Option.mem_toList] at hmem
        exact Or.inr ⟨rfl, Transaction.mem_hashes_described.mpr (Or.inr hmem)⟩
    · exact Or.inl rfl

/-! ## Any change -/

theorem Effect.consistent (heffect : store.Effect after) (hstore : store.Consistent) :
    after.Consistent := by
  cases heffect with
  | kept seenFiles rows hafter =>
      subst hafter
      exact ⟨hstore.keyed, hstore.numbered, hstore.hashes, hstore.listings, hstore.coordinates⟩
  | wrote record hwrote => exact hwrote.consistent hstore
  | deleted id record hrecord hafter =>
      subst hafter
      exact hstore.deleteMod hrecord
  | absorbed target old record link habsorbed => exact habsorbed.consistent hstore

theorem Effect.nextId_le (heffect : store.Effect after) : store.nextId ≤ after.nextId := by
  cases heffect with
  | kept seenFiles rows hafter =>
      subst hafter
      exact Nat.le_refl _
  | wrote record hwrote => exact hwrote.nextId
  | deleted id record hrecord hafter => exact Nat.le_of_eq (hafter ▸ (nextId_deleteMod _ _).symm)
  | absorbed target old record link habsorbed => exact Nat.le_of_eq habsorbed.nextId.symm

/-- No change brings a mod back. -/
theorem Effect.gone (heffect : store.Effect after) {id : Nat} (hid : id < store.nextId)
    (hgone : store.mod? id = none) : after.mod? id = none := by
  cases heffect with
  | kept seenFiles rows hafter =>
      subst hafter
      exact hgone
  | wrote record hwrote =>
      rw [hwrote.mods]
      split
      · next heq =>
          subst heq
          exact absurd (hwrote.unused hgone) (Nat.not_le_of_lt hid)
      · exact hgone
  | deleted other record hrecord hafter =>
      rw [hafter, mod?_deleteMod, hgone, ite_self]
  | absorbed target old record link habsorbed =>
      rw [habsorbed.mods, hgone, ite_self]
      split
      · next heq =>
          subst heq
          cases habsorbed.found_target.symm.trans hgone
      · rfl

end Store

end ModCatalog
