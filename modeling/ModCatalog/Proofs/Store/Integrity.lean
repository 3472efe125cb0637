import ModCatalog.Proofs.Store.History

/-!
# What the tables lead to

Contents and listings lead to mods that name them.  A file that was seen belongs to a mod, and only
mods have rows: deletion takes the files and the rows of a mod along, and absorption hands the files
over.  A number is given to one mod only.
-/

namespace ModCatalog

/-- A consistent store in which files and rows belong to mods that are there. -/
structure Store.Sound (store : Store) : Prop extends store.Consistent where
  seenFiles {file : FileKey} {id : Nat} : store.seenFiles.get? file = some id →
    (store.mod? id).isSome
  rows {id : Nat} : (store.rows.get? id).isSome → (store.mod? id).isSome

namespace Store

/-- Whether a change that notes a file names a mod that is there. -/
def Change.namesMod (store : Store) : Change → Bool
  | .markFileSeen _ id => (store.mod? id).isSome
  | _ => true

/-- Whether this is so for changes one after another. -/
def allNameMods (store : Store) : List Change → Bool
  | [] => true
  | change :: rest => change.namesMod store && (store.after change).allNameMods rest

/-- The number that a change gives to a new mod. -/
def newId? (store : Store) : Change → Option Nat
  | .createMod new => ((Transaction.createMod new).commit store).1.toOption.map ModRecord.id
  | .findOrCreate key new =>
      ((Transaction.findOrCreate key new).commit store).1.toOption.bind fun answer =>
        if answer.2 then some answer.1.id else none
  | _ => none

/-- The numbers that changes give to new mods, one after another. -/
def newIds (store : Store) : List Change → List Nat
  | [] => []
  | change :: rest => (store.newId? change).toList ++ (store.after change).newIds rest

variable {store after : Store}

/-! ## One change -/

theorem Sound.empty : Store.empty.Sound := ⟨Consistent.empty, nofun, nofun⟩

theorem isSome_mod?_put {mods : Table Nat ModRecord} {id other : Nat} {record : ModRecord}
    (hfound : (mods.get? other).isSome) : ((mods.put id record).get? other).isSome := by
  rw [Table.get?_put]
  split
  · rfl
  · exact hfound

/-- Whether only mods have rows. -/
def RowsOwned (store : Store) : Prop :=
  ∀ ⦃id⦄, (store.rows.get? id).isSome → (store.mod? id).isSome

/-- Whether files belong to mods only. -/
def FilesOwned (store : Store) : Prop :=
  ∀ ⦃file id⦄, store.seenFiles.get? file = some id → (store.mod? id).isSome

/-- A step after which rows still belong to mods, and files too if it is `named` for whom it notes
one. -/
structure KeepsOwners (named : Prop) (store after : Store) : Prop where
  rows : store.RowsOwned → after.RowsOwned
  files : named → store.FilesOwned → after.FilesOwned

theorem KeepsOwners.refl (named : Prop) (store : Store) : store.KeepsOwners named store :=
  ⟨fun h => h, fun _ h => h⟩

theorem keepsOwners_of_kept {named : Prop}
    (hmods : ∀ {id}, (store.mod? id).isSome → (after.mod? id).isSome)
    (hfiles : after.seenFiles = store.seenFiles) (hrows : after.rows = store.rows) :
    store.KeepsOwners named after := by
  refine ⟨?_, fun _ => ?_⟩
  · intro howned id hentry
    rw [hrows] at hentry
    exact hmods (howned hentry)
  · intro howned file id hentry
    rw [hfiles] at hentry
    exact hmods (howned hentry)

/-- A mod that goes takes its rows along. -/
theorem RowsOwned.erase (hstore : store.RowsOwned) {id : Nat}
    (hmods : ∀ {other}, other ≠ id → (store.mod? other).isSome → (after.mod? other).isSome)
    (hrows : ∀ other, after.rows.get? other = if other = id then none else store.rows.get? other) :
    after.RowsOwned := by
  intro other hentry
  rw [hrows] at hentry
  by_cases hother : other = id
  · simp [hother] at hentry
  · rw [if_neg hother] at hentry
    exact hmods hother (hstore hentry)

theorem keepsOwners_deleteMod {named : Prop} {id : Nat} {record : ModRecord}
    (hrecord : store.mod? id = some record) : store.KeepsOwners named (store.deleteMod id) := by
  have hmods : ∀ {other}, other ≠ id → (store.mod? other).isSome →
      ((store.deleteMod id).mod? other).isSome := by
    intro other hne hfound
    rwa [mod?_deleteMod, if_neg hne]
  refine ⟨fun howned => howned.erase hmods (rows_deleteMod hrecord), fun _ => ?_⟩
  intro howned file other hentry
  rw [seenFiles_deleteMod hrecord] at hentry
  obtain ⟨hbefore, hother⟩ := Option.filter_eq_some_iff.mp hentry
  exact hmods (by simpa using hother) (howned hbefore)

theorem keepsOwners_absorbed {named : Prop} {target old record : ModRecord} {link : PlatformLink}
    (habsorbed : store.Absorbed target old record link after) : store.KeepsOwners named after := by
  have hmods : ∀ {id}, id ≠ old.id → (store.mod? id).isSome → (after.mod? id).isSome := by
    intro id hne hfound
    rw [habsorbed.mods, if_neg hne]
    split
    · rfl
    · exact hfound
  refine ⟨fun howned => howned.erase hmods habsorbed.rows, fun _ => ?_⟩
  intro howned file id hentry
  rw [habsorbed.seenFiles] at hentry
  obtain ⟨owner, hbefore, hid⟩ := Option.map_eq_some_iff.mp hentry
  by_cases howner : owner = old.id
  · rw [if_pos howner] at hid
    subst hid
    rw [habsorbed.mod?_target]
    rfl
  · rw [if_neg howner] at hid
    subst hid
    exact hmods howner (howned hbefore)

theorem keepsOwners_after (hstore : store.Consistent) (change : Change) :
    store.KeepsOwners (change.namesMod store) (store.after change) := by
  rcases after_cases store change with hsame | hrun
  · rw [hsame]
    exact .refl _ store
  · cases change with
    | createMod new =>
        obtain ⟨record, hcreated⟩ := Transaction.run_discard_eq_ok.mp hrun
        obtain ⟨-, hstate⟩ := Transaction.createMod_spec hcreated
        rw [hstate]
        exact keepsOwners_of_kept isSome_mod?_put rfl rfl
    | findOrCreate key new =>
        obtain ⟨⟨record, created⟩, hfound⟩ := Transaction.run_discard_eq_ok.mp hrun
        rcases Transaction.findOrCreate_spec hfound with ⟨_, _, _, _, hstate⟩ | ⟨_, _, _, hstate⟩
        · rw [hstate]
          exact .refl _ store
        · rw [hstate]
          cases key <;>
            exact keepsOwners_of_kept (fun h => isSome_mod?_put (isSome_mod?_put h)) rfl rfl
    | linkPlatform id link =>
        obtain ⟨record, -, hstate⟩ := Transaction.linkPlatform_spec hrun
        rw [hstate]
        exact keepsOwners_of_kept isSome_mod?_put rfl rfl
    | linkCoordinate id coordinate =>
        obtain ⟨record, -, hstate⟩ := Transaction.linkCoordinate_spec hrun
        rw [hstate]
        exact keepsOwners_of_kept isSome_mod?_put rfl rfl
    | attachPlatform id link =>
        obtain ⟨absorbed, hattached⟩ := Transaction.run_discard_eq_ok.mp hrun
        rcases Transaction.attachPlatform_spec hstore.keyed hattached with
          ⟨target, -, -, ⟨-, hstate⟩ | ⟨old, record, -, habsorbed⟩⟩
        · rw [hstate]
          exact keepsOwners_of_kept isSome_mod?_put rfl rfl
        · exact keepsOwners_absorbed habsorbed
    | deleteMod id =>
        have hstate : store.deleteMod id = store.after (.deleteMod id) :=
          Transaction.run_modify_eq_ok.mp hrun
        rw [← hstate]
        cases hrecord : store.mod? id with
        | none =>
            rw [deleteMod_eq_self hrecord]
            exact .refl _ store
        | some record => exact keepsOwners_deleteMod hrecord
    | markFileSeen link id =>
        obtain ⟨-, hstate⟩ := Transaction.run_putFileOwner_eq_ok.mp hrun
        rw [← hstate]
        refine ⟨fun howned => howned, fun hnames howned => ?_⟩
        intro file owner hentry
        rw [Table.get?_put] at hentry
        split at hentry
        · cases hentry
          exact hnames
        · exact howned hentry
    | track id batch =>
        obtain ⟨record, hrecord, -, hstate⟩ := Transaction.track_spec hrun
        rw [hstate]
        refine ⟨fun howned => ?_, fun _ howned file owner hentry =>
          isSome_mod?_put (howned hentry)⟩
        intro other hentry
        refine isSome_mod?_put ?_
        change (store.mod? other).isSome
        by_cases hother : other = id
        · rw [hother, hrecord]
          rfl
        · have hrows := get?_rows_putRows store id other
            ((if batch.deletesCurrent then Rows.empty else store.rowsOf id).append batch.rows)
          rw [if_neg hother] at hrows
          refine howned ?_
          rw [← hrows]
          exact hentry
    | purgeRows id =>
        have hstate : { store with rows := store.rows.erase id } = store.after (.purgeRows id) :=
          Transaction.run_modify_eq_ok.mp hrun
        rw [← hstate]
        have hrows : ∀ other, (store.rows.erase id).get? other =
            if other = id then none else store.rows.get? other :=
          fun other => Table.get?_erase store.rows id other
        exact ⟨fun howned => howned.erase (fun _ h => h) hrows, fun _ howned => howned⟩

theorem Sound.step (hstore : store.Sound) {change : Change} (hnames : change.namesMod store) :
    (store.after change).Sound := by
  have howners := keepsOwners_after hstore.toConsistent change
  exact ⟨(hstore.toConsistent.effect change).consistent hstore.toConsistent,
    @(howners.files hnames fun _ _ => hstore.seenFiles), @(howners.rows fun _ => hstore.rows)⟩

theorem run_of_toOption_commit {α : Type} {change : Transaction α} {value : α}
    (h : (change.commit store).1.toOption = some value) :
    ∃ next, change.run store = .ok (value, next) := by
  unfold Transaction.commit at h
  cases hrun : change.run store with
  | error fault =>
      rw [hrun] at h
      cases h
  | ok pair =>
      rw [hrun] at h
      cases h
      exact ⟨pair.2, rfl⟩

theorem newId?_spec {change : Change} {id : Nat} (hnew : store.newId? change = some id) :
    id = store.nextId ∧ id < (store.after change).nextId := by
  cases change with
  | createMod new =>
      obtain ⟨record, hanswer, rfl⟩ := Option.map_eq_some_iff.mp hnew
      obtain ⟨next, hrun⟩ := run_of_toOption_commit hanswer
      obtain ⟨hrecord, hstate⟩ := Transaction.createMod_spec hrun
      have hstep : store.after (.createMod new) = next :=
        after_eq_of_run (Transaction.run_discard_eq_ok.mpr ⟨record, hrun⟩)
      rw [hstep, hstate, hrecord]
      exact ⟨rfl, Nat.lt_succ_self _⟩
  | findOrCreate key new =>
      obtain ⟨⟨record, created⟩, hanswer, hid⟩ := Option.bind_eq_some_iff.mp hnew
      obtain ⟨next, hrun⟩ := run_of_toOption_commit hanswer
      have hstep : store.after (.findOrCreate key new) = next :=
        after_eq_of_run (Transaction.run_discard_eq_ok.mpr ⟨(record, created), hrun⟩)
      rcases Transaction.findOrCreate_spec hrun with
        ⟨_, _, _, rfl, _⟩ | ⟨_, hrecord, rfl, hstate⟩
      · cases hid
      · cases hid
        rw [hstep, hstate, hrecord, newUnder_id]
        cases key <;> exact ⟨rfl, Nat.lt_succ_self _⟩
  | _ => cases hnew

/-! ## A whole history -/

theorem Sound.afterAll (hstore : store.Sound) {changes : List Change}
    (hnames : store.allNameMods changes) : (store.afterAll changes).Sound := by
  induction changes generalizing store with
  | nil => exact hstore
  | cons change rest ih =>
      unfold allNameMods at hnames
      rw [Bool.and_eq_true] at hnames
      exact ih (hstore.step hnames.1) hnames.2

theorem RowsOwned.afterAll (hstore : store.Consistent) (howned : store.RowsOwned)
    (changes : List Change) : (store.afterAll changes).RowsOwned := by
  induction changes generalizing store with
  | nil => exact howned
  | cons change rest ih =>
      exact ih ((hstore.effect change).consistent hstore)
        ((keepsOwners_after hstore change).rows howned)

/-- Whatever happened to a store, only mods have rows. -/
theorem Reachable.rowsOwned (hreachable : store.Reachable) : store.RowsOwned := by
  obtain ⟨changes, rfl⟩ := hreachable
  exact RowsOwned.afterAll .empty nofun changes

theorem Consistent.newIds_spec (hstore : store.Consistent) (changes : List Change) :
    (store.newIds changes).Pairwise (· < ·) ∧
      ∀ id ∈ store.newIds changes, store.nextId ≤ id := by
  induction changes generalizing store with
  | nil => exact ⟨.nil, nofun⟩
  | cons change rest ih =>
      have heffect := hstore.effect change
      have hle := heffect.nextId_le
      obtain ⟨hrising, hlater⟩ := ih (heffect.consistent hstore)
      unfold newIds
      cases hnew : store.newId? change with
      | none => exact ⟨hrising, fun id hid => Nat.le_trans hle (hlater id hid)⟩
      | some first =>
          obtain ⟨hfirst, hlt⟩ := newId?_spec hnew
          refine ⟨.cons ?_ hrising, ?_⟩
          · intro id hid
            have hid := hlater id hid
            omega
          · intro id hid
            rcases List.mem_cons.mp hid with rfl | hid
            · omega
            · have hid := hlater id hid
              omega

theorem mem_rows_of_mem_idsWithRows {id : Nat} (hid : id ∈ store.idsWithRows) :
    (store.rows.get? id).isSome := by
  unfold idsWithRows at hid
  rw [List.mem_mergeSort] at hid
  obtain ⟨entry, hentry, rfl⟩ := List.mem_map.mp hid
  refine Table.mem_keys.mp (List.mem_map_of_mem ?_)
  exact (List.mem_filter.mp hentry).1

/-- After any history that notes files for mods only, contents and listings lead to mods that name
them, files belong to mods, only mods have rows, and no number was given twice. -/
theorem tables_lead_to_mods (changes : List Change) (hnames : empty.allNameMods changes) :
    let store := empty.afterAll changes
    (∀ hash id, store.findByHash hash = .ok (some id) →
      ∃ record, store.mod? id = some record ∧ hash ∈ record.hashes) ∧
    (∀ listing id, store.findByListing listing = some id →
      ∃ record, store.mod? id = some record ∧ ∃ link ∈ record.links, link.listing = listing) ∧
    (∀ file id, store.seenFileOwner file = some id → (store.mod? id).isSome) ∧
    (∀ id ∈ store.idsWithRows, (store.mod? id).isSome) ∧
    (empty.newIds changes).Nodup := by
  intro store
  have hstore : store.Sound := Sound.empty.afterAll hnames
  refine ⟨?_, ?_, ?_, ?_, ?_⟩
  · intro hash id hfound
    exact hstore.hashes (findByHash_eq_some.mp hfound).2
  · intro listing id hfound
    obtain ⟨record, hrecord, hmem⟩ := hstore.listings hfound
    exact ⟨record, hrecord, List.mem_map.mp hmem⟩
  · exact fun file id hfound => hstore.seenFiles hfound
  · exact fun id hid => hstore.rows (mem_rows_of_mem_idsWithRows hid)
  · exact (Consistent.empty.newIds_spec changes).1.imp Nat.ne_of_lt

/-- Mod 2 absorbs mod 1 with its content and its file, and the next mod gets a number of its own. -/
theorem tables_lead_to_mods_after_absorption :
    let changes : List Change := [.createMod ⟨"", "", none, []⟩, .createMod ⟨"", "", none, []⟩,
      .track 1 ⟨true, .empty, some "h", none, 0⟩, .linkPlatform 1 ⟨"local", 7, 70⟩,
      .markFileSeen ⟨"local", 7, 70⟩ 1, .attachPlatform 2 ⟨"local", 7, 71⟩,
      .createMod ⟨"", "", none, []⟩]
    let store := empty.afterAll changes
    empty.allNameMods changes ∧
      (∃ record, store.mod? 2 = some record ∧ "h" ∈ record.hashes) ∧
      (∃ record, store.mod? 2 = some record ∧ ∃ link ∈ record.links, link.listing = ⟨"local", 7⟩) ∧
      store.seenFileOwner ⟨"local", 70⟩ = some 2 ∧ (store.mod? 2).isSome ∧
      (∀ id ∈ store.idsWithRows, (store.mod? id).isSome) ∧
      empty.newIds changes = [1, 2, 3] ∧ (empty.newIds changes).Nodup := by
  intro changes store
  have hnames : empty.allNameMods changes = true := rfl
  obtain ⟨hhashes, hlistings, hfiles, hrows, hnew⟩ := tables_lead_to_mods changes hnames
  have hseen : store.seenFileOwner ⟨"local", 70⟩ = some 2 := rfl
  exact ⟨hnames, hhashes "h" 2 rfl, hlistings ⟨"local", 7⟩ 2 rfl, hseen, hfiles _ 2 hseen, hrows,
    rfl, hnew⟩

end Store

end ModCatalog
