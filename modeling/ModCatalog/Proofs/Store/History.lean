import ModCatalog.Proofs.Store.Consistency

/-!
# Histories of a store

The changes a store goes through, one after another from the empty store.  What a change can do is
said once; what holds after every history follows from it by induction.
-/

namespace ModCatalog

/-- An operation that changes a store, with its arguments. -/
inductive Store.Change
  | createMod (new : NewMod)
  | findOrCreate (key : LookupKey) (new : NewMod)
  | linkPlatform (id : Nat) (link : PlatformLink)
  | linkCoordinate (id : Nat) (coordinate : String)
  | attachPlatform (id : Nat) (link : PlatformLink)
  | deleteMod (id : Nat)
  | markFileSeen (link : PlatformLink) (id : Nat)
  | track (id : Nat) (batch : TrackBatch)
  | purgeRows (id : Nat)

namespace Store

/-- The transaction of a change; what it answers is left out. -/
def Change.transaction : Change → Transaction Unit
  | .createMod new => discard (.createMod new)
  | .findOrCreate key new => discard (.findOrCreate key new)
  | .linkPlatform id link => .linkPlatform id link
  | .linkCoordinate id coordinate => .linkCoordinate id coordinate
  | .attachPlatform id link => discard (.attachPlatform id link)
  | .deleteMod id => .deleteMod id
  | .markFileSeen link id => .markFileSeen link id
  | .track id batch => .track id batch
  | .purgeRows id => .purgeRows id

/-- The store after a change, which is the same store if the change fails. -/
def after (store : Store) (change : Change) : Store := (change.transaction.commit store).2

/-- The store after changes, one after another. -/
def afterAll (store : Store) (changes : List Change) : Store := changes.foldl after store

/-- Whether some history of changes leads from the empty store to a store. -/
def Reachable (store : Store) : Prop := ∃ changes, empty.afterAll changes = store

end Store

namespace Transaction

theorem run_discard_eq_ok {α : Type} {change : Transaction α} {store after : Store}
    {value : Unit} :
    (discard change).run store = .ok (value, after) ↔
      ∃ answer, change.run store = .ok (answer, after) := by
  unfold Functor.discard
  rw [map_const, Function.comp_apply, StateT.run_map]
  cases change.run store with
  | error fault => exact ⟨nofun, nofun⟩
  | ok pair =>
      obtain ⟨answer, next⟩ := pair
      constructor
      · intro h
        cases h
        exact ⟨answer, rfl⟩
      · intro h
        obtain ⟨_, h⟩ := h
        cases h
        rfl

end Transaction

namespace Store

variable {store : Store} {change : Change}

/-! ## What one change does -/

theorem after_eq_of_run {next : Store} (h : change.transaction.run store = .ok ((), next)) :
    store.after change = next := by
  unfold after Transaction.commit
  rw [h]

/-- A change leaves what its transaction leaves, whose answer it leaves out. -/
theorem commit_eq_after {α : Type} {transaction : Transaction α} {change : Store.Change}
    (hchange : change.transaction = discard transaction) (store : Store) :
    (transaction.commit store).2 = store.after change := by
  unfold Store.after Transaction.commit
  rw [hchange]
  cases hrun : transaction.run store with
  | ok pair =>
      obtain ⟨value, after⟩ := pair
      have hdiscard : (discard transaction).run store = .ok ((), after) :=
        Transaction.run_discard_eq_ok.mpr ⟨value, hrun⟩
      rw [hdiscard]
  | error fault =>
      cases hdiscard : (discard transaction).run store with
      | error fault => rfl
      | ok pair =>
          obtain ⟨answer, hok⟩ := Transaction.run_discard_eq_ok.mp hdiscard
          cases hrun.symm.trans hok

/-- A change does nothing, or it does what its transaction does when that succeeds. -/
theorem after_cases (store : Store) (change : Change) :
    store.after change = store ∨
      change.transaction.run store = .ok ((), store.after change) := by
  cases hrun : change.transaction.run store with
  | error fault =>
      refine Or.inl ?_
      unfold after Transaction.commit
      rw [hrun]
  | ok pair =>
      obtain ⟨⟨⟩, next⟩ := pair
      rw [after_eq_of_run hrun]
      exact Or.inr rfl

theorem Change.effect (hstore : store.Consistent) {next : Store}
    (h : change.transaction.run store = .ok ((), next)) : store.Effect next := by
  cases change with
  | createMod new =>
      obtain ⟨record, hrun⟩ := Transaction.run_discard_eq_ok.mp h
      obtain ⟨_, rfl⟩ := Transaction.createMod_spec hrun
      exact .wrote _ (hstore.wrote_withNew new)
  | findOrCreate key new =>
      obtain ⟨⟨record, created⟩, hrun⟩ := Transaction.run_discard_eq_ok.mp h
      rcases Transaction.findOrCreate_spec hrun with ⟨_, _, _, _, rfl⟩ | ⟨_, _, _, rfl⟩
      · exact .kept next.seenFiles next.rows rfl
      · exact .wrote _ (hstore.wrote_withNewUnder new key)
  | linkPlatform id link =>
      obtain ⟨record, hrecord, rfl⟩ := Transaction.linkPlatform_spec h
      rw [hstore.keyed hrecord]
      exact .wrote _ (hstore.wrote_withLink hrecord link)
  | linkCoordinate id coordinate =>
      obtain ⟨record, hrecord, rfl⟩ := Transaction.linkCoordinate_spec h
      rw [hstore.keyed hrecord]
      exact .wrote _ (hstore.wrote_withCoordinate hrecord coordinate)
  | attachPlatform id link =>
      obtain ⟨absorbed, hrun⟩ := Transaction.run_discard_eq_ok.mp h
      rcases Transaction.attachPlatform_spec hstore.keyed hrun with
        ⟨target, htarget, _, ⟨_, rfl⟩ | ⟨old, record, _, habsorbed⟩⟩
      · exact .wrote _ (hstore.wrote_withLink htarget link)
      · exact .absorbed target old record link habsorbed
  | deleteMod id =>
      obtain rfl := Transaction.run_modify_eq_ok.mp h
      cases hrecord : store.mod? id with
      | none =>
          rw [deleteMod_eq_self hrecord]
          exact .kept store.seenFiles store.rows rfl
      | some record => exact .deleted id record hrecord rfl
  | markFileSeen link id =>
      obtain ⟨_, rfl⟩ := Transaction.run_putFileOwner_eq_ok.mp h
      exact .kept _ store.rows rfl
  | track id batch =>
      obtain ⟨record, hrecord, _, rfl⟩ := Transaction.track_spec h
      rw [hstore.keyed hrecord]
      exact .wrote _ (hstore.wrote_described hrecord batch _)
  | purgeRows id =>
      obtain rfl := Transaction.run_modify_eq_ok.mp h
      exact .kept store.seenFiles _ rfl

theorem Consistent.effect (hstore : store.Consistent) (change : Change) :
    store.Effect (store.after change) := by
  rcases after_cases store change with hsame | hrun
  · rw [hsame]
    exact .kept store.seenFiles store.rows rfl
  · exact Change.effect hstore hrun

/-! ## What a history does -/

theorem afterAll_append (store : Store) (done changes : List Change) :
    store.afterAll (done ++ changes) = (store.afterAll done).afterAll changes :=
  List.foldl_append

theorem afterAll_concat (store : Store) (done : List Change) (change : Change) :
    store.afterAll (done ++ [change]) = (store.afterAll done).after change :=
  afterAll_append store done [change]

theorem Consistent.afterAll (hstore : store.Consistent) (changes : List Change) :
    (store.afterAll changes).Consistent := by
  induction changes generalizing store with
  | nil => exact hstore
  | cons change rest ih => exact ih ((hstore.effect change).consistent hstore)

theorem Reachable.consistent (hreachable : store.Reachable) : store.Consistent := by
  obtain ⟨changes, rfl⟩ := hreachable
  exact Consistent.empty.afterAll changes

/-- A mod that is gone stays gone, whatever happens. -/
theorem Consistent.gone_afterAll (hstore : store.Consistent) {id : Nat} (hid : id < store.nextId)
    (hgone : store.mod? id = none) (changes : List Change) :
    (store.afterAll changes).mod? id = none := by
  induction changes generalizing store with
  | nil => exact hgone
  | cons change rest ih =>
      have heffect := hstore.effect change
      exact ih (heffect.consistent hstore) (Nat.lt_of_lt_of_le hid heffect.nextId_le)
        (heffect.gone hid hgone)

end Store

end ModCatalog
