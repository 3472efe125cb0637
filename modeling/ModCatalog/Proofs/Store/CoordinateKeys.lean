import ModCatalog.Proofs.Store.History

/-!
# Keys of coordinates

A coordinate is written under its own text, and the text is checked wherever that is done.  So a
coordinate that leads anywhere fits the store, after any history.
-/

namespace ModCatalog

/-- Whether every coordinate that leads anywhere is a key that can be written. -/
def Store.CoordinatesFit (store : Store) : Prop :=
  ∀ (coordinate : String) (id : Nat), store.coordinates.get? coordinate = some id →
    Store.checkWrite coordinate 0 = .ok ()

namespace Transaction

variable {α β : Type} {store : Store}

/-- Whether a transaction lets no coordinate lead anywhere that does not fit. -/
def KeepsFit (change : Transaction α) (store : Store) : Prop :=
  store.CoordinatesFit → ∀ value after, change.run store = .ok (value, after) →
    after.CoordinatesFit

/-! ## Steps -/

theorem keepsFit_of_same {change : Transaction α}
    (hsame : ∀ value after, change.run store = .ok (value, after) →
      after.coordinates = store.coordinates) : KeepsFit change store := by
  intro hfit value after hrun coordinate id hleads
  rw [hsame value after hrun] at hleads
  exact hfit _ _ hleads

theorem KeepsFit.bind {change : Transaction α} {next : α → Transaction β}
    (hchange : KeepsFit change store)
    (hnext : ∀ value between, change.run store = .ok (value, between) →
      KeepsFit (next value) between) : KeepsFit (change >>= next) store := by
  intro hfit value after hrun
  obtain ⟨middle, between, hfirst, hrest⟩ := run_bind_eq_ok.mp hrun
  exact hnext middle between hfirst (hchange hfit middle between hfirst) value after hrest

theorem keepsFit_pure (value : α) : KeepsFit (pure value) store :=
  keepsFit_of_same fun _ _ hrun => by rw [(run_pure_eq_ok.mp hrun).2]

theorem keepsFit_liftM (answer : Except Fault α) : KeepsFit (liftM answer) store :=
  keepsFit_of_same fun _ _ hrun => by rw [(run_liftM_eq_ok.mp hrun).2]

theorem keepsFit_get : KeepsFit (get : Transaction Store) store :=
  keepsFit_of_same fun _ _ hrun => by rw [← (run_get_eq_ok.mp hrun).2]

theorem keepsFit_requireMod (id : Nat) : KeepsFit (requireMod id) store :=
  keepsFit_of_same fun _ _ hrun => by rw [(run_requireMod_eq_ok.mp hrun).2]

theorem keepsFit_writeMod (record : ModRecord) : KeepsFit (writeMod record) store :=
  keepsFit_of_same fun _ _ hrun => by rw [← run_writeMod_eq_ok.mp hrun]

theorem keepsFit_setLink (record : ModRecord) (link : PlatformLink) :
    KeepsFit (setLink record link) store :=
  keepsFit_of_same fun _ _ hrun => by rw [← (run_setLink_eq_ok.mp hrun).2.2]

/-- The only step that lets a coordinate lead anywhere checks it before. -/
theorem keepsFit_putCoordinate (coordinate : String) (id : Nat) :
    KeepsFit (putCoordinate coordinate id) store := by
  intro hfit value after hrun other owner hleads
  obtain ⟨hkey, rfl⟩ := run_putCoordinate_eq_ok.mp hrun
  dsimp only at hleads
  rw [Table.get?_put] at hleads
  by_cases hother : other = coordinate
  · rw [hother]
    exact hkey
  · rw [if_neg hother] at hleads
    exact hfit _ _ hleads

theorem keepsFit_setCoordinate (record : ModRecord) (coordinate : String) :
    KeepsFit (setCoordinate record coordinate) store :=
  (keepsFit_putCoordinate _ _).bind fun _ _ _ => keepsFit_pure _

theorem keepsFit_foldlM {step : β → α → Transaction β}
    (hstep : ∀ value item store, KeepsFit (step value item) store) (items : List α) (start : β) :
    KeepsFit (items.foldlM step start) store := by
  induction items generalizing start store with
  | nil => exact keepsFit_pure start
  | cons item rest ih =>
      rw [List.foldlM_cons]
      exact (hstep start item store).bind fun value _ _ => ih value

/-! ## Operations -/

theorem keepsFit_createMod (new : NewMod) : KeepsFit (createMod new) store := by
  have hwrite : ∀ (record : ModRecord) (between : Store), KeepsFit (do
      writeMod record
      return record) between :=
    fun _ _ => (keepsFit_writeMod _).bind fun _ _ _ => keepsFit_pure _
  refine keepsFit_get.bind fun current middle hget => ?_
  obtain ⟨rfl, rfl⟩ := run_get_eq_ok.mp hget
  have hcount : KeepsFit (set { store with nextId := store.nextId + 1 } : Transaction PUnit) store :=
    keepsFit_of_same fun _ _ hrun => by rw [← run_set_eq_ok.mp hrun]
  refine hcount.bind fun _ _ _ => ?_
  dsimp only
  split
  · exact hwrite _ _
  · refine (keepsFit_liftM _).bind fun owner _ _ => ?_
    cases owner with
    | none => exact (keepsFit_putCoordinate _ _).bind fun _ _ _ => hwrite _ _
    | some owner => exact hwrite _ _

theorem keepsFit_findOrCreate (key : LookupKey) (new : NewMod) :
    KeepsFit (findOrCreate key new) store := by
  refine keepsFit_get.bind fun current _ _ => (keepsFit_liftM _).bind fun found _ _ => ?_
  cases found with
  | some id => exact (keepsFit_requireMod id).bind fun _ _ _ => keepsFit_pure _
  | none =>
      have hwrite : ∀ (record : ModRecord) (between : Store), KeepsFit (do
          writeMod record
          return (record, true)) between :=
        fun _ _ => (keepsFit_writeMod _).bind fun _ _ _ => keepsFit_pure _
      refine (keepsFit_createMod new).bind fun created _ _ => ?_
      cases key with
      | listing listing => exact (keepsFit_setLink _ _).bind fun _ _ _ => hwrite _ _
      | coordinate coordinate => exact (keepsFit_setCoordinate _ _).bind fun _ _ _ => hwrite _ _

theorem keepsFit_linkPlatform (id : Nat) (link : PlatformLink) :
    KeepsFit (linkPlatform id link) store :=
  (keepsFit_requireMod id).bind fun _ _ _ => (keepsFit_setLink _ _).bind fun _ _ _ =>
    keepsFit_writeMod _

theorem keepsFit_linkCoordinate (id : Nat) (coordinate : String) :
    KeepsFit (linkCoordinate id coordinate) store :=
  (keepsFit_requireMod id).bind fun _ _ _ => (keepsFit_setCoordinate _ _).bind fun _ _ _ =>
    keepsFit_writeMod _

end Transaction

namespace Store

variable {store : Store}

theorem CoordinatesFit.deleteMod (hfit : store.CoordinatesFit) (id : Nat) :
    (store.deleteMod id).CoordinatesFit := by
  intro coordinate owner hleads
  cases hrecord : store.mod? id with
  | none =>
      rw [deleteMod_eq_self hrecord] at hleads
      exact hfit _ _ hleads
  | some record =>
      rw [coordinates_deleteMod hrecord] at hleads
      split at hleads
      · cases hleads
      · exact hfit _ _ hleads

end Store

namespace Transaction

variable {store : Store}

theorem keepsFit_absorb (target old : ModRecord) : KeepsFit (absorb target old) store := by
  have htake : ∀ (record : ModRecord) (link : PlatformLink) (between : Store),
      KeepsFit (takeLink record link) between := by
    intro record link between
    unfold takeLink
    split
    · exact keepsFit_pure record
    · exact keepsFit_setLink record link
  have hhashes : KeepsFit (old.hashes.forM fun hash => putHash hash target.id) store :=
    keepsFit_of_same fun _ _ hrun => by rw [← (run_forM_putHash_eq_ok.mp hrun).2]
  refine hhashes.bind fun _ _ _ => ?_
  refine (keepsFit_foldlM htake _ _).bind fun linked _ _ => ?_
  refine (keepsFit_foldlM (fun record coordinate _ => keepsFit_setCoordinate record coordinate)
    _ _).bind fun noted between _ => ?_
  refine KeepsFit.bind ?_ fun _ _ _ => keepsFit_pure _
  intro hfit value after hrun
  obtain rfl := run_modify_eq_ok.mp hrun
  have hmoved : (between.moveFiles old.id noted.id).CoordinatesFit := hfit
  exact hmoved.deleteMod old.id

theorem keepsFit_attachPlatform (id : Nat) (link : PlatformLink) :
    KeepsFit (attachPlatform id link) store := by
  refine (keepsFit_requireMod id).bind fun target _ _ => keepsFit_get.bind fun current _ _ => ?_
  have hlink : ∀ (record : ModRecord) (between : Store), KeepsFit (do
      writeMod (← setLink record link)
      return (current.findByListing link.listing).filter (· ≠ id)) between :=
    fun _ _ => (keepsFit_setLink _ _).bind fun _ _ _ => (keepsFit_writeMod _).bind fun _ _ _ =>
      keepsFit_pure _
  dsimp only
  split
  · exact (keepsFit_absorb target _).bind fun merged _ _ => hlink merged _
  · exact hlink target _

end Transaction

namespace Store

variable {store : Store}

/-! ## One change, and a whole history -/

theorem CoordinatesFit.step (hfit : store.CoordinatesFit) (change : Change) :
    (store.after change).CoordinatesFit := by
  rcases after_cases store change with hsame | hrun
  · rw [hsame]
    exact hfit
  · cases change with
    | createMod new =>
        obtain ⟨_, hcreated⟩ := Transaction.run_discard_eq_ok.mp hrun
        exact Transaction.keepsFit_createMod new hfit _ _ hcreated
    | findOrCreate key new =>
        obtain ⟨_, hfound⟩ := Transaction.run_discard_eq_ok.mp hrun
        exact Transaction.keepsFit_findOrCreate key new hfit _ _ hfound
    | linkPlatform id link => exact Transaction.keepsFit_linkPlatform id link hfit _ _ hrun
    | linkCoordinate id coordinate =>
        exact Transaction.keepsFit_linkCoordinate id coordinate hfit _ _ hrun
    | attachPlatform id link =>
        obtain ⟨_, hattached⟩ := Transaction.run_discard_eq_ok.mp hrun
        exact Transaction.keepsFit_attachPlatform id link hfit _ _ hattached
    | deleteMod id => exact hfit.deleteMod id
    | markFileSeen link id =>
        obtain ⟨_, hafter⟩ := Transaction.run_putFileOwner_eq_ok.mp hrun
        rw [← hafter]
        exact hfit
    | track id batch =>
        obtain ⟨_, _, _, hafter⟩ := Transaction.track_spec hrun
        rw [hafter]
        exact hfit
    | purgeRows id => exact hfit

theorem CoordinatesFit.empty : Store.empty.CoordinatesFit := nofun

theorem CoordinatesFit.afterAll (hfit : store.CoordinatesFit) (changes : List Change) :
    (store.afterAll changes).CoordinatesFit := by
  induction changes generalizing store with
  | nil => exact hfit
  | cons change rest ih => exact ih (hfit.step change)

/-- A coordinate that leads anywhere fits the store, whatever happened to it. -/
theorem Reachable.coordinatesFit (hreachable : store.Reachable) : store.CoordinatesFit := by
  obtain ⟨changes, rfl⟩ := hreachable
  exact CoordinatesFit.empty.afterAll changes

/-- A coordinate that does not fit leads nowhere, or cannot even be asked for. -/
theorem CoordinatesFit.findByCoordinate_of_unfit (hfit : store.CoordinatesFit) {coordinate : String}
    (hunfit : checkWrite coordinate 0 ≠ .ok ()) :
    store.findByCoordinate coordinate = .ok none ∨
      store.findByCoordinate coordinate = .error (.storage .badKey) := by
  cases hfound : store.findByCoordinate coordinate with
  | error fault => exact Or.inr (by rw [findByCoordinate_eq_error hfound])
  | ok owner =>
      cases owner with
      | none => exact Or.inl rfl
      | some id => exact absurd (hfit _ _ (findByCoordinate_eq_some.mp hfound).2) hunfit

end Store

end ModCatalog
