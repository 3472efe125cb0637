import ModCatalog.Proofs.Resolution.Bijection
import ModCatalog.Proofs.Resolution.Noting
import ModCatalog.Proofs.Store.CoordinateKeys

/-!
# Learning a coordinate

What a candidate has learned is linked when its mod is found and all that it states is written.  An
attempt on it is the attempt on the same candidate without it, except for one step in between: that
step fails if the coordinate does not fit, and otherwise nothing that follows asks for what it wrote.
-/

namespace ModCatalog

def ModRecord.withoutCoordinate (record : ModRecord) : ModRecord :=
  { record with coordinate := none }

/-- Whether two stores are the same but for where coordinates lead and which of them records note. -/
structure Store.SameButCoordinates (store other : Store) : Prop where
  nextId : other.nextId = store.nextId
  hashes : other.hashes = store.hashes
  listings : other.listings = store.listings
  seenFiles : other.seenFiles = store.seenFiles
  rows : other.rows = store.rows
  mods (id : Nat) : (other.mod? id).map ModRecord.withoutCoordinate =
    (store.mod? id).map ModRecord.withoutCoordinate

/-- Whether two catalogs are the same but for coordinates. -/
structure Catalog.SameButCoordinates (catalog other : Catalog) : Prop where
  store : catalog.store.SameButCoordinates other.store
  identities : other.identities = catalog.identities

/-- The mod that the content of a candidate belongs to in the end, if the answer gives it one. -/
def Resolution.keeper? : Resolution → Option Nat
  | .known id | .index id _ => some id
  | .outdated _ | .unindexable => none

/-- A candidate that has learned a coordinate, or none. -/
def Candidate.learning (candidate : Candidate) (coordinate : Option String) : Candidate :=
  { candidate with extraCoordinate := coordinate }

namespace Store.SameButCoordinates

variable {store other after left : Store}

theorem refl (store : Store) : store.SameButCoordinates store :=
  ⟨rfl, rfl, rfl, rfl, rfl, fun _ => rfl⟩

theorem trans {last : Store} (hfirst : store.SameButCoordinates other)
    (hnext : other.SameButCoordinates last) : store.SameButCoordinates last where
  nextId := hnext.nextId.trans hfirst.nextId
  hashes := hnext.hashes.trans hfirst.hashes
  listings := hnext.listings.trans hfirst.listings
  seenFiles := hnext.seenFiles.trans hfirst.seenFiles
  rows := hnext.rows.trans hfirst.rows
  mods id := (hnext.mods id).trans (hfirst.mods id)

theorem exists_mod (hsame : store.SameButCoordinates other) {id : Nat} {record : ModRecord}
    (hrecord : store.mod? id = some record) : ∃ found, other.mod? id = some found ∧
      found.withoutCoordinate = record.withoutCoordinate := by
  have hmod := hsame.mods id
  rw [hrecord] at hmod
  exact Option.map_eq_some_iff.mp hmod

theorem rowsOf_eq (hsame : store.SameButCoordinates other) (id : Nat) :
    other.rowsOf id = store.rowsOf id := by
  unfold Store.rowsOf
  rw [hsame.rows]

end Store.SameButCoordinates

/-- Writing two records that differ by their coordinates only. -/
theorem Store.map_mod?_put {store other : Store} {record found : ModRecord} {id : Nat}
    (hsame : (other.mod? id).map ModRecord.withoutCoordinate =
      (store.mod? id).map ModRecord.withoutCoordinate)
    (hrecord : found.withoutCoordinate = record.withoutCoordinate) :
    ((other.mods.put found.id found).get? id).map ModRecord.withoutCoordinate =
      ((store.mods.put record.id record).get? id).map ModRecord.withoutCoordinate := by
  have hid : found.id = record.id := (ModRecord.mk.inj hrecord).1
  rw [Table.get?_put, Table.get?_put, hid]
  by_cases hwritten : id = record.id
  · simp [hwritten, hrecord]
  · simp only [if_neg hwritten]
    exact hsame

namespace Transaction

variable {store other after : Store}

theorem withoutCoordinate_described {record found : ModRecord}
    (hrecord : found.withoutCoordinate = record.withoutCoordinate) (batch : TrackBatch) :
    (described found batch).withoutCoordinate = (described record batch).withoutCoordinate := by
  have hinto : ∀ record : ModRecord, (described record batch).withoutCoordinate =
      described record.withoutCoordinate batch := by
    intro record
    unfold described
    cases batch.metadata <;> rfl
  rw [hinto, hinto, hrecord]

/-- For a mod that is there, only the key can be a reason to refuse a coordinate. -/
theorem run_linkCoordinate_of_unfit {id : Nat} {coordinate : String}
    (hmod : (store.mod? id).isSome) (hunfit : Store.checkWrite coordinate 0 ≠ .ok ()) :
    (linkCoordinate id coordinate).run store = .error (.storage .badKey) := by
  obtain ⟨record, hrecord⟩ := Option.isSome_iff_exists.mp hmod
  have hrequired := run_requireMod_eq_ok.mpr ⟨hrecord, rfl⟩
  have hrefused : Store.checkWrite coordinate 0 = .error (.storage .badKey) := by
    unfold Store.checkWrite at hunfit ⊢
    split
    · rfl
    · next hfits => exact absurd (if_neg hfits) hunfit
  have hput : (putCoordinate coordinate record.id).run store = .error (.storage .badKey) :=
    run_bind_eq_error.mpr (Or.inl (run_liftM_eq_error.mpr hrefused))
  have hset : (setCoordinate record coordinate).run store = .error (.storage .badKey) :=
    run_bind_eq_error.mpr (Or.inl hput)
  exact run_bind_eq_error.mpr
    (Or.inr ⟨record, store, hrequired, run_bind_eq_error.mpr (Or.inl hset)⟩)

theorem linkCoordinate_same (hstore : store.Consistent) {id : Nat} {coordinate : String}
    {value : PUnit} (h : (linkCoordinate id coordinate).run store = .ok (value, after)) :
    store.SameButCoordinates after := by
  obtain ⟨record, hrecord, rfl⟩ := linkCoordinate_spec h
  refine ⟨rfl, rfl, rfl, rfl, rfl, fun other => ?_⟩
  unfold Store.mod?
  dsimp only
  rw [hstore.keyed hrecord, Table.get?_put]
  split
  · next hother =>
      subst hother
      rw [show store.mods.get? other = some record from hrecord]
      rfl
  · rfl

/-- Writing a batch asks for no coordinate. -/
theorem track_of_same (hsame : store.SameButCoordinates other) {id : Nat} {batch : TrackBatch}
    {value : PUnit} (h : (track id batch).run store = .ok (value, after)) :
    ∃ left, (track id batch).run other = .ok (value, left) ∧ after.SameButCoordinates left := by
  obtain ⟨record, hrecord, hkeys, rfl⟩ := run_track_eq_ok.mp h
  obtain ⟨found, hfound, hlike⟩ := hsame.exists_mod hrecord
  refine ⟨_, run_track_eq_ok.mpr ⟨found, hfound, hkeys, rfl⟩, ?_⟩
  constructor
  case nextId => exact hsame.nextId
  case hashes =>
    dsimp only
    rw [hsame.hashes]
  case listings => exact hsame.listings
  case seenFiles => exact hsame.seenFiles
  case rows =>
    unfold Store.putRows
    dsimp only
    rw [hsame.rowsOf_eq, hsame.rows]
  case mods =>
    intro other
    have hdescribed := Store.map_mod?_put (hsame.mods other) (withoutCoordinate_described hlike batch)
    rw [described_id, described_id] at hdescribed
    exact hdescribed

theorem markFileSeen_of_same (hsame : store.SameButCoordinates other) {link : PlatformLink}
    {id : Nat} {value : PUnit} (h : (markFileSeen link id).run store = .ok (value, after)) :
    ∃ left, (markFileSeen link id).run other = .ok (value, left) ∧
      after.SameButCoordinates left := by
  obtain ⟨hkey, rfl⟩ := run_putFileOwner_eq_ok.mp h
  refine ⟨_, run_putFileOwner_eq_ok.mpr ⟨hkey, rfl⟩, ?_⟩
  exact { hsame with seenFiles := by rw [hsame.seenFiles], mods := hsame.mods }

end Transaction

namespace Resolving

variable {α β : Type} {catalog : Catalog}

/-! ## Work that asks for no coordinate -/

/-- Whether work that succeeds does the same on every catalog that is the same but for
coordinates. -/
def Blind (work : Resolving α) : Prop :=
  ∀ (catalog other : Catalog) (value : α) (after : Catalog), catalog.SameButCoordinates other →
    work.exec catalog = (.ok value, after) →
      ∃ left, work.exec other = (.ok value, left) ∧ after.SameButCoordinates left

theorem blind_pure (value : α) : Blind (pure value) := by
  intro catalog other result after hsame h
  cases h
  exact ⟨other, rfl, hsame⟩

theorem Blind.bind {work : Resolving α} {next : α → Resolving β} (hwork : Blind work)
    (hnext : ∀ value, Blind (next value)) : Blind (work >>= next) := by
  intro catalog other value after hsame h
  obtain ⟨middle, between, hfirst, hrest⟩ := steps_of_run_bind h
  obtain ⟨otherBetween, hotherFirst, hmiddle⟩ := hwork _ _ _ _ hsame hfirst
  rw [exec_bind_of_ok hotherFirst]
  exact hnext middle _ _ _ _ hmiddle hrest

theorem blind_answer (answer : Except Fault α) : Blind (ask fun _ => answer) := by
  intro catalog other value after hsame h
  cases h
  exact ⟨other, rfl, hsame⟩

theorem blind_updateIdentities (change : IdentityCache → IdentityCache) :
    Blind (updateIdentities change) := by
  intro catalog other value after hsame h
  cases h
  exact ⟨_, rfl, hsame.store, congrArg change hsame.identities⟩

theorem blind_transact {change : Transaction α}
    (hchange : ∀ (store other : Store) (value : α) (after : Store),
      store.SameButCoordinates other → change.run store = .ok (value, after) →
        ∃ left, change.run other = .ok (value, left) ∧ after.SameButCoordinates left) :
    Blind (transact change) := by
  intro catalog other value after hsame h
  have hkept := identities_of_exec_transact h
  obtain ⟨left, hleft, hafter⟩ := hchange _ _ _ _ hsame.store (run_of_exec_transact h)
  exact ⟨_, exec_transact_of_ok hleft, hafter, hsame.identities.trans hkept.symm⟩

theorem blind_finish (attempt : Attempt) (answer : Resolution) : Blind (attempt.finish answer) := by
  cases answer with
  | known id => exact blind_pure _
  | outdated id => exact blind_pure _
  | unindexable => exact blind_pure _
  | index id created =>
      have hcommit : ∀ hash batch, Blind (commitBatch hash id batch) := fun _ _ =>
        (blind_transact fun _ _ _ _ hsame => Transaction.track_of_same hsame).bind fun _ =>
          blind_updateIdentities _
      have hseen : Blind (markSeen id attempt.candidate.link) := by
        cases attempt.candidate.link with
        | none => exact blind_pure ()
        | some link => exact blind_transact fun _ _ _ _ hsame => Transaction.markFileSeen_of_same hsame
      exact (blind_answer _).bind fun _ => (hcommit _ _).bind fun _ => hseen.bind fun _ =>
        blind_pure _

/-! ## Linking a coordinate -/

theorem linkCoordinate_same (hstore : catalog.store.Consistent) {id : Nat}
    {coordinate : Option String} {value : Unit} {after : Catalog}
    (h : (linkCoordinate id coordinate).exec catalog = (.ok value, after)) :
    catalog.SameButCoordinates after := by
  have hrefl : catalog.SameButCoordinates catalog := ⟨.refl _, rfl⟩
  cases coordinate with
  | none =>
      cases h
      exact hrefl
  | some name =>
      obtain ⟨owner, between, hask, hrest⟩ := steps_of_run_bind h
      obtain rfl : between = catalog := (congrArg Prod.snd hask).symm
      cases owner with
      | some owner =>
          cases hrest
          exact hrefl
      | none =>
          exact ⟨Transaction.linkCoordinate_same hstore (run_of_exec_transact hrest),
            identities_of_exec_transact hrest⟩

/-- A coordinate that does not fit leads nowhere, so it is written, and that is refused. -/
theorem linkCoordinate_of_unfit (hfit : catalog.store.CoordinatesFit) {id : Nat} {name : String}
    (hmod : (catalog.store.mod? id).isSome) (hunfit : Store.checkWrite name 0 ≠ .ok ()) :
    (linkCoordinate id (some name)).exec catalog = (.error (.storage .badKey), catalog) := by
  unfold linkCoordinate
  rcases hfit.findByCoordinate_of_unfit hunfit with hnone | hrefused
  · have hask : (ask (·.findByCoordinate name)).exec catalog = (.ok none, catalog) :=
      exec_ask_of_ok hnone
    rw [exec_bind_of_ok hask]
    exact exec_transact_of_error (Transaction.run_linkCoordinate_of_unfit hmod hunfit)
  · have hask : (ask (·.findByCoordinate name)).exec catalog =
        (.error (.storage .badKey), catalog) := congrArg (·, catalog) hrefused
    exact exec_bind_of_error hask

/-- For a mod that is there, a coordinate that fits is linked. -/
theorem exists_linkCoordinate (hstore : catalog.store.Consistent) {id : Nat} {name : String}
    (hmod : (catalog.store.mod? id).isSome) (hfits : Store.checkWrite name 0 = .ok ()) :
    ∃ after, (linkCoordinate id (some name)).exec catalog = (.ok (), after) ∧
      catalog.SameButCoordinates after := by
  cases hexec : (linkCoordinate id (some name)).exec catalog with
  | mk answer after =>
      cases answer with
      | ok value => exact ⟨after, rfl, linkCoordinate_same hstore hexec⟩
      | error fault =>
          obtain ⟨other, hother, hunfit⟩ := unfit_of_linkCoordinate hmod (congrArg Prod.fst hexec)
          cases hother
          exact absurd hfits hunfit

theorem mod_of_linkCoordinate (hstore : catalog.store.Consistent) {id owner : Nat}
    {coordinate : Option String} {value : Unit} {after : Catalog}
    (hmod : (catalog.store.mod? owner).isSome)
    (h : (linkCoordinate id coordinate).exec catalog = (.ok value, after)) :
    (after.store.mod? owner).isSome := by
  have hkept := (linkCoordinate_same hstore h).store.mods owner
  have hsome := congrArg Option.isSome hkept
  rwa [Option.isSome_map, Option.isSome_map, hmod] at hsome

/-! ## Candidates -/

/-- Link a coordinate to the mod that an answer gives a content to. -/
def learn (coordinate : Option String) (answer : Resolution) : Resolving Resolution := do
  match answer.keeper? with
  | some id =>
      linkCoordinate id coordinate
      return answer
  | none => return answer

/-- A candidate with a listing is resolved before what it has learned is linked. -/
theorem resolve_learning {candidate : Candidate} (hlink : candidate.link.isSome)
    (coordinate : Option String) :
    resolve (candidate.learning coordinate) =
      resolve (candidate.learning none) >>= learn coordinate := by
  obtain ⟨link, hlink⟩ := Option.isSome_iff_exists.mp hlink
  unfold resolve
  rw [bind_assoc]
  refine congrArg _ (funext fun owner => ?_)
  cases owner with
  | some id => simp [resolveKnown, Candidate.learning, hlink, learn, Resolution.keeper?, linkCoordinate]
  | none => simp [resolveListing, Candidate.learning, hlink, learn, Resolution.keeper?, linkCoordinate]

theorem mod_of_takeListing (hstore : catalog.store.Consistent) {id : Nat} {link : PlatformLink}
    {value : Unit} {after : Catalog}
    (h : (takeListing id link).exec catalog = (.ok value, after)) :
    (after.store.mod? id).isSome := by
  obtain ⟨_, attached, hattach, hmark⟩ := steps_of_run_bind h
  obtain ⟨absorbed, between, hexec, hforget⟩ := steps_of_run_bind hattach
  have hrun := run_of_exec_transact hexec
  have hbetween : (between.store.mod? id).isSome := by
    rcases Transaction.attachPlatform_spec hstore.keyed hrun with
      ⟨target, htarget, _, ⟨_, hafter⟩ | ⟨old, record, _, habsorbed⟩⟩
    · rw [hafter]
      exact Option.isSome_of_eq_some ((Table.get?_put _ _ _ _).trans (if_pos rfl))
    · have hid : target.id = id := hstore.keyed htarget
      rw [← hid]
      exact Option.isSome_of_eq_some habsorbed.mod?_target
  have hattached : attached.store = between.store := by
    cases absorbed <;> cases hforget <;> rfl
  obtain ⟨_, hafter⟩ := Transaction.run_putFileOwner_eq_ok.mp (run_of_exec_transact hmark)
  rw [← hafter, hattached]
  exact hbetween

theorem reachable_of_exec {work : Resolving α} (hwork : OnlyChanges work)
    (hcatalog : catalog.store.Reachable) {answer : Except Fault α} {after : Catalog}
    (h : work.exec catalog = (answer, after)) : after.store.Reachable := by
  have hafter := Catalog.reachable_exec hwork hcatalog
  rwa [h] at hafter

/-- The content of a candidate with a listing is given to a mod, and the mod is there. -/
def Kept (answer : Resolution) (store : Store) : Prop :=
  ∃ id, answer.keeper? = some id ∧ (store.mod? id).isSome

theorem kept_of_resolveKnown (hcatalog : catalog.store.Reachable) {candidate : Candidate}
    {link : PlatformLink} (hlink : candidate.link = some link) {id : Nat} {answer : Resolution}
    {after : Catalog} (h : (resolveKnown candidate id).exec catalog = (.ok answer, after)) :
    Kept answer after.store := by
  unfold resolveKnown at h
  rw [hlink] at h
  obtain ⟨_, taken, htake, hextra⟩ := steps_of_run_bind h
  obtain ⟨_, linked, hlinked, hanswer⟩ := steps_of_run_bind hextra
  cases hanswer
  have honly : OnlyChanges (takeListing id link) :=
    (closed_onlyChanges.attachListing id link).bind fun _ => onlyChanges_markFileSeen link id
  have htaken := (reachable_of_exec honly hcatalog htake).consistent
  have hmod := mod_of_takeListing hcatalog.consistent htake
  exact ⟨id, rfl, mod_of_linkCoordinate htaken hmod hlinked⟩

theorem kept_of_resolveListing (hcatalog : catalog.store.Reachable) {candidate : Candidate}
    {link : PlatformLink} {answer : Resolution} {after : Catalog}
    (h : (resolveListing candidate link).exec catalog = (.ok answer, after)) :
    Kept answer after.store := by
  obtain ⟨⟨record, created⟩, first, hfind, hrest⟩ := steps_of_run_bind h
  obtain ⟨_, second, hlist, hrest⟩ := steps_of_run_bind hrest
  obtain ⟨_, third, hstated, hrest⟩ := steps_of_run_bind hrest
  obtain ⟨_, last, hlearned, hanswer⟩ := steps_of_run_bind hrest
  cases hanswer
  have hfirst := reachable_of_exec (closed_onlyChanges.findOrCreate _ _) hcatalog hfind
  have honly : OnlyChanges (transact (.linkPlatform record.id link)) :=
    closed_onlyChanges.transact (.linkPlatform record.id link) rfl fun _ => rfl
  have hsecond := reachable_of_exec honly hfirst hlist
  have hthird := reachable_of_exec (closed_onlyChanges.linkCoordinate _ _) hsecond hstated
  obtain ⟨found, hfound, hafter⟩ := Transaction.linkPlatform_spec (run_of_exec_transact hlist)
  have hmod : (second.store.mod? record.id).isSome := by
    rw [hafter, hfirst.consistent.keyed hfound]
    exact Option.isSome_of_eq_some ((Table.get?_put _ _ _ _).trans (if_pos rfl))
  have hstill := mod_of_linkCoordinate hsecond.consistent hmod hstated
  exact ⟨record.id, rfl, mod_of_linkCoordinate hthird.consistent hstill hlearned⟩

theorem kept_of_resolve (hcatalog : catalog.store.Reachable) {candidate : Candidate}
    (hlink : candidate.link.isSome) {answer : Resolution} {after : Catalog}
    (h : (resolve candidate).exec catalog = (.ok answer, after)) : Kept answer after.store := by
  obtain ⟨link, hlink⟩ := Option.isSome_iff_exists.mp hlink
  obtain ⟨owner, between, hknown, hrest⟩ := steps_of_run_bind h
  have hbetween := reachable_of_exec (onlyChanges_knownHash _) hcatalog hknown
  cases owner with
  | some owner => exact kept_of_resolveKnown hbetween hlink hrest
  | none =>
      dsimp only at hrest
      rw [hlink] at hrest
      exact kept_of_resolveListing hbetween hrest

/-- Where a candidate with a listing is resolved without it, a coordinate that it has learned
leaves the answer alone if it fits; otherwise it is refused after all the rest is done. -/
theorem resolve_learning_spec (hcatalog : catalog.store.Reachable) {candidate : Candidate}
    (hlink : candidate.link.isSome) {answer : Resolution} {plain : Catalog}
    (hplain : (resolve (candidate.learning none)).exec catalog = (.ok answer, plain))
    (name : String) :
    (Store.checkWrite name 0 = .ok () → ∃ left,
      (resolve (candidate.learning (some name))).exec catalog = (.ok answer, left) ∧
        plain.SameButCoordinates left) ∧
    (Store.checkWrite name 0 ≠ .ok () →
      (resolve (candidate.learning (some name))).exec catalog =
        (.error (.storage .badKey), plain)) := by
  have hleft := reachable_of_exec (onlyChanges_resolve _) hcatalog hplain
  have hlisted : (candidate.learning none).link.isSome := hlink
  obtain ⟨id, hid, hmod⟩ := kept_of_resolve hcatalog hlisted hplain
  have hlearn : learn (some name) answer = do
      linkCoordinate id (some name)
      return answer := by
    unfold learn
    rw [hid]
  rw [resolve_learning hlink, exec_bind_of_ok hplain, hlearn]
  constructor
  · intro hfits
    obtain ⟨left, hlinked, hsame⟩ := exists_linkCoordinate hleft.consistent hmod hfits
    exact ⟨left, exec_bind_of_ok hlinked, hsame⟩
  · intro hunfit
    exact exec_bind_of_error (linkCoordinate_of_unfit hleft.coordinatesFit hmod hunfit)

end Resolving

open Resolving

namespace Attempt

variable {catalog : Catalog}

/-- An attempt on a candidate that has learned a coordinate, or none. -/
def learning (attempt : Attempt) (coordinate : Option String) : Attempt :=
  { attempt with candidate := attempt.candidate.learning coordinate }

/-- Where an attempt succeeds without it, a coordinate that was learned changes nothing but
coordinates if it fits; otherwise the attempt fails, even if all that it does is done by then. -/
theorem run_learning_spec {attempt : Attempt} (hcatalog : catalog.store.Reachable)
    (hlink : attempt.candidate.link.isSome) {answer : Resolution} {plain : Catalog}
    (hplain : (attempt.learning none).run.exec catalog = (.ok answer, plain)) (name : String) :
    (Store.checkWrite name 0 = .ok () → ∃ left,
      (attempt.learning (some name)).run.exec catalog = (.ok answer, left) ∧
        plain.SameButCoordinates left) ∧
    (Store.checkWrite name 0 ≠ .ok () → ∃ left,
      (attempt.learning (some name)).run.exec catalog = (.error (.storage .badKey), left) ∧
        ∀ id, answer = .known id → left = plain) := by
  have hanswer := resolve_of_run (congrArg Prod.fst hplain)
  rw [run_eq_finish] at hplain ⊢
  obtain ⟨first, between, hresolve, hfinish⟩ := steps_of_run_bind hplain
  obtain rfl : first = answer := Except.ok.inj ((congrArg Prod.fst hresolve).symm.trans hanswer)
  obtain ⟨hfits, hunfit⟩ := resolve_learning_spec hcatalog hlink hresolve name
  constructor
  · intro hkey
    obtain ⟨left, hlearned, hsame⟩ := hfits hkey
    obtain ⟨last, hlast, hafter⟩ :=
      blind_finish (attempt.learning none) first _ _ _ _ hsame hfinish
    exact ⟨last, (exec_bind_of_ok hlearned).trans hlast, hafter⟩
  · intro hkey
    refine ⟨between, exec_bind_of_error (hunfit hkey), ?_⟩
    rintro id rfl
    cases hfinish
    rfl

end Attempt

end ModCatalog
