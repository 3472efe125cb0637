import ModCatalog.Proofs.Resolution.Identity
import ModCatalog.Proofs.Store.History

/-!
# What resolution is put together from

Resolution asks the store, changes it by one transaction at a time and updates what is remembered.
A property of work that holds of these steps and of steps in sequence holds of all that an attempt
does once the content was looked up.  Noting a file is set apart, for only that and deleting a mod
bear on which files were seen.
-/

namespace ModCatalog

/-- Whether a change leaves it alone which files were seen. -/
def Store.Change.keepsSeen : Store.Change → Bool
  | .markFileSeen _ _ | .deleteMod _ => false
  | _ => true

namespace Resolving

/-- Whether a property of work holds of single steps, other than noting a file, and goes over to
steps in sequence. -/
structure Closed (holds : ∀ {α : Type}, Resolving α → Prop) : Prop where
  pure {α : Type} (value : α) : holds (pure value)
  bind {α β : Type} {work : Resolving α} {next : α → Resolving β} : holds work →
    (∀ value, holds (next value)) → holds (work >>= next)
  ask {α : Type} (question : Store → Except Fault α) : holds (ask question)
  updateIdentities (change : IdentityCache → IdentityCache) : holds (updateIdentities change)
  transact {α : Type} {transaction : Transaction α} (change : Store.Change) :
    change.keepsSeen → (∀ store : Store, (transaction.commit store).2 = store.after change) →
      holds (transact transaction)

/-- A content is looked up in what is remembered and then in the store, which stays as it is. -/
theorem exec_knownHash (hash : String) (catalog : Catalog) :
    ((knownHash hash).exec catalog).1 =
        ((catalog.identities.get? hash).elim (catalog.store.findByHash hash)
          fun id => .ok (some id)) ∧
      ((knownHash hash).exec catalog).2.store = catalog.store := by
  have hget : (get : Resolving Catalog).exec catalog = (.ok catalog, catalog) := rfl
  have hask : (ask (·.findByHash hash)).exec catalog =
      (catalog.store.findByHash hash, catalog) := rfl
  unfold knownHash
  rw [exec_bind_of_ok hget]
  cases catalog.identities.get? hash with
  | some id => exact ⟨rfl, rfl⟩
  | none =>
      cases hanswer : catalog.store.findByHash hash with
      | error fault =>
          rw [hanswer] at hask
          rw [exec_bind_of_error hask]
          exact ⟨rfl, rfl⟩
      | ok owner =>
          rw [hanswer] at hask
          rw [exec_bind_of_ok hask]
          cases owner <;> exact ⟨rfl, rfl⟩

namespace Closed

variable {holds : ∀ {α : Type}, Resolving α → Prop} (hholds : Closed holds)

include hholds

theorem findOrCreate (key : LookupKey) (new : NewMod) :
    holds (Resolving.transact (.findOrCreate key new)) :=
  hholds.transact (.findOrCreate key new) rfl (Store.commit_eq_after rfl)

theorem linkCoordinate (id : Nat) (coordinate : Option String) :
    holds (Resolving.linkCoordinate id coordinate) := by
  cases coordinate with
  | none => exact hholds.pure ()
  | some coordinate =>
      refine hholds.bind (hholds.ask _) fun owner => ?_
      cases owner with
      | some owner => exact hholds.pure ()
      | none => exact hholds.transact (.linkCoordinate id coordinate) rfl fun _ => rfl

theorem attachListing (id : Nat) (link : PlatformLink) :
    holds (Resolving.attachListing id link) := by
  have hchange : holds (Resolving.transact (.attachPlatform id link)) :=
    hholds.transact (.attachPlatform id link) rfl (Store.commit_eq_after rfl)
  refine hholds.bind hchange fun absorbed => ?_
  cases absorbed with
  | none => exact hholds.pure ()
  | some old => exact hholds.updateIdentities _

theorem resolveListing (candidate : Candidate) (link : PlatformLink) :
    holds (Resolving.resolveListing candidate link) := by
  refine hholds.bind (hholds.findOrCreate _ _) fun answer => ?_
  obtain ⟨record, created⟩ := answer
  have hlink : holds (Resolving.transact (.linkPlatform record.id link)) :=
    hholds.transact (.linkPlatform record.id link) rfl fun _ => rfl
  refine hholds.bind hlink fun _ => ?_
  refine hholds.bind (hholds.linkCoordinate _ _) fun _ => ?_
  exact hholds.bind (hholds.linkCoordinate _ _) fun _ => hholds.pure _

theorem resolveCoordinate (candidate : Candidate) (coordinate : String) :
    holds (Resolving.resolveCoordinate candidate coordinate) := by
  refine hholds.bind (hholds.findOrCreate _ _) fun answer => ?_
  dsimp only
  split
  · exact hholds.pure _
  · exact hholds.pure _

theorem commitBatch (hash : String) (id : Nat) (batch : TrackBatch) :
    holds (Resolving.commitBatch hash id batch) := by
  have htrack : holds (Resolving.transact (.track id batch)) :=
    hholds.transact (.track id batch) rfl fun _ => rfl
  exact hholds.bind htrack fun _ => hholds.updateIdentities _

/-- What follows in settling a candidate once it is resolved. -/
theorem settle_of_answer (attempt : Attempt) (answer : Resolution) :
    holds (match answer with
      | .index id created => do
          let artifact := attempt.candidate.artifact
          let aggregate ← Resolving.ask fun _ => attempt.gathered
          Resolving.commitBatch artifact.contentHash id
            (aggregate.toBatch (some artifact.contentHash) (some artifact.summary) attempt.now)
          return .index id created
      | answer => return answer) := by
  cases answer with
  | known id => exact hholds.pure _
  | outdated id => exact hholds.pure _
  | unindexable => exact hholds.pure _
  | index id created =>
      refine hholds.bind (hholds.ask _) fun aggregate => ?_
      exact hholds.bind (hholds.commitBatch _ _ _) fun _ => hholds.pure _

/-! ## Work that notes files -/

section Noting

variable (hnotes : ∀ link id, holds (Resolving.transact (.markFileSeen link id)))

include hnotes

theorem markSeen (id : Nat) (link : Option PlatformLink) : holds (Resolving.markSeen id link) := by
  cases link with
  | none => exact hholds.pure ()
  | some link => exact hnotes link id

theorem resolveKnown (candidate : Candidate) (id : Nat) :
    holds (Resolving.resolveKnown candidate id) := by
  have hextra : holds (do
      Resolving.linkCoordinate id candidate.extraCoordinate
      return Resolution.known id) :=
    hholds.bind (hholds.linkCoordinate id _) fun _ => hholds.pure _
  unfold Resolving.resolveKnown
  cases candidate.link with
  | none => exact hholds.bind (hholds.linkCoordinate id _) fun _ => hextra
  | some link =>
      have htake : holds (takeListing id link) :=
        hholds.bind (hholds.attachListing id link) fun _ => hnotes link id
      exact hholds.bind htake fun _ => hextra

/-- What follows in resolution once it is known which mod owns the content. -/
theorem resolve_of_owner (candidate : Candidate) (owner : Option Nat) :
    holds (match owner with
      | some id => Resolving.resolveKnown candidate id
      | none =>
          match candidate.link, candidate.artifact.coordinate with
          | some link, _ => Resolving.resolveListing candidate link
          | none, some coordinate => Resolving.resolveCoordinate candidate coordinate
          | none, none => return .unindexable) := by
  cases owner with
  | some id => exact hholds.resolveKnown hnotes candidate id
  | none =>
      cases candidate.link with
      | some link => exact hholds.resolveListing candidate link
      | none =>
          cases candidate.artifact.coordinate with
          | some coordinate => exact hholds.resolveCoordinate candidate coordinate
          | none => exact hholds.pure _

/-- What follows in an attempt once its candidate is settled. -/
theorem run_of_answer (attempt : Attempt) (answer : Resolution) :
    holds (match answer with
      | .index id created => do
          Resolving.markSeen id attempt.candidate.link
          return .index id created
      | answer => return answer) := by
  cases answer with
  | known id => exact hholds.pure _
  | outdated id => exact hholds.pure _
  | unindexable => exact hholds.pure _
  | index id created => exact hholds.bind (hholds.markSeen hnotes id _) fun _ => hholds.pure _

end Noting

end Closed

end Resolving

end ModCatalog
