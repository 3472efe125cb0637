import ModCatalog.Proofs.Resolution.Parts

/-!
# What is remembered changes nothing

Which mods contents belong to is remembered beside the store.  Only the first step of resolution
reads what is remembered, and on a coherent catalog it finds there what the store says.  So every
answer and every store is the same if what is remembered is thrown away between candidates.
-/

namespace ModCatalog

namespace Resolving

variable {α β : Type} {catalog other : Catalog}

/-- Whether work answers the same on two catalogs and leaves the same store. -/
def ActsAlike (work : Resolving α) (catalog other : Catalog) : Prop :=
  (work.exec catalog).1 = (work.exec other).1 ∧
    (work.exec catalog).2.store = (work.exec other).2.store

/-- Whether what work answers and the store it leaves depend on the store only. -/
def Oblivious (work : Resolving α) : Prop :=
  ∀ catalog other : Catalog, catalog.store = other.store → ActsAlike work catalog other

/-! ## Rules -/

theorem ActsAlike.bind {work : Resolving α} {next : α → Resolving β}
    (hwork : ActsAlike work catalog other) (hnext : ∀ value, Oblivious (next value)) :
    ActsAlike (work >>= next) catalog other := by
  obtain ⟨hanswer, hstore⟩ := hwork
  cases hexec : work.exec catalog with
  | mk answer after =>
      cases hother : work.exec other with
      | mk answer' after' =>
          rw [hexec, hother] at hanswer hstore
          obtain rfl : answer = answer' := hanswer
          cases answer with
          | error fault =>
              unfold ActsAlike
              rw [exec_bind_of_error hexec, exec_bind_of_error hother]
              exact ⟨rfl, hstore⟩
          | ok value =>
              unfold ActsAlike
              rw [exec_bind_of_ok hexec, exec_bind_of_ok hother]
              exact hnext value after after' hstore

theorem oblivious_transact (change : Transaction α) : Oblivious (transact change) := by
  intro catalog other hstore
  have hanswer : (change.commit catalog.store).1 = (change.commit other.store).1 := by rw [hstore]
  have hafter : (change.commit catalog.store).2 = (change.commit other.store).2 := by rw [hstore]
  exact ⟨hanswer, hafter⟩

theorem closed_oblivious : Closed Oblivious where
  pure _ := fun _ _ hstore => ⟨rfl, hstore⟩
  bind hwork hnext := fun catalog other hstore => (hwork catalog other hstore).bind hnext
  ask question := fun _ _ hstore => ⟨congrArg question hstore, hstore⟩
  updateIdentities _ := fun _ _ hstore => ⟨rfl, hstore⟩
  transact _ _ _ := oblivious_transact _

/-! ## Looking a content up -/

theorem exec_knownHash_of_coherent (hcatalog : catalog.Coherent) (hash : String) :
    ((knownHash hash).exec catalog).1 = catalog.store.findByHash hash := by
  rw [(exec_knownHash hash catalog).1]
  cases hremembered : catalog.identities.get? hash with
  | none => rfl
  | some id => exact (hcatalog.remembered hremembered).symm

theorem actsAlike_resolve (hcatalog : catalog.Coherent) (hother : other.Coherent)
    (hstore : catalog.store = other.store) (candidate : Candidate) :
    ActsAlike (resolve candidate) catalog other := by
  have hknown : ActsAlike (knownHash candidate.artifact.contentHash) catalog other := by
    unfold ActsAlike
    rw [exec_knownHash_of_coherent hcatalog, exec_knownHash_of_coherent hother,
      (exec_knownHash _ catalog).2, (exec_knownHash _ other).2, hstore]
    exact ⟨rfl, rfl⟩
  exact hknown.bind fun owner =>
    closed_oblivious.resolve_of_owner (fun _ _ => oblivious_transact _) candidate owner

end Resolving

open Resolving

/-! ## Candidates one after another -/

/-- What an attempt shows: what the candidate was found to be, what the attempt came to in the
end, and the store after each of its steps. -/
structure Attempt.Trace where
  resolution : Except Fault Resolution
  resolved : Store
  answer : Except Fault Resolution
  committed : Store
  left : Store

def Attempt.trace (attempt : Attempt) (catalog : Catalog) : Attempt.Trace where
  resolution := ((resolve attempt.candidate).exec catalog).1
  resolved := ((resolve attempt.candidate).exec catalog).2.store
  answer := (attempt.run.exec catalog).1
  committed := (attempt.settle.exec catalog).2.store
  left := (attempt.after catalog).store

/-- Coherent catalogs of one store show the same, and they still have one store afterwards. -/
theorem Attempt.trace_eq {catalog other : Catalog} (hcatalog : catalog.Coherent)
    (hother : other.Coherent) (hstore : catalog.store = other.store) (attempt : Attempt) :
    attempt.trace catalog = attempt.trace other ∧
      (attempt.after catalog).store = (attempt.after other).store := by
  have hresolve := actsAlike_resolve hcatalog hother hstore attempt.candidate
  have hsettle : ActsAlike attempt.settle catalog other :=
    hresolve.bind fun answer => closed_oblivious.settle_of_answer attempt answer
  have hrun : ActsAlike attempt.run catalog other :=
    hsettle.bind fun answer =>
      closed_oblivious.run_of_answer (fun _ _ => oblivious_transact _) attempt answer
  refine ⟨?_, hrun.2⟩
  unfold trace after
  rw [hresolve.1, hresolve.2, hsettle.2, hrun.1, hrun.2]

/-- Whether a change of what is remembered only forgets. -/
def IdentityCache.OnlyForgets (change : IdentityCache → IdentityCache) : Prop :=
  ∀ (cache : IdentityCache) (hash : String) (id : Nat),
    (change cache).get? hash = some id → cache.get? hash = some id

namespace Catalog

variable {catalog other : Catalog} {change change' : IdentityCache → IdentityCache}

def refresh (change : IdentityCache → IdentityCache) (catalog : Catalog) : Catalog :=
  { catalog with identities := change catalog.identities }

/-- What attempts show, one after another, if what is remembered is changed before each. -/
def traces (change : IdentityCache → IdentityCache) :
    Catalog → List Attempt → List Attempt.Trace
  | _, [] => []
  | catalog, attempt :: rest =>
      let start := catalog.refresh change
      attempt.trace start :: traces change (attempt.after start) rest

theorem Coherent.refresh (hcatalog : catalog.Coherent)
    (hchange : IdentityCache.OnlyForgets change) : (catalog.refresh change).Coherent := by
  refine ⟨hcatalog.store_exact, ?_⟩
  intro hash id hremembered
  exact hcatalog.remembered (hchange _ hash id hremembered)

theorem traces_eq (hchange : IdentityCache.OnlyForgets change)
    (hchange' : IdentityCache.OnlyForgets change') (attempts : List Attempt)
    (hcatalog : catalog.Coherent) (hother : other.Coherent)
    (hstore : catalog.store = other.store) :
    catalog.traces change attempts = other.traces change' attempts := by
  induction attempts generalizing catalog other with
  | nil => rfl
  | cons attempt rest ih =>
      have hstart := hcatalog.refresh hchange
      have hstart' := hother.refresh hchange'
      obtain ⟨htrace, hleft⟩ := attempt.trace_eq hstart hstart' hstore
      have hrest := ih (attempt.after_spec hstart).1 (attempt.after_spec hstart').1 hleft
      unfold traces
      dsimp only
      rw [htrace, hrest]

/-- What is remembered of contents never shows: kept throughout or thrown away before every
candidate, each candidate gets the same answer, and the store is the same after every step. -/
theorem traces_without_memory (attempts : List Attempt) :
    Catalog.empty.traces (fun cache => cache) attempts =
      Catalog.empty.traces (fun _ => .empty) attempts := by
  have hkept : IdentityCache.OnlyForgets fun cache => cache := fun _ _ _ h => h
  have hthrown : IdentityCache.OnlyForgets fun _ => .empty := nofun
  exact traces_eq hkept hthrown attempts .empty .empty rfl

end Catalog

end ModCatalog
