import ModCatalog.Proofs.Store.Exactness
import ModCatalog.Resolution

/-!
# Work on a coherent catalog

A catalog is coherent if its store is exact and what is remembered of contents is what the store
says.  Work is taken apart into its steps: each keeps the catalog coherent, whether it succeeds or
not, and leaves together what was found on one mod.
-/

namespace ModCatalog

section Steps

variable {σ α β : Type} {state after : σ} {work : ExceptT Fault (StateM σ) α}
  {next : α → ExceptT Fault (StateM σ) β}

theorem run_bind_of_ok {value : α} (h : work.run.run state = (.ok value, after)) :
    (work >>= next).run.run state = (next value).run.run after := by
  rw [ExceptT.run_bind, StateT.run_bind, h]
  rfl

theorem run_bind_of_error {fault : Fault} (h : work.run.run state = (.error fault, after)) :
    (work >>= next).run.run state = (.error fault, after) := by
  rw [ExceptT.run_bind, StateT.run_bind, h]
  rfl

theorem run_bind_of_fst {value : α} (h : (work.run.run state).1 = .ok value) :
    (work >>= next).run.run state = (next value).run.run (work.run.run state).2 :=
  run_bind_of_ok (Prod.ext h rfl)

/-- Work that succeeds is taken apart into its two steps. -/
theorem steps_of_run_bind {value : β}
    (h : (work >>= next).run.run state = (.ok value, after)) :
    ∃ middle between, work.run.run state = (.ok middle, between) ∧
      (next middle).run.run between = (.ok value, after) := by
  cases hrun : work.run.run state with
  | mk answer between =>
      cases answer with
      | error fault =>
          rw [run_bind_of_error hrun] at h
          cases h
      | ok middle =>
          rw [run_bind_of_ok hrun] at h
          exact ⟨middle, between, rfl, h⟩

theorem run_tryCatch_of_ok {recover : Fault → ExceptT Fault (StateM σ) α} {value : α}
    (h : work.run.run state = (.ok value, after)) :
    (tryCatch work recover).run.run state = (.ok value, after) := by
  rw [ExceptT.run_tryCatch, StateT.run_bind, h]
  rfl

theorem run_tryCatch_of_error {recover : Fault → ExceptT Fault (StateM σ) α} {fault : Fault}
    (h : work.run.run state = (.error fault, after)) :
    (tryCatch work recover).run.run state = (recover fault).run.run after := by
  rw [ExceptT.run_tryCatch, StateT.run_bind, h]
  rfl

end Steps

/-- The store is exact, and it finds every content that is remembered on the same mod. -/
structure Catalog.Coherent (catalog : Catalog) : Prop where
  store_exact : catalog.store.Exact
  remembered {hash : String} {id : Nat} : catalog.identities.get? hash = some id →
    catalog.store.findByHash hash = .ok (some id)

/-- What is remembered stays true while no entry is taken from a mod. -/
theorem Catalog.Coherent.keeps {catalog : Catalog} {after : Store} (hcatalog : catalog.Coherent)
    (hexact : after.Exact) (hkeeps : catalog.store.Keeps after) :
    Catalog.Coherent { catalog with store := after } := by
  refine ⟨hexact, ?_⟩
  intro hash id hremembered
  obtain ⟨hkey, hentry⟩ := Store.findByHash_eq_some.mp (hcatalog.remembered hremembered)
  exact Store.findByHash_eq_some.mpr ⟨hkey, hkeeps.hashes hentry⟩

theorem Catalog.Coherent.empty : Catalog.empty.Coherent := ⟨Store.Exact.empty, nofun⟩

namespace Resolving

variable {α β : Type} {catalog : Catalog} {post : α → Catalog → Prop}

/-- What work answers on a catalog, and the catalog it leaves. -/
def exec (work : Resolving α) (catalog : Catalog) : Except Fault α × Catalog :=
  work.run.run catalog

/-- From a coherent catalog, work leaves a coherent one in which nothing was torn apart; if it
succeeds, its value and that catalog satisfy `post`. -/
def Ensures (work : Resolving α) (catalog : Catalog) (post : α → Catalog → Prop) : Prop :=
  catalog.Coherent →
    (work.exec catalog).2.Coherent ∧ catalog.store.Carries (work.exec catalog).2.store ∧
      ∀ value, (work.exec catalog).1 = .ok value → post value (work.exec catalog).2

/-! ## Steps -/

theorem exec_bind_of_ok {work : Resolving α} {next : α → Resolving β} {value : α}
    {after : Catalog} (h : work.exec catalog = (.ok value, after)) :
    (work >>= next).exec catalog = (next value).exec after :=
  run_bind_of_ok h

theorem exec_bind_of_error {work : Resolving α} {next : α → Resolving β} {fault : Fault}
    {after : Catalog} (h : work.exec catalog = (.error fault, after)) :
    (work >>= next).exec catalog = (.error fault, after) :=
  run_bind_of_error h

theorem exec_bind_eq_ok {work : Resolving α} {next : α → Resolving β} {value : β}
    (h : ((work >>= next).exec catalog).1 = .ok value) :
    ∃ middle between, work.exec catalog = (.ok middle, between) ∧
      ((next middle).exec between).1 = .ok value := by
  cases hexec : work.exec catalog with
  | mk answer between =>
      cases answer with
      | error fault =>
          rw [exec_bind_of_error hexec] at h
          cases h
      | ok middle =>
          rw [exec_bind_of_ok hexec] at h
          exact ⟨middle, between, rfl, h⟩

theorem Ensures.of_coherent {work : Resolving α}
    (hwork : catalog.Coherent → Ensures work catalog post) : Ensures work catalog post :=
  fun hcatalog => hwork hcatalog hcatalog

theorem Ensures.mono {work : Resolving α} {weaker : α → Catalog → Prop}
    (hwork : Ensures work catalog post)
    (hpost : ∀ value after, post value after → weaker value after) :
    Ensures work catalog weaker := by
  intro hcatalog
  obtain ⟨hafter, hcarries, hvalue⟩ := hwork hcatalog
  exact ⟨hafter, hcarries, fun value h => hpost value _ (hvalue value h)⟩

theorem Ensures.bind {work : Resolving α} {next : α → Resolving β}
    {middle : α → Catalog → Prop} {post : β → Catalog → Prop}
    (hwork : Ensures work catalog middle)
    (hnext : ∀ value between, middle value between → Ensures (next value) between post) :
    Ensures (work >>= next) catalog post := by
  intro hcatalog
  obtain ⟨hbetween, hfirst, hmiddle⟩ := hwork hcatalog
  cases hexec : work.exec catalog with
  | mk answer between =>
      rw [hexec] at hbetween hfirst hmiddle
      cases answer with
      | error fault =>
          rw [exec_bind_of_error hexec]
          exact ⟨hbetween, hfirst, nofun⟩
      | ok value =>
          rw [exec_bind_of_ok hexec]
          obtain ⟨hafter, hsecond, hpost⟩ := hnext value between (hmiddle value rfl) hbetween
          exact ⟨hafter, hfirst.trans hsecond, hpost⟩

theorem ensures_pure {value : α} (hpost : post value catalog) :
    Ensures (pure value) catalog post := by
  intro hcatalog
  refine ⟨hcatalog, .refl _, ?_⟩
  intro result hresult
  cases hresult
  exact hpost

theorem ensures_get_bind {next : Catalog → Resolving α}
    (hnext : Ensures (next catalog) catalog post) : Ensures (get >>= next) catalog post := by
  intro hcatalog
  have hexec : (get : Resolving Catalog).exec catalog = (.ok catalog, catalog) := rfl
  rw [exec_bind_of_ok hexec]
  exact hnext hcatalog

theorem ensures_ask_bind {question : Store → Except Fault β} {next : β → Resolving α}
    (hnext : ∀ value, question catalog.store = .ok value → Ensures (next value) catalog post) :
    Ensures (ask question >>= next) catalog post := by
  intro hcatalog
  cases hanswer : question catalog.store with
  | error fault =>
      have hexec : (ask question).exec catalog = (.error fault, catalog) :=
        congrArg (·, catalog) hanswer
      rw [exec_bind_of_error hexec]
      exact ⟨hcatalog, .refl _, nofun⟩
  | ok value =>
      have hexec : (ask question).exec catalog = (.ok value, catalog) :=
        congrArg (·, catalog) hanswer
      rw [exec_bind_of_ok hexec]
      exact hnext value hanswer hcatalog

theorem ensures_remember {hash : String} {id : Nat} {post : Unit → Catalog → Prop}
    (hfound : catalog.store.findByHash hash = .ok (some id))
    (hpost : post () { catalog with identities := catalog.identities.remember hash id }) :
    Ensures (updateIdentities (·.remember hash id)) catalog post := by
  intro hcatalog
  refine ⟨⟨hcatalog.store_exact, ?_⟩, .refl _, fun _ _ => hpost⟩
  intro other owner hremembered
  have hanswer := (Table.get?_put catalog.identities.byHash hash other id).symm.trans hremembered
  split at hanswer
  · next heq =>
      cases hanswer
      rw [heq]
      exact hfound
  · exact hcatalog.remembered hanswer

theorem exec_ask_of_ok {question : Store → Except Fault α} {value : α}
    (hanswer : question catalog.store = .ok value) :
    (ask question).exec catalog = (.ok value, catalog) := congrArg (·, catalog) hanswer

theorem exec_transact_of_ok {change : Transaction α} {value : α} {after : Store}
    (hrun : change.run catalog.store = .ok (value, after)) :
    (transact change).exec catalog = (.ok value, { catalog with store := after }) := by
  have hexec : (transact change).exec catalog =
      ((change.commit catalog.store).1,
        { catalog with store := (change.commit catalog.store).2 }) := rfl
  rw [hexec, Transaction.commit_eq_ok.mpr hrun]

theorem exec_transact_of_error {change : Transaction α} {fault : Fault}
    (hrun : change.run catalog.store = .error fault) :
    (transact change).exec catalog = (.error fault, catalog) := by
  have hexec : (transact change).exec catalog =
      ((change.commit catalog.store).1,
        { catalog with store := (change.commit catalog.store).2 }) := rfl
  rw [hexec, Transaction.commit_eq_error hrun]

theorem run_of_exec_transact {change : Transaction α} {value : α} {after : Catalog}
    (h : (transact change).exec catalog = (.ok value, after)) :
    change.run catalog.store = .ok (value, after.store) := by
  cases hrun : change.run catalog.store with
  | error fault =>
      rw [exec_transact_of_error hrun] at h
      cases h
  | ok pair =>
      rw [exec_transact_of_ok hrun] at h
      cases h
      rfl

theorem identities_of_exec_transact {change : Transaction α} {answer : Except Fault α}
    {after : Catalog} (h : (transact change).exec catalog = (answer, after)) :
    after.identities = catalog.identities :=
  (congrArg (fun done : Except Fault α × Catalog => done.2.identities) h).symm

/-- A transaction that leaves the store exact and takes no entry from a mod. -/
theorem ensures_transact {change : Transaction α}
    (hchange : catalog.Coherent → ∀ value after, change.run catalog.store = .ok (value, after) →
      after.Exact ∧ catalog.store.Keeps after ∧ post value { catalog with store := after }) :
    Ensures (transact change) catalog post := by
  intro hcatalog
  cases hrun : change.run catalog.store with
  | error fault =>
      rw [exec_transact_of_error hrun]
      exact ⟨hcatalog, .refl _, nofun⟩
  | ok pair =>
      obtain ⟨value, after⟩ := pair
      obtain ⟨hexact, hkeeps, hpost⟩ := hchange hcatalog value after hrun
      rw [exec_transact_of_ok hrun]
      refine ⟨hcatalog.keeps hexact hkeeps, hkeeps.carries, ?_⟩
      intro result hresult
      cases hresult
      exact hpost

end Resolving

end ModCatalog
