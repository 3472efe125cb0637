import ModCatalog.Proofs.Resolution.Noting
import ModCatalog.Proofs.Store.RowChanges

/-!
# What an attempt does to rows

Finding the mod of a candidate leaves all rows alone, unless a listing goes over to a known mod that
absorbs the one it led to.  Apart from that only the batch of a new content is written.  So an
attempt changes the rows of one mod at most, and its answer tells how.
-/

namespace ModCatalog

namespace Resolving

variable {α β : Type} {catalog : Catalog}

/-- Whether work keeps a store consistent and does to its rows what one change does. -/
def Rewrites (change : RowChange) (work : Resolving α) (catalog : Catalog) : Prop :=
  (work.exec catalog).2.store.Consistent ∧
    (work.exec catalog).2.store.rows = catalog.store.rowsAfter change

/-- Whether work leaves the rows of every consistent store alone. -/
def KeepsRows (work : Resolving α) : Prop :=
  ∀ catalog : Catalog, catalog.store.Consistent → Rewrites .nothing work catalog

theorem keepsRows_of_same {work : Resolving α}
    (hsame : ∀ catalog, (work.exec catalog).2.store = catalog.store) : KeepsRows work := by
  intro catalog hstore
  unfold Rewrites
  rw [hsame]
  exact ⟨hstore, rfl⟩

theorem keepsRows_pure (value : α) : KeepsRows (pure value : Resolving α) :=
  keepsRows_of_same fun _ => rfl

theorem keepsRows_ask (question : Store → Except Fault α) : KeepsRows (ask question) :=
  keepsRows_of_same fun _ => rfl

theorem keepsRows_updateIdentities (change : IdentityCache → IdentityCache) :
    KeepsRows (updateIdentities change) :=
  keepsRows_of_same fun _ => rfl

/-- A transaction does to rows what its change does. -/
theorem rewrites_transact (hstore : catalog.store.Consistent) {transaction : Transaction α}
    (change : Store.Change)
    (hchange : (transaction.commit catalog.store).2 = catalog.store.after change) :
    Rewrites (catalog.store.rowChange change) (transact transaction) catalog := by
  have hafter : ((transact transaction).exec catalog).2.store = catalog.store.after change :=
    hchange
  unfold Rewrites
  rw [hafter]
  exact ⟨(hstore.effect change).consistent hstore, Store.rows_after hstore change⟩

theorem keepsRows_transact {transaction : Transaction α} (change : Store.Change)
    (hchange : ∀ store : Store, (transaction.commit store).2 = store.after change)
    (hnothing : ∀ store : Store, store.rowChange change = .nothing) :
    KeepsRows (transact transaction) := by
  intro catalog hstore
  rw [← hnothing catalog.store]
  exact rewrites_transact hstore change (hchange catalog.store)

/-- Work that leaves the rows alone may follow. -/
theorem Rewrites.bind {change : RowChange} {work : Resolving α} {next : α → Resolving β}
    (hwork : Rewrites change work catalog) (hnext : ∀ value, KeepsRows (next value)) :
    Rewrites change (work >>= next) catalog := by
  unfold Rewrites at hwork ⊢
  cases hexec : work.exec catalog with
  | mk answer between =>
      rw [hexec] at hwork
      cases answer with
      | error fault =>
          rw [exec_bind_of_error hexec]
          exact hwork
      | ok value =>
          obtain ⟨hafter, hrows⟩ := hnext value between hwork.1
          rw [exec_bind_of_ok hexec]
          exact ⟨hafter, hrows.trans hwork.2⟩

theorem KeepsRows.bind {work : Resolving α} {next : α → Resolving β} (hwork : KeepsRows work)
    (hnext : ∀ value, KeepsRows (next value)) : KeepsRows (work >>= next) :=
  fun catalog hstore => (hwork catalog hstore).bind hnext

/-- What a change of rows does depends on the rows alone. -/
theorem rowsAfter_of_rows {store other : Store} (hrows : other.rows = store.rows)
    (change : RowChange) : other.rowsAfter change = store.rowsAfter change := by
  cases change with
  | nothing => exact hrows
  | purge id => exact congrArg (Table.erase · id) hrows
  | write id batch =>
      unfold Store.rowsAfter Store.putRows Store.rowsWith Store.rowsOf
      rw [hrows]

/-- Work that leaves the rows alone may come before. -/
theorem Rewrites.nothing_bind {change : RowChange} {work : Resolving α} {next : α → Resolving β}
    {value : α} {between : Catalog} (hwork : Rewrites .nothing work catalog)
    (hexec : work.exec catalog = (.ok value, between))
    (hnext : between.store.Consistent → Rewrites change (next value) between) :
    Rewrites change (work >>= next) catalog := by
  unfold Rewrites at hwork ⊢
  rw [hexec] at hwork
  obtain ⟨hbetween, hrows⟩ := hwork
  obtain ⟨hafter, hchanged⟩ := hnext hbetween
  rw [exec_bind_of_ok hexec]
  exact ⟨hafter, hchanged.trans (rowsAfter_of_rows hrows change)⟩

/-- Work that ends with a fault is all that is done. -/
theorem Rewrites.of_error {change : RowChange} {work : Resolving α} {next : α → Resolving β}
    {fault : Fault} {between : Catalog} (hwork : Rewrites change work catalog)
    (hexec : work.exec catalog = (.error fault, between)) :
    Rewrites change (work >>= next) catalog := by
  unfold Rewrites at hwork ⊢
  rw [exec_bind_of_error hexec]
  rwa [hexec] at hwork

/-! ## Parts of an attempt -/

theorem keepsRows_knownHash (hash : String) : KeepsRows (knownHash hash) :=
  keepsRows_of_same fun catalog => (exec_knownHash hash catalog).2

theorem keepsRows_findOrCreate (key : LookupKey) (new : NewMod) :
    KeepsRows (transact (.findOrCreate key new)) :=
  keepsRows_transact (.findOrCreate key new) (Store.commit_eq_after rfl) fun _ => rfl

theorem keepsRows_markFileSeen (link : PlatformLink) (id : Nat) :
    KeepsRows (transact (.markFileSeen link id)) :=
  keepsRows_transact (.markFileSeen link id) (fun _ => rfl) fun _ => rfl

theorem keepsRows_markSeen (id : Nat) (link : Option PlatformLink) :
    KeepsRows (markSeen id link) := by
  cases link with
  | none => exact keepsRows_pure ()
  | some link => exact keepsRows_markFileSeen link id

theorem keepsRows_linkCoordinate (id : Nat) (coordinate : Option String) :
    KeepsRows (linkCoordinate id coordinate) := by
  cases coordinate with
  | none => exact keepsRows_pure ()
  | some name =>
      refine (keepsRows_ask _).bind fun owner => ?_
      cases owner with
      | some owner => exact keepsRows_pure ()
      | none => exact keepsRows_transact (.linkCoordinate id name) (fun _ => rfl) fun _ => rfl

theorem keepsRows_resolveListing (candidate : Candidate) (link : PlatformLink) :
    KeepsRows (resolveListing candidate link) := by
  refine (keepsRows_findOrCreate _ _).bind fun answer => ?_
  obtain ⟨record, created⟩ := answer
  have hlink : KeepsRows (transact (.linkPlatform record.id link)) :=
    keepsRows_transact (.linkPlatform record.id link) (fun _ => rfl) fun _ => rfl
  refine hlink.bind fun _ => ?_
  refine (keepsRows_linkCoordinate _ _).bind fun _ => ?_
  exact (keepsRows_linkCoordinate _ _).bind fun _ => keepsRows_pure _

theorem keepsRows_resolveCoordinate (candidate : Candidate) (coordinate : String) :
    KeepsRows (resolveCoordinate candidate coordinate) := by
  refine (keepsRows_findOrCreate _ _).bind fun answer => ?_
  dsimp only
  split
  · exact keepsRows_pure _
  · exact keepsRows_pure _

/-- What follows in resolution where no mod owns the content. -/
theorem keepsRows_resolveNew (candidate : Candidate) :
    KeepsRows (match candidate.link, candidate.artifact.coordinate with
      | some link, _ => resolveListing candidate link
      | none, some coordinate => resolveCoordinate candidate coordinate
      | none, none => return .unindexable) := by
  cases candidate.link with
  | some link => exact keepsRows_resolveListing candidate link
  | none =>
      cases candidate.artifact.coordinate with
      | some coordinate => exact keepsRows_resolveCoordinate candidate coordinate
      | none => exact keepsRows_pure _

/-- A listing that goes over to a mod takes the rows of the mod that is absorbed. -/
theorem rewrites_attachListing (hstore : catalog.store.Consistent) (id : Nat)
    (link : PlatformLink) :
    Rewrites (catalog.store.rowChange (.attachPlatform id link)) (attachListing id link)
      catalog := by
  refine (rewrites_transact hstore (.attachPlatform id link)
    (Store.commit_eq_after rfl _)).bind fun absorbed => ?_
  cases absorbed with
  | none => exact keepsRows_pure ()
  | some old => exact keepsRows_updateIdentities _

theorem rewrites_commitBatch (hstore : catalog.store.Consistent) (hash : String) (id : Nat)
    (batch : TrackBatch) :
    Rewrites (catalog.store.rowChange (.track id batch)) (commitBatch hash id batch) catalog :=
  (rewrites_transact hstore (.track id batch) rfl).bind fun _ => keepsRows_updateIdentities _

end Resolving

open Resolving

namespace Attempt

variable {catalog : Catalog} (attempt : Attempt)

/-- The batch that is written once the rows of the content are gathered. -/
def batch (aggregate : Aggregate) : TrackBatch :=
  aggregate.toBatch (some attempt.candidate.artifact.contentHash)
    (some attempt.candidate.artifact.summary) attempt.now

/-- Whether an attempt commits a batch for a mod: its candidate is found to belong to the mod with
a content that is new, and writing the rows of that content succeeds. -/
def Commits (catalog : Catalog) (id : Nat) (batch : TrackBatch) : Prop :=
  ∃ created between aggregate,
    (resolve attempt.candidate).exec catalog = (.ok (.index id created), between) ∧
    attempt.gathered = .ok aggregate ∧ batch = attempt.batch aggregate ∧
    ((Transaction.track id batch).commit between.store).1 = .ok ()

/-- Whether an attempt lets a mod absorb another: the first has the content of the candidate, and
attaching the listing of the candidate to it succeeds and takes the place of the other. -/
def Absorbs (catalog : Catalog) (target old : Nat) : Prop :=
  ((knownHash attempt.candidate.artifact.contentHash).exec catalog).1 = .ok (some target) ∧
  ∃ link ∈ attempt.candidate.link,
    ((Transaction.attachPlatform target link).commit catalog.store).1 = .ok (some old)

/-- What an attempt does to rows, with the reason for it. -/
inductive Explains (catalog : Catalog) : RowChange → Prop
  | nothing : Explains catalog .nothing
  | absorbs {target old : Nat} : attempt.Absorbs catalog target old →
      Explains catalog (.purge old)
  | commits {id : Nat} {batch : TrackBatch} : attempt.Commits catalog id batch →
      Explains catalog (.write id batch)

variable {attempt}

/-- A candidate for which a mod was absorbed belongs to the mod that absorbed it. -/
theorem Absorbs.answer_eq {target old : Nat} (habsorbs : attempt.Absorbs catalog target old)
    {answer : Resolution} (h : (attempt.run.exec catalog).1 = .ok answer) :
    answer = .known target := by
  obtain ⟨hknown, _⟩ := habsorbs
  obtain ⟨owner, between, hlooked, hrest⟩ := exec_bind_eq_ok (resolve_of_run h)
  rw [hlooked] at hknown
  cases hknown
  have hresolved : (resolveKnown attempt.candidate target).exec between = (.ok answer, _) :=
    Prod.ext hrest rfl
  exact known_of_resolveKnown hresolved

variable (attempt)

theorem keepsRows_finish_known (id : Nat) : KeepsRows (do
    linkCoordinate id attempt.candidate.extraCoordinate
    attempt.finish (.known id)) :=
  (keepsRows_linkCoordinate id _).bind fun _ => keepsRows_pure _

theorem explains_known (hstore : catalog.store.Consistent) {id : Nat} {between : Catalog}
    (hknown : (knownHash attempt.candidate.artifact.contentHash).exec catalog =
      (.ok (some id), between)) :
    ∃ change, attempt.Explains catalog change ∧
      Rewrites change (resolveKnown attempt.candidate id >>= attempt.finish) between := by
  have hsame : between.store = catalog.store := by
    have hkept := (exec_knownHash attempt.candidate.artifact.contentHash catalog).2
    rwa [hknown] at hkept
  rw [← hsame] at hstore
  unfold resolveKnown
  cases hlink : attempt.candidate.link with
  | none =>
      simp only [bind_assoc, pure_bind]
      refine ⟨.nothing, .nothing, ?_⟩
      exact (keepsRows_linkCoordinate id attempt.candidate.artifact.coordinate).bind
        (fun _ => attempt.keepsRows_finish_known id) between hstore
  | some link =>
      -- Of the three steps only attaching the listing bears on rows.
      unfold takeListing
      simp only [bind_assoc, pure_bind]
      refine ⟨between.store.rowChange (.attachPlatform id link), ?_,
        (rewrites_attachListing hstore id link).bind fun _ =>
          (keepsRows_markFileSeen link id).bind fun _ => attempt.keepsRows_finish_known id⟩
      rw [hsame]
      dsimp only [Store.rowChange]
      split
      · next absorbed hattached =>
          cases absorbed with
          | none => exact .nothing
          | some old =>
              unfold Option.elim Store.removal
              dsimp only
              split
              · exact .absorbs ⟨congrArg Prod.fst hknown, link, hlink, hattached⟩
              · exact .nothing
      · exact .nothing

theorem explains_index {id : Nat} {created : Bool} {between : Catalog}
    (hresolve : (resolve attempt.candidate).exec catalog = (.ok (.index id created), between))
    (hbetween : between.store.Consistent) :
    ∃ change, attempt.Explains catalog change ∧
      Rewrites change (attempt.finish (.index id created)) between := by
  have hask : (ask fun _ => attempt.gathered).exec between = (attempt.gathered, between) := rfl
  have hkept := keepsRows_ask (fun _ => attempt.gathered) between hbetween
  unfold finish
  cases hgathered : attempt.gathered with
  | error fault =>
      rw [hgathered] at hask hkept
      exact ⟨.nothing, .nothing, hkept.of_error hask⟩
  | ok aggregate =>
      rw [hgathered] at hask hkept
      refine ⟨between.store.rowChange (.track id (attempt.batch aggregate)), ?_,
        hkept.nothing_bind hask fun _ => ?_⟩
      · dsimp only [Store.rowChange]
        split
        · next htracked =>
            exact .commits ⟨created, between, aggregate, hresolve, hgathered, rfl, htracked⟩
        · exact .nothing
      · exact (rewrites_commitBatch hbetween _ id (attempt.batch aggregate)).bind fun _ =>
          (keepsRows_markSeen id _).bind fun _ => keepsRows_pure _

theorem explains_new (hstore : catalog.store.Consistent) {between : Catalog}
    (hknown : (knownHash attempt.candidate.artifact.contentHash).exec catalog =
      (.ok none, between)) :
    ∃ change, attempt.Explains catalog change ∧ Rewrites change attempt.run catalog := by
  -- Resolution leaves the rows alone, so what is done to them is done when the content is indexed.
  have hresolved : Rewrites .nothing (resolve attempt.candidate) catalog :=
    (keepsRows_knownHash _ catalog hstore).nothing_bind hknown
      (keepsRows_resolveNew attempt.candidate between)
  rw [attempt.run_eq_finish]
  cases hresolve : (resolve attempt.candidate).exec catalog with
  | mk answer last =>
      have hlast := hresolved.1
      rw [hresolve] at hlast
      cases answer with
      | error fault => exact ⟨.nothing, .nothing, hresolved.of_error hresolve⟩
      | ok answer =>
          cases answer with
          | known id | outdated id | unindexable =>
              exact ⟨.nothing, .nothing, hresolved.nothing_bind hresolve (keepsRows_pure _ last)⟩
          | index id created =>
              obtain ⟨change, hexplains, hrewrites⟩ := attempt.explains_index hresolve hlast
              exact ⟨change, hexplains, hresolved.nothing_bind hresolve fun _ => hrewrites⟩

/-- An attempt changes the rows of one mod at most, and for a reason. -/
theorem exists_explains (hstore : catalog.store.Consistent) :
    ∃ change, attempt.Explains catalog change ∧ Rewrites change attempt.run catalog := by
  have hkept := keepsRows_knownHash attempt.candidate.artifact.contentHash catalog hstore
  cases hknown : (knownHash attempt.candidate.artifact.contentHash).exec catalog with
  | mk answer between =>
      cases answer with
      | error fault =>
          refine ⟨.nothing, .nothing, ?_⟩
          rw [attempt.run_eq_finish]
          unfold resolve
          rw [bind_assoc]
          exact hkept.of_error hknown
      | ok owner =>
          cases owner with
          | none => exact attempt.explains_new hstore hknown
          | some id =>
              obtain ⟨change, hexplains, hrewrites⟩ := attempt.explains_known hstore hknown
              refine ⟨change, hexplains, ?_⟩
              rw [attempt.run_eq_finish]
              unfold resolve
              rw [bind_assoc]
              exact hkept.nothing_bind hknown fun _ => hrewrites

/-- The rows of a mod after an attempt: they are those from before, unless a batch was committed for
the mod, or another absorbed it. -/
theorem rowsOf_after (hstore : catalog.store.Consistent) (id : Nat) :
    (attempt.after catalog).store.rowsOf id = catalog.store.rowsOf id ∨
      (∃ batch, attempt.Commits catalog id batch) ∨
        ∃ target, attempt.Absorbs catalog target id := by
  obtain ⟨change, hexplains, _, hrows⟩ := attempt.exists_explains hstore
  have hafter : (attempt.after catalog).store.rowsOf id = catalog.store.rowsOfAfter id change :=
    Store.rowsOf_of_rows hrows id
  cases hexplains with
  | nothing => exact Or.inl hafter
  | @absorbs target old habsorbs =>
      by_cases hid : id = old
      · exact Or.inr (Or.inr ⟨target, hid ▸ habsorbs⟩)
      · exact Or.inl (hafter.trans (if_neg hid))
  | @commits owner batch hcommits =>
      by_cases hid : id = owner
      · exact Or.inr (Or.inl ⟨batch, hid ▸ hcommits⟩)
      · exact Or.inl (hafter.trans (if_neg hid))

end Attempt

end ModCatalog
