import ModCatalog.Proofs.Resolution.Parts
import ModCatalog.Proofs.Store.Tidiness

/-!
# Records and indexes while candidates are resolved

All that resolution does to a store is a history of its changes, so a store that candidates lead to
from the empty one can be reached, and its records are tidy.  It is exact too, for resolution asks
the store before it gives a project or a content to a mod.
-/

namespace ModCatalog

namespace Resolving

variable {α β : Type}

/-- Whether the store that work leaves is always the one before after some changes. -/
def OnlyChanges (work : Resolving α) : Prop :=
  ∀ catalog : Catalog, ∃ changes, (work.exec catalog).2.store = catalog.store.afterAll changes

theorem OnlyChanges.bind {work : Resolving α} {next : α → Resolving β}
    (hwork : OnlyChanges work) (hnext : ∀ value, OnlyChanges (next value)) :
    OnlyChanges (work >>= next) := by
  intro catalog
  obtain ⟨done, hdone⟩ := hwork catalog
  cases hexec : work.exec catalog with
  | mk answer between =>
      rw [hexec] at hdone
      cases answer with
      | error fault =>
          rw [exec_bind_of_error hexec]
          exact ⟨done, hdone⟩
      | ok value =>
          obtain ⟨rest, hrest⟩ := hnext value between
          refine ⟨done ++ rest, ?_⟩
          rw [exec_bind_of_ok hexec, hrest, hdone, Store.afterAll_append]

theorem closed_onlyChanges : Closed OnlyChanges where
  pure _ := fun _ => ⟨[], rfl⟩
  bind := OnlyChanges.bind
  ask _ := fun _ => ⟨[], rfl⟩
  updateIdentities _ := fun _ => ⟨[], rfl⟩
  transact change _ hchange := fun catalog => ⟨[change], hchange catalog.store⟩

theorem onlyChanges_markFileSeen (link : PlatformLink) (id : Nat) :
    OnlyChanges (transact (.markFileSeen link id)) :=
  fun _ => ⟨[.markFileSeen link id], rfl⟩

theorem onlyChanges_knownHash (hash : String) : OnlyChanges (knownHash hash) :=
  fun catalog => ⟨[], (exec_knownHash hash catalog).2⟩

theorem onlyChanges_resolve (candidate : Candidate) : OnlyChanges (resolve candidate) :=
  (onlyChanges_knownHash _).bind fun owner =>
    closed_onlyChanges.resolve_of_owner onlyChanges_markFileSeen candidate owner

end Resolving

open Resolving

theorem Attempt.onlyChanges_settle (attempt : Attempt) : OnlyChanges attempt.settle :=
  (onlyChanges_resolve attempt.candidate).bind fun answer =>
    closed_onlyChanges.settle_of_answer attempt answer

theorem Attempt.onlyChanges_run (attempt : Attempt) : OnlyChanges attempt.run :=
  attempt.onlyChanges_settle.bind fun answer =>
    closed_onlyChanges.run_of_answer onlyChanges_markFileSeen attempt answer

namespace Catalog

variable {catalog : Catalog}

theorem reachable_exec {α : Type} {work : Resolving α} (hwork : OnlyChanges work)
    (hcatalog : catalog.store.Reachable) : (work.exec catalog).2.store.Reachable := by
  obtain ⟨done, hdone⟩ := hcatalog
  obtain ⟨changes, hchanges⟩ := hwork catalog
  exact ⟨done ++ changes, by rw [Store.afterAll_append, hdone, hchanges]⟩

theorem reachable_afterAll (attempts : List Attempt) (hcatalog : catalog.store.Reachable) :
    (catalog.afterAll attempts).store.Reachable := by
  induction attempts generalizing catalog with
  | nil => exact hcatalog
  | cons attempt rest ih => exact ih (reachable_exec attempt.onlyChanges_run hcatalog)

/-- Work that only makes changes and keeps a catalog coherent leaves records and indexes that say
the same. -/
theorem inBijection_exec {α : Type} {work : Resolving α} {post : α → Catalog → Prop}
    (hwork : OnlyChanges work) (hensures : Ensures work catalog post)
    (hcoherent : catalog.Coherent) (hcatalog : catalog.store.Reachable) :
    (work.exec catalog).2.store.InBijection := by
  have hexact := (hensures hcoherent).1.store_exact
  exact hexact.inBijection (reachable_exec hwork hcatalog).tidy

/-- From the empty catalog on, records and indexes say the same after any candidates, however each
of them ended, and also between resolving a candidate, writing its rows and noting its file. -/
theorem records_match_indexes (attempts : List Attempt) :
    let catalog := Catalog.empty.afterAll attempts
    catalog.store.InBijection ∧ ∀ attempt : Attempt,
      ((resolve attempt.candidate).exec catalog).2.store.InBijection ∧
      (attempt.settle.exec catalog).2.store.InBijection ∧
      (attempt.after catalog).store.InBijection := by
  intro catalog
  obtain ⟨hcoherent, _, _⟩ := Catalog.afterAll_spec attempts .empty
  have hreachable : catalog.store.Reachable := reachable_afterAll attempts ⟨[], rfl⟩
  refine ⟨hcoherent.store_exact.inBijection hreachable.tidy, ?_⟩
  intro attempt
  have hresolved := inBijection_exec (onlyChanges_resolve attempt.candidate)
    (ensures_resolve attempt.candidate) hcoherent hreachable
  have hsettled := inBijection_exec attempt.onlyChanges_settle attempt.ensures_settle hcoherent
    hreachable
  have hafter := (attempt.after_spec hcoherent).1.store_exact
  have hleft := reachable_exec attempt.onlyChanges_run hreachable
  exact ⟨hresolved, hsettled, hafter.inBijection hleft.tidy⟩

end Catalog

end ModCatalog
