import ModCatalog.Proofs.Indexing.Restoration
import ModCatalog.Proofs.Resolution.Bijection
import ModCatalog.Proofs.Resolution.Sparing

/-!
# Candidates that fail

A candidate that is reported as failed leaves no partial data, provided that the key of its file
fits with the number of an owner in front of it: the file is noted after the rows of the content are
written for good.
-/

namespace ModCatalog

open Resolving

/-- Catalogs that processing candidates leads to, one after another, from the empty catalog.  What
is remembered may be lost in between. -/
inductive Catalog.Reached : Catalog → Prop
  | empty : Reached .empty
  | processed {σ : Type} (indexer : Indexer) (candidate : Candidate) (place : Workplace σ) :
      Reached place.catalog → Reached ((indexer.process candidate).run.run place).2.catalog
  | reopened {catalog again : Catalog} : Reached catalog → again.Reopens catalog → Reached again

theorem Catalog.Reached.spec {catalog : Catalog} (hreached : catalog.Reached) :
    catalog.Coherent ∧ catalog.store.Reachable := by
  induction hreached with
  | empty => exact ⟨.empty, [], rfl⟩
  | processed indexer candidate place _ ih =>
      obtain ⟨hcoherent, hreachable⟩ := ih
      obtain ⟨_, after, hrun, hcatalog, _⟩ := indexer.process_spec candidate place
      rw [hrun, hcatalog]
      exact ⟨((indexer.attemptOn candidate).after_spec hcoherent).1,
        reachable_exec (indexer.attemptOn candidate).onlyChanges_run hreachable⟩
  | reopened _ hreopens ih =>
      obtain ⟨hcoherent, hreachable⟩ := ih
      rw [hreopens.store_eq]
      exact ⟨hcoherent.reopen hreopens, hreachable⟩

namespace Indexer

variable {σ : Type} (indexer : Indexer)

/-- A candidate that fails leaves all rows, contents and seen files as they were.  No mod is gone or
has lost a listing, and if there is a new one, it is the next in number and has neither contents nor
rows. -/
theorem failed_candidate_spares {place after : Workplace σ} (hreached : place.catalog.Reached)
    {candidate : Candidate} (hfits : candidate.Fits) {item : FailedItem}
    (hfailed : (indexer.process candidate).run.run place = (.ok (.failed item), after)) :
    let before := place.catalog.store
    let left := after.catalog.store
    (∀ id, left.rowsOf id = before.rowsOf id) ∧
    (∀ hash, left.findByHash hash = before.findByHash hash) ∧
    (∀ file, left.seenFileOwner file = before.seenFileOwner file) ∧
    (∀ listing id, before.findByListing listing = some id → left.findByListing listing = some id) ∧
    (∀ id record, before.mod? id = some record → ∃ kept, left.mod? id = some kept ∧
      record.listings ⊆ kept.listings) ∧
    ∀ id record, before.mod? id = none → left.mod? id = some record →
      id = before.nextId ∧ record.hashes = [] ∧ left.rowsOf id = .empty := by
  intro before left
  obtain ⟨hcoherent, hreachable⟩ := hreached.spec
  obtain ⟨outcome, last, hrun, hcatalog, _, htells⟩ := indexer.process_tells candidate place
  cases hfailed.symm.trans hrun
  have hleft : (after.catalog).Coherent := by
    rw [hcatalog]
    exact ((indexer.attemptOn candidate).after_spec hcoherent).1
  have hspares : before.Spares 1 left := by
    change place.catalog.store.Spares 1 after.catalog.store
    rw [hcatalog]
    cases hanswer : ((indexer.attemptOn candidate).run.exec place.catalog).1 with
    | ok answer =>
        rw [hanswer] at htells
        exact htells.elim
    | error fault => exact (indexer.attemptOn candidate).spares_of_error hcoherent hfits hanswer
  exact hspares.spec hcoherent.store_exact hleft.store_exact hreachable.rowsOwned

/-- A candidate that is listed under project 2 with bytes that are no archive. -/
def brokenJar : Candidate := OneJar.candidate .empty "h" ⟨OneJar.link.platform, 2, 10⟩

/-- The place where content "g" was processed, under project 1. -/
def stockedPlace : Workplace ListingMemory :=
  (((OneJar.indexer .full).process (OneJar.candidate OneJar.jar "g" OneJar.link)).run.run
    (OneJar.stocked .empty)).2

/-- Content "g" keeps its mod when a candidate with other content fails, and the mod that was
created for that one has no contents. -/
theorem broken_candidate_spares : ∃ item after,
    ((OneJar.indexer .full).process brokenJar).run.run stockedPlace = (.ok (.failed item), after) ∧
      after.catalog.store.findByHash "g" = .ok (some 1) ∧
      after.catalog.store.findByHash "h" = .ok none ∧
      ∃ record, after.catalog.store.mod? 2 = some record ∧ record.hashes = [] := by
  have hstart : (OneJar.stocked .empty).catalog.Reached := .empty
  have hreached : stockedPlace.catalog.Reached := by
    unfold stockedPlace
    exact .processed _ _ _ hstart
  have hfits : brokenJar.Fits := by
    refine ⟨?_, nofun⟩
    intro link hlink
    cases hlink
    decide +kernel
  have hevaluated : (((OneJar.indexer .full).process brokenJar).run.run stockedPlace).1.map
      Outcome.isFailed = .ok true := by decide +kernel
  have hnew : ((((OneJar.indexer .full).process brokenJar).run.run
      stockedPlace).2.catalog.store.mod? 2).isSome := by decide +kernel
  have hbefore : stockedPlace.catalog.store.findByHash "g" = .ok (some 1) ∧
      stockedPlace.catalog.store.findByHash "h" = .ok none ∧
      stockedPlace.catalog.store.mod? 2 = none := by decide +kernel
  obtain ⟨hg, hh, hnone⟩ := hbefore
  obtain ⟨outcome, after, hrun, _⟩ := (OneJar.indexer .full).process_spec brokenJar stockedPlace
  rw [hrun] at hevaluated hnew
  cases outcome with
  | indexed id | linked id | skipped id => cases hevaluated
  | failed item =>
      obtain ⟨_, hcontents, _, _, _, hfresh⟩ :=
        failed_candidate_spares (OneJar.indexer .full) hreached hfits hrun
      obtain ⟨record, hrecord⟩ := Option.isSome_iff_exists.mp hnew
      exact ⟨item, after, hrun, (hcontents "g").trans hg, (hcontents "h").trans hh, record, hrecord,
        (hfresh 2 record hnone hrecord).2.1⟩

/-- A link whose file has a key of 491 bytes. -/
def longLink : PlatformLink := ⟨String.ofList (List.replicate 489 'p'), 1, 1⟩

/-- All keys of a candidate are of 1 to 511 bytes, and its content has a mod after it failed: its
file does not fit with the number of the mod in front of it. -/
theorem failed_candidate_left_content :
    let candidate := OneJar.candidate OneJar.jar "h" longLink
    let place := OneJar.stocked .empty
    place.catalog.Reached ∧
      (∀ key ∈ [candidate.artifact.contentHash, longLink.listing.key, longLink.file.key],
        Store.checkWrite key 0 = .ok ()) ∧
      candidate.artifact.coordinate = none ∧ candidate.extraCoordinate = none ∧
      place.catalog.store.findByHash "h" = .ok none ∧
      ∃ item after, ((OneJar.indexer .full).process candidate).run.run place =
          (.ok (.failed item), after) ∧
        after.catalog.store.findByHash "h" = .ok (some 1) := by
  intro candidate place
  have hevaluated : (((OneJar.indexer .full).process candidate).run.run place).1.map
        Outcome.isFailed = .ok true ∧
      (((OneJar.indexer .full).process candidate).run.run place).2.catalog.store.findByHash "h" =
        .ok (some 1) := by decide +kernel
  obtain ⟨hanswer, hfound⟩ := hevaluated
  obtain ⟨outcome, after, hrun, _⟩ := (OneJar.indexer .full).process_spec candidate place
  rw [hrun] at hanswer hfound
  refine ⟨.empty, by decide +kernel, rfl, rfl, rfl, ?_⟩
  cases outcome with
  | indexed id | linked id | skipped id => cases hanswer
  | failed item => exact ⟨item, after, hrun, hfound⟩

end Indexer

end ModCatalog
