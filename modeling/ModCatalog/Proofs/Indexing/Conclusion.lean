import ModCatalog.Proofs.Indexing.Outcomes
import ModCatalog.Proofs.Store.Integrity
import ModCatalog.Proofs.Store.RowChanges

/-!
# How a pass ends

When no candidate is left, a report counts their outcomes, and only rows can change: a full and
complete pass removes those of mods that it did not find.
-/

namespace ModCatalog

open Resolving

/-! ## Cleaning up -/

namespace Store

/-- The store without the rows of the mods that are not present. -/
def swept (store : Store) (present : List Nat) : Store :=
  { store with rows := (store.absentIds present).foldl Table.erase store.rows }

theorem get?_foldl_erase (ids : List Nat) (table : Table Nat Rows) (id : Nat) :
    (ids.foldl Table.erase table).get? id = if id ∈ ids then none else table.get? id := by
  induction ids generalizing table with
  | nil => rfl
  | cons first rest ih =>
      rw [List.foldl_cons, ih, Table.get?_erase]
      by_cases hrest : id ∈ rest
      · simp [hrest]
      · by_cases hfirst : id = first <;> simp [hrest, hfirst]

theorem get?_rows_swept (store : Store) (present : List Nat) (id : Nat) :
    (store.swept present).rows.get? id =
      if id ∈ store.absentIds present then none else store.rows.get? id :=
  get?_foldl_erase _ _ _

theorem mem_absentIds {store : Store} {present : List Nat} {id : Nat} :
    id ∈ store.absentIds present ↔ id ∈ store.idsWithRows ∧ id ∉ present := by
  simp [absentIds]

/-- Only the mods that are present still have rows, and these have all that they had. -/
theorem rowsOf_swept (store : Store) (present : List Nat) (id : Nat) :
    (store.swept present).rowsOf id = if id ∈ present then store.rowsOf id else .empty := by
  by_cases hpresent : id ∈ present
  · rw [if_pos hpresent]
    unfold rowsOf
    rw [get?_rows_swept, if_neg fun h => (mem_absentIds.mp h).2 hpresent]
  · rw [if_neg hpresent]
    by_cases hrows : store.rowsOf id = .empty
    · unfold rowsOf at hrows ⊢
      rw [get?_rows_swept]
      split
      · rfl
      · exact hrows
    · have hid := mem_absentIds.mpr ⟨mem_idsWithRows_of_rowsOf hrows, hpresent⟩
      unfold rowsOf
      rw [get?_rows_swept, if_pos hid]
      rfl

end Store

namespace Transaction

theorem run_forM_purgeRows (ids : List Nat) (store : Store) :
    (ids.forM purgeRows).run store =
      .ok ((), { store with rows := ids.foldl Table.erase store.rows }) := by
  induction ids generalizing store with
  | nil => rfl
  | cons id rest ih => exact ih { store with rows := store.rows.erase id }

/-- Cleaning up never fails; it does something after a full and complete pass only. -/
theorem run_cleanup (present : List Nat) (mode : CleanupMode) (incomplete : Bool) (store : Store) :
    (cleanup present mode incomplete).run store =
      if mode = .incremental || incomplete then .ok (0, store)
      else .ok ((store.absentIds present).length, store.swept present) := by
  unfold cleanup
  split
  · rfl
  · have hpurge := run_forM_purgeRows (store.absentIds present) store
    have hget : (get : Transaction Store).run store = .ok (store, store) := rfl
    rw [StateT.run_bind, hget]
    change (((store.absentIds present).forM purgeRows >>= fun _ =>
      pure (store.absentIds present).length : Transaction Nat)).run store = _
    rw [StateT.run_bind, hpurge]
    rfl

end Transaction

namespace Outcome

def isLinked : Outcome → Bool
  | .linked _ => true
  | _ => false

def isFailed : Outcome → Bool
  | .failed _ => true
  | _ => false

def isIndexed : Outcome → Bool
  | .indexed _ => true
  | _ => false

def isSkipped : Outcome → Bool
  | .skipped _ => true
  | _ => false

/-- What is reported of a candidate that failed. -/
def failure? : Outcome → Option FailedItem
  | .failed item => some item
  | _ => none

theorem isFailed_of_isLinked {outcome : Outcome} (hlinked : outcome.isLinked) :
    outcome.isFailed = false := by
  cases outcome with
  | linked id => rfl
  | indexed id | skipped id | failed item => cases hlinked

/-- Counting outcomes bears on four members of a report. -/
theorem foldl_addTo (outcomes : List Outcome) (report : BatchReport) :
    outcomes.foldl addTo report = { report with
      indexed := report.indexed + outcomes.countP isIndexed
      linked := report.linked + outcomes.countP isLinked
      skipped := report.skipped + outcomes.countP isSkipped
      failed := report.failed ++ outcomes.filterMap failure? } := by
  induction outcomes generalizing report with
  | nil => simp
  | cons outcome rest ih =>
      rw [List.foldl_cons, ih]
      cases outcome <;>
        simp [addTo, isIndexed, isLinked, isSkipped, failure?, List.countP_cons,
          List.filterMap_cons, Nat.add_assoc, Nat.add_comm 1]

/-- A report of failures is empty only if nothing failed. -/
theorem failed_foldl_addTo {outcomes : List Outcome} {report : BatchReport}
    (h : (outcomes.foldl addTo report).failed = []) :
    report.failed = [] ∧ ∀ outcome ∈ outcomes, outcome.isFailed = false := by
  rw [foldl_addTo] at h
  obtain ⟨hbefore, hnone⟩ := List.append_eq_nil_iff.mp h
  refine ⟨hbefore, fun outcome hmem => ?_⟩
  have hfine := List.filterMap_eq_nil_iff.mp hnone outcome hmem
  cases outcome with
  | failed item => cases hfine
  | indexed id | linked id | skipped id => rfl

theorem linked_foldl_addTo (outcomes : List Outcome) (report : BatchReport) :
    (outcomes.foldl addTo report).linked = report.linked + outcomes.countP isLinked := by
  rw [foldl_addTo]

theorem candidates_foldl_addTo (outcomes : List Outcome) (report : BatchReport) :
    (outcomes.foldl addTo report).candidates = report.candidates := by
  rw [foldl_addTo]

theorem foldl_addTo_of_linked {outcomes : List Outcome} (report : BatchReport)
    (hlinked : ∀ outcome ∈ outcomes, outcome.isLinked) :
    outcomes.foldl addTo report = { report with linked := report.linked + outcomes.length } := by
  induction outcomes generalizing report with
  | nil => rfl
  | cons outcome rest ih =>
      obtain ⟨hfirst, hrest⟩ := List.forall_mem_cons.mp hlinked
      cases outcome with
      | linked id =>
          rw [List.foldl_cons, ih _ hrest, List.length_cons]
          simp [addTo, Nat.add_assoc, Nat.add_comm 1]
      | indexed id | skipped id | failed item => cases hfirst

end Outcome

/-! ## The end of a pass -/

namespace Survey

/-- The report of a pass when all candidates have their outcomes. -/
def counted (survey : Survey) (outcomes : List Outcome) : BatchReport :=
  outcomes.foldl Outcome.addTo { survey.report with candidates := survey.expanded.length }

/-- The mods that a pass found. -/
def present (survey : Survey) (outcomes : List Outcome) : List Nat :=
  survey.passed ++ outcomes.filterMap Outcome.modId?

/-- If there are as many linked candidates as candidates, all of them are linked. -/
theorem isLinked_of_counted {survey : Survey} {outcomes : List Outcome}
    (hnone : survey.report.linked = 0) (hlength : outcomes.length = survey.expanded.length)
    (hall : (survey.counted outcomes).linked = (survey.counted outcomes).candidates) :
    ∀ outcome ∈ outcomes, outcome.isLinked := by
  unfold counted at hall
  rw [Outcome.linked_foldl_addTo, Outcome.candidates_foldl_addTo, hnone, ← hlength,
    Nat.zero_add] at hall
  exact List.countP_eq_length.mp hall

theorem counted_of_linked (survey : Survey) {outcomes : List Outcome}
    (hall : ∀ outcome ∈ outcomes, outcome.isLinked) :
    survey.counted outcomes = { survey.report with
      candidates := survey.expanded.length
      linked := survey.report.linked + outcomes.length } :=
  Outcome.foldl_addTo_of_linked _ hall

end Survey

namespace Indexer

variable {σ : Type} (indexer : Indexer)

theorem run_onCatalog_of_exec {α : Type} {step : Resolving α} {answer : Except Fault α}
    {catalog : Catalog} (place : Workplace σ) (hexec : step.exec place.catalog = (answer, catalog)) :
    (Work.onCatalog step).run.run place = (answer, { place with catalog := catalog }) := by
  have hrun : (Work.onCatalog step : Work σ α).run.run place =
      ((step.exec place.catalog).1, { place with catalog := (step.exec place.catalog).2 }) := rfl
  rw [hrun, hexec]

/-- How a pass ends whose candidates were processed: only a full one in which nothing is missing
removes the rows of the mods that it did not find. -/
inductive Ends (survey : Survey) (outcomes : List Outcome) (processed : Catalog) :
    BatchReport → Catalog → Prop
  | keeps (hmissing : indexer.settings.cleanup = .incremental ∨ survey.truncated ∨
      (survey.counted outcomes).failed ≠ []) :
      Ends survey outcomes processed { survey.counted outcomes with purged := 0 } processed
  | sweeps (hfull : indexer.settings.cleanup = .full) (hcomplete : survey.truncated = false)
      (hfine : (survey.counted outcomes).failed = []) :
      Ends survey outcomes processed
        { survey.counted outcomes with
          purged := (processed.store.absentIds (survey.present outcomes)).length }
        { processed with store := processed.store.swept (survey.present outcomes) }

section Ends

variable {indexer} {survey : Survey} {outcomes : List Outcome} {processed catalog : Catalog}
  {report : BatchReport}

/-- Cleaning up changes one number of the report. -/
theorem Ends.report_eq (hend : indexer.Ends survey outcomes processed report catalog) :
    report = { survey.counted outcomes with purged := report.purged } := by
  cases hend <;> rfl

theorem Ends.failed_eq (hend : indexer.Ends survey outcomes processed report catalog) :
    report.failed = (survey.counted outcomes).failed := by
  rw [hend.report_eq]

/-- Cleaning up changes the rows and nothing else of the store. -/
theorem Ends.store_eq (hend : indexer.Ends survey outcomes processed report catalog) :
    catalog.store = { processed.store with rows := catalog.store.rows } := by
  cases hend <;> rfl

/-- A pass that misses something takes nothing. -/
theorem Ends.eq_of_missing (hend : indexer.Ends survey outcomes processed report catalog)
    (hmissing : indexer.settings.cleanup = .incremental ∨ survey.truncated ∨ report.failed ≠ []) :
    report.purged = 0 ∧ catalog = processed := by
  rw [hend.failed_eq] at hmissing
  cases hend with
  | keeps _ => exact ⟨rfl, rfl⟩
  | sweeps hfull hcomplete hfine =>
      rcases hmissing with hmode | htruncated | hfailed
      · cases hfull.symm.trans hmode
      · cases hcomplete.symm.trans htruncated
      · exact absurd hfine hfailed

/-- A pass that misses nothing takes the rows of all mods that it did not find. -/
theorem Ends.swept_of_complete (hend : indexer.Ends survey outcomes processed report catalog)
    (hfull : indexer.settings.cleanup = .full) (hcomplete : survey.truncated = false)
    (hfine : report.failed = []) :
    report.purged = (processed.store.absentIds (survey.present outcomes)).length ∧
      catalog.store = processed.store.swept (survey.present outcomes) := by
  rw [hend.failed_eq] at hfine
  cases hend with
  | keeps hmissing =>
      rcases hmissing with hmode | htruncated | hfailed
      · cases hfull.symm.trans hmode
      · cases hcomplete.symm.trans htruncated
      · exact absurd hfine hfailed
  | sweeps _ _ _ => exact ⟨rfl, rfl⟩

end Ends

/-- Once all candidates have their outcomes, nothing can keep a pass from its end. -/
theorem ends_of_processAll {survey : Survey} {place done : Workplace σ} {outcomes : List Outcome}
    (hprocess : (indexer.processAll survey.expanded).run.run { place with
      progress := place.progress.expect (survey.expanded.map Candidate.label) } =
        (.ok outcomes, done)) :
    ∃ report after, (indexer.conclude survey).run.run place = (.ok report, after) ∧
      after.progress = done.progress ∧
      indexer.Ends survey outcomes done.catalog report after.catalog := by
  have htell : (Work.tell (·.expect (survey.expanded.map Candidate.label)) : Work σ Unit).run.run
      place = (.ok (), { place with
        progress := place.progress.expect (survey.expanded.map Candidate.label) }) := rfl
  have hrun := Transaction.run_cleanup (survey.present outcomes) indexer.settings.cleanup
    (survey.truncated || !(survey.counted outcomes).failed.isEmpty) done.catalog.store
  unfold conclude
  rw [run_bind_of_ok htell, run_bind_of_ok hprocess]
  dsimp only
  split at hrun
  · next hkeeps =>
      refine ⟨_, _, run_bind_of_ok (run_onCatalog_of_exec done (exec_transact_of_ok hrun)), rfl, ?_⟩
      refine Ends.keeps ?_
      simpa using hkeeps
  · next hsweeps =>
      simp only [Bool.or_eq_true, decide_eq_true_eq, not_or, Bool.not_eq_true,
        Bool.not_eq_false', List.isEmpty_iff] at hsweeps
      obtain ⟨hfull, hcomplete, hfailed⟩ := hsweeps
      refine ⟨_, _, run_bind_of_ok (run_onCatalog_of_exec done (exec_transact_of_ok hrun)), rfl, ?_⟩
      refine Ends.sweeps ?_ hcomplete hfailed
      cases hmode : indexer.settings.cleanup with
      | incremental => exact absurd hmode hfull
      | full => rfl

theorem conclude_of_processAll {survey : Survey} {place done : Workplace σ} {outcomes : List Outcome}
    (hprocess : (indexer.processAll survey.expanded).run.run { place with
      progress := place.progress.expect (survey.expanded.map Candidate.label) } =
        (.ok outcomes, done)) :
    ∃ purged after, (indexer.conclude survey).run.run place =
      (.ok { survey.counted outcomes with purged := purged }, after) := by
  obtain ⟨report, after, hconclude, _, hend⟩ := indexer.ends_of_processAll hprocess
  rw [hend.report_eq] at hconclude
  exact ⟨report.purged, after, hconclude⟩

/-- The two halves of the end of a pass: all candidates are processed, and then it is cleaned up. -/
theorem processAll_of_conclude {survey : Survey} {place after : Workplace σ}
    {report : BatchReport}
    (h : (indexer.conclude survey).run.run place = (.ok report, after)) :
    ∃ outcomes, ∃ done : Workplace σ,
      (indexer.processAll survey.expanded).run.run { place with
        progress := place.progress.expect (survey.expanded.map Candidate.label) } =
          (.ok outcomes, done) ∧
      after.progress = done.progress ∧
      indexer.Ends survey outcomes done.catalog report after.catalog := by
  obtain ⟨_, told, htell, hrest⟩ := steps_of_run_bind h
  cases htell
  obtain ⟨outcomes, done, hprocess, _⟩ := steps_of_run_bind hrest
  obtain ⟨_, _, hconclude, hend⟩ := indexer.ends_of_processAll hprocess
  cases h.symm.trans hconclude
  exact ⟨outcomes, done, hprocess, hend⟩

/-- A pass ends by processing its candidates and cleaning up. -/
theorem conclude_spec {survey : Survey} {place after : Workplace σ} {report : BatchReport}
    (h : (indexer.conclude survey).run.run place = (.ok report, after)) :
    ∃ outcomes processed,
      place.catalog.Processed (waves survey.expanded).flatten outcomes processed ∧
      indexer.Ends survey outcomes processed report after.catalog := by
  obtain ⟨outcomes, done, hprocess, _, hend⟩ := indexer.processAll_of_conclude h
  have hprocessed := indexer.processAll_spec hprocess
  exact ⟨outcomes, done.catalog, hprocessed, hend⟩

/-- Where no batch is registered, a pass that has looked around comes to an end. -/
theorem exists_conclude (survey : Survey) {place : Workplace σ}
    (halone : place.limiter.registered = []) :
    ∃ report after, (indexer.conclude survey).run.run place = (.ok report, after) := by
  let told : Workplace σ :=
    { place with progress := place.progress.expect (survey.expanded.map Candidate.label) }
  have htold : told.limiter.registered = [] := halone
  obtain ⟨outcomes, done, hprocess⟩ := indexer.exists_processAll survey.expanded htold
  obtain ⟨purged, after, hconclude⟩ := indexer.conclude_of_processAll hprocess
  exact ⟨_, after, hconclude⟩

end Indexer

end ModCatalog
