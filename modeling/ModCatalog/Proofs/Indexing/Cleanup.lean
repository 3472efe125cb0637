import ModCatalog.Proofs.Indexing.Stages
import ModCatalog.Proofs.Resolution.Bijection
import ModCatalog.Proofs.Resolution.Rows

/-!
# What cleaning up takes

While candidates are processed, rows only go where a batch takes their place or a mod is absorbed.
What is left at the end of a full and complete pass belongs to mods that candidates were found to
belong to: cleaning up removes all other rows, counts the mods that had them, and touches nothing
else.
-/

namespace ModCatalog

open Resolving

namespace Store

/-- Sweeping is a matter of purging, one mod after another. -/
theorem afterAll_purgeRows (store : Store) (ids : List Nat) :
    store.afterAll (ids.map .purgeRows) =
      { store with rows := ids.foldl Table.erase store.rows } := by
  induction ids generalizing store with
  | nil => rfl
  | cons id rest ih => exact ih { store with rows := store.rows.erase id }

theorem Reachable.swept {store : Store} (hreachable : store.Reachable) (present : List Nat) :
    (store.swept present).Reachable := by
  obtain ⟨changes, hchanges⟩ := hreachable
  refine ⟨changes ++ (store.absentIds present).map .purgeRows, ?_⟩
  rw [afterAll_append, hchanges, afterAll_purgeRows]
  rfl

/-- The mods whose rows are taken are those that had rows and have none afterwards. -/
theorem Reachable.mem_absentIds_iff {store : Store} (hreachable : store.Reachable)
    {present : List Nat} {id : Nat} :
    id ∈ store.absentIds present ↔
      store.rowsOf id ≠ .empty ∧ (store.swept present).rowsOf id = .empty := by
  rw [mem_absentIds, hreachable.mem_idsWithRows, rowsOf_swept]
  refine and_congr_right fun hrows => ?_
  by_cases hpresent : id ∈ present
  · simp [hpresent, hrows]
  · simp [hpresent]

/-- After sweeping, only mods that are present have rows. -/
theorem Reachable.present_of_mem_swept {store : Store} (hreachable : store.Reachable)
    {present : List Nat} {id : Nat} (hid : id ∈ (store.swept present).idsWithRows) :
    (store.mod? id).isSome ∧ id ∈ present := by
  have hrows := (hreachable.swept present).mem_idsWithRows.mp hid
  rw [rowsOf_swept] at hrows
  split at hrows
  · next hpresent =>
      exact ⟨hreachable.rowsOwned (mem_rows_of_mem_idsWithRows (mem_idsWithRows_of_rowsOf hrows)),
        hpresent⟩
  · exact absurd rfl hrows

end Store

namespace Indexer

variable {σ : Type} (indexer : Indexer)

/-- Whether a batch is committed for a mod while candidates are processed. -/
def Recommits (place : Workplace σ) (order : List Candidate) (id : Nat) : Prop :=
  ∃ position, ∃ candidate ∈ order[position]?, ∃ batch,
    (indexer.attemptOn candidate).Commits (indexer.stage place order position) id batch

def Absorbs (place : Workplace σ) (order : List Candidate) (target old : Nat) : Prop :=
  ∃ position, ∃ candidate ∈ order[position]?,
    (indexer.attemptOn candidate).Absorbs (indexer.stage place order position) target old

section Stage

variable {indexer} {place : Workplace σ} {order : List Candidate}

theorem stage_succ_of_none {count : Nat} (hnone : order[count]? = none) :
    indexer.stage place order (count + 1) = indexer.stage place order count := by
  rw [stage_eq, stage_eq, List.take_add_one, hnone]
  simp

theorem reachable_stage (hreachable : place.catalog.store.Reachable) (order : List Candidate)
    (count : Nat) : (indexer.stage place order count).store.Reachable := by
  rw [stage_eq]
  exact Catalog.reachable_afterAll _ hreachable

/-- Processing candidates leaves a mod its rows, unless it gets others or is absorbed. -/
theorem rowsOf_stage (hreachable : place.catalog.store.Reachable) (id count : Nat) :
    (indexer.stage place order count).store.rowsOf id = place.catalog.store.rowsOf id ∨
      indexer.Recommits place order id ∨ ∃ target, indexer.Absorbs place order target id := by
  -- Once the rows of a mod were written or went over, later candidates need not be looked at.
  induction count with
  | zero =>
      rw [stage_zero]
      exact Or.inl rfl
  | succ count ih =>
      rcases ih with hsame | hlost
      · cases hcandidate : order[count]? with
        | none =>
            rw [stage_succ_of_none hcandidate]
            exact Or.inl hsame
        | some candidate =>
            rw [indexer.stage_succ place hcandidate]
            have hstage : (indexer.stage place order count).store.Reachable :=
              reachable_stage hreachable order count
            rcases (indexer.attemptOn candidate).rowsOf_after hstage.consistent id with
              hkept | ⟨batch, hcommits⟩ | ⟨target, habsorbs⟩
            · exact Or.inl (hkept.trans hsame)
            · exact Or.inr (Or.inl ⟨count, candidate, hcandidate, batch, hcommits⟩)
            · exact Or.inr (Or.inr ⟨target, count, candidate, hcandidate, habsorbs⟩)
      · exact Or.inr hlost

/-- If nothing fails, a mod that absorbed another is one that a candidate was found to belong to. -/
theorem Staged.mem_of_absorbs {outcomes : List Outcome} {after : Catalog}
    (hstaged : indexer.Staged place order outcomes after)
    (hfine : ∀ outcome ∈ outcomes, outcome.isFailed = false) {target old : Nat}
    (habsorbs : indexer.Absorbs place order target old) :
    target ∈ outcomes.filterMap Outcome.modId? := by
  obtain ⟨position, candidate, hcandidate, habsorbs⟩ := habsorbs
  obtain ⟨hposition, _⟩ := List.getElem?_eq_some_iff.mp hcandidate
  rw [← hstaged.length_eq] at hposition
  have houtcome := List.getElem?_eq_getElem hposition
  have hmem : outcomes[position] ∈ outcomes := List.getElem_mem hposition
  obtain ⟨answer, hanswer, hconcludes⟩ :=
    (hstaged.tells hcandidate houtcome).of_not_failed (hfine _ hmem)
  obtain rfl := habsorbs.answer_eq hanswer
  refine List.mem_filterMap.mpr ⟨_, hmem, ?_⟩
  rw [hconcludes.eq_outcomeOf]
  rfl

end Stage

variable (platform : Platform σ)

/-- A pass that comes to its end has seen something, processed its candidates one after another and
then cleaned up.  It is reported as truncated if pages were left. -/
theorem course_of_pass {place after : Workplace σ} {report : BatchReport}
    (hpass : indexer.pass platform place = (.ok report, after)) :
    ∃ survey outcomes, ∃ told done : Workplace σ,
      ((indexer.survey platform (indexer.passedOver? place.catalog.store)).run.run place).1 =
        .ok survey ∧
      (∃ files count, indexer.pages platform place.files place.memory =
        .ok (files, count, report.truncated)) ∧
      told.catalog = place.catalog ∧
      (indexer.processAll survey.expanded).run.run told = (.ok outcomes, done) ∧
      survey.truncated = report.truncated ∧
      indexer.Ends survey outcomes done.catalog report after.catalog := by
  rcases indexer.pass_cases platform place with
    ⟨_, _, herror, _⟩ | ⟨survey, between, hsurvey, hbetween, _, hconclude⟩
  · cases hpass.symm.trans herror
  · obtain ⟨outcomes, done, hprocess, _, hend⟩ :=
      indexer.processAll_of_conclude (hconclude.symm.trans hpass)
    have htruncated : survey.truncated = report.truncated := by
      rw [hend.report_eq]
      unfold Survey.counted
      rw [Outcome.foldl_addTo]
      exact (indexer.survey_report platform hsurvey).2.symm
    obtain ⟨files, count, _, hpages, _⟩ := indexer.survey_spec platform hsurvey
    refine ⟨survey, outcomes, { between with
        progress := between.progress.expect (survey.expanded.map Candidate.label) }, done,
      congrArg Prod.fst hsurvey, ⟨files, count, ?_⟩, hbetween, hprocess, htruncated, hend⟩
    rw [← htruncated]
    exact hpages

/-- A pass from any store comes to its end as follows.  If it is incremental or truncated or
something failed, it cleans nothing up, and a mod has the rows that it had unless a batch was
committed for it or another absorbed it.  Otherwise only mods have rows in the end that candidates
were found to belong to, and these have all that they had before it was cleaned up, those that
absorbed others among them; the report counts the mods whose rows are gone.  Apart from rows,
cleaning up changes nothing. -/
theorem cleanup_spares_unseen {place after : Workplace σ} {report : BatchReport}
    (hreachable : place.catalog.store.Reachable)
    (hpass : indexer.pass platform place = (.ok report, after)) :
    ∃ survey outcomes, ∃ told done : Workplace σ,
      ((indexer.survey platform (indexer.passedOver? place.catalog.store)).run.run place).1 =
        .ok survey ∧
      (∃ files count, indexer.pages platform place.files place.memory =
        .ok (files, count, report.truncated)) ∧
      told.catalog = place.catalog ∧
      (indexer.processAll survey.expanded).run.run told = (.ok outcomes, done) ∧
      let order := (waves survey.expanded).flatten
      let before := place.catalog.store
      let processed := done.catalog.store
      let left := after.catalog.store
      indexer.Staged place order outcomes done.catalog ∧
      (indexer.settings.cleanup = .incremental ∨ report.truncated ∨ report.failed ≠ [] →
        report.purged = 0 ∧ ∀ id, left.rowsOf id = before.rowsOf id ∨
          indexer.Recommits place order id ∨ ∃ target, indexer.Absorbs place order target id) ∧
      (indexer.settings.cleanup = .full → report.truncated = false → report.failed = [] →
        (∀ id ∈ left.idsWithRows, (left.mod? id).isSome ∧
          ∃ outcome ∈ outcomes, outcome.modId? = some id) ∧
        (∀ outcome ∈ outcomes, ∀ id ∈ outcome.modId?, left.rowsOf id = processed.rowsOf id) ∧
        (∀ target old, indexer.Absorbs place order target old →
          left.rowsOf target = processed.rowsOf target) ∧
        ∃ gone : List Nat, gone.Nodup ∧ gone.length = report.purged ∧
          ∀ id, id ∈ gone ↔ processed.rowsOf id ≠ .empty ∧ left.rowsOf id = .empty) ∧
      left = { processed with rows := left.rows } := by
  obtain ⟨survey, outcomes, told, done, hsurvey, hpages, htold, hprocess, htruncated, hend⟩ :=
    indexer.course_of_pass platform hpass
  have hstaged := (indexer.staged_of_processAll hprocess).congr htold
  have hprocessed : done.catalog.store.Reachable := by
    rw [hstaged.last_eq]
    exact reachable_stage hreachable _ _
  refine ⟨survey, outcomes, told, done, hsurvey, hpages, htold, hprocess, hstaged, ?_, ?_,
    hend.store_eq⟩
  · intro hmissing
    rw [← htruncated] at hmissing
    obtain ⟨hpurged, hsame⟩ := hend.eq_of_missing hmissing
    refine ⟨hpurged, fun id => ?_⟩
    rw [hsame, hstaged.last_eq]
    exact rowsOf_stage hreachable id _
  · intro hfull hcomplete hfine
    obtain ⟨hpurged, hswept⟩ :=
      hend.swept_of_complete hfull (htruncated.trans hcomplete) hfine
    -- A full pass passes no file over, so the mods it found are those of its outcomes.
    have hpresent : survey.present outcomes = outcomes.filterMap Outcome.modId? := by
      have hsees := (indexer.survey_eq_sees platform place
        (indexer.passedOver?_eq_none (Or.inl hfull))).symm.trans hsurvey
      unfold Survey.present
      rw [indexer.passed_eq_nil platform hsees, List.nil_append]
    rw [hpresent] at hpurged hswept
    rw [hswept]
    have hkept : ∀ id ∈ outcomes.filterMap Outcome.modId?,
        (done.catalog.store.swept (outcomes.filterMap Outcome.modId?)).rowsOf id =
          done.catalog.store.rowsOf id := by
      intro id hid
      rw [Store.rowsOf_swept, if_pos hid]
    refine ⟨?_, ?_, ?_, done.catalog.store.absentIds (outcomes.filterMap Outcome.modId?), ?_,
      hpurged.symm, fun id => hprocessed.mem_absentIds_iff⟩
    · intro id hid
      obtain ⟨hmod, hmem⟩ := hprocessed.present_of_mem_swept hid
      exact ⟨hmod, List.mem_filterMap.mp hmem⟩
    · intro outcome houtcome id hid
      exact hkept id (List.mem_filterMap.mpr ⟨outcome, houtcome, hid⟩)
    · intro target old habsorbs
      have hnever := (Outcome.failed_foldl_addTo (hend.failed_eq.symm.trans hfine)).2
      exact hkept target (hstaged.mem_of_absorbs hnever habsorbs)
    · exact hprocessed.nodup_idsWithRows.sublist List.filter_sublist

/-- A store with one mod, which has one row. -/
def storeWithRow : Store :=
  Store.empty.afterAll [.createMod ⟨"", "", none, []⟩,
    .track 1 ⟨true, { Rows.empty with inheritance := [⟨"A", none, [], []⟩] }, some "h", none, 0⟩]

/-- A full pass over a directory without jars takes the row of the only mod, which stays. -/
theorem cleanup_in_vacant_directory : ∃ report after,
    (OneJar.indexer .full).pass OneJar.platform.toPlatform (OneJar.vacant ⟨storeWithRow, .empty⟩) =
      (.ok report, after) ∧
    storeWithRow.rowsOf 1 ≠ .empty ∧ after.catalog.store.rowsOf 1 = .empty ∧
    0 < report.purged ∧ (after.catalog.store.mod? 1).isSome := by
  let place := OneJar.vacant ⟨storeWithRow, .empty⟩
  obtain ⟨survey, hsees, hcomplete, hnone, hread⟩ := OneJar.sees_vacant .full place.catalog
  obtain ⟨report, after, hpass⟩ :=
    (OneJar.indexer .full).exists_full_pass OneJar.platform.toPlatform rfl rfl hsees
  have hfailed : report.failed = [] := (failed_of_nothing _ _ rfl hpass hsees hnone).trans hread
  have hreachable : place.catalog.store.Reachable := ⟨_, rfl⟩
  obtain ⟨found, outcomes, told, done, hfound, ⟨_, _, hpages⟩, _, _, hstaged, _, hsweeps,
      hstore⟩ :=
    cleanup_spares_unseen (OneJar.indexer .full) OneJar.platform.toPlatform hreachable hpass
  obtain rfl : survey = found := Except.ok.inj (hsees.symm.trans
    ((survey_eq_sees _ _ place (passedOver?_eq_none _ (Or.inl rfl))).symm.trans hfound))
  have htruncated : report.truncated = false := by
    obtain ⟨_, _, _, hlisted, _⟩ := survey_spec _ _ (Prod.ext hsees rfl)
    have hlast := congrArg (fun listed => listed.2.2) (Except.ok.inj (hlisted.symm.trans hpages))
    exact hlast.symm.trans hcomplete
  have hdone : done.catalog.store = storeWithRow := by
    rw [hstaged.last_eq, hnone]
    exact congrArg Catalog.store (stage_zero _ place [])
  have houtcomes : outcomes = [] := by
    rw [← List.length_eq_zero_iff, hstaged.length_eq, hnone]
    rfl
  obtain ⟨hleft, _, _, gone, _, hlength, hgone⟩ := hsweeps rfl htruncated hfailed
  have hrow : storeWithRow.rowsOf 1 ≠ .empty := by
    rw [ne_eq, ← Rows.isEmpty_iff]
    decide +kernel
  have hgoneRow : after.catalog.store.rowsOf 1 = .empty := by
    by_contra hrows
    obtain ⟨_, outcome, houtcome, _⟩ := hleft 1 (Store.mem_idsWithRows_of_rowsOf hrows)
    rw [houtcomes] at houtcome
    cases houtcome
  refine ⟨report, after, hpass, hrow, hgoneRow, ?_, ?_⟩
  · rw [← hlength]
    refine List.length_pos_of_mem ((hgone 1).mpr ⟨?_, hgoneRow⟩)
    rwa [hdone]
  · have hmod : (storeWithRow.mod? 1).isSome := by decide +kernel
    rw [hstore, hdone]
    exact hmod

end Indexer

end ModCatalog
