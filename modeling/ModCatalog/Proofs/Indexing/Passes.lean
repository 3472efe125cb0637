import Mathlib.Data.List.Forall2
import ModCatalog.Proofs.Indexing.Conclusion

/-!
# One pass after another

A first pass in which nothing fails enters all its candidates.  When a later pass meets candidates
that were entered, it links them where they were, and the entries of the store stay.
-/

namespace ModCatalog

open Resolving

theorem Candidate.isFile_of_ofDownload? {download : PlatformFile × Except Fault ByteArray}
    {candidate : Candidate} (h : Candidate.ofDownload? download = some candidate) :
    candidate.IsFile := by
  unfold Candidate.ofDownload? at h
  split at h
  · next tree hread =>
      cases h
      obtain ⟨file, content⟩ := download
      cases content with
      | error fault => cases hread
      | ok payload =>
          obtain ⟨hcoordinate, hlabelled⟩ := Artifact.labelled_of_read hread
          exact ⟨rfl, hcoordinate, rfl, hlabelled⟩
  · cases h

theorem Candidate.isFile_of_mem_downloads {candidate : Candidate}
    {downloads : List (PlatformFile × Except Fault ByteArray)}
    (h : candidate ∈ downloads.filterMap Candidate.ofDownload?) : candidate.IsFile := by
  obtain ⟨download, _, hdownload⟩ := List.mem_filterMap.mp h
  exact Candidate.isFile_of_ofDownload? hdownload

theorem Candidate.link_of_ofDownload? {download : PlatformFile × Except Fault ByteArray}
    {candidate : Candidate} (h : Candidate.ofDownload? download = some candidate) :
    candidate.link = some download.1.link := by
  unfold Candidate.ofDownload? at h
  split at h
  · cases h
    rfl
  · cases h

theorem Outcome.Tells.of_not_failed {outcome : Outcome} {answer : Except Fault Resolution}
    (htells : outcome.Tells answer) (hfine : outcome.isFailed = false) :
    ∃ value, answer = .ok value ∧ Indexer.Concludes outcome value := by
  cases answer with
  | ok value => exact ⟨value, rfl, htells⟩
  | error fault =>
      obtain ⟨item, rfl⟩ := htells
      cases hfine

/-! ## Candidates that are entered -/

section Entered

variable {catalog after : Catalog} {candidates done : List Candidate} {outcomes : List Outcome}

/-- Candidates are entered one by one if none fails, as long as each of them is entered already or
states names that none before it did. -/
theorem Catalog.Processed.entered (hprocessed : catalog.Processed candidates outcomes after)
    (hentered : catalog.Entered done) (hplaced : ∀ candidate ∈ candidates, candidate.isPlaced)
    (hnew : (∀ candidate ∈ candidates, candidate ∈ done) ∨
      ((done ++ candidates).flatMap Candidate.names).Nodup)
    (hfine : ∀ outcome ∈ outcomes, outcome.isFailed = false) :
    after.Entered (done ++ candidates) := by
  induction hprocessed generalizing done with
  | nil catalog => rwa [List.append_nil]
  | @cons catalog after rest outcomes outcome attempt htells hrest ih =>
      obtain ⟨hfirst, hlater⟩ := List.forall_mem_cons.mp hfine
      obtain ⟨hplacedFirst, hplacedRest⟩ := List.forall_mem_cons.mp hplaced
      obtain ⟨answer, hanswer, _⟩ := htells.of_not_failed hfirst
      have happend : done ++ attempt.candidate :: rest = (done ++ [attempt.candidate]) ++ rest := by
        simp
      have hstep : (attempt.after catalog).Entered (done ++ [attempt.candidate]) := by
        refine (hentered.step hplacedFirst ?_ hanswer).2
        rcases hnew with hdone | hdistinct
        · exact Or.inl (hdone _ List.mem_cons_self)
        · right
          rw [List.flatMap_append, List.nodup_append] at hdistinct
          intro name hname hbefore
          have hafter : name ∈ (attempt.candidate :: rest).flatMap Candidate.names :=
            List.mem_flatMap.mpr ⟨_, List.mem_cons_self, hname⟩
          exact hdistinct.2.2 name hbefore name hafter rfl
      rw [happend]
      refine ih hstep hplacedRest ?_ hlater
      rcases hnew with hdone | hdistinct
      · left
        intro candidate hmem
        exact List.mem_append_left _ (hdone candidate (List.mem_cons_of_mem _ hmem))
      · right
        rwa [← happend]

theorem Catalog.Coherent.swept (hcatalog : catalog.Coherent) (present : List Nat) :
    Catalog.Coherent { catalog with store := catalog.store.swept present } :=
  ⟨hcatalog.store_exact.kept catalog.store.seenFiles _, hcatalog.remembered⟩

/-- Rows that are removed are missed by nothing. -/
theorem Catalog.Entered.swept (hentered : catalog.Entered done) (present : List Nat) :
    Catalog.Entered done { catalog with store := catalog.store.swept present } := by
  obtain ⟨hcoherent, hholds, hexplains⟩ := hentered
  refine ⟨hcoherent.swept present, hholds, ?_⟩
  refine { hexplains with rows := ?_ }
  intro id hrows
  have hbefore : (catalog.store.rows.get? id).isSome := by
    change ((catalog.store.swept present).rows.get? id).isSome at hrows
    rw [Store.get?_rows_swept] at hrows
    split at hrows
    · cases hrows
    · exact hrows
  exact hexplains.rows hbefore

end Entered

/-! ## Candidates that are met again -/

/-- Whether an outcome suits a candidate that was met again: unless something failed, it is linked
to the mod that has it, and the coordinate it learned leads to a mod. -/
def Candidate.Met (store : Store) (candidate : Candidate) (outcome : Outcome) : Prop :=
  outcome.isFailed ∨ ∃ id, outcome = .linked id ∧ Holds candidate id store ∧
    ∀ name ∈ candidate.extraCoordinate, store.Finds name

section Met

variable {catalog after : Catalog} {candidates : List Candidate} {outcomes : List Outcome}

theorem Candidate.Met.retained {store later : Store} {candidate : Candidate} {outcome : Outcome}
    (hmet : candidate.Met store outcome) (hretained : store.Retained later) :
    candidate.Met later outcome := by
  rcases hmet with hfailed | ⟨id, hlinked, hholds, hleads⟩
  · exact Or.inl hfailed
  · refine Or.inr ⟨id, hlinked, hretained.holds hholds, ?_⟩
    exact fun name hname => hretained.finds (hleads name hname)

theorem Attempt.met {attempt : Attempt} {id : Nat} {outcome : Outcome}
    (hcatalog : catalog.Coherent) (hholds : Holds attempt.candidate id catalog.store)
    (htells : outcome.Tells (attempt.run.exec catalog).1) :
    attempt.candidate.Met (attempt.after catalog).store outcome := by
  have hmeets : Meets False attempt.run catalog _ := attempt.meets_run hcatalog hholds nofun nofun
  cases hfailed : outcome.isFailed with
  | true => exact Or.inl hfailed
  | false =>
      obtain ⟨answer, hanswer, hconcludes⟩ := htells.of_not_failed hfailed
      obtain ⟨rfl, hleads⟩ := hmeets.post hanswer
      exact Or.inr ⟨id, hconcludes.eq_outcomeOf, hmeets.retained.holds hholds, hleads⟩

/-- Candidates that belong to mods are met again: whatever fails, the entries stay; and if links
fit and the coordinates that are asked for are found, all are linked. -/
theorem Catalog.Processed.met (fine : Prop)
    (hprocessed : catalog.Processed candidates outcomes after) (hcatalog : catalog.Coherent)
    (hholds : ∀ candidate ∈ candidates, ∃ id, Holds candidate id catalog.store)
    (hlink : fine → ∀ candidate ∈ candidates, ∀ link ∈ candidate.link, LinkFits link)
    (hasked : fine → ∀ candidate ∈ candidates, ∀ name ∈ candidate.asked, catalog.store.Finds name) :
    catalog.store.Retained after.store ∧
      List.Forall₂ (Candidate.Met after.store) candidates outcomes ∧
      (fine → catalog.store.Refiled after.store ∧ ∀ outcome ∈ outcomes, outcome.isLinked) := by
  induction hprocessed with
  | nil catalog => exact ⟨.refl _, .nil, fun _ => ⟨.refl _, nofun⟩⟩
  | @cons catalog after rest outcomes outcome attempt htells hrest ih =>
      obtain ⟨⟨id, hfirst⟩, hlater⟩ := List.forall_mem_cons.mp hholds
      have hmeets := attempt.meets_run hcatalog hfirst
        (fun holds => (List.forall_mem_cons.mp (hlink holds)).1)
        (fun holds => (List.forall_mem_cons.mp (hasked holds)).1)
      have hmet := attempt.met hcatalog hfirst htells
      obtain ⟨hretained, hall, hfine⟩ := ih hmeets.coherent
        (fun candidate hmem => (hlater candidate hmem).imp fun _ => hmeets.retained.holds)
        (fun holds => (List.forall_mem_cons.mp (hlink holds)).2)
        (fun holds candidate hmem name hname =>
          hmeets.retained.finds ((List.forall_mem_cons.mp (hasked holds)).2 candidate hmem name hname))
      refine ⟨hmeets.retained.trans hretained, .cons (hmet.retained hretained) hall, ?_⟩
      intro holds
      obtain ⟨hrefiled, hlinked⟩ := hfine holds
      refine ⟨(hmeets.refiled holds).trans hrefiled, List.forall_mem_cons.mpr ⟨?_, hlinked⟩⟩
      obtain ⟨answer, hanswer⟩ := hmeets.succeeds holds
      rw [hanswer] at htells
      rcases hmet with hfailed | ⟨_, rfl, _⟩
      · cases outcome with
        | failed item => exact htells.elim
        | indexed id | linked id | skipped id => cases hfailed
      · rfl

theorem Candidate.exists_candidate {store : Store}
    (hmet : List.Forall₂ (Candidate.Met store) candidates outcomes) {outcome : Outcome}
    (hmem : outcome ∈ outcomes) : ∃ candidate ∈ candidates, candidate.Met store outcome := by
  induction hmet with
  | nil => cases hmem
  | @cons first _ rest _ hfirst _ ih =>
      rcases List.mem_cons.mp hmem with rfl | hlater
      · exact ⟨first, List.mem_cons_self, hfirst⟩
      · obtain ⟨found, hfound, hrest⟩ := ih hlater
        exact ⟨found, List.mem_cons_of_mem _ hfound, hrest⟩

theorem Candidate.exists_outcome {store : Store}
    (hmet : List.Forall₂ (Candidate.Met store) candidates outcomes) {candidate : Candidate}
    (hmem : candidate ∈ candidates) : ∃ outcome ∈ outcomes, candidate.Met store outcome := by
  induction hmet with
  | nil => cases hmem
  | @cons first outcome rest outcomes hfirst _ ih =>
      rcases List.mem_cons.mp hmem with rfl | hlater
      · exact ⟨outcome, List.mem_cons_self, hfirst⟩
      · obtain ⟨found, hfound, hrest⟩ := ih hlater
        exact ⟨found, List.mem_cons_of_mem _ hfound, hrest⟩

theorem Candidate.Met.holds {store : Store} {candidate : Candidate} {outcome : Outcome}
    (hmet : candidate.Met store outcome) (hfine : outcome.isFailed = false) :
    ∃ id, outcome = .linked id ∧ Holds candidate id store := by
  rcases hmet with hfailed | ⟨id, hlinked, hholds, _⟩
  · rw [hfine] at hfailed
    cases hfailed
  · exact ⟨id, hlinked, hholds⟩

/-- The mods that are present when candidates were met again are those that hold them. -/
theorem Candidate.present_iff {store : Store}
    (hmet : List.Forall₂ (Candidate.Met store) candidates outcomes)
    (hfine : ∀ outcome ∈ outcomes, outcome.isFailed = false) {id : Nat} :
    id ∈ outcomes.filterMap Outcome.modId? ↔ ∃ candidate ∈ candidates, Holds candidate id store := by
  constructor
  · intro hmem
    obtain ⟨outcome, houtcome, hid⟩ := List.mem_filterMap.mp hmem
    obtain ⟨candidate, hcandidate, hcase⟩ := exists_candidate hmet houtcome
    obtain ⟨owner, rfl, hholds⟩ := hcase.holds (hfine outcome houtcome)
    obtain rfl : owner = id := Option.some.inj hid
    exact ⟨candidate, hcandidate, hholds⟩
  · rintro ⟨candidate, hcandidate, hholds⟩
    obtain ⟨outcome, houtcome, hcase⟩ := exists_outcome hmet hcandidate
    obtain ⟨owner, rfl, hheld⟩ := hcase.holds (hfine outcome houtcome)
    cases hholds.1.symm.trans hheld.1
    exact List.mem_filterMap.mpr ⟨_, houtcome, rfl⟩

/-- Where all that was entered is met again, no rows are left to remove. -/
theorem Catalog.Entered.absentIds_eq_nil {done : List Candidate} (hentered : catalog.Entered done)
    (hmet : List.Forall₂ (Candidate.Met catalog.store) candidates outcomes)
    (hfine : ∀ outcome ∈ outcomes, outcome.isFailed = false) (hdone : done ⊆ candidates)
    (passed : List Nat) :
    catalog.store.absentIds (passed ++ outcomes.filterMap Outcome.modId?) = [] := by
  unfold Store.absentIds
  rw [List.filter_eq_nil_iff]
  intro id hid
  obtain ⟨hash, hhash, howner⟩ := hentered.explains.rows (Store.mem_rows_of_mem_idsWithRows hid)
  obtain ⟨candidate, hcandidate, rfl⟩ := List.mem_map.mp hhash
  obtain ⟨outcome, houtcome, hcase⟩ := Candidate.exists_outcome hmet (hdone hcandidate)
  obtain ⟨owner, rfl, hholds⟩ := hcase.holds (hfine outcome houtcome)
  obtain rfl : owner = id := by
    have hfound := (Store.findByHash_eq_some.mp hholds.1).2
    rw [howner] at hfound
    exact (Option.some.inj hfound).symm
  have hpresent : owner ∈ outcomes.filterMap Outcome.modId? :=
    List.mem_filterMap.mpr ⟨_, houtcome, rfl⟩
  have hin : (passed ++ outcomes.filterMap Outcome.modId?).contains owner = true := by
    rw [List.contains_iff_mem]
    exact List.mem_append_right _ hpresent
  rw [hin]
  decide

end Met

namespace Indexer

variable {σ : Type} (indexer : Indexer) (platform : Platform σ)

/-- Whether a pass passes no file over that it lists. -/
theorem passedOver?_eq_none {store : Store}
    (hnone : indexer.settings.cleanup = .full ∨ store = .empty) (file : PlatformFile) :
    indexer.passedOver? store file = none := by
  unfold passedOver?
  rcases hnone with hfull | rfl
  · rw [hfull]
  · split <;> rfl

/-- The candidates that a pass expands are placed, and no two of them state one name. -/
theorem expanded_spec {files : FileTree} {memory : σ} {survey : Survey}
    (hsees : indexer.sees platform files memory = .ok survey) :
    (∀ candidate ∈ (waves survey.expanded).flatten, candidate.isPlaced) ∧
      ((waves survey.expanded).flatten.flatMap Candidate.names).Nodup ∧
      survey.report.indexed = 0 ∧ survey.report.linked = 0 ∧ survey.report.skipped = 0 := by
  obtain ⟨_, _, _, _, _, hread, _, ⟨listed, hexpanded⟩, hcounts⟩ :=
    indexer.survey_spec platform (Prod.ext hsees rfl)
  have hfiles : ∀ candidate ∈ survey.read, candidate.IsFile := by
    intro candidate hmem
    rw [hread] at hmem
    exact Candidate.isFile_of_mem_downloads hmem
  have hperm := flatten_waves_perm survey.expanded
  refine ⟨?_, ?_, hcounts⟩
  · intro candidate hmem
    rw [hperm.mem_iff, hexpanded] at hmem
    exact isPlaced_expand hfiles listed candidate hmem
  · rw [(hperm.flatMap_right Candidate.names).nodup_iff, hexpanded]
    exact names_expand_nodup hfiles listed

/-- A pass that passes no file over goes on with what it sees. -/
theorem pass_of_sees {place : Workplace σ} {survey : Survey}
    (hnone : indexer.settings.cleanup = .full ∨ place.catalog.store = .empty)
    (hsees : indexer.sees platform place.files place.memory = .ok survey) :
    ∃ between, between.catalog = place.catalog ∧ between.limiter = place.limiter ∧
      indexer.pass platform place = (indexer.conclude survey).run.run between := by
  let passedOver? := indexer.passedOver? place.catalog.store
  have hlooks := indexer.looks_survey platform passedOver?
  have hsurvey := indexer.survey_eq_sees platform place (indexer.passedOver?_eq_none hnone)
  rw [hsees] at hsurvey
  refine ⟨((indexer.survey platform passedOver?).run.run place).2, hlooks.catalog place,
    hlooks.limiter place, ?_⟩
  rw [indexer.pass_eq]
  exact run_bind_of_fst hsurvey

/-- A pass that passes no file over processes what it sees and cleans up. -/
theorem pass_spec {place after : Workplace σ} {report : BatchReport} {survey : Survey}
    (hnone : indexer.settings.cleanup = .full ∨ place.catalog.store = .empty)
    (hsees : indexer.sees platform place.files place.memory = .ok survey)
    (hpass : indexer.pass platform place = (.ok report, after)) :
    ∃ outcomes processed,
      place.catalog.Processed (waves survey.expanded).flatten outcomes processed ∧
      indexer.Ends survey outcomes processed report after.catalog := by
  obtain ⟨between, hcatalog, _, hconclude⟩ := indexer.pass_of_sees platform hnone hsees
  rw [← hcatalog]
  exact indexer.conclude_spec (hconclude.symm.trans hpass)

theorem passed_eq_nil {files : FileTree} {memory : σ} {survey : Survey}
    (hsees : indexer.sees platform files memory = .ok survey) : survey.passed = [] := by
  obtain ⟨listed, _, _, _, hpassed, _⟩ := indexer.survey_spec platform (Prod.ext hsees rfl)
  rw [hpassed, List.filterMap_none]

/-- A pass reports nothing as failed only if it read all that it downloaded. -/
theorem failed_survey_of_pass {place after : Workplace σ} {report : BatchReport} {survey : Survey}
    (hnone : indexer.settings.cleanup = .full ∨ place.catalog.store = .empty)
    (hsees : indexer.sees platform place.files place.memory = .ok survey)
    (hpass : indexer.pass platform place = (.ok report, after)) (hfailed : report.failed = []) :
    survey.report.failed = [] := by
  obtain ⟨outcomes, _, _, hend⟩ := indexer.pass_spec platform hnone hsees hpass
  exact (Outcome.failed_foldl_addTo (hend.failed_eq.symm.trans hfailed)).1

/-- A pass that sees no candidates reports as failed what it could not read. -/
theorem failed_of_nothing {place after : Workplace σ} {report : BatchReport} {survey : Survey}
    (hfull : indexer.settings.cleanup = .full)
    (hpass : indexer.pass platform place = (.ok report, after))
    (hsees : indexer.sees platform place.files place.memory = .ok survey)
    (hnothing : survey.expanded = []) : report.failed = survey.report.failed := by
  obtain ⟨outcomes, _, hprocessed, hend⟩ :=
    indexer.pass_spec platform (Or.inl hfull) hsees hpass
  rw [hnothing] at hprocessed
  cases hprocessed
  exact hend.failed_eq

/-- From an empty catalog, a pass in which nothing fails enters all its candidates. -/
theorem entered_of_pass {first after : Workplace σ} {report : BatchReport}
    (hempty : first.catalog = .empty)
    (hpass : indexer.pass platform first = (.ok report, after)) (hfailed : report.failed = [])
    {survey : Survey} (hsees : indexer.sees platform first.files first.memory = .ok survey) :
    after.catalog.Entered (waves survey.expanded).flatten := by
  have hstore : first.catalog.store = .empty := by rw [hempty]; rfl
  obtain ⟨hplaced, hnodup, _⟩ := indexer.expanded_spec platform hsees
  obtain ⟨outcomes, processed, hprocessed, hend⟩ :=
    indexer.pass_spec platform (Or.inr hstore) hsees hpass
  rw [hempty] at hprocessed
  have hfine := (Outcome.failed_foldl_addTo (hend.failed_eq.symm.trans hfailed)).2
  have hentered : processed.Entered ([] ++ (waves survey.expanded).flatten) :=
    hprocessed.entered .empty hplaced (Or.inr hnodup) hfine
  generalize after.catalog = catalog at hend ⊢
  cases hend with
  | keeps _ => exact hentered
  | sweeps _ _ _ => exact hentered.swept _

/-- Where no batch is registered, a full pass that sees something comes to an end. -/
theorem exists_full_pass {place : Workplace σ} {survey : Survey}
    (hfull : indexer.settings.cleanup = .full) (halone : place.limiter.registered = [])
    (hsees : indexer.sees platform place.files place.memory = .ok survey) :
    ∃ report after, indexer.pass platform place = (.ok report, after) := by
  obtain ⟨between, _, hlimiter, hconclude⟩ := indexer.pass_of_sees platform (Or.inl hfull) hsees
  rw [hconclude]
  exact indexer.exists_conclude survey (by rw [hlimiter, halone])

end Indexer

end ModCatalog
