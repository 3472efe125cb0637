import ModCatalog.Proofs.Indexing.Restoration
import ModCatalog.Proofs.Indexing.Skipping
import ModCatalog.Proofs.Resolution.Noting

/-!
# Which files are passed over

An incremental pass passes over a listed file if some earlier pass noted a file of the same platform
with the same number.  The project of the file is not asked for: where two projects of a platform
have files with one number, a file is passed over that no pass has dealt with.
-/

namespace ModCatalog

open Resolving

/-- Whether a candidate with its outcome is a reason for a file to be seen.  A candidate that failed
is one only if it learned a coordinate that does not fit the store. -/
def Outcome.IsReason (file : FileKey) (dealt : Candidate × Outcome) : Prop :=
  ∃ link ∈ dealt.1.link, link.file = file ∧
    (Indexer.isStored dealt.2 ∨
      dealt.2.isFailed ∧ ∃ name ∈ dealt.1.extraCoordinate, Store.checkWrite name 0 ≠ .ok ())

/-- Whether the files that were seen are accounted for by candidates with their outcomes. -/
structure Store.AccountedBy (store : Store) (dealt : List (Candidate × Outcome)) : Prop where
  reason {file : FileKey} : store.Seen file → ∃ pair ∈ dealt, Outcome.IsReason file pair
  stored {pair : Candidate × Outcome} : pair ∈ dealt → Indexer.isStored pair.2 →
    ∀ link ∈ pair.1.link, store.Seen link.file

namespace Outcome

variable {outcome : Outcome} {answer : Except Fault Resolution}

theorem Tells.isStored_iff (htells : outcome.Tells answer) :
    Indexer.isStored outcome ↔ IsStored answer := by
  cases answer with
  | ok value =>
      have hsame := Indexer.Concludes.isStored_eq htells
      constructor
      · intro hstored
        exact ⟨value, rfl, hsame.trans hstored⟩
      · intro h
        obtain ⟨other, hvalue, hstored⟩ := h
        cases hvalue
        exact hsame.symm.trans hstored
  | error fault =>
      obtain ⟨item, rfl⟩ := htells
      exact ⟨nofun, fun hstored => absurd hstored not_isStored_error⟩

theorem Tells.isFailed {fault : Fault} (htells : outcome.Tells (.error fault)) :
    outcome.isFailed := by
  obtain ⟨item, rfl⟩ := htells
  rfl

end Outcome

/-! ## One candidate after another -/

section Processed

variable {catalog after : Catalog} {dealt : List (Candidate × Outcome)}
  {candidates : List Candidate} {outcomes : List Outcome}

theorem Attempt.accounted {attempt : Attempt} {outcome : Outcome} (hcatalog : catalog.Coherent)
    (htells : outcome.Tells (attempt.run.exec catalog).1)
    (haccounted : catalog.store.AccountedBy dealt) :
    (attempt.after catalog).store.AccountedBy (dealt ++ [(attempt.candidate, outcome)]) := by
  have hlast : (attempt.candidate, outcome) ∈ dealt ++ [(attempt.candidate, outcome)] := by simp
  have hnotes := attempt.notes_run hcatalog
  have hbefore : ∀ {file}, catalog.store.Seen file →
      ∃ pair ∈ dealt ++ [(attempt.candidate, outcome)], Outcome.IsReason file pair := by
    intro file hseen
    obtain ⟨pair, hpair, hreason⟩ := haccounted.reason hseen
    exact ⟨pair, List.mem_append_left _ hpair, hreason⟩
  cases hnotes with
  | nothing hseen hstored =>
      constructor
      · intro file hfile
        exact hbefore ((hseen file).mp hfile)
      · intro pair hpair hpairStored link hlink
        rcases List.mem_append.mp hpair with hold | hnew
        · exact (hseen _).mpr (haccounted.stored hold hpairStored link hlink)
        · obtain rfl := List.mem_singleton.mp hnew
          have hnone := hstored (htells.isStored_iff.mp hpairStored)
          cases hnone.symm.trans hlink
  | file link hlink hseen hanswer =>
      constructor
      · intro file hfile
        rcases (hseen file).mp hfile with rfl | hold
        · refine ⟨_, hlast, link, hlink, rfl, ?_⟩
          rcases hanswer with hstored | ⟨⟨fault, hfault⟩, hunfit⟩
          · exact Or.inl (htells.isStored_iff.mpr hstored)
          · rw [hfault] at htells
            exact Or.inr ⟨htells.isFailed, hunfit⟩
        · exact hbefore hold
      · intro pair hpair hpairStored other hother
        rcases List.mem_append.mp hpair with hold | hnew
        · exact (hseen _).mpr (Or.inr (haccounted.stored hold hpairStored other hother))
        · obtain rfl := List.mem_singleton.mp hnew
          cases hlink.symm.trans hother
          exact (hseen _).mpr (Or.inl rfl)

theorem Catalog.Processed.accounted (hprocessed : catalog.Processed candidates outcomes after)
    (hcatalog : catalog.Coherent) (haccounted : catalog.store.AccountedBy dealt) :
    after.store.AccountedBy (dealt ++ candidates.zip outcomes) := by
  induction hprocessed generalizing dealt with
  | nil catalog => simpa using haccounted
  | @cons catalog after rest outcomes outcome attempt htells _ ih =>
      have hstep := attempt.accounted hcatalog htells haccounted
      have hrest := ih (attempt.after_spec hcatalog).1 hstep
      rw [List.zip_cons_cons]
      simpa using hrest

end Processed

/-! ## One pass after another -/

namespace Indexer

variable {σ : Type} (indexer : Indexer) (platform : Platform σ)

/-- Look around and process what was seen: the candidates in their order, with their outcomes. -/
def deal (store : Store) : Work σ (List (Candidate × Outcome)) := do
  let survey ← indexer.survey platform (indexer.passedOver? store)
  Work.tell (·.expect (survey.expanded.map Candidate.label))
  let outcomes ← indexer.processAll survey.expanded
  return (waves survey.expanded).flatten.zip outcomes

/-- The candidates that a pass deals with, and what becomes of each. -/
def dealt (place : Workplace σ) : List (Candidate × Outcome) :=
  match ((indexer.deal platform place.catalog.store).run.run place).1 with
  | .ok pairs => pairs
  | .error _ => []

/-- Passes one after another from the empty catalog, over any platforms and files, with all the
candidates that they dealt with.  A pass goes on with what was remembered or starts afresh. -/
inductive Served : List (Candidate × Outcome) → Catalog → Prop
  | nothing : Served [] .empty
  | pass {σ : Type} {done : List (Candidate × Outcome)} {catalog : Catalog} (indexer : Indexer)
      (platform : Platform σ) (place : Workplace σ) : Served done catalog →
      place.catalog.Reopens catalog → place.limiter.registered = [] →
      Served (done ++ indexer.dealt platform place) (indexer.pass platform place).2.catalog

/-- A pass that looks in vain deals with nothing, and any other processes what it sees. -/
theorem dealt_cases {place : Workplace σ} (halone : place.limiter.registered = []) :
    (indexer.dealt platform place = [] ∧
      (indexer.pass platform place).2.catalog = place.catalog) ∨
    ∃ survey outcomes processed report between,
      (indexer.survey platform (indexer.passedOver? place.catalog.store)).run.run place =
        (.ok survey, between) ∧
      indexer.dealt platform place = (waves survey.expanded).flatten.zip outcomes ∧
      place.catalog.Processed (waves survey.expanded).flatten outcomes processed ∧
      indexer.Ends survey outcomes processed report (indexer.pass platform place).2.catalog := by
  let passedOver? := indexer.passedOver? place.catalog.store
  have hlooks := indexer.looks_survey platform passedOver?
  have hcatalog := hlooks.catalog place
  have hlimiter := hlooks.limiter place
  unfold dealt deal
  rw [indexer.pass_eq]
  cases hsurvey : (indexer.survey platform passedOver?).run.run place with
  | mk answer between =>
      rw [hsurvey] at hcatalog hlimiter
      cases answer with
      | error fault =>
          rw [run_bind_of_error hsurvey, run_bind_of_error hsurvey]
          exact Or.inl ⟨rfl, hcatalog⟩
      | ok survey =>
          let told : Workplace σ := { between with
            progress := between.progress.expect (survey.expanded.map Candidate.label) }
          have htell : (Work.tell (·.expect (survey.expanded.map Candidate.label)) :
              Work σ Unit).run.run between = (.ok (), told) := rfl
          have htold : told.limiter.registered = [] := (congrArg _ hlimiter).trans halone
          obtain ⟨outcomes, done, hprocess⟩ := indexer.exists_processAll survey.expanded htold
          obtain ⟨report, after, hconclude, _, hend⟩ := indexer.ends_of_processAll hprocess
          have hprocessed := indexer.processAll_spec hprocess
          have hbefore : told.catalog = place.catalog := hcatalog
          rw [hbefore] at hprocessed
          rw [run_bind_of_ok hsurvey, run_bind_of_ok hsurvey, run_bind_of_ok htell,
            run_bind_of_ok hprocess, hconclude]
          exact Or.inr ⟨survey, outcomes, done.catalog, report, between, rfl, rfl, hprocessed, hend⟩

/-- A pass that passes no file over deals with what it sees. -/
theorem mem_expanded_of_mem_dealt {place : Workplace σ} {survey : Survey}
    (halone : place.limiter.registered = [])
    (hnone : indexer.settings.cleanup = .full ∨ place.catalog.store = .empty)
    (hsees : indexer.sees platform place.files place.memory = .ok survey)
    {pair : Candidate × Outcome} (hpair : pair ∈ indexer.dealt platform place) :
    pair.1 ∈ survey.expanded := by
  rcases indexer.dealt_cases platform halone with
    ⟨hnothing, _⟩ | ⟨found, outcomes, _, _, _, hsurvey, hdealt, _, _⟩
  · rw [hnothing] at hpair
    cases hpair
  · have hfound := indexer.survey_eq_sees platform place (indexer.passedOver?_eq_none hnone)
    rw [hsurvey, hsees] at hfound
    cases hfound
    rw [hdealt] at hpair
    exact (flatten_waves_perm survey.expanded).mem_iff.mp (List.of_mem_zip hpair).1

/-- A pass keeps a catalog coherent and accounts for the files that it notes. -/
theorem accounted_of_pass {place : Workplace σ} {done : List (Candidate × Outcome)}
    (halone : place.limiter.registered = []) (hcatalog : place.catalog.Coherent)
    (haccounted : place.catalog.store.AccountedBy done) :
    (indexer.pass platform place).2.catalog.Coherent ∧
      (indexer.pass platform place).2.catalog.store.AccountedBy
        (done ++ indexer.dealt platform place) := by
  rcases indexer.dealt_cases platform halone with
    ⟨hnothing, hsame⟩ | ⟨survey, outcomes, processed, report, _, _, hdealt, hprocessed, hend⟩
  · rw [hnothing, hsame, List.append_nil]
    exact ⟨hcatalog, haccounted⟩
  · have hlast := hprocessed.accounted hcatalog haccounted
    have hcoherent := (hprocessed.carries hcatalog).1
    rw [hdealt]
    generalize (indexer.pass platform place).2.catalog = catalog at hend ⊢
    cases hend with
    | keeps _ => exact ⟨hcoherent, hlast⟩
    | sweeps _ _ _ => exact ⟨hcoherent.swept _, hlast.reason, hlast.stored⟩

theorem Served.accounted {done : List (Candidate × Outcome)} {catalog : Catalog}
    (hserved : Served done catalog) : catalog.Coherent ∧ catalog.store.AccountedBy done := by
  induction hserved with
  | nothing =>
      refine ⟨.empty, ?_, nofun⟩
      intro file hseen
      cases hseen
  | pass indexer platform place _ hreopens halone ih =>
      obtain ⟨hcoherent, haccounted⟩ := ih
      rw [← hreopens.store_eq] at haccounted
      exact indexer.accounted_of_pass platform halone (hcoherent.reopen hreopens) haccounted

/-! ## The files of one pass -/

/-- What a survey reports of the files on its pages. -/
theorem survey_report {passedOver? : PlatformFile → Option Nat} {place after : Workplace σ}
    {survey : Survey}
    (h : (indexer.survey platform passedOver?).run.run place = (.ok survey, after)) :
    survey.report.alreadySeen = survey.passed.length ∧
      survey.report.truncated = survey.truncated := by
  obtain ⟨_, _, _, _, _, _, _, _, _, _, hreport, _⟩ := indexer.survey_steps platform h
  rw [hreport]
  exact ⟨rfl, rfl⟩

theorem passedOver?_eq (hmode : indexer.settings.cleanup = .incremental) (store : Store)
    (file : PlatformFile) :
    indexer.passedOver? store file = store.seenFileOwner file.link.file := by
  unfold passedOver?
  rw [hmode]

/-- A pass counts as already seen the files on its pages that it passes over. -/
theorem alreadySeen_of_pass {place after : Workplace σ} {report : BatchReport}
    (hpass : indexer.pass platform place = (.ok report, after)) :
    ∃ files count truncated,
      indexer.pages platform place.files place.memory = .ok (files, count, truncated) ∧
      report.alreadySeen = files.countP fun file =>
        (indexer.passedOver? place.catalog.store file).isSome := by
  rcases indexer.pass_cases platform place with
    ⟨_, _, herror, _⟩ | ⟨survey, between, hsurvey, _, _, hconclude⟩
  · cases hpass.symm.trans herror
  · obtain ⟨files, count, _, hpages, hpassed, _⟩ := indexer.survey_spec platform hsurvey
    obtain ⟨outcomes, _, _, hend⟩ := indexer.conclude_spec (hconclude.symm.trans hpass)
    have hcounted : report.alreadySeen = survey.report.alreadySeen := by
      rw [hend.report_eq]
      unfold Survey.counted
      rw [Outcome.foldl_addTo]
    refine ⟨files, count, survey.truncated, hpages, ?_⟩
    rw [hcounted, (indexer.survey_report platform hsurvey).1, hpassed,
      List.length_filterMap_eq_countP]

/-- After any passes, an incremental pass counts as already seen the listed files that it passes
over.  It passes over a file only if some candidate with a file of the same platform and number,
of whatever project, was stored, or failed with a coordinate that does not fit; and it passes over
every file that has its platform and number from a candidate that was stored. -/
theorem passed_over_by_number {done : List (Candidate × Outcome)} {catalog : Catalog}
    (hserved : Served done catalog) {place : Workplace σ}
    (hreopens : place.catalog.Reopens catalog)
    (hmode : indexer.settings.cleanup = .incremental) :
    (∀ report after, indexer.pass platform place = (.ok report, after) →
      ∃ files count truncated,
        indexer.pages platform place.files place.memory = .ok (files, count, truncated) ∧
        report.alreadySeen = files.countP fun file =>
          (indexer.passedOver? place.catalog.store file).isSome) ∧
    ∀ file,
      ((indexer.passedOver? place.catalog.store file).isSome →
        ∃ pair ∈ done, Outcome.IsReason file.link.file pair) ∧
      ∀ pair ∈ done, isStored pair.2 → ∀ link ∈ pair.1.link, link.file = file.link.file →
        (indexer.passedOver? place.catalog.store file).isSome := by
  have haccounted := hserved.accounted.2
  rw [← hreopens.store_eq] at haccounted
  refine ⟨fun report after hpass => indexer.alreadySeen_of_pass platform hpass, ?_⟩
  intro file
  rw [indexer.passedOver?_eq hmode]
  refine ⟨haccounted.reason, ?_⟩
  intro pair hpair hstored link hlink hfile
  rw [← hfile]
  exact haccounted.stored hpair hstored link hlink

/-- After a pass over a directory with file 10 of project 1 and nothing else, file 10 of project 2
is passed over, for the sake of the other. -/
theorem passed_over_in_other_project : ∃ report after,
    (OneJar.indexer .incremental).pass OneJar.platform.toPlatform (OneJar.stocked .empty) =
      (.ok report, after) ∧
    ∃ file : PlatformFile, file.link.projectId = 2 ∧
      ((OneJar.indexer .incremental).passedOver? after.catalog.store file).isSome ∧
      (∃ pair ∈ (OneJar.indexer .incremental).dealt OneJar.platform.toPlatform
        (OneJar.stocked .empty), Outcome.IsReason file.link.file pair) ∧
      ∀ pair ∈ (OneJar.indexer .incremental).dealt OneJar.platform.toPlatform
        (OneJar.stocked .empty), pair.1.link = some OneJar.link := by
  obtain ⟨survey, found, report, after, hsees, -, hexpanded, hlink, hpass, hfailed⟩ :=
    OneJar.exists_pass .incremental
  have hcarried : ∀ candidate ∈ survey.expanded, candidate.link = some OneJar.link := by
    intro candidate hcandidate
    rw [hexpanded, List.mem_singleton] at hcandidate
    rw [hcandidate, hlink]
  have hserved := Served.pass (OneJar.indexer .incremental) OneJar.platform.toPlatform
    (OneJar.stocked .empty) .nothing (Or.inl rfl) rfl
  rw [List.nil_append] at hserved
  have hreopens : (OneJar.stocked after.catalog).catalog.Reopens
      ((OneJar.indexer .incremental).pass OneJar.platform.toPlatform
        (OneJar.stocked .empty)).2.catalog := by
    rw [hpass]
    exact Or.inl rfl
  obtain ⟨_, hpassed⟩ := passed_over_by_number (OneJar.indexer .incremental)
    OneJar.platform.toPlatform hserved hreopens rfl
  let file : PlatformFile := ⟨⟨OneJar.link.platform, 2, OneJar.link.fileId⟩, "10.jar", "", 0⟩
  have hfile : file.link.file = OneJar.link.file := rfl
  have hseen : ((OneJar.indexer .incremental).passedOver? after.catalog.store file).isSome := by
    have hentered := (OneJar.indexer .incremental).entered_of_pass OneJar.platform.toPlatform rfl
      hpass hfailed hsees
    have hfound : found ∈ survey.expanded := by rw [hexpanded]; exact List.mem_singleton_self found
    have hdone := (flatten_waves_perm survey.expanded).mem_iff.mpr hfound
    rw [passedOver?_eq _ rfl, hentered.seen_iff, hfile]
    exact ⟨found, hdone, OneJar.link, hlink, rfl⟩
  refine ⟨report, after, hpass, file, rfl, hseen, (hpassed file).1 hseen, ?_⟩
  intro pair hpair
  exact hcarried pair.1 ((OneJar.indexer .incremental).mem_expanded_of_mem_dealt
    OneJar.platform.toPlatform rfl (Or.inr rfl) hsees hpair)

end Indexer

end ModCatalog
