import ModCatalog.Proofs.Files.Contents
import ModCatalog.Proofs.Indexing.Arrivals
import ModCatalog.Proofs.Indexing.Conclusion
import ModCatalog.Proofs.Indexing.LocalFaults

/-!
# Accounts of a pass

The report of a pass and what is told of it while it runs count the same things on their own.  Every
file is counted once before expansion, and every candidate once after it, whatever fails on the way.
-/

namespace ModCatalog

/-! ## What is told of candidates -/

/-- What is told of a candidate with an outcome.  One that failed may have had its classes read. -/
inductive Progress.Told (progress : Progress) : Outcome → Progress → Prop
  | indexed (id : Nat) : Told progress (.indexed id) progress.markIndexed.markStored
  | linked (id : Nat) : Told progress (.linked id) progress.markSkipped
  | skipped (id : Option Nat) : Told progress (.skipped id) progress.markSkipped
  | failed (item : FailedItem) : Told progress (.failed item) (progress.raise item.item item.fault)
  | failedLater (item : FailedItem) :
      Told progress (.failed item) (progress.markIndexed.raise item.item item.fault)

/-- How far what is told goes while candidates get outcomes. -/
structure Progress.Advances (before : Progress) (outcomes : List Outcome) (after : Progress) :
    Prop where
  expected : after.expected = before.expected
  stored : after.stored = before.stored + outcomes.countP Outcome.isIndexed
  skipped : after.skipped =
    before.skipped + outcomes.countP Outcome.isLinked + outcomes.countP Outcome.isSkipped
  failed : after.failed = before.failed + (outcomes.filterMap Outcome.failure?).length
  /-- No more is stored than is read. -/
  indexed : before.indexed + after.stored ≤ after.indexed + before.stored

namespace Progress

theorem Advances.refl (progress : Progress) : progress.Advances [] progress :=
  ⟨rfl, rfl, rfl, rfl, Nat.le_refl _⟩

theorem Advances.trans {before between after : Progress} {first later : List Outcome}
    (h : before.Advances first between) (hlater : between.Advances later after) :
    before.Advances (first ++ later) after := by
  obtain ⟨hexpected, hstored, hskipped, hfailed, hindexed⟩ := h
  obtain ⟨hexpected', hstored', hskipped', hfailed', hindexed'⟩ := hlater
  constructor
  · rw [hexpected', hexpected]
  · rw [List.countP_append]
    omega
  · rw [List.countP_append, List.countP_append]
    omega
  · rw [List.filterMap_append, List.length_append]
    omega
  · omega

theorem Told.advances {before after : Progress} {outcome : Outcome}
    (h : before.Told outcome after) : before.Advances [outcome] after := by
  have hread : before.indexed + (before.stored + 1) ≤ (before.indexed + 1) + before.stored := by
    omega
  have hlost : before.indexed + before.stored ≤ (before.indexed + 1) + before.stored := by omega
  cases h with
  | indexed id => exact ⟨rfl, rfl, rfl, rfl, hread⟩
  | linked id => exact ⟨rfl, rfl, rfl, rfl, Nat.le_refl _⟩
  | skipped id => exact ⟨rfl, rfl, rfl, rfl, Nat.le_refl _⟩
  | failed item => exact ⟨rfl, rfl, rfl, rfl, Nat.le_refl _⟩
  | failedLater item => exact ⟨rfl, rfl, rfl, rfl, hlost⟩

end Progress

namespace Indexer

variable {σ : Type} (indexer : Indexer)

/-- What is done for a candidate between the two times that something is told of it. -/
def writeClasses (candidate : Candidate) (id : Nat) (classes : List ClassFile.ClassRecord) :
    Work σ Unit := do
  let artifact := candidate.artifact
  let tags ← Work.ofExcept artifact.tags
  let extensions ← Work.ofExcept artifact.enumExtensions
  let aggregate := ((Aggregate.empty.addClasses classes).addTags tags).addEnumExtensions extensions
  Work.onCatalog (Resolving.commitBatch artifact.contentHash id
    (aggregate.toBatch (some artifact.contentHash) (some artifact.summary) indexer.now))
  Work.onCatalog (Resolving.markSeen id candidate.link)

theorem indexFor_eq (candidate : Candidate) (id : Nat) :
    (indexer.indexFor candidate id : Work σ Unit) = (do
      let classes ← Work.ofExcept do
        let jar ← Archive.ofBytes candidate.artifact.payload
        indexer.sanitizer.sanitize (← jar.indexClasses indexer.options)
      Work.tell (·.markIndexed)
      indexer.writeClasses candidate id classes
      Work.tell (·.markStored)) := by
  simp only [indexFor, aggregate, writeClasses, bind_assoc, pure_bind]

theorem keeps_writeClasses (candidate : Candidate) (id : Nat)
    (classes : List ClassFile.ClassRecord) :
    Work.Keeps Workplace.progress (indexer.writeClasses candidate id classes : Work σ Unit) := by
  have hofExcept : ∀ {α : Type} (answer : Except Fault α),
      Work.Keeps Workplace.progress (Work.ofExcept answer : Work σ α) := fun _ _ => rfl
  have honCatalog : ∀ {α : Type} (step : Resolving α),
      Work.Keeps Workplace.progress (Work.onCatalog step : Work σ α) := fun _ _ => rfl
  exact (hofExcept _).bind fun _ => (hofExcept _).bind fun _ =>
    (honCatalog _).bind fun _ => honCatalog _

/-- What is told while the rows of a candidate are gathered and written. -/
theorem told_indexFor (candidate : Candidate) (id : Nat) (place : Workplace σ) :
    match (indexer.indexFor candidate id).run.run place with
    | (.ok _, after) => after.progress = place.progress.markIndexed.markStored
    | (.error _, after) =>
        after.progress = place.progress ∨ after.progress = place.progress.markIndexed := by
  rw [indexFor_eq]
  generalize (do
    let jar ← Archive.ofBytes candidate.artifact.payload
    indexer.sanitizer.sanitize (← jar.indexClasses indexer.options) : Except Fault _) = found
  have hfound : (Work.ofExcept found : Work σ _).run.run place = (found, place) := rfl
  cases found with
  | error fault =>
      rw [run_bind_of_error hfound]
      exact Or.inl rfl
  | ok classes =>
      let marked : Workplace σ := { place with progress := place.progress.markIndexed }
      have htell : (Work.tell (·.markIndexed) : Work σ Unit).run.run place = (.ok (), marked) := rfl
      have hkept := indexer.keeps_writeClasses candidate id classes marked
      rw [run_bind_of_ok hfound, run_bind_of_ok htell]
      cases hrun : (indexer.writeClasses candidate id classes).run.run marked with
      | mk answer after =>
          rw [hrun] at hkept
          cases answer with
          | error fault =>
              rw [run_bind_of_error hrun]
              exact Or.inr hkept
          | ok _ =>
              rw [run_bind_of_ok hrun]
              exact congrArg Progress.markStored hkept

/-- What is told while a candidate is attempted. -/
theorem told_attempt (candidate : Candidate) (place : Workplace σ) :
    match (indexer.attempt candidate).run.run place with
    | (.ok outcome, after) =>
        outcome.isFailed = false ∧ place.progress.Told outcome after.progress
    | (.error _, after) =>
        after.progress = place.progress ∨ after.progress = place.progress.markIndexed := by
  let resolved : Work σ Resolution := Work.onCatalog (Resolving.resolve candidate)
  have hkept : (resolved.run.run place).2.progress = place.progress := rfl
  unfold attempt
  cases hrun : resolved.run.run place with
  | mk answer between =>
      rw [hrun] at hkept
      dsimp only at hkept
      rw [← hkept]
      cases answer with
      | error fault =>
          rw [run_bind_of_error hrun]
          exact Or.inl rfl
      | ok answer =>
          rw [run_bind_of_ok hrun]
          cases answer with
          | known id => exact ⟨rfl, .linked id⟩
          | outdated id => exact ⟨rfl, .skipped (some id)⟩
          | unindexable => exact ⟨rfl, .skipped none⟩
          | index id created =>
              have htold := indexer.told_indexFor candidate id between
              dsimp only
              cases hindex : (indexer.indexFor candidate id).run.run between with
              | mk answer after =>
                  rw [hindex] at htold
                  cases answer with
                  | error fault =>
                      rw [run_bind_of_error hindex]
                      exact htold
                  | ok _ =>
                      rw [run_bind_of_ok hindex]
                      refine ⟨rfl, ?_⟩
                      rw [htold]
                      exact .indexed id

/-- Whether no outcome is a failed download. -/
def AreLocal (outcomes : List Outcome) : Prop :=
  ∀ item ∈ outcomes.filterMap Outcome.failure?, item.fault.isDownload = false

variable {indexer} (hrules : ∀ rule ∈ indexer.sanitizer.rules, rule.OnlyPanics)

include hrules

theorem process_told (candidate : Candidate) (place : Workplace σ) :
    ∃ outcome after, (indexer.process candidate).run.run place = (.ok outcome, after) ∧
      place.progress.Told outcome after.progress ∧ AreLocal [outcome] := by
  have htold := indexer.told_attempt candidate place
  have hlocal := Indexer.isLocal_attempt hrules candidate place
  cases hrun : (indexer.attempt candidate).run.run place with
  | mk answer between =>
      rw [hrun] at htold hlocal
      cases answer with
      | ok outcome =>
          obtain ⟨hfine, htold⟩ := htold
          refine ⟨outcome, between, indexer.process_of_ok hrun, htold, ?_⟩
          cases outcome with
          | failed item => cases hfine
          | indexed id | linked id | skipped id => exact List.forall_mem_nil _
      | error fault =>
          refine ⟨_, _, indexer.process_of_error hrun, ?_, ?_⟩
          · rcases htold with hsame | hmarked
            · rw [hsame]
              exact .failed ⟨candidate.label, fault⟩
            · rw [hmarked]
              exact .failedLater ⟨candidate.label, fault⟩
          · intro item hitem
            rw [List.mem_singleton.mp hitem]
            exact hlocal fault rfl

/-- What is told of candidates that are processed one after another. -/
theorem mapM_process_told (candidates : List Candidate) (place : Workplace σ) :
    ∃ outcomes after, (candidates.mapM indexer.process).run.run place = (.ok outcomes, after) ∧
      place.progress.Advances outcomes after.progress ∧ AreLocal outcomes ∧
      outcomes.length = candidates.length := by
  apply indexer.exists_mapM_process (process_told hrules)
  case nil => exact fun place => ⟨.refl place.progress, List.forall_mem_nil _, rfl⟩
  case cons =>
    intro place between after candidate rest outcome outcomes ⟨htold, hfirst⟩
      ⟨hadvances, hlocal, hlength⟩
    refine ⟨htold.advances.trans hadvances, ?_, congrArg (· + 1) hlength⟩
    intro item hitem
    rw [← List.singleton_append, List.filterMap_append] at hitem
    rcases List.mem_append.mp hitem with hhead | htail
    · exact hfirst item hhead
    · exact hlocal item htail

theorem processAll_told {candidates : List Candidate} {place after : Workplace σ}
    {outcomes : List Outcome}
    (h : (indexer.processAll candidates).run.run place = (.ok outcomes, after)) :
    place.progress.Advances outcomes after.progress ∧ AreLocal outcomes ∧
      outcomes.length = candidates.length := by
  obtain ⟨entered, _, done, hmapM, rfl⟩ := indexer.mapM_of_processAll h
  obtain ⟨_, _, hrun, hadvances, hlocal, hlength⟩ :=
    mapM_process_told hrules (waves candidates).flatten { place with limiter := entered }
  cases hmapM.symm.trans hrun
  exact ⟨hadvances, hlocal, hlength.trans (flatten_waves_perm candidates).length_eq⟩

end Indexer

/-! ## Counting -/

/-- Every file is passed over or pending. -/
theorem length_passed_add_pending (passedOver? : PlatformFile → Option Nat)
    (files : List PlatformFile) : files.length = (files.filterMap passedOver?).length +
      (files.filter fun file => (passedOver? file).isNone).length := by
  rw [List.length_filterMap_eq_countP, List.countP_eq_length_filter,
    List.length_eq_length_filter_add fun file => (passedOver? file).isSome]
  simp only [Option.not_isSome]

/-- Every download is a candidate, neither a mod nor a library, or could not be read. -/
theorem length_downloads (downloads : List (PlatformFile × Except Fault ByteArray)) :
    downloads.length = downloads.countP Indexer.isNotMod +
      (downloads.filterMap FailedItem.ofDownload?).length +
      (downloads.filterMap Candidate.ofDownload?).length := by
  induction downloads with
  | nil => rfl
  | cons download rest ih =>
      rw [List.length_cons, ih, List.countP_cons, List.filterMap_cons, List.filterMap_cons]
      unfold Indexer.isNotMod FailedItem.ofDownload? Candidate.ofDownload?
      cases Indexer.readDownload download.2 with
      | error fault => simp; omega
      | ok found => cases found <;> simp <;> omega

theorem Outcome.length_eq (outcomes : List Outcome) :
    outcomes.length = outcomes.countP isIndexed + outcomes.countP isLinked +
      outcomes.countP isSkipped + (outcomes.filterMap failure?).length := by
  induction outcomes with
  | nil => rfl
  | cons outcome rest ih =>
      rw [List.length_cons, ih]
      cases outcome <;>
        simp [isIndexed, isLinked, isSkipped, failure?, List.countP_cons, List.filterMap_cons] <;>
        omega

/-! ## The report -/

/-- What a pass deals with: the files on its pages, one download for each that is not passed over,
the candidates in these with what they bundle, and an outcome for each candidate. -/
structure Indexer.Handles {σ : Type} (indexer : Indexer) (platform : Platform σ)
    (place : Workplace σ) (files : List PlatformFile)
    (downloads : List (PlatformFile × Except Fault ByteArray)) (expanded : List Candidate)
    (outcomes : List Outcome) : Prop where
  listed : ∃ count truncated,
    indexer.pages platform place.files place.memory = .ok (files, count, truncated)
  fetched : ∃ memory, downloads = ((DownloadCache.fetchAll
    ⟨indexer.settings.cacheDirectory, indexer.settings.keepsCaches⟩ platform
    (files.filter fun file => (indexer.passedOver? place.catalog.store file).isNone)).run
      (place.files, memory)).1
  pending : downloads.map Prod.fst =
    files.filter fun file => (indexer.passedOver? place.catalog.store file).isNone
  unpacked : ∃ listed, expanded = expand (downloads.filterMap Candidate.ofDownload?) listed
  processed : ∃ processed, place.catalog.Processed (waves expanded).flatten outcomes processed

/-- Whether a report accounts for everything once. -/
structure BatchReport.Accounts (report : BatchReport) (files : List PlatformFile)
    (downloads : List (PlatformFile × Except Fault ByteArray)) (expanded : List Candidate)
    (outcomes : List Outcome) : Prop where
  files_eq : report.filesSeen = files.length
  passed : report.filesSeen = report.alreadySeen + downloads.length
  notMods : report.notMods = downloads.countP Indexer.isNotMod
  filesSeen : report.filesSeen = report.alreadySeen + report.notMods +
    (downloads.filterMap FailedItem.ofDownload?).length +
    (downloads.filterMap Candidate.ofDownload?).length
  candidates_eq : report.candidates = expanded.length
  indexed : report.indexed = outcomes.countP Outcome.isIndexed
  linked : report.linked = outcomes.countP Outcome.isLinked
  skipped : report.skipped = outcomes.countP Outcome.isSkipped
  candidates : report.candidates = report.indexed + report.linked + report.skipped +
    (outcomes.filterMap Outcome.failure?).length
  failed : report.failed = downloads.filterMap FailedItem.ofDownload? ++
    outcomes.filterMap Outcome.failure?
  downloadsFailed : report.downloadsFailed = report.failed.countP fun item => item.fault.isDownload

/-- Whether what was told of a pass counts what its report counts. -/
structure BatchReport.IsTold (report : BatchReport) (progress : Progress) : Prop where
  expected : progress.expected = report.candidates
  stored : progress.stored = report.indexed
  skipped : progress.skipped = report.notMods + report.linked + report.skipped
  failed : progress.failed = report.failed.length
  indexed : progress.stored ≤ progress.indexed

section Counted

variable {survey : Survey} {name version : String} {pages purged : Nat} {files : List PlatformFile}
  {downloads : List (PlatformFile × Except Fault ByteArray)} {outcomes : List Outcome}
  (hreport : survey.report = { BatchReport.start name version with
    pages := pages, truncated := survey.truncated
    filesSeen := files.length, alreadySeen := survey.passed.length }.withDownloads downloads)

include hreport

/-- A report that counts the outcomes after the downloads accounts for everything once, if each file
that is not passed over was downloaded and each candidate has an outcome. -/
theorem Survey.accounts_counted (hfiles : files.length = survey.passed.length + downloads.length)
    (hlength : outcomes.length = survey.expanded.length) (hlocal : Indexer.AreLocal outcomes) :
    BatchReport.Accounts { survey.counted outcomes with purged := purged } files downloads
      survey.expanded outcomes := by
  have hdownloads := length_downloads downloads
  have houtcomes := Outcome.length_eq outcomes
  have hnone : ((outcomes.filterMap Outcome.failure?).countP fun item => item.fault.isDownload) =
      0 := by
    rw [List.countP_eq_zero]
    intro item hitem
    rw [hlocal item hitem]
    exact Bool.false_ne_true
  unfold Survey.counted
  rw [Outcome.foldl_addTo, hreport]
  simp only [BatchReport.withDownloads, BatchReport.start, Nat.zero_add, List.nil_append]
  exact
    { files_eq := rfl
      passed := hfiles
      notMods := rfl
      filesSeen := by dsimp only; omega
      candidates_eq := rfl
      indexed := rfl
      linked := rfl
      skipped := rfl
      candidates := hlength.symm.trans houtcomes
      failed := rfl
      downloadsFailed := by rw [List.countP_append, hnone]; rfl }

/-- What is told of downloads and outcomes from the start on is what such a report counts. -/
theorem Survey.isTold_counted {progress : Progress}
    (hadvances : ((Progress.start.withDownloads downloads).expect
      (survey.expanded.map Candidate.label)).Advances outcomes progress) :
    BatchReport.IsTold { survey.counted outcomes with purged := purged } progress := by
  obtain ⟨hexpected, hstored, hskipped, hfailed, hindexed⟩ := hadvances
  unfold Survey.counted
  rw [Outcome.foldl_addTo, hreport]
  simp only [BatchReport.withDownloads, BatchReport.start, Progress.withDownloads, Progress.start,
    Progress.expect, List.length_map, Nat.zero_add, List.nil_append] at *
  exact
    { expected := hexpected
      stored := hstored
      skipped := hskipped
      failed := by rw [List.length_append, hfailed]
      indexed := hindexed }

end Counted

namespace Indexer

variable {σ : Type} {indexer : Indexer} (platform : Platform σ)

/-- Every item of a pass that comes to its end is accounted for exactly once, in the report and, if
nothing was told before, in what was told of the pass. -/
theorem accounts_of_pass (hrules : ∀ rule ∈ indexer.sanitizer.rules, rule.OnlyPanics)
    {place after : Workplace σ} {report : BatchReport}
    (hpass : indexer.pass platform place = (.ok report, after)) :
    ∃ files downloads expanded outcomes,
      indexer.Handles platform place files downloads expanded outcomes ∧
      report.Accounts files downloads expanded outcomes ∧
      (place.progress = .start → report.IsTold after.progress) := by
  rcases indexer.pass_cases platform place with
    ⟨_, _, herror, _⟩ | ⟨survey, between, hsurvey, hbetween, _, hconclude⟩
  · cases hpass.symm.trans herror
  obtain ⟨files, count, memory, downloads, listed, hpages, hpassed, hfetched, hread, hexpanded,
    hreport, htold⟩ := indexer.survey_steps platform hsurvey
  obtain ⟨outcomes, done, hprocess, hafter, hend⟩ :=
    indexer.processAll_of_conclude (hconclude.symm.trans hpass)
  obtain ⟨hadvances, hlocal, hlength⟩ := processAll_told hrules hprocess
  have hprocessed := indexer.processAll_spec hprocess
  have hpending : downloads.map Prod.fst =
      files.filter fun file => (indexer.passedOver? place.catalog.store file).isNone := by
    rw [hfetched]
    exact DownloadCache.map_fst_fetchAll _ _ _ _
  have hfiles := length_passed_add_pending (indexer.passedOver? place.catalog.store) files
  rw [← hpassed, ← hpending, List.length_map] at hfiles
  rw [hbetween] at hprocessed
  rw [hread] at hexpanded
  rw [htold, ← hafter] at hadvances
  refine ⟨files, downloads, survey.expanded, outcomes, ?_, ?_, fun hfresh => ?_⟩
  · exact
      { listed := ⟨count, survey.truncated, hpages⟩
        fetched := ⟨memory, hfetched⟩
        pending := hpending
        unpacked := ⟨listed, hexpanded⟩
        processed := ⟨done.catalog, hprocessed⟩ }
  · rw [hend.report_eq]
    exact Survey.accounts_counted hreport hfiles hlength hlocal
  · rw [hfresh] at hadvances
    rw [hend.report_eq]
    exact Survey.isTold_counted hreport hadvances

/-- The accounts of a first pass over a directory with one jar. -/
theorem accounts_of_stocked :
    (∀ rule ∈ (OneJar.indexer .full).sanitizer.rules, rule.OnlyPanics) ∧
      ∃ report after,
        (OneJar.indexer .full).pass OneJar.platform.toPlatform (OneJar.stocked .empty) =
          (.ok report, after) ∧
        ∃ files downloads expanded outcomes,
          (OneJar.indexer .full).Handles OneJar.platform.toPlatform (OneJar.stocked .empty) files
            downloads expanded outcomes ∧
          report.Accounts files downloads expanded outcomes ∧ report.IsTold after.progress := by
  obtain ⟨_, _, report, after, -, -, -, -, hpass, -⟩ := OneJar.exists_pass .full
  obtain ⟨files, downloads, expanded, outcomes, hhandles, haccounts, htold⟩ :=
    accounts_of_pass OneJar.platform.toPlatform Sanitizer.onlyPanics_standard hpass
  exact ⟨Sanitizer.onlyPanics_standard, report, after, hpass, files, downloads, expanded, outcomes,
    hhandles, haccounts, htold rfl⟩

end Indexer

end ModCatalog
