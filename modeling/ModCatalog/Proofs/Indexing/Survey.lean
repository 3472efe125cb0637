import ModCatalog.Proofs.Indexing.Process

/-!
# The two halves of a pass

A pass first looks around: it lists, downloads and reads files, and takes out what they bundle.
What it sees depends on the files and on what the platform remembers, and the catalog stays as it
is.  Then it turns to the catalog with what it has seen.
-/

namespace ModCatalog

/-- What a pass has seen when it turns to the catalog. -/
structure Survey where
  /-- The owners of the files that are passed over. -/
  passed : List Nat
  truncated : Bool
  /-- The candidates of the files that were read. -/
  read : List Candidate
  /-- The same with what they bundle. -/
  expanded : List Candidate
  report : BatchReport

/-- A place with an empty catalog in which no batch is running. -/
def Workplace.bare {σ : Type} (files : FileTree) (memory : σ) : Workplace σ :=
  ⟨.empty, files, memory, ⟨1, 1, []⟩, .start⟩

namespace Indexer

variable {σ : Type}

/-- Look around without the files that are passed over. -/
def survey (indexer : Indexer) (platform : Platform σ) (passedOver? : PlatformFile → Option Nat) :
    Work σ Survey := do
  let settings := indexer.settings
  let (files, pages, truncated) ← indexer.enumerate platform settings.maxPages none
  let passed := files.filterMap passedOver?
  let pending := files.filter fun file => (passedOver? file).isNone
  let report := { BatchReport.start platform.name settings.gameVersion with
    pages := pages, truncated := truncated
    filesSeen := files.length, alreadySeen := passed.length }
  let cache : DownloadCache := ⟨settings.cacheDirectory, settings.keepsCaches⟩
  let downloads ← Work.onFiles (cache.fetchAll platform pending)
  let (read, report) ← readCandidates report downloads
  let listed ← listedBundles platform read
  return ⟨passed, truncated, read, expand read listed, report⟩

/-- Process what was seen, and remove the rows of mods that were not. -/
def conclude (indexer : Indexer) (survey : Survey) : Work σ BatchReport := do
  Work.tell (·.expect (survey.expanded.map Candidate.label))
  let outcomes ← indexer.processAll survey.expanded
  let report := outcomes.foldl Outcome.addTo
    { survey.report with candidates := survey.expanded.length }
  let present := survey.passed ++ outcomes.filterMap Outcome.modId?
  let incomplete := survey.truncated || !report.failed.isEmpty
  let purged ← Work.onCatalog
    (Resolving.transact (.cleanup present indexer.settings.cleanup incomplete))
  return { report with purged := purged }

/-- A pass: what it reports, and the place it leaves. -/
def pass (indexer : Indexer) (platform : Platform σ) (place : Workplace σ) :
    Except Fault BatchReport × Workplace σ :=
  (indexer.run platform).run.run place

/-- The files that a pass lists, the number of pages, and whether pages are left. -/
def pages (indexer : Indexer) (platform : Platform σ) (files : FileTree) (memory : σ) :
    Except Fault (List PlatformFile × Nat × Bool) :=
  ((indexer.enumerate platform indexer.settings.maxPages none).run.run (.bare files memory)).1

/-- What a pass sees that passes no file over. -/
def sees (indexer : Indexer) (platform : Platform σ) (files : FileTree) (memory : σ) :
    Except Fault Survey :=
  ((indexer.survey platform fun _ => none).run.run (.bare files memory)).1

end Indexer

/-! ## Looking -/

/-- Whether work leaves a part of its place alone. -/
def Work.Keeps {σ α β : Type} (part : Workplace σ → β) (work : Work σ α) : Prop :=
  ∀ place, part (work.run.run place).2 = part place

namespace Work

variable {σ α β γ : Type} {part : Workplace σ → γ}

theorem keeps_pure (value : α) : Keeps part (pure value) := fun _ => rfl

theorem keeps_askPlatform (hmemory : ∀ place memory, part { place with memory := memory } = part place)
    (question : FileTree → StateM σ (Except Fault α)) : Keeps part (askPlatform question) :=
  fun place => hmemory place _

theorem Keeps.bind {work : Work σ α} {next : α → Work σ β} (hwork : Keeps part work)
    (hnext : ∀ value, Keeps part (next value)) : Keeps part (work >>= next) := by
  intro place
  have hplace := hwork place
  cases hrun : work.run.run place with
  | mk answer between =>
      rw [hrun] at hplace
      cases answer with
      | error fault =>
          rw [run_bind_of_error hrun]
          exact hplace
      | ok value =>
          rw [run_bind_of_ok hrun]
          exact (hnext value between).trans hplace

end Work

/-- Whether work leaves the catalog and the limiter alone, and whether its answer and the files it
leaves depend on nothing but the files and what the platform remembers. -/
structure Work.Looks {σ α : Type} (work : Work σ α) : Prop where
  catalog (place : Workplace σ) : (work.run.run place).2.catalog = place.catalog
  limiter (place : Workplace σ) : (work.run.run place).2.limiter = place.limiter
  alike {place other : Workplace σ} : place.files = other.files → place.memory = other.memory →
    (work.run.run place).1 = (work.run.run other).1 ∧
      (work.run.run place).2.files = (work.run.run other).2.files ∧
      (work.run.run place).2.memory = (work.run.run other).2.memory

namespace Work

variable {σ α β : Type}

theorem looks_pure (value : α) : Looks (pure value : Work σ α) :=
  ⟨fun _ => rfl, fun _ => rfl, fun hfiles hmemory => ⟨rfl, hfiles, hmemory⟩⟩

theorem looks_tell (event : Progress → Progress) : Looks (tell event : Work σ Unit) :=
  ⟨fun _ => rfl, fun _ => rfl, fun hfiles hmemory => ⟨rfl, hfiles, hmemory⟩⟩

theorem looks_onFiles (step : StateM (FileTree × σ) α) : Looks (onFiles step) := by
  refine ⟨fun _ => rfl, fun _ => rfl, ?_⟩
  intro place other hfiles hmemory
  have hrun : ∀ place : Workplace σ, (onFiles step).run.run place =
      (.ok (step.run (place.files, place.memory)).1,
        { place with
          files := (step.run (place.files, place.memory)).2.1
          memory := (step.run (place.files, place.memory)).2.2 }) := fun _ => rfl
  rw [hrun, hrun, hfiles, hmemory]
  exact ⟨rfl, rfl, rfl⟩

theorem run_onFiles_eq_ok {step : StateM (FileTree × σ) α} {place after : Workplace σ} {value : α}
    (h : (onFiles step).run.run place = (.ok value, after)) :
    value = (step.run (place.files, place.memory)).1 := by
  have hanswer := congrArg Prod.fst h
  exact (Except.ok.inj hanswer).symm

theorem looks_askPlatform (question : FileTree → StateM σ (Except Fault α)) :
    Looks (askPlatform question) := by
  refine ⟨fun _ => rfl, fun _ => rfl, ?_⟩
  intro place other hfiles hmemory
  have hrun : ∀ place : Workplace σ, (askPlatform question).run.run place =
      (((question place.files).run place.memory).1,
        { place with memory := ((question place.files).run place.memory).2 }) := fun _ => rfl
  rw [hrun, hrun, hfiles, hmemory]
  exact ⟨rfl, rfl, rfl⟩

theorem Looks.bind {work : Work σ α} {next : α → Work σ β} (hwork : Looks work)
    (hnext : ∀ value, Looks (next value)) : Looks (work >>= next) := by
  have hcatalog : Keeps Workplace.catalog (work >>= next) :=
    Keeps.bind hwork.catalog fun value => (hnext value).catalog
  have hlimiter : Keeps Workplace.limiter (work >>= next) :=
    Keeps.bind hwork.limiter fun value => (hnext value).limiter
  refine ⟨hcatalog, hlimiter, ?_⟩
  intro place other hfiles hmemory
  have hsame := hwork.alike hfiles hmemory
  cases hfirst : work.run.run place with
  | mk answer between =>
      cases hsecond : work.run.run other with
      | mk result later =>
          rw [hfirst, hsecond] at hsame
          obtain ⟨rfl, hfilesBetween, hmemoryBetween⟩ := hsame
          cases answer with
          | error fault =>
              rw [run_bind_of_error hfirst, run_bind_of_error hsecond]
              exact ⟨rfl, hfilesBetween, hmemoryBetween⟩
          | ok value =>
              rw [run_bind_of_ok hfirst, run_bind_of_ok hsecond]
              exact (hnext value).alike hfilesBetween hmemoryBetween

end Work

/-! ## What a pass sees -/

/-- The candidate of a download that holds a mod or a library. -/
def Candidate.ofDownload? (download : PlatformFile × Except Fault ByteArray) : Option Candidate :=
  match Indexer.readDownload download.2 with
  | .ok (some tree) => some (.ofTree tree (some download.1.link))
  | _ => none

/-- The report on a download that could not be fetched or read. -/
def FailedItem.ofDownload? (download : PlatformFile × Except Fault ByteArray) :
    Option FailedItem :=
  match Indexer.readDownload download.2 with
  | .error fault => some ⟨download.1.fileName ++ " (" ++ download.1.link.text ++ ")", fault⟩
  | .ok _ => none

/-- Whether a download is neither a mod nor a library. -/
def Indexer.isNotMod (download : PlatformFile × Except Fault ByteArray) : Bool :=
  match readDownload download.2 with
  | .ok none => true
  | _ => false

/-- A report with what became of downloads that are no candidates. -/
def BatchReport.withDownloads (report : BatchReport)
    (downloads : List (PlatformFile × Except Fault ByteArray)) : BatchReport :=
  let unread := downloads.filterMap FailedItem.ofDownload?
  { report with
    notMods := report.notMods + downloads.countP Indexer.isNotMod
    downloadsFailed := report.downloadsFailed + unread.countP fun item => item.fault.isDownload
    failed := report.failed ++ unread }

/-- What is told of downloads that are no candidates. -/
def Progress.withDownloads (progress : Progress)
    (downloads : List (PlatformFile × Except Fault ByteArray)) : Progress :=
  let unread := downloads.filterMap FailedItem.ofDownload?
  { progress with
    skipped := progress.skipped + downloads.countP Indexer.isNotMod
    failed := progress.failed + unread.length
    errors := progress.errors ++ unread.map fun item => (item.item, item.fault.message) }

theorem BatchReport.withDownloads_cons (report : BatchReport)
    (download : PlatformFile × Except Fault ByteArray)
    (rest : List (PlatformFile × Except Fault ByteArray)) :
    report.withDownloads (download :: rest) =
      (report.withDownloads [download]).withDownloads rest := by
  rw [← List.singleton_append]
  unfold withDownloads
  simp only [List.countP_append, List.filterMap_append, Nat.add_assoc, List.append_assoc]

theorem Progress.withDownloads_cons (progress : Progress)
    (download : PlatformFile × Except Fault ByteArray)
    (rest : List (PlatformFile × Except Fault ByteArray)) :
    progress.withDownloads (download :: rest) =
      (progress.withDownloads [download]).withDownloads rest := by
  rw [← List.singleton_append]
  unfold withDownloads
  simp only [List.countP_append, List.filterMap_append, List.length_append, List.map_append,
    Nat.add_assoc, List.append_assoc]

namespace Indexer

variable {σ : Type} (indexer : Indexer) (platform : Platform σ)

theorem looks_enumerate (limit : Nat) (token : Option String) :
    Work.Looks (indexer.enumerate platform limit token) := by
  induction limit generalizing token with
  | zero => exact Work.looks_pure _
  | succ limit ih =>
      refine (Work.looks_askPlatform _).bind fun page => ?_
      split
      · exact Work.looks_pure _
      · exact (ih _).bind fun _ => Work.looks_pure _

theorem looks_readCandidates (report : BatchReport)
    (downloads : List (PlatformFile × Except Fault ByteArray)) :
    Work.Looks (readCandidates report downloads : Work σ _) := by
  induction downloads generalizing report with
  | nil => exact Work.looks_pure _
  | cons download rest ih =>
      obtain ⟨file, content⟩ := download
      unfold readCandidates
      split
      · exact (ih _).bind fun _ => Work.looks_pure _
      · exact (Work.looks_tell _).bind fun _ => ih _
      · refine Work.Looks.bind ?_ fun item => ih _
        exact (Work.looks_tell _).bind fun _ => Work.looks_pure _

theorem looks_listedBundles (candidates : List Candidate) :
    Work.Looks (listedBundles platform candidates) := by
  unfold listedBundles
  dsimp only
  split
  · exact Work.looks_pure _
  · refine (Work.looks_askPlatform _).bind fun answer => ?_
    split <;> exact Work.looks_pure _

theorem looks_survey (passedOver? : PlatformFile → Option Nat) :
    Work.Looks (indexer.survey platform passedOver?) :=
  (indexer.looks_enumerate platform _ none).bind fun _ =>
    (Work.looks_onFiles _).bind fun _ =>
      (looks_readCandidates _ _).bind fun _ =>
        (looks_listedBundles platform _).bind fun _ => Work.looks_pure _

theorem pass_eq (place : Workplace σ) :
    indexer.pass platform place =
      (do
        let survey ← indexer.survey platform (indexer.passedOver? place.catalog.store)
        indexer.conclude survey).run.run place := by
  unfold pass run survey conclude
  simp only [bind_assoc, pure_bind]
  have hcatalog := (indexer.looks_enumerate platform indexer.settings.maxPages none).catalog place
  cases hrun : (indexer.enumerate platform indexer.settings.maxPages none).run.run place with
  | mk answer between =>
      rw [hrun] at hcatalog
      cases answer with
      | error fault => rw [run_bind_of_error hrun, run_bind_of_error hrun]
      | ok listed =>
          have hget : (get : Work σ (Workplace σ)).run.run between = (.ok between, between) := rfl
          rw [run_bind_of_ok hrun, run_bind_of_ok hrun, run_bind_of_ok hget, ← hcatalog]

/-- A pass that looks in vain leaves the catalog alone; any other turns to it with what it sees. -/
theorem pass_cases (place : Workplace σ) :
    (∃ fault after, indexer.pass platform place = (.error fault, after) ∧
      after.catalog = place.catalog) ∨
    ∃ survey between,
      (indexer.survey platform (indexer.passedOver? place.catalog.store)).run.run place =
        (.ok survey, between) ∧
      between.catalog = place.catalog ∧ between.limiter = place.limiter ∧
      indexer.pass platform place = (indexer.conclude survey).run.run between := by
  have hlooks := indexer.looks_survey platform (indexer.passedOver? place.catalog.store)
  have hcatalog := hlooks.catalog place
  have hlimiter := hlooks.limiter place
  rw [indexer.pass_eq]
  cases hrun : (indexer.survey platform (indexer.passedOver? place.catalog.store)).run.run place with
  | mk answer between =>
      rw [hrun] at hcatalog hlimiter
      cases answer with
      | error fault => exact Or.inl ⟨fault, between, run_bind_of_error hrun, hcatalog⟩
      | ok survey =>
          exact Or.inr ⟨survey, between, rfl, hcatalog, hlimiter, run_bind_of_ok hrun⟩

theorem survey_eq_sees {passedOver? : PlatformFile → Option Nat} (place : Workplace σ)
    (hnone : ∀ file, passedOver? file = none) :
    ((indexer.survey platform passedOver?).run.run place).1 =
      indexer.sees platform place.files place.memory := by
  obtain rfl : passedOver? = fun _ => none := funext hnone
  have hbare : place.files = (Workplace.bare place.files place.memory).files := rfl
  exact ((indexer.looks_survey platform _).alike hbare rfl).1

/-! ## Reading downloads -/

/-- Whether every one of some downloads was read, be it as a candidate or not. -/
def AllRead (downloads : List (PlatformFile × Except Fault ByteArray)) : Prop :=
  ∀ download ∈ downloads, ∃ found, readDownload download.2 = .ok found

/-- Reading downloads gives the candidates in them; all others are counted in the report and in what
is told of the pass. -/
theorem run_readCandidates (report : BatchReport)
    (downloads : List (PlatformFile × Except Fault ByteArray)) (place : Workplace σ) :
    (readCandidates report downloads).run.run place =
      (.ok (downloads.filterMap Candidate.ofDownload?, report.withDownloads downloads),
        { place with progress := place.progress.withDownloads downloads }) := by
  induction downloads generalizing report place with
  | nil =>
      have hreport : report.withDownloads [] = report := by simp [BatchReport.withDownloads]
      have hprogress : place.progress.withDownloads [] = place.progress := by
        simp [Progress.withDownloads]
      rw [hreport, hprogress]
      rfl
  | cons download rest ih =>
      obtain ⟨file, content⟩ := download
      rw [BatchReport.withDownloads_cons, Progress.withDownloads_cons]
      unfold readCandidates
      cases hread : readDownload content with
      | ok found =>
          have hread' : FailedItem.ofDownload? (file, content) = none := by
            simp [FailedItem.ofDownload?, hread]
          cases found with
          | some tree =>
              have hcandidate : Candidate.ofDownload? (file, content) =
                  some (.ofTree tree (some file.link)) := by simp [Candidate.ofDownload?, hread]
              have hreport : report.withDownloads [(file, content)] = report := by
                simp [BatchReport.withDownloads, hread', isNotMod, hread]
              have hprogress : place.progress.withDownloads [(file, content)] = place.progress := by
                simp [Progress.withDownloads, hread', isNotMod, hread]
              dsimp only
              rw [run_bind_of_ok (ih report place), hreport, hprogress,
                List.filterMap_cons_some hcandidate]
              rfl
          | none =>
              have htell : (Work.tell (·.markSkipped) : Work σ Unit).run.run place =
                  (.ok (), { place with progress := place.progress.markSkipped }) := rfl
              have hcandidate : Candidate.ofDownload? (file, content) = none := by
                simp [Candidate.ofDownload?, hread]
              have hreport : report.withDownloads [(file, content)] =
                  { report with notMods := report.notMods + 1 } := by
                simp [BatchReport.withDownloads, hread', isNotMod, hread]
              have hprogress : place.progress.withDownloads [(file, content)] =
                  place.progress.markSkipped := by
                simp [Progress.withDownloads, Progress.markSkipped, hread', isNotMod, hread]
              dsimp only
              rw [run_bind_of_ok htell, ih, hreport, hprogress, List.filterMap_cons_none hcandidate]
      | error fault =>
          let item : FailedItem := ⟨file.fileName ++ " (" ++ file.link.text ++ ")", fault⟩
          have hfail : (fail item.item fault : Work σ FailedItem).run.run place =
              (.ok item, { place with progress := place.progress.raise item.item fault }) := rfl
          have hcandidate : Candidate.ofDownload? (file, content) = none := by
            simp [Candidate.ofDownload?, hread]
          have hitem : FailedItem.ofDownload? (file, content) = some item := by
            simp [FailedItem.ofDownload?, hread, item]
          have hreport : report.withDownloads [(file, content)] =
              { report with
                downloadsFailed := report.downloadsFailed + if fault.isDownload then 1 else 0
                failed := report.failed ++ [item] } := by
            simp [BatchReport.withDownloads, hitem, isNotMod, hread, List.countP_cons, item]
          have hprogress : place.progress.withDownloads [(file, content)] =
              place.progress.raise item.item fault := by
            simp [Progress.withDownloads, Progress.raise, hitem, isNotMod, hread, item]
          dsimp only
          rw [run_bind_of_ok hfail, ih, hreport, hprogress, List.filterMap_cons_none hcandidate]

/-- If no download is reported as failed, all were read. -/
theorem allRead_of_unread_eq_nil {downloads : List (PlatformFile × Except Fault ByteArray)}
    (hnone : downloads.filterMap FailedItem.ofDownload? = []) : AllRead downloads := by
  intro download hmem
  have hfine := List.filterMap_eq_nil_iff.mp hnone download hmem
  unfold FailedItem.ofDownload? at hfine
  cases hfound : readDownload download.2 with
  | ok found => exact ⟨found, rfl⟩
  | error fault =>
      rw [hfound] at hfine
      cases hfine

section Keeping

variable {β : Type} (part : Workplace σ → β)
  (hmemory : ∀ place memory, part { place with memory := memory } = part place)

include hmemory

theorem keeps_enumerate (limit : Nat) (token : Option String) :
    Work.Keeps part (indexer.enumerate platform limit token) := by
  induction limit generalizing token with
  | zero => exact Work.keeps_pure _
  | succ limit ih =>
      refine (Work.keeps_askPlatform hmemory _).bind fun page => ?_
      split
      · exact Work.keeps_pure _
      · exact (ih _).bind fun _ => Work.keeps_pure _

theorem keeps_listedBundles (candidates : List Candidate) :
    Work.Keeps part (listedBundles platform candidates) := by
  unfold listedBundles
  dsimp only
  split
  · exact Work.keeps_pure _
  · refine (Work.keeps_askPlatform hmemory _).bind fun answer => ?_
    split <;> exact Work.keeps_pure _

end Keeping

/-- The steps of a survey: files are listed, those that are not passed over are downloaded and read,
and what they bundle is looked up. -/
theorem survey_steps {passedOver? : PlatformFile → Option Nat} {place after : Workplace σ}
    {survey : Survey}
    (h : (indexer.survey platform passedOver?).run.run place = (.ok survey, after)) :
    ∃ files count memory downloads listed,
      indexer.pages platform place.files place.memory = .ok (files, count, survey.truncated) ∧
      survey.passed = files.filterMap passedOver? ∧
      downloads = ((DownloadCache.fetchAll
        ⟨indexer.settings.cacheDirectory, indexer.settings.keepsCaches⟩ platform
        (files.filter fun file => (passedOver? file).isNone)).run (place.files, memory)).1 ∧
      survey.read = downloads.filterMap Candidate.ofDownload? ∧
      survey.expanded = expand survey.read listed ∧
      survey.report = { BatchReport.start platform.name indexer.settings.gameVersion with
        pages := count, truncated := survey.truncated
        filesSeen := files.length, alreadySeen := survey.passed.length }.withDownloads downloads ∧
      after.progress = place.progress.withDownloads downloads := by
  obtain ⟨⟨files, count, truncated⟩, listedAt, hlisted, h⟩ := steps_of_run_bind h
  dsimp only at h
  obtain ⟨downloads, fetchedAt, hfetched, h⟩ := steps_of_run_bind h
  obtain ⟨⟨read, report⟩, readAt, hread, h⟩ := steps_of_run_bind h
  dsimp only at h
  obtain ⟨listed, last, hbundles, h⟩ := steps_of_run_bind h
  cases h
  have hpages : indexer.pages platform place.files place.memory = .ok (files, count, truncated) := by
    have hlooks := indexer.looks_enumerate platform indexer.settings.maxPages none
    have hbare : (Workplace.bare place.files place.memory).files = place.files := rfl
    have halike := (hlooks.alike hbare rfl).1
    rw [hlisted] at halike
    exact halike
  have hfiles : listedAt.files = place.files := by
    have hkept := indexer.keeps_enumerate platform Workplace.files (fun _ _ => rfl)
      indexer.settings.maxPages none place
    rwa [hlisted] at hkept
  have hdownloads := Work.run_onFiles_eq_ok hfetched
  rw [hfiles] at hdownloads
  -- Nothing is told of a pass while it lists, fetches and looks up.
  have hprogress : fetchedAt.progress = place.progress := by
    have hkept := indexer.keeps_enumerate platform Workplace.progress (fun _ _ => rfl)
      indexer.settings.maxPages none place
    rw [hlisted] at hkept
    cases congrArg Prod.snd hfetched
    exact hkept
  have htold : after.progress = readAt.progress := by
    have hkept := keeps_listedBundles platform Workplace.progress (fun _ _ => rfl) read readAt
    rwa [hbundles] at hkept
  rw [run_readCandidates] at hread
  cases hread
  refine ⟨files, count, listedAt.memory, downloads, listed, hpages, rfl, hdownloads, rfl, rfl,
    rfl, ?_⟩
  rw [htold, ← hprogress]

/-- What a survey consists of: the listed files, the downloads of those that are not passed over,
and the candidates in these. -/
theorem survey_spec {passedOver? : PlatformFile → Option Nat} {place after : Workplace σ}
    {survey : Survey}
    (h : (indexer.survey platform passedOver?).run.run place = (.ok survey, after)) :
    ∃ files count memory,
      indexer.pages platform place.files place.memory = .ok (files, count, survey.truncated) ∧
      survey.passed = files.filterMap passedOver? ∧
      let downloads := ((DownloadCache.fetchAll
        ⟨indexer.settings.cacheDirectory, indexer.settings.keepsCaches⟩ platform
        (files.filter fun file => (passedOver? file).isNone)).run (place.files, memory)).1
      survey.read = downloads.filterMap Candidate.ofDownload? ∧
      (survey.report.failed = [] → AllRead downloads) ∧
      (∃ listed, survey.expanded = expand survey.read listed) ∧
      survey.report.indexed = 0 ∧ survey.report.linked = 0 ∧ survey.report.skipped = 0 := by
  obtain ⟨files, count, memory, _, listed, hpages, hpassed, rfl, hread, hexpanded, hreport, _⟩ :=
    indexer.survey_steps platform h
  refine ⟨files, count, memory, hpages, hpassed, hread, ?_, ⟨listed, hexpanded⟩, ?_⟩
  · intro hnone
    rw [hreport] at hnone
    exact allRead_of_unread_eq_nil hnone
  · rw [hreport]
    exact ⟨rfl, rfl, rfl⟩

end Indexer

end ModCatalog
