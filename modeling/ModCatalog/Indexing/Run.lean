import ModCatalog.Download
import ModCatalog.Indexing.Batch
import ModCatalog.Limiter
import ModCatalog.Progress
import ModCatalog.Resolution
import ModCatalog.Sanitizer

/-!
# Running a batch

One pass over a platform: find the files, download and read those that are new, take out what they
bundle, find the mod of every candidate, and write the rows of those whose content is new.  A
candidate that fails is reported and stops no other one.
-/

namespace ModCatalog

/-- How a pass is done. -/
structure Indexer where
  settings : BatchSettings
  sanitizer : Sanitizer
  options : ClassFile.IndexOptions
  /-- The time of the pass in seconds. -/
  now : Nat

/-- What a pass works on; `σ` is what the platform remembers. -/
structure Workplace (σ : Type) where
  catalog : Catalog
  files : FileTree
  memory : σ
  limiter : Limiter
  progress : Progress

/-- A step of a pass: a fault ends it, and what it has changed before stays. -/
abbrev Work (σ α : Type) := ExceptT Fault (StateM (Workplace σ)) α

namespace Work

variable {σ α : Type}

def onCatalog (step : Resolving α) : Work σ α :=
  ExceptT.mk fun place =>
    let (answer, catalog) := step.run.run place.catalog
    (answer, { place with catalog := catalog })

def onFiles (step : StateM (FileTree × σ) α) : Work σ α :=
  ExceptT.mk fun place =>
    let (answer, files, memory) := step.run (place.files, place.memory)
    (.ok answer, { place with files := files, memory := memory })

def askPlatform (question : FileTree → StateM σ (Except Fault α)) : Work σ α :=
  ExceptT.mk fun place =>
    let (answer, memory) := (question place.files).run place.memory
    (answer, { place with memory := memory })

/-- Tell how the pass is going. -/
def tell (event : Progress → Progress) : Work σ Unit :=
  modify fun place => { place with progress := event place.progress }

/-- Give up with a fault, or go on with a value. -/
def ofExcept (value : Except Fault α) : Work σ α := ExceptT.mk fun place => (value, place)

end Work

/-- Candidates without the ones whose content occurs earlier, and those. -/
def splitRepeated (seen : List String) : List Candidate → List Candidate × List Candidate
  | [] => ([], [])
  | candidate :: rest =>
      let hash := candidate.artifact.contentHash
      if seen.contains hash then
        let (first, later) := splitRepeated seen rest
        (first, candidate :: later)
      else
        let (first, later) := splitRepeated (hash :: seen) rest
        (candidate :: first, later)

/-- The first candidates of every content, then all others, which will find their content stored. -/
def waves (candidates : List Candidate) : List (List Candidate) :=
  let (first, later) := splitRepeated [] candidates
  [first, later].filter fun wave => !wave.isEmpty

namespace Indexer

variable {σ : Type}

/-- The files on at most `limit` pages, the number of pages, and whether pages are left. -/
def enumerate (indexer : Indexer) (platform : Platform σ) :
    (limit : Nat) → (token : Option String) → Work σ (List PlatformFile × Nat × Bool)
  | 0, token => return ([], 0, token.isSome)
  | limit + 1, token => do
      let page ← Work.askPlatform fun tree =>
        platform.search tree indexer.settings.gameVersion token
      match page.next with
      | none => return (page.files, 1, false)
      | some next =>
          let (files, pages, truncated) ← enumerate indexer platform limit (some next)
          return (page.files ++ files, pages + 1, truncated)

/-- The owner of a file that is passed over because an earlier pass has dealt with it. -/
def passedOver? (indexer : Indexer) (store : Store) (file : PlatformFile) : Option Nat :=
  match indexer.settings.cleanup with
  | .incremental => store.seenFileOwner file.link.file
  | .full => none

def fail (item : String) (fault : Fault) : Work σ FailedItem := do
  Work.tell (·.raise item fault)
  return ⟨item, fault⟩

def readDownload (content : Except Fault ByteArray) : Except Fault (Option ArtifactTree) := do
  Artifact.read (← content) none none

/-- The candidates in downloads, and the report of the others. -/
def readCandidates (report : BatchReport) :
    List (PlatformFile × Except Fault ByteArray) → Work σ (List Candidate × BatchReport)
  | [] => return ([], report)
  | (file, content) :: rest => do
      match readDownload content with
      | .ok (some tree) =>
          let (candidates, report) ← readCandidates report rest
          return (.ofTree tree (some file.link) :: candidates, report)
      | .ok none =>
          Work.tell (·.markSkipped)
          readCandidates { report with notMods := report.notMods + 1 } rest
      | .error fault =>
          let item ← fail (file.fileName ++ " (" ++ file.link.text ++ ")") fault
          let downloads := report.downloadsFailed + if fault.isDownload then 1 else 0
          readCandidates { report with
            downloadsFailed := downloads
            failed := report.failed ++ [item] } rest

/-- The listings of bundled contents; there are none if the platform does not answer. -/
def listedBundles (platform : Platform σ) (candidates : List Candidate) :
    Work σ (Table String PlatformLink) := do
  let hashes := Expansion.bundledHashes candidates
  if hashes.isEmpty then return .empty
  let answer ← Work.askPlatform fun tree => do
    return .ok (← platform.filesByHash tree hashes)
  match answer with
  | .ok files => return .ofList (files.map fun file => (file.hash, file.link))
  | .error _ => return .empty

/-- All rows of the content of a candidate. -/
def aggregate (indexer : Indexer) (artifact : Artifact) : Work σ Aggregate := do
  let classes ← Work.ofExcept do
    let jar ← Archive.ofBytes artifact.payload
    indexer.sanitizer.sanitize (← jar.indexClasses indexer.options)
  Work.tell (·.markIndexed)
  let tags ← Work.ofExcept artifact.tags
  let extensions ← Work.ofExcept artifact.enumExtensions
  return ((Aggregate.empty.addClasses classes).addTags tags).addEnumExtensions extensions

/-- Write the rows of a candidate for its mod. -/
def indexFor (indexer : Indexer) (candidate : Candidate) (id : Nat) : Work σ Unit := do
  let artifact := candidate.artifact
  let aggregate ← indexer.aggregate artifact
  Work.onCatalog (Resolving.commitBatch artifact.contentHash id
    (aggregate.toBatch (some artifact.contentHash) (some artifact.summary) indexer.now))
  Work.onCatalog (Resolving.markSeen id candidate.link)
  Work.tell (·.markStored)

/-- Find the mod of a candidate and write its rows if they are new. -/
def attempt (indexer : Indexer) (candidate : Candidate) : Work σ Outcome := do
  match ← Work.onCatalog (Resolving.resolve candidate) with
  | .known id =>
      Work.tell (·.markSkipped)
      return .linked id
  | .outdated id =>
      Work.tell (·.markSkipped)
      return .skipped (some id)
  | .unindexable =>
      Work.tell (·.markSkipped)
      return .skipped none
  | .index id _ =>
      indexer.indexFor candidate id
      return .indexed id

/-- What becomes of a candidate; a fault is reported. -/
def process (indexer : Indexer) (candidate : Candidate) : Work σ Outcome :=
  tryCatch (indexer.attempt candidate) fun fault => do
    return .failed (← fail candidate.label fault)

/--
What becomes of candidates, wave after wave. The candidates of a wave may be processed at the same
time; here they are processed one after another, in their order, which is one way of many.
-/
def processAll (indexer : Indexer) (candidates : List Candidate) : Work σ (List Outcome) := do
  if candidates.isEmpty then return []
  let (gate, limiter) ← Work.ofExcept ((← get).limiter.enter candidates.length)
  modify fun place => { place with limiter := limiter }
  let outcomes ← (waves candidates).flatten.mapM indexer.process
  let limiter ← Work.ofExcept ((← get).limiter.drop gate)
  modify fun place => { place with limiter := limiter }
  return outcomes

/-- One pass over a platform. -/
def run (indexer : Indexer) (platform : Platform σ) : Work σ BatchReport := do
  let settings := indexer.settings
  let (files, pages, truncated) ← indexer.enumerate platform settings.maxPages none
  let store := (← get).catalog.store
  let passed := files.filterMap (indexer.passedOver? store)
  let pending := files.filter fun file => (indexer.passedOver? store file).isNone
  let report := { BatchReport.start platform.name settings.gameVersion with
    pages := pages, truncated := truncated
    filesSeen := files.length, alreadySeen := passed.length }
  let cache : DownloadCache := ⟨settings.cacheDirectory, settings.keepsCaches⟩
  let downloads ← Work.onFiles (cache.fetchAll platform pending)
  let (candidates, report) ← readCandidates report downloads
  let candidates := expand candidates (← listedBundles platform candidates)
  Work.tell (·.expect (candidates.map Candidate.label))
  let outcomes ← indexer.processAll candidates
  let report := outcomes.foldl Outcome.addTo { report with candidates := candidates.length }
  let present := passed ++ outcomes.filterMap Outcome.modId?
  let incomplete := truncated || !report.failed.isEmpty
  let purged ← Work.onCatalog (Resolving.transact (.cleanup present settings.cleanup incomplete))
  return { report with purged := purged }

end Indexer

end ModCatalog
