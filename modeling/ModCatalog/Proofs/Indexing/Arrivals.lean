import ModCatalog.Proofs.Archive.Contents
import ModCatalog.Proofs.Artifact.Mentions
import ModCatalog.Proofs.Indexing.Paging
import ModCatalog.Proofs.Indexing.Passes
import ModCatalog.Proofs.Platform.Caching
import ModCatalog.Proofs.Resolution.Creation

/-!
# New files

A pass that finds a file for the first time gives it a mod, with the rows of all that is in its jar.
-/

namespace ModCatalog

open Resolving

namespace Indexer

variable {σ : Type} (indexer : Indexer) (platform : Platform σ)

/-- Where no batch is registered, a single candidate has its outcome. -/
theorem exists_processAll_single (candidate : Candidate) {place : Workplace σ}
    (halone : place.limiter.registered = []) :
    ∃ outcome after, (indexer.processAll [candidate]).run.run place = (.ok [outcome], after) ∧
      after.catalog = (indexer.attemptOn candidate).after place.catalog ∧
      outcome.Tells ((indexer.attemptOn candidate).run.exec place.catalog).1 := by
  obtain ⟨outcomes, after, hrun⟩ := indexer.exists_processAll [candidate] halone
  obtain ⟨entered, left, done, hmapM, rfl⟩ := indexer.mapM_of_processAll hrun
  obtain ⟨outcome, last, hprocess, hcatalog, -, htells⟩ :=
    indexer.process_tells candidate { place with limiter := entered }
  have hwaves : (waves [candidate]).flatten = [candidate] := rfl
  rw [hwaves, List.mapM_cons, run_bind_of_ok hprocess] at hmapM
  cases hmapM
  exact ⟨outcome, _, hrun, hcatalog, htells⟩

/-- A pass that sees nothing but a candidate that is new gives it a mod with all rows of its
content. -/
theorem pass_of_new {place : Workplace σ} {survey : Survey} {candidate : Candidate}
    {link : PlatformLink} {aggregate : Aggregate}
    (hnone : indexer.settings.cleanup = .full ∨ place.catalog.store = .empty)
    (hcatalog : place.catalog.Coherent) (halone : place.limiter.registered = [])
    (hsees : indexer.sees platform place.files place.memory = .ok survey)
    (hread : survey.report.failed = []) (hexpanded : survey.expanded = [candidate])
    (hnew : candidate.IsNew link place.catalog.store)
    (hgathered : indexer.gathered candidate.artifact = .ok aggregate) :
    ∃ report after, indexer.pass platform place = (.ok report, after) ∧ report.failed = [] ∧
      after.catalog.store.findByListing link.listing = some place.catalog.store.nextId ∧
      after.catalog.store.rowsOf place.catalog.store.nextId =
        ((indexer.attemptOn candidate).batch aggregate).rows := by
  obtain ⟨between, hbetween, hlimiter, hpass⟩ := indexer.pass_of_sees platform hnone hsees
  let told := { between with
    progress := between.progress.expect (survey.expanded.map Candidate.label) }
  have htold : told.catalog = place.catalog := hbetween
  have hfree : told.limiter.registered = [] := hlimiter ▸ halone
  obtain ⟨outcome, done, hprocess, hdone, htells⟩ :=
    indexer.exists_processAll_single candidate hfree
  obtain ⟨indexed, hrun, hlisted, hrows⟩ :=
    (indexer.attemptOn candidate).exec_run_of_new hcatalog hnew hgathered
  rw [htold] at hdone htells
  unfold Attempt.after at hdone
  rw [hrun] at hdone htells
  have hconcludes : Concludes outcome (.index place.catalog.store.nextId true) := htells
  obtain rfl : outcome = .indexed place.catalog.store.nextId := hconcludes.eq_outcomeOf
  rw [← hexpanded] at hprocess
  obtain ⟨report, after, hconclude, -, hend⟩ := indexer.ends_of_processAll hprocess
  refine ⟨report, after, hpass.trans hconclude, hend.failed_eq.trans hread, ?_⟩
  generalize after.catalog = catalog at hend ⊢
  rw [hdone] at hend
  cases hend with
  | keeps _ => exact ⟨hlisted, hrows⟩
  | sweeps _ _ _ =>
      -- The new mod is one of those that are present.
      refine ⟨hlisted, ?_⟩
      rw [Store.rowsOf_swept, if_pos, hrows]
      exact List.mem_append_right _ List.mem_cons_self

/-- What a pass sees on the only page of a platform if the files on it bundle nothing. -/
theorem sees_of_page {files : FileTree} {memory between : σ} {listed : List PlatformFile}
    {downloads : List (PlatformFile × Except Fault ByteArray)}
    (hpages : 0 < indexer.settings.maxPages)
    (hsearch : (platform.search files indexer.settings.gameVersion none).run memory =
      (.ok ⟨listed, none⟩, between))
    (hdownloads : ((DownloadCache.fetchAll
      ⟨indexer.settings.cacheDirectory, indexer.settings.keepsCaches⟩ platform listed).run
        (files, between)).1 = downloads)
    (hbundles : Expansion.bundledHashes (downloads.filterMap Candidate.ofDownload?) = []) :
    ∃ survey, indexer.sees platform files memory = .ok survey ∧ survey.truncated = false ∧
      survey.read = downloads.filterMap Candidate.ofDownload? ∧
      survey.expanded = expand survey.read .empty ∧
      survey.report.failed = downloads.filterMap FailedItem.ofDownload? := by
  obtain ⟨limit, hlimit⟩ := Nat.exists_eq_add_one_of_ne_zero (Nat.ne_of_gt hpages)
  let place : Workplace σ := { Workplace.bare files memory with memory := between }
  have hasked : (Work.askPlatform fun tree =>
      platform.search tree indexer.settings.gameVersion none).run.run (.bare files memory) =
        (.ok ⟨listed, none⟩, place) := by
    unfold Work.askPlatform
    exact congrArg (fun answer : Except Fault SearchPage × σ =>
      (answer.1, { Workplace.bare files memory with memory := answer.2 })) hsearch
  have hlisted : (indexer.enumerate platform indexer.settings.maxPages none).run.run
      (.bare files memory) = (.ok (listed, 1, false), place) := by
    rw [hlimit]
    unfold enumerate
    rw [run_bind_of_ok hasked]
    rfl
  -- Nothing is passed over, so all of the page is pending.
  have hpending : listed.filter (fun _ => (none : Option Nat).isNone) = listed :=
    List.filter_eq_self.mpr fun _ _ => rfl
  let report := { BatchReport.start platform.name indexer.settings.gameVersion with
    pages := 1, filesSeen := listed.length }
  refine ⟨⟨[], false, downloads.filterMap Candidate.ofDownload?,
    expand (downloads.filterMap Candidate.ofDownload?) .empty, report.withDownloads downloads⟩, ?_,
    rfl, rfl, rfl, ?_⟩
  · unfold sees survey
    rw [run_bind_of_ok hlisted]
    dsimp only
    rw [hpending, List.filterMap_none]
    have hfetched : (Work.onFiles (DownloadCache.fetchAll
        ⟨indexer.settings.cacheDirectory, indexer.settings.keepsCaches⟩ platform listed)).run.run
          place = (.ok downloads, _) :=
      congrArg (·, _) (congrArg Except.ok hdownloads)
    have hnothing : ∀ place : Workplace σ, (listedBundles platform
        (downloads.filterMap Candidate.ofDownload?)).run.run place = (.ok .empty, place) := by
      intro place
      unfold listedBundles
      rw [hbundles]
      rfl
    rw [run_bind_of_ok hfetched, run_bind_of_ok (run_readCandidates _ _ _)]
    dsimp only
    rw [run_bind_of_ok (hnothing _)]
    rfl
  · simp [BatchReport.withDownloads, report, BatchReport.start]

end Indexer

/-! ## Jars without classes -/

theorem Archive.indexClasses_of_none {jar : Archive} {options : ClassFile.IndexOptions}
    (hentries : ∀ entry ∈ jar.entries, (∃ opened, jar.openEntry entry = .ok opened) ∧
      isIndexable entry.name = false) :
    jar.indexClasses options = .ok [] := by
  have hnone : ∀ entry ∈ jar.entries, indexEntry options jar entry = pure none := by
    intro entry hentry
    obtain ⟨⟨opened, hopened⟩, hname⟩ := hentries entry hentry
    unfold indexEntry
    rw [hopened, ok_bind, hname, Bool.not_false, Bool.or_true]
    rfl
  unfold indexClasses
  rw [mapM_congr hnone, List.mapM_pure, pure_bind]
  exact congrArg Except.ok (by simp)

/-- The rows of a jar without classes that a description in JSON describes are its tags. -/
theorem Indexer.gathered_of_loader {indexer : Indexer} {loader : LoaderDescription}
    {coordinate : Option String} {content : ByteArray} {jar : Archive} {tags : List TagFile}
    (hjar : Archive.ofBytes content = .ok jar)
    (hclasses : jar.indexClasses indexer.options = .ok [])
    (hsanitized : indexer.sanitizer.sanitize [] = .ok []) (htags : jar.tags = .ok tags) :
    indexer.gathered (.ofLoader loader coordinate content) = .ok (Aggregate.empty.addTags tags) := by
  have hpayload : (Artifact.ofLoader loader coordinate content).payload = content := rfl
  unfold gathered Artifact.tags
  rw [hpayload, hjar]
  simp only [ok_bind, hclasses, hsanitized, htags]
  rfl

/-! ## A directory with one jar -/

namespace OneJar

/-- An archive whose only entry, stored as it is, describes a mod `a`. -/
def jar : ByteArray :=
  ⟨#[80, 75, 3, 4, 20, 0, 0, 0, 0, 0, 0, 0, 33, 0, 112, 86, 12, 141, 24, 0, 0, 0, 24, 0, 0, 0,
    15, 0, 0, 0, 102, 97, 98, 114, 105, 99, 46, 109, 111, 100, 46, 106, 115, 111, 110, 123, 34,
    105, 100, 34, 58, 34, 97, 34, 44, 34, 118, 101, 114, 115, 105, 111, 110, 34, 58, 34, 49, 34,
    125, 80, 75, 1, 2, 20, 3, 20, 0, 0, 0, 0, 0, 0, 0, 33, 0, 112, 86, 12, 141, 24, 0, 0, 0, 24,
    0, 0, 0, 15, 0, 0, 0, 0, 0, 0, 0, 0, 0, 0, 0, 128, 1, 0, 0, 0, 0, 102, 97, 98, 114, 105, 99,
    46, 109, 111, 100, 46, 106, 115, 111, 110, 80, 75, 5, 6, 0, 0, 0, 0, 1, 0, 1, 0, 61, 0, 0, 0,
    69, 0, 0, 0, 0, 0]⟩

def link : PlatformLink := ⟨"local", 1, 10⟩

/-- A listed candidate with certain bytes, for a content without a description. -/
def candidate (payload : ByteArray) (hash : String) (link : PlatformLink) : Candidate where
  artifact := ⟨"a", ⟨"1"⟩, none, hash, [], .mod, none, [], payload⟩
  bundled := []
  link := some link
  extraCoordinate := none

def platform : LocalPlatform := ⟨link.platform, "/p", LocalPlatform.defaultPageSize⟩

def indexer (mode : CleanupMode) : Indexer :=
  ⟨{ BatchSettings.ofVersion "/c" "" with cleanup := mode }, .standard, .standard, 0⟩

/-- The directory with certain bytes as its only file. -/
def holding (content : ByteArray) : FileTree :=
  ⟨[], .ofList [(["p"], .directory), (["p", "1"], .directory),
    (["p", "1", "10.jar"], .file content)]⟩

def tree : FileTree := holding jar

def listed : ListedJar := ⟨1, 10, ["/", "p", "1", "10.jar"]⟩

/-- What is remembered where certain jars are listed already. -/
def remembering (jars : List ListedJar) : ListingMemory := ⟨.ofList [(Path.parts "/p", jars)], none⟩

/-- The directory with its only file. -/
def stockedWith (content : ByteArray) (catalog : Catalog) : Workplace ListingMemory :=
  { Workplace.bare (holding content) (remembering [listed]) with catalog }

/-- The directory with the jar. -/
def stocked (catalog : Catalog) : Workplace ListingMemory := stockedWith jar catalog

/-- The directory without the jar. -/
def vacant (catalog : Catalog) : Workplace ListingMemory :=
  { Workplace.bare ⟨[], .ofList [(["p"], .directory)]⟩ (remembering []) with catalog }

/-! ### Any file -/

/-- The file as the directory describes it. -/
def file (content : ByteArray) : PlatformFile := ⟨link, "10.jar", contentHash content, content.size⟩

/-- What is listed already is on one page. -/
theorem search_remembered {tree : FileTree} {jars : List ListedJar} {files : List PlatformFile}
    (hleads : tree.leadsToDirectory platform.root = true)
    (hdescribed : jars.mapM (platform.describe tree) = .ok files)
    (hlength : files.length ≤ platform.pageLength) :
    (platform.toPlatform.search tree "" none).run (remembering jars) =
      (.ok ⟨files, none⟩, remembering jars) := by
  have hdirectory : platform.versionDirectory tree "" = platform.root := rfl
  have hpage : platform.page tree jars 0 = .ok ⟨files, none⟩ := by
    rw [LocalPlatform.page_eq hdescribed (by decide), LocalPlatform.pageFrom,
      List.drop_zero, List.take_of_length_le hlength, Nat.zero_add,
      if_neg (Nat.not_lt.mpr hlength)]
  unfold LocalPlatform.toPlatform LocalPlatform.search
  dsimp only
  rw [hdirectory, hleads]
  exact congrArg (·, _) hpage

section

variable (content : ByteArray)

theorem content_holding : LocalPlatform.content (holding content) listed = .ok content := rfl

theorem describe_holding : platform.describe (holding content) listed = .ok (file content) := by
  unfold LocalPlatform.describe
  rw [content_holding]
  rfl

theorem search_holding :
    (platform.toPlatform.search (holding content) "" none).run (remembering [listed]) =
      (.ok ⟨[file content], none⟩, remembering [listed]) := by
  have hdescribed : [listed].mapM (platform.describe (holding content)) = .ok [file content] := by
    rw [List.mapM_cons, describe_holding]
    rfl
  exact search_remembered rfl hdescribed platform.pageLength_pos

theorem download_holding : ((platform.toPlatform.download (holding content) (file content)).run
    (remembering [listed])).1 = .ok content := rfl

/-- Nothing is kept for the file, so it is downloaded. -/
theorem fetchAll_holding (keeps : Bool) :
    (((DownloadCache.mk "/c" keeps).fetchAll platform.toPlatform [file content]).run
      (holding content, remembering [listed])).1 = [(file content, .ok content)] := by
  have hpath : (DownloadCache.mk "/c" keeps).pathText (file content) = "/c/local/10.jar" := by
    have htext : Path.joinText (Path.joinText "/c" link.platform)
        (toString link.fileId ++ ".jar") = "/c/local/10.jar" := rfl
    exact htext
  have hunread : ∀ kept, (holding content).read
      ((DownloadCache.mk "/c" keeps).pathText (file content)) ≠ .ok kept := by
    intro kept
    rw [hpath]
    nofun
  have hgenuine : DownloadCache.isGenuine (file content) content :=
    DownloadCache.isGenuine_of_hash rfl
  rw [DownloadCache.fetchAll_single, DownloadCache.fetch_of_unread hunread,
    DownloadCache.checked_of_isGenuine (download_holding content) hgenuine]

end

/-- A first pass over the directory with a jar of its own that bundles nothing, in any mode. -/
theorem exists_pass_of_opens (mode : CleanupMode) {content : ByteArray} {archive : Archive}
    {loader : LoaderDescription} {aggregate : Aggregate}
    (hopens : Artifact.Opens content none none archive (.ofLoader loader none content)
      (some loader) [])
    (hgathered : (indexer mode).gathered (.ofLoader loader none content) = .ok aggregate) :
    ∃ survey candidate report after,
      (indexer mode).sees platform.toPlatform (holding content) (remembering [listed]) =
        .ok survey ∧
      survey.read = [candidate] ∧ survey.expanded = [candidate] ∧ candidate.link = some link ∧
      (indexer mode).pass platform.toPlatform (stockedWith content .empty) = (.ok report, after) ∧
      report.failed = [] ∧
      after.catalog.store.findByListing link.listing = some 1 ∧
      after.catalog.store.rowsOf 1 =
        (((indexer mode).attemptOn candidate).batch aggregate).rows := by
  let root := Artifact.ofLoader loader none content
  let found : Candidate := .ofTree (.node root []) (some link)
  have hread : Indexer.readDownload (.ok content) = .ok (some (.node root [])) :=
    hopens.readLevels_of_nil Artifact.maxNesting
  have hfound : Candidate.ofDownload? (file content, .ok content) = some found := by
    unfold Candidate.ofDownload?
    rw [hread]
    rfl
  have hfine : FailedItem.ofDownload? (file content, .ok content) = none := by
    unfold FailedItem.ofDownload?
    rw [hread]
  have hcandidates : [(file content, .ok content)].filterMap Candidate.ofDownload? = [found] := by
    rw [List.filterMap_cons_some hfound, List.filterMap_nil]
  obtain ⟨survey, hsees, -, hseen, hexpanded, hfailed⟩ :=
    (indexer mode).sees_of_page platform.toPlatform (Nat.succ_pos _) (search_holding content)
      (fetchAll_holding content _) (by rw [hcandidates]; rfl)
  rw [hcandidates] at hseen
  rw [hseen] at hexpanded
  have hnew : found.IsNew link Store.empty := {
    linked := rfl
    uncoordinated := rfl
    unlearned := rfl
    unknown := Store.findByHash_empty (Store.checkWrite_contentHash content)
    unlisted := rfl
    content := Store.checkWrite_contentHash content
    listing := by decide
    file := by decide }
  have hvacant : (stockedWith content .empty).catalog.store = .empty := rfl
  have hnothing : survey.report.failed = [] := hfailed.trans (List.filterMap_cons_none hfine)
  obtain ⟨report, after, hpass, hpassed, hlisted, hrows⟩ :=
    (indexer mode).pass_of_new platform.toPlatform (Or.inr hvacant) .empty rfl hsees hnothing
      hexpanded hnew hgathered
  exact ⟨survey, found, report, after, hsees, hseen, hexpanded, rfl, hpass, hpassed, hlisted, hrows⟩

/-! ### The jar -/

def describing : ArchiveEntry := ⟨Artifact.loaderPath, 0, false, false, 2366396016, 24, 0⟩

/-- The description of the mod `a`. -/
def description : List UInt8 :=
  [123, 34, 105, 100, 34, 58, 34, 97, 34, 44, 34, 118, 101, 114, 115, 105, 111, 110, 34, 58, 34,
   49, 34, 125]

def archive : Archive := ⟨jar, [describing]⟩

section

set_option maxRecDepth 10000

/-- The jar has its one entry, stored as it is with its checksum, and no tags. -/
theorem contents :
    (Archive.ofBytes jar).toOption.map Archive.entries = some [describing] ∧
      archive.openEntry describing = .ok ⟨description.toArray⟩ ∧
      Archive.Crc32.ofList description = describing.checksum ∧ archive.tags = .ok [] := by
  decide +kernel

theorem exists_loader : ∃ loader,
    LoaderDescription.ofContent? ⟨description.toArray⟩ = some loader ∧ loader.id = "a" ∧
      loader.jars = [] := by
  have hfound : (LoaderDescription.ofContent? ⟨description.toArray⟩).map
      (fun loader => (loader.id, loader.jars)) = some ("a", []) := by decide +kernel
  obtain ⟨loader, hloader, habout⟩ := Option.map_eq_some_iff.mp hfound
  obtain ⟨hid, hjars⟩ := Prod.mk.inj habout
  exact ⟨loader, hloader, hid, hjars⟩

end

theorem ofBytes_jar : Archive.ofBytes jar = .ok archive := Archive.ofBytes_eq_ok contents.1

theorem read_describing : archive.read Artifact.loaderPath = .ok (some ⟨description.toArray⟩) :=
  Archive.read_of_find?_some describing (by decide) contents.2.1 rfl contents.2.2.1

theorem opens_jar {loader : LoaderDescription}
    (hloader : LoaderDescription.ofContent? ⟨description.toArray⟩ = some loader)
    (hjars : loader.jars = []) (coordinate fallback : Option String) :
    Artifact.Opens jar coordinate fallback archive (.ofLoader loader coordinate jar) (some loader)
      [] := by
  have hopens := Artifact.opens_of_loader ofBytes_jar (Archive.read_of_find?_none (by decide))
    (Archive.read_of_find?_none (by decide))
    (fun path hpath => Archive.read_of_find?_none (by revert path; decide))
    read_describing hloader coordinate fallback
  rwa [hjars, List.map_nil] at hopens

theorem indexClasses_archive (options : ClassFile.IndexOptions) :
    archive.indexClasses options = .ok [] := by
  refine Archive.indexClasses_of_none fun entry hentry => ?_
  rw [List.mem_singleton.mp hentry]
  exact ⟨⟨_, contents.2.1⟩, by decide⟩

/-- A first pass over the directory with its jar, in any mode. -/
theorem exists_pass (mode : CleanupMode) : ∃ survey candidate report after,
    (indexer mode).sees platform.toPlatform (stocked .empty).files (stocked .empty).memory =
        .ok survey ∧
      survey.read = [candidate] ∧ survey.expanded = [candidate] ∧ candidate.link = some link ∧
      (indexer mode).pass platform.toPlatform (stocked .empty) = (.ok report, after) ∧
      report.failed = [] := by
  obtain ⟨loader, hloader, -, hjars⟩ := exists_loader
  obtain ⟨survey, candidate, report, after, hsees, hread, hexpanded, hlink, hpass, hfine, -⟩ :=
    exists_pass_of_opens mode (opens_jar hloader hjars none none)
      (Indexer.gathered_of_loader ofBytes_jar (indexClasses_archive _) rfl contents.2.2.2)
  exact ⟨survey, candidate, report, after, hsees, hread, hexpanded, hlink, hpass, hfine⟩

/-- What a pass sees in the directory without the jar. -/
theorem sees_vacant (mode : CleanupMode) (catalog : Catalog) : ∃ survey,
    (indexer mode).sees platform.toPlatform (vacant catalog).files (vacant catalog).memory =
        .ok survey ∧
      survey.truncated = false ∧ survey.expanded = [] ∧ survey.report.failed = [] := by
  have hsearch : (platform.toPlatform.search (vacant catalog).files "" none).run
      (vacant catalog).memory = (.ok ⟨[], none⟩, (vacant catalog).memory) :=
    search_remembered rfl rfl (Nat.zero_le _)
  have hnone : ((DownloadCache.fetchAll ⟨(indexer mode).settings.cacheDirectory,
      (indexer mode).settings.keepsCaches⟩ platform.toPlatform []).run
        ((vacant catalog).files, (vacant catalog).memory)).1 = [] := rfl
  obtain ⟨survey, hsees, hcomplete, hread, hexpanded, hfailed⟩ :=
    (indexer mode).sees_of_page platform.toPlatform (Nat.succ_pos _) hsearch hnone rfl
  rw [hread] at hexpanded
  exact ⟨survey, hsees, hcomplete, hexpanded, hfailed⟩

end OneJar

end ModCatalog
