import ModCatalog.Proofs.Files.Contents
import ModCatalog.Proofs.Indexing.Idempotence
import ModCatalog.Proofs.Platform.Listings

/-!
# Incremental passes over the same files

An incremental pass passes over the files that were seen.  After a pass in which nothing failed
these are the files that an expanded candidate carries, which need not be all: a bundled copy that
takes a file over brings its own listing.
-/

namespace ModCatalog

open Resolving

/-! ## What a directory lists -/

namespace DownloadCache

/-- Two contents that are genuine for one file have the same hash. -/
theorem sameHash_of_isGenuine {file : PlatformFile} (hhash : file.hash.isEmpty = false)
    {first second : ByteArray} (hfirst : isGenuine file first) (hsecond : isGenuine file second) :
    sameHash (contentHash first) (contentHash second) := by
  unfold isGenuine at hfirst hsecond
  rw [hhash, Bool.false_or] at hfirst hsecond
  unfold sameHash at hfirst hsecond ⊢
  rw [decide_eq_true_iff] at hfirst hsecond ⊢
  exact hfirst.trans hsecond.symm

end DownloadCache

namespace LocalPlatform

variable (platform : LocalPlatform)

theorem hash_of_describe {tree : FileTree} {jar : ListedJar} {file : PlatformFile}
    (h : platform.describe tree jar = .ok file) : file.hash.isEmpty = false := by
  obtain ⟨content, _, _, hhash, _⟩ := platform.describe_eq_ok h
  rw [hhash]
  exact isEmpty_contentHash content

/-- Every file that a directory lists has a hash. -/
theorem hash_of_search {tree : FileTree} {version : String} {token : Option String}
    {memory : ListingMemory} {page : SearchPage}
    (h : ((platform.toPlatform.search tree version token).run memory).1 = .ok page) :
    ∀ file ∈ page.files, file.hash.isEmpty = false := by
  intro file hfile
  obtain ⟨jar, _, hdescribed⟩ := (platform.described_of_search h).2 file hfile
  exact platform.hash_of_describe hdescribed

end LocalPlatform

namespace Indexer

variable {σ : Type} (indexer later : Indexer) (platform : Platform σ)

/-- What holds of the files of every page holds of all files that a pass lists. -/
theorem forall_files_enumerate {post : PlatformFile → Prop}
    (hsearch : ∀ tree version token memory page,
      ((platform.search tree version token).run memory).1 = .ok page → ∀ file ∈ page.files, post file)
    (limit : Nat) {token : Option String} {place after : Workplace σ} {files : List PlatformFile}
    {count : Nat} {truncated : Bool}
    (h : (indexer.enumerate platform limit token).run.run place =
      (.ok (files, count, truncated), after)) :
    ∀ file ∈ files, post file := by
  induction limit generalizing token place after files count truncated with
  | zero =>
      cases h
      exact nofun
  | succ limit ih =>
      unfold enumerate at h
      obtain ⟨page, between, hpage, h⟩ := steps_of_run_bind h
      have hfound := hsearch _ _ _ _ page (congrArg Prod.fst hpage)
      dsimp only at h
      cases hnext : page.next with
      | none =>
          rw [hnext] at h
          cases h
          exact hfound
      | some next =>
          rw [hnext] at h
          obtain ⟨⟨rest, more, left⟩, last, hrest, h⟩ := steps_of_run_bind h
          cases h
          intro file hfile
          rcases List.mem_append.mp hfile with hhere | hthere
          · exact hfound file hhere
          · exact ih hrest file hthere

end Indexer

/-- Whether work always gives a value. -/
def Work.Answers {σ α : Type} (work : Work σ α) : Prop :=
  ∀ place, ∃ value, (work.run.run place).1 = .ok value

theorem Work.Answers.bind {σ α β : Type} {work : Work σ α} {next : α → Work σ β}
    (hwork : Answers work) (hnext : ∀ value, Answers (next value)) : Answers (work >>= next) := by
  intro place
  obtain ⟨value, hvalue⟩ := hwork place
  rw [run_bind_of_fst hvalue]
  exact hnext value _

namespace Indexer

variable {σ : Type} (indexer later : Indexer) (platform : Platform σ)

theorem answers_listedBundles (candidates : List Candidate) :
    Work.Answers (listedBundles platform candidates) := by
  unfold listedBundles
  dsimp only
  split
  · exact fun _ => ⟨_, rfl⟩
  · refine Work.Answers.bind (fun _ => ⟨_, rfl⟩) fun answer => ?_
    split <;> exact fun _ => ⟨_, rfl⟩

/-- Where files are listed, a pass sees something. -/
theorem exists_survey (passedOver? : PlatformFile → Option Nat) {place : Workplace σ}
    {files : List PlatformFile} {count : Nat} {truncated : Bool}
    (hpages : indexer.pages platform place.files place.memory = .ok (files, count, truncated)) :
    ∃ survey, ((indexer.survey platform passedOver?).run.run place).1 = .ok survey := by
  have hlooks := indexer.looks_enumerate platform indexer.settings.maxPages none
  have hbare : (Workplace.bare place.files place.memory).files = place.files := rfl
  have hlisted := (hlooks.alike hbare rfl).1
  unfold pages at hpages
  rw [hpages] at hlisted
  have hread : ∀ (report : BatchReport) downloads,
      Work.Answers (readCandidates report downloads : Work σ _) := by
    intro report downloads place
    exact ⟨_, congrArg Prod.fst (run_readCandidates report downloads place)⟩
  unfold survey
  dsimp only
  rw [run_bind_of_fst hlisted.symm]
  refine Work.Answers.bind (fun _ => ⟨_, rfl⟩) (fun downloads => ?_) _
  exact (hread _ downloads).bind fun _ => (answers_listedBundles platform _).bind fun _ _ => ⟨_, rfl⟩

end Indexer

/-! ## Files that were seen -/

/-- The files that were seen are those that candidates carry. -/
theorem Catalog.Entered.seen_iff {catalog : Catalog} {done : List Candidate}
    (hentered : catalog.Entered done) (file : FileKey) :
    (catalog.store.seenFileOwner file).isSome ↔
      ∃ candidate ∈ done, ∃ link ∈ candidate.link, link.file = file := by
  have hlinks : ∀ {link}, link ∈ (Ledger.ofCandidates done).files ↔
      ∃ candidate ∈ done, link ∈ candidate.link := List.mem_filterMap
  unfold Store.seenFileOwner
  rw [hentered.explains.seenFiles]
  constructor
  · intro hseen
    cases hlast : lastWith? file (Ledger.ofCandidates done).files with
    | none =>
        rw [hlast] at hseen
        cases hseen
    | some link =>
        obtain ⟨candidate, hcandidate, hlink⟩ := hlinks.mp (mem_of_lastLink? hlast)
        have hfile : link.file = file := by simpa using List.find?_some hlast
        exact ⟨candidate, hcandidate, link, hlink, hfile⟩
  · rintro ⟨candidate, hcandidate, link, hlink, rfl⟩
    have hmem := hlinks.mpr ⟨candidate, hcandidate, hlink⟩
    cases hlast : lastWith? link.file (Ledger.ofCandidates done).files with
    | none =>
        have hnone := List.find?_eq_none.mp hlast link (List.mem_reverse.mpr hmem)
        simp at hnone
    | some last => exact hentered.explains.listed (mem_of_lastLink? hlast)

namespace Indexer

variable {σ : Type} (indexer later : Indexer) (platform : Platform σ)

/-- An incremental pass that sees no candidates ends without touching the catalog. -/
theorem conclude_nothing (hmode : indexer.settings.cleanup = .incremental) {survey : Survey}
    (hnone : survey.expanded = []) (place : Workplace σ) :
    ∃ report after, (indexer.conclude survey).run.run place = (.ok report, after) ∧
      report.candidates = 0 ∧ after.catalog = place.catalog := by
  have hprocess : (indexer.processAll survey.expanded).run.run { place with
      progress := place.progress.expect (survey.expanded.map Candidate.label) } =
        (.ok [], { place with
          progress := place.progress.expect (survey.expanded.map Candidate.label) }) := by
    rw [hnone]
    rfl
  obtain ⟨purged, after, hconclude⟩ := indexer.conclude_of_processAll hprocess
  obtain ⟨outcomes, processed, hprocessed, hend⟩ := indexer.conclude_spec hconclude
  refine ⟨_, after, hconclude, congrArg List.length hnone, ?_⟩
  rw [hnone] at hprocessed
  cases hprocessed
  generalize after.catalog = catalog at hend ⊢
  cases hend with
  | keeps _ => rfl
  | sweeps hfull _ _ =>
      rw [hmode] at hfull
      cases hfull

theorem expand_nil (listed : Table String PlatformLink) : expand [] listed = [] := rfl

/-- A file with a content that was there before gives the candidate that it gave before. -/
theorem candidate_of_same_tree {tree : FileTree}
    {downloads : List (PlatformFile × Except Fault ByteArray)} {file : PlatformFile}
    {content : ByteArray} {candidate : Candidate} (hread : AllRead downloads)
    (hlisted : file ∈ downloads.map Prod.fst) (hhash : file.hash.isEmpty = false)
    (hgenuine : ∀ file content, (file, .ok content) ∈ downloads →
      tree.Holds content ∧ DownloadCache.isGenuine file content)
    (hdistinct : ∀ a b, tree.Holds a → tree.Holds b →
      sameHash (contentHash a) (contentHash b) → a = b)
    (hholds : tree.Holds content) (hnow : DownloadCache.isGenuine file content)
    (hcandidate : Candidate.ofDownload? (file, .ok content) = some candidate) :
    candidate ∈ downloads.filterMap Candidate.ofDownload? := by
  obtain ⟨⟨_, answer⟩, hbefore, rfl⟩ := List.mem_map.mp hlisted
  obtain ⟨found, hfound⟩ := hread _ hbefore
  cases answer with
  | error fault => cases hfound
  | ok old =>
      obtain ⟨hheld, hthen⟩ := hgenuine _ old hbefore
      have hsame := DownloadCache.sameHash_of_isGenuine hhash hthen hnow
      obtain rfl := hdistinct old content hheld hholds hsame
      exact List.mem_filterMap.mpr ⟨_, hbefore, hcandidate⟩

/-- A pass over the files of an earlier one reads no candidates if it passes over every file that
gave one then. -/
theorem read_eq_nil (platform : LocalPlatform) {first again : Workplace ListingMemory}
    {survey next : Survey} {passedOver? : PlatformFile → Option Nat}
    (hsees : indexer.sees platform.toPlatform first.files first.memory = .ok survey)
    (hfailed : survey.report.failed = [])
    (hnext : ((later.survey platform.toPlatform passedOver?).run.run again).1 = .ok next)
    (hlists : later.pages platform.toPlatform again.files again.memory =
      indexer.pages platform.toPlatform first.files first.memory)
    (hsame : ∀ content, again.files.Holds content → first.files.Holds content)
    (hdistinct : ∀ a b, first.files.Holds a → first.files.Holds b →
      sameHash (contentHash a) (contentHash b) → a = b)
    (hpassed : ∀ candidate ∈ survey.read, ∀ file : PlatformFile,
      file.link ∈ candidate.link → (passedOver? file).isSome) : next.read = [] := by
  obtain ⟨files, count, memory, hpages, _, hread, hallRead, _⟩ :=
    indexer.survey_spec platform.toPlatform (Prod.ext hsees rfl)
  obtain ⟨files', count', memory', hpages', _, hread', _⟩ :=
    later.survey_spec platform.toPlatform (Prod.ext hnext rfl)
  have hpages : indexer.pages platform.toPlatform first.files first.memory = _ := hpages
  obtain ⟨rfl, _⟩ := Prod.mk.inj (Except.ok.inj ((hlists.trans hpages).symm.trans hpages'))
  have hhashes : ∀ file ∈ files, file.hash.isEmpty = false := by
    refine indexer.forall_files_enumerate platform.toPlatform ?_ _ (Prod.ext hpages rfl)
    exact fun _ _ _ _ _ => platform.hash_of_search
  obtain ⟨hfetched, hgenuine⟩ := DownloadCache.fetchAll_spec
    ⟨indexer.settings.cacheDirectory, indexer.settings.keepsCaches⟩ platform.handsOutFiles
    (files.filter fun _ => true) first.files memory
  obtain ⟨hfetched', hgenuine'⟩ := DownloadCache.fetchAll_spec
    ⟨later.settings.cacheDirectory, later.settings.keepsCaches⟩ platform.handsOutFiles
    (files.filter fun file => (passedOver? file).isNone) again.files memory'
  rw [hread', List.filterMap_eq_nil_iff]
  rintro ⟨file, answer⟩ hdownload
  have hpending : file ∈ List.map Prod.fst _ := List.mem_map_of_mem hdownload
  rw [hfetched'] at hpending
  obtain ⟨hfile, hopen⟩ := List.mem_filter.mp hpending
  cases hcandidate : Candidate.ofDownload? (file, answer) with
  | none => rfl
  | some candidate =>
      cases answer with
      | error fault => cases hcandidate
      | ok content =>
          obtain ⟨hheld, hnow⟩ := hgenuine' file content hdownload
          have hlisted : file ∈ files.filter fun _ => true := List.mem_filter.mpr ⟨hfile, rfl⟩
          rw [← hfetched] at hlisted
          have hbefore : candidate ∈ survey.read := by
            rw [hread]
            exact candidate_of_same_tree (hallRead hfailed) hlisted (hhashes file hfile) hgenuine
              hdistinct (hsame content hheld) hnow hcandidate
          have hskipped := hpassed candidate hbefore file (Candidate.link_of_ofDownload? hcandidate)
          rw [Option.isNone_iff_eq_none.mp hopen] at hskipped
          cases hskipped

/-- After a pass over a directory from an empty catalog in which nothing fails, the next incremental
pass over the same files passes over exactly those that an expanded candidate carries.  If these
include all files with a candidate, the next pass finds none and leaves the catalog as it is. -/
theorem second_incremental_pass (platform : LocalPlatform)
    {first after again : Workplace ListingMemory} {report : BatchReport} {survey : Survey}
    (hempty : first.catalog = .empty)
    (hfirst : indexer.pass platform.toPlatform first = (.ok report, after))
    (hfailed : report.failed = [])
    (hsees : indexer.sees platform.toPlatform first.files first.memory = .ok survey)
    (hreopens : again.catalog.Reopens after.catalog)
    (hmode : later.settings.cleanup = .incremental)
    (hlists : later.pages platform.toPlatform again.files again.memory =
      indexer.pages platform.toPlatform first.files first.memory)
    (hsame : ∀ content, again.files.Holds content → first.files.Holds content)
    (hdistinct : ∀ a b, first.files.Holds a → first.files.Holds b →
      sameHash (contentHash a) (contentHash b) → a = b) :
    (∀ file, (later.passedOver? again.catalog.store file).isSome ↔
      ∃ candidate ∈ survey.expanded, ∃ link ∈ candidate.link, link.file = file.link.file) ∧
    ((∀ candidate ∈ survey.read, ∀ link ∈ candidate.link,
        ∃ other ∈ survey.expanded, ∃ carried ∈ other.link, carried.file = link.file) →
      ∃ next last, later.pass platform.toPlatform again = (.ok next, last) ∧
        next.candidates = 0 ∧ last.catalog = again.catalog) := by
  have hstore : first.catalog.store = .empty := by rw [hempty]; rfl
  have hentered := indexer.entered_of_pass platform.toPlatform hempty hfirst hfailed hsees
  have hreopened := hentered.reopen hreopens
  have hseen : ∀ file, (later.passedOver? again.catalog.store file).isSome ↔
      ∃ candidate ∈ survey.expanded, ∃ link ∈ candidate.link, link.file = file.link.file := by
    intro file
    unfold passedOver?
    rw [hmode]
    dsimp only
    rw [hreopened.seen_iff]
    simp only [(flatten_waves_perm survey.expanded).mem_iff]
  refine ⟨hseen, ?_⟩
  intro hcarried
  obtain ⟨files, count, memory, hpages, _⟩ :=
    indexer.survey_spec platform.toPlatform (Prod.ext hsees rfl)
  obtain ⟨next, hnext⟩ := later.exists_survey platform.toPlatform
    (later.passedOver? again.catalog.store) (hlists.trans hpages)
  have hread := indexer.failed_survey_of_pass platform.toPlatform (Or.inr hstore) hsees hfirst
    hfailed
  have hnone : next.read = [] := by
    refine read_eq_nil indexer later platform hsees hread hnext hlists hsame hdistinct ?_
    intro candidate hcandidate file hlink
    exact (hseen file).mpr (hcarried candidate hcandidate file.link hlink)
  obtain ⟨_, _, _, _, _, _, _, ⟨listed, hexpanded⟩, _⟩ :=
    later.survey_spec platform.toPlatform (Prod.ext hnext rfl)
  rw [hnone, expand_nil] at hexpanded
  obtain ⟨report', last, hconclude, hcount, hkept⟩ := later.conclude_nothing hmode hexpanded
    ((later.survey platform.toPlatform (later.passedOver? again.catalog.store)).run.run again).2
  refine ⟨report', last, ?_, hcount, ?_⟩
  · rw [later.pass_eq, run_bind_of_fst hnext]
    exact hconclude
  · rw [hkept]
    exact (later.looks_survey platform.toPlatform _).catalog again

theorem eq_jar_of_holds {content : ByteArray} (hholds : OneJar.tree.Holds content) :
    content = OneJar.jar := by
  obtain ⟨path, hpath⟩ := hholds
  simp only [OneJar.tree, OneJar.holding, Table.ofList, List.foldl_cons, List.foldl_nil, Table.get?_put,
    Table.get?_empty] at hpath
  split_ifs at hpath
  · cases hpath
    rfl
  · cases hpath
  · cases hpath

/-- The only file of a directory is carried into the catalog, so it is passed over next time. -/
theorem second_incremental_pass_over_one_jar : ∃ report after next last,
    (OneJar.indexer .incremental).pass OneJar.platform.toPlatform (OneJar.stocked .empty) =
      (.ok report, after) ∧
    (OneJar.indexer .incremental).pass OneJar.platform.toPlatform
      (OneJar.stocked after.catalog) = (.ok next, last) ∧
    next.candidates = 0 ∧ last.catalog = after.catalog := by
  obtain ⟨survey, found, report, after, hsees, hread, hexpanded, -, hfirst, hfailed⟩ :=
    OneJar.exists_pass .incremental
  have hreopens : (OneJar.stocked after.catalog).catalog.Reopens after.catalog := Or.inl rfl
  obtain ⟨_, hskips⟩ := second_incremental_pass (OneJar.indexer .incremental)
    (OneJar.indexer .incremental) OneJar.platform rfl hfirst hfailed hsees hreopens rfl rfl
    (fun _ hholds => hholds) fun _ _ ha hb _ =>
      (eq_jar_of_holds ha).trans (eq_jar_of_holds hb).symm
  have hcarried : ∀ candidate ∈ survey.read, ∀ link ∈ candidate.link,
      ∃ other ∈ survey.expanded, ∃ carried ∈ other.link, carried.file = link.file := by
    intro candidate hcandidate link hlink
    rw [hread, ← hexpanded] at hcandidate
    exact ⟨candidate, hcandidate, link, hlink, rfl⟩
  obtain ⟨next, last, hnext, hcandidates, hkept⟩ := hskips hcarried
  exact ⟨report, after, next, last, hfirst, hnext, hcandidates, hkept⟩

end Indexer

end ModCatalog
