import ModCatalog.Proofs.Indexing.Idempotence

/-!
# Rows of projects that come back

A full pass removes the rows of mods that it does not find, but the contents stay known.  So when
their projects come back, a later pass only links them: it leaves the rows that it finds, and what
was removed stays away until the content changes.
-/

namespace ModCatalog

open Resolving

namespace Catalog

variable {catalog after : Catalog} {candidates done : List Candidate} {outcomes : List Outcome}

/-- Candidates that are processed take nothing apart, whatever becomes of them. -/
theorem Processed.carries (hprocessed : catalog.Processed candidates outcomes after)
    (hcatalog : catalog.Coherent) : after.Coherent ∧ catalog.store.Carries after.store := by
  induction hprocessed with
  | nil catalog => exact ⟨hcatalog, .refl _⟩
  | @cons catalog after rest outcomes outcome attempt _ _ ih =>
      obtain ⟨hbetween, hfirst, _⟩ := attempt.after_spec hcatalog
      obtain ⟨hafter, hsecond⟩ := ih hbetween
      exact ⟨hafter, hfirst.trans hsecond⟩

theorem Coherent.reopen (hcatalog : catalog.Coherent) {again : Catalog}
    (hreopens : again.Reopens catalog) : again.Coherent := by
  rcases hreopens with rfl | rfl
  · exact hcatalog
  · exact ⟨hcatalog.store_exact, nofun⟩

/-- Every listing was entered with a candidate. -/
theorem Entered.exists_of_listing (hentered : catalog.Entered done) {listing : Listing} {id : Nat}
    (hleads : catalog.store.findByListing listing = some id) :
    ∃ candidate ∈ done, ∃ link ∈ candidate.link, link.listing = listing := by
  obtain ⟨record, hrecord, hlisted⟩ := hentered.coherent.store_exact.listings hleads
  obtain ⟨link, hmem, rfl⟩ := List.mem_map.mp hlisted
  have hlatest := hentered.explains.links hrecord hmem
  obtain ⟨candidate, hcandidate, hlink⟩ := List.mem_filterMap.mp (mem_of_lastLink? hlatest)
  exact ⟨candidate, hcandidate, link, hlink, rfl⟩

end Catalog

namespace Indexer

variable {σ τ : Type} (indexer : Indexer) (platform : Platform σ)

/-- Whatever a pass sees, it tears nothing apart. -/
theorem carries_of_pass {place after : Workplace σ} {report : BatchReport}
    (hcatalog : place.catalog.Coherent)
    (hpass : indexer.pass platform place = (.ok report, after)) :
    after.catalog.Coherent ∧ place.catalog.store.Carries after.catalog.store := by
  rcases indexer.pass_cases platform place with
    ⟨_, _, herror, _⟩ | ⟨survey, between, _, hbetween, _, hconclude⟩
  · cases hpass.symm.trans herror
  · obtain ⟨outcomes, processed, hprocessed, hend⟩ :=
      indexer.conclude_spec (hconclude.symm.trans hpass)
    rw [hbetween] at hprocessed
    obtain ⟨hcoherent, hcarries⟩ := hprocessed.carries hcatalog
    generalize after.catalog = catalog at hend ⊢
    cases hend with
    | keeps _ => exact ⟨hcoherent, hcarries⟩
    | sweeps _ _ _ => exact ⟨hcoherent.swept _, hcarries⟩

/-- A full pass over candidates whose contents are known leaves contents and listings where they
are.  The mods of the candidates keep their rows, and if nothing is missing no other mod does. -/
theorem pass_over_known {place after : Workplace σ} {report : BatchReport} {survey : Survey}
    (hfull : indexer.settings.cleanup = .full) (hcatalog : place.catalog.Coherent)
    (hsees : indexer.sees platform place.files place.memory = .ok survey)
    (hpass : indexer.pass platform place = (.ok report, after))
    (hholds : ∀ candidate ∈ survey.expanded, ∃ id, Holds candidate id place.catalog.store) :
    (∀ candidate id, Holds candidate id place.catalog.store →
      Holds candidate id after.catalog.store) ∧
    ∀ id, ((∃ candidate ∈ survey.expanded, Holds candidate id place.catalog.store) →
        after.catalog.store.rowsOf id = place.catalog.store.rowsOf id) ∧
      (survey.truncated = false → report.failed = [] →
        (¬∃ candidate ∈ survey.expanded, Holds candidate id place.catalog.store) →
          after.catalog.store.rowsOf id = .empty) := by
  have hmem : ∀ candidate, candidate ∈ (waves survey.expanded).flatten ↔
      candidate ∈ survey.expanded := fun _ => (flatten_waves_perm survey.expanded).mem_iff
  obtain ⟨outcomes, processed, hprocessed, hend⟩ :=
    indexer.pass_spec platform (Or.inl hfull) hsees hpass
  obtain ⟨hretained, hmet, _⟩ := hprocessed.met False hcatalog
    (fun candidate hcandidate => hholds candidate ((hmem candidate).mp hcandidate))
    False.elim False.elim
  have hheld : ∀ candidate id, Holds candidate id place.catalog.store →
      Holds candidate id processed.store := fun _ _ => hretained.holds
  have hrows : ∀ id, processed.store.rowsOf id = place.catalog.store.rowsOf id := by
    intro id
    unfold Store.rowsOf
    rw [hretained.rows]
  generalize after.catalog = catalog at hend ⊢
  cases hend with
  | keeps hmissing =>
      refine ⟨hheld, fun id => ⟨fun _ => hrows id, ?_⟩⟩
      intro hcomplete hfine _
      rcases hmissing with hmode | htruncated | hfailed
      · rw [hfull] at hmode
        cases hmode
      · rw [hcomplete] at htruncated
        cases htruncated
      · exact absurd hfine hfailed
  | sweeps _ _ hfine =>
      have hpresent : ∀ id, id ∈ survey.present outcomes ↔
          ∃ candidate ∈ survey.expanded, Holds candidate id place.catalog.store := by
        intro id
        unfold Survey.present
        rw [indexer.passed_eq_nil platform hsees, List.nil_append,
          Candidate.present_iff hmet (Outcome.failed_foldl_addTo hfine).2]
        constructor
        · rintro ⟨candidate, hcandidate, hafter⟩
          have hcandidate := (hmem candidate).mp hcandidate
          obtain ⟨owner, howner⟩ := hholds candidate hcandidate
          cases (hheld candidate owner howner).1.symm.trans hafter.1
          exact ⟨candidate, hcandidate, howner⟩
        · rintro ⟨candidate, hcandidate, hbefore⟩
          exact ⟨candidate, (hmem candidate).mpr hcandidate, hheld candidate id hbefore⟩
      refine ⟨hheld, fun id => ⟨?_, ?_⟩⟩
      · intro hfound
        rw [Store.rowsOf_swept, if_pos ((hpresent id).mpr hfound), hrows]
      · intro _ _ hnone
        rw [Store.rowsOf_swept, if_neg fun h => hnone ((hpresent id).mp h)]

/-- A complete full pass over candidates whose contents are known leaves a mod its rows exactly if
there are none or if some candidate is its content. -/
theorem rows_kept_iff {place after : Workplace σ} {report : BatchReport} {survey : Survey}
    (hfull : indexer.settings.cleanup = .full) (hcatalog : place.catalog.Coherent)
    (hsees : indexer.sees platform place.files place.memory = .ok survey)
    (hpass : indexer.pass platform place = (.ok report, after))
    (hholds : ∀ candidate ∈ survey.expanded, ∃ id, Holds candidate id place.catalog.store)
    (hcomplete : survey.truncated = false) (hfine : report.failed = []) (id : Nat) :
    after.catalog.store.rowsOf id = place.catalog.store.rowsOf id ↔
      place.catalog.store.rowsOf id = .empty ∨ ∃ candidate ∈ survey.expanded,
        place.catalog.store.findByHash candidate.artifact.contentHash = .ok (some id) := by
  obtain ⟨_, hrows⟩ := indexer.pass_over_known platform hfull hcatalog hsees hpass hholds
  by_cases hfound : ∃ candidate ∈ survey.expanded, Holds candidate id place.catalog.store
  · have hsame := (hrows id).1 hfound
    obtain ⟨candidate, hcandidate, hheld⟩ := hfound
    exact ⟨fun _ => Or.inr ⟨candidate, hcandidate, hheld.1⟩, fun _ => hsame⟩
  · rw [(hrows id).2 hcomplete hfine hfound]
    constructor
    · exact fun hempty => Or.inl hempty.symm
    · rintro (hempty | ⟨candidate, hcandidate, howned⟩)
      · exact hempty.symm
      · obtain ⟨owner, howner⟩ := hholds candidate hcandidate
        cases howner.1.symm.trans howned
        exact absurd ⟨candidate, hcandidate, howner⟩ hfound

/-- A first full pass from an empty catalog fails nowhere, a second pass sees anything, and a third
full pass sees what the first one saw.  The third one leaves the mods of all projects of the first
with the rows that they had after the second.  So if the second one is complete and sees no
candidates but some of the first, a mod has its rows in the end only if one of these is its
content: what was removed does not come back. -/
theorem rows_after_return {first after back last : Workplace σ} {gone between : Workplace τ}
    {second third : Indexer} {other : Platform τ} {report report' report'' : BatchReport}
    {survey : Survey} (hempty : first.catalog = .empty)
    (hfirst : indexer.pass platform first = (.ok report, after)) (hfailed : report.failed = [])
    (hsees : indexer.sees platform first.files first.memory = .ok survey)
    (hgone : gone.catalog.Reopens after.catalog)
    (hsecond : second.pass other gone = (.ok report', between))
    (hback : back.catalog.Reopens between.catalog) (hfull : third.settings.cleanup = .full)
    (hreturns : third.sees platform back.files back.memory = .ok survey)
    (hthird : third.pass platform back = (.ok report'', last))
    {listing : Listing} {id : Nat} (hlisted : after.catalog.store.findByListing listing = some id) :
    (∃ owner, between.catalog.store.findByListing listing = some owner ∧
      last.catalog.store.findByListing listing = some owner ∧
      last.catalog.store.rowsOf owner = between.catalog.store.rowsOf owner) ∧
    ∀ survey', second.settings.cleanup = .full →
      second.sees other gone.files gone.memory = .ok survey' → survey'.truncated = false →
      report'.failed = [] → survey'.expanded ⊆ survey.expanded →
        last.catalog.store.findByListing listing = some id ∧
        (last.catalog.store.rowsOf id = after.catalog.store.rowsOf id ↔
          after.catalog.store.rowsOf id = .empty ∨ ∃ candidate ∈ survey'.expanded,
            after.catalog.store.findByHash candidate.artifact.contentHash = .ok (some id)) := by
  have hmem : ∀ candidate, candidate ∈ (waves survey.expanded).flatten ↔
      candidate ∈ survey.expanded := fun _ => (flatten_waves_perm survey.expanded).mem_iff
  have hentered := indexer.entered_of_pass platform hempty hfirst hfailed hsees
  have hreopened := hentered.reopen hgone
  obtain ⟨hcoherent, hcarries⟩ := second.carries_of_pass other hreopened.coherent hsecond
  have hgoneStore := hgone.store_eq
  have hbackStore := hback.store_eq
  have hholds : ∀ candidate ∈ survey.expanded, ∃ id, Holds candidate id back.catalog.store := by
    intro candidate hcandidate
    obtain ⟨old, hheld⟩ := hreopened.holds ((hmem candidate).mpr hcandidate)
    rw [hbackStore]
    exact hheld.carried hcarries
  obtain ⟨hheld, hrows⟩ := third.pass_over_known platform hfull (hcoherent.reopen hback) hreturns
    hthird hholds
  obtain ⟨candidate, hcandidate, link, hlink, rfl⟩ := hentered.exists_of_listing hlisted
  have hcandidate := (hmem candidate).mp hcandidate
  obtain ⟨owner, howner⟩ := hholds candidate hcandidate
  have hlast := (hheld candidate owner howner).2 link hlink
  have hkept := (hrows owner).1 ⟨candidate, hcandidate, howner⟩
  rw [hbackStore] at howner hkept
  refine ⟨⟨owner, howner.2 link hlink, hlast, hkept⟩, ?_⟩
  intro survey' hmode hlost hcomplete hfine hsubset
  have hknown : ∀ candidate ∈ survey'.expanded, ∃ id, Holds candidate id gone.catalog.store :=
    fun candidate h => hreopened.holds ((hmem candidate).mpr (hsubset h))
  obtain ⟨hstays, _⟩ := second.pass_over_known other hmode hreopened.coherent hlost hsecond hknown
  obtain ⟨old, hold⟩ := hreopened.holds ((hmem candidate).mpr hcandidate)
  have hbetween := (hstays candidate old hold).2 link hlink
  have hbefore := hold.2 link hlink
  rw [hgoneStore, hlisted] at hbefore
  rw [howner.2 link hlink, ← hbefore] at hbetween
  cases hbetween
  refine ⟨hlast, ?_⟩
  rw [hkept, ← hgoneStore]
  exact second.rows_kept_iff other hmode hreopened.coherent hlost hsecond hknown hcomplete hfine id

end Indexer

/-! ## A jar with a tag -/

namespace TaggedJar

/-- The files of an archive: the description of a mod `a`, and a tag `a:b`. -/
def files : List UInt8 :=
  [80, 75, 3, 4, 20, 0, 0, 0, 0, 0, 0, 0, 33, 0, 112, 86, 12, 141, 24, 0, 0, 0, 24, 0, 0, 0, 15,
   0, 0, 0, 102, 97, 98, 114, 105, 99, 46, 109, 111, 100, 46, 106, 115, 111, 110, 123, 34, 105,
   100, 34, 58, 34, 97, 34, 44, 34, 118, 101, 114, 115, 105, 111, 110, 34, 58, 34, 49, 34, 125,
   80, 75, 3, 4, 20, 0, 0, 0, 0, 0, 0, 0, 33, 0, 86, 183, 179, 141, 16, 0, 0, 0, 16, 0, 0, 0, 18,
   0, 0, 0, 100, 97, 116, 97, 47, 97, 47, 116, 97, 103, 115, 47, 98, 46, 106, 115, 111, 110, 123,
   34, 118, 97, 108, 117, 101, 115, 34, 58, 91, 34, 99, 34, 93, 125]

def directory : List UInt8 :=
  [80, 75, 1, 2, 20, 3, 20, 0, 0, 0, 0, 0, 0, 0, 33, 0, 112, 86, 12, 141, 24, 0, 0, 0, 24, 0, 0,
   0, 15, 0, 0, 0, 0, 0, 0, 0, 0, 0, 0, 0, 128, 1, 0, 0, 0, 0, 102, 97, 98, 114, 105, 99, 46, 109,
   111, 100, 46, 106, 115, 111, 110, 80, 75, 1, 2, 20, 3, 20, 0, 0, 0, 0, 0, 0, 0, 33, 0, 86, 183,
   179, 141, 16, 0, 0, 0, 16, 0, 0, 0, 18, 0, 0, 0, 0, 0, 0, 0, 0, 0, 0, 0, 128, 1, 69, 0, 0, 0,
   100, 97, 116, 97, 47, 97, 47, 116, 97, 103, 115, 47, 98, 46, 106, 115, 111, 110, 80, 75, 5, 6,
   0, 0, 0, 0, 2, 0, 2, 0, 125, 0, 0, 0, 133, 0, 0, 0, 0, 0]

def jar : ByteArray := ⟨(files ++ directory).toArray⟩

def tagging : ArchiveEntry := ⟨"data/a/tags/b.json", 0, false, false, 2377365334, 16, 69⟩

/-- The file of the tag. -/
def tagContent : List UInt8 :=
  [123, 34, 118, 97, 108, 117, 101, 115, 34, 58, 91, 34, 99, 34, 93, 125]

def tag : TagFile := ⟨"a/b", false, ["minecraft:c"]⟩

def archive : Archive := ⟨jar, [OneJar.describing, tagging]⟩

section

set_option maxRecDepth 10000

/-- The jar has both entries, stored as they are, and the second one has its checksum. -/
theorem contents :
    Archive.listed? files.length directory = some [OneJar.describing, tagging] ∧
      archive.openEntry OneJar.describing = .ok ⟨OneJar.description.toArray⟩ ∧
      archive.openEntry tagging = .ok ⟨tagContent.toArray⟩ ∧
      Archive.Crc32.ofList tagContent = tagging.checksum := by
  decide +kernel

/-- Only the second name is that of a tag, and its content is one. -/
theorem names :
    archive.distinctNames = [Artifact.loaderPath, tagging.name] ∧
      TagFile.name? Artifact.loaderPath = none ∧ TagFile.name? tagging.name = some tag.name ∧
      (ByteArray.mk tagContent.toArray).toList = tagContent ∧
      TagFile.ofContent? tag.name tagContent = some tag := by
  decide +kernel

end

theorem ofBytes_jar : Archive.ofBytes jar = .ok archive := Archive.ofBytes_append contents.1

theorem read_describing :
    archive.read Artifact.loaderPath = .ok (some ⟨OneJar.description.toArray⟩) :=
  Archive.read_of_find?_some OneJar.describing (by decide) contents.2.1 rfl OneJar.contents.2.2.1

theorem read_tagging : archive.read tagging.name = .ok (some ⟨tagContent.toArray⟩) :=
  Archive.read_of_find?_some tagging (by decide) contents.2.2.1 rfl contents.2.2.2

theorem opens_jar {loader : LoaderDescription}
    (hloader : LoaderDescription.ofContent? ⟨OneJar.description.toArray⟩ = some loader)
    (hjars : loader.jars = []) :
    Artifact.Opens jar none none archive (.ofLoader loader none jar) (some loader) [] := by
  have hopens := Artifact.opens_of_loader ofBytes_jar (Archive.read_of_find?_none (by decide))
    (Archive.read_of_find?_none (by decide))
    (fun path hpath => Archive.read_of_find?_none (by revert path; decide))
    read_describing hloader none none
  rwa [hjars, List.map_nil] at hopens

theorem indexClasses_archive (options : ClassFile.IndexOptions) :
    archive.indexClasses options = .ok [] := by
  refine Archive.indexClasses_of_none fun entry hentry => ?_
  rcases List.mem_cons.mp hentry with rfl | htag
  · exact ⟨⟨_, contents.2.1⟩, by decide⟩
  · rw [List.mem_singleton.mp htag]
    exact ⟨⟨_, contents.2.2.1⟩, by decide⟩

theorem tags_archive : archive.tags = .ok [tag] := by
  obtain ⟨hnames, hplain, hname, hlist, hcontent⟩ := names
  unfold Archive.tags
  rw [hnames, List.mapM_cons, List.mapM_cons, List.mapM_nil]
  simp only [hplain, hname, read_tagging, ok_bind, Option.bind_some, hlist, hcontent]
  rfl

/-- A first pass gives the mod of the jar its tag. -/
theorem exists_pass (mode : CleanupMode) : ∃ survey report after,
    (OneJar.indexer mode).sees OneJar.platform.toPlatform (OneJar.holding jar)
        (OneJar.remembering [OneJar.listed]) = .ok survey ∧
      (OneJar.indexer mode).pass OneJar.platform.toPlatform (OneJar.stockedWith jar .empty) =
        (.ok report, after) ∧
      report.failed = [] ∧
      after.catalog.store.findByListing OneJar.link.listing = some 1 ∧
      (after.catalog.store.rowsOf 1).tags = [tag] := by
  obtain ⟨loader, hloader, -, hjars⟩ := OneJar.exists_loader
  obtain ⟨survey, candidate, report, after, hsees, -, -, -, hpass, hfine, hlisted, hrows⟩ :=
    OneJar.exists_pass_of_opens mode (opens_jar hloader hjars)
      (Indexer.gathered_of_loader ofBytes_jar (indexClasses_archive _) rfl tags_archive)
  refine ⟨survey, report, after, hsees, hpass, hfine, hlisted, ?_⟩
  rw [hrows]
  rfl

end TaggedJar

namespace Indexer

/-- The only jar of a directory, which has a tag, goes and comes back: its project leads to the mod
that it led to, but the mod does not have the rows that it had. -/
theorem rows_after_return_of_one_jar : ∃ report report' report'' after between last id,
    (OneJar.indexer .full).pass OneJar.platform.toPlatform
      (OneJar.stockedWith TaggedJar.jar .empty) = (.ok report, after) ∧
    (OneJar.indexer .full).pass OneJar.platform.toPlatform (OneJar.vacant after.catalog) =
      (.ok report', between) ∧
    (OneJar.indexer .full).pass OneJar.platform.toPlatform
      (OneJar.stockedWith TaggedJar.jar between.catalog) = (.ok report'', last) ∧
    (after.catalog.store.rowsOf id).tags ≠ [] ∧
    last.catalog.store.findByListing OneJar.link.listing = some id ∧
    last.catalog.store.rowsOf id ≠ after.catalog.store.rowsOf id := by
  obtain ⟨survey, report, after, hsees, hfirst, hfailed, hlisted, htags⟩ :=
    TaggedJar.exists_pass .full
  obtain ⟨survey', hlost, hcomplete, hnone, hread⟩ := OneJar.sees_vacant .full after.catalog
  have hgone : (OneJar.vacant after.catalog).catalog.Reopens after.catalog := Or.inl rfl
  have halone : (OneJar.vacant after.catalog).limiter.registered = [] := rfl
  obtain ⟨report', between, hsecond⟩ :=
    (OneJar.indexer .full).exists_full_pass OneJar.platform.toPlatform rfl halone hlost
  let back := OneJar.stockedWith TaggedJar.jar between.catalog
  have hback : back.catalog.Reopens between.catalog := Or.inl rfl
  have halone : back.limiter.registered = [] := rfl
  obtain ⟨report'', last, hthird⟩ :=
    (OneJar.indexer .full).exists_full_pass OneJar.platform.toPlatform rfl halone hsees
  have hfine : report'.failed = [] :=
    (failed_of_nothing _ _ rfl hsecond hlost hnone).trans hread
  obtain ⟨_, hreturned⟩ := rows_after_return (OneJar.indexer .full) OneJar.platform.toPlatform rfl
    hfirst hfailed hsees hgone hsecond hback rfl hsees hthird hlisted
  obtain ⟨hstays, hrows⟩ := hreturned survey' rfl hlost hcomplete hfine (by simp [hnone])
  have hkept : (after.catalog.store.rowsOf 1).tags ≠ [] := by
    rw [htags]
    exact List.cons_ne_nil _ _
  refine ⟨report, report', report'', after, between, last, 1, hfirst, hsecond, hthird, hkept,
    hstays, fun hsame => ?_⟩
  rcases hrows.mp hsame with hempty | ⟨candidate, hcandidate, _⟩
  · exact hkept (congrArg Rows.tags hempty)
  · rw [hnone] at hcandidate
    cases hcandidate

end Indexer

end ModCatalog
