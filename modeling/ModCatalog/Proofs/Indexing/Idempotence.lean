import ModCatalog.Proofs.Indexing.Arrivals

/-!
# Full passes over the same files

A full pass in which nothing failed is done again, and it sees the same.  Every candidate is met
again, so nothing is indexed, and no rows go.  What a second pass can still do is to let a
coordinate lead to a mod: the one that a candidate without a listing learned from a bundled copy.
-/

namespace ModCatalog

open Resolving

/-- A catalog that goes on from another: the store is the same, and what was remembered of it is
still there or forgotten. -/
def Catalog.Reopens (again catalog : Catalog) : Prop :=
  again = catalog ∨ again = ⟨catalog.store, .empty⟩

/-- Whether two stores hold the same records and rows and answer every question alike. -/
structure Store.Agrees (store other : Store) : Prop where
  records (id : Nat) : other.mod? id = store.mod? id
  rows : other.rows = store.rows
  hashes (hash : String) : other.findByHash hash = store.findByHash hash
  listings (listing : Listing) : other.findByListing listing = store.findByListing listing
  coordinates (coordinate : String) :
    other.findByCoordinate coordinate = store.findByCoordinate coordinate
  seenFiles (file : FileKey) : other.seenFileOwner file = store.seenFileOwner file

namespace Catalog

variable {catalog again : Catalog} {done : List Candidate}

theorem Reopens.store_eq (hreopens : again.Reopens catalog) : again.store = catalog.store := by
  rcases hreopens with rfl | rfl <;> rfl

theorem Entered.reopen (hentered : catalog.Entered done) (hreopens : again.Reopens catalog) :
    again.Entered done := by
  rcases hreopens with rfl | rfl
  · exact hentered
  · exact ⟨⟨hentered.coherent.store_exact, nofun⟩, hentered.holds, hentered.explains⟩

theorem Entered.linkFits (hentered : catalog.Entered done) {candidate : Candidate}
    (hmem : candidate ∈ done) {link : PlatformLink} (hlink : link ∈ candidate.link) :
    LinkFits link := by
  have hdone : link ∈ done.filterMap Candidate.link := List.mem_filterMap.mpr ⟨_, hmem, hlink⟩
  exact ⟨hentered.explains.listingKeys hdone, hentered.explains.fileKeys hdone⟩

/-- What is asked for when an entered candidate is met again was found when it was entered, but for
what a candidate without a listing learned. -/
theorem Entered.finds_asked (hentered : catalog.Entered done) {candidate : Candidate}
    (hmem : candidate ∈ done)
    (hlearned : candidate.link = none →
      ∀ name ∈ candidate.extraCoordinate, catalog.store.Finds name) :
    ∀ name ∈ candidate.asked, catalog.store.Finds name := by
  have hled : ∀ name ∈ candidate.led, catalog.store.Finds name := fun name hname =>
    hentered.explains.led (List.mem_flatMap.mpr ⟨candidate, hmem, hname⟩)
  intro name hname
  unfold Candidate.asked at hname
  unfold Candidate.led at hled
  cases hlink : candidate.link with
  | some link =>
      rw [hlink] at hname hled
      exact hled name hname
  | none =>
      rw [hlink] at hname hled
      rcases List.mem_append.mp hname with hstated | hextra
      · exact hled name hstated
      · exact hlearned hlink name (Option.mem_toList.mp hextra)

/-- The links of a record are told by their projects. -/
theorem links_eq_of_listings (latest : Listing → Option PlatformLink)
    {first second : List PlatformLink}
    (hsame : first.map PlatformLink.listing = second.map PlatformLink.listing)
    (hfirst : ∀ link ∈ first, latest link.listing = some link)
    (hsecond : ∀ link ∈ second, latest link.listing = some link) : first = second := by
  have hread : ∀ links : List PlatformLink, (∀ link ∈ links, latest link.listing = some link) →
      (links.map PlatformLink.listing).map latest = links.map some := by
    intro links hlinks
    rw [List.map_map]
    exact List.map_congr_left hlinks
  refine (List.map_inj_right fun _ _ => Option.some.inj).mp ?_
  rw [← hread first hfirst, ← hread second hsecond, hsame]

/-- Meeting all candidates again in the same order leaves the store as it was. -/
theorem Entered.agrees (hentered : catalog.Entered done) {later : Catalog}
    (hagain : later.Entered (done ++ done)) (hrefiled : catalog.store.Refiled later.store) :
    catalog.store.Agrees later.store := by
  have htwice : (Ledger.ofCandidates (done ++ done)).links =
      (Ledger.ofCandidates done).links ++ (Ledger.ofCandidates done).links := by
    simp [Ledger.ofCandidates]
  have hlatest : ∀ listing, lastOf? listing (Ledger.ofCandidates (done ++ done)).links =
      lastOf? listing (Ledger.ofCandidates done).links := by
    intro listing
    rw [htwice]
    exact lastLink?_append_self _ _
  constructor
  case records =>
      intro id
      rcases hrefiled.records id with ⟨hlater, hbefore⟩ | ⟨record, links, hbefore, hlater, hsame⟩
      · rw [hlater, hbefore]
      · have hlinks : links = record.links := by
          refine links_eq_of_listings
            (fun listing => lastOf? listing (Ledger.ofCandidates done).links) hsame ?_ ?_
          · intro link hmem
            rw [← hlatest]
            exact hagain.explains.links hlater hmem
          · exact fun link hmem => hentered.explains.links hbefore hmem
        rw [hlater, hbefore, hlinks]
  case rows => exact hrefiled.rows
  case hashes =>
      intro hash
      unfold Store.findByHash
      rw [hrefiled.hashes]
  case listings => exact hrefiled.listings
  case coordinates =>
      intro coordinate
      unfold Store.findByCoordinate
      rw [hrefiled.noneNew]
  case seenFiles =>
      intro file
      have hfiles : lastWith? file (Ledger.ofCandidates (done ++ done)).files =
          lastWith? file (Ledger.ofCandidates done).files := by
        have hsplit : (Ledger.ofCandidates (done ++ done)).files =
            (Ledger.ofCandidates done).files ++ (Ledger.ofCandidates done).files := htwice
        rw [hsplit]
        exact lastLink?_append_self _ _
      unfold Store.seenFileOwner
      rw [hagain.explains.seenFiles, hentered.explains.seenFiles, hfiles]
      refine congrArg _ (funext fun link => hrefiled.listings link.listing)

end Catalog

namespace Indexer

variable {σ : Type} (indexer later : Indexer) (platform : Platform σ)

/-- If a full pass links all candidates that were entered before, the coordinate that a candidate
without a listing learned leads to a mod in the end. -/
theorem leads_of_all_linked {place last : Workplace σ} {report : BatchReport} {survey : Survey}
    (hfull : indexer.settings.cleanup = .full)
    (hentered : place.catalog.Entered (waves survey.expanded).flatten)
    (hsees : indexer.sees platform place.files place.memory = .ok survey)
    (hpass : indexer.pass platform place = (.ok report, last))
    (hall : report.linked = report.candidates) :
    ∀ candidate ∈ survey.expanded, candidate.link = none →
      ∀ coordinate ∈ candidate.extraCoordinate,
        ∃ id, last.catalog.store.findByCoordinate coordinate = .ok (some id) := by
  intro candidate hcandidate hnone coordinate hlearned
  obtain ⟨_, _, _, hlinked, _⟩ := indexer.expanded_spec platform hsees
  obtain ⟨outcomes, processed, hprocessed, hend⟩ :=
    indexer.pass_spec platform (Or.inl hfull) hsees hpass
  obtain ⟨_, hmet, _⟩ := hprocessed.met False hentered.coherent (fun _ => hentered.holds)
    False.elim False.elim
  have hlength : outcomes.length = survey.expanded.length :=
    hmet.length_eq.symm.trans (flatten_waves_perm survey.expanded).length_eq
  rw [hend.report_eq] at hall
  have hfine := survey.isLinked_of_counted hlinked hlength hall
  obtain ⟨outcome, houtcome, hcase⟩ := Candidate.exists_outcome hmet
    ((flatten_waves_perm survey.expanded).mem_iff.mpr hcandidate)
  rcases hcase with hwrong | ⟨_, _, _, hfinds⟩
  · rw [Outcome.isFailed_of_isLinked (hfine outcome houtcome)] at hwrong
    cases hwrong
  · obtain ⟨id, hfound⟩ := hfinds coordinate hlearned
    refine ⟨id, ?_⟩
    rw [hend.store_eq]
    exact hfound

/-- A full pass over candidates that were entered links them all and changes nothing, if every
coordinate that one of them without a listing learned leads to a mod. -/
theorem exists_pass_over_entered {place : Workplace σ} {survey : Survey}
    (hfull : indexer.settings.cleanup = .full)
    (hentered : place.catalog.Entered (waves survey.expanded).flatten)
    (halone : place.limiter.registered = [])
    (hsees : indexer.sees platform place.files place.memory = .ok survey)
    (hleads : ∀ candidate ∈ survey.expanded, candidate.link = none →
      ∀ coordinate ∈ candidate.extraCoordinate,
        ∃ id, place.catalog.store.findByCoordinate coordinate = .ok (some id)) :
    ∃ report last, indexer.pass platform place = (.ok report, last) ∧ report.indexed = 0 ∧
      report.skipped = 0 ∧ report.linked = report.candidates ∧ report.purged = 0 ∧
      place.catalog.store.Agrees last.catalog.store := by
  let done := (waves survey.expanded).flatten
  obtain ⟨hplaced, _, hindexed, hlinked, hskipped⟩ := indexer.expanded_spec platform hsees
  obtain ⟨report, last, hpass⟩ := indexer.exists_full_pass platform hfull halone hsees
  obtain ⟨outcomes, processed, hprocessed, hend⟩ :=
    indexer.pass_spec platform (Or.inl hfull) hsees hpass
  have hasked : ∀ candidate ∈ done, ∀ name ∈ candidate.asked, place.catalog.store.Finds name := by
    intro candidate hcandidate
    exact hentered.finds_asked hcandidate
      (hleads candidate ((flatten_waves_perm survey.expanded).mem_iff.mp hcandidate))
  obtain ⟨_, hmet, hfine⟩ := hprocessed.met True hentered.coherent (fun _ => hentered.holds)
    (fun _ _ hcandidate _ => hentered.linkFits hcandidate) (fun _ => hasked)
  obtain ⟨hrefiled, hall⟩ := hfine trivial
  have hnotFailed : ∀ outcome ∈ outcomes, outcome.isFailed = false :=
    fun outcome houtcome => Outcome.isFailed_of_isLinked (hall outcome houtcome)
  have htwice : processed.Entered (done ++ done) :=
    hprocessed.entered hentered hplaced (Or.inl fun _ h => h) hnotFailed
  have habsent : processed.store.absentIds (survey.present outcomes) = [] := by
    refine htwice.absentIds_eq_nil hmet hnotFailed ?_ survey.passed
    exact List.append_subset.mpr ⟨List.Subset.refl _, List.Subset.refl _⟩
  have hswept : processed.store.swept (survey.present outcomes) = processed.store := by
    unfold Store.swept
    rw [habsent]
    rfl
  have hlength : outcomes.length = survey.expanded.length :=
    hmet.length_eq.symm.trans (flatten_waves_perm survey.expanded).length_eq
  have hcounted := survey.counted_of_linked hall
  rw [hlinked, Nat.zero_add, hlength] at hcounted
  have hagrees := hentered.agrees htwice hrefiled
  refine ⟨report, last, hpass, ?_⟩
  generalize last.catalog = catalog at hend ⊢
  cases hend with
  | keeps _ =>
      rw [hcounted]
      exact ⟨hindexed, hskipped, rfl, rfl, hagrees⟩
  | sweeps _ _ _ =>
      rw [hcounted, habsent, hswept]
      exact ⟨hindexed, hskipped, rfl, rfl, hagrees⟩

/-- After a pass from an empty catalog in which nothing fails, a full one that sees the same finds
everything linked and leaves the store as it is, if and only if every coordinate that a candidate
without a listing learned from a bundled copy leads to a mod. -/
theorem second_full_pass_iff {first after again : Workplace σ} {report : BatchReport}
    {survey : Survey} (hempty : first.catalog = .empty)
    (hpass : indexer.pass platform first = (.ok report, after)) (hfailed : report.failed = [])
    (hfirst : indexer.sees platform first.files first.memory = .ok survey)
    (hlater : later.settings.cleanup = .full) (hreopens : again.catalog.Reopens after.catalog)
    (halone : again.limiter.registered = [])
    (hagain : later.sees platform again.files again.memory = .ok survey) :
    (∃ next last, later.pass platform again = (.ok next, last) ∧ next.indexed = 0 ∧
        next.skipped = 0 ∧ next.linked = next.candidates ∧ next.purged = 0 ∧
        after.catalog.store.Agrees last.catalog.store) ↔
      ∀ candidate ∈ survey.expanded, candidate.link = none →
        ∀ coordinate ∈ candidate.extraCoordinate,
          ∃ id, after.catalog.store.findByCoordinate coordinate = .ok (some id) := by
  have hentered : again.catalog.Entered (waves survey.expanded).flatten :=
    (indexer.entered_of_pass platform hempty hpass hfailed hfirst).reopen hreopens
  rw [← hreopens.store_eq]
  constructor
  · rintro ⟨next, last, hnext, _, _, hall, _, hagrees⟩ candidate hcandidate hlink name hname
    obtain ⟨id, hfound⟩ := later.leads_of_all_linked platform hlater hentered hagain hnext hall
      candidate hcandidate hlink name hname
    exact ⟨id, (hagrees.coordinates name).symm.trans hfound⟩
  · exact later.exists_pass_over_entered platform hlater hentered halone hagain

/-- The only candidate of a directory with one jar has a listing, so a second pass over it, which
remembers nothing of the first, changes nothing. -/
theorem second_full_pass_over_one_jar : ∃ report after next last,
    (OneJar.indexer .full).pass OneJar.platform.toPlatform (OneJar.stocked .empty) =
      (.ok report, after) ∧
    (OneJar.indexer .full).pass OneJar.platform.toPlatform
      (OneJar.stocked ⟨after.catalog.store, .empty⟩) = (.ok next, last) ∧
    next.indexed = 0 ∧ next.skipped = 0 ∧ next.linked = next.candidates ∧ next.purged = 0 ∧
    after.catalog.store.Agrees last.catalog.store := by
  obtain ⟨survey, found, report, after, hsees, -, hexpanded, hlink, hpass, hfailed⟩ :=
    OneJar.exists_pass .full
  have hlisted : ∀ candidate ∈ survey.expanded, candidate.link = none →
      ∀ coordinate ∈ candidate.extraCoordinate,
        ∃ id, after.catalog.store.findByCoordinate coordinate = .ok (some id) := by
    intro candidate hcandidate hnone
    rw [hexpanded, List.mem_singleton] at hcandidate
    rw [hcandidate, hlink] at hnone
    cases hnone
  have hreopens : (OneJar.stocked ⟨after.catalog.store, .empty⟩).catalog.Reopens after.catalog :=
    Or.inr rfl
  obtain ⟨next, last, hnext⟩ := (second_full_pass_iff (OneJar.indexer .full) (OneJar.indexer .full)
    OneJar.platform.toPlatform rfl hpass hfailed hsees rfl hreopens rfl hsees).mpr hlisted
  exact ⟨report, after, next, last, hpass, hnext⟩

end Indexer

end ModCatalog
