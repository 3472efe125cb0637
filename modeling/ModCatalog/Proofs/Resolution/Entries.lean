import ModCatalog.Proofs.Expansion.Names
import ModCatalog.Proofs.Indexing.Process
import ModCatalog.Proofs.Store.Ledger

/-!
# What a candidate adds to the ledger

A candidate that is settled adds its link, its file, its content and its coordinates to the ledger
of the store.  Only a candidate without a listing can be left out, and only because its coordinate
leads to a mod before.
-/

namespace ModCatalog

/-- The coordinates that lead to a mod once a candidate is settled.  A coordinate that a candidate
without a listing learned from a bundled copy is not among them. -/
def Candidate.led (candidate : Candidate) : List String :=
  match candidate.link with
  | some _ => candidate.extraCoordinate.toList
  | none => candidate.artifact.coordinate.toList

namespace Ledger

/-- The ledger with the link of a candidate and the coordinates that lead to a mod with it. -/
def link (ledger : Ledger) (candidate : Candidate) : Ledger :=
  { ledger with
    links := ledger.links ++ candidate.link.toList
    led := ledger.led ++ candidate.led }

/-- The ledger with all that a settled candidate adds. -/
def enter (ledger : Ledger) (candidate : Candidate) : Ledger where
  links := ledger.links ++ candidate.link.toList
  files := ledger.files ++ candidate.link.toList
  hashes := ledger.hashes ++ [candidate.artifact.contentHash]
  names := ledger.names ++ candidate.names
  led := ledger.led ++ candidate.led

/-- The ledger of candidates that were settled in order. -/
def ofCandidates (done : List Candidate) : Ledger where
  links := done.filterMap Candidate.link
  files := done.filterMap Candidate.link
  hashes := done.map fun candidate => candidate.artifact.contentHash
  names := done.flatMap Candidate.names
  led := done.flatMap Candidate.led

theorem ofCandidates_concat (done : List Candidate) (candidate : Candidate) :
    ofCandidates (done ++ [candidate]) = (ofCandidates done).enter candidate := by
  cases hlink : candidate.link <;> simp [ofCandidates, enter, hlink]

theorem Explains.weaken {ledger weaker : Ledger} {store : Store} (hexplains : ledger.Explains store)
    (hlinks : weaker.links = ledger.links) (hfiles : weaker.files = ledger.files)
    (hhashes : ledger.hashes ⊆ weaker.hashes) (hnames : ledger.names ⊆ weaker.names)
    (hled : weaker.led ⊆ ledger.led) : weaker.Explains store := by
  constructor
  case links =>
      rw [hlinks]
      exact hexplains.links
  case listed =>
      rw [hfiles]
      exact hexplains.listed
  case seenFiles =>
      rw [hfiles]
      exact hexplains.seenFiles
  case rows =>
      intro id hrows
      obtain ⟨hash, hmem, howner⟩ := hexplains.rows hrows
      exact ⟨hash, hhashes hmem, howner⟩
  case noted => exact hexplains.noted
  case coordinates => exact fun hleads => hnames (hexplains.coordinates hleads)
  case led => exact fun hmem => hexplains.led (hled hmem)
  case listingKeys =>
      rw [hlinks]
      exact hexplains.listingKeys
  case fileKeys =>
      rw [hfiles]
      exact hexplains.fileKeys

end Ledger

namespace Resolving

variable {α : Type} {catalog : Catalog} {ledger : Ledger}

/-! ## Steps -/

theorem Ensures.and {work : Resolving α} {post more : α → Catalog → Prop}
    (hwork : Ensures work catalog post)
    (hmore : ∀ value after, work.exec catalog = (.ok value, after) → more value after) :
    Ensures work catalog fun value after => post value after ∧ more value after := by
  intro hcatalog
  obtain ⟨hafter, hcarries, hpost⟩ := hwork hcatalog
  exact ⟨hafter, hcarries, fun value hvalue => ⟨hpost value hvalue, hmore value _ (Prod.ext hvalue rfl)⟩⟩

theorem Ensures.with_run {change : Transaction α} {post : α → Catalog → Prop}
    (hwork : Ensures (transact change) catalog post) :
    Ensures (transact change) catalog fun value after =>
      post value after ∧ change.run catalog.store = .ok (value, after.store) :=
  hwork.and fun _ _ hexec => run_of_exec_transact hexec

theorem run_of_exec_attachListing {id : Nat} {link : PlatformLink} {value : Unit}
    {after : Catalog} (h : (attachListing id link).exec catalog = (.ok value, after)) :
    ∃ absorbed, (Transaction.attachPlatform id link).run catalog.store =
      .ok (absorbed, after.store) := by
  obtain ⟨absorbed, between, hattach, hforget⟩ := steps_of_run_bind h
  refine ⟨absorbed, ?_⟩
  rw [run_of_exec_transact hattach]
  cases absorbed with
  | none =>
      cases hforget
      rfl
  | some old =>
      cases hforget
      rfl

section Explained

variable (hexplains : ledger.Explains catalog.store)

include hexplains

theorem ensures_linkCoordinate_explains (id : Nat) {coordinate : Option String}
    (hnames : ∀ name ∈ coordinate, name ∈ ledger.names) :
    Ensures (linkCoordinate id coordinate) catalog fun _ after =>
      catalog.store.SameOwners after.store ∧
        Ledger.Explains { ledger with led := ledger.led ++ coordinate.toList } after.store := by
  refine .of_coherent fun hcatalog => (ensures_linkCoordinate id coordinate).and ?_
  intro value after h
  cases coordinate with
  | none =>
      cases h
      rwa [Option.toList_none, List.append_nil]
  | some name =>
      obtain ⟨owner, between, hask, hlink⟩ := steps_of_run_bind h
      have hanswer : catalog.store.findByCoordinate name = .ok owner := congrArg Prod.fst hask
      obtain rfl : catalog = between := congrArg Prod.snd hask
      cases owner with
      | some owner =>
          cases hlink
          refine { hexplains with led := ?_ }
          intro other hmem
          rcases List.mem_append.mp hmem with hbefore | hnew
          · exact hexplains.led hbefore
          · rw [Option.mem_toList.mp hnew |> Option.some.inj |>.symm]
            exact ⟨owner, hanswer⟩
      | none =>
          refine hexplains.linkCoordinate hcatalog.store_exact (hnames name rfl)
            (Store.checkRead_of_findByCoordinate hanswer) (run_of_exec_transact hlink)

theorem ensures_takeListing_explains (id : Nat) (link : PlatformLink) :
    Ensures (takeListing id link) catalog fun _ after =>
      ((∀ hash, catalog.store.findByHash hash = .ok (some id) →
        after.store.findByHash hash = .ok (some id)) ∧
      after.store.findByListing link.listing = some id) ∧
      Ledger.Explains { ledger with
        links := ledger.links ++ [link], files := ledger.files ++ [link] } after.store := by
  refine .of_coherent fun hcatalog => (ensures_takeListing id link).and ?_
  intro value after h
  obtain ⟨_, between, hattach, hmark⟩ := steps_of_run_bind h
  obtain ⟨absorbed, hrun⟩ := run_of_exec_attachListing hattach
  have hlisted := (hcatalog.store_exact.attachPlatform_spec hrun).2.1
  exact (hexplains.attach hcatalog.store_exact hrun).markFileSeen hlisted
    (run_of_exec_transact hmark)

/-! ## Resolution -/

theorem ensures_resolveKnown_explains {candidate : Candidate} {id : Nat}
    (hnames : candidate.names ⊆ ledger.names)
    (hfound : catalog.store.findByHash candidate.artifact.contentHash = .ok (some id)) :
    Ensures (resolveKnown candidate id) catalog fun answer after =>
      answer = .known id ∧ Holds candidate id after.store ∧
        (ledger.enter candidate).Explains after.store := by
  have hstated : ∀ name ∈ candidate.artifact.coordinate, name ∈ ledger.names := fun name hname =>
    hnames (List.mem_append_left _ (Option.mem_toList.mpr hname))
  have hlearned : ∀ name ∈ candidate.extraCoordinate, name ∈ ledger.names := fun name hname =>
    hnames (List.mem_append_right _ (Option.mem_toList.mpr hname))
  unfold resolveKnown
  cases hlink : candidate.link with
  | some link =>
      refine (ensures_takeListing_explains hexplains id link).bind fun _ between hbetween => ?_
      obtain ⟨⟨hhashes, hlisting⟩, hexplains⟩ := hbetween
      refine (ensures_linkCoordinate_explains hexplains id hlearned).bind fun _ after hafter => ?_
      obtain ⟨hsame, hexplains⟩ := hafter
      have hholds : Holds candidate id between.store := by
        refine ⟨hhashes _ hfound, ?_⟩
        intro other hother
        cases hlink.symm.trans hother
        exact hlisting
      refine ensures_pure ⟨rfl, hholds.same hsame, hexplains.weaken ?_ ?_ ?_ ?_ ?_⟩
      · simp [Ledger.enter, hlink]
      · simp [Ledger.enter, hlink]
      · exact List.subset_append_left _ _
      · exact List.subset_append_left _ _
      · simp [Ledger.enter, Candidate.led, hlink]
  | none =>
      refine (ensures_linkCoordinate_explains hexplains id hstated).bind fun _ between hbetween => ?_
      obtain ⟨hfirst, hexplains⟩ := hbetween
      refine (ensures_linkCoordinate_explains hexplains id hlearned).bind fun _ after hafter => ?_
      obtain ⟨hsecond, hexplains⟩ := hafter
      have hholds : Holds candidate id catalog.store := by
        refine ⟨hfound, ?_⟩
        intro other hother
        cases hlink.symm.trans hother
      refine ensures_pure ⟨rfl, hholds.same (hfirst.trans hsecond), hexplains.weaken ?_ ?_ ?_ ?_ ?_⟩
      · simp [Ledger.enter, hlink]
      · simp [Ledger.enter, hlink]
      · exact List.subset_append_left _ _
      · exact List.subset_append_left _ _
      · simp [Ledger.enter, Candidate.led, hlink]

theorem ensures_resolveListing_explains {candidate : Candidate} {link : PlatformLink}
    (hlink : candidate.link = some link) (hnames : candidate.names ⊆ ledger.names)
    (hfree : catalog.store.findByHash candidate.artifact.contentHash = .ok none) :
    Ensures (resolveListing candidate link) catalog fun answer after =>
      (∃ id created, answer = .index id created ∧ Awaits candidate id after.store) ∧
        (ledger.link candidate).Explains after.store := by
  have hstated : ∀ name ∈ candidate.artifact.coordinate, name ∈ ledger.names := fun name hname =>
    hnames (List.mem_append_left _ (Option.mem_toList.mpr hname))
  have hlearned : ∀ name ∈ candidate.extraCoordinate, name ∈ ledger.names := fun name hname =>
    hnames (List.mem_append_right _ (Option.mem_toList.mpr hname))
  refine .of_coherent fun hcatalog => ?_
  refine (ensures_findOrCreate _ _).with_run.bind fun answer first hfirst => ?_
  obtain ⟨record, created⟩ := answer
  obtain ⟨⟨hhashes, hlisting⟩, hfound⟩ := hfirst
  refine (ensures_linkPlatform (hlisting _ rfl)).with_run.bind fun _ second hsecond => ?_
  obtain ⟨⟨hsame, hleads⟩, hlinked⟩ := hsecond
  have hexplains := hexplains.linkListing hcatalog.store_exact hstated hfound hlinked
  refine (ensures_linkCoordinate_explains hexplains _ hstated).bind fun _ third hthird => ?_
  obtain ⟨hthird, hexplains⟩ := hthird
  refine (ensures_linkCoordinate_explains hexplains _ hlearned).bind fun _ last hlast => ?_
  obtain ⟨hlast, hexplains⟩ := hlast
  have howners := hthird.trans hlast
  refine ensures_pure ⟨⟨record.id, created, rfl, ?_, ?_⟩, hexplains.weaken ?_ ?_ ?_ ?_ ?_⟩
  · rw [howners.findByHash_eq]
    unfold Store.findByHash at hfree ⊢
    rw [hsame, hhashes, hfree]
  · intro other hother
    cases hlink.symm.trans hother
    rw [howners.findByListing_eq]
    exact hleads
  · simp [Ledger.link, hlink]
  · rfl
  · exact List.Subset.refl _
  · exact List.Subset.refl _
  · intro name hname
    simp only [Ledger.link, Candidate.led, hlink, List.mem_append] at hname ⊢
    rcases hname with hbefore | hnew
    · exact Or.inl (Or.inl hbefore)
    · exact Or.inr hnew

/-- A candidate without a listing is left out only if its coordinate led to a mod before. -/
theorem ensures_resolveCoordinate_explains {candidate : Candidate} {coordinate : String}
    (hlink : candidate.link = none) (hcoordinate : candidate.artifact.coordinate = some coordinate)
    (hnames : candidate.names ⊆ ledger.names)
    (hfree : catalog.store.findByHash candidate.artifact.contentHash = .ok none) :
    Ensures (resolveCoordinate candidate coordinate) catalog fun answer after =>
      (∃ id created, answer = .index id created ∧ Awaits candidate id after.store ∧
        (ledger.link candidate).Explains after.store) ∨
      (∃ id, answer = .outdated id) ∧ (catalog.store.coordinates.get? coordinate).isSome := by
  have hname : coordinate ∈ ledger.names :=
    hnames (List.mem_append_left _ (Option.mem_toList.mpr hcoordinate))
  refine .of_coherent fun hcatalog => ?_
  refine (ensures_findOrCreate _ _).with_run.bind fun answer after hafter => ?_
  obtain ⟨record, created⟩ := answer
  obtain ⟨⟨hhashes, _⟩, hfound⟩ := hafter
  dsimp only
  split
  · next hold =>
      refine ensures_pure (Or.inr ⟨⟨record.id, rfl⟩, ?_⟩)
      rcases Transaction.findOrCreate_spec hfound with ⟨id, hfind, _⟩ | ⟨_, _, hcreated, _⟩
      · rw [(Store.findByCoordinate_eq_some.mp hfind).2]
        rfl
      · simp [hcreated] at hold
  · have hstated : ∀ own ∈ (NewMod.ofArtifact candidate.artifact).coordinate,
        own ∈ ledger.names := by
      intro own hown
      cases hcoordinate.symm.trans hown
      exact hname
    have hexplains := hexplains.findOrCreate hcatalog.store_exact hname hstated hfound
    refine ensures_pure (Or.inl ⟨record.id, created, rfl, ⟨?_, ?_⟩,
      hexplains.weaken ?_ rfl ?_ ?_ ?_⟩)
    · unfold Store.findByHash at hfree ⊢
      rw [hhashes, hfree]
    · intro other hother
      cases hlink.symm.trans hother
    · simp [Ledger.link, hlink]
    · exact List.Subset.refl _
    · exact List.Subset.refl _
    · simp [Ledger.link, Candidate.led, hlink, hcoordinate]

/-- A placed candidate whose coordinate, if it is found by that, leads nowhere yet, is known, with
all that it adds, or it is to be indexed. -/
theorem ensures_resolve_explains {candidate : Candidate} (hplaced : candidate.isPlaced)
    (hnames : candidate.names ⊆ ledger.names)
    (hnew : ∀ coordinate ∈ candidate.artifact.coordinate, candidate.link = none →
      catalog.store.findByHash candidate.artifact.contentHash = .ok none →
        catalog.store.coordinates.get? coordinate = none) :
    Ensures (resolve candidate) catalog fun answer after =>
      (∃ id, answer = .known id ∧ Holds candidate id after.store ∧
        (ledger.enter candidate).Explains after.store) ∨
      ∃ id created, answer = .index id created ∧ Awaits candidate id after.store ∧
        (ledger.link candidate).Explains after.store := by
  refine (ensures_knownHash _).bind fun owner between hbetween => ?_
  obtain ⟨hstore, hfound⟩ := hbetween
  rw [← hstore] at hfound hexplains hnew
  cases owner with
  | some id =>
      refine (ensures_resolveKnown_explains hexplains hnames hfound).mono ?_
      exact fun answer after h => Or.inl ⟨id, h⟩
  | none =>
      cases hlink : candidate.link with
      | some link =>
          refine (ensures_resolveListing_explains hexplains hlink hnames hfound).mono ?_
          intro answer after h
          obtain ⟨⟨id, created, hanswer, hawaits⟩, hexplains⟩ := h
          exact Or.inr ⟨id, created, hanswer, hawaits, hexplains⟩
      | none =>
          cases hcoordinate : candidate.artifact.coordinate with
          | none =>
              unfold Candidate.isPlaced at hplaced
              rw [hlink, hcoordinate] at hplaced
              cases hplaced
          | some coordinate =>
              refine (ensures_resolveCoordinate_explains hexplains hlink hcoordinate hnames
                hfound).mono ?_
              intro answer after h
              rcases h with ⟨id, created, h⟩ | ⟨_, hleads⟩
              · exact Or.inr ⟨id, created, h⟩
              · rw [hnew coordinate hcoordinate hlink hfound] at hleads
                cases hleads

theorem ensures_commitBatch_explains {hash : String} {id : Nat} {batch : TrackBatch}
    (hknown : batch.knownHash = some hash)
    (hfree : catalog.store.findByHash hash = .ok none) :
    Ensures (commitBatch hash id batch) catalog fun _ after =>
      (after.store.findByHash hash = .ok (some id) ∧
        after.store.listings = catalog.store.listings) ∧
      Ledger.Explains { ledger with hashes := ledger.hashes ++ [hash] } after.store := by
  refine .of_coherent fun hcatalog => (ensures_commitBatch hknown hfree).and ?_
  intro value after h
  obtain ⟨_, between, htrack, hremember⟩ := steps_of_run_bind h
  have hrun := run_of_exec_transact htrack
  cases hremember
  refine hexplains.track hcatalog.store_exact hknown ?_ hrun
  unfold Store.findByHash at hfree
  cases hread : Store.checkRead hash with
  | error fault =>
      rw [hread] at hfree
      cases hfree
  | ok _ =>
      rw [hread] at hfree
      exact Except.ok.inj hfree

end Explained

end Resolving

open Resolving

variable {catalog : Catalog}

/-- An attempt on a placed candidate whose coordinate leads nowhere yet settles it if it succeeds,
and the ledger gains what it adds. -/
theorem Attempt.ensures_run_explains (attempt : Attempt) {ledger : Ledger}
    (hexplains : ledger.Explains catalog.store) (hplaced : attempt.candidate.isPlaced)
    (hnames : attempt.candidate.names ⊆ ledger.names)
    (hnew : ∀ coordinate ∈ attempt.candidate.artifact.coordinate, attempt.candidate.link = none →
      catalog.store.findByHash attempt.candidate.artifact.contentHash = .ok none →
        catalog.store.coordinates.get? coordinate = none) :
    Ensures attempt.run catalog fun answer after =>
      answer.isStored ∧ (∃ id, Holds attempt.candidate id after.store) ∧
        (ledger.enter attempt.candidate).Explains after.store := by
  rw [attempt.run_eq]
  refine (ensures_resolve_explains hexplains hplaced hnames hnew).bind
    fun answer between hanswered => ?_
  rcases hanswered with ⟨id, rfl, hholds, hexplains⟩ | ⟨id, created, rfl, hawaits, hexplains⟩
  · exact ensures_pure ⟨rfl, ⟨id, hholds⟩, hexplains⟩
  · refine ensures_ask_bind fun aggregate _ => ?_
    refine (ensures_commitBatch_explains hexplains rfl hawaits.1).bind fun _ after hcommitted => ?_
    obtain ⟨⟨hfound, hlistings⟩, hexplains⟩ := hcommitted
    have hholds : Holds attempt.candidate id after.store := by
      refine ⟨hfound, ?_⟩
      intro link hlink
      unfold Store.findByListing
      rw [hlistings]
      exact hawaits.2 link hlink
    cases hlink : attempt.candidate.link with
    | none =>
        refine ensures_pure ⟨rfl, ⟨id, hholds⟩, hexplains.weaken ?_ ?_ ?_ ?_ ?_⟩
        · simp [Ledger.enter, Ledger.link]
        · simp [Ledger.enter, Ledger.link, hlink]
        · exact List.Subset.refl _
        · exact List.subset_append_left _ _
        · exact List.Subset.refl _
    | some link =>
        refine (ensures_markFileSeen link id).with_run.bind fun _ last hlast => ?_
        obtain ⟨hsame, hmarked⟩ := hlast
        have hexplains := hexplains.markFileSeen (hholds.2 link hlink) hmarked
        refine ensures_pure ⟨rfl, ⟨id, hholds.same hsame⟩, hexplains.weaken ?_ ?_ ?_ ?_ ?_⟩
        · simp [Ledger.enter, Ledger.link]
        · simp [Ledger.enter, Ledger.link, hlink]
        · exact List.Subset.refl _
        · exact List.subset_append_left _ _
        · exact List.Subset.refl _

/-! ## Catalogs of settled candidates -/

/-- A coherent catalog with nothing in it but settled candidates. -/
structure Catalog.Entered (done : List Candidate) (catalog : Catalog) : Prop where
  coherent : catalog.Coherent
  holds {candidate : Candidate} : candidate ∈ done → ∃ id, Holds candidate id catalog.store
  explains : (Ledger.ofCandidates done).Explains catalog.store

theorem Catalog.Entered.empty : Catalog.Entered [] Catalog.empty :=
  ⟨.empty, nofun, .empty⟩

/-- A content that was settled is known; of any other, the coordinate must be new. -/
theorem Catalog.Entered.step {done : List Candidate} (hentered : catalog.Entered done)
    {attempt : Attempt} (hplaced : attempt.candidate.isPlaced)
    (hnew : attempt.candidate ∈ done ∨
      ∀ name ∈ attempt.candidate.names, name ∉ done.flatMap Candidate.names)
    {answer : Resolution} (h : (attempt.run.exec catalog).1 = .ok answer) :
    answer.isStored ∧ (attempt.after catalog).Entered (done ++ [attempt.candidate]) := by
  have hexplains := hentered.explains.stating attempt.candidate.names
  have hfresh : ∀ coordinate ∈ attempt.candidate.artifact.coordinate,
      attempt.candidate.link = none →
      catalog.store.findByHash attempt.candidate.artifact.contentHash = .ok none →
        catalog.store.coordinates.get? coordinate = none := by
    intro coordinate hcoordinate _ hfree
    rcases hnew with hdone | hnew
    · obtain ⟨id, hfound, _⟩ := hentered.holds hdone
      cases hfree.symm.trans hfound
    · have hname : coordinate ∈ attempt.candidate.names :=
        List.mem_append_left _ (Option.mem_toList.mpr hcoordinate)
      cases hget : catalog.store.coordinates.get? coordinate with
      | none => rfl
      | some owner =>
          refine absurd (hentered.explains.coordinates ?_) (hnew coordinate hname)
          rw [hget]
          rfl
  obtain ⟨hcoherent, hcarries, hpost⟩ := attempt.ensures_run_explains hexplains hplaced
    (List.subset_append_right _ _) hfresh hentered.coherent
  obtain ⟨hstored, hholds, hexplains⟩ := hpost answer h
  refine ⟨hstored, hcoherent, ?_, ?_⟩
  · intro candidate hmem
    rcases List.mem_append.mp hmem with hdone | hlast
    · obtain ⟨id, hbefore⟩ := hentered.holds hdone
      exact hbefore.carried hcarries
    · rwa [List.mem_singleton.mp hlast]
  · rw [Ledger.ofCandidates_concat]
    refine hexplains.weaken rfl rfl (List.Subset.refl _) ?_ (List.Subset.refl _)
    exact List.append_subset.mpr ⟨List.Subset.refl _, List.subset_append_right _ _⟩

end ModCatalog
