import ModCatalog.Proofs.Resolution.Entries

/-!
# Candidates that are met again

The content of a candidate that was settled is known, and its listing leads where it did.  Meeting
it again writes no rows and moves nothing: whatever fails, at most a coordinate is new, and if none
is, nothing but the files of links is written again.
-/

namespace ModCatalog

/-- A store with the same rows, contents and listings, and no fewer coordinates. -/
structure Store.Retained (store after : Store) : Prop where
  rows : after.rows = store.rows
  hashes : after.hashes = store.hashes
  listings (listing : Listing) : after.listings.get? listing = store.listings.get? listing
  coordinates {coordinate : String} : (store.coordinates.get? coordinate).isSome →
    (after.coordinates.get? coordinate).isSome

/-- A retained store in which only links may have other files. -/
structure Store.Refiled (store after : Store) : Prop extends store.Retained after where
  noneNew : after.coordinates = store.coordinates
  records (id : Nat) : (after.mod? id = none ∧ store.mod? id = none) ∨
    ∃ record links, store.mod? id = some record ∧
      after.mod? id = some { record with links := links } ∧
      links.map PlatformLink.listing = record.listings

/-- The coordinates that are asked for when a candidate whose content is known is met. -/
def Candidate.asked (candidate : Candidate) : List String :=
  match candidate.link with
  | some _ => candidate.extraCoordinate.toList
  | none => candidate.artifact.coordinate.toList ++ candidate.extraCoordinate.toList

/-- Whether a coordinate leads to a mod. -/
def Store.Finds (store : Store) (coordinate : String) : Prop :=
  ∃ id, store.findByCoordinate coordinate = .ok (some id)

namespace Store

variable {store middle after : Store}

theorem Retained.refl (store : Store) : store.Retained store :=
  ⟨rfl, rfl, fun _ => rfl, fun h => h⟩

theorem Retained.trans (hfirst : store.Retained middle) (hnext : middle.Retained after) :
    store.Retained after :=
  ⟨hnext.rows.trans hfirst.rows, hnext.hashes.trans hfirst.hashes,
    fun listing => (hnext.listings listing).trans (hfirst.listings listing),
    fun h => hnext.coordinates (hfirst.coordinates h)⟩

theorem Refiled.refl (store : Store) : store.Refiled store := by
  refine ⟨.refl store, rfl, ?_⟩
  intro id
  cases hrecord : store.mod? id with
  | none => exact Or.inl ⟨rfl, rfl⟩
  | some record => exact Or.inr ⟨record, record.links, rfl, rfl, rfl⟩

theorem Refiled.trans (hfirst : store.Refiled middle) (hnext : middle.Refiled after) :
    store.Refiled after := by
  refine ⟨hfirst.toRetained.trans hnext.toRetained, hnext.noneNew.trans hfirst.noneNew, ?_⟩
  intro id
  rcases hfirst.records id with ⟨hmiddle, hstore⟩ | ⟨record, links, hstore, hmiddle, hlinks⟩
  · rcases hnext.records id with ⟨hafter, _⟩ | ⟨_, _, hsome, _⟩
    · exact Or.inl ⟨hafter, hstore⟩
    · cases hmiddle.symm.trans hsome
  · rcases hnext.records id with ⟨_, hnone⟩ | ⟨_, later, hsome, hafter, hsame⟩
    · cases hmiddle.symm.trans hnone
    · cases hmiddle.symm.trans hsome
      exact Or.inr ⟨record, later, hstore, hafter, hsame.trans hlinks⟩

theorem Retained.holds (hretained : store.Retained after) {candidate : Candidate} {id : Nat}
    (hholds : Resolving.Holds candidate id store) : Resolving.Holds candidate id after := by
  refine ⟨?_, ?_⟩
  · have hfound := hholds.1
    unfold findByHash at hfound ⊢
    rw [hretained.hashes, hfound]
  · intro link hlink
    exact (hretained.listings link.listing).trans (hholds.2 link hlink)

theorem Retained.finds (hretained : store.Retained after) {coordinate : String}
    (hfinds : store.Finds coordinate) : after.Finds coordinate := by
  obtain ⟨id, hfound⟩ := hfinds
  obtain ⟨hkey, hleads⟩ := findByCoordinate_eq_some.mp hfound
  obtain ⟨owner, howner⟩ := Option.isSome_iff_exists.mp
    (hretained.coordinates (Option.isSome_of_eq_some hleads))
  exact ⟨owner, findByCoordinate_eq_some.mpr ⟨hkey, howner⟩⟩

theorem listings_withLink {record : ModRecord} {link : PlatformLink}
    (hlisted : link.listing ∈ record.listings) :
    ∃ links, record.withLink link = { record with links := links } ∧
      links.map PlatformLink.listing = record.listings := by
  refine ⟨(record.withLink link).links, ?_, ?_⟩
  · unfold ModRecord.withLink
    split <;> rfl
  · exact (record.listings_withLink link).trans (if_pos hlisted)

end Store

namespace Transaction

variable {store after : Store} {link : PlatformLink} {id : Nat}

/-- A listing that leads to a mod already is attached to it without absorbing any other. -/
theorem refiled_attachPlatform (hstore : store.Exact)
    (hleads : store.listings.get? link.listing = some id) {absorbed : Option Nat}
    (h : (attachPlatform id link).run store = .ok (absorbed, after)) :
    absorbed = none ∧ store.Refiled after := by
  obtain ⟨target, htarget, hholder, hcases⟩ := attachPlatform_spec hstore.keyed h
  have hnone : absorbed = none := by
    rw [hholder, Store.findByListing, hleads]
    simp
  subst hnone
  rcases hcases with ⟨_, rfl⟩ | ⟨_, _, hsome, _⟩
  · obtain ⟨found, hfound, hlisted⟩ := hstore.listings hleads
    cases htarget.symm.trans hfound
    obtain ⟨links, hrecord, hlinks⟩ := Store.listings_withLink hlisted
    refine ⟨rfl, ⟨rfl, rfl, ?_, fun h => h⟩, rfl, ?_⟩
    · intro listing
      dsimp only
      rw [Table.get?_put]
      split
      · next heq => rw [heq, hleads]
      · rfl
    · intro other
      unfold Store.mod?
      dsimp only
      rw [Table.get?_put]
      split
      · next heq =>
          subst heq
          exact Or.inr ⟨target, links, htarget, congrArg some hrecord, hlinks⟩
      · exact (Store.Refiled.refl store).records other
  · cases hsome

theorem exists_run_attachPlatform (hstore : store.Exact)
    (hleads : store.listings.get? link.listing = some id)
    (hkey : Store.checkWrite link.listing.key 0 = .ok ()) :
    ∃ after, (attachPlatform id link).run store = .ok (none, after) := by
  obtain ⟨target, htarget, _⟩ := hstore.listings hleads
  have hholder : (store.findByListing link.listing).filter (· ≠ id) = none := by
    rw [Store.findByListing, hleads]
    simp
  refine ⟨{ store with
    listings := store.listings.put link.listing target.id
    mods := store.mods.put (target.withLink link).id (target.withLink link) }, ?_⟩
  simp only [attachPlatform, run_bind_eq_ok, run_requireMod_eq_ok, run_get_eq_ok]
  refine ⟨target, store, ⟨htarget, rfl⟩, store, store, ⟨rfl, rfl⟩, ?_⟩
  rw [hholder]
  simp only [Option.bind_none, run_bind_eq_ok, run_pure_eq_ok, run_setLink_eq_ok,
    run_writeMod_eq_ok]
  exact ⟨target, store, ⟨rfl, rfl⟩, _, _, ⟨hkey, rfl, rfl⟩, (), _, rfl, trivial, rfl⟩

theorem refiled_markFileSeen {value : PUnit}
    (h : (markFileSeen link id).run store = .ok (value, after)) : store.Refiled after := by
  obtain ⟨_, rfl⟩ := run_putFileOwner_eq_ok.mp h
  have hrefl := Store.Refiled.refl store
  exact ⟨⟨rfl, rfl, fun _ => rfl, fun h => h⟩, rfl, hrefl.records⟩

theorem retained_linkCoordinate {coordinate : String} {value : PUnit}
    (h : (linkCoordinate id coordinate).run store = .ok (value, after)) :
    store.Retained after ∧ (after.coordinates.get? coordinate).isSome := by
  obtain ⟨record, _, rfl⟩ := linkCoordinate_spec h
  dsimp only
  refine ⟨⟨rfl, rfl, fun _ => rfl, ?_⟩, ?_⟩
  · intro other hleads
    rw [Table.get?_put]
    split
    · rfl
    · exact hleads
  · rw [Table.get?_put, if_pos rfl]
    rfl

end Transaction

namespace Resolving

variable {α β : Type} {catalog : Catalog} {fine : Prop}

/-- Work that meets again what it met before: from a coherent catalog it leaves a coherent one that
retains what there was, whether it succeeds or not.  If all is `fine`, it succeeds and writes
nothing but the files of links. -/
structure Meets (fine : Prop) (work : Resolving α) (catalog : Catalog)
    (post : α → Catalog → Prop) : Prop where
  coherent : (work.exec catalog).2.Coherent
  retained : catalog.store.Retained (work.exec catalog).2.store
  refiled : fine → catalog.store.Refiled (work.exec catalog).2.store
  succeeds : fine → ∃ value, (work.exec catalog).1 = .ok value
  post {value : α} : (work.exec catalog).1 = .ok value → post value (work.exec catalog).2

/-! ## Steps -/

theorem Meets.bind {work : Resolving α} {next : α → Resolving β} {middle : α → Catalog → Prop}
    {post : β → Catalog → Prop} (hwork : Meets fine work catalog middle)
    (hnext : ∀ value between, between.Coherent → catalog.store.Retained between.store →
      middle value between → Meets fine (next value) between post) :
    Meets fine (work >>= next) catalog post := by
  obtain ⟨hbetween, hretained, hrefiled, hsucceeds, hmiddle⟩ := hwork
  cases hexec : work.exec catalog with
  | mk answer between =>
      rw [hexec] at hbetween hretained hrefiled hsucceeds hmiddle
      cases answer with
      | error fault =>
          have hnotFine : ¬fine := by
            intro hfine
            obtain ⟨value, hvalue⟩ := hsucceeds hfine
            cases hvalue
          constructor <;> rw [exec_bind_of_error hexec]
          case coherent => exact hbetween
          case retained => exact hretained
          case refiled => exact hrefiled
          case succeeds => exact fun hfine => absurd hfine hnotFine
          case post => exact nofun
      | ok value =>
          have hlast := hnext value between hbetween hretained (hmiddle rfl)
          constructor <;> rw [exec_bind_of_ok hexec]
          case coherent => exact hlast.coherent
          case retained => exact hretained.trans hlast.retained
          case refiled => exact fun hfine => (hrefiled hfine).trans (hlast.refiled hfine)
          case succeeds => exact hlast.succeeds
          case post => exact hlast.post

/-- Work that succeeds, with a refiled store. -/
theorem meets_of_refiled {work : Resolving α} {value : α} {after : Catalog}
    {post : α → Catalog → Prop} (hexec : work.exec catalog = (.ok value, after))
    (hafter : after.Coherent) (hrefiled : catalog.store.Refiled after.store)
    (hpost : post value after) : Meets fine work catalog post := by
  constructor <;> rw [hexec]
  case coherent => exact hafter
  case retained => exact hrefiled.toRetained
  case refiled => exact fun _ => hrefiled
  case succeeds => exact fun _ => ⟨value, rfl⟩
  case post =>
      intro _ hvalue
      cases hvalue
      exact hpost

theorem meets_pure {value : α} {post : α → Catalog → Prop} (hcatalog : catalog.Coherent)
    (hpost : post value catalog) : Meets fine (pure value) catalog post :=
  meets_of_refiled rfl hcatalog (.refl _) hpost

theorem meets_ask_bind {question : Store → Except Fault β} {next : β → Resolving α}
    {post : α → Catalog → Prop} (hcatalog : catalog.Coherent)
    (hfine : fine → ∃ value, question catalog.store = .ok value)
    (hnext : ∀ value, question catalog.store = .ok value → Meets fine (next value) catalog post) :
    Meets fine (ask question >>= next) catalog post := by
  have hask : (ask question).exec catalog = (question catalog.store, catalog) := rfl
  cases hanswer : question catalog.store with
  | error fault =>
      rw [hanswer] at hask
      constructor <;> rw [exec_bind_of_error hask]
      case coherent => exact hcatalog
      case retained => exact .refl _
      case refiled => exact fun _ => .refl _
      case succeeds =>
          intro holds
          obtain ⟨value, hvalue⟩ := hfine holds
          cases hanswer.symm.trans hvalue
      case post => exact nofun
  | ok value =>
      rw [hanswer] at hask
      have hlast := hnext value hanswer
      constructor <;> rw [exec_bind_of_ok hask]
      case coherent => exact hlast.coherent
      case retained => exact hlast.retained
      case refiled => exact hlast.refiled
      case succeeds => exact hlast.succeeds
      case post => exact hlast.post

/-- Contents lead where they did, so what is remembered of them stays true. -/
theorem meets_transact {change : Transaction α} {post : α → Catalog → Prop}
    (hcatalog : catalog.Coherent)
    (hchange : ∀ {value after}, change.run catalog.store = .ok (value, after) →
      after.Exact ∧ catalog.store.Retained after ∧ post value { catalog with store := after })
    (hfine : fine → ∃ value after, change.run catalog.store = .ok (value, after) ∧
      catalog.store.Refiled after) :
    Meets fine (transact change) catalog post := by
  cases hrun : change.run catalog.store with
  | error fault =>
      constructor <;> rw [exec_transact_of_error hrun]
      case coherent => exact hcatalog
      case retained => exact .refl _
      case refiled => exact fun _ => .refl _
      case succeeds =>
          intro holds
          obtain ⟨value, after, hok, _⟩ := hfine holds
          cases hrun.symm.trans hok
      case post => exact nofun
  | ok pair =>
      obtain ⟨value, after⟩ := pair
      obtain ⟨hexact, hretained, hpost⟩ := hchange hrun
      constructor <;> rw [exec_transact_of_ok hrun]
      case coherent =>
          refine ⟨hexact, ?_⟩
          intro hash id hremembered
          have hfound := hcatalog.remembered hremembered
          unfold Store.findByHash at hfound ⊢
          rwa [hretained.hashes]
      case retained => exact hretained
      case refiled =>
          intro holds
          obtain ⟨_, _, hok, hrefiled⟩ := hfine holds
          cases hrun.symm.trans hok
          exact hrefiled
      case succeeds => exact fun _ => ⟨value, rfl⟩
      case post =>
          intro _ hvalue
          cases hvalue
          exact hpost

theorem meets_linkCoordinate (hcatalog : catalog.Coherent) (id : Nat) {coordinate : Option String}
    (hfine : fine → ∀ name ∈ coordinate, catalog.store.Finds name) :
    Meets fine (linkCoordinate id coordinate) catalog fun _ after =>
      ∀ name ∈ coordinate, after.store.Finds name := by
  cases coordinate with
  | none => exact meets_pure hcatalog nofun
  | some name =>
      have hfinds : fine → catalog.store.Finds name := fun holds => hfine holds name rfl
      refine meets_ask_bind hcatalog ?_ fun found hfound => ?_
      · intro holds
        obtain ⟨owner, howner⟩ := hfinds holds
        exact ⟨some owner, howner⟩
      · cases found with
        | some owner =>
            refine meets_pure hcatalog ?_
            intro other hother
            cases hother
            exact ⟨owner, hfound⟩
        | none =>
            refine meets_transact hcatalog ?_ ?_
            · intro _ after hrun
              obtain ⟨hretained, hleads⟩ := Transaction.retained_linkCoordinate hrun
              obtain ⟨record, hrecord, rfl⟩ := Transaction.linkCoordinate_spec hrun
              have hexact := hcatalog.store_exact.withCoordinate hrecord name
              rw [hcatalog.store_exact.keyed hrecord] at hretained hleads ⊢
              refine ⟨hexact, hretained, ?_⟩
              intro other hother
              cases hother
              obtain ⟨owner, howner⟩ := Option.isSome_iff_exists.mp hleads
              have hkey := Store.checkRead_of_findByCoordinate hfound
              exact ⟨owner, Store.findByCoordinate_eq_some.mpr ⟨hkey, howner⟩⟩
            · intro holds
              obtain ⟨owner, howner⟩ := hfinds holds
              cases hfound.symm.trans howner

/-- Whether the keys of the listing and of the file of a link fit. -/
def LinkFits (link : PlatformLink) : Prop :=
  Store.checkWrite link.listing.key 0 = .ok () ∧
    Store.checkWrite link.file.key Store.idLength = .ok ()

theorem meets_takeListing (hcatalog : catalog.Coherent) {id : Nat} {link : PlatformLink}
    (hleads : catalog.store.findByListing link.listing = some id) (hfine : fine → LinkFits link) :
    Meets fine (takeListing id link) catalog fun _ _ => True := by
  have hstore := hcatalog.store_exact
  have hattach : Meets fine (attachListing id link) catalog fun _ _ => True := by
    have htransact : Meets fine (transact (.attachPlatform id link)) catalog fun absorbed _ =>
        absorbed = none := by
      refine meets_transact hcatalog ?_ ?_
      · intro absorbed after hrun
        obtain ⟨hnone, hrefiled⟩ := Transaction.refiled_attachPlatform hstore hleads hrun
        exact ⟨(hstore.attachPlatform_spec hrun).1, hrefiled.toRetained, hnone⟩
      · intro holds
        obtain ⟨after, hrun⟩ := Transaction.exists_run_attachPlatform hstore hleads (hfine holds).1
        exact ⟨none, after, hrun, (Transaction.refiled_attachPlatform hstore hleads hrun).2⟩
    refine htransact.bind ?_
    rintro absorbed between hbetween _ rfl
    exact meets_pure hbetween trivial
  refine hattach.bind fun _ between hbetween _ _ => meets_transact hbetween ?_ ?_
  · intro _ after hrun
    have hretained := (Transaction.refiled_markFileSeen hrun).toRetained
    obtain ⟨_, rfl⟩ := Transaction.run_putFileOwner_eq_ok.mp hrun
    exact ⟨hbetween.store_exact.kept _ between.store.rows, hretained, trivial⟩
  · intro holds
    have hrun : (Transaction.markFileSeen link id).run between.store =
        .ok ((), { between.store with seenFiles := between.store.seenFiles.put link.file id }) :=
      Transaction.run_putFileOwner_eq_ok.mpr ⟨(hfine holds).2, rfl⟩
    exact ⟨(), _, hrun, Transaction.refiled_markFileSeen hrun⟩

/-! ## Candidates -/

theorem meets_resolveKnown (hcatalog : catalog.Coherent) {candidate : Candidate} {id : Nat}
    (hholds : Holds candidate id catalog.store)
    (hlink : fine → ∀ link ∈ candidate.link, LinkFits link)
    (hasked : fine → ∀ name ∈ candidate.asked, catalog.store.Finds name) :
    Meets fine (resolveKnown candidate id) catalog fun answer after => answer = .known id ∧
      ∀ name ∈ candidate.extraCoordinate, after.store.Finds name := by
  have hlearned : ∀ name ∈ candidate.extraCoordinate, name ∈ candidate.asked := by
    intro name hname
    unfold Candidate.asked
    cases candidate.link with
    | some link => exact Option.mem_toList.mpr hname
    | none => exact List.mem_append_right _ (Option.mem_toList.mpr hname)
  have hrest : ∀ between : Catalog, between.Coherent → catalog.store.Retained between.store →
      Meets fine (do linkCoordinate id candidate.extraCoordinate; return Resolution.known id)
        between fun answer after => answer = .known id ∧
          ∀ name ∈ candidate.extraCoordinate, after.store.Finds name := by
    intro between hbetween hretained
    have hfine : fine → ∀ name ∈ candidate.extraCoordinate, between.store.Finds name :=
      fun holds name hname => hretained.finds (hasked holds name (hlearned name hname))
    refine (meets_linkCoordinate hbetween id hfine).bind fun _ after hafter _ hleads => ?_
    exact meets_pure hafter ⟨rfl, hleads⟩
  unfold resolveKnown
  cases hcandidate : candidate.link with
  | some link =>
      have hlisted := hholds.2 link hcandidate
      have hfits : fine → LinkFits link := fun holds => hlink holds link hcandidate
      refine (meets_takeListing hcatalog hlisted hfits).bind ?_
      exact fun _ between hbetween hretained _ => hrest between hbetween hretained
  | none =>
      have hstated : fine → ∀ name ∈ candidate.artifact.coordinate, catalog.store.Finds name := by
        intro holds name hname
        refine hasked holds name ?_
        unfold Candidate.asked
        rw [hcandidate]
        exact List.mem_append_left _ (Option.mem_toList.mpr hname)
      refine (meets_linkCoordinate hcatalog id hstated).bind ?_
      exact fun _ between hbetween hretained _ => hrest between hbetween hretained

/-- Looking a known content up finds its mod, and changes nothing but what is remembered. -/
theorem meets_knownHash (hcatalog : catalog.Coherent) {hash : String} {id : Nat}
    (hfound : catalog.store.findByHash hash = .ok (some id)) :
    Meets fine (knownHash hash) catalog fun owner after =>
      owner = some id ∧ after.store = catalog.store := by
  obtain ⟨hafter, _, hensured⟩ := ensures_knownHash hash hcatalog
  have hget : (get : Resolving Catalog).exec catalog = (.ok catalog, catalog) := rfl
  have hask : (ask (·.findByHash hash)).exec catalog = (.ok (some id), catalog) :=
    congrArg (·, catalog) hfound
  have hanswer : ((knownHash hash).exec catalog).1 = .ok (some id) := by
    unfold knownHash
    rw [exec_bind_of_ok hget]
    cases hremembered : catalog.identities.get? hash with
    | some other =>
        cases hfound.symm.trans (hcatalog.remembered hremembered)
        rfl
    | none =>
        dsimp only
        rw [exec_bind_of_ok hask]
        rfl
  have hstore := (hensured _ hanswer).1
  refine meets_of_refiled (Prod.ext hanswer rfl) hafter ?_ ⟨rfl, hstore⟩
  rw [hstore]
  exact .refl _

theorem meets_resolve (hcatalog : catalog.Coherent) {candidate : Candidate} {id : Nat}
    (hholds : Holds candidate id catalog.store)
    (hlink : fine → ∀ link ∈ candidate.link, LinkFits link)
    (hasked : fine → ∀ name ∈ candidate.asked, catalog.store.Finds name) :
    Meets fine (resolve candidate) catalog fun answer after => answer = .known id ∧
      ∀ name ∈ candidate.extraCoordinate, after.store.Finds name := by
  refine (meets_knownHash hcatalog hholds.1).bind ?_
  rintro _ between hbetween hretained ⟨rfl, hstore⟩
  refine meets_resolveKnown hbetween (hretained.holds hholds) hlink ?_
  exact fun holds name hname => hretained.finds (hasked holds name hname)

end Resolving

open Resolving

variable {catalog : Catalog} {fine : Prop}

/-- An attempt on a candidate whose content and listing lead to a mod finds that mod, if it finds
any. -/
theorem Attempt.meets_run (attempt : Attempt) (hcatalog : catalog.Coherent) {id : Nat}
    (hholds : Holds attempt.candidate id catalog.store)
    (hlink : fine → ∀ link ∈ attempt.candidate.link, LinkFits link)
    (hasked : fine → ∀ name ∈ attempt.candidate.asked, catalog.store.Finds name) :
    Meets fine attempt.run catalog fun answer after => answer = .known id ∧
      ∀ name ∈ attempt.candidate.extraCoordinate, after.store.Finds name := by
  rw [attempt.run_eq]
  refine (meets_resolve hcatalog hholds hlink hasked).bind ?_
  rintro _ after hafter _ ⟨rfl, hleads⟩
  exact meets_pure hafter ⟨rfl, hleads⟩

end ModCatalog
