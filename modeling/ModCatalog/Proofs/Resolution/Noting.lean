import ModCatalog.Proofs.Indexing.Process
import ModCatalog.Proofs.Resolution.Parts

/-!
# Which files an attempt notes

A file is noted under its own number and the name of its platform, without its project.  An attempt
notes the file of its candidate when the content is stored, and also when the content was known and
then a coordinate that the candidate learned does not fit the store.  It notes no other file, and a
file that was seen stays seen.
-/

namespace ModCatalog

/-- Whether a file was seen, whatever mod it belongs to. -/
def Store.Seen (store : Store) (file : FileKey) : Prop := (store.seenFileOwner file).isSome

namespace Store

variable {store : Store}

/-- Absorption hands files over to another mod, so they stay seen. -/
theorem seen_after (hstore : store.Consistent) {change : Change} (hkeeps : change.keepsSeen)
    (file : FileKey) : (store.after change).Seen file ↔ store.Seen file := by
  have hsame : ∀ {after : Store}, after.seenFiles = store.seenFiles →
      (after.Seen file ↔ store.Seen file) := by
    intro after hfiles
    unfold Seen seenFileOwner
    rw [hfiles]
  rcases after_cases store change with hafter | hrun
  · rw [hafter]
  · cases change with
    | createMod new =>
        obtain ⟨record, hcreated⟩ := Transaction.run_discard_eq_ok.mp hrun
        exact hsame (by rw [(Transaction.createMod_spec hcreated).2]; rfl)
    | findOrCreate key new =>
        obtain ⟨⟨record, created⟩, hfound⟩ := Transaction.run_discard_eq_ok.mp hrun
        rcases Transaction.findOrCreate_spec hfound with ⟨_, _, _, _, hafter⟩ | ⟨_, _, _, hafter⟩
        · rw [hafter]
        · refine hsame ?_
          rw [hafter]
          cases key <;> rfl
    | linkPlatform id link =>
        obtain ⟨record, _, hafter⟩ := Transaction.linkPlatform_spec hrun
        exact hsame (by rw [hafter])
    | linkCoordinate id coordinate =>
        obtain ⟨record, _, hafter⟩ := Transaction.linkCoordinate_spec hrun
        exact hsame (by rw [hafter])
    | attachPlatform id link =>
        obtain ⟨absorbed, hattached⟩ := Transaction.run_discard_eq_ok.mp hrun
        rcases Transaction.attachPlatform_spec hstore.keyed hattached with
          ⟨target, _, _, ⟨_, hafter⟩ | ⟨old, record, _, habsorbed⟩⟩
        · exact hsame (by rw [hafter])
        · unfold Seen seenFileOwner
          rw [habsorbed.seenFiles, Option.isSome_map]
    | deleteMod id => cases hkeeps
    | markFileSeen link id => cases hkeeps
    | track id batch =>
        obtain ⟨record, _, _, hafter⟩ := Transaction.track_spec hrun
        exact hsame (by rw [hafter]; rfl)
    | purgeRows id =>
        have hafter : { store with rows := store.rows.erase id } = store.after (.purgeRows id) :=
          Transaction.run_modify_eq_ok.mp hrun
        exact hsame (by rw [← hafter])

theorem seen_put {file other : FileKey} {id : Nat} :
    Seen { store with seenFiles := store.seenFiles.put file id } other ↔
      other = file ∨ store.Seen other := by
  unfold Seen seenFileOwner
  rw [Table.get?_put]
  by_cases hother : other = file <;> simp [hother]

end Store

namespace Resolving

variable {α β : Type} {catalog : Catalog}

/-! ## Work that notes no file -/

/-- Whether work keeps a store consistent and leaves it alone which files were seen. -/
def Quiet (work : Resolving α) : Prop :=
  ∀ catalog : Catalog, catalog.store.Consistent → (work.exec catalog).2.store.Consistent ∧
    ∀ file, (work.exec catalog).2.store.Seen file ↔ catalog.store.Seen file

theorem quiet_of_same {work : Resolving α}
    (hsame : ∀ catalog, (work.exec catalog).2.store = catalog.store) : Quiet work := by
  intro catalog hstore
  rw [hsame]
  exact ⟨hstore, fun _ => Iff.rfl⟩

theorem Quiet.bind {work : Resolving α} {next : α → Resolving β} (hwork : Quiet work)
    (hnext : ∀ value, Quiet (next value)) : Quiet (work >>= next) := by
  intro catalog hstore
  have hplace := hwork catalog hstore
  cases hexec : work.exec catalog with
  | mk answer between =>
      rw [hexec] at hplace
      obtain ⟨hbetween, hseen⟩ := hplace
      cases answer with
      | error fault =>
          rw [exec_bind_of_error hexec]
          exact ⟨hbetween, hseen⟩
      | ok value =>
          rw [exec_bind_of_ok hexec]
          obtain ⟨hafter, hlater⟩ := hnext value between hbetween
          exact ⟨hafter, fun file => (hlater file).trans (hseen file)⟩

theorem quiet_transact {transaction : Transaction α} (change : Store.Change)
    (hkeeps : change.keepsSeen)
    (hchange : ∀ store : Store, (transaction.commit store).2 = store.after change) :
    Quiet (transact transaction) := by
  intro catalog hstore
  have hafter : ((transact transaction).exec catalog).2.store = catalog.store.after change :=
    hchange catalog.store
  rw [hafter]
  exact ⟨(hstore.effect change).consistent hstore, Store.seen_after hstore hkeeps⟩

theorem closed_quiet : Closed Quiet where
  pure _ := quiet_of_same fun _ => rfl
  bind := Quiet.bind
  ask _ := quiet_of_same fun _ => rfl
  updateIdentities _ := quiet_of_same fun _ => rfl
  transact := quiet_transact

/-! ## What an attempt notes -/

def IsStored (answer : Except Fault Resolution) : Prop :=
  ∃ value, answer = .ok value ∧ value.isStored

/-- Which files are seen after work that gave an answer to a candidate: those that were seen, and
if it came to the candidate's file, that one. -/
inductive Notes (candidate : Candidate) (store : Store) (answer : Except Fault Resolution)
    (after : Store) : Prop
  | nothing (hseen : ∀ file, after.Seen file ↔ store.Seen file)
      (hstored : IsStored answer → candidate.link = none)
  | file (link : PlatformLink) (hlink : candidate.link = some link)
      (hseen : ∀ file, after.Seen file ↔ file = link.file ∨ store.Seen file)
      (hanswer : IsStored answer ∨ (∃ fault, answer = .error fault) ∧
        ∃ name ∈ candidate.extraCoordinate, Store.checkWrite name 0 ≠ .ok ())

variable {candidate : Candidate}

theorem Quiet.notes {work : Resolving Resolution} (hwork : Quiet work)
    (hcatalog : catalog.Coherent)
    (hstored : IsStored (work.exec catalog).1 → candidate.link = none) :
    Notes candidate catalog.store (work.exec catalog).1 (work.exec catalog).2.store :=
  .nothing (hwork catalog hcatalog.store_exact.toConsistent).2 hstored

theorem not_isStored_error {fault : Fault} : ¬IsStored (.error fault) := by
  intro h
  obtain ⟨value, hvalue, _⟩ := h
  cases hvalue

/-- What comes before the file is noted can fail, and then no file is noted. -/
theorem Quiet.bind_notes {work : Resolving α} {next : α → Resolving Resolution}
    {middle : α → Catalog → Prop} (hwork : Quiet work) (hensures : Ensures work catalog middle)
    (hcatalog : catalog.Coherent)
    (hnext : ∀ value between, work.exec catalog = (.ok value, between) → between.Coherent →
      middle value between → Notes candidate between.store ((next value).exec between).1
        ((next value).exec between).2.store) :
    Notes candidate catalog.store ((work >>= next).exec catalog).1
      ((work >>= next).exec catalog).2.store := by
  obtain ⟨hbetween, _, hmiddle⟩ := hensures hcatalog
  have hquiet := (hwork catalog hcatalog.store_exact.toConsistent).2
  cases hexec : work.exec catalog with
  | mk answer between =>
      rw [hexec] at hbetween hmiddle hquiet
      cases answer with
      | error fault =>
          rw [exec_bind_of_error hexec]
          exact .nothing hquiet fun hstored => absurd hstored not_isStored_error
      | ok value =>
          rw [exec_bind_of_ok hexec]
          cases hnext value between hexec hbetween (hmiddle value rfl) with
          | nothing hseen hstored =>
              exact .nothing (fun file => (hseen file).trans (hquiet file)) hstored
          | file link hlink hseen hanswer =>
              refine .file link hlink (fun file => ?_) hanswer
              rw [hseen, hquiet]

/-- Once the file is noted, what follows only decides whether the candidate counts as stored. -/
theorem notes_markFileSeen_bind {link : PlatformLink} {id : Nat} {next : Resolving Resolution}
    (hlink : candidate.link = some link) (hcatalog : catalog.Coherent) (hnext : Quiet next)
    (hanswer : ∀ between : Catalog, between.Coherent → catalog.store.SameOwners between.store →
      IsStored (next.exec between).1 ∨ (∃ fault, (next.exec between).1 = .error fault) ∧
        ∃ name ∈ candidate.extraCoordinate, Store.checkWrite name 0 ≠ .ok ()) :
    Notes candidate catalog.store
      ((transact (.markFileSeen link id) >>= fun _ => next).exec catalog).1
      ((transact (.markFileSeen link id) >>= fun _ => next).exec catalog).2.store := by
  obtain ⟨hbetween, _, hsame⟩ := ensures_markFileSeen link id hcatalog
  cases hrun : (Transaction.markFileSeen link id).run catalog.store with
  | error fault =>
      rw [exec_bind_of_error (exec_transact_of_error hrun)]
      exact .nothing (fun _ => Iff.rfl) fun hstored => absurd hstored not_isStored_error
  | ok pair =>
      obtain ⟨value, after⟩ := pair
      have hexec := exec_transact_of_ok hrun
      rw [hexec] at hbetween hsame
      rw [exec_bind_of_ok hexec]
      have hafter := (Transaction.run_putFileOwner_eq_ok.mp hrun).2
      have hquiet := (hnext _ hbetween.store_exact.toConsistent).2
      refine .file link hlink (fun file => ?_) (hanswer _ hbetween (hsame value rfl))
      rw [hquiet, ← hafter, Store.seen_put]

/-- For a mod that is there, a coordinate is linked unless it does not fit the store. -/
theorem unfit_of_linkCoordinate {id : Nat} {coordinate : Option String} {fault : Fault}
    (hmod : (catalog.store.mod? id).isSome)
    (h : ((linkCoordinate id coordinate).exec catalog).1 = .error fault) :
    ∃ name ∈ coordinate, Store.checkWrite name 0 ≠ .ok () := by
  cases coordinate with
  | none => cases h
  | some name =>
      refine ⟨name, rfl, ?_⟩
      intro hkey
      have hread := Store.checkRead_of_checkWrite hkey
      have hfound : catalog.store.findByCoordinate name =
          .ok (catalog.store.coordinates.get? name) := by
        unfold Store.findByCoordinate
        rw [hread]
        rfl
      have hask : (ask (·.findByCoordinate name)).exec catalog =
          (.ok (catalog.store.coordinates.get? name), catalog) := congrArg (·, catalog) hfound
      unfold linkCoordinate at h
      rw [exec_bind_of_ok hask] at h
      cases hleads : catalog.store.coordinates.get? name with
      | some owner =>
          rw [hleads] at h
          cases h
      | none =>
          rw [hleads] at h
          obtain ⟨record, hrecord⟩ := Option.isSome_iff_exists.mp hmod
          have hrun : (Transaction.linkCoordinate id name).run catalog.store = .ok ((), _) :=
            Transaction.run_linkCoordinate_eq_ok.mpr ⟨record, hrecord, hkey, rfl⟩
          have hexec : ((transact (.linkCoordinate id name)).exec catalog).1 = .error fault := h
          rw [exec_transact_of_ok hrun] at hexec
          cases hexec

theorem quiet_knownHash (hash : String) : Quiet (knownHash hash) :=
  quiet_of_same fun catalog => (exec_knownHash hash catalog).2

/-- A listing whose content is new is always indexed. -/
theorem index_of_resolveListing {link : PlatformLink} {answer : Resolution} {after : Catalog}
    (h : (resolveListing candidate link).exec catalog = (.ok answer, after)) :
    ∃ id created, answer = .index id created := by
  obtain ⟨⟨record, created⟩, _, _, h⟩ := exec_bind_eq_ok (congrArg Prod.fst h)
  obtain ⟨_, _, _, h⟩ := exec_bind_eq_ok h
  obtain ⟨_, _, _, h⟩ := exec_bind_eq_ok h
  obtain ⟨_, _, _, h⟩ := exec_bind_eq_ok h
  exact ⟨record.id, created, (Except.ok.inj h).symm⟩

/-- A content that has a mod is known on that mod. -/
theorem known_of_resolveKnown {id : Nat} {answer : Resolution} {after : Catalog}
    (h : (resolveKnown candidate id).exec catalog = (.ok answer, after)) : answer = .known id := by
  unfold resolveKnown at h
  cases hlink : candidate.link with
  | none =>
      rw [hlink] at h
      obtain ⟨_, _, _, h⟩ := exec_bind_eq_ok (congrArg Prod.fst h)
      obtain ⟨_, _, _, h⟩ := exec_bind_eq_ok h
      exact (Except.ok.inj h).symm
  | some link =>
      rw [hlink] at h
      obtain ⟨_, _, _, h⟩ := exec_bind_eq_ok (congrArg Prod.fst h)
      obtain ⟨_, _, _, h⟩ := exec_bind_eq_ok h
      exact (Except.ok.inj h).symm

/-- What can be decided of a candidate, by the mod that its content has and by what it states. -/
inductive Decides (candidate : Candidate) : Option Nat → Resolution → Prop
  | known (id : Nat) : Decides candidate (some id) (.known id)
  | listed {link : PlatformLink} (id : Nat) (created : Bool) (hlink : candidate.link = some link) :
      Decides candidate none (.index id created)
  | stated {coordinate : String} (id : Nat) (created : Bool)
      (hcoordinate : candidate.artifact.coordinate = some coordinate) :
      Decides candidate none (.index id created)
  | outdated {coordinate : String} (id : Nat)
      (hcoordinate : candidate.artifact.coordinate = some coordinate) :
      Decides candidate none (.outdated id)
  | unplaced (hlink : candidate.link = none) (hcoordinate : candidate.artifact.coordinate = none) :
      Decides candidate none .unindexable

theorem decides_of_resolveCoordinate {coordinate : String} {answer : Resolution} {after : Catalog}
    (hcoordinate : candidate.artifact.coordinate = some coordinate)
    (h : (resolveCoordinate candidate coordinate).exec catalog = (.ok answer, after)) :
    Decides candidate none answer := by
  obtain ⟨⟨record, created⟩, _, _, h⟩ := steps_of_run_bind h
  dsimp only at h
  split at h
  · cases h
    exact .outdated record.id hcoordinate
  · cases h
    exact .stated record.id created hcoordinate

/-- Whatever resolution answers, it has looked the content up and decided by what it found. -/
theorem decides_of_resolve {answer : Resolution} {after : Catalog}
    (h : (resolve candidate).exec catalog = (.ok answer, after)) :
    ∃ owner, ((knownHash candidate.artifact.contentHash).exec catalog).1 = .ok owner ∧
      Decides candidate owner answer := by
  obtain ⟨owner, between, hknown, h⟩ := steps_of_run_bind h
  refine ⟨owner, congrArg Prod.fst hknown, ?_⟩
  cases owner with
  | some id =>
      rw [known_of_resolveKnown h]
      exact .known id
  | none =>
      cases hlink : candidate.link with
      | some link =>
          rw [hlink] at h
          obtain ⟨id, created, rfl⟩ := index_of_resolveListing h
          exact .listed id created hlink
      | none =>
          rw [hlink] at h
          cases hcoordinate : candidate.artifact.coordinate with
          | some coordinate =>
              rw [hcoordinate] at h
              exact decides_of_resolveCoordinate hcoordinate h
          | none =>
              rw [hcoordinate] at h
              cases h
              exact .unplaced hlink hcoordinate

end Resolving

open Resolving

namespace Attempt

variable {catalog : Catalog} (attempt : Attempt)

/-- What is left of an attempt once its candidate is resolved. -/
def finish (answer : Resolution) : Resolving Resolution :=
  match answer with
  | .index id created => do
      let aggregate ← ask fun _ => attempt.gathered
      commitBatch attempt.candidate.artifact.contentHash id
        (aggregate.toBatch (some attempt.candidate.artifact.contentHash)
          (some attempt.candidate.artifact.summary) attempt.now)
      markSeen id attempt.candidate.link
      return .index id created
  | answer => return answer

theorem run_eq_finish : attempt.run = resolve attempt.candidate >>= attempt.finish := attempt.run_eq

/-- The answer to an attempt is the answer that its candidate got. -/
theorem resolve_of_run {attempt : Attempt} {answer : Resolution}
    (h : (attempt.run.exec catalog).1 = .ok answer) :
    ((resolve attempt.candidate).exec catalog).1 = .ok answer := by
  rw [attempt.run_eq_finish] at h
  obtain ⟨first, between, hresolve, hfinish⟩ := exec_bind_eq_ok h
  rw [hresolve]
  cases first with
  | known id | outdated id | unindexable =>
      cases hfinish
      rfl
  | index id created =>
      obtain ⟨_, _, _, hfinish⟩ := exec_bind_eq_ok hfinish
      obtain ⟨_, _, _, hfinish⟩ := exec_bind_eq_ok hfinish
      obtain ⟨_, _, _, hfinish⟩ := exec_bind_eq_ok hfinish
      cases hfinish
      rfl

/-- The rest of an attempt on a candidate whose content is known. -/
theorem notes_known (id : Nat) (hcatalog : catalog.Coherent) :
    Notes attempt.candidate catalog.store
      ((resolveKnown attempt.candidate id >>= attempt.finish).exec catalog).1
      ((resolveKnown attempt.candidate id >>= attempt.finish).exec catalog).2.store := by
  have hextra : Quiet (do
      linkCoordinate id attempt.candidate.extraCoordinate
      attempt.finish (.known id)) :=
    (closed_quiet.linkCoordinate id _).bind fun _ => closed_quiet.pure _
  unfold resolveKnown
  cases hlink : attempt.candidate.link with
  | none =>
      simp only [bind_assoc, pure_bind]
      have hquiet := (closed_quiet.linkCoordinate id attempt.candidate.artifact.coordinate).bind
        fun _ => hextra
      exact hquiet.notes hcatalog fun _ => hlink
  | some link =>
      unfold takeListing
      simp only [bind_assoc, pure_bind]
      refine (closed_quiet.attachListing id link).bind_notes (ensures_attachListing id link)
        hcatalog fun _ between _ hbetween hattached => ?_
      refine notes_markFileSeen_bind hlink hbetween hextra fun last hlast hsame => ?_
      have hmod : (last.store.mod? id).isSome := by
        have hlisted := (hsame.findByListing_eq link.listing).trans hattached.2
        obtain ⟨record, hrecord, _⟩ := hlast.store_exact.listings hlisted
        exact Option.isSome_of_eq_some hrecord
      cases hexec : (linkCoordinate id attempt.candidate.extraCoordinate).exec last with
      | mk answer after =>
          cases answer with
          | ok value =>
              rw [exec_bind_of_ok hexec]
              exact Or.inl ⟨.known id, rfl, rfl⟩
          | error fault =>
              rw [exec_bind_of_error hexec]
              exact Or.inr ⟨⟨fault, rfl⟩, unfit_of_linkCoordinate hmod (congrArg Prod.fst hexec)⟩

theorem notes_listing {link : PlatformLink} (hlink : attempt.candidate.link = some link)
    (hcatalog : catalog.Coherent)
    (hfree : catalog.store.findByHash attempt.candidate.artifact.contentHash = .ok none) :
    Notes attempt.candidate catalog.store
      ((resolveListing attempt.candidate link >>= attempt.finish).exec catalog).1
      ((resolveListing attempt.candidate link >>= attempt.finish).exec catalog).2.store := by
  refine (closed_quiet.resolveListing _ link).bind_notes (ensures_resolveListing hlink hfree)
    hcatalog fun answer between hexec hbetween hanswered => ?_
  obtain ⟨id, created, rfl⟩ := index_of_resolveListing hexec
  unfold finish
  cases hgathered : attempt.gathered with
  | error fault =>
      have hask : (ask fun _ => (.error fault : Except Fault Aggregate)).exec between =
          (.error fault, between) := rfl
      rw [exec_bind_of_error hask]
      exact .nothing (fun _ => Iff.rfl) fun hstored => absurd hstored not_isStored_error
  | ok aggregate =>
      have hask : (ask fun _ => .ok aggregate).exec between = (.ok aggregate, between) := rfl
      rw [exec_bind_of_ok hask]
      refine (closed_quiet.commitBatch _ id _).bind_notes (ensures_commitBatch rfl hanswered.1)
        hbetween fun _ last _ hlast _ => ?_
      rw [hlink]
      refine notes_markFileSeen_bind hlink hlast (closed_quiet.pure _) fun _ _ _ => ?_
      exact Or.inl ⟨.index id created, rfl, rfl⟩

/-- The rest of an attempt on a candidate without a listing. -/
theorem quiet_finish (hlink : attempt.candidate.link = none) (answer : Resolution) :
    Quiet (attempt.finish answer) := by
  cases answer with
  | known id => exact closed_quiet.pure _
  | outdated id => exact closed_quiet.pure _
  | unindexable => exact closed_quiet.pure _
  | index id created =>
      unfold finish
      rw [hlink]
      refine (closed_quiet.ask _).bind fun aggregate => ?_
      refine (closed_quiet.commitBatch _ id _).bind fun _ => ?_
      exact (closed_quiet.pure ()).bind fun _ => closed_quiet.pure _

/-- What an attempt notes is told by its answer. -/
theorem notes_run (hcatalog : catalog.Coherent) :
    Notes attempt.candidate catalog.store (attempt.run.exec catalog).1
      (attempt.after catalog).store := by
  unfold after
  rw [attempt.run_eq_finish]
  unfold resolve
  rw [bind_assoc]
  refine (quiet_knownHash _).bind_notes (ensures_knownHash _) hcatalog
    fun owner between _ hbetween hanswered => ?_
  obtain ⟨hstore, hfound⟩ := hanswered
  cases owner with
  | some id => exact attempt.notes_known id hbetween
  | none =>
      cases hlink : attempt.candidate.link with
      | some link =>
          rw [← hstore] at hfound
          exact attempt.notes_listing hlink hbetween hfound
      | none =>
          cases attempt.candidate.artifact.coordinate with
          | none =>
              have hquiet := (closed_quiet.pure Resolution.unindexable).bind
                (attempt.quiet_finish hlink)
              exact hquiet.notes hbetween fun _ => hlink
          | some coordinate =>
              have hquiet := (closed_quiet.resolveCoordinate attempt.candidate coordinate).bind
                (attempt.quiet_finish hlink)
              exact hquiet.notes hbetween fun _ => hlink

end Attempt

end ModCatalog
