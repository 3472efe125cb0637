import ModCatalog.Proofs.Indexing.Process
import ModCatalog.Proofs.Resolution.Parts

/-!
# Faults of candidates

Nothing is downloaded any more once the candidates of a pass are known.  So a candidate never fails
because of a download, as long as the sanitizing rules give up in no other way than by a panic.
-/

namespace ModCatalog

variable {α β : Type}

/-- Whether an answer is anything but a failed download. -/
def IsLocal (answer : Except Fault α) : Prop :=
  ∀ fault, answer = .error fault → fault.isDownload = false

theorem isLocal_ok (value : α) : IsLocal (.ok value) := nofun

theorem isLocal_error {fault : Fault} (h : fault.isDownload = false) :
    IsLocal (.error fault : Except Fault α) := by
  intro other hsame
  cases hsame
  exact h

theorem IsLocal.bind {answer : Except Fault α} {next : α → Except Fault β} (h : IsLocal answer)
    (hnext : ∀ value, IsLocal (next value)) : IsLocal (answer >>= next) := by
  cases answer with
  | error fault => exact isLocal_error (h fault rfl)
  | ok value => exact hnext value

theorem IsLocal.map {answer : Except Fault α} (h : IsLocal answer) (change : α → β) :
    IsLocal (answer.map change) := by
  cases answer with
  | error fault => exact isLocal_error (h fault rfl)
  | ok value => exact isLocal_ok _

theorem isLocal_mapM {step : α → Except Fault β} (hstep : ∀ value, IsLocal (step value))
    (values : List α) : IsLocal (values.mapM step) := by
  induction values with
  | nil => exact isLocal_ok []
  | cons value rest ih =>
      rw [List.mapM_cons]
      exact (hstep value).bind fun first => ih.bind fun others => isLocal_ok _

/-! ## Contents -/

namespace Archive

theorem isLocal_ofBytes (bytes : ByteArray) : IsLocal (ofBytes bytes) := by
  unfold ofBytes
  split
  · exact isLocal_ok _
  · exact isLocal_error rfl

variable (jar : Archive)

theorem isLocal_openEntry (entry : ArchiveEntry) : IsLocal (jar.openEntry entry) := by
  unfold openEntry
  split
  · exact isLocal_error rfl
  · split
    · exact isLocal_error rfl
    · split
      · exact isLocal_error rfl
      · exact isLocal_ok _

theorem isLocal_readOpened (entry : ArchiveEntry) (content : ByteArray) :
    IsLocal (readOpened entry content) := by
  unfold readOpened
  split
  · exact isLocal_error rfl
  · split
    · exact isLocal_ok _
    · exact isLocal_error rfl

theorem isLocal_read (name : String) : IsLocal (jar.read name) := by
  unfold read
  split
  · exact isLocal_ok _
  · next entry _ =>
      have hcontent : IsLocal (jar.content entry) :=
        (jar.isLocal_openEntry entry).bind fun content => isLocal_readOpened entry content
      exact hcontent.map some

theorem isLocal_tags : IsLocal jar.tags := by
  refine (isLocal_mapM (fun path => ?_) _).bind fun found => isLocal_ok _
  split
  · exact isLocal_ok _
  · exact (jar.isLocal_read path).bind fun content => isLocal_ok _

theorem isLocal_enumExtensions (paths : List String) : IsLocal (jar.enumExtensions paths) :=
  (isLocal_mapM (fun path => (jar.isLocal_read path).bind fun _ => isLocal_ok _) paths).bind
    fun _ => isLocal_ok _

theorem isLocal_indexClasses (options : ClassFile.IndexOptions) :
    IsLocal (jar.indexClasses options) := by
  refine (isLocal_mapM (fun entry => ?_) _).bind fun found => isLocal_ok _
  refine (jar.isLocal_openEntry entry).bind fun opened => ?_
  split
  · exact isLocal_ok _
  · refine (isLocal_readOpened entry opened).bind fun content => ?_
    split
    · exact isLocal_ok _
    · exact isLocal_error (Fault.isDownload_ofEntryDefect _ _)

end Archive

/-- Whether a rule gives up in no other way than by a panic. -/
def SanitizingRule.OnlyPanics (rule : SanitizingRule) : Prop :=
  ∀ siblings record fault, rule.apply siblings record = .error fault → ∃ text, fault = .panicked text

namespace Sanitizer

theorem onlyPanics_standard : ∀ rule ∈ standard.rules, rule.OnlyPanics := by
  intro rule hrule siblings record fault h
  simp only [standard, List.mem_cons, List.not_mem_nil, or_false] at hrule
  rcases hrule with rfl | rfl | rfl | rfl <;> cases h

variable {rules : List SanitizingRule} (hrules : ∀ rule ∈ rules, rule.OnlyPanics)

include hrules

theorem isLocal_applyRules (siblings : Siblings) (record : ClassFile.ClassRecord) :
    IsLocal (applyRules siblings rules record) := by
  induction rules generalizing record with
  | nil => exact isLocal_ok _
  | cons rule rest ih =>
      obtain ⟨hrule, hrest⟩ := List.forall_mem_cons.mp hrules
      have happly : IsLocal (rule.apply siblings record) := by
        intro fault hfault
        obtain ⟨text, rfl⟩ := hrule siblings record fault hfault
        rfl
      refine happly.bind fun kept => ?_
      cases kept with
      | none => exact isLocal_ok _
      | some record => exact ih hrest record

theorem isLocal_applyAll (siblings : Siblings) (classes : List ClassFile.ClassRecord) :
    IsLocal (applyAll siblings rules classes) := by
  induction classes with
  | nil => exact isLocal_ok _
  | cons record rest ih =>
      exact (isLocal_applyRules hrules siblings record).bind fun _ => ih.bind fun _ => isLocal_ok _

end Sanitizer

theorem Indexer.isLocal_gathered {indexer : Indexer}
    (hrules : ∀ rule ∈ indexer.sanitizer.rules, rule.OnlyPanics) (artifact : Artifact) :
    IsLocal (indexer.gathered artifact) := by
  refine (Archive.isLocal_ofBytes _).bind fun jar => ?_
  refine (jar.isLocal_indexClasses _).bind fun classes => ?_
  refine (Sanitizer.isLocal_applyAll hrules _ _).bind fun kept => ?_
  refine IsLocal.bind ?_ fun tags => IsLocal.bind ?_ fun extensions => isLocal_ok _
  · exact (Archive.isLocal_ofBytes _).bind fun jar => jar.isLocal_tags
  · unfold Artifact.enumExtensions
    split
    · exact isLocal_ok _
    · exact (Archive.isLocal_ofBytes _).bind fun jar => jar.isLocal_enumExtensions _

/-! ## The store -/

namespace Transaction

/-- Whether a transaction fails in no other way than because of the store. -/
def FailsLocally (change : Transaction α) : Prop := ∀ store, IsLocal (change.run store)

theorem failsLocally_pure (value : α) : FailsLocally (pure value) := fun _ => isLocal_ok _

theorem failsLocally_modify (change : Store → Store) : FailsLocally (modify change) :=
  fun _ => isLocal_ok _

theorem failsLocally_get : FailsLocally get := fun _ => isLocal_ok _

theorem FailsLocally.bind {change : Transaction α} {next : α → Transaction β}
    (h : FailsLocally change) (hnext : ∀ value, FailsLocally (next value)) :
    FailsLocally (change >>= next) := by
  intro store
  rw [StateT.run_bind]
  exact (h store).bind fun pair => hnext pair.1 pair.2

theorem failsLocally_liftM {answer : Except Fault α} (h : IsLocal answer) :
    FailsLocally (liftM answer) := by
  intro store fault hrun
  exact h fault (run_liftM_eq_error.mp hrun)

theorem failsLocally_requireMod (id : Nat) : FailsLocally (requireMod id) := by
  intro store fault hrun
  obtain ⟨_, rfl⟩ := run_requireMod_eq_error.mp hrun
  rfl

theorem OnlyBadKeys.failsLocally {change : Transaction α} (h : OnlyBadKeys change) :
    FailsLocally change := by
  intro store fault hrun
  rw [h store fault hrun]
  rfl

theorem failsLocally_put (key : String) (extra : Nat) (change : Store → Store) :
    FailsLocally (do check (Store.checkWrite key extra); modify change) :=
  (onlyBadKeys_check_modify key extra change).failsLocally

theorem failsLocally_setLink (record : ModRecord) (link : PlatformLink) :
    FailsLocally (setLink record link) :=
  (failsLocally_put _ _ _).bind fun _ => failsLocally_pure _

theorem failsLocally_setCoordinate (record : ModRecord) (coordinate : String) :
    FailsLocally (setCoordinate record coordinate) :=
  (onlyBadKeys_setCoordinate record coordinate).failsLocally

theorem failsLocally_forM {step : α → Transaction PUnit} (hstep : ∀ value, FailsLocally (step value))
    (values : List α) : FailsLocally (values.forM step) := by
  induction values with
  | nil => exact failsLocally_pure _
  | cons value rest ih => exact (hstep value).bind fun _ => ih

theorem failsLocally_foldlM {step : β → α → Transaction β}
    (hstep : ∀ state value, FailsLocally (step state value)) (values : List α) (state : β) :
    FailsLocally (values.foldlM step state) := by
  induction values generalizing state with
  | nil => exact failsLocally_pure _
  | cons value rest ih =>
      rw [List.foldlM_cons]
      exact (hstep state value).bind fun next => ih next

theorem isLocal_findByCoordinate (store : Store) (coordinate : String) :
    IsLocal (store.findByCoordinate coordinate) := by
  intro fault h
  rw [Store.findByCoordinate_eq_error h]
  rfl

theorem failsLocally_findOrCreate (key : LookupKey) (new : NewMod) :
    FailsLocally (findOrCreate key new) := by
  have hfind : ∀ store : Store, IsLocal (store.find key) := by
    intro store
    cases key with
    | listing listing => exact isLocal_ok _
    | coordinate coordinate => exact isLocal_findByCoordinate store coordinate
  refine failsLocally_get.bind fun store => (failsLocally_liftM (hfind store)).bind fun found => ?_
  cases found with
  | some id => exact (failsLocally_requireMod id).bind fun _ => failsLocally_pure _
  | none =>
      have hwrite : ∀ linked : ModRecord, FailsLocally (do writeMod linked; return (linked, true)) :=
        fun linked => (failsLocally_modify _).bind fun _ => failsLocally_pure _
      refine (onlyBadKeys_createMod new).failsLocally.bind fun created => ?_
      cases key with
      | listing listing => exact (failsLocally_setLink created _).bind hwrite
      | coordinate coordinate => exact (failsLocally_setCoordinate created coordinate).bind hwrite

theorem failsLocally_linkPlatform (id : Nat) (link : PlatformLink) :
    FailsLocally (linkPlatform id link) :=
  (failsLocally_requireMod id).bind fun record =>
    (failsLocally_setLink record link).bind fun _ => failsLocally_modify _

theorem failsLocally_linkCoordinate (id : Nat) (coordinate : String) :
    FailsLocally (linkCoordinate id coordinate) :=
  (failsLocally_requireMod id).bind fun record =>
    (failsLocally_setCoordinate record coordinate).bind fun _ => failsLocally_modify _

theorem failsLocally_absorb (target old : ModRecord) : FailsLocally (absorb target old) := by
  refine (failsLocally_forM (fun hash => failsLocally_put _ _ _) _).bind fun _ => ?_
  refine (failsLocally_foldlM (fun target link => ?_) _ _).bind fun _ => ?_
  · unfold takeLink
    split
    · exact failsLocally_pure _
    · exact failsLocally_setLink target link
  · refine (failsLocally_foldlM failsLocally_setCoordinate _ _).bind fun _ => ?_
    exact (failsLocally_modify _).bind fun _ => failsLocally_pure _

theorem failsLocally_attachPlatform (id : Nat) (link : PlatformLink) :
    FailsLocally (attachPlatform id link) := by
  have hwrite : ∀ (target : ModRecord) (holder : Option Nat), FailsLocally (do
      writeMod (← setLink target link)
      return holder) :=
    fun target holder => (failsLocally_setLink target link).bind fun linked =>
      (failsLocally_modify _).bind fun _ => failsLocally_pure holder
  refine (failsLocally_requireMod id).bind fun target => failsLocally_get.bind fun store => ?_
  dsimp only
  split
  · exact (failsLocally_absorb _ _).bind fun _ => hwrite _ _
  · exact (failsLocally_pure _).bind fun _ => hwrite _ _

theorem failsLocally_track (id : Nat) (batch : TrackBatch) : FailsLocally (track id batch) := by
  refine (failsLocally_requireMod id).bind fun record => ?_
  refine (failsLocally_modify _).bind fun _ => ?_
  exact (failsLocally_forM (fun hash => failsLocally_put _ _ _) _).bind fun _ =>
    failsLocally_modify _

end Transaction

/-! ## Resolution -/

namespace Resolving

/-- Whether work on a catalog fails in no other way than because of the catalog. -/
def FailsLocally (work : Resolving α) : Prop := ∀ catalog, IsLocal (work.exec catalog).1

theorem failsLocally_pure (value : α) : FailsLocally (pure value) := fun _ => isLocal_ok _

theorem failsLocally_updateIdentities (change : IdentityCache → IdentityCache) :
    FailsLocally (updateIdentities change) :=
  fun _ => isLocal_ok _

theorem failsLocally_ask {question : Store → Except Fault α} (h : ∀ store, IsLocal (question store)) :
    FailsLocally (ask question) :=
  fun catalog => h catalog.store

theorem FailsLocally.bind {work : Resolving α} {next : α → Resolving β} (h : FailsLocally work)
    (hnext : ∀ value, FailsLocally (next value)) : FailsLocally (work >>= next) := by
  intro catalog
  have hcatalog := h catalog
  cases hexec : work.exec catalog with
  | mk answer between =>
      rw [hexec] at hcatalog
      cases answer with
      | error fault =>
          rw [exec_bind_of_error hexec]
          exact isLocal_error (hcatalog fault rfl)
      | ok value =>
          rw [exec_bind_of_ok hexec]
          exact hnext value between

theorem failsLocally_transact {change : Transaction α} (h : change.FailsLocally) :
    FailsLocally (transact change) := by
  intro catalog fault hfault
  exact h catalog.store fault (Transaction.commit_fst_eq_error.mp hfault)

theorem failsLocally_knownHash (hash : String) : FailsLocally (knownHash hash) := by
  intro catalog
  rw [(exec_knownHash hash catalog).1]
  cases catalog.identities.get? hash with
  | some id => exact isLocal_ok _
  | none =>
      have hread : IsLocal (Store.checkRead hash) := by
        unfold Store.checkRead
        split
        · exact isLocal_error rfl
        · exact isLocal_ok _
      exact hread.bind fun _ => isLocal_ok _

theorem failsLocally_linkCoordinate (id : Nat) (coordinate : Option String) :
    FailsLocally (linkCoordinate id coordinate) := by
  cases coordinate with
  | none => exact failsLocally_pure ()
  | some name =>
      refine (failsLocally_ask fun store => Transaction.isLocal_findByCoordinate store name).bind
        fun owner => ?_
      cases owner with
      | some owner => exact failsLocally_pure ()
      | none => exact failsLocally_transact (Transaction.failsLocally_linkCoordinate id name)

theorem failsLocally_attachListing (id : Nat) (link : PlatformLink) :
    FailsLocally (attachListing id link) := by
  refine (failsLocally_transact (Transaction.failsLocally_attachPlatform id link)).bind
    fun absorbed => ?_
  cases absorbed with
  | none => exact failsLocally_pure ()
  | some old => exact failsLocally_updateIdentities _

theorem failsLocally_markSeen (id : Nat) (link : Option PlatformLink) :
    FailsLocally (markSeen id link) := by
  cases link with
  | none => exact failsLocally_pure ()
  | some link => exact failsLocally_transact (Transaction.failsLocally_put _ _ _)

variable (candidate : Candidate)

theorem failsLocally_resolveKnown (id : Nat) : FailsLocally (resolveKnown candidate id) := by
  have hextra : FailsLocally (do
      linkCoordinate id candidate.extraCoordinate
      return Resolution.known id) :=
    (failsLocally_linkCoordinate id _).bind fun _ => failsLocally_pure _
  unfold resolveKnown
  cases candidate.link with
  | none => exact (failsLocally_linkCoordinate id _).bind fun _ => hextra
  | some link =>
      have htake : FailsLocally (takeListing id link) :=
        (failsLocally_attachListing id link).bind fun _ => failsLocally_markSeen id (some link)
      exact htake.bind fun _ => hextra

theorem failsLocally_resolveListing (link : PlatformLink) :
    FailsLocally (resolveListing candidate link) := by
  refine (failsLocally_transact (Transaction.failsLocally_findOrCreate _ _)).bind fun answer => ?_
  obtain ⟨record, created⟩ := answer
  refine (failsLocally_transact (Transaction.failsLocally_linkPlatform record.id link)).bind
    fun _ => ?_
  refine (failsLocally_linkCoordinate _ _).bind fun _ => ?_
  exact (failsLocally_linkCoordinate _ _).bind fun _ => failsLocally_pure _

theorem failsLocally_resolveCoordinate (coordinate : String) :
    FailsLocally (resolveCoordinate candidate coordinate) := by
  refine (failsLocally_transact (Transaction.failsLocally_findOrCreate _ _)).bind fun answer => ?_
  dsimp only
  split
  · exact failsLocally_pure _
  · exact failsLocally_pure _

theorem failsLocally_resolve : FailsLocally (resolve candidate) := by
  refine (failsLocally_knownHash _).bind fun owner => ?_
  cases owner with
  | some id => exact failsLocally_resolveKnown candidate id
  | none =>
      cases candidate.link with
      | some link => exact failsLocally_resolveListing candidate link
      | none =>
          cases candidate.artifact.coordinate with
          | some coordinate => exact failsLocally_resolveCoordinate candidate coordinate
          | none => exact failsLocally_pure _

theorem failsLocally_commitBatch (hash : String) (id : Nat) (batch : TrackBatch) :
    FailsLocally (commitBatch hash id batch) :=
  (failsLocally_transact (Transaction.failsLocally_track id batch)).bind fun _ =>
    failsLocally_updateIdentities _

end Resolving

/-- An attempt fails locally if the rows of its content are gathered locally. -/
theorem Attempt.failsLocally_run {attempt : Attempt} (hgathered : IsLocal attempt.gathered) :
    Resolving.FailsLocally attempt.run := by
  rw [Attempt.run_eq]
  refine (Resolving.failsLocally_resolve _).bind fun answer => ?_
  cases answer with
  | known id => exact Resolving.failsLocally_pure _
  | outdated id => exact Resolving.failsLocally_pure _
  | unindexable => exact Resolving.failsLocally_pure _
  | index id created =>
      refine (Resolving.failsLocally_ask fun _ => hgathered).bind fun aggregate => ?_
      refine (Resolving.failsLocally_commitBatch _ _ _).bind fun _ => ?_
      exact (Resolving.failsLocally_markSeen _ _).bind fun _ => Resolving.failsLocally_pure _

/-- No candidate fails because of a download. -/
theorem Indexer.isLocal_attempt {σ : Type} {indexer : Indexer}
    (hrules : ∀ rule ∈ indexer.sanitizer.rules, rule.OnlyPanics) (candidate : Candidate)
    (place : Workplace σ) : IsLocal ((indexer.attempt candidate).run.run place).1 := by
  obtain ⟨_, hanswer⟩ := indexer.follows_attempt candidate place
  have hlocal : IsLocal ((indexer.attemptOn candidate).run.exec place.catalog).1 :=
    Attempt.failsLocally_run (Indexer.isLocal_gathered hrules candidate.artifact) place.catalog
  intro fault hfault
  rw [hfault] at hanswer
  cases hexec : ((indexer.attemptOn candidate).run.exec place.catalog).1 with
  | ok answer =>
      rw [hexec] at hanswer
      exact hanswer.elim
  | error other =>
      rw [hexec] at hanswer
      obtain rfl : fault = other := hanswer
      exact hlocal fault hexec

end ModCatalog
