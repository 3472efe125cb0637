import ModCatalog.Proofs.Artifact.Nesting
import ModCatalog.Proofs.Expansion.Flattening
import ModCatalog.Proofs.Indexing.Arrivals
import ModCatalog.Proofs.Resolution.Noting

/-!
# A key for every candidate

A platform file has its listing, and a bundled jar the identifier it was read with.  When one takes
over the content of the other a listing of project zero gets lost, but then the content is that of a
bundled jar and brings its identifier along.  So every candidate that a pass turns to can be found
or created by something, and none is left unindexable.
-/

namespace ModCatalog

open Resolving Expansion

/-! ## What a tree holds -/

/-- However deep a bundled artifact lies, its coordinate is its identifier and its hash that of its
own bytes. -/
theorem Artifact.hasKeys_of_bundles {payload : ByteArray} {coordinate fallback : Option String}
    {tree : ArtifactTree} (h : Artifact.read payload coordinate fallback = .ok (some tree))
    {copy : BundledCopy} (hcopy : Bundles tree.bundled copy) :
    Artifact.HasKeys (some copy.identifier) copy.artifact :=
  (Artifact.keyed_of_read h).2 copy (mem_preorder_iff.mpr hcopy)

/-! ## The candidates of a pass -/

/-- A placed candidate is never unindexable, whatever the catalog holds and remembers. -/
theorem ne_unindexable_of_resolve {candidate : Candidate} (hplaced : candidate.isPlaced)
    {catalog : Catalog} {answer : Resolution}
    (h : ((resolve candidate).exec catalog).1 = .ok answer) : answer ≠ .unindexable := by
  obtain ⟨owner, -, hdecides⟩ := decides_of_resolve (Prod.ext h rfl)
  rintro rfl
  cases hdecides with
  | unplaced hlink hcoordinate => simp [Candidate.isPlaced, hlink, hcoordinate] at hplaced

/-- The candidates that are read from downloads are placed after their expansion. -/
theorem isPlaced_expand_downloads (downloads : List (PlatformFile × Except Fault ByteArray))
    (listed : Table String PlatformLink) :
    ∀ candidate ∈ expand (downloads.filterMap Candidate.ofDownload?) listed,
      candidate.isPlaced :=
  isPlaced_expand (fun _ => Candidate.isFile_of_mem_downloads) listed

/-- No candidate is skipped for want of a key if all are placed. -/
theorem Catalog.Processed.not_mem_skipped {catalog after : Catalog} {candidates : List Candidate}
    {outcomes : List Outcome} (hprocessed : catalog.Processed candidates outcomes after)
    (hplaced : ∀ candidate ∈ candidates, candidate.isPlaced) : .skipped none ∉ outcomes := by
  induction hprocessed with
  | nil => exact List.not_mem_nil
  | @cons catalog after rest outcomes outcome attempt htells _ ih =>
      obtain ⟨hfirst, hrest⟩ := List.forall_mem_cons.mp hplaced
      rw [List.mem_cons, not_or]
      refine ⟨?_, ih hrest⟩
      rintro rfl
      cases hanswer : (attempt.run.exec catalog).1 with
      | error fault =>
          rw [hanswer] at htells
          obtain ⟨item, ⟨⟩⟩ := htells
      | ok answer =>
          rw [hanswer] at htells
          exact ne_unindexable_of_resolve hfirst (Attempt.resolve_of_run hanswer) htells

namespace Indexer

variable {σ : Type} (indexer : Indexer) (platform : Platform σ)

theorem isPlaced_of_survey {passedOver? : PlatformFile → Option Nat} {place after : Workplace σ}
    {survey : Survey}
    (h : (indexer.survey platform passedOver?).run.run place = (.ok survey, after)) :
    ∀ candidate ∈ survey.expanded, candidate.isPlaced := by
  obtain ⟨_, _, _, _, _, hread, _, ⟨listed, hexpanded⟩, _⟩ := indexer.survey_spec platform h
  rw [hexpanded, hread]
  exact isPlaced_expand_downloads _ listed

theorem not_mem_skipped_of_processAll {candidates : List Candidate} {place after : Workplace σ}
    {outcomes : List Outcome} (hplaced : ∀ candidate ∈ candidates, candidate.isPlaced)
    (h : (indexer.processAll candidates).run.run place = (.ok outcomes, after)) :
    .skipped none ∉ outcomes := by
  apply (indexer.processAll_spec h).not_mem_skipped
  intro candidate hmem
  exact hplaced candidate ((flatten_waves_perm candidates).mem_iff.mp hmem)

end Indexer

/-- Resolution always has a key.  Everything bundled in a tree has its identifier and its own hash,
every candidate after the expansion has a listing or a coordinate, and so a pass that turns to the
catalog does so with candidates that are never unindexable. -/
theorem resolution_has_key :
    (∀ payload coordinate fallback tree,
      Artifact.read payload coordinate fallback = .ok (some tree) →
        ∀ copy, Bundles tree.bundled copy →
          copy.artifact.coordinate = some copy.identifier ∧
            copy.artifact.contentHash = contentHash copy.artifact.payload) ∧
      (∀ (downloads : List (PlatformFile × Except Fault ByteArray)) listed,
        ∀ candidate ∈ expand (downloads.filterMap Candidate.ofDownload?) listed,
          candidate.link.isSome ∨ candidate.artifact.coordinate.isSome) ∧
      ∀ {σ : Type} (indexer : Indexer) (platform : Platform σ) (place : Workplace σ),
        (∃ fault after, indexer.pass platform place = (.error fault, after) ∧
          after.catalog = place.catalog) ∨
        ∃ survey between,
          (indexer.survey platform (indexer.passedOver? place.catalog.store)).run.run place =
            (.ok survey, between) ∧
          indexer.pass platform place = (indexer.conclude survey).run.run between ∧
          (∀ candidate ∈ survey.expanded, ∀ catalog,
            ((resolve candidate).exec catalog).1 ≠ .ok .unindexable) ∧
          ∀ (start after : Workplace σ) outcomes,
            (indexer.processAll survey.expanded).run.run start = (.ok outcomes, after) →
              .skipped none ∉ outcomes := by
  refine ⟨?_, ?_, ?_⟩
  · intro payload coordinate fallback tree hread copy hcopy
    have hkeys := Artifact.hasKeys_of_bundles hread hcopy
    exact ⟨hkeys.coordinate, hkeys.contentHash⟩
  · intro downloads listed candidate hmem
    simpa [Candidate.isPlaced] using isPlaced_expand_downloads downloads listed candidate hmem
  · intro σ indexer platform place
    rcases indexer.pass_cases platform place with
      hfault | ⟨survey, between, hsurvey, _, _, hpass⟩
    · exact Or.inl hfault
    · have hplaced := indexer.isPlaced_of_survey platform hsurvey
      refine Or.inr ⟨survey, between, hsurvey, hpass, ?_, ?_⟩
      · intro candidate hmem catalog hanswer
        exact ne_unindexable_of_resolve (hplaced candidate hmem) hanswer rfl
      · intro start after outcomes hrun
        exact indexer.not_mem_skipped_of_processAll hplaced hrun

namespace NestedJar

/-- An archive with two entries, stored as they are: the jar of a mod `a`, and the description of a
mod `o` that names it. -/
def jar : ByteArray :=
  ⟨#[80, 75, 3, 4, 20, 0, 0, 0, 0, 0, 0, 0, 33, 0, 131, 245, 238, 209, 152, 0, 0, 0, 152, 0, 0, 0,
    1, 0, 0, 0, 105, 80, 75, 3, 4, 20, 0, 0, 0, 0, 0, 0, 0, 33, 0, 112, 86, 12, 141, 24, 0, 0, 0,
    24, 0, 0, 0, 15, 0, 0, 0, 102, 97, 98, 114, 105, 99, 46, 109, 111, 100, 46, 106, 115, 111, 110,
    123, 34, 105, 100, 34, 58, 34, 97, 34, 44, 34, 118, 101, 114, 115, 105, 111, 110, 34, 58, 34,
    49, 34, 125, 80, 75, 1, 2, 20, 3, 20, 0, 0, 0, 0, 0, 0, 0, 33, 0, 112, 86, 12, 141, 24, 0, 0,
    0, 24, 0, 0, 0, 15, 0, 0, 0, 0, 0, 0, 0, 0, 0, 0, 0, 128, 1, 0, 0, 0, 0, 102, 97, 98, 114, 105,
    99, 46, 109, 111, 100, 46, 106, 115, 111, 110, 80, 75, 5, 6, 0, 0, 0, 0, 1, 0, 1, 0, 61, 0, 0,
    0, 69, 0, 0, 0, 0, 0, 80, 75, 3, 4, 20, 0, 0, 0, 0, 0, 0, 0, 33, 0, 201, 210, 11, 25, 46, 0, 0,
    0, 46, 0, 0, 0, 15, 0, 0, 0, 102, 97, 98, 114, 105, 99, 46, 109, 111, 100, 46, 106, 115, 111,
    110, 123, 34, 105, 100, 34, 58, 34, 111, 34, 44, 34, 118, 101, 114, 115, 105, 111, 110, 34, 58,
    34, 49, 34, 44, 34, 106, 97, 114, 115, 34, 58, 91, 123, 34, 102, 105, 108, 101, 34, 58, 34,
    105, 34, 125, 93, 125, 80, 75, 1, 2, 20, 3, 20, 0, 0, 0, 0, 0, 0, 0, 33, 0, 131, 245, 238, 209,
    152, 0, 0, 0, 152, 0, 0, 0, 1, 0, 0, 0, 0, 0, 0, 0, 0, 0, 0, 0, 128, 1, 0, 0, 0, 0, 105, 80,
    75, 1, 2, 20, 3, 20, 0, 0, 0, 0, 0, 0, 0, 33, 0, 201, 210, 11, 25, 46, 0, 0, 0, 46, 0, 0, 0,
    15, 0, 0, 0, 0, 0, 0, 0, 0, 0, 0, 0, 128, 1, 183, 0, 0, 0, 102, 97, 98, 114, 105, 99, 46, 109,
    111, 100, 46, 106, 115, 111, 110, 80, 75, 5, 6, 0, 0, 0, 0, 2, 0, 2, 0, 108, 0, 0, 0, 18, 1, 0,
    0, 0, 0]⟩

/-- Whether a jar was read that bundles one with a certain identifier. -/
def bundles (identifier : String) : Except Fault (Option ArtifactTree) → Bool
  | .ok (some tree) => tree.bundled.any fun copy => copy.1 = identifier
  | _ => false

theorem exists_of_bundles {identifier : String} {answer : Except Fault (Option ArtifactTree)}
    (h : bundles identifier answer) :
    ∃ tree copy, answer = .ok (some tree) ∧ Bundles tree.bundled copy ∧
      copy.identifier = identifier := by
  unfold bundles at h
  split at h
  · next tree =>
      obtain ⟨⟨_, version, inner⟩, hmem, hidentifier⟩ := List.any_eq_true.mp h
      obtain rfl := of_decide_eq_true hidentifier
      exact ⟨tree, _, rfl, .outer hmem, rfl⟩
  · cases h

def bundle : ArchiveEntry := ⟨"i", 0, false, false, 3522098563, 152, 0⟩

def describing : ArchiveEntry := ⟨Artifact.loaderPath, 0, false, false, 420205257, 46, 183⟩

/-- The description of the mod `o`. -/
def description : List UInt8 :=
  [123, 34, 105, 100, 34, 58, 34, 111, 34, 44, 34, 118, 101, 114, 115, 105, 111, 110, 34, 58, 34,
   49, 34, 44, 34, 106, 97, 114, 115, 34, 58, 91, 123, 34, 102, 105, 108, 101, 34, 58, 34, 105, 34,
   125, 93, 125]

def outer : Archive := ⟨jar, [bundle, describing]⟩

section

set_option maxRecDepth 10000

theorem ofBytes_jar : Archive.ofBytes jar = .ok outer := Archive.ofBytes_eq_ok (by decide +kernel)

theorem checksums :
    Archive.Crc32.ofList OneJar.jar.data.toList = bundle.checksum ∧
      Archive.Crc32.ofList description = describing.checksum := by
  decide +kernel

theorem openEntry_bundle : outer.openEntry bundle = .ok OneJar.jar := by
  calc outer.openEntry bundle = .ok (jar.extract 31 183) := rfl
    _ = .ok ⟨(jar.data.toList.extract 31 183).toArray⟩ :=
        congrArg _ (Archive.extract_toArray jar.data.toList 31 183)
    _ = .ok OneJar.jar := rfl

theorem openEntry_describing : outer.openEntry describing = .ok ⟨description.toArray⟩ := by
  calc outer.openEntry describing = .ok (jar.extract 228 274) := rfl
    _ = .ok ⟨(jar.data.toList.extract 228 274).toArray⟩ :=
        congrArg _ (Archive.extract_toArray jar.data.toList 228 274)
    _ = .ok ⟨description.toArray⟩ := rfl

/-- The outer description names the inner jar. -/
theorem jars_description :
    (LoaderDescription.ofContent? ⟨description.toArray⟩).map LoaderDescription.jars = some ["i"] := by
  decide +kernel

end

theorem read_bundle : outer.read "i" = .ok (some OneJar.jar) :=
  Archive.read_of_find?_some bundle (by decide) openEntry_bundle rfl checksums.1

theorem read_describing : outer.read Artifact.loaderPath = .ok (some ⟨description.toArray⟩) :=
  Archive.read_of_find?_some describing (by decide) openEntry_describing rfl checksums.2

/-- The inner jar is read as a mod that bundles nothing. -/
theorem keeps_inside (levels : Nat) : ∃ copy : BundledArtifact, copy.1 = "a" ∧
    (Artifact.Mention.described "i").Keeps (Artifact.reader (levels + 1)) outer copy := by
  obtain ⟨found, hfound, hid, hjars⟩ := OneJar.exists_loader
  have hlabel := Artifact.Mention.label?_described (Artifact.bundledDescription_of_loader
    OneJar.ofBytes_jar OneJar.read_describing hfound) "i"
  have hopens := OneJar.opens_jar hfound hjars (some found.id) (some found.version)
  exact ⟨_, hid, .intro read_bundle hlabel (hopens.readLevels_of_nil (levels + 1))⟩

theorem bundles_jar : bundles "a" (Artifact.read jar none none) = true := by
  obtain ⟨loader, hloader, hjars⟩ := Option.map_eq_some_iff.mp jars_description
  have hopens := Artifact.opens_of_loader ofBytes_jar
    (Archive.read_of_find?_none (by decide)) (Archive.read_of_find?_none (by decide))
    (fun path hpath => Archive.read_of_find?_none (by revert path; decide))
    read_describing hloader none none
  rw [hjars] at hopens
  obtain ⟨copy, hidentifier, hkeeps⟩ := keeps_inside (Artifact.maxNesting - 2)
  let root := Artifact.ofLoader loader none jar
  have hread : Artifact.read jar none none = .ok (some (.node root [copy])) := by
    calc Artifact.read jar none none = Artifact.readWith
            (some (Artifact.reader (Artifact.maxNesting - 2 + 1))) jar none none :=
          Artifact.readLevels_eq Artifact.maxNesting
      _ = .ok (some (.node root [copy])) := by
          rw [hopens.readWith_eq, List.map_singleton, List.mapM_cons,
            Artifact.Mention.take_eq_ok_some.mpr hkeeps]
          rfl
  rw [hread]
  simp [bundles, ArtifactTree.bundled, hidentifier]

end NestedJar

/-- The inner jar has its keys, and a pass over a directory with a jar finds a mod for it. -/
theorem resolution_has_key_of_jars :
    (∃ tree copy, Artifact.read NestedJar.jar none none = .ok (some tree) ∧
      Bundles tree.bundled copy ∧ copy.artifact.coordinate = some "a" ∧
        copy.artifact.contentHash = contentHash copy.artifact.payload) ∧
      ∃ (survey : Survey) (outcomes : List Outcome) (after : Workplace ListingMemory),
        survey.expanded ≠ [] ∧
        (∀ candidate ∈ survey.expanded, ∀ catalog,
          ((resolve candidate).exec catalog).1 ≠ .ok .unindexable) ∧
        ((OneJar.indexer .full).processAll survey.expanded).run.run (OneJar.stocked .empty) =
          (.ok outcomes, after) ∧
        .skipped none ∉ outcomes := by
  obtain ⟨hkeys, -, hpass⟩ := resolution_has_key
  constructor
  · obtain ⟨tree, copy, hread, hcopy, hidentifier⟩ :=
      NestedJar.exists_of_bundles NestedJar.bundles_jar
    obtain ⟨hcoordinate, hhash⟩ := hkeys _ _ _ tree hread copy hcopy
    exact ⟨tree, copy, hread, hcopy, hidentifier ▸ hcoordinate, hhash⟩
  · obtain ⟨seen, found, report, left, hsees, -, hexpanded, -, hrun, -⟩ := OneJar.exists_pass .full
    rcases hpass (OneJar.indexer .full) OneJar.platform.toPlatform (OneJar.stocked .empty) with
      ⟨fault, after, hfault, -⟩ | ⟨survey, between, hsurvey, -, hresolved, hskipped⟩
    · cases hrun.symm.trans hfault
    · have hnone : ∀ file, (OneJar.indexer .full).passedOver? Store.empty file = none :=
        (OneJar.indexer .full).passedOver?_eq_none (Or.inl rfl)
      have hsame := (OneJar.indexer .full).survey_eq_sees OneJar.platform.toPlatform
        (OneJar.stocked .empty) hnone
      have halone : (OneJar.stocked .empty).limiter.registered = [] := rfl
      obtain ⟨outcomes, after, hprocessed⟩ :=
        (OneJar.indexer .full).exists_processAll survey.expanded halone
      refine ⟨survey, outcomes, after, ?_, hresolved, hprocessed, hskipped _ after _ hprocessed⟩
      have hseen : survey = seen := by
        rw [hsees] at hsame
        exact Except.ok.inj ((congrArg Prod.fst hsurvey).symm.trans hsame)
      rw [hseen, hexpanded]
      exact List.cons_ne_nil found []

end ModCatalog
