import ModCatalog.Proofs.Archive.Contents
import ModCatalog.Proofs.Artifact.Mentions

/-!
# Damaged jars inside a jar

A jar whose own files can be read has its artifact whatever else it holds.  A bundled jar that is
missing or broken is left out.  The reading of the jar around it fails only where its entry cannot be
read at all, or where the reading stops.  Each mention is judged by its own entry: a change of one
entry is of no consequence for the artifact and for the mentions of other entries.
-/

namespace ModCatalog

/-! ## Own files -/

namespace Artifact

/-- The paths of the files that are read for the artifact itself and for the list of bundled jars. -/
def ownPaths : List String := manifestPath :: bundlePath :: loaderPath :: tablePaths

theorem tablePaths_subset : tablePaths ⊆ ownPaths := fun _ h => by simp [ownPaths, h]

end Artifact

namespace Archive

/-- Whether the files that a jar says something of itself in can be read, as far as they are there. -/
def IsReadable (jar : Archive) : Prop := ∀ path ∈ Artifact.ownPaths, (jar.read path).isOk = true

instance (jar : Archive) : Decidable jar.IsReadable := inferInstanceAs (Decidable (∀ _ ∈ _, _))

theorem IsReadable.exists_read {jar : Archive} (h : jar.IsReadable) (path : String)
    (hpath : path ∈ Artifact.ownPaths) : ∃ content, jar.read path = .ok content := by
  have hread := h path hpath
  cases hcontent : jar.read path with
  | error fault =>
      rw [hcontent] at hread
      cases hread
  | ok content => exact ⟨content, rfl⟩

/-- Whether an archive differs from another one in the content of an entry only, as far as it matters
for the artifact. -/
structure DiffersAt (path : String) (jar changed : Archive) : Prop where
  read : ∀ name, name ≠ path → changed.read name = jar.read name
  services : ∀ service, changed.contains ("META-INF/services/" ++ service) =
    jar.contains ("META-INF/services/" ++ service)
  firstClass : (changed.names.find? fun name => ".class".toList.isSuffixOf name.toList) =
    jar.names.find? fun name => ".class".toList.isSuffixOf name.toList

/-- Two entries of one name that hold the same bytes, unless the name is `path`. -/
def AlikeBut (path : String) (jar changed : Archive) (entry other : ArchiveEntry) : Prop :=
  other.name = entry.name ∧ (entry.name ≠ path →
    other.method = entry.method ∧ other.checksum = entry.checksum ∧
      changed.openEntry other = jar.openEntry entry)

instance (path : String) (jar changed : Archive) (entry other : ArchiveEntry) :
    Decidable (AlikeBut path jar changed entry other) :=
  inferInstanceAs (Decidable (_ ∧ (_ → _)))

theorem AlikeBut.content_eq {path : String} {jar changed : Archive} {entry other : ArchiveEntry}
    (h : AlikeBut path jar changed entry other) (hname : entry.name ≠ path) :
    changed.content other = jar.content entry := by
  obtain ⟨hmethod, hchecksum, hopened⟩ := h.2 hname
  simp only [content, readOpened, hmethod, hchecksum, hopened]

theorem differsAt_of_entries {path : String} {jar changed : Archive}
    (h : List.Forall₂ (AlikeBut path jar changed) jar.entries changed.entries) :
    jar.DiffersAt path changed := by
  have hnames : changed.names = jar.names := by
    unfold names
    generalize jar.entries = entries at h
    generalize changed.entries = others at h
    induction h with
    | nil => rfl
    | cons hfirst _ ih => rw [List.map_cons, List.map_cons, hfirst.1, ih]
  refine ⟨fun name hname => ?_, fun service => by rw [contains, hnames, contains], by rw [hnames]⟩
  have hreverse := List.forall₂_reverse_iff.mpr h
  unfold Archive.read find?
  generalize jar.entries.reverse = entries at hreverse
  generalize changed.entries.reverse = others at hreverse
  induction hreverse with
  | nil => rfl
  | @cons entry other _ _ hfirst _ ih =>
      rw [List.find?_cons, List.find?_cons, hfirst.1]
      by_cases hfound : entry.name = name
      · subst hfound
        simp [hfirst.content_eq hname]
      · simp [hfound, ih]

end Archive

namespace Artifact

theorem exists_describe {jar : Archive} (h : jar.IsReadable) (jarVersion : String) :
    ∃ described, describe jar jarVersion = .ok described := by
  have htables : ∀ paths ⊆ ownPaths, ∃ description,
      firstTableDescription jar jarVersion paths = .ok description := by
    intro paths hpaths
    induction paths with
    | nil => exact ⟨none, rfl⟩
    | cons path rest ih =>
        obtain ⟨hpath, hrest⟩ := List.cons_subset.mp hpaths
        obtain ⟨content, hcontent⟩ := h.exists_read path hpath
        unfold firstTableDescription
        rw [hcontent, ok_bind]
        cases content with
        | none => exact ih hrest
        | some content =>
            dsimp only
            cases ModDescription.ofToml? jarVersion content with
            | none => exact ih hrest
            | some description => exact ⟨_, rfl⟩
  obtain ⟨description, hdescription⟩ := htables tablePaths tablePaths_subset
  obtain ⟨content, hcontent⟩ := h.exists_read loaderPath (by simp [ownPaths])
  unfold describe
  rw [hdescription, ok_bind]
  cases description with
  | some description => exact ⟨_, rfl⟩
  | none =>
      unfold loaderDescription
      rw [hcontent]
      exact ⟨_, rfl⟩

theorem exists_ownArtifact {jar : Archive} (h : jar.IsReadable) (payload : ByteArray)
    (coordinate fallback : Option String) :
    ∃ about, ownArtifact jar payload coordinate fallback = .ok about := by
  obtain ⟨content, hcontent⟩ := h.exists_read manifestPath (by simp [ownPaths])
  have hmanifest : ∃ attributes, manifest jar = .ok attributes := by
    unfold manifest
    rw [hcontent, ok_bind]
    cases content <;> exact ⟨_, rfl⟩
  obtain ⟨attributes, hattributes⟩ := hmanifest
  unfold ownArtifact
  rw [hattributes, ok_bind]
  obtain ⟨described, hdescribed⟩ := exists_describe h
    (((Document.Manifest.value? attributes "Implementation-Version").or fallback).getD
      Version.unknown.text)
  simp only [hdescribed]
  exact ⟨_, rfl⟩

theorem exists_mentions {jar : Archive} (h : jar.IsReadable) (loader : Option LoaderDescription) :
    ∃ named, mentions jar loader = .ok named := by
  obtain ⟨content, hcontent⟩ := h.exists_read bundlePath (by simp [ownPaths])
  unfold mentions
  rw [hcontent]
  exact ⟨_, rfl⟩

/-! ## One changed entry -/

/-- The same artifact from other bytes. -/
def withPayload (artifact : Artifact) (payload : ByteArray) : Artifact :=
  { artifact with contentHash := ModCatalog.contentHash payload, payload := payload }

section

variable {path : String} {jar changed : Archive}

theorem read_own_of_differsAt (h : jar.DiffersAt path changed) (hpath : path ∉ ownPaths)
    {name : String} (hname : name ∈ ownPaths) : changed.read name = jar.read name :=
  h.read name fun hsame => hpath (hsame ▸ hname)

theorem describe_of_differsAt (h : jar.DiffersAt path changed) (hpath : path ∉ ownPaths)
    (jarVersion : String) : describe changed jarVersion = describe jar jarVersion := by
  have htables : ∀ paths ⊆ ownPaths, firstTableDescription changed jarVersion paths =
      firstTableDescription jar jarVersion paths := by
    intro paths hpaths
    induction paths with
    | nil => rfl
    | cons name rest ih =>
        obtain ⟨hname, hrest⟩ := List.cons_subset.mp hpaths
        unfold firstTableDescription
        rw [read_own_of_differsAt h hpath hname, ih hrest]
  have hloader : loaderDescription changed = loaderDescription jar := by
    unfold loaderDescription
    rw [read_own_of_differsAt h hpath (by simp [ownPaths])]
  unfold describe
  rw [htables tablePaths tablePaths_subset, hloader]

theorem ofDescription?_of_differsAt (h : jar.DiffersAt path changed)
    (attributes : Document.Manifest.Attributes) (jarVersion : String) (coordinate : Option String)
    (payload other : ByteArray) (description : Option ModDescription) :
    ofDescription? changed attributes jarVersion coordinate other description =
      (ofDescription? jar attributes jarVersion coordinate payload description).map
        fun root => root.withPayload other := by
  have hlibrary : isLibrary changed attributes = isLibrary jar attributes := by
    simp only [isLibrary, h.services]
  have hname : libraryName changed attributes coordinate = libraryName jar attributes coordinate := by
    simp only [libraryName, h.firstClass]
  cases description with
  | some description => rfl
  | none =>
      simp only [ofDescription?, hlibrary, hname]
      cases isLibrary jar attributes <;> rfl

theorem ownArtifact_of_differsAt (h : jar.DiffersAt path changed) (hpath : path ∉ ownPaths)
    (payload other : ByteArray) (coordinate fallback : Option String) :
    ownArtifact changed other coordinate fallback =
      (ownArtifact jar payload coordinate fallback).map fun about =>
        about.map fun (root, loader) => (root.withPayload other, loader) := by
  have hmanifest : manifest changed = manifest jar := by
    unfold manifest
    rw [read_own_of_differsAt h hpath (by simp [ownPaths])]
  unfold ownArtifact
  rw [hmanifest]
  cases manifest jar with
  | error fault => rfl
  | ok attributes =>
      simp only [ok_bind, describe_of_differsAt h hpath]
      cases describe jar _ with
      | error fault => rfl
      | ok described =>
          simp only [ok_bind, ofDescription?_of_differsAt h _ _ _ payload]
          cases ofDescription? jar attributes _ coordinate payload described.1 <;> rfl

theorem mentions_of_differsAt (h : jar.DiffersAt path changed) (hpath : path ∉ ownPaths)
    (loader : Option LoaderDescription) : mentions changed loader = mentions jar loader := by
  unfold mentions
  rw [read_own_of_differsAt h hpath (by simp [ownPaths])]

theorem Mention.take_of_differsAt (h : jar.DiffersAt path changed) (inner : BundleReader)
    {mention : Mention} (hmention : mention.path ≠ path) :
    mention.take inner changed = mention.take inner jar := by
  unfold take
  rw [h.read mention.path hmention]

theorem Mention.spoils_iff_of_differsAt (h : jar.DiffersAt path changed) (inner : BundleReader)
    {mention : Mention} (hmention : mention.path ≠ path) :
    mention.Spoils inner changed ↔ mention.Spoils inner jar := by
  rw [← take_fails_iff, ← take_fails_iff, take_of_differsAt h inner hmention]

theorem Mention.kept_of_differsAt (h : jar.DiffersAt path changed) (inner : BundleReader)
    {mention : Mention} (hmention : mention.path ≠ path) :
    mention.kept inner changed = mention.kept inner jar := by
  unfold kept
  rw [take_of_differsAt h inner hmention]

end

/-! ## The jar around damaged ones -/

/-- How a jar that is not bundled itself is read: by what its mentions come to. -/
structure IsReadBy (named : List Mention) (payload : ByteArray)
    (coordinate fallback : Option String) (jar : Archive) (root : Artifact) : Prop where
  fails_iff : (∃ fault, read payload coordinate fallback = .error fault) ↔
    ∃ mention ∈ named, mention.Spoils (reader (maxNesting - 1)) jar
  reads : (∀ mention ∈ named, ¬mention.Spoils (reader (maxNesting - 1)) jar) →
    read payload coordinate fallback =
      .ok (some (.node root (named.filterMap (Mention.kept (reader (maxNesting - 1)) jar))))

section

variable {payload : ByteArray} {coordinate fallback : Option String} {jar : Archive}

theorem Opens.isReadBy {root : Artifact} {loader : Option LoaderDescription}
    {named : List Mention} (h : Opens payload coordinate fallback jar root loader named) :
    IsReadBy named payload coordinate fallback jar root where
  fails_iff := by
    unfold read
    rw [readLevels_eq]
    exact h.fails_iff
  reads hspared := by
    unfold read
    rw [readLevels_eq]
    exact h.reads hspared

theorem read_of_ownArtifact_none (hjar : Archive.ofBytes payload = .ok jar)
    (hown : ownArtifact jar payload coordinate fallback = .ok none) :
    read payload coordinate fallback = .ok none := by
  unfold read
  rw [readLevels_eq, readWith, hjar, ok_bind, hown]
  rfl

theorem Opens.of_differsAt {path : String} {changed : Archive} {root : Artifact}
    {loader : Option LoaderDescription} {named : List Mention}
    (h : Opens payload coordinate fallback jar root loader named) (hpath : path ∉ ownPaths)
    {other : ByteArray} (hchanged : Archive.ofBytes other = .ok changed)
    (hdiffers : jar.DiffersAt path changed) :
    Opens other coordinate fallback changed (root.withPayload other) loader named where
  archive := hchanged
  artifact := by
    rw [ownArtifact_of_differsAt hdiffers hpath payload, h.artifact]
    rfl
  names := by rw [mentions_of_differsAt hdiffers hpath, h.names]

/-- Where the own files of a jar can be read, its reading fails exactly if one of its mentions spoils
it.  A change of one other entry leaves the artifact and its mentions as they are, and of these every
one that names another entry comes to what it came to before. -/
theorem damage_stays_local (hjar : Archive.ofBytes payload = .ok jar) (hreadable : jar.IsReadable)
    (coordinate fallback : Option String) :
    (read payload coordinate fallback = .ok none ∧
      ∀ path ∉ ownPaths, ∀ other changed, Archive.ofBytes other = .ok changed →
        jar.DiffersAt path changed → read other coordinate fallback = .ok none) ∨
    ∃ root loader named, Opens payload coordinate fallback jar root loader named ∧
      IsReadBy named payload coordinate fallback jar root ∧
      ∀ path ∉ ownPaths, ∀ other changed, Archive.ofBytes other = .ok changed →
        jar.DiffersAt path changed →
          IsReadBy named other coordinate fallback changed (root.withPayload other) ∧
          ∀ mention ∈ named, mention.path ≠ path →
            (mention.Spoils (reader (maxNesting - 1)) changed ↔
              mention.Spoils (reader (maxNesting - 1)) jar) ∧
            mention.kept (reader (maxNesting - 1)) changed =
              mention.kept (reader (maxNesting - 1)) jar := by
  obtain ⟨about, habout⟩ := exists_ownArtifact hreadable payload coordinate fallback
  cases about with
  | none =>
      refine Or.inl ⟨read_of_ownArtifact_none hjar habout, ?_⟩
      intro path hpath other changed hchanged hdiffers
      refine read_of_ownArtifact_none hchanged ?_
      rw [ownArtifact_of_differsAt hdiffers hpath payload, habout]
      rfl
  | some about =>
      obtain ⟨named, hnamed⟩ := exists_mentions hreadable about.2
      have hopens : Opens payload coordinate fallback jar about.1 about.2 named :=
        ⟨hjar, habout, hnamed⟩
      refine Or.inr ⟨about.1, about.2, named, hopens, hopens.isReadBy, ?_⟩
      intro path hpath other changed hchanged hdiffers
      refine ⟨(hopens.of_differsAt hpath hchanged hdiffers).isReadBy, ?_⟩
      intro mention _ hmention
      exact ⟨Mention.spoils_iff_of_differsAt hdiffers _ hmention,
        Mention.kept_of_differsAt hdiffers _ hmention⟩

end

namespace MarkedJar

/-- An archive with two entries: the description of a mod `o` that names the other one, `i`, and this
one, which has the one character `x` for its content and a checksum that ends in `mark`. -/
def payload (mark : UInt8) : ByteArray :=
  ⟨#[80, 75, 3, 4, 20, 0, 0, 0, 0, 0, 0, 0, 33, 0, mark, 22, 220, 140, 1, 0, 0, 0, 1, 0, 0, 0, 1,
    0, 0, 0, 105, 120, 80, 75, 3, 4, 20, 0, 0, 0, 0, 0, 0, 0, 33, 0, 230, 190, 118, 28, 27, 0, 0,
    0, 27, 0, 0, 0, 15, 0, 0, 0, 102, 97, 98, 114, 105, 99, 46, 109, 111, 100, 46, 106, 115, 111,
    110, 91, 34, 111, 34, 44, 34, 49, 34, 44, 110, 117, 108, 108, 44, 110, 117, 108, 108, 44, 91,
    91, 34, 105, 34, 93, 93, 93, 80, 75, 1, 2, 20, 3, 20, 0, 0, 0, 0, 0, 0, 0, 33, 0, mark, 22,
    220, 140, 1, 0, 0, 0, 1, 0, 0, 0, 1, 0, 0, 0, 0, 0, 0, 0, 0, 0, 0, 0, 128, 0, 0, 0, 0, 0, 105,
    80, 75, 1, 2, 20, 3, 20, 0, 0, 0, 0, 0, 0, 0, 33, 0, 230, 190, 118, 28, 27, 0, 0, 0, 27, 0, 0,
    0, 15, 0, 0, 0, 0, 0, 0, 0, 0, 0, 0, 0, 128, 0, 32, 0, 0, 0, 102, 97, 98, 114, 105, 99, 46,
    109, 111, 100, 46, 106, 115, 111, 110, 80, 75, 5, 6, 0, 0, 0, 0, 2, 0, 2, 0, 108, 0, 0, 0,
    104, 0, 0, 0, 0, 0]⟩

/-- The last byte of the right checksum. -/
def rightMark : UInt8 := 131

def entry (mark : UInt8) : ArchiveEntry :=
  ⟨"i", 0, false, false, UInt32.ofNat (mark.toNat + 256 * 9231382), 1, 0⟩

def describing : ArchiveEntry := ⟨loaderPath, 0, false, false, 477544166, 27, 32⟩

def archive (mark : UInt8) : Archive := ⟨payload mark, [entry mark, describing]⟩

/-- The content of the description. -/
def description : List UInt8 :=
  [91, 34, 111, 34, 44, 34, 49, 34, 44, 110, 117, 108, 108, 44, 110, 117, 108, 108, 44, 91, 91, 34,
   105, 34, 93, 93, 93]

section

set_option maxRecDepth 10000

/-- Both archives have their two entries.  The description, which names the other one, can be opened
in both, and the damaged entry too; only the description has its checksum. -/
theorem contents :
    ((Archive.ofBytes (payload 0)).toOption.map Archive.entries = some [entry 0, describing] ∧
      (Archive.ofBytes (payload rightMark)).toOption.map Archive.entries =
        some [entry rightMark, describing]) ∧
      (archive 0).openEntry describing = .ok ⟨description.toArray⟩ ∧
      (archive rightMark).openEntry describing = .ok ⟨description.toArray⟩ ∧
      (archive 0).openEntry (entry 0) = .ok ⟨#[120]⟩ ∧
      Archive.Crc32.ofList description = describing.checksum ∧
      Archive.Crc32.ofList [120] ≠ (entry 0).checksum ∧
      (LoaderDescription.ofContent? ⟨description.toArray⟩).map LoaderDescription.jars =
        some ["i"] := by
  decide +kernel

end

theorem archives :
    Archive.ofBytes (payload 0) = .ok (archive 0) ∧
      Archive.ofBytes (payload rightMark) = .ok (archive rightMark) :=
  contents.1.imp Archive.ofBytes_eq_ok Archive.ofBytes_eq_ok

theorem read_loaderPath : (archive 0).read loaderPath = .ok (some ⟨description.toArray⟩) :=
  Archive.read_of_find?_some describing (by decide) contents.2.1 rfl contents.2.2.2.2.1

theorem read_of_ne {path : String} (hentry : path ≠ "i") (hloader : path ≠ loaderPath) :
    (archive 0).read path = .ok none :=
  Archive.read_of_find?_none (by
    simp [Archive.find?, archive, entry, describing, hentry.symm, hloader.symm])

theorem isReadable_damaged : (archive 0).IsReadable := by
  intro path hpath
  by_cases hloader : path = loaderPath
  · rw [hloader, read_loaderPath]
    rfl
  · rw [read_of_ne (fun h => by subst h; revert hpath; decide) hloader]
    rfl

theorem differsAt_repaired : (archive 0).DiffersAt "i" (archive rightMark) :=
  Archive.differsAt_of_entries (.cons ⟨rfl, fun h => absurd rfl h⟩ (.cons
    ⟨rfl, fun _ => ⟨rfl, rfl, contents.2.2.1.trans contents.2.1.symm⟩⟩ .nil))

/-- The damaged entry is the only jar that is named. -/
theorem exists_opens_damaged : ∃ root loader,
    Opens (payload 0) none none (archive 0) root loader [.described "i"] := by
  obtain ⟨-, -, -, -, -, -, hjars⟩ := contents
  obtain ⟨loader, hloader, hnamed⟩ := Option.map_eq_some_iff.mp hjars
  have hopens := opens_of_loader archives.1 (read_of_ne (by decide) (by decide))
    (read_of_ne (by decide) (by decide))
    (by
      intro path hpath
      refine read_of_ne ?_ ?_ <;> rintro rfl <;> revert hpath <;> decide)
    read_loaderPath hloader none none
  rw [hnamed] at hopens
  exact ⟨_, some loader, hopens⟩

theorem read_damaged : (archive 0).read "i" = .error .io :=
  Archive.read_of_checksum_ne (entry 0) ⟨#[120]⟩ (by decide) contents.2.2.2.1 rfl
    contents.2.2.2.2.2.1

/-- An entry with a wrong checksum makes the jar around it unreadable. -/
theorem fails_damaged : ∃ fault, read (payload 0) none none = .error fault := by
  obtain ⟨root, loader, hopens⟩ := exists_opens_damaged
  exact hopens.isReadBy.fails_iff.mpr ⟨_, List.mem_singleton_self _, .entry read_damaged⟩

end MarkedJar

/-- A jar whose own files can be read fails for a bundled one that is damaged. -/
theorem damaged_entry_fails_jar :
    ∃ payload jar, Archive.ofBytes payload = .ok jar ∧ jar.IsReadable ∧
      ∃ fault, read payload none none = .error fault :=
  ⟨_, _, MarkedJar.archives.1, MarkedJar.isReadable_damaged, MarkedJar.fails_damaged⟩

/-- The same jar with the right checksum has the same artifact and names the same jars. -/
theorem damage_stays_local_repaired :
    ∃ root loader named,
      Opens (MarkedJar.payload 0) none none (MarkedJar.archive 0) root loader named ∧
      (∃ mention ∈ named, mention.Spoils (reader (maxNesting - 1)) (MarkedJar.archive 0)) ∧
      IsReadBy named (MarkedJar.payload MarkedJar.rightMark) none none
        (MarkedJar.archive MarkedJar.rightMark)
        (root.withPayload (MarkedJar.payload MarkedJar.rightMark)) := by
  obtain ⟨fault, hfault⟩ := MarkedJar.fails_damaged
  rcases damage_stays_local MarkedJar.archives.1 MarkedJar.isReadable_damaged none none with
    ⟨hnone, -⟩ | ⟨root, loader, named, hopens, hread, hlocal⟩
  · cases hnone.symm.trans hfault
  · obtain ⟨hrepaired, -⟩ := hlocal "i" (by decide) _ _ MarkedJar.archives.2
      MarkedJar.differsAt_repaired
    exact ⟨root, loader, named, hopens, hread.fails_iff.mp ⟨fault, hfault⟩, hrepaired⟩

end Artifact

end ModCatalog
