import ModCatalog.Proofs.Archive.Contents
import ModCatalog.Proofs.Artifact.Mentions

/-!
# Nested jars

The reading of a jar goes on with the jars that it names, and counts how deep it is.  An archive may
contain itself, so nothing but this count brings it to an end.  In the trees that are read no artifact
lies deeper than the bound, and above it every jar bundles what it names, in order.
-/

namespace ModCatalog.Artifact

/-! ## The end of reading -/

/-- Whether the reading of a payload goes on with some content, under an identifier and a version. -/
def Starts (payload : ByteArray) (coordinate fallback : Option String) (content : ByteArray)
    (identifier version : String) : Prop :=
  ∃ jar root loader named, Opens payload coordinate fallback jar root loader named ∧
    ∃ mention ∈ named, jar.read mention.path = .ok (some content) ∧
      mention.label? content = .ok (some (identifier, version))

/-- The readings at each depth with their answers.  Below the bound a reading has an answer if all
that it goes on with have answers one level deeper. -/
inductive Reading : Nat → ByteArray → Option String → Option String →
    Except Fault (Option ArtifactTree) → Prop
  | deepest {depth : Nat} {payload : ByteArray} {coordinate fallback : Option String}
      (hdepth : ¬depth < maxNesting) :
      Reading depth payload coordinate fallback (readWith none payload coordinate fallback)
  | deeper {depth : Nat} {payload : ByteArray} {coordinate fallback : Option String}
      (inner : BundleReader) (hdepth : depth < maxNesting)
      (hinner : ∀ content identifier version,
        Starts payload coordinate fallback content identifier version →
          Reading (depth + 1) content (some identifier) (some version)
            (inner content identifier version)) :
      Reading depth payload coordinate fallback (readWith (some inner) payload coordinate fallback)

section

variable {payload : ByteArray} {coordinate fallback : Option String}

theorem Mention.take_congr {inner other : BundleReader} {jar : Archive} {mention : Mention}
    (h : ∀ content identifier version, jar.read mention.path = .ok (some content) →
      mention.label? content = .ok (some (identifier, version)) →
        inner content identifier version = other content identifier version) :
    mention.take inner jar = mention.take other jar := by
  unfold take
  cases hread : jar.read mention.path with
  | error fault => rfl
  | ok found =>
      cases found with
      | none => rfl
      | some content =>
          simp only [ok_bind]
          cases hlabel : mention.label? content with
          | error fault => rfl
          | ok label =>
              cases label with
              | none => rfl
              | some label =>
                  simp only [ok_bind, bundled, h content label.1 label.2 hread hlabel]

/-- Of the next level nothing counts but what is gone on with. -/
theorem readWith_congr {inner other : BundleReader}
    (h : ∀ content identifier version,
      Starts payload coordinate fallback content identifier version →
        inner content identifier version = other content identifier version) :
    readWith (some inner) payload coordinate fallback =
      readWith (some other) payload coordinate fallback := by
  unfold readWith
  cases hjar : Archive.ofBytes payload with
  | error fault => rfl
  | ok jar =>
      simp only [ok_bind]
      cases habout : ownArtifact jar payload coordinate fallback with
      | error fault => rfl
      | ok about =>
          cases about with
          | none => rfl
          | some about =>
              simp only [ok_bind, bundle_eq]
              cases hnamed : mentions jar about.2 with
              | error fault => rfl
              | ok named =>
                  have hopens : Opens payload coordinate fallback jar about.1 about.2 named :=
                    ⟨hjar, habout, hnamed⟩
                  have htake : named.mapM (Mention.take inner jar) =
                      named.mapM (Mention.take other jar) :=
                    mapM_congr fun mention hmention =>
                      Mention.take_congr fun content identifier version hread hlabel =>
                        h content identifier version
                          ⟨jar, about.1, about.2, named, hopens, mention, hmention, hread, hlabel⟩
                  simp only [ok_bind, htake]

/-- Every reading has one answer: what is read with the levels that are left. -/
theorem reading_iff {depth levels : Nat} (hdepth : depth + levels = maxNesting)
    {answer : Except Fault (Option ArtifactTree)} :
    Reading depth payload coordinate fallback answer ↔
      answer = readLevels levels payload coordinate fallback := by
  induction levels generalizing depth payload coordinate fallback answer with
  | zero =>
      have hlast : ¬depth < maxNesting := by omega
      rw [readLevels_eq]
      constructor
      · intro h
        cases h with
        | deepest _ => rfl
        | deeper _ hlt _ => exact absurd hlt hlast
      · rintro rfl
        exact .deepest hlast
  | succ levels ih =>
      have hmore : depth < maxNesting := by omega
      have hnext : depth + 1 + levels = maxNesting := by omega
      rw [readLevels_eq]
      constructor
      · intro h
        cases h with
        | deepest hlast => exact absurd hmore hlast
        | deeper inner _ hinner =>
            exact readWith_congr fun content identifier version hstarts =>
              (ih hnext).mp (hinner content identifier version hstarts)
      · rintro rfl
        exact .deeper (reader levels) hmore fun content identifier version _ => (ih hnext).mpr rfl

end

/-! ## Levels of a tree -/

/-- Whether a tree lies in another one, so many levels below its root. -/
inductive Lies (tree : ArtifactTree) : Nat → ArtifactTree → Prop
  | root : Lies tree 0 tree
  | nested {level : Nat} {node : ArtifactTree} {copy : BundledArtifact}
      (hnode : Lies tree level node) (hcopy : copy ∈ node.bundled) : Lies tree (level + 1) copy.2.2

theorem bundled_of_readWith_none {payload : ByteArray} {coordinate fallback : Option String}
    {tree : ArtifactTree} (h : readWith none payload coordinate fallback = .ok (some tree)) :
    tree.bundled = [] := by
  unfold readWith at h
  obtain ⟨jar, -, h⟩ := bind_eq_ok.mp h
  obtain ⟨about, -, h⟩ := bind_eq_ok.mp h
  cases about with
  | none => cases h
  | some about =>
      cases h
      rfl

/-- Each level of a tree is read with one level less. -/
theorem Lies.exists_readLevels {tree node : ArtifactTree} {level levels : Nat}
    (hlies : Lies tree level node) {payload : ByteArray} {coordinate fallback : Option String}
    (htree : readLevels levels payload coordinate fallback = .ok (some tree)) :
    ∃ left payload coordinate fallback, level + left = levels ∧
      readLevels left payload coordinate fallback = .ok (some node) := by
  induction hlies with
  | root => exact ⟨levels, payload, coordinate, fallback, Nat.zero_add _, htree⟩
  | @nested level node copy hnode hcopy ih =>
      obtain ⟨left, payload, coordinate, fallback, hleft, hread⟩ := ih
      rw [readLevels_eq] at hread
      cases left with
      | zero =>
          rw [bundled_of_readWith_none hread] at hcopy
          cases hcopy
      | succ left =>
          obtain ⟨jar, root, loader, named, -, -, rfl⟩ := exists_opens hread
          obtain ⟨mention, -, hkept⟩ := List.mem_filterMap.mp hcopy
          obtain ⟨-, -, hinner⟩ := Mention.kept_eq_some.mp hkept
          exact ⟨left, _, _, _, by omega, hinner⟩

theorem payload_of_ownArtifact {jar : Archive} {payload : ByteArray}
    {coordinate fallback : Option String} {root : Artifact} {loader : Option LoaderDescription}
    (h : ownArtifact jar payload coordinate fallback = .ok (some (root, loader))) :
    root.payload = payload := by
  unfold ownArtifact at h
  obtain ⟨attributes, -, h⟩ := bind_eq_ok.mp h
  obtain ⟨described, -, h⟩ := bind_eq_ok.mp h
  obtain ⟨artifact, hartifact, habout⟩ := Option.map_eq_some_iff.mp (Except.ok.inj h)
  cases habout
  unfold ofDescription? at hartifact
  split at hartifact
  · cases hartifact
    rfl
  · split at hartifact <;> cases hartifact
    rfl

/-! ## What is kept -/

/-- Whether content is a jar with an artifact of its own.  Where the jars that it names are looked
for, their list can be read and none of their entries is damaged. -/
def IsSound (deeper : Prop) (content : ByteArray) (identifier version : String)
    (root : Artifact) : Prop :=
  ∃ jar loader, Archive.ofBytes content = .ok jar ∧
    ownArtifact jar content (some identifier) (some version) = .ok (some (root, loader)) ∧
    (deeper → ∃ named, mentions jar loader = .ok named ∧
      ∀ mention ∈ named, (jar.read mention.path).isOk = true)

/-- Whether a bundled artifact is the jar that a mention names, under the label that it has there. -/
inductive Mention.Holds (jar : Archive) (mention : Mention) : BundledArtifact → Prop
  | intro {content : ByteArray} {identifier version : String} {tree : ArtifactTree}
      (read : jar.read mention.path = .ok (some content))
      (label : mention.label? content = .ok (some (identifier, version)))
      (sound : IsSound False content identifier version tree.root) :
      Mention.Holds jar mention (identifier, ⟨version⟩, tree)

theorem stops_of_leaveOut {α : Type} {answer : Except Fault (Option α)} {fault : Fault}
    (h : Fault.leaveOut answer = .error fault) : ∃ text, fault = .panicked text := by
  unfold Fault.leaveOut at h
  split at h <;> cases h
  exact ⟨_, rfl⟩

theorem Mention.stops_of_label? {mention : Mention} {content : ByteArray} {fault : Fault}
    (h : mention.label? content = .error fault) : ∃ text, fault = .panicked text := by
  cases mention with
  | listed entry => cases h
  | described path =>
      rcases bind_eq_error.mp h with hdescribed | ⟨own, -, h⟩
      · exact stops_of_leaveOut hdescribed
      · cases h

/-- Where its entry can be read, a mention makes a jar unreadable only by stopping the reading. -/
theorem Mention.stops_of_take {inner : BundleReader} {jar : Archive} {mention : Mention}
    {fault : Fault} (hread : (jar.read mention.path).isOk = true)
    (htake : mention.take inner jar = .error fault) : ∃ text, fault = .panicked text := by
  rcases bind_eq_error.mp htake with hfails | ⟨found, -, htake⟩
  · rw [hfails] at hread
    cases hread
  cases found with
  | none => cases htake
  | some content =>
      rcases bind_eq_error.mp htake with hlabel | ⟨label, -, htake⟩
      · exact stops_of_label? hlabel
      cases label with
      | none => cases htake
      | some label =>
          rcases bind_eq_error.mp htake with hleft | ⟨tree, -, htake⟩
          · exact stops_of_leaveOut hleft
          · cases htake

section

variable {jar : Archive} {mention : Mention} {levels : Nat} {content : ByteArray}
  {identifier version : String} {root : Artifact}

/-- A sound jar is read, unless its reading stops. -/
theorem IsSound.exists_reader (h : IsSound (0 < levels) content identifier version root)
    (hstops : ∀ text, reader levels content identifier version ≠ .error (.panicked text)) :
    ∃ tree, reader levels content identifier version = .ok (some tree) ∧ tree.root = root := by
  obtain ⟨own, loader, hown, hroot, hdeeper⟩ := h
  unfold reader at hstops ⊢
  rw [readLevels_eq] at hstops ⊢
  cases levels with
  | zero =>
      refine ⟨.node root [], ?_, rfl⟩
      simp only [reader?, readWith, hown, hroot, ok_bind]
      rfl
  | succ levels =>
      obtain ⟨named, hnamed, hentries⟩ := hdeeper (Nat.succ_pos levels)
      have hopens : Opens content (some identifier) (some version) own root loader named :=
        ⟨hown, hroot, hnamed⟩
      refine ⟨_, hopens.reads fun inside hinside hspoils => ?_, rfl⟩
      obtain ⟨fault, hfault⟩ := mapM_fails_iff.mpr
        ⟨inside, hinside, Mention.take_fails_iff.mpr hspoils⟩
      obtain ⟨first, hfirst, htake⟩ := exists_of_mapM_eq_error hfault
      obtain ⟨text, rfl⟩ := Mention.stops_of_take (hentries first hfirst) htake
      refine hstops text ?_
      rw [reader?, hopens.readWith_eq, hfault]
      rfl

theorem Mention.exists_kept (hspared : ¬mention.Spoils (reader levels) jar)
    (hread : jar.read mention.path = .ok (some content))
    (hlabel : mention.label? content = .ok (some (identifier, version)))
    (hsound : IsSound (0 < levels) content identifier version root) :
    ∃ tree, mention.kept (reader levels) jar = some (identifier, ⟨version⟩, tree) ∧
      tree.root = root := by
  obtain ⟨tree, htree, hroot⟩ := hsound.exists_reader fun text hstops =>
    hspared (.content hread hlabel hstops)
  exact ⟨tree, kept_eq_some.mpr (.intro hread hlabel htree), hroot⟩

theorem Mention.holds_of_kept {copy : BundledArtifact}
    (h : mention.kept (reader levels) jar = some copy) : mention.Holds jar copy := by
  obtain ⟨hread, hlabel, htree⟩ := kept_eq_some.mp h
  refine .intro hread hlabel ?_
  unfold reader at htree
  rw [readLevels_eq] at htree
  unfold readWith at htree
  obtain ⟨own, hown, htree⟩ := bind_eq_ok.mp htree
  obtain ⟨about, habout, htree⟩ := bind_eq_ok.mp htree
  cases about with
  | none => cases htree
  | some about =>
      refine ⟨own, about.2, hown, ?_, nofun⟩
      cases hinner : reader? levels with
      | none =>
          rw [hinner] at htree
          cases htree
          exact habout
      | some inner =>
          rw [hinner] at htree
          obtain ⟨below, -, htree⟩ := bind_eq_ok.mp htree
          cases htree
          exact habout

theorem Opens.isSound {named : List Mention} {loader : Option LoaderDescription}
    (h : Opens content (some identifier) (some version) jar root loader named)
    (hentries : ∀ mention ∈ named, (jar.read mention.path).isOk = true) (deeper : Prop) :
    IsSound deeper content identifier version root :=
  ⟨jar, loader, h.archive, h.artifact, fun _ => ⟨named, h.names, hentries⟩⟩

end

/-! ## Trees -/

/-- What a node of a tree that was read bundles where another level is left: of the jars that it
names, in order, those that are sound, and nothing that is not such a jar. -/
def IsFilled (deeper : Prop) (node : ArtifactTree) : Prop :=
  ∃ coordinate fallback jar loader named,
    Opens node.root.payload coordinate fallback jar node.root loader named ∧
    ∃ kept : Mention → Option BundledArtifact, node.bundled = named.filterMap kept ∧
      ∀ mention ∈ named,
        (∀ copy, kept mention = some copy → mention.Holds jar copy) ∧
        ∀ content identifier version root, jar.read mention.path = .ok (some content) →
          mention.label? content = .ok (some (identifier, version)) →
          IsSound deeper content identifier version root →
            ∃ tree, kept mention = some (identifier, ⟨version⟩, tree) ∧ tree.root = root

theorem isFilled_of_readLevels {levels : Nat} {payload : ByteArray}
    {coordinate fallback : Option String} {node : ArtifactTree}
    (h : readLevels (levels + 1) payload coordinate fallback = .ok (some node)) :
    IsFilled (0 < levels) node := by
  rw [readLevels_eq] at h
  obtain ⟨jar, root, loader, named, hopens, hspared, rfl⟩ := exists_opens h
  have hpayload : root.payload = payload := payload_of_ownArtifact hopens.artifact
  refine ⟨coordinate, fallback, jar, loader, named, hpayload ▸ hopens, _, rfl, ?_⟩
  intro mention hmention
  refine ⟨fun copy hcopy => Mention.holds_of_kept hcopy, ?_⟩
  intro content identifier version root hread hlabel hsound
  exact Mention.exists_kept (hspared mention hmention) hread hlabel hsound

/-- Reading ends for every payload: it has one answer, counted from the root.  In the trees that are
read every level above the bound is filled, and the artifacts at the bound bundle nothing. -/
theorem nesting_is_bounded (payload : ByteArray) (coordinate fallback : Option String) :
    (∀ answer, Reading 0 payload coordinate fallback answer ↔
      answer = read payload coordinate fallback) ∧
    ∀ tree, read payload coordinate fallback = .ok (some tree) →
      ∀ level node, Lies tree level node →
        level ≤ maxNesting ∧ (level = maxNesting → node.bundled = []) ∧
          (level < maxNesting → IsFilled (level + 1 < maxNesting) node) := by
  constructor
  · intro answer
    exact reading_iff (Nat.zero_add maxNesting)
  · intro tree htree level node hlies
    obtain ⟨left, payload, coordinate, fallback, hleft, hread⟩ := hlies.exists_readLevels htree
    cases left with
    | zero =>
        refine ⟨by omega, fun _ => ?_, fun hlevel => by omega⟩
        rw [readLevels_eq] at hread
        exact bundled_of_readWith_none hread
    | succ left =>
        refine ⟨by omega, fun hlevel => by omega, fun _ => ?_⟩
        have hdeeper : (level + 1 < maxNesting) = (0 < left) := by
          rw [eq_iff_iff]
          omega
        rw [hdeeper]
        exact isFilled_of_readLevels hread

/-! ## Content that fails -/

section

variable {own : Archive} {content bytes : ByteArray} {fault : Fault}

theorem bundledDescription_of_loader {found : LoaderDescription}
    (hown : Archive.ofBytes content = .ok own) (hloader : own.read loaderPath = .ok (some bytes))
    (hfound : LoaderDescription.ofContent? bytes = some found) :
    bundledDescription content = .ok (some found) := by
  simp only [bundledDescription, hown, loaderDescription, hloader, ok_bind, Option.bind_some, hfound]
  rfl

/-- Without its manifest a jar is not read, whatever else describes it. -/
theorem reader_of_manifest (hown : Archive.ofBytes content = .ok own)
    (hmanifest : own.read manifestPath = .error fault) (levels : Nat)
    (identifier version : String) : reader levels content identifier version = .error fault := by
  simp only [reader, readLevels_eq, readWith, hown, ownArtifact, manifest, hmanifest, ok_bind]
  rfl

theorem Mention.label?_described {found : LoaderDescription}
    (h : bundledDescription content = .ok (some found)) (path : String) :
    (described path).label? content = .ok (some (found.id, found.version)) := by
  simp only [label?, h, ok_bind, Option.map_some]
  rfl

/-- A jar whose reading fails without stopping is left out. -/
theorem Mention.take_of_failed {inner : BundleReader} {jar : Archive} {mention : Mention}
    {identifier version : String} (hread : jar.read mention.path = .ok (some content))
    (hlabel : mention.label? content = .ok (some (identifier, version)))
    (hfails : inner content identifier version = .error fault)
    (hstops : ∀ text, fault ≠ .panicked text) : mention.take inner jar = .ok none := by
  have hleft : Fault.leaveOut (inner content identifier version) = .ok none := by
    rw [hfails]
    unfold Fault.leaveOut
    cases fault with
    | panicked text => exact absurd rfl (hstops text)
    | _ => rfl
  simp only [take, hread, hlabel, bundled, hleft, ok_bind]
  rfl

end

namespace BrokenManifest

/-- The description of the mod `a`. -/
def descriptionInside : List UInt8 :=
  [91, 34, 97, 34, 44, 34, 49, 34, 44, 110, 117, 108, 108, 44, 110, 117, 108, 108, 44, 91, 93, 93]

/-- The files of an archive: the description of a mod `a`, and a manifest of one character. -/
def filesInside : List UInt8 :=
  [80, 75, 3, 4, 20, 0, 0, 0, 0, 0, 0, 0, 33, 0, 225, 107, 93, 118, 22, 0, 0, 0, 22, 0, 0, 0, 15,
   0, 0, 0, 102, 97, 98, 114, 105, 99, 46, 109, 111, 100, 46, 106, 115, 111, 110, 91, 34, 97, 34,
   44, 34, 49, 34, 44, 110, 117, 108, 108, 44, 110, 117, 108, 108, 44, 91, 93, 93, 80, 75, 3, 4,
   20, 0, 0, 0, 0, 0, 0, 0, 33, 0, 0, 0, 0, 0, 1, 0, 0, 0, 1, 0, 0, 0, 20, 0, 0, 0, 77, 69, 84,
   65, 45, 73, 78, 70, 47, 77, 65, 78, 73, 70, 69, 83, 84, 46, 77, 70, 120]

/-- The directory of the archive.  It states a wrong checksum for the manifest. -/
def directoryInside : List UInt8 :=
  [80, 75, 1, 2, 20, 3, 20, 0, 0, 0, 0, 0, 0, 0, 33, 0, 225, 107, 93, 118, 22, 0, 0, 0, 22, 0, 0,
   0, 15, 0, 0, 0, 0, 0, 0, 0, 0, 0, 0, 0, 128, 0, 0, 0, 0, 0, 102, 97, 98, 114, 105, 99, 46, 109,
   111, 100, 46, 106, 115, 111, 110, 80, 75, 1, 2, 20, 3, 20, 0, 0, 0, 0, 0, 0, 0, 33, 0, 0, 0, 0,
   0, 1, 0, 0, 0, 1, 0, 0, 0, 20, 0, 0, 0, 0, 0, 0, 0, 0, 0, 0, 0, 128, 0, 67, 0, 0, 0, 77, 69,
   84, 65, 45, 73, 78, 70, 47, 77, 65, 78, 73, 70, 69, 83, 84, 46, 77, 70, 80, 75, 5, 6, 0, 0, 0,
   0, 2, 0, 2, 0, 127, 0, 0, 0, 118, 0, 0, 0, 0, 0]

def inside : List UInt8 := filesInside ++ directoryInside

/-- The description of the mod `o`. -/
def description : List UInt8 :=
  [91, 34, 111, 34, 44, 34, 49, 34, 44, 110, 117, 108, 108, 44, 110, 117, 108, 108, 44, 91, 91, 34,
   105, 34, 93, 93, 93]

/-- The files of an archive: the one with the broken manifest as `i`, and the description of a mod `o`
that names it. -/
def files : List UInt8 :=
  [80, 75, 3, 4, 20, 0, 0, 0, 0, 0, 0, 0, 33, 0, 10, 171, 148, 173, 11, 1, 0, 0, 11, 1, 0, 0, 1,
   0, 0, 0, 105] ++
    inside ++
    [80, 75, 3, 4, 20, 0, 0, 0, 0, 0, 0, 0, 33, 0, 230, 190, 118, 28, 27, 0, 0, 0, 27, 0, 0, 0,
     15, 0, 0, 0, 102, 97, 98, 114, 105, 99, 46, 109, 111, 100, 46, 106, 115, 111, 110, 91, 34,
     111, 34, 44, 34, 49, 34, 44, 110, 117, 108, 108, 44, 110, 117, 108, 108, 44, 91, 91, 34, 105,
     34, 93, 93, 93]

def directory : List UInt8 :=
  [80, 75, 1, 2, 20, 3, 20, 0, 0, 0, 0, 0, 0, 0, 33, 0, 10, 171, 148, 173, 11, 1, 0, 0, 11, 1, 0,
   0, 1, 0, 0, 0, 0, 0, 0, 0, 0, 0, 0, 0, 128, 0, 0, 0, 0, 0, 105, 80, 75, 1, 2, 20, 3, 20, 0, 0,
   0, 0, 0, 0, 0, 33, 0, 230, 190, 118, 28, 27, 0, 0, 0, 27, 0, 0, 0, 15, 0, 0, 0, 0, 0, 0, 0, 0,
   0, 0, 0, 128, 0, 42, 1, 0, 0, 102, 97, 98, 114, 105, 99, 46, 109, 111, 100, 46, 106, 115, 111,
   110, 80, 75, 5, 6, 0, 0, 0, 0, 2, 0, 2, 0, 108, 0, 0, 0, 114, 1, 0, 0, 0, 0]

def around : List UInt8 := files ++ directory

def payload : ByteArray := ⟨around.toArray⟩

def content : ByteArray := ⟨inside.toArray⟩

def bundle : ArchiveEntry := ⟨"i", 0, false, false, 2912201482, 267, 0⟩

def describing : ArchiveEntry := ⟨loaderPath, 0, false, false, 477544166, 27, 298⟩

def describingInside : ArchiveEntry := ⟨loaderPath, 0, false, false, 1985833953, 22, 0⟩

def manifestInside : ArchiveEntry := ⟨manifestPath, 0, false, false, 0, 1, 67⟩

def jar : Archive := ⟨payload, [bundle, describing]⟩

def own : Archive := ⟨content, [describingInside, manifestInside]⟩

section

set_option maxRecDepth 10000

/-- Both archives have their entries; the outer description names the one bundled jar, and that of this
one is valid; and all entries have their checksum but the manifest. -/
theorem contents :
    (Archive.listed? files.length directory = some [bundle, describing] ∧
        Archive.listed? filesInside.length directoryInside =
          some [describingInside, manifestInside]) ∧
      ((LoaderDescription.ofContent? ⟨description.toArray⟩).map LoaderDescription.jars =
          some ["i"] ∧
        (LoaderDescription.ofContent? ⟨descriptionInside.toArray⟩).isSome = true) ∧
      Archive.Crc32.ofList inside = bundle.checksum ∧
      Archive.Crc32.ofList description = describing.checksum ∧
      Archive.Crc32.ofList descriptionInside = describingInside.checksum ∧
      Archive.Crc32.ofList [120] ≠ manifestInside.checksum := by
  decide +kernel

theorem archives : Archive.ofBytes payload = .ok jar ∧ Archive.ofBytes content = .ok own :=
  contents.1.imp Archive.ofBytes_append Archive.ofBytes_append

theorem openEntry_bundle : jar.openEntry bundle = .ok content := by
  calc jar.openEntry bundle = .ok (ByteArray.extract ⟨around.toArray⟩ 31 298) := rfl
    _ = .ok ⟨(around.extract 31 298).toArray⟩ := by rw [Archive.extract_toArray]
    _ = .ok content := rfl

theorem openEntry_describing : jar.openEntry describing = .ok ⟨description.toArray⟩ := by
  calc jar.openEntry describing = .ok (ByteArray.extract ⟨around.toArray⟩ 343 370) := rfl
    _ = .ok ⟨(around.extract 343 370).toArray⟩ := by rw [Archive.extract_toArray]
    _ = .ok ⟨description.toArray⟩ := rfl

theorem openEntry_describingInside :
    own.openEntry describingInside = .ok ⟨descriptionInside.toArray⟩ := by
  calc own.openEntry describingInside = .ok (ByteArray.extract ⟨inside.toArray⟩ 45 67) := rfl
    _ = .ok ⟨(inside.extract 45 67).toArray⟩ := by rw [Archive.extract_toArray]
    _ = .ok ⟨descriptionInside.toArray⟩ := rfl

theorem openEntry_manifestInside : own.openEntry manifestInside = .ok ⟨#[120]⟩ := by
  calc own.openEntry manifestInside = .ok (ByteArray.extract ⟨inside.toArray⟩ 117 118) := rfl
    _ = .ok ⟨(inside.extract 117 118).toArray⟩ := by rw [Archive.extract_toArray]
    _ = .ok ⟨#[120]⟩ := rfl

end

theorem read_bundle : jar.read "i" = .ok (some content) :=
  Archive.read_of_find?_some bundle (by decide) openEntry_bundle rfl contents.2.2.1

theorem read_describing : jar.read loaderPath = .ok (some ⟨description.toArray⟩) :=
  Archive.read_of_find?_some describing (by decide) openEntry_describing rfl contents.2.2.2.1

theorem read_describingInside : own.read loaderPath = .ok (some ⟨descriptionInside.toArray⟩) :=
  Archive.read_of_find?_some describingInside (by decide) openEntry_describingInside rfl
    contents.2.2.2.2.1

theorem read_manifestInside : own.read manifestPath = .error .io :=
  Archive.read_of_checksum_ne manifestInside ⟨#[120]⟩ (by decide) openEntry_manifestInside rfl
    contents.2.2.2.2.2

theorem read_of_ne {path : String} (hbundle : path ≠ "i") (hloader : path ≠ loaderPath) :
    jar.read path = .ok none :=
  Archive.read_of_find?_none (by
    simp [Archive.find?, jar, bundle, describing, hbundle.symm, hloader.symm])

theorem exists_opens_payload :
    ∃ root loader, Opens payload none none jar root (some loader) [.described "i"] := by
  obtain ⟨loader, hloader, hnamed⟩ := Option.map_eq_some_iff.mp contents.2.1.1
  have hopens := opens_of_loader archives.1 (read_of_ne (by decide) (by decide))
    (read_of_ne (by decide) (by decide))
    (by
      intro path hpath
      refine read_of_ne ?_ ?_ <;> rintro rfl <;> revert hpath <;> decide)
    read_describing hloader none none
  rw [hnamed] at hopens
  exact ⟨_, loader, hopens⟩

theorem exists_bundledDescription : ∃ found, bundledDescription content = .ok (some found) := by
  obtain ⟨found, hfound⟩ := Option.isSome_iff_exists.mp contents.2.1.2
  exact ⟨found, bundledDescription_of_loader archives.2 read_describingInside hfound⟩

/-- Wherever the jar with the broken manifest is bundled, it is left out. -/
theorem take_of_read {jar : Archive} {path : String} (hread : jar.read path = .ok (some content))
    (levels : Nat) : (Mention.described path).take (reader levels) jar = .ok none := by
  obtain ⟨found, hfound⟩ := exists_bundledDescription
  exact Mention.take_of_failed hread (Mention.label?_described hfound path)
    (reader_of_manifest archives.2 read_manifestInside levels found.id found.version) nofun

theorem exists_read_payload :
    ∃ root loader, Opens payload none none jar root (some loader) [.described "i"] ∧
      read payload none none = .ok (some (.node root [])) := by
  obtain ⟨root, loader, hopens⟩ := exists_opens_payload
  refine ⟨root, loader, hopens, ?_⟩
  calc read payload none none = readWith (some (reader (maxNesting - 1))) payload none none :=
        readLevels_eq maxNesting
    _ = .ok (some (.node root [])) := by
        rw [hopens.readWith_eq, List.mapM_cons, take_of_read read_bundle]
        rfl

end BrokenManifest

/-- A jar with a valid description in JSON is left out if its manifest is broken. -/
theorem described_jar_left_out :
    ∃ payload jar root loader content found,
      Opens payload none none jar root (some loader) [.described "i"] ∧
      jar.read "i" = .ok (some content) ∧ bundledDescription content = .ok (some found) ∧
      read payload none none = .ok (some (.node root [])) := by
  obtain ⟨root, loader, hopens, hread⟩ := BrokenManifest.exists_read_payload
  obtain ⟨found, hfound⟩ := BrokenManifest.exists_bundledDescription
  exact ⟨_, _, root, loader, _, found, hopens, BrokenManifest.read_bundle, hfound, hread⟩

namespace BesideBroken

/-- The description of the mod `b`. -/
def descriptionWhole : List UInt8 :=
  [91, 34, 98, 34, 44, 34, 49, 34, 44, 110, 117, 108, 108, 44, 110, 117, 108, 108, 44, 91, 93,
   93]

/-- The only file of an archive, the description of a mod `b`. -/
def filesWhole : List UInt8 :=
  [80, 75, 3, 4, 20, 0, 0, 0, 0, 0, 0, 0, 33, 0, 43, 38, 244, 217, 22, 0, 0, 0, 22, 0, 0, 0, 15,
   0, 0, 0, 102, 97, 98, 114, 105, 99, 46, 109, 111, 100, 46, 106, 115, 111, 110, 91, 34, 98, 34,
   44, 34, 49, 34, 44, 110, 117, 108, 108, 44, 110, 117, 108, 108, 44, 91, 93, 93]

def directoryWhole : List UInt8 :=
  [80, 75, 1, 2, 20, 3, 20, 0, 0, 0, 0, 0, 0, 0, 33, 0, 43, 38, 244, 217, 22, 0, 0, 0, 22, 0, 0,
   0, 15, 0, 0, 0, 0, 0, 0, 0, 0, 0, 0, 0, 128, 0, 0, 0, 0, 0, 102, 97, 98, 114, 105, 99, 46, 109,
   111, 100, 46, 106, 115, 111, 110, 80, 75, 5, 6, 0, 0, 0, 0, 1, 0, 1, 0, 61, 0, 0, 0, 67, 0, 0,
   0, 0, 0]

def whole : List UInt8 := filesWhole ++ directoryWhole

/-- The description of the mod `o`. -/
def description : List UInt8 :=
  [91, 34, 111, 34, 44, 34, 49, 34, 44, 110, 117, 108, 108, 44, 110, 117, 108, 108, 44, 91, 91,
   34, 105, 34, 93, 44, 91, 34, 107, 34, 93, 93, 93]

/-- The files of an archive: a jar with a broken manifest as `i`, one that is whole as `k`, and the
description of a mod `o` that names them both. -/
def files : List UInt8 :=
  [80, 75, 3, 4, 20, 0, 0, 0, 0, 0, 0, 0, 33, 0, 10, 171, 148, 173, 11, 1, 0, 0, 11, 1, 0, 0, 1,
   0, 0, 0, 105] ++
    BrokenManifest.inside ++
    [80, 75, 3, 4, 20, 0, 0, 0, 0, 0, 0, 0, 33, 0, 186, 7, 78, 202, 150, 0, 0, 0, 150, 0, 0, 0, 1,
     0, 0, 0, 107] ++
    whole ++
    [80, 75, 3, 4, 20, 0, 0, 0, 0, 0, 0, 0, 33, 0, 78, 216, 124, 86, 33, 0, 0, 0, 33, 0, 0, 0, 15,
     0, 0, 0, 102, 97, 98, 114, 105, 99, 46, 109, 111, 100, 46, 106, 115, 111, 110, 91, 34, 111,
     34, 44, 34, 49, 34, 44, 110, 117, 108, 108, 44, 110, 117, 108, 108, 44, 91, 91, 34, 105, 34,
     93, 44, 91, 34, 107, 34, 93, 93, 93]

def directory : List UInt8 :=
  [80, 75, 1, 2, 20, 3, 20, 0, 0, 0, 0, 0, 0, 0, 33, 0, 10, 171, 148, 173, 11, 1, 0, 0, 11, 1, 0,
   0, 1, 0, 0, 0, 0, 0, 0, 0, 0, 0, 0, 0, 128, 0, 0, 0, 0, 0, 105, 80, 75, 1, 2, 20, 3, 20, 0, 0,
   0, 0, 0, 0, 0, 33, 0, 186, 7, 78, 202, 150, 0, 0, 0, 150, 0, 0, 0, 1, 0, 0, 0, 0, 0, 0, 0, 0,
   0, 0, 0, 128, 0, 42, 1, 0, 0, 107, 80, 75, 1, 2, 20, 3, 20, 0, 0, 0, 0, 0, 0, 0, 33, 0, 78,
   216, 124, 86, 33, 0, 0, 0, 33, 0, 0, 0, 15, 0, 0, 0, 0, 0, 0, 0, 0, 0, 0, 0, 128, 0, 223, 1, 0,
   0, 102, 97, 98, 114, 105, 99, 46, 109, 111, 100, 46, 106, 115, 111, 110, 80, 75, 5, 6, 0, 0, 0,
   0, 3, 0, 3, 0, 155, 0, 0, 0, 45, 2, 0, 0, 0, 0]

def around : List UInt8 := files ++ directory

def payload : ByteArray := ⟨around.toArray⟩

def content : ByteArray := ⟨whole.toArray⟩

def bundleBroken : ArchiveEntry := ⟨"i", 0, false, false, 2912201482, 267, 0⟩

def bundleWhole : ArchiveEntry := ⟨"k", 0, false, false, 3394111418, 150, 298⟩

def describing : ArchiveEntry := ⟨loaderPath, 0, false, false, 1451022414, 33, 479⟩

def describingWhole : ArchiveEntry := ⟨loaderPath, 0, false, false, 3656656427, 22, 0⟩

def jar : Archive := ⟨payload, [bundleBroken, bundleWhole, describing]⟩

def own : Archive := ⟨content, [describingWhole]⟩

section

set_option maxRecDepth 10000

/-- Both archives have their entries; the outer description names both jars, and that of the second one
is valid and names none; and these entries have their checksums. -/
theorem contents :
    (Archive.listed? files.length directory = some [bundleBroken, bundleWhole, describing] ∧
        Archive.listed? filesWhole.length directoryWhole = some [describingWhole]) ∧
      ((LoaderDescription.ofContent? ⟨description.toArray⟩).map LoaderDescription.jars =
          some ["i", "k"] ∧
        (LoaderDescription.ofContent? ⟨descriptionWhole.toArray⟩).map
          (fun found => (found.id, found.jars)) = some ("b", [])) ∧
      Archive.Crc32.ofList whole = bundleWhole.checksum ∧
      Archive.Crc32.ofList description = describing.checksum ∧
      Archive.Crc32.ofList descriptionWhole = describingWhole.checksum := by
  decide +kernel

theorem archives : Archive.ofBytes payload = .ok jar ∧ Archive.ofBytes content = .ok own :=
  contents.1.imp Archive.ofBytes_append Archive.ofBytes_append

theorem openEntry_bundleBroken : jar.openEntry bundleBroken = .ok BrokenManifest.content := by
  calc jar.openEntry bundleBroken = .ok (ByteArray.extract ⟨around.toArray⟩ 31 298) := rfl
    _ = .ok ⟨(around.extract 31 298).toArray⟩ := by rw [Archive.extract_toArray]
    _ = .ok BrokenManifest.content := rfl

theorem openEntry_bundleWhole : jar.openEntry bundleWhole = .ok content := by
  calc jar.openEntry bundleWhole = .ok (ByteArray.extract ⟨around.toArray⟩ 329 479) := rfl
    _ = .ok ⟨(around.extract 329 479).toArray⟩ := by rw [Archive.extract_toArray]
    _ = .ok content := rfl

theorem openEntry_describing : jar.openEntry describing = .ok ⟨description.toArray⟩ := by
  calc jar.openEntry describing = .ok (ByteArray.extract ⟨around.toArray⟩ 524 557) := rfl
    _ = .ok ⟨(around.extract 524 557).toArray⟩ := by rw [Archive.extract_toArray]
    _ = .ok ⟨description.toArray⟩ := rfl

theorem openEntry_describingWhole :
    own.openEntry describingWhole = .ok ⟨descriptionWhole.toArray⟩ := by
  calc own.openEntry describingWhole = .ok (ByteArray.extract ⟨whole.toArray⟩ 45 67) := rfl
    _ = .ok ⟨(whole.extract 45 67).toArray⟩ := by rw [Archive.extract_toArray]
    _ = .ok ⟨descriptionWhole.toArray⟩ := rfl

end

theorem read_bundleBroken : jar.read "i" = .ok (some BrokenManifest.content) :=
  Archive.read_of_find?_some bundleBroken (by decide) openEntry_bundleBroken rfl
    BrokenManifest.contents.2.2.1

theorem read_bundleWhole : jar.read "k" = .ok (some content) :=
  Archive.read_of_find?_some bundleWhole (by decide) openEntry_bundleWhole rfl contents.2.2.1

theorem read_describing : jar.read loaderPath = .ok (some ⟨description.toArray⟩) :=
  Archive.read_of_find?_some describing (by decide) openEntry_describing rfl contents.2.2.2.1

theorem read_describingWhole : own.read loaderPath = .ok (some ⟨descriptionWhole.toArray⟩) :=
  Archive.read_of_find?_some describingWhole (by decide) openEntry_describingWhole rfl
    contents.2.2.2.2

theorem exists_opens_payload :
    ∃ root loader, Opens payload none none jar root (some loader)
      [.described "i", .described "k"] := by
  obtain ⟨loader, hloader, hnamed⟩ := Option.map_eq_some_iff.mp contents.2.1.1
  have hopens := opens_of_loader archives.1
    (Archive.read_of_find?_none (by decide)) (Archive.read_of_find?_none (by decide))
    (fun path hpath => Archive.read_of_find?_none (by revert path; decide))
    read_describing hloader none none
  rw [hnamed] at hopens
  exact ⟨_, loader, hopens⟩

/-- The whole jar is sound, and it is kept as a mod that bundles nothing. -/
theorem exists_kept (levels : Nat) : ∃ copy : BundledArtifact, copy.1 = "b" ∧
    (∀ deeper, IsSound deeper content copy.1 copy.2.1.text copy.2.2.root) ∧
    (Mention.described "k").Keeps (reader (levels + 1)) jar copy := by
  obtain ⟨found, hfound, habout⟩ := Option.map_eq_some_iff.mp contents.2.1.2
  obtain ⟨hid, hjars⟩ := Prod.mk.inj habout
  have hlabel := Mention.label?_described
    (bundledDescription_of_loader archives.2 read_describingWhole hfound) "k"
  have hopens := opens_of_loader archives.2
    (Archive.read_of_find?_none (by decide)) (Archive.read_of_find?_none (by decide))
    (fun path hpath => Archive.read_of_find?_none (by revert path; decide))
    read_describingWhole hfound (some found.id) (some found.version)
  rw [hjars, List.map_nil] at hopens
  have hsound := hopens.isSound (List.forall_mem_nil _)
  exact ⟨(found.id, ⟨found.version⟩, .node _ []), hid, hsound,
    .intro read_bundleWhole hlabel (hopens.readLevels_of_nil (levels + 1))⟩

end BesideBroken

/-- Of two jars with valid descriptions the one with a broken manifest is left out, and the sound one
is kept. -/
theorem nesting_is_bounded_besideBroken :
    ∃ root copy, read BesideBroken.payload none none = .ok (some (.node root [copy])) ∧
      copy.1 = "b" ∧
      IsSound (1 < maxNesting) BesideBroken.content copy.1 copy.2.1.text copy.2.2.root ∧
      IsFilled (1 < maxNesting) (.node root [copy]) := by
  obtain ⟨root, loader, hopens⟩ := BesideBroken.exists_opens_payload
  obtain ⟨copy, hidentifier, hsound, hkeeps⟩ := BesideBroken.exists_kept (maxNesting - 2)
  have hread : read BesideBroken.payload none none = .ok (some (.node root [copy])) := by
    calc read BesideBroken.payload none none
        = readWith (some (reader (maxNesting - 2 + 1))) BesideBroken.payload none none :=
          readLevels_eq maxNesting
      _ = .ok (some (.node root [copy])) := by
          rw [hopens.readWith_eq, List.mapM_cons, List.mapM_cons,
            BrokenManifest.take_of_read BesideBroken.read_bundleBroken,
            Mention.take_eq_ok_some.mpr hkeeps]
          rfl
  obtain ⟨-, -, hfilled⟩ :=
    (nesting_is_bounded BesideBroken.payload none none).2 _ hread 0 _ .root
  exact ⟨root, copy, hread, hidentifier, hsound _, hfilled (by decide)⟩

end ModCatalog.Artifact
