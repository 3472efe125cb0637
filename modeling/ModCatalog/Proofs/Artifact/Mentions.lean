import ModCatalog.Artifact.Basic
import ModCatalog.Proofs.Answers

/-!
# Jars that a jar names

A jar names the jars that it bundles in a list and, where its description in JSON counts, in that
description.  Each of these mentions is taken on its own: it is kept, left out, or it spoils the
reading of the jar around it.
-/

namespace ModCatalog.Artifact

/-! ## What a jar says of itself -/

/-- The artifact that a jar holds and its description in JSON if that one counts; none for a jar that
is neither mod nor library. -/
def ownArtifact (jar : Archive) (payload : ByteArray) (coordinate fallback : Option String) :
    Except Fault (Option (Artifact × Option LoaderDescription)) := do
  let attributes ← manifest jar
  let jarVersion := ((Document.Manifest.value? attributes "Implementation-Version").or
    fallback).getD Version.unknown.text
  let (description, loader) ← describe jar jarVersion
  return (ofDescription? jar attributes jarVersion coordinate payload description).map
    fun root => (root, loader)

/-- Where a jar names one that it bundles. -/
inductive Mention
  /-- In its list, with an identifier and a version. -/
  | listed (entry : BundledJar)
  /-- In its description, by the path alone. -/
  | described (path : String)
deriving DecidableEq, Repr

/-- All jars that a jar names: the listed ones, then those in its description. -/
def mentions (jar : Archive) (loader : Option LoaderDescription) :
    Except Fault (List Mention) := do
  let listed := ((← jar.read bundlePath).bind BundledJar.ofContent?).getD []
  return listed.map .listed ++ (loader.elim [] LoaderDescription.jars).map .described

/-- The artifact that a description in JSON describes. -/
def ofLoader (description : LoaderDescription) (coordinate : Option String) (payload : ByteArray) :
    Artifact where
  displayName := description.toMod.displayName
  version := description.toMod.version
  coordinate := coordinate
  contentHash := ModCatalog.contentHash payload
  modIds := description.toMod.modIds
  kind := .mod
  metadata := some description.toMod.metadata
  enumExtensionFiles := []
  payload := payload

theorem ownArtifact_of_loader {jar : Archive} {content : ByteArray}
    {description : LoaderDescription} (hmanifest : jar.read manifestPath = .ok none)
    (htables : ∀ path ∈ tablePaths, jar.read path = .ok none)
    (hloader : jar.read loaderPath = .ok (some content))
    (hcontent : LoaderDescription.ofContent? content = some description) (payload : ByteArray)
    (coordinate fallback : Option String) :
    ownArtifact jar payload coordinate fallback =
      .ok (some (ofLoader description coordinate payload, some description)) := by
  obtain ⟨hfirst, hrest⟩ := List.forall_mem_cons.mp htables
  obtain ⟨hsecond, -⟩ := List.forall_mem_cons.mp hrest
  have hattributes : manifest jar = .ok [] := by simp only [manifest, hmanifest, ok_bind]; rfl
  have hdescribe : ∀ jarVersion,
      describe jar jarVersion = .ok (some description.toMod, some description) := by
    intro jarVersion
    simp only [describe, tablePaths, firstTableDescription, hfirst, hsecond, loaderDescription,
      hloader, ok_bind, Option.bind_some, hcontent]
    rfl
  simp only [ownArtifact, hattributes, hdescribe, ok_bind]
  rfl

namespace Mention

/-- The entry that holds the jar. -/
def path : Mention → String
  | listed entry => entry.path
  | described path => path

/-- The identifier and the version that content is read with; a jar from a description states them
itself, and is left out if it does not. -/
def label? : Mention → ByteArray → Except Fault (Option (String × String))
  | listed entry, _ => .ok (some (entry.identifier, entry.version))
  | described _, content => do
      return (← bundledDescription content).map fun own => (own.id, own.version)

/-- What a mention comes to. -/
def take (inner : BundleReader) (jar : Archive) (mention : Mention) :
    Except Fault (Option BundledArtifact) := do
  match ← jar.read mention.path with
  | none => return none
  | some content =>
      match ← mention.label? content with
      | none => return none
      | some (identifier, version) => bundled inner content identifier version

/-- The bundled artifact that a mention comes to; none if it is left out. -/
def kept (inner : BundleReader) (jar : Archive) (mention : Mention) : Option BundledArtifact :=
  (mention.take inner jar).toOption.join

/-- How a mention makes the jar around it unreadable. -/
inductive Spoils (inner : BundleReader) (jar : Archive) (mention : Mention) : Prop
  /-- Its entry is there and cannot be read. -/
  | entry {fault : Fault} (read : jar.read mention.path = .error fault)
  /-- The search for its own description stops. -/
  | label {content : ByteArray} {fault : Fault} (read : jar.read mention.path = .ok (some content))
      (label : mention.label? content = .error fault)
  /-- The reading of its content stops. -/
  | content {content : ByteArray} {identifier version text : String}
      (read : jar.read mention.path = .ok (some content))
      (label : mention.label? content = .ok (some (identifier, version)))
      (stops : inner content identifier version = .error (.panicked text))

/-- How a mention is kept as a bundled artifact. -/
inductive Keeps (inner : BundleReader) (jar : Archive) (mention : Mention) : BundledArtifact → Prop
  | intro {content : ByteArray} {identifier version : String} {tree : ArtifactTree}
      (read : jar.read mention.path = .ok (some content))
      (label : mention.label? content = .ok (some (identifier, version)))
      (reads : inner content identifier version = .ok (some tree)) :
      Keeps inner jar mention (identifier, ⟨version⟩, tree)

end Mention

/-! ## Single mentions -/

theorem leaveOut_eq_ok_some {α : Type} {answer : Except Fault (Option α)} {value : α} :
    Fault.leaveOut answer = .ok (some value) ↔ answer = .ok (some value) := by
  unfold Fault.leaveOut
  split <;> simp_all

/-- Only a reading that stops is not left out. -/
theorem leaveOut_fails_iff {α : Type} {answer : Except Fault (Option α)} :
    (∃ fault, Fault.leaveOut answer = .error fault) ↔ ∃ text, answer = .error (.panicked text) := by
  unfold Fault.leaveOut
  split <;> simp_all

section

variable {inner : BundleReader} {jar : Archive} {mention : Mention}

theorem bundled_eq_ok_some {content : ByteArray} {identifier version : String}
    {copy : BundledArtifact} :
    bundled inner content identifier version = .ok (some copy) ↔
      ∃ tree, inner content identifier version = .ok (some tree) ∧
        copy = (identifier, ⟨version⟩, tree) := by
  simp only [← @leaveOut_eq_ok_some _ (inner content identifier version), bundled]
  cases Fault.leaveOut (inner content identifier version) with
  | error fault => simp [bind, Except.bind]
  | ok answer => simp [ok_bind, pure, Except.pure, eq_comm (a := copy)]

theorem bundled_fails_iff {content : ByteArray} {identifier version : String} :
    (∃ fault, bundled inner content identifier version = .error fault) ↔
      ∃ text, inner content identifier version = .error (.panicked text) := by
  rw [← leaveOut_fails_iff, bundled]
  cases Fault.leaveOut (inner content identifier version) with
  | error fault => simp [bind, Except.bind]
  | ok answer => simp [ok_bind, pure, Except.pure]

theorem Mention.take_eq_ok_some {copy : BundledArtifact} :
    mention.take inner jar = .ok (some copy) ↔ mention.Keeps inner jar copy := by
  unfold take
  constructor
  · intro h
    obtain ⟨found, hread, h⟩ := bind_eq_ok.mp h
    cases found with
    | none => cases h
    | some content =>
        obtain ⟨label, hlabel, h⟩ := bind_eq_ok.mp h
        cases label with
        | none => cases h
        | some label =>
            obtain ⟨tree, htree, rfl⟩ := bundled_eq_ok_some.mp h
            exact .intro hread hlabel htree
  · rintro ⟨hread, hlabel, hinner⟩
    simp only [hread, hlabel, ok_bind]
    exact bundled_eq_ok_some.mpr ⟨_, hinner, rfl⟩

theorem Mention.take_fails_iff :
    (∃ fault, mention.take inner jar = .error fault) ↔ mention.Spoils inner jar := by
  unfold take
  constructor
  · rintro ⟨fault, h⟩
    cases hread : jar.read mention.path with
    | error fault => exact .entry hread
    | ok found =>
        rw [hread, ok_bind] at h
        cases found with
        | none => cases h
        | some content =>
            cases hlabel : mention.label? content with
            | error fault => exact .label hread hlabel
            | ok label =>
                simp only [hlabel, ok_bind] at h
                cases label with
                | none => cases h
                | some label =>
                    obtain ⟨text, hstops⟩ := bundled_fails_iff.mp ⟨fault, h⟩
                    exact .content hread hlabel hstops
  · rintro (hread | ⟨hread, hlabel⟩ | ⟨hread, hlabel, hstops⟩)
    · rw [hread]
      exact ⟨_, rfl⟩
    · simp only [hread, hlabel, ok_bind]
      exact ⟨_, rfl⟩
    · simp only [hread, hlabel, ok_bind]
      exact bundled_fails_iff.mpr ⟨_, hstops⟩

theorem Mention.kept_eq_some {copy : BundledArtifact} :
    mention.kept inner jar = some copy ↔ mention.Keeps inner jar copy := by
  rw [← take_eq_ok_some, kept]
  cases mention.take inner jar with
  | error fault => exact ⟨nofun, nofun⟩
  | ok found => exact ⟨congrArg Except.ok, Except.ok.inj⟩

theorem Mention.take_of_not_spoils (h : ¬mention.Spoils inner jar) :
    mention.take inner jar = .ok (mention.kept inner jar) := by
  unfold kept
  cases htake : mention.take inner jar with
  | error fault => exact absurd (take_fails_iff.mp ⟨fault, htake⟩) h
  | ok found => rfl

end

/-! ## All mentions -/

theorem Mention.take_described (inner : BundleReader) (jar : Archive) (path : String) :
    (described path).take inner jar = (do
      match ← jar.read path with
      | none => return none
      | some content =>
          match ← bundledDescription content with
          | none => return none
          | some own => bundled inner content own.id own.version) := by
  unfold take label?
  cases hread : jar.read path with
  | error fault => simp only [Mention.path, hread]; rfl
  | ok found =>
      cases found with
      | none => simp only [Mention.path, hread]; rfl
      | some content =>
          simp only [Mention.path, hread, ok_bind]
          cases bundledDescription content with
          | error fault => rfl
          | ok own => cases own <;> rfl

theorem listedBundle_eq (inner : BundleReader) (jar : Archive) :
    listedBundle inner jar = do
      let listed := ((← jar.read bundlePath).bind BundledJar.ofContent?).getD []
      let found ← (listed.map Mention.listed).mapM (Mention.take inner jar)
      return found.filterMap id := by
  unfold listedBundle
  simp only [List.mapM_map]
  rfl

theorem describedBundle_eq (inner : BundleReader) (jar : Archive)
    (description : LoaderDescription) :
    describedBundle inner jar description = do
      let found ← (description.jars.map Mention.described).mapM (Mention.take inner jar)
      return found.filterMap id := by
  have htake : ∀ take, take = Mention.take inner jar ∘ Mention.described →
      (do return (← description.jars.mapM take).filterMap id) = (do
        let found ← (description.jars.map Mention.described).mapM (Mention.take inner jar)
        return found.filterMap id) := by
    rintro take rfl
    rw [List.mapM_map]
  exact htake _ (funext fun path => (Mention.take_described inner jar path).symm)

/-- Mentions are taken one after the other, and what is left of them is kept in their order. -/
theorem bundle_eq (inner : BundleReader) (jar : Archive) (loader : Option LoaderDescription) :
    bundle inner jar loader = do
      let found ← (← mentions jar loader).mapM (Mention.take inner jar)
      return found.filterMap id := by
  unfold bundle mentions
  rw [listedBundle_eq]
  cases loader with
  | none => simp only [bind_assoc, pure_bind, bind_pure, Option.elim_none, List.map_nil, List.append_nil]
  | some description =>
      simp only [describedBundle_eq, bind_assoc, pure_bind, Option.elim_some, List.mapM_append,
        List.filterMap_append]

theorem mapM_take_of_not_spoils {inner : BundleReader} {jar : Archive} {named : List Mention}
    (h : ∀ mention ∈ named, ¬mention.Spoils inner jar) :
    named.mapM (Mention.take inner jar) = .ok (named.map (Mention.kept inner jar)) :=
  mapM_eq_ok.mpr (List.forall₂_map_right_iff.mpr (List.forall₂_same.mpr fun mention hmention =>
    Mention.take_of_not_spoils (h mention hmention)))

/-! ## Levels -/

/-- One level of reading, with how the next one is read if there is one. -/
def readWith (inner : Option BundleReader) (payload : ByteArray)
    (coordinate fallback : Option String) : Except Fault (Option ArtifactTree) := do
  let jar ← Archive.ofBytes payload
  match ← ownArtifact jar payload coordinate fallback with
  | none => return none
  | some (root, loader) =>
      match inner with
      | none => return some (.node root [])
      | some inner => return some (.node root (← bundle inner jar loader))

/-- How bundled content is read with so many levels left. -/
def reader (levels : Nat) : BundleReader := fun content identifier version =>
  readLevels levels content (some identifier) (some version)

/-- How the content of a jar is read with so many levels left for the jar. -/
def reader? : Nat → Option BundleReader
  | 0 => none
  | levels + 1 => some (reader levels)

section

variable {payload : ByteArray} {coordinate fallback : Option String}

theorem readLevels_eq (levels : Nat) :
    readLevels levels payload coordinate fallback =
      readWith (reader? levels) payload coordinate fallback := by
  rw [readLevels.eq_def]
  unfold readWith ownArtifact
  simp only [bind_assoc, pure_bind]
  refine bind_congr fun jar => bind_congr fun attributes => bind_congr fun described => ?_
  obtain ⟨description, loader⟩ := described
  dsimp only
  cases ofDescription? jar attributes _ coordinate payload description <;> cases levels <;> rfl

/-- What a payload holds: a jar with an artifact of its own that names jars. -/
structure Opens (payload : ByteArray) (coordinate fallback : Option String) (jar : Archive)
    (root : Artifact) (loader : Option LoaderDescription) (named : List Mention) : Prop where
  archive : Archive.ofBytes payload = .ok jar
  artifact : ownArtifact jar payload coordinate fallback = .ok (some (root, loader))
  names : mentions jar loader = .ok named

variable {inner : BundleReader} {jar : Archive} {root : Artifact}
  {loader : Option LoaderDescription} {named : List Mention}

/-- A jar that has nothing but a description in JSON names the jars of this description. -/
theorem opens_of_loader {content : ByteArray} {description : LoaderDescription}
    (hjar : Archive.ofBytes payload = .ok jar) (hmanifest : jar.read manifestPath = .ok none)
    (hbundle : jar.read bundlePath = .ok none)
    (htables : ∀ path ∈ tablePaths, jar.read path = .ok none)
    (hloader : jar.read loaderPath = .ok (some content))
    (hcontent : LoaderDescription.ofContent? content = some description)
    (coordinate fallback : Option String) :
    Opens payload coordinate fallback jar (ofLoader description coordinate payload)
      (some description) (description.jars.map .described) := by
  refine ⟨hjar,
    ownArtifact_of_loader hmanifest htables hloader hcontent payload coordinate fallback, ?_⟩
  rw [mentions, hbundle]
  rfl

theorem Opens.readWith_eq (h : Opens payload coordinate fallback jar root loader named) :
    readWith (some inner) payload coordinate fallback =
      (named.mapM (Mention.take inner jar)).map fun found =>
        some (.node root (found.filterMap id)) := by
  unfold readWith
  simp only [h.archive, h.artifact, ok_bind, bundle_eq, h.names, bind_assoc, pure_bind]
  rfl

/-- A jar that names no jars is read at any level. -/
theorem Opens.readLevels_of_nil (h : Opens payload coordinate fallback jar root loader [])
    (levels : Nat) :
    readLevels levels payload coordinate fallback = .ok (some (.node root [])) := by
  rw [readLevels_eq]
  cases levels with
  | zero =>
      unfold reader? readWith
      simp only [h.archive, h.artifact, ok_bind]
      rfl
  | succ levels =>
      unfold reader?
      rw [h.readWith_eq]
      rfl

/-- A jar can be read exactly when none of its mentions spoils it. -/
theorem Opens.fails_iff (h : Opens payload coordinate fallback jar root loader named) :
    (∃ fault, readWith (some inner) payload coordinate fallback = .error fault) ↔
      ∃ mention ∈ named, mention.Spoils inner jar := by
  simp only [← Mention.take_fails_iff, ← mapM_fails_iff, h.readWith_eq]
  cases named.mapM (Mention.take inner jar) with
  | error fault => exact ⟨fun _ => ⟨fault, rfl⟩, fun _ => ⟨fault, rfl⟩⟩
  | ok found => exact ⟨nofun, nofun⟩

/-- What is left of the mentions is bundled in their order. -/
theorem Opens.reads (h : Opens payload coordinate fallback jar root loader named)
    (hspared : ∀ mention ∈ named, ¬mention.Spoils inner jar) :
    readWith (some inner) payload coordinate fallback =
      .ok (some (.node root (named.filterMap (Mention.kept inner jar)))) := by
  rw [h.readWith_eq, mapM_take_of_not_spoils hspared]
  simp only [Except.map, List.filterMap_map, Function.id_comp]

theorem exists_opens {tree : ArtifactTree}
    (h : readWith (some inner) payload coordinate fallback = .ok (some tree)) :
    ∃ jar root loader named, Opens payload coordinate fallback jar root loader named ∧
      (∀ mention ∈ named, ¬mention.Spoils inner jar) ∧
      tree = .node root (named.filterMap (Mention.kept inner jar)) := by
  have hread := h
  unfold readWith at h
  obtain ⟨jar, hjar, h⟩ := bind_eq_ok.mp h
  obtain ⟨about, habout, h⟩ := bind_eq_ok.mp h
  cases about with
  | none => cases h
  | some about =>
      obtain ⟨below, hbelow, h⟩ := bind_eq_ok.mp h
      rw [bundle_eq] at hbelow
      obtain ⟨named, hnamed, -⟩ := bind_eq_ok.mp hbelow
      have hopens : Opens payload coordinate fallback jar about.1 about.2 named :=
        ⟨hjar, habout, hnamed⟩
      have hspared : ∀ mention ∈ named, ¬mention.Spoils inner jar := by
        intro mention hmention hspoils
        obtain ⟨fault, hfault⟩ := hopens.fails_iff.mpr ⟨mention, hmention, hspoils⟩
        cases hread.symm.trans hfault
      refine ⟨jar, about.1, about.2, named, hopens, hspared, ?_⟩
      exact Option.some.inj (Except.ok.inj (hread.symm.trans (hopens.reads hspared)))

end

end ModCatalog.Artifact
