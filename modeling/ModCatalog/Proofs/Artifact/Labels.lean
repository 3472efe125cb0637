import ModCatalog.Expansion

/-!
# The keys of bundled artifacts

An artifact has the coordinate it is read with: none for a file of a platform, and its identifier
for a bundled one, however deep it lies.  Each has the hash of its own bytes.
-/

namespace ModCatalog

/-- Whether a value, if there is one, satisfies `post`. -/
def Yields {α : Type} (answer : Except Fault α) (post : α → Prop) : Prop :=
  ∀ value, answer = .ok value → post value

section Yields

variable {α β : Type} {post : α → Prop} {last : β → Prop}

theorem yields_ok {value : α} (hvalue : post value) : Yields (.ok value) post := by
  intro result hresult
  cases hresult
  exact hvalue

theorem yields_pure {value : α} (hvalue : post value) :
    Yields (pure value : Except Fault α) post := yields_ok hvalue

theorem Yields.bind {answer : Except Fault α} {next : α → Except Fault β}
    (hanswer : Yields answer post) (hnext : ∀ value, post value → Yields (next value) last) :
    Yields (answer >>= next) last := by
  intro result hresult
  cases hvalue : answer with
  | error fault =>
      rw [hvalue] at hresult
      cases hresult
  | ok value =>
      rw [hvalue] at hresult
      exact hnext value (hanswer value hvalue) result hresult

theorem yields_bind {answer : Except Fault α} {next : α → Except Fault β}
    (hnext : ∀ value, Yields (next value) last) : Yields (answer >>= next) last := by
  have hany : Yields answer fun _ => True := fun _ _ => trivial
  exact hany.bind fun value _ => hnext value

theorem yields_mapM {step : α → Except Fault β} (list : List α)
    (hstep : ∀ value ∈ list, Yields (step value) last) :
    Yields (list.mapM step) fun results => ∀ result ∈ results, last result := by
  induction list with
  | nil => exact yields_pure (by simp)
  | cons value rest ih =>
      rw [List.mapM_cons]
      obtain ⟨hvalue, hrest⟩ := List.forall_mem_cons.mp hstep
      refine hvalue.bind fun first hfirst => (ih hrest).bind fun others hothers => ?_
      exact yields_pure (List.forall_mem_cons.mpr ⟨hfirst, hothers⟩)

end Yields

namespace Artifact

/-- Whether a bundled artifact is what `inner` reads for its identifier. -/
def ReadBy (inner : BundleReader) (copy : BundledArtifact) : Prop :=
  ∃ content version, inner content copy.1 version = .ok (some copy.2.2)

variable {inner : BundleReader}

theorem yields_bundled (content : ByteArray) (identifier version : String) :
    Yields (bundled inner content identifier version) fun found =>
      ∀ copy ∈ found, ReadBy inner copy := by
  unfold bundled
  have hread : Yields (Fault.leaveOut (inner content identifier version)) fun tree =>
      ∀ found, tree = some found → inner content identifier version = .ok (some found) := by
    intro tree hleft found hfound
    subst hfound
    unfold Fault.leaveOut at hleft
    split at hleft <;> simp_all
  refine hread.bind fun tree htree => yields_pure ?_
  intro copy hcopy
  obtain ⟨found, hfound, rfl⟩ := Option.map_eq_some_iff.mp hcopy
  exact ⟨content, version, htree found hfound⟩

theorem forall_mem_filterMap_id {post : BundledArtifact → Prop}
    {found : List (Option BundledArtifact)} (hfound : ∀ result ∈ found, ∀ copy ∈ result, post copy) :
    ∀ copy ∈ found.filterMap id, post copy := by
  intro copy hcopy
  obtain ⟨result, hresult, hsome⟩ := List.mem_filterMap.mp hcopy
  exact hfound result hresult copy hsome

theorem yields_listedBundle (jar : Archive) :
    Yields (listedBundle inner jar) fun found => ∀ copy ∈ found, ReadBy inner copy := by
  refine yields_bind fun content => ?_
  refine Yields.bind (yields_mapM _ fun entry _ => yields_bind fun content => ?_)
    fun found hfound => yields_pure (forall_mem_filterMap_id hfound)
  split
  · exact yields_pure (by simp)
  · exact yields_bundled _ _ _

theorem yields_describedBundle (jar : Archive) (description : LoaderDescription) :
    Yields (describedBundle inner jar description) fun found =>
      ∀ copy ∈ found, ReadBy inner copy := by
  refine Yields.bind (yields_mapM _ fun path _ => yields_bind fun content => ?_)
    fun found hfound => yields_pure (forall_mem_filterMap_id hfound)
  split
  · exact yields_pure (by simp)
  · refine yields_bind fun own => ?_
    split
    · exact yields_pure (by simp)
    · exact yields_bundled _ _ _

theorem yields_bundle (jar : Archive) (description : Option LoaderDescription) :
    Yields (bundle inner jar description) fun found => ∀ copy ∈ found, ReadBy inner copy := by
  refine (yields_listedBundle jar).bind fun listed hlisted => ?_
  cases description with
  | none => exact yields_pure hlisted
  | some description =>
      refine (yields_describedBundle jar description).bind fun described hdescribed => ?_
      refine yields_pure ?_
      intro copy hcopy
      rcases List.mem_append.mp hcopy with hmem | hmem
      · exact hlisted copy hmem
      · exact hdescribed copy hmem

/-- What an artifact can be found by: the coordinate it was read with, and the hash of its bytes. -/
structure HasKeys (coordinate : Option String) (artifact : Artifact) : Prop where
  coordinate : artifact.coordinate = coordinate
  contentHash : artifact.contentHash = ModCatalog.contentHash artifact.payload

theorem hasKeys_ofDescription? {jar : Archive} {attributes : Document.Manifest.Attributes}
    {jarVersion : String} {coordinate : Option String} {payload : ByteArray}
    {description : Option ModDescription} {artifact : Artifact}
    (h : ofDescription? jar attributes jarVersion coordinate payload description =
      some artifact) : HasKeys coordinate artifact := by
  unfold ofDescription? at h
  split at h
  · cases h
    exact ⟨rfl, rfl⟩
  · split at h
    · cases h
      exact ⟨rfl, rfl⟩
    · cases h

/-- Whether a tree was read with a coordinate and all below it with their identifiers, and each has
the hash of its own bytes. -/
def IsKeyed (coordinate : Option String) (tree : ArtifactTree) : Prop :=
  HasKeys coordinate tree.root ∧
    ∀ copy ∈ Expansion.preorder tree.bundled, HasKeys (some copy.identifier) copy.artifact

/-- Whether a tree was read with a coordinate, and all below it with their identifiers. -/
def IsLabelled (coordinate : Option String) (tree : ArtifactTree) : Prop :=
  tree.root.coordinate = coordinate ∧
    ∀ copy ∈ Expansion.preorder tree.bundled, copy.artifact.coordinate = some copy.identifier

theorem hasKeys_preorder {bundled : List BundledArtifact}
    (hbundled : ∀ copy ∈ bundled, IsKeyed (some copy.1) copy.2.2) :
    ∀ copy ∈ Expansion.preorder bundled, HasKeys (some copy.identifier) copy.artifact := by
  induction bundled with
  | nil =>
      intro copy hcopy
      cases hcopy
  | cons first rest ih =>
      obtain ⟨identifier, version, tree⟩ := first
      obtain ⟨hfirst, hrest⟩ := List.forall_mem_cons.mp hbundled
      obtain ⟨hroot, hbelow⟩ := hfirst
      cases tree with
      | node root below =>
          intro copy hcopy
          unfold Expansion.preorder Expansion.treeOrder at hcopy
          rcases List.mem_append.mp hcopy with hmem | hmem
          · rcases List.mem_cons.mp hmem with rfl | hmem
            · exact hroot
            · exact hbelow copy hmem
          · exact ih hrest copy hmem

/-- Each level of nesting hands the identifier of a bundled jar on as its coordinate. -/
theorem yields_readLevels (levels : Nat) (payload : ByteArray)
    (coordinate fallback : Option String) :
    Yields (readLevels levels payload coordinate fallback) fun tree =>
      ∀ found, tree = some found → IsKeyed coordinate found := by
  induction levels generalizing payload coordinate fallback with
  | zero =>
      unfold readLevels
      refine yields_bind fun jar => yields_bind fun attributes => yields_bind fun described => ?_
      obtain ⟨description, loader⟩ := described
      dsimp only
      split
      · exact yields_pure nofun
      · next root hroot =>
          refine yields_pure ?_
          rintro _ ⟨⟩
          refine ⟨hasKeys_ofDescription? hroot, ?_⟩
          intro copy hcopy
          cases hcopy
  | succ levels ih =>
      unfold readLevels
      refine yields_bind fun jar => yields_bind fun attributes => yields_bind fun described => ?_
      obtain ⟨description, loader⟩ := described
      dsimp only
      split
      · exact yields_pure nofun
      · next root hroot =>
          refine (yields_bundle jar loader).bind fun below hbelow => yields_pure ?_
          rintro _ ⟨⟩
          refine ⟨hasKeys_ofDescription? hroot, hasKeys_preorder ?_⟩
          intro copy hcopy
          obtain ⟨content, version, hread⟩ := hbelow copy hcopy
          exact ih content (some copy.1) (some version) _ hread copy.2.2 rfl

theorem keyed_of_read {payload : ByteArray} {coordinate fallback : Option String}
    {tree : ArtifactTree} (h : read payload coordinate fallback = .ok (some tree)) :
    IsKeyed coordinate tree :=
  yields_readLevels maxNesting payload coordinate fallback _ h tree rfl

/-- A file is read without a coordinate; everything it bundles has its identifier as one. -/
theorem labelled_of_read {payload : ByteArray} {tree : ArtifactTree}
    (h : read payload none none = .ok (some tree)) : IsLabelled none tree := by
  obtain ⟨hroot, hbelow⟩ := keyed_of_read h
  exact ⟨hroot.coordinate, fun copy hcopy => (hbelow copy hcopy).coordinate⟩

end Artifact

end ModCatalog
