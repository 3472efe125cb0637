import ModCatalog.Download
import ModCatalog.Platform.Local

/-!
# Where contents come from

A directory that acts as a platform hands out what lies in its files, and a cache keeps what was
handed out.  So every download is the content of a file that was there before.
-/

namespace ModCatalog

/-- Whether a content lies in a file of a tree. -/
def FileTree.Holds (tree : FileTree) (content : ByteArray) : Prop :=
  ∃ path, tree.nodes.get? path = some (.file content)

theorem FileTree.holds_of_read {tree : FileTree} {text : String} {content : ByteArray}
    (h : tree.read text = .ok content) : tree.Holds content := by
  unfold read at h
  cases hfind : tree.find text with
  | error failure =>
      rw [hfind] at h
      cases h
  | ok path =>
      rw [hfind] at h
      simp only [bind, Except.bind] at h
      have hnode : tree.node? path = some (.file content) := by
        split at h
        · next hnode =>
            cases h
            exact hnode
        · cases h
        · cases h
      refine ⟨path, ?_⟩
      unfold node? at hnode
      split at hnode
      · cases hnode
      · exact hnode

/-! ## Changes -/

namespace FileChange

variable {α β : Type} {tree : FileTree} {brought : ByteArray → Prop}

/-- Whether a change brings no contents into a tree but some, even if it fails on the way. -/
def Brings (change : FileChange α) (tree : FileTree) (brought : ByteArray → Prop) : Prop :=
  ∀ content, (change.run.run tree).2.Holds content → tree.Holds content ∨ brought content

theorem brings_of_same {change : FileChange α} (hsame : (change.run.run tree).2 = tree) :
    Brings change tree brought := by
  intro content hholds
  rw [hsame] at hholds
  exact Or.inl hholds

theorem Brings.bind {change : FileChange α} {next : α → FileChange β}
    (hchange : Brings change tree brought)
    (hnext : ∀ value, Brings (next value) (change.run.run tree).2 brought) :
    Brings (change >>= next) tree brought := by
  intro content hholds
  rw [ExceptT.run_bind, StateT.run_bind] at hholds
  cases hrun : change.run.run tree with
  | mk answer between =>
      have hfirst := hchange content
      rw [hrun] at hholds hfirst hnext
      cases answer with
      | error failure => exact hfirst hholds
      | ok value =>
          rcases hnext value content hholds with hbefore | hbrought
          · exact hfirst hbefore
          · exact Or.inr hbrought

theorem brings_get_bind {next : FileTree → FileChange α} (hnext : Brings (next tree) tree brought) :
    Brings (get >>= next) tree brought := hnext

theorem brings_ofExcept_bind {value : Except FileFailure α} {next : α → FileChange β}
    (hnext : ∀ value, Brings (next value) tree brought) :
    Brings (ofExcept value >>= next) tree brought := by
  have hvalue : Brings (ofExcept value) tree brought := brings_of_same rfl
  exact hvalue.bind hnext

theorem Brings.foldlM {step : β → α → FileChange β}
    (hstep : ∀ value name tree, Brings (step value name) tree brought) (names : List α) (start : β) :
    Brings (names.foldlM step start) tree brought := by
  induction names generalizing start tree with
  | nil => exact brings_of_same rfl
  | cons name rest ih =>
      rw [List.foldlM_cons]
      exact (hstep start name tree).bind fun value => ih value

theorem brings_put {path : Path} {node : FileNode}
    (hnode : ∀ content, node = .file content → brought content) :
    Brings (put path node) tree brought := by
  rintro content ⟨place, hplace⟩
  have hget : (tree.nodes.put path node).get? place = some (.file content) := hplace
  rw [Table.get?_put] at hget
  split at hget
  · exact Or.inr (hnode content (Option.some.inj hget))
  · exact Or.inl ⟨place, hget⟩

theorem brings_enterNew (place : Path) (name : String) :
    Brings (enterNew place name) tree brought := by
  refine brings_get_bind (brings_ofExcept_bind fun next => ?_)
  split
  · exact (brings_put nofun).bind fun _ => brings_of_same rfl
  · exact brings_of_same rfl

theorem brings_makeDirectories (text : String) : Brings (makeDirectories text) tree brought := by
  unfold makeDirectories
  split
  · exact brings_of_same rfl
  · refine brings_ofExcept_bind fun _ => brings_get_bind ?_
    have hnames : Brings ((Path.names text).foldlM enterNew (tree.start text)) tree brought :=
      .foldlM (fun place name _ => brings_enterNew place name) _ _
    refine hnames.bind fun path => brings_get_bind ?_
    split <;> exact brings_of_same rfl

theorem brings_write (text : String) (content : ByteArray) :
    Brings (write text content) tree (· = content) := by
  refine brings_get_bind (brings_ofExcept_bind fun path => ?_)
  split
  · exact brings_of_same rfl
  · refine brings_put ?_
    rintro _ ⟨⟩
    rfl

theorem brings_install (text : String) (content : ByteArray) :
    Brings (install text content) tree (· = content) := by
  unfold install
  split
  · exact (brings_makeDirectories _).bind fun _ => brings_write text content
  · exact brings_write text content

theorem brings_removeFile (text : String) : Brings (removeFile text) tree brought := by
  refine brings_get_bind (brings_ofExcept_bind fun path => ?_)
  split
  · exact brings_of_same rfl
  · rintro content ⟨place, hplace⟩
    have hget : (tree.nodes.erase path).get? place = some (.file content) := hplace
    rw [Table.get?_erase] at hget
    split at hget
    · cases hget
    · exact Or.inl ⟨place, hget⟩

end FileChange

/-! ## Downloads -/

/-- Whether a platform hands out only what lies in files. -/
def Platform.HandsOutFiles {σ : Type} (platform : Platform σ) : Prop :=
  ∀ tree file memory content, ((platform.download tree file).run memory).1 = .ok content →
    tree.Holds content

theorem LocalPlatform.handsOutFiles (platform : LocalPlatform) :
    platform.toPlatform.HandsOutFiles := by
  intro tree file memory content h
  have hrun : ((platform.download tree file).run memory).1 = .ok content := h
  unfold download at hrun
  rw [StateT.run_bind] at hrun
  cases hfind : (platform.find tree file.link.projectId file.link.fileId).run memory with
  | mk found later =>
      rw [hfind] at hrun
      cases found with
      | none => cases hrun
      | some jar =>
          cases hcontent : LocalPlatform.content tree jar with
          | error failure =>
              dsimp only [bind] at hrun
              rw [hcontent] at hrun
              cases hrun
          | ok read =>
              dsimp only [bind] at hrun
              rw [hcontent] at hrun
              cases hrun
              exact FileTree.holds_of_read hcontent

namespace DownloadCache

variable {σ : Type} (cache : DownloadCache) {platform : Platform σ}

/-- A kept content that counts lay in a file, and taking it brings nothing new. -/
theorem take_spec (file : PlatformFile) (tree : FileTree) :
    (∀ content, (cache.take file tree).1 = some content →
      tree.Holds content ∧ isGenuine file content) ∧
    ∀ content, (cache.take file tree).2.Holds content → tree.Holds content := by
  have hremoved : ∀ content, (tree.after (.removeFile (cache.pathText file))).Holds content →
      tree.Holds content := by
    intro content hholds
    have hnone : FileChange.Brings (.removeFile (cache.pathText file)) tree fun _ => False :=
      FileChange.brings_removeFile _
    exact (hnone content hholds).resolve_right not_false
  unfold take
  dsimp only
  cases hread : tree.read (cache.pathText file) with
  | error failure => exact ⟨nofun, fun _ hholds => hholds⟩
  | ok kept =>
      dsimp only
      split
      · exact ⟨nofun, fun _ hholds => hholds⟩
      · split
        · dsimp only
          exact ⟨nofun, hremoved⟩
        · next hgenuine =>
            refine ⟨?_, ?_⟩
            · rintro content ⟨⟩
              exact ⟨FileTree.holds_of_read hread, by simpa using hgenuine⟩
            · intro content hholds
              dsimp only at hholds
              split at hholds
              · exact hholds
              · exact hremoved content hholds

theorem holds_of_store {cache : DownloadCache} {file : PlatformFile} {content other : ByteArray}
    {tree : FileTree} (hholds : (cache.store file content tree).Holds other) :
    tree.Holds other ∨ other = content := by
  unfold store at hholds
  split at hholds
  · exact FileChange.brings_install _ _ other hholds
  · exact Or.inl hholds

theorem isGenuine_of_verify {file : PlatformFile} {content : ByteArray} {value : Unit}
    (h : verify file content = .ok value) : isGenuine file content := by
  unfold verify at h
  split at h
  · next hgenuine => exact hgenuine
  · cases h

/-- A content that is fetched lay in a file, and fetching it brings nothing new. -/
theorem fetch_spec (hplatform : platform.HandsOutFiles) (file : PlatformFile) (tree : FileTree)
    (memory : σ) :
    (∀ content, ((cache.fetch platform file).run (tree, memory)).1 = .ok content →
      tree.Holds content ∧ isGenuine file content) ∧
    ∀ content, ((cache.fetch platform file).run (tree, memory)).2.1.Holds content →
      tree.Holds content := by
  obtain ⟨hkept, htaken⟩ := cache.take_spec file tree
  unfold fetch
  dsimp only [StateT.run]
  cases htake : cache.take file tree with
  | mk found taken =>
      rw [htake] at hkept htaken
      cases found with
      | some content =>
          refine ⟨?_, htaken⟩
          intro other hother
          obtain rfl := Except.ok.inj hother
          exact hkept content rfl
      | none =>
          dsimp only
          have hanswered := hplatform taken file memory
          cases hdownload : platform.download taken file memory with
          | mk answer later =>
              have hanswer : ((platform.download taken file).run memory).1 = answer :=
                congrArg Prod.fst hdownload
              cases answer with
              | error fault => exact ⟨nofun, htaken⟩
              | ok content =>
                  have hcontent := htaken content (hanswered content hanswer)
                  dsimp only
                  cases hverify : verify file content with
                  | error fault => exact ⟨nofun, htaken⟩
                  | ok _ =>
                      refine ⟨?_, ?_⟩
                      · intro other hother
                        obtain rfl := Except.ok.inj hother
                        exact ⟨hcontent, isGenuine_of_verify hverify⟩
                      · intro other hholds
                        rcases holds_of_store hholds with hbefore | rfl
                        · exact htaken other hbefore
                        · exact hcontent

/-- Files are fetched one after another. -/
theorem run_fetchAll_cons {first : PlatformFile} {tree between : FileTree} {memory remembered : σ}
    {answer : Except Fault ByteArray}
    (hfetch : (cache.fetch platform first).run (tree, memory) = (answer, between, remembered))
    (rest : List PlatformFile) :
    (cache.fetchAll platform (first :: rest)).run (tree, memory) =
      ((first, answer) :: ((cache.fetchAll platform rest).run (between, remembered)).1,
        ((cache.fetchAll platform rest).run (between, remembered)).2) := by
  unfold fetchAll
  simp only [List.mapM_cons, StateT.run_bind, hfetch, bind_assoc, pure_bind]
  rfl

/-- There is one download for each file. -/
theorem map_fst_fetchAll (files : List PlatformFile) (tree : FileTree) (memory : σ) :
    ((cache.fetchAll platform files).run (tree, memory)).1.map Prod.fst = files := by
  induction files generalizing tree memory with
  | nil => rfl
  | cons first rest ih =>
      cases hfetch : (cache.fetch platform first).run (tree, memory) with
      | mk answer later =>
          rw [cache.run_fetchAll_cons hfetch, List.map_cons, ih]

/-- Every download is of one of the files, genuine, and the content of a file that was there. -/
theorem fetchAll_spec (hplatform : platform.HandsOutFiles) (files : List PlatformFile)
    (tree : FileTree) (memory : σ) :
    let downloads := ((cache.fetchAll platform files).run (tree, memory)).1
    downloads.map Prod.fst = files ∧
      ∀ file content, (file, .ok content) ∈ downloads → tree.Holds content ∧ isGenuine file content := by
  refine ⟨cache.map_fst_fetchAll files tree memory, ?_⟩
  induction files generalizing tree memory with
  | nil => exact nofun
  | cons first rest ih =>
      obtain ⟨hcontent, hbrings⟩ := cache.fetch_spec hplatform first tree memory
      cases hfetch : (cache.fetch platform first).run (tree, memory) with
      | mk answer later =>
          obtain ⟨between, remembered⟩ := later
          rw [hfetch] at hcontent hbrings
          rw [cache.run_fetchAll_cons hfetch]
          intro file content hmem
          rcases List.mem_cons.mp hmem with heq | hlater
          · cases heq
            exact hcontent content rfl
          · obtain ⟨hholds, hright⟩ := ih between remembered file content hlater
            exact ⟨hbrings content hholds, hright⟩

end DownloadCache

end ModCatalog
