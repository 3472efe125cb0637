import ModCatalog.Proofs.Platform.Caching

/-!
# What a cache that keeps nothing leaves behind

A cache that does not keep contents writes none, and removes a content that it takes or finds to be
corrupt.  A content of another length than the file's is passed over before it is read, and it stays
where it is.  So after any fetches there lies under a path what lay there before them, unless one of
the fetched files with this place has its length.
-/

namespace ModCatalog

namespace DownloadCache

section

variable {σ : Type} {cache : DownloadCache} {platform : Platform σ} {file : PlatformFile}
  {tree : FileTree} {text : String} {place : Path} {content kept : ByteArray}

/-! ## One fetch -/

/-- A content of the right length is removed, whether it is taken or found to be corrupt. -/
theorem take_of_length (hkeeps : cache.keeps = false)
    (hread : tree.read (cache.pathText file) = .ok content) (hlength : content.size = file.length) :
    (cache.take file tree).2 = tree.after (.removeFile (cache.pathText file)) := by
  unfold take
  simp only [hread, hlength, ne_eq, not_true_eq_false, if_false, hkeeps, Bool.false_eq_true]
  split <;> dsimp only

/-- Without a content of the right length nothing is touched. -/
theorem take_of_no_length
    (h : ∀ content, tree.read (cache.pathText file) = .ok content → content.size ≠ file.length) :
    (cache.take file tree).2 = tree := by
  unfold take
  dsimp only
  cases hread : tree.read (cache.pathText file) with
  | error failure => rfl
  | ok content =>
      dsimp only
      rw [if_pos (h content hread)]

/-- Looking for a file takes away what lies at its place with its length, and nothing else. -/
theorem leadsTo_take_iff (hkeeps : cache.keeps = false) :
    (cache.take file tree).2.LeadsTo text place kept ↔
      tree.LeadsTo text place kept ∧
        (tree.find (cache.pathText file) = .ok place → kept.size ≠ file.length) := by
  by_cases hfits : ∃ content, tree.read (cache.pathText file) = .ok content ∧
      content.size = file.length
  · obtain ⟨content, hread, hlength⟩ := hfits
    rw [take_of_length hkeeps hread hlength, FileTree.leadsTo_after_removeFile_iff]
    refine and_congr_right fun hleads => ⟨fun hother hsame => absurd hsame hother, ?_⟩
    intro hdiffers hsame
    obtain ⟨here, hhere⟩ := FileTree.read_eq_ok_iff.mp hread
    obtain rfl : here = place := Except.ok.inj (hhere.find.symm.trans hsame)
    have hcontent : content = kept :=
      FileNode.file.inj (Option.some.inj (hhere.file.symm.trans hleads.file))
    exact hdiffers hsame (hcontent ▸ hlength)
  · have hpassed : ∀ content, tree.read (cache.pathText file) = .ok content →
        content.size ≠ file.length := fun content hread hlength => hfits ⟨content, hread, hlength⟩
    rw [take_of_no_length hpassed, iff_self_and]
    intro hleads hsame
    exact hpassed kept (FileTree.read_eq_ok_iff.mpr ⟨place, hsame, hleads.file⟩)

/-- What still lies at a place is reached by the same paths as before. -/
theorem find_take_iff (hkeeps : cache.keeps = false)
    (hthere : (cache.take file tree).2.LeadsTo text place kept) {other : String} :
    (cache.take file tree).2.find other = .ok place ↔ tree.find other = .ok place := by
  obtain ⟨hleads, hdiffers⟩ := (leadsTo_take_iff hkeeps).mp hthere
  have hother : (cache.take file tree).2.LeadsTo other place kept ↔ _ := leadsTo_take_iff hkeeps
  constructor
  · intro hlater
    exact (hother.mp ⟨hlater, hthere.file⟩).1.find
  · intro hbefore
    exact (hother.mpr ⟨⟨hbefore, hleads.file⟩, hdiffers⟩).find

/-- Whatever the platform answers, a cache that keeps nothing writes nothing. -/
theorem tree_of_fetch (hkeeps : cache.keeps = false) (platform : Platform σ) (file : PlatformFile)
    (tree : FileTree) (memory : σ) :
    ((cache.fetch platform file).run (tree, memory)).2.1 = (cache.take file tree).2 := by
  unfold fetch
  dsimp only [StateT.run]
  cases cache.take file tree with
  | mk found taken =>
      cases found with
      | some content => rfl
      | none =>
          dsimp only
          cases platform.download taken file memory with
          | mk answer later =>
              cases answer with
              | error fault => rfl
              | ok content =>
                  dsimp only
                  cases verify file content with
                  | error fault => rfl
                  | ok value => simp [store, hkeeps]

/-! ## Several fetches -/

/-- Fetch after fetch, a content stays at its place as long as it has another length than the files
that are looked for there. -/
theorem leadsTo_fetchAll_iff (hkeeps : cache.keeps = false) (platform : Platform σ)
    (files : List PlatformFile) (tree : FileTree) (memory : σ) :
    ((cache.fetchAll platform files).run (tree, memory)).2.1.LeadsTo text place kept ↔
      tree.LeadsTo text place kept ∧
        ∀ file ∈ files, tree.find (cache.pathText file) = .ok place → kept.size ≠ file.length := by
  induction files generalizing tree memory with
  | nil =>
      have hstart : ((cache.fetchAll platform []).run (tree, memory)).2.1 = tree := rfl
      simp [hstart]
  | cons first rest ih =>
      cases hfetch : (cache.fetch platform first).run (tree, memory) with
      | mk answer between =>
          obtain ⟨left, remembered⟩ := between
          have hleft : left = (cache.take first tree).2 := by
            rw [← tree_of_fetch hkeeps platform first tree memory, hfetch]
          rw [cache.run_fetchAll_cons hfetch, ih left remembered, hleft, leadsTo_take_iff hkeeps,
            and_assoc, List.forall_mem_cons]
          refine and_congr_right fun hleads => and_congr_right fun hfirst => ?_
          have hthere := (leadsTo_take_iff hkeeps).mpr ⟨hleads, hfirst⟩
          simp only [find_take_iff hkeeps hthere]

end

/-- After any fetches by a cache that keeps nothing, whatever they have answered, what lies under
the path of a file is what lay there before them with another length than every fetched file whose
path leads to the same place. -/
theorem left_on_disk_iff {σ : Type} (directory : String) (platform : Platform σ)
    (files : List PlatformFile) (file : PlatformFile) (tree : FileTree) (memory : σ)
    (kept : ByteArray) :
    let cache : DownloadCache := ⟨directory, false⟩
    ((cache.fetchAll platform files).run (tree, memory)).2.1.read (cache.pathText file) = .ok kept ↔
      tree.read (cache.pathText file) = .ok kept ∧
        ∀ other ∈ files, tree.find (cache.pathText other) = tree.find (cache.pathText file) →
          kept.size ≠ other.length := by
  intro cache
  have hkeeps : cache.keeps = false := rfl
  simp only [FileTree.read_eq_ok_iff, leadsTo_fetchAll_iff hkeeps]
  constructor
  · rintro ⟨place, hleads, hlength⟩
    refine ⟨⟨place, hleads⟩, fun other hother hsame => ?_⟩
    exact hlength other hother (hsame.trans hleads.find)
  · rintro ⟨⟨place, hleads⟩, hlength⟩
    refine ⟨place, hleads, fun other hother hfind => ?_⟩
    exact hlength other hother (hfind.trans hleads.find.symm)

/-! ### A download that was cut off or replaced -/

namespace Stale

def cache : DownloadCache := ⟨"/c", false⟩

/-- A content of two bytes, where the platform states one. -/
def content : ByteArray := ⟨#[1, 2]⟩

def tree : FileTree := (FileTree.empty []).after (.install (cache.pathText SharedPath.file) content)

theorem read_path : tree.read (cache.pathText SharedPath.file) = .ok content := by decide +kernel

theorem take_file : cache.take SharedPath.file tree = (none, tree) := by
  unfold take
  simp only [read_path]
  exact if_pos (by decide)

theorem isGenuine_content : isGenuine SharedPath.file (SharedPath.content 1) := by decide +kernel

end Stale

/-- The file is fetched, and the content of another length stays under its path. -/
theorem stale_content_stays :
    ((Stale.cache.fetch SharedPath.platform SharedPath.file).run (Stale.tree, ())).1 =
        .ok (SharedPath.content 1) ∧
      ((Stale.cache.fetch SharedPath.platform SharedPath.file).run (Stale.tree, ())).2.1.read
        (Stale.cache.pathText SharedPath.file) = .ok Stale.content := by
  have hkeeps : Stale.cache.keeps = false := rfl
  have htaken : (Stale.cache.take SharedPath.file Stale.tree).2 = Stale.tree := by
    rw [Stale.take_file]
  constructor
  · rw [fetch_of_take Stale.take_file]
    exact checked_of_isGenuine rfl Stale.isGenuine_content
  · rw [tree_of_fetch hkeeps, htaken]
    exact Stale.read_path

end DownloadCache

end ModCatalog
