import ModCatalog.Proofs.Files.Contents
import ModCatalog.Proofs.Files.Removal

/-!
# What the download cache lets through

A content that is kept counts only with the length and the hash of the file that is asked for.  Any
other one, also one that was kept for another file under the same path, is passed over: the answer
is the one that is given where nothing is kept.
-/

namespace ModCatalog

namespace DownloadCache

section

variable {σ : Type} {cache : DownloadCache} {platform : Platform σ} {file : PlatformFile}
  {tree : FileTree} {memory : σ} {content : ByteArray}

/-- Whether a fetch of a file takes a content that is kept. -/
structure Counts (cache : DownloadCache) (file : PlatformFile) (tree : FileTree)
    (content : ByteArray) : Prop where
  read : tree.read (cache.pathText file) = .ok content
  length : content.size = file.length
  genuine : isGenuine file content

/-- What a platform hands out, unless it has not the hash of the file. -/
def checked (platform : Platform σ) (file : PlatformFile) (tree : FileTree) (memory : σ) :
    Except Fault ByteArray := do
  let content ← ((platform.download tree file).run memory).1
  verify file content
  return content

/-- A tree in which nothing is kept for a file. -/
def emptied (cache : DownloadCache) (file : PlatformFile) (tree : FileTree) : FileTree :=
  tree.after (.removeFile (cache.pathText file))

/-- Whether a content of another length or with another hash is kept for a file. -/
def KeepsWrong (cache : DownloadCache) (file : PlatformFile) (tree : FileTree) : Prop :=
  ∃ kept, tree.read (cache.pathText file) = .ok kept ∧
    (kept.size ≠ file.length ∨ sameHash (contentHash kept) file.hash = false)

/-- What the answer for a file owes to the platform, whatever is kept. -/
structure IsFaithful (cache : DownloadCache) (platform : Platform σ) (file : PlatformFile)
    (tree : FileTree) (memory : σ) (answer : Except Fault ByteArray) : Prop where
  hash : ∀ content, answer = .ok content → sameHash (contentHash content) file.hash
  /-- A wrong content is passed over; the platform is asked with or without it in place. -/
  asks : cache.KeepsWrong file tree → answer = checked platform file tree memory ∨
    answer = checked platform file (cache.emptied file tree) memory
  /-- So the answer is the one where nothing is kept, if the platform does not tell both apart. -/
  agrees : cache.KeepsWrong file tree →
    (platform.download (cache.emptied file tree) file).run memory =
      (platform.download tree file).run memory →
    answer = ((cache.fetch platform file).run (cache.emptied file tree, memory)).1

/-! ## One fetch -/

theorem isGenuine_iff (hhash : file.hash.isEmpty = false) :
    isGenuine file content ↔ sameHash (contentHash content) file.hash := by
  rw [isGenuine, hhash, Bool.false_or]

theorem take_of_counts (h : cache.Counts file tree content) :
    (cache.take file tree).1 = some content := by
  unfold take
  simp only [h.read, h.length, h.genuine, ne_eq, not_true_eq_false, if_false, Bool.not_true,
    Bool.false_eq_true]

/-- What does not count is passed over; it may be removed. -/
theorem take_of_not_counts (h : ∀ content, ¬cache.Counts file tree content) :
    cache.take file tree = (none, tree) ∨
      cache.take file tree = (none, tree.after (.removeFile (cache.pathText file))) := by
  unfold take
  dsimp only
  cases hread : tree.read (cache.pathText file) with
  | error failure => exact Or.inl rfl
  | ok kept =>
      dsimp only
      by_cases hlength : kept.size ≠ file.length
      · rw [if_pos hlength]
        exact Or.inl rfl
      · have hfalse : isGenuine file kept = false := by
          rw [Bool.eq_false_iff]
          intro hgenuine
          exact h kept ⟨hread, Decidable.not_not.mp hlength, hgenuine⟩
        rw [if_neg hlength, hfalse, Bool.not_false, if_pos rfl]
        exact Or.inr rfl

theorem fetch_of_counts (h : cache.Counts file tree content) :
    ((cache.fetch platform file).run (tree, memory)).1 = .ok content := by
  have htake := take_of_counts h
  unfold fetch
  dsimp only [StateT.run]
  split
  · next kept later hkept =>
      rw [hkept] at htake
      rw [Option.some.inj htake]
  · next later hkept =>
      rw [hkept] at htake
      cases htake

theorem fetch_of_take {later : FileTree} (h : cache.take file tree = (none, later)) :
    ((cache.fetch platform file).run (tree, memory)).1 = checked platform file later memory := by
  unfold fetch checked
  dsimp only [StateT.run]
  rw [h]
  dsimp only
  cases platform.download later file memory with
  | mk answer remembered =>
      cases answer with
      | error fault => rfl
      | ok content =>
          dsimp only
          cases hverify : verify file content with
          | error fault => simp [hverify, bind, Except.bind]
          | ok value => simp [hverify, bind, Except.bind, pure, Except.pure]

/-- A content is genuine for a file with its own hash. -/
theorem isGenuine_of_hash (h : file.hash = contentHash content) : isGenuine file content := by
  unfold isGenuine sameHash
  rw [h, decide_eq_true rfl, Bool.or_true]

/-- What a platform hands out is taken if it is genuine. -/
theorem checked_of_isGenuine (hdownload : ((platform.download tree file).run memory).1 = .ok content)
    (hgenuine : isGenuine file content) : checked platform file tree memory = .ok content := by
  have hverify : verify file content = .ok () := if_pos hgenuine
  unfold checked
  rw [hdownload, ok_bind, hverify, ok_bind]
  rfl

/-- Where nothing is kept the platform answers. -/
theorem fetch_of_unread (h : ∀ content, tree.read (cache.pathText file) ≠ .ok content) :
    ((cache.fetch platform file).run (tree, memory)).1 = checked platform file tree memory := by
  apply fetch_of_take
  unfold take
  dsimp only
  cases hread : tree.read (cache.pathText file) with
  | error failure => rfl
  | ok content => exact absurd hread (h content)

theorem isGenuine_of_checked (h : checked platform file tree memory = .ok content) :
    isGenuine file content := by
  unfold checked at h
  cases hdownload : ((platform.download tree file).run memory).1 with
  | error fault =>
      rw [hdownload] at h
      cases h
  | ok found =>
      rw [hdownload] at h
      cases hverify : verify file found with
      | error fault => simp [hverify, bind, Except.bind] at h
      | ok value =>
          simp only [hverify, bind, Except.bind, pure, Except.pure, Except.ok.injEq] at h
          rw [← h]
          exact isGenuine_of_verify hverify

/-- Whatever is kept, what is fetched is genuine. -/
theorem isGenuine_of_fetch (h : ((cache.fetch platform file).run (tree, memory)).1 = .ok content) :
    isGenuine file content := by
  by_cases hcounts : ∃ kept, cache.Counts file tree kept
  · obtain ⟨kept, hkept⟩ := hcounts
    rw [fetch_of_counts hkept] at h
    rw [← Except.ok.inj h]
    exact hkept.genuine
  · rcases take_of_not_counts (not_exists.mp hcounts) with htake | htake
    · rw [fetch_of_take htake] at h
      exact isGenuine_of_checked h
    · rw [fetch_of_take htake] at h
      exact isGenuine_of_checked h

theorem not_counts_of_keepsWrong (hhash : file.hash.isEmpty = false)
    (h : cache.KeepsWrong file tree) : ∀ content, ¬cache.Counts file tree content := by
  intro content hcounts
  obtain ⟨kept, hread, hwrong⟩ := h
  have hsame : kept = content := Except.ok.inj (hread.symm.trans hcounts.read)
  rcases hwrong with hlength | hdiffers
  · rw [hsame] at hlength
    exact hlength hcounts.length
  · rw [hsame, (isGenuine_iff hhash).mp hcounts.genuine] at hdiffers
    cases hdiffers

theorem read_emptied (cache : DownloadCache) (file : PlatformFile) (tree : FileTree)
    (content : ByteArray) : (cache.emptied file tree).read (cache.pathText file) ≠ .ok content :=
  tree.read_after_removeFile _ content

theorem isFaithful_fetch (hhash : file.hash.isEmpty = false) :
    cache.IsFaithful platform file tree memory
      ((cache.fetch platform file).run (tree, memory)).1 := by
  have hasks : cache.KeepsWrong file tree →
      ((cache.fetch platform file).run (tree, memory)).1 = checked platform file tree memory ∨
        ((cache.fetch platform file).run (tree, memory)).1 =
          checked platform file (cache.emptied file tree) memory := by
    intro hwrong
    rcases take_of_not_counts (not_counts_of_keepsWrong hhash hwrong) with htake | htake
    · exact Or.inl (fetch_of_take htake)
    · exact Or.inr (fetch_of_take htake)
  refine ⟨?_, hasks, ?_⟩
  · intro content hfetch
    exact (isGenuine_iff hhash).mp (isGenuine_of_fetch hfetch)
  · intro hwrong hplatform
    have hchecked : checked platform file (cache.emptied file tree) memory =
        checked platform file tree memory := by
      unfold checked
      rw [hplatform]
    rw [fetch_of_unread (read_emptied cache file tree)]
    rcases hasks hwrong with hanswer | hanswer
    · rw [hanswer, hchecked]
    · exact hanswer

/-! ## Several fetches -/

theorem fetchAll_single (cache : DownloadCache) (platform : Platform σ) (file : PlatformFile)
    (place : FileTree × σ) : ((cache.fetchAll platform [file]).run place).1 =
      [(file, ((cache.fetch platform file).run place).1)] := by
  unfold fetchAll
  rw [List.mapM_cons, List.mapM_nil]
  generalize cache.fetch platform file = step
  rfl

theorem run_fetchAll_append (before after : List PlatformFile) (place : FileTree × σ) :
    ((cache.fetchAll platform (before ++ after)).run place).1 =
      ((cache.fetchAll platform before).run place).1 ++
        ((cache.fetchAll platform after).run ((cache.fetchAll platform before).run place).2).1 := by
  unfold fetchAll
  rw [List.mapM_append]
  rfl

/-- The answer for a file among others is that of a fetch in the place that the fetches before it
have left. -/
theorem getElem?_fetchAll (before after : List PlatformFile) (file : PlatformFile)
    (place : FileTree × σ) :
    ((cache.fetchAll platform (before ++ file :: after)).run place).1[before.length]? =
      some (file,
        ((cache.fetch platform file).run ((cache.fetchAll platform before).run place).2).1) := by
  obtain ⟨tree, memory⟩ := place
  have hlength :
      ((cache.fetchAll platform before).run (tree, memory)).1.length = before.length := by
    rw [← List.length_map (f := Prod.fst), cache.map_fst_fetchAll]
  cases hplace : ((cache.fetchAll platform before).run (tree, memory)).2 with
  | mk between remembered =>
      cases hfetch : (cache.fetch platform file).run (between, remembered) with
      | mk answer later =>
          rw [run_fetchAll_append, hplace, cache.run_fetchAll_cons hfetch,
            List.getElem?_append_right (Nat.le_of_eq hlength), hlength, Nat.sub_self]
          rfl

/-- In any sequence of fetches the answer for a file with a hash is faithful, whatever was kept
before and whatever the earlier fetches have kept under the same path. -/
theorem fetch_among_others (cache : DownloadCache) (platform : Platform σ)
    (before after : List PlatformFile) (file : PlatformFile) (hhash : file.hash.isEmpty = false)
    (tree : FileTree) (memory : σ) :
    let place := ((cache.fetchAll platform before).run (tree, memory)).2
    ∃ answer,
      ((cache.fetchAll platform (before ++ file :: after)).run (tree, memory)).1[before.length]? =
        some (file, answer) ∧
      cache.IsFaithful platform file place.1 place.2 answer ∧
      ∀ content, (cache.emptied file place.1).read (cache.pathText file) ≠ .ok content :=
  ⟨_, getElem?_fetchAll before after file (tree, memory), isFaithful_fetch hhash,
    read_emptied cache file _⟩

end

/-! ### Two projects with files of one number -/

namespace SharedPath

/-- The content of the file of a project. -/
def content (projectId : Nat) : ByteArray := ⟨#[projectId.toUInt8]⟩

/-- A platform whose files differ by their projects alone. -/
def platform : Platform Unit where
  name := "fixed"
  search := fun _ _ _ => return .ok ⟨[], none⟩
  download := fun _ file => return .ok (content file.link.projectId)
  filesByHash := fun _ _ => return .ok []

def cache : DownloadCache := ⟨"/c", true⟩

/-- The file of the first project, with its hash. -/
def file : PlatformFile :=
  ⟨⟨"fixed", 1, 7⟩, "7.jar",
    "4bf5122f344554c53bde2ebb8cd2b7e3d1600ad631c385a5d7cce23c7785459a", 1⟩

/-- A file of the second project, of which no hash is stated. -/
def other : PlatformFile := ⟨⟨"fixed", 2, 7⟩, "7.jar", "", 1⟩

/-- The platform has its contents from nowhere in the tree. -/
theorem run_download (tree other : FileTree) (file : PlatformFile) (memory : Unit) :
    (platform.download tree file).run memory = (platform.download other file).run memory := rfl

/-- What is there once the other file was fetched. -/
def place : FileTree × Unit := ((cache.fetchAll platform [other]).run (.empty [], ())).2

/-- The content of the second project lies under the path of both. -/
theorem keepsWrong : cache.KeepsWrong file place.1 := by
  have hkept : (place.1.read (cache.pathText file)).toOption.map ByteArray.data =
      some #[2] := by decide +kernel
  cases hread : place.1.read (cache.pathText file) with
  | error failure =>
      rw [hread] at hkept
      cases hkept
  | ok kept =>
      rw [hread] at hkept
      obtain rfl : kept = content 2 := ByteArray.ext (Option.some.inj hkept)
      exact ⟨content 2, hread, Or.inr (by decide +kernel)⟩

end SharedPath

/-- The content that was kept for another project is not taken. -/
theorem fetch_under_shared_path :
    SharedPath.file.hash.isEmpty = false ∧
    SharedPath.cache.KeepsWrong SharedPath.file SharedPath.place.1 ∧
    ∃ answer,
      ((SharedPath.cache.fetchAll SharedPath.platform [SharedPath.other, SharedPath.file]).run
        (.empty [], ())).1[1]? = some (SharedPath.file, answer) ∧
      answer = ((SharedPath.cache.fetch SharedPath.platform SharedPath.file).run
        (SharedPath.cache.emptied SharedPath.file SharedPath.place.1, SharedPath.place.2)).1 := by
  have hhash : SharedPath.file.hash.isEmpty = false := by decide +kernel
  obtain ⟨answer, hanswer, hfaithful, _⟩ := fetch_among_others SharedPath.cache
    SharedPath.platform [SharedPath.other] [] SharedPath.file hhash (.empty []) ()
  exact ⟨hhash, SharedPath.keepsWrong, answer, hanswer,
    hfaithful.agrees SharedPath.keepsWrong (SharedPath.run_download _ _ _ _)⟩

end DownloadCache

end ModCatalog
