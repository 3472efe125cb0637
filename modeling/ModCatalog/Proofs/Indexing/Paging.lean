import ModCatalog.Proofs.Answers
import ModCatalog.Proofs.Indexing.Survey
import ModCatalog.Proofs.Platform.Downloads
import ModCatalog.Proofs.Text.Numeral

/-!
# Paging through a directory

A pass that follows the pages of a directory lists its files in order and each once, up to the limit
on pages, and tells exactly when files are left.  The place where a page begins travels as a numeral
in a token.
-/

namespace ModCatalog

/-! ## The order of listings -/

namespace ListedJar

/-- Whether the numbers of a jar come before those of another one. -/
def Precedes (a b : ListedJar) : Prop :=
  a.projectId < b.projectId ∨ a.projectId = b.projectId ∧ a.fileId < b.fileId

instance (a b : ListedJar) : Decidable (Precedes a b) := inferInstanceAs (Decidable (_ ∨ _))

theorem precedes_of_isBefore {first next jar : ListedJar} (hbefore : isBefore first next)
    (hdiffer : ¬first.sameNumbers next) (hjar : next = jar ∨ isBefore next jar) :
    first.Precedes jar := by
  rw [isBefore_iff] at hbefore hjar
  rw [sameNumbers_iff] at hdiffer
  unfold Precedes
  grind

theorem pairwise_dropRepeated {jars : List ListedJar} (hordered : IsOrdered jars) :
    (dropRepeated jars).Pairwise Precedes := by
  fun_induction dropRepeated jars with
  | case1 => exact List.Pairwise.nil
  | case2 jar => exact List.pairwise_singleton _ _
  | case3 first next rest _ ih =>
      exact ih (hordered.sublist ((List.sublist_cons_self next rest).cons_cons first))
  | case4 first next rest hdiffer ih =>
      obtain ⟨hbefore, hrest⟩ := List.pairwise_cons.mp hordered
      refine List.pairwise_cons.mpr ⟨fun jar hjar => ?_, ih hrest⟩
      apply precedes_of_isBefore (hbefore next List.mem_cons_self) hdiffer
      rcases List.mem_cons.mp (mem_of_mem_dropRepeated hjar) with rfl | hafter
      · exact Or.inl rfl
      · exact Or.inr ((List.pairwise_cons.mp hrest).1 jar hafter)

end ListedJar

theorem FileTree.pairwise_listedJars (tree : FileTree) (base : String) :
    (tree.listedJars base).Pairwise ListedJar.Precedes :=
  ListedJar.pairwise_dropRepeated (ListedJar.isOrdered_mergeSort _)

/-! ## One page -/

namespace LocalPlatform

variable {platform : LocalPlatform} {tree : FileTree} {version : String}
  {files : List PlatformFile} {first : Nat}

/-- The number of files on a full page. -/
def pageLength (platform : LocalPlatform) : Nat := max 1 platform.pageSize

theorem pageLength_pos (platform : LocalPlatform) : 0 < platform.pageLength :=
  Nat.le_max_left 1 platform.pageSize

theorem describe_of_content {jar : ListedJar} {bytes : ByteArray}
    (hcontent : content tree jar = .ok bytes) :
    ∃ file, platform.describe tree jar = .ok file := by
  unfold describe
  rw [hcontent]
  exact ⟨_, rfl⟩

theorem exists_described {jars : List ListedJar}
    (hreadable : ∀ jar ∈ jars, ∃ bytes, content tree jar = .ok bytes) :
    ∃ files, jars.mapM (platform.describe tree) = .ok files := by
  induction jars with
  | nil => exact ⟨[], rfl⟩
  | cons jar rest ih =>
      obtain ⟨⟨bytes, hcontent⟩, hrest⟩ := List.forall_mem_cons.mp hreadable
      obtain ⟨file, hfile⟩ := platform.describe_of_content hcontent
      obtain ⟨files, hfiles⟩ := ih hrest
      exact ⟨file :: files, by rw [List.mapM_cons, hfile, hfiles]; rfl⟩

theorem links_of_described {jars : List ListedJar}
    (hfiles : List.Forall₂ (fun jar file => platform.describe tree jar = .ok file) jars files) :
    files.map PlatformFile.link =
      jars.map fun jar => ⟨platform.name, jar.projectId, jar.fileId⟩ := by
  induction hfiles with
  | nil => rfl
  | cons hfile _ ih =>
      obtain ⟨_, _, hlink, _, _⟩ := platform.describe_eq_ok hfile
      rw [List.map_cons, List.map_cons, hlink, ih]

theorem nodup_link {jars : List ListedJar}
    (hfiles : List.Forall₂ (fun jar file => platform.describe tree jar = .ok file) jars files)
    (hordered : jars.Pairwise ListedJar.Precedes) : (files.map PlatformFile.link).Nodup := by
  rw [links_of_described hfiles, List.nodup_iff_pairwise_ne, List.pairwise_map]
  refine hordered.imp fun hbefore hsame => ?_
  obtain ⟨-, hproject, hfile⟩ := PlatformLink.mk.inj hsame
  unfold ListedJar.Precedes at hbefore
  omega

/-- The files of a page, and the token for the place behind it where something is left. -/
def pageFrom (platform : LocalPlatform) (files : List PlatformFile) (first : Nat) : SearchPage :=
  ⟨(files.drop first).take platform.pageLength,
    if first + platform.pageLength < files.length then
      some (toString (first + platform.pageLength)) else none⟩

theorem page_eq {jars : List ListedJar} (hfiles : jars.mapM (platform.describe tree) = .ok files)
    (hsum : first + platform.pageLength ≤ Text.maxWord64) :
    platform.page tree jars first = .ok (platform.pageFrom files first) := by
  have hlength : jars.length = files.length := (mapM_eq_ok.mp hfiles).length_eq
  have hshown (stop : Nat) : ((jars.take stop).drop first).mapM (platform.describe tree) =
      .ok ((files.take stop).drop first) := mapM_drop_of_mapM (mapM_take_of_mapM hfiles stop) first
  have hplaces : (files.take (min (first + platform.pageLength) files.length)).drop first =
      (files.drop first).take platform.pageLength := by
    rw [← List.take_eq_take_min, List.drop_take, Nat.add_sub_cancel_left]
  have hpage : platform.page tree jars first = (do
      let stop := min (first + platform.pageLength) jars.length
      let shown ← ((jars.take stop).drop first).mapM (platform.describe tree)
      return ⟨shown, if stop < jars.length then some (toString stop) else none⟩) := by
    unfold page
    exact if_neg (Nat.not_lt.mpr hsum)
  rw [hpage, hlength]
  dsimp only
  rw [hshown, hplaces]
  unfold pageFrom
  by_cases hleft : first + platform.pageLength < files.length
  · rw [Nat.min_eq_left hleft.le, if_pos hleft]
    rfl
  · rw [Nat.min_eq_right (Nat.not_lt.mp hleft), if_neg (Nat.lt_irrefl _), if_neg hleft]
    rfl

theorem offset_toString (hword : first ≤ Text.maxWord64) :
    offset (some (toString first)) = .ok first := by
  have hnumber : ListedJar.number? (toString first) = some first := Text.readNumber?_toString hword
  unfold offset
  dsimp only
  rw [hnumber]

end LocalPlatform

/-! ## All pages -/

namespace Indexer

variable {indexer : Indexer} {platform : LocalPlatform} {tree : FileTree}
  {files : List PlatformFile} {place : Workplace ListingMemory}

/-- The listing that a pass pages through. -/
def searched (indexer : Indexer) (platform : LocalPlatform) (tree : FileTree) : List ListedJar :=
  tree.listedJars (platform.versionDirectory tree indexer.settings.gameVersion)

/-- Whether a directory has given files for a pass, in order, and they are so few that no end of a
page passes the largest word. -/
structure Offers (indexer : Indexer) (platform : LocalPlatform) (tree : FileTree)
    (files : List PlatformFile) : Prop where
  leads : tree.leadsToDirectory (platform.versionDirectory tree indexer.settings.gameVersion)
  described : (indexer.searched platform tree).mapM (platform.describe tree) = .ok files
  length_le : 2 * files.length ≤ Text.maxWord64
  pageSize_le : platform.pageSize ≤ Text.maxWord64

theorem Offers.sum_le (hoffers : indexer.Offers platform tree files) {first : Nat}
    (hfirst : first = 0 ∨ first < files.length ∧ platform.pageLength ≤ first) :
    first + platform.pageLength ≤ Text.maxWord64 := by
  have hlength := hoffers.length_le
  have hpage : platform.pageLength ≤ Text.maxWord64 := max_le (by decide) hoffers.pageSize_le
  omega

/-- What is known of a place at which a pass has followed some pages. -/
structure Follows (tree : FileTree) (place : Workplace ListingMemory) : Prop where
  files : place.files = tree
  memory : place.memory.Recalls tree

theorem Offers.asks (hoffers : indexer.Offers platform tree files) (hplace : Follows tree place)
    {token : Option String} {first : Nat} (htoken : LocalPlatform.offset token = .ok first)
    (hfirst : first = 0 ∨ first < files.length ∧ platform.pageLength ≤ first) :
    ∃ after, Follows tree after ∧ (Work.askPlatform fun tree =>
      platform.toPlatform.search tree indexer.settings.gameVersion token).run.run place =
        (.ok (platform.pageFrom files first), after) := by
  have hsearch : ((platform.search tree indexer.settings.gameVersion token).run place.memory).1 =
      .ok (platform.pageFrom files first) := by
    rw [LocalPlatform.search_at hplace.memory hoffers.leads htoken]
    exact LocalPlatform.page_eq hoffers.described (hoffers.sum_le hfirst)
  obtain ⟨rfl, hmemory⟩ := hplace
  let search := platform.search place.files indexer.settings.gameVersion token
  refine ⟨{ place with memory := (search.run place.memory).2 }, ⟨rfl, ?_⟩, Prod.ext hsearch rfl⟩
  exact LocalPlatform.keeps_search _ token _ hmemory

/-- The last page has no token, and nothing is asked for after it. -/
theorem Offers.enumerate_last (hoffers : indexer.Offers platform tree files)
    (hplace : Follows tree place) {token : Option String} {first : Nat}
    (htoken : LocalPlatform.offset token = .ok first)
    (hfirst : first = 0 ∨ first < files.length ∧ platform.pageLength ≤ first)
    (hlast : files.length ≤ first + platform.pageLength) (limit : Nat) :
    ((indexer.enumerate platform.toPlatform (limit + 1) token).run.run place).1 =
      .ok (files.drop first, 1, false) := by
  obtain ⟨after, -, hasked⟩ := hoffers.asks hplace htoken hfirst
  have hshown : (files.drop first).take platform.pageLength = files.drop first :=
    List.take_of_length_le (by rw [List.length_drop]; omega)
  unfold LocalPlatform.pageFrom at hasked
  rw [if_neg (Nat.not_lt.mpr hlast), hshown] at hasked
  unfold enumerate
  rw [run_bind_of_ok hasked]
  rfl

/-- Any other page is full, and its token leads to the place behind it. -/
theorem Offers.enumerate_more (hoffers : indexer.Offers platform tree files)
    (hplace : Follows tree place) {token : Option String} {first : Nat}
    (htoken : LocalPlatform.offset token = .ok first)
    (hfirst : first = 0 ∨ first < files.length ∧ platform.pageLength ≤ first)
    (hmore : first + platform.pageLength < files.length) (limit : Nat) :
    ∃ after, Follows tree after ∧ ∀ rest pages truncated,
      ((indexer.enumerate platform.toPlatform limit
        (some (toString (first + platform.pageLength)))).run.run after).1 =
          .ok (rest, pages, truncated) →
      ((indexer.enumerate platform.toPlatform (limit + 1) token).run.run place).1 =
        .ok ((files.drop first).take platform.pageLength ++ rest, pages + 1, truncated) := by
  obtain ⟨after, hafter, hasked⟩ := hoffers.asks hplace htoken hfirst
  unfold LocalPlatform.pageFrom at hasked
  rw [if_pos hmore] at hasked
  refine ⟨after, hafter, fun rest pages truncated hrest => ?_⟩
  rw [enumerate, run_bind_of_ok hasked]
  dsimp only
  rw [run_bind_of_fst hrest]
  rfl

/-! ### The run over all pages -/

/-- What the pages list of the files that are left, up to a limit, on how many pages, and whether
files remain. -/
def paged (platform : LocalPlatform) (left : List PlatformFile) (limit : Nat) :
    List PlatformFile × Nat × Bool :=
  (left.take (limit * platform.pageLength),
    (min left.length (limit * platform.pageLength) + platform.pageLength - 1) / platform.pageLength,
    decide (limit * platform.pageLength < left.length))

theorem paged_zero {left : List PlatformFile} (hleft : 0 < left.length) :
    paged platform left 0 = ([], 0, true) := by
  have hpages : (0 + platform.pageLength - 1) / platform.pageLength = 0 :=
    Nat.div_eq_of_lt (by have := platform.pageLength_pos; omega)
  unfold paged
  rw [Nat.zero_mul, Nat.min_zero, hpages, List.take_zero, decide_eq_true hleft]

theorem paged_last {left : List PlatformFile} (hleft : 0 < left.length)
    (hlast : left.length ≤ platform.pageLength) (limit : Nat) :
    paged platform left (limit + 1) = (left, 1, false) := by
  have hpages : (min left.length ((limit + 1) * platform.pageLength) +
      platform.pageLength - 1) / platform.pageLength = 1 := by
    rw [Nat.add_one_mul]
    exact Nat.div_eq_of_lt_le (by omega) (by omega)
  have hshown : left.take ((limit + 1) * platform.pageLength) = left := by
    rw [Nat.add_one_mul]
    exact List.take_of_length_le (by omega)
  have hend : ¬(limit + 1) * platform.pageLength < left.length := by
    rw [Nat.add_one_mul]
    omega
  unfold paged
  rw [hpages, hshown, decide_eq_false hend]

theorem paged_more {left : List PlatformFile} (hmore : platform.pageLength < left.length)
    (limit : Nat) : paged platform left (limit + 1) =
      (left.take platform.pageLength ++
        (paged platform (left.drop platform.pageLength) limit).1,
        (paged platform (left.drop platform.pageLength) limit).2.1 + 1,
        (paged platform (left.drop platform.pageLength) limit).2.2) := by
  have hmin : min left.length ((limit + 1) * platform.pageLength) + platform.pageLength - 1 =
      min (left.length - platform.pageLength) (limit * platform.pageLength) +
        platform.pageLength - 1 + platform.pageLength := by
    rw [Nat.add_one_mul]
    omega
  have hleft : (limit + 1) * platform.pageLength < left.length ↔
      limit * platform.pageLength < left.length - platform.pageLength := by
    rw [Nat.add_one_mul]
    omega
  unfold paged
  rw [hmin, Nat.add_div_right _ platform.pageLength_pos, decide_eq_decide.mpr hleft,
    List.length_drop, Nat.add_one_mul, Nat.add_comm (limit * platform.pageLength), List.take_add]

/-- From a place with files behind it, the pages list these files up to the limit. -/
theorem Offers.enumerate_from (hoffers : indexer.Offers platform tree files) (limit : Nat)
    {first : Nat} (hfirst : first = 0 ∨ platform.pageLength ≤ first)
    (hleft : first < files.length) (hplace : Follows tree place) :
    ((indexer.enumerate platform.toPlatform limit (some (toString first))).run.run place).1 =
      .ok (paged platform (files.drop first) limit) := by
  induction limit generalizing first place with
  | zero =>
      rw [paged_zero (by rw [List.length_drop]; omega)]
      rfl
  | succ limit ih =>
      have hcount : (files.drop first).length = files.length - first := List.length_drop
      have htoken : LocalPlatform.offset (some (toString first)) = .ok first :=
        LocalPlatform.offset_toString (by have := hoffers.length_le; omega)
      have hplaced : first = 0 ∨ first < files.length ∧ platform.pageLength ≤ first :=
        hfirst.imp_right fun h => ⟨hleft, h⟩
      by_cases hmore : first + platform.pageLength < files.length
      · obtain ⟨after, hafter, hrun⟩ := hoffers.enumerate_more hplace htoken hplaced hmore limit
        rw [hrun _ _ _ (ih (Or.inr (Nat.le_add_left _ _)) hmore hafter), paged_more (by omega),
          List.drop_drop]
        rfl
      · rw [hoffers.enumerate_last hplace htoken hplaced (Nat.not_lt.mp hmore) limit,
          paged_last (by omega) (by omega)]

theorem enumerate_none (platform : LocalPlatform) (limit : Nat) :
    indexer.enumerate platform.toPlatform (limit + 1) none =
      indexer.enumerate platform.toPlatform (limit + 1) (some (toString 0)) := by
  have htoken : LocalPlatform.offset none = LocalPlatform.offset (some (toString 0)) :=
    (LocalPlatform.offset_toString (Nat.zero_le _)).symm
  have hsearch (tree : FileTree) (version : String) : platform.toPlatform.search tree version none =
      platform.toPlatform.search tree version (some (toString 0)) := by
    change platform.search tree version none = platform.search tree version (some (toString 0))
    unfold LocalPlatform.search
    rw [htoken]
  unfold enumerate
  simp only [hsearch]

theorem Offers.enumerate_eq (hoffers : indexer.Offers platform tree files)
    (hplace : Follows tree place) {limit : Nat} (hlimit : 1 ≤ limit) :
    ((indexer.enumerate platform.toPlatform limit none).run.run place).1 =
      .ok (files.take (limit * platform.pageLength),
        max 1 ((min files.length (limit * platform.pageLength) + platform.pageLength - 1) /
          platform.pageLength),
        decide (limit * platform.pageLength < files.length)) := by
  have hpos := platform.pageLength_pos
  obtain ⟨limit, rfl⟩ : ∃ before, limit = before + 1 := ⟨limit - 1, by omega⟩
  by_cases hnone : files = []
  · subst hnone
    have hpages : (0 + platform.pageLength - 1) / platform.pageLength = 0 :=
      Nat.div_eq_of_lt (by omega)
    rw [hoffers.enumerate_last hplace rfl (Or.inl rfl) (Nat.zero_le _) limit, List.length_nil,
      Nat.zero_min, hpages, List.take_nil, decide_eq_false (Nat.not_lt_zero _)]
    rfl
  · have hsome : 0 < files.length := List.length_pos_iff.mpr hnone
    have hpages : 1 ≤ (min files.length ((limit + 1) * platform.pageLength) +
        platform.pageLength - 1) / platform.pageLength := by
      have hfull : 0 < (limit + 1) * platform.pageLength := Nat.mul_pos (Nat.succ_pos _) hpos
      rw [Nat.le_div_iff_mul_le hpos]
      omega
    rw [enumerate_none, hoffers.enumerate_from _ (Or.inl rfl) hsome hplace,
      Nat.max_eq_right hpages]
    rfl

/-- Paging is lossless: in the order of their numbers, a pass lists the files of a directory up to
the limit on pages, each once, asks for no page too many, and tells that it is truncated if and only
if files are left. -/
theorem enumerate_searched (hfiles : place.files = tree) (hmemory : place.memory.Recalls tree)
    (hleads : tree.leadsToDirectory
      (platform.versionDirectory tree indexer.settings.gameVersion))
    (hreadable : ∀ jar ∈ indexer.searched platform tree,
      ∃ bytes, LocalPlatform.content tree jar = .ok bytes)
    (hlength : 2 * (indexer.searched platform tree).length ≤ Text.maxWord64)
    (hpageSize : platform.pageSize ≤ Text.maxWord64) {limit : Nat} (hlimit : 1 ≤ limit) :
    (indexer.searched platform tree).Pairwise ListedJar.Precedes ∧
      ∃ listed, ((indexer.enumerate platform.toPlatform limit none).run.run place).1 =
        .ok (listed,
          max 1 ((min (indexer.searched platform tree).length (limit * platform.pageLength) +
            platform.pageLength - 1) / platform.pageLength),
          decide (limit * platform.pageLength < (indexer.searched platform tree).length)) ∧
        List.Forall₂ (fun jar file => platform.describe tree jar = .ok file)
          ((indexer.searched platform tree).take (limit * platform.pageLength)) listed ∧
        (listed.map PlatformFile.link).Nodup := by
  obtain ⟨files, hdescribed⟩ := platform.exists_described hreadable
  have hsame : (indexer.searched platform tree).length = files.length :=
    (mapM_eq_ok.mp hdescribed).length_eq
  have hoffers : indexer.Offers platform tree files :=
    ⟨hleads, hdescribed, hsame ▸ hlength, hpageSize⟩
  have hordered := tree.pairwise_listedJars
    (platform.versionDirectory tree indexer.settings.gameVersion)
  have hlisted := List.forall₂_take (limit * platform.pageLength) (mapM_eq_ok.mp hdescribed)
  refine ⟨hordered, _, ?_, hlisted, ?_⟩
  · rw [hsame]
    exact hoffers.enumerate_eq ⟨hfiles, hmemory⟩ hlimit
  · exact LocalPlatform.nodup_link hlisted (hordered.sublist (List.take_sublist _ _))

end Indexer

/-! ### Three files on pages of two -/

namespace ThreeFiles

def platform : LocalPlatform := ⟨"local", "/p", 2⟩

def tree : FileTree :=
  ⟨[], .ofList [(["p"], .directory), (["p", "1"], .directory),
    (["p", "1", "10.jar"], .file ⟨#[97]⟩), (["p", "1", "11.jar"], .file ⟨#[98]⟩),
    (["p", "2"], .directory),
    (["p", "2", "5.jar"], .file ⟨#[97]⟩), (["p", "notes"], .directory),
    (["p", "notes", "readme.jar"], .file ⟨#[]⟩)]⟩

def jars : List ListedJar :=
  [⟨1, 10, ["/", "p", "1", "10.jar"]⟩, ⟨1, 11, ["/", "p", "1", "11.jar"]⟩,
    ⟨2, 5, ["/", "p", "2", "5.jar"]⟩]

def indexer : Indexer := ⟨.ofVersion "/c" "", .standard, .standard, 0⟩

theorem searched_eq : indexer.searched platform tree = jars := by
  have hdirectory : platform.versionDirectory tree indexer.settings.gameVersion = "/p" := by
    decide +kernel
  have hfound : (tree.jars "/p").filterMap ListedJar.ofPath? = jars := by decide +kernel
  unfold Indexer.searched FileTree.listedJars
  rw [hdirectory, hfound]
  dsimp only
  rw [List.mergeSort_of_pairwise (by decide +kernel)]
  simp [jars, ListedJar.dropRepeated, ListedJar.sameNumbers]

end ThreeFiles

/-- One page has the first two files and tells that the search is truncated. -/
theorem Indexer.enumerate_three_files : ∃ listed,
    ((ThreeFiles.indexer.enumerate ThreeFiles.platform.toPlatform 1 none).run.run
      (.bare ThreeFiles.tree .empty)).1 = .ok (listed, 1, true) ∧
    listed.map PlatformFile.link = [⟨"local", 1, 10⟩, ⟨"local", 1, 11⟩] := by
  have hfiles : (Workplace.bare ThreeFiles.tree ListingMemory.empty).files = ThreeFiles.tree := rfl
  have hleads : ThreeFiles.tree.leadsToDirectory (ThreeFiles.platform.versionDirectory
      ThreeFiles.tree ThreeFiles.indexer.settings.gameVersion) := by decide +kernel
  have hreadable : ∀ jar ∈ ThreeFiles.jars,
      ∃ bytes, LocalPlatform.content ThreeFiles.tree jar = .ok bytes := by
    simp only [ThreeFiles.jars, List.forall_mem_cons, List.not_mem_nil, false_implies,
      implies_true, and_true]
    exact ⟨⟨⟨#[97]⟩, by decide +kernel⟩, ⟨⟨#[98]⟩, by decide +kernel⟩, ⟨⟨#[97]⟩, by decide +kernel⟩⟩
  obtain ⟨-, listed, hrun, hdescribed, -⟩ := enumerate_searched hfiles
    ListingMemory.recalls_empty hleads (ThreeFiles.searched_eq ▸ hreadable)
    (ThreeFiles.searched_eq ▸ by decide) (by decide) (Nat.le_refl 1)
  rw [ThreeFiles.searched_eq] at hrun hdescribed
  exact ⟨listed, hrun, LocalPlatform.links_of_described hdescribed⟩

end ModCatalog
