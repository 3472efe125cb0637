import ModCatalog.Proofs.Files.Paths
import ModCatalog.Proofs.Platform.Listings

/-!
# What is listed and what is downloaded

A search lists the directory of a version, while a download looks for the numbers of a file in the
listing of the whole root.  So the content of a listed file is what one gets only if its jar is the
first with its numbers below the root, or has the content of that one.
-/

namespace ModCatalog

open ListedJar

/-! ## What is remembered -/

section

variable {tree : FileTree} {memory later : ListingMemory}

/-- Whether the listings that are remembered are those of a tree. -/
def ListingMemory.Recalls (memory : ListingMemory) (tree : FileTree) : Prop :=
  ∀ {base listing}, memory.listings.get? (Path.parts base) = some listing →
    tree.isPresent base → listing = tree.listedJars base

theorem ListingMemory.recalls_empty : ListingMemory.empty.Recalls tree := nofun

/-- The parts of a path decide what is listed there. -/
theorem FileTree.listedJars_eq_of_parts_eq {base other : String}
    (hparts : Path.parts base = Path.parts other) (hbase : tree.isPresent base)
    (hother : tree.isPresent other) : tree.listedJars base = tree.listedJars other := by
  unfold isPresent at hbase hother
  unfold listedJars jars
  cases hplace : tree.find base with
  | error failure =>
      rw [hplace] at hbase
      cases hbase
  | ok place =>
      cases hlast : tree.find other with
      | error failure =>
          rw [hlast] at hother
          cases hother
      | ok last => rw [place_eq_of_parts_eq hparts hplace hlast, hparts]

namespace LocalPlatform

variable {platform : LocalPlatform}

/-- What a directory may remember after some questions, while its files stay as they are. -/
inductive Asked (platform : LocalPlatform) (tree : FileTree) : ListingMemory → Prop
  | nothing : Asked platform tree .empty
  | search {memory : ListingMemory} (version : String) (token : Option String) :
      Asked platform tree memory →
      Asked platform tree ((platform.search tree version token).run memory).2
  | file {memory : ListingMemory} (projectId fileId : Nat) : Asked platform tree memory →
      Asked platform tree ((platform.file tree projectId fileId).run memory).2
  | download {memory : ListingMemory} (file : PlatformFile) : Asked platform tree memory →
      Asked platform tree ((platform.download tree file).run memory).2
  | filesByHash {memory : ListingMemory} (hashes : List String) : Asked platform tree memory →
      Asked platform tree ((platform.filesByHash tree hashes).run memory).2

theorem listing_spec {base : String} (hbase : tree.isPresent base) (hmemory : memory.Recalls tree) :
    ((listing tree base).run memory).1 = tree.listedJars base ∧
      ((listing tree base).run memory).2.Recalls tree := by
  cases hfound : memory.listings.get? (Path.parts base) with
  | some jars =>
      have hrun : (listing tree base).run memory = (jars, memory) := by
        unfold listing
        simp only [StateT.run_bind, StateT.run_get, pure_bind, hfound]
        rfl
      rw [hrun]
      exact ⟨hmemory hfound hbase, hmemory⟩
  | none =>
      have hrun : (listing tree base).run memory = (tree.listedJars base,
          { memory with
            listings := memory.listings.put (Path.parts base) (tree.listedJars base) }) := by
        unfold listing
        simp only [StateT.run_bind, StateT.run_get, pure_bind, hfound]
        rfl
      rw [hrun]
      refine ⟨rfl, ?_⟩
      intro other jars hget hother
      rw [Table.get?_put] at hget
      split at hget
      · next hparts =>
          cases hget
          exact FileTree.listedJars_eq_of_parts_eq hparts.symm hbase hother
      · exact hmemory hget hother

/-- Whether what is remembered stays right when something is asked. -/
def Keeps {α : Type} (question : StateM ListingMemory α) (tree : FileTree) : Prop :=
  ∀ memory, memory.Recalls tree → (question.run memory).2.Recalls tree

theorem keeps_pure {α : Type} (answer : α) : Keeps (pure answer) tree := fun _ hmemory => hmemory

theorem Keeps.bind {α β : Type} {question : StateM ListingMemory α}
    {next : α → StateM ListingMemory β} (hquestion : Keeps question tree)
    (hnext : ∀ answer, Keeps (next answer) tree) : Keeps (question >>= next) tree :=
  fun memory hmemory => hnext _ _ (hquestion memory hmemory)

theorem keeps_listing {base : String} (hbase : tree.isPresent base) :
    Keeps (listing tree base) tree := fun _ hmemory => (listing_spec hbase hmemory).2

theorem keeps_find (hroot : tree.isPresent platform.root) (projectId fileId : Nat) :
    Keeps (platform.find tree projectId fileId) tree :=
  (keeps_listing hroot).bind fun _ => keeps_pure _

theorem isPresent_of_leadsToDirectory {text : String} (h : tree.leadsToDirectory text) :
    tree.isPresent text := by
  unfold FileTree.leadsToDirectory at h
  unfold FileTree.isPresent
  cases hfind : tree.find text with
  | error failure =>
      rw [hfind] at h
      cases h
  | ok place => rfl

theorem keeps_search (version : String) (token : Option String) :
    Keeps (platform.search tree version token) tree := by
  unfold search
  dsimp only
  split
  · exact keeps_pure _
  · next hdirectory =>
      have hbase : tree.isPresent (platform.versionDirectory tree version) :=
        isPresent_of_leadsToDirectory (by simpa using hdirectory)
      split
      · exact keeps_pure _
      · exact (keeps_listing hbase).bind fun _ => keeps_pure _

theorem keeps_file (hroot : tree.isPresent platform.root) (projectId fileId : Nat) :
    Keeps (platform.file tree projectId fileId) tree := by
  refine (keeps_find hroot projectId fileId).bind fun found => ?_
  cases found <;> exact keeps_pure _

theorem keeps_download (hroot : tree.isPresent platform.root) (file : PlatformFile) :
    Keeps (platform.download tree file) tree := by
  refine (keeps_find hroot _ _).bind fun found => ?_
  cases found with
  | none => exact keeps_pure _
  | some jar =>
      dsimp only
      split <;> exact keeps_pure _

theorem keeps_hashIndex (hroot : tree.isPresent platform.root) :
    Keeps (platform.hashIndex tree) tree := by
  have hget : Keeps get tree := fun _ hmemory => hmemory
  refine hget.bind fun remembered => ?_
  split
  · exact keeps_pure _
  · refine (keeps_listing hroot).bind fun jars => ?_
    split
    · exact keeps_pure _
    · next files _ =>
        have hmodify : Keeps (modify fun memory : ListingMemory => { memory with
            byHash := some (files.foldl (fun index file => index.putNew file.hash file) .empty) })
            tree := fun _ hmemory => hmemory
        exact hmodify.bind fun _ => keeps_pure _

theorem keeps_filesByHash (hroot : tree.isPresent platform.root) (hashes : List String) :
    Keeps (platform.filesByHash tree hashes) tree := by
  unfold filesByHash
  split
  · exact keeps_pure _
  · refine (keeps_hashIndex hroot).bind fun answer => ?_
    cases answer <;> exact keeps_pure _

theorem Asked.recalls (hroot : tree.isPresent platform.root) (hasked : platform.Asked tree memory) :
    memory.Recalls tree := by
  induction hasked with
  | nothing => exact ListingMemory.recalls_empty
  | search version token _ ih => exact keeps_search version token _ ih
  | file projectId fileId _ ih => exact keeps_file hroot projectId fileId _ ih
  | download file _ ih => exact keeps_download hroot file _ ih
  | filesByHash hashes _ ih => exact keeps_filesByHash hroot hashes _ ih

/-! ## Answers -/

/-- A page has files that are described as the listing of the version directory has them. -/
theorem search_spec {version : String} {token : Option String} {page : SearchPage}
    (hmemory : memory.Recalls tree)
    (hpage : ((platform.search tree version token).run memory).1 = .ok page) :
    ∀ file ∈ page.files, ∃ jar ∈ tree.listedJars (platform.versionDirectory tree version),
      platform.describe tree jar = .ok file := by
  obtain ⟨hdirectory, hdescribed⟩ := platform.described_of_search hpage
  rw [(listing_spec (isPresent_of_leadsToDirectory hdirectory) hmemory).1] at hdescribed
  exact hdescribed

theorem search_at {version : String} {token : Option String} {first : Nat}
    (hmemory : memory.Recalls tree)
    (hdirectory : tree.leadsToDirectory (platform.versionDirectory tree version))
    (htoken : offset token = .ok first) :
    ((platform.search tree version token).run memory).1 =
      platform.page tree (tree.listedJars (platform.versionDirectory tree version)) first := by
  have hlisted := (listing_spec (isPresent_of_leadsToDirectory hdirectory) hmemory).1
  unfold search
  dsimp only
  rw [if_neg (by simpa using hdirectory), ← hlisted, htoken]
  rfl

theorem download_eq_ok {file : PlatformFile} {bytes : ByteArray} :
    ((platform.download tree file).run memory).1 = .ok bytes ↔
      ∃ jar, ((platform.find tree file.link.projectId file.link.fileId).run memory).1 = some jar ∧
        content tree jar = .ok bytes := by
  unfold download
  rw [StateT.run_bind]
  cases (platform.find tree file.link.projectId file.link.fileId).run memory with
  | mk found after =>
      cases found with
      | none => simp [bind]
      | some jar =>
          dsimp only [bind]
          cases hcontent : content tree jar with
          | error failure => simp [hcontent]
          | ok read =>
              have hread : (∃ found, some jar = some found ∧ content tree found = .ok bytes) ↔
                  read = bytes := by simp [hcontent]
              rw [hread]
              exact ⟨fun h => Except.ok.inj h, fun h => congrArg _ h⟩

/-- A download hands out the content of the first jar below the root with the numbers of a file. -/
theorem download_eq_ok_iff (hroot : tree.isPresent platform.root) (hmemory : memory.Recalls tree)
    {file : PlatformFile} {bytes : ByteArray} :
    ((platform.download tree file).run memory).1 = .ok bytes ↔
      ∃ jar, tree.FindsFirst platform.root jar ∧
        jar.hasNumbers file.link.projectId file.link.fileId ∧ content tree jar = .ok bytes := by
  have hlisted := (listing_spec hroot hmemory).1
  have hfind : ((platform.find tree file.link.projectId file.link.fileId).run memory).1 =
      (tree.listedJars platform.root).find?
        (hasNumbers file.link.projectId file.link.fileId) := by
    rw [← hlisted]
    rfl
  rw [download_eq_ok, hfind]
  simp only [FileTree.find?_listedJars_eq_some_iff, and_assoc]

end LocalPlatform

/-! ## Version directories -/

theorem FileTree.shownFrom_eq (hignore : tree.ignoreScopes = []) (place : Path) :
    tree.shownFrom place = tree.pathsFrom place := by
  unfold shownFrom
  rw [hignore]
  exact List.filter_eq_self.mpr fun _ _ => rfl

/-- Where no files are ignored, the jars in the directory of a plain name are among those of the
directory around it. -/
theorem FileTree.jars_joinText_subset {base name : String} (hplain : Path.IsPlain name)
    (hignore : tree.ignoreScopes = []) (hbase : tree.isPresent base) :
    tree.jars (Path.joinText base name) ⊆ tree.jars base := by
  cases hplace : tree.find base with
  | error failure =>
      unfold isPresent at hbase
      rw [hplace] at hbase
      cases hbase
  | ok place =>
      have hparts := Path.parts_joinText (moves_of_find hplace).1 hplain
      cases hlast : tree.find (Path.joinText base name) with
      | error failure =>
          unfold jars
          rw [hlast]
          exact List.nil_subset _
      | ok last =>
          obtain rfl := place_of_joinText hplain hplace hlast
          unfold jars
          rw [hplace, hlast, hparts]
          dsimp only
          rw [shownFrom_eq hignore, shownFrom_eq hignore]
          intro path hpath
          obtain ⟨hmem, hjar⟩ := List.mem_filter.mp hpath
          obtain ⟨key, hkey, rfl⟩ := List.mem_map.mp hmem
          obtain ⟨hkeys, hprefix⟩ := List.mem_filter.mp hkey
          obtain ⟨rest, rfl⟩ := List.isPrefixOf_iff_prefix.mp hprefix
          have hbelow : place.isPrefixOf (place ++ [name] ++ rest) := by
            rw [List.isPrefixOf_iff_prefix, List.append_assoc]
            exact List.prefix_append _ _
          have hshown : place ++ [name] ++ rest ∈ tree.pathsFrom place :=
            List.mem_filter.mpr ⟨hkeys, hbelow⟩
          refine List.mem_filter.mpr ⟨List.mem_map.mpr ⟨_, hshown, ?_⟩, hjar⟩
          simp

namespace LocalPlatform

/-- A jar of a version directory is one of the root's, where the version is plainly named and no
files are ignored. -/
theorem numberedJars_versionDirectory (platform : LocalPlatform) {version : String}
    (hroot : tree.isPresent platform.root) (hignore : tree.ignoreScopes = [])
    (hplain : version.isEmpty ∨ Path.IsPlain version) :
    tree.numberedJars (platform.versionDirectory tree version) ⊆
      tree.numberedJars platform.root := by
  unfold versionDirectory
  dsimp only
  split
  · next hown =>
      obtain ⟨hwritten, _⟩ := Bool.and_eq_true_iff.mp hown
      have hname : Path.IsPlain version := hplain.resolve_left (by simpa using hwritten)
      exact List.filterMap_subset _ (FileTree.jars_joinText_subset hname hignore hroot)
  · exact List.Subset.refl _

end LocalPlatform

/-- Whether a content is the one that a file is described by. -/
def PlatformFile.IsOf (file : PlatformFile) (content : ByteArray) : Prop :=
  contentHash content = file.hash ∧ content.size = file.length

namespace LocalPlatform

variable {platform : LocalPlatform}

/-- A file on a page describes the content of the first jar with its numbers in the directory of the
version.  It is downloaded with this description if and only if the first jar with its numbers below
the root has it; so it is where versions are plainly named, no files are ignored, and jars with the
same numbers have the same content. -/
theorem listed_file_downloads_iff (hroot : tree.isPresent platform.root)
    (hmemory : platform.Asked tree memory) (hlater : platform.Asked tree later) {version : String}
    {token : Option String} {page : SearchPage}
    (hpage : ((platform.search tree version token).run memory).1 = .ok page) {file : PlatformFile}
    (hfile : file ∈ page.files) :
    ∃ jar bytes, tree.FindsFirst (platform.versionDirectory tree version) jar ∧
      content tree jar = .ok bytes ∧ file.link = ⟨platform.name, jar.projectId, jar.fileId⟩ ∧
      file.IsOf bytes ∧
      ((∃ got, ((platform.download tree file).run later).1 = .ok got ∧ file.IsOf got) ↔
        ∃ first got, tree.FindsFirst platform.root first ∧
          first.hasNumbers jar.projectId jar.fileId ∧ content tree first = .ok got ∧
          file.IsOf got) ∧
      (tree.ignoreScopes = [] → (version.isEmpty ∨ Path.IsPlain version) →
        (∀ other ∈ tree.numberedJars platform.root, other.hasNumbers jar.projectId jar.fileId →
          content tree other = .ok bytes) →
        ((platform.download tree file).run later).1 = .ok bytes) := by
  obtain ⟨jar, hjar, hdescribed⟩ := search_spec (hmemory.recalls hroot) hpage file hfile
  obtain ⟨bytes, hcontent, hlink, hhash, hlength⟩ := platform.describe_eq_ok hdescribed
  have hfirst := FileTree.mem_listedJars_iff.mp hjar
  have hdownload : ∀ got, ((platform.download tree file).run later).1 = .ok got ↔
      ∃ first, tree.FindsFirst platform.root first ∧
        first.hasNumbers jar.projectId jar.fileId ∧ content tree first = .ok got := by
    intro got
    rw [download_eq_ok_iff hroot (hlater.recalls hroot), hlink]
  refine ⟨jar, bytes, hfirst, hcontent, hlink, ⟨hhash.symm, hlength.symm⟩, ?_, ?_⟩
  · simp only [hdownload]
    constructor
    · rintro ⟨got, ⟨first, hleast, hnumbers, hgot⟩, hright⟩
      exact ⟨first, got, hleast, hnumbers, hgot, hright⟩
    · rintro ⟨first, got, hleast, hnumbers, hgot, hright⟩
      exact ⟨got, ⟨first, hleast, hnumbers, hgot⟩, hright⟩
  · intro hignore hplain hsame
    have hfound := platform.numberedJars_versionDirectory hroot hignore hplain hfirst.found
    obtain ⟨first, hfind⟩ := FileTree.exists_findsFirst hfound
    obtain ⟨hnumbers, hleast⟩ := FileTree.findsFirst_of_find? hfind
    exact (hdownload bytes).mpr ⟨first, hleast, hnumbers, hsame first hleast.found hnumbers⟩

end LocalPlatform

end

/-! ### A file with the same numbers in two versions -/

namespace TwoVersions

def platform : LocalPlatform := ⟨"local", "/p", LocalPlatform.defaultPageSize⟩

def older : ByteArray := ⟨#[97]⟩

def newer : ByteArray := ⟨#[98, 98]⟩

/-- The older content for the version `v1`, the newer one for the version `v2`. -/
def tree : FileTree :=
  ⟨[], .ofList [(["p"], .directory), (["p", "v1"], .directory), (["p", "v1", "1"], .directory),
    (["p", "v1", "1", "10.jar"], .file older), (["p", "v2"], .directory),
    (["p", "v2", "1"], .directory), (["p", "v2", "1", "10.jar"], .file newer)]⟩

def olderJar : ListedJar := ⟨1, 10, ["/", "p", "v1", "1", "10.jar"]⟩

def newerJar : ListedJar := ⟨1, 10, ["/", "p", "v2", "1", "10.jar"]⟩

/-- The file that is listed for the version `v2`. -/
def file : PlatformFile := ⟨⟨"local", 1, 10⟩, "10.jar", contentHash newer, newer.size⟩

theorem numberedJars_root : tree.numberedJars platform.root = [olderJar, newerJar] := by
  decide +kernel

theorem listedJars_newer : tree.listedJars "/p/v2" = [newerJar] := by
  have hfound : (tree.jars "/p/v2").filterMap ListedJar.ofPath? = [newerJar] := by decide +kernel
  unfold FileTree.listedJars
  rw [hfound]
  dsimp only
  rw [List.mergeSort_singleton, ListedJar.dropRepeated]

theorem search_newer :
    ((platform.search tree "v2" none).run .empty).1 = .ok ⟨[file], none⟩ := by
  have hdirectory : platform.versionDirectory tree "v2" = "/p/v2" := by decide +kernel
  have hpage : platform.page tree [newerJar] 0 = .ok ⟨[file], none⟩ := by decide +kernel
  have hleads : tree.leadsToDirectory (platform.versionDirectory tree "v2") := by decide +kernel
  rw [LocalPlatform.search_at ListingMemory.recalls_empty hleads rfl, hdirectory, listedJars_newer,
    hpage]

end TwoVersions

namespace LocalPlatform

/-- The file that is listed for the version `v2` is looked for below the root, where the jar of the
other version comes first. -/
theorem listed_file_of_other_version : ∃ page later,
    (TwoVersions.platform.search TwoVersions.tree "v2" none).run .empty = (.ok page, later) ∧
      TwoVersions.file ∈ page.files ∧
      ¬∃ got, ((TwoVersions.platform.download TwoVersions.tree TwoVersions.file).run later).1 =
        .ok got ∧ TwoVersions.file.IsOf got := by
  have hroot : TwoVersions.tree.isPresent TwoVersions.platform.root := by decide +kernel
  have hlater : TwoVersions.platform.Asked TwoVersions.tree _ := .search "v2" none .nothing
  have hmem : TwoVersions.file ∈ [TwoVersions.file] := List.mem_singleton_self _
  refine ⟨⟨[TwoVersions.file], none⟩, _, Prod.ext TwoVersions.search_newer rfl, hmem, ?_⟩
  intro hgot
  obtain ⟨_, _, _, _, _, _, hiff, _⟩ :=
    listed_file_downloads_iff hroot .nothing hlater TwoVersions.search_newer hmem
  obtain ⟨first, got, hleast, _, hcontent, hright⟩ := hiff.mp hgot
  have hfound := hleast.found
  rw [TwoVersions.numberedJars_root, List.mem_pair] at hfound
  rcases hfound with rfl | rfl
  · have holder : (content TwoVersions.tree TwoVersions.olderJar).toOption.map ByteArray.size =
        some 1 := by decide +kernel
    rw [hcontent] at holder
    exact absurd (hright.2.symm.trans (Option.some.inj holder)) (by decide)
  · have hother : TwoVersions.olderJar ∈
        TwoVersions.tree.numberedJars TwoVersions.platform.root := by
      rw [TwoVersions.numberedJars_root]
      exact List.mem_cons_self
    exact absurd (hleast.least hother rfl) (by decide)

end LocalPlatform

end ModCatalog
