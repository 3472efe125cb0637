import Mathlib.Data.List.Lex
import Mathlib.Data.String.Basic
import ModCatalog.Platform.Local
import ModCatalog.Proofs.Artifact.Labels

/-!
# Listings of jars

A listing has its jars in order, and of several with the same numbers the one with the least path.
-/

namespace ModCatalog

namespace ListedJar

def hasNumbers (projectId fileId : Nat) (jar : ListedJar) : Bool :=
  jar.projectId = projectId && jar.fileId = fileId

theorem hasNumbers_iff {projectId fileId : Nat} {jar : ListedJar} :
    jar.hasNumbers projectId fileId ↔ jar.projectId = projectId ∧ jar.fileId = fileId := by
  simp [hasNumbers]

theorem hasNumbers_self (jar : ListedJar) : jar.hasNumbers jar.projectId jar.fileId :=
  hasNumbers_iff.mpr ⟨rfl, rfl⟩

theorem sameNumbers_iff {a b : ListedJar} :
    a.sameNumbers b ↔ a.projectId = b.projectId ∧ a.fileId = b.fileId := by
  simp [sameNumbers]

/-! ## The order -/

theorem isBefore_iff {a b : ListedJar} :
    isBefore a b ↔ a.projectId < b.projectId ∨ a.projectId = b.projectId ∧
      (a.fileId < b.fileId ∨ a.fileId = b.fileId ∧ a.path ≤ b.path) := by
  simp [isBefore]

theorem isBefore_trans (a b c : ListedJar) (hab : isBefore a b) (hbc : isBefore b c) :
    isBefore a c := by
  rw [isBefore_iff] at hab hbc ⊢
  rcases hab with hproject | ⟨hproject, hfile | ⟨hfile, hpath⟩⟩ <;>
    rcases hbc with hproject' | ⟨hproject', hfile' | ⟨hfile', hpath'⟩⟩
  case inr.inr.inr.inr => exact Or.inr ⟨hproject.trans hproject', Or.inr
    ⟨hfile.trans hfile', hpath.trans hpath'⟩⟩
  all_goals omega

theorem isBefore_total (a b : ListedJar) : isBefore a b || isBefore b a := by
  rw [Bool.or_eq_true, isBefore_iff, isBefore_iff]
  rcases le_total a.path b.path with hpath | hpath <;> grind

/-- Whether each jar of a list is before all that follow. -/
def IsOrdered (jars : List ListedJar) : Prop := jars.Pairwise fun a b => isBefore a b

theorem isOrdered_mergeSort (jars : List ListedJar) : IsOrdered (jars.mergeSort isBefore) :=
  List.pairwise_mergeSort isBefore_trans isBefore_total jars

/-! ## Repeated numbers -/

theorem find?_cons_of_sameNumbers {first next : ListedJar} (hsame : first.sameNumbers next)
    (projectId fileId : Nat) (rest : List ListedJar) :
    (first :: next :: rest).find? (hasNumbers projectId fileId) =
      (first :: rest).find? (hasNumbers projectId fileId) := by
  obtain ⟨hproject, hfile⟩ := sameNumbers_iff.mp hsame
  have hnumbers : next.hasNumbers projectId fileId = first.hasNumbers projectId fileId := by
    unfold hasNumbers
    rw [hproject, hfile]
  cases hfirst : first.hasNumbers projectId fileId with
  | true => rw [List.find?_cons_of_pos hfirst, List.find?_cons_of_pos hfirst]
  | false => simp [hfirst, hnumbers]

/-- What is dropped was not the first with its numbers. -/
theorem find?_dropRepeated (projectId fileId : Nat) (jars : List ListedJar) :
    (dropRepeated jars).find? (hasNumbers projectId fileId) =
      jars.find? (hasNumbers projectId fileId) := by
  fun_induction dropRepeated jars with
  | case1 => rfl
  | case2 jar => rfl
  | case3 jar next rest hsame ih => rw [ih, find?_cons_of_sameNumbers hsame]
  | case4 jar next rest _ ih =>
      rw [List.find?_cons, ih]
      exact List.find?_cons.symm

theorem mem_of_mem_dropRepeated {jars : List ListedJar} {jar : ListedJar}
    (hmem : jar ∈ dropRepeated jars) : jar ∈ jars := by
  fun_induction dropRepeated jars with
  | case1 => exact hmem
  | case2 first => exact hmem
  | case3 first next rest _ ih =>
      rcases List.mem_cons.mp (ih hmem) with rfl | hrest
      · exact List.mem_cons_self
      · exact List.mem_cons_of_mem _ (List.mem_cons_of_mem _ hrest)
  | case4 first next rest _ ih =>
      rcases List.mem_cons.mp hmem with rfl | hlater
      · exact List.mem_cons_self
      · exact List.mem_cons_of_mem _ (ih hlater)

/-- In an ordered list, a jar that is not dropped is the first with its numbers. -/
theorem find?_of_mem_dropRepeated {jars : List ListedJar} (hordered : IsOrdered jars)
    {jar : ListedJar} (hmem : jar ∈ dropRepeated jars) :
    jars.find? (hasNumbers jar.projectId jar.fileId) = some jar := by
  fun_induction dropRepeated jars with
  | case1 => cases hmem
  | case2 first =>
      obtain rfl := List.mem_singleton.mp hmem
      exact List.find?_cons_of_pos (hasNumbers_self _)
  | case3 first next rest hsame ih =>
      have hshorter : IsOrdered (first :: rest) :=
        hordered.sublist ((List.sublist_cons_self next rest).cons_cons first)
      rw [find?_cons_of_sameNumbers hsame]
      exact ih hshorter hmem
  | case4 first next rest hdiffer ih =>
      obtain ⟨hbefore, hrest⟩ := List.pairwise_cons.mp hordered
      rcases List.mem_cons.mp hmem with rfl | hlater
      · exact List.find?_cons_of_pos (hasNumbers_self _)
      · have hfirst : ¬first.hasNumbers jar.projectId jar.fileId := by
          intro hnumbers
          -- what lies between two jars with the same numbers has these numbers too
          have hnext := isBefore_iff.mp (hbefore next List.mem_cons_self)
          have hjar : next = jar ∨ isBefore next jar := by
            rcases List.mem_cons.mp (mem_of_mem_dropRepeated hlater) with rfl | hafter
            · exact Or.inl rfl
            · exact Or.inr ((List.pairwise_cons.mp hrest).1 jar hafter)
          rw [isBefore_iff] at hjar
          rw [hasNumbers_iff] at hnumbers
          rw [sameNumbers_iff] at hdiffer
          grind
        rw [List.find?_cons_of_neg hfirst]
        exact ih hrest hlater

end ListedJar

/-! ## What is listed -/

/-- All jars with numbers that a search of a written path finds. -/
def FileTree.numberedJars (tree : FileTree) (base : String) : List ListedJar :=
  (tree.jars base).filterMap ListedJar.ofPath?

/-- Whether a jar has the least path of all with its numbers that a search of a written path
finds. -/
structure FileTree.FindsFirst (tree : FileTree) (base : String) (jar : ListedJar) : Prop where
  found : jar ∈ tree.numberedJars base
  least {other : ListedJar} : other ∈ tree.numberedJars base →
    other.hasNumbers jar.projectId jar.fileId → jar.path ≤ other.path

namespace FileTree

open ListedJar

variable {tree : FileTree} {base : String} {jar other : ListedJar} {projectId fileId : Nat}

theorem FindsFirst.eq (hjar : tree.FindsFirst base jar) (hother : tree.FindsFirst base other)
    (hnumbers : jar.hasNumbers other.projectId other.fileId) : jar = other := by
  obtain ⟨hproject, hfile⟩ := hasNumbers_iff.mp hnumbers
  have hpath : jar.path = other.path := by
    apply le_antisymm
    · exact hjar.least hother.found (hasNumbers_iff.mpr ⟨hproject.symm, hfile.symm⟩)
    · exact hother.least hjar.found hnumbers
  cases jar
  cases other
  simp_all

theorem findsFirst_of_find? (hfound : (tree.listedJars base).find? (hasNumbers projectId fileId) =
    some jar) : jar.hasNumbers projectId fileId ∧ tree.FindsFirst base jar := by
  unfold listedJars at hfound
  rw [find?_dropRepeated] at hfound
  have hordered := isOrdered_mergeSort (tree.numberedJars base)
  obtain ⟨hnumbers, front, rest, hsplit, hfront⟩ := List.find?_eq_some_iff_append.mp hfound
  have hsorted : (tree.numberedJars base).mergeSort isBefore = front ++ jar :: rest := hsplit
  rw [hsorted] at hordered
  obtain ⟨hproject, hfile⟩ := hasNumbers_iff.mp hnumbers
  refine ⟨hnumbers, ?_, ?_⟩
  · rw [← List.mem_mergeSort, hsorted]
    simp
  · intro other hother hsame
    rw [← List.mem_mergeSort, hsorted, List.mem_append, List.mem_cons] at hother
    rcases hother with hbefore | rfl | hafter
    · have hno := hfront other hbefore
      rw [hproject, hfile] at hsame
      simp [hsame] at hno
    · exact le_refl _
    · have hnext := (List.pairwise_cons.mp (List.pairwise_append.mp hordered).2.1).1 other hafter
      have hequal := hasNumbers_iff.mp hsame
      rw [isBefore_iff] at hnext
      grind

theorem exists_findsFirst (hfound : jar ∈ tree.numberedJars base) :
    ∃ first, (tree.listedJars base).find? (hasNumbers jar.projectId jar.fileId) = some first := by
  unfold listedJars
  rw [find?_dropRepeated, ← Option.isSome_iff_exists, List.find?_isSome]
  exact ⟨jar, List.mem_mergeSort.mpr hfound, hasNumbers_self jar⟩

/-- A listing has the first of the jars with each pair of numbers. -/
theorem mem_listedJars_iff : jar ∈ tree.listedJars base ↔ tree.FindsFirst base jar := by
  constructor
  · intro hmem
    have hfirst := find?_of_mem_dropRepeated (isOrdered_mergeSort (tree.numberedJars base)) hmem
    rw [← find?_dropRepeated] at hfirst
    exact (findsFirst_of_find? hfirst).2
  · intro hfirst
    obtain ⟨other, hother⟩ := exists_findsFirst hfirst.found
    obtain ⟨hnumbers, hleast⟩ := findsFirst_of_find? hother
    obtain rfl := hleast.eq hfirst hnumbers
    exact List.mem_of_find?_eq_some hother

theorem find?_listedJars_eq_some_iff :
    (tree.listedJars base).find? (hasNumbers projectId fileId) = some jar ↔
      tree.FindsFirst base jar ∧ jar.hasNumbers projectId fileId := by
  constructor
  · intro hfound
    exact (findsFirst_of_find? hfound).symm
  · rintro ⟨hfirst, hnumbers⟩
    have hjar := find?_of_mem_dropRepeated (isOrdered_mergeSort (tree.numberedJars base))
      (mem_listedJars_iff.mpr hfirst)
    obtain ⟨rfl, rfl⟩ := hasNumbers_iff.mp hnumbers
    rw [← find?_dropRepeated] at hjar
    exact hjar

end FileTree

/-! ## Pages -/

namespace LocalPlatform

variable (platform : LocalPlatform) {tree : FileTree}

theorem describe_eq_ok {jar : ListedJar} {file : PlatformFile}
    (hfile : platform.describe tree jar = .ok file) :
    ∃ bytes, content tree jar = .ok bytes ∧
      file.link = ⟨platform.name, jar.projectId, jar.fileId⟩ ∧ file.hash = contentHash bytes ∧
      file.length = bytes.size := by
  unfold describe at hfile
  split at hfile
  · cases hfile
  · next bytes hcontent =>
      cases hfile
      exact ⟨bytes, hcontent, rfl, rfl, rfl⟩

theorem yields_page (jars : List ListedJar) (first : Nat) :
    Yields (platform.page tree jars first) fun page =>
      ∀ file ∈ page.files, ∃ jar ∈ jars, platform.describe tree jar = .ok file := by
  have hfiles : ∀ shown : List ListedJar, shown ⊆ jars →
      Yields (shown.mapM (platform.describe tree)) fun files =>
        ∀ file ∈ files, ∃ jar ∈ jars, platform.describe tree jar = .ok file :=
    fun shown hshown => yields_mapM shown fun jar hjar file hfile => ⟨jar, hshown hjar, hfile⟩
  unfold page
  split
  · exact nofun
  · refine (hfiles _ ?_).bind fun files hdescribed => yields_pure hdescribed
    exact List.Subset.trans (List.drop_subset _ _) (List.take_subset _ _)

/-- The files of a page are described from the listing of the version directory. -/
theorem described_of_search {version : String} {token : Option String} {memory : ListingMemory}
    {page : SearchPage} (hpage : ((platform.search tree version token).run memory).1 = .ok page) :
    tree.leadsToDirectory (platform.versionDirectory tree version) ∧ ∀ file ∈ page.files,
      ∃ jar ∈ ((listing tree (platform.versionDirectory tree version)).run memory).1,
        platform.describe tree jar = .ok file := by
  unfold search at hpage
  dsimp only at hpage
  split at hpage
  · cases hpage
  · next hdirectory =>
      split at hpage
      · cases hpage
      · next first _ => exact ⟨by simpa using hdirectory, platform.yields_page _ first page hpage⟩

end LocalPlatform

end ModCatalog
