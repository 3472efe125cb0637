import Mathlib.Tactic.SplitIfs
import ModCatalog.Files.Tree
import ModCatalog.Proofs.Answers

/-!
# Removed files

No way leads through a file.  So if a file is removed, exactly the written paths that lead to it
lead there no longer, and nothing can be read under them.
-/

namespace ModCatalog

namespace FileTree

variable {tree : FileTree} {place first next : Path} {text : String} {content : ByteArray}

/-- A tree without what is at a place. -/
def without (tree : FileTree) (place : Path) : FileTree :=
  { tree with nodes := tree.nodes.erase place }

theorem node?_without (tree : FileTree) {place : Path} (hplace : place ≠ []) (other : Path) :
    (tree.without place).node? other = if other = place then none else tree.node? other := by
  unfold node? without
  by_cases hroot : other = []
  · rw [if_pos hroot, if_pos hroot, if_neg]
    rintro rfl
    exact hplace hroot
  · rw [if_neg hroot, if_neg hroot, Table.get?_erase]

theorem node?_of_without {other : Path} {node : FileNode}
    (h : (tree.without place).node? other = some node) : tree.node? other = some node := by
  unfold node? without at h
  unfold node?
  by_cases hroot : other = []
  · rw [if_pos hroot] at h ⊢
    exact h
  · rw [if_neg hroot, Table.get?_erase] at h
    rw [if_neg hroot]
    split at h
    · cases h
    · exact h

theorem contains_of_without {other : Path} (h : (tree.without place).contains other) :
    tree.contains other := by
  obtain ⟨node, hnode⟩ := Option.isSome_iff_exists.mp h
  exact Option.isSome_iff_exists.mpr ⟨node, node?_of_without hnode⟩

theorem isDirectory_of_without {other : Path} (h : (tree.without place).isDirectory other) :
    tree.isDirectory other := by
  unfold isDirectory at h ⊢
  rw [beq_iff_eq] at h ⊢
  exact node?_of_without h

/-- The root is no file. -/
theorem ne_nil_of_isDirectory_eq_false (h : tree.isDirectory place = false) : place ≠ [] := by
  rintro rfl
  simp [isDirectory, node?] at h

/-- Where a name leads from a place. -/
theorem enter_eq_ok_iff {name : String} : tree.enter place name = .ok next ↔
    tree.isDirectory place ∧
      if Path.isStay name then place = next
      else if name = Path.backPart then place.dropLast = next
      else name.utf8ByteSize ≤ maxNameLength ∧ tree.contains (place ++ [name]) ∧
        place ++ [name] = next := by
  unfold enter follow
  dsimp only
  split_ifs <;> simp_all [Nat.not_le_of_lt]

/-- A step that leads on in a tree with something less leads on in the whole tree. -/
theorem enter_of_without {name : String}
    (h : (tree.without place).enter first name = .ok next) : tree.enter first name = .ok next := by
  rw [enter_eq_ok_iff] at h ⊢
  obtain ⟨hdirectory, hnext⟩ := h
  refine ⟨isDirectory_of_without hdirectory, ?_⟩
  split_ifs at hnext ⊢
  · exact hnext
  · exact hnext
  · obtain ⟨hlength, hcontains, hsame⟩ := hnext
    exact ⟨hlength, contains_of_without hcontains, hsame⟩

theorem foldlM_enter_of_without {names : List String}
    (h : names.foldlM (tree.without place).enter first = .ok next) :
    names.foldlM tree.enter first = .ok next := by
  induction names generalizing first with
  | nil => exact h
  | cons name rest ih =>
      rw [List.foldlM_cons] at h ⊢
      obtain ⟨between, henter, hrest⟩ := bind_eq_ok.mp h
      rw [enter_of_without henter]
      exact ih hrest

theorem find_of_without (h : (tree.without place).find text = .ok next) :
    tree.find text = .ok next := by
  unfold find at h ⊢
  obtain ⟨value, hcheck, hnames⟩ := bind_eq_ok.mp h
  rw [hcheck]
  exact foldlM_enter_of_without hnames

/-! ## What still leads on -/

theorem isDirectory_without (hfile : tree.isDirectory place = false) (other : Path) :
    (tree.without place).isDirectory other = tree.isDirectory other := by
  unfold isDirectory
  rw [node?_without tree (ne_nil_of_isDirectory_eq_false hfile)]
  split
  · next hsame =>
      rw [hsame]
      exact hfile.symm
  · rfl

theorem enter_without (hfile : tree.isDirectory place = false) (hnext : next ≠ place)
    {name : String} (h : tree.enter first name = .ok next) :
    (tree.without place).enter first name = .ok next := by
  rw [enter_eq_ok_iff] at h ⊢
  obtain ⟨hdirectory, hstep⟩ := h
  refine ⟨(isDirectory_without hfile first).trans hdirectory, ?_⟩
  split_ifs at hstep ⊢
  · exact hstep
  · exact hstep
  · obtain ⟨hlength, hcontains, rfl⟩ := hstep
    refine ⟨hlength, ?_, rfl⟩
    unfold contains
    rw [node?_without tree (ne_nil_of_isDirectory_eq_false hfile), if_neg hnext]
    exact hcontains

/-- Where names lead away from is a directory. -/
theorem isDirectory_of_foldlM_enter {names : List String}
    (h : names.foldlM tree.enter first = .ok next) (hmoved : first ≠ next) :
    tree.isDirectory first := by
  cases names with
  | nil => exact absurd (Except.ok.inj h) hmoved
  | cons name rest =>
      rw [List.foldlM_cons] at h
      obtain ⟨between, henter, _⟩ := bind_eq_ok.mp h
      exact (enter_eq_ok_iff.mp henter).1

theorem foldlM_enter_without (hfile : tree.isDirectory place = false) (hnext : next ≠ place)
    {names : List String} (h : names.foldlM tree.enter first = .ok next) :
    names.foldlM (tree.without place).enter first = .ok next := by
  induction names generalizing first with
  | nil => exact h
  | cons name rest ih =>
      rw [List.foldlM_cons] at h ⊢
      obtain ⟨between, henter, hrest⟩ := bind_eq_ok.mp h
      have hbetween : between ≠ place := by
        rintro rfl
        rw [isDirectory_of_foldlM_enter hrest hnext.symm] at hfile
        cases hfile
      rw [enter_without hfile hbetween henter]
      exact ih hrest

/-! ## Files -/

/-- Whether a written path leads to a file at a place. -/
structure LeadsTo (tree : FileTree) (text : String) (place : Path) (content : ByteArray) :
    Prop where
  find : tree.find text = .ok place
  file : tree.node? place = some (.file content)

/-- What can be read is a file that the path leads to. -/
theorem read_eq_ok_iff : tree.read text = .ok content ↔ ∃ place, tree.LeadsTo text place content := by
  unfold read
  constructor
  · intro h
    obtain ⟨place, hfind, hnode⟩ := bind_eq_ok.mp h
    refine ⟨place, hfind, ?_⟩
    split at hnode
    · next hfile =>
        cases hnode
        exact hfile
    · cases hnode
    · cases hnode
  · rintro ⟨place, hfind, hfile⟩
    rw [hfind, ok_bind, hfile]
    rfl

theorem LeadsTo.isDirectory_eq_false (h : tree.LeadsTo text place content) :
    tree.isDirectory place = false := by
  rw [isDirectory, h.file]
  rfl

theorem leadsTo_without_iff (hfile : tree.isDirectory place = false) :
    (tree.without place).LeadsTo text next content ↔
      tree.LeadsTo text next content ∧ next ≠ place := by
  have hplace := ne_nil_of_isDirectory_eq_false hfile
  constructor
  · rintro ⟨hfind, hnode⟩
    refine ⟨⟨find_of_without hfind, node?_of_without hnode⟩, ?_⟩
    rintro rfl
    rw [node?_without tree hplace, if_pos rfl] at hnode
    cases hnode
  · rintro ⟨⟨hfind, hnode⟩, hnext⟩
    refine ⟨?_, ?_⟩
    · unfold find at hfind ⊢
      obtain ⟨value, hcheck, hnames⟩ := bind_eq_ok.mp hfind
      rw [hcheck]
      exact foldlM_enter_without hfile hnext hnames
    · rw [node?_without tree hplace, if_neg hnext]
      exact hnode

/-- Only a file can be removed. -/
theorem after_removeFile (tree : FileTree) (text : String) :
    tree.after (.removeFile text) =
      match tree.find text with
      | .error _ => tree
      | .ok place => if tree.isDirectory place then tree else tree.without place := by
  have hsteps : tree.after (.removeFile text) =
      ((FileChange.ofExcept (tree.find text) >>= fun place => do
        if tree.isDirectory place then throw .isDirectory
        set (tree.without place) : FileChange Unit).run.run tree).2 := rfl
  rw [hsteps]
  cases tree.find text with
  | error failure => rfl
  | ok place =>
      have hplace : FileChange.ofExcept (.ok place) = pure place := rfl
      rw [hplace, pure_bind]
      cases hdirectory : tree.isDirectory place <;> simp only [hdirectory] <;> rfl

/-- Removing what a path leads to takes this file and no other one. -/
theorem leadsTo_after_removeFile_iff {removed : String} :
    (tree.after (.removeFile removed)).LeadsTo text place content ↔
      tree.LeadsTo text place content ∧ tree.find removed ≠ .ok place := by
  rw [after_removeFile]
  cases hfind : tree.find removed with
  | error failure => simp
  | ok gone =>
      dsimp only
      cases hdirectory : tree.isDirectory gone with
      | true =>
          rw [if_pos rfl, iff_self_and]
          intro hleads hsame
          rw [Except.ok.inj hsame, hleads.isDirectory_eq_false] at hdirectory
          cases hdirectory
      | false =>
          rw [if_neg Bool.false_ne_true, leadsTo_without_iff hdirectory]
          refine and_congr_right' (not_congr ⟨?_, ?_⟩)
          · rintro rfl
            rfl
          · intro hsame
            exact (Except.ok.inj hsame).symm

/-- Once a file is removed, nothing can be read under its path. -/
theorem read_after_removeFile (tree : FileTree) (text : String) (content : ByteArray) :
    (tree.after (.removeFile text)).read text ≠ .ok content := by
  intro hread
  obtain ⟨place, hleads⟩ := read_eq_ok_iff.mp hread
  obtain ⟨hbefore, hgone⟩ := leadsTo_after_removeFile_iff.mp hleads
  exact hgone hbefore.find

end FileTree

end ModCatalog
