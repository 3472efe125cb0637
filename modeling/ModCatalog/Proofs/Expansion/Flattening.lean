import Mathlib.Data.List.Induction
import ModCatalog.Proofs.Expansion.Merge
import ModCatalog.Proofs.Version.Order

/-!
# Flattening

What is left of bundled forests when of each identifier one copy is kept.  Taking jars out of jars
is a descent that goes below a copy whether that copy is kept or not, so it meets every copy of the
forests, and it meets them in preorder.  The copies of one identifier do not see those of another,
and among themselves they are scanned once: a later copy only displaces the kept one if it is above
it.
-/

namespace ModCatalog

namespace Expansion

/-! ## The descent into a forest -/

mutual

/-- Keep the highest copies of a forest, jar after jar. -/
def descend (kept : Table String BundledCopy) : List BundledArtifact → Table String BundledCopy
  | [] => kept
  | (identifier, version, tree) :: rest => descend (descendTree kept identifier version tree) rest

/-- Keep a jar if it is the highest so far, and then go on below it in either case. -/
def descendTree (kept : Table String BundledCopy) (identifier : String) (version : Version) :
    ArtifactTree → Table String BundledCopy
  | .node root bundled => descend (keepHighest kept ⟨identifier, version, root⟩) bundled

end

mutual

theorem descend_eq_foldl (kept : Table String BundledCopy) (forest : List BundledArtifact) :
    descend kept forest = (preorder forest).foldl keepHighest kept := by
  match forest with
  | [] => rfl
  | (identifier, version, tree) :: rest =>
      unfold descend preorder
      rw [List.foldl_append, ← descendTree_eq_foldl kept identifier version tree]
      exact descend_eq_foldl _ rest

theorem descendTree_eq_foldl (kept : Table String BundledCopy) (identifier : String)
    (version : Version) (tree : ArtifactTree) :
    descendTree kept identifier version tree =
      (treeOrder identifier version tree).foldl keepHighest kept := by
  match tree with
  | .node root bundled =>
      unfold descendTree treeOrder
      exact descend_eq_foldl _ bundled

end

/-- The copies are taken out of the files one file after another, by descending into each. -/
theorem flatten_eq_descend (candidates : List Candidate) :
    flatten candidates =
      candidates.foldl (fun kept candidate => descend kept candidate.bundled) Table.empty := by
  unfold flatten
  rw [List.foldl_flatMap]
  simp only [descend_eq_foldl]

/-- Whether a copy lies somewhere in a forest. -/
inductive Bundles : List BundledArtifact → BundledCopy → Prop
  | outer {forest : List BundledArtifact} {identifier : String} {version : Version}
      {tree : ArtifactTree} (hmem : (identifier, version, tree) ∈ forest) :
      Bundles forest ⟨identifier, version, tree.root⟩
  | inner {forest : List BundledArtifact} {identifier : String} {version : Version}
      {tree : ArtifactTree} {copy : BundledCopy} (hmem : (identifier, version, tree) ∈ forest)
      (hcopy : Bundles tree.bundled copy) : Bundles forest copy

theorem Bundles.mono {forest larger : List BundledArtifact} {copy : BundledCopy}
    (h : Bundles forest copy) (hsubset : forest ⊆ larger) : Bundles larger copy := by
  cases h with
  | outer hmem => exact .outer (hsubset hmem)
  | inner hmem hcopy => exact .inner (hsubset hmem) hcopy

mutual

theorem bundles_of_mem_preorder {forest : List BundledArtifact} {copy : BundledCopy}
    (h : copy ∈ preorder forest) : Bundles forest copy := by
  match forest with
  | [] => cases h
  | (identifier, version, tree) :: rest =>
      unfold preorder at h
      rcases List.mem_append.mp h with hfirst | hrest
      · exact bundles_of_mem_treeOrder hfirst List.mem_cons_self
      · exact (bundles_of_mem_preorder hrest).mono (List.subset_cons_self _ _)

theorem bundles_of_mem_treeOrder {forest : List BundledArtifact} {identifier : String}
    {version : Version} {tree : ArtifactTree} {copy : BundledCopy}
    (h : copy ∈ treeOrder identifier version tree) (hmem : (identifier, version, tree) ∈ forest) :
    Bundles forest copy := by
  match tree with
  | .node root bundled =>
      unfold treeOrder at h
      rcases List.mem_cons.mp h with rfl | hbelow
      · exact .outer hmem
      · exact .inner hmem (bundles_of_mem_preorder hbelow)

end

theorem mem_treeOrder (identifier : String) (version : Version) (tree : ArtifactTree)
    (copy : BundledCopy) :
    copy ∈ treeOrder identifier version tree ↔
      copy = ⟨identifier, version, tree.root⟩ ∨ copy ∈ preorder tree.bundled := by
  cases tree with
  | node root bundled => simp [treeOrder, ArtifactTree.root, ArtifactTree.bundled]

theorem treeOrder_subset_preorder {forest : List BundledArtifact} {identifier : String}
    {version : Version} {tree : ArtifactTree} (h : (identifier, version, tree) ∈ forest) :
    treeOrder identifier version tree ⊆ preorder forest := by
  induction forest with
  | nil => cases h
  | cons first rest ih =>
      unfold preorder
      rcases List.mem_cons.mp h with rfl | hrest
      · exact List.subset_append_left _ _
      · exact List.Subset.trans (ih hrest) (List.subset_append_right _ _)

theorem mem_preorder_iff {forest : List BundledArtifact} {copy : BundledCopy} :
    copy ∈ preorder forest ↔ Bundles forest copy := by
  constructor
  · exact bundles_of_mem_preorder
  · intro h
    induction h with
    | outer hmem =>
        apply treeOrder_subset_preorder hmem
        exact (mem_treeOrder ..).mpr (Or.inl rfl)
    | inner hmem _ ih =>
        apply treeOrder_subset_preorder hmem
        exact (mem_treeOrder ..).mpr (Or.inr ih)

/-! ## The order of identifiers -/

/-- What the files bundle, each jar before those inside it. -/
def occurrences (candidates : List Candidate) : List BundledCopy :=
  candidates.flatMap fun candidate => preorder candidate.bundled

theorem mem_occurrences {candidates : List Candidate} {copy : BundledCopy} :
    copy ∈ occurrences candidates ↔ ∃ candidate ∈ candidates, Bundles candidate.bundled copy := by
  simp [occurrences, mem_preorder_iff]

theorem keys_keepHighest (kept : Table String BundledCopy) (copy : BundledCopy) :
    (keepHighest kept copy).keys =
      if copy.identifier ∈ kept.keys then kept.keys else kept.keys ++ [copy.identifier] := by
  unfold keepHighest
  cases hold : kept.get? copy.identifier with
  | none => exact Table.keys_put kept copy.identifier copy
  | some old =>
      have hmem : copy.identifier ∈ kept.keys := by simp [Table.mem_keys, hold]
      rw [if_pos hmem]
      dsimp only
      split
      · rw [Table.keys_put, if_pos hmem]
      · rfl

theorem eraseDups_concat (identifiers : List String) (identifier : String) :
    (identifiers ++ [identifier]).eraseDups =
      if identifier ∈ identifiers then identifiers.eraseDups
      else identifiers.eraseDups ++ [identifier] := by
  rw [List.eraseDups_append]
  by_cases hold : identifier ∈ identifiers
  · simp [List.removeAll, hold]
  · simp [List.removeAll, hold, List.eraseDups_cons]

/-- Identifiers stand in the order in which they are first met. -/
theorem keys_foldl_keepHighest (copies : List BundledCopy) :
    (copies.foldl keepHighest Table.empty).keys =
      (copies.map BundledCopy.identifier).eraseDups := by
  induction copies using List.reverseRecOn with
  | nil => rfl
  | append_singleton copies copy ih =>
      rw [List.foldl_concat, keys_keepHighest, ih, List.map_append, List.map_singleton,
        eraseDups_concat]
      simp only [List.mem_eraseDups]

/-! ## The copies of one identifier -/

/-- Keep a copy if there is none or if it is above the one that is kept. -/
def keepHigher (kept : Option BundledCopy) (copy : BundledCopy) : Option BundledCopy :=
  match kept with
  | none => some copy
  | some old => if copy.version.isAbove old.version then some copy else some old

/-- What a single scan leaves of copies. -/
def highest (copies : List BundledCopy) : Option BundledCopy := copies.foldl keepHigher none

/-- The copies of an identifier, each before those inside it. -/
def occurrencesOf (identifier : String) (candidates : List Candidate) : List BundledCopy :=
  (occurrences candidates).filter fun copy => copy.identifier = identifier

theorem get?_keepHighest (kept : Table String BundledCopy) (copy : BundledCopy)
    (identifier : String) :
    (keepHighest kept copy).get? identifier =
      if copy.identifier = identifier then keepHigher (kept.get? identifier) copy
      else kept.get? identifier := by
  unfold keepHighest
  by_cases hidentifier : copy.identifier = identifier
  · subst hidentifier
    cases hold : kept.get? copy.identifier with
    | none => simp [keepHigher]
    | some old =>
        by_cases habove : copy.version.isAbove old.version <;> simp [keepHigher, habove, hold]
  · have hother : identifier ≠ copy.identifier := Ne.symm hidentifier
    rw [if_neg hidentifier]
    split
    · simp [hother]
    · split <;> simp [hother]

/-- The copies of other identifiers do not matter for what is kept of one. -/
theorem get?_foldl_keepHighest (copies : List BundledCopy) (kept : Table String BundledCopy)
    (identifier : String) :
    (copies.foldl keepHighest kept).get? identifier =
      (copies.filter fun copy => copy.identifier = identifier).foldl keepHigher
        (kept.get? identifier) := by
  induction copies generalizing kept with
  | nil => rfl
  | cons copy rest ih =>
      rw [List.foldl_cons, ih, get?_keepHighest]
      by_cases hidentifier : copy.identifier = identifier
      · simp [hidentifier]
      · simp [hidentifier]

/-- Whether comparing versions is transitive on copies. -/
def AreOrdered (copies : List BundledCopy) : Prop :=
  ∀ low ∈ copies, ∀ middle ∈ copies, ∀ high ∈ copies,
    (low.version.compare middle.version).isLE → (middle.version.compare high.version).isLE →
      (low.version.compare high.version).isLE

instance (copies : List BundledCopy) : Decidable (AreOrdered copies) :=
  inferInstanceAs (Decidable (∀ low ∈ copies, ∀ middle ∈ copies, ∀ high ∈ copies, _ → _ → _))

/-- The first of the highest copies: above all before it, and none behind it is above it. -/
def IsFirstHighest (copies : List BundledCopy) (kept : BundledCopy) : Prop :=
  ∃ front back, copies = front ++ kept :: back ∧
    (∀ copy ∈ front, kept.version.isAbove copy.version) ∧
    ∀ copy ∈ back, ¬copy.version.isAbove kept.version

theorem highest_concat (copies : List BundledCopy) (copy : BundledCopy) :
    highest (copies ++ [copy]) = keepHigher (highest copies) copy :=
  List.foldl_concat _ _ _ _

theorem eq_nil_of_highest {copies : List BundledCopy} (h : highest copies = none) :
    copies = [] := by
  cases copies using List.reverseRecOn with
  | nil => rfl
  | append_singleton copies copy =>
      rw [highest_concat] at h
      unfold keepHigher at h
      split at h
      · cases h
      · split at h <;> cases h

/-- The scan keeps the first of the highest copies. -/
theorem isFirstHighest_of_highest {copies : List BundledCopy} {kept : BundledCopy}
    (hordered : AreOrdered copies) (h : highest copies = some kept) :
    IsFirstHighest copies kept := by
  induction copies using List.reverseRecOn generalizing kept with
  | nil => cases h
  | append_singleton copies copy ih =>
      rw [highest_concat] at h
      cases hold : highest copies with
      | none =>
          rw [hold] at h
          cases h
          rw [eq_nil_of_highest hold]
          exact ⟨[], [], rfl, List.forall_mem_nil _, List.forall_mem_nil _⟩
      | some old =>
          have hbefore : AreOrdered copies := by
            intro low hlow middle hmiddle high hhigh
            exact hordered low (List.mem_append_left _ hlow) middle
              (List.mem_append_left _ hmiddle) high (List.mem_append_left _ hhigh)
          obtain ⟨front, back, rfl, hfront, hback⟩ := ih hbefore hold
          rw [hold] at h
          unfold keepHigher at h
          dsimp only at h
          by_cases habove : copy.version.isAbove old.version
          · rw [if_pos habove] at h
            cases h
            refine ⟨front ++ old :: back, [], by simp, ?_, List.forall_mem_nil _⟩
            intro other hother
            -- Everything so far is at most the old copy, which the new one is above.
            have hbelow : (other.version.compare old.version).isLE := by
              rcases List.mem_append.mp hother with hmem | hmem
              · exact Version.isLE_of_isAbove (hfront other hmem)
              · rcases List.mem_cons.mp hmem with rfl | hmem
                · exact Version.isLE_compare_self _
                · have hnot := hback other hmem
                  rwa [Version.isAbove_iff, not_not] at hnot
            rw [Version.isAbove_iff] at habove ⊢
            intro hle
            apply habove
            exact hordered copy (by simp) other (List.mem_append_left _ hother) old (by simp)
              hle hbelow
          · rw [if_neg habove] at h
            cases h
            refine ⟨front, back ++ [copy], by simp, hfront, ?_⟩
            rw [List.forall_mem_append]
            exact ⟨hback, by simpa using habove⟩

/-- What joins the candidates is taken out of its jar, and the files are emptied. -/
theorem bundled_eq_nil_of_mem_expand {candidates : List Candidate}
    {listed : Table String PlatformLink} {other : Candidate}
    (h : other ∈ expand candidates listed) : other.bundled = [] := by
  obtain ⟨kept, added, hperm, hkept, hadded⟩ := extends_expand candidates listed
  rcases List.mem_append.mp (hperm.mem_iff.mp h) with hfile | hcopy
  · refine Continues.forall_mem hkept (fun _ _ h hfile => h.bare hfile) ?_ other hfile
    simp [bareFiles]
  · exact (hadded other hcopy).1

end Expansion

open Expansion

/-- Of each identifier that occurs in the bundled forests one copy is kept, in the order in which
identifiers are first met: the one that a scan of the identifier's copies leaves, which is the first
of the highest ones wherever comparing their versions is transitive. -/
theorem flatten_keeps_highest (candidates : List Candidate) :
    (flatten candidates).keys =
        ((occurrences candidates).map BundledCopy.identifier).eraseDups ∧
      (flatten candidates).keys.Nodup ∧
      (∀ identifier, identifier ∈ (flatten candidates).keys ↔
        ∃ candidate ∈ candidates, ∃ copy, Bundles candidate.bundled copy ∧
          copy.identifier = identifier) ∧
      (∀ identifier, (flatten candidates).get? identifier =
        highest (occurrencesOf identifier candidates)) ∧
      (∀ identifier, AreOrdered (occurrencesOf identifier candidates) →
        ∀ kept, (flatten candidates).get? identifier = some kept →
          IsFirstHighest (occurrencesOf identifier candidates) kept) ∧
      ∀ listed, ∀ candidate ∈ expand candidates listed, candidate.bundled = [] := by
  have hkeys : (flatten candidates).keys =
      ((occurrences candidates).map BundledCopy.identifier).eraseDups :=
    keys_foldl_keepHighest (occurrences candidates)
  have hkept : ∀ identifier, (flatten candidates).get? identifier =
      highest (occurrencesOf identifier candidates) :=
    get?_foldl_keepHighest (occurrences candidates) Table.empty
  refine ⟨hkeys, (isKept_flatten candidates).nodup, ?_, hkept, ?_,
    fun listed other => bundled_eq_nil_of_mem_expand⟩
  · intro identifier
    rw [hkeys, List.mem_eraseDups, List.mem_map]
    simp only [mem_occurrences]
    constructor
    · rintro ⟨copy, ⟨candidate, hcandidate, hcopy⟩, hidentifier⟩
      exact ⟨candidate, hcandidate, copy, hcopy, hidentifier⟩
    · rintro ⟨candidate, hcandidate, copy, hcopy, hidentifier⟩
      exact ⟨copy, ⟨candidate, hcandidate, hcopy⟩, hidentifier⟩
  · intro identifier hordered kept h
    rw [hkept] at h
    exact isFirstHighest_of_highest hordered h

namespace Nested

def library (hash : String) : Artifact :=
  ⟨"library", ⟨"1"⟩, none, hash, [], .library, none, [], ByteArray.empty⟩

/-- A jar whose inner copy of the same identifier is above it, and level with the next jar. -/
def forest : List BundledArtifact :=
  [("a:lib", ⟨"1.0"⟩, .node (library "outer")
      [("a:core", ⟨"3"⟩, .node (library "core") []),
        ("a:lib", ⟨"2.0"⟩, .node (library "inner") [])]),
    ("a:lib", ⟨"2"⟩, .node (library "later") [])]

def outerCopy : BundledCopy := ⟨"a:lib", ⟨"1.0"⟩, library "outer"⟩

def innerCopy : BundledCopy := ⟨"a:lib", ⟨"2.0"⟩, library "inner"⟩

def laterCopy : BundledCopy := ⟨"a:lib", ⟨"2"⟩, library "later"⟩

def file : Candidate := ⟨library "file", forest, some ⟨"local", 1, 10⟩, none⟩

/-- Each version is a single number. -/
theorem items_copies :
    outerCopy.version.items = [.number 1] ∧ innerCopy.version.items = [.number 2] ∧
      laterCopy.version.items = [.number 2] := by
  decide

theorem areOrdered_copies : AreOrdered [outerCopy, innerCopy, laterCopy] := by
  obtain ⟨houter, hinner, hlater⟩ := items_copies
  have hnumbers : ∀ copy ∈ [outerCopy, innerCopy, laterCopy],
      ∃ n, copy.version.items = [.number n] := by
    simp only [List.forall_mem_cons, List.not_mem_nil, false_implies, implies_true, and_true]
    exact ⟨⟨1, houter⟩, ⟨2, hinner⟩, ⟨2, hlater⟩⟩
  intro low hlow middle hmiddle high hhigh
  obtain ⟨a, ha⟩ := hnumbers low hlow
  obtain ⟨b, hb⟩ := hnumbers middle hmiddle
  obtain ⟨c, hc⟩ := hnumbers high hhigh
  simp only [Version.compare, ha, hb, hc, Version.compareItems, VersionItem.compareItem,
    Ordering.then_eq, Nat.isLE_compare]
  exact Nat.le_trans

theorem highest_copies : highest [outerCopy, innerCopy, laterCopy] = some innerCopy := by
  obtain ⟨houter, hinner, hlater⟩ := items_copies
  have habove : innerCopy.version.isAbove outerCopy.version = true := by
    simp only [Version.isAbove, Version.compare, houter, hinner, Version.compareItems]
    rfl
  have hlevel : laterCopy.version.isAbove innerCopy.version = false := by
    simp only [Version.isAbove, Version.compare, hlater, hinner, Version.compareItems]
    rfl
  simp only [highest, List.foldl_cons, List.foldl_nil, keepHigher, habove, hlevel, if_true,
    Bool.false_eq_true, if_false]

end Nested

open Nested

/-- The inner copy displaces the jar around it, and the later one does not displace it. -/
theorem flatten_keeps_inner :
    (flatten [file]).keys = ["a:lib", "a:core"] ∧
      AreOrdered (occurrencesOf "a:lib" [file]) ∧
      IsFirstHighest (occurrencesOf "a:lib" [file]) ⟨"a:lib", ⟨"2.0"⟩, library "inner"⟩ := by
  obtain ⟨hkeys, -, -, hkept, hhighest, -⟩ := flatten_keeps_highest [file]
  have hcopies : occurrencesOf "a:lib" [file] = [outerCopy, innerCopy, laterCopy] := rfl
  have hordered : AreOrdered (occurrencesOf "a:lib" [file]) := by
    rw [hcopies]
    exact areOrdered_copies
  have hget : (flatten [file]).get? "a:lib" = some innerCopy := by
    rw [hkept, hcopies, highest_copies]
  exact ⟨hkeys.trans rfl, hordered, hhighest "a:lib" hordered _ hget⟩

end ModCatalog
