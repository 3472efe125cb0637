import Mathlib.Data.List.Nodup
import ModCatalog.Proofs.Artifact.Labels
import ModCatalog.Proofs.Expansion.Visits

/-!
# Names of candidates

A candidate can be found by the coordinate of its content and by one learned from a bundled copy.
Each of these names comes from one bundled copy, and of each identifier one copy is kept, so no
name occurs twice among the candidates of a batch.
-/

namespace ModCatalog

/-- The coordinates that a candidate states. -/
def Candidate.names (candidate : Candidate) : List String :=
  candidate.artifact.coordinate.toList ++ candidate.extraCoordinate.toList

/-- Whether a candidate has a listing or a coordinate. -/
def Candidate.isPlaced (candidate : Candidate) : Bool :=
  candidate.link.isSome || candidate.artifact.coordinate.isSome

/-- Whether a candidate is a file of a platform that was just read. -/
structure Candidate.IsFile (candidate : Candidate) : Prop where
  link : candidate.link.isSome
  coordinate : candidate.artifact.coordinate = none
  extraCoordinate : candidate.extraCoordinate = none
  labelled : ∀ copy ∈ Expansion.preorder candidate.bundled,
    copy.artifact.coordinate = some copy.identifier

namespace Expansion

/-- How often candidates state a name. -/
def countName (name : String) (candidates : List Candidate) : Nat :=
  (candidates.flatMap Candidate.names).count name

section Count

variable (name : String)

@[simp] theorem countName_nil : countName name [] = 0 := rfl

theorem countName_cons (candidate : Candidate) (rest : List Candidate) :
    countName name (candidate :: rest) = candidate.names.count name + countName name rest := by
  simp [countName]

theorem countName_append (candidates more : List Candidate) :
    countName name (candidates ++ more) = countName name candidates + countName name more := by
  simp [countName]

theorem count_names (candidate : Candidate) :
    candidate.names.count name = candidate.artifact.coordinate.toList.count name +
      candidate.extraCoordinate.toList.count name := by
  simp [Candidate.names]

theorem countName_perm {candidates others : List Candidate} (h : candidates.Perm others) :
    countName name candidates = countName name others :=
  (h.flatMap_right Candidate.names).count_eq name

theorem countName_giveCoordinate_le (hash identifier : String) (candidates : List Candidate) :
    countName name (giveCoordinate hash identifier candidates) ≤
      countName name candidates + [identifier].count name := by
  induction candidates with
  | nil => simp [giveCoordinate]
  | cons candidate rest ih =>
      unfold giveCoordinate
      split
      · simp only [countName_cons, count_names]
        cases candidate.extraCoordinate with
        | none =>
            simp
            omega
        | some old => simp
      · simp only [countName_cons]
        omega

theorem countName_giveCoordinates_le (candidates : List Candidate) (copies : List BundledCopy) :
    countName name (giveCoordinates candidates copies) ≤
      countName name candidates + (copies.map BundledCopy.identifier).count name := by
  unfold giveCoordinates
  induction copies generalizing candidates with
  | nil => simp
  | cons copy rest ih =>
      have hone :=
        countName_giveCoordinate_le name copy.artifact.contentHash copy.identifier candidates
      have hrest := ih (giveCoordinate copy.artifact.contentHash copy.identifier candidates)
      have hsplit : ((copy :: rest).map BundledCopy.identifier).count name =
          [copy.identifier].count name + (rest.map BundledCopy.identifier).count name := by
        rw [← List.count_append]
        rfl
      rw [List.foldl_cons, hsplit]
      omega

theorem countName_addBundled_le (listed : Table String PlatformLink) (buckets : Buckets)
    {copy : BundledCopy} (hcopy : copy.artifact.coordinate = some copy.identifier) :
    countName name (buckets.addBundled listed copy).toList ≤
      countName name buckets.toList + [copy.identifier].count name := by
  cases buckets.merges_addBundled listed copy with
  | joined hfind hafter =>
      have hnames : (copy.candidate listed).names.count name = [copy.identifier].count name := by
        simp [count_names, BundledCopy.candidate, hcopy]
      rw [countName_perm name hafter, countName_cons, hnames]
      omega
  | tookOver hidentity hfind hsame hnewer hbefore hafter =>
      rw [hbefore, hafter]
      simp only [countName_append, countName_cons, count_names, Buckets.takeOver,
        BundledCopy.candidate, hcopy, Option.toList_some]
      omega
  | passedOver hidentity hfind hsame hmem hnewer hafter =>
      rw [hafter]
      omega

theorem countName_foldl_addBundled_le (listed : Table String PlatformLink)
    (copies : List BundledCopy) (buckets : Buckets)
    (hcopies : ∀ copy ∈ copies, copy.artifact.coordinate = some copy.identifier) :
    countName name (copies.foldl (Buckets.addBundled listed) buckets).toList ≤
      countName name buckets.toList + (copies.map BundledCopy.identifier).count name := by
  induction copies generalizing buckets with
  | nil => simp
  | cons copy rest ih =>
      obtain ⟨hcopy, hrest⟩ := List.forall_mem_cons.mp hcopies
      have hone := countName_addBundled_le name listed buckets hcopy
      have hmore := ih (buckets.addBundled listed copy) hrest
      have hsplit : ((copy :: rest).map BundledCopy.identifier).count name =
          [copy.identifier].count name + (rest.map BundledCopy.identifier).count name := by
        rw [← List.count_append]
        rfl
      rw [List.foldl_cons, hsplit]
      omega

end Count

/-! ## Which copies are kept -/

/-- Kept copies stand under their identifiers, each once, and come from the given ones. -/
structure IsKept (copies : List BundledCopy) (kept : Table String BundledCopy) : Prop where
  nodup : kept.keys.Nodup
  identifier : ∀ entry ∈ kept.entries, entry.2.identifier = entry.1
  mem : ∀ entry ∈ kept.entries, entry.2 ∈ copies

theorem IsKept.put {copies : List BundledCopy} {kept : Table String BundledCopy}
    (hkept : IsKept copies kept) {copy : BundledCopy} (hcopy : copy ∈ copies) :
    IsKept copies (kept.put copy.identifier copy) := by
  refine ⟨?_, ?_, ?_⟩
  · have hkeys := Table.keys_write copy.identifier copy kept.entries
    unfold Table.keys Table.put
    rw [hkeys]
    split
    · exact hkept.nodup
    · next hnew =>
        refine List.Nodup.append hkept.nodup (List.nodup_singleton _) ?_
        simpa [List.disjoint_singleton] using hnew
  · intro entry hentry
    rcases Table.mem_write hentry with rfl | hold
    · rfl
    · exact hkept.identifier entry hold
  · intro entry hentry
    rcases Table.mem_write hentry with rfl | hold
    · exact hcopy
    · exact hkept.mem entry hold

theorem isKept_foldl {all copies : List BundledCopy} {kept : Table String BundledCopy}
    (hkept : IsKept all kept) (hcopies : copies ⊆ all) :
    IsKept all (copies.foldl keepHighest kept) := by
  induction copies generalizing kept with
  | nil => exact hkept
  | cons copy rest ih =>
      have hcopy : copy ∈ all := hcopies List.mem_cons_self
      have hrest : rest ⊆ all := fun other hmem => hcopies (List.mem_cons_of_mem _ hmem)
      refine ih ?_ hrest
      unfold keepHighest
      split
      · exact hkept.put hcopy
      · split
        · exact hkept.put hcopy
        · exact hkept

theorem isKept_flatten (candidates : List Candidate) :
    IsKept (candidates.flatMap fun candidate => preorder candidate.bundled)
      (flatten candidates) :=
  isKept_foldl ⟨List.nodup_nil, List.forall_mem_nil _, List.forall_mem_nil _⟩ (List.Subset.refl _)

theorem identifiers_nodup (candidates : List Candidate) :
    ((flatten candidates).values.map BundledCopy.identifier).Nodup := by
  have hkept := isKept_flatten candidates
  have hkeys : (flatten candidates).values.map BundledCopy.identifier =
      (flatten candidates).keys := by
    unfold Table.values Table.keys
    rw [List.map_map]
    exact List.map_congr_left hkept.identifier
  rw [hkeys]
  exact hkept.nodup

theorem mem_preorder_of_mem_flatten {candidates : List Candidate} {copy : BundledCopy}
    (h : copy ∈ (flatten candidates).values) :
    ∃ candidate ∈ candidates, copy ∈ preorder candidate.bundled := by
  obtain ⟨entry, hentry, rfl⟩ := List.mem_map.mp h
  exact List.mem_flatMap.mp ((isKept_flatten candidates).mem entry hentry)

/-! ## Placed candidates -/

theorem isPlaced_giveCoordinate {hash identifier : String} {candidates : List Candidate}
    (h : ∀ candidate ∈ candidates, candidate.isPlaced) :
    ∀ candidate ∈ giveCoordinate hash identifier candidates, candidate.isPlaced := by
  induction candidates with
  | nil => exact h
  | cons first rest ih =>
      obtain ⟨hfirst, hrest⟩ := List.forall_mem_cons.mp h
      unfold giveCoordinate
      split
      · exact List.forall_mem_cons.mpr ⟨hfirst, hrest⟩
      · exact List.forall_mem_cons.mpr ⟨hfirst, ih hrest⟩

theorem isPlaced_giveCoordinates {candidates : List Candidate} (copies : List BundledCopy)
    (h : ∀ candidate ∈ candidates, candidate.isPlaced) :
    ∀ candidate ∈ giveCoordinates candidates copies, candidate.isPlaced := by
  unfold giveCoordinates
  induction copies generalizing candidates with
  | nil => exact h
  | cons copy rest ih => exact ih (isPlaced_giveCoordinate h)

def Buckets.ArePlaced (buckets : Buckets) : Prop :=
  (∀ entry ∈ buckets.byModId.entries, ∀ candidate ∈ entry.2, candidate.isPlaced) ∧
    ∀ candidate ∈ buckets.standalone, candidate.isPlaced

namespace Buckets

variable {buckets : Buckets}

theorem arePlaced_iff : buckets.ArePlaced ↔ ∀ candidate ∈ buckets.toList, candidate.isPlaced := by
  unfold ArePlaced toList Table.values
  rw [List.forall_mem_append, List.forall_mem_flatten, List.forall_mem_map]

theorem ArePlaced.addFile (hbuckets : buckets.ArePlaced) {candidate : Candidate}
    (hcandidate : candidate.isPlaced) : (buckets.addFile candidate).ArePlaced := by
  rw [arePlaced_iff] at hbuckets ⊢
  intro other hother
  rcases List.mem_cons.mp ((buckets.addFile_perm candidate).mem_iff.mp hother) with rfl | hold
  · exact hcandidate
  · exact hbuckets other hold

theorem ArePlaced.addBundled (hbuckets : buckets.ArePlaced) (listed : Table String PlatformLink)
    {copy : BundledCopy} (hcopy : copy.artifact.coordinate.isSome) :
    (buckets.addBundled listed copy).ArePlaced := by
  rw [arePlaced_iff] at hbuckets ⊢
  have hplaced : ∀ other : Candidate, other.artifact = copy.artifact → other.isPlaced := by
    intro other hartifact
    unfold Candidate.isPlaced
    rw [hartifact, hcopy, Bool.or_true]
  cases buckets.merges_addBundled listed copy with
  | joined hfind hafter =>
      intro other hother
      rcases List.mem_cons.mp (hafter.mem_iff.mp hother) with rfl | hold
      · exact hplaced _ rfl
      · exact hbuckets other hold
  | tookOver hidentity hfind hsame hnewer hbefore hafter =>
      rw [hbefore, List.forall_mem_append, List.forall_mem_cons] at hbuckets
      rw [hafter, List.forall_mem_append, List.forall_mem_cons]
      exact ⟨hbuckets.1, hplaced _ rfl, hbuckets.2.2⟩
  | passedOver hidentity hfind hsame hmem hnewer hafter =>
      rw [hafter]
      exact hbuckets

theorem arePlaced_foldl_addFile {candidates : List Candidate}
    (hcandidates : ∀ candidate ∈ candidates, candidate.isPlaced) (hbuckets : buckets.ArePlaced) :
    (candidates.foldl addFile buckets).ArePlaced := by
  induction candidates generalizing buckets with
  | nil => exact hbuckets
  | cons candidate rest ih =>
      obtain ⟨hcandidate, hrest⟩ := List.forall_mem_cons.mp hcandidates
      exact ih hrest (hbuckets.addFile hcandidate)

theorem arePlaced_foldl_addBundled (listed : Table String PlatformLink) {copies : List BundledCopy}
    (hcopies : ∀ copy ∈ copies, copy.artifact.coordinate.isSome) (hbuckets : buckets.ArePlaced) :
    (copies.foldl (addBundled listed) buckets).ArePlaced := by
  induction copies generalizing buckets with
  | nil => exact hbuckets
  | cons copy rest ih =>
      obtain ⟨hcopy, hrest⟩ := List.forall_mem_cons.mp hcopies
      exact ih hrest (hbuckets.addBundled listed hcopy)

end Buckets

end Expansion

open Expansion

/-! ## All candidates of a batch -/

section Expand

variable {candidates : List Candidate} (hfiles : ∀ candidate ∈ candidates, candidate.IsFile)

include hfiles

theorem labelled_flatten {copy : BundledCopy} (hcopy : copy ∈ (flatten candidates).values) :
    copy.artifact.coordinate = some copy.identifier := by
  obtain ⟨candidate, hcandidate, hbelow⟩ := mem_preorder_of_mem_flatten hcopy
  exact (hfiles candidate hcandidate).labelled copy hbelow

theorem isPlaced_expand (listed : Table String PlatformLink) :
    ∀ candidate ∈ expand candidates listed, candidate.isPlaced := by
  unfold expand
  refine Buckets.arePlaced_iff.mp (Buckets.arePlaced_foldl_addBundled listed ?_
    (Buckets.arePlaced_foldl_addFile (isPlaced_giveCoordinates _ ?_)
      ⟨List.forall_mem_nil _, List.forall_mem_nil _⟩))
  · intro copy hcopy
    rw [labelled_flatten hfiles (List.mem_of_mem_filter hcopy)]
    rfl
  · intro candidate hcandidate
    obtain ⟨file, hfile, rfl⟩ := List.mem_map.mp hcandidate
    unfold Candidate.isPlaced
    rw [(hfiles file hfile).link, Bool.true_or]

/-- No name is stated twice by the candidates of a batch. -/
theorem names_expand_nodup (listed : Table String PlatformLink) :
    ((expand candidates listed).flatMap Candidate.names).Nodup := by
  rw [List.nodup_iff_count_le_one]
  intro name
  have hbare : countName name (bareFiles candidates) = 0 := by
    refine List.count_eq_zero.mpr ?_
    intro hname
    obtain ⟨candidate, hcandidate, hname⟩ := List.mem_flatMap.mp hname
    obtain ⟨file, hfile, rfl⟩ := List.mem_map.mp hcandidate
    simp [Candidate.names, (hfiles file hfile).coordinate, (hfiles file hfile).extraCoordinate]
      at hname
  have hids := List.nodup_iff_count_le_one.mp (identifiers_nodup candidates) name
  let isFile := fun copy : BundledCopy =>
    hasContent copy.artifact.contentHash (bareFiles candidates)
  have hsplit := (List.filter_append_perm isFile (flatten candidates).values).map
    BundledCopy.identifier |>.count_eq name
  rw [List.map_append, List.count_append] at hsplit
  have hgiven : countName name (labelledFiles candidates) ≤ _ :=
    countName_giveCoordinates_le name (bareFiles candidates)
      ((flatten candidates).values.filter isFile)
  have hadded := countName_perm name (fileBuckets_perm candidates)
  have hjoined := countName_foldl_addBundled_le name listed (survivors candidates)
    (fileBuckets candidates)
    fun copy hcopy => labelled_flatten hfiles (List.mem_of_mem_filter hcopy)
  have hsurvivors : survivors candidates =
      (flatten candidates).values.filter fun copy => !isFile copy := rfl
  change countName name (expand candidates listed) ≤ 1
  rw [expand_eq]
  rw [hsurvivors] at hjoined ⊢
  omega

end Expand

end ModCatalog
