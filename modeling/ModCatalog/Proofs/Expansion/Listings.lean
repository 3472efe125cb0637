import ModCatalog.Proofs.Expansion.Merge

/-!
# Listings of bundled copies

When the listing of a bundled copy reaches a candidate.  A copy that joins or takes over a candidate
brings its listing along.  A copy that is not newer than the first candidate that is the same mod
leaves that candidate as it is, even if the copy is listed and the candidate is not: its listing is
overlooked.  Which of the two happens depends on the order in which the copies are visited.
-/

namespace ModCatalog

namespace Expansion

/-- Whether the visit of a copy changes nothing because of a candidate without a known listing. -/
def Buckets.overlooks (listed : Table String PlatformLink) (buckets : Buckets)
    (copy : BundledCopy) : Bool :=
  (buckets.find? listed copy).any fun old =>
    !copy.artifact.version.isAbove old.artifact.version && !old.identity?.any ModIdentity.isStrong

section

variable {listed : Table String PlatformLink} {link : PlatformLink}

/-! ## Platform files -/

theorem any_isListed_giveCoordinate (hash identifier : String) (candidates : List Candidate) :
    (giveCoordinate hash identifier candidates).any (Candidate.isListed link) =
      candidates.any (Candidate.isListed link) := by
  induction candidates with
  | nil => rfl
  | cons candidate rest ih =>
      unfold giveCoordinate
      split
      · rfl
      · rw [List.any_cons, List.any_cons, ih]

theorem any_isListed_giveCoordinates (candidates : List Candidate) (labels : List BundledCopy) :
    (giveCoordinates candidates labels).any (Candidate.isListed link) =
      candidates.any (Candidate.isListed link) := by
  unfold giveCoordinates
  induction labels generalizing candidates with
  | nil => rfl
  | cons label rest ih => rw [List.foldl_cons, ih, any_isListed_giveCoordinate]

theorem any_isListed_fileBuckets (candidates : List Candidate) :
    (fileBuckets candidates).toList.any (Candidate.isListed link) =
      candidates.any (Candidate.isListed link) := by
  rw [(fileBuckets_perm candidates).any_eq]
  unfold labelledFiles
  rw [any_isListed_giveCoordinates]
  unfold bareFiles
  rw [List.any_map]
  rfl

/-! ## Copies -/

/-- A listed copy and a candidate that is the same mod and has a known listing have one listing. -/
theorem isListed_of_isSameMod {bundled old : Candidate} {identity : ModIdentity}
    (hidentity : bundled.identity? = some identity) (hsame : Buckets.isSameMod identity old)
    (hlink : link.projectId ≠ 0) (hlisted : bundled.isListed link)
    (hstrong : old.identity?.any ModIdentity.isStrong) : old.isListed link := by
  obtain ⟨other, hother, hmatch⟩ := exists_of_isSameMod hsame
  rw [← Candidate.any_link? hidentity hlink] at hlisted
  rw [← Candidate.any_link? hother hlink]
  rw [hother] at hstrong
  cases identity <;> cases other <;>
    simp_all [ModIdentity.isMatch, ModIdentity.link?, ModIdentity.isStrong,
      PlatformLink.sameProject]

theorem any_isListed_addBundled (buckets : Buckets) (copy : BundledCopy)
    (hlink : link.projectId ≠ 0) :
    (buckets.addBundled listed copy).toList.any (Candidate.isListed link) =
      (buckets.toList.any (Candidate.isListed link) ||
        ((copy.candidate listed).isListed link && !buckets.overlooks listed copy)) := by
  cases buckets.merges_addBundled listed copy with
  | joined hfind hafter =>
      have hseen : buckets.overlooks listed copy = false := by simp [Buckets.overlooks, hfind]
      rw [hafter.any_eq, List.any_cons, hseen, Bool.not_false, Bool.and_true, Bool.or_comm]
  | tookOver hidentity hfind hsame hnewer hbefore hafter =>
      have hseen : buckets.overlooks listed copy = false := by
        simp [Buckets.overlooks, hfind, hnewer]
      rw [hafter, hbefore, hseen]
      simp only [List.any_append, List.any_cons, isListed_takeOver hidentity hsame hlink]
      grind
  | @passedOver identity old hidentity hfind hsame hmem hnewer hafter =>
      rw [hafter, Bool.eq_iff_iff, Bool.or_eq_true, Bool.and_eq_true, Bool.not_eq_true']
      -- Nothing changes, so a listing that is not overlooked must be there already.
      refine ⟨.inl, ?_⟩
      rintro (hlisted | ⟨hlisted, hseen⟩)
      · exact hlisted
      · have hstrong : old.identity?.any ModIdentity.isStrong := by
          simpa [Buckets.overlooks, hfind, hnewer] using hseen
        exact List.any_eq_true.mpr
          ⟨old, hmem, isListed_of_isSameMod hidentity hsame hlink hlisted hstrong⟩

/-- The visits bring the listings of those copies that are not overlooked when it is their turn. -/
theorem any_isListed_foldl_addBundled (copies : List BundledCopy) (buckets : Buckets)
    (hlink : link.projectId ≠ 0) :
    (copies.foldl (Buckets.addBundled listed) buckets).toList.any (Candidate.isListed link) ↔
      buckets.toList.any (Candidate.isListed link) ∨
        ∃ front copy back, copies = front ++ copy :: back ∧
          (copy.candidate listed).isListed link ∧
          ¬ (front.foldl (Buckets.addBundled listed) buckets).overlooks listed copy := by
  induction copies generalizing buckets with
  | nil => simp
  | cons first rest ih =>
      rw [List.foldl_cons, ih, any_isListed_addBundled buckets first hlink, Bool.or_eq_true,
        Bool.and_eq_true, Bool.not_eq_true']
      constructor
      · rintro ((hbefore | ⟨hlisted, hseen⟩) | ⟨front, copy, back, rfl, hlisted, hseen⟩)
        · exact .inl hbefore
        · exact .inr ⟨[], first, rest, rfl, hlisted, by simpa using hseen⟩
        · exact .inr ⟨first :: front, copy, back, rfl, hlisted, hseen⟩
      · rintro (hbefore | ⟨front, copy, back, hparts, hlisted, hseen⟩)
        · exact .inl (.inl hbefore)
        · cases front with
          | nil =>
              obtain ⟨rfl, rfl⟩ := List.cons.inj hparts
              exact .inl (.inr ⟨hlisted, by simpa using hseen⟩)
          | cons other front =>
              obtain ⟨rfl, rfl⟩ := List.cons.inj hparts
              exact .inr ⟨front, copy, back, rfl, hlisted, hseen⟩

end

end Expansion

open Expansion

/-- A candidate is listed under a project exactly if a platform file is, or some copy that is listed
under it is not overlooked when it is visited. -/
theorem isListed_expand_iff (candidates : List Candidate) (listed : Table String PlatformLink)
    (link : PlatformLink) (hlink : link.projectId ≠ 0) :
    (∃ candidate ∈ expand candidates listed, candidate.isListed link) ↔
      (∃ file ∈ candidates, file.isListed link) ∨
        ∃ front copy back, survivors candidates = front ++ copy :: back ∧
          (copy.candidate listed).isListed link ∧
          ¬ (front.foldl (Buckets.addBundled listed) (fileBuckets candidates)).overlooks
            listed copy := by
  rw [expand_eq, ← List.any_eq_true, ← List.any_eq_true, ← any_isListed_fileBuckets candidates]
  exact any_isListed_foldl_addBundled (survivors candidates) (fileBuckets candidates) hlink

namespace Sample

def plainMod (modId version hash : String) : Artifact :=
  ⟨modId, ⟨version⟩, none, hash, [modId], .mod, none, [], ByteArray.empty⟩

def newerGecko : BundledArtifact := ("a:g", ⟨"4.2"⟩, .node (plainMod "gecko" "4.2" "newer") [])

def olderGecko : BundledArtifact := ("b:g", ⟨"4.0"⟩, .node (plainMod "gecko" "4.0" "older") [])

def geckoFile : PlatformLink := ⟨"local", 5, 50⟩

/-- The platform lists the older jar on its own. -/
def listed : Table String PlatformLink := ⟨[("older", geckoFile)]⟩

def newerCopy : BundledCopy := ⟨"a:g", ⟨"4.2"⟩, plainMod "gecko" "4.2" "newer"⟩

def olderCopy : BundledCopy := ⟨"b:g", ⟨"4.0"⟩, plainMod "gecko" "4.0" "older"⟩

def host (bundled : List BundledArtifact) : Candidate :=
  ⟨plainMod "host" "1.0" "host", bundled, some ⟨"local", 1, 10⟩, none⟩

theorem isAbove_gecko : (⟨"4.0"⟩ : Version).isAbove ⟨"4.2"⟩ = false := by
  have holder : (⟨"4.0"⟩ : Version).items = [.number 4] := by decide
  have hnewer : (⟨"4.2"⟩ : Version).items = [.number 4, .number 2] := by decide
  simp only [Version.isAbove, Version.compare, holder, hnewer, Version.compareItems]
  decide

end Sample

open Sample

/-- The older copy brings its listing if it is visited first: the newer one takes it over. -/
theorem older_gecko_first_listed :
    ∃ candidate ∈ expand [host [olderGecko, newerGecko]] listed,
      candidate.isListed geckoFile := by
  have hseen : (fileBuckets [host [olderGecko, newerGecko]]).overlooks listed olderCopy = false :=
    rfl
  exact (isListed_expand_iff [host [olderGecko, newerGecko]] listed geckoFile (by decide)).mpr
    (.inr ⟨[], olderCopy, [newerCopy], rfl, rfl, Bool.eq_false_iff.mp hseen⟩)

/-- If the newer copy is visited first, no candidate has the listing of the older one, although it
survives and is a mod. -/
theorem newer_gecko_first_unlisted :
    (∃ copy ∈ survivors [host [newerGecko, olderGecko]], copy.artifact.modIds ≠ [] ∧
        listed.get? copy.artifact.contentHash = some geckoFile) ∧
      ¬ ∃ candidate ∈ expand [host [newerGecko, olderGecko]] listed,
        candidate.isListed geckoFile := by
  have hvisits : survivors [host [newerGecko, olderGecko]] = [newerCopy, olderCopy] := rfl
  have hlink : geckoFile.projectId ≠ 0 := by decide
  let files := fileBuckets [host [newerGecko, olderGecko]]
  have hfind : (files.addBundled listed newerCopy).find? listed olderCopy =
      some (newerCopy.candidate listed) := rfl
  have hbelow : olderCopy.artifact.version.isAbove (newerCopy.candidate listed).artifact.version =
      false := isAbove_gecko
  have hoverlooked : (files.addBundled listed newerCopy).overlooks listed olderCopy = true := by
    unfold Buckets.overlooks
    rw [hfind, Option.any_some, hbelow]
    rfl
  refine ⟨⟨olderCopy, ?_, nofun, rfl⟩, ?_⟩
  · rw [hvisits]
    exact List.mem_cons_of_mem _ List.mem_cons_self
  · rw [← List.any_eq_true, Bool.not_eq_true, expand_eq, hvisits, List.foldl_cons, List.foldl_cons,
      List.foldl_nil, any_isListed_addBundled _ _ hlink, hoverlooked,
      any_isListed_addBundled _ _ hlink]
    rfl

end ModCatalog
