import Mathlib.Logic.Relation
import ModCatalog.Proofs.Expansion.Names

/-!
# Merging bundled copies

What becomes of the candidates when bundled copies join them one by one.  A copy is added, or takes
over the content of a candidate that is the same mod, or leaves everything as it is.  So every
platform file keeps a candidate of its own with its project and its coordinate, and its content only
changes to that of a newer copy of the same mod.
-/

namespace ModCatalog

namespace Expansion

/-- A survivor is bundled by some platform file, and no platform file has its content. -/
theorem survivors_spec {candidates : List Candidate} {copy : BundledCopy}
    (h : copy ∈ survivors candidates) :
    (∃ file ∈ candidates, copy ∈ preorder file.bundled) ∧
      ∀ file ∈ candidates, file.artifact.contentHash ≠ copy.artifact.contentHash := by
  obtain ⟨hkept, hnew⟩ := List.mem_filter.mp h
  refine ⟨mem_preorder_of_mem_flatten hkept, ?_⟩
  simpa [hasContent, bareFiles] using hnew

end Expansion

/-! ## Listings under a merge -/

namespace ModIdentity

theorem modId_ofLink (modId : String) (link : Option PlatformLink) :
    (ofLink modId link).modId = modId := by
  cases link with
  | none => rfl
  | some link => by_cases hzero : link.projectId = 0 <;> simp [ofLink, ModIdentity.modId, hzero]

theorem link?_ofLink (modId : String) (link : Option PlatformLink) :
    (ofLink modId link).link? = link.filter fun link => link.projectId ≠ 0 := by
  cases link with
  | none => rfl
  | some link => by_cases hzero : link.projectId = 0 <;> simp [ofLink, link?, Option.filter, hzero]

theorem any_link?_merge {a b : ModIdentity} (h : b.isMatch a) (link : PlatformLink) :
    (a.merge b).link?.any (·.sameProject link) =
      (a.link?.any (·.sameProject link) || b.link?.any (·.sameProject link)) := by
  cases a <;> cases b <;> simp_all [merge, link?, isMatch, PlatformLink.sameProject]

end ModIdentity

namespace Candidate

/-- Whether a candidate is listed under the project of a link. -/
def isListed (link : PlatformLink) (candidate : Candidate) : Bool :=
  candidate.link.any (·.sameProject link)

variable {candidate : Candidate} {identity : ModIdentity}

theorem head?_modIds (h : candidate.identity? = some identity) :
    candidate.artifact.modIds.head? = some identity.modId := by
  obtain ⟨modId, hhead, rfl⟩ := Option.map_eq_some_iff.mp h
  rw [hhead, ModIdentity.modId_ofLink]

/-- An identity knows every listing but those of project zero. -/
theorem any_link? (h : candidate.identity? = some identity) {link : PlatformLink}
    (hlink : link.projectId ≠ 0) :
    identity.link?.any (·.sameProject link) = candidate.isListed link := by
  obtain ⟨modId, -, rfl⟩ := Option.map_eq_some_iff.mp h
  rw [ModIdentity.link?_ofLink]
  unfold isListed
  cases candidate.link with
  | none => rfl
  | some own =>
      by_cases hzero : own.projectId = 0
      · simp [hzero, PlatformLink.sameProject, hlink.symm]
      · simp [hzero]

end Candidate

namespace Expansion

variable {listed : Table String PlatformLink} {link : PlatformLink}

theorem exists_of_isSameMod {old : Candidate} {identity : ModIdentity}
    (h : Buckets.isSameMod identity old) :
    ∃ other, old.identity? = some other ∧ other.isMatch identity := by
  unfold Buckets.isSameMod at h
  cases hother : old.identity? with
  | none => simp [hother] at h
  | some other => exact ⟨other, rfl, by simpa [hother] using h⟩

/-- A merged candidate has the listings of both. -/
theorem isListed_takeOver {bundled old : Candidate} {identity : ModIdentity}
    (hidentity : bundled.identity? = some identity) (hsame : Buckets.isSameMod identity old)
    (hlink : link.projectId ≠ 0) :
    (Buckets.takeOver bundled identity old).isListed link =
      (bundled.isListed link || old.isListed link) := by
  obtain ⟨other, hother, hmatch⟩ := exists_of_isSameMod hsame
  rw [← Candidate.any_link? hidentity hlink, ← Candidate.any_link? hother hlink,
    ← ModIdentity.any_link?_merge hmatch]
  simp [Candidate.isListed, Buckets.takeOver, hother]

theorem head?_modIds_of_isSameMod {bundled old : Candidate} {identity : ModIdentity}
    (hidentity : bundled.identity? = some identity) (hsame : Buckets.isSameMod identity old) :
    old.artifact.modIds.head? = some identity.modId ∧
      bundled.artifact.modIds.head? = some identity.modId := by
  obtain ⟨other, hother, hmatch⟩ := exists_of_isSameMod hsame
  have hmodId : other.modId = identity.modId := by
    unfold ModIdentity.isMatch at hmatch
    simp only [Bool.and_eq_true, decide_eq_true_eq] at hmatch
    exact hmatch.1
  exact ⟨hmodId ▸ Candidate.head?_modIds hother, Candidate.head?_modIds hidentity⟩

/-! ## What becomes of a platform file -/

/-- A copy takes the place of a content that is the same mod and older. -/
structure Overtakes (copies : List BundledCopy) (old new : Artifact) : Prop where
  isCopy : ∃ copy ∈ copies, new = copy.artifact
  sameMod : ∃ modId, old.modIds.head? = some modId ∧ new.modIds.head? = some modId
  newer : new.version.isAbove old.version

/-- A candidate continues another one: it has its listing and its coordinate, and its content or
that of a copy that overtook it. -/
structure Continues (copies : List BundledCopy) (file after : Candidate) : Prop where
  content : Relation.ReflTransGen (Overtakes copies) file.artifact after.artifact
  listing : ∀ link : PlatformLink, link.projectId ≠ 0 → file.isListed link → after.isListed link
  coordinate : ∀ name, file.extraCoordinate = some name → after.extraCoordinate = some name
  alone : file.artifact.modIds = [] → after.artifact = file.artifact ∧ after.link = file.link
  bare : file.bundled = [] → after.bundled = []

namespace Continues

variable {copies : List BundledCopy}

theorem refl (file : Candidate) : Continues copies file file :=
  ⟨.refl, fun _ _ h => h, fun _ h => h, fun _ => ⟨rfl, rfl⟩, id⟩

theorem trans {file middle after : Candidate} (h : Continues copies file middle)
    (h' : Continues copies middle after) : Continues copies file after where
  content := h.content.trans h'.content
  listing link hlink hfile := h'.listing link hlink (h.listing link hlink hfile)
  coordinate name hfile := h'.coordinate name (h.coordinate name hfile)
  alone hnone := by
    obtain ⟨hartifact, hmiddle⟩ := h.alone hnone
    rw [← hartifact, ← hmiddle]
    exact h'.alone (by rw [hartifact, hnone])
  bare hfile := h'.bare (h.bare hfile)

theorem of_takeOver {copy : BundledCopy} {old : Candidate} {identity : ModIdentity}
    (hcopy : copy ∈ copies) (hidentity : (copy.candidate listed).identity? = some identity)
    (hsame : Buckets.isSameMod identity old)
    (hnewer : copy.artifact.version.isAbove old.artifact.version) :
    Continues copies old (Buckets.takeOver (copy.candidate listed) identity old) where
  content :=
    have hheads := head?_modIds_of_isSameMod hidentity hsame
    .single ⟨⟨copy, hcopy, rfl⟩, ⟨identity.modId, hheads⟩, hnewer⟩
  listing link hlink hold := by rw [isListed_takeOver hidentity hsame hlink, hold, Bool.or_true]
  coordinate _ hold := hold
  alone hnone := by
    have hhead := (head?_modIds_of_isSameMod hidentity hsame).1
    simp [hnone] at hhead
  bare _ := rfl

/-- What continues a copy has the content of a copy. -/
theorem isCopy {file after : Candidate} (h : Continues copies file after)
    (hfile : ∃ copy ∈ copies, file.artifact = copy.artifact) :
    ∃ copy ∈ copies, after.artifact = copy.artifact := by
  rcases h.content.cases_tail with hsame | ⟨_, -, hlast⟩
  · rwa [hsame]
  · exact hlast.isCopy

theorem forall₂_refl (candidates : List Candidate) :
    List.Forall₂ (Continues copies) candidates candidates :=
  List.forall₂_same.mpr fun file _ => .refl file

theorem forall₂_trans {before middle after : List Candidate}
    (h : List.Forall₂ (Continues copies) before middle)
    (h' : List.Forall₂ (Continues copies) middle after) :
    List.Forall₂ (Continues copies) before after := by
  induction h generalizing after with
  | nil => exact h'
  | cons hfirst _ ih =>
      obtain ⟨next, rest, hnext, hrest, rfl⟩ := List.forall₂_cons_left_iff.mp h'
      exact .cons (hfirst.trans hnext) (ih hrest)

/-- A property that passes to what continues a candidate passes from one list to the other. -/
theorem forall_mem {property : Candidate → Prop} {before after : List Candidate}
    (h : List.Forall₂ (Continues copies) before after)
    (hpasses : ∀ file next, Continues copies file next → property file → property next)
    (hbefore : ∀ file ∈ before, property file) : ∀ next ∈ after, property next := by
  induction h with
  | nil => exact List.forall_mem_nil _
  | cons hfirst _ ih =>
      obtain ⟨hfile, hrest⟩ := List.forall_mem_cons.mp hbefore
      exact List.forall_mem_cons.mpr ⟨hpasses _ _ hfirst hfile, ih hrest⟩

end Continues

/-! ## What becomes of all candidates -/

/-- Candidates after some visits: each one from before is continued by one of its own, and the
others are copies. -/
def Extends (copies : List BundledCopy) (before after : List Candidate) : Prop :=
  ∃ kept added, after.Perm (kept ++ added) ∧ List.Forall₂ (Continues copies) before kept ∧
    ∀ other ∈ added, other.bundled = [] ∧ ∃ copy ∈ copies, other.artifact = copy.artifact

namespace Extends

variable {copies : List BundledCopy} {before middle after : List Candidate}

theorem of_forall₂ (h : List.Forall₂ (Continues copies) before after) :
    Extends copies before after :=
  ⟨after, [], by simp, h, List.forall_mem_nil _⟩

theorem refl (before : List Candidate) : Extends copies before before :=
  of_forall₂ (Continues.forall₂_refl before)

theorem of_perm (h : after.Perm before) : Extends copies before after :=
  ⟨before, [], by simpa using h, Continues.forall₂_refl before, List.forall_mem_nil _⟩

theorem trans (h : Extends copies before middle) (h' : Extends copies middle after) :
    Extends copies before after := by
  obtain ⟨kept, added, hperm, hkept, hadded⟩ := h
  obtain ⟨kept', added', hperm', hkept', hadded'⟩ := h'
  -- What continues the candidates in between, brought into the order of those it stems from.
  obtain ⟨next, hnext, hsorted⟩ := List.perm_comp_forall₂ hperm.symm hkept'
  have hfront := List.forall₂_take kept.length hnext
  have hback := List.forall₂_drop kept.length hnext
  rw [List.take_left] at hfront
  rw [List.drop_left] at hback
  refine ⟨next.take kept.length, next.drop kept.length ++ added', ?_,
    Continues.forall₂_trans hkept hfront, ?_⟩
  · rw [← List.append_assoc, List.take_append_drop]
    exact hperm'.trans (hsorted.symm.append_right added')
  · have hcontinued := Continues.forall_mem hback
      (fun _ _ h hfile => ⟨h.bare hfile.1, h.isCopy hfile.2⟩) hadded
    intro other hother
    rcases List.mem_append.mp hother with hold | hnew
    · exact hcontinued other hold
    · exact hadded' other hnew

end Extends

theorem extends_addBundled (listed : Table String PlatformLink) (buckets : Buckets)
    {copies : List BundledCopy} {copy : BundledCopy} (hcopy : copy ∈ copies) :
    Extends copies buckets.toList (buckets.addBundled listed copy).toList := by
  cases buckets.merges_addBundled listed copy with
  | joined hfind hafter =>
      refine ⟨buckets.toList, [copy.candidate listed], ?_, ?_, ?_⟩
      · exact hafter.trans (List.perm_append_singleton _ _).symm
      · exact Continues.forall₂_refl _
      · intro other hother
        rw [List.mem_singleton.mp hother]
        exact ⟨rfl, copy, hcopy, rfl⟩
  | tookOver hidentity hfind hsame hnewer hbefore hafter =>
      have htaken := Continues.of_takeOver hcopy hidentity hsame hnewer
      rw [hbefore, hafter]
      exact .of_forall₂ (List.rel_append (Continues.forall₂_refl _)
        (.cons htaken (Continues.forall₂_refl _)))
  | passedOver hidentity hfind hsame hmem hnewer hafter =>
      rw [hafter]
      exact .refl _

theorem extends_foldl_addBundled (listed : Table String PlatformLink) (buckets : Buckets)
    {copies visited : List BundledCopy} (hvisited : visited ⊆ copies) :
    Extends copies buckets.toList (visited.foldl (Buckets.addBundled listed) buckets).toList := by
  induction visited generalizing buckets with
  | nil => exact .refl _
  | cons copy rest ih =>
      obtain ⟨hcopy, hrest⟩ := List.cons_subset.mp hvisited
      exact (extends_addBundled listed buckets hcopy).trans (ih _ hrest)

/-! ## The files before the copies join them -/

theorem forall₂_giveCoordinate (copies : List BundledCopy) (hash identifier : String)
    (candidates : List Candidate) :
    List.Forall₂ (Continues copies) candidates (giveCoordinate hash identifier candidates) := by
  induction candidates with
  | nil => exact .nil
  | cons candidate rest ih =>
      unfold giveCoordinate
      split
      · refine .cons ⟨.refl, fun _ _ h => h, ?_, fun _ => ⟨rfl, rfl⟩, id⟩
          (Continues.forall₂_refl rest)
        intro name hname
        simp [hname]
      · exact .cons (.refl candidate) ih

theorem extends_giveCoordinates (copies labels : List BundledCopy) (candidates : List Candidate) :
    Extends copies candidates (giveCoordinates candidates labels) := by
  unfold giveCoordinates
  induction labels generalizing candidates with
  | nil => exact .refl _
  | cons label rest ih =>
      exact (Extends.of_forall₂ (forall₂_giveCoordinate copies _ _ candidates)).trans (ih _)

theorem extends_expand (candidates : List Candidate) (listed : Table String PlatformLink) :
    Extends (survivors candidates) (bareFiles candidates) (expand candidates listed) := by
  have hlabelled := extends_giveCoordinates (survivors candidates)
    ((flatten candidates).values.filter fun copy =>
      hasContent copy.artifact.contentHash (bareFiles candidates)) (bareFiles candidates)
  rw [expand_eq]
  exact hlabelled.trans ((Extends.of_perm (fileBuckets_perm candidates)).trans
    (extends_foldl_addBundled listed _ (List.Subset.refl _)))

end Expansion

open Expansion

/-- No platform file and no listing of one gets lost: every platform file is continued by a
candidate of its own, all others are copies that no platform file has the content of. -/
theorem expand_keeps_files (candidates : List Candidate) (listed : Table String PlatformLink) :
    ∃ kept added, (expand candidates listed).Perm (kept ++ added) ∧
      List.Forall₂ (Continues (survivors candidates)) candidates kept ∧
      (∀ other ∈ added, ∃ copy ∈ survivors candidates, other.artifact = copy.artifact) ∧
      (∀ other ∈ expand candidates listed, other.bundled = []) ∧
      ∀ copy ∈ survivors candidates,
        (∃ file ∈ candidates, copy ∈ preorder file.bundled) ∧
          ∀ file ∈ candidates, file.artifact.contentHash ≠ copy.artifact.contentHash := by
  obtain ⟨kept, added, hperm, hkept, hadded⟩ := extends_expand candidates listed
  have hfiles := List.forall₂_map_left_iff.mp hkept
  refine ⟨kept, added, hperm, hfiles.imp ?_, fun other hother => (hadded other hother).2, ?_,
    fun copy hcopy => survivors_spec hcopy⟩
  · intro file after h
    exact ⟨h.content, h.listing, h.coordinate, h.alone, fun _ => h.bare rfl⟩
  · have hbare : ∀ other ∈ kept, other.bundled = [] := by
      refine Continues.forall_mem hkept (fun _ _ h hfile => h.bare hfile) ?_
      simp [bareFiles]
    intro other hother
    rcases List.mem_append.mp (hperm.mem_iff.mp hother) with hold | hnew
    · exact hbare other hold
    · exact (hadded other hnew).1

end ModCatalog
