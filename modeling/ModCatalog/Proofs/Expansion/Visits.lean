import Mathlib.Data.List.Perm.Basic
import ModCatalog.Expansion

/-!
# Visits

What one visit does to the candidates: a platform file is put among them, and a bundled copy joins
them, takes over the content of one, or leaves them as they are.  Everything that is said about all
visits follows from these cases.
-/

namespace ModCatalog

def BundledCopy.candidate (listed : Table String PlatformLink) (copy : BundledCopy) : Candidate :=
  ⟨copy.artifact, [], listed.get? copy.artifact.contentHash, none⟩

namespace Expansion

/-! ## The parts of an expansion -/

/-- The platform files without what they bundle. -/
def bareFiles (candidates : List Candidate) : List Candidate :=
  candidates.map fun candidate => { candidate with bundled := [] }

/-- The highest copies of all identifiers, apart from copies of platform files. -/
def survivors (candidates : List Candidate) : List BundledCopy :=
  (flatten candidates).values.filter fun copy =>
    !hasContent copy.artifact.contentHash (bareFiles candidates)

/-- The platform files with what they learned from copies of their contents. -/
def labelledFiles (candidates : List Candidate) : List Candidate :=
  giveCoordinates (bareFiles candidates) ((flatten candidates).values.filter fun copy =>
    hasContent copy.artifact.contentHash (bareFiles candidates))

/-- The platform files by their mod ids. -/
def fileBuckets (candidates : List Candidate) : Buckets :=
  (labelledFiles candidates).foldl Buckets.addFile ⟨Table.empty, []⟩

theorem expand_eq (candidates : List Candidate) (listed : Table String PlatformLink) :
    expand candidates listed =
      ((survivors candidates).foldl (Buckets.addBundled listed) (fileBuckets candidates)).toList :=
  rfl

/-! ## One visit -/

namespace Buckets

/-- The candidates that a mod can be merged with. -/
def bucketOf (buckets : Buckets) (modId : String) : List Candidate :=
  (buckets.byModId.get? modId).getD []

/-- The first candidate that is the same mod as a copy. -/
def find? (listed : Table String PlatformLink) (buckets : Buckets) (copy : BundledCopy) :
    Option Candidate :=
  (copy.candidate listed).identity?.bind fun identity =>
    (buckets.bucketOf identity.modId).find? (isSameMod identity)

/-- What is around a bucket stays when another one is written in its place. -/
theorem exists_flatten_write (modId : String) (entries : List (String × List Candidate)) :
    ∃ front back, (entries.map Prod.snd).flatten =
        front ++ ((Table.lookup modId entries).getD [] ++ back) ∧
      ∀ bucket, ((Table.write modId bucket entries).map Prod.snd).flatten =
        front ++ (bucket ++ back) := by
  induction entries with
  | nil => exact ⟨[], [], rfl, fun bucket => by simp [Table.write]⟩
  | cons entry rest ih =>
      obtain ⟨key, first⟩ := entry
      by_cases hkey : modId = key
      · exact ⟨[], (rest.map Prod.snd).flatten, by simp [Table.lookup, hkey],
          fun bucket => by simp [Table.write, hkey]⟩
      · obtain ⟨front, back, hlookup, hwrite⟩ := ih
        exact ⟨first ++ front, back, by simp [Table.lookup, hkey, hlookup],
          fun bucket => by simp [Table.write, hkey, hwrite]⟩

theorem exists_toList_put (buckets : Buckets) (modId : String) :
    ∃ front back, buckets.toList = front ++ (buckets.bucketOf modId ++ back) ∧
      ∀ bucket, toList { buckets with byModId := buckets.byModId.put modId bucket } =
        front ++ (bucket ++ back) := by
  obtain ⟨front, back, hlookup, hwrite⟩ := exists_flatten_write modId buckets.byModId.entries
  refine ⟨front, back ++ buckets.standalone, ?_, fun bucket => ?_⟩
  · simp [toList, Table.values, bucketOf, Table.get?, hlookup]
  · simp [toList, Table.values, Table.put, hwrite]

theorem addFile_perm (buckets : Buckets) (candidate : Candidate) :
    (buckets.addFile candidate).toList.Perm (candidate :: buckets.toList) := by
  unfold addFile
  split
  · next modId _ =>
      obtain ⟨front, back, hbefore, hafter⟩ := buckets.exists_toList_put modId
      have hput : toList { buckets with byModId := push buckets.byModId modId candidate } =
          (front ++ buckets.bucketOf modId) ++ candidate :: back := by
        simp [push, hafter, bucketOf]
      rw [hput, hbefore, ← List.append_assoc]
      exact List.perm_middle
  · have hlast : toList { buckets with standalone := buckets.standalone ++ [candidate] } =
        buckets.toList ++ [candidate] := by
      simp [toList]
    rw [hlast]
    exact List.perm_append_singleton candidate buckets.toList

theorem foldl_addFile_perm (candidates : List Candidate) (buckets : Buckets) :
    (candidates.foldl addFile buckets).toList.Perm (candidates ++ buckets.toList) := by
  induction candidates generalizing buckets with
  | nil => exact List.Perm.refl _
  | cons candidate rest ih =>
      refine (ih (buckets.addFile candidate)).trans ?_
      exact ((buckets.addFile_perm candidate).append_left rest).trans List.perm_middle

/-! What `join` does depends on the first candidate that is the same mod alone. -/

section Join

variable {bundled : Candidate} {identity : ModIdentity} {bucket : List Candidate}

theorem join_of_find?_eq_none (h : bucket.find? (isSameMod identity) = none) :
    join bundled identity bucket = bucket ++ [bundled] := by
  induction bucket with
  | nil => rfl
  | cons first rest ih =>
      cases hfirst : isSameMod identity first with
      | true => simp [hfirst] at h
      | false =>
          have hrest : rest.find? (isSameMod identity) = none := by
            simpa only [List.find?_cons, hfirst] using h
          simp [join, hfirst, ih hrest]

theorem join_of_find?_eq_some {old : Candidate}
    (h : bucket.find? (isSameMod identity) = some old) :
    ∃ front back, bucket = front ++ old :: back ∧
      join bundled identity bucket =
        if bundled.artifact.version.isAbove old.artifact.version then
          front ++ takeOver bundled identity old :: back
        else bucket := by
  induction bucket with
  | nil => cases h
  | cons first rest ih =>
      cases hfirst : isSameMod identity first with
      | true =>
          have hold : first = old := by simpa [hfirst] using h
          subst hold
          exact ⟨[], rest, rfl, by simp [join, hfirst]⟩
      | false =>
          have hrest : rest.find? (isSameMod identity) = some old := by
            simpa only [List.find?_cons, hfirst] using h
          obtain ⟨front, back, hbucket, hjoin⟩ := ih hrest
          refine ⟨first :: front, back, by rw [hbucket]; rfl, ?_⟩
          rw [join, if_neg (by simp [hfirst]), hjoin]
          split <;> rfl

end Join

/-- The ways in which the visit of a copy changes the candidates. -/
inductive Merges (listed : Table String PlatformLink) (buckets : Buckets) (copy : BundledCopy)
    (after : List Candidate) : Prop
  | joined (hfind : buckets.find? listed copy = none)
      (hafter : after.Perm (copy.candidate listed :: buckets.toList))
  | tookOver {identity : ModIdentity} {old : Candidate} {front back : List Candidate}
      (hidentity : (copy.candidate listed).identity? = some identity)
      (hfind : buckets.find? listed copy = some old) (hsame : isSameMod identity old)
      (hnewer : copy.artifact.version.isAbove old.artifact.version)
      (hbefore : buckets.toList = front ++ old :: back)
      (hafter : after = front ++ takeOver (copy.candidate listed) identity old :: back)
  | passedOver {identity : ModIdentity} {old : Candidate}
      (hidentity : (copy.candidate listed).identity? = some identity)
      (hfind : buckets.find? listed copy = some old) (hsame : isSameMod identity old)
      (hmem : old ∈ buckets.toList)
      (hnewer : ¬ copy.artifact.version.isAbove old.artifact.version)
      (hafter : after = buckets.toList)

theorem merges_addBundled (listed : Table String PlatformLink) (buckets : Buckets)
    (copy : BundledCopy) : Merges listed buckets copy (buckets.addBundled listed copy).toList := by
  cases hidentity : (copy.candidate listed).identity? with
  | none =>
      -- Without a mod id a copy never meets another candidate.
      have hadd : (buckets.addBundled listed copy).toList =
          buckets.toList ++ [copy.candidate listed] := by
        unfold BundledCopy.candidate at hidentity ⊢
        simp [addBundled, hidentity, toList]
      refine .joined (by simp [find?, hidentity]) ?_
      rw [hadd]
      exact List.perm_append_singleton _ _
  | some identity =>
      obtain ⟨front, back, hbefore, hput⟩ := buckets.exists_toList_put identity.modId
      have hadd : (buckets.addBundled listed copy).toList =
          front ++ (join (copy.candidate listed) identity (buckets.bucketOf identity.modId) ++
            back) := by
        unfold BundledCopy.candidate at hidentity ⊢
        simp only [addBundled, hidentity]
        exact hput _
      have hfind : buckets.find? listed copy =
          (buckets.bucketOf identity.modId).find? (isSameMod identity) := by
        simp [find?, hidentity]
      cases hbucket : (buckets.bucketOf identity.modId).find? (isSameMod identity) with
      | none =>
          refine .joined (hfind.trans hbucket) ?_
          have hlast : (buckets.addBundled listed copy).toList =
              (front ++ buckets.bucketOf identity.modId) ++ copy.candidate listed :: back := by
            rw [hadd, join_of_find?_eq_none hbucket]
            simp
          rw [hlast, hbefore, ← List.append_assoc]
          exact List.perm_middle
      | some old =>
          have hsame : isSameMod identity old := List.find?_some hbucket
          obtain ⟨before, behind, hparts, hjoin⟩ := join_of_find?_eq_some hbucket
          by_cases hnewer : (copy.candidate listed).artifact.version.isAbove old.artifact.version
          · have hfront : buckets.toList = (front ++ before) ++ old :: (behind ++ back) := by
              rw [hbefore, hparts]
              simp
            refine .tookOver hidentity (hfind.trans hbucket) hsame hnewer hfront ?_
            rw [hadd, hjoin, if_pos hnewer]
            simp
          · refine .passedOver hidentity (hfind.trans hbucket) hsame ?_ hnewer ?_
            · rw [hbefore, hparts]
              simp
            · rw [hadd, hjoin, if_neg hnewer, hbefore]

end Buckets

theorem fileBuckets_perm (candidates : List Candidate) :
    (fileBuckets candidates).toList.Perm (labelledFiles candidates) := by
  have hadded := Buckets.foldl_addFile_perm (labelledFiles candidates) ⟨Table.empty, []⟩
  rwa [show (⟨Table.empty, []⟩ : Buckets).toList = [] from rfl, List.append_nil] at hadded

end Expansion

end ModCatalog
