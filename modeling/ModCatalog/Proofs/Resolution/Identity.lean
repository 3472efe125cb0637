import ModCatalog.Aggregate
import ModCatalog.Proofs.Resolution.Steps

/-!
# Identity never splits

Candidates are done one after another: each finds its mod, and if its content is new, the rows of
the mod are written.  Once a candidate is settled, its content and its listing stay on one mod,
whatever is absorbed later, and so do all listings of that content.
-/

namespace ModCatalog

/-- Whether an answer means that the content of a candidate is stored in the end. -/
def Resolution.isStored : Resolution → Bool
  | .known _ | .index _ _ => true
  | .outdated _ | .unindexable => false

/-- One candidate that is done, with what gathering the rows of its content gives, and when. -/
structure Attempt where
  candidate : Candidate
  gathered : Except Fault Aggregate
  now : Nat

namespace Attempt

/-- Find the mod of the candidate, and write its rows if the content is new. -/
def settle (attempt : Attempt) : Resolving Resolution := do
  let artifact := attempt.candidate.artifact
  match ← Resolving.resolve attempt.candidate with
  | .index id created =>
      let aggregate ← Resolving.ask fun _ => attempt.gathered
      Resolving.commitBatch artifact.contentHash id
        (aggregate.toBatch (some artifact.contentHash) (some artifact.summary) attempt.now)
      return .index id created
  | answer => return answer

/-- Settle the candidate, and note that its file was seen if rows were written. -/
def run (attempt : Attempt) : Resolving Resolution := do
  match ← attempt.settle with
  | .index id created =>
      Resolving.markSeen id attempt.candidate.link
      return .index id created
  | answer => return answer

/-- Whether the content of the candidate is found stored, or its rows are written. -/
def settles (attempt : Attempt) (catalog : Catalog) : Bool :=
  match (attempt.settle.exec catalog).1 with
  | .ok answer => answer.isStored
  | .error _ => false

/-- The catalog after an attempt, whether it failed or not. -/
def after (attempt : Attempt) (catalog : Catalog) : Catalog := (attempt.run.exec catalog).2

end Attempt

namespace Catalog

def afterAll (catalog : Catalog) (attempts : List Attempt) : Catalog :=
  attempts.foldl (fun catalog attempt => attempt.after catalog) catalog

/-- The candidates that are settled by attempts, one after another. -/
def settled (catalog : Catalog) : List Attempt → List Candidate
  | [] => []
  | attempt :: rest =>
      let later := (attempt.after catalog).settled rest
      if attempt.settles catalog then attempt.candidate :: later else later

end Catalog

open Resolving

variable {catalog : Catalog}

/-! ## One attempt -/

/-- A candidate that belongs to a mod belongs to one wherever contents and listings move. -/
theorem Resolving.Holds.carried {candidate : Candidate} {id : Nat} {store after : Store}
    (hholds : Holds candidate id store) (hcarries : store.Carries after) :
    ∃ id, Holds candidate id after := by
  obtain ⟨move, hhashes, hlistings⟩ := hcarries
  obtain ⟨hfound, hlisted⟩ := hholds
  obtain ⟨hkey, hentry⟩ := Store.findByHash_eq_some.mp hfound
  refine ⟨move id, Store.findByHash_eq_some.mpr ⟨hkey, hhashes hentry⟩, ?_⟩
  exact fun link hlink => hlistings (hlisted link hlink)

theorem Attempt.ensures_settle (attempt : Attempt) :
    Ensures attempt.settle catalog fun answer after =>
      match answer with
      | .known id | .index id _ => Holds attempt.candidate id after.store
      | .outdated _ | .unindexable => True := by
  refine (ensures_resolve attempt.candidate).bind fun answer between hanswered => ?_
  cases answer with
  | known id => exact ensures_pure hanswered
  | outdated id => exact ensures_pure trivial
  | unindexable => exact ensures_pure trivial
  | index id created =>
      refine ensures_ask_bind fun aggregate _ => ?_
      refine (ensures_commitBatch rfl hanswered.1).bind fun _ after hcommitted => ?_
      refine ensures_pure ⟨hcommitted.1, ?_⟩
      intro link hlink
      unfold Store.findByListing
      rw [hcommitted.2]
      exact hanswered.2 link hlink

theorem Resolving.ensures_markSeen (id : Nat) (link : Option PlatformLink) :
    Ensures (markSeen id link) catalog fun _ after => catalog.store.SameOwners after.store := by
  cases link with
  | none => exact ensures_pure (.refl _)
  | some link => exact ensures_markFileSeen link id

/-- Noting the file moves nothing, so a stored candidate holds when the attempt is over. -/
theorem Attempt.ensures_run (attempt : Attempt) :
    Ensures attempt.run catalog fun answer after =>
      match answer with
      | .known id | .index id _ => Holds attempt.candidate id after.store
      | .outdated _ | .unindexable => True := by
  refine attempt.ensures_settle.bind fun answer between hholds => ?_
  cases answer with
  | known id => exact ensures_pure hholds
  | outdated id => exact ensures_pure trivial
  | unindexable => exact ensures_pure trivial
  | index id created =>
      refine (ensures_markSeen id attempt.candidate.link).bind fun _ after hsame => ?_
      exact ensures_pure (hholds.same hsame)

/-- What follows a settled candidate tears nothing apart, so the candidate still holds when the
attempt is over, even if noting the file fails. -/
theorem Attempt.after_spec (attempt : Attempt) (hcatalog : catalog.Coherent) :
    (attempt.after catalog).Coherent ∧ catalog.store.Carries (attempt.after catalog).store ∧
      (attempt.settles catalog → ∃ id, Holds attempt.candidate id (attempt.after catalog).store) := by
  obtain ⟨hbetween, hcarries, hanswered⟩ := attempt.ensures_settle hcatalog
  unfold settles after run
  cases hexec : attempt.settle.exec catalog with
  | mk answer between =>
      rw [hexec] at hbetween hcarries hanswered
      cases answer with
      | error fault =>
          rw [exec_bind_of_error hexec]
          exact ⟨hbetween, hcarries, nofun⟩
      | ok answer =>
          rw [exec_bind_of_ok hexec]
          have hholds := hanswered answer rfl
          cases answer with
          | known id => exact ⟨hbetween, hcarries, fun _ => ⟨id, hholds⟩⟩
          | outdated id => exact ⟨hbetween, hcarries, nofun⟩
          | unindexable => exact ⟨hbetween, hcarries, nofun⟩
          | index id created =>
              have hmark : Ensures (do
                  markSeen id attempt.candidate.link
                  return Resolution.index id created) between fun _ _ => True :=
                (ensures_markSeen id attempt.candidate.link).bind fun _ _ _ => ensures_pure trivial
              obtain ⟨hafter, hmoved, _⟩ := hmark hbetween
              exact ⟨hafter, hcarries.trans hmoved, fun _ => hholds.carried hmoved⟩

theorem Attempt.settles_eq {attempt : Attempt} {answer : Resolution}
    (h : (attempt.run.exec catalog).1 = .ok answer) :
    attempt.settles catalog = answer.isStored := by
  obtain ⟨first, between, hsettle, hrest⟩ := exec_bind_eq_ok h
  have hstored : attempt.settles catalog = first.isStored := by
    unfold settles
    rw [hsettle]
  rw [hstored]
  cases first with
  | known id | outdated id | unindexable =>
      cases hrest
      rfl
  | index id created =>
      obtain ⟨_, _, _, hlast⟩ := exec_bind_eq_ok hrest
      cases hlast
      rfl

/-! ## All attempts -/

theorem Catalog.afterAll_spec (attempts : List Attempt) (hcatalog : catalog.Coherent) :
    (catalog.afterAll attempts).Coherent ∧
      catalog.store.Carries (catalog.afterAll attempts).store ∧
      ∀ candidate ∈ catalog.settled attempts,
        ∃ id, Holds candidate id (catalog.afterAll attempts).store := by
  induction attempts generalizing catalog with
  | nil =>
      refine ⟨hcatalog, .refl _, ?_⟩
      intro candidate hmem
      cases hmem
  | cons attempt rest ih =>
      obtain ⟨hafter, hcarries, hsettled⟩ := attempt.after_spec hcatalog
      obtain ⟨hlast, hmoved, hrest⟩ := ih hafter
      refine ⟨hlast, hcarries.trans hmoved, ?_⟩
      intro candidate hmem
      unfold Catalog.settled at hmem
      split at hmem
      · next hsettles =>
          rcases List.mem_cons.mp hmem with rfl | hlater
          · obtain ⟨id, hholds⟩ := hsettled hsettles
            exact hholds.carried hmoved
          · exact hrest candidate hlater
      · exact hrest candidate hmem

/-- Every candidate that was settled leads to a mod by its content and by its listing, and with it
all settled candidates of the same content. -/
theorem settled_candidates_on_one_mod (attempts : List Attempt) :
    let store := (Catalog.empty.afterAll attempts).store
    let settled := Catalog.empty.settled attempts
    ∀ candidate ∈ settled, ∃ id,
      store.findByHash candidate.artifact.contentHash = .ok (some id) ∧
      (store.mod? id).isSome ∧
      (∀ link ∈ candidate.link, store.findByListing link.listing = some id) ∧
      ∀ other ∈ settled, other.artifact.contentHash = candidate.artifact.contentHash →
        ∀ link ∈ other.link, store.findByListing link.listing = some id := by
  intro store settled candidate hcandidate
  obtain ⟨hcoherent, _, hholds⟩ := Catalog.afterAll_spec attempts .empty
  obtain ⟨id, hfound, hlisted⟩ := hholds candidate hcandidate
  refine ⟨id, hfound, ?_, hlisted, ?_⟩
  · obtain ⟨_, hentry⟩ := Store.findByHash_eq_some.mp hfound
    obtain ⟨record, hrecord, _⟩ := hcoherent.store_exact.hashes hentry
    rw [hrecord]
    rfl
  · intro other hother hsame link hlink
    obtain ⟨owner, howned, howner⟩ := hholds other hother
    rw [hsame] at howned
    cases hfound.symm.trans howned
    exact howner link hlink

/-- An attempt on a content that a project lists. -/
def Attempt.listed (hash : String) (projectId : Nat) : Attempt where
  candidate := {
    artifact := ⟨"", ⟨""⟩, none, hash, [], .mod, none, [], .empty⟩
    bundled := []
    link := some ⟨"local", projectId, 0⟩
    extraCoordinate := none }
  gathered := .ok .empty
  now := 0

/-- The third attempt finds the first content under the listing of the second, whose mod is
absorbed; the second content and its listing stay together. -/
theorem settled_candidates_after_absorption :
    let attempts : List Attempt := [.listed "a" 1, .listed "b" 2, .listed "a" 2]
    let store := (Catalog.empty.afterAll attempts).store
    let candidate := (Attempt.listed "b" 2).candidate
    candidate ∈ Catalog.empty.settled attempts ∧
      ∃ id, store.findByHash candidate.artifact.contentHash = .ok (some id) ∧
        (store.mod? id).isSome ∧
        ∀ link ∈ candidate.link, store.findByListing link.listing = some id := by
  intro attempts store candidate
  have hsettled : Catalog.empty.settled attempts = attempts.map Attempt.candidate := rfl
  have hmem : candidate ∈ Catalog.empty.settled attempts := by
    rw [hsettled]
    exact List.mem_cons_of_mem _ List.mem_cons_self
  obtain ⟨id, hfound, hmod, hlisted, _⟩ := settled_candidates_on_one_mod attempts candidate hmem
  exact ⟨hmem, id, hfound, hmod, hlisted⟩

end ModCatalog
