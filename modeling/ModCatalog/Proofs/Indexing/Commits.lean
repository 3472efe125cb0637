import ModCatalog.Proofs.Indexing.Stages

/-!
# One commit for one content

A content is indexed only where no mod has it, and it has a mod from then on: the mod may be
absorbed by another, but the content moves with it.  So among all candidates of a pass with one
content at most one is indexed, and those that come later are linked to the mod that has the content
by then.
-/

namespace ModCatalog

open Resolving

/-- What an answer says of the mod that a content had before: a candidate is only known on that mod,
and everything else means that there was none. -/
def Resolution.Suits (owner : Option Nat) : Resolution → Prop
  | .known id => owner = some id
  | .index _ _ | .outdated _ | .unindexable => owner = none

section Content

variable {catalog after : Catalog} {candidate : Candidate} {answer : Resolution}

/-- A known content is never indexed again, and only a known one is linked. -/
theorem Resolving.suits_of_resolve (hcatalog : catalog.Coherent)
    (h : (resolve candidate).exec catalog = (.ok answer, after)) :
    ∃ owner, catalog.store.findByHash candidate.artifact.contentHash = .ok owner ∧
      answer.Suits owner := by
  obtain ⟨owner, hknown, hdecides⟩ := decides_of_resolve h
  obtain ⟨_, _, hfound⟩ := ensures_knownHash candidate.artifact.contentHash hcatalog
  refine ⟨owner, (hfound owner hknown).2, ?_⟩
  cases hdecides <;> rfl

end Content

/-- A content that has a mod has one wherever contents and listings move. -/
theorem Store.Carries.owned {store after : Store} {hash : String} (hcarries : store.Carries after)
    (howned : ∃ id, store.findByHash hash = .ok (some id)) :
    ∃ id, after.findByHash hash = .ok (some id) := by
  obtain ⟨id, hfound⟩ := howned
  obtain ⟨hkey, hentry⟩ := Store.findByHash_eq_some.mp hfound
  obtain ⟨move, hhashes, _⟩ := hcarries
  exact ⟨move id, Store.findByHash_eq_some.mpr ⟨hkey, hhashes hentry⟩⟩

namespace Indexer

variable {σ : Type} {indexer : Indexer}

/-- Whether the candidate at a position has a content and is reported as indexed. -/
def IndexedAt (order : List Candidate) (outcomes : List Outcome) (hash : String)
    (position : Nat) : Prop :=
  ∃ candidate ∈ order[position]?, candidate.artifact.contentHash = hash ∧
    ∃ id, outcomes[position]? = some (.indexed id)

namespace Staged

variable {place : Workplace σ} {order : List Candidate} {outcomes : List Outcome}
  {after : Catalog} {position : Nat} {candidate : Candidate} {outcome : Outcome}

/-- A candidate that did not fail found its content on the mod that it is linked to, or found it
new. -/
theorem content_before (hstaged : indexer.Staged place order outcomes after)
    (hplace : place.catalog.Coherent) (hcandidate : order[position]? = some candidate)
    (houtcome : outcomes[position]? = some outcome) (hfine : outcome.isFailed = false) :
    ∃ owner, (indexer.stage place order position).store.findByHash
        candidate.artifact.contentHash = .ok owner ∧
      ∀ id, outcome = .linked id ↔ owner = some id := by
  have htells := hstaged.tells hcandidate houtcome
  cases hrun : ((indexer.attemptOn candidate).run.exec (indexer.stage place order position)).1 with
  | error fault =>
      rw [hrun] at htells
      cases htells.isFailed.symm.trans hfine
  | ok answer =>
      rw [hrun] at htells
      obtain ⟨owner, hfound, hsuits⟩ := suits_of_resolve
        (indexer.coherent_stage hplace order position)
        (Prod.ext (Attempt.resolve_of_run hrun) rfl)
      refine ⟨owner, hfound, fun id => ?_⟩
      have hconcludes : Concludes outcome answer := htells
      cases outcome with
      | linked other =>
          obtain rfl := hconcludes
          obtain rfl := hsuits
          simp
      | indexed other =>
          obtain ⟨created, rfl⟩ := hconcludes
          obtain rfl := hsuits
          simp
      | skipped other =>
          cases other with
          | none =>
              obtain rfl := hconcludes
              obtain rfl := hsuits
              simp
          | some other =>
              obtain rfl := hconcludes
              obtain rfl := hsuits
              simp
      | failed item => cases hfine

/-- A candidate that is linked or indexed leaves its content on the mod of the outcome. -/
theorem content_after (hstaged : indexer.Staged place order outcomes after)
    (hplace : place.catalog.Coherent) (hcandidate : order[position]? = some candidate)
    (houtcome : outcomes[position]? = some outcome) {id : Nat}
    (hstored : outcome = .linked id ∨ outcome = .indexed id) :
    (indexer.stage place order (position + 1)).store.findByHash
      candidate.artifact.contentHash = .ok (some id) := by
  have htells := hstaged.tells hcandidate houtcome
  obtain ⟨_, _, hholds⟩ := (indexer.attemptOn candidate).ensures_run
    (indexer.coherent_stage hplace order position)
  rw [indexer.stage_succ place hcandidate]
  cases hrun : ((indexer.attemptOn candidate).run.exec (indexer.stage place order position)).1 with
  | error fault =>
      rw [hrun] at htells
      obtain ⟨item, rfl⟩ := htells
      rcases hstored with hlinked | hindexed
      · cases hlinked
      · cases hindexed
  | ok answer =>
      rw [hrun] at htells
      have hanswer := hholds answer hrun
      rcases hstored with rfl | rfl
      · obtain rfl : answer = .known id := htells
        exact hanswer.1
      · obtain ⟨created, rfl⟩ : ∃ created, answer = .index id created := htells
        exact hanswer.1

/-- A candidate whose content has a mod at some stage is not indexed there or later. -/
theorem linked_of_owned (hstaged : indexer.Staged place order outcomes after)
    (hplace : place.catalog.Coherent) (hcandidate : order[position]? = some candidate)
    (houtcome : outcomes[position]? = some outcome) (hfine : outcome.isFailed = false)
    {earlier : Nat} (hle : earlier ≤ position)
    (howned : ∃ id, (indexer.stage place order earlier).store.findByHash
      candidate.artifact.contentHash = .ok (some id)) :
    ∃ id, outcome = .linked id ∧
      (indexer.stage place order position).store.findByHash
        candidate.artifact.contentHash = .ok (some id) ∧
      (indexer.stage place order (position + 1)).store.findByHash
        candidate.artifact.contentHash = .ok (some id) := by
  obtain ⟨id, hfound⟩ := (indexer.carries_stage hplace order hle).owned howned
  obtain ⟨owner, hbefore, hlinked⟩ :=
    hstaged.content_before hplace hcandidate houtcome hfine
  cases hfound.symm.trans hbefore
  have houtcomeLinked := (hlinked id).mpr rfl
  exact ⟨id, houtcomeLinked, hfound,
    hstaged.content_after hplace hcandidate houtcome (Or.inl houtcomeLinked)⟩

/-- What was indexed at one position has a mod at the next stage. -/
theorem owned_of_indexedAt (hstaged : indexer.Staged place order outcomes after)
    (hplace : place.catalog.Coherent) {hash : String}
    (hindexed : IndexedAt order outcomes hash position) :
    ∃ id, (indexer.stage place order (position + 1)).store.findByHash hash = .ok (some id) := by
  obtain ⟨candidate, hcandidate, rfl, id, houtcome⟩ := hindexed
  exact ⟨id, hstaged.content_after hplace hcandidate houtcome (Or.inr rfl)⟩

theorem not_indexedAt_of_owned (hstaged : indexer.Staged place order outcomes after)
    (hplace : place.catalog.Coherent) {hash : String} {earlier : Nat} (hle : earlier ≤ position)
    (howned : ∃ id, (indexer.stage place order earlier).store.findByHash hash = .ok (some id)) :
    ¬IndexedAt order outcomes hash position := by
  intro hindexed
  obtain ⟨candidate, hcandidate, rfl, id, houtcome⟩ := hindexed
  obtain ⟨_, hlinked, _⟩ :=
    hstaged.linked_of_owned hplace hcandidate houtcome rfl hle howned
  cases hlinked

theorem indexedAt_unique (hstaged : indexer.Staged place order outcomes after)
    (hplace : place.catalog.Coherent) {hash : String} {first second : Nat}
    (hfirst : IndexedAt order outcomes hash first)
    (hsecond : IndexedAt order outcomes hash second) : first = second := by
  rcases Nat.lt_trichotomy first second with hlt | heq | hgt
  · exact absurd hsecond
      (hstaged.not_indexedAt_of_owned hplace hlt (hstaged.owned_of_indexedAt hplace hfirst))
  · exact heq
  · exact absurd hfirst
      (hstaged.not_indexedAt_of_owned hplace hgt (hstaged.owned_of_indexedAt hplace hsecond))

end Staged

/-- From every catalog that passes lead to, and over any candidates: every candidate is processed
once and has an outcome.  Of those with one content at most one is indexed, and none if the content
had a mod when the pass began; after one was indexed, every later one that does not fail is linked,
to the mod that has the content before and after. -/
theorem one_commit_per_content (indexer : Indexer) {done : List (Candidate × Outcome)}
    {catalog : Catalog} (hserved : Served done catalog) {place : Workplace σ}
    (hreopens : place.catalog.Reopens catalog) (candidates : List Candidate) :
    let order := (waves candidates).flatten
    order.Perm candidates ∧
    (place.limiter.registered = [] → ∃ outcomes after,
      (indexer.processAll candidates).run.run place = (.ok outcomes, after)) ∧
    ∀ outcomes after, (indexer.processAll candidates).run.run place = (.ok outcomes, after) →
      outcomes.length = order.length ∧
      after.catalog = indexer.stage place order order.length ∧
      ∀ hash,
        (∀ first second, IndexedAt order outcomes hash first →
          IndexedAt order outcomes hash second → first = second) ∧
        ((∃ id, place.catalog.store.findByHash hash = .ok (some id)) →
          ∀ position, ¬IndexedAt order outcomes hash position) ∧
        ∀ first later, first < later → IndexedAt order outcomes hash first →
          ∀ candidate outcome, order[later]? = some candidate →
            candidate.artifact.contentHash = hash → outcomes[later]? = some outcome →
            outcome.isFailed = false → ∃ id, outcome = .linked id ∧
              (indexer.stage place order later).store.findByHash hash = .ok (some id) ∧
              (indexer.stage place order (later + 1)).store.findByHash hash = .ok (some id) := by
  intro order
  have hplace := hserved.accounted.1.reopen hreopens
  refine ⟨flatten_waves_perm candidates,
    fun halone => indexer.exists_processAll candidates halone, ?_⟩
  intro outcomes after hrun
  have hstaged := indexer.staged_of_processAll hrun
  refine ⟨hstaged.length_eq, hstaged.last_eq, fun hash => ⟨?_, ?_, ?_⟩⟩
  · intro first second hfirst hsecond
    exact hstaged.indexedAt_unique hplace hfirst hsecond
  · intro howned position
    refine hstaged.not_indexedAt_of_owned hplace (Nat.zero_le position) ?_
    rwa [indexer.stage_zero]
  · rintro first later hlt hindexed candidate outcome hcandidate rfl houtcome hfine
    exact hstaged.linked_of_owned hplace hcandidate houtcome hfine hlt
      (hstaged.owned_of_indexedAt hplace hindexed)

/-- The bytes of one jar as a content that a project lists. -/
def listedJar (hash : String) (projectId : Nat) : Candidate :=
  OneJar.candidate OneJar.jar hash ⟨OneJar.link.platform, projectId, 10⟩

/-- Content "g" is indexed for a mod that is absorbed by that of content "h" before "g" is met
again, and linked to the mod that absorbed it. -/
theorem one_commit_per_content_through_absorption :
    let candidates := [listedJar "h" 1, listedJar "g" 2, listedJar "h" 2, listedJar "g" 3]
    let place := OneJar.stocked .empty
    ∃ outcomes after, ((OneJar.indexer .full).processAll candidates).run.run place =
        (.ok outcomes, after) ∧
      outcomes = [.indexed 1, .indexed 2, .linked 1, .linked 1] ∧
      ((OneJar.indexer .full).stage place (waves candidates).flatten 3).store.findByHash "g" =
        .ok (some 1) := by
  intro candidates place
  have horder : (waves candidates).flatten = candidates := rfl
  have hevaluated : (((OneJar.indexer .full).processAll candidates).run.run place).1 =
      .ok [.indexed 1, .indexed 2, .linked 1, .linked 1] := by decide +kernel
  have hreopens : place.catalog.Reopens .empty := Or.inl rfl
  obtain ⟨_, hruns, hcommits⟩ :=
    one_commit_per_content (OneJar.indexer .full) .nothing hreopens candidates
  obtain ⟨outcomes, after, hrun⟩ := hruns rfl
  have houtcomes : outcomes = [.indexed 1, .indexed 2, .linked 1, .linked 1] := by
    rw [hrun] at hevaluated
    exact Except.ok.inj hevaluated
  obtain ⟨_, _, hcontent⟩ := hcommits outcomes after hrun
  have hindexed : IndexedAt (waves candidates).flatten outcomes "g" 1 := by
    rw [horder, houtcomes]
    exact ⟨listedJar "g" 2, rfl, rfl, 2, rfl⟩
  obtain ⟨id, hlinked, hfound, _⟩ := (hcontent "g").2.2 1 3 (by decide) hindexed
    (listedJar "g" 3) (.linked 1) rfl rfl (by rw [houtcomes]; rfl) rfl
  cases hlinked
  exact ⟨outcomes, after, hrun, houtcomes, hfound⟩

end Indexer

end ModCatalog
