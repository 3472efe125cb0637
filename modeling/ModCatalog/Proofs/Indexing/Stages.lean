import ModCatalog.Proofs.Indexing.PassingOver

/-!
# Stages of a pass

While candidates are processed one after another, the catalog goes through one stage after each of
them.  A stage depends on the catalog at the beginning and on the candidates, and on nothing else of
the place where they are processed, and each outcome tells how an attempt ended on the stage that
its candidate found.
-/

namespace ModCatalog

open Resolving

variable {σ : Type}

namespace Indexer

variable (indexer : Indexer)

/-- The catalog once the first of some candidates are processed, one after another. -/
def stage (place : Workplace σ) (order : List Candidate) (count : Nat) : Catalog :=
  (((order.take count).mapM indexer.process).run.run place).2.catalog

theorem stage_eq (place : Workplace σ) (order : List Candidate) (count : Nat) :
    indexer.stage place order count =
      place.catalog.afterAll ((order.take count).map indexer.attemptOn) := by
  obtain ⟨_, after, hrun, hcatalog, _⟩ := indexer.mapM_process_spec (order.take count) place
  unfold stage
  rw [hrun]
  exact hcatalog

@[simp] theorem stage_zero (place : Workplace σ) (order : List Candidate) :
    indexer.stage place order 0 = place.catalog := by
  rw [stage_eq]
  rfl

theorem stage_cons_succ (place : Workplace σ) (candidate : Candidate) (rest : List Candidate)
    (count : Nat) :
    indexer.stage place (candidate :: rest) (count + 1) =
      ((indexer.attemptOn candidate).after place.catalog).afterAll
        ((rest.take count).map indexer.attemptOn) := by
  rw [stage_eq, List.take_succ_cons]
  rfl

/-- Processing a candidate leads from one stage to the next. -/
theorem stage_succ (place : Workplace σ) {order : List Candidate} {count : Nat}
    {candidate : Candidate} (hcandidate : order[count]? = some candidate) :
    indexer.stage place order (count + 1) =
      (indexer.attemptOn candidate).after (indexer.stage place order count) := by
  rw [stage_eq, stage_eq, List.take_add_one, hcandidate, List.map_append]
  exact List.foldl_append

/-- A later stage is reached from an earlier one by further attempts. -/
theorem stage_add (place : Workplace σ) (order : List Candidate) (count more : Nat) :
    indexer.stage place order (count + more) =
      (indexer.stage place order count).afterAll
        (((order.drop count).take more).map indexer.attemptOn) := by
  rw [stage_eq, stage_eq, List.take_add, List.map_append]
  exact List.foldl_append

/-- Stages depend on the catalog that is found, and on nothing else of the place. -/
theorem stage_congr {place other : Workplace σ} (hcatalog : place.catalog = other.catalog)
    (order : List Candidate) (count : Nat) :
    indexer.stage place order count = indexer.stage other order count := by
  rw [stage_eq, stage_eq, hcatalog]

theorem coherent_stage {place : Workplace σ} (hplace : place.catalog.Coherent)
    (order : List Candidate) (count : Nat) : (indexer.stage place order count).Coherent := by
  rw [stage_eq]
  exact (Catalog.afterAll_spec _ hplace).1

/-- Contents and listings that are together at one stage are together at every later one. -/
theorem carries_stage {place : Workplace σ} (hplace : place.catalog.Coherent)
    (order : List Candidate) {first last : Nat} (hle : first ≤ last) :
    (indexer.stage place order first).store.Carries (indexer.stage place order last).store := by
  obtain ⟨more, rfl⟩ := Nat.exists_eq_add_of_le hle
  rw [stage_add]
  exact (Catalog.afterAll_spec _ (indexer.coherent_stage hplace order first)).2.1

/-- Candidates that were processed one after another: there is an outcome for each, which tells how
the attempt on it ended on the stage that it found. -/
structure Staged (place : Workplace σ) (order : List Candidate) (outcomes : List Outcome)
    (after : Catalog) : Prop where
  length_eq : outcomes.length = order.length
  last_eq : after = indexer.stage place order order.length
  tells {count : Nat} {candidate : Candidate} {outcome : Outcome} :
    order[count]? = some candidate → outcomes[count]? = some outcome →
      outcome.Tells ((indexer.attemptOn candidate).run.exec (indexer.stage place order count)).1

theorem Staged.congr {indexer : Indexer} {place other : Workplace σ} {order : List Candidate}
    {outcomes : List Outcome} {after : Catalog}
    (hstaged : indexer.Staged place order outcomes after)
    (hcatalog : place.catalog = other.catalog) : indexer.Staged other order outcomes after := by
  refine ⟨hstaged.length_eq, ?_, ?_⟩
  · rw [hstaged.last_eq, indexer.stage_congr hcatalog]
  · intro count candidate outcome hcandidate houtcome
    rw [← indexer.stage_congr hcatalog]
    exact hstaged.tells hcandidate houtcome

theorem staged_of_mapM {order : List Candidate} {place after : Workplace σ}
    {outcomes : List Outcome}
    (h : (order.mapM indexer.process).run.run place = (.ok outcomes, after)) :
    indexer.Staged place order outcomes after.catalog := by
  induction order generalizing place outcomes with
  | nil =>
      rw [List.mapM_nil] at h
      cases h
      exact ⟨rfl, (indexer.stage_zero _ []).symm, nofun⟩
  | cons candidate rest ih =>
      obtain ⟨outcome, between, hprocess, hcatalog, _, htells⟩ :=
        indexer.process_tells candidate place
      rw [List.mapM_cons, run_bind_of_ok hprocess] at h
      obtain ⟨later, last, hrest, hlast⟩ := steps_of_run_bind h
      cases hlast
      have hstaged := ih hrest
      -- The stages of the rest are those of the whole list, one further on.
      have hshift : ∀ count, indexer.stage between rest count =
          indexer.stage place (candidate :: rest) (count + 1) := by
        intro count
        rw [stage_cons_succ, ← hcatalog, stage_eq]
      refine ⟨congrArg (· + 1) hstaged.length_eq, ?_, ?_⟩
      · rw [hstaged.last_eq, hshift]
        rfl
      · intro count other result hother hresult
        cases count with
        | zero =>
            cases hother
            cases hresult
            rw [stage_zero]
            exact htells
        | succ count =>
            rw [← hshift]
            exact hstaged.tells hother hresult

theorem staged_of_processAll {candidates : List Candidate} {place after : Workplace σ}
    {outcomes : List Outcome}
    (h : (indexer.processAll candidates).run.run place = (.ok outcomes, after)) :
    indexer.Staged place (waves candidates).flatten outcomes after.catalog := by
  obtain ⟨_, _, done, hmapM, rfl⟩ := indexer.mapM_of_processAll h
  exact (indexer.staged_of_mapM hmapM).congr rfl

end Indexer

end ModCatalog
