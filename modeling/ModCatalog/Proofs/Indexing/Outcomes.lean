import ModCatalog.Proofs.Indexing.Survey
import ModCatalog.Proofs.Indexing.Waves
import ModCatalog.Proofs.Limiter
import ModCatalog.Proofs.Resolution.Entries
import ModCatalog.Proofs.Resolution.Repetition

/-!
# What becomes of the candidates of a pass

Candidates are attempted one after another, wave after wave, and each has an outcome.  What a step
preserves is proved of attempts; here it becomes a fact about all candidates of a pass.
-/

namespace ModCatalog

open Resolving

/-- Whether an outcome tells how an attempt ended. -/
def Outcome.Tells (outcome : Outcome) : Except Fault Resolution → Prop
  | .ok answer => Indexer.Concludes outcome answer
  | .error fault => ∃ item, outcome = .failed ⟨item, fault⟩

/-- Candidates are attempted one after another, with these outcomes. -/
inductive Catalog.Processed : Catalog → List Candidate → List Outcome → Catalog → Prop
  | nil (catalog : Catalog) : Processed catalog [] [] catalog
  | cons {catalog after : Catalog} {rest : List Candidate} {outcomes : List Outcome}
      {outcome : Outcome} (attempt : Attempt) :
      outcome.Tells (attempt.run.exec catalog).1 →
      Processed (attempt.after catalog) rest outcomes after →
      Processed catalog (attempt.candidate :: rest) (outcome :: outcomes) after

/-! ## The limiter -/

/-- Whether work leaves the limiter alone. -/
def Work.KeepsLimiter {σ α : Type} (work : Work σ α) : Prop :=
  ∀ place, (work.run.run place).2.limiter = place.limiter

namespace Work

variable {σ α β : Type}

theorem keepsLimiter_onCatalog (step : Resolving α) : KeepsLimiter (onCatalog step : Work σ α) :=
  fun _ => rfl

theorem keepsLimiter_ofExcept (answer : Except Fault α) :
    KeepsLimiter (ofExcept answer : Work σ α) :=
  fun _ => rfl

theorem KeepsLimiter.bind {work : Work σ α} {next : α → Work σ β} (hwork : KeepsLimiter work)
    (hnext : ∀ value, KeepsLimiter (next value)) : KeepsLimiter (work >>= next) :=
  Keeps.bind hwork hnext

end Work

namespace Indexer

variable {σ : Type} (indexer : Indexer)

theorem keepsLimiter_attempt (candidate : Candidate) :
    Work.KeepsLimiter (indexer.attempt candidate : Work σ Outcome) := by
  have htell : ∀ {α : Type} (event : Progress → Progress) (value : α),
      Work.KeepsLimiter (do Work.tell event; return value : Work σ α) :=
    fun event value => ((Work.looks_tell event).bind fun _ => Work.looks_pure value).limiter
  refine (Work.keepsLimiter_onCatalog _).bind fun answer => ?_
  cases answer with
  | known id => exact htell _ _
  | outdated id => exact htell _ _
  | unindexable => exact htell _ _
  | index id created =>
      refine Work.KeepsLimiter.bind ?_ fun _ => (Work.looks_pure _).limiter
      refine Work.KeepsLimiter.bind ?_ fun aggregate => ?_
      · refine (Work.keepsLimiter_ofExcept _).bind fun _ => ?_
        refine Work.KeepsLimiter.bind (Work.looks_tell _).limiter fun _ => ?_
        refine (Work.keepsLimiter_ofExcept _).bind fun _ => ?_
        exact (Work.keepsLimiter_ofExcept _).bind fun _ => (Work.looks_pure _).limiter
      · refine (Work.keepsLimiter_onCatalog _).bind fun _ => ?_
        exact (Work.keepsLimiter_onCatalog _).bind fun _ => (Work.looks_tell _).limiter

/-! ## Candidates one after another -/

/-- Processing a candidate is an attempt on it, of which the outcome tells. -/
theorem process_tells (candidate : Candidate) (place : Workplace σ) :
    ∃ outcome after, (indexer.process candidate).run.run place = (.ok outcome, after) ∧
      after.catalog = (indexer.attemptOn candidate).after place.catalog ∧
      after.limiter = place.limiter ∧
      outcome.Tells ((indexer.attemptOn candidate).run.exec place.catalog).1 := by
  obtain ⟨hcatalog, hanswer⟩ := indexer.follows_attempt candidate place
  have hlimiter := indexer.keepsLimiter_attempt candidate place
  cases hrun : (indexer.attempt candidate).run.run place with
  | mk answer between =>
      rw [hrun] at hcatalog hanswer hlimiter
      cases answer with
      | error fault =>
          refine ⟨_, _, indexer.process_of_error hrun, hcatalog, hlimiter, ?_⟩
          cases hexec : ((indexer.attemptOn candidate).run.exec place.catalog).1 with
          | error other =>
              rw [hexec] at hanswer
              obtain rfl : fault = other := hanswer
              exact ⟨candidate.label, rfl⟩
          | ok answer =>
              rw [hexec] at hanswer
              exact hanswer.elim
      | ok outcome =>
          refine ⟨outcome, between, indexer.process_of_ok hrun, hcatalog, hlimiter, ?_⟩
          cases hexec : ((indexer.attemptOn candidate).run.exec place.catalog).1 with
          | error fault =>
              rw [hexec] at hanswer
              exact hanswer.elim
          | ok answer =>
              rw [hexec] at hanswer
              exact hanswer

theorem mapM_process_processed (candidates : List Candidate) (place : Workplace σ) :
    ∃ outcomes after, (candidates.mapM indexer.process).run.run place = (.ok outcomes, after) ∧
      place.catalog.Processed candidates outcomes after.catalog ∧
      after.limiter = place.limiter := by
  apply indexer.exists_mapM_process indexer.process_tells
  case nil => exact fun place => ⟨.nil place.catalog, rfl⟩
  case cons =>
    intro place between after candidate rest outcome outcomes ⟨hcatalog, hlimiter, htells⟩
      ⟨hprocessed, hkept⟩
    rw [hcatalog] at hprocessed
    exact ⟨.cons (indexer.attemptOn candidate) htells hprocessed, hkept.trans hlimiter⟩

/-! ## Wave after wave -/

/-- The waves of a pass are processed one after another, whatever batches share the limiter. -/
theorem mapM_of_processAll {candidates : List Candidate} {place after : Workplace σ}
    {outcomes : List Outcome}
    (h : (indexer.processAll candidates).run.run place = (.ok outcomes, after)) :
    ∃ (entered left : Limiter) (done : Workplace σ),
      ((waves candidates).flatten.mapM indexer.process).run.run { place with limiter := entered } =
        (.ok outcomes, done) ∧
      after = { done with limiter := left } := by
  unfold processAll at h
  split at h
  · next hempty =>
      obtain rfl := List.isEmpty_iff.mp hempty
      cases h
      exact ⟨place.limiter, place.limiter, place, rfl, rfl⟩
  · obtain ⟨_, _, hhere, h⟩ := steps_of_run_bind h
    cases hhere
    obtain ⟨⟨gate, joined⟩, _, henter, h⟩ := steps_of_run_bind h
    cases congrArg Prod.snd henter
    obtain ⟨_, _, hentered, h⟩ := steps_of_run_bind h
    cases hentered
    obtain ⟨found, done, hmapM, h⟩ := steps_of_run_bind h
    obtain ⟨_, _, hhere, h⟩ := steps_of_run_bind h
    cases hhere
    obtain ⟨left, _, hdrop, h⟩ := steps_of_run_bind h
    cases congrArg Prod.snd hdrop
    obtain ⟨_, _, hdropped, h⟩ := steps_of_run_bind h
    cases hdropped
    cases h
    exact ⟨joined, left, done, hmapM, rfl⟩

theorem processAll_spec {candidates : List Candidate} {place after : Workplace σ}
    {outcomes : List Outcome}
    (h : (indexer.processAll candidates).run.run place = (.ok outcomes, after)) :
    place.catalog.Processed (waves candidates).flatten outcomes after.catalog := by
  obtain ⟨entered, _, done, hmapM, rfl⟩ := indexer.mapM_of_processAll h
  obtain ⟨_, _, hrun, hprocessed, _⟩ :=
    indexer.mapM_process_processed (waves candidates).flatten { place with limiter := entered }
  cases hmapM.symm.trans hrun
  exact hprocessed

/-- Where no batch is registered, the limiter lets the candidates through. -/
theorem exists_processAll (candidates : List Candidate) {place : Workplace σ}
    (halone : place.limiter.registered = []) :
    ∃ outcomes after, (indexer.processAll candidates).run.run place = (.ok outcomes, after) := by
  have hget : ∀ place : Workplace σ,
      (get : Work σ (Workplace σ)).run.run place = (.ok place, place) := fun _ => rfl
  have hgive : ∀ (place : Workplace σ) {α : Type} {answer : Except Fault α} {value : α},
      answer = .ok value → (Work.ofExcept answer).run.run place = (.ok value, place) :=
    fun place _ _ _ hanswer => congrArg (·, place) hanswer
  unfold processAll
  split
  · exact ⟨[], place, rfl⟩
  · next hsome =>
      have hlength : candidates.length ≠ 0 := by
        intro hzero
        rw [List.eq_nil_of_length_eq_zero hzero] at hsome
        exact hsome rfl
      obtain ⟨gate, joined, henter, honly⟩ := Limiter.exists_enter halone hlength
      obtain ⟨left, hdrop⟩ := Limiter.exists_drop honly
      obtain ⟨outcomes, done, hrun, _, hlimiter⟩ :=
        indexer.mapM_process_processed (waves candidates).flatten { place with limiter := joined }
      have hleave : done.limiter.drop gate = .ok left := by rw [hlimiter, hdrop]
      refine ⟨outcomes, { done with limiter := left }, ?_⟩
      rw [run_bind_of_ok (hget place), run_bind_of_ok (hgive place henter)]
      have hset : (modify fun place => { place with limiter := joined } : Work σ Unit).run.run place =
        (.ok (), { place with limiter := joined }) := rfl
      rw [run_bind_of_ok hset, run_bind_of_ok hrun, run_bind_of_ok (hget done),
        run_bind_of_ok (hgive done hleave)]
      rfl

end Indexer

end ModCatalog
