import ModCatalog.Indexing.Run
import ModCatalog.Proofs.Resolution.Identity

/-!
# Candidates of a pass

What a pass does to the catalog for one candidate is an attempt: gathering the rows and telling how
the pass is going leave the catalog alone.
-/

namespace ModCatalog

namespace Work

variable {σ α β γ δ : Type}

/-- Whether work gives a value, or ends with a fault, without regard to its place and without
changing the catalog. -/
def Gives (work : Work σ α) (answer : Except Fault α) : Prop :=
  ∀ place, (work.run.run place).1 = answer ∧ (work.run.run place).2.catalog = place.catalog

theorem gives_ofExcept (answer : Except Fault α) : Gives (ofExcept answer : Work σ α) answer :=
  fun _ => ⟨rfl, rfl⟩

theorem gives_tell (event : Progress → Progress) : Gives (tell event : Work σ Unit) (.ok ()) :=
  fun _ => ⟨rfl, rfl⟩

/-- Work that only gives values is put together as its answers are. -/
theorem Gives.bind {work : Work σ α} {next : α → Work σ β} {answer : Except Fault α}
    {rest : α → Except Fault β} (hwork : Gives work answer)
    (hnext : ∀ value, Gives (next value) (rest value)) :
    Gives (work >>= next) (answer >>= rest) := by
  intro place
  obtain ⟨hanswer, hcatalog⟩ := hwork place
  have hrun : work.run.run place = (answer, (work.run.run place).2) := Prod.ext hanswer rfl
  cases answer with
  | error fault =>
      rw [run_bind_of_error hrun]
      exact ⟨rfl, hcatalog⟩
  | ok value =>
      obtain ⟨hlast, hkept⟩ := hnext value (work.run.run place).2
      rw [run_bind_of_ok hrun]
      exact ⟨hlast, hkept.trans hcatalog⟩

/-- Whether two answers are related values or the same fault. -/
def Agree (related : α → β → Prop) : Except Fault α → Except Fault β → Prop
  | .ok value, .ok other => related value other
  | .error fault, .error other => fault = other
  | _, _ => False

theorem agree_self (answer : Except Fault α) :
    Agree (fun value other => value = other) answer answer := by
  cases answer <;> rfl

/-- Whether work does to the catalog what a step does, and ends the same way. -/
def Follows (work : Work σ α) (step : Resolving β) (related : α → β → Prop) : Prop :=
  ∀ place, (work.run.run place).2.catalog = (step.exec place.catalog).2 ∧
    Agree related (work.run.run place).1 (step.exec place.catalog).1

theorem follows_onCatalog (step : Resolving α) :
    Follows (onCatalog step : Work σ α) step fun value other => value = other := by
  intro place
  have hrun : (onCatalog step : Work σ α).run.run place =
      ((step.exec place.catalog).1, { place with catalog := (step.exec place.catalog).2 }) := rfl
  rw [hrun]
  exact ⟨rfl, agree_self _⟩

theorem follows_pure {value : α} {other : β} {related : α → β → Prop}
    (hrelated : related value other) :
    Follows (pure value : Work σ α) (pure other) related :=
  fun _ => ⟨rfl, hrelated⟩

theorem Gives.follows {work : Work σ α} {answer : Except Fault α} (hwork : Gives work answer) :
    Follows work (Resolving.ask fun _ => answer) fun value other => value = other := by
  intro place
  obtain ⟨hanswer, hcatalog⟩ := hwork place
  have hexec : (Resolving.ask fun _ => answer).exec place.catalog = (answer, place.catalog) := rfl
  rw [hexec, hanswer]
  exact ⟨hcatalog, agree_self answer⟩

theorem Follows.bind {work : Work σ α} {step : Resolving β} {related : α → β → Prop}
    {next : α → Work σ γ} {rest : β → Resolving δ} {last : γ → δ → Prop}
    (hwork : Follows work step related)
    (hnext : ∀ value other, related value other → Follows (next value) (rest other) last) :
    Follows (work >>= next) (step >>= rest) last := by
  intro place
  have hplace := hwork place
  cases hrun : work.run.run place with
  | mk answer between =>
      cases hexec : step.exec place.catalog with
      | mk result catalog =>
          rw [hrun, hexec] at hplace
          obtain ⟨hcatalog, hanswer⟩ := hplace
          dsimp only at hcatalog
          subst hcatalog
          cases answer with
          | error fault =>
              cases result with
              | ok other => exact hanswer.elim
              | error other =>
                  rw [run_bind_of_error hrun, Resolving.exec_bind_of_error hexec]
                  exact ⟨rfl, hanswer⟩
          | ok value =>
              cases result with
              | error other => exact hanswer.elim
              | ok other =>
                  rw [run_bind_of_ok hrun, Resolving.exec_bind_of_ok hexec]
                  exact hnext value other hanswer between

/-- Telling how the pass is going is no step of the catalog's. -/
theorem Follows.tell_bind {event : Progress → Progress} {next : Work σ α} {step : Resolving β}
    {related : α → β → Prop} (hnext : Follows next step related) :
    Follows (tell event >>= fun _ => next) step related := by
  intro place
  have hrun : (tell event : Work σ Unit).run.run place =
      (.ok (), { place with progress := event place.progress }) := rfl
  rw [run_bind_of_ok hrun]
  exact hnext { place with progress := event place.progress }

end Work

theorem Attempt.run_eq (attempt : Attempt) : attempt.run = do
    match ← Resolving.resolve attempt.candidate with
    | .index id created =>
        let aggregate ← Resolving.ask fun _ => attempt.gathered
        Resolving.commitBatch attempt.candidate.artifact.contentHash id
          (aggregate.toBatch (some attempt.candidate.artifact.contentHash)
            (some attempt.candidate.artifact.summary) attempt.now)
        Resolving.markSeen id attempt.candidate.link
        return .index id created
    | answer => return answer := by
  unfold run settle
  rw [bind_assoc]
  refine congrArg _ (funext fun answer => ?_)
  cases answer <;> simp only [bind_assoc, pure_bind]

namespace Indexer

variable {σ : Type} (indexer : Indexer)

/-- What gathering the rows of a content gives. -/
def gathered (artifact : Artifact) : Except Fault Aggregate := do
  let jar ← Archive.ofBytes artifact.payload
  let classes ← indexer.sanitizer.sanitize (← jar.indexClasses indexer.options)
  let tags ← artifact.tags
  let extensions ← artifact.enumExtensions
  return ((Aggregate.empty.addClasses classes).addTags tags).addEnumExtensions extensions

/-- The attempt that a pass makes on a candidate. -/
def attemptOn (candidate : Candidate) : Attempt :=
  ⟨candidate, indexer.gathered candidate.artifact, indexer.now⟩

theorem gives_aggregate (artifact : Artifact) :
    Work.Gives (indexer.aggregate artifact : Work σ Aggregate) (indexer.gathered artifact) := by
  have hgives : Work.Gives (indexer.aggregate artifact : Work σ Aggregate) _ :=
    (Work.gives_ofExcept _).bind fun _ => (Work.gives_tell _).bind fun _ =>
      (Work.gives_ofExcept _).bind fun _ => (Work.gives_ofExcept _).bind fun _ =>
        Work.gives_ofExcept (.ok _)
  have hsame : indexer.gathered artifact = (do
      let classes ← (do
        let jar ← Archive.ofBytes artifact.payload
        indexer.sanitizer.sanitize (← jar.indexClasses indexer.options))
      let tags ← artifact.tags
      let extensions ← artifact.enumExtensions
      .ok (((Aggregate.empty.addClasses classes).addTags tags).addEnumExtensions extensions)) := by
    simp only [gathered, bind_assoc]
    rfl
  rw [hsame]
  exact hgives

/-- What became of a candidate that did not fail says what the answer to it was. -/
def Concludes (outcome : Outcome) (answer : Resolution) : Prop :=
  match outcome with
  | .linked id => answer = .known id
  | .indexed id => ∃ created, answer = .index id created
  | .skipped (some id) => answer = .outdated id
  | .skipped none => answer = .unindexable
  | .failed _ => False

/-- Whether an outcome means that the content of a candidate is stored. -/
def isStored : Outcome → Bool
  | .linked _ | .indexed _ => true
  | .skipped _ | .failed _ => false

/-- What becomes of a candidate that got an answer. -/
def outcomeOf : Resolution → Outcome
  | .known id => .linked id
  | .index id _ => .indexed id
  | .outdated id => .skipped (some id)
  | .unindexable => .skipped none

theorem Concludes.eq_outcomeOf {outcome : Outcome} {answer : Resolution}
    (hconcludes : Concludes outcome answer) : outcome = outcomeOf answer := by
  cases outcome with
  | linked id =>
      obtain rfl := hconcludes
      rfl
  | indexed id =>
      obtain ⟨created, rfl⟩ := hconcludes
      rfl
  | skipped id =>
      cases id with
      | none =>
          obtain rfl := hconcludes
          rfl
      | some id =>
          obtain rfl := hconcludes
          rfl
  | failed item => exact hconcludes.elim

theorem Concludes.isStored_eq {outcome : Outcome} {answer : Resolution}
    (hconcludes : Concludes outcome answer) : answer.isStored = isStored outcome := by
  rw [hconcludes.eq_outcomeOf]
  cases answer <;> rfl

theorem follows_attempt (candidate : Candidate) :
    Work.Follows (indexer.attempt candidate : Work σ Outcome) (indexer.attemptOn candidate).run
      Concludes := by
  rw [Attempt.run_eq]
  refine (Work.follows_onCatalog _).bind ?_
  rintro answer _ rfl
  cases answer with
  | known id => exact .tell_bind (Work.follows_pure rfl)
  | outdated id => exact .tell_bind (Work.follows_pure rfl)
  | unindexable => exact .tell_bind (Work.follows_pure rfl)
  | index id created =>
      unfold indexFor
      simp only [bind_assoc]
      refine (indexer.gives_aggregate candidate.artifact).follows.bind ?_
      rintro aggregate _ rfl
      refine (Work.follows_onCatalog _).bind fun _ _ _ => ?_
      refine (Work.follows_onCatalog _).bind fun _ _ _ => ?_
      exact .tell_bind (Work.follows_pure ⟨created, rfl⟩)

theorem process_of_error {candidate : Candidate} {place between : Workplace σ} {fault : Fault}
    (hrun : (indexer.attempt candidate).run.run place = (.error fault, between)) :
    (indexer.process candidate).run.run place = (.ok (.failed ⟨candidate.label, fault⟩),
      { between with progress := between.progress.raise candidate.label fault }) := by
  unfold process
  rw [run_tryCatch_of_error hrun]
  rfl

theorem process_of_ok {candidate : Candidate} {place after : Workplace σ} {outcome : Outcome}
    (hrun : (indexer.attempt candidate).run.run place = (.ok outcome, after)) :
    (indexer.process candidate).run.run place = (.ok outcome, after) := by
  unfold process
  exact run_tryCatch_of_ok hrun

/-- Processing a candidate never ends with a fault, and does to the catalog what the attempt on it
does; a candidate that is linked or indexed is settled. -/
theorem process_spec (candidate : Candidate) (place : Workplace σ) :
    ∃ outcome after, (indexer.process candidate).run.run place = (.ok outcome, after) ∧
      after.catalog = (indexer.attemptOn candidate).after place.catalog ∧
      (isStored outcome → (indexer.attemptOn candidate).settles place.catalog) := by
  obtain ⟨hcatalog, hanswer⟩ := indexer.follows_attempt candidate place
  cases hrun : (indexer.attempt candidate).run.run place with
  | mk answer between =>
      rw [hrun] at hcatalog hanswer
      cases answer with
      | error fault =>
          refine ⟨_, _, indexer.process_of_error hrun, hcatalog, ?_⟩
          intro hstored
          cases hstored
      | ok outcome =>
          refine ⟨outcome, between, indexer.process_of_ok hrun, hcatalog, ?_⟩
          cases hexec : ((indexer.attemptOn candidate).run.exec place.catalog).1 with
          | error fault =>
              rw [hexec] at hanswer
              exact hanswer.elim
          | ok answer =>
              rw [hexec] at hanswer
              rw [Attempt.settles_eq hexec, hanswer.isStored_eq]
              exact fun hstored => hstored

/-- Candidates are processed one after another to the end, and what each step does adds up. -/
theorem exists_mapM_process {Step : Workplace σ → Candidate → Outcome → Workplace σ → Prop}
    {Run : Workplace σ → List Candidate → List Outcome → Workplace σ → Prop}
    (step : ∀ candidate place, ∃ outcome after,
      (indexer.process candidate).run.run place = (.ok outcome, after) ∧
        Step place candidate outcome after)
    (nil : ∀ place, Run place [] [] place)
    (cons : ∀ {place between after : Workplace σ} {candidate : Candidate} {rest : List Candidate}
      {outcome : Outcome} {outcomes : List Outcome}, Step place candidate outcome between →
        Run between rest outcomes after → Run place (candidate :: rest) (outcome :: outcomes) after)
    (candidates : List Candidate) (place : Workplace σ) :
    ∃ outcomes after, (candidates.mapM indexer.process).run.run place = (.ok outcomes, after) ∧
      Run place candidates outcomes after := by
  induction candidates generalizing place with
  | nil =>
      rw [List.mapM_nil]
      exact ⟨[], place, rfl, nil place⟩
  | cons candidate rest ih =>
      obtain ⟨outcome, between, hrun, hfirst⟩ := step candidate place
      obtain ⟨outcomes, after, hrest, hlater⟩ := ih between
      refine ⟨outcome :: outcomes, after, ?_, cons hfirst hlater⟩
      rw [List.mapM_cons, run_bind_of_ok hrun, run_bind_of_ok hrest]
      rfl

/-- Candidates that are processed one after another do to the catalog what the attempts on them do,
and those that are linked or indexed are settled. -/
theorem mapM_process_spec (candidates : List Candidate) (place : Workplace σ) :
    ∃ outcomes after, (candidates.mapM indexer.process).run.run place = (.ok outcomes, after) ∧
      after.catalog = place.catalog.afterAll (candidates.map indexer.attemptOn) ∧
      ∀ pair ∈ candidates.zip outcomes, isStored pair.2 →
        pair.1 ∈ place.catalog.settled (candidates.map indexer.attemptOn) := by
  apply indexer.exists_mapM_process indexer.process_spec
  case nil => exact fun _ => ⟨rfl, List.forall_mem_nil _⟩
  case cons =>
    intro place between after candidate rest outcome outcomes ⟨hcatalog, hstored⟩ ⟨hafter, hlater⟩
    constructor
    · rw [hafter, hcatalog]
      rfl
    · rw [hcatalog] at hlater
      intro pair hpair hpairStored
      rw [List.zip_cons_cons, List.mem_cons] at hpair
      rw [List.map_cons]
      unfold Catalog.settled
      rcases hpair with rfl | hpair
      · rw [if_pos (hstored hpairStored)]
        exact List.mem_cons_self
      · have hmem := hlater pair hpair hpairStored
        split
        · exact List.mem_cons_of_mem _ hmem
        · exact hmem

/-- A candidate that is linked or indexed stays on one mod while others are processed. -/
theorem mapM_process_holds (candidates : List Candidate) {place : Workplace σ}
    (hplace : place.catalog.Coherent) :
    ∃ outcomes after, (candidates.mapM indexer.process).run.run place = (.ok outcomes, after) ∧
      after.catalog.Coherent ∧
      ∀ pair ∈ candidates.zip outcomes, isStored pair.2 →
        ∃ id, Resolving.Holds pair.1 id after.catalog.store := by
  obtain ⟨outcomes, after, hrun, hcatalog, hsettled⟩ := indexer.mapM_process_spec candidates place
  obtain ⟨hcoherent, _, hholds⟩ :=
    Catalog.afterAll_spec (candidates.map indexer.attemptOn) hplace
  rw [← hcatalog] at hcoherent hholds
  exact ⟨outcomes, after, hrun, hcoherent, fun pair hpair hstored =>
    hholds pair.1 (hsettled pair hpair hstored)⟩

end Indexer

end ModCatalog
