import ModCatalog.Proofs.Indexing.Arrivals
import ModCatalog.Proofs.Resolution.Learning

/-!
# Files that learn a coordinate

A file that others bundle learns the identifier under which they do.  That is their text, and it
bears on what becomes of the file: the file fails if the identifier does not fit the store, and
otherwise it makes no difference to anything but coordinates.
-/

namespace ModCatalog

open Resolving

namespace Indexer

variable {σ : Type} (indexer : Indexer)

/-- For a listed candidate that does not fail without it, a coordinate that it has learned makes no
difference to what becomes of it, to the answer, and to the catalog but for coordinates, provided
that it is a key of 1 to 511 bytes.  Any other one makes the candidate fail; where the content was
stored before, all of the rest is done all the same. -/
theorem learned_coordinate_spares {place : Workplace σ} (hreachable : place.catalog.store.Reachable)
    {candidate : Candidate} (hlink : candidate.link.isSome) {outcome : Outcome}
    {plain : Workplace σ}
    (hplain : (indexer.process (candidate.learning none)).run.run place = (.ok outcome, plain))
    (hfine : outcome.isFailed = false) (name : String) :
    ∃ result left,
      (indexer.process (candidate.learning (some name))).run.run place = (.ok result, left) ∧
      (Store.checkWrite name 0 = .ok () → result = outcome ∧
        ((resolve (candidate.learning (some name))).exec place.catalog).1 =
          ((resolve (candidate.learning none)).exec place.catalog).1 ∧
        plain.catalog.SameButCoordinates left.catalog) ∧
      (Store.checkWrite name 0 ≠ .ok () →
        (∃ item, result = .failed ⟨item, .storage .badKey⟩) ∧
        ∀ id, outcome = .linked id → left.catalog = plain.catalog) := by
  obtain ⟨_, _, hrun, hcatalog, _, htells⟩ := indexer.process_tells (candidate.learning none) place
  cases hplain.symm.trans hrun
  obtain ⟨answer, hanswer, hconcludes⟩ := htells.of_not_failed hfine
  have hattempt : ((indexer.attemptOn candidate).learning none).run.exec place.catalog =
      (.ok answer, plain.catalog) := Prod.ext hanswer hcatalog.symm
  obtain ⟨hfits, hunfit⟩ := Attempt.run_learning_spec hreachable hlink hattempt name
  obtain ⟨result, left, htold, hleft, _, htellsToo⟩ :=
    indexer.process_tells (candidate.learning (some name)) place
  refine ⟨result, left, htold, ?_, ?_⟩
  · intro hkey
    obtain ⟨last, hlearned, hsame⟩ := hfits hkey
    have hlast : left.catalog = last := hleft.trans (congrArg Prod.snd hlearned)
    have hended : ((indexer.attemptOn (candidate.learning (some name))).run.exec
        place.catalog).1 = .ok answer := congrArg Prod.fst hlearned
    rw [hended] at htellsToo
    have hresult : Concludes result answer := htellsToo
    refine ⟨hresult.eq_outcomeOf.trans hconcludes.eq_outcomeOf.symm, ?_, ?_⟩
    · have hwith := Attempt.resolve_of_run hended
      exact hwith.trans (Attempt.resolve_of_run (congrArg Prod.fst hattempt)).symm
    · rw [hlast]
      exact hsame
  · intro hkey
    obtain ⟨last, hrefused, hdone⟩ := hunfit hkey
    have hlast : left.catalog = last := hleft.trans (congrArg Prod.snd hrefused)
    have hended : ((indexer.attemptOn (candidate.learning (some name))).run.exec
        place.catalog).1 = .error (.storage .badKey) := congrArg Prod.fst hrefused
    rw [hended] at htellsToo
    refine ⟨htellsToo, ?_⟩
    rintro id rfl
    rw [hlast]
    cases answer with
    | known owner => exact hdone owner rfl
    | index owner created | outdated owner | unindexable => cases hconcludes.eq_outcomeOf

/-! ### A file that another one bundles -/

namespace Bundled

/-- An archive without entries. -/
def emptyJar : ByteArray :=
  ⟨#[80, 75, 5, 6, 0, 0, 0, 0, 0, 0, 0, 0, 0, 0, 0, 0, 0, 0, 0, 0, 0, 0]⟩

def file : Candidate := OneJar.candidate emptyJar "g" OneJar.link

/-- A file that bundles the same content under an identifier. -/
def host (identifier : String) : Candidate :=
  { OneJar.candidate emptyJar "h" ⟨OneJar.link.platform, 2, 20⟩ with
    bundled := [(identifier, ⟨"1"⟩, .node file.artifact [])] }

theorem expand_host (identifier : String) : expand [host identifier, file] .empty =
    [{ host identifier with bundled := [] }, file.learning (some identifier)] := rfl

/-- The outcome of a file that has learned a coordinate, or none, where nothing is stored. -/
def outcome (coordinate : Option String) : Except Fault Outcome :=
  (((OneJar.indexer .full).process (file.learning coordinate)).run.run (OneJar.stocked .empty)).1

/-- An identifier of 515 bytes. -/
def longIdentifier : String := String.ofList (List.replicate 511 'g') ++ ":lib"

end Bundled

/-- A file is indexed although another one bundles it, under an identifier that fits. -/
theorem learned_coordinate_spares_bundled :
    Store.checkWrite "org.x:lib" 0 = .ok () ∧ Bundled.outcome none = .ok (.indexed 1) ∧
      Bundled.outcome (some "org.x:lib") = .ok (.indexed 1) := by
  have hplain : Bundled.outcome none = .ok (.indexed 1) := by decide +kernel
  have hfits : Store.checkWrite "org.x:lib" 0 = .ok () := by decide +kernel
  have hreachable : (OneJar.stocked .empty).catalog.store.Reachable := ⟨[], rfl⟩
  have hlink : Bundled.file.link.isSome := rfl
  obtain ⟨result, left, htold, hspared, _⟩ := learned_coordinate_spares (OneJar.indexer .full)
    hreachable hlink (Prod.ext hplain rfl) rfl "org.x:lib"
  obtain ⟨rfl, _⟩ := hspared hfits
  exact ⟨hfits, hplain, congrArg Prod.fst htold⟩

/-- A file that is indexed otherwise fails where another one bundles it under an identifier that is
too long. -/
theorem bundled_file_fails :
    (OneJar.stocked .empty).catalog.store.Reachable ∧ Bundled.file.link.isSome ∧
      Bundled.file.learning (some Bundled.longIdentifier) ∈
        expand [Bundled.host Bundled.longIdentifier, Bundled.file] .empty ∧
      Bundled.outcome none = .ok (.indexed 1) ∧
      Bundled.outcome (some Bundled.longIdentifier) =
        .ok (.failed ⟨Bundled.file.label, .storage .badKey⟩) := by
  refine ⟨⟨[], rfl⟩, rfl, ?_, by decide +kernel, by decide +kernel⟩
  rw [Bundled.expand_host]
  exact List.mem_cons_of_mem _ List.mem_cons_self

end Indexer

end ModCatalog
