import Mathlib.Data.List.Nodup
import ModCatalog.Indexing.Run

/-!
# The waves of a pass

The first wave holds the candidates whose content occurs nowhere before them, the second wave all
others, both in the order in which the candidates were found.  Whether a content occurs before is
asked here of the positions in the whole list; the waves themselves go through the list once and
remember the contents that they have met.
-/

namespace ModCatalog

/-- The contents of candidates. -/
def contentHashes (candidates : List Candidate) : List String :=
  candidates.map fun candidate => candidate.artifact.contentHash

/-- Whether the content at a position is at an earlier position as well. -/
def RepeatsAt (candidates : List Candidate) (position : Nat) : Prop :=
  ∃ earlier < position, (contentHashes candidates)[earlier]? = (contentHashes candidates)[position]?

instance (candidates : List Candidate) : DecidablePred (RepeatsAt candidates) := fun position =>
  inferInstanceAs (Decidable (∃ earlier < position,
    (contentHashes candidates)[earlier]? = (contentHashes candidates)[position]?))

/-- The candidates at chosen positions, in order; the first one is at position `start`. -/
def atPositions (chosen : Nat → Prop) [DecidablePred chosen] (start : Nat)
    (candidates : List Candidate) : List Candidate :=
  ((candidates.zipIdx start).filter fun entry => chosen entry.2).map Prod.fst

/-- The candidates whose content is at no earlier position. -/
def firstOccurrences (candidates : List Candidate) : List Candidate :=
  atPositions (fun position => ¬RepeatsAt candidates position) 0 candidates

/-- The candidates whose content is at an earlier position. -/
def laterOccurrences (candidates : List Candidate) : List Candidate :=
  atPositions (RepeatsAt candidates) 0 candidates

/-! ## One pass through the candidates -/

variable {seen : List String} {candidate : Candidate}

theorem splitRepeated_of_seen (hseen : candidate.artifact.contentHash ∈ seen)
    (rest : List Candidate) :
    splitRepeated seen (candidate :: rest) =
      ((splitRepeated seen rest).1, candidate :: (splitRepeated seen rest).2) := by
  rw [splitRepeated]
  exact if_pos (List.contains_iff_mem.mpr hseen)

theorem splitRepeated_of_new (hnew : candidate.artifact.contentHash ∉ seen)
    (rest : List Candidate) :
    splitRepeated seen (candidate :: rest) =
      (candidate :: (splitRepeated (candidate.artifact.contentHash :: seen) rest).1,
        (splitRepeated (candidate.artifact.contentHash :: seen) rest).2) := by
  rw [splitRepeated]
  exact if_neg fun hcontains => hnew (List.contains_iff_mem.mp hcontains)

theorem splitRepeated_perm (seen : List String) (candidates : List Candidate) :
    ((splitRepeated seen candidates).1 ++ (splitRepeated seen candidates).2).Perm candidates := by
  induction candidates generalizing seen with
  | nil => exact .refl _
  | cons candidate rest ih =>
      by_cases hseen : candidate.artifact.contentHash ∈ seen
      · rw [splitRepeated_of_seen hseen]
        exact List.perm_middle.trans ((ih seen).cons candidate)
      · rw [splitRepeated_of_new hseen]
        exact (ih _).cons candidate

/-- The first wave has the contents that were not met before. -/
theorem mem_contentHashes_splitRepeated (seen : List String) (candidates : List Candidate)
    (hash : String) :
    hash ∈ contentHashes (splitRepeated seen candidates).1 ↔
      hash ∈ contentHashes candidates ∧ hash ∉ seen := by
  induction candidates generalizing seen with
  | nil => simp [splitRepeated, contentHashes]
  | cons candidate rest ih =>
      by_cases hseen : candidate.artifact.contentHash ∈ seen
      · rw [splitRepeated_of_seen hseen, ih]
        grind [contentHashes]
      · rw [splitRepeated_of_new hseen]
        grind [contentHashes]

theorem nodup_contentHashes_splitRepeated (seen : List String) (candidates : List Candidate) :
    (contentHashes (splitRepeated seen candidates).1).Nodup := by
  induction candidates generalizing seen with
  | nil => exact List.nodup_nil
  | cons candidate rest ih =>
      by_cases hseen : candidate.artifact.contentHash ∈ seen
      · rw [splitRepeated_of_seen hseen]
        exact ih seen
      · rw [splitRepeated_of_new hseen]
        refine List.nodup_cons.mpr ⟨fun hmem => ?_, ih _⟩
        exact ((mem_contentHashes_splitRepeated _ _ _).mp hmem).2 List.mem_cons_self

/-- Nothing is left for the second wave exactly if no content is met twice. -/
theorem splitRepeated_later_eq_nil_iff (seen : List String) (candidates : List Candidate) :
    (splitRepeated seen candidates).2 = [] ↔
      (contentHashes candidates).Nodup ∧ ∀ hash ∈ contentHashes candidates, hash ∉ seen := by
  induction candidates generalizing seen with
  | nil => simp [splitRepeated, contentHashes]
  | cons candidate rest ih =>
      by_cases hseen : candidate.artifact.contentHash ∈ seen
      · rw [splitRepeated_of_seen hseen]
        simp [contentHashes, hseen]
      · rw [splitRepeated_of_new hseen, ih]
        grind [contentHashes]

/-! ## The positions -/

/-- A content repeats if it is among those that stand before its position. -/
theorem repeatsAt_length_iff (before : List Candidate) (candidate : Candidate)
    (rest : List Candidate) :
    RepeatsAt (before ++ candidate :: rest) before.length ↔
      candidate.artifact.contentHash ∈ contentHashes before := by
  have hhashes : contentHashes (before ++ candidate :: rest) =
      contentHashes before ++ candidate.artifact.contentHash :: contentHashes rest :=
    List.map_append
  have hlength : (contentHashes before).length = before.length := List.length_map _
  have hhere : (contentHashes (before ++ candidate :: rest))[before.length]? =
      some candidate.artifact.contentHash := by
    rw [hhashes, ← hlength, List.getElem?_append_right (Nat.le_refl _), Nat.sub_self]
    rfl
  unfold RepeatsAt
  rw [hhere, hhashes, List.mem_iff_getElem?]
  constructor
  · rintro ⟨earlier, hlt, heq⟩
    rw [List.getElem?_append_left (hlength ▸ hlt)] at heq
    exact ⟨earlier, heq⟩
  · rintro ⟨earlier, heq⟩
    have hlt : earlier < (contentHashes before).length := (List.getElem?_eq_some_iff.mp heq).1
    refine ⟨earlier, hlength ▸ hlt, ?_⟩
    rw [List.getElem?_append_left hlt, heq]

theorem atPositions_cons (chosen : Nat → Prop) [DecidablePred chosen] (start : Nat)
    (candidate : Candidate) (rest : List Candidate) :
    atPositions chosen start (candidate :: rest) =
      if chosen start then candidate :: atPositions chosen (start + 1) rest
      else atPositions chosen (start + 1) rest := by
  unfold atPositions
  rw [List.zipIdx_cons, List.filter_cons]
  by_cases hchosen : chosen start <;> simp [hchosen]

/-- Who remembers exactly the contents of the candidates so far splits the others by whether their
contents repeat in the whole list. -/
theorem splitRepeated_eq_atPositions (before rest : List Candidate) (seen : List String)
    (hseen : ∀ hash, hash ∈ seen ↔ hash ∈ contentHashes before) :
    splitRepeated seen rest =
      (atPositions (fun position => ¬RepeatsAt (before ++ rest) position) before.length rest,
        atPositions (RepeatsAt (before ++ rest)) before.length rest) := by
  induction rest generalizing before seen with
  | nil => rfl
  | cons candidate rest ih =>
      have hrepeats := repeatsAt_length_iff before candidate rest
      rw [← hseen] at hrepeats
      -- The candidate moves to those before; what is remembered must follow.
      have hlater : ∀ seen : List String,
          (∀ hash, hash ∈ seen ↔ hash ∈ contentHashes (before ++ [candidate])) →
          splitRepeated seen rest =
            (atPositions (fun position => ¬RepeatsAt (before ++ candidate :: rest) position)
                (before.length + 1) rest,
              atPositions (RepeatsAt (before ++ candidate :: rest)) (before.length + 1) rest) := by
        intro seen hseen
        have hih := ih (before ++ [candidate]) seen hseen
        rwa [List.append_assoc, List.singleton_append, List.length_append] at hih
      rw [atPositions_cons, atPositions_cons]
      by_cases hmet : candidate.artifact.contentHash ∈ seen
      · rw [splitRepeated_of_seen hmet, if_neg (not_not.mpr (hrepeats.mpr hmet)),
          if_pos (hrepeats.mpr hmet), hlater]
        grind [contentHashes]
      · rw [splitRepeated_of_new hmet, if_pos (mt hrepeats.mp hmet), if_neg (mt hrepeats.mp hmet),
          hlater]
        grind [contentHashes]

theorem splitRepeated_eq (candidates : List Candidate) :
    splitRepeated [] candidates = (firstOccurrences candidates, laterOccurrences candidates) :=
  splitRepeated_eq_atPositions [] candidates [] fun _ => Iff.rfl

theorem firstOccurrences_eq_nil_iff {candidates : List Candidate} :
    firstOccurrences candidates = [] ↔ candidates = [] := by
  cases candidates with
  | nil => exact Iff.rfl
  | cons candidate rest =>
      have hsplit := splitRepeated_eq (candidate :: rest)
      rw [splitRepeated_of_new List.not_mem_nil] at hsplit
      rw [← (Prod.mk.inj hsplit).1]
      simp

theorem laterOccurrences_eq_nil_iff {candidates : List Candidate} :
    laterOccurrences candidates = [] ↔ (contentHashes candidates).Nodup := by
  have hsplit := splitRepeated_later_eq_nil_iff [] candidates
  rw [splitRepeated_eq] at hsplit
  rw [hsplit]
  simp

/-! ## The waves -/

theorem waves_eq (candidates : List Candidate) :
    waves candidates = [firstOccurrences candidates, laterOccurrences candidates].filter
      fun wave => !wave.isEmpty := by
  unfold waves
  rw [splitRepeated_eq]

/-- Waves hold every candidate as often as it was found. -/
theorem flatten_waves_perm (candidates : List Candidate) :
    (waves candidates).flatten.Perm candidates := by
  have hsplit := splitRepeated_perm [] candidates
  rw [splitRepeated_eq] at hsplit
  rw [waves_eq, List.flatten_filter_not_isEmpty, List.flatten_cons, List.flatten_singleton]
  exact hsplit

/-- Waves split the candidates by whether their content occurs earlier: none is lost or empty, the
first wave has every content once, and there is a second wave only if a content repeats. -/
theorem waves_split_by_occurrence (candidates : List Candidate) :
    waves candidates =
        (if candidates.isEmpty then [] else [firstOccurrences candidates]) ++
          (if (contentHashes candidates).Nodup then [] else [laterOccurrences candidates]) ∧
      (waves candidates).flatten.Perm candidates ∧
      (∀ wave ∈ waves candidates, wave ≠ []) ∧
      (contentHashes (firstOccurrences candidates)).Nodup ∧
      ∀ hash, hash ∈ contentHashes (firstOccurrences candidates) ↔
        hash ∈ contentHashes candidates := by
  have hdistinct := nodup_contentHashes_splitRepeated [] candidates
  have hcovers := mem_contentHashes_splitRepeated [] candidates
  rw [splitRepeated_eq] at hdistinct hcovers
  refine ⟨?_, flatten_waves_perm candidates, ?_, hdistinct, ?_⟩
  · rw [waves_eq]
    by_cases hempty : candidates = [] <;> by_cases hnodup : (contentHashes candidates).Nodup <;>
      simp [List.filter_cons, firstOccurrences_eq_nil_iff, laterOccurrences_eq_nil_iff, hempty,
        hnodup]
  · intro wave hwave
    rw [waves_eq, List.mem_filter] at hwave
    simpa using hwave.2
  · intro hash
    rw [hcovers, and_iff_left List.not_mem_nil]

end ModCatalog
