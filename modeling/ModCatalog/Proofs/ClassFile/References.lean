import Mathlib.Data.Prod.Lex
import Mathlib.Data.String.Basic
import ModCatalog.ClassFile.Draft
import ModCatalog.Proofs.Answers
import ModCatalog.Proofs.Collection.Sorted

/-!
# Counting references

References are in a linear order, by owner, member and kind.  So the table of a record stays sorted
while uses are counted, and it states of each reference how often it was counted.  Uses that are
counted one after another are counted exactly, unless one of them occurs too often for its count: no
step fails of which the exact counts do not tell it.
-/

namespace ModCatalog

namespace ClassFile

namespace Reference

/-- What references are ordered by. -/
def sortKey (reference : Reference) : String ×ₗ String ×ₗ Nat :=
  toLex (reference.owner, toLex (reference.member, reference.kind.rank))

theorem lt_iff_sortKey_lt {first second : Reference} :
    first < second ↔ first.sortKey < second.sortKey := by
  simp only [sortKey, Prod.Lex.toLex_lt_toLex]
  exact Iff.rfl

theorem sortKey_injective : Function.Injective sortKey := by
  intro first second h
  obtain ⟨howner, hrest⟩ := Prod.mk.inj (toLex.injective h)
  obtain ⟨hmember, hrank⟩ := Prod.mk.inj (toLex.injective hrest)
  cases first
  cases second
  exact congr (congr (congrArg Reference.mk howner) hmember) (RefKind.rank_injective hrank)

instance : Std.Irrefl (α := Reference) (· < ·) where
  irrefl _ h := lt_irrefl _ (lt_iff_sortKey_lt.mp h)

instance : Trans (α := Reference) (· < ·) (· < ·) (· < ·) where
  trans h h' := lt_iff_sortKey_lt.mpr (lt_trans (lt_iff_sortKey_lt.mp h) (lt_iff_sortKey_lt.mp h'))

instance : Std.Trichotomous (α := Reference) (· < ·) where
  trichotomous first second hnot hnot' := by
    rw [lt_iff_sortKey_lt] at hnot hnot'
    exact sortKey_injective (le_antisymm (not_lt.mp hnot') (not_lt.mp hnot))

end Reference

namespace ClassRecord

theorem isSorted_setCount {record : ClassRecord} (h : Sorted.IsSorted record.references)
    (reference : Reference) (count : Nat) :
    Sorted.IsSorted (record.setCount reference count).references :=
  h.alter reference _

theorem uses_setCount (record : ClassRecord) (reference other : Reference) (count : Nat) :
    (record.setCount reference count).uses other =
      if reference = other then count else record.uses other := by
  unfold uses setCount
  split
  · next hsame => rw [← hsame, Sorted.find?_insert_self, Option.getD_some]
  · next hne => rw [Sorted.find?_insert_of_ne (Ne.symm hne)]

/-! ## Exact counts -/

/-- A record after more uses, however often they occur. -/
def withUses (record : ClassRecord) (references : List Reference) : ClassRecord :=
  references.foldl (fun record reference => record.setCount reference (record.uses reference + 1))
    record

theorem withUses_cons (record : ClassRecord) (first : Reference) (rest : List Reference) :
    record.withUses (first :: rest) =
      (record.setCount first (record.uses first + 1)).withUses rest := rfl

/-- Nothing but the counts is changed. -/
theorem withUses_eq (record : ClassRecord) (references : List Reference) :
    record.withUses references =
      { record with references := (record.withUses references).references } := by
  induction references generalizing record with
  | nil => rfl
  | cons first rest ih =>
      rw [withUses_cons, ih]
      rfl

theorem isSorted_withUses {record : ClassRecord} (h : Sorted.IsSorted record.references)
    (references : List Reference) :
    Sorted.IsSorted (record.withUses references).references := by
  induction references generalizing record with
  | nil => exact h
  | cons first rest ih => exact ih (isSorted_setCount h first _)

/-- Uses are counted as often as they occur. -/
theorem uses_withUses (record : ClassRecord) (references : List Reference)
    (reference : Reference) :
    (record.withUses references).uses reference =
      record.uses reference + references.count reference := by
  induction references generalizing record with
  | nil => rfl
  | cons first rest ih =>
      rw [withUses_cons, ih, uses_setCount, List.count_cons]
      by_cases hsame : first = reference
      · subst hsame
        simp only [if_true, beq_self_eq_true]
        omega
      · simp only [if_neg hsame, beq_iff_eq]
        omega

/-! ## Counts that fit -/

/-- Whether no use occurs too often to be counted. -/
def CanCount (record : ClassRecord) (references : List Reference) : Prop :=
  ∀ reference ∈ references,
    record.uses reference + references.count reference ≤ maxCount

instance (record : ClassRecord) (references : List Reference) :
    Decidable (record.CanCount references) :=
  inferInstanceAs (Decidable (∀ reference ∈ references, _))

theorem canCount_nil (record : ClassRecord) : record.CanCount [] := nofun

theorem maxCount_eq : maxCount = 4294967295 := rfl

/-- Few uses can always be counted. -/
theorem canCount_of_length_le {record : ClassRecord} {references : List Reference}
    (hnone : record.references = []) (h : references.length ≤ maxCount) :
    record.CanCount references := by
  intro reference _
  have hunused : record.uses reference = 0 := by rw [uses, hnone]; rfl
  have hcount := List.count_le_length (a := reference) (l := references)
  omega

/-- The counts of uses fit if the first one can be counted and then the others can. -/
theorem canCount_cons {record : ClassRecord} {first : Reference} {rest : List Reference} :
    record.CanCount (first :: rest) ↔ record.uses first < maxCount ∧
      (record.setCount first (record.uses first + 1)).CanCount rest := by
  have hcount : ∀ reference,
      (record.setCount first (record.uses first + 1)).uses reference + rest.count reference =
        record.uses reference + (first :: rest).count reference := fun reference =>
    (uses_withUses _ rest reference).symm.trans (uses_withUses record (first :: rest) reference)
  constructor
  · intro h
    refine ⟨?_, fun reference hreference => ?_⟩
    · have hfirst := h first List.mem_cons_self
      rw [List.count_cons_self] at hfirst
      omega
    · rw [hcount]
      exact h reference (List.mem_cons_of_mem _ hreference)
  · rintro ⟨hfirst, hrest⟩ reference hreference
    by_cases hlater : reference ∈ rest
    · rw [← hcount]
      exact hrest reference hlater
    · cases (List.mem_cons.mp hreference).resolve_right hlater
      rw [List.count_cons_self, List.count_eq_zero_of_not_mem hlater]
      omega

/-- Counting uses one after another gives the exact counts if these fit, and else is a defect. -/
theorem addReferences_eq (record : ClassRecord) (references : List Reference) :
    record.addReferences references =
      if record.CanCount references then .ok (record.withUses references)
      else .error .countTooGreat := by
  unfold addReferences
  induction references generalizing record with
  | nil => rw [if_pos record.canCount_nil]; rfl
  | cons first rest ih =>
      rw [List.foldlM_cons, addReference]
      by_cases hfull : maxCount ≤ record.uses first
      · have hnot : ¬ record.CanCount (first :: rest) := fun h =>
          absurd (canCount_cons.mp h).1 (Nat.not_lt.mpr hfull)
        rw [if_pos hfull, if_neg hnot]
        rfl
      · rw [if_neg hfull, ok_bind, ih]
        simp only [canCount_cons, Nat.not_le.mp hfull, true_and, withUses_cons]

end ClassRecord

/-! ## Drafts -/

namespace Draft

variable {draft after : Draft} {references : List Reference}

/-- A draft after more uses, however often they occur. -/
def withUses (draft : Draft) (references : List Reference) : Draft :=
  { draft with record := draft.record.withUses references }

@[simp] theorem collects_withUses (draft : Draft) (references : List Reference) :
    (draft.withUses references).collects = draft.collects := rfl

@[simp] theorem rawSuper_withUses (draft : Draft) (references : List Reference) :
    (draft.withUses references).rawSuper = draft.rawSuper := rfl

theorem use_eq (draft : Draft) (references : List Reference) :
    draft.use references =
      if draft.record.CanCount references then .ok (draft.withUses references)
      else .error .countTooGreat := by
  rw [use, ClassRecord.addReferences_eq]
  split <;> rfl

theorem eq_withUses_of_use (h : draft.use references = .ok after) :
    after = draft.withUses references := by
  rw [use_eq] at h
  split at h
  · exact (Except.ok.inj h).symm
  · cases h

theorem collects_of_use (h : draft.use references = .ok after) :
    after.collects = draft.collects := by
  rw [eq_withUses_of_use h, collects_withUses]

theorem rawSuper_of_use (h : draft.use references = .ok after) :
    after.rawSuper = draft.rawSuper := by
  rw [eq_withUses_of_use h, rawSuper_withUses]

theorem use_append (draft : Draft) (references more : List Reference) :
    draft.use (references ++ more) = draft.use references >>= fun used => used.use more := by
  simp only [use, ClassRecord.addReferences, List.foldlM_append, bind_assoc, pure_bind]

end Draft

end ClassFile

end ModCatalog
