/-!
# Sorted association lists

Lists of pairs in increasing order of their keys, with one entry for each key.  The lookup lemmas
hold for every list; only the order of the entries needs the list to be sorted.
-/

namespace ModCatalog.Sorted

variable {κ α : Type} [LT κ] [DecidableLT κ] [DecidableEq κ]

/-- Change the value of a key, where `update` sees the old value if there is one. -/
def alter (key : κ) (update : Option α → α) : List (κ × α) → List (κ × α)
  | [] => [(key, update none)]
  | (k, value) :: rest =>
      if key < k then (key, update none) :: (k, value) :: rest
      else if key = k then (key, update (some value)) :: rest
      else (k, value) :: alter key update rest

/-- Give a key a value in place of its old one. -/
def insert (key : κ) (value : α) (entries : List (κ × α)) : List (κ × α) :=
  alter key (fun _ => value) entries

/-- The entries of a list of pairs; the last of several with one key counts. -/
def ofList (pairs : List (κ × α)) : List (κ × α) :=
  pairs.foldl (fun entries pair => insert pair.1 pair.2 entries) []

def find? (key : κ) : List (κ × α) → Option α
  | [] => none
  | (k, value) :: rest => if key = k then some value else find? key rest

/-- A list is sorted when each key is below all keys after it. -/
def IsSorted (entries : List (κ × α)) : Prop := entries.Pairwise fun x y => x.1 < y.1

omit [LT κ] [DecidableLT κ] in
theorem find?_cons_ne {key k : κ} (h : key ≠ k) (value : α) (rest : List (κ × α)) :
    find? key ((k, value) :: rest) = find? key rest := by
  simp [find?, h]

theorem find?_insert_self (key : κ) (value : α) (entries : List (κ × α)) :
    find? key (insert key value entries) = some value := by
  unfold insert
  induction entries with
  | nil => simp [alter, find?]
  | cons entry rest ih =>
      obtain ⟨k, old⟩ := entry
      unfold alter
      split
      · simp [find?]
      · split
        · simp [find?]
        · next hne => rw [find?_cons_ne hne, ih]

theorem find?_alter_of_ne {key other : κ} (h : other ≠ key) (update : Option α → α)
    (entries : List (κ × α)) : find? other (alter key update entries) = find? other entries := by
  induction entries with
  | nil => simp [alter, find?, h]
  | cons entry rest ih =>
      obtain ⟨k, old⟩ := entry
      unfold alter
      split
      · rw [find?_cons_ne h]
      · split
        · next he => subst he; rw [find?_cons_ne h, find?_cons_ne h]
        · by_cases hk : other = k
          · simp [find?, hk]
          · rw [find?_cons_ne hk, find?_cons_ne hk, ih]

theorem find?_insert_of_ne {key other : κ} (h : other ≠ key) (value : α)
    (entries : List (κ × α)) : find? other (insert key value entries) = find? other entries :=
  find?_alter_of_ne h _ entries

theorem mem_alter {key : κ} {update : Option α → α} {entries : List (κ × α)} {entry : κ × α}
    (h : entry ∈ alter key update entries) : entry.1 = key ∨ entry ∈ entries := by
  induction entries with
  | nil => exact Or.inl (congrArg Prod.fst (List.mem_singleton.mp h))
  | cons first rest ih =>
      obtain ⟨k, old⟩ := first
      unfold alter at h
      split at h
      · rcases List.mem_cons.mp h with rfl | hold
        · exact Or.inl rfl
        · exact Or.inr hold
      · split at h
        · rcases List.mem_cons.mp h with rfl | hrest
          · exact Or.inl rfl
          · exact Or.inr (List.mem_cons_of_mem _ hrest)
        · rcases List.mem_cons.mp h with rfl | hlater
          · exact Or.inr List.mem_cons_self
          · exact (ih hlater).imp_right (List.mem_cons_of_mem _)

/-- Changing a value leaves a list sorted where keys are in a linear order. -/
theorem IsSorted.alter [Trans (α := κ) (· < ·) (· < ·) (· < ·)]
    [Std.Trichotomous (α := κ) (· < ·)] {entries : List (κ × α)} (hsorted : IsSorted entries)
    (key : κ) (update : Option α → α) : IsSorted (alter key update entries) := by
  induction entries with
  | nil => exact List.pairwise_singleton _ _
  | cons first rest ih =>
      obtain ⟨k, old⟩ := first
      obtain ⟨hfirst, hrest⟩ := List.pairwise_cons.mp hsorted
      unfold Sorted.alter
      split
      · next hlt =>
          refine List.pairwise_cons.mpr ⟨?_, hsorted⟩
          intro entry hentry
          rcases List.mem_cons.mp hentry with rfl | hlater
          · exact hlt
          · exact Trans.trans hlt (hfirst entry hlater)
      · next hnot =>
          split
          · next hkey =>
              subst hkey
              exact List.pairwise_cons.mpr ⟨hfirst, hrest⟩
          · next hkey =>
              refine List.pairwise_cons.mpr ⟨?_, ih hrest⟩
              intro entry hentry
              rcases mem_alter hentry with hsame | hlater
              · rw [hsame]
                rcases Std.Trichotomous.rel_or_eq_or_rel_swap (r := (· < ·))
                  (a := key) (b := k) with hlt | heq | hgt
                · exact absurd hlt hnot
                · exact absurd heq hkey
                · exact hgt
              · exact hfirst entry hlater

end ModCatalog.Sorted
