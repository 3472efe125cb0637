import Mathlib.Data.List.Induction
import Mathlib.Data.List.Perm.Basic
import Mathlib.Data.String.Basic
import ModCatalog.Collection.Sorted

/-!
# Entries of sorted association lists

What is found after changes, and what is left of a list of pairs: of several pairs with one key the
last one, of pairs with different keys all of them.
-/

namespace ModCatalog.Sorted

variable {κ α : Type} [LT κ] [DecidableLT κ] [DecidableEq κ]

/-! ## Lookups -/

omit [LT κ] [DecidableLT κ] in
theorem mem_of_find?_eq_some {key : κ} {entries : List (κ × α)} {value : α}
    (h : find? key entries = some value) : (key, value) ∈ entries := by
  induction entries with
  | nil => cases h
  | cons entry rest ih =>
      obtain ⟨k, old⟩ := entry
      by_cases hkey : key = k
      · subst hkey
        rw [find?, if_pos rfl] at h
        cases h
        exact List.mem_cons_self
      · rw [find?_cons_ne hkey] at h
        exact List.mem_cons_of_mem _ (ih h)

omit [LT κ] [DecidableLT κ] in
theorem find?_of_mem {key : κ} {entries : List (κ × α)} {value : α}
    (hkeys : (entries.map Prod.fst).Nodup) (h : (key, value) ∈ entries) :
    find? key entries = some value := by
  induction entries with
  | nil => cases h
  | cons entry rest ih =>
      obtain ⟨k, old⟩ := entry
      obtain ⟨hfirst, hrest⟩ := List.nodup_cons.mp hkeys
      rcases List.mem_cons.mp h with hsame | hlater
      · cases hsame
        rw [find?, if_pos rfl]
      · have hne : key ≠ k := by
          rintro rfl
          exact hfirst (List.mem_map.mpr ⟨_, hlater, rfl⟩)
        rw [find?_cons_ne hne, ih hrest hlater]

omit [LT κ] [DecidableLT κ] in
/-- Where every key has one entry, what is found among some of the entries is found among all. -/
theorem find?_of_find?_filter {key : κ} {entries : List (κ × α)} {keep : κ × α → Bool} {value : α}
    (hkeys : (entries.map Prod.fst).Nodup) (h : find? key (entries.filter keep) = some value) :
    find? key entries = some value :=
  find?_of_mem hkeys (List.mem_of_mem_filter (mem_of_find?_eq_some h))

/-! ## Changes -/

/-- Of two values that a key is given, the second one counts. -/
theorem insert_insert [Std.Irrefl (α := κ) (· < ·)] (key : κ) (first second : α)
    (entries : List (κ × α)) :
    insert key second (insert key first entries) = insert key second entries := by
  have hself : ¬key < key := Std.Irrefl.irrefl key
  unfold insert
  induction entries with
  | nil => simp [alter, hself]
  | cons entry rest ih =>
      obtain ⟨k, old⟩ := entry
      by_cases hlt : key < k
      · simp [alter, hlt, hself]
      · by_cases hsame : key = k
        · subst hsame
          simp [alter, hself]
        · simp [alter, hlt, hsame, ih]

theorem perm_insert {key : κ} {entries : List (κ × α)} (h : key ∉ entries.map Prod.fst)
    (value : α) : (insert key value entries).Perm ((key, value) :: entries) := by
  unfold insert
  induction entries with
  | nil => exact .refl _
  | cons entry rest ih =>
      obtain ⟨k, old⟩ := entry
      rw [List.map_cons, List.mem_cons, not_or] at h
      unfold alter
      split
      · exact .refl _
      · rw [if_neg h.1]
        exact ((ih h.2).cons _).trans (.swap _ _ _)

/-! ## Lists of pairs -/

/-- Whether entries are those of a list of pairs: in increasing order of their keys, where the last of
several pairs with one key counts. -/
structure Collects (pairs entries : List (κ × α)) : Prop where
  sorted : IsSorted entries
  last : ∀ key, find? key entries = (pairs.findRev? fun pair => pair.1 = key).map Prod.snd

theorem ofList_concat (pairs : List (κ × α)) (last : κ × α) :
    ofList (pairs ++ [last]) = insert last.1 last.2 (ofList pairs) := by
  unfold ofList
  rw [List.foldl_append, List.foldl_cons, List.foldl_nil]

theorem collects_ofList [Trans (α := κ) (· < ·) (· < ·) (· < ·)]
    [Std.Trichotomous (α := κ) (· < ·)] (pairs : List (κ × α)) : Collects pairs (ofList pairs) := by
  induction pairs using List.reverseRecOn with
  | nil => exact ⟨.nil, fun _ => rfl⟩
  | append_singleton pairs last ih =>
      rw [ofList_concat]
      refine ⟨ih.sorted.alter last.1 _, fun key => ?_⟩
      rw [List.findRev?_eq_find?_reverse, List.reverse_concat, List.find?_cons]
      by_cases hkey : last.1 = key
      · subst hkey
        rw [find?_insert_self]
        simp
      · rw [find?_insert_of_ne (Ne.symm hkey), ih.last key, List.findRev?_eq_find?_reverse]
        simp [hkey]

/-- An entry is the last of the pairs with its key. -/
theorem Collects.mem_iff {pairs entries : List (String × α)}
    (h : Collects pairs entries) {key : String} {value : α} :
    (key, value) ∈ entries ↔ ∃ earlier later, pairs = earlier ++ (key, value) :: later ∧
      ∀ other ∈ later, other.1 ≠ key := by
  have hkeys : (entries.map Prod.fst).Nodup := List.pairwise_map.mpr (h.sorted.imp ne_of_lt)
  have hfound : (key, value) ∈ entries ↔ find? key entries = some value :=
    ⟨find?_of_mem hkeys, mem_of_find?_eq_some⟩
  rw [hfound, h.last key, List.findRev?_eq_find?_reverse, Option.map_eq_some_iff]
  constructor
  · rintro ⟨⟨_, _⟩, hpair, rfl⟩
    obtain ⟨hkey, before, after, hsplit, hbefore⟩ := List.find?_eq_some_iff_append.mp hpair
    cases of_decide_eq_true hkey
    refine ⟨after.reverse, before.reverse, ?_, fun other hother => ?_⟩
    · rw [← List.reverse_reverse pairs, hsplit]
      simp
    · simpa using hbefore other (List.mem_reverse.mp hother)
  · rintro ⟨earlier, later, rfl, hlater⟩
    refine ⟨(key, value), List.find?_eq_some_iff_append.mpr ⟨decide_eq_true rfl, ?_⟩, rfl⟩
    refine ⟨later.reverse, earlier.reverse, by simp, fun other hother => ?_⟩
    simpa using hlater other (List.mem_reverse.mp hother)

/-- With one pair for each key, all pairs are entries. -/
theorem perm_ofList {pairs : List (κ × α)} (h : (pairs.map Prod.fst).Nodup) :
    (ofList pairs).Perm pairs := by
  induction pairs using List.reverseRecOn with
  | nil => exact .refl _
  | append_singleton pairs last ih =>
      have hconcat : (pairs ++ [last]).Perm (last :: pairs) := List.perm_append_singleton last pairs
      obtain ⟨hlast, hpairs⟩ := List.nodup_cons.mp ((hconcat.map Prod.fst).nodup_iff.mp h)
      have hperm := ih hpairs
      have hnew : last.1 ∉ (ofList pairs).map Prod.fst := fun hmem =>
        hlast ((hperm.map Prod.fst).mem_iff.mp hmem)
      rw [ofList_concat]
      exact (perm_insert hnew last.2).trans ((hperm.cons last).trans hconcat.symm)

/-- With one pair for each key, the order of the pairs does not matter. -/
theorem ofList_of_perm [Std.Irrefl (α := κ) (· < ·)] [Trans (α := κ) (· < ·) (· < ·) (· < ·)]
    [Std.Trichotomous (α := κ) (· < ·)] {pairs others : List (κ × α)}
    (h : pairs.Perm others) (hkeys : (pairs.map Prod.fst).Nodup) : ofList others = ofList pairs := by
  have hothers : (others.map Prod.fst).Nodup := (h.map Prod.fst).nodup_iff.mp hkeys
  have hperm : (ofList others).Perm (ofList pairs) :=
    (perm_ofList hothers).trans (h.symm.trans (perm_ofList hkeys).symm)
  refine hperm.eq_of_pairwise (fun first second _ _ hlt hgt => ?_)
    (collects_ofList others).sorted (collects_ofList pairs).sorted
  exact absurd (Trans.trans hlt hgt) (Std.Irrefl.irrefl first.1)

end ModCatalog.Sorted
