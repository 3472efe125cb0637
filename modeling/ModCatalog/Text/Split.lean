/-!
# Cutting lists

Cuts of a list at the first or at every element that satisfies a test, and the search for one list
inside another.
-/

namespace ModCatalog.Text

variable {α : Type}

/-- The parts before and after the first element that satisfies `test`, if there is one. -/
def splitFirst? (test : α → Bool) : List α → Option (List α × List α)
  | [] => none
  | x :: rest =>
      if test x then some ([], rest)
      else (splitFirst? test rest).map fun (before, after) => (x :: before, after)

/-- A cut leaves out the one element it was made at. -/
theorem splitFirst?_eq_some_iff {test : α → Bool} {list before after : List α} :
    splitFirst? test list = some (before, after) ↔
      ∃ x, test x = true ∧ (∀ y ∈ before, test y = false) ∧ list = before ++ x :: after := by
  induction list generalizing before with
  | nil => simp [splitFirst?]
  | cons x rest ih =>
      unfold splitFirst?
      by_cases hx : test x = true
      · rw [if_pos hx]
        constructor
        · intro h
          obtain ⟨rfl, rfl⟩ : [] = before ∧ rest = after := by simpa using h
          exact ⟨x, hx, by simp, rfl⟩
        · rintro ⟨y, hy, hb, h⟩
          cases before with
          | nil => simp at h; simp [h.2]
          | cons b bs =>
              have : b = x := by simp at h; exact h.1.symm
              have := hb b (by simp)
              simp_all
      · rw [if_neg hx]
        constructor
        · intro h
          obtain ⟨⟨b, a⟩, hba, h⟩ := Option.map_eq_some_iff.1 h
          obtain ⟨rfl, rfl⟩ : x :: b = before ∧ a = after := by simpa using h
          obtain ⟨y, hy, hb, rfl⟩ := ih.1 hba
          refine ⟨y, hy, ?_, rfl⟩
          intro z hz
          rcases List.mem_cons.1 hz with rfl | hz
          · simpa using hx
          · exact hb z hz
        · rintro ⟨y, hy, hb, h⟩
          cases before with
          | nil => simp at h; simp_all
          | cons b bs =>
              simp at h
              obtain ⟨rfl, h⟩ := h
              exact Option.map_eq_some_iff.2
                ⟨(bs, after), ih.2 ⟨y, hy, fun z hz => hb z (by simp [hz]), h⟩, rfl⟩

/-- No cut is found exactly when no element satisfies the test. -/
theorem splitFirst?_eq_none_iff {test : α → Bool} {list : List α} :
    splitFirst? test list = none ↔ ∀ x ∈ list, test x = false := by
  induction list with
  | nil => simp [splitFirst?]
  | cons x rest ih =>
      by_cases hx : test x = true
      · simp [splitFirst?, hx]
      · simp [splitFirst?, hx, ih]

/-- Add an element in front of the first part of a cut list. -/
def consFirst (x : α) : List (List α) → List (List α)
  | [] => [[x]]
  | part :: parts => (x :: part) :: parts

/-- The parts between the elements that satisfy `test`; there is always at least one. -/
def splitAll (test : α → Bool) : List α → List (List α)
  | [] => [[]]
  | x :: rest => if test x then [] :: splitAll test rest else consFirst x (splitAll test rest)

theorem splitAll_ne_nil (test : α → Bool) (list : List α) : splitAll test list ≠ [] := by
  cases list with
  | nil => simp [splitAll]
  | cons x rest =>
      unfold splitAll
      split
      · simp
      · cases splitAll test rest <;> simp [consFirst]

/-- Whether `part` occurs somewhere in `list` as consecutive elements. -/
def occursIn [BEq α] (part : List α) : List α → Bool
  | [] => part.isEmpty
  | x :: rest => part.isPrefixOf (x :: rest) || occursIn part rest

/-- Put `replacement` in place of every occurrence of a pattern, from the front on. -/
def replaceAll [BEq α] (pattern replacement : List α) : List α → List α
  | [] => []
  | x :: rest =>
      if pattern.isPrefixOf (x :: rest) then
        replacement ++ replaceAll pattern replacement (rest.drop (pattern.length - 1))
      else x :: replaceAll pattern replacement rest
termination_by list => list.length
decreasing_by
  all_goals
    simp only [List.length_drop, List.length_cons]
    omega

/-- Remove a list from the front, if it is there. -/
def stripFront? [BEq α] (front list : List α) : Option (List α) :=
  if front.isPrefixOf list then some (list.drop front.length) else none

/-- Remove a list from the end, if it is there. -/
def stripEnd? [BEq α] (ending list : List α) : Option (List α) :=
  if ending.isSuffixOf list then some (list.take (list.length - ending.length)) else none

/-- The part after the last element that satisfies `test`; the whole list if there is none. -/
def afterLast (test : α → Bool) (list : List α) : List α :=
  (list.reverse.takeWhile fun x => !test x).reverse

end ModCatalog.Text
