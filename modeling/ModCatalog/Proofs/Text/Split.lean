import ModCatalog.Text.Split

/-!
# Parts of cut lists

No element that a cut is made at is in a part; so the cuts of two lists with such an element between
them are the cuts of both.
-/

namespace ModCatalog.Text

variable {α : Type}

theorem test_of_mem_splitAll {test : α → Bool} {list part : List α}
    (hpart : part ∈ splitAll test list) : ∀ x ∈ part, test x = false := by
  induction list generalizing part with
  | nil =>
      obtain rfl := List.mem_singleton.mp hpart
      simp
  | cons first rest ih =>
      unfold splitAll at hpart
      split at hpart
      · rcases List.mem_cons.mp hpart with rfl | hrest
        · simp
        · exact ih hrest
      · next hfirst =>
          cases hparts : splitAll test rest with
          | nil => exact absurd hparts (splitAll_ne_nil test rest)
          | cons front parts =>
              rw [hparts] at hpart ih
              rcases List.mem_cons.mp hpart with rfl | hlater
              · have hfront := ih List.mem_cons_self
                exact List.forall_mem_cons.mpr ⟨by simpa using hfirst, hfront⟩
              · exact ih (List.mem_cons_of_mem _ hlater)

theorem splitAll_append {test : α → Bool} {x : α} (hx : test x)
    (before after : List α) :
    splitAll test (before ++ x :: after) = splitAll test before ++ splitAll test after := by
  induction before with
  | nil => simp [splitAll, hx]
  | cons first rest ih =>
      simp only [List.cons_append, splitAll, ih]
      split
      · rfl
      · cases hparts : splitAll test rest with
        | nil => exact absurd hparts (splitAll_ne_nil test rest)
        | cons front parts => rfl

theorem splitAll_eq_self {test : α → Bool} {list : List α}
    (hlist : ∀ x ∈ list, test x = false) : splitAll test list = [list] := by
  induction list with
  | nil => rfl
  | cons first rest ih =>
      obtain ⟨hfirst, hrest⟩ := List.forall_mem_cons.mp hlist
      unfold splitAll
      rw [ih hrest, if_neg (by simp [hfirst])]
      rfl

end ModCatalog.Text
