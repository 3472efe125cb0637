import Mathlib.Data.List.Forall2

/-!
# Steps that can fail

A chain of steps has a value if and only if each of its steps has one.
-/

namespace ModCatalog

variable {ε α β : Type}

theorem ok_bind (value : α) (next : α → Except ε β) : (.ok value >>= next) = next value := rfl

theorem bind_eq_ok {answer : Except ε α} {next : α → Except ε β} {result : β} :
    answer >>= next = .ok result ↔ ∃ value, answer = .ok value ∧ next value = .ok result := by
  cases answer with
  | error fault => exact ⟨nofun, nofun⟩
  | ok value => exact ⟨fun h => ⟨value, rfl, h⟩, fun ⟨_, hvalue, h⟩ => by cases hvalue; exact h⟩

theorem bind_eq_error {answer : Except ε α} {next : α → Except ε β} {fault : ε} :
    answer >>= next = .error fault ↔
      answer = .error fault ∨ ∃ value, answer = .ok value ∧ next value = .error fault := by
  cases answer with
  | error other => simp [bind, Except.bind]
  | ok value => simp [ok_bind]

theorem map_eq_ok {answer : Except ε α} {change : α → β} {result : β} :
    answer.map change = .ok result ↔ ∃ value, answer = .ok value ∧ change value = result := by
  cases answer with
  | error fault => exact ⟨nofun, nofun⟩
  | ok value =>
      refine ⟨fun h => ⟨value, rfl, Except.ok.inj h⟩, ?_⟩
      rintro ⟨_, hvalue, rfl⟩
      cases hvalue
      rfl

theorem mapM_eq_ok {step : α → Except ε β} {items : List α} {values : List β} :
    items.mapM step = .ok values ↔
      List.Forall₂ (fun item value => step item = .ok value) items values := by
  induction items generalizing values with
  | nil =>
      rw [List.mapM_nil, List.forall₂_nil_left_iff]
      exact ⟨fun h => (Except.ok.inj h).symm, fun h => congrArg Except.ok h.symm⟩
  | cons item rest ih =>
      rw [List.mapM_cons, bind_eq_ok, List.forall₂_cons_left_iff]
      constructor
      · rintro ⟨value, hvalue, hrest⟩
        obtain ⟨others, hothers, hresult⟩ := bind_eq_ok.mp hrest
        exact ⟨value, others, hvalue, ih.mp hothers, (Except.ok.inj hresult).symm⟩
      · rintro ⟨value, others, hvalue, hothers, rfl⟩
        exact ⟨value, hvalue, bind_eq_ok.mpr ⟨others, ih.mpr hothers, rfl⟩⟩

theorem exists_of_mapM_eq_error {step : α → Except ε β} {items : List α} {fault : ε}
    (h : items.mapM step = .error fault) : ∃ item ∈ items, step item = .error fault := by
  induction items with
  | nil => cases h
  | cons item rest ih =>
      rw [List.mapM_cons] at h
      rcases bind_eq_error.mp h with hitem | ⟨value, -, h⟩
      · exact ⟨item, List.mem_cons_self, hitem⟩
      rcases bind_eq_error.mp h with hrest | ⟨values, -, h⟩
      · obtain ⟨later, hlater, hfault⟩ := ih hrest
        exact ⟨later, List.mem_cons_of_mem _ hlater, hfault⟩
      · cases h

/-- A step fails for a list exactly when it fails for one of its items. -/
theorem mapM_fails_iff {step : α → Except ε β} {items : List α} :
    (∃ fault, items.mapM step = .error fault) ↔ ∃ item ∈ items, ∃ fault, step item = .error fault := by
  constructor
  · rintro ⟨fault, h⟩
    obtain ⟨item, hitem, hfault⟩ := exists_of_mapM_eq_error h
    exact ⟨item, hitem, fault, hfault⟩
  · rintro ⟨item, hitem, fault, hfault⟩
    cases hvalues : items.mapM step with
    | error other => exact ⟨other, rfl⟩
    | ok values =>
        have hall := (mapM_eq_ok.mp hvalues).imp fun item value h =>
          And.intro (Exists.intro value h) h
        obtain ⟨value, hvalue⟩ := ((List.forall₂_and_left _ _).mp hall).1 item hitem
        cases hvalue.symm.trans hfault

theorem mapM_congr {step other : α → Except ε β} {items : List α}
    (h : ∀ item ∈ items, step item = other item) : items.mapM step = items.mapM other := by
  induction items with
  | nil => rfl
  | cons item rest ih =>
      obtain ⟨hitem, hrest⟩ := List.forall_mem_cons.mp h
      rw [List.mapM_cons, List.mapM_cons, hitem, ih hrest]

/-- A run is one in another view, where every step is a step in that view. -/
theorem foldlM_view {σ τ : Type} {step : σ → α → Except ε σ} {other : τ → α → Except ε τ}
    (view : σ → τ)
    (h : ∀ state item next, step state item = .ok next → other (view state) item = .ok (view next))
    {items : List α} {state after : σ} (hrun : items.foldlM step state = .ok after) :
    items.foldlM other (view state) = .ok (view after) := by
  induction items generalizing state with
  | nil =>
      cases hrun
      rfl
  | cons item rest ih =>
      rw [List.foldlM_cons] at hrun ⊢
      obtain ⟨next, hnext, hrest⟩ := bind_eq_ok.mp hrun
      rw [h state item next hnext, ok_bind, ih hrest]

/-- Steps that agree item by item agree as runs, as long as they keep what they need. -/
theorem foldlM_eq_of_forall₂ {σ : Type} {step : σ → α → Except ε σ} {other : σ → β → Except ε σ}
    (P : σ → Prop) {items : List α} {others : List β}
    (h : List.Forall₂ (fun item second => ∀ state, P state → step state item = other state second)
      items others)
    (hkeeps : ∀ state second next, P state → other state second = .ok next → P next)
    {state : σ} (hstate : P state) : items.foldlM step state = others.foldlM other state := by
  induction h generalizing state with
  | nil => rfl
  | @cons item second _ _ hfirst _ ih =>
      rw [List.foldlM_cons, List.foldlM_cons, hfirst state hstate]
      cases hnext : other state second with
      | error fault => rfl
      | ok next => exact ih (hkeeps state second next hstate hnext)

/-- What holds of the items one by one in two lists holds of their pairs. -/
theorem forall₂_and_zip {γ : Type} {P : α → β → Prop} {Q : α → γ → Prop} {items : List α}
    {firsts : List β} {seconds : List γ} (hfirsts : List.Forall₂ P items firsts)
    (hseconds : List.Forall₂ Q items seconds) :
    List.Forall₂ (fun item both => P item both.1 ∧ Q item both.2) items (firsts.zip seconds) := by
  induction hfirsts generalizing seconds with
  | nil => exact .nil
  | cons hfirst _ ih =>
      obtain ⟨second, rest, hsecond, hrest, rfl⟩ := List.forall₂_cons_left_iff.mp hseconds
      exact .cons ⟨hfirst, hsecond⟩ (ih hrest)

/-- What changes a state alike item by item changes it alike as a list. -/
theorem foldlM_of_forall₂ {σ : Type} {step : σ → α → Except ε σ} {before after : List α}
    (h : List.Forall₂ (fun item changed => ∀ state, step state changed = step state item)
      before after) (state : σ) : after.foldlM step state = before.foldlM step state :=
  (foldlM_eq_of_forall₂ (fun _ => True)
    (h.imp fun _ _ hsame state _ => (hsame state).symm) (fun _ _ _ _ _ => trivial) trivial).symm

/-- Reading items one after another and changing a state by each of them is reading all of them and
then changing the state. -/
theorem foldlM_map {σ : Type} (read : α → Except ε β) (change : σ → β → σ) (items : List α)
    (state : σ) :
    items.foldlM (fun state item => (read item).map (change state)) state =
      (items.mapM read).map fun values => values.foldl change state := by
  induction items generalizing state with
  | nil => rfl
  | cons item rest ih =>
      rw [List.foldlM_cons, List.mapM_cons]
      cases read item with
      | error fault => rfl
      | ok value =>
          rw [ok_bind, Except.map, ok_bind, ih]
          cases rest.mapM read <;> rfl

theorem mapM_take_of_mapM {step : α → Except ε β} {items : List α} {values : List β}
    (h : items.mapM step = .ok values) (count : Nat) :
    (items.take count).mapM step = .ok (values.take count) :=
  mapM_eq_ok.mpr (List.forall₂_take count (mapM_eq_ok.mp h))

theorem mapM_drop_of_mapM {step : α → Except ε β} {items : List α} {values : List β}
    (h : items.mapM step = .ok values) (count : Nat) :
    (items.drop count).mapM step = .ok (values.drop count) :=
  mapM_eq_ok.mpr (List.forall₂_drop count (mapM_eq_ok.mp h))

end ModCatalog
