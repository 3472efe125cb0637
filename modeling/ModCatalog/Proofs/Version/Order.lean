import ModCatalog.Version

/-!
# The order of versions

Items are totally ordered, and so are versions with equally many items.  A missing item is equal to
zero and to the empty qualifier, though, while zero is above every qualifier.  So versions can go
around in a circle: `1.0-alpha < 1 < 1-sp < 1.0-alpha`.  The main theorem says that comparing
versions is a total order but for the circles of exactly this form.
-/

namespace ModCatalog

namespace VersionItem

/-! ## Items -/

theorem qualifierRank_lt_iff (name : String) :
    qualifierRank name < knownQualifiers.length ↔ name ∈ knownQualifiers := by
  unfold qualifierRank
  rw [List.findIdx_lt_length]
  simp

/-- A qualifier is told by its rank and its text. -/
theorem eq_of_qualifierRank {a b : String} (hrank : qualifierRank a = qualifierRank b)
    (htext : qualifierText a = qualifierText b) : a = b := by
  by_cases ha : a ∈ knownQualifiers
  · have hlt := (qualifierRank_lt_iff a).mpr ha
    have hfound : ∀ name, (h : qualifierRank name < knownQualifiers.length) →
        knownQualifiers[qualifierRank name] = name :=
      fun name h => of_decide_eq_true (List.findIdx_getElem (w := h))
    have hlt' : qualifierRank b < knownQualifiers.length := hrank ▸ hlt
    rw [← hfound a hlt, ← hfound b hlt']
    simp only [hrank]
  · have hb : b ∉ knownQualifiers := by
      rwa [← qualifierRank_lt_iff, ← hrank, qualifierRank_lt_iff]
    simpa [qualifierText, ha, hb] using htext

instance : Std.TransCmp compareQualifiers :=
  inferInstanceAs (Std.TransCmp (compareLex (compareOn qualifierRank) (compareOn qualifierText)))

instance : Std.LawfulEqCmp compareQualifiers where
  eq_of_compare h := by
    obtain ⟨hrank, htext⟩ := Ordering.then_eq_eq.mp h
    exact eq_of_qualifierRank (Std.LawfulEqOrd.eq_of_compare hrank)
      (Std.LawfulEqOrd.eq_of_compare htext)

theorem compareQualifiers_swap (a b : String) :
    compareQualifiers a b = (compareQualifiers b a).swap :=
  Std.OrientedCmp.eq_swap

theorem compareQualifiers_trans {a b c : String} (hab : (compareQualifiers a b).isLE)
    (hbc : (compareQualifiers b c).isLE) : (compareQualifiers a c).isLE :=
  Std.TransCmp.isLE_trans hab hbc

theorem compareQualifiers_eq_iff {a b : String} : compareQualifiers a b = .eq ↔ a = b :=
  Std.LawfulEqCmp.compare_eq_iff_eq

instance : Std.OrientedCmp compareItem where
  eq_swap {a b} := by
    cases a <;> cases b
    · exact Std.OrientedOrd.eq_swap
    · rfl
    · rfl
    · exact compareQualifiers_swap _ _

instance : Std.TransCmp compareItem where
  isLE_trans {a b c} hab hbc := by
    cases a <;> cases b <;> cases c <;> simp only [compareItem] at hab hbc ⊢
    all_goals first
      | contradiction
      | rfl
      | exact Std.TransOrd.isLE_trans hab hbc
      | exact compareQualifiers_trans hab hbc

instance : Std.LawfulEqCmp compareItem where
  compare_self {a} := by
    cases a
    · exact Std.ReflOrd.compare_self
    · exact compareQualifiers_eq_iff.mpr rfl
  eq_of_compare {a b} h := by
    cases a <;> cases b <;> simp only [compareItem] at h
    · rw [Std.LawfulEqOrd.eq_of_compare h]
    · cases h
    · cases h
    · rw [compareQualifiers_eq_iff.mp h]

theorem compareItem_swap (a b : VersionItem) : a.compareItem b = (b.compareItem a).swap :=
  Std.OrientedCmp.eq_swap

theorem compareItem_trans {a b c : VersionItem} (hab : (a.compareItem b).isLE)
    (hbc : (b.compareItem c).isLE) : (a.compareItem c).isLE :=
  Std.TransCmp.isLE_trans hab hbc

theorem compareItem_eq_iff {a b : VersionItem} : a.compareItem b = .eq ↔ a = b :=
  Std.LawfulEqCmp.compare_eq_iff_eq

theorem compareItem_antisymm {a b : VersionItem} (hab : (a.compareItem b).isLE)
    (hba : (b.compareItem a).isLE) : a = b :=
  compareItem_eq_iff.mp (Std.OrientedCmp.isLE_antisymm hab hba)

theorem compareMissing_eq_iff (item : VersionItem) :
    item.compareMissing = .eq ↔ item.isNull = true := by
  cases item with
  | number value => simp [compareMissing, isNull]
  | qualifier name => simp [compareMissing, isNull]

/-- Only zero is not above a missing number and still above a qualifier that is not below one. -/
theorem zero_above_qualifier {low high : VersionItem} (hlow : low.compareMissing.isLE)
    (hhigh : high.compareMissing.isGE) (h : low.compareItem high = .gt) :
    low = .number 0 ∧ ∃ name, high = .qualifier name := by
  cases low with
  | number value =>
      have hzero : value = 0 := by simpa [compareMissing, Nat.isLE_compare] using hlow
      subst hzero
      cases high with
      | number value => simp [compareItem, Nat.compare_eq_gt] at h
      | qualifier name => exact ⟨rfl, name, rfl⟩
  | qualifier name =>
      cases high with
      | number value => cases h
      | qualifier other =>
          have hback : (compareQualifiers "" other).isLE := by
            rw [compareQualifiers_swap, Ordering.isLE_swap]
            exact hhigh
          have htrans := compareQualifiers_trans hlow hback
          simp only [compareItem] at h
          simp [h] at htrans

end VersionItem

namespace Version

open VersionItem

/-! ## Lists of items -/

/-- Whether the last item, if there is one, says something. -/
def IsTrimmed (items : List VersionItem) : Prop := ∀ item ∈ items.getLast?, item.isNull = false

theorem IsTrimmed.tail {item : VersionItem} {items : List VersionItem}
    (h : IsTrimmed (item :: items)) : IsTrimmed items := by
  intro last hlast
  refine h last ?_
  rw [Option.mem_def] at hlast ⊢
  rw [List.getLast?_cons, hlast]
  rfl

theorem isTrimmed_items (version : Version) : IsTrimmed version.items := by
  intro item hitem
  unfold items dropNullEnd at hitem
  rw [List.getLast?_reverse, Option.mem_def] at hitem
  have hhead := List.head?_dropWhile_not isNull
    (itemsFrom [] ((Text.trimBlanks version.text.toList).map Char.toLower)).reverse
  rw [hitem] at hhead
  exact hhead

theorem compareItems_swap (a b : List VersionItem) :
    compareItems b a = (compareItems a b).swap := by
  fun_induction compareItems a b with
  | case1 => rw [compareItems, Ordering.swap_eq]
  | case2 item rest ih => rw [compareItems, ih, Ordering.swap_then]
  | case3 item rest ih => rw [compareItems, ih, Ordering.swap_then, Ordering.swap_swap]
  | case4 item rest other more ih =>
      rw [compareItems, ih, Ordering.swap_then, compareItem_swap other item]

theorem compare_swap (a b : Version) : b.compare a = (a.compare b).swap :=
  compareItems_swap a.items b.items

theorem isLE_compare_self (a : Version) : (a.compare a).isLE := by
  have hswap := compare_swap a a
  cases hself : a.compare a <;> simp_all

theorem isAbove_iff {a b : Version} : a.isAbove b ↔ ¬(a.compare b).isLE := by
  unfold isAbove
  cases a.compare b <;> simp

theorem isLE_of_isAbove {a b : Version} (h : b.isAbove a) : (a.compare b).isLE := by
  unfold isAbove at h
  rw [compare_swap b a, beq_iff_eq.mp h]
  rfl

theorem eq_nil_of_compareItems {items : List VersionItem} (htrim : IsTrimmed items)
    (h : compareItems items [] = .eq) : items = [] := by
  induction items with
  | nil => rfl
  | cons item rest ih =>
      rw [compareItems, Ordering.then_eq_eq] at h
      obtain ⟨hitem, hrest⟩ := h
      have hnil := ih htrim.tail hrest
      subst hnil
      have hnull := (compareMissing_eq_iff item).mp hitem
      rw [htrim item rfl] at hnull
      cases hnull

theorem compareItems_eq_iff {a b : List VersionItem} (ha : IsTrimmed a) (hb : IsTrimmed b) :
    compareItems a b = .eq ↔ a = b := by
  induction a generalizing b with
  | nil =>
      rw [compareItems_swap, Ordering.swap_eq_eq]
      constructor
      · exact fun h => (eq_nil_of_compareItems hb h).symm
      · rintro rfl
        rw [compareItems]
  | cons item rest ih =>
      cases b with
      | nil => exact ⟨eq_nil_of_compareItems ha, fun h => absurd h (List.cons_ne_nil item rest)⟩
      | cons other more =>
          rw [compareItems, Ordering.then_eq_eq, ih ha.tail hb.tail, compareItem_eq_iff,
            List.cons.injEq]

/-! ## Circles -/

/-- Whether two lists continue a third one with the same null items, after which the lower one has a
zero and the higher one a qualifier. -/
structure AreTwisted (low middle high : List VersionItem) : Prop where
  below : compareItems low middle = .lt
  above : compareItems middle high = .lt
  apart : ∃ nulls name lowRest highRest, (∀ item ∈ nulls, item.isNull = true) ∧
    low = middle ++ nulls ++ .number 0 :: lowRest ∧
    high = middle ++ nulls ++ .qualifier name :: highRest

/-- What is compared with equal items in front is compared by the rest. -/
theorem compareItems_append (front a b : List VersionItem) :
    compareItems (front ++ a) (front ++ b) = compareItems a b := by
  induction front with
  | nil => rfl
  | cons item rest ih =>
      rw [List.cons_append, List.cons_append, compareItems, ih, compareItem_eq_iff.mpr rfl]
      rfl

theorem AreTwisted.cons {low middle high : List VersionItem} (item : VersionItem)
    (h : AreTwisted low middle high) :
    AreTwisted (item :: low) (item :: middle) (item :: high) := by
  obtain ⟨nulls, name, lowRest, highRest, hnulls, rfl, rfl⟩ := h.apart
  exact ⟨(compareItems_append [item] _ _).trans h.below,
    (compareItems_append [item] _ _).trans h.above,
    nulls, name, lowRest, highRest, hnulls, rfl, rfl⟩

theorem AreTwisted.high_below_low {low middle high : List VersionItem}
    (h : AreTwisted low middle high) : compareItems high low = .lt := by
  obtain ⟨nulls, name, lowRest, highRest, _, hlow, hhigh⟩ := h.apart
  rw [hlow, hhigh, compareItems_append, compareItems]
  rfl

/-- Two lists that compare with nothing other than with each other first differ after null items. -/
theorem areTwisted_of_nil {low high : List VersionItem} (hlow : compareItems low [] = .lt)
    (hhigh : compareItems [] high = .lt) (h : compareItems high low = .lt) :
    AreTwisted low [] high := by
  refine ⟨hlow, hhigh, ?_⟩
  rw [compareItems_swap, Ordering.swap_eq_lt] at h hhigh
  induction low generalizing high with
  | nil => simp [compareItems] at hlow
  | cons item rest ih =>
      cases high with
      | nil => simp [compareItems] at hhigh
      | cons other more =>
          rw [compareItems, Ordering.then_eq_lt] at hlow
          rw [compareItems, Ordering.then_eq_gt] at hhigh
          rw [compareItems, Ordering.then_eq_gt] at h
          rcases h with hfirst | ⟨hfirst, hrest⟩
          · have hle : item.compareMissing.isLE := by
              rcases hlow with h | ⟨h, _⟩ <;> simp [h]
            have hge : other.compareMissing.isGE := by
              rcases hhigh with h | ⟨h, _⟩ <;> simp [h]
            obtain ⟨rfl, name, rfl⟩ := zero_above_qualifier hle hge hfirst
            exact ⟨[], name, rest, more, List.forall_mem_nil _, rfl, rfl⟩
          · have hsame := compareItem_eq_iff.mp hfirst
            subst hsame
            -- An item that says something would put both lists on one side of nothing.
            rcases hlow with hdown | ⟨hnull, hlow⟩
            · simp [hdown] at hhigh
            · have hhigh : compareItems more [] = .gt := by simpa [hnull] using hhigh
              obtain ⟨nulls, name, lowRest, highRest, hnulls, rfl, rfl⟩ := ih hlow hhigh hrest
              refine ⟨item :: nulls, name, lowRest, highRest, ?_, rfl, rfl⟩
              exact List.forall_mem_cons.mpr ⟨(compareMissing_eq_iff item).mp hnull, hnulls⟩

/-- Of three lists in a circle, one is continued by the other two. -/
theorem areTwisted_of_circle {a b c : List VersionItem} (hab : compareItems a b = .lt)
    (hbc : compareItems b c = .lt) (hca : compareItems c a = .lt) :
    AreTwisted a b c ∨ AreTwisted b c a ∨ AreTwisted c a b := by
  induction a generalizing b c with
  | nil => exact .inr (.inr (areTwisted_of_nil hca hab hbc))
  | cons x a ih =>
      cases b with
      | nil => exact .inl (areTwisted_of_nil hab hbc hca)
      | cons y b =>
          cases c with
          | nil => exact .inr (.inl (areTwisted_of_nil hbc hca hab))
          | cons z c =>
              have hhead : ∀ {p q : VersionItem} {rest more : List VersionItem},
                  compareItems (p :: rest) (q :: more) = .lt → (p.compareItem q).isLE := by
                intro p q rest more h
                rw [compareItems, Ordering.then_eq_lt] at h
                rcases h with h | ⟨h, _⟩ <;> simp [h]
              have hback := compareItem_trans (hhead hbc) (hhead hca)
              have hxy : x = y := compareItem_antisymm (hhead hab) hback
              subst hxy
              have hxz : x = z := compareItem_antisymm (hhead hbc) (hhead hca)
              subst hxz
              have hrest : ∀ rest more, compareItems (x :: rest) (x :: more) =
                  compareItems rest more := compareItems_append [x]
              rw [hrest] at hab hbc hca
              rcases ih hab hbc hca with h | h | h
              · exact .inl (h.cons x)
              · exact .inr (.inl (h.cons x))
              · exact .inr (.inr (h.cons x))

/-! ## Versions -/

/-- Whether three versions go around in a circle because of the middle one's missing items. -/
def AreInCircle (low middle high : Version) : Prop :=
  AreTwisted low.items middle.items high.items

/-- Exchanging two versions reverses their comparison, and equal versions have the same items, so
equality is transitive.  The order is transitive except where two versions continue a third one with
the same null items, the one below it by a zero after them and the one above it by a qualifier. -/
theorem compare_order (a b c : Version) :
    b.compare a = (a.compare b).swap ∧ (a.compare b = .eq ↔ a.items = b.items) ∧
      ((a.compare b).isLE ∧ (b.compare c).isLE ∧ ¬ (a.compare c).isLE ↔
        AreInCircle a b c ∨ AreInCircle b c a ∨ AreInCircle c a b) := by
  have hequal : ∀ x y : Version, x.compare y = .eq ↔ x.items = y.items := fun x y =>
    compareItems_eq_iff (isTrimmed_items x) (isTrimmed_items y)
  refine ⟨compareItems_swap a.items b.items, hequal a b, ?_, ?_⟩
  · intro h
    obtain ⟨hab, hbc, hac⟩ := h
    have habove : a.compare c = .gt := by simpa using hac
    have hca : compareItems c.items a.items = .lt :=
      (compareItems_swap a.items c.items).trans (Ordering.swap_eq_lt.mpr habove)
    -- Equal versions can stand for one another, so both comparisons are strict.
    have hstrict : ∀ {x y : Version}, (x.compare y).isLE → x.items ≠ y.items →
        compareItems x.items y.items = .lt := by
      intro x y hle hne
      rcases Ordering.isLE_iff_eq_lt_or_eq_eq.mp hle with hlt | hsame
      · exact hlt
      · exact absurd ((hequal x y).mp hsame) hne
    refine areTwisted_of_circle (hstrict hab ?_) (hstrict hbc ?_) hca
    · intro hsame
      unfold Version.compare at hac hbc
      rw [hsame] at hac
      exact hac hbc
    · intro hsame
      unfold Version.compare at hac hab
      rw [← hsame] at hac
      exact hac hab
  · intro h
    have hcircle : a.compare b = .lt ∧ b.compare c = .lt ∧ c.compare a = .lt := by
      rcases h with h | h | h
      · exact ⟨h.below, h.above, h.high_below_low⟩
      · exact ⟨h.high_below_low, h.below, h.above⟩
      · exact ⟨h.above, h.high_below_low, h.below⟩
    obtain ⟨hab, hbc, hca⟩ := hcircle
    refine ⟨by simp [hab], by simp [hbc], ?_⟩
    have hac : a.compare c = (c.compare a).swap := compareItems_swap c.items a.items
    simp [hac, hca]

/-- Each of three versions is below the next one, and the last one is below the first. -/
theorem service_pack_below_alpha :
    (⟨"1.0-alpha"⟩ : Version).compare ⟨"1"⟩ = .lt ∧ (⟨"1"⟩ : Version).compare ⟨"1-sp"⟩ = .lt ∧
      (⟨"1-sp"⟩ : Version).compare ⟨"1.0-alpha"⟩ = .lt := by
  have halpha : (⟨"1.0-alpha"⟩ : Version).items = [.number 1, .number 0, .qualifier "alpha"] := by
    decide
  have hone : (⟨"1"⟩ : Version).items = [.number 1] := by decide
  have hpack : (⟨"1-sp"⟩ : Version).items = [.number 1, .qualifier "sp"] := by decide
  simp only [Version.compare, halpha, hone, hpack, compareItems]
  decide

end Version

end ModCatalog
