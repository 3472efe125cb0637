import Mathlib.Algebra.GroupWithZero.Nat
import Mathlib.Algebra.Order.BigOperators.Group.List
import Mathlib.Algebra.Order.Group.Nat
import ModCatalog.Limiter

/-!
# Shares of a ceiling

The shares that gates have in a ceiling.  They are as equal as whole numbers can be and add up to the
ceiling; what cannot be divided goes to the heaviest gates, and among those of one weight to the
earlier ones.
-/

namespace ModCatalog.Limiter

variable {ceiling : Nat} {gates : List Gate}

/-- Whether gates are listed in the order in which they joined. -/
def AreInOrder (gates : List Gate) : Prop := gates.Pairwise fun a b => a.id < b.id

theorem AreInOrder.nodup (h : AreInOrder gates) : (gates.map Gate.id).Nodup :=
  List.pairwise_map.mpr (h.imp Nat.ne_of_lt)

theorem AreInOrder.map (h : AreInOrder gates) {change : Gate → Gate}
    (hid : ∀ gate, (change gate).id = gate.id) : AreInOrder (gates.map change) := by
  refine List.pairwise_map.mpr (h.imp ?_)
  intro a b hab
  rwa [hid, hid]

/-- The gates by weight. -/
def byWeight (gates : List Gate) : List Gate := gates.mergeSort fun a b => b.weight ≤ a.weight

theorem byWeight_perm (gates : List Gate) : (byWeight gates).Perm gates :=
  List.mergeSort_perm _ _

theorem weight_le_trans (a b c : Gate) (hab : decide (b.weight ≤ a.weight) = true)
    (hbc : decide (c.weight ≤ b.weight) = true) : decide (c.weight ≤ a.weight) = true := by
  rw [decide_eq_true_eq] at *
  exact Nat.le_trans hbc hab

theorem weight_le_total (a b : Gate) :
    (decide (b.weight ≤ a.weight) || decide (a.weight ≤ b.weight)) = true := by
  rw [Bool.or_eq_true, decide_eq_true_eq, decide_eq_true_eq]
  exact Nat.le_total b.weight a.weight

theorem pairwise_byWeight (gates : List Gate) :
    (byWeight gates).Pairwise fun a b => b.weight ≤ a.weight :=
  (List.pairwise_mergeSort weight_le_trans weight_le_total gates).imp of_decide_eq_true

/-- Gates of one weight stay in the order in which they joined. -/
theorem filter_byWeight (gates : List Gate) (weight : Nat) :
    (byWeight gates).filter (fun gate => gate.weight = weight) =
      gates.filter fun gate => gate.weight = weight := by
  have hequal : (gates.filter fun gate => gate.weight = weight).Pairwise
      fun a b => decide (b.weight ≤ a.weight) = true := by
    refine List.pairwise_iff_forall_sublist.mpr fun {a b} hpair => ?_
    have ha := (List.mem_filter.mp (hpair.subset List.mem_cons_self)).2
    have hb := (List.mem_filter.mp (hpair.subset (List.mem_cons_of_mem a List.mem_cons_self))).2
    simp only [decide_eq_true_eq] at *
    omega
  have hsublist : (gates.filter fun gate => gate.weight = weight).Sublist (byWeight gates) :=
    List.sublist_mergeSort weight_le_trans weight_le_total hequal List.filter_sublist
  have hfiltered := hsublist.filter fun gate => decide (gate.weight = weight)
  simp only [List.filter_filter, Bool.and_self] at hfiltered
  exact (hfiltered.eq_of_length ((byWeight_perm gates).filter _).length_eq.symm).symm

/-- A gate that stands before another one is heavier, or as heavy and joined earlier. -/
theorem lighter_or_later_of_sublist (h : AreInOrder gates) {a b : Gate}
    (hbefore : [a, b].Sublist (byWeight gates)) :
    b.weight < a.weight ∨ (b.weight = a.weight ∧ a.id < b.id) := by
  have hle : b.weight ≤ a.weight :=
    List.pairwise_iff_forall_sublist.mp (pairwise_byWeight gates) hbefore
  rcases Nat.lt_or_eq_of_le hle with hlt | heq
  · exact Or.inl hlt
  · have hfiltered := hbefore.filter fun gate => decide (gate.weight = a.weight)
    rw [filter_byWeight] at hfiltered
    have hpair : [a, b].Sublist gates := by
      simpa [heq] using hfiltered.trans List.filter_sublist
    exact Or.inr ⟨heq, List.pairwise_iff_forall_sublist.mp h hpair⟩

/-! ## Shares -/

/-- Whether a gate has one more than the equal part. -/
def IsFavoured (ceiling : Nat) (gates : List Gate) (gate : Gate) : Prop :=
  gate.id ∈ (heaviest (ceiling % gates.length) gates).map Gate.id

theorem share_of_isFavoured {gate : Gate} (h : IsFavoured ceiling gates gate) :
    share ceiling gates gate = ceiling / gates.length + 1 := by
  unfold share
  dsimp only
  rw [if_pos (List.contains_iff_mem.mpr h)]

theorem share_of_not_isFavoured {gate : Gate} (h : ¬ IsFavoured ceiling gates gate) :
    share ceiling gates gate = ceiling / gates.length := by
  unfold share
  dsimp only
  rw [if_neg (mt List.contains_iff_mem.mp h), Nat.add_zero]

theorem share_cases (ceiling : Nat) (gates : List Gate) (gate : Gate) :
    share ceiling gates gate = ceiling / gates.length ∨
      share ceiling gates gate = ceiling / gates.length + 1 := by
  by_cases h : IsFavoured ceiling gates gate
  · exact Or.inr (share_of_isFavoured h)
  · exact Or.inl (share_of_not_isFavoured h)

theorem isFavoured_of_mem_take {gate : Gate}
    (h : gate ∈ (byWeight gates).take (ceiling % gates.length)) :
    IsFavoured ceiling gates gate :=
  List.mem_map_of_mem h

theorem not_isFavoured_of_mem_drop (hordered : AreInOrder gates) {gate : Gate}
    (h : gate ∈ (byWeight gates).drop (ceiling % gates.length)) :
    ¬ IsFavoured ceiling gates gate := by
  have hnodup : ((byWeight gates).map Gate.id).Nodup :=
    ((byWeight_perm gates).map Gate.id).nodup_iff.mpr hordered.nodup
  rw [← List.take_append_drop (ceiling % gates.length) (byWeight gates), List.map_append] at hnodup
  intro hfavoured
  exact (List.nodup_append.mp hnodup).2.2 _ hfavoured _ (List.mem_map_of_mem h) rfl

/-- The shares of all gates add up to the ceiling. -/
theorem sum_share (hordered : AreInOrder gates) (hsome : gates ≠ []) :
    (gates.map (share ceiling gates)).sum = ceiling := by
  have hlength : 0 < gates.length := List.length_pos_iff.mpr hsome
  have htake : ((byWeight gates).take (ceiling % gates.length)).map (share ceiling gates) =
      List.replicate (ceiling % gates.length) (ceiling / gates.length + 1) := by
    refine List.eq_replicate_iff.mpr ⟨?_, ?_⟩
    · have hmod := Nat.mod_lt ceiling hlength
      rw [List.length_map, List.length_take, (byWeight_perm gates).length_eq]
      omega
    · intro share hshare
      obtain ⟨gate, hgate, rfl⟩ := List.mem_map.mp hshare
      exact share_of_isFavoured (isFavoured_of_mem_take hgate)
  have hdrop : ((byWeight gates).drop (ceiling % gates.length)).map (share ceiling gates) =
      List.replicate (gates.length - ceiling % gates.length) (ceiling / gates.length) := by
    refine List.eq_replicate_iff.mpr ⟨?_, ?_⟩
    · rw [List.length_map, List.length_drop, (byWeight_perm gates).length_eq]
    · intro share hshare
      obtain ⟨gate, hgate, rfl⟩ := List.mem_map.mp hshare
      exact share_of_not_isFavoured (not_isFavoured_of_mem_drop hordered hgate)
  have hparts := Nat.div_add_mod ceiling gates.length
  have hmod := Nat.mod_lt ceiling hlength
  calc (gates.map (share ceiling gates)).sum
      = ((byWeight gates).map (share ceiling gates)).sum :=
        (((byWeight_perm gates).map _).sum_eq).symm
    _ = (ceiling % gates.length) * (ceiling / gates.length + 1) +
          (gates.length - ceiling % gates.length) * (ceiling / gates.length) := by
        rw [← List.take_append_drop (ceiling % gates.length) (byWeight gates), List.map_append,
          List.sum_append, htake, hdrop]
        simp
    _ = gates.length * (ceiling / gates.length) + ceiling % gates.length := by
        rw [Nat.mul_add, Nat.mul_one, Nat.sub_mul]
        have hle := Nat.mul_le_mul_right (ceiling / gates.length) (Nat.le_of_lt hmod)
        omega
    _ = ceiling := hparts

/-- A gate with a larger share is heavier than one with a smaller share, or as heavy and earlier. -/
theorem lighter_or_later_of_share_lt (hordered : AreInOrder gates) {gate other : Gate}
    (hgate : gate ∈ gates) (hother : other ∈ gates)
    (h : share ceiling gates other < share ceiling gates gate) :
    other.weight < gate.weight ∨ (other.weight = gate.weight ∧ gate.id < other.id) := by
  have hcut := List.take_append_drop (ceiling % gates.length) (byWeight gates)
  have hsplit : ∀ {any : Gate}, any ∈ gates →
      any ∈ (byWeight gates).take (ceiling % gates.length) ∨
        any ∈ (byWeight gates).drop (ceiling % gates.length) := by
    intro any hany
    rw [← List.mem_append, hcut]
    exact (byWeight_perm gates).mem_iff.mpr hany
  rcases hsplit hgate with hfront | hback
  · rcases hsplit hother with hsame | hbehind
    · rw [share_of_isFavoured (isFavoured_of_mem_take hfront),
        share_of_isFavoured (isFavoured_of_mem_take hsame)] at h
      omega
    · apply lighter_or_later_of_sublist hordered
      rw [← hcut]
      exact (List.singleton_sublist.mpr hfront).append (List.singleton_sublist.mpr hbehind)
  · rw [share_of_not_isFavoured (not_isFavoured_of_mem_drop hordered hback)] at h
    rcases share_cases ceiling gates other with hcase | hcase <;> omega

theorem share_le (hordered : AreInOrder gates) {gate : Gate} (hgate : gate ∈ gates) :
    share ceiling gates gate ≤ ceiling := by
  have hle := List.le_sum_of_mem (List.mem_map.mpr ⟨gate, hgate, rfl⟩ :
    share ceiling gates gate ∈ gates.map (share ceiling gates))
  rwa [sum_share hordered (List.ne_nil_of_mem hgate)] at hle

/-- Shares depend on nothing but the numbers and weights of the gates. -/
theorem share_map (change : Gate → Gate) (hid : ∀ gate, (change gate).id = gate.id)
    (hweight : ∀ gate, (change gate).weight = gate.weight) (gate : Gate) :
    share ceiling (gates.map change) (change gate) = share ceiling gates gate := by
  have hsorted : heaviest (ceiling % gates.length) (gates.map change) =
      (heaviest (ceiling % gates.length) gates).map change := by
    unfold heaviest
    rw [List.map_take, List.map_mergeSort]
    intro a _ b _
    rw [hweight, hweight]
  unfold share
  simp only [List.length_map, hsorted, List.map_map, Function.comp_def, hid]

end ModCatalog.Limiter
