import Mathlib.Algebra.Order.Field.Power
import Mathlib.Data.Rat.Cast.Order
import Mathlib.Tactic.FieldSimp
import Mathlib.Tactic.Linarith
import Mathlib.Tactic.Positivity
import Mathlib.Tactic.Ring
import ModCatalog.Decimal.Shortest

/-!
# What shortest digits stand for

The shortest digits of a number lie among the reals that round to it, and no real rounds to two
numbers of a format.  So the digits tell the numbers apart.
-/

namespace ModCatalog.Decimal

/-! ## Comparisons of scaled numbers -/

/-- The number itself. -/
def Scientific.value (x : Scientific) : ℚ := x.digits * 10 ^ x.exponent

theorem zpow_mul_pow_toNat_neg {base : ℚ} (hbase : base ≠ 0) (e : Int) :
    base ^ e * base ^ (-e).toNat = base ^ e.toNat := by
  rw [← zpow_natCast, ← zpow_natCast, ← zpow_add₀ hbase]
  congr 1
  omega

/-- What is compared are the two numbers, both with one positive factor. -/
theorem compareScaled_sides (a : Nat) (p : Int) (b : Nat) (q : Int) : ∃ factor : ℚ, 0 < factor ∧
    ((a * Nat.pow 10 p.toNat * Nat.pow 2 (-q).toNat : Nat) : ℚ) = a * 10 ^ p * factor ∧
    ((b * Nat.pow 2 q.toNat * Nat.pow 10 (-p).toNat : Nat) : ℚ) = b * 2 ^ q * factor := by
  have hten := zpow_mul_pow_toNat_neg (by norm_num : (10 : ℚ) ≠ 0) p
  have htwo := zpow_mul_pow_toNat_neg (by norm_num : (2 : ℚ) ≠ 0) q
  refine ⟨10 ^ (-p).toNat * 2 ^ (-q).toNat, by positivity, ?_, ?_⟩
  · push_cast [Nat.pow_eq]
    rw [← hten]
    ring
  · push_cast [Nat.pow_eq]
    rw [← htwo]
    ring

theorem compareScaled_eq (a : Nat) (p : Int) (b : Nat) (q : Int) :
    compareScaled a p b q = compare ((a : ℚ) * 10 ^ p) (b * 2 ^ q) := by
  obtain ⟨factor, hpos, hleft, hright⟩ := compareScaled_sides a p b q
  unfold compareScaled
  rcases lt_trichotomy ((a : ℚ) * 10 ^ p) (b * 2 ^ q) with h | h | h
  · rw [compare_lt_iff_lt.mpr h, compare_lt_iff_lt, ← Nat.cast_lt (α := ℚ), hleft, hright]
    exact mul_lt_mul_of_pos_right h hpos
  · rw [compare_eq_iff_eq.mpr h, compare_eq_iff_eq, ← Nat.cast_inj (R := ℚ), hleft, hright, h]
  · rw [compare_gt_iff_gt.mpr h, compare_gt_iff_gt, ← Nat.cast_lt (α := ℚ), hleft, hright]
    exact mul_lt_mul_of_pos_right h hpos

/-! ## Intervals -/

namespace RoundingInterval

/-- Whether a real rounds to the number of an interval. -/
structure Holds (i : RoundingInterval) (v : ℚ) : Prop where
  low : i.low * 2 ^ i.exponent < v ∨ i.closed ∧ i.low * 2 ^ i.exponent = v
  high : v < i.high * 2 ^ i.exponent ∨ i.closed ∧ v = i.high * 2 ^ i.exponent

theorem holds_of_contains {i : RoundingInterval} {c : Nat} {p : Int} (h : i.contains c p) :
    i.Holds (Scientific.value ⟨c, p⟩) := by
  unfold contains at h
  simp only [compareScaled_eq, Bool.and_eq_true, Bool.or_eq_true, beq_iff_eq, compare_gt_iff_gt,
    compare_lt_iff_lt, compare_eq_iff_eq] at h
  obtain ⟨hlow, hhigh⟩ := h
  exact ⟨hlow.imp_right fun h => ⟨h.1, h.2.symm⟩, hhigh⟩

theorem value_exact (i : RoundingInterval) : i.exact.value = i.value * 2 ^ i.exponent := by
  have htwo := zpow_mul_pow_toNat_neg (by norm_num : (2 : ℚ) ≠ 0) i.exponent
  have hten : (10 : ℚ) ^ min i.exponent 0 * 10 ^ (-i.exponent).toNat = 1 := by
    rw [← zpow_natCast, ← zpow_add₀ (by norm_num)]
    have hzero : min i.exponent 0 + ((-i.exponent).toNat : Int) = 0 := by omega
    rw [hzero, zpow_zero]
  have hsplit : (10 : ℚ) ^ (-i.exponent).toNat =
      2 ^ (-i.exponent).toNat * 5 ^ (-i.exponent).toNat := by
    rw [← mul_pow]
    norm_num
  unfold Scientific.value exact
  push_cast [Nat.pow_eq]
  calc (i.value : ℚ) * 2 ^ i.exponent.toNat * 5 ^ (-i.exponent).toNat * 10 ^ min i.exponent 0
      = i.value * 2 ^ i.exponent * (10 ^ min i.exponent 0 *
          (2 ^ (-i.exponent).toNat * 5 ^ (-i.exponent).toNat)) := by
        rw [← htwo]
        ring
    _ = i.value * 2 ^ i.exponent := by rw [← hsplit, hten, mul_one]

theorem holds_search {i : RoundingInterval} (hlow : i.low < i.value) (hhigh : i.value < i.high)
    (tie : Tie) (grids : Nat) (p : Int) : i.Holds (i.search tie grids p).value := by
  induction grids generalizing p with
  | zero =>
      have hpow : (0 : ℚ) < 2 ^ i.exponent := by positivity
      change i.Holds i.exact.value
      rw [value_exact]
      exact ⟨Or.inl (mul_lt_mul_of_pos_right (by exact_mod_cast hlow) hpow),
        Or.inl (mul_lt_mul_of_pos_right (by exact_mod_cast hhigh) hpow)⟩
  | succ grids ih =>
      unfold search
      split
      · next c hpoint => exact holds_of_contains (contains_of_pointOnGrid? hpoint)
      · exact ih (p - 1)

end RoundingInterval

theorem holds_shortest (tie : Tie) (f : Format) {x : Magnitude} (hpos : 0 < x.mantissa) :
    (RoundingInterval.ofMagnitude f x).Holds (shortest tie f x).value := by
  apply RoundingInterval.holds_search
  · unfold RoundingInterval.ofMagnitude
    dsimp only
    split <;> omega
  · unfold RoundingInterval.ofMagnitude
    dsimp only
    omega

/-! ## Numbers of a format -/

/-- Whether a number is written as a format has it: a mantissa of full length unless the exponent is
the least. -/
structure Magnitude.IsCanonical (f : Format) (x : Magnitude) : Prop where
  mantissa_lt : x.mantissa < Nat.pow 2 f.precision
  least_le : f.minExponent ≤ x.exponent
  le_mantissa : f.minExponent < x.exponent → Nat.pow 2 (f.precision - 1) ≤ x.mantissa

/-- Whether a number comes before another one. -/
def Magnitude.Precedes (x y : Magnitude) : Prop :=
  x.exponent < y.exponent ∨ x.exponent = y.exponent ∧ x.mantissa < y.mantissa

section

variable {f : Format} {x y : Magnitude} {v : ℚ}

theorem pow_precision (hprecision : 0 < f.precision) :
    Nat.pow 2 f.precision = 2 * Nat.pow 2 (f.precision - 1) := by
  obtain ⟨n, hn⟩ : ∃ n, f.precision = n + 1 := ⟨f.precision - 1, by omega⟩
  rw [hn, Nat.add_sub_cancel, Nat.pow_eq, Nat.pow_eq, Nat.pow_succ, Nat.mul_comm]

/-- Below a number with a full mantissa there is room for all mantissas of the exponent before. -/
theorem leading_le_low (hleast : f.minExponent < y.exponent)
    (hleading : Nat.pow 2 (f.precision - 1) ≤ y.mantissa) :
    8 * Nat.pow 2 (f.precision - 1) - 2 ≤ (RoundingInterval.ofMagnitude f y).low * 2 := by
  unfold RoundingInterval.ofMagnitude
  dsimp only
  split
  · omega
  · next h =>
      have hgreater : y.mantissa ≠ Nat.pow 2 (f.precision - 1) := by
        intro heq
        rw [heq, beq_self_eq_true, decide_eq_true hleast] at h
        exact h rfl
      omega

/-- The interval of a number ends before that of a greater one begins; if they meet, one mantissa is
odd. -/
theorem high_le_low (hprecision : 0 < f.precision) (hx : x.IsCanonical f) (hy : y.IsCanonical f)
    (hlt : x.Precedes y) :
    let low := (RoundingInterval.ofMagnitude f y).low * 2 ^ (y.exponent - x.exponent).toNat
    4 * x.mantissa + 2 ≤ low ∧
      (4 * x.mantissa + 2 = low → x.mantissa % 2 = 1 ∨ y.mantissa % 2 = 1) := by
  have hpow := pow_precision hprecision
  have hmantissa := hx.mantissa_lt
  rcases hlt with hexponent | ⟨hexponent, hmantissas⟩
  · have hleast : f.minExponent < y.exponent := lt_of_le_of_lt hx.least_le hexponent
    have hlow := leading_le_low hleast (hy.le_mantissa hleast)
    obtain ⟨n, hn⟩ : ∃ n, (y.exponent - x.exponent).toNat = n + 1 :=
      ⟨(y.exponent - x.exponent).toNat - 1, by omega⟩
    have hscaled : (RoundingInterval.ofMagnitude f y).low * 2 ≤
        (RoundingInterval.ofMagnitude f y).low * 2 ^ (y.exponent - x.exponent).toNat := by
      rw [hn, Nat.pow_succ, Nat.mul_comm (2 ^ n)]
      exact Nat.mul_le_mul_left _ (Nat.le_mul_of_pos_right 2 (Nat.two_pow_pos n))
    dsimp only
    omega
  · have hzero : (y.exponent - x.exponent).toNat = 0 := by omega
    rw [hzero, Nat.pow_zero, Nat.mul_one]
    unfold RoundingInterval.ofMagnitude
    dsimp only
    split <;> omega

theorem not_holds_of_precedes (hprecision : 0 < f.precision) (hx : x.IsCanonical f)
    (hy : y.IsCanonical f) (hlt : x.Precedes y)
    (hholds : (RoundingInterval.ofMagnitude f x).Holds v) :
    ¬(RoundingInterval.ofMagnitude f y).Holds v := by
  intro hother
  obtain ⟨hle, hmeet⟩ := high_le_low hprecision hx hy hlt
  have hexponent : x.exponent ≤ y.exponent := hlt.elim (·.le) (·.1.le)
  have hpow : (0 : ℚ) < 2 ^ (x.exponent - 2) := by positivity
  have hscale : (2 : ℚ) ^ (y.exponent - 2) =
      2 ^ (y.exponent - x.exponent).toNat * 2 ^ (x.exponent - 2) := by
    rw [← zpow_natCast, ← zpow_add₀ (by norm_num)]
    congr 1
    omega
  let low := (RoundingInterval.ofMagnitude f y).low * 2 ^ (y.exponent - x.exponent).toNat
  have hlow : ((RoundingInterval.ofMagnitude f y).low : ℚ) * 2 ^ (y.exponent - 2) =
      (low : ℚ) * 2 ^ (x.exponent - 2) := by
    rw [hscale]
    push_cast [low]
    ring
  have hends : ((4 * x.mantissa + 2 : Nat) : ℚ) * 2 ^ (x.exponent - 2) ≤
      (low : ℚ) * 2 ^ (x.exponent - 2) :=
    mul_le_mul_of_nonneg_right (by exact_mod_cast hle) hpow.le
  have hhigh : v < ((4 * x.mantissa + 2 : Nat) : ℚ) * 2 ^ (x.exponent - 2) ∨
      x.mantissa % 2 == 0 ∧ v = ((4 * x.mantissa + 2 : Nat) : ℚ) * 2 ^ (x.exponent - 2) :=
    hholds.high
  have hbegins : (low : ℚ) * 2 ^ (x.exponent - 2) < v ∨
      y.mantissa % 2 == 0 ∧ (low : ℚ) * 2 ^ (x.exponent - 2) = v := by
    rw [← hlow]
    exact hother.low
  rcases hhigh with hhigh | ⟨hclosed, hhigh⟩
  · rcases hbegins with hbegins | ⟨-, hbegins⟩ <;> linarith
  · rcases hbegins with hbegins | ⟨hclosed', hbegins⟩
    · linarith
    · -- the intervals meet in an end that belongs to both, so both mantissas are even
      have hsame : 4 * x.mantissa + 2 = low := by
        have hcast : ((4 * x.mantissa + 2 : Nat) : ℚ) = low :=
          mul_right_cancel₀ hpow.ne' (hhigh.symm.trans hbegins.symm)
        exact_mod_cast hcast
      rcases hmeet hsame with hodd | hodd <;> simp [hodd] at hclosed hclosed'

/-- A real rounds to one number only. -/
theorem eq_of_holds (hprecision : 0 < f.precision) (hx : x.IsCanonical f) (hy : y.IsCanonical f)
    (hholds : (RoundingInterval.ofMagnitude f x).Holds v)
    (hother : (RoundingInterval.ofMagnitude f y).Holds v) : x = y := by
  by_contra hne
  have hprecedes : x.Precedes y ∨ y.Precedes x := by
    unfold Magnitude.Precedes
    have hdiffer : ¬(x.mantissa = y.mantissa ∧ x.exponent = y.exponent) := by
      rintro ⟨hmantissa, hexponent⟩
      cases x
      cases y
      simp_all
    omega
  rcases hprecedes with h | h
  · exact not_holds_of_precedes hprecision hx hy h hholds hother
  · exact not_holds_of_precedes hprecision hy hx h hother hholds

end

end ModCatalog.Decimal
