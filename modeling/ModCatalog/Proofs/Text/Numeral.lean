import ModCatalog.Text.Numeral

/-!
# Numerals and what they are read as

The usual decimal numeral of a number is read as this number, unless it passes the limit.  Numerals
of different integers are different texts.
-/

namespace ModCatalog.Text

theorem ofDigits_eq (digits : List Char) : ofDigits digits = Nat.ofDigitChars 10 digits 0 := by
  rw [Nat.ofDigitChars_eq_foldl]
  unfold ofDigits
  simp only [Nat.mul_comm]
  rfl

theorem isDigit_toDigits (n : Nat) : ∀ c ∈ Nat.toDigits 10 n, c.isDigit :=
  fun _ hc => Nat.isDigit_of_mem_toDigits (by decide) (by decide) hc

theorem not_mem_of_isDigit {digits : List Char} (hdigits : ∀ c ∈ digits, c.isDigit) {c : Char}
    (hc : c.isDigit = false) : c ∉ digits := by
  intro hmem
  rw [hdigits c hmem] at hc
  cases hc

theorem toDigits_inj {n m : Nat} (h : Nat.toDigits 10 n = Nat.toDigits 10 m) : n = m := by
  rw [← Nat.ofDigitChars_ten_toDigits (n := n), h, Nat.ofDigitChars_ten_toDigits]

theorem toList_toString_int (n : Int) : (toString n).toList =
    if 0 ≤ n then Nat.toDigits 10 n.toNat else '-' :: Nat.toDigits 10 (-n).toNat := by
  rw [Int.toString_eq_repr, Int.repr_eq_if]
  split
  · exact Nat.toList_repr
  · rw [String.toList_append, Nat.toList_repr]
    rfl

theorem minus_mem_toString_iff (n : Int) : '-' ∈ (toString n).toList ↔ n < 0 := by
  rw [toList_toString_int]
  split
  · next h =>
      have hdigits := not_mem_of_isDigit (isDigit_toDigits n.toNat) (rfl : '-'.isDigit = false)
      simp [hdigits, h]
  · next h => simp [Int.not_le.mp h]

theorem toString_int_inj {n m : Int} (h : toString n = toString m) : n = m := by
  have hsign : n < 0 ↔ m < 0 := by
    rw [← minus_mem_toString_iff, ← minus_mem_toString_iff, h]
  have hdigits := congrArg String.toList h
  rw [toList_toString_int, toList_toString_int] at hdigits
  split at hdigits <;> split at hdigits
  · have := toDigits_inj hdigits
    omega
  · omega
  · omega
  · have := toDigits_inj (List.cons.inj hdigits).2
    omega

theorem readDigits?_toDigits {limit n : Nat} (h : n ≤ limit) :
    readDigits? limit (Nat.toDigits 10 n) = some n := by
  have hdigits : ofDigits (Nat.toDigits 10 n) = n := by
    rw [ofDigits_eq, Nat.ofDigitChars_ten_toDigits]
  have hall : (Nat.toDigits 10 n).all Char.isDigit := List.all_eq_true.mpr (isDigit_toDigits n)
  have hsome : (Nat.toDigits 10 n).isEmpty = false := by
    simp [Nat.toDigits_ne_nil]
  unfold readDigits?
  simp [hdigits, hall, hsome, h]

theorem readNumber?_toString {limit n : Nat} (h : n ≤ limit) :
    readNumber? limit (toString n).toList = some n := by
  have hdigits : (toString n).toList = Nat.toDigits 10 n := by
    rw [Nat.toString_eq_ofList_toDigits, String.toList_ofList]
  have hplus := not_mem_of_isDigit (isDigit_toDigits n) (rfl : '+'.isDigit = false)
  rw [hdigits, ← readDigits?_toDigits h]
  cases hfirst : Nat.toDigits 10 n with
  | nil => rfl
  | cons first rest =>
      rw [hfirst] at hplus
      unfold readNumber?
      split
      · next heq =>
          cases heq
          exact absurd List.mem_cons_self hplus
      · rfl

end ModCatalog.Text
