import ModCatalog.Text.Utf16

/-!
# What UTF-16 stands for

The reading of code units by the rules of the encoding form: a character is one unit or a pair of
surrogates, and a surrogate that is not part of a pair reads as a replacement character.
-/

namespace ModCatalog.Text.Utf16

/-- A text that code units stand for, read from the front.  The units of a character are told by its
number; a surrogate has the number of no character. -/
inductive Reads : List Nat → List Char → Prop
  | nil : Reads [] []
  | unit {unit : Nat} {units : List Nat} {text : List Char} (c : Char) (hunit : unit = c.toNat)
      (hrest : Reads units text) : Reads (unit :: units) (c :: text)
  | pair {high low : Nat} {units : List Nat} {text : List Char} (c : Char)
      (hbeyond : 0x10000 ≤ c.toNat) (hhigh : high = 0xD800 + (c.toNat - 0x10000) / 0x400)
      (hlow : low = 0xDC00 + (c.toNat - 0x10000) % 0x400) (hrest : Reads units text) :
      Reads (high :: low :: units) (c :: text)
  | lonelyHigh {high : Nat} {units : List Nat} {text : List Char} (hhigh : isHigh high)
      (halone : ∀ next ∈ units.head?, ¬ isLow next) (hrest : Reads units text) :
      Reads (high :: units) (replacement :: text)
  | lonelyLow {low : Nat} {units : List Nat} {text : List Char} (hlow : isLow low)
      (hrest : Reads units text) : Reads (low :: units) (replacement :: text)

theorem isHigh_iff (unit : Nat) : isHigh unit ↔ 0xD800 ≤ unit ∧ unit < 0xDC00 := by
  simp [isHigh]

theorem isLow_iff (unit : Nat) : isLow unit ↔ 0xDC00 ≤ unit ∧ unit < 0xE000 := by
  simp [isLow]

/-- A unit that is no surrogate is a character. -/
theorem toNat_ofNat_of_unit {unit : Nat} (hunit : unit < 0x10000) (hhigh : ¬ isHigh unit)
    (hlow : ¬ isLow unit) : (Char.ofNat unit).toNat = unit := by
  rw [isHigh_iff] at hhigh
  rw [isLow_iff] at hlow
  have hvalid : unit.isValidChar := by
    unfold Nat.isValidChar
    omega
  rw [Char.ofNat, dif_pos hvalid]
  rfl

theorem toNat_joinPair {high low : Nat} (hhigh : isHigh high) (hlow : isLow low) :
    (joinPair high low).toNat = 0x10000 + (high - 0xD800) * 0x400 + (low - 0xDC00) := by
  rw [isHigh_iff] at hhigh
  rw [isLow_iff] at hlow
  have hvalid : (0x10000 + (high - 0xD800) * 0x400 + (low - 0xDC00)).isValidChar := by
    unfold Nat.isValidChar
    omega
  rw [joinPair, Char.ofNat, dif_pos hvalid]
  rfl

/-- A unit that is not the first of a pair stands for itself or for a replacement. -/
theorem Reads.single {unit : Nat} {units : List Nat} {text : List Char} (hunit : unit < 0x10000)
    (halone : isHigh unit → ∀ next ∈ units.head?, ¬ isLow next) (hrest : Reads units text) :
    Reads (unit :: units) (single unit :: text) := by
  unfold Utf16.single
  by_cases hhigh : isHigh unit
  · simpa [hhigh] using Reads.lonelyHigh hhigh (halone hhigh) hrest
  · by_cases hlow : isLow unit
    · simpa [hlow] using Reads.lonelyLow hlow hrest
    · have hself := toNat_ofNat_of_unit hunit hhigh hlow
      simpa [hhigh, hlow] using Reads.unit (Char.ofNat unit) hself.symm hrest

/-- Lossy decoding gives what units of sixteen bits stand for. -/
theorem reads_decodeLossy {units : List Nat} (hunits : ∀ unit ∈ units, unit < 0x10000) :
    Reads units (decodeLossy units) := by
  fun_induction decodeLossy units with
  | case1 => exact .nil
  | case2 unit => exact .single (hunits unit (by simp)) (by simp) .nil
  | case3 high low rest hpair ih =>
      obtain ⟨hhigh, hlow⟩ := Bool.and_eq_true_iff.mp hpair
      have hnumber := toNat_joinPair hhigh hlow
      rw [isHigh_iff] at hhigh
      rw [isLow_iff] at hlow
      refine .pair _ (by omega) (by omega) (by omega) (ih ?_)
      exact fun unit hunit => hunits unit (by simp [hunit])
  | case4 unit next rest hpair ih =>
      refine .single (hunits unit (by simp)) ?_ (ih fun other hother => ?_)
      · simpa using hpair
      · exact hunits other (List.mem_cons_of_mem _ hother)

/-- No character is a surrogate. -/
theorem not_isHigh_toNat (c : Char) : isHigh c.toNat = false ∧ isLow c.toNat = false := by
  have hvalid := c.valid
  simp only [UInt32.isValidChar, Nat.isValidChar] at hvalid
  simp only [isHigh, isLow, Char.toNat, Bool.and_eq_false_iff, decide_eq_false_iff_not]
  omega

theorem single_toNat (c : Char) : single c.toNat = c := by
  simp [single, not_isHigh_toNat c]

theorem single_of_surrogate {unit : Nat} (h : isHigh unit ∨ isLow unit) :
    single unit = replacement := by
  simp [single, h]

/-- A pair is told by its character. -/
theorem joinPair_of_toNat (c : Char) (hbeyond : 0x10000 ≤ c.toNat) :
    joinPair (0xD800 + (c.toNat - 0x10000) / 0x400) (0xDC00 + (c.toNat - 0x10000) % 0x400) = c := by
  have hnumber : 0x10000 + (0xD800 + (c.toNat - 0x10000) / 0x400 - 0xD800) * 0x400 +
      (0xDC00 + (c.toNat - 0x10000) % 0x400 - 0xDC00) = c.toNat := by
    omega
  rw [joinPair, hnumber, Char.ofNat_toNat]

theorem Reads.eq_decodeLossy {units : List Nat} {text : List Char} (h : Reads units text) :
    text = decodeLossy units := by
  induction h with
  | nil => rfl
  | unit c hunit _ ih =>
      subst hunit
      rw [decodeLossy_cons_of_single (not_isHigh_toNat c).1, single_toNat, ih]
  | pair c hbeyond hhigh hlow _ ih =>
      have hvalid := c.valid
      simp only [UInt32.isValidChar, Nat.isValidChar] at hvalid
      have hpair : isHigh (0xD800 + (c.toNat - 0x10000) / 0x400) ∧
          isLow (0xDC00 + (c.toNat - 0x10000) % 0x400) := by
        rw [isHigh_iff, isLow_iff]
        simp only [Char.toNat]
        omega
      rw [← hhigh, ← hlow] at hpair
      rw [decodeLossy, if_pos (by simp [hpair]), hhigh, hlow, joinPair_of_toNat c hbeyond, ih]
  | @lonelyHigh high units _ hhigh halone _ ih =>
      have hsingle := single_of_surrogate (.inl hhigh)
      cases units with
      | nil => simp [decodeLossy, ih, hsingle]
      | cons next rest =>
          have hlow : ¬ isLow next := halone next (by simp)
          simp [decodeLossy, hhigh, hlow, hsingle, ih]
  | @lonelyLow low units _ hlow _ ih =>
      have hhigh : isHigh low = false := by
        rw [Bool.eq_false_iff, ne_eq, isHigh_iff]
        have hrange := (isLow_iff low).mp hlow
        omega
      rw [decodeLossy_cons_of_single hhigh, single_of_surrogate (.inr hlow), ih]

/-- Units of sixteen bits stand for exactly one text, and lossy decoding gives it. -/
theorem reads_iff {units : List Nat} (hunits : ∀ unit ∈ units, unit < 0x10000)
    (text : List Char) : Reads units text ↔ text = decodeLossy units := by
  constructor
  · exact Reads.eq_decodeLossy
  · rintro rfl
    exact reads_decodeLossy hunits

end ModCatalog.Text.Utf16
