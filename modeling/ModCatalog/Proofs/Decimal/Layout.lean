import ModCatalog.Decimal.Layout
import ModCatalog.Proofs.Decimal.Shortest
import ModCatalog.Proofs.Text.Numeral

/-!
# The texts of floating-point numbers

The text of a number gives back its sign and the value of its digits, and these give back the
number.  So different bit patterns have different texts, unless both are no numbers.
-/

namespace ModCatalog.Decimal

/-! ## Bit patterns -/

namespace Format

variable {f : Format}

/-- The value of a bit pattern by its three fields. -/
def ofFields (f : Format) (negative : Bool) (biased fraction : Nat) : FloatValue :=
  if biased == Nat.pow 2 f.exponentWidth - 1 then
    if fraction == 0 then .infinite negative else .nan
  else if biased == 0 then .finite negative ⟨fraction, f.minExponent⟩
  else .finite negative ⟨Nat.pow 2 (f.precision - 1) + fraction, f.minExponent + (biased - 1 : Nat)⟩

theorem decode_eq (f : Format) (bits : Nat) : f.decode bits =
    f.ofFields (bits / Nat.pow 2 (f.precision - 1 + f.exponentWidth) % 2 == 1)
      (bits / Nat.pow 2 (f.precision - 1) % Nat.pow 2 f.exponentWidth)
      (bits % Nat.pow 2 (f.precision - 1)) := rfl

theorem ofFields_inj {negative negative' : Bool} {biased biased' fraction fraction' : Nat}
    (hfraction : fraction < Nat.pow 2 (f.precision - 1))
    (hfraction' : fraction' < Nat.pow 2 (f.precision - 1))
    (hnumber : f.ofFields negative biased fraction ≠ .nan)
    (h : f.ofFields negative biased fraction = f.ofFields negative' biased' fraction') :
    negative = negative' ∧ biased = biased' ∧ fraction = fraction' := by
  unfold ofFields at h hnumber
  simp only [beq_iff_eq] at h hnumber
  split_ifs at h hnumber <;> simp_all <;> omega

theorem bits_eq (f : Format) (bits : Nat) :
    bits = bits % Nat.pow 2 (f.precision - 1) + Nat.pow 2 (f.precision - 1) *
      (bits / Nat.pow 2 (f.precision - 1) % Nat.pow 2 f.exponentWidth + Nat.pow 2 f.exponentWidth *
        (bits / Nat.pow 2 (f.precision - 1 + f.exponentWidth))) := by
  have hpow : Nat.pow 2 (f.precision - 1 + f.exponentWidth) =
      Nat.pow 2 (f.precision - 1) * Nat.pow 2 f.exponentWidth := Nat.pow_add 2 _ _
  rw [hpow, ← Nat.div_div_eq_div_mul, Nat.mod_add_div, Nat.mod_add_div]

theorem eq_of_bit_eq {a b : Nat} (ha : a < 2) (hb : b < 2) (h : (a % 2 == 1) = (b % 2 == 1)) :
    a = b := by
  rw [Bool.eq_iff_iff, beq_iff_eq, beq_iff_eq] at h
  omega

theorem decode_inj {bits other : Nat}
    (hbits : bits < Nat.pow 2 (f.precision - 1 + f.exponentWidth + 1))
    (hother : other < Nat.pow 2 (f.precision - 1 + f.exponentWidth + 1))
    (hnumber : f.decode bits ≠ .nan) (h : f.decode bits = f.decode other) : bits = other := by
  have hpos : 0 < Nat.pow 2 (f.precision - 1) := Nat.two_pow_pos _
  have hsign : ∀ n, n < Nat.pow 2 (f.precision - 1 + f.exponentWidth + 1) →
      n / Nat.pow 2 (f.precision - 1 + f.exponentWidth) < 2 := by
    intro n hn
    apply (Nat.div_lt_iff_lt_mul (Nat.two_pow_pos _)).mpr
    rw [Nat.mul_comm]
    exact hn
  rw [decode_eq, decode_eq] at h
  rw [decode_eq] at hnumber
  obtain ⟨hnegative, hbiased, hfraction⟩ :=
    ofFields_inj (Nat.mod_lt bits hpos) (Nat.mod_lt other hpos) hnumber h
  have hsigns := eq_of_bit_eq (hsign bits hbits) (hsign other hother) hnegative
  rw [bits_eq f bits, bits_eq f other, hfraction, hbiased, hsigns]

end Format

/-- Whether a value is one that bit patterns of a format have. -/
def FloatValue.IsCanonical (f : Format) : FloatValue → Prop
  | .finite _ x => x.IsCanonical f
  | _ => True

theorem Format.isCanonical_decode {f : Format} (hprecision : 0 < f.precision) (bits : Nat) :
    (f.decode bits).IsCanonical f := by
  have hpow := pow_precision hprecision
  have hfraction : bits % Nat.pow 2 (f.precision - 1) < Nat.pow 2 (f.precision - 1) :=
    Nat.mod_lt bits (Nat.two_pow_pos _)
  rw [decode_eq]
  unfold ofFields
  split
  · split <;> trivial
  · split
    · exact ⟨by dsimp only; omega, le_refl _, fun h => absurd h (lt_irrefl _)⟩
    · exact ⟨by dsimp only; omega, by dsimp only; omega, fun _ => Nat.le_add_right _ _⟩

/-! ## Digits with a point -/

theorem Magnitude.IsCanonical.eq_of_mantissa_eq_zero {f : Format} {x y : Magnitude}
    (hx : x.IsCanonical f) (hy : y.IsCanonical f) (hzero : x.mantissa = 0)
    (hzero' : y.mantissa = 0) : x = y := by
  have hpow : 0 < Nat.pow 2 (f.precision - 1) := Nat.two_pow_pos _
  have hleast : ∀ z : Magnitude, z.IsCanonical f → z.mantissa = 0 → z.exponent = f.minExponent := by
    intro z hz hnone
    by_contra hne
    have hleading := hz.le_mantissa (lt_of_le_of_ne hz.least_le (Ne.symm hne))
    omega
  have hexponent : x.exponent = y.exponent := (hleast x hx hzero).trans (hleast y hy hzero').symm
  cases x
  cases y
  simp_all

theorem pos_of_holds {f : Format} {x : Magnitude} {v : ℚ} (hpos : 0 < x.mantissa)
    (hholds : (RoundingInterval.ofMagnitude f x).Holds v) : 0 < v := by
  have hlow : 0 < (RoundingInterval.ofMagnitude f x).low := by
    unfold RoundingInterval.ofMagnitude
    dsimp only
    split <;> omega
  have hscaled : (0 : ℚ) < (RoundingInterval.ofMagnitude f x).low *
      2 ^ (RoundingInterval.ofMagnitude f x).exponent := by positivity
  rcases hholds.low with hlt | ⟨-, heq⟩
  · exact hscaled.trans hlt
  · exact hscaled.trans_eq heq

namespace Layout

variable {layout : Layout}

theorem ofDigitChars_append_replicate (digits : List Char) (count : Nat) :
    Nat.ofDigitChars 10 (digits ++ List.replicate count '0') 0 =
      Nat.ofDigitChars 10 digits 0 * 10 ^ count := by
  rw [Nat.ofDigitChars_append, Nat.ofDigitChars_replicate_zero, Nat.mul_comm]

theorem ofDigitChars_replicate_append (count : Nat) (digits : List Char) :
    Nat.ofDigitChars 10 (List.replicate count '0' ++ digits) 0 = Nat.ofDigitChars 10 digits 0 := by
  rw [Nat.ofDigitChars_append, Nat.ofDigitChars_replicate_zero, Nat.mul_zero]

/-- Digits with a point give back the value of the digits. -/
theorem positional_spec {digits : List Char} (hdigits : ∀ c ∈ digits, c.isDigit) (exponent : Int) :
    ∃ left right, positional digits exponent = left ++ '.' :: right ∧
      (∀ c ∈ left ++ right, c.isDigit) ∧
      (Nat.ofDigitChars 10 (left ++ right) 0 : ℚ) =
        Nat.ofDigitChars 10 digits 0 * 10 ^ exponent * 10 ^ right.length := by
  have hzeros : ∀ count, ∀ c ∈ List.replicate count '0', c.isDigit := by
    intro count c hc
    rw [List.eq_of_mem_replicate hc]
    rfl
  have hpow := zpow_mul_pow_toNat_neg (by norm_num : (10 : ℚ) ≠ 0) exponent
  unfold positional
  split
  · next hwhole =>
      have hnone : (-exponent).toNat = 0 := by omega
      rw [hnone, pow_zero, mul_one] at hpow
      have hjoin : digits ++ List.replicate exponent.toNat '0' ++ ['0'] =
          digits ++ List.replicate (exponent.toNat + 1) '0' := by
        rw [List.replicate_succ', List.append_assoc]
      refine ⟨digits ++ List.replicate exponent.toNat '0', ['0'], rfl, ?_, ?_⟩
      · rw [hjoin, List.forall_mem_append]
        exact ⟨hdigits, hzeros _⟩
      · rw [hjoin, ofDigitChars_append_replicate, hpow, List.length_singleton]
        push_cast
        ring
  · next hfraction =>
      have hnone : exponent.toNat = 0 := by omega
      rw [hnone, pow_zero] at hpow
      dsimp only
      split
      · next hinside =>
          refine ⟨_, _, rfl, ?_, ?_⟩
          · rw [List.take_append_drop]
            exact hdigits
          · have hlength : digits.length - (digits.length - (-exponent).toNat) =
                (-exponent).toNat := by omega
            rw [List.take_append_drop, List.length_drop, hlength, mul_assoc, hpow, mul_one]
      · next hbefore =>
          have hlength : (-exponent).toNat - digits.length + digits.length =
              (-exponent).toNat := by omega
          refine ⟨['0'], _, rfl, ?_, ?_⟩
          · rw [List.forall_mem_append, List.forall_mem_append]
            exact ⟨hzeros 1, hzeros _, hdigits⟩
          · have hjoin (count : Nat) : ['0'] ++ (List.replicate count '0' ++ digits) =
                List.replicate (count + 1) '0' ++ digits := rfl
            rw [List.length_append, List.length_replicate, hlength, mul_assoc, hpow, mul_one,
              hjoin, ofDigitChars_replicate_append]

theorem value_eq_of_positional_eq {digits digits' : List Char} (hdigits : ∀ c ∈ digits, c.isDigit)
    (hdigits' : ∀ c ∈ digits', c.isDigit) {exponent exponent' : Int}
    (h : positional digits exponent = positional digits' exponent') :
    (Nat.ofDigitChars 10 digits 0 : ℚ) * 10 ^ exponent =
      Nat.ofDigitChars 10 digits' 0 * 10 ^ exponent' := by
  obtain ⟨left, right, htext, hparts, hvalue⟩ := positional_spec hdigits exponent
  obtain ⟨left', right', htext', hparts', hvalue'⟩ := positional_spec hdigits' exponent'
  rw [htext, htext'] at h
  have hleft : '.' ∉ left := fun hmem =>
    Text.not_mem_of_isDigit hparts rfl (List.mem_append_left right hmem)
  have hright : '.' ∉ right := fun hmem =>
    Text.not_mem_of_isDigit hparts rfl (List.mem_append_right left hmem)
  obtain ⟨rfl, -, rfl⟩ := (List.append_cons_inj_of_notMem hleft hright).mp h
  exact mul_right_cancel₀ (by positivity) (hvalue.symm.trans hvalue')

/-! ## The scientific form -/

/-- The exponent as the scientific form has it. -/
def exponentText (layout : Layout) (exponent : Int) : List Char :=
  (if 0 ≤ exponent then layout.plus.toList else []) ++ (toString exponent).toList

theorem minus_mem_exponentText_iff (hplus : '-' ∉ layout.plus.toList) (exponent : Int) :
    '-' ∈ layout.exponentText exponent ↔ exponent < 0 := by
  unfold exponentText
  rw [List.mem_append, Text.minus_mem_toString_iff]
  split <;> simp [hplus]

theorem exponentText_inj (hplus : '-' ∉ layout.plus.toList) {exponent other : Int}
    (h : layout.exponentText exponent = layout.exponentText other) : exponent = other := by
  have hsign : exponent < 0 ↔ other < 0 := by
    rw [← minus_mem_exponentText_iff hplus, ← minus_mem_exponentText_iff hplus, h]
  apply Text.toString_int_inj
  apply String.toList_injective
  unfold exponentText at h
  split at h <;> split at h
  · exact List.append_cancel_left h
  · omega
  · omega
  · exact h

theorem scientific_spec {digits : List Char} (hdigits : ∀ c ∈ digits, c.isDigit) (exponent : Int) :
    ∃ front, layout.scientific digits exponent = front ++ 'e' :: layout.exponentText exponent ∧
      (∀ c ∈ front, c.isDigit ∨ c = '.') ∧ front.filter Char.isDigit = digits := by
  have hkept : digits.filter Char.isDigit = digits := List.filter_eq_self.mpr hdigits
  unfold scientific
  match digits with
  | [] => exact ⟨[], rfl, nofun, rfl⟩
  | [digit] => exact ⟨[digit], rfl, fun c hc => Or.inl (hdigits c hc), hkept⟩
  | digit :: next :: rest =>
      obtain ⟨hdigit, hrest⟩ := List.forall_mem_cons.mp hdigits
      refine ⟨digit :: '.' :: next :: rest, rfl, ?_, ?_⟩
      · rw [List.forall_mem_cons, List.forall_mem_cons]
        exact ⟨Or.inl hdigit, Or.inr rfl, fun c hc => Or.inl (hrest c hc)⟩
      · rw [List.filter_cons_of_pos hdigit, List.filter_cons_of_neg (by decide),
          List.filter_eq_self.mpr hrest]

theorem e_not_mem_exponentText (hplus : 'e' ∉ layout.plus.toList) (exponent : Int) :
    'e' ∉ layout.exponentText exponent := by
  have hdigits (n : Nat) := Text.not_mem_of_isDigit (Text.isDigit_toDigits n)
    (rfl : 'e'.isDigit = false)
  unfold exponentText
  rw [Text.toList_toString_int, List.mem_append]
  split <;> simp [hplus, hdigits]

/-- Whether nothing but plus signs stands in front of exponents. -/
def HasPlainPlus (layout : Layout) : Prop := ∀ c ∈ layout.plus.toList, c = '+'

theorem HasPlainPlus.not_mem (hplus : layout.HasPlainPlus) {c : Char} (hc : c ≠ '+') :
    c ∉ layout.plus.toList := fun hmem => hc (hplus c hmem)

theorem scientific_inj (hplus : layout.HasPlainPlus) {digits digits' : List Char}
    (hdigits : ∀ c ∈ digits, c.isDigit) (hdigits' : ∀ c ∈ digits', c.isDigit)
    {exponent exponent' : Int}
    (h : layout.scientific digits exponent = layout.scientific digits' exponent') :
    digits = digits' ∧ exponent = exponent' := by
  obtain ⟨front, htext, hfront, hkept⟩ := layout.scientific_spec hdigits exponent
  obtain ⟨front', htext', -, hkept'⟩ := layout.scientific_spec hdigits' exponent'
  have he : 'e' ∉ front := fun hmem => absurd (hfront 'e' hmem) (by decide)
  have hlast := e_not_mem_exponentText (hplus.not_mem (by decide)) exponent
  rw [htext, htext', List.append_cons_inj_of_notMem he hlast] at h
  obtain ⟨rfl, -, hexponents⟩ := h
  exact ⟨hkept.symm.trans hkept', exponentText_inj (hplus.not_mem (by decide)) hexponents⟩

/-! ## Numbers -/

theorem e_not_mem_positional {digits : List Char} (hdigits : ∀ c ∈ digits, c.isDigit)
    (exponent : Int) : 'e' ∉ positional digits exponent := by
  obtain ⟨left, right, htext, hparts, -⟩ := positional_spec hdigits exponent
  have hboth := Text.not_mem_of_isDigit hparts (rfl : 'e'.isDigit = false)
  rw [List.mem_append] at hboth
  rw [htext, List.mem_append, List.mem_cons]
  simpa using hboth

/-- The text of a decimal gives back its value. -/
theorem value_eq_of_writeScientific_eq (hplus : layout.HasPlainPlus) {x y : Scientific}
    (h : layout.writeScientific x = layout.writeScientific y) : x.value = y.value := by
  have hdigits := Text.isDigit_toDigits x.digits
  have hdigits' := Text.isDigit_toDigits y.digits
  have he (digits : List Char) (hdigits : ∀ c ∈ digits, c.isDigit) (exponent : Int) :
      'e' ∈ layout.scientific digits exponent := by
    obtain ⟨front, htext, -, -⟩ := layout.scientific_spec hdigits exponent
    rw [htext]
    simp
  unfold writeScientific at h
  dsimp only at h
  split at h <;> split at h
  · have hvalue := value_eq_of_positional_eq hdigits hdigits' h
    rw [Nat.ofDigitChars_ten_toDigits, Nat.ofDigitChars_ten_toDigits] at hvalue
    exact hvalue
  · exact absurd (h ▸ he _ hdigits' _) (e_not_mem_positional hdigits _)
  · exact absurd (h.symm ▸ he _ hdigits _) (e_not_mem_positional hdigits' _)
  · obtain ⟨hsame, hexponent⟩ := scientific_inj hplus hdigits hdigits' h
    have hnumbers := Text.toDigits_inj hsame
    rw [hsame] at hexponent
    have hexponents : x.exponent = y.exponent := by omega
    unfold Scientific.value
    rw [hnumbers, hexponents]

theorem writeScientific_zero (hleast : layout.least ≤ 0) :
    layout.writeScientific ⟨0, 0⟩ = ['0', '.', '0'] := by
  unfold writeScientific
  rw [Nat.toDigits_zero]
  simp [hleast, firstScientific, positional]

/-- A number, zero included, is written as some decimal in its interval. -/
theorem writeMagnitude_eq (hleast : layout.least ≤ 0) (f : Format) (x : Magnitude) :
    ∃ decimal : Scientific, layout.writeMagnitude f x = layout.writeScientific decimal ∧
      (x.mantissa = 0 → decimal.value = 0) ∧
      (0 < x.mantissa → (RoundingInterval.ofMagnitude f x).Holds decimal.value) := by
  unfold writeMagnitude
  split
  · next hzero =>
      rw [beq_iff_eq] at hzero
      refine ⟨⟨0, 0⟩, (writeScientific_zero hleast).symm, fun _ => ?_, fun h => by omega⟩
      simp [Scientific.value]
  · next hpos =>
      rw [beq_iff_eq] at hpos
      exact ⟨_, rfl, fun h => absurd h hpos, holds_shortest layout.tie f⟩

theorem writeMagnitude_inj (hplus : layout.HasPlainPlus) (hleast : layout.least ≤ 0) {f : Format}
    (hprecision : 0 < f.precision) {x y : Magnitude} (hx : x.IsCanonical f) (hy : y.IsCanonical f)
    (h : layout.writeMagnitude f x = layout.writeMagnitude f y) : x = y := by
  obtain ⟨decimal, htext, hzero, hholds⟩ := writeMagnitude_eq hleast f x
  obtain ⟨other, htext', hzero', hholds'⟩ := writeMagnitude_eq hleast f y
  rw [htext, htext'] at h
  have hvalue := value_eq_of_writeScientific_eq hplus h
  rcases Nat.eq_zero_or_pos x.mantissa with hnone | hpos <;>
    rcases Nat.eq_zero_or_pos y.mantissa with hnone' | hpos'
  · exact hx.eq_of_mantissa_eq_zero hy hnone hnone'
  · have hsome := pos_of_holds hpos' (hholds' hpos')
    rw [← hvalue, hzero hnone] at hsome
    exact absurd hsome (lt_irrefl 0)
  · have hsome := pos_of_holds hpos (hholds hpos)
    rw [hvalue, hzero' hnone'] at hsome
    exact absurd hsome (lt_irrefl 0)
  · exact eq_of_holds hprecision hx hy (hholds hpos) (hvalue ▸ hholds' hpos')

/-! ## Characters of numbers -/

/-- The characters of the texts of finite numbers. -/
def isNumberChar (c : Char) : Bool := c.isDigit || c = '.' || c = 'e' || c = '+' || c = '-'

theorem isNumberChar_of_isDigit {c : Char} (h : c.isDigit) : isNumberChar c := by
  simp [isNumberChar, h]

theorem isNumberChar_exponentText (hplus : layout.HasPlainPlus) (exponent : Int) :
    ∀ c ∈ layout.exponentText exponent, isNumberChar c := by
  have hdigits (n : Nat) : ∀ c ∈ Nat.toDigits 10 n, isNumberChar c :=
    fun c hc => isNumberChar_of_isDigit (Text.isDigit_toDigits n c hc)
  have hsign : ∀ c ∈ if 0 ≤ exponent then layout.plus.toList else [], isNumberChar c := by
    split
    · intro c hc
      rw [hplus c hc]
      rfl
    · exact nofun
  unfold exponentText
  rw [List.forall_mem_append, Text.toList_toString_int]
  refine ⟨hsign, ?_⟩
  split
  · exact hdigits _
  · exact List.forall_mem_cons.mpr ⟨rfl, hdigits _⟩

theorem isNumberChar_writeScientific (hplus : layout.HasPlainPlus) (x : Scientific) :
    ∀ c ∈ layout.writeScientific x, isNumberChar c := by
  have hdigits := Text.isDigit_toDigits x.digits
  unfold writeScientific
  dsimp only
  split
  · obtain ⟨left, right, htext, hparts, -⟩ := positional_spec hdigits x.exponent
    obtain ⟨hleft, hright⟩ := List.forall_mem_append.mp hparts
    rw [htext, List.forall_mem_append, List.forall_mem_cons]
    exact ⟨fun c hc => isNumberChar_of_isDigit (hleft c hc), rfl,
      fun c hc => isNumberChar_of_isDigit (hright c hc)⟩
  · obtain ⟨front, htext, hfront, -⟩ := layout.scientific_spec hdigits
      (x.exponent + (Nat.toDigits 10 x.digits).length - 1)
    rw [htext, List.forall_mem_append, List.forall_mem_cons]
    refine ⟨fun c hc => ?_, rfl, isNumberChar_exponentText hplus _⟩
    rcases hfront c hc with hdigit | rfl
    · exact isNumberChar_of_isDigit hdigit
    · rfl

theorem head_positional (digit : Char) (rest : List Char) (exponent : Int) :
    ∃ c tail, positional (digit :: rest) exponent = c :: tail ∧ (c = digit ∨ c = '0') := by
  unfold positional
  split
  · exact ⟨digit, _, rfl, Or.inl rfl⟩
  · dsimp only
    split
    · next hinside =>
        obtain ⟨count, hcount⟩ : ∃ count,
            (digit :: rest).length - (-exponent).toNat = count + 1 :=
          ⟨(digit :: rest).length - (-exponent).toNat - 1, by omega⟩
        rw [hcount]
        exact ⟨digit, _, rfl, Or.inl rfl⟩
    · exact ⟨'0', _, rfl, Or.inr rfl⟩

theorem head_writeScientific (layout : Layout) (x : Scientific) :
    ∃ c tail, layout.writeScientific x = c :: tail ∧ c.isDigit := by
  have hdigits := Text.isDigit_toDigits x.digits
  unfold writeScientific
  cases hlist : Nat.toDigits 10 x.digits with
  | nil => exact absurd hlist Nat.toDigits_ne_nil
  | cons digit rest =>
      have hdigit : digit.isDigit := hdigits digit (by rw [hlist]; exact List.mem_cons_self)
      dsimp only
      split
      · obtain ⟨c, tail, htext, hc⟩ := head_positional digit rest x.exponent
        refine ⟨c, tail, htext, ?_⟩
        rcases hc with rfl | rfl
        · exact hdigit
        · rfl
      · unfold scientific
        cases rest <;> exact ⟨digit, _, rfl, hdigit⟩

/-! ## Values -/

theorem toList_write_finite (layout : Layout) (f : Format) (negative : Bool) (x : Magnitude) :
    (layout.write f (.finite negative x)).toList =
      (if negative then ['-'] else []) ++ layout.writeMagnitude f x := String.toList_ofList

theorem isNumberChar_write_finite (hplus : layout.HasPlainPlus) (hleast : layout.least ≤ 0)
    (f : Format) (negative : Bool) (x : Magnitude) :
    ∀ c ∈ (layout.write f (.finite negative x)).toList, isNumberChar c := by
  obtain ⟨decimal, htext, -⟩ := writeMagnitude_eq hleast f x
  have hsign : ∀ c ∈ if negative then ['-'] else [], isNumberChar c := by
    cases negative <;> simp [isNumberChar]
  rw [toList_write_finite, htext, List.forall_mem_append]
  exact ⟨hsign, isNumberChar_writeScientific hplus decimal⟩

theorem i_mem_write_infinite (layout : Layout) (f : Format) (negative : Bool) :
    'i' ∈ (layout.write f (.infinite negative)).toList := by
  cases negative <;> simp [write]

/-- A sign is told from the first digit. -/
theorem write_finite_inj (hplus : layout.HasPlainPlus) (hleast : layout.least ≤ 0) {f : Format}
    (hprecision : 0 < f.precision) {negative negative' : Bool} {x y : Magnitude}
    (hx : x.IsCanonical f) (hy : y.IsCanonical f)
    (h : layout.write f (.finite negative x) = layout.write f (.finite negative' y)) :
    negative = negative' ∧ x = y := by
  have hhead (z : Magnitude) (tail : List Char) : layout.writeMagnitude f z ≠ '-' :: tail := by
    obtain ⟨decimal, htext, -⟩ := writeMagnitude_eq hleast f z
    obtain ⟨c, rest, hcons, hdigit⟩ := layout.head_writeScientific decimal
    rw [htext, hcons]
    rintro heq
    rw [(List.cons.inj heq).1] at hdigit
    cases hdigit
  have htexts := congrArg String.toList h
  rw [toList_write_finite, toList_write_finite] at htexts
  cases negative <;> cases negative'
  · exact ⟨rfl, writeMagnitude_inj hplus hleast hprecision hx hy htexts⟩
  · exact absurd htexts (hhead x _)
  · exact absurd htexts.symm (hhead y _)
  · exact ⟨rfl, writeMagnitude_inj hplus hleast hprecision hx hy (List.cons.inj htexts).2⟩

/-- Different values have different texts. -/
theorem write_inj (hplus : layout.HasPlainPlus) (hleast : layout.least ≤ 0) {f : Format}
    (hprecision : 0 < f.precision) {a b : FloatValue} (ha : a.IsCanonical f) (hb : b.IsCanonical f)
    (hnumber : a ≠ .nan) (hnumber' : b ≠ .nan) (h : layout.write f a = layout.write f b) :
    a = b := by
  have hi (negative : Bool) (x : Magnitude) (infinite : Bool) :
      layout.write f (.finite negative x) ≠ layout.write f (.infinite infinite) := by
    intro heq
    have hmem := layout.i_mem_write_infinite f infinite
    rw [← heq] at hmem
    exact absurd (isNumberChar_write_finite hplus hleast f negative x 'i' hmem) (by decide)
  cases a with
  | nan => exact absurd rfl hnumber
  | infinite negative =>
      cases b with
      | nan => exact absurd rfl hnumber'
      | infinite negative' => cases negative <;> cases negative' <;> simp [write] at h ⊢
      | finite negative' y => exact absurd h.symm (hi negative' y negative)
  | finite negative x =>
      cases b with
      | nan => exact absurd rfl hnumber'
      | infinite negative' => exact absurd h (hi negative x negative')
      | finite negative' y =>
          obtain ⟨rfl, rfl⟩ := write_finite_inj hplus hleast hprecision ha hb h
          rfl

/-- Different bit patterns have different texts, unless they are no numbers. -/
theorem write_decode_inj (hplus : layout.HasPlainPlus) (hleast : layout.least ≤ 0) {f : Format}
    (hprecision : 0 < f.precision) {bits other : Nat}
    (hbits : bits < Nat.pow 2 (f.precision - 1 + f.exponentWidth + 1))
    (hother : other < Nat.pow 2 (f.precision - 1 + f.exponentWidth + 1))
    (hnumber : f.decode bits ≠ .nan) (hnumber' : f.decode other ≠ .nan)
    (h : layout.write f (f.decode bits) = layout.write f (f.decode other)) : bits = other :=
  Format.decode_inj hbits hother hnumber (write_inj hplus hleast hprecision
    (Format.isCanonical_decode hprecision bits) (Format.isCanonical_decode hprecision other)
    hnumber hnumber' h)

/-- The characters of the texts of values. -/
def isFloatChar (c : Char) : Bool := isNumberChar c || c.isAlpha

theorem isFloatChar_write (hplus : layout.HasPlainPlus) (hleast : layout.least ≤ 0) (f : Format)
    (value : FloatValue) : ∀ c ∈ (layout.write f value).toList, isFloatChar c := by
  cases value with
  | nan => simp [write, isFloatChar, isNumberChar]
  | infinite negative => cases negative <;> simp [write, isFloatChar, isNumberChar]
  | finite negative x =>
      intro c hc
      unfold isFloatChar
      rw [isNumberChar_write_finite hplus hleast f negative x c hc]
      rfl

end Layout

end ModCatalog.Decimal
