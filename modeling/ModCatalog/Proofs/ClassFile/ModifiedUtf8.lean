import ModCatalog.ClassFile.ModifiedUtf8
import ModCatalog.Proofs.Answers
import ModCatalog.Proofs.Text.Utf16

/-!
# Written texts

The texts of a constant pool as bytes, one sequence for each UTF-16 code unit.  Decoding gives back
what the units stand for.  It reads plain UTF-8 where it can; that is possible exactly where the two
encodings are the same, so no unit is read in another way because of it.
-/

namespace ModCatalog.ClassFile.ModifiedUtf8

open Text.Utf8 (isTail tailBits mayFollow step decode?)
open Text.Utf16 (decodeLossy isHigh isLow isHigh_iff isLow_iff)

/-! ## Writing -/

/-- The bytes of a code unit: one for seven bits other than zero, two for up to eleven bits and
three for all others. -/
def writeUnit (unit : UInt16) : List UInt8 :=
  let n := unit.toNat
  if n ≠ 0 ∧ n < 0x80 then [UInt8.ofNat n]
  else if n < 0x800 then [UInt8.ofNat (0xC0 + n / 0x40), UInt8.ofNat (0x80 + n % 0x40)]
  else [UInt8.ofNat (0xE0 + n / 0x1000), UInt8.ofNat (0x80 + n / 0x40 % 0x40),
    UInt8.ofNat (0x80 + n % 0x40)]

def write (units : List UInt16) : List UInt8 := units.flatMap writeUnit

theorem toNat_ofNat {n : Nat} (h : n < 0x100) : (UInt8.ofNat n).toNat = n :=
  UInt8.toNat_ofNat_of_lt' h

/-- Six bits make a continuation byte. -/
theorem isTail_ofNat {n : Nat} (h : n < 0x40) :
    isTail (UInt8.ofNat (0x80 + n)) ∧ tailBits (UInt8.ofNat (0x80 + n)) = n := by
  have hbyte : (UInt8.ofNat (0x80 + n)).toNat = 0x80 + n := toNat_ofNat (by omega)
  simp only [isTail, tailBits, hbyte, Bool.and_eq_true, decide_eq_true_eq]
  omega

section Units

variable {lead second third : UInt8} (rest : List UInt8)

theorem units_one (h : lead.toNat < 0x80) :
    units (lead :: rest) = (units rest).map (lead.toNat :: ·) := by
  rw [units.eq_def]
  exact if_pos h

theorem units_two (h : lead.toNat / 0x20 = 6) (hsecond : isTail second) :
    units (lead :: second :: rest) = (units rest).map (unitOfTwo lead second :: ·) := by
  rw [units, if_neg (by omega), if_pos h, if_pos hsecond]

theorem units_three (h : lead.toNat / 0x10 = 14) (hsecond : isTail second)
    (hthird : isTail third) :
    units (lead :: second :: third :: rest) =
      (units rest).map (unitOfThree lead second third :: ·) := by
  rw [units, if_neg (by omega), if_neg (by omega), if_pos h]
  simp [hsecond, hthird]

/-- A written unit is read back, and what follows it is read on its own. -/
theorem units_writeUnit (unit : UInt16) :
    units (writeUnit unit ++ rest) = (units rest).map (unit.toNat :: ·) := by
  have hunit := unit.toNat_lt
  unfold writeUnit
  dsimp only
  split
  · next hone =>
      have hbyte : (UInt8.ofNat unit.toNat).toNat = unit.toNat := toNat_ofNat (by omega)
      rw [List.singleton_append, units_one rest (by omega), hbyte]
  · split
    · next htwo =>
        have hlead : (UInt8.ofNat (0xC0 + unit.toNat / 0x40)).toNat = 0xC0 + unit.toNat / 0x40 :=
          toNat_ofNat (by omega)
        obtain ⟨htail, hbits⟩ := isTail_ofNat (n := unit.toNat % 0x40) (by omega)
        have hvalue : unitOfTwo (UInt8.ofNat (0xC0 + unit.toNat / 0x40))
            (UInt8.ofNat (0x80 + unit.toNat % 0x40)) = unit.toNat := by
          rw [unitOfTwo, hlead, hbits]
          omega
        rw [List.cons_append, List.singleton_append, units_two rest (by omega) htail, hvalue]
    · next hthree =>
        have hlead : (UInt8.ofNat (0xE0 + unit.toNat / 0x1000)).toNat =
            0xE0 + unit.toNat / 0x1000 := toNat_ofNat (by omega)
        obtain ⟨htail, hbits⟩ := isTail_ofNat (n := unit.toNat / 0x40 % 0x40) (by omega)
        obtain ⟨hlast, hlow⟩ := isTail_ofNat (n := unit.toNat % 0x40) (by omega)
        have hvalue : unitOfThree (UInt8.ofNat (0xE0 + unit.toNat / 0x1000))
            (UInt8.ofNat (0x80 + unit.toNat / 0x40 % 0x40))
            (UInt8.ofNat (0x80 + unit.toNat % 0x40)) = unit.toNat := by
          rw [unitOfThree, hlead, hbits, hlow]
          omega
        rw [List.cons_append, List.cons_append, List.singleton_append,
          units_three rest (by omega) htail hlast, hvalue]

end Units

theorem units_write (written : List UInt16) :
    units (write written) = .ok (written.map UInt16.toNat) := by
  induction written with
  | nil => rfl
  | cons unit rest ih =>
      have hsplit : write (unit :: rest) = writeUnit unit ++ write rest := List.flatMap_cons
      rw [hsplit, units_writeUnit, ih]
      rfl

/-! ## Plain UTF-8 -/

section Plain

variable {lead : UInt8} {rest : List UInt8} {c : Char}

theorem step_one (rest : List UInt8) (h : lead.toNat < 0x80) :
    step lead rest = (some (Char.ofNat lead.toNat), rest) := by
  simp [step, h]

/-- A character of two bytes in plain UTF-8. -/
theorem step_two (hlead : lead.toNat / 0x20 = 6) (h : (step lead rest).1 = some c) :
    ∃ second more, rest = second :: more ∧ isTail second ∧ (step lead rest).2 = more ∧
      c = Char.ofNat (unitOfTwo lead second) := by
  have hlow : ¬ lead.toNat < 0x80 := by omega
  have htwo : lead.toNat < 0xE0 := by omega
  unfold step at h ⊢
  simp only [hlow, htwo, if_true, if_false] at h ⊢
  by_cases hrange : lead.toNat < 0xC2 ∨ 0xF4 < lead.toNat
  · simp [hrange] at h
  · cases rest with
    | nil => simp [hrange] at h
    | cons second more =>
        by_cases hsecond : mayFollow lead second
        · have htail : isTail second := by
            simp only [mayFollow, Bool.and_eq_true] at hsecond
            exact hsecond.1.1.1.1
          simp only [hrange, hsecond, Bool.or_eq_true, decide_eq_true_eq, if_false] at h ⊢
          refine ⟨second, more, rfl, htail, by simp, ?_⟩
          simpa [unitOfTwo] using h.symm
        · simp [hrange, hsecond] at h

/-- A character of three bytes in plain UTF-8, where no surrogate is well-formed. -/
theorem step_three (hlead : lead.toNat / 0x10 = 14) (h : (step lead rest).1 = some c) :
    ∃ second third more, rest = second :: third :: more ∧ isTail second ∧ isTail third ∧
      (lead.toNat = 0xED → second.toNat < 0xA0) ∧ (step lead rest).2 = more ∧
      c = Char.ofNat (unitOfThree lead second third) := by
  have hlow : ¬ lead.toNat < 0x80 := by omega
  have hrange : ¬ (lead.toNat < 0xC2 ∨ 0xF4 < lead.toNat) := by omega
  have htwo : ¬ lead.toNat < 0xE0 := by omega
  have hthree : lead.toNat < 0xF0 := by omega
  unfold step at h ⊢
  simp only [hlow, hrange, htwo, hthree, Bool.or_eq_true, decide_eq_true_eq, if_true, if_false]
    at h ⊢
  cases rest with
  | nil => simp at h
  | cons second rest =>
      by_cases hsecond : mayFollow lead second
      · cases rest with
        | nil => simp [hsecond] at h
        | cons third more =>
            by_cases hthird : isTail third
            · refine ⟨second, third, more, rfl, ?_, hthird, ?_, by simp [hsecond, hthird], ?_⟩
              · simp only [mayFollow, Bool.and_eq_true] at hsecond
                exact hsecond.1.1.1.1
              · simp only [mayFollow, Bool.and_eq_true, Bool.or_eq_true, bne_iff_ne, ne_eq,
                  decide_eq_true_eq] at hsecond
                omega
              · simpa [hsecond, hthird, unitOfThree] using h.symm
            · simp [hsecond, hthird] at h
      · cases rest <;> simp [hsecond] at h

/-- A character that plain UTF-8 begins with is the one unit that is read there, if units can be
read at all. -/
theorem units_of_step {found : List Nat} (hstep : (step lead rest).1 = some c)
    (hunits : units (lead :: rest) = .ok found) :
    ∃ more, found = c.toNat :: more ∧ units (step lead rest).2 = .ok more := by
  -- Each kind of sequence leaves its unit in front of the units that follow.
  have hcons : ∀ (unit : Nat) {behind : List UInt8}, unit < 0x10000 → ¬ isHigh unit → ¬ isLow unit →
      c = Char.ofNat unit → (step lead rest).2 = behind →
      units (lead :: rest) = (units behind).map (unit :: ·) →
      ∃ more, found = c.toNat :: more ∧ units (step lead rest).2 = .ok more := by
    intro unit behind hunit hhigh hlow hc hbehind hread
    rw [hread] at hunits
    rw [hbehind, hc, Text.Utf16.toNat_ofNat_of_unit hunit hhigh hlow]
    cases hmore : units behind with
    | error fault => simp [hmore, Except.map] at hunits
    | ok more => exact ⟨more, by simpa [hmore, Except.map] using hunits.symm, rfl⟩
  have hbyte := lead.toNat_lt
  by_cases hone : lead.toNat < 0x80
  · have hplain := step_one rest hone
    rw [hplain] at hstep
    refine hcons lead.toNat (by omega) ?_ ?_ (by simpa using hstep.symm)
      (by rw [hplain]) (units_one rest hone)
    · rw [isHigh_iff]
      omega
    · rw [isLow_iff]
      omega
  · by_cases htwo : lead.toNat / 0x20 = 6
    · obtain ⟨second, more, rfl, hsecond, hbehind, hc⟩ := step_two htwo hstep
      have hbound : unitOfTwo lead second < 0x800 := by
        unfold unitOfTwo tailBits
        omega
      refine hcons _ (by omega) ?_ ?_ hc hbehind (units_two more htwo hsecond)
      · rw [isHigh_iff]
        omega
      · rw [isLow_iff]
        omega
    · by_cases hthree : lead.toNat / 0x10 = 14
      · obtain ⟨second, third, more, rfl, hsecond, hthird, hnarrow, hbehind, hc⟩ :=
          step_three hthree hstep
        have htail : 0x80 ≤ second.toNat ∧ second.toNat < 0xC0 := by simpa [isTail] using hsecond
        have hbound : unitOfThree lead second third < 0x10000 ∧
            (unitOfThree lead second third < 0xD800 ∨ 0xE000 ≤ unitOfThree lead second third) := by
          unfold unitOfThree tailBits
          omega
        refine hcons _ hbound.1 ?_ ?_ hc hbehind (units_three more hthree hsecond hthird)
        · rw [isHigh_iff]
          omega
        · rw [isLow_iff]
          omega
      · rw [units.eq_def] at hunits
        simp [hone, htwo, hthree] at hunits

end Plain

/-- Where the bytes are plain UTF-8 and written units as well, both readings are the same text. -/
theorem plain_eq_units {bytes : List UInt8} {text : List Char} {found : List Nat}
    (hplain : decode? bytes = some text) (hunits : units bytes = .ok found) :
    text = decodeLossy found := by
  fun_induction decode? bytes generalizing text found with
  | case1 =>
      cases hplain
      cases hunits
      rfl
  | case2 => cases hplain
  | case3 lead rest c hc ih =>
      obtain ⟨behind, hbehind, rfl⟩ := Option.map_eq_some_iff.mp hplain
      obtain ⟨more, rfl, hmore⟩ := units_of_step hc hunits
      rw [Text.Utf16.decodeLossy_cons_of_single (Text.Utf16.not_isHigh_toNat c).1,
        Text.Utf16.single_toNat, ih hbehind hmore]

theorem decode_of_units {bytes : List UInt8} {found : List Nat} (h : units bytes = .ok found) :
    decode bytes = .ok (String.ofList (decodeLossy found)) := by
  unfold decode
  cases hplain : decode? bytes with
  | none => simp [h, Except.map]
  | some text => simp [plain_eq_units hplain h]

/-- Decoding undoes writing: the bytes of code units decode to the one text that the units stand
for.  Whatever bytes can be read both as plain UTF-8 and unit by unit, the two readings agree. -/
theorem decode_write (written : List UInt16) :
    let text := decodeLossy (written.map UInt16.toNat)
    decode (write written) = .ok (String.ofList text) ∧
      (∀ other, Text.Utf16.Reads (written.map UInt16.toNat) other ↔ other = text) ∧
      ∀ bytes plain found, decode? bytes = some plain → units bytes = .ok found →
        plain = decodeLossy found := by
  refine ⟨decode_of_units (units_write written), Text.Utf16.reads_iff ?_, ?_⟩
  · intro unit hunit
    obtain ⟨word, -, rfl⟩ := List.mem_map.mp hunit
    exact word.toNat_lt
  · intro bytes plain found
    exact plain_eq_units

/-- The units of a letter, of zero, of a pair, and of two surrogates without their partners. -/
def sampleUnits : List UInt16 := [0x61, 0, 0xD83D, 0xDE00, 0xDE00, 0x20AC, 0xD83D]

theorem decode_write_sample :
    decode (write sampleUnits) = .ok (String.ofList
        ['a', Char.ofNat 0, Char.ofNat 0x1F600, Text.replacement, '€', Text.replacement]) ∧
      decode? [0x61, 0xC3, 0xA9] = some ['a', 'é'] ∧
      units [0x61, 0xC3, 0xA9] = .ok [0x61, 0xE9] ∧ ['a', 'é'] = decodeLossy [0x61, 0xE9] := by
  have hplain : decode? [0x61, 0xC3, 0xA9] = some ['a', 'é'] := by decide +kernel
  have hunits : units [0x61, 0xC3, 0xA9] = .ok [0x61, 0xE9] := by rfl
  obtain ⟨htext, -, hagree⟩ := decode_write sampleUnits
  exact ⟨htext, hplain, hunits, hagree _ _ _ hplain hunits⟩

/-! ## Lengths -/

end ModCatalog.ClassFile.ModifiedUtf8
