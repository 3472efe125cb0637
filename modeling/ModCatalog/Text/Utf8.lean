/-!
# UTF-8

Reading of UTF-8 in two ways: strictly, where an ill-formed text has no reading, and lossily, where
every longest ill-formed piece becomes one replacement character.
-/

namespace ModCatalog.Text

/-- The character that stands for what could not be decoded, U+FFFD. -/
def replacement : Char := Char.ofNat 0xFFFD

namespace Utf8

/-- Whether a byte continues a character. -/
def isTail (b : UInt8) : Bool := 0x80 ≤ b.toNat && b.toNat < 0xC0

/-- The payload of a continuation byte. -/
def tailBits (b : UInt8) : Nat := b.toNat % 0x40

/--
Whether `second` may follow the first byte `lead` of a character of two or more bytes.  The narrower
ranges exclude overlong forms, surrogates, and values above U+10FFFF.
-/
def mayFollow (lead second : UInt8) : Bool :=
  isTail second &&
    (lead.toNat != 0xE0 || 0xA0 ≤ second.toNat) && (lead.toNat != 0xED || second.toNat < 0xA0) &&
    (lead.toNat != 0xF0 || 0x90 ≤ second.toNat) && (lead.toNat != 0xF4 || second.toNat < 0x90)

/--
The character that starts with `lead`, or `none` for an ill-formed piece, with the bytes that remain
after it.
-/
def step (lead : UInt8) (rest : List UInt8) : Option Char × List UInt8 :=
  let n := lead.toNat
  if n < 0x80 then (some (Char.ofNat n), rest)
  else if n < 0xC2 || 0xF4 < n then (none, rest)
  else match rest with
    | [] => (none, [])
    | b1 :: rest1 =>
      if !mayFollow lead b1 then (none, rest)
      else if n < 0xE0 then (some (Char.ofNat ((n % 0x20) * 0x40 + tailBits b1)), rest1)
      else match rest1 with
        | [] => (none, [])
        | b2 :: rest2 =>
          if !isTail b2 then (none, rest1)
          else if n < 0xF0 then
            (some (Char.ofNat (((n % 0x10) * 0x40 + tailBits b1) * 0x40 + tailBits b2)), rest2)
          else match rest2 with
            | [] => (none, [])
            | b3 :: rest3 =>
              if !isTail b3 then (none, rest2)
              else
                (some (Char.ofNat
                  ((((n % 8) * 0x40 + tailBits b1) * 0x40 + tailBits b2) * 0x40 + tailBits b3)),
                  rest3)

/-- A step never adds bytes. -/
theorem length_step_le (lead : UInt8) (rest : List UInt8) :
    (step lead rest).2.length ≤ rest.length := by
  unfold step
  dsimp only
  repeat' split
  all_goals simp only [List.length_cons, List.length_nil]
  all_goals omega

/-- The characters of a text, with a replacement character for each ill-formed piece. -/
def decodeLossy : List UInt8 → List Char
  | [] => []
  | lead :: rest => (step lead rest).1.getD replacement :: decodeLossy (step lead rest).2
termination_by bytes => bytes.length
decreasing_by
  have := length_step_le lead rest
  simp only [List.length_cons]
  omega

/-- The characters of a well-formed text. -/
def decode? : List UInt8 → Option (List Char)
  | [] => some []
  | lead :: rest =>
      match (step lead rest).1 with
      | none => none
      | some c => (decode? (step lead rest).2).map (c :: ·)
termination_by bytes => bytes.length
decreasing_by
  have := length_step_le lead rest
  simp only [List.length_cons]
  omega

/-- The two readings agree on well-formed text. -/
theorem decodeLossy_of_decode? {bytes : List UInt8} {text : List Char}
    (h : decode? bytes = some text) : decodeLossy bytes = text := by
  fun_induction decode? bytes generalizing text with
  | case1 => simp at h; subst h; simp [decodeLossy]
  | case2 => simp at h
  | case3 lead rest c hc ih =>
      obtain ⟨tail, ht, rfl⟩ := Option.map_eq_some_iff.1 h
      rw [decodeLossy, hc, ih ht]
      rfl

end Utf8

/-- The text of UTF-8 bytes, with ill-formed pieces replaced. -/
def ofUtf8Lossy (bytes : ByteArray) : String := String.ofList (Utf8.decodeLossy bytes.toList)

end ModCatalog.Text
