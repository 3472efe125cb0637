/-!
# Blank characters

The characters with the Unicode property White_Space, and the removal of blanks at both ends of a
text.
-/

namespace ModCatalog.Text

/-- Whether a character has the Unicode property White_Space. -/
def isBlank (c : Char) : Bool :=
  let n := c.toNat
  (9 ≤ n && n ≤ 13) || n == 0x20 || n == 0x85 || n == 0xA0 || n == 0x1680 ||
    (0x2000 ≤ n && n ≤ 0x200A) || n == 0x2028 || n == 0x2029 || n == 0x202F || n == 0x205F ||
    n == 0x3000

/-- Every blank of ASCII is a blank. -/
theorem isBlank_of_isWhitespace {c : Char} (h : c.isWhitespace = true) : isBlank c = true := by
  simp only [Char.isWhitespace, Bool.or_eq_true, decide_eq_true_eq] at h
  rcases h with ((h | h) | h) | h <;> subst h <;> decide

/-- Remove the characters at the end of a text that satisfy a test. -/
def trimEndWhile (test : Char → Bool) (text : List Char) : List Char :=
  (text.reverse.dropWhile test).reverse

/-- Remove the blanks at both ends of a text. -/
def trimBlanks (text : List Char) : List Char :=
  trimEndWhile isBlank (text.dropWhile isBlank)

/-- A text without blanks at its ends is left alone. -/
theorem trimBlanks_eq_self {text : List Char}
    (first : ∀ c, text.head? = some c → isBlank c = false)
    (last : ∀ c, text.getLast? = some c → isBlank c = false) : trimBlanks text = text := by
  have dropHead : ∀ cs : List Char, (∀ c, cs.head? = some c → isBlank c = false) →
      cs.dropWhile isBlank = cs := by
    intro cs h
    cases cs with
    | nil => rfl
    | cons c rest => simp [h c rfl]
  unfold trimBlanks trimEndWhile
  rw [dropHead text first, dropHead text.reverse, List.reverse_reverse]
  intro c h
  exact last c (by simpa using h)

end ModCatalog.Text
