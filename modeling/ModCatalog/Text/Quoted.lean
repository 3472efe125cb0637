import ModCatalog.Text.Printable
import ModCatalog.Text.Numeral

/-!
# Quoted text

A text between double quotes in which everything that could be misread is escaped.
-/

namespace ModCatalog.Text

def codePointEscape (c : Char) : List Char :=
  '\\' :: 'u' :: '\x7b' :: (Nat.toDigits 16 c.toNat ++ ['\x7d'])

/-- How a character is written between the quotes. -/
def quoteChar (c : Char) : List Char :=
  if c = '"' then ['\\', '"']
  else if c = '\\' then ['\\', '\\']
  else if c = '\n' then ['\\', 'n']
  else if c = '\r' then ['\\', 'r']
  else if c = '\t' then ['\\', 't']
  else if c.toNat = 0 then ['\\', '0']
  else if isPrintable c then [c]
  else codePointEscape c

/-- A text between double quotes. -/
def quoted (text : String) : String :=
  String.ofList ('"' :: (text.toList.flatMap quoteChar ++ ['"']))

/-- A printable character other than the quote and the backslash is written as itself. -/
theorem quoteChar_of_isPrintable {c : Char} (h : isPrintable c = true) (quote : c ≠ '"')
    (backslash : c ≠ '\\') : quoteChar c = [c] := by
  have control : ∀ d : Char, d.toNat < 0x20 → c ≠ d := by
    intro d hd hcd
    rw [hcd, isPrintable_of_control hd] at h
    exact absurd h (by decide)
  have hn : c ≠ '\n' := control _ (by decide)
  have hr : c ≠ '\r' := control _ (by decide)
  have ht : c ≠ '\t' := control _ (by decide)
  have h0 : c.toNat ≠ 0 := by
    intro hc
    rw [isPrintable_of_control (by omega)] at h
    exact absurd h (by decide)
  simp [quoteChar, quote, backslash, hn, hr, ht, h0, h]

end ModCatalog.Text
