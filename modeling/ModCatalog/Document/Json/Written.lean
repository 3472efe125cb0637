/-!
# JSON as written

The grammar of JSON over bytes.  What is read is the shape of a document in which texts and numbers
are still as written: a text may hold bytes that are no UTF-8 or half of a surrogate pair, and a
number may be beyond every format.  Whether such a leaf has a value is asked only where it is used.
-/

namespace ModCatalog.Document

/-- A piece of a text: a byte that stands for itself, or a code unit written as an escape. -/
inductive JsonPiece
  | byte (b : UInt8)
  | unit (u : Nat)
deriving DecidableEq, Repr

/-- The parts of a number, digits most significant first. -/
structure JsonNumeral where
  negative : Bool
  whole : List Nat
  fraction : Option (List Nat)
  exponent : Option (Bool × List Nat)
deriving DecidableEq, Repr

/-- A JSON document as it is written. -/
inductive WrittenJson
  | null
  | bool (b : Bool)
  | number (n : JsonNumeral)
  | text (pieces : List JsonPiece)
  | array (items : List WrittenJson)
  | object (members : List (List JsonPiece × WrittenJson))
deriving Repr

namespace WrittenJson

/-- A reader takes a phrase off the front of the bytes. -/
abbrev Reader (α : Type) := List UInt8 → Option (α × List UInt8)

/-- The ASCII character of a byte; bytes above ASCII give characters above ASCII. -/
def charOf (b : UInt8) : Char := Char.ofNat b.toNat

/-- Whether a byte may stand between phrases. -/
def isSpace (b : UInt8) : Bool := b == 0x20 || b == 0x09 || b == 0x0A || b == 0x0D

def skipSpace (bytes : List UInt8) : List UInt8 := bytes.dropWhile isSpace

def isDigit (b : UInt8) : Bool := (charOf b).isDigit

/-- The longest run of digits in front. -/
def digits (bytes : List UInt8) : List Nat × List UInt8 :=
  ((bytes.takeWhile isDigit).map fun b => b.toNat - 48, bytes.dropWhile isDigit)

def someDigits : Reader (List Nat) := fun bytes =>
  if (digits bytes).1.isEmpty then none else some (digits bytes)

/-- The whole part of a number: a zero alone, or digits that do not start with zero. -/
def wholePart : Reader (List Nat) := fun bytes =>
  match digits bytes with
  | ([], _) => none
  | (0 :: _ :: _, _) => none
  | (whole, rest) => some (whole, rest)

/-- The fraction of a number, if one follows. -/
def fractionPart : Reader (Option (List Nat))
  | 0x2E :: rest => (someDigits rest).map fun (fraction, rest) => (some fraction, rest)
  | bytes => some (none, bytes)

/-- The exponent of a number, if one follows; the flag tells a negative one. -/
def exponentPart : Reader (Option (Bool × List Nat))
  | [] => some (none, [])
  | b :: rest =>
      if charOf b = 'e' ∨ charOf b = 'E' then
        let (negative, rest) := match rest with
          | 0x2B :: rest => (false, rest)
          | 0x2D :: rest => (true, rest)
          | rest => (false, rest)
        (someDigits rest).map fun (exponent, rest) => (some (negative, exponent), rest)
      else some (none, b :: rest)

def numeral (bytes : List UInt8) : Option (JsonNumeral × List UInt8) := do
  let (negative, bytes) := match bytes with
    | 0x2D :: rest => (true, rest)
    | bytes => (false, bytes)
  let (whole, bytes) ← wholePart bytes
  let (fraction, bytes) ← fractionPart bytes
  let (exponent, bytes) ← exponentPart bytes
  return (⟨negative, whole, fraction, exponent⟩, bytes)

def hexValue? (b : UInt8) : Option Nat :=
  let c := charOf b
  if c.isDigit then some (c.toNat - 48)
  else if 'a' ≤ c ∧ c ≤ 'f' then some (c.toNat - 87)
  else if 'A' ≤ c ∧ c ≤ 'F' then some (c.toNat - 55)
  else none

/-- The byte that a one-letter escape stands for. -/
def shortEscape? (b : UInt8) : Option UInt8 :=
  match charOf b with
  | '"' => some 0x22
  | '\\' => some 0x5C
  | '/' => some 0x2F
  | 'b' => some 0x08
  | 'f' => some 0x0C
  | 'n' => some 0x0A
  | 'r' => some 0x0D
  | 't' => some 0x09
  | _ => none

/-- The rest of a text after its opening quote. -/
def textBody : Reader (List JsonPiece)
  | [] => none
  | 0x22 :: rest => some ([], rest)
  | 0x5C :: 0x75 :: a :: b :: c :: d :: rest => do
      let a ← hexValue? a
      let b ← hexValue? b
      let c ← hexValue? c
      let d ← hexValue? d
      let (pieces, rest) ← textBody rest
      return (.unit (((a * 16 + b) * 16 + c) * 16 + d) :: pieces, rest)
  | 0x5C :: e :: rest => do
      let byte ← shortEscape? e
      let (pieces, rest) ← textBody rest
      return (.byte byte :: pieces, rest)
  | b :: rest =>
      if b.toNat < 0x20 || b == 0x5C then none
      else (textBody rest).map fun (pieces, rest) => (.byte b :: pieces, rest)

def word? (word : String) (bytes : List UInt8) : Option (List UInt8) :=
  let expected := word.toUTF8.toList
  if expected.isPrefixOf bytes then some (bytes.drop expected.length) else none

/-- Read the colon between a key and its value. -/
def colon? (bytes : List UInt8) : Option (List UInt8) :=
  match skipSpace bytes with
  | 0x3A :: rest => some rest
  | _ => none

/-- The key of a member with the bytes after its colon. -/
def key? (bytes : List UInt8) : Option (List JsonPiece × List UInt8) :=
  match skipSpace bytes with
  | 0x22 :: rest => do
      let (key, rest) ← textBody rest
      let rest ← colon? rest
      return (key, rest)
  | _ => none

mutual

/-- A value; `bound` is above the number of phrases inside it. -/
def value : Nat → Reader WrittenJson
  | 0, _ => none
  | bound + 1, bytes =>
      match skipSpace bytes with
      | [] => none
      | b :: rest =>
          match charOf b with
          | 'n' => (word? "ull" rest).map fun rest => (.null, rest)
          | 't' => (word? "rue" rest).map fun rest => (.bool true, rest)
          | 'f' => (word? "alse" rest).map fun rest => (.bool false, rest)
          | '"' => (textBody rest).map fun (pieces, rest) => (.text pieces, rest)
          | '[' =>
              match skipSpace rest with
              | 0x5D :: rest => some (.array [], rest)
              | rest => (items bound rest).map fun (items, rest) => (.array items, rest)
          | '\x7b' =>
              match skipSpace rest with
              | 0x7D :: rest => some (.object [], rest)
              | rest => (members bound rest).map fun (members, rest) => (.object members, rest)
          | _ => (numeral (b :: rest)).map fun (n, rest) => (.number n, rest)

/-- The items of an array that is not empty, to its closing bracket. -/
def items : Nat → Reader (List WrittenJson)
  | 0, _ => none
  | bound + 1, bytes => do
      let (item, rest) ← value bound bytes
      match skipSpace rest with
      | 0x5D :: rest => return ([item], rest)
      | 0x2C :: rest =>
          let (others, rest) ← items bound rest
          return (item :: others, rest)
      | _ => none

/-- The members of an object that is not empty, to its closing brace. -/
def members : Nat → Reader (List (List JsonPiece × WrittenJson))
  | 0, _ => none
  | bound + 1, bytes => do
      let (key, rest) ← key? bytes
      let (item, rest) ← value bound rest
      match skipSpace rest with
      | 0x7D :: rest => return ([(key, item)], rest)
      | 0x2C :: rest =>
          let (others, rest) ← members bound rest
          return ((key, item) :: others, rest)
      | _ => none

end

/-- The document written by bytes: one value with nothing but space around it. -/
def ofBytes? (bytes : List UInt8) : Option WrittenJson :=
  match value (2 * bytes.length + 2) bytes with
  | some (document, rest) => if (skipSpace rest).isEmpty then some document else none
  | none => none

end WrittenJson

end ModCatalog.Document
