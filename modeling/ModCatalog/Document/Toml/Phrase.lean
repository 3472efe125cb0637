import ModCatalog.Document.Toml.Value
import ModCatalog.Text.Numeral

/-!
# Phrases of TOML

The grammar of keys and values over characters.  Every reader takes a phrase off the front of the
characters and gives what remains.
-/

namespace ModCatalog.Document.Toml

/-- A reader takes a phrase off the front of the characters. -/
abbrev Reader (α : Type) := List Char → Option (α × List Char)

/-- Whether a character is space within a line. -/
def isSpace (c : Char) : Bool := c = ' ' || c = '\t'

def skipSpace (cs : List Char) : List Char := cs.dropWhile isSpace

/-- Whether a character may stand in a comment: no control but the tab. -/
def isCommentChar (c : Char) : Bool := c = '\t' || (0x20 ≤ c.toNat && c.toNat ≠ 0x7F)

/-- The rest after a line end. -/
def newline? : List Char → Option (List Char)
  | '\n' :: rest => some rest
  | '\r' :: '\n' :: rest => some rest
  | _ => none

/-- The rest after a line end, or nothing at the end of the text. -/
def lineEnd? (cs : List Char) : Option (List Char) := if cs.isEmpty then some [] else newline? cs

/-- The rest after a comment, if one stands in front. -/
def skipComment : List Char → List Char
  | '#' :: rest => rest.dropWhile isCommentChar
  | cs => cs

/-- The rest after the space, the comment and the end of a line. -/
def lineRest? (cs : List Char) : Option (List Char) := lineEnd? (skipComment (skipSpace cs))

/-- Remove space, comments and line ends; `bound` is at least the number of lines. -/
def skipLines? : Nat → List Char → Option (List Char)
  | 0, cs => some cs
  | bound + 1, cs =>
      match skipSpace cs with
      | '#' :: rest => (newline? (rest.dropWhile isCommentChar)).bind (skipLines? bound)
      | '\n' :: rest => skipLines? bound rest
      | '\r' :: '\n' :: rest => skipLines? bound rest
      | '\r' :: _ => none
      | rest => some rest

def hexDigit? (c : Char) : Option Nat :=
  if c.isDigit then some (c.toNat - 48)
  else if 'a' ≤ c ∧ c ≤ 'f' then some (c.toNat - 87)
  else if 'A' ≤ c ∧ c ≤ 'F' then some (c.toNat - 55)
  else none

/-- The number written by exactly `count` hexadecimal digits. -/
def hexNumber? : Nat → Nat → Reader Nat
  | 0, n, rest => some (n, rest)
  | _ + 1, _, [] => none
  | count + 1, n, c :: rest => do
      let digit ← hexDigit? c
      hexNumber? count (16 * n + digit) rest

/-- The character with a code point, if there is one. -/
def scalar? (n : Nat) : Option Char := if n.isValidChar then some (Char.ofNat n) else none

def escape? : Reader Char
  | 'b' :: rest => some (Char.ofNat 8, rest)
  | 't' :: rest => some ('\t', rest)
  | 'n' :: rest => some ('\n', rest)
  | 'f' :: rest => some (Char.ofNat 12, rest)
  | 'r' :: rest => some ('\r', rest)
  | '"' :: rest => some ('"', rest)
  | '\\' :: rest => some ('\\', rest)
  | 'u' :: rest => do
      let (n, rest) ← hexNumber? 4 0 rest
      return (← scalar? n, rest)
  | 'U' :: rest => do
      let (n, rest) ← hexNumber? 8 0 rest
      return (← scalar? n, rest)
  | _ => none

/-- Whether a character stands for itself in a text on one line, quotes and escapes apart. -/
def isTextChar (c : Char) : Bool := isCommentChar c

/-- The rest of a text between double quotes; `bound` is at least its length. -/
def basicText? : Nat → Reader (List Char)
  | 0, _ => none
  | _ + 1, [] => none
  | _ + 1, '"' :: rest => some ([], rest)
  | bound + 1, '\\' :: rest => do
      let (c, rest) ← escape? rest
      let (body, rest) ← basicText? bound rest
      return (c :: body, rest)
  | bound + 1, c :: rest =>
      if isTextChar c then (basicText? bound rest).map fun (body, rest) => (c :: body, rest)
      else none

/-- The rest of a text between single quotes. -/
def literalText? : Reader (List Char)
  | [] => none
  | '\'' :: rest => some ([], rest)
  | c :: rest =>
      if isTextChar c then (literalText? rest).map fun (body, rest) => (c :: body, rest) else none

def skipBlankLines : List Char → List Char
  | '\r' :: '\n' :: rest => skipBlankLines rest
  | c :: rest => if isSpace c || c = '\n' then skipBlankLines rest else c :: rest
  | [] => []

/-- Close a text of several lines at three quotes; up to two more quotes belong to it. -/
def closing? (quote : Char) (cs : List Char) : Option (List Char × List Char) :=
  match cs.takeWhile (· = quote) with
  | [_, _, _] => some ([], cs.drop 3)
  | [_, _, _, _] => some ([quote], cs.drop 4)
  | _ :: _ :: _ :: _ :: _ :: _ => some ([quote, quote], cs.drop 5)
  | _ => none

/-- The rest of a text of several lines between double quotes; `bound` is at least its length. -/
def basicLines? : Nat → Reader (List Char)
  | 0, _ => none
  | _ + 1, [] => none
  | bound + 1, '"' :: rest =>
      match closing? '"' ('"' :: rest) with
      | some closed => some closed
      | none => (basicLines? bound rest).map fun (body, rest) => ('"' :: body, rest)
  | bound + 1, '\\' :: rest =>
      match newline? (skipSpace rest) with
      | some rest => basicLines? bound (skipBlankLines rest)
      | none => do
          let (c, rest) ← escape? rest
          let (body, rest) ← basicLines? bound rest
          return (c :: body, rest)
  | bound + 1, c :: rest =>
      match newline? (c :: rest) with
      | some rest => (basicLines? bound rest).map fun (body, rest) => ('\n' :: body, rest)
      | none =>
          if isTextChar c then (basicLines? bound rest).map fun (body, rest) => (c :: body, rest)
          else none

/-- The rest of a text of several lines between single quotes; `bound` is at least its length. -/
def literalLines? : Nat → Reader (List Char)
  | 0, _ => none
  | _ + 1, [] => none
  | bound + 1, '\'' :: rest =>
      match closing? '\'' ('\'' :: rest) with
      | some closed => some closed
      | none => (literalLines? bound rest).map fun (body, rest) => ('\'' :: body, rest)
  | bound + 1, c :: rest =>
      match newline? (c :: rest) with
      | some rest => (literalLines? bound rest).map fun (body, rest) => ('\n' :: body, rest)
      | none =>
          if isTextChar c then (literalLines? bound rest).map fun (body, rest) => (c :: body, rest)
          else none

/-- Remove the line end right after three opening quotes. -/
def skipFirstNewline (cs : List Char) : List Char := (newline? cs).getD cs

/-- A text in any of its four forms. -/
def text? (cs : List Char) : Option (String × List Char) :=
  let result := match cs with
    | '"' :: '"' :: '"' :: rest => basicLines? (rest.length + 1) (skipFirstNewline rest)
    | '\'' :: '\'' :: '\'' :: rest => literalLines? (rest.length + 1) (skipFirstNewline rest)
    | '"' :: rest => basicText? (rest.length + 1) rest
    | '\'' :: rest => literalText? rest
    | _ => none
  result.map fun (body, rest) => (String.ofList body, rest)

/-- Whether a character may stand in a key without quotes. -/
def isBareKeyChar (c : Char) : Bool := c.isAlphanum || c = '_' || c = '-'

/-- One key of a dotted key, with space around it. -/
def simpleKey? (cs : List Char) : Option (String × List Char) :=
  let result := match skipSpace cs with
    | '"' :: rest => basicText? (rest.length + 1) rest
    | '\'' :: rest => literalText? rest
    | rest =>
        let key := rest.takeWhile isBareKeyChar
        if key.isEmpty then none else some (key, rest.dropWhile isBareKeyChar)
  result.map fun (key, rest) => (String.ofList key, skipSpace rest)

/-- More keys are not taken together, and values are not nested deeper. -/
def nestingLimit : Nat := 80

/-- The keys of a dotted key; `bound` is at least their number. -/
def dottedKeys? : Nat → Reader (List String)
  | 0, _ => none
  | bound + 1, cs => do
      let (key, rest) ← simpleKey? cs
      match rest with
      | '.' :: more =>
          let (keys, rest) ← dottedKeys? bound more
          return (key :: keys, rest)
      | rest => return ([key], rest)

/-- A dotted key of at least one key. -/
def key? (cs : List Char) : Option (List String × List Char) := do
  let (keys, rest) ← dottedKeys? (cs.length + 1) cs
  if keys.length < nestingLimit then return (keys, rest) else none

/-- Digits with single underscores between them. -/
def digitRun? (isDigit : Char → Bool) : Reader (List Char)
  | [] => none
  | [c] => if isDigit c then some ([c], []) else none
  | c :: '_' :: rest =>
      if isDigit c then (digitRun? isDigit rest).map fun (digits, rest) => (c :: digits, rest)
      else none
  | c :: d :: rest =>
      if isDigit c then
        if isDigit d then
          (digitRun? isDigit (d :: rest)).map fun (digits, rest) => (c :: digits, rest)
        else some ([c], d :: rest)
      else none

/-- The digits of a whole number: a zero alone, or digits that do not start with zero. -/
def wholeDigits? (cs : List Char) : Option (List Char × List Char) :=
  match cs with
  | '0' :: rest => some (['0'], rest)
  | cs => digitRun? Char.isDigit cs

/-- A sign in front, if there is one; the flag tells a minus. -/
def sign : List Char → Bool × List Char
  | '+' :: rest => (false, rest)
  | '-' :: rest => (true, rest)
  | rest => (false, rest)

/-- An integer if it fits 64 bits. -/
def checkedInteger? (negative : Bool) (n : Nat) : Option Toml :=
  if negative then if n ≤ Nat.pow 2 63 then some (.integer (-n)) else none
  else if n < Nat.pow 2 63 then some (.integer n) else none

/-- The number that digits write in a base. -/
def ofBase (base : Nat) (digits : List Char) : Nat :=
  digits.foldl (fun n c => base * n + (hexDigit? c).getD 0) 0

/-- A whole number in another base than ten. -/
def basedInteger? (base : Nat) (isDigit : Char → Bool) (cs : List Char) :
    Option (Toml × List Char) := do
  let (digits, rest) ← digitRun? isDigit cs
  return (← checkedInteger? false (ofBase base digits), rest)

def integer? : Reader Toml
  | '0' :: 'x' :: rest => basedInteger? 16 (fun c => (hexDigit? c).isSome) rest
  | '0' :: 'o' :: rest => basedInteger? 8 (fun c => '0' ≤ c && c ≤ '7') rest
  | '0' :: 'b' :: rest => basedInteger? 2 (fun c => c = '0' || c = '1') rest
  | cs => do
      let (negative, rest) := sign cs
      let (digits, rest) ← wholeDigits? rest
      return (← checkedInteger? negative (Text.ofDigits digits), rest)

def fraction? : Reader (Option (List Char))
  | '.' :: rest => (digitRun? Char.isDigit rest).map fun (digits, rest) => (some digits, rest)
  | cs => some (none, cs)

def exponent? : Reader (Option Int)
  | 'e' :: rest | 'E' :: rest => do
      let (negative, rest) := sign rest
      let (digits, rest) ← digitRun? Char.isDigit rest
      let n : Int := Text.ofDigits digits
      return (some (if negative then -n else n), rest)
  | cs => some (none, cs)

/-- A number with fraction or exponent, or a special one; a positive one must not be too large. -/
def float? (cs : List Char) : Option (Toml × List Char) :=
  let (negative, unsigned) := sign cs
  match unsigned with
  | 'i' :: 'n' :: 'f' :: rest => some (.float (.infinite negative), rest)
  | 'n' :: 'a' :: 'n' :: rest => some (.float .nan, rest)
  | unsigned => do
      let (whole, rest) ← wholeDigits? unsigned
      let (fraction, rest) ← fraction? rest
      let (exponent, rest) ← exponent? rest
      if fraction.isNone && exponent.isNone then none
      let places := fraction.getD []
      match Decimal.Format.double.nearestDecimal? (Text.ofDigits (whole ++ places))
          (exponent.getD 0 - places.length) with
      | some size => return (.float (.finite negative size), rest)
      | none => if negative then return (.float (.infinite true), rest) else none

def exactDigits? (count : Nat) (cs : List Char) : Option (Nat × List Char) :=
  let digits := cs.take count
  if digits.length = count && digits.all Char.isDigit then
    some (Text.ofDigits digits, cs.drop count)
  else none

/-- Exactly two digits that write a number from `low` to `high`. -/
def twoDigits? (low high : Nat) (cs : List Char) : Option (Nat × List Char) := do
  let (n, rest) ← exactDigits? 2 cs
  if low ≤ n ∧ n ≤ high then return (n, rest) else none

def char? (c : Char) : List Char → Option (List Char)
  | d :: rest => if c = d then some rest else none
  | [] => none

def daysOfMonth (year month : Nat) : Nat :=
  let isLeap := year % 4 = 0 && (year % 100 ≠ 0 || year % 400 = 0)
  if month = 2 then if isLeap then 29 else 28
  else if month = 4 ∨ month = 6 ∨ month = 9 ∨ month = 11 then 30
  else 31

/-- The rest after a date. -/
def date? (cs : List Char) : Option (List Char) := do
  let (year, rest) ← exactDigits? 4 cs
  let rest ← char? '-' rest
  let (month, rest) ← twoDigits? 1 12 rest
  let rest ← char? '-' rest
  let (day, rest) ← twoDigits? 1 31 rest
  if day ≤ daysOfMonth year month then return rest else none

/-- The rest after a fraction of a second, if one follows. -/
def skipSecondFraction : List Char → List Char
  | '.' :: c :: rest => if c.isDigit then rest.dropWhile Char.isDigit else '.' :: c :: rest
  | cs => cs

/-- The rest after a time of day; a minute may have a leap second. -/
def time? (cs : List Char) : Option (List Char) := do
  let (_, rest) ← twoDigits? 0 23 cs
  let rest ← char? ':' rest
  let (_, rest) ← twoDigits? 0 59 rest
  let rest ← char? ':' rest
  let (_, rest) ← twoDigits? 0 60 rest
  return skipSecondFraction rest

/-- The rest after the distance from universal time, if it follows. -/
def skipOffset (cs : List Char) : List Char :=
  match cs with
  | 'Z' :: rest | 'z' :: rest => rest
  | '+' :: rest | '-' :: rest =>
      let result : Option (List Char) := do
        let (_, rest) ← twoDigits? 0 23 rest
        let rest ← char? ':' rest
        let (_, rest) ← twoDigits? 0 59 rest
        return rest
      result.getD cs
  | cs => cs

/-- The rest after a date, with a time of day if one follows, or after a time of day. -/
def dateTimeRest? (cs : List Char) : Option (List Char) :=
  match date? cs with
  | some rest =>
      match rest with
      | 'T' :: after | 't' :: after | ' ' :: after =>
          match time? after with
          | some rest => some (skipOffset rest)
          | none => some rest
      | rest => some rest
  | none => time? cs

def dateTime? (cs : List Char) : Option (Toml × List Char) :=
  (dateTimeRest? cs).map fun rest =>
    (.dateTime (String.ofList (cs.take (cs.length - rest.length))), rest)

def boolean? : Reader Toml
  | 't' :: 'r' :: 'u' :: 'e' :: rest => some (.boolean true, rest)
  | 'f' :: 'a' :: 'l' :: 's' :: 'e' :: rest => some (.boolean false, rest)
  | _ => none

/-- A value that is neither array nor inline table. -/
def plain? (cs : List Char) : Option (Toml × List Char) :=
  match cs with
  | '"' :: _ | '\'' :: _ => (text? cs).map fun (s, rest) => (.text s, rest)
  | 't' :: _ | 'f' :: _ => boolean? cs
  | _ => (dateTime? cs).orElse fun _ => (float? cs).orElse fun _ => integer? cs

mutual

/-- A value; `bound` is above the number of phrases inside it, and `depth` containers may
enclose others. -/
def value? : Nat → Nat → Reader Toml
  | 0, _, _ => none
  | bound + 1, depth, cs =>
      match cs with
      | '[' :: rest =>
          if depth ≤ 1 then none
          else (items? bound (depth - 1) rest).map fun (items, rest) => (.array items, rest)
      | '\x7b' :: rest =>
          if depth ≤ 1 then none
          else
            match skipSpace rest with
            | '\x7d' :: rest => some (.inlineTable [], rest)
            | rest => do
                let (pairs, rest) ← pairs? bound (depth - 1) rest
                return (.inlineTable (← ofPairs? pairs []), rest)
      | cs => plain? cs

/-- The items of an array to its closing bracket; a comma may follow the last. -/
def items? : Nat → Nat → Reader (List Toml)
  | 0, _, _ => none
  | bound + 1, depth, cs => do
      match ← skipLines? cs.length cs with
      | ']' :: rest => return ([], rest)
      | rest =>
          let (item, rest) ← value? bound depth rest
          match ← skipLines? rest.length rest with
          | ']' :: rest => return ([item], rest)
          | ',' :: rest =>
              let (others, rest) ← items? bound depth rest
              return (item :: others, rest)
          | _ => none

/-- The members of an inline table that is not empty, to its closing brace. -/
def pairs? : Nat → Nat → Reader (List (List String × Toml))
  | 0, _, _ => none
  | bound + 1, depth, cs => do
      let (key, rest) ← key? cs
      let rest ← char? '=' rest
      let (value, rest) ← value? bound depth (skipSpace rest)
      match skipSpace rest with
      | '\x7d' :: rest => return ([(key, value)], rest)
      | ',' :: rest =>
          let (others, rest) ← pairs? bound depth rest
          return ((key, value) :: others, rest)
      | _ => none

end

end ModCatalog.Document.Toml
