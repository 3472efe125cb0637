import ModCatalog.Document.Json.Value
import ModCatalog.Decimal.Layout
import ModCatalog.Text.Numeral

/-!
# Text of JSON values

The compact form, without any space, and the indented form of JSON values.
-/

namespace ModCatalog.Document

/-- Doubles in documents: a plus before positive exponents; of two shortest decimals the even
one. -/
def jsonLayout : Decimal.Layout := ⟨.toEven, -5, "+"⟩

namespace Json

/-- How a character is written in a text. -/
def escapeChar (c : Char) : List Char :=
  match c with
  | '"' => ['\\', '"']
  | '\\' => ['\\', '\\']
  | '\n' => ['\\', 'n']
  | '\r' => ['\\', 'r']
  | '\t' => ['\\', 't']
  | c =>
      if c.toNat = 8 then ['\\', 'b']
      else if c.toNat = 12 then ['\\', 'f']
      else if c.toNat < 0x20 then '\\' :: 'u' :: Text.hexDigits 4 c.toNat
      else [c]

def writeText (s : String) : String :=
  String.ofList ('"' :: (s.toList.flatMap escapeChar ++ ['"']))

end Json

def JsonNumber.write : JsonNumber → String
  | .integer n => toString n
  | .double negative size => jsonLayout.write .double (.finite negative size)

namespace Json

def commaSeparated (parts : List String) : String := ",".intercalate parts

mutual

def compact : Json → String
  | .null => "null"
  | .bool b => if b then "true" else "false"
  | .number n => n.write
  | .text s => writeText s
  | .array items => "[" ++ commaSeparated (compactItems items) ++ "]"
  | .object members => "\x7b" ++ commaSeparated (compactMembers members) ++ "\x7d"

/-- The compact forms of the items of an array. -/
def compactItems : List Json → List String
  | [] => []
  | item :: rest => compact item :: compactItems rest

/-- The compact forms of the members of an object. -/
def compactMembers : List (String × Json) → List String
  | [] => []
  | (key, value) :: rest => (writeText key ++ ":" ++ compact value) :: compactMembers rest

end

def newLine (depth : Nat) : String := "\n" ++ String.ofList (List.replicate (2 * depth) ' ')

mutual

def indentedAt (depth : Nat) : Json → String
  | .null => "null"
  | .bool b => if b then "true" else "false"
  | .number n => n.write
  | .text s => writeText s
  | .array [] => "[]"
  | .array (item :: rest) =>
      "[" ++ commaSeparated (indentedItems (depth + 1) (item :: rest)) ++ newLine depth ++ "]"
  | .object [] => "\x7b\x7d"
  | .object (member :: rest) =>
      "\x7b" ++ commaSeparated (indentedMembers (depth + 1) (member :: rest)) ++ newLine depth ++
        "\x7d"

/-- The items of an array, each on a line of its own. -/
def indentedItems (depth : Nat) : List Json → List String
  | [] => []
  | item :: rest => (newLine depth ++ indentedAt depth item) :: indentedItems depth rest

/-- The members of an object, each on a line of its own. -/
def indentedMembers (depth : Nat) : List (String × Json) → List String
  | [] => []
  | (key, value) :: rest =>
      (newLine depth ++ writeText key ++ ": " ++ indentedAt depth value) ::
        indentedMembers depth rest

end

/-- The indented form, two spaces for each level. -/
def indented (json : Json) : String := indentedAt 0 json

end Json

end ModCatalog.Document
