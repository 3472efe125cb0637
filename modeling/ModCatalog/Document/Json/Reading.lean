import ModCatalog.Document.Json.Number
import ModCatalog.Text.Utf8

/-!
# Values of written documents

The value of a document read from bytes, and the reading of records with known fields.  Values are
asked for only where they are used, so what stands in an unknown field need only be well formed.
-/

namespace ModCatalog.Document

/-- How many containers may enclose a value, its own included. -/
def maxJsonDepth : Nat := 127

def utf8Bytes (c : Char) : List UInt8 := (String.singleton c).toUTF8.toList

namespace JsonPiece

/-- The bytes of a text; none for a code unit that is half of a pair without the other half. -/
def bytes? : List JsonPiece → Option (List UInt8)
  | [] => some []
  | .byte b :: rest => (bytes? rest).map (b :: ·)
  | .unit high :: rest =>
      if 0xD800 ≤ high && high < 0xDC00 then
        match rest with
        | .unit low :: rest =>
            if 0xDC00 ≤ low && low < 0xE000 then
              let c := Char.ofNat (0x10000 + (high - 0xD800) * 0x400 + (low - 0xDC00))
              (bytes? rest).map (utf8Bytes c ++ ·)
            else none
        | _ => none
      else if 0xDC00 ≤ high && high < 0xE000 then none
      else (bytes? rest).map (utf8Bytes (Char.ofNat high) ++ ·)

def text? (pieces : List JsonPiece) : Option String :=
  (bytes? pieces).bind fun bytes => (Text.Utf8.decode? bytes).map String.ofList

end JsonPiece

namespace WrittenJson

mutual

/-- The value of a document inside at most `depth` further containers. -/
def value? (depth : Nat) : WrittenJson → Option Json
  | .null => some .null
  | .bool b => some (.bool b)
  | .number n => n.value?.map .number
  | .text pieces => (JsonPiece.text? pieces).map .text
  | .array items =>
      if depth = 0 then none else (values? (depth - 1) items).map .array
  | .object members =>
      if depth = 0 then none else (memberValues? (depth - 1) members).map Json.ofMembers

/-- The values of the items of an array. -/
def values? (depth : Nat) : List WrittenJson → Option (List Json)
  | [] => some []
  | item :: rest => do
      let first ← value? depth item
      let others ← values? depth rest
      return first :: others

def memberValues? (depth : Nat) :
    List (List JsonPiece × WrittenJson) → Option (List (String × Json))
  | [] => some []
  | (key, item) :: rest => do
      let key ← JsonPiece.text? key
      let first ← value? depth item
      let others ← memberValues? depth rest
      return (key, first) :: others

end

def asText? : WrittenJson → Option String
  | .text pieces => JsonPiece.text? pieces
  | _ => none

/-- The text of a string that may be absent or null. -/
def asOptionalText? : Option WrittenJson → Option (Option String)
  | none => some none
  | some .null => some none
  | some item => item.asText?.map some

def asArray? : WrittenJson → Option (List WrittenJson)
  | .array items => some items
  | _ => none

/-- A field of a record with known fields; an array may leave out `defaulted` fields at its end. -/
structure Field where
  name : String
  defaulted : Bool
deriving DecidableEq, Repr

/-- Match the items of an array with fields in order. -/
def fieldsOfItems? : List Field → List WrittenJson → Option (List (Option WrittenJson))
  | [], [] => some []
  | [], _ :: _ => none
  | field :: fields, [] =>
      if field.defaulted then (fieldsOfItems? fields []).map (none :: ·) else none
  | _ :: fields, item :: items => (fieldsOfItems? fields items).map (some item :: ·)

/-- The values that members give a field. -/
def valuesOf (name : String) (members : List (String × WrittenJson)) : List WrittenJson :=
  (members.filter fun member => member.1 = name).map Prod.snd

/-- The contents of the fields, where no field may be given twice. -/
def fieldsOfMembers? (fields : List Field) (members : List (String × WrittenJson)) :
    Option (List (Option WrittenJson)) :=
  fields.mapM fun field =>
    match valuesOf field.name members with
    | [] => some none
    | [item] => some (some item)
    | _ => none

/-- The contents of the fields of a record, written as an object or as an array in field order. -/
def fields? (fields : List Field) : WrittenJson → Option (List (Option WrittenJson))
  | .array items => fieldsOfItems? fields items
  | .object members => do
      let members ← members.mapM fun (key, item) => (JsonPiece.text? key).map fun key => (key, item)
      fieldsOfMembers? fields members
  | _ => none

end WrittenJson

/-- The value of the document written by bytes. -/
def Json.ofBytes? (bytes : List UInt8) : Option Json :=
  (WrittenJson.ofBytes? bytes).bind (WrittenJson.value? maxJsonDepth)

end ModCatalog.Document
