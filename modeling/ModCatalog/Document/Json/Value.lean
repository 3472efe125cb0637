import ModCatalog.Collection.Sorted
import ModCatalog.Decimal.Binary

/-!
# JSON values

The values of JSON documents.  An object keeps its members sorted by key, so equal objects are equal
values however they were written.
-/

namespace ModCatalog.Document

/-- A number: an integer that fits 64 bits, or a double. -/
inductive JsonNumber
  | integer (n : Int)
  | double (negative : Bool) (size : Decimal.Magnitude)
deriving DecidableEq, Repr

inductive Json
  | null
  | bool (b : Bool)
  | number (n : JsonNumber)
  | text (s : String)
  | array (items : List Json)
  | object (members : List (String × Json))
deriving Repr

instance : Inhabited Json := ⟨.null⟩

namespace Json

/-- The object with the given members; the last of several with one key counts. -/
def ofMembers (members : List (String × Json)) : Json := .object (Sorted.ofList members)

def ofNat (n : Nat) : Json := .number (.integer n)

def ofList {α : Type} (encode : α → Json) (values : List α) : Json := .array (values.map encode)

/-- An optional value, with `null` for none. -/
def ofOption {α : Type} (encode : α → Json) : Option α → Json
  | none => .null
  | some value => encode value

/-- The member of an object with a key. -/
def get? (key : String) : Json → Option Json
  | .object members => Sorted.find? key members
  | _ => none

def asArray? : Json → Option (List Json)
  | .array items => some items
  | _ => none

def asObject? : Json → Option (List (String × Json))
  | .object members => some members
  | _ => none

def asText? : Json → Option String
  | .text s => some s
  | _ => none

def asBool? : Json → Option Bool
  | .bool b => some b
  | _ => none

def asInt? : Json → Option Int
  | .number (.integer n) => some n
  | _ => none

/-- The value of an integer that is not negative. -/
def asNat? (json : Json) : Option Nat :=
  match json.asInt? with
  | some (.ofNat n) => some n
  | _ => none

end Json

end ModCatalog.Document
