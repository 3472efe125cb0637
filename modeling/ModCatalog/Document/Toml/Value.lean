import ModCatalog.Decimal.Binary

/-!
# TOML values and tables

The values of TOML documents and the rules by which tables grow.  A table knows how it came to be: a
table with a header of its own is complete, one that dotted keys made can only be extended by dotted
keys, and one that only stands in the path of a header may still get a header.
-/

namespace ModCatalog.Document

/-- How a table came to be. -/
inductive TableOrigin
  /-- It has a header of its own. -/
  | header
  /-- It stands in the path of a header. -/
  | implied
  /-- It stands in a dotted key. -/
  | dotted
deriving DecidableEq, Repr

inductive Toml
  | text (s : String)
  | integer (n : Int)
  | float (value : Decimal.FloatValue)
  | boolean (b : Bool)
  | dateTime (written : String)
  | array (items : List Toml)
  | inlineTable (members : List (String × Toml))
  | table (origin : TableOrigin) (members : List (String × Toml))
  /-- An array whose elements are tables with headers, in order. -/
  | tables (elements : List (List (String × Toml)))
deriving Repr

instance : Inhabited Toml := ⟨.boolean false⟩

namespace Toml

/-- The members of a table in the order in which they were written. -/
abbrev Members := List (String × Toml)

def find? (key : String) : Members → Option Toml
  | [] => none
  | (k, value) :: rest => if key = k then some value else find? key rest

/-- Give a key a value, in place of its old one or at the end. -/
def set (key : String) (value : Toml) : Members → Members
  | [] => [(key, value)]
  | (k, old) :: rest => if key = k then (key, value) :: rest else (k, old) :: set key value rest

def remove (key : String) (members : Members) : Members :=
  members.filter fun member => member.1 ≠ key

/-- Change the last of the elements of an array of tables. -/
def updateLast (update : Members → Option Members) : List Members → Option (List Members)
  | [] => none
  | [last] => (update last).map fun last => [last]
  | first :: rest => (updateLast update rest).map (first :: ·)

/--
Change the table that a path of header keys leads to.  What is missing on the way is implied, and an
array of tables stands for its last element.
-/
def updateAt (update : Members → Option Members) : List String → Members → Option Members
  | [], members => update members
  | key :: path, members =>
      match find? key members with
      | none => (updateAt update path []).map fun inner => set key (.table .implied inner) members
      | some (.table origin inner) =>
          (updateAt update path inner).map fun inner => set key (.table origin inner) members
      | some (.tables elements) =>
          (updateLast (updateAt update path) elements).map fun elements =>
            set key (.tables elements) members
      | some _ => none

def addNew (key : String) (value : Toml) (members : Members) : Option Members :=
  match find? key members with
  | none => some (set key value members)
  | some _ => none

/--
Give the key at the end of a dotted path a value; `extends` tells whether the table so far may be
extended by a key that stands in it.
-/
def addDotted (value : Toml) : List String → Bool → Members → Option Members
  | [], _, _ => none
  | [key], extends_, members => if extends_ then addNew key value members else none
  | key :: path, _, members =>
      match find? key members with
      | none =>
          (addDotted value path true []).map fun inner => set key (.table .dotted inner) members
      | some (.table .header _) => none
      | some (.table origin inner) =>
          (addDotted value path (origin = .dotted) inner).map fun inner =>
            set key (.table origin inner) members
      | some (.tables elements) =>
          (updateLast (addDotted value path false) elements).map fun elements =>
            set key (.tables elements) members
      | some _ => none

/-- The members of an inline table with dotted keys. -/
def ofPairs? : List (List String × Toml) → Members → Option Members
  | [], members => some members
  | (path, value) :: rest, members => (addDotted value path true members).bind (ofPairs? rest)

end Toml

end ModCatalog.Document
