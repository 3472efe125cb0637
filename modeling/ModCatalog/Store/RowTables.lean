import ModCatalog.Collection.Sorted
import ModCatalog.Store.Change
import ModCatalog.Text.Numeral

/-!
# Tables of rows

How the rows of all mods are kept: in one table for each kind of row, under keys.  A key begins with
the number of the mod in twenty digits and a slash, and goes on with the number of the row among
those of the mod in ten digits.  The rows of a mod are found by what their keys begin with, in the
order of the keys, and counting them gives the number of the next row.
-/

namespace ModCatalog

/-- A number in decimal digits, at least `width` of them. -/
def decimal (width n : Nat) : String :=
  String.ofList (Text.padZeros width (Nat.toDigits 10 n))

/-- What the keys of the rows of a mod begin with. -/
def rowFront (id : Nat) : String := decimal 20 id ++ "/"

def rowKey (id number : Nat) : String := rowFront id ++ decimal 10 number

/-- Rows under keys, in the order of the keys.  A row is written as text; what stands here is what
the text reads as. -/
@[ext]
structure RowTable (α : Type) where
  entries : List (String × α)
  sorted : Sorted.IsSorted entries

namespace RowTable

variable {α : Type}

def empty : RowTable α := ⟨[], .nil⟩

/-- Write a row under a key, in place of the old one. -/
def put (table : RowTable α) (key : String) (row : α) : RowTable α :=
  ⟨Sorted.insert key row table.entries, table.sorted.alter key fun _ => row⟩

def delete (table : RowTable α) (key : String) : RowTable α :=
  ⟨table.entries.filter fun entry => entry.1 ≠ key, table.sorted.filter _⟩

/-- The entries whose keys begin with a text, in the order of their keys. -/
def under (table : RowTable α) (front : String) : List (String × α) :=
  table.entries.filter fun entry => front.toList.isPrefixOf entry.1.toList

/-- Collect the keys that begin with a text, and delete one after another. -/
def deleteUnder (table : RowTable α) (front : String) : RowTable α :=
  ((table.under front).map Prod.fst).foldl delete table

/-- The number that the next row of a mod gets. -/
def nextNumber (table : RowTable α) (id : Nat) : Nat := (table.under (rowFront id)).length

/-- Write rows of a mod after those that it has. -/
def putRows (table : RowTable α) (id : Nat) (rows : List α) : RowTable α :=
  (rows.zipIdx (table.nextNumber id)).foldl
    (fun table row => table.put (rowKey id row.2) row.1) table

def rowsOf (table : RowTable α) (id : Nat) : List α := (table.under (rowFront id)).map Prod.snd

end RowTable

structure RowTables where
  references : RowTable ReferenceRow
  inheritance : RowTable ClassFile.Inheritance
  classes : RowTable ClassRow
  tags : RowTable TagFile
  enumExtensions : RowTable ExtensionRow

namespace RowTables

def empty : RowTables := ⟨.empty, .empty, .empty, .empty, .empty⟩

def purge (tables : RowTables) (id : Nat) : RowTables where
  references := tables.references.deleteUnder (rowFront id)
  inheritance := tables.inheritance.deleteUnder (rowFront id)
  classes := tables.classes.deleteUnder (rowFront id)
  tags := tables.tags.deleteUnder (rowFront id)
  enumExtensions := tables.enumExtensions.deleteUnder (rowFront id)

def putRows (tables : RowTables) (id : Nat) (rows : Rows) : RowTables where
  references := tables.references.putRows id rows.references
  inheritance := tables.inheritance.putRows id rows.inheritance
  classes := tables.classes.putRows id rows.classes
  tags := tables.tags.putRows id rows.tags
  enumExtensions := tables.enumExtensions.putRows id rows.enumExtensions

def rowsOf (tables : RowTables) (id : Nat) : Rows where
  references := tables.references.rowsOf id
  inheritance := tables.inheritance.rowsOf id
  classes := tables.classes.rowsOf id
  tags := tables.tags.rowsOf id
  enumExtensions := tables.enumExtensions.rowsOf id

/-- Write the rows of a batch, after those that stay. -/
def track (tables : RowTables) (id : Nat) (batch : TrackBatch) : RowTables :=
  (if batch.deletesCurrent then tables.purge id else tables).putRows id batch.rows

end RowTables

end ModCatalog
