import ModCatalog.ClassFile.Cursor
import ModCatalog.ClassFile.ModifiedUtf8

/-!
# Constant pools

The reading of a pool and the lookups in it.  A long or double takes two places, of which the second
cannot be looked up.
-/

namespace ModCatalog.ClassFile

/-- A field or method that code refers to. -/
structure MemberRef where
  owner : String
  name : String
  descriptor : String
deriving DecidableEq, Repr

/-- The constants of a class file by index, the unusable first one included. -/
structure Pool where
  entries : Array Constant
deriving DecidableEq, Repr

namespace Pool

open Reading

/-- The constant after a tag; `entry` is its index. -/
def readConstant (tag : UInt8) (entry : Nat) : Reading Constant :=
  match tag.toNat with
  | 1 => do
      let length ← u2
      return .utf8 (← ofExcept (ModifiedUtf8.decode (← bytes length.toNat)))
  | 3 => return .integer (← i4)
  | 4 => return .float (← u4)
  | 5 => return .long (← i8)
  | 6 => return .double (← u8)
  | 7 => return .classInfo (← u2)
  | 8 => return .string (← u2)
  | 9 => return .fieldRef (← u2) (← u2)
  | 10 => return .methodRef (← u2) (← u2)
  | 11 => return .interfaceMethodRef (← u2) (← u2)
  | 12 => return .nameAndType (← u2) (← u2)
  | 15 => return .methodHandle (← u1) (← u2)
  | 16 => return .methodType (← u2)
  | 17 => return .dynamic (← u2) (← u2)
  | 18 => return .invokeDynamic (← u2) (← u2)
  | 19 => return .moduleInfo (← u2)
  | 20 => return .packageInfo (← u2)
  | tag => throw (.poolTag tag entry)

/-- Read constants until there are `count` entries; `bound` is at least the number still to come. -/
def readEntries (count : Nat) : Nat → Array Constant → Reading (Array Constant)
  | 0, entries => return entries
  | bound + 1, entries =>
      if entries.size < count then do
        let tag ← u1
        let constant ← readConstant tag entries.size
        let entries := entries.push constant
        readEntries count bound (if constant.isWide then entries.push .unusable else entries)
      else return entries

/-- A constant pool: the number of its entries, the unusable first one included, and the others. -/
def read : Reading Pool := do
  let count ← u2
  let entries ← readEntries count.toNat count.toNat #[.unusable]
  if entries.size ≠ max count.toNat 1 then throw .halfWideEntry
  return ⟨entries⟩

def size (pool : Pool) : Nat := pool.entries.size

/-- Whether there is nothing to look up. -/
def isEmpty (pool : Pool) : Bool := pool.size ≤ 1

def get (pool : Pool) (index : UInt16) : Except Defect Constant :=
  match pool.entries[index.toNat]? with
  | none | some .unusable => .error (.poolIndex index)
  | some constant => .ok constant

def utf8 (pool : Pool) (index : UInt16) : Except Defect String := do
  match ← pool.get index with
  | .utf8 text => return text
  | found => throw (.poolKind index "Utf8" found)

def className (pool : Pool) (index : UInt16) : Except Defect String := do
  match ← pool.get index with
  | .classInfo name => pool.utf8 name
  | found => throw (.poolKind index "Class" found)

/-- The name of the class at an index, where zero stands for no class. -/
def optionalClassName (pool : Pool) (index : UInt16) : Except Defect (Option String) :=
  if index = 0 then .ok none else (pool.className index).map some

def nameAndType (pool : Pool) (index : UInt16) : Except Defect (String × String) := do
  match ← pool.get index with
  | .nameAndType name descriptor => return (← pool.utf8 name, ← pool.utf8 descriptor)
  | found => throw (.poolKind index "NameAndType" found)

/-- The member with its class and its name and descriptor at two indices. -/
def member (pool : Pool) (owner nameAndType : UInt16) : Except Defect MemberRef := do
  let owner ← pool.className owner
  let (name, descriptor) ← pool.nameAndType nameAndType
  return ⟨owner, name, descriptor⟩

def fieldRef (pool : Pool) (index : UInt16) : Except Defect MemberRef := do
  match ← pool.get index with
  | .fieldRef owner nameAndType => pool.member owner nameAndType
  | found => throw (.poolKind index "Fieldref" found)

/-- The method at an index, of a class or of an interface. -/
def methodRef (pool : Pool) (index : UInt16) : Except Defect MemberRef := do
  match ← pool.get index with
  | .methodRef owner nameAndType => pool.member owner nameAndType
  | .interfaceMethodRef owner nameAndType => pool.member owner nameAndType
  | found => throw (.poolKind index "Methodref" found)

end Pool

end ModCatalog.ClassFile
