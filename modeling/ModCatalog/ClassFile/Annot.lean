import ModCatalog.ClassFile.Descriptor
import ModCatalog.Collection.Sorted

/-!
# Annotations

The values of annotations and their canonical text, in which the members of every annotation stand
in increasing order of their names:

```text
member := name "=" value
value  := scalar | "[" value ("," value)* "]" | "@" type "(" member ("," member)* ")"
        | type "." constant | type ".class"
```
-/

namespace ModCatalog.ClassFile

/-- A constant of a primitive type or a string. -/
inductive Scalar
  | byte (value : Int8)
  | char (value : Char)
  | short (value : Int16)
  | int (value : Int32)
  | long (value : Int64)
  | float (bits : UInt32)
  | double (bits : UInt64)
  | boolean (value : Bool)
  | string (value : String)
deriving DecidableEq, Repr

/-- The canonical text of a constant; floats keep a fraction so that they differ from integers. -/
def Scalar.text : Scalar → String
  | .byte value => toString value.toInt
  | .char value => String.singleton value
  | .short value => toString value.toInt
  | .int value => toString value.toInt
  | .long value => toString value.toInt
  | .float bits => floatText bits
  | .double bits => doubleText bits
  | .boolean value => if value then "true" else "false"
  | .string value => value

/-- The value of a member of an annotation. -/
inductive AnnotValue
  | scalar (value : Scalar)
  | list (values : List AnnotValue)
  | nested (typeName : String) (members : List (String × AnnotValue))
  | enumConstant (typeName constant : String)
  | classLiteral (typeName : String)
deriving Repr

/-- An annotation: its type by internal name, and its members sorted by name. -/
structure Annot where
  typeName : String
  members : List (String × AnnotValue)
deriving Repr

/-- What an annotation is attached to. -/
inductive Target
  | classFile
  | field
  | method
deriving DecidableEq, Repr

def Target.text : Target → String
  | .classFile => "class"
  | .field => "field"
  | .method => "method"

namespace AnnotValue

/-- The canonical text of an annotation whose members have the given texts. -/
def annotText (typeName : String) (members : List String) : String :=
  "@" ++ typeName ++ "(" ++ ",".intercalate members ++ ")"

mutual

def text : AnnotValue → String
  | .scalar value => value.text
  | .list values => "[" ++ ",".intercalate (texts values) ++ "]"
  | .nested typeName members => annotText typeName (memberTexts members)
  | .enumConstant typeName constant => typeName ++ "." ++ constant
  | .classLiteral typeName => typeName ++ ".class"

/-- The canonical texts of the elements of a list. -/
def texts : List AnnotValue → List String
  | [] => []
  | value :: rest => text value :: texts rest

def memberTexts : List (String × AnnotValue) → List String
  | [] => []
  | (name, value) :: rest => (name ++ "=" ++ text value) :: memberTexts rest

end

def ofEnum (descriptor constant : String) : AnnotValue :=
  .enumConstant (Descriptor.internalName descriptor) constant

def ofClass (descriptor : String) : AnnotValue := .classLiteral (Descriptor.internalName descriptor)

end AnnotValue

namespace Annot

/-- The annotation of a type given by descriptor; the last of several members with one name
counts. -/
def ofMembers (descriptor : String) (members : List (String × AnnotValue)) : Annot :=
  ⟨Descriptor.internalName descriptor, Sorted.ofList members⟩

def toValue (annot : Annot) : AnnotValue := .nested annot.typeName annot.members

/-- The members between commas. -/
def membersText (annot : Annot) : String := ",".intercalate (AnnotValue.memberTexts annot.members)

def text (annot : Annot) : String :=
  AnnotValue.annotText annot.typeName (AnnotValue.memberTexts annot.members)

/-- The text that stands for the use of an annotation on a target. -/
def usageKey (annot : Annot) (target : Target) : String :=
  "@" ++ target.text ++ "(" ++ annot.membersText ++ ")"

end Annot

end ModCatalog.ClassFile
