import ModCatalog.ClassFile.Pool
import ModCatalog.ClassFile.Record

/-!
# Reading annotations

The annotations in an attribute of a class, field or method.  An annotation whose type is not
wanted is read to its end and left out, at every depth.
-/

namespace ModCatalog.ClassFile.Element

open Reading

/-- A named member with its value, if the value is wanted. -/
def keepMember : String × Option AnnotValue → Option (String × AnnotValue)
  | (name, some value) => some (name, value)
  | (_, none) => none

/-- An annotation, if `keep` wants its type; `value` reads the values of its members. -/
def annot? (keep : String → Bool) (pool : Pool) (value : Reading (Option AnnotValue)) :
    Reading (Option Annot) := do
  let descriptor ← ofExcept (pool.utf8 (← u2))
  let members ← counted do
    let name ← ofExcept (pool.utf8 (← u2))
    return (name, ← value)
  return if keep descriptor then some (.ofMembers descriptor (members.filterMap keepMember))
    else none

/-- The character with a code point, or the replacement character. -/
def charOf (value : Int32) : Char :=
  let n := value.toUInt32.toNat
  if n.isValidChar then Char.ofNat n else Text.replacement

/-- The constant that an integer stands for under a tag. -/
def scalarOfInteger (tag : Char) (value : Int32) : Scalar :=
  match tag with
  | 'B' => .byte value.toInt8
  | 'C' => .char (charOf value)
  | 'S' => .short value.toInt16
  | 'Z' => .boolean (value ≠ 0)
  | _ => .int value

/-- The constant that a pool entry stands for under a tag. -/
def scalarOfConstant (tag : Char) (constant : Constant) : Except Defect Scalar :=
  match tag, constant with
  | 'J', .long value => .ok (.long value)
  | 'F', .float bits => .ok (.float bits)
  | 'D', .double bits => .ok (.double bits)
  | 's', .utf8 value => .ok (.string value)
  | tag, found => .error (.elementKind tag found)

/-- The value of a member, if it is wanted; values are nested less than `depth` deep. -/
def value? (keep : String → Bool) (pool : Pool) : Nat → Reading (Option AnnotValue)
  | 0 => do
      let tag ← u1
      throw (.elementTag tag)
  | depth + 1 => do
      let tag ← u1
      match Char.ofNat tag.toNat with
      | 'B' | 'C' | 'I' | 'S' | 'Z' =>
          match ← ofExcept (pool.get (← u2)) with
          | .integer value => return some (.scalar (scalarOfInteger (Char.ofNat tag.toNat) value))
          | _ => throw .elementNotInteger
      | 'J' | 'F' | 'D' | 's' =>
          let constant ← ofExcept (pool.get (← u2))
          return some (.scalar (← ofExcept (scalarOfConstant (Char.ofNat tag.toNat) constant)))
      | 'e' =>
          let descriptor ← ofExcept (pool.utf8 (← u2))
          let constant ← ofExcept (pool.utf8 (← u2))
          return some (.ofEnum descriptor constant)
      | 'c' =>
          return some (.ofClass (← ofExcept (pool.utf8 (← u2))))
      | '@' =>
          return (← annot? keep pool (value? keep pool depth)).map Annot.toValue
      | '[' =>
          return some (.list ((← counted (value? keep pool depth)).filterMap id))
      | _ => throw (.elementTag tag)

/-- The wanted annotations in the body of an attribute. -/
def annots (keep : String → Bool) (pool : Pool) (body : List UInt8) : Except Defect (List Annot) :=
  runOn (do return (← counted (annot? keep pool (value? keep pool (body.length + 1)))).filterMap id)
    body

end ModCatalog.ClassFile.Element
