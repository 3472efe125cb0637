import ModCatalog.ClassFile.Draft

/-!
# Instructions

The walk over the code of a method.  Every instruction is passed over by its exact length; field
accesses, calls, and loads of class literals are counted in the draft of the class.
-/

namespace ModCatalog.ClassFile.Instruction

open Reading

def constructorName : String := "<init>"

/-- The number of operand bytes of an instruction of fixed length that is not counted. -/
def operandLength? (opcode : Nat) : Option Nat :=
  if opcode ≤ 0x0f then some 0
  else if opcode = 0x10 then some 1
  else if opcode = 0x11 then some 2
  else if opcode = 0x14 then some 2
  else if 0x15 ≤ opcode ∧ opcode ≤ 0x19 then some 1
  else if 0x1a ≤ opcode ∧ opcode ≤ 0x35 then some 0
  else if 0x36 ≤ opcode ∧ opcode ≤ 0x3a then some 1
  else if 0x3b ≤ opcode ∧ opcode ≤ 0x83 then some 0
  else if opcode = 0x84 then some 2
  else if 0x85 ≤ opcode ∧ opcode ≤ 0x98 then some 0
  else if 0x99 ≤ opcode ∧ opcode ≤ 0xa8 then some 2
  else if opcode = 0xa9 then some 1
  else if 0xac ≤ opcode ∧ opcode ≤ 0xb1 then some 0
  else if opcode = 0xba then some 4
  else if opcode = 0xbb then some 2
  else if opcode = 0xbc then some 1
  else if opcode = 0xbd then some 2
  else if opcode = 0xbe ∨ opcode = 0xbf then some 0
  else if opcode = 0xc0 ∨ opcode = 0xc1 then some 2
  else if opcode = 0xc2 ∨ opcode = 0xc3 then some 0
  else if opcode = 0xc5 then some 3
  else if opcode = 0xc6 ∨ opcode = 0xc7 then some 2
  else if opcode = 0xc8 ∨ opcode = 0xc9 then some 4
  else none

/-- The number of padding bytes after the opcode of a switch at an offset. -/
def padding (offset : Nat) : Nat := (4 - (offset + 1) % 4) % 4

def isSuperCall (superClass : Option String) (method : MemberRef) : Bool :=
  method.name = constructorName && superClass = some method.owner

/-- Pass over the operands of a `tableswitch` at an offset. -/
def skipTable (offset : Nat) : Reading Unit := do
  skip (padding offset)
  skip 4
  let low ← i4
  let high ← i4
  if high.toInt < low.toInt then throw (.tableRange offset high low)
  skip ((high.toInt - low.toInt + 1).toNat * 4)

/-- Pass over the operands of a `lookupswitch` at an offset. -/
def skipLookup (offset : Nat) : Reading Unit := do
  skip (padding offset)
  skip 4
  let pairs ← i4
  if pairs.toInt < 0 then throw (.pairCount offset pairs)
  skip (pairs.toInt.toNat * 8)

/-- Count the load of a constant, if it is a class. -/
def addLoad (pool : Pool) (draft : Draft) (index : UInt16) : Except Defect Draft := do
  match ← pool.get index with
  | .classInfo name => draft.addClassLiteral (← pool.utf8 name)
  | _ => return draft

/--
One instruction: it is counted, and tells whether the call of the superclass constructor is still
awaited. That call, awaited from the start in a constructor, is not counted.
-/
def step (pool : Pool) (draft : Draft) (awaited : Bool) : Reading (Draft × Bool) := do
  let offset ← position
  let opcode ← u1
  match opcode.toNat with
  | 0xb2 | 0xb3 | 0xb4 | 0xb5 =>
      let field ← ofExcept (pool.fieldRef (← u2))
      return (← ofExcept (draft.use [.ofField field]), awaited)
  | 0xb6 | 0xb8 =>
      let method ← ofExcept (pool.methodRef (← u2))
      return (← ofExcept (draft.addCall method), awaited)
  | 0xb7 =>
      let method ← ofExcept (pool.methodRef (← u2))
      if awaited && isSuperCall draft.rawSuper method then return (draft, false)
      else return (← ofExcept (draft.addCall method), awaited)
  | 0xb9 =>
      let method ← ofExcept (pool.methodRef (← u2))
      let draft ← ofExcept (draft.addCall method)
      skip 2
      return (draft, awaited)
  | 0x12 =>
      let index ← u1
      return (← ofExcept (addLoad pool draft index.toUInt16), awaited)
  | 0x13 =>
      let index ← u2
      return (← ofExcept (addLoad pool draft index), awaited)
  | 0xaa =>
      skipTable offset
      return (draft, awaited)
  | 0xab =>
      skipLookup offset
      return (draft, awaited)
  | 0xc4 =>
      let widened ← u1
      skip (if widened = 0x84 then 4 else 2)
      return (draft, awaited)
  | n =>
      match operandLength? n with
      | some length =>
          skip length
          return (draft, awaited)
      | none => throw (.opcode opcode offset)

/-- Walk over the next instructions, at most `bound` of them. -/
def steps (pool : Pool) : Nat → Draft → Bool → Reading Draft
  | 0, draft, _ => return draft
  | bound + 1, draft, awaited => do
      if ← atEnd then return draft
      let (draft, awaited) ← step pool draft awaited
      steps pool bound draft awaited

/-- Walk over the code of a method; an instruction takes at least one byte. -/
def walk (pool : Pool) (inConstructor : Bool) (code : List UInt8) (draft : Draft) :
    Except Defect Draft :=
  runOn (steps pool code.length draft inConstructor) code

end ModCatalog.ClassFile.Instruction
