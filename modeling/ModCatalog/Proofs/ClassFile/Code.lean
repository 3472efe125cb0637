import ModCatalog.ClassFile.Instruction
import ModCatalog.Proofs.ClassFile.References
import ModCatalog.Proofs.ClassFile.Words

/-!
# Code

The instructions of a method and the bytes they take.  An instruction that names something in the
constant pool comes with what it names, so its references can be read off.  The numbers of a switch
start at a multiple of four from the start of the code, after as many bytes of any kind as it takes
to get there.
-/

namespace ModCatalog.ClassFile

/-! ## What instructions name -/

/-- A field of a constant pool. -/
structure NamedField (pool : Pool) where
  index : UInt16
  field : MemberRef
  resolves : pool.fieldRef index = .ok field

/-- A method of a constant pool, with the argument types that its descriptor states. -/
structure NamedMethod (pool : Pool) where
  index : UInt16
  method : MemberRef
  arguments : List String
  resolves : pool.methodRef index = .ok method
  accepted : Descriptor.methodArguments method.descriptor = .ok arguments

/-- What is loaded from an index of a constant pool. -/
inductive Loaded (pool : Pool) (index : UInt16)
  | classLiteral (nameIndex : UInt16) (name : String)
      (resolves : pool.get index = .ok (.classInfo nameIndex))
      (named : pool.utf8 nameIndex = .ok name)
  | other (constant : Constant) (resolves : pool.get index = .ok constant)
      (isOther : ∀ nameIndex, constant ≠ .classInfo nameIndex)

/-- The use of a class literal; other constants are no use. -/
def Loaded.references {pool : Pool} {index : UInt16} : Loaded pool index → List Reference
  | classLiteral _ name _ _ => (Reference.ofClassLiteral? name).toList
  | other _ _ _ => []

def Loaded.addTo {pool : Pool} {index : UInt16} (draft : Draft) :
    Loaded pool index → Except Defect Draft
  | classLiteral _ name _ _ => draft.addClassLiteral name
  | other _ _ _ => .ok draft

/-! ## Groups of instructions -/

namespace Opcode

/-- Instructions without operands: constants; loads, stores, the stack and arithmetic; conversions
and comparisons; returns; the length of arrays, throwing, and monitors. -/
def isBare (opcode : UInt8) : Bool :=
  opcode ≤ 0x0f || (0x1a ≤ opcode && opcode ≤ 0x35) || (0x3b ≤ opcode && opcode ≤ 0x83) ||
    (0x85 ≤ opcode && opcode ≤ 0x98) || (0xac ≤ opcode && opcode ≤ 0xb1) ||
    [0xbe, 0xbf, 0xc2, 0xc3].contains opcode

/-- Loads, stores and returns of a numbered local variable. -/
def isLocal (opcode : UInt8) : Bool :=
  (0x15 ≤ opcode && opcode ≤ 0x19) || (0x36 ≤ opcode && opcode ≤ 0x3a) || opcode = 0xa9

/-- Branches to a distance of two bytes. -/
def isBranch (opcode : UInt8) : Bool :=
  (0x99 ≤ opcode && opcode ≤ 0xa8) || [0xc6, 0xc7].contains opcode

/-- Branches to a distance of four bytes. -/
def isBranchFar (opcode : UInt8) : Bool := [0xc8, 0xc9].contains opcode

/-- Reads and writes of fields. -/
def isField (opcode : UInt8) : Bool := 0xb2 ≤ opcode && opcode ≤ 0xb5

/-- Virtual, special and static calls. -/
def isCall (opcode : UInt8) : Bool := 0xb6 ≤ opcode && opcode ≤ 0xb8

/-- New objects, new arrays of objects, casts and checks of types. -/
def isOfClass (opcode : UInt8) : Bool := [0xbb, 0xbd, 0xc0, 0xc1].contains opcode

end Opcode

/-- An instruction whose operands resolve in a constant pool. -/
inductive Instr (pool : Pool)
  | bare (opcode : UInt8) (h : Opcode.isBare opcode)
  | pushByte (value : UInt8)
  | pushShort (value : UInt16)
  | load (index : UInt8) (loaded : Loaded pool index.toUInt16)
  | loadFar (index : UInt16) (loaded : Loaded pool index)
  | loadWide (index : UInt16)
  | atLocal (opcode : UInt8) (h : Opcode.isLocal opcode) (number : UInt8)
  | increment (number amount : UInt8)
  | branch (opcode : UInt8) (h : Opcode.isBranch opcode) (distance : UInt16)
  | branchFar (opcode : UInt8) (h : Opcode.isBranchFar opcode) (distance : UInt32)
  | tableSwitch (padding : List UInt8) (default : UInt32) (low high : Int32)
      (distances : List UInt32) (isRange : low.toInt ≤ high.toInt)
      (covers : (distances.length : Int) = high.toInt - low.toInt + 1)
  | lookupSwitch (padding : List UInt8) (default : UInt32) (count : Int32)
      (pairs : List (Int32 × UInt32)) (counts : (pairs.length : Int) = count.toInt)
  | field (opcode : UInt8) (h : Opcode.isField opcode) (named : NamedField pool)
  | call (opcode : UInt8) (h : Opcode.isCall opcode) (named : NamedMethod pool)
  | interfaceCall (named : NamedMethod pool) (words : UInt8)
  | dynamicCall (index : UInt16)
  | ofClass (opcode : UInt8) (h : Opcode.isOfClass opcode) (index : UInt16)
  | newArray (elementType : UInt8)
  | newArrays (index : UInt16) (dimensions : UInt8)
  | atLocalWide (opcode : UInt8) (h : Opcode.isLocal opcode) (number : UInt16)
  | incrementWide (number amount : UInt16)

namespace Instr

variable {pool : Pool}

def opcode : Instr pool → UInt8
  | bare opcode _ | atLocal opcode _ _ | branch opcode _ _ | branchFar opcode _ _
  | field opcode _ _ | call opcode _ _ | ofClass opcode _ _ => opcode
  | pushByte _ => 0x10
  | pushShort _ => 0x11
  | load _ _ => 0x12
  | loadFar _ _ => 0x13
  | loadWide _ => 0x14
  | increment _ _ => 0x84
  | tableSwitch .. => 0xaa
  | lookupSwitch .. => 0xab
  | interfaceCall _ _ => 0xb9
  | dynamicCall _ => 0xba
  | newArray _ => 0xbc
  | atLocalWide _ _ _ | incrementWide _ _ => 0xc4
  | newArrays _ _ => 0xc5

open Writing

def operands : Instr pool → List UInt8
  | bare _ _ => []
  | pushByte value => [value]
  | pushShort value => u2 value
  | load index _ => [index]
  | loadFar index _ | loadWide index => u2 index
  | atLocal _ _ number => [number]
  | increment number amount => [number, amount]
  | branch _ _ distance => u2 distance
  | branchFar _ _ distance => u4 distance
  | tableSwitch padding default low high distances _ _ =>
      padding ++ u4 default ++ i4 low ++ i4 high ++ distances.flatMap u4
  | lookupSwitch padding default count pairs _ =>
      padding ++ u4 default ++ i4 count ++ pairs.flatMap fun pair => i4 pair.1 ++ u4 pair.2
  | field _ _ named => u2 named.index
  | call _ _ named => u2 named.index
  | interfaceCall named words => u2 named.index ++ [words, 0]
  | dynamicCall index => u2 index ++ [0, 0]
  | ofClass _ _ index => u2 index
  | newArray elementType => [elementType]
  | newArrays index dimensions => u2 index ++ [dimensions]
  | atLocalWide opcode _ number => opcode :: u2 number
  | incrementWide number amount => 0x84 :: (u2 number ++ u2 amount)

def bytes (instr : Instr pool) : List UInt8 := instr.opcode :: instr.operands

/-- Whether padding after an opcode at an offset is the least that ends at a multiple of four. -/
def IsAligned (offset : Nat) (padding : List UInt8) : Prop :=
  padding.length < 4 ∧ 4 ∣ offset + 1 + padding.length

/-- Whether an instruction can stand at an offset. -/
def FitsAt (offset : Nat) : Instr pool → Prop
  | tableSwitch padding .. | lookupSwitch padding .. => IsAligned offset padding
  | _ => True

/-- The uses of fields, methods and class literals. -/
def references : Instr pool → List Reference
  | field _ _ named => [.ofField named.field]
  | call _ _ named | interfaceCall named _ =>
      .ofCall named.method :: named.arguments.filterMap Reference.ofArgument?
  | load _ loaded => loaded.references
  | loadFar _ loaded => loaded.references
  | _ => []

/-- Count the uses of an instruction in a draft. -/
def addTo (draft : Draft) : Instr pool → Except Defect Draft
  | field _ _ named => draft.use [.ofField named.field]
  | call _ _ named => draft.addCall named.method
  | interfaceCall named _ => draft.addCall named.method
  | load _ loaded => loaded.addTo draft
  | loadFar _ loaded => loaded.addTo draft
  | _ => .ok draft

/-- Whether an instruction is a special call of a constructor of the superclass. -/
def isSuperCall (superClass : Option String) : Instr pool → Bool
  | call opcode _ named =>
      opcode = 0xb7 && named.method.name = Instruction.constructorName &&
        superClass = some named.method.owner
  | _ => false

end Instr

/-! ## Sequences of instructions -/

section Layout

variable {pool : Pool}

/-- The bytes of instructions, one after another. -/
def layout (code : List (Instr pool)) : List UInt8 := code.flatMap Instr.bytes

/-- Whether instructions can stand one after another from an offset on. -/
def FitFrom : Nat → List (Instr pool) → Prop
  | _, [] => True
  | offset, instr :: rest => instr.FitsAt offset ∧ FitFrom (offset + instr.bytes.length) rest

/-- The instructions that count: in a constructor, the first call of a constructor of the superclass
does not. -/
def counted (superClass : Option String) (inConstructor : Bool) (code : List (Instr pool)) :
    List (Instr pool) :=
  if inConstructor then code.eraseP (Instr.isSuperCall superClass) else code

/-- The uses of the instructions that count. -/
def usesOf (superClass : Option String) (inConstructor : Bool) (code : List (Instr pool)) :
    List Reference :=
  (counted superClass inConstructor code).flatMap Instr.references

@[simp] theorem layout_cons (instr : Instr pool) (rest : List (Instr pool)) :
    layout (instr :: rest) = instr.bytes ++ layout rest := rfl

theorem length_le_layout (code : List (Instr pool)) : code.length ≤ (layout code).length := by
  induction code with
  | nil => exact Nat.le_refl 0
  | cons instr rest ih =>
      simp only [layout_cons, Instr.bytes, List.cons_append, List.length_cons, List.length_append]
      omega

theorem NamedMethod.addCall_eq (named : NamedMethod pool) (draft : Draft) :
    draft.addCall named.method = draft.use
      (.ofCall named.method :: named.arguments.filterMap Reference.ofArgument?) := by
  have hboth := draft.use_append [.ofCall named.method]
    (named.arguments.filterMap Reference.ofArgument?)
  rw [List.singleton_append] at hboth
  unfold Draft.addCall Draft.addArguments Reference.ofArguments
  rw [named.accepted, hboth]
  rfl

end Layout

/-! ## All opcodes -/

/-- A fact on all bytes can be checked byte by byte. -/
theorem forall_byte {P : UInt8 → Prop} (h : ∀ n : Fin 256, P (UInt8.ofFin n)) (byte : UInt8) :
    P byte := h byte.toFin

theorem opcode_cases : ∀ opcode : UInt8, opcode ≤ 0xc9 ↔
    Opcode.isBare opcode ∨ Opcode.isLocal opcode ∨ Opcode.isBranch opcode ∨
      Opcode.isBranchFar opcode ∨ Opcode.isField opcode ∨ Opcode.isCall opcode ∨
      Opcode.isOfClass opcode ∨
      opcode ∈ [0x10, 0x11, 0x12, 0x13, 0x14, 0x84, 0xaa, 0xab, 0xb9, 0xba, 0xbc, 0xc4, 0xc5] :=
  forall_byte (by decide +kernel)

/-- A pool with a class, a constructor of it and a field of it. -/
def samplePool : Pool :=
  ⟨#[.unusable, .utf8 "A", .classInfo 1, .utf8 "<init>", .utf8 "(LB;)V", .nameAndType 3 4,
    .methodRef 2 5, .utf8 "f", .utf8 "I", .nameAndType 7 8, .fieldRef 2 9]⟩

def sampleClass : Loaded samplePool 2 := .classLiteral 1 "A" rfl rfl

def sampleConstructor : NamedMethod samplePool :=
  ⟨6, ⟨"A", "<init>", "(LB;)V"⟩, ["LB;"], rfl, by cbv⟩

def sampleField : NamedField samplePool := ⟨10, ⟨"A", "f", "I"⟩, rfl⟩

/-- The opcodes of instructions are those up to `0xc9`. -/
theorem exists_instr_iff (opcode : UInt8) :
    (∃ (pool : Pool) (instr : Instr pool), instr.opcode = opcode) ↔ opcode ≤ 0xc9 := by
  rw [opcode_cases]
  constructor
  · rintro ⟨pool, instr, rfl⟩
    cases instr <;> simp_all [Instr.opcode]
  · intro h
    refine ⟨samplePool, ?_⟩
    rcases h with h | h | h | h | h | h | h | h
    · exact ⟨.bare opcode h, rfl⟩
    · exact ⟨.atLocal opcode h 0, rfl⟩
    · exact ⟨.branch opcode h 0, rfl⟩
    · exact ⟨.branchFar opcode h 0, rfl⟩
    · exact ⟨.field opcode h sampleField, rfl⟩
    · exact ⟨.call opcode h sampleConstructor, rfl⟩
    · exact ⟨.ofClass opcode h 0, rfl⟩
    · simp only [List.mem_cons, List.not_mem_nil, or_false] at h
      rcases h with rfl | rfl | rfl | rfl | rfl | rfl | rfl | rfl | rfl | rfl | rfl | rfl | rfl
      · exact ⟨.pushByte 0, rfl⟩
      · exact ⟨.pushShort 0, rfl⟩
      · exact ⟨.load 2 sampleClass, rfl⟩
      · exact ⟨.loadFar 2 sampleClass, rfl⟩
      · exact ⟨.loadWide 0, rfl⟩
      · exact ⟨.increment 0 0, rfl⟩
      · exact ⟨.tableSwitch [] 0 0 0 [0] (by decide) (by decide), rfl⟩
      · exact ⟨.lookupSwitch [] 0 0 [] (by decide), rfl⟩
      · exact ⟨.interfaceCall sampleConstructor 1, rfl⟩
      · exact ⟨.dynamicCall 0, rfl⟩
      · exact ⟨.newArray 0, rfl⟩
      · exact ⟨.incrementWide 0 0, rfl⟩
      · exact ⟨.newArrays 0 1, rfl⟩

end ModCatalog.ClassFile
