import ModCatalog.ClassFile.Element
import ModCatalog.ClassFile.Instruction

/-!
# Indexing class files

One pass over a class file that gives its record.  Files that describe packages or modules have
none.
-/

namespace ModCatalog.ClassFile

/-- What is read of class files. -/
structure IndexOptions where
  /-- Whether uses are counted. -/
  collectReferences : Bool
  /-- Which annotations are wanted, by the descriptor of their type. -/
  keepAnnot : String → Bool

namespace IndexOptions

/-- Annotations that only carry metadata of other compilers are not wanted. -/
def keepByDefault (descriptor : String) : Bool :=
  !"kotlin/Metadata;".toList.isSuffixOf descriptor.toList &&
    !Text.occursIn "scala/reflect/".toList descriptor.toList

/-- Count uses, and leave out the metadata of other compilers. -/
def standard : IndexOptions := ⟨true, keepByDefault⟩

end IndexOptions

namespace Index

open Reading

/-- The first word of every class file. -/
def magicWord : UInt32 := 0xCAFEBABE

def annotAttribute : String := "RuntimeVisibleAnnotations"

/-- The attribute that holds the code of a method. -/
def codeAttribute : String := "Code"

/-- Change a state by the attributes of a declaration; `body` changes it by one of them, by its name
and its content. -/
def attributes {σ : Type} (pool : Pool) (body : String → List UInt8 → σ → Except Defect σ) :
    σ → Reading σ :=
  foldCounted fun state => do
    let name ← ofExcept (pool.utf8 (← u2))
    let content ← sizedBlock
    ofExcept (body name content state)

/-- Add the annotations of an attribute, if it holds any. -/
def addAnnots (keep : String → Bool) (pool : Pool) (name : String) (content : List UInt8)
    (annots : List Annot) : Except Defect (List Annot) :=
  if name = annotAttribute then (Element.annots keep pool content).map (annots ++ ·)
  else .ok annots

def walkCode (pool : Pool) (inConstructor : Bool) (content : List UInt8) (draft : Draft) :
    Except Defect Draft := do
  let code ← runOn (do skip 4; sizedBlock) content
  Instruction.walk pool inConstructor code draft

/-- Walk over the code that an attribute of a method holds, or add its annotations. -/
def methodAttribute (options : IndexOptions) (pool : Pool) (method : String) (name : String)
    (content : List UInt8) (state : List Annot × Draft) : Except Defect (List Annot × Draft) :=
  if name = codeAttribute && options.collectReferences then
    (walkCode pool (method = Instruction.constructorName) content state.2).map (state.1, ·)
  else (addAnnots options.keepAnnot pool name content state.1).map (·, state.2)

/-- The access flags, name and descriptor in front of a field or method. -/
def memberHead (pool : Pool) : Reading (Access × String × String) := do
  let access ← u2
  let name ← ofExcept (pool.utf8 (← u2))
  let descriptor ← ofExcept (pool.utf8 (← u2))
  return (⟨access⟩, name, descriptor)

/-- Add a field to a draft. -/
def field (options : IndexOptions) (pool : Pool) (draft : Draft) : Reading Draft := do
  let (access, name, descriptor) ← memberHead pool
  let annots ← attributes pool (addAnnots options.keepAnnot pool) []
  ofExcept (draft.addField ⟨name, descriptor, access, annots⟩)

/-- Add a method to a draft, after the uses of its code. -/
def method (options : IndexOptions) (pool : Pool) (draft : Draft) : Reading Draft := do
  let (access, name, descriptor) ← memberHead pool
  let (annots, draft) ← attributes pool (methodAttribute options pool name) ([], draft)
  ofExcept (draft.addMethod ⟨name, descriptor, access, annots⟩)

/-- Whether a file describes a package or a module. -/
def isDescription (access : Access) (name : String) : Bool :=
  access.isModule || "package-info".toList.isSuffixOf name.toList ||
    "module-info".toList.isSuffixOf name.toList

def classFile (options : IndexOptions) : Reading (Option ClassRecord) := do
  let magic ← u4
  if magic ≠ magicWord then throw (.magic magic)
  skip 4
  let pool ← Pool.read
  let access : Access := ⟨← u2⟩
  let name ← ofExcept (pool.className (← u2))
  if isDescription access name then return none
  let superClass ← ofExcept (pool.optionalClassName (← u2))
  let interfaces ← counted do ofExcept (pool.className (← u2))
  let draft := Draft.start name access superClass interfaces options.collectReferences
  let draft ← foldCounted (field options pool) draft
  let draft ← foldCounted (method options pool) draft
  let annots ← attributes pool (addAnnots options.keepAnnot pool) []
  let draft ← ofExcept (draft.addClassAnnots annots)
  return some draft.record

end Index

/-- The record of the class that bytes hold; none for a package or a module. -/
def index (options : IndexOptions) (bytes : List UInt8) : Except Defect (Option ClassRecord) :=
  Reading.runOn (Index.classFile options) bytes

end ModCatalog.ClassFile
