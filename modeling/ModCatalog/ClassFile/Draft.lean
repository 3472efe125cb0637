import ModCatalog.ClassFile.Pool
import ModCatalog.ClassFile.Record

/-!
# Drafts of class records

A class record while its file is read, and the references that each kind of use gives rise to.
-/

namespace ModCatalog.ClassFile

namespace Reference

def ofAnnot (target : Target) (annot : Annot) : Reference :=
  ⟨annot.typeName, annot.usageKey target, .annotUse⟩

def ofField (field : MemberRef) : Reference := ⟨field.owner, field.name, .field⟩

def ofCall (method : MemberRef) : Reference :=
  ⟨method.owner, method.name ++ method.descriptor, .method⟩

/-- The argument of a call, unless its element type is primitive or the root of all classes. -/
def ofArgument? (type : String) : Option Reference :=
  if Descriptor.isPrimitiveElement type then none
  else if Descriptor.elementType type = Descriptor.object then none
  else some ⟨Descriptor.elementType type, Descriptor.internalName type, .parameter⟩

/-- The arguments of a call, by the descriptor of the method. -/
def ofArguments (descriptor : String) : Except Defect (List Reference) :=
  (Descriptor.methodArguments descriptor).map fun types => types.filterMap ofArgument?

/-- The load of a class literal, unless its element type is primitive. -/
def ofClassLiteral? (name : String) : Option Reference :=
  if Descriptor.isPrimitiveElement name then none
  else some ⟨Descriptor.elementType name, name ++ ".class", .classRef⟩

end Reference

/-- A class record in the making. -/
structure Draft where
  record : ClassRecord
  /-- The superclass as the file names it, the root of all classes included. -/
  rawSuper : Option String
  /-- Whether uses of annotations are counted. -/
  collects : Bool
deriving Repr

namespace Draft

/-- The draft of a class before its members are read. -/
def start (name : String) (access : Access) (rawSuper : Option String) (interfaces : List String)
    (collects : Bool) : Draft :=
  { record := { ClassRecord.empty name with
      access := access
      superClass := rawSuper.filter (· ≠ Descriptor.object)
      interfaces := interfaces }
    rawSuper := rawSuper
    collects := collects }

/-- Count uses one after another. -/
def use (draft : Draft) (references : List Reference) : Except Defect Draft := do
  return { draft with record := ← draft.record.addReferences references }

/-- Count the uses of annotations, if uses are collected. -/
def useAnnots (draft : Draft) (target : Target) (annots : List Annot) : Except Defect Draft :=
  if draft.collects then draft.use (annots.map (Reference.ofAnnot target)) else .ok draft

/-- Declare a field; a later one of the same name takes its place. -/
def declareField (draft : Draft) (field : MemberInfo) : Draft :=
  { draft with record := { draft.record with
      fields := Sorted.insert field.name field draft.record.fields } }

/-- Declare a method; a later one of the same name and descriptor takes its place. -/
def declareMethod (draft : Draft) (method : MemberInfo) : Draft :=
  { draft with record := { draft.record with
      methods := Sorted.insert method.methodKey method draft.record.methods } }

def declareAnnots (draft : Draft) (annots : List Annot) : Draft :=
  { draft with record := { draft.record with annots := draft.record.annots ++ annots } }

/-- Declare a field after the uses of its annotations. -/
def addField (draft : Draft) (field : MemberInfo) : Except Defect Draft := do
  return (← draft.useAnnots .field field.annots).declareField field

/-- Declare a method after the uses of its annotations. -/
def addMethod (draft : Draft) (method : MemberInfo) : Except Defect Draft := do
  return (← draft.useAnnots .method method.annots).declareMethod method

def addClassAnnots (draft : Draft) (annots : List Annot) : Except Defect Draft := do
  return (← draft.useAnnots .classFile annots).declareAnnots annots

/-- Count the arguments of a call. -/
def addArguments (draft : Draft) (descriptor : String) : Except Defect Draft := do
  draft.use (← Reference.ofArguments descriptor)

/-- Count a call, then its arguments. -/
def addCall (draft : Draft) (method : MemberRef) : Except Defect Draft := do
  (← draft.use [.ofCall method]).addArguments method.descriptor

/-- Count the load of a class literal. -/
def addClassLiteral (draft : Draft) (name : String) : Except Defect Draft :=
  draft.use (Reference.ofClassLiteral? name).toList

end Draft

end ModCatalog.ClassFile
