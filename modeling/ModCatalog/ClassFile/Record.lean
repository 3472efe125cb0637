import ModCatalog.ClassFile.Annot
import ModCatalog.Fault

/-!
# Class records

What the catalog keeps of one class: its declaration, its members, and how often it refers to each
member of other classes.
-/

namespace ModCatalog.ClassFile

/-- The bits of access flags. -/
structure Access where
  flags : UInt16
deriving DecidableEq, Repr

namespace Access

/-- The flags of a public declaration. -/
def publicOnly : Access := ⟨0x0001⟩

/-- Whether a declaration is public or protected. -/
def isVisible (access : Access) : Bool := access.flags &&& 0x0005 != 0

def isStatic (access : Access) : Bool := access.flags &&& 0x0008 != 0

/-- Whether the file describes a module. -/
def isModule (access : Access) : Bool := access.flags &&& 0x8000 != 0

end Access

/-- The ways of referring to a class or member, in the order in which references are listed. -/
inductive RefKind
  | classRef
  | field
  | method
  | annotUse
  | parameter
deriving DecidableEq, Repr

namespace RefKind

/-- The word for a kind. -/
def text : RefKind → String
  | .classRef => "class"
  | .field => "field"
  | .method => "method"
  | .annotUse => "annotation"
  | .parameter => "parameter"

/-- The place of a kind in the order of kinds. -/
def rank : RefKind → Nat
  | .classRef => 0
  | .field => 1
  | .method => 2
  | .annotUse => 3
  | .parameter => 4

def all : List RefKind := [.classRef, .field, .method, .annotUse, .parameter]

def ofText? (word : String) : Option RefKind := all.find? fun kind => kind.text = word

theorem ofText?_text (kind : RefKind) : ofText? kind.text = some kind := by
  cases kind <;> decide

theorem rank_injective {a b : RefKind} (h : a.rank = b.rank) : a = b := by
  cases a <;> cases b <;> simp_all [rank]

end RefKind

/-- A use of a member of a class. -/
structure Reference where
  owner : String
  member : String
  kind : RefKind
deriving DecidableEq, Repr

/-- References are ordered by owner, then member, then kind. -/
instance : LT Reference where
  lt a b := a.owner < b.owner ∨
    (a.owner = b.owner ∧ (a.member < b.member ∨ (a.member = b.member ∧ a.kind.rank < b.kind.rank)))

instance : DecidableLT Reference := fun a b =>
  inferInstanceAs (Decidable (a.owner < b.owner ∨
    (a.owner = b.owner ∧
      (a.member < b.member ∨ (a.member = b.member ∧ a.kind.rank < b.kind.rank)))))

/-- A declared field or method. -/
structure MemberInfo where
  name : String
  descriptor : String
  access : Access
  annots : List Annot
deriving Repr

/-- The key of a method among the methods of its class. -/
def MemberInfo.methodKey (method : MemberInfo) : String := method.name ++ method.descriptor

/-- A class by its superclass, interfaces and method keys. -/
structure Inheritance where
  className : String
  superClass : Option String
  interfaces : List String
  methods : List String
deriving DecidableEq, Repr

/-- What is kept of a class. The superclass is absent if it is the root of all classes. -/
structure ClassRecord where
  name : String
  access : Access
  superClass : Option String
  interfaces : List String
  annots : List Annot
  /-- By name, sorted. -/
  fields : List (String × MemberInfo)
  /-- By name and descriptor, sorted. -/
  methods : List (String × MemberInfo)
  /-- How often each member is used, sorted. -/
  references : List (Reference × Nat)
deriving Repr

namespace ClassRecord

/-- A public class with a name and nothing else. -/
def empty (name : String) : ClassRecord := ⟨name, .publicOnly, none, [], [], [], [], []⟩

/-- Whether the class has no interfaces and no superclass but the root of all classes. -/
def isRoot (record : ClassRecord) : Bool :=
  record.interfaces.isEmpty &&
    match record.superClass with
    | none => true
    | some name => name = Descriptor.object

/-- The characters of the name after its last slash. -/
def simpleNameChars (record : ClassRecord) : List Char :=
  Text.afterLast (· = '/') record.name.toList

/-- The name after its last slash. -/
def simpleName (record : ClassRecord) : String := String.ofList record.simpleNameChars

/-- The access of the field or method that a reference of a kind names. -/
def memberAccess? (record : ClassRecord) (member : String) : RefKind → Option Access
  | .field => (Sorted.find? member record.fields).map MemberInfo.access
  | .method => (Sorted.find? member record.methods).map MemberInfo.access
  | _ => none

/-- How often a member is used. -/
def uses (record : ClassRecord) (reference : Reference) : Nat :=
  (Sorted.find? reference record.references).getD 0

/-- State how often a member is used. -/
def setCount (record : ClassRecord) (reference : Reference) (count : Nat) : ClassRecord :=
  { record with references := Sorted.insert reference count record.references }

/-- The greatest count of uses of one member: a count is a word of four bytes. -/
def maxCount : Nat := Nat.pow 2 32 - 1

/-- Count one more use, as long as its count does not outgrow its word. -/
def addReference (record : ClassRecord) (reference : Reference) : Except Defect ClassRecord :=
  if maxCount ≤ record.uses reference then .error .countTooGreat
  else .ok (record.setCount reference (record.uses reference + 1))

/-- Count uses one after another. -/
def addReferences (record : ClassRecord) (references : List Reference) :
    Except Defect ClassRecord :=
  references.foldlM addReference record

/-- The number of uses. -/
def referenceCount (record : ClassRecord) : Nat := (record.references.map Prod.snd).foldr (· + ·) 0

/-- The superclass, interfaces and method keys. -/
def inheritance (record : ClassRecord) : Inheritance :=
  ⟨record.name, record.superClass, record.interfaces, record.methods.map Prod.fst⟩

end ClassRecord

end ModCatalog.ClassFile
