import ModCatalog.ClassFile.Record
import ModCatalog.Document.Json.Value

/-!
# Class records as JSON

The JSON form of class records and of what they consist of.
-/

namespace ModCatalog.ClassFile

open Document

/-- A floating-point number as its shortest decimal; what is no number has no form. -/
def floatJson (format : Decimal.Format) (value : Decimal.FloatValue) : Json :=
  match value with
  | .finite negative size =>
      let decimal := Decimal.shortest .toEven format size
      match Decimal.Format.double.nearestDecimal? decimal.digits decimal.exponent with
      | some size => .number (.double negative size)
      | none => .null
  | _ => .null

namespace Scalar

def kindText : Scalar → String
  | .byte _ => "byte"
  | .char _ => "char"
  | .short _ => "short"
  | .int _ => "int"
  | .long _ => "long"
  | .float _ => "float"
  | .double _ => "double"
  | .boolean _ => "boolean"
  | .string _ => "string"

/-- The value of a constant without its kind. -/
def valueJson : Scalar → Json
  | .byte value => .number (.integer value.toInt)
  | .char value => .text (String.singleton value)
  | .short value => .number (.integer value.toInt)
  | .int value => .number (.integer value.toInt)
  | .long value => .number (.integer value.toInt)
  | .float bits => floatJson .single (Decimal.Format.single.decode bits.toNat)
  | .double bits => floatJson .double (Decimal.Format.double.decode bits.toNat)
  | .boolean value => .bool value
  | .string value => .text value

def toJson (scalar : Scalar) : Json :=
  .ofMembers [("kind", .text scalar.kindText), ("value", scalar.valueJson)]

def toExactJson (scalar : Scalar) : Json :=
  match scalar with
  | .float _ | .double _ =>
      .ofMembers [("kind", .text scalar.kindText), ("value", .text scalar.text)]
  | scalar => scalar.toJson

end Scalar

def annotJson (typeName : String) (members : List (String × Json)) : Json :=
  .ofMembers [("type_name", .text typeName), ("members", .ofMembers members)]

namespace AnnotValue

variable (scalarJson : Scalar → Json)

mutual

def toJson : AnnotValue → Json
  | .scalar value => .ofMembers [("kind", .text "scalar"), ("value", scalarJson value)]
  | .list values => .ofMembers [("kind", .text "list"), ("values", .array (listJson values))]
  | .nested typeName members =>
      .ofMembers [("kind", .text "annotation"),
        ("annotation", annotJson typeName (membersJson members))]
  | .enumConstant typeName constant =>
      .ofMembers [("kind", .text "enum"), ("type_name", .text typeName),
        ("constant", .text constant)]
  | .classLiteral typeName =>
      .ofMembers [("kind", .text "class"), ("type_name", .text typeName)]

def listJson : List AnnotValue → List Json
  | [] => []
  | value :: rest => toJson value :: listJson rest

def membersJson : List (String × AnnotValue) → List (String × Json)
  | [] => []
  | (name, value) :: rest => (name, toJson value) :: membersJson rest

end

end AnnotValue

def Annot.toJson (annot : Annot) : Json :=
  annotJson annot.typeName (AnnotValue.membersJson Scalar.toJson annot.members)

def Annot.toExactJson (annot : Annot) : Json :=
  annotJson annot.typeName (AnnotValue.membersJson Scalar.toExactJson annot.members)

def MemberInfo.toJson (member : MemberInfo) : Json :=
  .ofMembers [("name", .text member.name), ("descriptor", .text member.descriptor),
    ("access", .ofNat member.access.flags.toNat),
    ("annotations", .ofList Annot.toJson member.annots)]

def Reference.toJson (reference : Reference) (count : Nat) : Json :=
  .ofMembers [("owner", .text reference.owner), ("member", .text reference.member),
    ("kind", .text reference.kind.text), ("count", .ofNat count)]

def ClassRecord.toJson (record : ClassRecord) : Json :=
  let members := fun entries : List (String × MemberInfo) =>
    Json.ofMembers (entries.map fun entry => (entry.1, entry.2.toJson))
  .ofMembers [("name", .text record.name), ("access", .ofNat record.access.flags.toNat),
    ("super_class", .ofOption .text record.superClass),
    ("interfaces", .ofList .text record.interfaces),
    ("annotations", .ofList Annot.toJson record.annots),
    ("fields", members record.fields), ("methods", members record.methods),
    ("references", .ofList (fun entry => entry.1.toJson entry.2) record.references)]

def Annot.toFullJson (annot : Annot) : Json :=
  .ofMembers [("text", .text annot.text), ("tree", annot.toExactJson)]

def MemberInfo.toFullJson (key : String) (member : MemberInfo) : Json :=
  .ofMembers [("key", .text key), ("name", .text member.name),
    ("descriptor", .text member.descriptor), ("access", .ofNat member.access.flags.toNat),
    ("annotations", .ofList Annot.toFullJson member.annots)]

def ClassRecord.toFullJson (record : ClassRecord) : Json :=
  let members := Json.ofList fun entry : String × MemberInfo => entry.2.toFullJson entry.1
  .ofMembers [("name", .text record.name), ("access", .ofNat record.access.flags.toNat),
    ("super_class", .ofOption .text record.superClass),
    ("interfaces", .ofList .text record.interfaces),
    ("annotations", .ofList Annot.toFullJson record.annots), ("root", .bool record.isRoot),
    ("simple_name", .text record.simpleName), ("reference_count", .ofNat record.referenceCount),
    ("fields", members record.fields), ("methods", members record.methods),
    ("references", .ofList (fun entry => entry.1.toJson entry.2) record.references)]

end ModCatalog.ClassFile
