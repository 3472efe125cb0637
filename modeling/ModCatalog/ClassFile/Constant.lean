import ModCatalog.Decimal.Layout
import ModCatalog.Text.Quoted

/-!
# Constants

The constants of a class file's pool and the way a message shows them.
-/

namespace ModCatalog.ClassFile

/-- One entry of a constant pool; references to other entries are their indices. -/
inductive Constant
  /-- The first entry, and the one after a long or double. -/
  | unusable
  | utf8 (text : String)
  | integer (value : Int32)
  | float (bits : UInt32)
  | long (value : Int64)
  | double (bits : UInt64)
  | classInfo (name : UInt16)
  | string (text : UInt16)
  | fieldRef (owner nameAndType : UInt16)
  | methodRef (owner nameAndType : UInt16)
  | interfaceMethodRef (owner nameAndType : UInt16)
  | nameAndType (name descriptor : UInt16)
  | methodHandle (kind : UInt8) (reference : UInt16)
  | methodType (descriptor : UInt16)
  | dynamic (bootstrap nameAndType : UInt16)
  | invokeDynamic (bootstrap nameAndType : UInt16)
  | moduleInfo (name : UInt16)
  | packageInfo (name : UInt16)
deriving DecidableEq, Repr

/-- Floating-point numbers in messages and keys: the nearer shortest decimal, the larger on a
tie. -/
def floatLayout : Decimal.Layout := ⟨.up, -4, ""⟩

def floatText (bits : UInt32) : String :=
  floatLayout.write .single (Decimal.Format.single.decode bits.toNat)

def doubleText (bits : UInt64) : String :=
  floatLayout.write .double (Decimal.Format.double.decode bits.toNat)

namespace Constant

/-- Whether a constant takes two places in the pool. -/
def isWide : Constant → Bool
  | .long _ | .double _ => true
  | _ => false

def showOne (kind part : String) : String := kind ++ "(" ++ part ++ ")"

/-- A kind of constant with two named parts. -/
def showTwo (kind first : String) (a : Nat) (second : String) (b : Nat) : String :=
  kind ++ " \x7b " ++ first ++ ": " ++ toString a ++ ", " ++ second ++ ": " ++ toString b ++ " \x7d"

def describe : Constant → String
  | .unusable => "Unusable"
  | .utf8 text => showOne "Utf8" (Text.quoted text)
  | .integer value => showOne "Integer" (toString value.toInt)
  | .float bits => showOne "Float" (floatText bits)
  | .long value => showOne "Long" (toString value.toInt)
  | .double bits => showOne "Double" (doubleText bits)
  | .classInfo name => showOne "Class" (toString name.toNat)
  | .string text => showOne "String" (toString text.toNat)
  | .fieldRef owner member => showTwo "FieldRef" "class" owner.toNat "name_and_type" member.toNat
  | .methodRef owner member => showTwo "MethodRef" "class" owner.toNat "name_and_type" member.toNat
  | .interfaceMethodRef owner member =>
      showTwo "InterfaceMethodRef" "class" owner.toNat "name_and_type" member.toNat
  | .nameAndType name descriptor =>
      showTwo "NameAndType" "name" name.toNat "descriptor" descriptor.toNat
  | .methodHandle kind reference =>
      showTwo "MethodHandle" "kind" kind.toNat "reference" reference.toNat
  | .methodType descriptor => showOne "MethodType" (toString descriptor.toNat)
  | .dynamic bootstrap member =>
      showTwo "Dynamic" "bootstrap" bootstrap.toNat "name_and_type" member.toNat
  | .invokeDynamic bootstrap member =>
      showTwo "InvokeDynamic" "bootstrap" bootstrap.toNat "name_and_type" member.toNat
  | .moduleInfo name => showOne "Module" (toString name.toNat)
  | .packageInfo name => showOne "Package" (toString name.toNat)

end Constant

end ModCatalog.ClassFile
