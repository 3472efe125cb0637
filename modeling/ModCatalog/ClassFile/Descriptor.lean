import ModCatalog.ClassFile.Defect
import ModCatalog.Text.Split

/-!
# Descriptors

Types and method signatures as they stand in class files.  A method descriptor is cut into its
argument types; other functions strip arrays and the marks of class types.
-/

namespace ModCatalog.ClassFile.Descriptor

/-- The internal name of the root of all classes. -/
def object : String := "java/lang/Object"

/-- Whether a letter is the descriptor of a primitive type. -/
def isPrimitive (c : Char) : Bool :=
  c = 'B' || c = 'C' || c = 'D' || c = 'F' || c = 'I' || c = 'J' || c = 'S' || c = 'Z'

/-- The field type in front of a text, with what follows it. -/
def fieldType? : List Char → Option (List Char × List Char)
  | [] => none
  | '[' :: rest => (fieldType? rest).map fun (type, rest) => ('[' :: type, rest)
  | c :: rest =>
      if isPrimitive c then some ([c], rest)
      else if c = 'L' then
        (Text.splitFirst? (· = ';') rest).map fun (name, rest) => ('L' :: (name ++ [';']), rest)
      else none

/-- A field type takes at least one character. -/
theorem length_lt_of_fieldType? {text type rest : List Char}
    (h : fieldType? text = some (type, rest)) : rest.length < text.length := by
  fun_induction fieldType? text generalizing type with
  | case1 => simp at h
  | case2 tail ih =>
      obtain ⟨⟨t, r⟩, htr, h⟩ := Option.map_eq_some_iff.1 h
      have := (Prod.mk.inj h).2
      subst this
      have := ih htr
      simp
      omega
  | case3 c tail _ hc =>
      obtain ⟨_, rfl⟩ := Prod.mk.inj (Option.some.inj h)
      simp
  | case4 =>
      obtain ⟨⟨name, r⟩, hs, hrest⟩ := Option.map_eq_some_iff.1 h
      obtain ⟨x, _, _, rfl⟩ := Text.splitFirst?_eq_some_iff.1 hs
      have := (Prod.mk.inj hrest).2
      subst this
      simp
      omega
  | case5 => simp at h

/-- The field types that a text consists of. -/
def fieldTypes? (text : List Char) : Option (List (List Char)) :=
  match text with
  | [] => some []
  | c :: tail =>
      match h : fieldType? (c :: tail) with
      | none => none
      | some (type, rest) =>
          have := length_lt_of_fieldType? h
          (fieldTypes? rest).map (type :: ·)
termination_by text.length
decreasing_by exact this

/-- The argument types between the parentheses of a method descriptor. -/
def argumentTypes? : List Char → Option (List (List Char))
  | '(' :: rest =>
      match Text.splitFirst? (· = ')') rest with
      | some (arguments, _) => fieldTypes? arguments
      | none => none
  | _ => none

def methodArguments (descriptor : String) : Except Defect (List String) :=
  match argumentTypes? descriptor.toList with
  | some types => .ok (types.map String.ofList)
  | none => .error (.methodDescriptor descriptor)

/-- The name inside a class type; any other text is left alone. -/
def innerName (text : List Char) : List Char :=
  match text with
  | 'L' :: rest => if rest.getLast? = some ';' then rest.dropLast else text
  | _ => text

/-- The internal name of a class type; any other descriptor is left alone. -/
def internalName (descriptor : String) : String := String.ofList (innerName descriptor.toList)

/-- What remains of a type without the marks of arrays in front. -/
def stripArrays (descriptor : String) : List Char := descriptor.toList.dropWhile (· = '[')

/-- The internal name of the innermost element type. -/
def elementType (descriptor : String) : String := String.ofList (innerName (stripArrays descriptor))

/-- Whether the innermost element type is primitive or void. -/
def isPrimitiveElement (descriptor : String) : Bool :=
  match stripArrays descriptor with
  | [c] => isPrimitive c || c = 'V'
  | _ => false

end ModCatalog.ClassFile.Descriptor
