import ModCatalog.ClassFile.Draft
import ModCatalog.Proofs.ClassFile.Descriptors

/-!
# Names of types

The types of fields and arguments, the names of classes, and what class constants name.  Class names
stand plain in class constants and between marks in descriptors, so a class constant whose class has
the name of a letter looks like a primitive type.  Everything else is told apart: what is taken of a
type for a reference is the class of its innermost elements.
-/

namespace ModCatalog.ClassFile

open Descriptor

/-! ## Types and their texts -/

/-- What may stand between the slashes of the name of a class. -/
structure NamePart where
  chars : List Char
  isSome : chars ≠ []
  plain : ∀ c ∈ chars, c ∉ ['.', ';', '[', '/']

/-- The name of a class with the packages around it, outermost first. -/
structure ClassName where
  packages : List NamePart
  simpleName : NamePart

namespace ClassName

def chars (name : ClassName) : List Char :=
  (name.packages.flatMap fun part => part.chars ++ ['/']) ++ name.simpleName.chars

def text (name : ClassName) : String := String.ofList name.chars

theorem chars_ne_nil (name : ClassName) : name.chars ≠ [] :=
  List.append_ne_nil_of_right_ne_nil _ name.simpleName.isSome

/-- The marks of descriptors do not occur in names. -/
theorem not_mem_chars (name : ClassName) : ';' ∉ name.chars ∧ '[' ∉ name.chars := by
  have hpart : ∀ part : NamePart, ∀ c ∈ part.chars, c ≠ ';' ∧ c ≠ '[' := by
    intro part c hc
    have hplain := part.plain c hc
    simp only [List.mem_cons, not_or] at hplain
    exact ⟨hplain.2.1, hplain.2.2.1⟩
  have hchars : ∀ c ∈ name.chars, c ≠ ';' ∧ c ≠ '[' := by
    intro c hc
    simp only [chars, List.mem_append, List.mem_flatMap, List.mem_singleton] at hc
    rcases hc with ⟨part, -, hc | rfl⟩ | hc
    · exact hpart part c hc
    · decide
    · exact hpart name.simpleName c hc
  exact ⟨fun h => (hchars _ h).1 rfl, fun h => (hchars _ h).2 rfl⟩

/-- The name of a class in a package. -/
def sample : ClassName := ⟨[⟨['p'], by decide, by simp⟩], ⟨['C'], by decide, by simp⟩⟩

end ClassName

inductive PrimitiveType
  | byte
  | char
  | double
  | float
  | int
  | long
  | short
  | boolean
deriving DecidableEq, Repr

def PrimitiveType.letter : PrimitiveType → Char
  | byte => 'B'
  | char => 'C'
  | double => 'D'
  | float => 'F'
  | int => 'I'
  | long => 'J'
  | short => 'S'
  | boolean => 'Z'

theorem PrimitiveType.letter_mem (type : PrimitiveType) : type.letter ∈ primitiveLetters := by
  cases type <;> decide

/-- The types of fields and arguments. -/
inductive FieldType
  | primitive (type : PrimitiveType)
  | classType (name : ClassName)
  | array (element : FieldType)

namespace FieldType

/-- The descriptor of a type. -/
def chars : FieldType → List Char
  | primitive type => [type.letter]
  | classType name => 'L' :: (name.chars ++ [';'])
  | array element => '[' :: element.chars

def text (type : FieldType) : String := String.ofList type.chars

/-- The class of the innermost elements; none if they are primitive. -/
def element? : FieldType → Option ClassName
  | primitive _ => none
  | classType name => some name
  | array element => element.element?

/-- The name of a class type; any other type has its descriptor in place of a name. -/
def internalName : FieldType → String
  | classType name => name.text
  | type => type.text

/-- The use of an argument type, unless its elements are primitive or of the root of all classes. -/
def parameter? (type : FieldType) : Option Reference :=
  match type.element? with
  | none => none
  | some owner =>
      if owner.text = object then none else some ⟨owner.text, type.internalName, .parameter⟩

end FieldType

/-- What a class constant names: a class by its plain name, or arrays by their descriptor. -/
inductive ClassConstant
  | named (name : ClassName)
  | arrayOf (element : FieldType)

namespace ClassConstant

def text : ClassConstant → String
  | named name => name.text
  | arrayOf element => (FieldType.array element).text

/-- The class, or that of the innermost elements of arrays; none if they are primitive. -/
def element? : ClassConstant → Option ClassName
  | named name => some name
  | arrayOf element => element.element?

/-- The use of a class literal, unless it is one of arrays of primitive elements. -/
def literal? (constant : ClassConstant) : Option Reference :=
  constant.element?.map fun owner => ⟨owner.text, constant.text ++ ".class", .classRef⟩

end ClassConstant

/-- The texts that would be primitive types or `void` if they were descriptors. -/
def typeLetters : List String := ('V' :: primitiveLetters).map String.singleton

/-! ## What is taken of a text -/

theorem innerName_marked (name : List Char) : innerName ('L' :: (name ++ [';'])) = name := by
  simp [innerName]

theorem innerName_of_not_mem {chars : List Char} (h : ';' ∉ chars) : innerName chars = chars := by
  unfold innerName
  split
  · next rest =>
      refine if_neg fun hlast => h ?_
      exact List.mem_cons_of_mem _ (List.mem_of_getLast? hlast)
  · rfl

theorem mem_typeLetters {text : String} :
    text ∈ typeLetters ↔ ∃ letter ∈ 'V' :: primitiveLetters, text.toList = [letter] := by
  rw [typeLetters, List.mem_map]
  refine exists_congr fun letter => and_congr_right fun _ => ?_
  rw [← String.toList_inj, String.toList_singleton]
  exact eq_comm

/-- A text is primitive if nothing but a letter is left of it. -/
theorem isPrimitiveElement_iff {text : String} :
    isPrimitiveElement text = true ↔ ∃ letter ∈ 'V' :: primitiveLetters,
      stripArrays text = [letter] := by
  have hletter : ∀ letter, (isPrimitive letter || decide (letter = 'V')) = true ↔
      letter ∈ 'V' :: primitiveLetters := by
    intro letter
    rw [Bool.or_eq_true, isPrimitive_iff, decide_eq_true_iff, List.mem_cons]
    exact or_comm
  unfold isPrimitiveElement
  split
  · next letter hstrip =>
      rw [hletter, hstrip]
      exact ⟨fun h => ⟨letter, h, rfl⟩, fun ⟨_, h, hsame⟩ => List.head_eq_of_cons_eq hsame ▸ h⟩
  · next hnone =>
      exact ⟨nofun, fun ⟨letter, _, hstrip⟩ => absurd hstrip (hnone letter)⟩

namespace FieldType

theorem isFieldType_chars (type : FieldType) : IsFieldType type.chars := by
  induction type with
  | primitive type => exact .primitive type.letter_mem
  | classType name => exact .classType name.not_mem_chars.1
  | array element ih => exact .array ih

/-- Without the marks of arrays a type is a letter or a marked name. -/
theorem stripArrays_text (type : FieldType) :
    (∃ letter ∈ primitiveLetters, type.element? = none ∧ stripArrays type.text = [letter]) ∨
      ∃ name, type.element? = some name ∧
        stripArrays type.text = 'L' :: (name.chars ++ [';']) := by
  unfold stripArrays text
  rw [String.toList_ofList]
  induction type with
  | primitive type => exact .inl ⟨type.letter, type.letter_mem, rfl, by cases type <;> rfl⟩
  | classType name => exact .inr ⟨name, rfl, rfl⟩
  | array element ih => simpa [chars, element?] using ih

theorem isPrimitiveElement_text (type : FieldType) :
    isPrimitiveElement type.text = type.element?.isNone := by
  rw [Bool.eq_iff_iff, isPrimitiveElement_iff]
  rcases type.stripArrays_text with ⟨letter, hletter, hnone, hstrip⟩ | ⟨name, hsome, hstrip⟩
  · simp [hnone, hstrip, hletter]
  · simp [hsome, hstrip]

theorem elementType_text {type : FieldType} {name : ClassName} (h : type.element? = some name) :
    elementType type.text = name.text := by
  rcases type.stripArrays_text with ⟨letter, -, hnone, -⟩ | ⟨found, hsome, hstrip⟩
  · cases hnone.symm.trans h
  · cases hsome.symm.trans h
    rw [elementType, hstrip, innerName_marked, ClassName.text]

theorem internalName_text (type : FieldType) :
    Descriptor.internalName type.text = type.internalName := by
  unfold Descriptor.internalName text
  rw [String.toList_ofList]
  cases type with
  | primitive type => cases type <;> rfl
  | classType name =>
      rw [chars, innerName_marked]
      rfl
  | array element => rfl

end FieldType

/-- The use that is counted for an argument is that of its type. -/
theorem Reference.ofArgument?_text (type : FieldType) :
    Reference.ofArgument? type.text = type.parameter? := by
  unfold Reference.ofArgument? FieldType.parameter?
  rw [type.isPrimitiveElement_text, type.internalName_text]
  cases h : type.element? with
  | none => rfl
  | some owner => simp [FieldType.elementType_text h]

namespace ClassName

theorem stripArrays_text (name : ClassName) : stripArrays name.text = name.chars := by
  unfold stripArrays text
  rw [String.toList_ofList]
  cases h : name.chars with
  | nil => exact absurd h name.chars_ne_nil
  | cons c rest =>
      have hc : c ≠ '[' := by
        rintro rfl
        exact name.not_mem_chars.2 (h ▸ List.mem_cons_self)
      simp [hc]

/-- The plain name of a class is taken for a primitive type if it is a letter. -/
theorem isPrimitiveElement_text (name : ClassName) :
    isPrimitiveElement name.text = true ↔ name.text ∈ typeLetters := by
  rw [isPrimitiveElement_iff, mem_typeLetters, stripArrays_text, text, String.toList_ofList]

theorem elementType_text (name : ClassName) : elementType name.text = name.text := by
  rw [elementType, stripArrays_text, innerName_of_not_mem name.not_mem_chars.1, text]

end ClassName

/-- Array types begin with a mark that is no letter. -/
theorem FieldType.array_not_mem_typeLetters (element : FieldType) :
    (array element).text ∉ typeLetters := by
  rw [mem_typeLetters, text, String.toList_ofList, chars]
  rintro ⟨letter, hletter, hchars⟩
  have hopen : ¬ '[' ∈ 'V' :: primitiveLetters := by decide
  rw [← List.head_eq_of_cons_eq hchars] at hletter
  exact hopen hletter

/-- The use that is counted for the load of a class literal, of which there is none if the name of
the class is the letter of a primitive type or of `void`. -/
theorem Reference.ofClassLiteral?_text (constant : ClassConstant) :
    Reference.ofClassLiteral? constant.text =
      if constant.text ∈ typeLetters then none else constant.literal? := by
  unfold Reference.ofClassLiteral? ClassConstant.literal?
  cases constant with
  | named name =>
      simp only [ClassConstant.text, name.isPrimitiveElement_text, name.elementType_text]
      rfl
  | arrayOf element =>
      rw [ClassConstant.text, if_neg element.array_not_mem_typeLetters,
        (FieldType.array element).isPrimitiveElement_text, ClassConstant.element?]
      cases h : element.element? with
      | none => simp [FieldType.element?, h]
      | some owner =>
          have howner : (FieldType.array element).element? = some owner := h
          simp [howner, FieldType.elementType_text howner]

end ModCatalog.ClassFile
