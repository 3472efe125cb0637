import ModCatalog.ClassFile.Element
import ModCatalog.Proofs.ClassFile.Words
import ModCatalog.Proofs.Collection.Sorted

/-!
# Written annotations

Annotations as a class file holds them: every text and every number is an index of the constant pool,
and every list has its length in front.  Reading gives back what was written without the annotations
that are not wanted, and stands right behind it.
-/

namespace ModCatalog

namespace ClassFile

theorem Writing.length_le_length_flatMap {α : Type} (write : α → List UInt8) {items : List α}
    {item : α} (h : item ∈ items) : (write item).length ≤ (items.flatMap write).length :=
  (List.sublist_flatten_of_mem (List.mem_map_of_mem h)).length_le

/-! ## What is written -/

/-- A constant of a pool by its index. -/
structure Listed (pool : Pool) {α : Type} (kind : α → Constant) where
  index : UInt16
  value : α
  resolves : pool.get index = .ok (kind value)

/-- A text of a pool. -/
abbrev ListedText (pool : Pool) := Listed pool Constant.utf8

def Listed.bytes {pool : Pool} {α : Type} {kind : α → Constant} (constant : Listed pool kind) :
    List UInt8 :=
  Writing.u2 constant.index

theorem ListedText.utf8_eq {pool : Pool} (text : ListedText pool) :
    pool.utf8 text.index = .ok text.value := by
  unfold Pool.utf8
  rw [text.resolves]
  rfl

/-- The types whose constants are integers. -/
inductive IntegerType
  | byte
  | char
  | int
  | short
  | boolean
deriving DecidableEq, Repr

namespace IntegerType

def tag : IntegerType → UInt8
  | byte => 0x42
  | char => 0x43
  | int => 0x49
  | short => 0x53
  | boolean => 0x5a

/-- What an integer stands for; an integer that is no character stands for the replacement
character. -/
def scalar : IntegerType → Int32 → Scalar
  | byte, value => .byte value.toInt8
  | char, value => .char (Element.charOf value)
  | int, value => .int value
  | short, value => .short value.toInt16
  | boolean, value => .boolean (value ≠ 0)

end IntegerType

/-- The integer that stands in a class file for a constant, with its type. -/
def Scalar.integer? : Scalar → Option (IntegerType × Int32)
  | .byte value => some (.byte, value.toInt32)
  | .char value => some (.char, value.val.toInt32)
  | .short value => some (.short, value.toInt32)
  | .int value => some (.int, value)
  | .boolean value => some (.boolean, if value then 1 else 0)
  | .long _ | .float _ | .double _ | .string _ => none

theorem charOf_toInt32 (value : Char) : Element.charOf value.val.toInt32 = value := by
  have hvalid : value.val.toInt32.toUInt32.toNat.isValidChar := value.valid
  unfold Element.charOf
  dsimp only
  rw [if_pos hvalid]
  exact Char.ofNat_toNat value

/-- An integer stands for the constant that it was written for. -/
theorem Scalar.scalar_of_integer? {scalar : Scalar} {type : IntegerType} {integer : Int32}
    (h : scalar.integer? = some (type, integer)) : type.scalar integer = scalar := by
  cases scalar with
  | byte value => cases h; simp [IntegerType.scalar]
  | char value => cases h; simp [IntegerType.scalar, charOf_toInt32]
  | short value => cases h; simp [IntegerType.scalar]
  | int value => cases h; rfl
  | boolean value => cases h; cases value <;> simp [IntegerType.scalar]
  | long _ | float _ | double _ | string _ => cases h

/-- The value of a member of an annotation, whose indices resolve in a constant pool. -/
inductive WrittenValue (pool : Pool)
  | integer (type : IntegerType) (constant : Listed pool .integer)
  | long (constant : Listed pool .long)
  | float (constant : Listed pool .float)
  | double (constant : Listed pool .double)
  | string (text : ListedText pool)
  | enumConstant (type constant : ListedText pool)
  | classLiteral (type : ListedText pool)
  | nested (type : ListedText pool) (members : List (ListedText pool × WrittenValue pool))
  | list (values : List (WrittenValue pool))

namespace WrittenValue

variable {pool : Pool}

mutual

def bytes : WrittenValue pool → List UInt8
  | integer type constant => type.tag :: constant.bytes
  | long constant => 0x4a :: constant.bytes
  | float constant => 0x46 :: constant.bytes
  | double constant => 0x44 :: constant.bytes
  | string text => 0x73 :: text.bytes
  | enumConstant type constant => 0x65 :: (type.bytes ++ constant.bytes)
  | classLiteral type => 0x63 :: type.bytes
  | nested type members =>
      0x40 :: (type.bytes ++ (Writing.u2 (UInt16.ofNat members.length) ++ membersBytes members))
  | list values => 0x5b :: (Writing.u2 (UInt16.ofNat values.length) ++ valuesBytes values)

def valuesBytes : List (WrittenValue pool) → List UInt8
  | [] => []
  | value :: rest => value.bytes ++ valuesBytes rest

def membersBytes : List (ListedText pool × WrittenValue pool) → List UInt8
  | [] => []
  | (name, value) :: rest => name.bytes ++ value.bytes ++ membersBytes rest

end

mutual

/-- Whether the lengths of all lists fit in their words. -/
def Fits : WrittenValue pool → Prop
  | nested _ members => members.length < 2 ^ 16 ∧ MembersFit members
  | list values => values.length < 2 ^ 16 ∧ ValuesFit values
  | _ => True

def ValuesFit : List (WrittenValue pool) → Prop
  | [] => True
  | value :: rest => value.Fits ∧ ValuesFit rest

def MembersFit : List (ListedText pool × WrittenValue pool) → Prop
  | [] => True
  | (_, value) :: rest => value.Fits ∧ MembersFit rest

end

mutual

/-- What a value stands for, if it is not an annotation that `keep` rejects. -/
def wanted? (keep : String → Bool) : WrittenValue pool → Option AnnotValue
  | integer type constant => some (.scalar (type.scalar constant.value))
  | long constant => some (.scalar (.long constant.value))
  | float constant => some (.scalar (.float constant.value))
  | double constant => some (.scalar (.double constant.value))
  | string text => some (.scalar (.string text.value))
  | enumConstant type constant => some (.ofEnum type.value constant.value)
  | classLiteral type => some (.ofClass type.value)
  | nested type members =>
      if keep type.value then
        some (Annot.ofMembers type.value (wantedMembers keep members)).toValue
      else none
  | list values => some (.list (wantedValues keep values))

/-- The values that are wanted. -/
def wantedValues (keep : String → Bool) : List (WrittenValue pool) → List AnnotValue
  | [] => []
  | value :: rest => (value.wanted? keep).toList ++ wantedValues keep rest

/-- The members whose values are wanted. -/
def wantedMembers (keep : String → Bool) :
    List (ListedText pool × WrittenValue pool) → List (String × AnnotValue)
  | [] => []
  | (name, value) :: rest =>
      ((value.wanted? keep).map fun wanted => (name.value, wanted)).toList ++ wantedMembers keep rest

end

end WrittenValue

/-- An annotation, whose indices resolve in a constant pool. -/
structure WrittenAnnot (pool : Pool) where
  type : ListedText pool
  members : List (ListedText pool × WrittenValue pool)

namespace WrittenAnnot

variable {pool : Pool}

def bytes (annot : WrittenAnnot pool) : List UInt8 :=
  annot.type.bytes ++
    (Writing.u2 (UInt16.ofNat annot.members.length) ++ WrittenValue.membersBytes annot.members)

/-- Whether the lengths of all lists fit in their words. -/
def Fits (annot : WrittenAnnot pool) : Prop :=
  annot.members.length < 2 ^ 16 ∧ WrittenValue.MembersFit annot.members

/-- What an annotation stands for, if `keep` accepts its type. -/
def wanted? (keep : String → Bool) (annot : WrittenAnnot pool) : Option Annot :=
  if keep annot.type.value then
    some (.ofMembers annot.type.value (WrittenValue.wantedMembers keep annot.members))
  else none

/-- The body of an attribute with annotations. -/
def listBytes (annots : List (WrittenAnnot pool)) : List UInt8 :=
  Writing.u2 (UInt16.ofNat annots.length) ++ annots.flatMap bytes

end WrittenAnnot

/-! ## What is read -/

open Reading

namespace WrittenValue

variable {pool : Pool} (keep : String → Bool)

theorem valuesBytes_eq (values : List (WrittenValue pool)) :
    valuesBytes values = values.flatMap bytes := by
  induction values with
  | nil => rfl
  | cons value rest ih => rw [valuesBytes, List.flatMap_cons, ih]

theorem membersBytes_eq (members : List (ListedText pool × WrittenValue pool)) :
    membersBytes members = members.flatMap fun member => member.1.bytes ++ member.2.bytes := by
  induction members with
  | nil => rfl
  | cons member rest ih => rw [membersBytes, List.flatMap_cons, ih]

theorem wantedValues_eq (values : List (WrittenValue pool)) :
    wantedValues keep values = (values.map (wanted? keep)).filterMap id := by
  induction values with
  | nil => rfl
  | cons value rest ih =>
      rw [wantedValues, ih, List.map_cons, List.filterMap_cons]
      cases value.wanted? keep <;> rfl

theorem wantedMembers_eq (members : List (ListedText pool × WrittenValue pool)) :
    wantedMembers keep members =
      (members.map fun member => (member.1.value, member.2.wanted? keep)).filterMap
        Element.keepMember := by
  induction members with
  | nil => rfl
  | cons member rest ih =>
      rw [wantedMembers, ih, List.map_cons, List.filterMap_cons]
      cases member.2.wanted? keep <;> rfl

/-- Whether every reader that goes deep enough gives back what was written. -/
def IsReadBack (value : WrittenValue pool) : Prop :=
  ∀ depth, value.bytes.length ≤ depth →
    Reads (Element.value? keep pool depth) value.bytes (value.wanted? keep)

/-- What is read behind a tag, one level down. -/
theorem isReadBack_of_succ {value : WrittenValue pool} (hsome : value.bytes ≠ [])
    (h : ∀ depth, value.bytes.length ≤ depth + 1 →
      Reads (Element.value? keep pool (depth + 1)) value.bytes (value.wanted? keep)) :
    value.IsReadBack keep := by
  intro depth hdepth
  cases depth with
  | zero => exact absurd (List.length_eq_zero_iff.mp (Nat.le_zero.mp hdepth)) hsome
  | succ depth => exact h depth hdepth

theorem isReadBack_integer (type : IntegerType) (constant : Listed pool .integer) :
    (integer type constant).IsReadBack keep := by
  refine isReadBack_of_succ keep (List.cons_ne_nil _ _) fun depth _ => ?_
  cases type <;> exact (reads_u1 _).bind (reads_lookup constant.resolves (reads_pure _))

/-- Constants whose kind decides about their tag. -/
theorem reads_constant {α : Type} {kind : α → Constant} (constant : Listed pool kind) {tag : Char}
    {scalar : Scalar}
    (hscalar : Element.scalarOfConstant tag (kind constant.value) = .ok scalar) :
    Reads (do
      let constant ← ofExcept (pool.get (← u2))
      return some (.scalar (← ofExcept (Element.scalarOfConstant tag constant))))
      constant.bytes (some (AnnotValue.scalar scalar)) :=
  reads_lookup constant.resolves ((reads_ofExcept hscalar).bind (reads_pure _))

theorem isReadBack_long (constant : Listed pool .long) : (long constant).IsReadBack keep :=
  isReadBack_of_succ keep (List.cons_ne_nil _ _) fun _ _ =>
    (reads_u1 _).bind (reads_constant constant rfl)

theorem isReadBack_float (constant : Listed pool .float) : (float constant).IsReadBack keep :=
  isReadBack_of_succ keep (List.cons_ne_nil _ _) fun _ _ =>
    (reads_u1 _).bind (reads_constant constant rfl)

theorem isReadBack_double (constant : Listed pool .double) : (double constant).IsReadBack keep :=
  isReadBack_of_succ keep (List.cons_ne_nil _ _) fun _ _ =>
    (reads_u1 _).bind (reads_constant constant rfl)

theorem isReadBack_string (text : ListedText pool) : (string text).IsReadBack keep :=
  isReadBack_of_succ keep (List.cons_ne_nil _ _) fun _ _ =>
    (reads_u1 _).bind (reads_constant text rfl)

theorem isReadBack_enumConstant (type constant : ListedText pool) :
    (enumConstant type constant).IsReadBack keep :=
  isReadBack_of_succ keep (List.cons_ne_nil _ _) fun _ _ =>
    (reads_u1 _).bind (reads_lookup type.utf8_eq (reads_lookup constant.utf8_eq (reads_pure _)))

theorem isReadBack_classLiteral (type : ListedText pool) : (classLiteral type).IsReadBack keep :=
  isReadBack_of_succ keep (List.cons_ne_nil _ _) fun _ _ =>
    (reads_u1 _).bind (reads_lookup type.utf8_eq (reads_pure _))

end WrittenValue

/-- An annotation whose members are read back is read back, also if it is not wanted. -/
theorem WrittenAnnot.reads {pool : Pool} (keep : String → Bool) (annot : WrittenAnnot pool)
    {value : Reading (Option AnnotValue)} (hcount : annot.members.length < 2 ^ 16)
    (hmembers : ∀ member ∈ annot.members,
      Reads value member.2.bytes (member.2.wanted? keep)) :
    Reads (Element.annot? keep pool value) annot.bytes (annot.wanted? keep) := by
  have hmember : ∀ member ∈ annot.members,
      Reads (do
        let name ← ofExcept (pool.utf8 (← u2))
        return (name, ← value))
        (member.1.bytes ++ member.2.bytes) (member.1.value, member.2.wanted? keep) := by
    intro member hmem
    exact reads_lookup member.1.utf8_eq ((hmembers member hmem).map _)
  have hread := (reads_counted hcount hmember).map fun members =>
    if keep annot.type.value then
      some (Annot.ofMembers annot.type.value (members.filterMap Element.keepMember))
    else none
  rw [← WrittenValue.membersBytes_eq, ← WrittenValue.wantedMembers_eq] at hread
  exact reads_lookup annot.type.utf8_eq hread

namespace WrittenValue

variable {pool : Pool} (keep : String → Bool)

theorem length_le_membersBytes {members : List (ListedText pool × WrittenValue pool)}
    {member : ListedText pool × WrittenValue pool} (h : member ∈ members) :
    member.2.bytes.length ≤ (membersBytes members).length := by
  have hpart : (member.1.bytes ++ member.2.bytes).length ≤ (membersBytes members).length := by
    rw [membersBytes_eq]
    exact Writing.length_le_length_flatMap (fun member => member.1.bytes ++ member.2.bytes) h
  rw [List.length_append] at hpart
  omega

theorem length_le_valuesBytes {values : List (WrittenValue pool)} {value : WrittenValue pool}
    (h : value ∈ values) : value.bytes.length ≤ (valuesBytes values).length := by
  rw [valuesBytes_eq]
  exact Writing.length_le_length_flatMap bytes h

theorem wanted?_nested (type : ListedText pool)
    (members : List (ListedText pool × WrittenValue pool)) :
    (nested type members).wanted? keep =
      ((WrittenAnnot.mk type members).wanted? keep).map Annot.toValue := by
  unfold wanted? WrittenAnnot.wanted?
  split <;> rfl

theorem isReadBack_nested (type : ListedText pool)
    (members : List (ListedText pool × WrittenValue pool)) (hcount : members.length < 2 ^ 16)
    (hmembers : ∀ member ∈ members, member.2.IsReadBack keep) :
    (nested type members).IsReadBack keep := by
  refine isReadBack_of_succ keep (List.cons_ne_nil _ _) fun depth hdepth => ?_
  have hmember : ∀ member ∈ members,
      Reads (Element.value? keep pool depth) member.2.bytes (member.2.wanted? keep) := by
    intro member hmem
    apply hmembers member hmem
    have hpart := length_le_membersBytes hmem
    simp only [bytes, List.length_cons, List.length_append] at hdepth
    omega
  have hannot := WrittenAnnot.reads keep ⟨type, members⟩ hcount hmember
  rw [wanted?_nested]
  exact (reads_u1 _).bind (hannot.map (Option.map Annot.toValue))

theorem isReadBack_list (values : List (WrittenValue pool)) (hcount : values.length < 2 ^ 16)
    (hvalues : ∀ value ∈ values, value.IsReadBack keep) : (list values).IsReadBack keep := by
  refine isReadBack_of_succ keep (List.cons_ne_nil _ _) fun depth hdepth => ?_
  have hvalue : ∀ value ∈ values,
      Reads (Element.value? keep pool depth) value.bytes (value.wanted? keep) := by
    intro value hmem
    apply hvalues value hmem
    have hpart := length_le_valuesBytes hmem
    simp only [bytes, List.length_cons, List.length_append] at hdepth
    omega
  have hread := (reads_counted hcount hvalue).map fun values =>
    some (AnnotValue.list (values.filterMap id))
  rw [← valuesBytes_eq, ← wantedValues_eq] at hread
  exact (reads_u1 _).bind hread

mutual

theorem isReadBack : (value : WrittenValue pool) → value.Fits → value.IsReadBack keep
  | integer type constant, _ => isReadBack_integer keep type constant
  | long constant, _ => isReadBack_long keep constant
  | float constant, _ => isReadBack_float keep constant
  | double constant, _ => isReadBack_double keep constant
  | string text, _ => isReadBack_string keep text
  | enumConstant type constant, _ => isReadBack_enumConstant keep type constant
  | classLiteral type, _ => isReadBack_classLiteral keep type
  | nested type members, hfits =>
      isReadBack_nested keep type members hfits.1 (membersReadBack members hfits.2)
  | list values, hfits => isReadBack_list keep values hfits.1 (valuesReadBack values hfits.2)

theorem valuesReadBack : (values : List (WrittenValue pool)) → ValuesFit values →
    ∀ value ∈ values, value.IsReadBack keep
  | [], _ => nofun
  | value :: rest, hfits =>
      List.forall_mem_cons.mpr ⟨isReadBack value hfits.1, valuesReadBack rest hfits.2⟩

theorem membersReadBack : (members : List (ListedText pool × WrittenValue pool)) →
    MembersFit members → ∀ member ∈ members, member.2.IsReadBack keep
  | [], _ => nofun
  | (_, value) :: rest, hfits =>
      List.forall_mem_cons.mpr ⟨isReadBack value hfits.1, membersReadBack rest hfits.2⟩

end

end WrittenValue

namespace WrittenAnnot

variable {pool : Pool} (keep : String → Bool)

/-- Every annotation of a list is read, and what is behind the list is left. -/
theorem reads_list {annots : List (WrittenAnnot pool)} (hcount : annots.length < 2 ^ 16)
    (hfits : ∀ annot ∈ annots, annot.Fits) {depth : Nat}
    (hdepth : (listBytes annots).length ≤ depth) :
    Reads (counted (Element.annot? keep pool (Element.value? keep pool depth))) (listBytes annots)
      (annots.map (wanted? keep)) := by
  refine reads_counted hcount fun annot hannot => ?_
  refine annot.reads keep (hfits annot hannot).1 fun member hmember => ?_
  apply WrittenValue.membersReadBack keep annot.members (hfits annot hannot).2 member hmember
  have hpart := Writing.length_le_length_flatMap bytes hannot
  have hmemberPart := WrittenValue.length_le_membersBytes hmember
  simp only [bytes, listBytes, List.length_append] at hpart hdepth
  omega

end WrittenAnnot

namespace Element

variable {pool : Pool}

/-- Reading undoes writing but for the annotations that `keep` rejects: none of them is left at any
depth, and what follows one is read as it was written.  A constant is read as what it was written
for, and the last of several members with one name that are left counts. -/
theorem annots_written (keep : String → Bool) (annots : List (WrittenAnnot pool))
    (hcount : annots.length < 2 ^ 16) (hfits : ∀ annot ∈ annots, annot.Fits) :
    Element.annots keep pool (WrittenAnnot.listBytes annots) =
        .ok (annots.filterMap (WrittenAnnot.wanted? keep)) ∧
      (∀ depth, (WrittenAnnot.listBytes annots).length ≤ depth →
        Reads (counted (annot? keep pool (value? keep pool depth)))
          (WrittenAnnot.listBytes annots) (annots.map (WrittenAnnot.wanted? keep))) ∧
      (∀ scalar type integer, Scalar.integer? scalar = some (type, integer) →
        type.scalar integer = scalar) ∧
      ∀ descriptor members,
        Sorted.Collects members (Annot.ofMembers descriptor members).members := by
  have hreads : ∀ depth, (WrittenAnnot.listBytes annots).length ≤ depth →
      Reads (counted (annot? keep pool (value? keep pool depth)))
        (WrittenAnnot.listBytes annots) (annots.map (WrittenAnnot.wanted? keep)) :=
    fun depth hdepth => WrittenAnnot.reads_list keep hcount hfits hdepth
  refine ⟨?_, hreads, fun _ _ _ => Scalar.scalar_of_integer?,
    fun _ members => Sorted.collects_ofList members⟩
  have hbody := ((hreads _ (Nat.le_succ _)).map (List.filterMap id)) [] 0
  rw [List.append_nil] at hbody
  unfold Element.annots runOn Cursor.start
  rw [hbody, List.filterMap_map]
  rfl

/-- Constants of two annotation types, two member names and a number. -/
def samplePool : Pool :=
  ⟨#[.unusable, .utf8 "LKept;", .utf8 "LDropped;", .utf8 "a", .utf8 "b", .integer 65]⟩

/-- Annotations of which some are dropped: as a value of a list, as the last member of a name, and
between two others. -/
def sampleAnnots : List (WrittenAnnot samplePool) :=
  let kept : ListedText samplePool := ⟨1, "LKept;", rfl⟩
  let dropped : ListedText samplePool := ⟨2, "LDropped;", rfl⟩
  let a : ListedText samplePool := ⟨3, "a", rfl⟩
  let b : ListedText samplePool := ⟨4, "b", rfl⟩
  let number : Listed samplePool .integer := ⟨5, 65, rfl⟩
  [⟨kept, [(b, .string a), (a, .list [.integer .char number, .nested dropped [(a, .string b)],
      .integer .int number]), (a, .nested dropped [])]⟩,
    ⟨dropped, [(a, .list [.nested kept []])]⟩,
    ⟨kept, [(b, .integer .byte number), (b, .integer .short number)]⟩]

theorem annots_of_sampleAnnots :
    Element.annots (fun descriptor => descriptor ≠ "LDropped;") samplePool
        (WrittenAnnot.listBytes sampleAnnots) =
      .ok [.ofMembers "LKept;" [("b", .scalar (.string "a")),
          ("a", .list [.scalar (.char 'A'), .scalar (.int 65)])],
        .ofMembers "LKept;" [("b", .scalar (.byte 65)), ("b", .scalar (.short 65))]] :=
  (annots_written _ sampleAnnots (by decide)
    (by simp [sampleAnnots, WrittenAnnot.Fits, WrittenValue.MembersFit, WrittenValue.ValuesFit,
      WrittenValue.Fits])).1.trans rfl

/-- A type, a name, an integer that is half of a surrogate pair, and the replacement character. -/
def surrogatePool : Pool :=
  ⟨#[.unusable, .utf8 "LKept;", .utf8 "a", .integer 0xd800, .integer 0xfffd]⟩

/-- An annotation whose member is a character. -/
def characterAnnot (index : UInt16) : List UInt8 :=
  [0, 1, 0, 1, 0, 1, 0, 2, 0x43] ++ Writing.u2 index

/-- Half of a surrogate pair is read as the replacement character, and cannot be told from it. -/
theorem surrogate_replaced :
    surrogatePool.get 3 = .ok (.integer 0xd800) ∧ surrogatePool.get 4 = .ok (.integer 0xfffd) ∧
      Element.annots (fun _ => true) surrogatePool (characterAnnot 3) =
        .ok [.ofMembers "LKept;" [("a", .scalar (.char Text.replacement))]] ∧
      Element.annots (fun _ => true) surrogatePool (characterAnnot 4) =
        .ok [.ofMembers "LKept;" [("a", .scalar (.char Text.replacement))]] :=
  ⟨rfl, rfl, rfl, rfl⟩

end Element

end ClassFile

end ModCatalog
