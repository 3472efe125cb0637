import ModCatalog.ClassFile.Descriptor

/-!
# The grammar of descriptors

A field type is read off a text exactly if the text begins with it, so a text can be cut into field
types in one way at most.  A method descriptor has arguments exactly if it opens a parenthesis, holds
field types without a closing parenthesis, closes the parenthesis, and goes on with anything.
-/

namespace ModCatalog.ClassFile.Descriptor

/-- The letters that stand for primitive types. -/
def primitiveLetters : List Char := ['B', 'C', 'D', 'F', 'I', 'J', 'S', 'Z']

/-- The grammar of field types; the name of a class is any text without a semicolon. -/
inductive IsFieldType : List Char → Prop
  | primitive {letter : Char} (h : letter ∈ primitiveLetters) : IsFieldType [letter]
  | classType {name : List Char} (h : ';' ∉ name) : IsFieldType ('L' :: (name ++ [';']))
  | array {type : List Char} (h : IsFieldType type) : IsFieldType ('[' :: type)

/-- The grammar of method descriptors with their arguments; whatever is behind the parentheses is
left alone. -/
def HasArguments (descriptor : String) (arguments : List String) : Prop :=
  (∀ argument ∈ arguments, IsFieldType argument.toList ∧ ')' ∉ argument.toList) ∧
    ∃ result : String, descriptor = "(" ++ String.join arguments ++ ")" ++ result

/-! ## One field type -/

theorem isPrimitive_iff {letter : Char} : isPrimitive letter = true ↔ letter ∈ primitiveLetters := by
  simp [isPrimitive, primitiveLetters, or_assoc]

/-- A field type in front of a text is read, whatever follows it. -/
theorem IsFieldType.fieldType?_append {type : List Char} (h : IsFieldType type)
    (rest : List Char) : fieldType? (type ++ rest) = some (type, rest) := by
  induction h with
  | primitive h =>
      have hopen : ¬ '[' ∈ primitiveLetters := by decide
      rw [List.singleton_append, fieldType?, if_pos (isPrimitive_iff.mpr h)]
      rintro rfl
      exact hopen h
  | @classType name h =>
      have hname : ∀ c ∈ name, decide (c = ';') = false := fun c hc =>
        decide_eq_false fun hsame => h (hsame ▸ hc)
      have hsplit : Text.splitFirst? (· = ';') (name ++ ';' :: rest) = some (name, rest) :=
        Text.splitFirst?_eq_some_iff.mpr ⟨';', rfl, hname, rfl⟩
      rw [List.cons_append, List.append_assoc, List.singleton_append, fieldType?, hsplit]
      · rfl
      · nofun
  | array _ ih => rw [List.cons_append, fieldType?, ih, Option.map_some]

/-- What is read off a text is a field type in front of it. -/
theorem isFieldType_of_fieldType? {text type rest : List Char}
    (h : fieldType? text = some (type, rest)) : IsFieldType type ∧ text = type ++ rest := by
  fun_induction fieldType? text generalizing type with
  | case1 => cases h
  | case2 tail ih =>
      obtain ⟨⟨inner, behind⟩, hinner, hsame⟩ := Option.map_eq_some_iff.mp h
      cases hsame
      obtain ⟨htype, rfl⟩ := ih hinner
      exact ⟨.array htype, rfl⟩
  | case3 letter tail _ hprimitive =>
      cases h
      exact ⟨.primitive (isPrimitive_iff.mp hprimitive), rfl⟩
  | case4 tail =>
      obtain ⟨⟨name, behind⟩, hsplit, hsame⟩ := Option.map_eq_some_iff.mp h
      cases hsame
      obtain ⟨c, hc, hname, rfl⟩ := Text.splitFirst?_eq_some_iff.mp hsplit
      cases of_decide_eq_true hc
      exact ⟨.classType fun hmem => by simpa using hname _ hmem, by simp⟩
  | case5 => cases h

/-! ## Several field types -/

/-- One step of the cut. -/
theorem fieldTypes?_of_fieldType? {text type rest : List Char}
    (h : fieldType? text = some (type, rest)) :
    fieldTypes? text = (fieldTypes? rest).map (type :: ·) := by
  cases text with
  | nil => cases h
  | cons c tail =>
      rw [fieldTypes?]
      split
      · next hnone => cases hnone.symm.trans h
      · next hsome => cases hsome.symm.trans h; rfl

/-- A text is cut into field types whose concatenation it is. -/
theorem fieldTypes?_eq_some_iff {text : List Char} {types : List (List Char)} :
    fieldTypes? text = some types ↔ (∀ type ∈ types, IsFieldType type) ∧ text = types.flatten := by
  constructor
  · intro h
    fun_induction fieldTypes? text generalizing types with
    | case1 => cases h; exact ⟨nofun, rfl⟩
    | case2 => cases h
    | case3 c tail type rest hread _ ih =>
        obtain ⟨others, hothers, rfl⟩ := Option.map_eq_some_iff.mp h
        obtain ⟨htype, htext⟩ := isFieldType_of_fieldType? hread
        obtain ⟨hrest, rfl⟩ := ih hothers
        exact ⟨List.forall_mem_cons.mpr ⟨htype, hrest⟩, htext⟩
  · rintro ⟨htypes, rfl⟩
    induction types with
    | nil => rw [List.flatten_nil, fieldTypes?]
    | cons type rest ih =>
        obtain ⟨htype, hrest⟩ := List.forall_mem_cons.mp htypes
        rw [List.flatten_cons, fieldTypes?_of_fieldType? (htype.fieldType?_append _), ih hrest,
          Option.map_some]

/-- The arguments are what stands in front of the first closing parenthesis. -/
theorem argumentTypes?_eq_some_iff {text : List Char} {types : List (List Char)} :
    argumentTypes? text = some types ↔
      (∀ type ∈ types, IsFieldType type ∧ ')' ∉ type) ∧
        ∃ result, text = '(' :: (types.flatten ++ ')' :: result) := by
  constructor
  · intro h
    unfold argumentTypes? at h
    split at h
    · next rest =>
        split at h
        · next arguments result hsplit =>
            obtain ⟨c, hc, hclosed, rfl⟩ := Text.splitFirst?_eq_some_iff.mp hsplit
            cases of_decide_eq_true hc
            obtain ⟨htypes, rfl⟩ := fieldTypes?_eq_some_iff.mp h
            refine ⟨fun type htype => ⟨htypes type htype, fun hmem => ?_⟩, result, rfl⟩
            exact of_decide_eq_false (hclosed ')' (List.mem_flatten.mpr ⟨type, htype, hmem⟩)) rfl
        · cases h
    · cases h
  · rintro ⟨htypes, result, rfl⟩
    have hclosed : ∀ c ∈ types.flatten, decide (c = ')') = false := by
      intro c hc
      obtain ⟨type, htype, hmem⟩ := List.mem_flatten.mp hc
      exact decide_eq_false fun hsame => (htypes type htype).2 (hsame ▸ hmem)
    have hsplit : Text.splitFirst? (· = ')') (types.flatten ++ ')' :: result) =
        some (types.flatten, result) :=
      Text.splitFirst?_eq_some_iff.mpr ⟨')', rfl, hclosed, rfl⟩
    rw [argumentTypes?, hsplit]
    exact fieldTypes?_eq_some_iff.mpr ⟨fun type htype => (htypes type htype).1, rfl⟩

/-! ## Method descriptors -/

theorem hasArguments_iff {descriptor : String} {arguments : List String} :
    HasArguments descriptor arguments ↔
      argumentTypes? descriptor.toList = some (arguments.map String.toList) := by
  have htext : ∀ result : String, ("(" ++ String.join arguments ++ ")" ++ result).toList =
      '(' :: ((arguments.map String.toList).flatten ++ ')' :: result.toList) := by
    intro result
    simp [String.toList_join, List.flatMap_def]
  rw [argumentTypes?_eq_some_iff, List.forall_mem_map]
  refine and_congr_right fun _ => ?_
  constructor
  · rintro ⟨result, rfl⟩
    exact ⟨result.toList, htext result⟩
  · rintro ⟨result, h⟩
    refine ⟨String.ofList result, ?_⟩
    rw [← String.toList_inj, htext, String.toList_ofList, h]

/-- The arguments of a method descriptor are those of the grammar. -/
theorem methodArguments_eq_ok_iff {descriptor : String} {arguments : List String} :
    methodArguments descriptor = .ok arguments ↔ HasArguments descriptor arguments := by
  rw [hasArguments_iff]
  unfold methodArguments
  split
  · next types htypes =>
      rw [htypes]
      constructor
      · intro h
        cases h
        simp [List.map_map, Function.comp_def]
      · intro h
        cases h
        simp [List.map_map, Function.comp_def]
  · next hnone =>
      rw [hnone]
      exact ⟨nofun, nofun⟩

theorem IsFieldType.length_pos {type : List Char} (h : IsFieldType type) : 0 < type.length := by
  cases h <;> exact Nat.succ_pos _

theorem length_le_flatten {types : List (List Char)} (h : ∀ type ∈ types, IsFieldType type) :
    types.length ≤ types.flatten.length := by
  induction types with
  | nil => exact Nat.le_refl 0
  | cons type rest ih =>
      obtain ⟨htype, hrest⟩ := List.forall_mem_cons.mp h
      have hpos := htype.length_pos
      have hlater := ih hrest
      rw [List.flatten_cons, List.length_append, List.length_cons]
      omega

/-- Every argument takes at least one character, and so do the parentheses. -/
theorem length_lt_of_methodArguments {descriptor : String} {arguments : List String}
    (h : methodArguments descriptor = .ok arguments) : arguments.length < descriptor.length := by
  obtain ⟨htypes, result, htext⟩ :=
    argumentTypes?_eq_some_iff.mp (hasArguments_iff.mp (methodArguments_eq_ok_iff.mp h))
  have hcount := length_le_flatten fun type htype => (htypes type htype).1
  rw [List.length_map] at hcount
  rw [← String.length_toList, htext, List.length_cons, List.length_append]
  omega

/-- The only defect of a method descriptor is that it is none. -/
theorem methodArguments_of_forall_not {descriptor : String}
    (h : ∀ arguments, ¬ HasArguments descriptor arguments) :
    methodArguments descriptor = .error (.methodDescriptor descriptor) := by
  cases hread : methodArguments descriptor with
  | ok arguments => exact absurd (methodArguments_eq_ok_iff.mp hread) (h arguments)
  | error defect =>
      unfold methodArguments at hread
      split at hread
      · cases hread
      · cases hread
        rfl

/-- A method descriptor has arguments exactly if it is one by the grammar, and then they are those of
the grammar, which gives it no others.  Every other text is refused as no method descriptor. -/
theorem methodArguments_grammar (descriptor : String) :
    (∀ arguments, methodArguments descriptor = .ok arguments ↔
        HasArguments descriptor arguments) ∧
      (∀ arguments others, HasArguments descriptor arguments → HasArguments descriptor others →
        arguments = others) ∧
      ((¬ ∃ arguments, HasArguments descriptor arguments) →
        methodArguments descriptor = .error (.methodDescriptor descriptor)) := by
  refine ⟨fun arguments => methodArguments_eq_ok_iff, fun arguments others hfirst hsecond => ?_,
    fun hnone => methodArguments_of_forall_not (not_exists.mp hnone)⟩
  rw [← methodArguments_eq_ok_iff] at hfirst hsecond
  exact Except.ok.inj (hfirst.symm.trans hsecond)

/-- A class name may hold any character but a semicolon, and a closing parenthesis ends the
arguments wherever it stands. -/
theorem methodArguments_samples :
    HasArguments "([La(b;J)V" ["[La(b;", "J"] ∧
      methodArguments "([La(b;J)V" = .ok ["[La(b;", "J"] ∧
      (¬ ∃ arguments, HasArguments "(La)b;)V" arguments) ∧
      methodArguments "(La)b;)V" = .error (.methodDescriptor "(La)b;)V") := by
  have hread : methodArguments "([La(b;J)V" = .ok ["[La(b;", "J"] := by cbv
  have hrefused : methodArguments "(La)b;)V" = .error (.methodDescriptor "(La)b;)V") := by cbv
  obtain ⟨haccepts, -, -⟩ := methodArguments_grammar "([La(b;J)V"
  obtain ⟨hnone, -, herror⟩ := methodArguments_grammar "(La)b;)V"
  have hnot : ¬ ∃ arguments, HasArguments "(La)b;)V" arguments := by
    rintro ⟨arguments, h⟩
    cases hrefused.symm.trans ((hnone arguments).mpr h)
  exact ⟨(haccepts _).mp hread, hread, hnot, herror hnot⟩

end ModCatalog.ClassFile.Descriptor
