import ModCatalog.Proofs.ClassFile.MethodBodies
import ModCatalog.Proofs.ClassFile.TypeNames

/-!
# Class literals

Every load of a class literal is counted as one use of the class, or of the innermost elements of
the arrays, unless these are primitive.  The exception is a class outside all packages whose name is
the letter of a primitive type or of `void`: its literal is taken for that of the primitive type, and
its loads are not counted.
-/

namespace ModCatalog.ClassFile

/-! ## Loads -/

/-- The name that a class constant states. -/
def Loaded.className? {pool : Pool} {index : UInt16} : Loaded pool index → Option String
  | classLiteral _ name _ _ => some name
  | other _ _ _ => none

/-- The name in the class constant that an instruction loads. -/
def Instr.literal? {pool : Pool} : Instr pool → Option String
  | load _ loaded => loaded.className?
  | loadFar _ loaded => loaded.className?
  | _ => none

/-- The names in the class constants that a method loads, in the order of the loads. -/
def MethodCode.literals {pool : Pool} (code : MethodCode pool) : List String :=
  code.bodies.flatMap (List.filterMap Instr.literal?)

section Uses

variable {pool : Pool}

theorem Reference.of_ofClassLiteral? {name : String} {reference : Reference}
    (h : Reference.ofClassLiteral? name = some reference) :
    reference.member = name ++ ".class" ∧ reference.kind = .classRef := by
  unfold Reference.ofClassLiteral? at h
  split at h
  · cases h
  · cases h
    exact ⟨rfl, rfl⟩

theorem Reference.kind_of_ofArgument? {type : String} {reference : Reference}
    (h : Reference.ofArgument? type = some reference) : reference.kind = .parameter := by
  unfold Reference.ofArgument? at h
  split at h
  · cases h
  · split at h
    · cases h
    · cases h
      rfl

theorem Loaded.references_eq {index : UInt16} (loaded : Loaded pool index) :
    loaded.references = (loaded.className?.bind Reference.ofClassLiteral?).toList := by
  cases loaded <;> rfl

namespace Instr

/-- A load uses what it loads. -/
theorem references_of_literal? {instr : Instr pool} {name : String}
    (h : instr.literal? = some name) :
    instr.references = (Reference.ofClassLiteral? name).toList := by
  cases instr with
  | load _ loaded | loadFar _ loaded =>
      have hname : loaded.className? = some name := h
      rw [references, loaded.references_eq, hname, Option.bind_some]
  | _ => cases h

/-- Nothing but a load uses a class literal. -/
theorem not_mem_references_of_literal? {instr : Instr pool} (h : instr.literal? = none)
    {reference : Reference} (hkind : reference.kind = .classRef) :
    reference ∉ instr.references := by
  have hcall : ∀ named : NamedMethod pool, reference ∉
      Reference.ofCall named.method :: named.arguments.filterMap Reference.ofArgument? := by
    intro named hmem
    rcases List.mem_cons.mp hmem with rfl | hmem
    · cases hkind
    · obtain ⟨type, -, htype⟩ := List.mem_filterMap.mp hmem
      cases hkind.symm.trans (Reference.kind_of_ofArgument? htype)
  cases instr with
  | load _ loaded | loadFar _ loaded =>
      have hnone : loaded.className? = none := h
      simp [references, loaded.references_eq, hnone]
  | field opcode _ named =>
      intro hmem
      cases List.mem_singleton.mp hmem
      cases hkind
  | call opcode _ named => exact hcall named
  | interfaceCall named words => exact hcall named
  | _ => exact List.not_mem_nil

end Instr

/-- The uses of a class literal are the loads that use it. -/
theorem count_references {reference : Reference} (hkind : reference.kind = .classRef)
    (code : List (Instr pool)) :
    (code.flatMap Instr.references).count reference =
      ((code.filterMap Instr.literal?).filterMap Reference.ofClassLiteral?).count reference := by
  induction code with
  | nil => rfl
  | cons instr rest ih =>
      rw [List.flatMap_cons, List.count_append, ih]
      cases h : instr.literal? with
      | none =>
          rw [List.filterMap_cons_none h, Nat.add_eq_right]
          exact List.count_eq_zero_of_not_mem (Instr.not_mem_references_of_literal? h hkind)
      | some name =>
          rw [List.filterMap_cons_some h, Instr.references_of_literal? h]
          cases hname : Reference.ofClassLiteral? name with
          | none =>
              rw [List.filterMap_cons_none hname]
              exact Nat.zero_add _
          | some used =>
              rw [List.filterMap_cons_some hname, ← List.count_append]
              rfl

/-- The call of the superclass constructor, which does not count, is no load. -/
theorem filterMap_literal?_counted (superClass : Option String) (inConstructor : Bool)
    (code : List (Instr pool)) :
    (counted superClass inConstructor code).filterMap Instr.literal? =
      code.filterMap Instr.literal? := by
  unfold counted
  split
  · induction code with
    | nil => rfl
    | cons instr rest ih =>
        cases h : instr.isSuperCall superClass with
        | false =>
            rw [List.eraseP_cons_of_neg (by simp [h]), List.filterMap_cons, List.filterMap_cons, ih]
        | true =>
            have hnone : instr.literal? = none := by cases instr <;> first | rfl | cases h
            rw [List.eraseP_cons_of_pos h, List.filterMap_cons_none hnone]
  · rfl

theorem MethodCode.filterMap_literal?_counted (superClass : Option String)
    (code : MethodCode pool) :
    (code.counted superClass).filterMap Instr.literal? = code.literals := by
  unfold counted literals
  rw [List.filterMap_flatMap]
  exact List.flatMap_congr fun body _ => ClassFile.filterMap_literal?_counted _ _ body

/-- Of class literals methods have the uses of those they load. -/
theorem count_counted (superClass : Option String) {reference : Reference}
    (hkind : reference.kind = .classRef) (methods : List (MethodCode pool)) :
    ((methods.flatMap (MethodCode.counted superClass)).flatMap Instr.references).count reference =
      (methods.flatMap MethodCode.literals).countP
        fun name => Reference.ofClassLiteral? name == some reference := by
  have hloaded : (methods.flatMap (MethodCode.counted superClass)).filterMap Instr.literal? =
      methods.flatMap MethodCode.literals := by
    rw [List.filterMap_flatMap]
    exact List.flatMap_congr fun code _ => code.filterMap_literal?_counted superClass
  rw [count_references hkind, hloaded, List.count_filterMap]

/-- The use of a class literal tells the name that was loaded. -/
theorem Reference.ofClassLiteral?_inj {name other : String} {reference : Reference}
    (hmember : reference.member = name ++ ".class")
    (hother : Reference.ofClassLiteral? other = some reference) : other = name := by
  have hsame : other ++ ".class" = name ++ ".class" :=
    (Reference.of_ofClassLiteral? hother).1.symm.trans hmember
  rw [← String.toList_inj, String.toList_append, String.toList_append] at hsame
  exact String.toList_inj.mp (List.append_cancel_right hsame)

theorem countP_ofClassLiteral? {name : String} {reference : Reference}
    (h : Reference.ofClassLiteral? name = some reference) (names : List String) :
    (names.countP fun loaded => Reference.ofClassLiteral? loaded == some reference) =
      names.count name := by
  refine List.countP_congr fun other _ => ?_
  rw [beq_iff_eq, beq_iff_eq]
  constructor
  · exact Reference.ofClassLiteral?_inj (Reference.of_ofClassLiteral? h).1
  · rintro rfl
    exact h

theorem countP_ofClassLiteral?_of_none {name : String} (h : Reference.ofClassLiteral? name = none)
    (owner : String) (names : List String) :
    (names.countP fun loaded =>
      Reference.ofClassLiteral? loaded == some ⟨owner, name ++ ".class", .classRef⟩) = 0 := by
  refine List.countP_eq_zero.mpr fun other _ hother => ?_
  rw [beq_iff_eq] at hother
  rw [Reference.ofClassLiteral?_inj rfl hother, h] at hother
  cases hother

end Uses

/-! ## Counts -/

/-- A class is indexed whatever class literals its methods load, unless one of its uses occurs too
often to be counted.  But for classes whose name is the letter of a primitive type or of `void`, every
load counts as one use: of the loaded class, or of that of the innermost elements of the loaded
arrays.  No use is counted if these are primitive, nor of a class with such a name. -/
theorem index_counts_literals {keep : String → Bool} {file : WrittenClass}
    {superClass : Option String} {methods : List (MethodCode file.pool)}
    (hcode : file.HasCode superClass methods) {bare : ClassRecord}
    (hbare : index ⟨false, keep⟩ file.bytes = .ok (some bare)) :
    ∃ parts, file.HasParts keep parts ∧
      (bare.CanCount (parts.uses methods) → ∃ record,
        index ⟨true, keep⟩ file.bytes = .ok (some record) ∧
        ∀ constant : ClassConstant,
          (constant.text ∉ typeLetters → ∀ literal, constant.literal? = some literal →
            record.uses literal = (methods.flatMap MethodCode.literals).count constant.text) ∧
          (constant.text ∈ typeLetters ∨ constant.literal? = none →
            (∀ owner, record.uses ⟨owner, constant.text ++ ".class", .classRef⟩ = 0) ∧
              ∀ instr : Instr file.pool, instr.literal? = some constant.text →
                instr.references = [])) ∧
      (¬ bare.CanCount (parts.uses methods) →
        index ⟨true, keep⟩ file.bytes = .error .countTooGreat) := by
  obtain ⟨parts, hparts, hcan, hcannot⟩ := hcode.index hbare
  refine ⟨parts, hparts, fun h => ?_, hcannot⟩
  obtain ⟨record, hrecord, huses⟩ := hcan h
  have hloaded : ∀ reference : Reference, reference.kind = .classRef →
      record.uses reference = (methods.flatMap MethodCode.literals).countP
        fun name => Reference.ofClassLiteral? name == some reference := fun reference hkind =>
    (huses reference (by rw [hkind]; decide)).trans (count_counted superClass hkind methods)
  refine ⟨record, hrecord, fun constant => ⟨fun hplain literal hliteral => ?_, fun hnone => ?_⟩⟩
  · have hused : Reference.ofClassLiteral? constant.text = some literal := by
      rw [Reference.ofClassLiteral?_text, if_neg hplain, hliteral]
    rw [hloaded literal (Reference.of_ofClassLiteral? hused).2, countP_ofClassLiteral? hused]
  · have hunused : Reference.ofClassLiteral? constant.text = none := by
      rw [Reference.ofClassLiteral?_text, ite_eq_left_iff]
      exact fun hplain => hnone.resolve_left hplain
    refine ⟨fun owner => ?_, fun instr hinstr => ?_⟩
    · rw [hloaded _ rfl, countP_ofClassLiteral?_of_none hunused]
    · rw [Instr.references_of_literal? hinstr, hunused]
      rfl

/-- A class, arrays of it, arrays of a primitive type, and a class outside all packages. -/
def literalsConstants : List WrittenConstant :=
  [.short "A", .classInfo 1, .short "m", .short "()V", .short "Code", .short "p/C", .classInfo 6,
    .short "[[Lp/C;", .classInfo 8, .short "[I", .classInfo 10, .short "I", .classInfo 12]

def literalsPool : Pool := WrittenConstant.pool literalsConstants

/-- A load of each class constant, and a second one of the first. -/
def literalsCode : List (Instr literalsPool) :=
  [.load 7 (.classLiteral 6 "p/C" (by with_unfolding_all rfl) (by with_unfolding_all rfl)),
    .load 9 (.classLiteral 8 "[[Lp/C;" (by with_unfolding_all rfl) (by with_unfolding_all rfl)),
    .loadFar 7 (.classLiteral 6 "p/C" (by with_unfolding_all rfl) (by with_unfolding_all rfl)),
    .load 11 (.classLiteral 10 "[I" (by with_unfolding_all rfl) (by with_unfolding_all rfl)),
    .load 13 (.classLiteral 12 "I" (by with_unfolding_all rfl) (by with_unfolding_all rfl)),
    .bare 0xb1 Opcode.isBare_return]

def literalsSample : WrittenClass :=
  { WrittenClass.sample with
    poolBytes := WrittenConstant.poolBytes (WrittenConstant.width literalsConstants + 1)
      literalsConstants
    pool := literalsPool
    readsPool := WrittenConstant.reads_read (by decide)
    fields := []
    methods := [⟨1, 3, 4, [⟨5, WrittenAttribute.codeContent 1 1 (layout literalsCode) [0, 0, 0, 0],
      by decide⟩], by decide⟩]
    attributes := []
    fieldsFit := WrittenClass.length_nil_lt
    methodsFit := by decide
    attributesFit := WrittenClass.length_nil_lt }

theorem literalsSample_hasCode :
    literalsSample.HasCode none [⟨false, [literalsCode]⟩] where
  superClass := by with_unfolding_all rfl
  methods := by
    refine .cons ⟨?_, ?_⟩ .nil
    · have hname : literalsSample.pool.utf8 3 = .ok "m" := by with_unfolding_all rfl
      rw [hname]
      decide
    · exact .code (by with_unfolding_all rfl) 1 1 (by simp [literalsCode, FitFrom, Instr.FitsAt])
        [0, 0, 0, 0] (by decide) .nil

/-- The class outside all packages of the sample. -/
def letterName : ClassName := ⟨[], ⟨['I'], by decide, by simp⟩⟩

/-- The parts of the sample. -/
def literalsParts : WrittenClass.Parts :=
  ⟨"A", none, [], [], [⟨"m", "()V", ⟨1⟩, []⟩], []⟩

theorem literalsSample_hasParts (keep : String → Bool) :
    literalsSample.HasParts keep literalsParts where
  name := by with_unfolding_all rfl
  isClass := by decide
  superClass := by with_unfolding_all rfl
  interfaces := rfl
  fields := .nil
  methods := .cons (by with_unfolding_all rfl) .nil
  annots := rfl

theorem index_literalsSample :
    ∃ record, index .standard literalsSample.bytes = .ok (some record) ∧
      record.uses ⟨"p/C", "p/C.class", .classRef⟩ = 2 ∧
      record.uses ⟨"p/C", "[[Lp/C;.class", .classRef⟩ = 1 ∧
      ∀ owner, record.uses ⟨owner, "[I.class", .classRef⟩ = 0 := by
  have hhas := literalsSample_hasParts IndexOptions.keepByDefault
  have hbare : index ⟨false, IndexOptions.keepByDefault⟩ literalsSample.bytes =
      .ok (some (literalsParts.record ⟨0x21⟩)) := by
    rw [WrittenClass.index_bytes]
    exact WrittenClass.indexed_eq_some_iff.mpr ⟨_, hhas, rfl⟩
  obtain ⟨parts, hparts, hcan, -⟩ := index_counts_literals literalsSample_hasCode hbare
  cases hparts.unique hhas
  have hlength : (literalsParts.uses
      [(⟨false, [literalsCode]⟩ : MethodCode literalsPool)]).length = 3 := by with_unfolding_all rfl
  have hfew : 3 ≤ ClassRecord.maxCount := by rw [ClassRecord.maxCount_eq]; decide
  obtain ⟨record, hrecord, huses⟩ :=
    hcan (ClassRecord.canCount_of_length_le rfl (hlength.le.trans hfew))
  refine ⟨record, hrecord, ?_, ?_, ?_⟩
  · exact (huses (.named .sample)).1 (by decide) _ rfl
  · exact (huses (.arrayOf (.array (.classType .sample)))).1 (by decide) _ rfl
  · exact ((huses (.arrayOf (.primitive .int))).2 (.inr rfl)).1

/-- A class literal is loaded and no use is counted. -/
theorem literal_of_letterName_uncounted :
    ∃ record, index .standard literalsSample.bytes = .ok (some record) ∧
      literalsCode[4]?.bind Instr.literal? = some letterName.text ∧
      ClassConstant.literal? (.named letterName) = some ⟨"I", "I.class", .classRef⟩ ∧
      record.uses ⟨"I", "I.class", .classRef⟩ = 0 := by
  refine ⟨⟨"A", ⟨0x21⟩, none, [], [], [], [("m()V", ⟨"m", "()V", ⟨1⟩, []⟩)],
    [(⟨"p/C", "[[Lp/C;.class", .classRef⟩, 1), (⟨"p/C", "p/C.class", .classRef⟩, 2)]⟩,
    ?_, rfl, rfl, rfl⟩
  rw [WrittenClass.index_bytes]
  with_unfolding_all rfl

end ModCatalog.ClassFile
