import ModCatalog.ClassFile.Index
import ModCatalog.Proofs.ClassFile.ConstantPool
import ModCatalog.Proofs.ClassFile.Readers

/-!
# The layout of class files

A class file as the parts it consists of, and what it is indexed as, told part by part without a
cursor.  Indexing the bytes gives just that, values and defects alike, and whatever bytes are indexed
as a class are laid out so.
-/

namespace ModCatalog.ClassFile

open Reading

/-! ## Parts and their bytes -/

/-- An attribute of a declaration. -/
structure WrittenAttribute where
  name : UInt16
  content : List UInt8
  fits : content.length < 2 ^ 32

/-- A declared field or method. -/
structure WrittenMember where
  access : UInt16
  name : UInt16
  descriptor : UInt16
  attributes : List WrittenAttribute
  fits : attributes.length < 2 ^ 16

/-- A class file, whose constant pool can be read, with anything behind it. -/
structure WrittenClass where
  minor : UInt16
  major : UInt16
  poolBytes : List UInt8
  pool : Pool
  readsPool : Reads Pool.read poolBytes pool
  access : UInt16
  name : UInt16
  superClass : UInt16
  interfaces : List UInt16
  fields : List WrittenMember
  methods : List WrittenMember
  attributes : List WrittenAttribute
  trailing : List UInt8
  interfacesFit : interfaces.length < 2 ^ 16
  fieldsFit : fields.length < 2 ^ 16
  methodsFit : methods.length < 2 ^ 16
  attributesFit : attributes.length < 2 ^ 16

section Bytes

open Writing

def WrittenAttribute.bytes (attr : WrittenAttribute) : List UInt8 :=
  u2 attr.name ++ block attr.content

def WrittenAttribute.allBytes (attributes : List WrittenAttribute) : List UInt8 :=
  Writing.counted WrittenAttribute.bytes attributes

def WrittenMember.bytes (member : WrittenMember) : List UInt8 :=
  (u2 member.access ++ (u2 member.name ++ u2 member.descriptor)) ++
    WrittenAttribute.allBytes member.attributes

namespace WrittenClass

/-- What stands in front of the superclass. -/
def openingBytes (file : WrittenClass) : List UInt8 :=
  u4 Index.magicWord ++ ((u2 file.minor ++ u2 file.major) ++
    (file.poolBytes ++ (u2 file.access ++ u2 file.name)))

/-- The superclass and all that follows it. -/
def declarationBytes (file : WrittenClass) : List UInt8 :=
  u2 file.superClass ++ (Writing.counted u2 file.interfaces ++
    (Writing.counted WrittenMember.bytes file.fields ++
      (Writing.counted WrittenMember.bytes file.methods ++
        WrittenAttribute.allBytes file.attributes)))

def bytes (file : WrittenClass) : List UInt8 :=
  file.openingBytes ++ (file.declarationBytes ++ file.trailing)

end WrittenClass

end Bytes

/-! ## What parts are indexed as -/

namespace WrittenAttribute

variable {σ : Type}

/-- Change a state by one attribute. -/
def visit (pool : Pool) (body : String → List UInt8 → σ → Except Defect σ) (state : σ)
    (attr : WrittenAttribute) : Except Defect σ := do
  body (← pool.utf8 attr.name) attr.content state

/-- Change a state by all attributes of a declaration. -/
def visitAll (pool : Pool) (body : String → List UInt8 → σ → Except Defect σ)
    (attributes : List WrittenAttribute) (state : σ) : Except Defect σ :=
  attributes.foldlM (visit pool body) state

theorem visitAll_cons (pool : Pool) (body : String → List UInt8 → σ → Except Defect σ)
    (attr : WrittenAttribute) (rest : List WrittenAttribute) (state : σ) :
    visitAll pool body (attr :: rest) state =
      visit pool body state attr >>= visitAll pool body rest := rfl

end WrittenAttribute

namespace WrittenMember

def head (pool : Pool) (member : WrittenMember) : Except Defect (Access × String × String) := do
  let name ← pool.utf8 member.name
  let descriptor ← pool.utf8 member.descriptor
  return (⟨member.access⟩, name, descriptor)

/-- What a member declares, with its wanted annotations. -/
def info (keep : String → Bool) (pool : Pool) (member : WrittenMember) :
    Except Defect MemberInfo := do
  let (access, name, descriptor) ← member.head pool
  let annots ← WrittenAttribute.visitAll pool (Index.addAnnots keep pool) member.attributes []
  return ⟨name, descriptor, access, annots⟩

def addField (options : IndexOptions) (pool : Pool) (draft : Draft) (member : WrittenMember) :
    Except Defect Draft := do
  draft.addField (← member.info options.keepAnnot pool)

def addMethod (options : IndexOptions) (pool : Pool) (draft : Draft) (member : WrittenMember) :
    Except Defect Draft := do
  let (access, name, descriptor) ← member.head pool
  let (annots, draft) ← WrittenAttribute.visitAll pool (Index.methodAttribute options pool name)
    member.attributes ([], draft)
  draft.addMethod ⟨name, descriptor, access, annots⟩

end WrittenMember

namespace WrittenClass

/-- The record of a class that is known to be one, by its name. -/
def declared (options : IndexOptions) (file : WrittenClass) (name : String) :
    Except Defect ClassRecord := do
  let superClass ← file.pool.optionalClassName file.superClass
  let interfaces ← file.interfaces.mapM file.pool.className
  let draft := Draft.start name ⟨file.access⟩ superClass interfaces options.collectReferences
  let draft ← file.fields.foldlM (WrittenMember.addField options file.pool) draft
  let draft ← file.methods.foldlM (WrittenMember.addMethod options file.pool) draft
  let annots ← WrittenAttribute.visitAll file.pool (Index.addAnnots options.keepAnnot file.pool)
    file.attributes []
  return (← draft.addClassAnnots annots).record

/-- What a class file is indexed as. -/
def indexed (options : IndexOptions) (file : WrittenClass) : Except Defect (Option ClassRecord) := do
  let name ← file.pool.className file.name
  if Index.isDescription ⟨file.access⟩ name then return none
  return some (← file.declared options name)

end WrittenClass

/-! ## The reader in two halves -/

namespace Index

/-- What stands in front of the superclass: the pool, access and name of a class, or nothing if the
file describes a package or a module. -/
def opening : Reading (Option (Pool × Access × String)) := do
  let magic ← u4
  if magic ≠ magicWord then throw (.magic magic)
  skip 4
  let pool ← Pool.read
  let access ← u2
  let name ← ofExcept (pool.className (← u2))
  return if isDescription ⟨access⟩ name then none else some (pool, ⟨access⟩, name)

/-- The record of a class from its superclass on. -/
def declaration (options : IndexOptions) (pool : Pool) (access : Access) (name : String) :
    Reading ClassRecord := do
  let superClass ← ofExcept (pool.optionalClassName (← u2))
  let interfaces ← Reading.counted do ofExcept (pool.className (← u2))
  let draft := Draft.start name access superClass interfaces options.collectReferences
  let draft ← foldCounted (field options pool) draft
  let draft ← foldCounted (method options pool) draft
  let annots ← attributes pool (addAnnots options.keepAnnot pool) []
  let draft ← ofExcept (draft.addClassAnnots annots)
  return draft.record

/-- The second half is read only of a class. -/
def declarationOf (options : IndexOptions) :
    Option (Pool × Access × String) → Reading (Option ClassRecord)
  | none => return none
  | some (pool, access, name) => return some (← declaration options pool access name)

theorem classFile_eq (options : IndexOptions) :
    classFile options = opening >>= declarationOf options := by
  unfold classFile opening
  simp only [bind_assoc]
  refine bind_congr fun magic => ?_
  split
  · -- A bad magic ends both alike.
    rfl
  · simp only [bind_assoc, pure_bind]
    refine bind_congr fun _ => bind_congr fun pool => bind_congr fun access => ?_
    refine bind_congr fun nameIndex => bind_congr fun name => ?_
    split
    · rfl
    · simp only [declarationOf, declaration, bind_assoc, pure_bind]

end Index

/-! ## Reading gives what parts are indexed as -/

theorem WrittenAttribute.answers_visitAll {σ : Type} (pool : Pool)
    (body : String → List UInt8 → σ → Except Defect σ) {attributes : List WrittenAttribute}
    (hfits : attributes.length < 2 ^ 16) (state : σ) :
    Answers (Index.attributes pool body state) (allBytes attributes)
      (visitAll pool body attributes state) :=
  answers_foldCounted hfits (fun attr _ state => answers_lookup fun name =>
    (reads_sizedBlock attr.fits).answers.bind_ofExcept fun content => body name content state) state

namespace WrittenMember

theorem answers_head (pool : Pool) (member : WrittenMember) :
    Answers (Index.memberHead pool)
      (Writing.u2 member.access ++ (Writing.u2 member.name ++ Writing.u2 member.descriptor))
      (member.head pool) := by
  rw [← List.append_nil (Writing.u2 member.descriptor)]
  exact (reads_u2 member.access).bind_answers (answers_lookup fun name =>
    answers_lookup fun descriptor => (reads_pure _).answers)

theorem answers_field (options : IndexOptions) (pool : Pool) (draft : Draft)
    (member : WrittenMember) :
    Answers (Index.field options pool draft) member.bytes (member.addField options pool draft) := by
  unfold addField info
  rw [bind_assoc]
  refine (member.answers_head pool).bind fun head => ?_
  simp only [bind_assoc, pure_bind]
  exact (WrittenAttribute.answers_visitAll pool _ member.fits []).bind_ofExcept _

theorem answers_method (options : IndexOptions) (pool : Pool) (draft : Draft)
    (member : WrittenMember) :
    Answers (Index.method options pool draft) member.bytes (member.addMethod options pool draft) :=
  (member.answers_head pool).bind fun _ =>
    (WrittenAttribute.answers_visitAll pool _ member.fits _).bind_ofExcept _

end WrittenMember

namespace WrittenClass

theorem answers_opening (file : WrittenClass) :
    Answers Index.opening file.openingBytes (do
      let name ← file.pool.className file.name
      return if Index.isDescription ⟨file.access⟩ name then none
        else some (file.pool, ⟨file.access⟩, name)) := by
  have hskip : (Writing.u2 file.minor ++ Writing.u2 file.major).length = 4 := by simp
  unfold openingBytes
  rw [← List.append_nil (Writing.u2 file.name)]
  refine (reads_u4 Index.magicWord).bind_answers ?_
  simp only [ne_eq, not_true_eq_false, if_false]
  refine (reads_skip hskip).bind_answers (file.readsPool.bind_answers ?_)
  exact (reads_u2 file.access).bind_answers (answers_lookup fun name => (reads_pure _).answers)

theorem answers_declaration (options : IndexOptions) (file : WrittenClass) (name : String) :
    Answers (Index.declaration options file.pool ⟨file.access⟩ name) file.declarationBytes
      (file.declared options name) := by
  refine answers_lookup fun superClass => ?_
  refine (answers_counted file.interfacesFit fun interface _ =>
    (reads_u2 interface).answers.bind_ofExcept file.pool.className).bind fun interfaces => ?_
  refine (answers_foldCounted file.fieldsFit (fun member _ draft =>
    member.answers_field options file.pool draft) _).bind fun draft => ?_
  refine (answers_foldCounted file.methodsFit (fun member _ draft =>
    member.answers_method options file.pool draft) _).bind fun draft => ?_
  rw [← List.append_nil (WrittenAttribute.allBytes _)]
  refine (WrittenAttribute.answers_visitAll file.pool _ file.attributesFit []).bind fun annots => ?_
  exact (answers_ofExcept (draft.addClassAnnots annots)).map Draft.record

/-- Indexing the bytes of a class file gives what its parts are indexed as. -/
theorem index_bytes (options : IndexOptions) (file : WrittenClass) :
    index options file.bytes = file.indexed options := by
  rw [index, Index.classFile_eq, bytes, file.answers_opening.runOn_bind, indexed, bind_assoc]
  congr 1
  funext name
  rw [pure_bind]
  split
  · rfl
  · exact ((file.answers_declaration options name).map some).fst_runAt file.trailing _

theorem length_nil_lt {α : Type} : ([] : List α).length < 2 ^ 16 := Nat.two_pow_pos 16

/-- One annotation without members. -/
def sampleAnnots : WrittenAttribute := ⟨8, [0, 1, 0, 9, 0, 0], by decide⟩

def sampleField : WrittenMember := ⟨2, 6, 7, [sampleAnnots], by decide⟩

/-- A class with a field that has an annotation and a method that loads the literal of the class. -/
def sample : WrittenClass :=
  let constants : List WrittenConstant :=
    [.ofText "A" (by decide), .classInfo 1, .ofText "m" (by decide), .ofText "()V" (by decide),
      .ofText "Code" (by decide), .ofText "f" (by decide), .ofText "I" (by decide),
      .ofText "RuntimeVisibleAnnotations" (by decide), .ofText "LB;" (by decide),
      .ofText "Deprecated" (by decide)]
  { minor := 0
    major := 52
    poolBytes := WrittenConstant.poolBytes (WrittenConstant.width constants + 1) constants
    pool := WrittenConstant.pool constants
    readsPool := WrittenConstant.reads_read (by decide)
    access := 0x21
    name := 2
    superClass := 0
    interfaces := []
    fields := [sampleField]
    methods := [⟨1, 3, 4, [⟨5, [0, 1, 0, 1, 0, 0, 0, 3, 0x12, 2, 0xb1, 0, 0, 0, 0], by decide⟩],
      by decide⟩]
    attributes := [⟨10, [], by decide⟩]
    trailing := []
    interfacesFit := by decide
    fieldsFit := by decide
    methodsFit := by decide
    attributesFit := by decide }

def sampleRecord : ClassRecord :=
  ⟨"A", ⟨0x21⟩, none, [], [], [("f", ⟨"f", "I", ⟨2⟩, [⟨"B", []⟩]⟩)],
    [("m()V", ⟨"m", "()V", ⟨1⟩, []⟩)],
    [(⟨"A", "A.class", .classRef⟩, 1), (⟨"B", "@field()", .annotUse⟩, 1)]⟩

theorem index_sample : index .standard sample.bytes = .ok (some sampleRecord) := by
  rw [index_bytes]
  with_unfolding_all rfl

/-! ## What is indexed is laid out -/

end WrittenClass

theorem WrittenAttribute.takes {σ : Type} (pool : Pool)
    (body : String → List UInt8 → σ → Except Defect σ) (state : σ) :
    Takes (do
      let name ← ofExcept (pool.utf8 (← u2))
      let content ← sizedBlock
      ofExcept (body name content state)) fun _ front =>
        ∃ attr : WrittenAttribute, front = attr.bytes := by
  intro cursor found after hrun
  obtain ⟨index, _, hindex, hrun⟩ := runAt_bind_eq_ok.mp hrun
  obtain ⟨name, _, hname, hrun⟩ := runAt_bind_eq_ok.mp hrun
  obtain ⟨content, _, hcontent, hrun⟩ := runAt_bind_eq_ok.mp hrun
  obtain ⟨_, hcursor, rfl⟩ := takes_u2 _ _ _ hindex
  obtain ⟨_, hafterIndex, -, rfl⟩ := takes_ofExcept _ _ _ _ hname
  obtain ⟨_, hafterName, hfits, rfl⟩ := takes_sizedBlock _ _ _ hcontent
  obtain ⟨_, hafterContent, -, rfl⟩ := takes_ofExcept _ _ _ _ hrun
  refine ⟨_, ?_, ⟨index, content, hfits⟩, rfl⟩
  rw [hcursor, hafterIndex, hafterName, hafterContent]
  simp [bytes]

theorem WrittenAttribute.takes_attributes {σ : Type} (pool : Pool)
    (body : String → List UInt8 → σ → Except Defect σ) (state : σ) :
    Takes (Index.attributes pool body state) fun _ front =>
      ∃ attributes : List WrittenAttribute,
        attributes.length < 2 ^ 16 ∧ front = allBytes attributes :=
  takes_foldCounted (WrittenAttribute.takes pool body) state

namespace WrittenMember

theorem takes_head (pool : Pool) :
    Takes (Index.memberHead pool) fun _ front =>
      ∃ access name descriptor : UInt16,
        front = Writing.u2 access ++ (Writing.u2 name ++ Writing.u2 descriptor) := by
  intro cursor head after hrun
  obtain ⟨access, _, haccess, hrun⟩ := runAt_bind_eq_ok.mp hrun
  obtain ⟨nameIndex, _, hnameIndex, hrun⟩ := runAt_bind_eq_ok.mp hrun
  obtain ⟨name, _, hname, hrun⟩ := runAt_bind_eq_ok.mp hrun
  obtain ⟨descriptorIndex, _, hdescriptorIndex, hrun⟩ := runAt_bind_eq_ok.mp hrun
  obtain ⟨descriptor, _, hdescriptor, hrun⟩ := runAt_bind_eq_ok.mp hrun
  obtain ⟨_, hcursor, rfl⟩ := takes_u2 _ _ _ haccess
  obtain ⟨_, hafterAccess, rfl⟩ := takes_u2 _ _ _ hnameIndex
  obtain ⟨_, hafterIndex, -, rfl⟩ := takes_ofExcept _ _ _ _ hname
  obtain ⟨_, hafterName, rfl⟩ := takes_u2 _ _ _ hdescriptorIndex
  obtain ⟨_, hafterDescriptor, -, rfl⟩ := takes_ofExcept _ _ _ _ hdescriptor
  obtain ⟨_, hend, -, rfl⟩ := takes_pure _ _ _ _ hrun
  refine ⟨_, ?_, access, nameIndex, descriptorIndex, rfl⟩
  rw [hcursor, hafterAccess, hafterIndex, hafterName, hafterDescriptor, hend]
  simp

/-- Attributes behind the head of a member, and a last step that takes no bytes. -/
theorem takes_rest {σ : Type} {reading : Access × String × String → Reading σ}
    {next : Access × String × String → σ → Except Defect Draft}
    (h : ∀ head, Takes (reading head) fun _ front => ∃ attributes : List WrittenAttribute,
      attributes.length < 2 ^ 16 ∧ front = WrittenAttribute.allBytes attributes) (pool : Pool) :
    Takes (do
      let head ← Index.memberHead pool
      let state ← reading head
      ofExcept (next head state)) fun _ front =>
        ∃ member : WrittenMember, front = member.bytes := by
  refine (takes_head pool).bind (fun head => (h head).bind_ofExcept (next head)) ?_
  rintro _ _ _ _ ⟨access, name, descriptor, rfl⟩ ⟨attributes, hfits, rfl⟩
  exact ⟨⟨access, name, descriptor, attributes, hfits⟩, rfl⟩

theorem takes_field (options : IndexOptions) (pool : Pool) (draft : Draft) :
    Takes (Index.field options pool draft) fun _ front =>
      ∃ member : WrittenMember, front = member.bytes :=
  takes_rest (fun _ => WrittenAttribute.takes_attributes pool _ []) pool

theorem takes_method (options : IndexOptions) (pool : Pool) (draft : Draft) :
    Takes (Index.method options pool draft) fun _ front =>
      ∃ member : WrittenMember, front = member.bytes :=
  takes_rest (fun _ => WrittenAttribute.takes_attributes pool _ _) pool

end WrittenMember

namespace WrittenClass

/-- Whatever is in front of the superclass of a class is laid out, whatever its pool holds. -/
theorem exists_opening {cursor after : Cursor} {pool : Pool} {access : Access} {name : String}
    (hrun : runAt Index.opening cursor = (.ok (some (pool, access, name)), after)) :
    ∃ minor major nameIndex poolBytes, Reads Pool.read poolBytes pool ∧
      cursor.rest = Writing.u4 Index.magicWord ++ ((Writing.u2 minor ++ Writing.u2 major) ++
        (poolBytes ++ (Writing.u2 access.flags ++ Writing.u2 nameIndex))) ++ after.rest := by
  obtain ⟨magic, _, hmagic, hrun⟩ := runAt_bind_eq_ok.mp hrun
  obtain ⟨_, hcursor, rfl⟩ := takes_u4 _ _ _ hmagic
  dsimp only at hrun
  split at hrun
  · obtain ⟨_, _, hthrow, -⟩ := runAt_bind_eq_ok.mp hrun
    rw [runAt_throw] at hthrow
    cases hthrow
  · next hword =>
      obtain ⟨_, _, hskip, hrun⟩ := runAt_bind_eq_ok.mp hrun
      obtain ⟨read, _, hpool, hrun⟩ := runAt_bind_eq_ok.mp hrun
      obtain ⟨flags, _, hflags, hrun⟩ := runAt_bind_eq_ok.mp hrun
      obtain ⟨nameIndex, _, hindex, hrun⟩ := runAt_bind_eq_ok.mp hrun
      obtain ⟨found, _, hname, hrun⟩ := runAt_bind_eq_ok.mp hrun
      obtain ⟨_, hafterMagic, minor, major, rfl⟩ := takes_skip_four _ _ _ hskip
      obtain ⟨poolBytes, hafterVersion, hreads⟩ := Pool.rereads_read _ _ _ hpool
      obtain ⟨_, hafterPool, rfl⟩ := takes_u2 _ _ _ hflags
      obtain ⟨_, hafterFlags, rfl⟩ := takes_u2 _ _ _ hindex
      obtain ⟨_, hafterIndex, -, rfl⟩ := takes_ofExcept _ _ _ _ hname
      obtain ⟨_, hend, hopened, rfl⟩ := takes_pure _ _ _ _ hrun
      split at hopened
      · cases hopened
      · cases hopened
        refine ⟨minor, major, nameIndex, poolBytes, hreads, ?_⟩
        rw [not_not.mp hword] at hcursor
        rw [hcursor, hafterMagic, hafterVersion, hafterPool, hafterFlags, hafterIndex, hend]
        simp

/-- Whatever follows the name of a class is laid out. -/
theorem takes_declaration (options : IndexOptions) (pool : Pool) (access : Access) (name : String) :
    Takes (Index.declaration options pool access name) fun _ front =>
      ∃ (superClass : UInt16) (interfaces : List UInt16) (fields methods : List WrittenMember)
        (attributes : List WrittenAttribute),
        interfaces.length < 2 ^ 16 ∧ fields.length < 2 ^ 16 ∧ methods.length < 2 ^ 16 ∧
        attributes.length < 2 ^ 16 ∧
        front = Writing.u2 superClass ++ (Writing.counted Writing.u2 interfaces ++
          (Writing.counted WrittenMember.bytes fields ++
            (Writing.counted WrittenMember.bytes methods ++
              WrittenAttribute.allBytes attributes))) := by
  intro cursor record after hrun
  obtain ⟨superIndex, _, hindex, hrun⟩ := runAt_bind_eq_ok.mp hrun
  obtain ⟨superClass, _, hsuper, hrun⟩ := runAt_bind_eq_ok.mp hrun
  obtain ⟨_, _, hinterfaces, hrun⟩ := runAt_bind_eq_ok.mp hrun
  obtain ⟨_, _, hfields, hrun⟩ := runAt_bind_eq_ok.mp hrun
  obtain ⟨_, _, hmethods, hrun⟩ := runAt_bind_eq_ok.mp hrun
  obtain ⟨_, _, hattributes, hrun⟩ := runAt_bind_eq_ok.mp hrun
  obtain ⟨_, _, hadded, hrun⟩ := runAt_bind_eq_ok.mp hrun
  obtain ⟨_, hcursor, rfl⟩ := takes_u2 _ _ _ hindex
  obtain ⟨_, hafterIndex, -, rfl⟩ := takes_ofExcept _ _ _ _ hsuper
  obtain ⟨_, hafterSuper, interfaces, hinterfacesFit, rfl⟩ :=
    takes_counted (takes_lookup pool.className) _ _ _ hinterfaces
  obtain ⟨_, hafterInterfaces, fields, hfieldsFit, rfl⟩ :=
    takes_foldCounted (WrittenMember.takes_field options pool) _ _ _ _ hfields
  obtain ⟨_, hafterFields, methods, hmethodsFit, rfl⟩ :=
    takes_foldCounted (WrittenMember.takes_method options pool) _ _ _ _ hmethods
  obtain ⟨_, hafterMethods, attributes, hattributesFit, rfl⟩ :=
    WrittenAttribute.takes_attributes pool _ _ _ _ _ hattributes
  obtain ⟨_, hafterAttributes, -, rfl⟩ := takes_ofExcept _ _ _ _ hadded
  obtain ⟨_, hend, -, rfl⟩ := takes_pure _ _ _ _ hrun
  refine ⟨_, ?_, superIndex, interfaces, fields, methods, attributes, hinterfacesFit, hfieldsFit,
    hmethodsFit, hattributesFit, rfl⟩
  rw [hcursor, hafterIndex, hafterSuper, hafterInterfaces, hafterFields, hafterMethods,
    hafterAttributes, hend]
  simp

/-- Bytes that are indexed as a class are those of a class file. -/
theorem exists_of_index {options : IndexOptions} {bytes : List UInt8} {record : ClassRecord}
    (h : index options bytes = .ok (some record)) : ∃ file : WrittenClass, file.bytes = bytes := by
  obtain ⟨after, hrun⟩ : ∃ after, runAt (Index.classFile options) (Cursor.start bytes) =
      (.ok (some record), after) := ⟨_, Prod.ext h rfl⟩
  rw [Index.classFile_eq] at hrun
  obtain ⟨opened, between, hopening, hrun⟩ := runAt_bind_eq_ok.mp hrun
  cases opened with
  | none => cases hrun
  | some opened =>
      obtain ⟨pool, access, name⟩ := opened
      obtain ⟨declared, behind, hdeclaration, hrun⟩ := runAt_bind_eq_ok.mp hrun
      obtain ⟨minor, major, nameIndex, poolBytes, hreads, hcursor⟩ := exists_opening hopening
      obtain ⟨_, hbetween, superClass, interfaces, fields, methods, attributes, hinterfaces, hfields,
        hmethods, hattributes, rfl⟩ := takes_declaration options pool access name _ _ _ hdeclaration
      refine ⟨⟨minor, major, poolBytes, pool, hreads, access.flags, nameIndex, superClass, interfaces,
        fields, methods, attributes, behind.rest, hinterfaces, hfields, hmethods, hattributes⟩, ?_⟩
      rw [hbetween] at hcursor
      exact hcursor.symm

end WrittenClass

end ModCatalog.ClassFile
