import ModCatalog.Proofs.ClassFile.Annotations
import ModCatalog.Proofs.ClassFile.References
import ModCatalog.Proofs.ClassFile.Unread

/-!
# Reordered annotations

The members of annotations may be written in any order.  As long as no annotation has two members of
one name, an annotation whose members are written in another order, at every depth, is read as the
same annotation; so it has the same texts, and its class file is indexed as before.
-/

namespace ModCatalog

namespace ClassFile

/-! ## Orders of members -/

namespace WrittenValue

variable {pool other : Pool}

mutual

/-- Whether no annotation has two members of one name, at any depth. -/
def Distinct : WrittenValue pool → Prop
  | nested _ members => (members.map fun member => member.1.value).Nodup ∧ MembersDistinct members
  | list values => ValuesDistinct values
  | _ => True

def ValuesDistinct : List (WrittenValue pool) → Prop
  | [] => True
  | value :: rest => value.Distinct ∧ ValuesDistinct rest

def MembersDistinct : List (ListedText pool × WrittenValue pool) → Prop
  | [] => True
  | (_, value) :: rest => value.Distinct ∧ MembersDistinct rest

end

mutual

/-- Whether a value is another with the members of its annotations in another order, at every depth;
each may have its constants in a pool of its own. -/
inductive Reordered : WrittenValue pool → WrittenValue other → Prop
  | integer (type : IntegerType) {constant : Listed pool .integer} {found : Listed other .integer}
      (h : found.value = constant.value) : Reordered (integer type constant) (integer type found)
  | long {constant : Listed pool .long} {found : Listed other .long}
      (h : found.value = constant.value) : Reordered (long constant) (long found)
  | float {constant : Listed pool .float} {found : Listed other .float}
      (h : found.value = constant.value) : Reordered (float constant) (float found)
  | double {constant : Listed pool .double} {found : Listed other .double}
      (h : found.value = constant.value) : Reordered (double constant) (double found)
  | string {text : ListedText pool} {found : ListedText other} (h : found.value = text.value) :
      Reordered (string text) (string found)
  | enumConstant {type constant : ListedText pool} {foundType found : ListedText other}
      (htype : foundType.value = type.value) (h : found.value = constant.value) :
      Reordered (enumConstant type constant) (enumConstant foundType found)
  | classLiteral {type : ListedText pool} {found : ListedText other} (h : found.value = type.value) :
      Reordered (classLiteral type) (classLiteral found)
  | nested {type : ListedText pool} {found : ListedText other} (h : found.value = type.value)
      {members : List (ListedText pool × WrittenValue pool)}
      {order others : List (ListedText other × WrittenValue other)}
      (inside : MembersReordered members order) (perm : order.Perm others) :
      Reordered (nested type members) (nested found others)
  | list {values : List (WrittenValue pool)} {others : List (WrittenValue other)}
      (inside : ValuesReordered values others) : Reordered (list values) (list others)

/-- Values in one order, each of them reordered. -/
inductive ValuesReordered : List (WrittenValue pool) → List (WrittenValue other) → Prop
  | nil : ValuesReordered [] []
  | cons {value : WrittenValue pool} {found : WrittenValue other} (h : Reordered value found)
      {values : List (WrittenValue pool)} {others : List (WrittenValue other)}
      (rest : ValuesReordered values others) : ValuesReordered (value :: values) (found :: others)

/-- Members in one order, each of them reordered. -/
inductive MembersReordered : List (ListedText pool × WrittenValue pool) →
    List (ListedText other × WrittenValue other) → Prop
  | nil : MembersReordered [] []
  | cons {name : ListedText pool} {foundName : ListedText other}
      (hname : foundName.value = name.value) {value : WrittenValue pool} {found : WrittenValue other}
      (h : Reordered value found) {members : List (ListedText pool × WrittenValue pool)}
      {others : List (ListedText other × WrittenValue other)}
      (rest : MembersReordered members others) :
      MembersReordered ((name, value) :: members) ((foundName, found) :: others)

end

end WrittenValue

namespace WrittenAnnot

variable {pool other : Pool}

/-- An annotation as the value of a member. -/
def toValue (annot : WrittenAnnot pool) : WrittenValue pool := .nested annot.type annot.members

/-- Whether an annotation without two members of one name, at any depth, is another with its members
in another order, at every depth. -/
structure Reordered (annot : WrittenAnnot pool) (changed : WrittenAnnot other) : Prop where
  fits : annot.Fits
  distinct : annot.toValue.Distinct
  value : annot.toValue.Reordered changed.toValue

end WrittenAnnot

/-- Whether lists of attributes are the same but for the order of the members of annotations. -/
inductive WrittenAttribute.Reordered (pool : Pool) :
    List WrittenAttribute → List WrittenAttribute → Prop
  | nil : Reordered pool [] []
  | same (attr : WrittenAttribute) {before after : List WrittenAttribute}
      (rest : Reordered pool before after) : Reordered pool (attr :: before) (attr :: after)
  | annots {name : UInt16} (isAnnots : pool.utf8 name = .ok Index.annotAttribute)
      {annots others : List (WrittenAnnot pool)} (count : annots.length < 2 ^ 16)
      (h : List.Forall₂ WrittenAnnot.Reordered annots others)
      (fits : (WrittenAnnot.listBytes annots).length < 2 ^ 32)
      (otherFits : (WrittenAnnot.listBytes others).length < 2 ^ 32)
      {before after : List WrittenAttribute} (rest : Reordered pool before after) :
      Reordered pool (⟨name, WrittenAnnot.listBytes annots, fits⟩ :: before)
        (⟨name, WrittenAnnot.listBytes others, otherFits⟩ :: after)

/-- Whether two members declare the same but for the order of the members of annotations. -/
structure WrittenMember.Reordered (pool : Pool) (member changed : WrittenMember) : Prop where
  access : changed.access = member.access
  name : changed.name = member.name
  descriptor : changed.descriptor = member.descriptor
  attributes : WrittenAttribute.Reordered pool member.attributes changed.attributes

/-- Whether two class files are the same but for the order of the members of annotations. -/
structure WrittenClass.Reordered (file changed : WrittenClass) : Prop where
  pool : changed.pool = file.pool
  access : changed.access = file.access
  name : changed.name = file.name
  superClass : changed.superClass = file.superClass
  interfaces : changed.interfaces = file.interfaces
  fields : List.Forall₂ (WrittenMember.Reordered file.pool) file.fields changed.fields
  methods : List.Forall₂ (WrittenMember.Reordered file.pool) file.methods changed.methods
  attributes : WrittenAttribute.Reordered file.pool file.attributes changed.attributes

/-! ## The same is read -/

namespace WrittenValue

variable {pool other : Pool}

theorem membersFit_iff {members : List (ListedText pool × WrittenValue pool)} :
    MembersFit members ↔ ∀ member ∈ members, member.2.Fits := by
  induction members with
  | nil => simp [MembersFit]
  | cons member rest ih => simp [MembersFit, ih]

theorem names_wantedMembers_sublist (keep : String → Bool)
    (members : List (ListedText pool × WrittenValue pool)) :
    ((wantedMembers keep members).map Prod.fst).Sublist
      (members.map fun member => member.1.value) := by
  induction members with
  | nil => exact .slnil
  | cons member rest ih =>
      obtain ⟨name, value⟩ := member
      rw [wantedMembers, List.map_append]
      cases value.wanted? keep with
      | none => exact ih.cons _
      | some wanted => exact ih.cons_cons _

/-- The order of the members of an annotation does not matter. -/
theorem ofMembers_of_perm (keep : String → Bool) (descriptor : String)
    {order others : List (ListedText pool × WrittenValue pool)} (h : order.Perm others)
    (hnames : (order.map fun member => member.1.value).Nodup) :
    Annot.ofMembers descriptor (wantedMembers keep others) =
      Annot.ofMembers descriptor (wantedMembers keep order) := by
  have hperm : (wantedMembers keep order).Perm (wantedMembers keep others) := by
    rw [wantedMembers_eq, wantedMembers_eq]
    exact (h.map _).filterMap _
  unfold Annot.ofMembers
  rw [Sorted.ofList_of_perm hperm (hnames.sublist (names_wantedMembers_sublist keep order))]

theorem MembersReordered.names {members : List (ListedText pool × WrittenValue pool)}
    {others : List (ListedText other × WrittenValue other)} (h : MembersReordered members others) :
    others.map (fun member => member.1.value) = members.map fun member => member.1.value :=
  match h with
  | .nil => rfl
  | .cons hname _ rest => congr (congrArg List.cons hname) rest.names

mutual

theorem Reordered.fits {value : WrittenValue pool} {changed : WrittenValue other}
    (h : Reordered value changed) (hfits : value.Fits) : changed.Fits :=
  match h with
  | .integer .. | .long _ | .float _ | .double _ | .string _ | .enumConstant .. | .classLiteral _ =>
      trivial
  | .nested _ inside perm => by
      obtain ⟨hcount, hinside⟩ := inside.fits hfits.2
      refine ⟨?_, membersFit_iff.mpr fun member hmember => ?_⟩
      · rw [← perm.length_eq, hcount]
        exact hfits.1
      · exact membersFit_iff.mp hinside member (perm.mem_iff.mpr hmember)
  | .list inside => by
      obtain ⟨hcount, hinside⟩ := inside.fits hfits.2
      refine ⟨?_, hinside⟩
      rw [hcount]
      exact hfits.1

theorem ValuesReordered.fits {values : List (WrittenValue pool)} {others : List (WrittenValue other)}
    (h : ValuesReordered values others) (hfits : ValuesFit values) :
    others.length = values.length ∧ ValuesFit others :=
  match h with
  | .nil => ⟨rfl, trivial⟩
  | .cons first rest =>
      have hrest := rest.fits hfits.2
      ⟨congrArg Nat.succ hrest.1, first.fits hfits.1, hrest.2⟩

theorem MembersReordered.fits {members : List (ListedText pool × WrittenValue pool)}
    {others : List (ListedText other × WrittenValue other)} (h : MembersReordered members others)
    (hfits : MembersFit members) : others.length = members.length ∧ MembersFit others :=
  match h with
  | .nil => ⟨rfl, trivial⟩
  | .cons _ first rest =>
      have hrest := rest.fits hfits.2
      ⟨congrArg Nat.succ hrest.1, first.fits hfits.1, hrest.2⟩

end

mutual

theorem Reordered.wanted? (keep : String → Bool) {value : WrittenValue pool}
    {changed : WrittenValue other} (h : Reordered value changed) (hdistinct : value.Distinct) :
    changed.wanted? keep = value.wanted? keep :=
  match h with
  | .integer _ h | .long h | .float h | .double h | .string h | .classLiteral h => by
      simp only [WrittenValue.wanted?, h]
  | .enumConstant htype h => by simp only [WrittenValue.wanted?, htype, h]
  | .nested htype inside perm => by
      have hnames := hdistinct.1
      rw [← inside.names] at hnames
      simp only [WrittenValue.wanted?, htype, ofMembers_of_perm keep _ perm hnames,
        inside.wantedMembers keep hdistinct.2]
  | .list inside => by
      simp only [WrittenValue.wanted?, inside.wantedValues keep hdistinct]

theorem ValuesReordered.wantedValues (keep : String → Bool) {values : List (WrittenValue pool)}
    {others : List (WrittenValue other)} (h : ValuesReordered values others)
    (hdistinct : ValuesDistinct values) :
    wantedValues keep others = wantedValues keep values :=
  match h with
  | .nil => rfl
  | .cons first rest => by
      simp only [WrittenValue.wantedValues, first.wanted? keep hdistinct.1,
        rest.wantedValues keep hdistinct.2]

theorem MembersReordered.wantedMembers (keep : String → Bool)
    {members : List (ListedText pool × WrittenValue pool)}
    {others : List (ListedText other × WrittenValue other)} (h : MembersReordered members others)
    (hdistinct : MembersDistinct members) :
    wantedMembers keep others = wantedMembers keep members :=
  match h with
  | .nil => rfl
  | .cons hname first rest => by
      simp only [WrittenValue.wantedMembers, hname, first.wanted? keep hdistinct.1,
        rest.wantedMembers keep hdistinct.2]

end

end WrittenValue

namespace WrittenAnnot

variable {pool other : Pool}

theorem Reordered.wanted? (keep : String → Bool) {annot : WrittenAnnot pool}
    {changed : WrittenAnnot other} (h : annot.Reordered changed) :
    changed.wanted? keep = annot.wanted? keep := by
  have hvalue := h.value.wanted? keep h.distinct
  rw [toValue, toValue, WrittenValue.wanted?_nested, WrittenValue.wanted?_nested] at hvalue
  refine Option.map_injective (fun first second hsame => ?_) hvalue
  cases first
  cases second
  cases hsame
  rfl

/-- What is read of an attribute with annotations. -/
theorem annots_listBytes (keep : String → Bool) {annots : List (WrittenAnnot pool)}
    (hcount : annots.length < 2 ^ 16) (hfits : ∀ annot ∈ annots, annot.Fits) :
    Element.annots keep pool (listBytes annots) =
      .ok (annots.filterMap (WrittenAnnot.wanted? keep)) := by
  have hbody := ((reads_list keep hcount hfits (Nat.le_succ _)).map (List.filterMap id)) [] 0
  rw [List.append_nil] at hbody
  unfold Element.annots Reading.runOn Cursor.start
  rw [hbody, List.filterMap_map]
  rfl

theorem filterMap_wanted?_of_reordered (keep : String → Bool) {annots : List (WrittenAnnot pool)}
    {others : List (WrittenAnnot other)} (h : List.Forall₂ Reordered annots others) :
    others.filterMap (WrittenAnnot.wanted? keep) = annots.filterMap (WrittenAnnot.wanted? keep) := by
  induction h with
  | nil => rfl
  | cons hfirst _ ih => rw [List.filterMap_cons, List.filterMap_cons, hfirst.wanted? keep, ih]

theorem fits_of_reordered {annots : List (WrittenAnnot pool)} {others : List (WrittenAnnot other)}
    (h : List.Forall₂ Reordered annots others) :
    (∀ annot ∈ annots, annot.Fits) ∧ ∀ annot ∈ others, annot.Fits := by
  induction h with
  | nil => exact ⟨nofun, nofun⟩
  | cons hfirst _ ih =>
      exact ⟨List.forall_mem_cons.mpr ⟨hfirst.fits, ih.1⟩,
        List.forall_mem_cons.mpr ⟨hfirst.value.fits hfirst.fits, ih.2⟩⟩

/-- Whatever annotations are wanted, the same are read. -/
theorem annots_of_reordered (keep : String → Bool) {annots : List (WrittenAnnot pool)}
    {others : List (WrittenAnnot other)} (hcount : annots.length < 2 ^ 16)
    (h : List.Forall₂ Reordered annots others) :
    ∃ found, Element.annots keep pool (listBytes annots) = .ok found ∧
      Element.annots keep other (listBytes others) = .ok found := by
  obtain ⟨hfits, hothers⟩ := fits_of_reordered h
  refine ⟨_, annots_listBytes keep hcount hfits, ?_⟩
  rw [annots_listBytes keep (h.length_eq ▸ hcount) hothers, filterMap_wanted?_of_reordered keep h]

end WrittenAnnot

/-! ## Class files -/

namespace WrittenAttribute

variable {pool : Pool}

theorem visitAll_of_reordered {σ : Type} {body : String → List UInt8 → σ → Except Defect σ}
    (keep : String → Bool)
    (hbody : ∀ content other, Element.annots keep pool content = Element.annots keep pool other →
      body Index.annotAttribute content = body Index.annotAttribute other)
    {before after : List WrittenAttribute} (h : Reordered pool before after) :
    visitAll pool body after = visitAll pool body before := by
  induction h with
  | nil => rfl
  | same attr _ ih =>
      funext state
      rw [visitAll_cons, visitAll_cons, ih]
  | annots isAnnots count h fits otherFits _ ih =>
      obtain ⟨read, hread, hother⟩ := WrittenAnnot.annots_of_reordered keep count h
      funext state
      rw [visitAll_cons, visitAll_cons, ih, visit, visit, isAnnots, ok_bind, ok_bind,
        hbody _ _ (hother.trans hread.symm)]

theorem visitAll_addAnnots_of_reordered (keep : String → Bool)
    {before after : List WrittenAttribute} (h : Reordered pool before after) :
    visitAll pool (Index.addAnnots keep pool) after =
      visitAll pool (Index.addAnnots keep pool) before := by
  refine visitAll_of_reordered keep (fun content other hsame => ?_) h
  funext annots
  rw [Index.addAnnots, Index.addAnnots, hsame]

theorem visitAll_methodAttribute_of_reordered (options : IndexOptions) (method : String)
    {before after : List WrittenAttribute} (h : Reordered pool before after) :
    visitAll pool (Index.methodAttribute options pool method) after =
      visitAll pool (Index.methodAttribute options pool method) before := by
  refine visitAll_of_reordered options.keepAnnot (fun content other hsame => ?_) h
  have hannots : ∀ content, Index.methodAttribute options pool method Index.annotAttribute content =
      fun state => (Index.addAnnots options.keepAnnot pool Index.annotAttribute content state.1).map
        (·, state.2) := by
    intro content
    have hne : Index.annotAttribute ≠ Index.codeAttribute := by decide
    funext state
    simp [Index.methodAttribute, hne]
  simp only [hannots, Index.addAnnots, hsame]

end WrittenAttribute

namespace WrittenMember

variable {pool : Pool} {member changed : WrittenMember}

theorem Reordered.head (h : member.Reordered pool changed) :
    changed.head pool = member.head pool := by
  rw [WrittenMember.head, WrittenMember.head, h.access, h.name, h.descriptor]

theorem Reordered.addField (options : IndexOptions) (h : member.Reordered pool changed)
    (draft : Draft) : changed.addField options pool draft = member.addField options pool draft := by
  rw [WrittenMember.addField, WrittenMember.addField, info, info, h.head,
    WrittenAttribute.visitAll_addAnnots_of_reordered _ h.attributes]

theorem Reordered.addMethod (options : IndexOptions) (h : member.Reordered pool changed)
    (draft : Draft) :
    changed.addMethod options pool draft = member.addMethod options pool draft := by
  rw [WrittenMember.addMethod, WrittenMember.addMethod, h.head]
  refine bind_congr fun head => ?_
  dsimp only
  rw [WrittenAttribute.visitAll_methodAttribute_of_reordered options head.2.1 h.attributes]

end WrittenMember

theorem WrittenClass.Reordered.indexed (options : IndexOptions) {file changed : WrittenClass}
    (h : file.Reordered changed) : changed.indexed options = file.indexed options := by
  have hfields := foldlM_of_forall₂
    (h.fields.imp fun _ _ => WrittenMember.Reordered.addField options)
  have hmethods := foldlM_of_forall₂
    (h.methods.imp fun _ _ => WrittenMember.Reordered.addMethod options)
  have hattributes := WrittenAttribute.visitAll_addAnnots_of_reordered options.keepAnnot h.attributes
  unfold WrittenClass.indexed WrittenClass.declared
  simp only [h.pool, h.access, h.name, h.superClass, h.interfaces, hfields, hmethods, hattributes]

/-- The order in which members are written does not matter.  As long as no annotation has two members
of one name, annotations whose members are written in another order, at every depth, have the same
texts, the same texts of their members, and the same texts for their uses, whatever annotations are
wanted and from whatever pools they take their constants; and the class file is indexed alike. -/
theorem texts_of_reordered :
    (∀ (keep : String → Bool) (pool other : Pool) (annots : List (WrittenAnnot pool))
        (others : List (WrittenAnnot other)), annots.length < 2 ^ 16 →
      List.Forall₂ WrittenAnnot.Reordered annots others →
      ∃ found changed, Element.annots keep pool (WrittenAnnot.listBytes annots) = .ok found ∧
        Element.annots keep other (WrittenAnnot.listBytes others) = .ok changed ∧
        changed.map Annot.text = found.map Annot.text ∧
        changed.map Annot.membersText = found.map Annot.membersText ∧
        ∀ target, changed.map (·.usageKey target) = found.map (·.usageKey target)) ∧
    ∀ options (file changed : WrittenClass), file.Reordered changed →
      index options changed.bytes = index options file.bytes := by
  constructor
  · intro keep pool other annots others hcount h
    obtain ⟨found, hfound, hother⟩ := WrittenAnnot.annots_of_reordered keep hcount h
    exact ⟨found, found, hfound, hother, rfl, rfl, fun _ => rfl⟩
  · intro options file changed h
    rw [WrittenClass.index_bytes, WrittenClass.index_bytes, h.indexed options]

def orderConstants : List WrittenConstant :=
  [.short "A", .classInfo 1, .short "LK;", .short "a", .short "b",
    .short "RuntimeVisibleAnnotations", .integer 65]

def orderPool : Pool := WrittenConstant.pool orderConstants

/-- An annotation with another one in a list, and both of them with their members in the order of
their names or the other way round. -/
def orderAnnot (ascending : Bool) : WrittenAnnot orderPool :=
  let type : ListedText orderPool := ⟨3, "LK;", by with_unfolding_all rfl⟩
  let a : ListedText orderPool := ⟨4, "a", by with_unfolding_all rfl⟩
  let b : ListedText orderPool := ⟨5, "b", by with_unfolding_all rfl⟩
  let number : WrittenValue orderPool := .integer .int ⟨7, 65, by with_unfolding_all rfl⟩
  if ascending then ⟨type, [(a, .list [.nested type [(a, .string b), (b, .string a)]]), (b, number)]⟩
  else ⟨type, [(b, number), (a, .list [.nested type [(b, .string a), (a, .string b)]])]⟩

/-- A class with the annotation. -/
def orderSample (ascending : Bool) : WrittenClass :=
  { WrittenClass.sample with
    poolBytes := WrittenConstant.poolBytes (WrittenConstant.width orderConstants + 1) orderConstants
    pool := orderPool
    readsPool := WrittenConstant.reads_read (by decide)
    fields := []
    methods := []
    attributes := [⟨6, WrittenAnnot.listBytes [orderAnnot ascending], by cases ascending <;> decide⟩]
    fieldsFit := WrittenClass.length_nil_lt
    methodsFit := WrittenClass.length_nil_lt
    attributesFit := by simp }

theorem orderAnnot_reordered : (orderAnnot false).Reordered (orderAnnot true) where
  fits := by
    simp [orderAnnot, WrittenAnnot.Fits, WrittenValue.MembersFit, WrittenValue.ValuesFit,
      WrittenValue.Fits]
  distinct := by
    simp [orderAnnot, WrittenAnnot.toValue, WrittenValue.MembersDistinct,
      WrittenValue.ValuesDistinct, WrittenValue.Distinct]
  value := by
    refine .nested rfl (.cons rfl (.integer .int rfl) (.cons rfl (.list (.cons ?_ .nil)) .nil))
      (.swap _ _ [])
    exact .nested rfl (.cons rfl (.string rfl) (.cons rfl (.string rfl) .nil)) (.swap _ _ [])

theorem orderSample_reordered : (orderSample false).Reordered (orderSample true) where
  pool := rfl
  access := rfl
  name := rfl
  superClass := rfl
  interfaces := rfl
  fields := .nil
  methods := .nil
  attributes := .annots (by with_unfolding_all rfl) (by decide) (.cons orderAnnot_reordered .nil)
    (by decide) (by decide) .nil

theorem texts_of_orderAnnot :
    (∃ found changed,
      Element.annots IndexOptions.keepByDefault orderPool
        (WrittenAnnot.listBytes [orderAnnot false]) = .ok found ∧
      Element.annots IndexOptions.keepByDefault orderPool
        (WrittenAnnot.listBytes [orderAnnot true]) = .ok changed ∧
      changed.map Annot.text = found.map Annot.text) ∧
    (orderSample true).bytes ≠ (orderSample false).bytes ∧
    index .standard (orderSample true).bytes = index .standard (orderSample false).bytes := by
  obtain ⟨htexts, hindex⟩ := texts_of_reordered
  obtain ⟨found, changed, hfound, hchanged, hsame, -⟩ :=
    htexts IndexOptions.keepByDefault orderPool orderPool [orderAnnot false] [orderAnnot true]
      (by decide) (.cons orderAnnot_reordered .nil)
  exact ⟨⟨found, changed, hfound, hchanged, hsame⟩, by decide,
    hindex .standard _ _ orderSample_reordered⟩

end ClassFile

end ModCatalog
