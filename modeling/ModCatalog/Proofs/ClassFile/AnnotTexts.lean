import ModCatalog.ClassFile.Draft
import ModCatalog.Proofs.Decimal.Layout

/-!
# What the text of an annotation tells

Texts of members tell annotations of one interface apart as long as no string, constant or class
name in them is taken for the end of the value it stands in.  Numbers, flags and characters never
are.  Strings are written as they are, without quotes, so a comma in a string looks like one between
two elements.
-/

namespace ModCatalog.ClassFile

/-! ## Kinds of values -/

inductive ScalarKind
  | byte
  | char
  | short
  | int
  | long
  | float
  | double
  | boolean
  | string
deriving DecidableEq, Repr

def Scalar.kind : Scalar → ScalarKind
  | .byte _ => .byte
  | .char _ => .char
  | .short _ => .short
  | .int _ => .int
  | .long _ => .long
  | .float _ => .float
  | .double _ => .double
  | .boolean _ => .boolean
  | .string _ => .string

/-- Whether a constant is a float or double that is no number. -/
def Scalar.IsNan : Scalar → Prop
  | .float bits => Decimal.Format.single.decode bits.toNat = .nan
  | .double bits => Decimal.Format.double.decode bits.toNat = .nan
  | _ => False

/-- The kind that the interface of an annotation gives to a member. -/
inductive ValueKind
  | scalar (kind : ScalarKind)
  | list (element : ValueKind)
  | nested (typeName : String)
  | enumConstant (typeName : String)
  | classLiteral
deriving DecidableEq, Repr

/-- The kinds of the members that annotation types declare, by type and name. -/
abbrev Interfaces := String → String → Option ValueKind

/-- Whether no name of a member is taken for something else. -/
def Interfaces.HavePlainNames (interfaces : Interfaces) : Prop :=
  ∀ typeName name, (interfaces typeName name).isSome → '=' ∉ name.toList ∧ ')' ∉ name.toList

namespace AnnotValue

variable (interfaces : Interfaces)

mutual

/-- Whether a value is of a kind and holds no floats that are no numbers. -/
inductive HasKind : ValueKind → AnnotValue → Prop
  | scalar {kind : ScalarKind} {value : Scalar} (hkind : value.kind = kind)
      (hnumber : ¬value.IsNan) : HasKind (.scalar kind) (.scalar value)
  | list {element : ValueKind} {values : List AnnotValue} (hvalues : HaveKind element values) :
      HasKind (.list element) (.list values)
  | nested {typeName : String} {members : List (String × AnnotValue)}
      (hmembers : MembersHaveKinds typeName members) :
      HasKind (.nested typeName) (.nested typeName members)
  | enumConstant (typeName constant : String) :
      HasKind (.enumConstant typeName) (.enumConstant typeName constant)
  | classLiteral (typeName : String) : HasKind .classLiteral (.classLiteral typeName)

inductive HaveKind : ValueKind → List AnnotValue → Prop
  | nil {element : ValueKind} : HaveKind element []
  | cons {element : ValueKind} {value : AnnotValue} {rest : List AnnotValue}
      (hvalue : HasKind element value) (hrest : HaveKind element rest) :
      HaveKind element (value :: rest)

/-- Whether all members are declared by an annotation type and have their kinds. -/
inductive MembersHaveKinds : String → List (String × AnnotValue) → Prop
  | nil {typeName : String} : MembersHaveKinds typeName []
  | cons {typeName name : String} {kind : ValueKind} {value : AnnotValue}
      {rest : List (String × AnnotValue)} (hdeclared : interfaces typeName name = some kind)
      (hvalue : HasKind kind value) (hrest : MembersHaveKinds typeName rest) :
      MembersHaveKinds typeName ((name, value) :: rest)

end

end AnnotValue

/-! ## Places in texts -/

/-- Where a value stands in the text of the members of an annotation. -/
inductive Place
  /-- As the last member. -/
  | last
  /-- As a member with another one behind it. -/
  | before (name : String)
  /-- As an element of a list that stands somewhere itself. -/
  | element (outer : Place)
  /-- As a member of a nested annotation. -/
  | member (typeName : String) (outer : Place)

namespace Place

variable (interfaces : Interfaces)

/-- What stands between a value and the value of a member behind it. -/
def opening (name : String) : List Char := ',' :: name.toList ++ ['=']

/-- Whether a text begins with a member behind another one. -/
def Names (name : String) (rest : List Char) : Prop := opening name <+: rest

/-- What can follow a value at a place. -/
def Continues : Place → List Char → Prop
  | last, rest => rest = []
  | before name, rest => Names name rest
  | element outer, rest =>
      (∃ more, rest = ',' :: more) ∨ ∃ more, rest = ']' :: more ∧ outer.Continues more
  | member typeName outer, rest =>
      (∃ name, (interfaces typeName name).isSome ∧ Names name rest) ∨
        ∃ more, rest = ')' :: more ∧ outer.Continues more

/-- Whether nothing that can follow at a place begins inside a text. -/
def Bounds (place : Place) (text : List Char) : Prop :=
  ∀ front back rest, text = front ++ back → back ≠ [] → place.Continues interfaces rest →
    ¬place.Continues interfaces (back ++ rest)

variable {interfaces} {place : Place}

/-- A text that is bounded by its place ends where what follows begins. -/
theorem eq_of_append_eq {text other rest more : List Char} (htext : place.Bounds interfaces text)
    (hother : place.Bounds interfaces other) (hrest : place.Continues interfaces rest)
    (hmore : place.Continues interfaces more) (h : text ++ rest = other ++ more) :
    text = other ∧ rest = more := by
  rcases List.append_eq_append_iff.mp h with ⟨back, hlonger, hfollows⟩ | ⟨back, hlonger, hfollows⟩
  · by_cases hback : back = []
    · subst hback
      exact ⟨by simpa using hlonger.symm, by simpa using hfollows⟩
    · exact absurd (hfollows ▸ hrest) (hother text back more hlonger hback hmore)
  · by_cases hback : back = []
    · subst hback
      exact ⟨by simpa using hlonger, by simpa using hfollows.symm⟩
    · exact absurd (hfollows ▸ hmore) (htext other back rest hlonger hback hrest)

/-- In front of another member, the name of that one must not stand inside a text. -/
theorem bounds_before_iff {name : String} {text : List Char} :
    (before name).Bounds interfaces text ↔
      ∀ back ∈ text.tails, back ≠ [] → ¬opening name <+: back ++ opening name := by
  constructor
  · intro hbounds back hsuffix hback
    obtain ⟨front, htext⟩ := (List.mem_tails _ _).mp hsuffix
    exact hbounds front back _ htext.symm hback (List.prefix_refl _)
  · intro hnone front back rest htext hback hrest hcontinues
    obtain ⟨more, rfl⟩ := hrest
    refine hnone back ((List.mem_tails _ _).mpr ⟨front, htext.symm⟩) hback ?_
    have hlonger : opening name <+: (back ++ opening name) ++ more := by
      rw [List.append_assoc]
      exact hcontinues
    refine List.prefix_of_prefix_length_le hlonger (List.prefix_append _ _) ?_
    rw [List.length_append]
    exact Nat.le_add_left _ _

/-- The characters that what follows begins with. -/
def isMark (c : Char) : Bool := c = ',' || c = ']' || c = ')'

theorem isMark_eq_false {test : Char → Bool} (hcomma : test ',' = false)
    (hbracket : test ']' = false) (hparen : test ')' = false) {c : Char} (hc : test c) :
    isMark c = false := by
  by_contra hmark
  simp only [isMark, Bool.not_eq_false, Bool.or_eq_true, decide_eq_true_eq] at hmark
  rcases hmark with (rfl | rfl) | rfl <;> simp_all

theorem isMark_of_names {name : String} {c : Char} {rest : List Char} (h : Names name (c :: rest)) :
    isMark c := by
  obtain ⟨rfl, -⟩ := List.cons_prefix_cons.mp h
  rfl

theorem isMark_of_continues {c : Char} {rest : List Char}
    (h : place.Continues interfaces (c :: rest)) : isMark c := by
  cases place with
  | last => cases h
  | before name => exact isMark_of_names h
  | element outer => rcases h with ⟨more, heq⟩ | ⟨more, heq, -⟩ <;> cases heq <;> rfl
  | member typeName outer =>
      rcases h with ⟨name, -, hnames⟩ | ⟨more, heq, -⟩
      · exact isMark_of_names hnames
      · cases heq
        rfl

theorem bounds_of_no_mark {text : List Char} (h : ∀ c ∈ text, isMark c = false) :
    place.Bounds interfaces text := by
  intro front back rest htext hback _ hcontinues
  cases back with
  | nil => exact hback rfl
  | cons c back =>
      have hmark := isMark_of_continues hcontinues
      have hnone := h c (by rw [htext]; simp)
      rw [hmark] at hnone
      cases hnone

end Place

/-! ## Legible values -/

namespace AnnotValue

variable (interfaces : Interfaces)

mutual

/-- Whether no free text in a value is taken for the end of what it stands in. -/
def Legible : Place → AnnotValue → Prop
  | place, .scalar (.string value) => place.Bounds interfaces value.toList
  | _, .scalar _ => True
  | place, .list values =>
      ElementsLegible place values ∧
        (values ≠ [] → ∀ rest more, place.Continues interfaces rest →
          place.Continues interfaces more →
          (",".intercalate (texts values)).toList ++ ']' :: rest ≠ ']' :: more)
  | place, .nested typeName members => MembersLegible typeName place members
  | place, .enumConstant _ constant => place.Bounds interfaces constant.toList
  | place, .classLiteral typeName => place.Bounds interfaces (typeName ++ ".class").toList

def ElementsLegible : Place → List AnnotValue → Prop
  | _, [] => True
  | outer, value :: rest => Legible (.element outer) value ∧ ElementsLegible outer rest

def MembersLegible : String → Place → List (String × AnnotValue) → Prop
  | _, _, [] => True
  | typeName, outer, (_, value) :: rest =>
      Legible (.member typeName outer) value ∧ MembersLegible typeName outer rest

end

end AnnotValue

/-! ## Constants -/

namespace Scalar

theorem isMark_toString_int (n : Int) : ∀ c ∈ (toString n).toList, Place.isMark c = false := by
  have hdigits (m : Nat) : ∀ c ∈ Nat.toDigits 10 m, Place.isMark c = false :=
    fun c hc => Place.isMark_eq_false rfl rfl rfl (Text.isDigit_toDigits m c hc)
  rw [Text.toList_toString_int]
  split
  · exact hdigits _
  · exact List.forall_mem_cons.mpr ⟨rfl, hdigits _⟩

theorem hasPlainPlus_floatLayout : floatLayout.HasPlainPlus := nofun

theorem isMark_float (f : Decimal.Format) (value : Decimal.FloatValue) :
    ∀ c ∈ (floatLayout.write f value).toList, Place.isMark c = false :=
  fun c hc => Place.isMark_eq_false rfl rfl rfl
    (Decimal.Layout.isFloatChar_write hasPlainPlus_floatLayout (by decide) f value c hc)

/-- The text of a number or flag holds no mark. -/
theorem isMark_text {value : Scalar} (hchar : value.kind ≠ .char) (hstring : value.kind ≠ .string) :
    ∀ c ∈ value.text.toList, Place.isMark c = false := by
  cases value with
  | byte value => exact isMark_toString_int _
  | char value => exact absurd rfl hchar
  | short value => exact isMark_toString_int _
  | int value => exact isMark_toString_int _
  | long value => exact isMark_toString_int _
  | float bits => exact isMark_float _ _
  | double bits => exact isMark_float _ _
  | boolean value => cases value <;> simp [text, Place.isMark]
  | string value => exact absurd rfl hstring

theorem floatText_inj {bits other : UInt32} (hbits : ¬(Scalar.float bits).IsNan)
    (hother : ¬(Scalar.float other).IsNan) (h : floatText bits = floatText other) :
    bits = other := by
  have hword (word : UInt32) : word.toNat < Nat.pow 2 (Decimal.Format.single.precision - 1 +
      Decimal.Format.single.exponentWidth + 1) := word.toNat_lt
  apply UInt32.toNat_inj.mp
  exact Decimal.Layout.write_decode_inj hasPlainPlus_floatLayout (by decide) (by decide)
    (hword bits) (hword other) hbits hother h

theorem doubleText_inj {bits other : UInt64} (hbits : ¬(Scalar.double bits).IsNan)
    (hother : ¬(Scalar.double other).IsNan) (h : doubleText bits = doubleText other) :
    bits = other := by
  have hword (word : UInt64) : word.toNat < Nat.pow 2 (Decimal.Format.double.precision - 1 +
      Decimal.Format.double.exponentWidth + 1) := word.toNat_lt
  apply UInt64.toNat_inj.mp
  exact Decimal.Layout.write_decode_inj hasPlainPlus_floatLayout (by decide) (by decide)
    (hword bits) (hword other) hbits hother h

/-- Constants of one kind with the same text are the same. -/
theorem eq_of_text_eq {value other : Scalar} (hkind : value.kind = other.kind)
    (hvalue : ¬value.IsNan) (hother : ¬other.IsNan) (h : value.text = other.text) :
    value = other := by
  cases value <;> cases other <;> cases hkind
  case byte.byte.refl a b => rw [Int8.toInt_inj.mp (Text.toString_int_inj h)]
  case char.char.refl a b =>
      have hchars := congrArg String.toList h
      simp only [text, String.toList_singleton, List.cons.injEq, and_true] at hchars
      rw [hchars]
  case short.short.refl a b => rw [Int16.toInt_inj.mp (Text.toString_int_inj h)]
  case int.int.refl a b => rw [Int32.toInt_inj.mp (Text.toString_int_inj h)]
  case long.long.refl a b => rw [Int64.toInt_inj.mp (Text.toString_int_inj h)]
  case float.float.refl a b => rw [floatText_inj hvalue hother h]
  case double.double.refl a b => rw [doubleText_inj hvalue hother h]
  case boolean.boolean.refl a b => cases a <;> cases b <;> simp [text] at h ⊢
  case string.string.refl a b => exact congrArg string h

end Scalar

namespace AnnotValue

variable {interfaces : Interfaces} {place : Place} {kind : ValueKind}

/-! ## Values and what follows them -/

theorem scalar_eq_of_append_eq {value other : Scalar} (hkind : value.kind = other.kind)
    (hvalue : ¬value.IsNan) (hother : ¬other.IsNan)
    (hlegible : Legible interfaces place (scalar value))
    (hlegible' : Legible interfaces place (scalar other)) {rest more : List Char}
    (hrest : place.Continues interfaces rest) (hmore : place.Continues interfaces more)
    (h : value.text.toList ++ rest = other.text.toList ++ more) :
    value = other ∧ rest = more := by
  have hends : value.text.toList = other.text.toList ∧ rest = more := by
    by_cases hchar : value.kind = .char
    · cases value <;> cases hchar
      cases other <;> cases hkind
      simp only [Scalar.text, String.toList_singleton] at h ⊢
      exact ⟨congrArg (fun c => [c]) (List.cons.inj h).1, (List.cons.inj h).2⟩
    · by_cases hstring : value.kind = .string
      · cases value <;> cases hstring
        cases other <;> cases hkind
        exact Place.eq_of_append_eq hlegible hlegible' hrest hmore h
      · exact Place.eq_of_append_eq
          (Place.bounds_of_no_mark (Scalar.isMark_text hchar hstring))
          (Place.bounds_of_no_mark (Scalar.isMark_text (hkind ▸ hchar) (hkind ▸ hstring)))
          hrest hmore h
  exact ⟨Scalar.eq_of_text_eq hkind hvalue hother (String.toList_injective hends.1), hends.2⟩

/-- Texts, each behind a comma, and what closes them. -/
def behind : List String → List Char → List Char
  | [], closing => closing
  | text :: rest, closing => ',' :: (text.toList ++ behind rest closing)

theorem behind_cons (first : String) (rest : List String) (closing : List Char) :
    behind (first :: rest) closing =
      ',' :: ((",".intercalate (first :: rest)).toList ++ closing) := by
  induction rest generalizing first with
  | nil => rw [String.intercalate_singleton, behind, behind]
  | cons next rest ih =>
      rw [behind, ih, String.intercalate_cons_cons]
      simp

theorem behind_eq_of_intercalate_eq {all others : List String} {closing other : List Char}
    (hsome : all ≠ []) (hsome' : others ≠ [])
    (h : (",".intercalate all).toList ++ closing = (",".intercalate others).toList ++ other) :
    behind all closing = behind others other := by
  cases all with
  | nil => exact absurd rfl hsome
  | cons first rest =>
      cases others with
      | nil => exact absurd rfl hsome'
      | cons first' rest' => rw [behind_cons, behind_cons, h]

theorem texts_eq_nil_iff {values : List AnnotValue} : texts values = [] ↔ values = [] := by
  cases values <;> simp [texts]

theorem memberTexts_eq_nil_iff {members : List (String × AnnotValue)} :
    memberTexts members = [] ↔ members = [] := by
  cases members <;> simp [memberTexts]

theorem elementsLegible_strings {strings : List String}
    (hmarks : ∀ string ∈ strings, ∀ c ∈ string.toList, Place.isMark c = false) :
    ElementsLegible interfaces place (strings.map fun string => .scalar (.string string)) := by
  induction strings with
  | nil => trivial
  | cons string strings ih =>
      obtain ⟨hstring, hstrings⟩ := List.forall_mem_cons.mp hmarks
      exact ⟨Place.bounds_of_no_mark hstring, ih hstrings⟩

/-- Strings without marks are legible as a list, unless the first is empty. -/
theorem legible_strings {strings : List String}
    (hmarks : ∀ string ∈ strings, ∀ c ∈ string.toList, Place.isMark c = false)
    (hfirst : ∀ string ∈ strings.head?, string.toList ≠ []) :
    Legible interfaces place (.list (strings.map fun string => .scalar (.string string))) := by
  refine ⟨elementsLegible_strings hmarks, fun hsome rest more _ _ h => ?_⟩
  cases strings with
  | nil => exact hsome rfl
  | cons string strings =>
      have hbehind := behind_cons string
        (texts (strings.map fun string => .scalar (.string string))) (']' :: rest)
      cases hlist : string.toList with
      | nil => exact hfirst string rfl hlist
      | cons c tail =>
          have hmark := hmarks string List.mem_cons_self c (hlist ▸ List.mem_cons_self)
          rw [behind, hlist, List.cons_append] at hbehind
          have hbegins := (List.cons.inj hbehind).2.trans h
          rw [(List.cons.inj hbegins).1] at hmark
          cases hmark

theorem continues_behind_texts (values : List AnnotValue) {rest : List Char}
    (hrest : place.Continues interfaces rest) :
    (Place.element place).Continues interfaces (behind (texts values) (']' :: rest)) := by
  cases values with
  | nil => exact Or.inr ⟨rest, rfl, hrest⟩
  | cons value values => exact Or.inl ⟨_, rfl⟩

theorem behind_memberTexts_cons (name : String) (value : AnnotValue)
    (members : List (String × AnnotValue)) (closing : List Char) :
    behind (memberTexts ((name, value) :: members)) closing =
      ',' :: (name.toList ++ '=' ::
        ((text value).toList ++ behind (memberTexts members) closing)) := by
  simp [memberTexts, behind]

theorem names_behind (name : String) (value : AnnotValue) (members : List (String × AnnotValue))
    (closing : List Char) :
    Place.Names name (behind (memberTexts ((name, value) :: members)) closing) := by
  refine ⟨(text value).toList ++ behind (memberTexts members) closing, ?_⟩
  simp [behind_memberTexts_cons, Place.opening]

theorem continues_behind_memberTexts {typeName : String} {members : List (String × AnnotValue)}
    (hkinds : MembersHaveKinds interfaces typeName members) {rest : List Char}
    (hrest : place.Continues interfaces rest) :
    (Place.member typeName place).Continues interfaces
      (behind (memberTexts members) (')' :: rest)) := by
  cases hkinds with
  | nil => exact Or.inr ⟨rest, rfl, hrest⟩
  | cons hdeclared => exact Or.inl ⟨_, by rw [hdeclared]; rfl, names_behind _ _ _ _⟩

theorem name_eq_of_append_eq {name other : List Char} (hname : '=' ∉ name) (hother : '=' ∉ other)
    {rest more : List Char} (h : name ++ '=' :: rest = other ++ '=' :: more) :
    name = other ∧ rest = more := by
  have hsplit (front back : List Char) (hfront : '=' ∉ front) :
      Text.splitFirst? (· = '=') (front ++ '=' :: back) = some (front, back) := by
    refine Text.splitFirst?_eq_some_iff.mpr ⟨'=', rfl, fun c hc => ?_, rfl⟩
    exact decide_eq_false fun heq => hfront (heq ▸ hc)
  have hboth := (hsplit name rest hname).symm.trans (h ▸ hsplit other more hother)
  exact Prod.mk.inj (Option.some.inj hboth)

/-- A list that is not empty is not read as the empty one. -/
theorem behind_eq_of_elements_eq {values others : List AnnotValue}
    (hlegible : Legible interfaces place (.list values))
    (hlegible' : Legible interfaces place (.list others)) {rest more : List Char}
    (hrest : place.Continues interfaces rest) (hmore : place.Continues interfaces more)
    (h : (",".intercalate (texts values)).toList ++ ']' :: rest =
      (",".intercalate (texts others)).toList ++ ']' :: more) :
    behind (texts values) (']' :: rest) = behind (texts others) (']' :: more) := by
  by_cases hnone : values = []
  · by_cases hnone' : others = []
    · subst hnone hnone'
      exact h
    · subst hnone
      exact absurd h.symm (hlegible'.2 hnone' more rest hmore hrest)
  · by_cases hnone' : others = []
    · subst hnone'
      exact absurd h (hlegible.2 hnone rest more hrest hmore)
    · exact behind_eq_of_intercalate_eq (fun h => hnone (texts_eq_nil_iff.mp h))
        (fun h => hnone' (texts_eq_nil_iff.mp h)) h

/-- Members begin with a name, which is not read as the end of an annotation. -/
theorem members_ne_close (hinterfaces : interfaces.HavePlainNames) {typeName : String}
    {members : List (String × AnnotValue)} (hkinds : MembersHaveKinds interfaces typeName members)
    (hsome : members ≠ []) (closing more : List Char) :
    (",".intercalate (memberTexts members)).toList ++ closing ≠ ')' :: more := by
  cases hkinds with
  | nil => exact absurd rfl hsome
  | @cons _ name _ value rest hdeclared _ _ =>
      intro h
      have hplain := (hinterfaces _ _ (Option.isSome_of_eq_some hdeclared)).2
      have hbehind := behind_memberTexts_cons name value rest closing
      rw [memberTexts] at h hbehind
      rw [behind_cons, h] at hbehind
      cases hname : name.toList with
      | nil =>
          rw [hname] at hbehind
          cases hbehind
      | cons c tail =>
          rw [hname] at hbehind hplain
          obtain ⟨rfl, -⟩ := List.cons.inj (List.cons.inj hbehind).2
          exact hplain List.mem_cons_self

theorem behind_eq_of_members_eq (hinterfaces : interfaces.HavePlainNames) {typeName : String}
    {members others : List (String × AnnotValue)}
    (hkinds : MembersHaveKinds interfaces typeName members)
    (hkinds' : MembersHaveKinds interfaces typeName others) {rest more : List Char}
    (h : (",".intercalate (memberTexts members)).toList ++ ')' :: rest =
      (",".intercalate (memberTexts others)).toList ++ ')' :: more) :
    behind (memberTexts members) (')' :: rest) = behind (memberTexts others) (')' :: more) := by
  by_cases hnone : members = []
  · by_cases hnone' : others = []
    · subst hnone hnone'
      exact h
    · subst hnone
      exact absurd h.symm (members_ne_close hinterfaces hkinds' hnone' _ _)
  · by_cases hnone' : others = []
    · subst hnone'
      exact absurd h (members_ne_close hinterfaces hkinds hnone _ _)
    · exact behind_eq_of_intercalate_eq (fun h => hnone (memberTexts_eq_nil_iff.mp h))
        (fun h => hnone' (memberTexts_eq_nil_iff.mp h)) h

mutual

/-- A value of a known kind is told from its text with anything that can follow it. -/
theorem HasKind.eq_of_append_eq (hinterfaces : interfaces.HavePlainNames) {kind : ValueKind}
    {place : Place} {value other : AnnotValue} (hkind : HasKind interfaces kind value)
    (hkind' : HasKind interfaces kind other) (hlegible : Legible interfaces place value)
    (hlegible' : Legible interfaces place other) {rest more : List Char}
    (hrest : place.Continues interfaces rest) (hmore : place.Continues interfaces more)
    (h : (text value).toList ++ rest = (text other).toList ++ more) :
    value = other ∧ rest = more :=
  match hkind, hkind' with
  | .scalar hsame hnumber, .scalar hsame' hnumber' => by
      obtain ⟨rfl, rfl⟩ := scalar_eq_of_append_eq (hsame.trans hsame'.symm) hnumber hnumber'
        hlegible hlegible' hrest hmore h
      exact ⟨rfl, rfl⟩
  | .list hvalues, .list hvalues' => by
      simp only [text, String.toList_append, List.append_assoc] at h
      have hbehind := behind_eq_of_elements_eq hlegible hlegible' hrest hmore
        (List.append_cancel_left h)
      obtain ⟨rfl, rfl⟩ := hvalues.eq_of_behind_eq hinterfaces hvalues' hlegible.1 hlegible'.1
        hrest hmore hbehind
      exact ⟨rfl, rfl⟩
  | .nested hmembers, .nested hmembers' => by
      simp only [text, annotText, String.toList_append, List.append_assoc] at h
      have hbehind := behind_eq_of_members_eq hinterfaces hmembers hmembers'
        (List.append_cancel_left (List.append_cancel_left (List.append_cancel_left h)))
      obtain ⟨rfl, rfl⟩ := hmembers.eq_of_behind_eq hinterfaces hmembers' hlegible hlegible'
        hrest hmore hbehind
      exact ⟨rfl, rfl⟩
  | .enumConstant typeName constant, .enumConstant _ constant' => by
      simp only [text, String.toList_append, List.append_assoc] at h
      obtain ⟨hconstants, rfl⟩ := Place.eq_of_append_eq hlegible hlegible' hrest hmore
        (List.append_cancel_left (List.append_cancel_left h))
      rw [String.toList_injective hconstants]
      exact ⟨rfl, rfl⟩
  | .classLiteral typeName, .classLiteral typeName' => by
      obtain ⟨htexts, rfl⟩ := Place.eq_of_append_eq hlegible hlegible' hrest hmore h
      rw [String.toList_append, String.toList_append] at htexts
      rw [String.toList_injective (List.append_cancel_right htexts)]
      exact ⟨rfl, rfl⟩

theorem HaveKind.eq_of_behind_eq (hinterfaces : interfaces.HavePlainNames) {element : ValueKind}
    {place : Place} {values others : List AnnotValue} (hkinds : HaveKind interfaces element values)
    (hkinds' : HaveKind interfaces element others)
    (hlegible : ElementsLegible interfaces place values)
    (hlegible' : ElementsLegible interfaces place others) {rest more : List Char}
    (hrest : place.Continues interfaces rest) (hmore : place.Continues interfaces more)
    (h : behind (texts values) (']' :: rest) = behind (texts others) (']' :: more)) :
    values = others ∧ rest = more :=
  match hkinds, hkinds' with
  | .nil, .nil => ⟨rfl, (List.cons.inj h).2⟩
  | .nil, .cons .. => nomatch h
  | .cons .., .nil => nomatch h
  | .cons hvalue hvalues, .cons hvalue' hvalues' => by
      obtain ⟨rfl, hbehind⟩ := hvalue.eq_of_append_eq hinterfaces hvalue' hlegible.1 hlegible'.1
        (continues_behind_texts _ hrest) (continues_behind_texts _ hmore) (List.cons.inj h).2
      obtain ⟨rfl, rfl⟩ := hvalues.eq_of_behind_eq hinterfaces hvalues' hlegible.2 hlegible'.2
        hrest hmore hbehind
      exact ⟨rfl, rfl⟩

theorem MembersHaveKinds.eq_of_behind_eq (hinterfaces : interfaces.HavePlainNames)
    {typeName : String} {place : Place} {members others : List (String × AnnotValue)}
    (hkinds : MembersHaveKinds interfaces typeName members)
    (hkinds' : MembersHaveKinds interfaces typeName others)
    (hlegible : MembersLegible interfaces typeName place members)
    (hlegible' : MembersLegible interfaces typeName place others) {rest more : List Char}
    (hrest : place.Continues interfaces rest) (hmore : place.Continues interfaces more)
    (h : behind (memberTexts members) (')' :: rest) = behind (memberTexts others) (')' :: more)) :
    members = others ∧ rest = more :=
  match hkinds, hkinds' with
  | .nil, .nil => ⟨rfl, (List.cons.inj h).2⟩
  | .nil, .cons .. => nomatch h
  | .cons .., .nil => nomatch h
  | .cons hdeclared hvalue hmembers, .cons hdeclared' hvalue' hmembers' => by
      have hplain := (hinterfaces _ _ (Option.isSome_of_eq_some hdeclared)).1
      have hplain' := (hinterfaces _ _ (Option.isSome_of_eq_some hdeclared')).1
      rw [behind_memberTexts_cons, behind_memberTexts_cons] at h
      obtain ⟨hnames, htexts⟩ := name_eq_of_append_eq hplain hplain' (List.cons.inj h).2
      obtain rfl := String.toList_injective hnames
      obtain rfl := Option.some.inj (hdeclared.symm.trans hdeclared')
      obtain ⟨rfl, hbehind⟩ := hvalue.eq_of_append_eq hinterfaces hvalue' hlegible.1 hlegible'.1
        (continues_behind_memberTexts hmembers hrest)
        (continues_behind_memberTexts hmembers' hmore) htexts
      obtain ⟨rfl, rfl⟩ := hmembers.eq_of_behind_eq hinterfaces hmembers' hlegible.2 hlegible'.2
        hrest hmore hbehind
      exact ⟨rfl, rfl⟩

end

end AnnotValue

/-! ## Annotations -/

namespace Annot

/-- Where a member stands that has some others behind it. -/
def placeBefore : List (String × AnnotValue) → Place
  | [] => .last
  | (name, _) :: _ => .before name

/-- Whether all members are legible where they stand. -/
def MembersLegible (interfaces : Interfaces) : List (String × AnnotValue) → Prop
  | [] => True
  | (_, value) :: rest =>
      AnnotValue.Legible interfaces (placeBefore rest) value ∧ MembersLegible interfaces rest

theorem continues_placeBefore {interfaces : Interfaces} (members : List (String × AnnotValue)) :
    (placeBefore members).Continues interfaces
      (AnnotValue.behind (AnnotValue.memberTexts members) []) := by
  cases members with
  | nil => rfl
  | cons member members => exact AnnotValue.names_behind _ _ _ _

theorem placeBefore_eq {members others : List (String × AnnotValue)}
    (hnames : members.map Prod.fst = others.map Prod.fst) :
    placeBefore members = placeBefore others := by
  cases members <;> cases others <;> simp_all [placeBefore]

theorem members_eq_of_behind_eq {interfaces : Interfaces}
    (hinterfaces : interfaces.HavePlainNames) {typeName : String}
    {members others : List (String × AnnotValue)}
    (hkinds : AnnotValue.MembersHaveKinds interfaces typeName members)
    (hkinds' : AnnotValue.MembersHaveKinds interfaces typeName others)
    (hlegible : MembersLegible interfaces members) (hlegible' : MembersLegible interfaces others)
    (hnames : members.map Prod.fst = others.map Prod.fst)
    (h : AnnotValue.behind (AnnotValue.memberTexts members) [] =
      AnnotValue.behind (AnnotValue.memberTexts others) []) : members = others := by
  induction members generalizing others with
  | nil => exact (List.map_eq_nil_iff.mp hnames.symm).symm
  | cons member members ih =>
      cases others with
      | nil => cases hnames
      | cons member' others =>
          obtain ⟨name, value⟩ := member
          obtain ⟨name', value'⟩ := member'
          obtain ⟨rfl, hrest⟩ : name = name' ∧ members.map Prod.fst = others.map Prod.fst := by
            simpa using hnames
          cases hkinds with
          | cons hdeclared hvalue hmembers =>
              cases hkinds' with
              | cons hdeclared' hvalue' hmembers' =>
                  obtain rfl := Option.some.inj (hdeclared.symm.trans hdeclared')
                  rw [AnnotValue.behind_memberTexts_cons, AnnotValue.behind_memberTexts_cons] at h
                  have htexts := (List.cons.inj (List.append_cancel_left (List.cons.inj h).2)).2
                  obtain ⟨rfl, hbehind⟩ := hvalue.eq_of_append_eq hinterfaces hvalue' hlegible.1
                    (placeBefore_eq hrest ▸ hlegible'.1) (continues_placeBefore members)
                    (placeBefore_eq hrest ▸ continues_placeBefore others) htexts
                  rw [ih hmembers hmembers' hlegible.2 hlegible'.2 hrest hbehind]

theorem usageKey_inj {annot other : Annot} {target target' : Target}
    (h : annot.usageKey target = other.usageKey target') :
    target = target' ∧ annot.membersText = other.membersText := by
  have hlists := congrArg String.toList h
  cases target <;> cases target' <;>
    simp [usageKey, Target.text, String.toList_inj] at hlists ⊢ <;> exact hlists

theorem behind_eq_of_membersText_eq {annot other : Annot}
    (hnames : annot.members.map Prod.fst = other.members.map Prod.fst)
    (h : annot.membersText = other.membersText) :
    AnnotValue.behind (AnnotValue.memberTexts annot.members) [] =
      AnnotValue.behind (AnnotValue.memberTexts other.members) [] := by
  by_cases hnone : annot.members = []
  · rw [hnone, List.map_nil] at hnames
    rw [hnone, List.map_eq_nil_iff.mp hnames.symm]
  · have hnone' : other.members ≠ [] := fun h => hnone (List.map_eq_nil_iff.mp (h ▸ hnames))
    exact AnnotValue.behind_eq_of_intercalate_eq
      (fun h => hnone (AnnotValue.memberTexts_eq_nil_iff.mp h))
      (fun h => hnone' (AnnotValue.memberTexts_eq_nil_iff.mp h))
      (congrArg (fun text => text.toList ++ []) h)

/-- Annotations of one type whose members have the same names and declared kinds have different
texts, and so different rows of references, if each is legible. -/
theorem eq_of_membersText_eq {interfaces : Interfaces} (hinterfaces : interfaces.HavePlainNames)
    {annot other : Annot} (htype : annot.typeName = other.typeName)
    (hnames : annot.members.map Prod.fst = other.members.map Prod.fst)
    (hkinds : AnnotValue.MembersHaveKinds interfaces annot.typeName annot.members)
    (hkinds' : AnnotValue.MembersHaveKinds interfaces other.typeName other.members)
    (hlegible : MembersLegible interfaces annot.members)
    (hlegible' : MembersLegible interfaces other.members) :
    (annot.membersText = other.membersText ↔ annot = other) ∧
      ∀ target target', Reference.ofAnnot target annot = Reference.ofAnnot target' other →
        target = target' ∧ annot = other := by
  have htexts : annot.membersText = other.membersText → annot = other := by
    intro h
    have hmembers : annot.members = other.members := members_eq_of_behind_eq hinterfaces hkinds
      (htype ▸ hkinds') hlegible hlegible' hnames (behind_eq_of_membersText_eq hnames h)
    cases annot
    cases other
    simp_all
  refine ⟨⟨htexts, congrArg membersText⟩, fun target target' h => ?_⟩
  obtain ⟨htarget, hmembers⟩ := usageKey_inj (congrArg Reference.member h)
  exact ⟨htarget, htexts hmembers⟩

/-! ### Two uses that are told apart, and two that are not -/

namespace Sample

/-- The annotation type `p/Info` with a number, a text, and some tags. -/
def interfaces : Interfaces := fun typeName name =>
  if typeName = "p/Info" then
    if name = "level" then some (.scalar .double)
    else if name = "name" then some (.scalar .string)
    else if name = "tags" then some (.list (.scalar .string))
    else none
  else none

theorem havePlainNames_interfaces : interfaces.HavePlainNames := by
  intro typeName name hdeclared
  unfold interfaces at hdeclared
  split at hdeclared
  · split at hdeclared
    · next h => subst h; decide
    · split at hdeclared
      · next h => subst h; decide
      · split at hdeclared
        · next h => subst h; decide
        · cases hdeclared
  · cases hdeclared

def info (level : UInt64) (name : String) (tags : List String) : Annot :=
  ⟨"p/Info", [("level", .scalar (.double level)), ("name", .scalar (.string name)),
    ("tags", .list (tags.map fun tag => .scalar (.string tag)))]⟩

theorem haveKinds_info {level : UInt64} (hlevel : ¬(Scalar.double level).IsNan) (name : String)
    (tags : List String) : AnnotValue.MembersHaveKinds interfaces (info level name tags).typeName
      (info level name tags).members := by
  have htags : AnnotValue.HaveKind interfaces (.scalar .string)
      (tags.map fun tag => .scalar (.string tag)) := by
    induction tags with
    | nil => exact .nil
    | cons tag rest ih => exact .cons (.scalar rfl id) ih
  exact .cons rfl (.scalar rfl hlevel) (.cons rfl (.scalar rfl id) (.cons rfl (.list htags) .nil))

theorem legible_info (level : UInt64) {name : String} {tags : List String}
    (hname : ∀ back ∈ name.toList.tails, back ≠ [] →
      ¬Place.opening "tags" <+: back ++ Place.opening "tags")
    (hmarks : ∀ tag ∈ tags, ∀ c ∈ tag.toList, Place.isMark c = false)
    (hfirst : ∀ tag ∈ tags.head?, tag.toList ≠ []) :
    MembersLegible interfaces (info level name tags).members :=
  ⟨trivial, Place.bounds_before_iff.mpr hname, AnnotValue.legible_strings hmarks hfirst, trivial⟩

theorem one_isNumber : ¬(Scalar.double 0x3FF0000000000000).IsNan := by
  change ¬(_ = _)
  decide +kernel

end Sample

/-- The comma in a name is not the one between two members. -/
theorem membersText_info_ne :
    (Sample.info 0x3FF0000000000000 "x, y" ["a", "b"]).membersText ≠
      (Sample.info 0x3FF0000000000000 "x" ["y", "a", "b"]).membersText := by
  intro h
  have htype : (Sample.info 0x3FF0000000000000 "x, y" ["a", "b"]).typeName =
      (Sample.info 0x3FF0000000000000 "x" ["y", "a", "b"]).typeName := rfl
  have hsame := (eq_of_membersText_eq Sample.havePlainNames_interfaces htype rfl
    (Sample.haveKinds_info Sample.one_isNumber "x, y" ["a", "b"])
    (Sample.haveKinds_info Sample.one_isNumber "x" ["y", "a", "b"])
    (Sample.legible_info _ (by decide +kernel) (by simp [Place.isMark]) (by simp))
    (Sample.legible_info _ (by decide +kernel) (by simp [Place.isMark]) (by simp))).1.mp h
  simp [Sample.info] at hsame

/-- A tag with a comma has the text of two tags: both uses are counted in one row. -/
theorem text_of_comma : ∃ annot other : Annot,
    annot.typeName = other.typeName ∧
      annot.members.map Prod.fst = other.members.map Prod.fst ∧
      AnnotValue.MembersHaveKinds Sample.interfaces annot.typeName annot.members ∧
      AnnotValue.MembersHaveKinds Sample.interfaces other.typeName other.members ∧
      annot.membersText = other.membersText ∧ annot ≠ other ∧
      ((ClassRecord.empty "A").addReferences
        [.ofAnnot .method annot, .ofAnnot .method other]).map ClassRecord.references =
          .ok [(⟨"p/Info", "@method(level=1.0,name=x,tags=[a,b])", .annotUse⟩, 2)] := by
  refine ⟨Sample.info 0x3FF0000000000000 "x" ["a,b"], Sample.info 0x3FF0000000000000 "x" ["a", "b"],
    rfl, rfl, Sample.haveKinds_info Sample.one_isNumber _ _,
    Sample.haveKinds_info Sample.one_isNumber _ _, ?_, ?_, ?_⟩
  · decide +kernel
  · simp [Sample.info]
  · decide +kernel

end Annot

end ModCatalog.ClassFile
