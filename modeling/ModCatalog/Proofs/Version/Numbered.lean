import Mathlib.Data.List.Induction
import ModCatalog.Proofs.Text.Numeral
import ModCatalog.Proofs.Version.Order

/-!
# Numbered versions

The versions that are mostly written: numerals between separators, perhaps with a qualifier behind
them.  Among those with equally many numerals the order is the one that is documented: by the
numbers first, one after another, and then by the stage that the qualifier announces.  Items that
say nothing are removed from the ends of versions, but numerals still meet numerals, and a missing
item counts like the removed one.
-/

namespace ModCatalog

/-! ## How they are written -/

/-- A decimal numeral of any length, with or without zeros in front. -/
structure Numeral where
  digits : List Char
  ne_nil : digits ≠ []
  isDigit : ∀ c ∈ digits, c.isDigit

/-- The number that a numeral writes. -/
def Numeral.value (numeral : Numeral) : Nat := Nat.ofDigitChars 10 numeral.digits 0

/-- One or more letters of ASCII in any case. -/
structure Qualifier where
  letters : List Char
  ne_nil : letters ≠ []
  isAlpha : ∀ c ∈ letters, c.isAlpha

/-- What stands between the parts of a version. -/
abbrev Separator := { c : Char // Version.isSeparator c }

/-- What a qualifier says about a version, in the order in which versions follow one another. -/
inductive Stage
  | alpha
  | beta
  | milestone
  | candidate
  | snapshot
  | release
  | servicePack
  | other (name : String)
deriving DecidableEq, Ord

/-- The stage of a qualifier in lower case. -/
def Stage.ofName : String → Stage
  | "alpha" => .alpha
  | "beta" => .beta
  | "milestone" => .milestone
  | "rc" | "cr" => .candidate
  | "snapshot" => .snapshot
  | "ga" | "final" | "release" => .release
  | "sp" => .servicePack
  | name => .other name

def Qualifier.stage (qualifier : Qualifier) : Stage :=
  .ofName (String.ofList (qualifier.letters.map Char.toLower))

/-- Numerals between separators, perhaps with a qualifier behind another separator. -/
structure NumberedVersion where
  first : Numeral
  others : List (Separator × Numeral)
  qualifier : Option (Separator × Qualifier)

namespace NumberedVersion

/-- The number of numerals. -/
def arity (version : NumberedVersion) : Nat := version.others.length + 1

def numbers (version : NumberedVersion) : List Nat :=
  version.first.value :: version.others.map fun part => part.2.value

/-- The stage that the qualifier announces; a version without one is a release. -/
def stage (version : NumberedVersion) : Stage :=
  (version.qualifier.map fun part => part.2.stage).getD .release

def text (version : NumberedVersion) : List Char :=
  version.first.digits ++ (version.others.flatMap fun part => part.1.val :: part.2.digits) ++
    version.qualifier.toList.flatMap fun part => part.1.val :: part.2.letters

/-- The version as it is written. -/
def toVersion (version : NumberedVersion) : Version := ⟨String.ofList version.text⟩

end NumberedVersion

/-! ## Characters -/

/-- A property of the first characters can be checked one by one. -/
theorem forall_ascii (property : Char → Prop)
    (h : ∀ n < 128, property (Char.ofNat n)) {c : Char} (hc : c.toNat < 128) : property c := by
  have hself := h c.toNat hc
  rwa [Char.ofNat_toNat] at hself

theorem toNat_lt_of_isAlphanum {c : Char} (h : c.isAlphanum) : c.toNat < 128 := by
  delta Char.isAlphanum Char.isAlpha Char.isUpper Char.isLower Char.isDigit at h
  simp [UInt32.le_iff_toNat_le] at h
  omega

theorem plain_of_isDigit {c : Char} (h : c.isDigit) :
    Version.isSeparator c = false ∧ Text.isBlank c = false ∧ c.toLower = c := by
  refine forall_ascii (fun c => c.isDigit → Version.isSeparator c = false ∧
    Text.isBlank c = false ∧ c.toLower = c) ?_ (toNat_lt_of_isAlphanum ?_) h
  · decide
  · simp [Char.isAlphanum, h]

theorem plain_of_isAlpha {c : Char} (h : c.isAlpha) :
    Version.isSeparator c.toLower = false ∧ c.toLower.isDigit = false ∧
      Text.isBlank c = false := by
  refine forall_ascii (fun c => c.isAlpha → Version.isSeparator c.toLower = false ∧
    c.toLower.isDigit = false ∧ Text.isBlank c = false) ?_ (toNat_lt_of_isAlphanum ?_) h
  · decide
  · simp [Char.isAlphanum, h]

theorem plain_of_isSeparator {c : Char} (h : Version.isSeparator c) :
    c.isDigit = false ∧ Text.isBlank c = false ∧ c.toLower = c := by
  simp only [Version.isSeparator, Bool.or_eq_true, decide_eq_true_eq] at h
  rcases h with ((rfl | rfl) | rfl) | rfl <;> decide

/-! ## Items -/

theorem Numeral.value_eq (numeral : Numeral) : numeral.value = Text.ofDigits numeral.digits :=
  (Text.ofDigits_eq numeral.digits).symm

/-- The name that stands for a stage among the items. -/
def Stage.name : Stage → String
  | .alpha => "alpha"
  | .beta => "beta"
  | .milestone => "milestone"
  | .candidate => "rc"
  | .snapshot => "snapshot"
  | .release => ""
  | .servicePack => "sp"
  | .other name => name

namespace Version

open VersionItem

/-- Characters of one kind continue a piece of that kind. -/
theorem itemsFrom_append (digit : Bool) (piece : List Char) {front : List Char} (rest : List Char)
    (hpiece : ∀ c ∈ piece, c.isDigit = digit)
    (hfront : ∀ c ∈ front, isSeparator c = false ∧ c.isDigit = digit) :
    itemsFrom piece (front ++ rest) = itemsFrom (piece ++ front) rest := by
  induction front generalizing piece with
  | nil => simp
  | cons c front ih =>
      obtain ⟨⟨hseparator, hdigit⟩, hrest⟩ := List.forall_mem_cons.mp hfront
      have hsame : piece.getLast?.any (isTransition · c) = false := by
        cases hlast : piece.getLast? with
        | none => rfl
        | some last => simp [isTransition, hpiece last (List.mem_of_getLast? hlast), hdigit]
      have hlonger : ∀ other ∈ piece ++ [c], other.isDigit = digit := by
        simpa [or_imp, forall_and] using ⟨hpiece, hdigit⟩
      rw [List.cons_append, itemsFrom, if_neg (by simp [hseparator]), if_neg (by simp [hsame]),
        ih _ hlonger hrest]
      simp

theorem itemOf_digits (numeral : Numeral) (next : Option Char) :
    itemOf numeral.digits next = [.number numeral.value] := by
  have hall : numeral.digits.all Char.isDigit := List.all_eq_true.mpr numeral.isDigit
  simp [itemOf, ofPiece, hall, numeral.ne_nil, numeral.value_eq]

theorem itemsFrom_digits (numeral : Numeral) (rest : List Char) :
    itemsFrom [] (numeral.digits ++ rest) = itemsFrom numeral.digits rest := by
  refine itemsFrom_append true [] rest (List.forall_mem_nil _) ?_
  intro c hc
  have hdigit := numeral.isDigit c hc
  exact ⟨(plain_of_isDigit hdigit).1, hdigit⟩

theorem itemsFrom_separator (numeral : Numeral) (separator : Separator) (rest : List Char) :
    itemsFrom numeral.digits (separator.val :: rest) =
      .number numeral.value :: itemsFrom [] rest := by
  rw [itemsFrom, if_pos separator.property, itemOf_digits]
  rfl

theorem ofPiece_letters (name : String) (hdigit : name.toList.all Char.isDigit = false) :
    ofPiece name.toList none = .qualifier (Stage.ofName name).name := by
  unfold ofPiece
  rw [if_neg (by simp [hdigit]), String.ofList_toList]
  unfold Stage.ofName
  simp only [Option.any_none]
  split <;> split <;> simp_all [Stage.name]

/-- A qualifier at the end of a version is the name of its stage. -/
theorem itemsFrom_qualifier (qualifier : Qualifier) :
    itemsFrom [] (qualifier.letters.map Char.toLower) = [.qualifier qualifier.stage.name] := by
  have hletters : ∀ c ∈ qualifier.letters.map Char.toLower,
      isSeparator c = false ∧ c.isDigit = false := by
    intro c hc
    obtain ⟨letter, hletter, rfl⟩ := List.mem_map.mp hc
    obtain ⟨hseparator, hdigit, -⟩ := plain_of_isAlpha (qualifier.isAlpha letter hletter)
    exact ⟨hseparator, hdigit⟩
  have hdigit : (qualifier.letters.map Char.toLower).all Char.isDigit = false := by
    obtain ⟨c, hc⟩ := List.exists_mem_of_ne_nil _ qualifier.ne_nil
    have hlower : c.toLower ∈ qualifier.letters.map Char.toLower := List.mem_map_of_mem hc
    rw [List.all_eq_false]
    exact ⟨c.toLower, hlower, by simp [(hletters _ hlower).2]⟩
  have hpiece := itemsFrom_append false [] [] (List.forall_mem_nil _) hletters
  have hitem := ofPiece_letters (String.ofList (qualifier.letters.map Char.toLower))
    (by rwa [String.toList_ofList])
  rw [String.toList_ofList] at hitem
  rw [List.append_nil, List.nil_append] at hpiece
  rw [hpiece, itemsFrom, itemOf, if_neg (by simp [qualifier.ne_nil]), hitem]
  rfl

/-- Numerals between separators are the numbers that they write. -/
theorem itemsFrom_numerals (numeral : Numeral) (others : List (Separator × Numeral))
    {rest : List Char} {last : List VersionItem}
    (hrest : ∀ final : Numeral, itemsFrom final.digits rest = .number final.value :: last) :
    itemsFrom [] (numeral.digits ++
        ((others.flatMap fun part => part.1.val :: part.2.digits) ++ rest)) =
      (numeral.value :: others.map fun part => part.2.value).map .number ++ last := by
  rw [itemsFrom_digits]
  induction others generalizing numeral with
  | nil => simpa using hrest numeral
  | cons part others ih =>
      have hothers := ih part.2
      rw [← itemsFrom_digits] at hothers
      rw [List.flatMap_cons, List.append_assoc, List.cons_append, itemsFrom_separator, hothers]
      simp

end Version

namespace NumberedVersion

open Version

/-- The items of a numbered version before those at the end that say nothing are removed. -/
def items (version : NumberedVersion) : List VersionItem :=
  version.numbers.map .number ++
    version.qualifier.toList.map fun part => .qualifier part.2.stage.name

theorem not_isBlank_of_mem_text (version : NumberedVersion) :
    ∀ c ∈ version.text, Text.isBlank c = false := by
  have hdigits : ∀ numeral : Numeral, ∀ c ∈ numeral.digits, Text.isBlank c = false :=
    fun numeral c hc => (plain_of_isDigit (numeral.isDigit c hc)).2.1
  have hseparator : ∀ separator : Separator, Text.isBlank separator.val = false :=
    fun separator => (plain_of_isSeparator separator.property).2.1
  unfold text
  simp only [List.forall_mem_append, List.forall_mem_flatMap, List.forall_mem_cons]
  refine ⟨⟨hdigits _, fun part _ => ⟨hseparator _, hdigits _⟩⟩, fun part _ => ⟨hseparator _, ?_⟩⟩
  exact fun c hc => (plain_of_isAlpha (part.2.isAlpha c hc)).2.2

theorem lower_text (version : NumberedVersion) :
    version.text.map Char.toLower = version.first.digits ++
      ((version.others.flatMap fun part => part.1.val :: part.2.digits) ++
        version.qualifier.toList.flatMap fun part =>
          part.1.val :: part.2.letters.map Char.toLower) := by
  have hdigits : ∀ numeral : Numeral, numeral.digits.map Char.toLower = numeral.digits := by
    intro numeral
    conv_rhs => rw [← List.map_id numeral.digits]
    exact List.map_congr_left fun c hc => (plain_of_isDigit (numeral.isDigit c hc)).2.2
  have hseparator : ∀ separator : Separator, separator.val.toLower = separator.val :=
    fun separator => (plain_of_isSeparator separator.property).2.2
  unfold text
  simp only [List.map_append, List.map_flatMap, List.map_cons, hdigits, hseparator,
    List.append_assoc]

theorem items_toVersion (version : NumberedVersion) :
    version.toVersion.items = dropNullEnd version.items := by
  have htrim : Text.trimBlanks version.text = version.text := by
    refine Text.trimBlanks_eq_self (fun c hc => ?_) (fun c hc => ?_)
    · exact version.not_isBlank_of_mem_text c (List.mem_of_head? hc)
    · exact version.not_isBlank_of_mem_text c (List.mem_of_getLast? hc)
  have hitems : itemsFrom [] (version.text.map Char.toLower) = version.items := by
    rw [lower_text]
    refine itemsFrom_numerals version.first version.others fun final => ?_
    cases version.qualifier with
    | none => simpa [itemsFrom] using itemOf_digits final none
    | some part =>
        simpa [itemsFrom_qualifier] using
          itemsFrom_separator final part.1 (part.2.letters.map Char.toLower)
  unfold toVersion Version.items
  rw [String.toList_ofList, htrim, hitems]

end NumberedVersion

/-! ## Comparison -/

namespace Version

open VersionItem

/-- Whether two items are both numbers or both qualifiers. -/
def SameKind : VersionItem → VersionItem → Prop
  | .number _, .number _ => True
  | .qualifier _, .qualifier _ => True
  | _, _ => False

/-- Whether the items that two lists have at one place are of one kind. -/
def AreAligned : List VersionItem → List VersionItem → Prop
  | item :: a, other :: b => SameKind item other ∧ AreAligned a b
  | _, _ => True

theorem AreAligned.symm {a b : List VersionItem} (h : AreAligned a b) : AreAligned b a := by
  induction a generalizing b with
  | nil => cases b <;> trivial
  | cons item rest ih =>
      cases b with
      | nil => trivial
      | cons other more =>
          refine ⟨?_, ih h.2⟩
          have hkind := h.1
          cases item <;> cases other <;> exact hkind

theorem AreAligned.of_append {a b more : List VersionItem} (h : AreAligned (a ++ more) b) :
    AreAligned a b := by
  induction a generalizing b with
  | nil => trivial
  | cons item rest ih =>
      cases b with
      | nil => trivial
      | cons other others => exact ⟨h.1, ih h.2⟩

/-- A last item that says nothing counts like a missing one, whatever stands at its place. -/
theorem compareItems_append_null {a b : List VersionItem} {item : VersionItem}
    (hnull : item.isNull) (h : AreAligned (a ++ [item]) b) :
    compareItems (a ++ [item]) b = compareItems a b := by
  induction a generalizing b with
  | nil =>
      have hmissing := (compareMissing_eq_iff item).mpr hnull
      cases b with
      | nil => simp [compareItems, hmissing]
      | cons other rest =>
          have hsame : item.compareItem other = other.compareMissing.swap := by
            have hkind : SameKind item other := h.1
            cases item <;> cases other <;> simp only [SameKind] at hkind
            · simp only [isNull, decide_eq_true_eq] at hnull
              simp [hnull, compareItem, compareMissing, Nat.compare_swap]
            · simp only [isNull, decide_eq_true_eq] at hnull
              rw [hnull, compareItem, compareMissing, ← compareQualifiers_swap]
          simp [compareItems, hsame]
  | cons first rest ih =>
      cases b with
      | nil =>
          have hrest : AreAligned (rest ++ [item]) [] := by cases rest <;> trivial
          simp [compareItems, ih hrest]
      | cons other more => simp [compareItems, ih h.2]

theorem dropNullEnd_append (items : List VersionItem) (item : VersionItem) :
    dropNullEnd (items ++ [item]) = if item.isNull then dropNullEnd items else items ++ [item] := by
  by_cases hnull : item.isNull <;> simp [dropNullEnd, hnull]

theorem compareItems_dropNullEnd {a b : List VersionItem} (h : AreAligned a b) :
    compareItems (dropNullEnd a) b = compareItems a b ∧ AreAligned (dropNullEnd a) b := by
  induction a using List.reverseRecOn with
  | nil => exact ⟨rfl, h⟩
  | append_singleton items item ih =>
      rw [dropNullEnd_append]
      by_cases hnull : item.isNull
      · obtain ⟨hcompare, haligned⟩ := ih h.of_append
        rw [if_pos hnull, compareItems_append_null hnull h]
        exact ⟨hcompare, haligned⟩
      · rw [if_neg hnull]
        exact ⟨rfl, h⟩

/-- Removing the items that say nothing from the ends of two lists changes nothing where numbers
meet numbers. -/
theorem compareItems_trimmed {a b : List VersionItem} (h : AreAligned a b) :
    compareItems (dropNullEnd a) (dropNullEnd b) = compareItems a b := by
  obtain ⟨hleft, haligned⟩ := compareItems_dropNullEnd h
  obtain ⟨hright, -⟩ := compareItems_dropNullEnd haligned.symm
  rw [compareItems_swap, hright, ← compareItems_swap, hleft]

end Version

/-! ## Stages -/

namespace Stage

/-- Whether the name of a stage stands for no other one. -/
def IsProper : Stage → Prop
  | .other name => name ∉ VersionItem.knownQualifiers
  | _ => True

theorem isProper_ofName {name : String} (h : name ≠ "") : (ofName name).IsProper := by
  unfold ofName
  split <;> simp_all [IsProper, VersionItem.knownQualifiers]

/-- A stage that is not named by the order of stages is told by its name. -/
def text : Stage → String
  | .other name => name
  | _ => ""

theorem compare_eq (a b : Stage) :
    compare a b = (compare a.ctorIdx b.ctorIdx).then (compare a.text b.text) := by
  cases a <;> cases b <;> try rfl
  exact Ordering.then_eq

theorem qualifierRank_name {stage : Stage} (h : stage.IsProper) :
    VersionItem.qualifierRank stage.name = stage.ctorIdx := by
  cases stage with
  | other name =>
      have hlast : ¬ VersionItem.qualifierRank name < VersionItem.knownQualifiers.length := by
        rw [VersionItem.qualifierRank_lt_iff]
        exact h
      exact Nat.le_antisymm List.findIdx_le_length (Nat.le_of_not_lt hlast)
  | _ => decide

theorem qualifierText_name {stage : Stage} (h : stage.IsProper) :
    VersionItem.qualifierText stage.name = stage.text := by
  cases stage with
  | other name =>
      have hnot : name ∉ VersionItem.knownQualifiers := h
      simp [VersionItem.qualifierText, Stage.name, text, hnot]
  | _ => decide

theorem compareQualifiers_name {a b : Stage} (ha : a.IsProper) (hb : b.IsProper) :
    VersionItem.compareQualifiers a.name b.name = compare a b := by
  rw [VersionItem.compareQualifiers, qualifierRank_name ha, qualifierRank_name hb,
    qualifierText_name ha, qualifierText_name hb, compare_eq]

end Stage

theorem Qualifier.isProper_stage (qualifier : Qualifier) : qualifier.stage.IsProper := by
  refine Stage.isProper_ofName fun hempty => qualifier.ne_nil ?_
  simpa using congrArg String.toList hempty

namespace NumberedVersion

open Version (compareItems AreAligned)

theorem isProper_stage (version : NumberedVersion) : version.stage.IsProper := by
  unfold stage
  cases version.qualifier with
  | none => trivial
  | some part => exact part.2.isProper_stage

/-- Two versions of one arity differ in their numbers first, then in what follows them. -/
theorem compareItems_numbers {a b : List Nat} (h : a.length = b.length)
    (last other : List VersionItem) :
    compareItems (a.map .number ++ last) (b.map .number ++ other) =
      (compare a b).then (compareItems last other) := by
  induction a generalizing b with
  | nil =>
      obtain rfl := List.eq_nil_of_length_eq_zero h.symm
      rfl
  | cons value rest ih =>
      cases b with
      | nil => cases h
      | cons other more =>
          have hrest := ih (Nat.succ.inj h)
          simp [compareItems, VersionItem.compareItem, List.compare_cons_cons, hrest,
            Ordering.then_assoc]

theorem areAligned_numbers {a b : List Nat} (h : a.length = b.length)
    {last other : List VersionItem} (hlast : AreAligned last other) :
    AreAligned (a.map .number ++ last) (b.map .number ++ other) := by
  induction a generalizing b with
  | nil =>
      obtain rfl := List.eq_nil_of_length_eq_zero h.symm
      exact hlast
  | cons value rest ih =>
      cases b with
      | nil => cases h
      | cons other more => exact ⟨trivial, ih (Nat.succ.inj h)⟩

/-- A missing qualifier counts like that of a release. -/
theorem compareItems_qualifiers (a b : NumberedVersion) :
    compareItems (a.qualifier.toList.map fun part => .qualifier part.2.stage.name)
        (b.qualifier.toList.map fun part => .qualifier part.2.stage.name) =
      VersionItem.compareQualifiers a.stage.name b.stage.name := by
  unfold stage
  cases a.qualifier with
  | none =>
      cases b.qualifier with
      | none =>
          have hsame : VersionItem.compareQualifiers Stage.release.name Stage.release.name = .eq :=
            VersionItem.compareQualifiers_eq_iff.mpr rfl
          simpa [compareItems] using hsame.symm
      | some part =>
          simp [compareItems, VersionItem.compareMissing, Stage.name,
            ← VersionItem.compareQualifiers_swap]
  | some part =>
      cases b.qualifier with
      | none => simp [compareItems, VersionItem.compareMissing, Stage.name]
      | some other => simp [compareItems, VersionItem.compareItem]

/-- Numbered versions of one arity compare as documented: by their numbers, one after another, and
where these are the same by their stages. -/
theorem compare_toVersion (a b : NumberedVersion) (h : a.arity = b.arity) :
    a.toVersion.compare b.toVersion =
      (compare a.numbers b.numbers).then (compare a.stage b.stage) := by
  have hlength : a.numbers.length = b.numbers.length := by
    simpa [numbers, arity] using h
  have haligned : AreAligned a.items b.items := by
    refine areAligned_numbers hlength ?_
    cases a.qualifier <;> cases b.qualifier <;> simp [AreAligned, Version.SameKind]
  calc a.toVersion.compare b.toVersion
      = compareItems (Version.dropNullEnd a.items) (Version.dropNullEnd b.items) := by
        rw [Version.compare, items_toVersion, items_toVersion]
    _ = compareItems a.items b.items := Version.compareItems_trimmed haligned
    _ = (compare a.numbers b.numbers).then
          (VersionItem.compareQualifiers a.stage.name b.stage.name) := by
        unfold items
        rw [compareItems_numbers hlength, compareItems_qualifiers]
    _ = (compare a.numbers b.numbers).then (compare a.stage b.stage) := by
        rw [Stage.compareQualifiers_name a.isProper_stage b.isProper_stage]

/-- A candidate of a release with zeros in front of a number: `1.007-RC`. -/
def sampleCandidate : NumberedVersion where
  first := ⟨['1'], nofun, List.all_eq_true.mp rfl⟩
  others := [(⟨'.', rfl⟩, ⟨['0', '0', '7'], nofun, List.all_eq_true.mp rfl⟩)]
  qualifier := some (⟨'-', rfl⟩, ⟨['R', 'C'], nofun, List.all_eq_true.mp rfl⟩)

/-- A release whose last number says nothing: `01_0+ga`. -/
def sampleRelease : NumberedVersion where
  first := ⟨['0', '1'], nofun, List.all_eq_true.mp rfl⟩
  others := [(⟨'_', rfl⟩, ⟨['0'], nofun, List.all_eq_true.mp rfl⟩)]
  qualifier := some (⟨'+', rfl⟩, ⟨['g', 'a'], nofun, List.all_eq_true.mp rfl⟩)

theorem compare_toVersion_samples : sampleCandidate.arity = sampleRelease.arity ∧
    (⟨"1.007-RC"⟩ : Version).compare ⟨"01_0+ga"⟩ = .gt :=
  ⟨rfl, compare_toVersion sampleCandidate sampleRelease rfl⟩

end NumberedVersion

end ModCatalog
