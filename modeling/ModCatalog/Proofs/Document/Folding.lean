import ModCatalog.Document.Manifest
import ModCatalog.Proofs.Collection.Sorted
import ModCatalog.Proofs.Text.Split

/-!
# Folded manifests

A manifest may hold the value of an attribute in pieces: the first one behind the name, each further
one on a line of its own behind a space.  Wherever the values are cut and however each line ends, the
pieces are put together again, and nothing behind an empty line counts.
-/

namespace ModCatalog.Document.Manifest

/-! ## Written manifests -/

/-- How a line ends. -/
inductive LineEnd
  | feed
  | returnFeed
deriving DecidableEq, Repr

def LineEnd.written : LineEnd → List Char
  | .feed => ['\n']
  | .returnFeed => ['\r', '\n']

/-- Whether no line ends within a text. -/
def IsUnbroken (text : List Char) : Prop := '\r' ∉ text ∧ '\n' ∉ text

instance (text : List Char) : Decidable (IsUnbroken text) := inferInstanceAs (Decidable (_ ∧ _))

/-- A name of attributes. -/
structure AttributeName where
  text : List Char
  unbroken : IsUnbroken text
  noColon : ':' ∉ text
  nonempty : text ≠ []
  first : ∀ c ∈ text.head?, Text.isBlank c = false
  last : ∀ c ∈ text.getLast?, Text.isBlank c = false

/-- A piece of a value, with the end of the line that it is on. -/
structure Piece where
  text : List Char
  unbroken : IsUnbroken text
  ending : LineEnd

def Piece.written (piece : Piece) : List Char := piece.text ++ piece.ending.written

/-- An attribute whose value is in one or more pieces. -/
structure FoldedAttribute where
  name : AttributeName
  first : Piece
  more : List Piece

namespace FoldedAttribute

/-- The name, and all pieces as one value. -/
def entry (folded : FoldedAttribute) : String × String :=
  (String.ofList folded.name.text,
    String.ofList (folded.first.text ++ folded.more.flatMap Piece.text))

/-- The lines of an attribute. -/
def lines (folded : FoldedAttribute) : List (List Char) :=
  (folded.name.text ++ ':' :: ' ' :: folded.first.text) ::
    folded.more.map fun piece => ' ' :: piece.text

def written (folded : FoldedAttribute) : List Char :=
  folded.name.text ++ ':' :: ' ' :: folded.first.written ++
    folded.more.flatMap fun piece => ' ' :: piece.written

end FoldedAttribute

/-- What stands behind the attributes. -/
inductive Closing
  | endOfText
  | emptyLine (ending : LineEnd) (rest : List Char)

def Closing.written : Closing → List Char
  | .endOfText => []
  | .emptyLine ending rest => ending.written ++ rest

/-- A main section, with what stands behind it. -/
def written (attributes : List FoldedAttribute) (closing : Closing) : List Char :=
  attributes.flatMap FoldedAttribute.written ++ closing.written

/-! ## Lines -/

theorem lines_cons {line : List Char} (hline : '\n' ∉ line) (rest : List Char) :
    lines (line ++ '\n' :: rest) = dropReturn line :: lines rest := by
  have hsingle : Text.splitAll (· = '\n') line = [line] :=
    Text.splitAll_eq_self fun c hc => by
      rw [decide_eq_false_iff_not]
      rintro rfl
      exact hline hc
  have hsome : Text.splitAll (· = '\n') rest ≠ [] := Text.splitAll_ne_nil _ rest
  have hparts : Text.splitAll (· = '\n') (line ++ '\n' :: rest) =
      line :: Text.splitAll (· = '\n') rest := by
    rw [Text.splitAll_append (by simp), hsingle, List.singleton_append]
  simp only [lines, hparts, List.getLast?_cons_of_ne_nil hsome, List.dropLast_cons_of_ne_nil hsome,
    List.map_cons, List.cons_append]

/-- The end of a line is no part of it, whichever end it is. -/
theorem lines_append {line : List Char} (hline : IsUnbroken line) (ending : LineEnd)
    (rest : List Char) : lines (line ++ ending.written ++ rest) = line :: lines rest := by
  cases ending with
  | feed =>
      have hlast : line.getLast? ≠ some '\r' := fun h => hline.1 (List.mem_of_getLast? h)
      rw [LineEnd.written, List.append_assoc, List.singleton_append, lines_cons hline.2, dropReturn,
        if_neg hlast]
  | returnFeed =>
      have hreturn : '\n' ∉ line ++ ['\r'] := by simpa using hline.2
      have hsplit : line ++ LineEnd.returnFeed.written ++ rest = line ++ ['\r'] ++ '\n' :: rest := by
        simp [LineEnd.written]
      rw [hsplit, lines_cons hreturn, dropReturn]
      simp

theorem lines_pieces (pieces : List Piece) (rest : List Char) :
    lines ((pieces.flatMap fun piece => ' ' :: piece.written) ++ rest) =
      (pieces.map fun piece => ' ' :: piece.text) ++ lines rest := by
  induction pieces with
  | nil => rfl
  | cons piece pieces ih =>
      have hpiece : IsUnbroken (' ' :: piece.text) := by simpa [IsUnbroken] using piece.unbroken
      rw [List.flatMap_cons, Piece.written, ← List.cons_append, List.append_assoc _ _ rest,
        lines_append hpiece, ih]
      rfl

theorem FoldedAttribute.lines_written (folded : FoldedAttribute) (rest : List Char) :
    Manifest.lines (folded.written ++ rest) = folded.lines ++ Manifest.lines rest := by
  have hname := folded.name.unbroken
  have hfirst : IsUnbroken (folded.name.text ++ ':' :: ' ' :: folded.first.text) := by
    have hpiece := folded.first.unbroken
    simp only [IsUnbroken] at hname hpiece ⊢
    simp [hname, hpiece]
  have hsplit : folded.written ++ rest =
      (folded.name.text ++ ':' :: ' ' :: folded.first.text) ++ folded.first.ending.written ++
        ((folded.more.flatMap fun piece => ' ' :: piece.written) ++ rest) := by
    simp [written, Piece.written]
  rw [hsplit, lines_append hfirst, lines_pieces]
  rfl

theorem FoldedAttribute.ne_nil_of_mem_lines {folded : FoldedAttribute} {line : List Char}
    (h : line ∈ folded.lines) : line ≠ [] := by
  rcases List.mem_cons.mp h with rfl | hmore
  · simp
  · obtain ⟨piece, -, rfl⟩ := List.mem_map.mp hmore
    simp

theorem Closing.takeWhile_lines (closing : Closing) :
    (Manifest.lines closing.written).takeWhile (fun line => !line.isEmpty) = [] := by
  cases closing with
  | endOfText => rfl
  | emptyLine ending rest =>
      have hempty : IsUnbroken [] := by decide
      have hlines := lines_append hempty ending rest
      rw [List.nil_append] at hlines
      rw [written, hlines]
      rfl

/-- The main section consists of the lines of its attributes. -/
theorem mainLines_written (attributes : List FoldedAttribute) (closing : Closing) :
    (lines (written attributes closing)).takeWhile (fun line => !line.isEmpty) =
      attributes.flatMap FoldedAttribute.lines := by
  unfold written
  induction attributes with
  | nil => exact closing.takeWhile_lines
  | cons folded attributes ih =>
      have hsome : ∀ line ∈ folded.lines, (!line.isEmpty) = true := by
        intro line hline
        simpa using FoldedAttribute.ne_nil_of_mem_lines hline
      rw [List.flatMap_cons, List.append_assoc, folded.lines_written,
        List.takeWhile_append_of_pos hsome, ih, List.flatMap_cons]

/-! ## Attributes -/

namespace Section

/-- A line with a name starts an attribute. -/
theorem addLine_name (sec : Section) (name : AttributeName) (value : List Char) :
    sec.addLine (name.text ++ ':' :: ' ' :: value) =
      ⟨Sorted.insert (String.ofList name.text) (String.ofList value) sec.attributes,
        some (String.ofList name.text)⟩ := by
  have hcut : Text.splitFirst? (· = ':') (name.text ++ ':' :: ' ' :: value) =
      some (name.text, ' ' :: value) := by
    refine Text.splitFirst?_eq_some_iff.mpr ⟨':', by simp, fun c hc => ?_, rfl⟩
    rw [decide_eq_false_iff_not]
    rintro rfl
    exact name.noColon hc
  have hblanks : Text.trimBlanks name.text = name.text := Text.trimBlanks_eq_self name.first name.last
  obtain ⟨c, chars, hchars⟩ := List.exists_cons_of_ne_nil name.nonempty
  have hnospace : c ≠ ' ' := by
    rintro rfl
    have hblank := name.first ' ' (by simp [hchars])
    revert hblank
    decide
  have hline : name.text ++ ':' :: ' ' :: value = c :: (chars ++ ':' :: ' ' :: value) := by
    rw [hchars, List.cons_append]
  unfold addLine
  split
  · next hspace =>
      rw [hline] at hspace
      exact absurd (List.cons.inj hspace).1 hnospace
  · rw [hcut]
    simp only [hblanks, valueOf]

/-- A continuation goes on with the attribute that was started last. -/
theorem addLine_piece (attributes : Attributes) (name : String) (value more : List Char) :
    addLine ⟨Sorted.insert name (String.ofList value) attributes, some name⟩ (' ' :: more) =
      ⟨Sorted.insert name (String.ofList (value ++ more)) attributes, some name⟩ := by
  simp only [addLine, continue_, Sorted.find?_insert_self, Sorted.insert_insert, String.ofList_append]

theorem foldl_addLine_pieces (attributes : Attributes) (name : String) (value : List Char)
    (pieces : List Piece) :
    (pieces.map fun piece => ' ' :: piece.text).foldl addLine
        ⟨Sorted.insert name (String.ofList value) attributes, some name⟩ =
      ⟨Sorted.insert name (String.ofList (value ++ pieces.flatMap Piece.text)) attributes,
        some name⟩ := by
  induction pieces generalizing value with
  | nil => simp
  | cons piece pieces ih =>
      rw [List.map_cons, List.foldl_cons, addLine_piece, ih, List.flatMap_cons, List.append_assoc]

/-- The lines of one attribute put it among the others with its whole value. -/
theorem foldl_addLine_attribute (sec : Section) (folded : FoldedAttribute) :
    folded.lines.foldl addLine sec =
      ⟨Sorted.insert folded.entry.1 folded.entry.2 sec.attributes,
        some folded.entry.1⟩ := by
  unfold FoldedAttribute.lines
  rw [List.foldl_cons, addLine_name, foldl_addLine_pieces]
  rfl

theorem foldl_addLine_attributes (attributes : List FoldedAttribute) :
    ((attributes.flatMap FoldedAttribute.lines).foldl addLine start).attributes =
      Sorted.ofList (attributes.map FoldedAttribute.entry) := by
  induction attributes using List.reverseRecOn with
  | nil => rfl
  | append_singleton attributes last ih =>
      rw [List.flatMap_append, List.foldl_append, List.flatMap_singleton, foldl_addLine_attribute, ih,
        List.map_append, List.map_singleton, Sorted.ofList_concat]

end Section

/-- A manifest is read as its attributes, of several with one name the last. -/
theorem parse_written (attributes : List FoldedAttribute) (closing : Closing) :
    parse (written attributes closing) =
      Sorted.ofList (attributes.map FoldedAttribute.entry) := by
  unfold parse
  rw [mainLines_written, Section.foldl_addLine_attributes]

/-- Attributes of different names are read back, each with its value in one piece. -/
theorem parse_unfolds (attributes : List FoldedAttribute)
    (hnames : (attributes.map fun folded => folded.entry.1).Nodup) (closing : Closing) :
    (parse (written attributes closing)).Perm (attributes.map FoldedAttribute.entry) ∧
      ∀ name value, value? (parse (written attributes closing)) name = some value ↔
        ∃ folded ∈ attributes, folded.entry = (name, value) := by
  have hkeys : ((attributes.map FoldedAttribute.entry).map Prod.fst).Nodup := by
    rw [List.map_map]
    exact hnames
  have hperm : (parse (written attributes closing)).Perm (attributes.map FoldedAttribute.entry) := by
    rw [parse_written]
    exact Sorted.perm_ofList hkeys
  have hunique : ((parse (written attributes closing)).map Prod.fst).Nodup :=
    (hperm.map Prod.fst).nodup_iff.mpr hkeys
  refine ⟨hperm, fun name value => ?_⟩
  calc value? (parse (written attributes closing)) name = some value
      ↔ (name, value) ∈ parse (written attributes closing) :=
        ⟨Sorted.mem_of_find?_eq_some, Sorted.find?_of_mem hunique⟩
    _ ↔ (name, value) ∈ attributes.map FoldedAttribute.entry := hperm.mem_iff
    _ ↔ ∃ folded ∈ attributes, folded.entry = (name, value) := List.mem_map

/-- An attribute that starts with an empty piece and goes on with a space and a colon, and one on a
single line. -/
def foldedSample : List FoldedAttribute := [
  { name := ⟨['T', ' ', '1'], by decide, by decide, by decide, by rintro _ ⟨⟩; rfl,
      by rintro _ ⟨⟩; rfl⟩
    first := ⟨[], by decide, .returnFeed⟩
    more := [⟨[' ', 'a', ':'], by decide, .feed⟩, ⟨[], by decide, .returnFeed⟩,
      ⟨['b'], by decide, .feed⟩] },
  { name := ⟨['S'], by decide, by decide, by decide, by rintro _ ⟨⟩; rfl, by rintro _ ⟨⟩; rfl⟩
    first := ⟨[':', 'c', ' '], by decide, .returnFeed⟩
    more := [] }]

theorem parse_unfolds_sample :
    (foldedSample.map fun folded => folded.entry.1).Nodup ∧
      String.ofList (written foldedSample (.emptyLine .returnFeed ['S', ':', 'd'])) =
        "T 1: \r\n  a:\n \r\n b\nS: :c \r\n\r\nS:d" ∧
      (parse (written foldedSample (.emptyLine .returnFeed ['S', ':', 'd']))).Perm
        [("T 1", " a:b"), ("S", ":c ")] :=
  ⟨by decide, by decide, (parse_unfolds foldedSample (by decide) _).1⟩

end ModCatalog.Document.Manifest
