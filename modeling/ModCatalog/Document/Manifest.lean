import ModCatalog.Collection.Sorted
import ModCatalog.Text.Blank
import ModCatalog.Text.Split

/-!
# Manifests

The main section of a jar's manifest: lines `Name: value` up to the first empty one.  A line that
starts with a space continues the value of the last attribute.
-/

namespace ModCatalog.Document.Manifest

/-- The attributes of a manifest, by name. -/
abbrev Attributes := List (String × String)

/-- Remove the carriage return in front of a line feed. -/
def dropReturn (line : List Char) : List Char :=
  if line.getLast? = some '\r' then line.dropLast else line

/-- The lines of a text; a line feed ends a line, and what follows the last one is a line if not
empty. -/
def lines (text : List Char) : List (List Char) :=
  let parts := Text.splitAll (· = '\n') text
  let last := parts.getLast?.getD []
  parts.dropLast.map dropReturn ++ if last.isEmpty then [] else [last]

/-- The attributes read so far, and the name of the last one. -/
structure Section where
  attributes : Attributes
  last : Option String
deriving DecidableEq, Repr

namespace Section

/-- Before the first line. -/
def start : Section := ⟨[], none⟩

/-- The value after the colon, without the one space in front of it. -/
def valueOf : List Char → List Char
  | ' ' :: value => value
  | value => value

/-- Append a continuation to the value of the last attribute. -/
def continue_ (sec : Section) (more : List Char) : Section :=
  match sec.last with
  | none => sec
  | some name =>
      match Sorted.find? name sec.attributes with
      | none => sec
      | some value =>
          { sec with
            attributes := Sorted.insert name (value ++ String.ofList more) sec.attributes }

/-- Take one line that is not empty into the section. -/
def addLine (sec : Section) (line : List Char) : Section :=
  match line with
  | ' ' :: more => sec.continue_ more
  | line =>
      match Text.splitFirst? (· = ':') line with
      | none => sec
      | some (name, value) =>
          let name := String.ofList (Text.trimBlanks name)
          ⟨Sorted.insert name (String.ofList (valueOf value)) sec.attributes, some name⟩

end Section

/-- The attributes of the main section of a manifest. -/
def parse (text : List Char) : Attributes :=
  let main := (lines text).takeWhile fun line => !line.isEmpty
  (main.foldl Section.addLine Section.start).attributes

def value? (attributes : Attributes) (name : String) : Option String := Sorted.find? name attributes

end ModCatalog.Document.Manifest
