import ModCatalog.Document.Json.Reading
import ModCatalog.Fault

/-!
# Enum extensions

Constants that mods add to enums of the game.  A declaration file lists them under `entries`;
entries that are not complete are left out.
-/

namespace ModCatalog

open Document

/-- A constant added to an enum, with the parameters of its constructor as they are written. -/
structure EnumExtension where
  enumName : String
  name : String
  constructor : String
  parameters : Json
deriving Repr

namespace EnumExtension

/-- The extension of an entry: an object, or an array with the same parts in order. -/
def ofEntry? : Json → Option EnumExtension
  | .object members => do
      let enumName ← (← Sorted.find? "enum" members).asText?
      let name ← (← Sorted.find? "name" members).asText?
      let constructor ← (← Sorted.find? "constructor" members).asText?
      return ⟨enumName, name, constructor, (Sorted.find? "parameters" members).getD .null⟩
  | .array [.text enumName, .text name, .text constructor] =>
      some ⟨enumName, name, constructor, .null⟩
  | .array [.text enumName, .text name, .text constructor, parameters] =>
      some ⟨enumName, name, constructor, parameters⟩
  | _ => none

def ofDocument (json : Json) : List EnumExtension :=
  match (json.get? "entries").bind Json.asArray? with
  | some entries => entries.filterMap ofEntry?
  | none => []

/-- The extensions in a file; a file that is no JSON is a fault. -/
def ofContent (content : List UInt8) : Except Fault (List EnumExtension) :=
  match Json.ofBytes? content with
  | some json => .ok (ofDocument json)
  | none => .error .json

end EnumExtension

end ModCatalog
