import ModCatalog.Document.Json.Reading
import ModCatalog.Text.Split

/-!
# Tags

The tag files of data packs that artifacts bring along.  A tag has a name from the place of its
file and a list of entries, each with a namespace.
-/

namespace ModCatalog

open Document

/-- A tag: its namespace and path, whether it replaces others, and its entries. -/
structure TagFile where
  name : String
  replaces : Bool
  entries : List String
deriving DecidableEq, Repr

namespace TagFile

/-- The name of the tag whose file has a path `data/<namespace>/tags/<path>.json`. -/
def name? (path : String) : Option String := do
  let rest ← Text.stripFront? "data/".toList path.toList
  let (space, rest) ← Text.splitFirst? (· = '/') rest
  let rest ← Text.stripFront? "tags/".toList rest
  let inner ← Text.stripEnd? ".json".toList rest
  if space.isEmpty || inner.isEmpty then none
  return String.ofList (space ++ '/' :: inner)

/-- The namespace of entries that name none. -/
def defaultSpace : List Char := "minecraft:".toList

/-- An entry with its namespace; a hash sign marks a reference to another tag. -/
def qualify (entry : String) : String :=
  match entry.toList with
  | cs =>
      if cs.contains ':' then entry
      else
        match cs with
        | '#' :: tag => String.ofList ('#' :: (defaultSpace ++ tag))
        | cs => String.ofList (defaultSpace ++ cs)

/-- An entry as it is given: a text, or an object with the text as its id. -/
def entry? : Json → Option String
  | .text s => some (qualify s)
  | .object members => ((Sorted.find? "id" members).bind Json.asText?).map qualify
  | _ => none

/-- The tag in a file; none if the file is no JSON or lists no entry. -/
def ofContent? (name : String) (content : List UInt8) : Option TagFile := do
  let json ← Json.ofBytes? content
  let values ← (← json.get? "values").asArray?
  let entries := values.filterMap entry?
  if entries.isEmpty then none
  return ⟨name, ((json.get? "replace").bind Json.asBool?).getD false, entries⟩

end TagFile

end ModCatalog
