import ModCatalog.Document.Toml.Phrase

/-!
# TOML documents

A document is a sequence of lines: headers that open tables, and keys with values in the table that
is open.
-/

namespace ModCatalog.Document.Toml

/-- A document while it is read: what is complete, and the table that is open. -/
structure Partial where
  root : Members
  /-- The path of the open table; empty at the top of the document. -/
  path : List String
  /-- Whether the open table is an element of an array of tables. -/
  isElement : Bool
  members : Members
deriving Repr

namespace Partial

/-- Before the first line. -/
def start : Partial := ⟨[], [], false, []⟩

/-- Append an element to an array of tables. -/
def pushElement (key : String) (element : Members) (members : Members) : Option Members :=
  match find? key members with
  | some (.tables elements) => some (set key (.tables (elements ++ [element])) members)
  | none => some (set key (.tables [element]) members)
  | some _ => none

/-- Put the open table into the document. -/
def close? (doc : Partial) : Option Members :=
  match doc.path.getLast? with
  | none => some doc.members
  | some key =>
      let place := if doc.isElement then pushElement key doc.members
        else addNew key (.table .header doc.members)
      updateAt place doc.path.dropLast doc.root

/-- Take a table that is only implied out of its parent, with its members; any other must not be
there. -/
def implied? (key : String) (members : Members) : Option Members :=
  match find? key members with
  | none => some []
  | some (.table .implied inner) => some inner
  | some _ => none

/-- The members of the table that a path of header keys leads to, if the way is open. -/
def membersAt? : List String → Members → Option Members
  | [], members => some members
  | key :: path, members =>
      match find? key members with
      | none => membersAt? path []
      | some (.table _ inner) => membersAt? path inner
      | some (.tables elements) => (elements.getLast?).bind (membersAt? path)
      | some _ => none

def openTable? (doc : Partial) (path : List String) : Option Partial := do
  let root ← doc.close?
  let key ← path.getLast?
  let parent ← membersAt? path.dropLast root
  let members ← implied? key parent
  let root ← updateAt (fun members => some (remove key members)) path.dropLast root
  return ⟨root, path, false, members⟩

def canHoldTables (key : String) (members : Members) : Bool :=
  match find? key members with
  | none => true
  | some (.tables _) => true
  | some _ => false

/-- Open a new element of the array of tables of a header. -/
def openElement? (doc : Partial) (path : List String) : Option Partial := do
  let root ← doc.close?
  let key ← path.getLast?
  let parent ← membersAt? path.dropLast root
  if canHoldTables key parent then return ⟨root, path, true, []⟩ else none

def add? (doc : Partial) (path : List String) (value : Toml) : Option Partial :=
  (addDotted value path true doc.members).map fun members => { doc with members := members }

/-- The phrase at the start of a line, with what remains after its line. -/
def line? (doc : Partial) (cs : List Char) : Option (Partial × List Char) :=
  match cs with
  | '#' :: _ => (lineRest? cs).map fun rest => (doc, rest)
  | '\n' :: rest => some (doc, rest)
  | '\r' :: rest => (char? '\n' rest).map fun rest => (doc, rest)
  | '[' :: '[' :: rest => do
      let (path, rest) ← key? rest
      let rest ← char? ']' rest
      let rest ← char? ']' rest
      let rest ← lineRest? rest
      return (← doc.openElement? path, rest)
  | '[' :: rest => do
      let (path, rest) ← key? rest
      let rest ← char? ']' rest
      let rest ← lineRest? rest
      return (← doc.openTable? path, rest)
  | cs => do
      let (path, rest) ← key? cs
      let rest ← char? '=' rest
      let rest := skipSpace rest
      let (value, rest) ← value? (2 * rest.length + 2) nestingLimit rest
      let rest ← lineRest? rest
      return (← doc.add? path value, rest)

/-- Read lines to the end; `bound` is at least their number. -/
def lines? : Nat → Partial → List Char → Option Partial
  | 0, _, _ => none
  | bound + 1, doc, cs =>
      match skipSpace cs with
      | [] => some doc
      | cs => (line? doc cs).bind fun (doc, rest) => lines? bound doc rest

end Partial

def skipByteOrderMark : List Char → List Char
  | c :: rest => if c.toNat = 0xFEFF then rest else c :: rest
  | [] => []

def parse? (text : List Char) : Option Members := do
  let text := skipByteOrderMark text
  let doc ← Partial.lines? (text.length + 1) .start text
  doc.close?

def asText? : Toml → Option String
  | .text s => some s
  | _ => none

/-- The text under a key that may be absent. -/
def optionalText? (key : String) (members : Members) : Option (Option String) :=
  match find? key members with
  | none => some none
  | some value => value.asText?.map some

end ModCatalog.Document.Toml
