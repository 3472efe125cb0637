import ModCatalog.Archive.Zip
import ModCatalog.ClassFile.Index
import ModCatalog.EnumExtension
import ModCatalog.Tag

/-!
# Jars

What is read of a jar by the names of its entries: single contents, tags, enum extensions and
classes.
-/

namespace ModCatalog.Archive

/-- The content under a name, if there is an entry with it. -/
def read (jar : Archive) (name : String) : Except Fault (Option ByteArray) :=
  match jar.find? name with
  | none => .ok none
  | some entry => (jar.content entry).map some

def contains (jar : Archive) (name : String) : Bool := jar.names.contains name

/--
The names of the entries without repetition. In which order they come is left open by archives; here
it is that of their first entries.
-/
def distinctNames (jar : Archive) : List String := jar.names.eraseDups

def tags (jar : Archive) : Except Fault (List TagFile) := do
  let found ← jar.distinctNames.mapM fun path =>
    match TagFile.name? path with
    | none => .ok none
    | some name => do
        let content ← jar.read path
        return content.bind fun content => TagFile.ofContent? name content.toList
  return found.filterMap id

/-- The extensions of a declaration file; a file that is no JSON declares none. -/
def extensionsOf (content : ByteArray) : List EnumExtension :=
  match EnumExtension.ofContent content.toList with
  | .ok extensions => extensions
  | .error _ => []

/-- The enum extensions declared in the files at some paths; missing files declare none. -/
def enumExtensions (jar : Archive) (paths : List String) : Except Fault (List EnumExtension) := do
  let found ← paths.mapM fun path => do
    return (← jar.read path).toList.flatMap extensionsOf
  return found.flatten

/-- Whether an entry is a class that is indexed. -/
def isIndexable (name : String) : Bool :=
  ".class".toList.isSuffixOf name.toList && !"META-INF/".toList.isPrefixOf name.toList

/-- The record of an entry, if it is a class; every entry must be one that can be opened. -/
def indexEntry (options : ClassFile.IndexOptions) (jar : Archive) (entry : ArchiveEntry) :
    Except Fault (Option ClassFile.ClassRecord) := do
  let opened ← jar.openEntry entry
  if isDirectory entry || !isIndexable entry.name then return none
  let content ← readOpened entry opened
  match ClassFile.index options content.toList with
  | .ok record => return record
  | .error defect => throw (.ofEntryDefect entry.name defect)

/-- The classes of a jar in directory order; the first defect is the fault of the whole jar. -/
def indexClasses (options : ClassFile.IndexOptions) (jar : Archive) :
    Except Fault (List ClassFile.ClassRecord) := do
  let found ← jar.entries.mapM (indexEntry options jar)
  return found.filterMap id

end ModCatalog.Archive
