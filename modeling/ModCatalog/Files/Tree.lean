import ModCatalog.Collection.Table
import ModCatalog.Files.Path

/-!
# File trees

Directories and files by their places, and what can be done to them.  A written path is followed
name by name: every name but the last must lead to a directory, also one that leads back.
-/

namespace ModCatalog

/-- What is at a place. -/
inductive FileNode
  | directory
  | file (content : ByteArray)

instance : DecidableEq FileNode
  | .directory, .directory => isTrue rfl
  | .file a, .file b =>
      decidable_of_iff (a.data = b.data)
        ⟨fun h => congrArg FileNode.file (ByteArray.ext h),
          fun h => congrArg ByteArray.data (FileNode.file.inj h)⟩
  | .directory, .file _ => isFalse FileNode.noConfusion
  | .file _, .directory => isFalse FileNode.noConfusion

/-- Why a file operation fails. -/
inductive FileFailure
  | notFound
  | notDirectory
  | isDirectory
  | nameTooLong
  /-- A path that holds a zero. -/
  | badPath
deriving DecidableEq, Repr

def FileFailure.message : FileFailure → String
  | .notFound => "No such file or directory (os error 2)"
  | .notDirectory => "Not a directory (os error 20)"
  | .isDirectory => "Is a directory (os error 21)"
  | .nameTooLong => "File name too long (os error 36)"
  | .badPath => "file name contained an unexpected NUL byte"

/-- What is below the root, and the directory from which relative paths start. -/
structure FileTree where
  working : Path
  nodes : Table Path FileNode

/-- A change of a file tree.  A change that fails keeps what it has done before. -/
abbrev FileChange (α : Type) := ExceptT FileFailure (StateM FileTree) α

namespace FileTree

def empty (working : Path) : FileTree := ⟨working, .empty⟩

def maxNameLength : Nat := 255

/-- The longest written path in bytes. -/
def maxPathLength : Nat := 4095

/-- What is at a place; the root is a directory. -/
def node? (tree : FileTree) (path : Path) : Option FileNode :=
  if path = [] then some .directory else tree.nodes.get? path

def isDirectory (tree : FileTree) (path : Path) : Bool := tree.node? path == some .directory

def contains (tree : FileTree) (path : Path) : Bool := (tree.node? path).isSome

/-- The places at and below a place. -/
def pathsFrom (tree : FileTree) (path : Path) : List Path :=
  tree.nodes.keys.filter fun key => path.isPrefixOf key

/-! ## Following written paths -/

/-- Refuse a written path that leads nowhere in any tree. -/
def checkText (text : String) : Except FileFailure Unit :=
  if text.toList.contains '\x00' then .error .badPath
  else if text.isEmpty then .error .notFound
  else if maxPathLength < text.utf8ByteSize then .error .nameTooLong
  else .ok ()

def start (tree : FileTree) (text : String) : Path :=
  if Path.isAbsolute text then [] else tree.working

/-- Go on from a place by a name that may stay or lead back; any other name leads to `next`. -/
def follow (tree : FileTree) (place : Path) (name : String)
    (next : Path → Except FileFailure Path) : Except FileFailure Path :=
  if !tree.isDirectory place then .error .notDirectory
  else if Path.isStay name then .ok place
  else if name = Path.backPart then .ok place.dropLast
  else if maxNameLength < name.utf8ByteSize then .error .nameTooLong
  else next (place ++ [name])

def enter (tree : FileTree) (place : Path) (name : String) : Except FileFailure Path :=
  tree.follow place name fun next => if tree.contains next then .ok next else .error .notFound

def find (tree : FileTree) (text : String) : Except FileFailure Path := do
  checkText text
  (Path.names text).foldlM tree.enter (tree.start text)

def isPresent (tree : FileTree) (text : String) : Bool := (tree.find text).isOk

def leadsToDirectory (tree : FileTree) (text : String) : Bool :=
  (tree.find text).toOption.any tree.isDirectory

/-- The place that a written path leads to or where a file with this path can be made. -/
def findNew (tree : FileTree) (text : String) : Except FileFailure Path := do
  checkText text
  let names := Path.names text
  let directory ← names.dropLast.foldlM tree.enter (tree.start text)
  tree.follow directory (names.getLastD "") .ok

def read (tree : FileTree) (text : String) : Except FileFailure ByteArray := do
  match tree.node? (← tree.find text) with
  | some (.file content) => return content
  | some .directory => throw .isDirectory
  | none => throw .notFound

end FileTree

namespace FileChange

/-- Give up with a failure, or go on with a value. -/
def ofExcept {α : Type} (value : Except FileFailure α) : FileChange α := ExceptT.mk (pure value)

def put (path : Path) (node : FileNode) : FileChange Unit :=
  modify fun tree => { tree with nodes := tree.nodes.put path node }

/-- Write a file in a directory that is there. -/
def write (text : String) (content : ByteArray) : FileChange Unit := do
  let tree ← get
  let path ← ofExcept (tree.findNew text)
  if tree.isDirectory path then throw .isDirectory
  put path (.file content)

/-- Go on from a place by a name, and make a directory there if there is nothing. -/
def enterNew (place : Path) (name : String) : FileChange Path := do
  let tree ← get
  let next ← ofExcept (tree.follow place name .ok)
  if !tree.contains next then put next .directory
  return next

/-- Make sure that a written path leads to a directory. -/
def makeDirectories (text : String) : FileChange Unit := do
  if text.isEmpty then return
  ofExcept (FileTree.checkText text)
  let path ← (Path.names text).foldlM enterNew ((← get).start text)
  if !(← get).isDirectory path then throw .notDirectory

/-- Write a file after making the directories that lead to it. -/
def install (text : String) (content : ByteArray) : FileChange Unit := do
  if let some parent := Path.parentText? text then makeDirectories parent
  write text content

def removeFile (text : String) : FileChange Unit := do
  let tree ← get
  let path ← ofExcept (tree.find text)
  if tree.isDirectory path then throw .isDirectory
  set { tree with nodes := tree.nodes.erase path }

end FileChange

namespace FileTree

/-- The tree after a change that may fail on the way. -/
def after (tree : FileTree) (change : FileChange Unit) : FileTree := (change.run.run tree).2

def removeAll (tree : FileTree) (path : Path) : FileTree :=
  { tree with nodes := ⟨tree.nodes.entries.filter fun entry => !path.isPrefixOf entry.1⟩ }

end FileTree

end ModCatalog
