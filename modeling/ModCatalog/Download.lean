import ModCatalog.Digest.Hex
import ModCatalog.Platform.Basic

/-!
# The download cache

Contents of platform files that are kept in a directory.  A kept content counts only if it has the
length and the hash that the platform states; any other is downloaded again.
-/

namespace ModCatalog

/-- A directory for downloads; without `keeps`, nothing stays there once it was read. -/
structure DownloadCache where
  /-- The directory as it is written. -/
  directory : String
  keeps : Bool
deriving DecidableEq, Repr

namespace DownloadCache

/-- Where the content of a file is kept, as it is written. -/
def pathText (cache : DownloadCache) (file : PlatformFile) : String :=
  Path.joinText (Path.joinText cache.directory file.link.platform)
    (toString file.link.fileId ++ ".jar")

/-- Whether a content has the hash of a file; a file without a hash accepts every content. -/
def isGenuine (file : PlatformFile) (content : ByteArray) : Bool :=
  file.hash.isEmpty || sameHash (contentHash content) file.hash

/-- Refuse a content that has not the hash of a file. -/
def verify (file : PlatformFile) (content : ByteArray) : Except Fault Unit :=
  if isGenuine file content then .ok ()
  else .error (.download file.link.text
    ("hash mismatch: expected " ++ file.hash ++ ", got " ++ contentHash content))

/-- The kept content of a file if it counts; a wrong one of the right length is removed. -/
def take (cache : DownloadCache) (file : PlatformFile) (tree : FileTree) :
    Option ByteArray × FileTree :=
  let path := cache.pathText file
  match tree.read path with
  | .error _ => (none, tree)
  | .ok content =>
      if content.size ≠ file.length then (none, tree)
      else if !isGenuine file content then (none, tree.after (.removeFile path))
      else (some content, if cache.keeps then tree else tree.after (.removeFile path))

/-- Keep a content if the cache keeps any and there is a way to its path. -/
def store (cache : DownloadCache) (file : PlatformFile) (content : ByteArray) (tree : FileTree) :
    FileTree :=
  if cache.keeps then tree.after (.install (cache.pathText file) content) else tree

/-- The content of a file, kept or downloaded. -/
def fetch {σ : Type} (cache : DownloadCache) (platform : Platform σ) (file : PlatformFile) :
    StateM (FileTree × σ) (Except Fault ByteArray) := fun (tree, memory) =>
  match cache.take file tree with
  | (some content, tree) => (.ok content, tree, memory)
  | (none, tree) =>
      let (answer, memory) := platform.download tree file memory
      match answer with
      | .error fault => (.error fault, tree, memory)
      | .ok content =>
          match verify file content with
          | .error fault => (.error fault, tree, memory)
          | .ok _ => (.ok content, cache.store file content tree, memory)

def fetchAll {σ : Type} (cache : DownloadCache) (platform : Platform σ)
    (files : List PlatformFile) :
    StateM (FileTree × σ) (List (PlatformFile × Except Fault ByteArray)) :=
  files.mapM fun file => do return (file, ← cache.fetch platform file)

end DownloadCache

end ModCatalog
