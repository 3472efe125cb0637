import ModCatalog.Encoding.Catalog
import ModCatalog.Platform.Basic

/-!
# Platform files as JSON

The JSON form of the files of a platform and of the pages that list them.
-/

namespace ModCatalog

open Document

namespace PlatformFile

def toJson (file : PlatformFile) : Json :=
  .ofMembers [("link", file.link.toJson), ("file_name", .text file.fileName),
    ("hash", .text file.hash), ("length", .ofNat file.length)]

def ofJson? (json : Json) : Option PlatformFile := do
  let link ← (json.get? "link").bind PlatformLink.ofJson?
  return ⟨link, ← json.textAt "file_name", ← json.textAt "hash", ← json.natAt "length"⟩

end PlatformFile

def SearchPage.toJson (page : SearchPage) : Json :=
  .ofMembers [("files", .ofList PlatformFile.toJson page.files),
    ("next", .ofOption .text page.next)]

end ModCatalog
