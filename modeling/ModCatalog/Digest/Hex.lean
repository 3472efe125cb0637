import ModCatalog.Digest.Sha256
import ModCatalog.Text.Numeral

/-!
# Content hashes

The digest of a content as text, and the comparison of such texts.
-/

namespace ModCatalog

/-- The digest of a content in lower-case hexadecimal digits. -/
def contentHash (content : ByteArray) : String :=
  String.ofList ((Digest.Sha256.digest content).flatMap fun byte => Text.hexDigits 2 byte.toNat)

/-- Whether two hashes are the same, whatever the case of their letters. -/
def sameHash (a b : String) : Bool := a.toList.map Char.toLower = b.toList.map Char.toLower

end ModCatalog
