import ModCatalog.ClassFile.Constant

/-!
# Defects of class files

Every way in which a class file can fail to be one, with its message.
-/

namespace ModCatalog.ClassFile

/-- Why bytes are not a class file that can be indexed. -/
inductive Defect
  | endOfData (need position remaining : Nat)
  | magic (word : UInt32)
  | poolTag (tag entry : Nat)
  | halfWideEntry
  | poolIndex (index : UInt16)
  | poolKind (index : UInt16) (expected : String) (found : Constant)
  | leadByte (byte : UInt8)
  | truncatedCharacter
  | methodDescriptor (descriptor : String)
  | tableRange (offset : Nat) (high low : Int32)
  | pairCount (offset : Nat) (pairs : Int32)
  | opcode (byte : UInt8) (offset : Nat)
  | elementNotInteger
  | elementKind (tag : Char) (found : Constant)
  | elementTag (tag : UInt8)
  /-- A use is met more often than can be counted. -/
  | countTooGreat
deriving DecidableEq, Repr

def Defect.message : Defect → String
  | .endOfData need position remaining =>
      "unexpected end of data: need " ++ toString need ++ " bytes at offset " ++
        toString position ++
        ", have " ++ toString remaining
  | .magic word => "bad class magic " ++ Text.hexText 8 word.toNat
  | .poolTag tag entry =>
      "unknown constant pool tag " ++ toString tag ++ " at entry " ++ toString entry
  | .halfWideEntry => "constant pool ends with a half long/double entry"
  | .poolIndex index => "invalid constant pool index " ++ toString index.toNat
  | .poolKind index expected found =>
      "constant pool entry " ++ toString index.toNat ++ " should be " ++ expected ++ ", found " ++
        found.describe
  | .leadByte byte => "invalid modified UTF-8 lead byte " ++ Text.hexText 2 byte.toNat
  | .truncatedCharacter => "truncated modified UTF-8 sequence"
  | .methodDescriptor descriptor => "malformed method descriptor " ++ Text.quoted descriptor
  | .tableRange offset high low =>
      "tableswitch at " ++ toString offset ++ " has high " ++ toString high.toInt ++ " < low " ++
        toString low.toInt
  | .pairCount offset pairs =>
      "lookupswitch at " ++ toString offset ++ " has " ++ toString pairs.toInt ++ " pairs"
  | .opcode byte offset =>
      "unknown opcode " ++ Text.hexText 2 byte.toNat ++ " at " ++ toString offset
  | .elementNotInteger => "annotation constant should be Integer"
  | .elementKind tag found =>
      "annotation element '" ++ String.singleton tag ++ "' points at " ++ found.describe
  | .elementTag tag => "unknown annotation element tag " ++ Text.hexText 2 tag.toNat
  | .countTooGreat => "attempt to add with overflow"

end ModCatalog.ClassFile
