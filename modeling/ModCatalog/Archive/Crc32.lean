/-!
# Checksums

The cyclic redundancy check of 32 bits that archives carry for each entry.
-/

namespace ModCatalog.Archive.Crc32

/-- One bit of the division by the reversed polynomial. -/
def shift (crc : UInt32) : UInt32 :=
  if crc &&& 1 = 1 then (crc >>> 1) ^^^ 0xEDB88320 else crc >>> 1

def remainder (byte : UInt32) : UInt32 := Nat.repeat shift 8 byte

def table : Array UInt32 := (Array.range 256).map fun byte => remainder (UInt32.ofNat byte)

/-- Take one more byte into a checksum. -/
def update (crc : UInt32) (byte : UInt8) : UInt32 :=
  (crc >>> 8) ^^^ table.getD ((crc ^^^ byte.toUInt32) &&& 0xFF).toNat 0

def checksum (bytes : ByteArray) : UInt32 := bytes.foldl update 0xFFFFFFFF ^^^ 0xFFFFFFFF

end ModCatalog.Archive.Crc32
