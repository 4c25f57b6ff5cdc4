/-!
# Checksums

The cyclic redundancy check of 32 bits that archives keep for every file: the remainder of the
bytes, as a polynomial over bits in reverse order, by `0x04C11DB7`.
-/

namespace SheetMarkup.Zip

/-- Shifts the remainder by one bit. -/
def crcBit (crc : UInt32) : UInt32 :=
  if crc &&& 1 == 1 then (crc >>> 1) ^^^ 0xEDB88320 else crc >>> 1

/-- Takes up one byte. -/
def crcByte (crc : UInt32) (byte : UInt8) : UInt32 :=
  crcBit (crcBit (crcBit (crcBit (crcBit (crcBit (crcBit (crcBit (crc ^^^ byte.toUInt32))))))))

/-- The checksum of some bytes. -/
def crc32 (data : ByteArray) : UInt32 := data.foldl crcByte 0xFFFFFFFF ^^^ 0xFFFFFFFF

end SheetMarkup.Zip
