/-! The CRC-32 checksum of ZIP archives: the reflected polynomial, one bit at a time. -/
namespace ClassLoading.Crc32

def polynomial : UInt32 := 0xEDB88320

def bitStep (crc : UInt32) : UInt32 :=
  if crc &&& 1 = 1 then (crc >>> 1) ^^^ polynomial else crc >>> 1

def byteStep (crc : UInt32) (byte : UInt8) : UInt32 :=
  Nat.repeat bitStep 8 (crc ^^^ byte.toUInt32)

def checksum (bytes : List UInt8) : UInt32 := ~~~(bytes.foldl byteStep 0xFFFFFFFF)

end ClassLoading.Crc32
