import Gateway.Text.Utf8
/-!
# CRC-32

The cyclic redundancy check of compressed files: the bytes are read least significant bit first and
divided by the reversed polynomial, starting and ending with all bits inverted.
-/

namespace Gateway.Crc32

/-- The reversed polynomial. -/
def polynomial : UInt32 := 0xEDB88320

/-- Divides by one bit. -/
def stepBit (r : UInt32) : UInt32 :=
  if r &&& 1 = 1 then (r >>> 1) ^^^ polynomial else r >>> 1

/-- The remainder after one more byte. -/
def stepByte (r : UInt32) (b : UInt8) : UInt32 :=
  stepBit (stepBit (stepBit (stepBit (stepBit (stepBit (stepBit (stepBit (r ^^^ b.toUInt32))))))))

/-- The check value of a byte string. -/
def check (bs : Bytes) : UInt32 := bs.foldl stepByte 0xFFFFFFFF ^^^ 0xFFFFFFFF

end Gateway.Crc32
