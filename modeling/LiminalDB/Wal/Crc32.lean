import LiminalDB.Foundations.Text

/-! # CRC-32

The checksum of the `crc32fast` crate: the reflected CRC-32 with polynomial `0xEDB88320`, one bit at a
time. The log is modelled for an arbitrary checksum; this is the one the program runs with. -/

namespace LiminalDB

/-- Shift one bit out of the register. -/
def crc32Shift (crc : UInt32) : UInt32 :=
  if crc &&& 1 = 1 then (crc >>> 1) ^^^ 0xEDB88320 else crc >>> 1

/-- Take one byte into the register. -/
def crc32Update (crc : UInt32) (b : UInt8) : UInt32 :=
  (crc32Shift ∘ crc32Shift ∘ crc32Shift ∘ crc32Shift ∘ crc32Shift ∘ crc32Shift ∘ crc32Shift
    ∘ crc32Shift) (crc ^^^ b.toUInt32)

/-- `crc32fast::hash`. -/
def crc32Ieee (bytes : Bytes) : UInt32 := bytes.foldl crc32Update 0xFFFFFFFF ^^^ 0xFFFFFFFF

-- the check value of the CRC catalogue: the digits one to nine
example : crc32Ieee [0x31, 0x32, 0x33, 0x34, 0x35, 0x36, 0x37, 0x38, 0x39] = 0xCBF43926 := by
  decide +kernel

end LiminalDB
