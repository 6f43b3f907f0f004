import FieldBuffers.Bytes

/-!
The cyclic redundancy check of 32 bits with the reflected polynomial `0xEDB88320`, started from
all ones and inverted at the end.
-/

namespace FieldBuffers.Checksum

def polynomial : UInt32 := 0xEDB88320

/-- One bit of division by the polynomial. -/
def shift (r : UInt32) : UInt32 :=
  if r &&& 1 = 1 then (r >>> 1) ^^^ polynomial else r >>> 1

def shifts : Nat → UInt32 → UInt32
  | 0, r => r
  | n + 1, r => shifts n (shift r)

/-- The remainders of all bytes. -/
def table : Array UInt32 := Array.ofFn fun i : Fin 256 => shifts 8 (UInt32.ofNat i)

/-- Taking in one byte. -/
def step (r : UInt32) (b : UInt8) : UInt32 :=
  let i := (r ^^^ b.toUInt32) &&& 0xFF
  (table[i.toNat]?.getD (shifts 8 i)) ^^^ (r >>> 8)

def crc32 (bs : Bytes) : UInt32 := (bs.foldl step 0xFFFFFFFF) ^^^ 0xFFFFFFFF

end FieldBuffers.Checksum
