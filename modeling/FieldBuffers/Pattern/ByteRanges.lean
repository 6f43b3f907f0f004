import FieldBuffers.Pattern.CharSet

/-!
Ranges of characters as bytes of UTF-8: each is some sequences of ranges of bytes, in the order of
the characters.
-/

namespace FieldBuffers.Pattern

/-- The bounds of a byte, both ends included. -/
abbrev ByteRange := Nat × Nat

/-- Any bytes that go on with a character. -/
def anyBytes (n : Nat) : List ByteRange := List.replicate n (0x80, 0xBF)

/-- The numbers from `low` to `high` in `n` digits of base 64, as bytes. The first digit counts from
`base`. -/
def spread : Nat → Nat → Nat → Nat → List (List ByteRange)
  | _, 0, _, _ => [[]]
  | base, n + 1, low, high =>
    let unit := 64 ^ n
    let a := low / unit
    let b := high / unit
    let under (digit low high : Nat) : List (List ByteRange) :=
      (spread 0x80 n low high).map ((base + digit, base + digit) :: ·)
    if a = b then under a (low % unit) (high % unit)
    else
      let below := if low % unit = 0 then [] else under a (low % unit) (unit - 1)
      let above := if high % unit = unit - 1 then [] else under b 0 (high % unit)
      let first := if below.isEmpty then a else a + 1
      let last := if above.isEmpty then b + 1 else b
      let middle := if first < last then [(base + first, base + last - 1) :: anyBytes n] else []
      below ++ middle ++ above

/-- The characters of each length: their bounds, how many bytes they have, and what their first byte
counts from. -/
def lengthClasses : List (Nat × Nat × Nat × Nat) :=
  [(0, 0x7F, 1, 0), (0x80, 0x7FF, 2, 0xC0), (0x800, 0xD7FF, 3, 0xE0), (0xE000, 0xFFFF, 3, 0xE0),
    (0x10000, 0x10FFFF, 4, 0xF0)]

/-- The bytes of the characters in a range. -/
def byteRanges (range : Nat × Nat) : List (List ByteRange) :=
  lengthClasses.flatMap fun (lowest, highest, n, base) =>
    let low := max range.1 lowest
    let high := min range.2 highest
    if low ≤ high then spread base n low high else []

end FieldBuffers.Pattern
