import FieldBuffers.Binary.Basic

/-!
Decimal numerals: a coefficient times a power of ten, written positionally, and the binary word
nearest to one.
-/

namespace FieldBuffers

structure Decimal where
  coefficient : Nat
  exponent : Int
  deriving DecidableEq, Repr

namespace Decimal

/-- The decimal digits of a number, most significant first. -/
def digits (n : Nat) : List Char := Nat.toDigits 10 n

/-- Zeros at the end of the coefficient go into the exponent; `fuel` bounds how many. -/
def stripZeros : Nat → Decimal → Decimal
  | 0, d => d
  | fuel + 1, d =>
    if d.coefficient ≠ 0 ∧ d.coefficient % 10 = 0 then
      stripZeros fuel ⟨d.coefficient / 10, d.exponent + 1⟩
    else d

def normalize (d : Decimal) : Decimal := stripZeros (digits d.coefficient).length d

/-- Written without an exponent, with a point only before digits. -/
def positional (d : Decimal) : List Char :=
  let ds := digits d.coefficient
  if d.coefficient = 0 then ['0']
  else if 0 ≤ d.exponent then ds ++ List.replicate d.exponent.toNat '0'
  else
    let places := (-d.exponent).toNat
    if places < ds.length then ds.take (ds.length - places) ++ '.' :: ds.drop (ds.length - places)
    else '0' :: '.' :: (List.replicate (places - ds.length) '0' ++ ds)

/-- Numerals of more than this many digits before the point, or zeros after it, are beyond the
range of every format. -/
def reach : Int := 5000

/-- The magnitude nearest to a numeral. -/
def round (F : Binary.Format) (d : Decimal) : Nat :=
  let top : Int := (digits d.coefficient).length + d.exponent
  if d.coefficient = 0 ∨ top < -reach then 0
  else if reach < top then F.infinity
  else if 0 ≤ d.exponent then F.roundQuotient (d.coefficient * 10 ^ d.exponent.toNat) 1
  else F.roundQuotient d.coefficient (10 ^ (-d.exponent).toNat)

end Decimal

end FieldBuffers
