import FieldBuffers.Decimal.Basic

/-!
Numerals read as binary numbers and as whole numbers. A numeral has an optional sign, digits with
at most one point among or around them, and an optional exponent; infinities and not-a-number are
spelled out in any case.
-/

namespace FieldBuffers.Decimal

open Binary (Format)

def value (ds : List Char) : Nat := ds.foldl (fun n c => 10 * n + (c.toNat - '0'.toNat)) 0

/-- A sign in front, and what follows it. -/
def splitSign : List Char → Bool × List Char
  | '-' :: cs => (true, cs)
  | '+' :: cs => (false, cs)
  | cs => (false, cs)

/-- One or more digits and nothing else. -/
def natural? (cs : List Char) : Option Nat :=
  if !cs.isEmpty && cs.all Char.isDigit then some (value cs) else none

/-- A whole number between two bounds. A minus is refused where nothing below zero is in range. -/
def integer? (low high : Int) (cs : List Char) : Option Int :=
  let (negative, ds) := splitSign cs
  if negative && low == 0 then none
  else
    (natural? ds).bind fun n =>
      let i : Int := if negative then -n else n
      if low ≤ i ∧ i ≤ high then some i else none

/-- An exponent part, or nothing, to the end. -/
def exponent? : List Char → Option Int
  | [] => some 0
  | c :: cs =>
    if c == 'e' || c == 'E' then
      let (negative, ds) := splitSign cs
      (natural? ds).map fun n => if negative then -n else n
    else none

/-- An unsigned numeral. -/
def unsigned? (cs : List Char) : Option Decimal :=
  let whole := cs.takeWhile Char.isDigit
  let rest := cs.dropWhile Char.isDigit
  let (fraction, tail) :=
    match rest with
    | '.' :: more => (more.takeWhile Char.isDigit, more.dropWhile Char.isDigit)
    | _ => ([], rest)
  if whole.isEmpty && fraction.isEmpty then none
  else
    (exponent? tail).map fun e => ⟨value (whole ++ fraction), e - fraction.length⟩

/-- The word a text stands for. -/
def word? (F : Format) (cs : List Char) : Option Nat :=
  let (negative, body) := splitSign cs
  let lower := body.map Char.toLower
  if lower == "inf".toList || lower == "infinity".toList then
    some (F.withSign negative F.infinity)
  else if lower == "nan".toList then some (F.withSign negative F.quietNaN)
  else (unsigned? body).map fun d => F.withSign negative (d.round F)

end FieldBuffers.Decimal
