import FieldBuffers.Decimal.Basic

/-!
The shortest numeral of a binary number: the fewest digits that read back, and of those the ones
nearest to the number.
-/

namespace FieldBuffers.Decimal

open Binary (Format)

/-- The exponent `k` with `10 ^ (k - 1) ≤ num / den < 10 ^ k`. -/
def magnitudeOf (num den : Nat) : Int :=
  if den ≤ num then (digits (num / den)).length
  else
    let k : Int := 1 - ((digits (den / num)).length : Int)
    if den ≤ num * 10 ^ (-k).toNat then k + 1 else k

/-- The two neighbours of a quotient among the multiples of `10 ^ unit`, the nearer one first. -/
def neighbours (num den : Nat) (unit : Int) : List Decimal :=
  let n := if 0 ≤ unit then num else num * 10 ^ (-unit).toNat
  let d := if 0 ≤ unit then den * 10 ^ unit.toNat else den
  let below := n / d
  if 2 * (n % d) < d then [⟨below, unit⟩, ⟨below + 1, unit⟩] else [⟨below + 1, unit⟩, ⟨below, unit⟩]

/-- The neighbours on the grids of `1`, `2`, … `count` digits. -/
def candidates (num den count : Nat) : List Decimal :=
  (List.range count).flatMap fun i => neighbours num den (magnitudeOf num den - (i + 1 : Nat))

/-- The numeral that is equal to a significand times a power of two. -/
def exact (significand : Nat) (exponent : Int) : Decimal :=
  if 0 ≤ exponent then ⟨significand * 2 ^ exponent.toNat, 0⟩
  else ⟨significand * 5 ^ (-exponent).toNat, exponent⟩

/-- Seventeen digits always suffice for the formats in use; the exact numeral stands in for more. -/
def shortest (F : Format) (significand : Nat) (exponent : Int) : Decimal :=
  let (num, den) := Format.scale significand 1 exponent
  let word := F.roundQuotient num den
  ((candidates num den 17).find? (·.round F == word)).getD (exact significand exponent)
    |>.normalize

/-- The text of a word: digits without an exponent, no point after a whole number. -/
def text (F : Format) (word : Nat) : List Char :=
  match F.decode word with
  | .nan => ['N', 'a', 'N']
  | .infinite s => (if s then ['-'] else []) ++ ['i', 'n', 'f']
  | .finite s m e =>
    (if s then ['-'] else []) ++ if m = 0 then ['0'] else (shortest F m e).positional

end FieldBuffers.Decimal
