import FieldBuffers.Numerals

/-!
Binary floating-point formats: the words of a format, the numbers they stand for, and the word
nearest to a quotient. A word is a natural number; its sign is the top bit, below it stand the
exponent and the fraction.
-/

namespace FieldBuffers.Binary

structure Format where
  /-- Bits of a significand, the leading one included. -/
  precision : Nat
  exponentBits : Nat
  deriving DecidableEq

def binary32 : Format := ⟨24, 8⟩

def binary64 : Format := ⟨53, 11⟩

/-- What a word stands for; a finite one is a significand times a power of two. -/
inductive Datum where
  | nan
  | infinite (negative : Bool)
  | finite (negative : Bool) (significand : Nat) (exponent : Int)
  deriving DecidableEq, Repr

namespace Format

def fractionBits (F : Format) : Nat := F.precision - 1

def signWeight (F : Format) : Nat := 2 ^ (F.fractionBits + F.exponentBits)

/-- The exponent of the last bit of the smallest numbers. -/
def leastExponent (F : Format) : Int := 3 - (2 : Int) ^ (F.exponentBits - 1) - F.precision

/-- The word of positive infinity; finite positive numbers are the words below it. -/
def infinity (F : Format) : Nat := (2 ^ F.exponentBits - 1) * 2 ^ F.fractionBits

/-- The quiet not-a-number with an empty payload. -/
def quietNaN (F : Format) : Nat := F.infinity + 2 ^ (F.fractionBits - 1)

def isNegative (F : Format) (word : Nat) : Bool := F.signWeight ≤ word

def magnitude (F : Format) (word : Nat) : Nat := word % F.signWeight

def withSign (F : Format) (negative : Bool) (magnitude : Nat) : Nat :=
  if negative then F.signWeight + magnitude else magnitude

def negate (F : Format) (word : Nat) : Nat := F.withSign (!F.isNegative word) (F.magnitude word)

def decode (F : Format) (word : Nat) : Datum :=
  let s := F.isNegative word
  let a := F.magnitude word
  let field := a / 2 ^ F.fractionBits
  let fraction := a % 2 ^ F.fractionBits
  if a = F.infinity then .infinite s
  else if F.infinity < a then .nan
  else if field = 0 then .finite s fraction F.leastExponent
  else .finite s (2 ^ F.fractionBits + fraction) (F.leastExponent + (field - 1 : Nat))

/-- The whole number nearest to a quotient; a half goes to the even neighbour. -/
def nearest (num den : Nat) : Nat :=
  let q := num / den
  let r := num % den
  if 2 * r < den then q else if den < 2 * r then q + 1 else q + q % 2

/-- The largest `k` with `2 ^ k ≤ num / den`. -/
def floorLog (num den : Nat) : Int :=
  let k : Int := (Nat.log2 num : Int) - Nat.log2 den
  let fits := if 0 ≤ k then den * 2 ^ k.toNat ≤ num else den ≤ num * 2 ^ (-k).toNat
  if fits then k else k - 1

/-- A quotient times a power of two, as a quotient. -/
def scale (num den : Nat) (k : Int) : Nat × Nat :=
  if 0 ≤ k then (num * 2 ^ k.toNat, den) else (num, den * 2 ^ (-k).toNat)

/-- The magnitude nearest to a quotient: the unit of its last place is the least that leaves no
more than `precision` bits, and what is too large becomes infinity. -/
def roundQuotient (F : Format) (num den : Nat) : Nat :=
  if num = 0 then 0
  else
    let unit := max F.leastExponent (floorLog num den - F.fractionBits)
    let (n, d) := scale num den (-unit)
    min F.infinity ((unit - F.leastExponent).toNat * 2 ^ F.fractionBits + nearest n d)

/-- The word nearest to a significand times a power of two. -/
def ofDyadic (F : Format) (negative : Bool) (significand : Nat) (exponent : Int) : Nat :=
  let (n, d) := scale significand 1 exponent
  F.withSign negative (F.roundQuotient n d)

/-- The word nearest to a whole number. -/
def ofInt (F : Format) (i : Int) : Nat := F.ofDyadic (i < 0) i.natAbs 0

/-- The whole part of a finite number. -/
def truncate (significand : Nat) (exponent : Int) : Nat :=
  if 0 ≤ exponent then significand * 2 ^ exponent.toNat else significand / 2 ^ (-exponent).toNat

/-- The whole part, held between two bounds; zero for what is no number. -/
def toIntClamped (F : Format) (low high : Int) (word : Nat) : Int :=
  match F.decode word with
  | .nan => 0
  | .infinite true => low
  | .infinite false => high
  | .finite s m e =>
    let n : Int := truncate m e
    max low (min high (if s then -n else n))

/-- The nearest word of another format; payloads of not-a-numbers keep their leading bits. -/
def convert (F G : Format) (word : Nat) : Nat :=
  let s := F.isNegative word
  match F.decode word with
  | .infinite _ => G.withSign s G.infinity
  | .finite _ m e => G.ofDyadic s m e
  | .nan =>
    let payload := F.magnitude word % 2 ^ (F.fractionBits - 1)
    let kept := payload * 2 ^ G.fractionBits / 2 ^ F.fractionBits
    G.withSign s (G.quietNaN + kept)

end Format

end FieldBuffers.Binary
