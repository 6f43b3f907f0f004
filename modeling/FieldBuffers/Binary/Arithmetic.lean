import FieldBuffers.Binary.Basic

/-!
Arithmetic and order on the words of a binary format. Every operation is the exact one followed
by one rounding.
-/

namespace FieldBuffers.Binary.Format

variable (F : Format)

/-- A finite number as a whole number of units `2 ^ unit`, for a unit no larger than its own. -/
def units (negative : Bool) (significand : Nat) (exponent unit : Int) : Int :=
  let n : Int := significand * 2 ^ (exponent - unit).toNat
  if negative then -n else n

def add (a b : Nat) : Nat :=
  match F.decode a, F.decode b with
  | .nan, _ | _, .nan => F.quietNaN
  | .infinite s, .infinite t => if s = t then a else F.quietNaN
  | .infinite _, _ => a
  | _, .infinite _ => b
  | .finite s m e, .finite t n d =>
    let unit := min e d
    let sum := units s m e unit + units t n d unit
    if sum = 0 then F.withSign (s && t) 0 else F.ofDyadic (sum < 0) sum.natAbs unit

def sub (a b : Nat) : Nat := F.add a (F.negate b)

def mul (a b : Nat) : Nat :=
  match F.decode a, F.decode b with
  | .nan, _ | _, .nan => F.quietNaN
  | .infinite s, .infinite t => F.withSign (s != t) F.infinity
  | .infinite s, .finite t n _ => if n = 0 then F.quietNaN else F.withSign (s != t) F.infinity
  | .finite s m _, .infinite t => if m = 0 then F.quietNaN else F.withSign (s != t) F.infinity
  | .finite s m e, .finite t n d => F.ofDyadic (s != t) (m * n) (e + d)

def div (a b : Nat) : Nat :=
  match F.decode a, F.decode b with
  | .nan, _ | _, .nan => F.quietNaN
  | .infinite _, .infinite _ => F.quietNaN
  | .infinite s, .finite t _ _ => F.withSign (s != t) F.infinity
  | .finite s _ _, .infinite t => F.withSign (s != t) 0
  | .finite s m e, .finite t n d =>
    if n = 0 then
      if m = 0 then F.quietNaN else F.withSign (s != t) F.infinity
    else
      let (p, q) := scale m n (e - d)
      F.withSign (s != t) (F.roundQuotient p q)

/-- What is left of `a` after taking away `b` as often as it goes; it has the sign of `a`. -/
def rem (a b : Nat) : Nat :=
  match F.decode a, F.decode b with
  | .nan, _ | _, .nan => F.quietNaN
  | .infinite _, _ => F.quietNaN
  | _, .infinite _ => a
  | .finite s m e, .finite _ n d =>
    if n = 0 then F.quietNaN
    else
      let unit := min e d
      let p := (units false m e unit).toNat
      let q := (units false n d unit).toNat
      F.ofDyadic s (p % q) unit

/-- The order of two numbers; none where one is not a number. The two zeros are equal. -/
def compare? (a b : Nat) : Option Ordering :=
  match F.decode a, F.decode b with
  | .nan, _ | _, .nan => none
  | .infinite s, .infinite t => some (compare t.toNat s.toNat)
  | .infinite s, _ => some (if s then .lt else .gt)
  | _, .infinite t => some (if t then .gt else .lt)
  | .finite s m e, .finite t n d =>
    let unit := min e d
    some (compare (units s m e unit) (units t n d unit))

def isZero (a : Nat) : Bool := F.magnitude a == 0

end FieldBuffers.Binary.Format
