import FieldBuffers.Bytes

/-!
Base 64 with the standard alphabet and padding. Reading is strict: only what writing produces is
accepted.
-/

namespace FieldBuffers.Base64

/-- The character of a number below 64. -/
def letter (n : Nat) : Char :=
  if n < 26 then Char.ofNat (65 + n)
  else if n < 52 then Char.ofNat (71 + n)
  else if n < 62 then Char.ofNat (n - 4)
  else if n = 62 then '+' else '/'

def value? (c : Char) : Option Nat :=
  let n := c.toNat
  if 65 ≤ n && n ≤ 90 then some (n - 65)
  else if 97 ≤ n && n ≤ 122 then some (n - 71)
  else if 48 ≤ n && n ≤ 57 then some (n + 4)
  else if c == '+' then some 62
  else if c == '/' then some 63
  else none

/-- Three bytes a time become four characters; one or two at the end are padded. -/
def encodeAfter (done : List Char) : Bytes → List Char
  | a :: b :: c :: rest =>
    let n := (a.toNat * 256 + b.toNat) * 256 + c.toNat
    encodeAfter (letter (n % 64) :: letter (n / 64 % 64) :: letter (n / 4096 % 64)
      :: letter (n / 262144) :: done) rest
  | [a, b] =>
    let n := (a.toNat * 256 + b.toNat) * 4
    ('=' :: letter (n % 64) :: letter (n / 64 % 64) :: letter (n / 4096) :: done).reverse
  | [a] =>
    let n := a.toNat * 16
    ('=' :: '=' :: letter (n % 64) :: letter (n / 64) :: done).reverse
  | [] => done.reverse

def encode (bs : Bytes) : List Char := encodeAfter [] bs

/-- Bits that the last character of a padded group has to spare must be zero. -/
def decodeAfter (done : Bytes) : List Char → Option Bytes
  | [] => some done.reverse
  | [a, b, '=', '='] =>
    match value? a, value? b with
    | some x, some y =>
      let n := x * 64 + y
      if n % 16 = 0 then some (UInt8.ofNat (n / 16) :: done).reverse else none
    | _, _ => none
  | [a, b, c, '='] =>
    match value? a, value? b, value? c with
    | some x, some y, some z =>
      let n := (x * 64 + y) * 64 + z
      if n % 4 = 0 then some (UInt8.ofNat (n / 4 % 256) :: UInt8.ofNat (n / 1024) :: done).reverse
      else none
    | _, _, _ => none
  | a :: b :: c :: d :: rest =>
    match value? a, value? b, value? c, value? d with
    | some x, some y, some z, some t =>
      let n := ((x * 64 + y) * 64 + z) * 64 + t
      decodeAfter (UInt8.ofNat (n % 256) :: UInt8.ofNat (n / 256 % 256)
        :: UInt8.ofNat (n / 65536) :: done) rest
    | _, _, _, _ => none
  | _ => none

def decode (cs : List Char) : Option Bytes := decodeAfter [] cs

end FieldBuffers.Base64
