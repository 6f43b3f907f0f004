import FieldBuffers.Value.Basic
import FieldBuffers.Decimal.Shortest
import FieldBuffers.Decimal.Reading
import FieldBuffers.Text.Blank
import FieldBuffers.Text.Utf8

/-!
Values as numbers and as text, and the two conversions between kinds: on the way in, numbers of
any kind into a number field; on the way out, whatever a reader asks for that the value can give.
-/

namespace FieldBuffers.Value

open Binary (binary32 binary64)

/-- Least and greatest numbers of 64 bits with a sign. -/
def longRange : Int × Int := (-(2 : Int) ^ 63, (2 : Int) ^ 63 - 1)

/-- A number as a whole one; fractions are cut off, and what is out of range is held at the end of
the range. -/
def toInt? : Value → Option Int
  | short v => some v.toInt
  | long v => some v.toInt
  | char v => some v.toNat
  | int v => some v.toInt
  | float w => some (binary32.toIntClamped longRange.1 longRange.2 w.toNat)
  | double w => some (binary64.toIntClamped longRange.1 longRange.2 w.toNat)
  | _ => none

/-- A number as a word of double precision. -/
def toDouble? : Value → Option Nat
  | short v => some (binary64.ofInt v.toInt)
  | long v => some (binary64.ofInt v.toInt)
  | char v => some (binary64.ofInt v.toNat)
  | int v => some (binary64.ofInt v.toInt)
  | float w => some (binary32.convert binary64 w.toNat)
  | double w => some w.toNat
  | _ => none

/-- A whole number as a value of a kind; bits that do not fit are dropped. -/
def ofInt : FieldType → Int → Value
  | .short, i => short (Int16.ofInt i)
  | .char, i => char (UInt8.ofInt i)
  | .int, i => int (Int32.ofInt i)
  | _, i => long (Int64.ofInt i)

/-- A word of double precision as a value of a kind. -/
def ofDouble : FieldType → Nat → Value
  | .float, w => float (UInt32.ofNat (binary64.convert binary32 w))
  | _, w => double (UInt64.ofNat w)

def isFraction (t : FieldType) : Bool := t = FieldType.float || t = FieldType.double

/-- A number as a value of a number's kind. -/
def convert? (t : FieldType) (v : Value) : Option Value :=
  if isFraction t then v.toDouble?.map (ofDouble t) else v.toInt?.map (ofInt t)

/-- The value as a field of some kind stores it: numbers are converted, all else has to be of the
kind already. -/
def coerce (v : Value) (t : FieldType) (field : FieldRef) : Except Error Value :=
  if v.type = t then .ok v
  else
    match if t.isNumeric then v.convert? t else none with
    | some u => .ok u
    | none => .error (.typeMismatch field t.keyword v.type.keyword)

/-- A value's text; bytes that are none are replaced. -/
def text? : Value → Option String
  | string s => some s
  | carray data => some (Text.lenient data)
  | mbstring _ data => some (Text.lenient data)
  | _ => none

def hexDigit (n : Nat) : Char := if n < 10 then Char.ofNat (48 + n) else Char.ofNat (87 + n)

/-- A number in base 16, in small letters. -/
def hex (n : Nat) : String := String.ofList (Nat.toDigits 16 n)

/-- The value in words; numbers and texts in full, all else by its size or name. -/
def display : Value → String
  | short v => toString v.toInt
  | long v => toString v.toInt
  | char v => String.singleton (Char.ofNat v.toNat)
  | float w => String.ofList (Decimal.text binary32 w.toNat)
  | double w => String.ofList (Decimal.text binary64 w.toNat)
  | int v => toString v.toInt
  | string s => s
  | carray data => s!"<{data.length} bytes>"
  | mbstring encoding data => s!"<{data.length} bytes {encoding}>"
  | fml b => s!"<fml32 {b.length} fields>"
  | ptr address _ => s!"0x{hex address.toNat}"
  | view name _ => s!"<view {name}>"

/-- The characters of a text that a number is read from. -/
def numeral (s : String) : List Char := Text.dropEndWhile (· == '\x00') (Text.trim s.toList)

/-- A number of some kind, written out. -/
def ofNumeral? (t : FieldType) (cs : List Char) : Option Value :=
  match t with
  | .short => (Decimal.integer? (-2 ^ 15) (2 ^ 15 - 1) cs).map (ofInt t)
  | .int => (Decimal.integer? (-2 ^ 31) (2 ^ 31 - 1) cs).map (ofInt t)
  | .long => (Decimal.integer? (-2 ^ 63) (2 ^ 63 - 1) cs).map (ofInt t)
  | .char => (Decimal.integer? 0 255 cs).map (ofInt t)
  | .float => (Decimal.word? binary32 cs).map fun w => float (UInt32.ofNat w)
  | .double => (Decimal.word? binary64 cs).map fun w => double (UInt64.ofNat w)
  | _ => none

/-- A text of one byte, which is a character by itself. -/
def loneByte? : Value → Option UInt8
  | string s => match Bytes.ofText s with
    | [b] => some b
    | _ => none
  | _ => none

/-- The number that a reader of some kind gets: a number converted, or a text read. -/
def readNumber? (t : FieldType) (v : Value) : Option Value :=
  match v.convert? t with
  | some u => some u
  | none =>
    match if t = FieldType.char then v.loneByte? else none with
    | some b => some (char b)
    | none => v.text?.bind fun s => ofNumeral? t (numeral s)

/-- What a reader gets who asks for some kind. -/
def read? (t : FieldType) (v : Value) : Option Value :=
  match t with
  | .short | .long | .char | .float | .double | .int => v.readNumber? t
  | .string =>
    match v with
    | string s => some (string s)
    | carray data | mbstring _ data => (Bytes.toText? data).map string
    | _ => if v.type.isNumeric then some (string v.display) else none
  | .carray =>
    match v with
    | carray data | mbstring _ data => some (carray data)
    | string s => some (carray (Bytes.ofText s))
    | _ => none
  | .mbstring | .fml | .ptr | .view => if v.type = t then some v else none

def read (t : FieldType) (field : FieldRef) (v : Value) : Except Error Value :=
  match v.read? t with
  | some u => .ok u
  | none => .error (.typeMismatch field t.keyword v.type.keyword)

end FieldBuffers.Value
