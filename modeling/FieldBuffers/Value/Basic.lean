import FieldBuffers.Buffer.Basic
import FieldBuffers.Binary.Basic

/-!
Field values. Numbers with a fraction are kept as the words of their binary format, so that every
one of them, not-a-numbers included, is kept bit for bit.
-/

namespace FieldBuffers

/-- Who is to free what a pointer points to. -/
inductive Ownership where
  | owned | borrowed
  deriving DecidableEq, Repr

def Ownership.toByte : Ownership → UInt8
  | owned => 0
  | borrowed => 1

def Ownership.ofByte? (b : UInt8) : Option Ownership :=
  if b = 0 then some .owned else if b = 1 then some .borrowed else none

inductive Value where
  | short (v : Int16)
  | long (v : Int64)
  /-- One byte, shown as the character of that number. -/
  | char (v : UInt8)
  | float (word : UInt32)
  | double (word : UInt64)
  | int (v : Int32)
  | string (s : String)
  | carray (data : Bytes)
  /-- Text in a named encoding. -/
  | mbstring (encoding : String) (data : Bytes)
  /-- A nested buffer. -/
  | fml (b : Buffer .wide)
  | ptr (address : UInt64) (ownership : Ownership)
  /-- A record of a named layout. -/
  | view (name : String) (data : Bytes)
  deriving DecidableEq

namespace Value

def type : Value → FieldType
  | short _ => .short
  | long _ => .long
  | char _ => .char
  | float _ => .float
  | double _ => .double
  | int _ => .int
  | string _ => .string
  | carray _ => .carray
  | mbstring .. => .mbstring
  | fml _ => .fml
  | ptr .. => .ptr
  | view .. => .view

/-- What fills the occurrences before one that is set out of turn. -/
def default : FieldType → Value
  | .short => short 0
  | .long => long 0
  | .char => char 0
  | .float => float 0
  | .double => double 0
  | .int => int 0
  | .string => string ""
  | .carray => carray []
  | .mbstring => mbstring "" []
  | .fml => fml .null
  | .ptr => ptr 0 .borrowed
  | .view => view "" []

theorem type_default (t : FieldType) : (default t).type = t := by cases t <;> rfl

end Value

end FieldBuffers
