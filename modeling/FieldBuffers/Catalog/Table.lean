import FieldBuffers.Error
import FieldBuffers.Decimal.Reading
import FieldBuffers.Text.Blank

/-!
Tables of field definitions, and their classic form: one definition a line, with a name, a number,
a kind, a flag that means nothing and a comment. A line `*base` gives what is added to the numbers
after it; blank lines and lines that start with `#` or `$` are skipped.
-/

namespace FieldBuffers

structure FieldDef where
  name : String
  /-- Relative to the base of the table. -/
  number : Nat
  type : FieldType
  comment : Option String := none
  deriving DecidableEq, Repr

structure FieldTable where
  base : Nat := 0
  fields : List FieldDef := []
  deriving DecidableEq, Repr

namespace FieldTable

/-- Numbers of tables have 32 bits. -/
def maxNumber : Nat := 2 ^ 32 - 1

/-- What a line of the classic form says. -/
inductive Line where
  | nothing
  | base (n : Nat)
  | definition (d : FieldDef)

def natural? (cs : List Char) : Option Nat :=
  (Decimal.integer? 0 maxNumber cs).map Int.toNat

/-- What is left of a text that starts with another. -/
def after? : List Char → List Char → Option (List Char)
  | [], cs => some cs
  | _ :: _, [] => none
  | p :: ps, c :: cs => if p = c then after? ps cs else none

/-- The words after the flag. -/
def commentOf : List (List Char) → Option String
  | _ :: w :: ws => some (" ".intercalate ((w :: ws).map String.ofList))
  | _ => none

/-- A definition, with its number taken from the base in force. -/
def parseDefinition (base : Nat) (line : List Char) : Except String FieldDef :=
  match Text.words line with
  | name :: number :: keyword :: rest =>
    match natural? number with
    | none => .error s!"invalid field number '{String.ofList number}'"
    | some n =>
      match FieldType.ofKeyword? (String.ofList keyword) with
      | none => .error s!"unknown field type '{String.ofList keyword}'"
      | some type =>
        if base + n ≤ maxNumber then
          .ok { name := String.ofList name, number := base + n, type, comment := commentOf rest }
        else .error "field number overflows"
  | _ => .error "expected '<name> <number> <type>'"

def parseLine (base : Nat) (raw : List Char) : Except String Line :=
  let line := Text.trim raw
  match line with
  | [] | '#' :: _ | '$' :: _ => .ok .nothing
  | _ =>
    match after? "*base".toList line with
    | some rest =>
      let digits := Text.trim rest
      match natural? digits with
      | some n => .ok (.base n)
      | none => .error s!"invalid base '{String.ofList digits}'"
    | none => (parseDefinition base line).map .definition

/-- The definitions of some lines, of which the first has the given number. -/
def parseLines : Nat → Nat → List (List Char) → Except Error (List FieldDef)
  | _, _, [] => .ok []
  | number, base, line :: lines =>
    match parseLine base line with
    | .error cause => .error (.textParse number cause)
    | .ok .nothing => parseLines (number + 1) base lines
    | .ok (.base n) => parseLines (number + 1) n lines
    | .ok (.definition d) => (parseLines (number + 1) base lines).map (d :: ·)

/-- A table in the classic form. Its numbers are taken from its bases, its own base is zero. -/
def ofText (text : String) : Except Error FieldTable :=
  (parseLines 1 0 (Text.linesBy '\n' '\r' text.toList)).map fun fields => { fields }

/-- Names with their numbers from zero and their kinds. -/
def resolved (t : FieldTable) : List (String × Nat × FieldType) :=
  t.fields.map fun d => (d.name, t.base + d.number, d.type)

end FieldTable

end FieldBuffers
